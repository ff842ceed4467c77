import ComponentUsage.Component.Basic
import ComponentUsage.Journal.Record
import ComponentUsage.Json.Basic
import ComponentUsage.Path.Display
/-!
# The tree below a component

The components that a component uses, those that they use, and so on. A
component that is on the way to itself is not entered again: the way is then
reported as a cycle.
-/

namespace ComponentUsage

/-- A component with the components that it uses. -/
inductive UsageTree where
  | node (name selector : String) (path : Option String) (children : List UsageTree)
  deriving Inhabited

namespace UsageTree

mutual

def toJson : UsageTree → Json
  | .node name selector path children =>
    .object [("name", .text name), ("selector", .text selector),
      ("path", match path with | some p => .text p | none => .null),
      ("children", .list (listToJson children))]

def listToJson : List UsageTree → List Json
  | [] => []
  | t :: ts => t.toJson :: listToJson ts

end

/-- What trees grow from. -/
structure Soil where
  registry : Registry
  usage : Usage
  /-- How a template's path is shown. -/
  shown : Option String → Option String

/-- The registered components that a selector uses, in the order of the usage. -/
def Soil.usedBy (soil : Soil) (selector : String) : List (String × Component) :=
  soil.usage.entries.filterMap fun (child, users) =>
    if users.contains selector then (soil.registry.get? child).map (child, ·) else none

theorem Soil.mem_keys_of_mem_usedBy {soil : Soil} {selector : String} {e : String × Component}
    (h : e ∈ soil.usedBy selector) : e.1 ∈ soil.usage.keys := by
  obtain ⟨⟨child, users⟩, hm, he⟩ := List.mem_filterMap.1 h
  dsimp only at he
  split at he
  · obtain ⟨c, -, rfl⟩ := Option.map_eq_some_iff.1 he
    exact List.mem_map.2 ⟨_, hm, rfl⟩
  · cases he

/-- The names of the usage that are not on a path. -/
def Soil.offPath (soil : Soil) (path : List String) : List String :=
  soil.usage.keys.filter (! path.contains ·)

/-- A path that takes in a name leaves fewer names off it. -/
theorem Soil.length_offPath_lt {soil : Soil} {path : List String} {name : String}
    (hk : name ∈ soil.usage.keys) (hp : path.contains name = false) :
    (soil.offPath (path ++ [name])).length < (soil.offPath path).length := by
  have h : soil.offPath (path ++ [name]) = (soil.offPath path).filter (· ≠ name) := by
    simp only [offPath, List.filter_filter]
    congr 1
    funext x
    by_cases hx : x = name <;> simp [hx]
  rw [h]
  refine List.length_filter_lt_length_iff_exists.2 ⟨name, ?_, by simp⟩
  simp only [offPath, List.mem_filter]
  exact ⟨hk, by simp only [hp, Bool.not_false]⟩

/-- The tree of a component at the end of a path, and the cycles that end below
it: each is the path to a component with the name on it that comes up again. -/
def grow (soil : Soil) (path : List String) (selector : String) (c : Component) :
    UsageTree × List (List String) :=
  let below := (soil.usedBy selector).attach.map fun ⟨(child, cc), _hm⟩ =>
    if _h : path.contains child = true then (none, [path ++ [child]])
    else
      let (tree, cycles) := grow soil (path ++ [child]) child cc
      (some tree, cycles)
  (.node c.name selector (soil.shown c.template) (below.filterMap (·.1)), below.flatMap (·.2))
termination_by (soil.offPath path).length
decreasing_by
  exact Soil.length_offPath_lt (Soil.mem_keys_of_mem_usedBy _hm) (by simpa using _h)

/-- The selector at which a tree is to start belongs to no component. -/
structure MissingRoot where
  selector : String
  /-- The selectors that there are, with the names of their components. -/
  available : List (String × String)
  deriving DecidableEq, Repr

def MissingRoot.message (e : MissingRoot) : String :=
  s!"Root component '{e.selector}' not found. Check your code or specify another root selector."

/-- Selectors and names of a registry. -/
def available (registry : Registry) : List (String × String) :=
  registry.entries.map fun (selector, c) => (selector, c.name)

/-- The tree at a selector, and its cycles. -/
def ofRoot (soil : Soil) (selector : String) :
    Except MissingRoot (UsageTree × List (List String)) :=
  match soil.registry.get? selector with
  | none => .error ⟨selector, UsageTree.available soil.registry⟩
  | some c => .ok (grow soil [selector] selector c)

/-- The tree at a selector that belongs to a component, and its cycles. -/
def rooted (soil : Soil) (selector : String) (h : soil.registry.contains selector = true) :
    UsageTree × List (List String) :=
  grow soil [selector] selector (soil.registry.getAt selector h)

/-- No root is missing there. -/
theorem ofRoot_of_contains {soil : Soil} {selector : String} (h : soil.registry.contains selector = true) :
    ofRoot soil selector = .ok (rooted soil selector h) := by
  rw [ofRoot, Table.get?_eq_getAt h, rooted]

/-- The part of the program that makes trees. -/
def source : String := "componentgraph.core.analysis.renderer"

/-- How a cycle is told. -/
def cycleMessage (cycle : List String) : String :=
  "Usage cycle detected: " ++ " -> ".intercalate cycle

/-- The reports about cycles. -/
def cycleRecords (cycles : List (List String)) : List Record :=
  cycles.map fun cycle => { level := .warning, source, message := cycleMessage cycle }

end UsageTree
end ComponentUsage
