import ComponentUsage.Proofs.Discovery
import ComponentUsage.Proofs.Scan.Collisions
import ComponentUsage.Proofs.Tree.Ways
import ComponentUsage.Usage.Graph
/-!
# Components whose files are moved

The files of components may lie elsewhere, with all that the components are called left as it
is. Then the flat view is the same (`graph_moved`). The usage is the same if the templates read
the same (`usage_found_moved`), and the trees if they are shown the same (`ofRoot_moved`).
-/

namespace ComponentUsage

/-- A component whose files are at other paths. -/
def Component.moved (f : String → String) (c : Component) : Component :=
  { c with definition := f c.definition, template := c.template.map f }

/-- The components of a registry at other paths. -/
def Registry.moved (f : String → String) (registry : Registry) : Registry :=
  registry.mapValues fun _ => Component.moved f

variable {f : String → String}

theorem upsert_map {α β : Type} (g : α → β) (k : String) (v : α) (es : List (String × α)) :
    (upsert k v es).map (fun e => (e.1, g e.2)) = upsert k (g v) (es.map fun e => (e.1, g e.2)) := by
  induction es with
  | nil => rfl
  | cons e es ih =>
    rw [upsert, List.map_cons, upsert]
    split
    · rfl
    · rw [List.map_cons, ih]

theorem Table.mapValues_put {α β : Type} (g : α → β) (t : Table α) (k : String) (v : α) :
    (t.put k v).mapValues (fun _ => g) = (t.mapValues fun _ => g).put k (g v) := by
  simp only [Table.mapValues, Table.put, Table.mk.injEq]
  exact upsert_map g k v t.entries

/-- What is found is the same when it is moved before as when it is moved afterwards. -/
theorem Found.registry_moved (f : String → String) (cs : List Component) :
    (ofComponents (cs.map (Component.moved f))).registry = (ofComponents cs).registry.moved f := by
  -- from the end, where `add` takes a component in
  induction cs using List.reverseRecOn with
  | nil => rfl
  | append_singleton cs c ih =>
    rw [List.map_append, List.map_singleton, ofComponents, added_concat, add_eq, ofComponents, added_concat, add_eq,
      Registry.moved, Table.mapValues_put]
    exact congrArg (Table.put · c.selector (c.moved f)) ih

/-! ## The flat view and the usage -/

theorem Registry.graph_moved (registry : Registry) (usage : Usage) :
    (registry.moved f).graph usage = registry.graph usage := by
  rw [graph, graph, moved, Table.mapValues_mapValues]
  rfl

/-- Components whose templates read the same use each other in the same way. -/
theorem Usage.usage_found_moved {registry : Registry} {w w' : World}
    (h : ∀ e ∈ registry.entries, (e.2.moved f).reading w' = e.2.reading w) :
    (found (registry.moved f) w').usage = (found registry w).usage := by
  have husers : ∀ selector, users w' (registry.moved f).entries selector = users w registry.entries selector := by
    intro selector
    simp only [users, Registry.moved, Table.mapValues, List.filter_map, List.map_map]
    congr 1
    refine List.filter_congr fun e he => ?_
    simp only [Function.comp_apply, h e he]
  rw [found, found]
  simp only [husers]
  rw [Registry.moved, Table.mapValues_mapValues]

/-! ## The trees -/

namespace UsageTree

/-- What trees grow from, with the components at other paths. -/
def Soil.moved (soil : Soil) (f : String → String) (shown : Option String → Option String) : Soil where
  registry := soil.registry.moved f
  usage := soil.usage
  shown

variable {soil : Soil} {shown : Option String → Option String}

theorem usedBy_moved (selector : String) :
    (soil.moved f shown).usedBy selector = (soil.usedBy selector).map fun e => (e.1, e.2.moved f) := by
  unfold Soil.usedBy
  rw [List.map_filterMap]
  refine List.filterMap_congr fun e _ => ?_
  dsimp only [Soil.moved]
  rw [Registry.moved, Table.get?_mapValues]
  split
  · rw [Option.map_map, Option.map_map]
    rfl
  · rfl

/-- A tree is the same from components at other paths, if their templates are shown the same. -/
theorem grow_moved (h : ∀ e ∈ soil.registry.entries, shown (e.2.moved f).template = soil.shown e.2.template)
    (path : List String) (selector : String) (c : Component)
    (hc : shown (c.moved f).template = soil.shown c.template) :
    grow (soil.moved f shown) path selector (c.moved f) = grow soil path selector c := by
  induction path, selector, c using grow.induct soil with
  | case1 path selector c ih =>
    have hbranch : ∀ e ∈ soil.usedBy selector,
        branch (soil.moved f shown) path (e.1, e.2.moved f) = branch soil path e := by
      intro e he
      have hshown := h e (Table.mem_entries_iff.2 (Soil.mem_usedBy.1 he).2)
      unfold branch
      dsimp only
      split
      · rfl
      · rename_i hn
        rw [ih e.1 e.2 he hn hshown]
    have htrees := List.filterMap_congr fun e he => congrArg Prod.fst (hbranch e he)
    have hcycles := List.flatMap_congr fun e he => congrArg Prod.snd (hbranch e he)
    rw [grow_eq, grow_eq, usedBy_moved, List.filterMap_map, List.flatMap_map]
    simp only [Function.comp_def, htrees, hcycles]
    exact congrArg (fun path => (node c.name selector path _, _)) hc

theorem ofRoot_moved (h : ∀ e ∈ soil.registry.entries, shown (e.2.moved f).template = soil.shown e.2.template)
    (root : String) : ofRoot (soil.moved f shown) root = ofRoot soil root := by
  have hget : (soil.moved f shown).registry.get? root = (soil.registry.get? root).map (Component.moved f) :=
    Table.get?_mapValues _ _ _
  cases hc : soil.registry.get? root with
  | none =>
    have havailable : available (soil.moved f shown).registry = available soil.registry := by
      simp only [available, Soil.moved, Registry.moved, Table.mapValues, List.map_map]
      rfl
    rw [hc] at hget
    rw [ofRoot, hget, ofRoot, hc, Option.map_none, havailable]
  | some c =>
    rw [hc] at hget
    rw [ofRoot_of_get? hget, ofRoot_of_get? hc,
      grow_moved h [root] root c (h _ (Table.mem_entries_iff.2 hc))]

end UsageTree
end ComponentUsage
