import ComponentUsage.Usage.Tree
import Mathlib.Data.List.Chain
import Mathlib.Data.List.Nodup
/-!
# The ways of a tree

A way goes from a selector to one that it uses, on to one that that one uses, and
so on, and never comes to a selector twice. A tree has one node for each way from
its root (`lists_ways`), and reports one cycle for each step from the end of a way
back to a selector on it (`lists_cycles`), both in the order of the usage.
-/

namespace ComponentUsage.UsageTree

/-! ## Ways through the usage -/

namespace Soil

/-- One selector uses another: the other is registered, and the usage has the one
among its users. -/
def Uses (soil : Soil) (user child : String) : Prop :=
  child ∈ soil.registry.keys ∧ ∃ users, soil.usage.get? child = some users ∧ user ∈ users

/-- A way from a root: each selector uses the next, and none comes twice. -/
structure IsWay (soil : Soil) (root : String) (way : List String) : Prop where
  head : way.head? = some root
  chain : way.IsChain soil.Uses
  nodup : way.Nodup

/-- A way, followed by a selector on it that its last one uses. -/
def IsCycle (soil : Soil) (root : String) (cycle : List String) : Prop :=
  ∃ way last child, cycle = way ++ [child] ∧ soil.IsWay root way ∧
    way.getLast? = some last ∧ soil.Uses last child ∧ child ∈ way

/-- The order of sequences by the places of their selectors in the usage. -/
def Before (soil : Soil) : List String → List String → Prop :=
  List.Lex fun a b => soil.usage.keys.idxOf a < soil.usage.keys.idxOf b

/-- A list has exactly the sequences with a property, each once and in order. -/
structure Lists (soil : Soil) (seqs : List (List String)) (P : List String → Prop) : Prop where
  mem_iff : ∀ s, s ∈ seqs ↔ P s
  nodup : seqs.Nodup
  ordered : seqs.Pairwise soil.Before

variable {soil : Soil} {root selector child : String}

theorem mem_usedBy {e : String × Component} :
    e ∈ soil.usedBy selector ↔ soil.Uses selector e.1 ∧ soil.registry.get? e.1 = some e.2 := by
  obtain ⟨child, c⟩ := e
  simp only [usedBy, List.mem_filterMap, Prod.exists]
  constructor
  · rintro ⟨name, users, hm, he⟩
    split at he
    · rename_i hu
      obtain ⟨c', hc, he⟩ := Option.map_eq_some_iff.1 he
      simp only [Prod.mk.injEq] at he
      obtain ⟨rfl, rfl⟩ := he
      refine ⟨⟨Table.mem_keys_iff.2 ⟨c', hc⟩, users, Table.mem_entries_iff.1 hm, ?_⟩, hc⟩
      simpa using hu
    · cases he
  · rintro ⟨⟨-, users, hg, hu⟩, hc⟩
    refine ⟨child, users, Table.mem_entries_iff.2 hg, ?_⟩
    rw [if_pos (by simpa using hu), hc]
    rfl

theorem pairwise_usedBy (soil : Soil) (selector : String) :
    (soil.usedBy selector).Pairwise fun a b =>
      soil.usage.keys.idxOf a.1 < soil.usage.keys.idxOf b.1 := by
  have name : ∀ {e : String × List String} {z : String × Component},
      (if e.2.contains selector then (soil.registry.get? e.1).map (e.1, ·) else none) = some z →
        z.1 = e.1 := by
    intro e z hz
    split at hz
    · obtain ⟨c, -, rfl⟩ := Option.map_eq_some_iff.1 hz
      rfl
    · cases hz
  rw [usedBy, List.pairwise_filterMap]
  refine soil.usage.pairwise_idxOf.imp fun {a b} hab x hx y hy => ?_
  rwa [name hx, name hy]

/-! ## The order of sequences -/

theorem before_irrefl (soil : Soil) (s : List String) : ¬ soil.Before s s :=
  List.lex_irrefl (fun name => Nat.lt_irrefl (soil.usage.keys.idxOf name)) s

theorem before_append (soil : Soil) (path : List String) {s t : List String} (h : soil.Before s t) :
    soil.Before (path ++ s) (path ++ t) := by
  induction path with
  | nil => exact h
  | cons name path ih => exact .cons ih

/-- Sequences that part at two selectors are in the order of these. -/
theorem before_of_prefix {path s t : List String} {a b : String}
    (hab : soil.usage.keys.idxOf a < soil.usage.keys.idxOf b)
    (hs : path ++ [a] <+: s) (ht : path ++ [b] <+: t) : soil.Before s t := by
  obtain ⟨s, rfl⟩ := hs
  obtain ⟨t, rfl⟩ := ht
  rw [List.append_assoc, List.append_assoc]
  exact soil.before_append path (.rel hab)

theorem before_of_longer {path s : List String} {a : String} (hs : path ++ [a] <+: s) :
    soil.Before path s := by
  obtain ⟨s, rfl⟩ := hs
  simpa using soil.before_append path (s := []) (t := a :: s) .nil

namespace Lists

variable {P Q : List String → Prop} {seqs : List (List String)}

theorem congr (h : soil.Lists seqs P) (hPQ : ∀ s, P s ↔ Q s) : soil.Lists seqs Q :=
  ⟨fun s => (h.mem_iff s).trans (hPQ s), h.nodup, h.ordered⟩

theorem of_ordered (hm : ∀ s, s ∈ seqs ↔ P s) (ho : seqs.Pairwise soil.Before) :
    soil.Lists seqs P := by
  refine ⟨hm, List.nodup_iff_pairwise_ne.2 (ho.imp fun hb he => ?_), ho⟩
  subst he
  exact soil.before_irrefl _ hb

theorem nil : soil.Lists [] fun _ => False :=
  ⟨by simp, .nil, .nil⟩

theorem singleton (s : List String) : soil.Lists [s] (· = s) :=
  ⟨by simp, by simp, by simp⟩

/-- Lists of what goes on at each selector that another one uses, one after the
other, make the list of all that goes on. -/
theorem flatMap (path : List String) {f : String × Component → List (List String)}
    {R : String × Component → List String → Prop}
    (hf : ∀ e ∈ soil.usedBy selector, soil.Lists (f e) (R e))
    (hR : ∀ e s, R e s → path ++ [e.1] <+: s) :
    soil.Lists ((soil.usedBy selector).flatMap f) fun s => ∃ e ∈ soil.usedBy selector, R e s := by
  refine of_ordered (fun s => ?_) (List.pairwise_flatMap.2 ⟨fun e he => (hf e he).ordered, ?_⟩)
  · rw [List.mem_flatMap]
    constructor
    · rintro ⟨e, he, hs⟩
      exact ⟨e, he, ((hf e he).mem_iff s).1 hs⟩
    · rintro ⟨e, he, hs⟩
      exact ⟨e, he, ((hf e he).mem_iff s).2 hs⟩
  · refine (soil.pairwise_usedBy selector).imp_of_mem fun {a b} ha hb hab s hs t ht => ?_
    exact before_of_prefix hab (hR a s (((hf a ha).mem_iff s).1 hs)) (hR b t (((hf b hb).mem_iff t).1 ht))

theorem cons {path : List String} (h : soil.Lists seqs P) (hP : ∀ s, P s → soil.Before path s) :
    soil.Lists (path :: seqs) fun s => s = path ∨ P s := by
  refine of_ordered (fun s => ?_) (List.pairwise_cons.2 ⟨fun s hs => hP s ((h.mem_iff s).1 hs), h.ordered⟩)
  rw [List.mem_cons, h.mem_iff]

end Lists
end Soil

/-! ## The nodes of a tree -/

mutual

/-- The selectors on the way to each node of a tree, parents before children. -/
def ways : UsageTree → List (List String)
  | .node _ selector _ children => [selector] :: (waysOf children).map (selector :: ·)

def waysOf : List UsageTree → List (List String)
  | [] => []
  | t :: ts => t.ways ++ waysOf ts

end

theorem waysOf_eq (ts : List UsageTree) : waysOf ts = ts.flatMap ways := by
  induction ts with
  | nil => rfl
  | cons t ts ih => rw [waysOf, ih, List.flatMap_cons]

variable {soil : Soil} {root selector : String} {c : Component} {path : List String}

/-- The tree below a component on a path, if the path does not hold it yet, and
the cycles there. -/
def branch (soil : Soil) (path : List String) (e : String × Component) :
    Option UsageTree × List (List String) :=
  if path.contains e.1 then (none, [path ++ [e.1]])
  else (some (grow soil (path ++ [e.1]) e.1 e.2).1, (grow soil (path ++ [e.1]) e.1 e.2).2)

theorem grow_eq (soil : Soil) (path : List String) (selector : String) (c : Component) :
    grow soil path selector c =
      (.node c.name selector (soil.shown c.template)
        ((soil.usedBy selector).filterMap fun e => (branch soil path e).1),
       (soil.usedBy selector).flatMap fun e => (branch soil path e).2) := by
  -- `attach` is there for the termination of `grow` only
  have hb : ∀ f : { e // e ∈ soil.usedBy selector } → Option UsageTree × List (List String),
      (∀ e, f e = branch soil path e.1) →
        (soil.usedBy selector).attach.map f = (soil.usedBy selector).map (branch soil path) := by
    intro f hf
    conv_rhs => rw [← List.attach_map_subtype_val (soil.usedBy selector), List.map_map]
    exact List.map_congr_left fun e _ => hf e
  rw [grow]
  simp only [dite_eq_ite]
  rw [hb]
  · simp [List.filterMap_map, List.flatMap_map]
  · intro e
    rfl

/-- The ways through a tree that grows at the end of a path, from where that path
starts. -/
def trails (soil : Soil) (path : List String) (selector : String) (c : Component) :
    List (List String) :=
  (grow soil path selector c).1.ways.map (path.dropLast ++ ·)

theorem trails_eq (hl : path.getLast? = some selector) :
    trails soil path selector c =
      path :: (soil.usedBy selector).flatMap fun e =>
        if path.contains e.1 then [] else trails soil (path ++ [e.1]) e.1 e.2 := by
  have hp : path.dropLast ++ [selector] = path := List.dropLast_append_getLast? _ hl
  have hb : ∀ e : String × Component,
      ((branch soil path e).1.toList.flatMap ways).map (path ++ ·) =
        if path.contains e.1 then [] else trails soil (path ++ [e.1]) e.1 e.2 := by
    intro e
    unfold branch
    split <;> simp [trails]
  -- the root of the tree gives the path itself, and each branch ways with the path in front
  rw [trails, grow_eq, ways, List.map_cons, hp, waysOf_eq, List.filterMap_eq_flatMap_toList,
    List.flatMap_assoc, List.map_map]
  simp only [← hb, ← List.map_flatMap]
  congr 2
  funext way
  rw [Function.comp_apply, List.append_cons, hp]

/-! ## What goes on after a path -/

namespace Soil

/-- The ways that go on after a path: the path, and those that go on after it with
one more selector. -/
theorem way_from_iff (hp : soil.IsWay root path) (hl : path.getLast? = some selector) (s : List String) :
    soil.IsWay root s ∧ path <+: s ↔
      s = path ∨ ∃ e ∈ soil.usedBy selector, e.1 ∉ path ∧ soil.IsWay root s ∧ path ++ [e.1] <+: s := by
  constructor
  · rintro ⟨hs, rest, rfl⟩
    cases rest with
    | nil => exact .inl (by simp)
    | cons name rest =>
      right
      have hu : soil.Uses selector name := (List.isChain_append.1 hs.chain).2.2 selector hl name rfl
      obtain ⟨c, hc⟩ := Table.mem_keys_iff.1 hu.1
      refine ⟨(name, c), mem_usedBy.2 ⟨hu, hc⟩, fun hm => ?_, hs, rest, by simp⟩
      exact (List.nodup_append.1 hs.nodup).2.2 name hm name (by simp) rfl
  · rintro (rfl | ⟨e, -, -, hs, hpre⟩)
    · exact ⟨hp, List.prefix_refl _⟩
    · exact ⟨hs, (List.prefix_append _ _).trans hpre⟩

theorem IsWay.append (hp : soil.IsWay root path) (hl : path.getLast? = some selector) {child : String}
    (hu : soil.Uses selector child) (hn : child ∉ path) : soil.IsWay root (path ++ [child]) where
  head := by
    rw [List.head?_append, hp.head]
    rfl
  chain := List.isChain_append.2 ⟨hp.chain, .singleton _, by
    intro a ha b hb
    obtain rfl : a = selector := by simpa [hl] using ha.symm
    obtain rfl : child = b := by simpa using hb
    exact hu⟩
  nodup := List.nodup_append.2 ⟨hp.nodup, by simp, by
    rintro a ha b hb rfl
    obtain rfl := List.mem_singleton.1 hb
    exact hn ha⟩

/-- The cycles that go on after a path: a selector on the path at its end, and
those that go on with a selector that is not on it. -/
theorem cycle_from_iff (hp : soil.IsWay root path) (hl : path.getLast? = some selector) (s : List String) :
    soil.IsCycle root s ∧ path <+: s.dropLast ↔
      ∃ e ∈ soil.usedBy selector, (e.1 ∈ path ∧ s = path ++ [e.1]) ∨
        (e.1 ∉ path ∧ soil.IsCycle root s ∧ path ++ [e.1] <+: s.dropLast) := by
  constructor
  · rintro ⟨⟨way, last, child, rfl, hw, hlast, hu, hc⟩, hpre⟩
    rw [List.dropLast_concat] at hpre
    rcases (way_from_iff hp hl way).1 ⟨hw, hpre⟩ with rfl | ⟨e, he, hn, -, hpre'⟩
    · obtain rfl : selector = last := by simpa [hl] using hlast
      obtain ⟨c, hg⟩ := Table.mem_keys_iff.1 hu.1
      exact ⟨(child, c), mem_usedBy.2 ⟨hu, hg⟩, .inl ⟨hc, rfl⟩⟩
    · refine ⟨e, he, .inr ⟨hn, ⟨way, last, child, rfl, hw, hlast, hu, hc⟩, ?_⟩⟩
      rwa [List.dropLast_concat]
  · rintro ⟨e, he, ⟨hm, rfl⟩ | ⟨hn, hs, hpre⟩⟩
    · exact ⟨⟨path, selector, e.1, rfl, hp, hl, (mem_usedBy.1 he).1, hm⟩, by simp⟩
    · exact ⟨hs, (List.prefix_append _ _).trans hpre⟩

end Soil

/-! ## The tree lists the ways -/

/-- Below the end of a way, the tree has a node for each way that goes on after it. -/
theorem lists_trails (soil : Soil) (root : String) (path : List String) (selector : String)
    (c : Component) (hp : soil.IsWay root path) (hl : path.getLast? = some selector) :
    soil.Lists (trails soil path selector c) fun s => soil.IsWay root s ∧ path <+: s := by
  -- as the tree grows: `ih` is for the selectors that are not on the path yet
  induction path, selector, c using grow.induct soil with
  | case1 path selector c ih =>
    rw [trails_eq hl]
    refine .congr (.cons (.flatMap path (R := fun e s =>
      e.1 ∉ path ∧ soil.IsWay root s ∧ path ++ [e.1] <+: s) ?_ fun _ _ h => h.2.2) ?_)
      fun s => (Soil.way_from_iff hp hl s).symm
    · rintro ⟨child, cc⟩ he
      by_cases hn : child ∈ path
      · simpa [hn] using Soil.Lists.nil
      · rw [if_neg (by simpa using hn)]
        have hw := hp.append hl (Soil.mem_usedBy.1 he).1 hn
        exact (ih child cc he (by simpa using hn) hw (by simp)).congr fun s => by simp [hn]
    · rintro s ⟨e, -, -, -, hpre⟩
      exact Soil.before_of_longer hpre

theorem lists_below (soil : Soil) (root : String) (path : List String) (selector : String)
    (c : Component) (hp : soil.IsWay root path) (hl : path.getLast? = some selector) :
    soil.Lists (grow soil path selector c).2 fun s => soil.IsCycle root s ∧ path <+: s.dropLast := by
  induction path, selector, c using grow.induct soil with
  | case1 path selector c ih =>
    rw [grow_eq]
    refine .congr (.flatMap path (R := fun e s => (e.1 ∈ path ∧ s = path ++ [e.1]) ∨
      (e.1 ∉ path ∧ soil.IsCycle root s ∧ path ++ [e.1] <+: s.dropLast)) ?_ ?_)
      fun s => (Soil.cycle_from_iff hp hl s).symm
    · rintro ⟨child, cc⟩ he
      by_cases hn : child ∈ path
      · simpa [branch, hn] using Soil.Lists.singleton (path ++ [child])
      · have hw := hp.append hl (Soil.mem_usedBy.1 he).1 hn
        simpa [branch, hn] using ih child cc he (by simpa using hn) hw (by simp)
    · rintro e s (⟨-, rfl⟩ | ⟨-, -, hpre⟩)
      · exact List.prefix_refl _
      · exact hpre.trans (List.dropLast_prefix s)

theorem isWay_singleton (soil : Soil) (root : String) : soil.IsWay root [root] :=
  ⟨rfl, .singleton _, by simp⟩

theorem singleton_prefix {s : List String} (h : s.head? = some root) : [root] <+: s := by
  obtain ⟨s, rfl⟩ := List.head?_eq_some_iff.1 h
  exact ⟨s, rfl⟩

theorem lists_ways (soil : Soil) (root : String) (c : Component) :
    soil.Lists (grow soil [root] root c).1.ways (soil.IsWay root) := by
  have h := lists_trails soil root [root] root c (isWay_singleton soil root) rfl
  simp only [trails, List.dropLast_singleton, List.nil_append, List.map_id'] at h
  exact h.congr fun s => ⟨And.left, fun hs => ⟨hs, singleton_prefix hs.head⟩⟩

theorem lists_cycles (soil : Soil) (root : String) (c : Component) :
    soil.Lists (grow soil [root] root c).2 (soil.IsCycle root) := by
  have h := lists_below soil root [root] root c (isWay_singleton soil root) rfl
  refine h.congr fun s => ⟨And.left, fun hs => ⟨hs, ?_⟩⟩
  obtain ⟨way, last, child, rfl, hw, -⟩ := hs
  rw [List.dropLast_concat]
  exact singleton_prefix hw.head

theorem ofRoot_of_get? {soil : Soil} {root : String} {c : Component}
    (h : soil.registry.get? root = some c) : ofRoot soil root = .ok (grow soil [root] root c) := by
  rw [ofRoot, h]

/-- The tree of a registered root has a node for each way from the root and
reports each cycle on these ways. Without a component at the root there is no
tree, and what is missing is told with all selectors and names that there are. -/
theorem ofRoot_lists (soil : Soil) (root : String) :
    (root ∈ soil.registry.keys →
      ∃ tree cycles, ofRoot soil root = .ok (tree, cycles) ∧
        soil.Lists tree.ways (soil.IsWay root) ∧ soil.Lists cycles (soil.IsCycle root)) ∧
    (root ∉ soil.registry.keys →
      ofRoot soil root =
        .error ⟨root, soil.registry.entries.map fun (selector, c) => (selector, c.name)⟩) := by
  constructor
  · intro hr
    obtain ⟨c, hc⟩ := Table.mem_keys_iff.1 hr
    exact ⟨_, _, ofRoot_of_get? hc, lists_ways soil root c, lists_cycles soil root c⟩
  · intro hr
    have hn : soil.registry.get? root = none := by
      cases h : soil.registry.get? root with
      | none => rfl
      | some c => exact absurd (Table.mem_keys_iff.2 ⟨c, h⟩) hr
    rw [ofRoot, hn]
    rfl

/-- Two components that use each other, the second of them also itself; a third
user of both is not registered. -/
def pair : Soil where
  registry := .ofList [("app", ⟨"app", "app", "/app.component.ts", none⟩),
    ("nav", ⟨"nav", "nav", "/nav.component.ts", none⟩)]
  usage := .ofList [("nav", ["app", "old", "nav", "app"]), ("old", ["app"]), ("app", ["nav", "old"])]
  shown := id

theorem pair_uses : pair.Uses "app" "nav" ∧ pair.Uses "nav" "nav" ∧ pair.Uses "nav" "app" :=
  ⟨⟨by decide, _, rfl, by decide⟩, ⟨by decide, _, rfl, by decide⟩, ⟨by decide, _, rfl, by decide⟩⟩

theorem pair_isWay : pair.IsWay "app" ["app", "nav"] :=
  ⟨rfl, .cons_cons pair_uses.1 (.singleton _), by decide⟩

theorem ofRoot_lists_pair :
    "app" ∈ pair.registry.keys ∧ "old" ∉ pair.registry.keys ∧
      (∃ tree cycles, ofRoot pair "app" = .ok (tree, cycles) ∧
        ["app", "nav"] ∈ tree.ways ∧ ["app", "old"] ∉ tree.ways ∧
        ["app", "nav", "nav"] ∈ cycles ∧ ["app", "nav", "app"] ∈ cycles) ∧
      ofRoot pair "old" = .error ⟨"old", [("app", "app"), ("nav", "nav")]⟩ := by
  have happ : "app" ∈ pair.registry.keys := by decide
  have hold : "old" ∉ pair.registry.keys := by decide
  refine ⟨happ, hold, ?_, (ofRoot_lists pair "old").2 hold⟩
  obtain ⟨tree, cycles, h, hways, hcycles⟩ := (ofRoot_lists pair "app").1 happ
  refine ⟨tree, cycles, h, (hways.mem_iff _).2 pair_isWay, fun hw => ?_, ?_, ?_⟩
  · have hc := ((hways.mem_iff _).1 hw).chain
    exact absurd (List.isChain_cons_cons.1 hc).1.1 hold
  · exact (hcycles.mem_iff _).2 ⟨_, _, _, rfl, pair_isWay, rfl, pair_uses.2.1, by decide⟩
  · exact (hcycles.mem_iff _).2 ⟨_, _, _, rfl, pair_isWay, rfl, pair_uses.2.2, by decide⟩

end ComponentUsage.UsageTree
