import ComponentUsage.Proofs.Tree.Ways
import Mathlib.Data.List.Rotate
import Mathlib.Logic.Relation
/-!
# What a tree reaches

A tree ends each way where it would come back to itself. Nothing gets lost by
that: a selector that can be reached at all is reached on a way (`reaches_iff`),
and a loop is entered at some selector, gone around and reported (`IsLoop.told`).
-/

namespace ComponentUsage.UsageTree

open Relation

mutual

/-- The selectors of a tree, parents before children. -/
def selectors : UsageTree → List String
  | .node _ selector _ children => selector :: selectorsOf children

def selectorsOf : List UsageTree → List String
  | [] => []
  | t :: ts => t.selectors ++ selectorsOf ts

end

mutual

/-- A selector is in a tree if a way through the tree ends there. -/
theorem mem_selectors_iff (s : String) :
    ∀ t : UsageTree, s ∈ t.selectors ↔ ∃ way ∈ t.ways, way.getLast? = some s
  | .node name selector path children => by
    have ih := mem_selectorsOf_iff s children
    rw [selectors, ways, List.mem_cons, ih]
    constructor
    · rintro (rfl | ⟨way, hw, hl⟩)
      · exact ⟨[s], by simp, rfl⟩
      · exact ⟨selector :: way, by simp [hw], by simp [List.getLast?_cons, hl]⟩
    · rintro ⟨way, hw, hl⟩
      rcases List.mem_cons.1 hw with rfl | hw
      · exact .inl (by simpa using hl.symm)
      · obtain ⟨rest, hrest, rfl⟩ := List.mem_map.1 hw
        cases h : rest.getLast? with
        | none =>
          rw [List.getLast?_cons, h] at hl
          exact .inl (by simpa using hl.symm)
        | some last =>
          rw [List.getLast?_cons, h] at hl
          exact .inr ⟨rest, hrest, h.trans hl⟩

theorem mem_selectorsOf_iff (s : String) :
    ∀ ts : List UsageTree, s ∈ selectorsOf ts ↔ ∃ way ∈ waysOf ts, way.getLast? = some s
  | [] => by simp [selectorsOf, waysOf]
  | t :: ts => by
    rw [selectorsOf, waysOf, List.mem_append, mem_selectors_iff s t, mem_selectorsOf_iff s ts]
    simp only [List.mem_append]
    constructor
    · rintro (⟨way, hw, hl⟩ | ⟨way, hw, hl⟩)
      · exact ⟨way, .inl hw, hl⟩
      · exact ⟨way, .inr hw, hl⟩
    · rintro ⟨way, hw | hw, hl⟩
      · exact .inl ⟨way, hw, hl⟩
      · exact .inr ⟨way, hw, hl⟩

end

namespace Soil

variable {soil : Soil} {root s : String}

/-! ## Ways and walks -/

theorem IsWay.upTo {before after : List String} (h : soil.IsWay root (before ++ s :: after)) :
    soil.IsWay root (before ++ [s]) where
  head := by
    have := h.head
    cases before <;> simpa using this
  chain := (List.isChain_split.1 h.chain).1
  nodup := h.nodup.sublist (by simp)

/-- A way that goes on from its end, where nothing comes that it came to before. -/
theorem IsWay.goOn {before after : List String} (h : soil.IsWay root (before ++ [s]))
    (ha : soil.IsWay s (s :: after)) (hd : ∀ x ∈ before, x ∉ s :: after) :
    soil.IsWay root (before ++ s :: after) where
  head := by
    have := h.head
    cases before <;> simpa using this
  chain := List.isChain_split.2 ⟨h.chain, ha.chain⟩
  nodup := List.nodup_append.2 ⟨(List.nodup_append.1 h.nodup).1, ha.nodup, by
    rintro x hx y hy rfl
    exact hd x hx hy⟩

/-- A selector that can be reached can be reached without coming to one twice. -/
theorem reaches_iff :
    ReflTransGen soil.Uses root s ↔ ∃ way, soil.IsWay root way ∧ way.getLast? = some s := by
  constructor
  · intro h
    induction h with
    | refl => exact ⟨[root], isWay_singleton soil root, rfl⟩
    | @tail last child _ hu ih =>
      obtain ⟨way, hw, hl⟩ := ih
      by_cases hm : child ∈ way
      -- a way that came to the selector before is cut there
      · obtain ⟨before, after, rfl⟩ := List.append_of_mem hm
        exact ⟨before ++ [child], hw.upTo, by simp⟩
      · exact ⟨way ++ [child], hw.append hl hu hm, by simp⟩
  · rintro ⟨way, hw, hl⟩
    obtain ⟨rest, rfl⟩ := List.head?_eq_some_iff.1 hw.head
    refine List.relationReflTransGen_of_exists_isChain_cons rest hw.chain ?_
    rw [List.getLast?_eq_some_getLast (List.cons_ne_nil _ _)] at hl
    exact Option.some.inj hl

/-! ## Loops -/

/-- A loop: a way whose last selector uses its first one. -/
def IsLoop (soil : Soil) (loop : List String) : Prop :=
  ∃ first last, soil.IsWay first loop ∧ loop.getLast? = some last ∧ soil.Uses last first

theorem exists_loop (h : TransGen soil.Uses s s) : ∃ loop, soil.IsLoop loop ∧ s ∈ loop := by
  obtain ⟨last, hr, hu⟩ := TransGen.tail'_iff.1 h
  obtain ⟨loop, hw, hl⟩ := reaches_iff.1 hr
  exact ⟨loop, ⟨s, last, hw, hl, hu⟩, List.mem_of_mem_head? hw.head⟩

/-- A loop can be gone around from each of its selectors. -/
theorem IsLoop.turn {before after : List String} (h : soil.IsLoop (before ++ s :: after)) :
    ∃ last, soil.IsWay s (s :: after ++ before) ∧
      (s :: after ++ before).getLast? = some last ∧ soil.Uses last s := by
  obtain ⟨first, last, hw, hl, hu⟩ := h
  have hn : (s :: after ++ before).Nodup := List.perm_append_comm.nodup_iff.1 hw.nodup
  obtain ⟨hc1, hc2, hc3⟩ := List.isChain_append.1 hw.chain
  rw [List.getLast?_append_of_ne_nil _ (List.cons_ne_nil _ _)] at hl
  -- the step from the last selector to the first one joins `after` to `before`
  cases before with
  | nil =>
    obtain rfl : s = first := by simpa using hw.head
    exact ⟨last, by simpa using hw, by simpa using hl, hu⟩
  | cons b before =>
    obtain rfl : b = first := by simpa using hw.head
    obtain ⟨back, hb⟩ : ∃ back, (b :: before).getLast? = some back := ⟨_, List.getLast?_cons⟩
    refine ⟨back, ⟨rfl, List.isChain_append.2 ⟨hc2, hc1, ?_⟩, hn⟩, ?_, hc3 back hb s rfl⟩
    · intro x hx y hy
      obtain rfl : last = x := by simpa [hl] using hx
      obtain rfl : b = y := by simpa using hy
      exact hu
    · rw [List.getLast?_append_of_ne_nil _ (List.cons_ne_nil _ _), hb]

/-- A way ends at the first selector that it shares with a list. -/
theorem exists_entry {way loop : List String} (hs : s ∈ way) (hl : s ∈ loop) :
    ∃ before entry after, way = before ++ entry :: after ∧ entry ∈ loop ∧ ∀ x ∈ before, x ∉ loop := by
  obtain ⟨entry, he⟩ : ∃ entry, way.find? (loop.contains ·) = some entry := by
    cases h : way.find? (loop.contains ·) with
    | some entry => exact ⟨entry, rfl⟩
    | none => exact absurd hl (by simpa using List.find?_eq_none.1 h s hs)
  obtain ⟨hm, before, after, rfl, hb⟩ := List.find?_eq_some_iff_append.1 he
  exact ⟨before, entry, after, rfl, by simpa using hm, fun x hx => by simpa using hb x hx⟩

/-- What a cycle goes around: from the first place of its last selector. -/
def round (cycle : List String) : List String :=
  cycle.dropWhile (some · ≠ cycle.getLast?)

/-- A loop that can be reached is gone around by a cycle. -/
theorem IsLoop.told {loop : List String} (h : soil.IsLoop loop) (hs : s ∈ loop)
    (hr : ReflTransGen soil.Uses root s) :
    ∃ cycle turn, soil.IsCycle root cycle ∧ loop ~r turn ∧
      round cycle = turn ++ turn.head?.toList := by
  obtain ⟨way, hw, hlast⟩ := reaches_iff.1 hr
  -- up to its first selector on the loop the way has none of the loop, so that it can go around
  obtain ⟨before, entry, after, rfl, he, hb⟩ := exists_entry (List.mem_of_getLast? hlast) hs
  obtain ⟨left, right, rfl⟩ := List.append_of_mem he
  obtain ⟨last, ht, hl, hu⟩ := h.turn
  have hd : ∀ x ∈ before, x ∉ entry :: (right ++ left) := by
    intro x hx hm
    refine hb x hx ?_
    simp only [List.mem_cons, List.mem_append] at hm ⊢
    tauto
  have hway := hw.upTo.goOn ht hd
  refine ⟨before ++ entry :: (right ++ left) ++ [entry], entry :: (right ++ left),
    ⟨_, last, entry, rfl, hway, ?_, hu, by simp⟩, List.isRotated_append, ?_⟩
  · rwa [List.getLast?_append_of_ne_nil _ (List.cons_ne_nil _ _)]
  · have hx : ∀ x ∈ before, decide (some x ≠ some entry) = true := by
      intro x hx
      have hne : x ≠ entry := fun he => hd x hx (by simp [he])
      simpa using hne
    rw [round, List.getLast?_concat, List.append_assoc, List.dropWhile_append_of_pos hx,
      List.cons_append, List.dropWhile_cons_of_neg (by simp)]
    rfl

theorem exists_isCycle_iff :
    (∃ cycle, soil.IsCycle root cycle) ↔
      ∃ s, ReflTransGen soil.Uses root s ∧ TransGen soil.Uses s s := by
  constructor
  · rintro ⟨-, way, last, child, rfl, hw, hl, hu, hm⟩
    obtain ⟨before, after, rfl⟩ := List.append_of_mem hm
    refine ⟨child, reaches_iff.2 ⟨_, hw.upTo, by simp⟩, ?_⟩
    refine TransGen.tail' ?_ hu
    refine List.relationReflTransGen_of_exists_isChain_cons after (List.isChain_split.1 hw.chain).2 ?_
    rw [List.getLast?_append_of_ne_nil _ (List.cons_ne_nil _ _),
      List.getLast?_eq_some_getLast (List.cons_ne_nil _ _)] at hl
    exact Option.some.inj hl
  · rintro ⟨s, hr, ht⟩
    obtain ⟨loop, hloop, hm⟩ := exists_loop ht
    obtain ⟨cycle, -, hc, -⟩ := hloop.told hm hr
    exact ⟨cycle, hc⟩

end Soil

/-! ## The tree reaches all -/

/-- The tree of a registered root has exactly the selectors that can be reached
from it. It reports a cycle exactly when some cycle can be reached, and every loop
that can be reached is gone around by a reported cycle. -/
theorem ofRoot_reaches (soil : Soil) (root : String) (hr : root ∈ soil.registry.keys) :
    ∃ tree cycles, ofRoot soil root = .ok (tree, cycles) ∧
      (∀ s, s ∈ tree.selectors ↔ ReflTransGen soil.Uses root s) ∧
      (cycles = [] ↔ ¬ ∃ s, ReflTransGen soil.Uses root s ∧ TransGen soil.Uses s s) ∧
      ∀ loop, soil.IsLoop loop → (∃ s ∈ loop, ReflTransGen soil.Uses root s) →
        ∃ cycle ∈ cycles, ∃ turn, loop ~r turn ∧
          Soil.round cycle = turn ++ turn.head?.toList := by
  obtain ⟨c, hc⟩ := Table.mem_keys_iff.1 hr
  have hways := lists_ways soil root c
  have hcycles := lists_cycles soil root c
  refine ⟨_, _, ofRoot_of_get? hc, fun s => ?_, ?_, ?_⟩
  · rw [mem_selectors_iff, Soil.reaches_iff]
    simp only [hways.mem_iff]
  · rw [← Soil.exists_isCycle_iff, List.eq_nil_iff_forall_not_mem, not_exists]
    simp only [hcycles.mem_iff]
  · rintro loop hloop ⟨s, hs, hreach⟩
    obtain ⟨cycle, turn, hcycle, hturn, hround⟩ := hloop.told hs hreach
    exact ⟨cycle, (hcycles.mem_iff cycle).2 hcycle, turn, hturn, hround⟩

theorem ofRoot_reaches_pair :
    "app" ∈ pair.registry.keys ∧
      ∃ tree cycles, ofRoot pair "app" = .ok (tree, cycles) ∧
        "nav" ∈ tree.selectors ∧ cycles ≠ [] ∧
        ∃ cycle ∈ cycles, ∃ turn, ["nav", "app"] ~r turn ∧
          Soil.round cycle = turn ++ turn.head?.toList := by
  have happ : "app" ∈ pair.registry.keys := by decide
  obtain ⟨tree, cycles, h, hsel, hnil, hloops⟩ := ofRoot_reaches pair "app" happ
  have hnav : ReflTransGen pair.Uses "app" "nav" := .single pair_uses.1
  have hway : pair.IsWay "nav" ["nav", "app"] :=
    ⟨rfl, .cons_cons pair_uses.2.2 (.singleton _), by decide⟩
  refine ⟨happ, tree, cycles, h, (hsel "nav").2 hnav, fun hc => ?_, ?_⟩
  · exact hnil.1 hc ⟨"nav", hnav, .single pair_uses.2.1⟩
  · exact hloops ["nav", "app"] ⟨"nav", "app", hway, rfl, pair_uses.1⟩ ⟨"nav", by simp, hnav⟩

end ComponentUsage.UsageTree
