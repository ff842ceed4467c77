import ComponentUsage.Proofs.Tree.Ways
import Mathlib.Data.Finset.Basic
import Mathlib.Data.Finset.Card
import Mathlib.Data.Finset.Dedup
import Mathlib.Logic.Relation
/-!
# Trees by one descent

A tree can also be built by one descent that goes down to the components and comes up again. All
its calls share one trail: the path from the root, the set of what is on it, and the cycles that
came up. They change it as they go.

That a descent ends depends on what its calls leave on the set, so the recursion (`descendBack`)
hands back a trail together with the fact that this set is the one before the call. `descend` is
this recursion as a program on the trail (`descend_eq`, `descendEach_cons`).

Each call leaves the path and the set as they were and only adds cycles (`run_descend`), and the
calls that it makes start out with a path and a set that agree (`leadsTo_of_calls`). So the tree
and the cycles are those of `grow`, which has a path of its own in each call.
-/

namespace ComponentUsage.UsageTree

open Relation

/-- What the calls of a descent share. -/
structure Trail where
  path : List String
  /-- What is on the path. -/
  onPath : Finset String
  cycles : List (List String)
  /-- What is reported about the cycles. -/
  records : List Record

namespace Trail

/-- The trail of a descent that is at its root. -/
def start (root : String) : Trail where
  path := [root]
  onPath := {root}
  cycles := []
  records := []

def enter (t : Trail) (child : String) : Trail :=
  { t with onPath := insert child t.onPath, path := t.path ++ [child] }

def leave (t : Trail) (child : String) : Trail :=
  { t with path := t.path.dropLast, onPath := t.onPath.erase child }

/-- The trail with some more cycles. -/
def told (t : Trail) (cycles : List (List String)) : Trail :=
  { t with cycles := t.cycles ++ cycles, records := t.records ++ cycleRecords cycles }

/-- Trails with the same on their path. A call hands back one of these, so the descent that goes on
from there has no more left to enter. -/
abbrev Back (t : Trail) : Type := { u : Trail // u.onPath = t.onPath }

/-- The selectors that a descent can still enter. -/
def ahead (t : Trail) (soil : Soil) : Finset String := soil.registry.keys.toFinset \ t.onPath

theorem onPath_leave {t u : Trail} {child : String} (hu : u.onPath = (t.enter child).onPath) (h : child ∉ t.onPath) :
    (u.leave child).onPath = t.onPath := by
  simp only [leave, hu, enter, Finset.erase_insert h]

theorem card_ahead_enter {soil : Soil} {t : Trail} {child : String} (hc : child ∈ soil.registry.keys)
    (h : child ∉ t.onPath) : ((t.enter child).ahead soil).card < (t.ahead soil).card := by
  have herase : (t.enter child).ahead soil = (t.ahead soil).erase child := by
    simp only [ahead, enter, Finset.sdiff_insert]
  rw [herase]
  apply Finset.card_erase_lt_of_mem
  simp [ahead, hc, h]

theorem ahead_leave {soil : Soil} {t u : Trail} {child : String} (hu : u.onPath = (t.enter child).onPath)
    (h : child ∉ t.onPath) : (u.leave child).ahead soil = t.ahead soil := by
  rw [ahead, onPath_leave hu h, ahead]

end Trail

mutual

/-- Builds the tree of the component with that selector, at the end of the path. There is no result
if no component has the selector. -/
def descendBack (soil : Soil) (selector : String) (t : Trail) : Option (UsageTree × t.Back) := do
  let c ← soil.registry.get? selector
  let (children, u) ← descendBackEach soil selector soil.usage.entries t
  return (.node c.name selector (soil.shown c.template) children, u)
termination_by ((t.ahead soil).card, soil.usage.entries.length + 1)
decreasing_by
  exact Prod.Lex.right _ (Nat.lt_succ_self _)

/-- Goes through entries of the usage and descends to the components that the selector uses. One
that is on the path is not entered: it closes a cycle. -/
def descendBackEach (soil : Soil) (selector : String) (es : List (String × List String)) (t : Trail) :
    Option (List UsageTree × t.Back) :=
  match es with
  | [] => return ([], ⟨t, rfl⟩)
  | (child, users) :: rest => do
    if _ : selector ∉ users ∨ child ∉ soil.registry.keys then
      descendBackEach soil selector rest t
    else if hon : child ∈ t.onPath then
      descendBackEach soil selector rest (t.told [t.path ++ [child]])
    else
      let (tree, u) ← descendBack soil child (t.enter child)
      let (trees, v) ← descendBackEach soil selector rest (u.1.leave child)
      return (tree :: trees, ⟨v.1, v.2.trans (Trail.onPath_leave u.2 hon)⟩)
termination_by ((t.ahead soil).card, es.length)
decreasing_by
  · exact Prod.Lex.right _ (Nat.lt_succ_self _)
  · exact Prod.Lex.right _ (Nat.lt_succ_self _)
  · have hc : child ∈ soil.registry.keys := by
      by_contra hn
      exact absurd (Or.inr hn) ‹¬ (selector ∉ users ∨ child ∉ soil.registry.keys)›
    exact Prod.Lex.left _ _ (Trail.card_ahead_enter hc hon)
  · rw [Trail.ahead_leave u.2 hon]
    exact Prod.Lex.right _ (Nat.lt_succ_self _)

end

/-- Builds a tree on a trail that all the calls below share. -/
def descend (soil : Soil) (selector : String) : StateT Trail Option UsageTree :=
  fun t => (descendBack soil selector t).map fun r => (r.1, r.2.1)

/-- Goes through entries of the usage on such a trail. -/
def descendEach (soil : Soil) (selector : String) (es : List (String × List String)) :
    StateT Trail Option (List UsageTree) :=
  fun t => (descendBackEach soil selector es t).map fun r => (r.1, r.2.1)

variable {soil : Soil} {selector child : String} {c : Component} {users : List String}
  {rest : List (String × List String)} {t : Trail}

/-! ## The trail -/

namespace Trail

@[simp] theorem path_told (t : Trail) (cycles : List (List String)) : (t.told cycles).path = t.path := rfl

@[simp] theorem onPath_told (t : Trail) (cycles : List (List String)) : (t.told cycles).onPath = t.onPath := rfl

@[simp] theorem path_enter (t : Trail) (child : String) : (t.enter child).path = t.path ++ [child] := rfl

@[simp] theorem told_nil (t : Trail) : t.told [] = t := by
  simp [told, cycleRecords]

@[simp] theorem told_told (t : Trail) (cycles more : List (List String)) :
    (t.told cycles).told more = t.told (cycles ++ more) := by
  simp [told, cycleRecords]

/-- Where the path grew by a selector that was not on it, it is as before without that selector. -/
theorem leave_told_enter (h : child ∉ t.onPath) (cycles : List (List String)) :
    ((t.enter child).told cycles).leave child = t.told cycles := by
  simp [enter, told, leave, Finset.erase_insert h]

/-- A trail to a selector: no selector comes twice on its path, this one is the last, and the set
holds what is on the path. -/
structure LeadsTo (t : Trail) (selector : String) : Prop where
  nodup : t.path.Nodup
  last : t.path.getLast? = some selector
  onPath : t.onPath = t.path.toFinset

theorem leadsTo_start (root : String) : (start root).LeadsTo root where
  nodup := List.nodup_singleton root
  last := rfl
  onPath := rfl

theorem onPath_enter (h : t.onPath = t.path.toFinset) (child : String) :
    (t.enter child).onPath = (t.path ++ [child]).toFinset := by
  ext name
  simp [enter, h]

theorem LeadsTo.enter (h : t.LeadsTo selector) (hn : child ∉ t.onPath) : (t.enter child).LeadsTo child where
  nodup := by
    rw [h.onPath, List.mem_toFinset] at hn
    rw [path_enter, List.nodup_append]
    refine ⟨h.nodup, List.nodup_singleton child, ?_⟩
    rintro a ha b hb rfl
    rw [List.mem_singleton] at hb
    subst hb
    exact hn ha
  last := List.getLast?_concat
  onPath := onPath_enter h.onPath child

theorem LeadsTo.told (h : t.LeadsTo selector) (cycles : List (List String)) : (t.told cycles).LeadsTo selector :=
  ⟨h.nodup, h.last, h.onPath⟩

end Trail

/-! ## The code of a call

What `descend` and `descendEach` do to the trail, step by step. -/

theorem run_descend_eq_map (soil : Soil) (selector : String) (t : Trail) :
    (descend soil selector).run t = (descendBack soil selector t).map fun r => (r.1, r.2.1) := rfl

theorem run_descendEach_eq_map (soil : Soil) (selector : String) (es : List (String × List String)) (t : Trail) :
    (descendEach soil selector es).run t = (descendBackEach soil selector es t).map fun r => (r.1, r.2.1) := rfl

theorem descend_eq (soil : Soil) (selector : String) :
    descend soil selector = do
      let c ← soil.registry.get? selector
      let children ← descendEach soil selector soil.usage.entries
      return .node c.name selector (soil.shown c.template) children := by
  apply StateT.ext
  intro t
  rw [run_descend_eq_map, descendBack]
  cases hc : soil.registry.get? selector with
  | none => rfl
  | some c =>
    cases h : descendBackEach soil selector soil.usage.entries t with
    | none => simp [run_descendEach_eq_map, h]
    | some r => simp [run_descendEach_eq_map, h]

theorem descendEach_nil (soil : Soil) (selector : String) : descendEach soil selector [] = pure [] := by
  apply StateT.ext
  intro t
  rw [run_descendEach_eq_map, descendBackEach]
  rfl

theorem descendEach_cons (soil : Soil) (selector child : String) (users : List String)
    (rest : List (String × List String)) :
    descendEach soil selector ((child, users) :: rest) = do
      if selector ∉ users ∨ child ∉ soil.registry.keys then
        descendEach soil selector rest
      else if child ∈ (← get).onPath then
        modify fun t => t.told [t.path ++ [child]]
        descendEach soil selector rest
      else
        modify (·.enter child)
        let tree ← descend soil child
        modify (·.leave child)
        return tree :: (← descendEach soil selector rest) := by
  apply StateT.ext
  intro t
  rw [run_descendEach_eq_map, descendBackEach]
  by_cases hpass : selector ∉ users ∨ child ∉ soil.registry.keys
  · rw [dif_pos hpass, if_pos hpass]
    rfl
  · rw [dif_neg hpass, if_neg hpass]
    by_cases hon : child ∈ t.onPath
    · simp [hon, run_descendEach_eq_map]
      rfl
    · cases h : descendBack soil child (t.enter child) with
      | none => simp [hon, run_descend_eq_map, h]
      | some r =>
        cases hrest : descendBackEach soil selector rest (r.2.1.leave child) with
        | none => simp [hon, run_descend_eq_map, run_descendEach_eq_map, h, hrest]
        | some rs => simp [hon, run_descend_eq_map, run_descendEach_eq_map, h, hrest]

/-! ## What a call comes to -/

/-- The registered components among entries of the usage that a selector uses. -/
def Soil.usedAmong (soil : Soil) (selector : String) (es : List (String × List String)) : List (String × Component) :=
  es.filterMap fun (child, users) =>
    if users.contains selector then (soil.registry.get? child).map (child, ·) else none

/-- An entry of the usage that a descent passes by. -/
theorem usedAmong_of_unused (h : ¬ (selector ∈ users ∧ child ∈ soil.registry.keys)) :
    soil.usedAmong selector ((child, users) :: rest) = soil.usedAmong selector rest := by
  unfold Soil.usedAmong
  apply List.filterMap_cons_none
  by_cases hu : selector ∈ users
  · have hc : soil.registry.get? child = none := by
      rw [Option.eq_none_iff_forall_ne_some]
      intro c hc
      exact h ⟨hu, Table.mem_keys_iff.2 ⟨c, hc⟩⟩
    simp [hc]
  · simp [hu]

theorem usedAmong_of_used (hu : selector ∈ users) (hc : soil.registry.get? child = some c) :
    soil.usedAmong selector ((child, users) :: rest) = (child, c) :: soil.usedAmong selector rest := by
  unfold Soil.usedAmong
  apply List.filterMap_cons_some
  simp [hu, hc]

theorem get?_of_mem_usedAmong {es : List (String × List String)} {e : String × Component}
    (h : e ∈ soil.usedAmong selector es) : soil.registry.get? e.1 = some e.2 := by
  obtain ⟨⟨child, users⟩, -, he⟩ := List.mem_filterMap.1 h
  dsimp only at he
  split at he
  · obtain ⟨c, hc, rfl⟩ := Option.map_eq_some_iff.1 he
    exact hc
  · cases he

theorem run_descendEach_nil (soil : Soil) (selector : String) (t : Trail) :
    (descendEach soil selector []).run t = some ([], t) := by
  rw [descendEach_nil]
  rfl

theorem run_descendEach_of_unused (h : ¬ (selector ∈ users ∧ child ∈ soil.registry.keys)) :
    (descendEach soil selector ((child, users) :: rest)).run t = (descendEach soil selector rest).run t := by
  rw [descendEach_cons, if_pos (not_and_or.1 h)]

theorem run_descendEach_of_onPath (hu : selector ∈ users) (hc : child ∈ soil.registry.keys) (hon : child ∈ t.onPath) :
    (descendEach soil selector ((child, users) :: rest)).run t =
      (descendEach soil selector rest).run (t.told [t.path ++ [child]]) := by
  rw [descendEach_cons]
  simp [hu, hc, hon]

theorem run_descendEach_of_entered (hu : selector ∈ users) (hc : child ∈ soil.registry.keys) (hon : child ∉ t.onPath)
    {tree : UsageTree} {u : Trail} (hrun : (descend soil child).run (t.enter child) = some (tree, u)) :
    (descendEach soil selector ((child, users) :: rest)).run t =
      ((descendEach soil selector rest).run (u.leave child)).map fun (trees, v) => (tree :: trees, v) := by
  rw [descendEach_cons]
  simp [hu, hc, hon, hrun]

/-- A call for a component comes to what grows there: the tree is handed back, and the trail is as
it was but for the cycles. -/
def ComesTo (soil : Soil) (path : List String) (e : String × Component) : Prop :=
  ∀ t : Trail, t.path = path → t.onPath = path.toFinset →
    (descend soil e.1).run t = some ((grow soil path e.1 e.2).1, t.told (grow soil path e.1 e.2).2)

/-- Among entries of the usage, a descent comes to the branches of the components that are used. -/
theorem run_descendEach {path : List String} (es : List (String × List String))
    (h : ∀ e ∈ soil.usedAmong selector es, e.1 ∉ path → ComesTo soil (path ++ [e.1]) e)
    (hpath : t.path = path) (hon : t.onPath = path.toFinset) :
    (descendEach soil selector es).run t =
      some ((soil.usedAmong selector es).filterMap fun e => (branch soil path e).1,
        t.told ((soil.usedAmong selector es).flatMap fun e => (branch soil path e).2)) := by
  -- entry by entry, from a trail with more and more cycles
  induction es generalizing t with
  | nil =>
    rw [run_descendEach_nil]
    simp [Soil.usedAmong]
  | cons entry rest ih =>
    obtain ⟨child, users⟩ := entry
    by_cases hused : selector ∈ users ∧ child ∈ soil.registry.keys
    · obtain ⟨hu, hc⟩ := hused
      obtain ⟨c, hget⟩ := Table.mem_keys_iff.1 hc
      rw [usedAmong_of_used hu hget] at h ⊢
      have hrest : ∀ e ∈ soil.usedAmong selector rest, e.1 ∉ path → ComesTo soil (path ++ [e.1]) e := by
        intro e he
        exact h e (List.mem_cons_of_mem _ he)
      have hgoes : ∀ cycles, (descendEach soil selector rest).run (t.told cycles) =
          some ((soil.usedAmong selector rest).filterMap fun e => (branch soil path e).1,
            t.told (cycles ++ (soil.usedAmong selector rest).flatMap fun e => (branch soil path e).2)) := by
        intro cycles
        rw [← Trail.told_told]
        exact ih hrest hpath hon
      by_cases hm : child ∈ path
      · have hbranch : branch soil path (child, c) = (none, [path ++ [child]]) := by
          simp [branch, hm]
        rw [run_descendEach_of_onPath hu hc (by simp [hon, hm]), hgoes]
        simp [hbranch, hpath]
      · have hnot : child ∉ t.onPath := by
          simp [hon, hm]
        have hrun := h (child, c) List.mem_cons_self hm (t.enter child) (by simp [hpath])
          (by rw [Trail.onPath_enter (hpath ▸ hon), hpath])
        rw [run_descendEach_of_entered hu hc hnot hrun, Trail.leave_told_enter hnot, hgoes]
        simp [branch, hm]
    · rw [usedAmong_of_unused hused] at h ⊢
      rw [run_descendEach_of_unused hused]
      exact ih h hpath hon

/-- A call hands back the tree that grows at its path, leaves the path and the set as they were, and
adds the cycles that grow there. -/
theorem run_descend (soil : Soil) (path : List String) (selector : String) (c : Component)
    (hc : soil.registry.get? selector = some c) : ComesTo soil path (selector, c) := by
  -- as the tree grows: `ih` is for the selectors that are not on the path yet
  induction path, selector, c using grow.induct soil with
  | case1 path selector c ih =>
    intro t hpath hon
    have hchildren : ∀ e ∈ soil.usedAmong selector soil.usage.entries, e.1 ∉ path → ComesTo soil (path ++ [e.1]) e := by
      intro e he hn
      exact ih e.1 e.2 he (by simpa using hn) (get?_of_mem_usedAmong he)
    have heach := run_descendEach soil.usage.entries hchildren hpath hon
    have hused : soil.usedAmong selector soil.usage.entries = soil.usedBy selector := rfl
    rw [descend_eq, grow_eq]
    simp [hc, heach, hused]

theorem run_descend_of_unregistered (hc : soil.registry.get? selector = none) (t : Trail) :
    (descend soil selector).run t = none := by
  rw [descend_eq]
  simp [hc]

/-- Only a call for a registered selector returns. -/
theorem exists_of_run_descend {r : UsageTree × Trail} (h : (descend soil selector).run t = some r) :
    ∃ c, soil.registry.get? selector = some c := by
  cases hc : soil.registry.get? selector with
  | none =>
    rw [run_descend_of_unregistered hc] at h
    cases h
  | some c => exact ⟨c, rfl⟩

/-! ## The calls within a call -/

/-- A call makes another one where it has come to a component that its selector uses and that is
not on the path by then. -/
inductive Calls (soil : Soil) : String × Trail → String × Trail → Prop
  | enters {selector child : String} {t u : Trail} {before after : List (String × List String)} {users : List String}
      {trees : List UsageTree} (registered : selector ∈ soil.registry.keys)
      (split : soil.usage.entries = before ++ (child, users) :: after)
      (come : (descendEach soil selector before).run t = some (trees, u))
      (used : selector ∈ users) (known : child ∈ soil.registry.keys) (off : child ∉ u.onPath) :
      Calls soil (selector, t) (child, u.enter child)

theorem leadsTo_of_calls {u : Trail} (h : t.LeadsTo selector) (hcall : Calls soil (selector, t) (child, u)) :
    u.LeadsTo child := by
  cases hcall with
  | @enters _ _ _ u before after users trees registered split come used known off =>
    have hbefore : ∀ e ∈ soil.usedAmong selector before, e.1 ∉ t.path → ComesTo soil (t.path ++ [e.1]) e := by
      intro e he _
      exact run_descend soil (t.path ++ [e.1]) e.1 e.2 (get?_of_mem_usedAmong he)
    rw [run_descendEach before hbefore rfl h.onPath, Option.some.injEq, Prod.mk.injEq] at come
    obtain ⟨-, rfl⟩ := come
    exact (h.told _).enter off

/-- What holds at the start of a call holds at the start of all calls below it. -/
theorem leadsTo_of_calls_below {call : String × Trail} (h : t.LeadsTo selector)
    (hcalls : ReflTransGen (Calls soil) (selector, t) call) : call.2.LeadsTo call.1 := by
  induction hcalls with
  | refl => exact h
  | tail _ hcall ih => exact leadsTo_of_calls ih hcall

theorem run_descend_start (soil : Soil) (root : String) :
    ((descend soil root).run (.start root)).map (fun (tree, u) => (tree, u.cycles)) = (ofRoot soil root).toOption := by
  cases hc : soil.registry.get? root with
  | none =>
    rw [run_descend_of_unregistered hc, ofRoot, hc]
    rfl
  | some c =>
    rw [run_descend soil [root] root c hc (.start root) rfl (Trail.leadsTo_start root).onPath, ofRoot_of_get? hc]
    rfl

/-- Called at the end of a path without repetitions, with the set of what is on it, a descent returns
if its selector is registered. It leaves the path and the set as they were and adds only cycles and
what is reported about these, and its tree and cycles are those that grow at the path. All calls
below start at the end of such a path, with the set of what is on it. From the root, the descent
comes to the tree and the cycles of the root. -/
theorem descend_restores (soil : Soil) :
    (∀ (selector : String) (t : Trail), t.LeadsTo selector →
      ((∃ tree u, (descend soil selector).run t = some (tree, u)) ↔ selector ∈ soil.registry.keys) ∧
      (∀ tree u, (descend soil selector).run t = some (tree, u) →
        u.path = t.path ∧ u.onPath = t.onPath ∧
          ∃ c cycles, soil.registry.get? selector = some c ∧ grow soil t.path selector c = (tree, cycles) ∧
            u.cycles = t.cycles ++ cycles ∧ u.records = t.records ++ cycleRecords cycles) ∧
      ∀ call, ReflTransGen (Calls soil) (selector, t) call → call.2.LeadsTo call.1) ∧
    ∀ root, ((descend soil root).run (.start root)).map (fun (tree, u) => (tree, u.cycles)) =
      (ofRoot soil root).toOption := by
  refine ⟨?_, run_descend_start soil⟩
  intro selector t h
  refine ⟨?_, ?_, ?_⟩
  · constructor
    · rintro ⟨tree, u, hrun⟩
      exact Table.mem_keys_iff.2 (exists_of_run_descend hrun)
    · intro hs
      obtain ⟨c, hc⟩ := Table.mem_keys_iff.1 hs
      exact ⟨_, _, run_descend soil t.path selector c hc t rfl h.onPath⟩
  · intro tree u hrun
    obtain ⟨c, hc⟩ := exists_of_run_descend hrun
    rw [run_descend soil t.path selector c hc t rfl h.onPath] at hrun
    cases hrun
    exact ⟨rfl, rfl, c, _, hc, rfl, rfl, rfl⟩
  · intro call hcalls
    exact leadsTo_of_calls_below h hcalls

/-- A trail at the root of `pair` that has a cycle on it from before. -/
def pair.trail : Trail := { Trail.start "app" with cycles := [["old", "old"]] }

theorem pair.calls : Calls pair ("app", pair.trail) ("nav", pair.trail.enter "nav") := by
  have hsplit : pair.usage.entries =
      [] ++ ("nav", ["app", "old", "nav", "app"]) :: [("old", ["app"]), ("app", ["nav", "old"])] := rfl
  have hcome := run_descendEach_nil pair "app" pair.trail
  exact .enters (by decide) hsplit hcome (by decide) (by decide) (by decide)

theorem descend_restores_pair :
    pair.trail.LeadsTo "app" ∧
      (∃ tree u, (descend pair "app").run pair.trail = some (tree, u) ∧ u.path = ["app"] ∧ u.onPath = {"app"} ∧
        u.cycles = [["old", "old"], ["app", "nav", "nav"], ["app", "nav", "app"]]) ∧
      (pair.trail.enter "nav").path = ["app", "nav"] ∧ (pair.trail.enter "nav").LeadsTo "nav" ∧
      ((descend pair "app").run (.start "app")).map (fun (tree, u) => (tree, u.cycles)) =
        (ofRoot pair "app").toOption := by
  have hleads : pair.trail.LeadsTo "app" := ⟨by decide, rfl, rfl⟩
  obtain ⟨hdescend, hroot⟩ := descend_restores pair
  obtain ⟨hreturns, hrestores, hcalls⟩ := hdescend "app" pair.trail hleads
  obtain ⟨tree, u, hrun⟩ := hreturns.2 (by decide)
  obtain ⟨hpath, hon, c, cycles, hc, hgrow, hcycles, -⟩ := hrestores tree u hrun
  have happ : c = ⟨"app", "app", "/app.component.ts", none⟩ := by
    cases hc
    rfl
  have hnew : cycles = [["app", "nav", "nav"], ["app", "nav", "app"]] := by
    rw [← show (grow pair pair.trail.path "app" c).2 = cycles by rw [hgrow], happ]
    decide +kernel
  refine ⟨hleads, ⟨tree, u, hrun, hpath, hon, ?_⟩, rfl, hcalls ("nav", _) (.single pair.calls), hroot "app"⟩
  rw [hcycles, hnew]
  rfl

end ComponentUsage.UsageTree
