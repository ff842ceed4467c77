import ComponentUsage.Component.Scan
import ComponentUsage.Proofs.Disk.Depth
import Mathlib.Data.List.Induction
/-!
# Selectors that are declared more than once

A scan takes in the components that its walk reads one after the other. The
registry keeps the place of the first component under a selector and the content
of the last one, and each that takes another's place is warned about
(`scan_collisions`).
-/

namespace ComponentUsage

/-! ## What a walk reads -/

/-- The component that a step of a walk reads, if there is a file that declares
one. -/
def Visit.component? (w : World) (conv : Component.Conventions) : Visit → Option Component
  | .folder _ => none
  | .entry path name =>
    if conv.suffix.toList.isSuffixOf name.toList then
      match w.readText path with
      | .ok text => (Declaration.name? text conv.field).map (Component.ofDeclaration w conv path)
      | .error _ => none
    else none

/-- The folder of a step can be listed, and its definition file read. -/
def Visit.Readable (w : World) (conv : Component.Conventions) : Visit → Prop
  | .folder path => ∃ names, w.list path = .ok names
  | .entry path name =>
    conv.suffix.toList.isSuffixOf name.toList = true → ∃ text, w.readText path = .ok text

instance Visit.decidableReadable {w : World} {conv : Component.Conventions} :
    (v : Visit) → Decidable (v.Readable w conv)
  | .folder path => decidable_of_iff ((w.list path).isOk = true) Fault.isOk_iff
  | .entry path name =>
    decidable_of_iff (conv.suffix.toList.isSuffixOf name.toList = true → (w.readText path).isOk = true)
      (imp_congr_right fun _ => Fault.isOk_iff)

/-- The components that are declared below a directory, in the order of a walk. -/
def World.declared (w : World) (conv : Component.Conventions) (dir : String) : List Component :=
  (w.visits Path.limit (w.here.absolute dir)).filterMap (Visit.component? w conv)

/-- All folders below a directory can be listed, and the definition files read. -/
def World.Scannable (w : World) (conv : Component.Conventions) (dir : String) : Prop :=
  ∀ v ∈ w.visits Path.limit (w.here.absolute dir), v.Readable w conv

namespace Found

/-- What is found once some more components are. -/
def added (found : Found) (cs : List Component) : Found :=
  cs.foldl (fun found c => (found.add c).1) found

variable {w : World} {conv : Component.Conventions}

theorem result_read {path text : String} (h : w.readText path = .ok text) :
    ((Component.read conv path).on w).result =
      .ok ((Declaration.name? text conv.field).map (Component.ofDeclaration w conv path)) := by
  simp only [Component.read, Job.on_bind, Job.on_disk, Outcome.andThen_ok, Job.on_ofExcept, h]
  cases Declaration.name? text conv.field <;> simp [Except.map]

theorem result_visit (found : Found) {v : Visit} (h : v.Readable w conv) :
    ((found.visit conv v).on w).result = .ok (found.added (v.component? w conv).toList) := by
  cases v with
  | folder path =>
    obtain ⟨names, hl⟩ := h
    simp [visit, hl, Visit.component?, added, Except.map]
  | entry path name =>
    rw [visit, Visit.component?]
    split
    · rename_i hs
      obtain ⟨text, ht⟩ := h hs
      rw [(Component.leavesDisk_read conv path).result_bind, result_read ht, ht]
      dsimp only
      cases Declaration.name? text conv.field with
      | none => rfl
      | some selector =>
        rw [Option.map_some, Fault.ok_bind]
        dsimp only
        split <;> rfl
    · rfl

theorem result_visitAll (found : Found) {visits : List Visit} (h : ∀ v ∈ visits, v.Readable w conv) :
    ((found.visitAll conv visits).on w).result =
      .ok (found.added (visits.filterMap (Visit.component? w conv))) := by
  induction visits generalizing found with
  | nil => rfl
  | cons v visits ih =>
    have hv := result_visit found (h v List.mem_cons_self)
    have hvs := ih (found.added (v.component? w conv).toList) fun v hm => h v (List.mem_cons_of_mem _ hm)
    rw [visitAll, List.foldlM_cons, (leavesDisk_visit conv found v).result_bind, hv]
    refine hvs.trans ?_
    rw [List.filterMap_cons]
    cases v.component? w conv <;> rfl

/-! ## Later components in the place of earlier ones -/

/-- The last of some components under a selector. -/
def latest? (cs : List Component) (selector : String) : Option Component :=
  (cs.filter (·.selector = selector)).getLast?

/-- The components that come under a selector again, each with the one before it
under that selector. -/
def replaced (cs : List Component) : List (Component × Component) :=
  cs.zipIdx.filterMap fun (c, i) => (latest? (cs.take i) c.selector).map (·, c)

/-- How it is told that a component takes the place of another. -/
def replacement (old new : Component) : String :=
  s!"Duplicate selector '{new.selector}': {old.definition} replaced by {new.definition}"

theorem latest?_concat (cs : List Component) (c : Component) (selector : String) :
    latest? (cs ++ [c]) selector = if selector = c.selector then some c else latest? cs selector := by
  rw [latest?, List.filter_append]
  by_cases h : selector = c.selector
  · simp [h]
  · have h' : ¬ c.selector = selector := fun he => h he.symm
    simp [h, h', latest?]

theorem replaced_concat (cs : List Component) (c : Component) :
    replaced (cs ++ [c]) = replaced cs ++ ((latest? cs c.selector).map (·, c)).toList := by
  rw [replaced, List.zipIdx_append, List.filterMap_append]
  congr 1
  -- the components before `c` have the same ones before them as without it
  · refine List.filterMap_congr ?_
    rintro ⟨c', i⟩ hm
    have hi := (List.mem_zipIdx' hm).1
    dsimp only
    rw [List.take_append_of_le_length (by omega)]
  · cases h : latest? cs c.selector <;> simp [h]

theorem add_eq (found : Found) (c : Component) :
    (found.add c).1 =
      ⟨found.registry.put c.selector c,
        found.warnings ++ ((found.registry.get? c.selector).map (replacement · c)).toList⟩ := by
  unfold add
  cases found.registry.get? c.selector with
  | none => simp only [Option.map_none, Option.toList_none, List.append_nil]
  | some old => rfl

theorem added_concat (found : Found) (cs : List Component) (c : Component) :
    found.added (cs ++ [c]) = ((found.added cs).add c).1 := by
  simp only [added, List.foldl_append, List.foldl_cons, List.foldl_nil]

/-- What some components come to. -/
def ofComponents (cs : List Component) : Found := added ⟨.empty, []⟩ cs

theorem get?_ofComponents (cs : List Component) (selector : String) :
    (ofComponents cs).registry.get? selector = latest? cs selector := by
  -- from the end, where `add` takes a component in; the same in the three that follow
  induction cs using List.reverseRecOn with
  | nil => rfl
  | append_singleton cs c ih =>
    rw [ofComponents, added_concat, add_eq, Table.get?_put, latest?_concat]
    split
    · rfl
    · exact ih

theorem keys_ofComponents (cs : List Component) :
    (ofComponents cs).registry.keys = (cs.map (·.selector)).eraseDups := by
  induction cs using List.reverseRecOn with
  | nil => rfl
  | append_singleton cs c ih =>
    rw [ofComponents] at ih
    rw [ofComponents, added_concat, add_eq, Table.keys_put, ih, List.map_append, List.eraseDups_append]
    simp only [List.mem_eraseDups, List.map_cons, List.map_nil, List.removeAll, List.filter_cons,
      List.filter_nil, List.elem_eq_mem]
    split
    · rename_i hm
      rw [decide_eq_true hm]
      simp
    · rename_i hm
      rw [decide_eq_false hm]
      rfl

theorem warnings_ofComponents (cs : List Component) :
    (ofComponents cs).warnings = (replaced cs).map fun (old, new) => replacement old new := by
  induction cs using List.reverseRecOn with
  | nil => rfl
  | append_singleton cs c ih =>
    have hg := get?_ofComponents cs c.selector
    rw [ofComponents] at ih hg
    rw [ofComponents, added_concat, add_eq, ih, hg, replaced_concat, List.map_append]
    cases latest? cs c.selector <;> rfl

/-- Each component has a place of its own or takes another's. -/
theorem length_eq_size_add (cs : List Component) :
    cs.length = (ofComponents cs).registry.size + (ofComponents cs).warnings.length := by
  induction cs using List.reverseRecOn with
  | nil => rfl
  | append_singleton cs c ih =>
    rw [ofComponents] at ih
    rw [ofComponents, added_concat, add_eq]
    simp only [Table.size_eq, Table.keys_put, List.length_append, List.length_singleton] at ih ⊢
    cases hg : (added ⟨.empty, []⟩ cs).registry.get? c.selector with
    | none =>
      have hm : c.selector ∉ (added ⟨.empty, []⟩ cs).registry.keys := by
        rw [Table.mem_keys_iff, hg]
        simp
      simp [hm]
      omega
    | some old =>
      have hm : c.selector ∈ (added ⟨.empty, []⟩ cs).registry.keys := Table.mem_keys_iff.2 ⟨old, hg⟩
      simp [hm]
      omega

/-! ## A scan -/

theorem result_scan {dir : String} (h : w.Scannable conv dir) :
    ((Registry.scan dir conv).on w).result = .ok (ofComponents (w.declared conv dir)) := by
  simp only [Registry.scan, Job.on_bind, Job.on_disk, Job.on_tell, Outcome.andThen_ok, on_walk]
  exact result_visitAll ⟨.empty, []⟩ h

theorem selector_of_latest? {cs : List Component} {selector : String} {c : Component}
    (h : latest? cs selector = some c) : c.selector = selector := by
  have hm := List.mem_of_getLast? h
  simpa using (List.mem_filter.1 hm).2

/-- A scan of what can be read keeps one component for each selector that is
declared: in the place of the first one, and with the content of the last. There
is a warning for each other one, about it and the one that it takes the place of,
and the bound on the walk leaves nothing out. -/
theorem scan_collisions (w : World) (conv : Component.Conventions) (dir : String)
    (h : w.Scannable conv dir) :
    ∃ found, ((Registry.scan dir conv).on w).result = .ok found ∧
      found.registry.keys = ((w.declared conv dir).map (·.selector)).eraseDups ∧
      (∀ selector, found.registry.get? selector = latest? (w.declared conv dir) selector) ∧
      (∀ e ∈ found.registry.entries, e.2.selector = e.1) ∧
      found.warnings = (replaced (w.declared conv dir)).map (fun (old, new) => replacement old new) ∧
      (w.declared conv dir).length = found.registry.size + found.warnings.length ∧
      (w.root.Tidy → ∀ depth, Path.limit ≤ depth →
        w.visits depth (w.here.absolute dir) = w.visits Path.limit (w.here.absolute dir)) := by
  refine ⟨_, result_scan h, keys_ofComponents _, get?_ofComponents _, ?_, warnings_ofComponents _,
    length_eq_size_add _, fun ht => World.visits_of_limit_le ht dir⟩
  intro e he
  have hg := Table.mem_entries_iff.1 (show (e.1, e.2) ∈ _ from he)
  rw [get?_ofComponents] at hg
  exact selector_of_latest? hg

def definitions : Component.Conventions where
  sourceRoot := "/"
  suffix := ".component.ts"
  extensions := [".html"]
  field := "selector"
  separator := "/"

/-- A disk on which the cart of a shop is declared three times. -/
def carts : World where
  root := .folder [
    ("cart.component.ts", .file "selector: 'shop-cart'".toUTF8),
    ("old", .folder [
      ("cart.component.ts", .file "selector: 'shop-cart'".toUTF8),
      ("item.component.ts", .file "selector: 'shop-item'".toUTF8)]),
    ("spare.component.ts", .file "selector: 'shop-cart'".toUTF8)]
  here := { workingDirectory := "/", environment := .empty }

theorem list_carts : carts.list "/" = .ok ["cart.component.ts", "old", "spare.component.ts"] :=
  World.list_of_sorted (by decide +kernel) (by decide +kernel) (by decide +kernel) (by decide +kernel)

theorem list_carts_old : carts.list "/old" = .ok ["cart.component.ts", "item.component.ts"] :=
  World.list_of_sorted (by decide +kernel) (by decide +kernel) (by decide +kernel) (by decide +kernel)

theorem visits_carts (depth : Nat) : carts.visits (depth + 2) "/" =
    [.folder "/", .entry "/cart.component.ts" "cart.component.ts", .folder "/old",
      .entry "/old/cart.component.ts" "cart.component.ts",
      .entry "/old/item.component.ts" "item.component.ts",
      .entry "/spare.component.ts" "spare.component.ts"] := by
  have hf : ["/cart.component.ts", "/old", "/old/cart.component.ts", "/old/item.component.ts",
      "/spare.component.ts"].map carts.isFolder = [false, true, false, false, false] := by
    decide +kernel
  have hj : Path.join "/" "cart.component.ts" = "/cart.component.ts" ∧ Path.join "/" "old" = "/old" ∧
      Path.join "/" "spare.component.ts" = "/spare.component.ts" ∧
      Path.join "/old" "cart.component.ts" = "/old/cart.component.ts" ∧
      Path.join "/old" "item.component.ts" = "/old/item.component.ts" := by decide +kernel
  obtain ⟨hcart, hold, hspare, hcart', hitem⟩ := hj
  simp only [List.map_cons, List.map_nil, List.cons.injEq] at hf
  simp [World.visits, World.visitsAt, list_carts, list_carts_old, hf, hcart, hold, hspare, hcart', hitem]

theorem scan_collisions_carts :
    carts.Scannable definitions "/" ∧ carts.root.Tidy ∧
      ∃ found, ((Registry.scan "/" definitions).on carts).result = .ok found ∧
        found.registry.keys = ["shop-cart", "shop-item"] ∧
        (found.registry.get? "shop-cart").map (·.definition) = some "/spare.component.ts" ∧
        found.warnings = [
          "Duplicate selector 'shop-cart': /cart.component.ts replaced by /old/cart.component.ts",
          "Duplicate selector 'shop-cart': /old/cart.component.ts replaced by /spare.component.ts"] ∧
        carts.visits (Path.limit + 1) (carts.here.absolute "/") =
          carts.visits Path.limit (carts.here.absolute "/") := by
  have hv : carts.visits Path.limit (carts.here.absolute "/") = carts.visits (4094 + 2) "/" := by
    rw [show carts.here.absolute "/" = "/" by decide +kernel, Path.limit]
  have hs : carts.Scannable definitions "/" := by
    rw [World.Scannable, hv, visits_carts]
    decide +kernel
  have ht : carts.root.Tidy := by
    simp only [carts, Node.Tidy, Node.TidyEntries]
    decide +kernel
  obtain ⟨found, hf, hkeys, hget, -, hwarn, -, hdepth⟩ := scan_collisions carts definitions "/" hs
  rw [World.declared, hv, visits_carts] at hkeys hwarn
  refine ⟨hs, ht, found, hf, ?_, ?_, ?_, hdepth ht _ (Nat.le_succ _)⟩
  · rw [hkeys]
    decide +kernel
  · rw [hget, World.declared, hv, visits_carts]
    decide +kernel
  · rw [hwarn]
    decide +kernel

end Found
end ComponentUsage
