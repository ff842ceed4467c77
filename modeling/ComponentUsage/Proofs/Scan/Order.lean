import ComponentUsage.Proofs.Disk.Entries
import ComponentUsage.Proofs.Scan.Collisions
import ComponentUsage.Proofs.Scan.Spots
/-!
# The order of a scan

A scan of a tree that can be read takes in its definition files one after the other, by
the names that lead to them. What it finds does not depend on the order in which the
folders hold their entries (`scan_reads`).
-/

namespace ComponentUsage

/-- At a spot of a tree stands no folder, but something whose name ends with the suffix. -/
def Node.HasDefinition (top : Node) (suffix : String) (spot : List String) : Prop :=
  ∃ n name, top.get? spot = some n ∧ n.isFolder = false ∧ spot.getLast? = some name ∧
    suffix.toList.isSuffixOf name.toList = true

namespace World

/-- In the tree below a directory all folders can be listed, and the definition files read. -/
structure ReadableTree (w : World) (suffix dir : String) (top : Node) : Prop where
  folders : ∀ spot es, top.get? spot = some (.folder es) →
    ∃ names, w.list (Path.below dir spot) = .ok names
  files : ∀ spot, top.HasDefinition suffix spot → ∃ text, w.readText (Path.below dir spot) = .ok text

namespace ReadableTree

variable {w : World} {suffix dir name : String} {top n : Node} {spot : List String}
  {es : List (String × Node)}

theorem child (h : w.ReadableTree suffix dir (.folder es)) (hc : es.lookup name = some n) :
    w.ReadableTree suffix (Path.join dir name) n where
  folders spot es' hg := h.folders (name :: spot) es' (by simp [Node.get?, Node.entries, hc, hg])
  files spot := by
    rintro ⟨m, last, hg, hm, hlast, hs⟩
    refine h.files (name :: spot) ⟨m, last, by simp [Node.get?, Node.entries, hc, hg], hm, ?_, hs⟩
    rw [List.getLast?_cons, hlast]
    rfl

/-- A folder in a readable tree is found on its path. -/
theorem find_child (h : w.ReadableTree suffix dir (.folder es)) (hd : w.find dir = .ok (.folder es))
    (hn : Node.IsName name) {es' : List (String × Node)} (hc : es.lookup name = some (.folder es')) :
    w.find (Path.join dir name) = .ok (.folder es') := by
  obtain ⟨names, hl⟩ := h.folders [name] es' (by simp [Node.get?, Node.entries, hc])
  obtain ⟨es'', hf, -⟩ := list_eq_ok hl
  have := find_join hd hn hf
  rw [hc] at this
  cases this
  exact hf

/-- What stands at a spot is below the directory, and a folder there is one on its path. -/
theorem below_of_get? (h : w.ReadableTree suffix dir top) (ht : w.root.Tidy) (hd : w.find dir = .ok top)
    (hg : top.get? spot = some n) :
    w.Below dir spot ∧ w.isFolder (Path.below dir spot) = n.isFolder := by
  induction spot generalizing dir top with
  | nil =>
    cases hg
    exact ⟨.here _, by rw [Path.below_nil, isFolder, hd]⟩
  | cons name spot ih =>
    obtain ⟨child, hc, hchild⟩ := Option.bind_eq_some_iff.1 hg
    cases top with
    | file | dangling => cases hc
    | folder es =>
      have hc : es.lookup name = some child := hc
      have hmem : name ∈ es.map Prod.fst := Node.mem_names_iff.2 (by rw [hc]; rfl)
      obtain ⟨hn, -⟩ := Node.tidy_child (tidy_find ht hd) hc
      by_cases hf : child.isFolder = true
      · obtain ⟨es', rfl⟩ := Node.exists_folder_of_isFolder hf
        obtain ⟨hb, hfold⟩ := ih (h.child hc) (h.find_child hd hn hc) hchild
        exact ⟨.inside hd hmem hb, hfold⟩
      -- a path to anything else leads to no folder
      · obtain rfl : spot = [] := by
          cases spot with
          | nil => rfl
          | cons _ _ => cases child <;> simp_all [Node.get?, Node.entries, Node.isFolder]
        cases hchild
        refine ⟨.inside hd hmem (.here _), ?_⟩
        rw [Bool.eq_false_iff.2 hf, ← Bool.not_eq_true]
        intro hfold
        obtain ⟨es', hes'⟩ := find_of_isFolder hfold
        rw [find_join hd hn hes'] at hc
        cases hc
        exact hf rfl

theorem get?_of_below (h : w.ReadableTree suffix dir top) (ht : w.root.Tidy) (hd : w.find dir = .ok top)
    (hb : w.Below dir spot) : ∃ n, top.get? spot = some n := by
  induction hb generalizing top with
  | here dir => exact ⟨top, rfl⟩
  | @inside dir name spot es hp hname hb ih =>
    obtain rfl : top = .folder es := Except.ok.inj (hd.symm.trans hp)
    obtain ⟨child, hc⟩ := Option.isSome_iff_exists.1 (Node.mem_names_iff.1 hname)
    obtain ⟨hn, -⟩ := Node.tidy_child (tidy_find ht hd) hc
    have hget : (Node.folder es).get? (name :: spot) = child.get? spot := by
      simp [Node.get?, Node.entries, hc]
    rw [hget]
    by_cases hf : w.isFolder (Path.join dir name) = true
    · obtain ⟨es', hes'⟩ := find_of_isFolder hf
      have := find_join hd hn hes'
      rw [hc] at this
      cases this
      exact ih (h.child hc) hes'
    · obtain rfl := hb.eq_nil (by simpa using hf)
      exact ⟨child, rfl⟩

theorem of_not_folder (h : top.isFolder = false) : w.ReadableTree suffix dir top where
  folders spot es hg := by
    cases spot <;> cases top <;> simp_all [Node.get?, Node.entries, Node.isFolder]
  files := by
    rintro spot ⟨n, last, hg, -, hlast, -⟩
    cases spot <;> cases top <;> simp_all [Node.get?, Node.entries, Node.isFolder]

/-- A folder is a readable tree if it can be listed, the folders in it are readable trees, and
the definition files in it can be read. -/
theorem folder (hl : (w.list dir).isOk = true)
    (he : ∀ e ∈ es, (e.2.isFolder = true → w.ReadableTree suffix (Path.join dir e.1) e.2) ∧
      (e.2.isFolder = false → suffix.toList.isSuffixOf e.1.toList = true →
        (w.readText (Path.join dir e.1)).isOk = true)) :
    w.ReadableTree suffix dir (.folder es) := by
  have hmem : ∀ {name child}, es.lookup name = some child → (name, child) ∈ es := fun {name child} hc => by
    obtain ⟨before, after, rfl, -⟩ := List.lookup_eq_some_iff.1 hc
    simp
  have hsub : ∀ {name child}, es.lookup name = some child →
      w.ReadableTree suffix (Path.join dir name) child := fun {name child} hc => by
    cases hf : child.isFolder with
    | true => exact (he _ (hmem hc)).1 hf
    | false => exact of_not_folder hf
  constructor
  · intro spot es' hg
    cases spot with
    | nil => exact Fault.isOk_iff.1 hl
    | cons name spot =>
      obtain ⟨child, hc, hg⟩ := Option.bind_eq_some_iff.1 hg
      exact (hsub hc).folders spot es' hg
  · rintro spot ⟨n, last, hg, hf, hlast, hs⟩
    cases spot with
    | nil => cases hlast
    | cons name spot =>
      obtain ⟨child, hc, hg⟩ := Option.bind_eq_some_iff.1 hg
      cases spot with
      | nil =>
        cases hg
        cases hlast
        exact Fault.isOk_iff.1 ((he _ (hmem hc)).2 hf hs)
      | cons name' spot =>
        exact (hsub hc).files _ ⟨n, last, hg, hf, by simpa using hlast, hs⟩

end ReadableTree
end World

/-! ## What is read -/

/-- The definition file that a step of a walk reads. -/
def Visit.file? (suffix : String) : Visit → Option String
  | .folder _ => none
  | .entry path name => if suffix.toList.isSuffixOf name.toList then some path else none

namespace Found

open Job

/-- Takes in the component of a definition file. -/
def take (conv : Component.Conventions) (found : Found) (path : String) : Job Found := do
  match ← Component.read conv path with
  | none => return found
  | some c =>
    let (found, warning) := found.add c
    if let some message := warning then
      .tell .warning Component.source message
    return found

variable {w : World} {conv : Component.Conventions}

theorem on_visit_eq_take (found : Found) {v : Visit} (h : v.Readable w conv) :
    (found.visit conv v).on w = ((v.file? conv.suffix).toList.foldlM (take conv) found).on w := by
  cases v with
  | folder path =>
    obtain ⟨names, hl⟩ := h
    simp [visit, Visit.file?, hl, Except.map]
  | entry path name =>
    rw [visit, Visit.file?]
    split
    · simp only [Option.toList_some, List.foldlM_cons, List.foldlM_nil, bind_pure]
      rfl
    · rfl

/-- A walk that meets nothing unreadable takes in its definition files one after the other. -/
theorem on_visitAll_eq_take (found : Found) {visits : List Visit} (h : ∀ v ∈ visits, v.Readable w conv) :
    (found.visitAll conv visits).on w =
      ((visits.filterMap (Visit.file? conv.suffix)).foldlM (take conv) found).on w := by
  rw [visitAll, on_foldlM_flatMap (leavesDisk_visit conv) found visits
    fun v hv found => on_visit_eq_take found (h v hv), List.filterMap_eq_flatMap_toList]

end Found

namespace World

variable {w : World} {conv : Component.Conventions} {suffix dir : String} {top : Node}

/-- A definition file is met at a spot. -/
def hasDefinition (w : World) (suffix dir : String) (spot : List String) : Bool :=
  !w.isFolder (Path.below dir spot) && suffix.toList.isSuffixOf (spot.getLastD "").toList

/-- The spots of the definition files below a directory, in the order of a walk. -/
def definitions (w : World) (suffix dir : String) : List (List String) :=
  (w.spots Path.limit dir).filter (w.hasDefinition suffix dir)

theorem file?_visitAt (spot : List String) :
    (w.visitAt dir spot).file? suffix =
      if w.hasDefinition suffix dir spot then some (Path.below dir spot) else none := by
  cases h : w.isFolder (Path.below dir spot) <;> simp [visitAt, hasDefinition, Visit.file?, h]

theorem filterMap_visits (hd : w.isFolder dir = true) :
    (w.visits Path.limit dir).filterMap (Visit.file? suffix) =
      (w.definitions suffix dir).map (Path.below dir) := by
  rw [visits_eq_map _ hd, List.filterMap_map, definitions, ← List.filterMap_eq_map, List.filterMap_filter]
  exact List.filterMap_congr fun spot _ => file?_visitAt spot

variable {es : List (String × Node)}

theorem ReadableTree.hasDefinition_iff (h : w.ReadableTree suffix dir (.folder es)) (ht : w.root.Tidy)
    (hd : w.find dir = .ok (.folder es)) {n : Node} {spot : List String}
    (hg : (Node.folder es).get? spot = some n) :
    w.hasDefinition suffix dir spot = true ↔ (Node.folder es).HasDefinition suffix spot := by
  rw [hasDefinition, (h.below_of_get? ht hd hg).2, Bool.and_eq_true, Bool.not_eq_true']
  constructor
  · rintro ⟨hf, hs⟩
    cases hlast : spot.getLast? with
    | none =>
      rw [List.getLast?_eq_none_iff] at hlast
      subst hlast
      cases hg
      cases hf
    | some last =>
      rw [List.getLastD_eq_getLast?, hlast] at hs
      exact ⟨n, last, hg, hf, hlast, hs⟩
  · rintro ⟨m, last, hm, hf, hlast, hs⟩
    cases hg.symm.trans hm
    rw [List.getLastD_eq_getLast?, hlast]
    exact ⟨hf, hs⟩

theorem ReadableTree.readable_of_mem_visits (h : w.ReadableTree conv.suffix dir (.folder es))
    (ht : w.root.Tidy) (hd : w.find dir = .ok (.folder es)) :
    ∀ v ∈ w.visits Path.limit dir, v.Readable w conv := by
  rw [visits_eq_map _ (isFolder_of_find hd)]
  intro v hv
  obtain ⟨spot, hs, rfl⟩ := List.mem_map.1 hv
  obtain ⟨n, hg⟩ := h.get?_of_below ht hd (below_of_mem_spots hs)
  have hkind := (h.below_of_get? ht hd hg).2
  cases hf : n.isFolder with
  | true =>
    obtain ⟨es', rfl⟩ := Node.exists_folder_of_isFolder hf
    rw [visitAt, hkind]
    exact h.folders spot es' hg
  | false =>
    rw [visitAt, hkind, hf]
    intro hsuffix
    refine h.files spot ((h.hasDefinition_iff ht hd hg).1 ?_)
    rw [hasDefinition, hkind, hf, hsuffix]
    rfl

/-- In a tree that can be read a walk comes to all definition files. -/
theorem ReadableTree.mem_definitions (h : w.ReadableTree suffix dir (.folder es)) (ht : w.root.Tidy)
    (hd : w.find dir = .ok (.folder es)) (hne : dir ≠ "") (spot : List String) :
    spot ∈ w.definitions suffix dir ↔ (Node.folder es).HasDefinition suffix spot := by
  rw [definitions, List.mem_filter]
  constructor
  · rintro ⟨hs, hdef⟩
    obtain ⟨n, hg⟩ := h.get?_of_below ht hd (below_of_mem_spots hs)
    exact (h.hasDefinition_iff ht hd hg).1 hdef
  · intro hdef
    obtain ⟨n, -, hg, -⟩ := id hdef
    refine ⟨?_, (h.hasDefinition_iff ht hd hg).2 hdef⟩
    have hsize : dir.utf8ByteSize ≠ 0 := fun h0 => hne (String.utf8ByteSize_eq_zero_iff.1 h0)
    have hlimit : 0 < Path.limit := by decide
    rcases mem_spots_or ht (h.below_of_get? ht hd hg).1 Path.limit (by omega) with
      hs | ⟨s, hs, -, -, hf, fault, hl⟩
    · exact hs
    -- no folder of the tree ends the walk
    · obtain ⟨m, hm⟩ := h.get?_of_below ht hd (below_of_mem_spots hs)
      rw [(h.below_of_get? ht hd hm).2] at hf
      obtain ⟨es', rfl⟩ := Node.exists_folder_of_isFolder hf
      obtain ⟨names, hl'⟩ := h.folders s es' hm
      rw [hl] at hl'
      cases hl'

/-! ## Disks that read the same -/

namespace ReadsAs

variable {w' : World} (h : w.ReadsAs w')

include h

theorem visits (depth : Nat) (path : String) : w'.visits depth path = w.visits depth path := by
  induction depth generalizing path with
  | zero => rfl
  | succ depth ih =>
    rw [World.visits, World.visits, h.list]
    cases w.list path with
    | error fault => rfl
    | ok names =>
      have hat : ∀ name, w'.visitsAt (w'.visits depth) path name = w.visitsAt (w.visits depth) path name :=
        fun name => by simp only [visitsAt, h.isFolder, ih]
      dsimp only
      rw [List.flatMap_congr fun name _ => hat name]

theorem ofDeclaration (path selector : String) :
    Component.ofDeclaration w' conv path selector = Component.ofDeclaration w conv path selector := by
  have hf : w'.isFile = w.isFile := funext h.isFile
  simp only [Component.ofDeclaration, Component.findTemplate, h.here, hf]

theorem result_read (path : String) :
    ((Component.read conv path).on w').result = ((Component.read conv path).on w).result := by
  simp only [Component.read, Job.on_bind, Job.on_disk, Outcome.andThen_ok, Job.on_ofExcept, h.readText]
  cases w.readText path with
  | error fault => rfl
  | ok text =>
    simp only [Outcome.andThen_ok]
    cases Declaration.name? text conv.field with
    | none => rfl
    | some selector => simp only [Job.on_pure, h.ofDeclaration]

theorem result_visit (found : Found) (v : Visit) :
    ((found.visit conv v).on w').result = ((found.visit conv v).on w).result := by
  cases v with
  | folder path => simp only [Found.visit, Job.LeavesDisk.disk.result_bind, Job.on_disk, Fault.ok_bind,
      (Job.LeavesDisk.ofExcept _).result_bind, Job.on_ofExcept, h.list, Job.on_pure]
  | entry path name =>
    rw [Found.visit]
    split
    · rw [(Component.leavesDisk_read conv path).result_bind, (Component.leavesDisk_read conv path).result_bind,
        h.result_read]
      refine bind_congr fun c => ?_
      cases c with
      | none => rfl
      | some c =>
        dsimp only
        split <;> rfl
    · rfl

theorem result_visitAll (found : Found) (visits : List Visit) :
    ((found.visitAll conv visits).on w').result = ((found.visitAll conv visits).on w).result :=
  Job.LeavesDisk.result_foldlM_congr (Found.leavesDisk_visit conv) (fun v _ found => h.result_visit found v) found

/-- A scan finds the same on disks that read the same. -/
theorem result_scan (dir : String) :
    ((Registry.scan dir conv).on w').result = ((Registry.scan dir conv).on w).result := by
  simp only [Registry.scan, Job.on_bind, Job.on_disk, Job.on_tell, Outcome.andThen_ok, Found.on_walk, h.here,
    h.visits]
  exact h.result_visitAll _ _

end ReadsAs
end World

namespace Found

/-- In a tree that can be read a walk takes in, one after the other, what stands in no
folder's place under a name with the suffix, in the order of the names that lead there. A
scan of the tree succeeds, and comes to the same in whatever order the folders of the disk
hold their entries. -/
theorem scan_reads {w : World} {conv : Component.Conventions} {dir : String} {es : List (String × Node)}
    (ht : w.root.Tidy) (hd : w.find (w.here.absolute dir) = .ok (.folder es))
    (hr : w.ReadableTree conv.suffix (w.here.absolute dir) (.folder es)) :
    ∃ spots : List (List String),
      (∀ spot, spot ∈ spots ↔ (Node.folder es).HasDefinition conv.suffix spot) ∧
      spots.Pairwise Precedes ∧
      (∀ found, (walk conv Path.limit (w.here.absolute dir) found).on w =
        ((spots.map (Path.below (w.here.absolute dir))).foldlM (take conv) found).on w) ∧
      ∃ found, ((Registry.scan dir conv).on w).result = .ok found ∧
        ∀ root', w.root.Shuffled root' →
          ((Registry.scan dir conv).on { w with root := root' }).result = .ok found := by
  have hvisits := hr.readable_of_mem_visits ht hd
  refine ⟨w.definitions conv.suffix (w.here.absolute dir),
    hr.mem_definitions ht hd (Path.normalize_ne_empty _), (World.pairwise_spots ht _ _).filter _,
    fun found => ?_, _, result_scan hvisits, fun root' hs => ?_⟩
  · rw [on_walk, on_visitAll_eq_take found hvisits, World.filterMap_visits (World.isFolder_of_find hd)]
  · rw [(World.reads_shuffled ht hs).result_scan, result_scan hvisits]

/-- What stands in the root folder of a disk whose cart is declared twice. -/
def asideEntries : List (String × Node) := [
  ("a-b.component.ts", .file "selector: 'shop-cart'".toUTF8),
  ("old.component.ts", .folder [("x.component.ts", .file "selector: 'shop-item'".toUTF8)]),
  ("a", .folder [("x.component.ts", .file "selector: 'shop-cart'".toUTF8)])]

def aside (entries : List (String × Node)) : World where
  root := .folder entries
  here := { workingDirectory := "/", environment := .empty }

/-- The cart in a folder is read before the one beside the folder, although the path of
that one is the smaller text. -/
theorem scan_reads_aside :
    (aside asideEntries).root.Tidy ∧
      (aside asideEntries).ReadableTree ".component.ts" "/" (.folder asideEntries) ∧
      (∃ spots : List (List String), spots.Pairwise Precedes ∧
        ["a", "x.component.ts"] ∈ spots ∧ ["a-b.component.ts"] ∈ spots ∧ ["old.component.ts"] ∉ spots) ∧
      Precedes ["a", "x.component.ts"] ["a-b.component.ts"] ∧ "/a-b.component.ts" < "/a/x.component.ts" ∧
      ∃ found, ((Registry.scan "/" definitions).on (aside asideEntries)).result = .ok found ∧
        ((Registry.scan "/" definitions).on (aside asideEntries.reverse)).result = .ok found := by
  have ht : (aside asideEntries).root.Tidy := by
    simp only [aside, asideEntries, Node.Tidy, Node.TidyEntries]
    decide +kernel
  have hr : (aside asideEntries).ReadableTree ".component.ts" "/" (.folder asideEntries) := by
    refine .folder (by decide +kernel) ?_
    simp only [asideEntries, List.forall_mem_cons, List.not_mem_nil, false_implies, implies_true, and_true]
    refine ⟨⟨by simp [Node.isFolder], fun _ _ => by decide +kernel⟩, ⟨fun _ => ?_, by simp [Node.isFolder]⟩,
      fun _ => ?_, by simp [Node.isFolder]⟩
    all_goals
      refine .folder (by decide +kernel) ?_
      simp only [List.forall_mem_cons, List.not_mem_nil, false_implies, implies_true, and_true]
      exact ⟨by simp [Node.isFolder], fun _ _ => by decide +kernel⟩
  have hroot : (aside asideEntries).here.absolute "/" = "/" := by decide +kernel
  have hd : (aside asideEntries).find "/" = .ok (.folder asideEntries) := rfl
  rw [← hroot] at hd hr
  obtain ⟨spots, hmem, hsorted, -, found, hfound, hshuffled⟩ :=
    @scan_reads (aside asideEntries) definitions "/" asideEntries ht hd hr
  rw [hroot] at hr
  refine ⟨ht, hr, ⟨spots, hsorted, (hmem _).2 ⟨_, _, rfl, rfl, rfl, by decide +kernel⟩,
    (hmem _).2 ⟨_, _, rfl, rfl, rfl, by decide +kernel⟩, fun hold => ?_⟩, by decide, by decide,
    found, hfound, hshuffled _ (.entries (List.reverse_perm _).symm)⟩
  obtain ⟨n, name, hg, hf, -⟩ := (hmem _).1 hold
  cases hg
  cases hf

end Found
end ComponentUsage
