import ComponentUsage.Proofs.Scan.Collisions
import ComponentUsage.Proofs.Scan.Spots
/-!
# What ends a scan

A scan fails at a folder that cannot be listed or a definition file that cannot be read.
Of all of them below its directory the first one, in the order of their spots, is the one
that is told (`result_scan_of_firstFault`).
-/

namespace ComponentUsage

/-- What keeps a step of a walk from being done. -/
def Visit.fault? (w : World) (suffix : String) : Visit → Option Fault
  | .folder path =>
    match w.list path with
    | .error fault => some fault
    | .ok _ => none
  | .entry path name =>
    if suffix.toList.isSuffixOf name.toList then
      match w.readText path with
      | .error fault => some fault
      | .ok _ => none
    else none

theorem Visit.readable_iff {w : World} {conv : Component.Conventions} {v : Visit} :
    v.Readable w conv ↔ v.fault? w conv.suffix = none := by
  cases v with
  | folder path => cases h : w.list path <;> simp [Readable, fault?, h]
  | entry path name =>
    rw [Readable, fault?]
    split
    · rename_i hs
      cases h : w.readText path <;> simp [hs]
    · rename_i hs
      simp [hs]

namespace World

/-- At a spot below a directory stands a folder that cannot be listed for a fault, or
something else whose name ends with the suffix and that cannot be read for it. -/
def Faulty (w : World) (suffix dir : String) (spot : List String) (fault : Fault) : Prop :=
  w.Below dir spot ∧
    ((w.isFolder (Path.below dir spot) = true ∧ w.list (Path.below dir spot) = .error fault) ∨
      (w.isFolder (Path.below dir spot) = false ∧
        suffix.toList.isSuffixOf (spot.getLastD "").toList = true ∧
        w.readText (Path.below dir spot) = .error fault))

/-- Of all spots below a directory with a fault this is the first. -/
structure FirstFault (w : World) (suffix dir : String) (spot : List String) (fault : Fault) : Prop where
  faulty : w.Faulty suffix dir spot fault
  first : ∀ spot' fault', w.Faulty suffix dir spot' fault' → spot' ≠ spot → Precedes spot spot'

variable {w : World} {suffix dir : String} {spot : List String} {fault : Fault}
  {conv : Component.Conventions}

theorem faulty_iff :
    w.Faulty suffix dir spot fault ↔
      w.Below dir spot ∧ (w.visitAt dir spot).fault? w suffix = some fault := by
  rw [Faulty, visitAt]
  cases w.isFolder (Path.below dir spot) with
  | true => cases hl : w.list (Path.below dir spot) <;> simp [Visit.fault?, hl]
  | false =>
    simp only [Bool.false_eq_true, if_false, false_and, true_and, false_or, Visit.fault?]
    cases hr : w.readText (Path.below dir spot) <;> simp

theorem FirstFault.unique {spot' : List String} {fault' : Fault} (h : w.FirstFault suffix dir spot fault)
    (h' : w.FirstFault suffix dir spot' fault') : spot' = spot ∧ fault' = fault := by
  have hs : spot' = spot := by
    by_contra hne
    exact asymm_of Precedes (h.first _ _ h'.faulty hne) (h'.first _ _ h.faulty (Ne.symm hne))
  subst hs
  have hf := (faulty_iff.1 h.faulty).2
  rw [(faulty_iff.1 h'.faulty).2] at hf
  exact ⟨rfl, Option.some.inj hf⟩

/-! ## The first fault of a walk -/

/-- If there is any fault below a directory, a walk comes to the first one after steps that can
be done. -/
theorem exists_firstFault (ht : w.root.Tidy) (hne : dir ≠ "")
    (h : ∃ spot fault, w.Faulty suffix dir spot fault) :
    ∃ spot fault before after, w.FirstFault suffix dir spot fault ∧
      w.spots Path.limit dir = before ++ spot :: after ∧
      ∀ s ∈ before, (w.visitAt dir s).fault? w suffix = none := by
  have hsize : dir.utf8ByteSize ≠ 0 := fun h0 => hne (String.utf8ByteSize_eq_zero_iff.1 h0)
  have hlimit : 0 < Path.limit := by decide
  -- a fault at a spot that the walk does not come to lies below one where it ends
  have hmet : ∀ s fault, w.Faulty suffix dir s fault →
      ∃ q ∈ w.spots Path.limit dir, q <+: s ∧ ((w.visitAt dir q).fault? w suffix).isSome = true := by
    intro s fault hs
    obtain ⟨hb, hf⟩ := faulty_iff.1 hs
    rcases mem_spots_or ht hb Path.limit (by omega) with hm | ⟨q, hq, hp, -, hfold, stop, hl⟩
    · exact ⟨s, hm, List.prefix_rfl, by rw [hf]; rfl⟩
    · refine ⟨q, hq, hp, ?_⟩
      rw [(faulty_iff.1 ⟨below_of_mem_spots hq, .inl ⟨hfold, hl⟩⟩).2]
      rfl
  obtain ⟨s, f, hs⟩ := h
  obtain ⟨q, hq, -, hqf⟩ := hmet s f hs
  cases hfind : (w.spots Path.limit dir).find? fun s => ((w.visitAt dir s).fault? w suffix).isSome with
  | none => exact absurd hqf (List.find?_eq_none.1 hfind q hq)
  | some spot =>
    obtain ⟨hspot, before, after, hsplit, hbefore⟩ := List.find?_eq_some_iff_append.1 hfind
    obtain ⟨fault, hfault⟩ := Option.isSome_iff_exists.1 hspot
    have hnone : ∀ s ∈ before, (w.visitAt dir s).fault? w suffix = none :=
      fun s hs => by simpa using hbefore s hs
    have hmem := List.mem_of_find?_eq_some hfind
    refine ⟨spot, fault, before, after, ⟨faulty_iff.2 ⟨below_of_mem_spots hmem, hfault⟩, ?_⟩, hsplit, hnone⟩
    intro spot' fault' h' hne'
    obtain ⟨q, hq, hp, hqf⟩ := hmet spot' fault' h'
    have horder := pairwise_spots ht Path.limit dir
    rw [hsplit] at hq horder
    rcases List.mem_append.1 hq with hq | hq
    · simp [hnone q hq] at hqf
    · rcases List.mem_cons.1 hq with rfl | hq
      · exact .of_front hp (Ne.symm hne')
      · exact ((List.pairwise_cons.1 (List.pairwise_append.1 horder).2.1).1 q hq).trans_front hp

end World

/-! ## What a scan comes to -/

namespace Found

variable {w : World} {conv : Component.Conventions} {fault : Fault}

theorem result_visit_of_fault (found : Found) {v : Visit} (h : v.fault? w conv.suffix = some fault) :
    ((found.visit conv v).on w).result = .error fault := by
  cases v with
  | folder path =>
    cases hl : w.list path with
    | ok names => simp [Visit.fault?, hl] at h
    | error stop =>
      obtain rfl : stop = fault := by simpa [Visit.fault?, hl] using h
      simp [visit, hl, Except.map]
  | entry path name =>
    rw [Visit.fault?] at h
    split at h
    · rename_i hs
      cases hr : w.readText path with
      | ok text => simp [hr] at h
      | error stop =>
        obtain rfl : stop = fault := by simpa [hr] using h
        rw [visit, if_pos hs, (Component.leavesDisk_read conv path).result_bind]
        simp only [Component.read, Job.on_bind, Job.on_disk, Outcome.andThen_ok, Job.on_ofExcept, hr,
          Outcome.andThen_error]
        rfl
    · cases h

theorem result_visitAll_of_fault (found : Found) {before after : List Visit} {v : Visit}
    (hb : ∀ v ∈ before, v.fault? w conv.suffix = none) (hv : v.fault? w conv.suffix = some fault) :
    ((found.visitAll conv (before ++ v :: after)).on w).result = .error fault := by
  have hdone := result_visitAll found fun v hm => Visit.readable_iff.2 (hb v hm)
  rw [visitAll, List.foldlM_append, (Job.LeavesDisk.foldlM (leavesDisk_visit conv) _ _).result_bind]
  rw [visitAll] at hdone
  rw [hdone, Fault.ok_bind, List.foldlM_cons, (leavesDisk_visit conv _ v).result_bind,
    result_visit_of_fault _ hv]
  rfl

/-- A scan fails for the first fault below its directory. -/
theorem result_scan_of_firstFault {dir : String} {spot : List String} (ht : w.root.Tidy)
    (hf : w.isFolder (w.here.absolute dir) = true)
    (h : w.FirstFault conv.suffix (w.here.absolute dir) spot fault) :
    ((Registry.scan dir conv).on w).result = .error fault := by
  have hne : w.here.absolute dir ≠ "" := Path.normalize_ne_empty _
  obtain ⟨spot', fault', before, after, h', hsplit, hbefore⟩ :=
    World.exists_firstFault ht hne ⟨spot, fault, h.faulty⟩
  obtain ⟨rfl, rfl⟩ := h.unique h'
  simp only [Registry.scan, Job.on_bind, Job.on_disk, Job.on_tell, Outcome.andThen_ok, on_walk]
  rw [World.visits_eq_map _ hf, hsplit, List.map_append, List.map_cons]
  refine result_visitAll_of_fault _ (fun v hv => ?_) (World.faulty_iff.1 h.faulty).2
  obtain ⟨s, hs, rfl⟩ := List.mem_map.1 hv
  exact hbefore s hs

/-- A scan that comes to an end has read all that there is. -/
theorem scannable_of_result_scan {dir : String} {found : Found}
    (h : ((Registry.scan dir conv).on w).result = .ok found) : w.Scannable conv dir := by
  simp only [Registry.scan, Job.on_bind, Job.on_disk, Job.on_tell, Outcome.andThen_ok, on_walk] at h
  intro v hv
  obtain ⟨before, after, hstep⟩ := Job.LeavesDisk.step_of_result_foldlM (leavesDisk_visit conv) h v hv
  rw [Visit.readable_iff, Option.eq_none_iff_forall_ne_some]
  intro fault hfault
  rw [result_visit_of_fault before hfault] at hstep
  cases hstep

/-- A directory without faults can be scanned. -/
theorem scannable_of_faultless {dir : String} (hf : w.isFolder (w.here.absolute dir) = true)
    (h : ∀ spot fault, ¬ w.Faulty conv.suffix (w.here.absolute dir) spot fault) : w.Scannable conv dir := by
  intro v hv
  rw [World.visits_eq_map _ hf] at hv
  obtain ⟨spot, hs, rfl⟩ := List.mem_map.1 hv
  rw [Visit.readable_iff, Option.eq_none_iff_forall_ne_some]
  exact fun fault hfault => h spot fault (World.faulty_iff.2 ⟨World.below_of_mem_spots hs, hfault⟩)

end Found
end ComponentUsage
