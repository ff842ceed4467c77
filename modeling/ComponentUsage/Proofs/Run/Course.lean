import ComponentUsage.Extraction
/-!
# The course of a run

A run finds its roots, then analyses the project, and both only look at the disk. What
is left is the conclusion, which alone saves (`ending_run_of_analysis`). An analysis comes
to one of four things (`result_analyse`), and so does the conclusion (`conclude_cases`).
-/

namespace ComponentUsage

/-- What a job has come to in the end, whatever it reported on the way. -/
def Outcome.ending {α D : Type} (o : Outcome α D) : Except Fault α × D := (o.result, o.world)

namespace Job.LeavesDisk

variable {α β : Type}

theorem tellAll (rs : List Record) : (Job.tellAll rs).LeavesDisk := by
  induction rs with
  | nil => exact .done _
  | cons r rs ih => exact .report r ih

theorem attempt {job : Job α} (h : job.LeavesDisk) : job.attempt.LeavesDisk := by
  induction h with
  | done result => exact .done _
  | report r _ ih => exact .report r ih
  | look _ ih => exact .look ih

theorem map {job : Job α} (h : job.LeavesDisk) (f : α → β) : (f <$> job).LeavesDisk := by
  rw [map_eq_pure_bind]
  exact h.bind fun x => .pure (f x)

/-- A job that has looked around goes on with what it found. -/
theorem ending_bind {D : Type} [Storage D] {job : Job α} (h : job.LeavesDisk) {d : D} {x : α}
    (hx : (job.on d).result = .ok x) (f : α → Job β) :
    ((job >>= f).on d).ending = ((f x).on d).ending := by
  have hd := h.world d
  rw [on_bind]
  generalize job.on d = o at hd hx
  obtain ⟨rs, result, d'⟩ := o
  obtain rfl : d' = d := hd
  obtain rfl : result = .ok x := hx
  rfl

end Job.LeavesDisk

/-! ## What a job saves -/

namespace Job

variable {α β : Type}

/-- The texts that a job saves, each with its path, in order. -/
def saves : Job α → World → List (String × String)
  | .done _, _ => []
  | .report _ next, w => next.saves w
  | .look next, w => (next w).saves w
  | .save path text next, w =>
    let saved := w.save path text
    (if saved.2.isOk then [(path, text)] else []) ++ (next saved.2).saves saved.1

@[simp] theorem saves_pure (x : α) (w : World) : (Pure.pure x : Job α).saves w = [] := rfl

@[simp] theorem saves_ofExcept (result : Except Fault α) (w : World) : (ofExcept result).saves w = [] := rfl

@[simp] theorem saves_disk (w : World) : disk.saves w = [] := rfl

@[simp] theorem saves_tell (level : Level) (source message : String) (w : World) :
    (tell level source message).saves w = [] := rfl

@[simp] theorem saves_write (path text : String) (w : World) :
    (write path text).saves w = if (w.save path text).2.isOk then [(path, text)] else [] := by
  simp only [write, saves, List.append_nil]

@[simp] theorem saves_bind (job : Job α) (f : α → Job β) (w : World) :
    (job >>= f).saves w = job.saves w ++
      match (job.on w).result with
      | .ok x => (f x).saves (job.on w).world
      | .error _ => [] := by
  change (job.bind f).saves w = _
  induction job generalizing w with
  | done result => cases result <;> rfl
  | report r next ih => exact ih w
  | look next ih => exact ih w w
  | save path text next ih =>
    simp only [bind, saves, on, ih, List.append_assoc, World.storage_save]

@[simp] theorem saves_attempt (job : Job α) (w : World) : job.attempt.saves w = job.saves w := by
  induction job generalizing w with
  | done result => rfl
  | report r next ih => exact ih w
  | look next ih => exact ih w w
  | save path text next ih => simp only [attempt, saves, ih]

theorem LeavesDisk.saves_eq_nil {job : Job α} (h : job.LeavesDisk) (w : World) : job.saves w = [] := by
  induction h with
  | done result => rfl
  | report r _ ih => exact ih
  | look _ ih => exact ih w

/-- After a job that has looked around, what is saved is what the next one saves. -/
theorem LeavesDisk.saves_bind {job : Job α} (h : job.LeavesDisk) {w : World} {x : α}
    (hx : (job.on w).result = .ok x) (f : α → Job β) : (job >>= f).saves w = (f x).saves w := by
  rw [Job.saves_bind, h.saves_eq_nil, hx, h.world, List.nil_append]

end Job

theorem Registry.leavesDisk_scan (dir : String) (conv : Component.Conventions) :
    (Registry.scan dir conv).LeavesDisk :=
  .bind .disk fun _ => .bind (.tell _ _ _) fun _ => Found.leavesDisk_walk _ _ _ _

theorem Usage.leavesDisk_visit (found : Usage.Found) (selector : String) (c : Component) :
    (Usage.visit found selector c).LeavesDisk := by
  unfold visit
  split
  · exact .pure _
  · split
    · exact .pure _
    · refine .bind .disk fun w => ?_
      split
      · exact .pure _
      · split
        · exact .bind (.tell _ _ _) fun _ => .pure _
        · exact .ofExcept _

theorem Usage.leavesDisk_discover (registry : Registry) : (Usage.discover registry).LeavesDisk :=
  .bind (.foldlM (fun _ _ => Usage.leavesDisk_visit _ _ _) _ _) fun _ =>
    .bind (.tell _ _ _) fun _ => .pure _

namespace Extraction

variable {s : Settings} {rs : Roots} {found : Found} {w : World} {config : Json} {dry : Bool}

/-! ## What only looks -/

theorem leavesDisk_roots (s : Settings) : (roots s).LeavesDisk := by
  refine .bind .disk fun w => .bind (.ofExcept _) fun scan => .bind (.ofExcept _) fun source => ?_
  split
  · exact .pure _
  · exact .bind (.tell _ _ _) fun _ => .pure _

theorem leavesDisk_fail (level : Level) (r : Report) : (fail level r).LeavesDisk :=
  .bind (.tell _ _ _) fun _ => .pure _

theorem leavesDisk_describe (s : Settings) (rs : Roots) (found : Found) (hroot : Rooted s found.registry) :
    (describe s rs found hroot).LeavesDisk :=
  .bind .disk fun _ => .bind (Usage.leavesDisk_discover _) fun _ =>
    .bind (.tellAll _) fun _ => .pure _

theorem leavesDisk_describeRooted (s : Settings) (rs : Roots) (found : Found) :
    (describeRooted s rs found).LeavesDisk := by
  unfold describeRooted
  split
  · exact leavesDisk_fail _ _
  · exact (leavesDisk_describe s rs found _).map _

theorem leavesDisk_analyse (s : Settings) (rs : Roots) : (analyse s rs).LeavesDisk := by
  refine .bind .disk fun w => ?_
  split
  · exact leavesDisk_fail _ _
  · refine .bind (Registry.leavesDisk_scan _ _).attempt fun scanned => ?_
    cases scanned with
    | ok found => exact .bind (.tell _ _ _) fun _ => leavesDisk_describeRooted _ _ _
    | error fault =>
      dsimp only
      split
      · exact leavesDisk_fail _ _
      · exact .ofExcept _

/-! ## What an analysis comes to -/

/-- How a run with these settings finds and shows components. -/
def conventions (s : Settings) (rs : Roots) : Component.Conventions where
  sourceRoot := rs.source
  suffix := s.suffix
  extensions := s.extensions
  field := s.field
  separator := s.separator

theorem conventions_eq (s : Settings) (rs : Roots) :
    conventions s rs = ⟨rs.source, s.suffix, s.extensions, s.field, s.separator⟩ := rfl

/-- What the tree of a run grows from. -/
def soil (here : Place) (s : Settings) (rs : Roots) (registry : Registry) (usage : Usage) :
    UsageTree.Soil where
  registry
  usage
  shown := (here.displayTemplate · rs.source s.separator)

/-- The tree of a run and its cycles, if its mode has one. -/
def grown (here : Place) (s : Settings) (rs : Roots) (registry : Registry) (usage : Usage) :
    Option (UsageTree × List (List String)) :=
  if s.mode.hasTree then (UsageTree.ofRoot (soil here s rs registry usage) s.rootSelector).toOption
  else none

/-- The analysis of what a scan and then a discovery have found. -/
def described (here : Place) (s : Settings) (rs : Roots) (found : Found) (discovered : Usage.Found) :
    Analysis :=
  let tree := grown here s rs found.registry discovered.usage
  let cycles := (tree.map (·.2)).getD []
  { registry := found.registry
    usage := discovered.usage
    graph := if s.mode.hasGraph then some (found.registry.graph discovered.usage).toJson else none
    tree := tree.map (·.1.toJson)
    cycles
    warnings := found.warnings ++ discovered.warnings ++ cycles.map UsageTree.cycleMessage }

/-- The report of a run whose tree has no component at its root. -/
def unrooted (s : Settings) (rs : Roots) (found : Found) : Report :=
  let missing : UsageTree.MissingRoot := ⟨s.rootSelector, UsageTree.available found.registry⟩
  { failure := some ⟨.missingRoot, missing.message⟩, mode := s.mode.name, scanRoot := rs.scan,
    count := found.registry.size, warnings := found.warnings, available := missing.available }

/-- A tree that has its root is grown. -/
theorem grown_of_rooted {here : Place} {registry : Registry} (hroot : Rooted s registry) (usage : Usage) :
    grown here s rs registry usage =
      if ht : s.mode.hasTree = true then
        some (UsageTree.rooted (soil here s rs registry usage) s.rootSelector (hroot ht))
      else none := by
  unfold grown
  by_cases ht : s.mode.hasTree = true
  · rw [if_pos ht, dif_pos ht,
      @UsageTree.ofRoot_of_contains (soil here s rs registry usage) _ (hroot ht)]
    rfl
  · rw [if_neg ht, dif_neg ht]

theorem result_describe (s : Settings) (rs : Roots) (found : Found) (hroot : Rooted s found.registry) (w : World) :
    ((describe s rs found hroot).on w).result =
      ((Usage.discover found.registry).on w).result.map (described w.here s rs found) := by
  rw [describe, Job.LeavesDisk.disk.result_bind, Job.on_disk]
  dsimp only
  rw [Fault.ok_bind, (Usage.leavesDisk_discover _).result_bind]
  cases ((Usage.discover found.registry).on w).result with
  | error fault => rfl
  | ok discovered =>
    rw [Fault.ok_bind, (Job.LeavesDisk.tellAll _).result_bind, Job.on_tellAll]
    simp only [Except.map, described, grown_of_rooted hroot]
    rfl

/-- An analysis fails if there is no folder, if the scan does, or if the tree has no
root; else it tells what the scan and the discovery have found. -/
theorem result_analyse (s : Settings) (rs : Roots) (w : World) :
    ((analyse s rs).on w).result =
      if w.isFolder rs.scan then
        match ((Registry.scan rs.scan (conventions s rs)).on w).result with
        | .ok found =>
          if s.mode.hasTree && !found.registry.contains s.rootSelector then
            .ok (.error (unrooted s rs found))
          else
            ((Usage.discover found.registry).on w).result.map (.ok ∘ described w.here s rs found)
        | .error fault =>
          if fault.isDisk then
            .ok (.error (.failed ⟨.structuralRead, s!"Failed to scan project tree: {fault.message}"⟩
              s.mode.name rs.scan))
          else .error fault
      else
        .ok (.error (.failed ⟨.invalidInput, s!"Invalid scan directory: {rs.scan}"⟩ s.mode.name rs.scan)) := by
  rw [analyse, Job.LeavesDisk.disk.result_bind, Job.on_disk]
  dsimp only
  rw [Fault.ok_bind]
  by_cases hf : w.isFolder rs.scan = true
  · simp only [hf, Bool.not_true, Bool.false_eq_true, if_false, if_true]
    rw [(Registry.leavesDisk_scan _ _).attempt.result_bind, Job.on_attempt]
    dsimp only
    rw [Fault.ok_bind]
    rw [← conventions_eq]
    cases ((Registry.scan rs.scan (conventions s rs)).on w).result with
    | ok found =>
      dsimp only
      rw [(Job.LeavesDisk.tell _ _ _).result_bind, Job.on_tell]
      dsimp only
      rw [Fault.ok_bind, describeRooted]
      split
      · rfl
      · rw [Job.on_map, result_describe]
        cases ((Usage.discover found.registry).on w).result <;> rfl
    | error fault =>
      dsimp only
      split <;> rfl
  · simp only [hf, Bool.not_false, Bool.false_eq_true, if_false, if_true]
    rfl

/-- An analysis that comes to an end, in four cases. -/
theorem analyse_cases {analysis : Except Report Analysis}
    (h : ((analyse s rs).on w).result = .ok analysis) :
    -- there is no folder to scan
    (w.isFolder rs.scan = false ∧ analysis =
      .error (.failed ⟨.invalidInput, s!"Invalid scan directory: {rs.scan}"⟩ s.mode.name rs.scan)) ∨
    -- the disk refuses something to the scan
    (w.isFolder rs.scan = true ∧
      ∃ fault, ((Registry.scan rs.scan (conventions s rs)).on w).result = .error fault ∧ analysis =
        .error (.failed ⟨.structuralRead, s!"Failed to scan project tree: {fault.message}"⟩
          s.mode.name rs.scan)) ∨
    -- the tree has no component at its root
    (w.isFolder rs.scan = true ∧
      ∃ found, ((Registry.scan rs.scan (conventions s rs)).on w).result = .ok found ∧
        s.mode.hasTree = true ∧ s.rootSelector ∉ found.registry.keys ∧
        analysis = .error (unrooted s rs found)) ∨
    -- there is something to tell
    (w.isFolder rs.scan = true ∧
      ∃ found discovered, ((Registry.scan rs.scan (conventions s rs)).on w).result = .ok found ∧
        (s.mode.hasTree = true → s.rootSelector ∈ found.registry.keys) ∧
        ((Usage.discover found.registry).on w).result = .ok discovered ∧
        analysis = .ok (described w.here s rs found discovered)) := by
  rw [result_analyse] at h
  split at h
  · rename_i hf
    cases hs : ((Registry.scan rs.scan (conventions s rs)).on w).result with
    | error fault =>
      rw [hs] at h
      dsimp only at h
      split at h
      · cases h
        exact .inr (.inl ⟨hf, fault, rfl, rfl⟩)
      · cases h
    | ok found =>
      rw [hs] at h
      dsimp only at h
      split at h
      · rename_i hr
        rw [Bool.and_eq_true, Bool.not_eq_true', ← Bool.not_eq_true, Table.contains_iff] at hr
        cases h
        exact .inr (.inr (.inl ⟨hf, found, rfl, hr.1, hr.2, rfl⟩))
      · rename_i hr
        rw [Bool.and_eq_true, Bool.not_eq_true', ← Bool.not_eq_true, Table.contains_iff, not_and,
          Classical.not_not] at hr
        cases hd : ((Usage.discover found.registry).on w).result with
        | error fault =>
          rw [hd] at h
          cases h
        | ok discovered =>
          rw [hd] at h
          cases h
          exact .inr (.inr (.inr ⟨hf, found, discovered, rfl, hr, hd, rfl⟩))
  · rename_i hf
    cases h
    exact .inl ⟨by simpa using hf, rfl⟩

theorem described_of_analyse {a : Analysis} (h : ((analyse s rs).on w).result = .ok (.ok a)) :
    ∃ found discovered, ((Registry.scan rs.scan (conventions s rs)).on w).result = .ok found ∧
      (s.mode.hasTree = true → s.rootSelector ∈ found.registry.keys) ∧
      ((Usage.discover found.registry).on w).result = .ok discovered ∧
      a = described w.here s rs found discovered := by
  rcases analyse_cases h with ⟨-, he⟩ | ⟨-, fault, -, he⟩ | ⟨-, found, -, -, -, he⟩ |
    ⟨-, found, discovered, hs, hk, hd, he⟩ <;> cases he
  exact ⟨found, discovered, hs, hk, hd, rfl⟩

theorem kind_of_analyse {r : Report} (h : ((analyse s rs).on w).result = .ok (.error r)) :
    r.errorKind ∈ ["invalid_input", "structural_read", "missing_root"] := by
  rcases analyse_cases h with ⟨-, he⟩ | ⟨-, fault, -, he⟩ | ⟨-, found, -, -, -, he⟩ | ⟨-, _, _, -, -, -, he⟩ <;>
    cases he <;> simp [Report.errorKind, Report.failed, unrooted, FailureKind.word]

/-! ## What a run comes to -/

/-- The report of a run that could not write its documents. -/
def unwritten (s : Settings) (rs : Roots) (a : Analysis) (fault : Fault) : Report :=
  { failure := some ⟨.writeFailed, s!"Failed to write output artifact: {fault.message}"⟩,
    mode := s.mode.name, scanRoot := rs.scan, count := a.registry.size, warnings := a.warnings }

theorem ending_persist {D : Type} [Storage D] (s : Settings) (rs : Roots) (a : Analysis) (d : D) :
    ((persist s rs a).on d).ending =
      (match ((saveAll s a).on d).result with
        | .ok (graphPath, treePath) => .ok (succeed s rs a graphPath treePath)
        | .error fault => if fault.isDisk then .ok (unwritten s rs a fault) else .error fault,
        ((saveAll s a).on d).world) := by
  rw [persist, Job.on_bind, Job.on_attempt]
  obtain ⟨records, fault | ⟨graphPath, treePath⟩, d'⟩ := (saveAll s a).on d
  · rw [Outcome.andThen_ok]
    dsimp only
    split <;> rfl
  · rfl

theorem ending_run {D : Type} [Storage D] (config : Json) (dry : Bool) (d : D) :
    ((run config dry).on d).ending = ((do
      let rs ← roots (Settings.mend config).1
      let analysis ← analyse (Settings.mend config).1 rs
      conclude (Settings.mend config).1 dry rs analysis).on d).ending := by
  rw [run, (Job.LeavesDisk.tell _ _ _).ending_bind rfl,
    (Job.LeavesDisk.tellAll _).ending_bind (by rw [Job.on_tellAll]),
    (Job.LeavesDisk.tellAll _).ending_bind (by rw [Job.on_tellAll])]

/-- A run that has its roots and its analysis goes on to the conclusion. -/
theorem ending_run_of_analysis {D : Type} [Storage D] {d : D} (dry : Bool) {analysis : Except Report Analysis}
    (hr : ((roots (Settings.mend config).1).on d).result = .ok rs)
    (ha : ((analyse (Settings.mend config).1 rs).on d).result = .ok analysis) :
    ((run config dry).on d).ending = ((conclude (Settings.mend config).1 dry rs analysis).on d).ending := by
  rw [ending_run, (leavesDisk_roots _).ending_bind hr, (leavesDisk_analyse _ _).ending_bind ha]

theorem saves_run_of_analysis (dry : Bool) {analysis : Except Report Analysis}
    (hr : ((roots (Settings.mend config).1).on w).result = .ok rs)
    (ha : ((analyse (Settings.mend config).1 rs).on w).result = .ok analysis) :
    (run config dry).saves w = (conclude (Settings.mend config).1 dry rs analysis).saves w := by
  rw [run, (Job.LeavesDisk.tell _ _ _).saves_bind rfl,
    (Job.LeavesDisk.tellAll _).saves_bind (by rw [Job.on_tellAll]),
    (Job.LeavesDisk.tellAll _).saves_bind (by rw [Job.on_tellAll]),
    (leavesDisk_roots _).saves_bind hr, (leavesDisk_analyse _ _).saves_bind ha]

/-- A run that reports has its roots and its analysis. -/
theorem exists_analysis {D : Type} [Storage D] {d : D} {r : Report} (h : ((run config dry).on d).result = .ok r) :
    ∃ rs analysis, ((roots (Settings.mend config).1).on d).result = .ok rs ∧
      ((analyse (Settings.mend config).1 rs).on d).result = .ok analysis := by
  have he := congrArg Prod.fst (ending_run config dry d)
  dsimp only [Outcome.ending] at he
  rw [h, (leavesDisk_roots _).result_bind] at he
  obtain ⟨rs, hr, he⟩ := Fault.bind_eq_ok_iff.1 he.symm
  rw [(leavesDisk_analyse _ _).result_bind] at he
  obtain ⟨analysis, ha, -⟩ := Fault.bind_eq_ok_iff.1 he
  exact ⟨rs, analysis, hr, ha⟩

/-- A run that reports has come to a conclusion of its analysis. -/
theorem exists_conclusion {D : Type} [Storage D] {d : D} {r : Report} (h : ((run config dry).on d).result = .ok r) :
    ∃ rs analysis, ((roots (Settings.mend config).1).on d).result = .ok rs ∧
      ((analyse (Settings.mend config).1 rs).on d).result = .ok analysis ∧
      ((conclude (Settings.mend config).1 dry rs analysis).on d).ending =
        (.ok r, ((run config dry).on d).world) := by
  obtain ⟨rs, analysis, hr, ha⟩ := exists_analysis h
  refine ⟨rs, analysis, hr, ha, ?_⟩
  rw [← ending_run_of_analysis dry hr ha, Outcome.ending, h]

/-- A conclusion that reports, in four cases. -/
theorem conclude_cases {analysis : Except Report Analysis} {r : Report} {w' : World}
    (h : ((conclude s dry rs analysis).on w).ending = (.ok r, w')) :
    -- the analysis has failed
    (analysis = .error r ∧ w' = w) ∨
    -- nothing is to be saved
    (∃ a, analysis = .ok a ∧ dry = true ∧ r = succeed s rs a "" "" ∧ w' = w) ∨
    -- the documents are saved
    (∃ a graphPath treePath, analysis = .ok a ∧ dry = false ∧
      ((saveAll s a).on w).result = .ok (graphPath, treePath) ∧
      r = succeed s rs a graphPath treePath ∧ w' = ((saveAll s a).on w).world) ∨
    -- the disk refuses to save one
    (∃ a fault, analysis = .ok a ∧ dry = false ∧ ((saveAll s a).on w).result = .error fault ∧
      r = unwritten s rs a fault ∧ w' = ((saveAll s a).on w).world) := by
  cases analysis with
  | error r' =>
    cases h
    exact .inl ⟨rfl, rfl⟩
  | ok a =>
    cases dry with
    | true =>
      cases h
      exact .inr (.inl ⟨a, rfl, rfl, rfl, rfl⟩)
    | false =>
      obtain ⟨hr, hw⟩ := Prod.mk.inj ((ending_persist s rs a w).symm.trans h)
      cases hsave : ((saveAll s a).on w).result with
      | ok paths =>
        rw [hsave] at hr
        cases hr
        exact .inr (.inr (.inl ⟨a, paths.1, paths.2, rfl, rfl, hsave, rfl, hw.symm⟩))
      | error fault =>
        rw [hsave] at hr
        dsimp only at hr
        split at hr
        · cases hr
          exact .inr (.inr (.inr ⟨a, fault, rfl, rfl, hsave, rfl, hw.symm⟩))
        · cases hr

end Extraction
end ComponentUsage
