import ComponentUsage.Proofs.Run.Outcome
import ComponentUsage.Proofs.Settings.Settled
/-!
# Runs that report

Whatever goes wrong on a sound disk, a run reports success or a failure of one of four kinds.
Of all texts only one with a zero character keeps it from that: in the name of a user whose home
a setting names, or in the path of a document that is to be saved (`run_reports`).
-/

namespace ComponentUsage

/-- A path that starts in the home of a user whose name holds a zero character. -/
def Path.ZeroUser (p : String) : Prop :=
  ∃ cs, p.toList = '~' :: cs ∧ Char.ofNat 0 ∈ cs.takeWhile (· ≠ '/')

/-! ## Settings that mean no path -/

theorem Place.expandHome_eq_error_iff {here : Place} {p : String} {fault : Fault} :
    here.expandHome p = .error fault ↔ fault = .zeroInPath ∧ Path.ZeroUser p := by
  unfold expandHome
  split
  · rename_i cs hp
    have hzero : Path.ZeroUser p ↔ (cs.takeWhile (· ≠ '/')).contains (Char.ofNat 0) = true := by
      simp [Path.ZeroUser, hp]
    dsimp only
    rw [hzero]
    split
    · rename_i hz
      exact ⟨fun h => ⟨(Except.error.inj h).symm, hz⟩, fun h => by rw [h.1]⟩
    · rename_i hz
      have hok : ∀ x : Except Fault String, (∃ q, x = .ok q) → x ≠ .error fault := by
        rintro x ⟨q, rfl⟩
        nofun
      refine ⟨fun h => absurd h (hok _ ?_), fun h => absurd h.2 hz⟩
      split <;> exact ⟨_, rfl⟩
  · rename_i hp
    refine ⟨nofun, ?_⟩
    rintro ⟨-, cs, hcs, -⟩
    exact absurd hcs (hp cs)

/-- A neat setting means a path, unless it names the home of a user with a zero character. -/
theorem Place.resolve_eq_error_iff {here : Place} {setting fallback : String} {fault : Fault}
    (hn : Text.Neat setting) :
    here.resolve setting fallback = .error fault ↔ fault = .zeroInPath ∧ Path.ZeroUser setting := by
  unfold resolve
  rw [hn.trim_eq]
  dsimp only
  rw [if_neg hn.ne_empty, Fault.bind_eq_error_iff, expandHome_eq_error_iff]
  simp [pure, Except.pure]

namespace Extraction

variable {s : Settings} {rs : Roots} {w : World} {config : Json} {dry : Bool}

theorem roots_eq_error_iff {fault : Fault} (hs : s.Settled) :
    ((roots s).on w).result = .error fault ↔
      fault = .zeroInPath ∧ (Path.ZeroUser s.scanRoot ∨ Path.ZeroUser s.sourceRoot) := by
  have hscan : Text.Neat s.scanRoot := hs.texts ("scan_root", s.scanRoot) (by simp [Settings.texts])
  have hsource : Text.Neat s.sourceRoot := hs.texts ("source_root", s.sourceRoot) (by simp [Settings.texts])
  rw [result_roots, Fault.bind_eq_error_iff, Place.resolve_eq_error_iff hscan]
  constructor
  · rintro (⟨hf, hz⟩ | ⟨scan, -, h⟩)
    · exact ⟨hf, .inl hz⟩
    · rcases Fault.bind_eq_error_iff.1 h with h | ⟨source, -, h⟩
      · obtain ⟨hf, hz⟩ := (Place.resolve_eq_error_iff hsource).1 h
        exact ⟨hf, .inr hz⟩
      · cases h
  · rintro ⟨hf, hz⟩
    cases hroot : w.here.resolve s.scanRoot w.here.workingDirectory with
    | error stop => exact .inl ⟨hf, ((Place.resolve_eq_error_iff hscan).1 hroot).2⟩
    | ok scan =>
      refine .inr ⟨scan, rfl, Fault.bind_eq_error_iff.2 (.inl ?_)⟩
      -- a scan root that is found is not what is wrong
      refine (Place.resolve_eq_error_iff hsource).2 ⟨hf, hz.resolve_left fun hz => ?_⟩
      rw [(Place.resolve_eq_error_iff hscan).2 ⟨rfl, hz⟩] at hroot
      cases hroot

/-! ## What a run comes to -/

/-- On a sound disk the analysis of a run that has its roots comes to an end. -/
theorem exists_analysis_of_sound (hw : w.Sound) (hr : ((roots s).on w).result = .ok rs) :
    ∃ analysis, ((analyse s rs).on w).result = .ok analysis := by
  by_cases hf : w.isFolder rs.scan = true
  · by_cases hfault : ∃ spot fault, w.Faulty s.suffix rs.scan spot fault
    · have hne : rs.scan ≠ "" := absolute_scan hw.absolute hr ▸ Path.normalize_ne_empty _
      obtain ⟨spot, fault, -, -, hfirst, -⟩ := World.exists_firstFault hw.tidy hne hfault
      exact ⟨_, result_analyse_of_fault hw hr hf hfirst⟩
    · push Not at hfault
      obtain ⟨found, discovered, hs, hd⟩ := exists_found hw hr hf hfault
      by_cases hk : s.mode.hasTree = true → s.rootSelector ∈ found.registry.keys
      · exact ⟨_, result_analyse_of_rooted hf hs hk hd⟩
      · obtain ⟨ht, hk⟩ := Classical.not_imp.1 hk
        exact ⟨_, result_analyse_of_unrooted hf hs ht hk⟩
  · rw [result_analyse, if_neg hf]
    exact ⟨_, rfl⟩

/-- A run that has an analysis reports, or meets a zero character where it saves. -/
theorem result_persist_cases {a : Analysis} (hf : Fits a s) (hw : w.Sound) :
    (∃ r, ((persist s rs a).on w).result = .ok r ∧ (r.ok = true ∨ r.errorKind = "write_failed")) ∨
      ((persist s rs a).on w).result = .error .zeroInPath ∧
        ∃ setting ∈ s.outputs, ¬ PlainOutput w.here setting := by
  cases hsave : savedAll w (documents s a.graph a.tree) with
  | ok w' =>
    obtain ⟨graphPath, treePath, hp⟩ := result_persist_of_saved rs hsave
    exact .inl ⟨_, hp, .inl rfl⟩
  | error fault =>
    have hp := result_persist_of_fault rs hsave
    rcases fault_of_savedAll hw.quiet hw.here hsave with hd | ⟨rfl, d, hd, hz⟩
    · rw [if_pos hd] at hp
      exact .inl ⟨_, hp, .inr rfl⟩
    · exact .inr ⟨hp, d.1, setting_of_mem_documents hf.graph hf.tree d hd, hz⟩

/-- The kinds of failure that runs report. -/
def kinds : List String := ["invalid_input", "structural_read", "missing_root", "write_failed"]

/-- Whatever the settings and whatever is on a sound disk, a run reports success or a failure of
one of four kinds. Among settings and names that are texts, seen from a working directory that is
there, the only exception is a zero character, in the name of a user or in the path of a document
to be saved. Where a user's name in a root holds one the run does not report. -/
theorem run_reports (config : Json) (dry : Bool) {w : World} (hw : w.Sound) :
    let s := (Settings.mend config).1
    ((∃ r, ((run config dry).on w).result = .ok r ∧ (r.ok = true ∨ r.errorKind ∈ kinds)) ∨
      ((run config dry).on w).result = .error .zeroInPath ∧
        (Path.ZeroUser s.scanRoot ∨ Path.ZeroUser s.sourceRoot ∨
          dry = false ∧ ∃ setting ∈ s.outputs, ¬ ∃ p, w.here.output setting = .ok p ∧ Path.Plain p)) ∧
    (Path.ZeroUser s.scanRoot ∨ Path.ZeroUser s.sourceRoot →
      ((run config dry).on w).result = .error .zeroInPath) := by
  intro s
  have hs : s.Settled := Settings.settled_mend config
  constructor
  · cases hr : ((roots s).on w).result with
    | error fault =>
      obtain ⟨rfl, hz⟩ := (roots_eq_error_iff hs).1 hr
      exact .inr ⟨result_run_of_rootless hr, hz.imp_right .inl⟩
    | ok rs =>
      obtain ⟨analysis, ha⟩ := exists_analysis_of_sound hw hr
      cases analysis with
      | error r =>
        have hkind : r.errorKind ∈ kinds := List.mem_append_left ["write_failed"] (kind_of_analyse ha)
        exact .inl ⟨r, result_run_of_analysis dry hr ha, .inr hkind⟩
      | ok a =>
        cases dry with
        | true => exact .inl ⟨_, result_dry_run hr ha, .inl rfl⟩
        | false =>
          have hrun := result_run_of_analysis false hr ha
          rcases @result_persist_cases s rs w a (fits_of_analyse ha) hw with ⟨r, hp, hend⟩ | ⟨hp, hz⟩
          · exact .inl ⟨r, hrun.trans hp, hend.imp_right fun hk => by simp [kinds, hk]⟩
          · exact .inr ⟨hrun.trans hp, .inr (.inr ⟨rfl, hz⟩)⟩
  · intro hz
    exact result_run_of_rootless ((roots_eq_error_iff hs).2 ⟨rfl, hz⟩)

/-- A dry run reports although a path for a document holds a zero character. -/
theorem run_reports_dry :
    lone.Sound ∧ ∃ r, ((run (bothAt "a\x00b" "tree.json") true).on lone).result = .ok r ∧
      (r.ok = true ∨ r.errorKind ∈ kinds) := by
  have hw : lone.Sound := sound_lone []
  have hroots : (Settings.mend (bothAt "a\x00b" "tree.json")).1.scanRoot = "app" ∧
      (Settings.mend (bothAt "a\x00b" "tree.json")).1.sourceRoot = "src" := by decide +kernel
  have hplain : ∀ p : String, p.toList.head? ≠ some '~' → ¬ Path.ZeroUser p := by
    rintro p hp ⟨cs, hcs, -⟩
    exact hp (by rw [hcs]; rfl)
  obtain ⟨⟨r, hr, hend⟩ | ⟨-, hz⟩, -⟩ := run_reports (bothAt "a\x00b" "tree.json") true hw
  · exact ⟨hw, r, hr, hend⟩
  · rw [hroots.1, hroots.2] at hz
    rcases hz with hz | hz | ⟨hdry, -⟩
    · exact absurd hz (hplain "app" (by decide))
    · exact absurd hz (hplain "src" (by decide))
    · cases hdry

/-- A run that is to save a document at a path with a zero character does not report. -/
theorem run_of_zero_in_output :
    lone.Sound ∧ ∀ r, ((run (bothAt "a\x00b" "tree.json") false).on lone).result ≠ .ok r := by
  refine ⟨sound_lone [], fun r hr => ?_⟩
  have hfails : ((run (bothAt "a\x00b" "tree.json") false).on lone).result.isOk = false := by decide +kernel
  rw [hr] at hfails
  cases hfails

end Extraction
end ComponentUsage
