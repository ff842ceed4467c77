import ComponentUsage.Proofs.Path.Within
import ComponentUsage.Proofs.Run.Outcome
/-!
# The source root of a run

A run goes by the source root of its settings if that holds the directory which is scanned, and
else by the directory above that one (`source_of_roots`). Which of both it is can be told from the
names of the two, and from what is shown of the one from the other (`isWithin_names`).
-/

namespace ComponentUsage.Extraction

variable {s : Settings} {rs : Roots} {w : World}

/-- The source root that a run goes by holds the directory that it scans. -/
theorem source_of_roots (ha : Path.isAbsolute w.here.workingDirectory = true)
    (hr : ((roots s).on w).result = .ok rs) : w.here.spot rs.source <+: w.here.spot rs.scan := by
  obtain ⟨slashes, ns, hs, hn, hscan, hspot⟩ := exists_scan ha hr
  rw [result_roots] at hr
  obtain ⟨scan, -, hr⟩ := Fault.bind_eq_ok_iff.1 hr
  obtain ⟨source, -, hr⟩ := Fault.bind_eq_ok_iff.1 hr
  split at hr
  · rename_i hwithin
    obtain rfl := Except.ok.inj hr
    exact ((Place.isWithin_iff ha _ _).1 hwithin).2
  · obtain rfl := Except.ok.inj hr
    dsimp only at hscan hspot ⊢
    have hn' : ∀ n ∈ ns.dropLast, Node.IsName n := fun n hm => hn n (List.dropLast_subset _ hm)
    rw [hspot, hscan, Path.directory_pathOf hs hn, Place.spot, Place.absolute_pathOf _ hs hn',
      Path.names_pathOf hs hn']
    exact List.dropLast_prefix ns

/-- Two directories are given for a run: it keeps the one for names if that holds the one to scan. -/
theorem source_eq_of_roots {source : String} (hr : ((roots s).on w).result = .ok rs)
    (hs : w.here.resolve s.sourceRoot rs.scan = .ok source) :
    rs.source = if w.here.isWithin rs.scan source then source else Path.directory rs.scan := by
  have hscan := resolve_of_roots hr
  rw [result_roots, hscan, Fault.ok_bind, hs, Fault.ok_bind] at hr
  rw [← Except.ok.inj hr]
  split <;> rfl

/-- A path lies in a directory that is not apart exactly if the directory's names come first among
its own. So each such directory lies in itself, and what lies in a directory lies in all that hold
it. What is shown without a step back in front lies in the directory, and what lies in it is shown so
if its names have no backslash, as where neither it nor the working directory has one; by that a run
decides whether it keeps its source root. In a directory that is apart lies nothing. -/
theorem isWithin_names (ha : Path.isAbsolute w.here.workingDirectory = true) :
    (∀ p dir, ¬ w.here.IsApart dir →
      (w.here.isWithin p dir = true ↔ Path.names (w.here.absolute dir) <+: Path.names (w.here.absolute p)) ∧
      (¬ w.here.ClimbsOut p dir → w.here.isWithin p dir = true) ∧
      (w.here.NoBackslash p → (w.here.isWithin p dir = true ↔ ¬ w.here.ClimbsOut p dir))) ∧
    (∀ p, '\\' ∉ p.toList → '\\' ∉ w.here.workingDirectory.toList → w.here.NoBackslash p) ∧
    (∀ p, ¬ w.here.IsApart p → w.here.isWithin p p = true) ∧
    (∀ p q r, w.here.isWithin p q = true → w.here.isWithin q r = true → w.here.isWithin p r = true) ∧
    (∀ s rs source, ((roots s).on w).result = .ok rs → w.here.resolve s.sourceRoot rs.scan = .ok source →
      ¬ w.here.IsApart source → w.here.NoBackslash rs.scan →
        rs.source = if w.here.ClimbsOut rs.scan source then Path.directory rs.scan else source) ∧
    ∀ p dir, w.here.IsApart dir → w.here.isWithin p dir = false := by
  have hshown : ∀ p dir, ¬ w.here.IsApart dir → w.here.NoBackslash p →
      (w.here.isWithin p dir = true ↔ ¬ w.here.ClimbsOut p dir) := by
    intro p dir hdir hp
    rw [Place.isWithin_iff ha, Place.climbsOut_iff ha hp, Classical.not_not, and_iff_right hdir]
  refine ⟨fun p dir hdir => ⟨?_, fun hstays => ?_, hshown p dir hdir⟩, fun p => Place.noBackslash_of_not_mem, fun p hp => ?_,
    fun p q r hpq hqr => ?_, ?_, fun p dir hdir => ?_⟩
  · rw [Place.isWithin_iff ha, and_iff_right hdir]
  · exact (Place.isWithin_iff ha p dir).2 ⟨hdir, Classical.not_not.1 fun hout =>
      hstays (Place.climbsOut_of_not_prefix ha hout)⟩
  · exact (Place.isWithin_iff ha p p).2 ⟨hp, List.prefix_rfl⟩
  · rw [Place.isWithin_iff ha] at hpq hqr ⊢
    exact ⟨hqr.1, hqr.2.trans hpq.2⟩
  · intro s rs source hr hs hdir hp
    rw [source_eq_of_roots hr hs]
    by_cases hclimbs : w.here.ClimbsOut rs.scan source
    · rw [if_pos hclimbs, if_neg fun hwithin => (hshown _ _ hdir hp).1 hwithin hclimbs]
    · rw [if_neg hclimbs, if_pos ((hshown _ _ hdir hp).2 hclimbs)]
  · rw [Bool.eq_false_iff]
    exact fun hwithin => ((Place.isWithin_iff ha p dir).1 hwithin).1 hdir

/-- An empty disk that is read from a folder. -/
def desktop (workingDirectory : String) : World where
  root := .folder []
  here := { workingDirectory, environment := .empty }

/-- A name that starts like the directory's is another one, and the root holds every path. With the
source root aside a run goes by the directory above the one that it scans. -/
theorem isWithin_names_desktop :
    (desktop "/w").here.isWithin "srcs/app" "src" = false ∧
      (desktop "/w").here.isWithin "./src//lib/../app" "../w/src/" = true ∧
      (desktop "/w").here.isWithin "../w/src/" "/.." = true ∧
      (desktop "/w").here.isWithin "./src//lib/../app" "/.." = true ∧
      ¬ (desktop "/w").here.ClimbsOut "./src//lib/../app" "../w/src/" ∧
      ((roots { sourceRoot := "lib" }).on (desktop "/w")).result = .ok ⟨"/w/src/app", "/w/src"⟩ ∧
      "/w/src" = if (desktop "/w").here.ClimbsOut "/w/src/app" "/w/lib" then Path.directory "/w/src/app"
        else "/w/lib" := by
  obtain ⟨hnames, hplain, -, htrans, hkept, -⟩ := @isWithin_names (desktop "/w") (by decide)
  have hsrc : ¬ (desktop "/w").here.IsApart "../w/src/" := by decide +kernel
  have hin : (desktop "/w").here.isWithin "./src//lib/../app" "../w/src/" = true :=
    (hnames _ _ hsrc).1.2 (by decide +kernel)
  have hroot : (desktop "/w").here.isWithin "../w/src/" "/.." = true :=
    (hnames _ _ (by decide +kernel)).1.2 (by decide +kernel)
  have hout : (desktop "/w").here.isWithin "srcs/app" "src" = false := by
    rw [Bool.eq_false_iff, ne_eq, (hnames _ _ (by decide +kernel)).1]
    decide +kernel
  have hscan : ((roots { sourceRoot := "lib" }).on (desktop "/w")).result = .ok ⟨"/w/src/app", "/w/src"⟩ := by
    decide +kernel
  have hsource := hkept _ _ "/w/lib" hscan (by decide +kernel) (by decide +kernel) (by decide +kernel)
  exact ⟨hout, hin, hroot, htrans _ _ _ hin hroot,
    ((hnames _ _ hsrc).2.2 (hplain _ (by decide) (by decide))).1 hin, hscan, hsource⟩

/-- Two slashes in front keep a directory from lying in itself. And without a backslash in a path
the working directory may have one: then what lies in a directory is shown as if it did not. -/
theorem isWithin_of_apart :
    (desktop "/w").here.isWithin "//a" "//a" = false ∧
      Path.names ((desktop "/w").here.absolute "//a") <+: Path.names ((desktop "/w").here.absolute "//a") ∧
      '\\' ∉ "a".toList ∧ (desktop "/..\\x").here.isWithin "a" "/" = true ∧
      (desktop "/..\\x").here.ClimbsOut "a" "/" := by
  decide +kernel

end ComponentUsage.Extraction
