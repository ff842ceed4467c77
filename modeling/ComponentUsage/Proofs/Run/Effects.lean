import ComponentUsage.Proofs.Disk.Saving
import ComponentUsage.Proofs.Run.Course
/-!
# What a run changes

A run writes the documents that its mode asks for, and makes folders above them. A dry
run and one that fails before its conclusion change nothing, and one that fails at its
conclusion has written at most the flat document (`run_effects`).
-/

namespace ComponentUsage

/-- Where something is saved under a path. -/
def Place.spot (here : Place) (p : String) : List String := Path.names (here.absolute p)

/-- The path that a setting for a document means. -/
def Place.output (here : Place) (setting : String) : Except Fault String :=
  here.resolve setting here.workingDirectory

/-- The settings for the documents of a mode. -/
def Settings.outputs (s : Settings) : List String :=
  (if s.mode.hasGraph then [s.graphOutput] else []) ++ if s.mode.hasTree then [s.treeOutput] else []

/-- The places of the documents of a mode. -/
def Place.targets (here : Place) (s : Settings) : Set (List String) :=
  {spot | ∃ setting ∈ s.outputs, ∃ p, here.output setting = .ok p ∧ spot = here.spot p}

namespace Extraction

variable {s : Settings} {rs : Roots} {w w' : World} {config : Json} {dry : Bool}

/-! ## One document -/

/-- A disk holds a document in a file. -/
def Holds (w : World) (p : String) (doc : Json) : Prop :=
  w.look (w.here.spot p) = some (.file (doc.print .indented ++ "\n").toUTF8)

/-- A document, if there is one, is saved at the path that a setting means. -/
def SavedAt (w w' : World) (setting : String) (doc? : Option Json) (p : String) : Prop :=
  match doc? with
  | none => p = "" ∧ w' = w
  | some doc =>
    w.here.output setting = .ok p ∧ w.Touched w' {w.here.spot p} {w.here.spot p} ∧ Holds w' p doc

theorem save_cases (what setting : String) (doc? : Option Json) (w : World) :
    (∃ p, ((save what setting doc?).on w).result = .ok p ∧
      SavedAt w ((save what setting doc?).on w).world setting doc? p) ∨
    (∃ fault, ((save what setting doc?).on w).result = .error fault ∧ doc?.isSome ∧
      w.Touched ((save what setting doc?).on w).world ∅
        {spot | ∃ p, w.here.output setting = .ok p ∧ spot = w.here.spot p}) := by
  cases doc? with
  | none => exact .inl ⟨"", rfl, rfl, rfl⟩
  | some doc =>
    simp only [save, Job.on_bind, Job.on_disk, Outcome.andThen_ok, Job.on_ofExcept]
    rw [← Place.output]
    cases hp : w.here.output setting with
    | error fault => exact .inr ⟨fault, rfl, rfl, .refl _ _ _⟩
    | ok p =>
      simp only [Outcome.andThen_ok, Job.on_bind, Job.on_write]
      rcases w.save_cases p (fileText doc) with ⟨fault, hr, ht⟩ | ⟨hr, ht, hl⟩
      · simp only [hr, Outcome.andThen_error]
        exact .inr ⟨fault, rfl, rfl, ht.mono subset_rfl (Set.singleton_subset_iff.2 ⟨p, rfl, rfl⟩)⟩
      · simp only [hr, Outcome.andThen_ok, Job.on_bind, Job.on_tell, Job.on_pure]
        refine .inl ⟨p, rfl, hp, ht, ?_⟩
        rwa [Holds, ht.here, ← fileText]

/-! ## Both documents -/

/-- An analysis has the documents that the mode asks for. -/
structure Fits (a : Analysis) (s : Settings) : Prop where
  graph : a.graph.isSome = s.mode.hasGraph
  tree : a.tree.isSome = s.mode.hasTree

theorem fits_described {found : Found} (discovered : Usage.Found)
    (hr : s.mode.hasTree = true → s.rootSelector ∈ found.registry.keys) :
    Fits (described w.here s rs found discovered) s where
  graph := by
    simp only [described]
    split <;> simp_all
  tree := by
    simp only [described, grown, Option.isSome_map]
    split
    · rename_i ht
      obtain ⟨c, hc⟩ := Table.mem_keys_iff.1 (hr ht)
      simp [UsageTree.ofRoot, soil, hc, ht, Except.toOption]
    · simp_all

theorem fits_of_analyse {a : Analysis} (h : ((analyse s rs).on w).result = .ok (.ok a)) : Fits a s := by
  obtain ⟨found, discovered, -, hk, -, rfl⟩ := described_of_analyse h
  exact fits_described discovered hk

theorem graphOutput_mem (h : s.mode.hasGraph = true) : s.graphOutput ∈ s.outputs := by
  simp [Settings.outputs, h]

theorem treeOutput_mem (h : s.mode.hasTree = true) : s.treeOutput ∈ s.outputs := by
  simp [Settings.outputs, h]

theorem SavedAt.touched {setting p : String} {doc? : Option Json} (h : SavedAt w w' setting doc? p)
    (hs : doc?.isSome = true → setting ∈ s.outputs) :
    w.Touched w' (w.here.targets s) (w.here.targets s) := by
  cases doc? with
  | none => exact h.2 ▸ .refl _ _ _
  | some doc =>
    have ht : {w.here.spot p} ⊆ w.here.targets s :=
      Set.singleton_subset_iff.2 ⟨setting, hs rfl, p, h.1, rfl⟩
    exact h.2.1.mono ht ht

/-- A document stays where it is, unless a file is written in its place. -/
theorem Holds.of_touched {p : String} {doc : Json} {files targets : Set (List String)}
    (h : Holds w p doc) (ht : w.Touched w' files targets) (hp : w.here.spot p ∉ files) :
    Holds w' p doc := by
  rw [Holds, ht.here]
  rcases ht.look (w.here.spot p) with he | hf | ⟨hn, -⟩
  · exact he.trans h
  · exact absurd hf hp
  · rw [Holds, hn] at h
    cases h

/-- What saving one document, if there is one, at a path comes to. -/
def delivered (p : String) (doc? : Option Json) : List (String × String) :=
  doc?.toList.map fun doc => (p, fileText doc)

theorem saves_save (what setting : String) (doc? : Option Json) (w : World) :
    (save what setting doc?).saves w =
      match ((save what setting doc?).on w).result with
      | .ok p => delivered p doc?
      | .error _ => [] := by
  cases doc? with
  | none => rfl
  | some doc =>
    simp only [save, Job.saves_bind, Job.saves_disk, Job.on_bind, Job.on_disk, Job.saves_ofExcept, Job.on_ofExcept,
      Outcome.andThen_ok, List.nil_append]
    cases w.here.resolve setting w.here.workingDirectory with
    | error fault => rfl
    | ok p =>
      simp only [Outcome.andThen_ok, Job.on_bind, Job.on_write, Job.saves_write, Job.saves_tell, Job.saves_pure]
      cases (w.save p (fileText doc)).2 <;> rfl

/-- Of two documents the first may be saved and the second not. -/
theorem saveAll_course {a : Analysis} (hf : Fits a s) (w : World) :
    (∃ graphPath treePath w₁, ((saveAll s a).on w).result = .ok (graphPath, treePath) ∧
      SavedAt w w₁ s.graphOutput a.graph graphPath ∧
      SavedAt w₁ ((saveAll s a).on w).world s.treeOutput a.tree treePath ∧
      (saveAll s a).saves w = delivered graphPath a.graph ++ delivered treePath a.tree) ∨
    (∃ fault, ((saveAll s a).on w).result = .error fault ∧
      (((saveAll s a).saves w = [] ∧ w.Touched ((saveAll s a).on w).world ∅ (w.here.targets s)) ∨
        ∃ graphPath w₁, a.tree.isSome = true ∧ SavedAt w w₁ s.graphOutput a.graph graphPath ∧
          (saveAll s a).saves w = delivered graphPath a.graph ∧
          w₁.Touched ((saveAll s a).on w).world ∅ (w.here.targets s))) := by
  have hgraph : a.graph.isSome = true → s.graphOutput ∈ s.outputs := fun h =>
    graphOutput_mem (hf.graph ▸ h)
  have htree : a.tree.isSome = true → s.treeOutput ∈ s.outputs := fun h =>
    treeOutput_mem (hf.tree ▸ h)
  rw [saveAll, Job.on_bind, Job.saves_bind, saves_save]
  rcases save_cases "graph" s.graphOutput a.graph w with ⟨graphPath, hr, hs⟩ | ⟨fault, hr, hi, ht⟩
  · generalize (save "graph" s.graphOutput a.graph).on w = o at hr hs
    obtain ⟨records, result, w₁⟩ := o
    obtain rfl : result = .ok graphPath := hr
    have here : w₁.here = w.here := (hs.touched hgraph).here
    rw [Outcome.andThen_ok, Job.on_bind]
    dsimp only at hs ⊢
    rw [Job.saves_bind, saves_save]
    rcases save_cases "tree" s.treeOutput a.tree w₁ with ⟨treePath, hr, hs'⟩ | ⟨fault, hr, hi, ht⟩
    · generalize (save "tree" s.treeOutput a.tree).on w₁ = o at hr hs'
      obtain ⟨records, result, w₂⟩ := o
      obtain rfl : result = .ok treePath := hr
      exact .inl ⟨graphPath, treePath, w₁, rfl, hs, hs', by simp⟩
    · generalize (save "tree" s.treeOutput a.tree).on w₁ = o at hr ht
      obtain ⟨records, result, w₂⟩ := o
      obtain rfl : result = .error fault := hr
      refine .inr ⟨fault, rfl, .inr ⟨graphPath, w₁, hi, hs, by simp, ht.mono subset_rfl ?_⟩⟩
      rw [here]
      exact fun spot ⟨p, hp, he⟩ => ⟨s.treeOutput, htree hi, p, hp, he⟩
  · generalize (save "graph" s.graphOutput a.graph).on w = o at hr ht
    obtain ⟨records, result, w₁⟩ := o
    obtain rfl : result = .error fault := hr
    refine .inr ⟨fault, rfl, .inl ⟨rfl, ht.mono subset_rfl ?_⟩⟩
    exact fun spot ⟨p, hp, he⟩ => ⟨s.graphOutput, hgraph hi, p, hp, he⟩

theorem saveAll_cases {a : Analysis} (hf : Fits a s) (w : World) :
    (∃ graphPath treePath w₁, ((saveAll s a).on w).result = .ok (graphPath, treePath) ∧
      SavedAt w w₁ s.graphOutput a.graph graphPath ∧
      SavedAt w₁ ((saveAll s a).on w).world s.treeOutput a.tree treePath) ∨
    (∃ fault, ((saveAll s a).on w).result = .error fault ∧
      (w.Touched ((saveAll s a).on w).world ∅ (w.here.targets s) ∨
        ∃ graphPath w₁, a.tree.isSome = true ∧ SavedAt w w₁ s.graphOutput a.graph graphPath ∧
          w₁.Touched ((saveAll s a).on w).world ∅ (w.here.targets s))) := by
  rcases saveAll_course hf w with ⟨graphPath, treePath, w₁, hr, hg, ht, -⟩ |
    ⟨fault, hr, ⟨-, ht⟩ | ⟨graphPath, w₁, hi, hg, -, ht⟩⟩
  · exact .inl ⟨graphPath, treePath, w₁, hr, hg, ht⟩
  · exact .inr ⟨fault, hr, .inl ht⟩
  · exact .inr ⟨fault, hr, .inr ⟨graphPath, w₁, hi, hg, ht⟩⟩

/-! ## A run -/

/-- A run that fails before its conclusion neither succeeds nor fails to write. -/
theorem outcome_of_kind {r : Report}
    (h : r.errorKind ∈ ["invalid_input", "structural_read", "missing_root"]) :
    r.ok = false ∧ r.errorKind ≠ "write_failed" := by
  have hne : ∀ kind ∈ ["invalid_input", "structural_read", "missing_root"],
      kind ≠ "" ∧ kind ≠ "write_failed" := by decide
  refine ⟨?_, (hne _ h).2⟩
  cases hf : r.failure with
  | none => exact absurd (by simp [Report.errorKind, hf]) (hne _ h).1
  | some failure => simp [Report.ok, hf]

theorem errorKind_succeed (s : Settings) (rs : Roots) (a : Analysis) (graphPath treePath : String) :
    (succeed s rs a graphPath treePath).errorKind = "" := rfl

theorem errorKind_unwritten (s : Settings) (rs : Roots) (a : Analysis) (fault : Fault) :
    (unwritten s rs a fault).errorKind = "write_failed" := rfl

/-- A run that saves its documents has written them, the tree last. -/
theorem saved_effects {a : Analysis} {w₁ : World} {graphPath treePath : String} (hf : Fits a s)
    (hg : SavedAt w w₁ s.graphOutput a.graph graphPath) (ht : SavedAt w₁ w' s.treeOutput a.tree treePath) :
    w.Touched w' (w.here.targets s) (w.here.targets s) ∧
    (s.mode.hasGraph = true → w.here.output s.graphOutput = .ok graphPath ∧ ∃ doc, a.graph = some doc ∧
      (Holds w' graphPath doc ∨
        s.mode.hasTree = true ∧ w.here.spot treePath = w.here.spot graphPath)) ∧
    (s.mode.hasTree = true → w.here.output s.treeOutput = .ok treePath ∧
      ∃ doc, a.tree = some doc ∧ Holds w' treePath doc) := by
  have hw := hg.touched (s := s) fun h => graphOutput_mem (hf.graph ▸ h)
  have hw' := ht.touched (s := s) fun h => treeOutput_mem (hf.tree ▸ h)
  rw [hw.here] at hw'
  refine ⟨hw.trans hw', fun hm => ?_, fun hm => ?_⟩
  · obtain ⟨doc, hd⟩ := Option.isSome_iff_exists.1 (hf.graph.trans hm)
    rw [hd] at hg
    refine ⟨hg.1, doc, hd, ?_⟩
    cases htree : a.tree with
    | none =>
      rw [htree] at ht
      exact .inl (ht.2 ▸ hg.2.2)
    | some tree =>
      rw [htree] at ht
      by_cases hs : w.here.spot treePath = w.here.spot graphPath
      · exact .inr ⟨by rw [← hf.tree, htree]; rfl, hs⟩
      · refine .inl (hg.2.2.of_touched ht.2.1 ?_)
        rw [hw.here, Set.mem_singleton_iff]
        exact fun he => hs he.symm
  · obtain ⟨doc, hd⟩ := Option.isSome_iff_exists.1 (hf.tree.trans hm)
    rw [hd] at ht
    exact ⟨hw.here ▸ ht.1, doc, hd, ht.2.2⟩

/-- A run that cannot save a document has written at most the other one, whole. -/
theorem unsaved_effects {a : Analysis} (hf : Fits a s)
    (h : w.Touched w' ∅ (w.here.targets s) ∨
      ∃ graphPath w₁, a.tree.isSome = true ∧ SavedAt w w₁ s.graphOutput a.graph graphPath ∧
        w₁.Touched w' ∅ (w.here.targets s)) :
    w.Touched w' ∅ (w.here.targets s) ∨
      s.mode = .both ∧ ∃ graphPath doc, w.here.output s.graphOutput = .ok graphPath ∧
        a.graph = some doc ∧ w.Touched w' {w.here.spot graphPath} (w.here.targets s) ∧
        Holds w' graphPath doc := by
  rcases h with ht | ⟨graphPath, w₁, htree, hg, ht⟩
  · exact .inl ht
  · cases hd : a.graph with
    | none =>
      rw [hd] at hg
      obtain ⟨-, rfl⟩ : graphPath = "" ∧ w₁ = w := hg
      exact .inl ht
    | some doc =>
      rw [hd] at hg
      obtain ⟨hp, hw, hholds⟩ := hg
      have hgraph : s.mode.hasGraph = true := by rw [← hf.graph, hd]; rfl
      have hm : s.mode = .both := by
        have := hf.tree ▸ htree
        cases hm : s.mode <;> simp_all [Mode.hasGraph, Mode.hasTree]
      have hmem : w.here.spot graphPath ∈ w.here.targets s :=
        ⟨s.graphOutput, graphOutput_mem hgraph, graphPath, hp, rfl⟩
      refine .inr ⟨hm, graphPath, doc, hp, rfl, ?_, hholds.of_touched ht (Set.notMem_empty _)⟩
      exact (hw.mono subset_rfl (Set.singleton_subset_iff.2 hmem)).trans
        (ht.mono (Set.empty_subset _) subset_rfl)

/-- A dry run, and one that fails before it writes, leaves the disk as it is. One that
succeeds writes the documents of its mode and makes folders above them. One that cannot
write has made folders at most, or in the mode for both also the whole flat document. -/
theorem run_effects {r : Report} (h : ((run config dry).on w).result = .ok r) :
    let s := (Settings.mend config).1
    let w' := ((run config dry).on w).world
    (dry = true ∨ r.errorKind ∈ ["invalid_input", "structural_read", "missing_root"] → w' = w) ∧
    (r.ok = true → dry = false →
      w.Touched w' (w.here.targets s) (w.here.targets s) ∧
      (s.mode.hasGraph = true → w.here.output s.graphOutput = .ok r.graphPath ∧
        ∃ doc, r.graph = some doc ∧ (Holds w' r.graphPath doc ∨
          s.mode.hasTree = true ∧ w.here.spot r.treePath = w.here.spot r.graphPath)) ∧
      (s.mode.hasTree = true → w.here.output s.treeOutput = .ok r.treePath ∧
        ∃ doc, r.tree = some doc ∧ Holds w' r.treePath doc)) ∧
    (r.errorKind = "write_failed" →
      w.Touched w' ∅ (w.here.targets s) ∨
      s.mode = .both ∧ ∃ graphPath doc dryReport, w.here.output s.graphOutput = .ok graphPath ∧
        ((run config true).on w).result = .ok dryReport ∧ dryReport.graph = some doc ∧
        w.Touched w' {w.here.spot graphPath} (w.here.targets s) ∧ Holds w' graphPath doc) := by
  intro s w'
  obtain ⟨rs, analysis, hr, ha, hc⟩ := exists_conclusion h
  rcases conclude_cases hc with ⟨rfl, hw⟩ | ⟨a, rfl, rfl, rfl, hw⟩ |
    ⟨a, graphPath, treePath, rfl, rfl, hsave, rfl, hw⟩ | ⟨a, fault, rfl, rfl, hsave, rfl, hw⟩
  · obtain ⟨hok, hwf⟩ := outcome_of_kind (kind_of_analyse ha)
    exact ⟨fun _ => hw, fun h => absurd h (by simp [hok]), fun h => absurd h hwf⟩
  · refine ⟨fun _ => hw, by simp, fun hwf => ?_⟩
    rw [errorKind_succeed] at hwf
    exact absurd hwf (by decide)
  · have hf := fits_of_analyse ha
    rcases saveAll_cases hf w with ⟨graphPath', treePath', w₁, hsave', hg, ht⟩ | ⟨fault, hsave', -⟩
    · obtain ⟨rfl, rfl⟩ := Prod.mk.inj (Except.ok.inj (hsave.symm.trans hsave'))
      rw [← hw] at ht
      refine ⟨fun hk => ?_, fun _ _ => saved_effects hf hg ht, fun hwf => ?_⟩
      · rw [errorKind_succeed] at hk
        exact absurd hk (by decide)
      · rw [errorKind_succeed] at hwf
        exact absurd hwf (by decide)
    · rw [hsave] at hsave'
      cases hsave'
  · have hf := fits_of_analyse ha
    rcases saveAll_cases hf w with ⟨graphPath, treePath, w₁, hsave', -⟩ | ⟨fault', hsave', ht⟩
    · rw [hsave] at hsave'
      cases hsave'
    · rw [← hw] at ht
      refine ⟨fun hk => ?_, fun hok => ?_, fun _ => ?_⟩
      · rw [errorKind_unwritten] at hk
        exact absurd hk (by decide)
      · cases hok
      · refine (unsaved_effects hf ht).imp_right fun ⟨hm, graphPath, doc, hp, hd, hw⟩ => ?_
        exact ⟨hm, graphPath, doc, _, hp, congrArg Prod.fst (ending_run_of_analysis true hr ha), hd, hw⟩

theorem exists_report (job : Job Report) (w : World) (ok : Bool) (kind : String)
    (h : (job.on w).result.toOption.map (fun r => (r.ok, r.errorKind)) = some (ok, kind)) :
    ∃ r, (job.on w).result = .ok r ∧ r.ok = ok ∧ r.errorKind = kind := by
  obtain ⟨r, hr, he⟩ := Fault.exists_of_map_toOption h
  exact ⟨r, hr, congrArg Prod.fst he, congrArg Prod.snd he⟩

/-- A project of one component. -/
def lone : World where
  root := .folder [("app", .folder [("app.component.ts", .file "selector: 'app-root'".toUTF8)])]
  here := { workingDirectory := "/", environment := .empty }

/-- Settings for both documents, at these paths. -/
def bothAt (graphOutput treeOutput : String) : Json :=
  .object [("scan_root", .text "app"), ("mode", .text "both"), ("graph_output_path", .text graphOutput),
    ("tree_output_path", .text treeOutput)]

/-- Of two documents at one path the tree is there in the end. Where the tree's path
leads on below the flat document, that one is there. -/
theorem run_effects_lone :
    (∃ r doc, ((run (bothAt "out/doc.json" "out/doc.json") false).on lone).result = .ok r ∧
      r.tree = some doc ∧
      Holds ((run (bothAt "out/doc.json" "out/doc.json") false).on lone).world "/out/doc.json" doc) ∧
    ∃ r doc, ((run (bothAt "doc.json" "doc.json/tree.json") false).on lone).result = .ok r ∧
      r.errorKind = "write_failed" ∧
      Holds ((run (bothAt "doc.json" "doc.json/tree.json") false).on lone).world "/doc.json" doc := by
  constructor
  · obtain ⟨r, hr, hok, -⟩ :=
      exists_report (run (bothAt "out/doc.json" "out/doc.json") false) lone true "" (by decide +kernel)
    obtain ⟨-, hsaved, -⟩ := run_effects hr
    obtain ⟨hp, doc, hd, hholds⟩ := (hsaved hok rfl).2.2 (by decide +kernel)
    have hpath : lone.here.output (Settings.mend (bothAt "out/doc.json" "out/doc.json")).1.treeOutput =
        .ok "/out/doc.json" := by decide +kernel
    rw [← Except.ok.inj (hpath.symm.trans hp)] at hholds
    exact ⟨r, doc, hr, hd, hholds⟩
  · obtain ⟨r, hr, -, hk⟩ :=
      exists_report (run (bothAt "doc.json" "doc.json/tree.json") false) lone false "write_failed"
        (by decide +kernel)
    obtain ⟨-, -, hunsaved⟩ := run_effects hr
    rcases hunsaved hk with ht | ⟨-, graphPath, doc, -, hp, -, -, -, hholds⟩
    · have hlook := ht.look ["doc.json"]
      have hnew : ((run (bothAt "doc.json" "doc.json/tree.json") false).on lone).world.look ["doc.json"] ∉
          [lone.look ["doc.json"], some .folder] := by decide +kernel
      simp only [List.mem_cons, List.not_mem_nil, or_false, not_or] at hnew
      rcases hlook with he | he | ⟨-, he, -⟩
      · exact absurd he hnew.1
      · cases he
      · exact absurd he hnew.2
    · have hpath : lone.here.output (Settings.mend (bothAt "doc.json" "doc.json/tree.json")).1.graphOutput =
          .ok "/doc.json" := by decide +kernel
      rw [← Except.ok.inj (hpath.symm.trans hp)] at hholds
      exact ⟨r, doc, hr, hk, hholds⟩

end Extraction
end ComponentUsage
