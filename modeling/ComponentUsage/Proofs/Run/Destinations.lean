import ComponentUsage.Proofs.Run.Outcome
/-!
# Where a report says its documents are

A report names the paths at which its run has saved documents. It names each of them,
except where of two documents the second one cannot be saved: then the first one is there
and no path is named (`run_destinations`, `saved_and_not_named`).
-/

namespace ComponentUsage

namespace Extraction

variable {s : Settings} {rs : Roots} {w w' : World} {config : Json} {dry : Bool}

/-- A document of a report, if the report names a path for it. -/
def named (p : String) (doc? : Option Json) : List (String × String) :=
  if p = "" then [] else delivered p doc?

/-- What a report says that its run has saved. -/
def told (r : Report) : List (String × String) := named r.graphPath r.graph ++ named r.treePath r.tree

/-! ## The paths of a report -/

theorem output_ne_empty {here : Place} {setting p : String} (h : here.output setting = .ok p) : p ≠ "" := by
  obtain ⟨q, rfl⟩ := resolve_eq_ok h
  exact Path.normalize_ne_empty _

/-- A document that is saved is saved at a path, and one that is not there at none. -/
theorem SavedAt.ne_empty_iff {setting p : String} {doc? : Option Json} (h : SavedAt w w' setting doc? p) :
    p ≠ "" ↔ doc?.isSome = true := by
  cases doc? with
  | none => simp [h.1]
  | some doc => simp [output_ne_empty h.1]

theorem SavedAt.named_eq {setting p : String} {doc? : Option Json} (h : SavedAt w w' setting doc? p) :
    named p doc? = delivered p doc? := by
  cases doc? with
  | none => exact if_pos h.1
  | some doc => exact if_neg (output_ne_empty h.1)

theorem told_of_no_paths {r : Report} (hg : r.graphPath = "") (ht : r.treePath = "") : told r = [] := by
  rw [told, named, named, if_pos hg, if_pos ht, List.append_nil]

theorem mode_of_fits {a : Analysis} (hf : Fits a s) (hg : a.graph.isSome = true) (ht : a.tree.isSome = true) :
    s.mode = .both := by
  rw [hf.graph] at hg
  rw [hf.tree] at ht
  cases hm : s.mode <;> simp_all [Mode.hasGraph, Mode.hasTree]

theorem paths_of_analyse {r : Report} (h : ((analyse s rs).on w).result = .ok (.error r)) :
    r.graphPath = "" ∧ r.treePath = "" := by
  rcases analyse_cases h with ⟨-, he⟩ | ⟨-, fault, -, he⟩ | ⟨-, found, -, -, -, he⟩ | ⟨-, _, _, -, -, -, he⟩ <;>
    cases he <;> exact ⟨rfl, rfl⟩

/-- A run that succeeds names the paths of the documents of its mode, and any other run names
none. At a path that is named stands the document, unless both stand at one place: there it is
the tree. -/
structure NamesPaths (r : Report) (s : Settings) (dry : Bool) (w w' : World) : Prop where
  graph_iff : r.graphPath ≠ "" ↔ r.ok = true ∧ dry = false ∧ s.mode.hasGraph = true
  tree_iff : r.treePath ≠ "" ↔ r.ok = true ∧ dry = false ∧ s.mode.hasTree = true
  graph : r.graphPath ≠ "" → ∃ doc, r.graph = some doc ∧
    (Holds w' r.graphPath doc ∨ r.treePath ≠ "" ∧ w.here.spot r.treePath = w.here.spot r.graphPath)
  tree : r.treePath ≠ "" → ∃ doc, r.tree = some doc ∧ Holds w' r.treePath doc

theorem NamesPaths.of_none {r : Report} (hg : r.graphPath = "") (ht : r.treePath = "")
    (hd : r.ok = true → dry = true) : NamesPaths r s dry w w' := by
  have hnone : ∀ {mode : Prop}, ¬ (r.ok = true ∧ dry = false ∧ mode) := fun ⟨hok, hdry, _⟩ => by
    rw [hd hok] at hdry
    cases hdry
  exact ⟨⟨fun h => absurd hg h, fun h => absurd h hnone⟩, ⟨fun h => absurd ht h, fun h => absurd h hnone⟩,
    fun h => absurd hg h, fun h => absurd ht h⟩

theorem NamesPaths.of_saved {a : Analysis} {w₁ : World} {graphPath treePath : String} (hf : Fits a s)
    (hg : SavedAt w w₁ s.graphOutput a.graph graphPath) (ht : SavedAt w₁ w' s.treeOutput a.tree treePath) :
    NamesPaths (succeed s rs a graphPath treePath) s false w w' := by
  have hgraph := hg.ne_empty_iff.trans (Bool.eq_iff_iff.1 hf.graph)
  have htree := ht.ne_empty_iff.trans (Bool.eq_iff_iff.1 hf.tree)
  obtain ⟨-, hgraphs, htrees⟩ := saved_effects hf hg ht
  refine ⟨⟨fun h => ⟨rfl, rfl, hgraph.1 h⟩, fun h => hgraph.2 h.2.2⟩,
    ⟨fun h => ⟨rfl, rfl, htree.1 h⟩, fun h => htree.2 h.2.2⟩, fun h => ?_, fun h => (htrees (htree.1 h)).2⟩
  obtain ⟨-, doc, hdoc, hholds⟩ := hgraphs (hgraph.1 h)
  exact ⟨doc, hdoc, hholds.imp_right fun ⟨hm, hs⟩ => ⟨htree.2 hm, hs⟩⟩

/-! ## What a run saves -/

theorem saves_persist (s : Settings) (rs : Roots) (a : Analysis) (w : World) :
    (persist s rs a).saves w = (saveAll s a).saves w := by
  rw [persist, Job.saves_bind, Job.saves_attempt, Job.on_attempt]
  dsimp only
  cases ((saveAll s a).on w).result with
  | ok paths => exact List.append_nil _
  | error fault =>
    dsimp only
    split <;> exact List.append_nil _

/-- What a report says that its run has saved is what the run has saved, with one exception: in
the mode for both documents the tree may fail to be saved after the flat document, and then
that one is there though the report names no path. -/
theorem run_destinations {r : Report} (h : ((run config dry).on w).result = .ok r) :
    let s := (Settings.mend config).1
    let w' := ((run config dry).on w).world
    ((run config dry).saves w = told r ∨
      r.errorKind = "write_failed" ∧ s.mode = .both ∧ told r = [] ∧
        ∃ p doc preview, w.here.output s.graphOutput = .ok p ∧
          ((run config true).on w).result = .ok preview ∧ preview.graph = some doc ∧
          (run config dry).saves w = [(p, fileText doc)] ∧ Holds w' p doc) ∧
    NamesPaths r s dry w w' := by
  intro s w'
  obtain ⟨rs, analysis, hr, ha, hc⟩ := exists_conclusion h
  have hsaves := saves_run_of_analysis dry hr ha
  rcases conclude_cases hc with ⟨rfl, -⟩ | ⟨a, rfl, rfl, rfl, -⟩ |
    ⟨a, graphPath, treePath, rfl, rfl, hsave, rfl, hw⟩ | ⟨a, fault, rfl, rfl, hsave, rfl, hw⟩
  · obtain ⟨hg, ht⟩ := paths_of_analyse ha
    refine ⟨.inl (hsaves.trans (told_of_no_paths hg ht).symm), .of_none hg ht fun hok => ?_⟩
    rw [(outcome_of_kind (kind_of_analyse ha)).1] at hok
    cases hok
  · exact ⟨.inl (hsaves.trans rfl), .of_none rfl rfl fun _ => rfl⟩
  · have hf := fits_of_analyse ha
    rw [conclude, if_neg (by decide), saves_persist] at hsaves
    rcases saveAll_course hf w with ⟨graphPath', treePath', w₁, hsave', hg, ht, hsaved⟩ | ⟨fault, hsave', -⟩
    · obtain ⟨rfl, rfl⟩ := Prod.mk.inj (Except.ok.inj (hsave.symm.trans hsave'))
      rw [← hw] at ht
      rw [← hg.named_eq, ← ht.named_eq] at hsaved
      exact ⟨.inl (hsaves.trans hsaved), .of_saved hf hg ht⟩
    · rw [hsave] at hsave'
      cases hsave'
  · have hf := fits_of_analyse ha
    rw [conclude, if_neg (by decide), saves_persist] at hsaves
    refine ⟨?_, .of_none rfl rfl nofun⟩
    rcases saveAll_course hf w with ⟨graphPath, treePath, w₁, hsave', -⟩ |
      ⟨fault', hsave', ⟨hsaved, -⟩ | ⟨graphPath, w₁, htree, hg, hsaved, ht⟩⟩
    · rw [hsave] at hsave'
      cases hsave'
    · exact .inl (hsaves.trans hsaved)
    · cases hdoc : a.graph with
      | none =>
        rw [hdoc] at hsaved
        exact .inl (hsaves.trans hsaved)
      -- the flat document is saved, and stays when the tree is not
      | some doc =>
        have hm := mode_of_fits hf (by rw [hdoc]; rfl) htree
        rw [hdoc] at hg hsaved
        obtain ⟨hp, -, hholds⟩ := hg
        rw [← hw] at ht
        exact .inr ⟨rfl, hm, rfl, graphPath, doc, _, hp, congrArg Prod.fst (ending_run_of_analysis true hr ha),
          hdoc, hsaves.trans hsaved, hholds.of_touched ht (Set.notMem_empty _)⟩

/-- Two documents at two paths are both there, and both are named. -/
theorem run_destinations_lone :
    ∃ r doc tree, ((run (bothAt "doc.json" "tree.json") false).on lone).result = .ok r ∧
      r.graphPath = "/doc.json" ∧ r.treePath = "/tree.json" ∧
      (run (bothAt "doc.json" "tree.json") false).saves lone =
        [("/doc.json", fileText doc), ("/tree.json", fileText tree)] ∧
      Holds ((run (bothAt "doc.json" "tree.json") false).on lone).world "/doc.json" doc ∧
      Holds ((run (bothAt "doc.json" "tree.json") false).on lone).world "/tree.json" tree := by
  obtain ⟨r, hr, hparts⟩ := Fault.exists_of_map_toOption
    (f := fun r : Report => (r.errorKind, r.graphPath, r.treePath)) (b := ("", "/doc.json", "/tree.json"))
    (show ((run (bothAt "doc.json" "tree.json") false).on lone).result.toOption.map _ = _ by decide +kernel)
  simp only [Prod.mk.injEq] at hparts
  obtain ⟨hkind, hg, ht⟩ := hparts
  obtain ⟨hsaves, hnames⟩ := run_destinations hr
  obtain ⟨doc, hdoc, hholds⟩ := hnames.graph (hg ▸ by decide)
  obtain ⟨tree, htree, htholds⟩ := hnames.tree (ht ▸ by decide)
  rcases hsaves with hsaves | ⟨hfailed, -⟩
  · rw [told, hg, ht, hdoc, htree] at hsaves
    rw [hg, ht] at hholds
    rw [ht] at htholds
    refine ⟨r, doc, tree, hr, hg, ht, hsaves, hholds.resolve_right fun ⟨_, hs⟩ => ?_, htholds⟩
    exact absurd hs (by decide +kernel)
  · rw [hkind] at hfailed
    exact absurd hfailed (by decide)

instance (w : World) (p : String) (doc : Json) : Decidable (Holds w p doc) :=
  inferInstanceAs (Decidable (w.look (w.here.spot p) = _))

/-- Where the tree's path leads on below the flat document, the run saves the flat document and
names no path. Where both paths are one, the report names it for the flat document, which is
not there in the end. -/
theorem saved_and_not_named :
    (∃ r text, ((run (bothAt "doc.json" "doc.json/tree.json") false).on lone).result = .ok r ∧
      r.graphPath = "" ∧
      (run (bothAt "doc.json" "doc.json/tree.json") false).saves lone = [("/doc.json", text)] ∧
      ((run (bothAt "doc.json" "doc.json/tree.json") false).on lone).world.look ["doc.json"] =
        some (.file text.toUTF8)) ∧
    ∃ r doc, ((run (bothAt "doc.json" "doc.json") false).on lone).result = .ok r ∧
      r.graphPath = "/doc.json" ∧ r.graph = some doc ∧
      ¬ Holds ((run (bothAt "doc.json" "doc.json") false).on lone).world "/doc.json" doc := by
  constructor
  · obtain ⟨r, hr, hg⟩ := Fault.exists_of_map_toOption (f := Report.graphPath) (b := "")
      (show ((run (bothAt "doc.json" "doc.json/tree.json") false).on lone).result.toOption.map _ = _ by
        decide +kernel)
    exact ⟨r, "\x7b\n  \"app-root\": \x7b\n    \"name\": \"app\\\\app\",\n    \"parents\": []\n  \x7d\n\x7d\n", hr, hg,
      by decide +kernel, by decide +kernel⟩
  · have hparts : ((run (bothAt "doc.json" "doc.json") false).on lone).result.toOption.map (fun r =>
        (r.graphPath, r.graph.map fun doc =>
          decide (Holds ((run (bothAt "doc.json" "doc.json") false).on lone).world "/doc.json" doc))) =
        some ("/doc.json", some false) := by decide +kernel
    obtain ⟨r, hr, hparts⟩ := Fault.exists_of_map_toOption hparts
    obtain ⟨hg, hdoc⟩ := Prod.mk.inj hparts
    obtain ⟨doc, hdoc, hnot⟩ := Option.map_eq_some_iff.1 hdoc
    exact ⟨r, doc, hr, hg, hdoc, of_decide_eq_false hnot⟩

end Extraction
end ComponentUsage
