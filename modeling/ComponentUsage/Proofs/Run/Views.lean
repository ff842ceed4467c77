import ComponentUsage.Proofs.Run.Outcome
import ComponentUsage.Proofs.Settings.Mended
/-!
# Modes and dry runs

All modes show one analysis: the report for both documents is put together from the reports
for either one (`views_previews`). A dry run reports what a real run would, up to the places
of the documents and to whether they can be saved (`run_views`).
-/

namespace ComponentUsage

/-- A report without the places of its documents. -/
def Report.unplaced (r : Report) : Report := { r with graphPath := "", treePath := "" }

/-- A report is put together from one on the flat document and one on the tree. Its last
warnings are those of cycles, which come with the tree. -/
structure Report.Joins (both flat deep : Report) : Prop where
  graph : both.graph = flat.graph
  usage : both.usage = flat.usage
  summary : both.summary = flat.summary
  count : both.count = flat.count
  tree : both.tree = deep.tree
  cycles : both.cycles = deep.cycles
  warnings : both.warnings = deep.warnings
  flatWarnings : both.warnings = flat.warnings ++ both.cycles.map UsageTree.cycleMessage

/-- What runs in the three modes come to shows one analysis. -/
structure Views (run : Mode → Except Fault Report) : Prop where
  stopped : ∀ fault, run .tree = .error fault → run .both = .error fault
  failed : ∀ deep, run .tree = .ok deep → deep.ok = false → run .both = .ok { deep with mode := Mode.both.name }
  ok_iff : (∃ both, run .both = .ok both ∧ both.ok = true) ↔ ∃ deep, run .tree = .ok deep ∧ deep.ok = true
  joined : ∀ both, run .both = .ok both → both.ok = true →
    ∃ flat deep, run .graph = .ok flat ∧ flat.ok = true ∧ run .tree = .ok deep ∧ both.Joins flat deep

namespace Views

variable {run : Mode → Except Fault Report}

theorem of_stopped {fault : Fault} (htree : run .tree = .error fault) (hboth : run .both = .error fault) : Views run where
  stopped fault' h := by rw [hboth, ← htree, h]
  failed deep h := by
    rw [htree] at h
    cases h
  ok_iff := by simp only [htree, hboth, reduceCtorEq, false_and]
  joined both h := by
    rw [hboth] at h
    cases h

theorem of_failed {r : Report} (hr : r.ok = false) (htree : run .tree = .ok r)
    (hboth : run .both = .ok { r with mode := Mode.both.name }) : Views run where
  stopped fault h := by
    rw [htree] at h
    cases h
  failed deep h _ := by
    obtain rfl : r = deep := Except.ok.inj (htree.symm.trans h)
    exact hboth
  ok_iff := by
    simp only [htree, hboth, Except.ok.injEq, exists_eq_left', hr]
    exact Bool.eq_iff_iff.1 hr
  joined both h hok := by
    obtain rfl := Except.ok.inj (hboth.symm.trans h)
    exact absurd (hr.symm.trans hok) Bool.false_ne_true

theorem of_joined {both flat deep : Report} (hgraph : run .graph = .ok flat) (htree : run .tree = .ok deep)
    (hboth : run .both = .ok both) (hok : both.ok = true ∧ flat.ok = true ∧ deep.ok = true)
    (h : both.Joins flat deep) : Views run where
  stopped fault h := by
    rw [htree] at h
    cases h
  failed deep' h hdeep := by
    obtain rfl : deep = deep' := Except.ok.inj (htree.symm.trans h)
    exact absurd (hdeep.symm.trans hok.2.2) Bool.false_ne_true
  ok_iff := ⟨fun _ => ⟨deep, htree, hok.2.2⟩, fun _ => ⟨both, hboth, hok.1⟩⟩
  joined both' h' _ := by
    obtain rfl : both = both' := Except.ok.inj (hboth.symm.trans h')
    exact ⟨flat, deep, hgraph, hok.2.1, htree, h⟩

end Views

namespace Extraction

variable {s : Settings} {rs : Roots} {w : World}

/-! ## Dry runs -/

/-- The report of an analysis whose documents are not saved. -/
def preview (s : Settings) (rs : Roots) : Except Report Analysis → Report
  | .error r => r
  | .ok a => succeed s rs a "" ""

theorem result_preview (config : Json) (w : World) :
    ((run config true).on w).result = (do
      let rs ← ((roots (Settings.mend config).1).on w).result
      let analysis ← ((analyse (Settings.mend config).1 rs).on w).result
      return preview (Settings.mend config).1 rs analysis) := by
  have he := congrArg Prod.fst (ending_run config true w)
  dsimp only [Outcome.ending] at he
  rw [he, (leavesDisk_roots _).result_bind]
  refine bind_congr fun rs => ?_
  rw [(leavesDisk_analyse _ _).result_bind]
  refine bind_congr fun analysis => ?_
  cases analysis <;> rfl

/-- A run depends on what its configuration is mended to, and on nothing else in it. -/
theorem result_run_congr {config config' : Json} (h : (Settings.mend config).1 = (Settings.mend config').1)
    (dry : Bool) (w : World) : ((run config dry).on w).result = ((run config' dry).on w).result := by
  have he := congrArg Prod.fst (ending_run config dry w)
  rw [h, ← ending_run] at he
  exact he

/-! ## One analysis in three modes -/

/-- An analysis for the tree alone, shown for both documents. -/
def alsoFlat : Except Report Analysis → Except Report Analysis
  | .error r => .error { r with mode := Mode.both.name }
  | .ok a => .ok { a with graph := some (a.registry.graph a.usage).toJson }

/-- The mode for both documents adds the flat one to the mode for the tree. -/
theorem analyse_both (s : Settings) (rs : Roots) (w : World) :
    ((analyse { s with mode := .both } rs).on w).result =
      ((analyse { s with mode := .tree } rs).on w).result.map alsoFlat := by
  have hconv : conventions { s with mode := .both } rs = conventions { s with mode := .tree } rs := rfl
  rw [result_analyse, result_analyse, hconv]
  split
  · cases ((Registry.scan rs.scan (conventions { s with mode := .tree } rs)).on w).result with
    | error fault =>
      dsimp only
      split <;> rfl
    | ok found =>
      simp only [Mode.hasTree, Bool.true_and]
      split
      · rfl
      · cases ((Usage.discover found.registry).on w).result <;> rfl
  · rfl

/-- Where there is a tree to show there is a flat document, and it needs no warning of cycles. -/
theorem analyse_graph {a : Analysis} (h : ((analyse { s with mode := .tree } rs).on w).result = .ok (.ok a)) :
    ∃ g, ((analyse { s with mode := .graph } rs).on w).result = .ok (.ok g) ∧
      g.registry = a.registry ∧ g.usage = a.usage ∧ g.graph = some (a.registry.graph a.usage).toJson ∧
      a.warnings = g.warnings ++ a.cycles.map UsageTree.cycleMessage := by
  rcases analyse_cases h with ⟨-, he⟩ | ⟨-, fault, -, he⟩ | ⟨-, found, -, -, -, he⟩ |
    ⟨hf, found, discovered, hs, -, hd, he⟩
  · cases he
  · cases he
  · cases he
  · cases he
    have hrooted : Mode.hasTree .graph = true → s.rootSelector ∈ found.registry.keys := nofun
    have hgraph := @result_analyse_of_rooted { s with mode := .graph } rs w found discovered hf hs hrooted hd
    refine ⟨_, hgraph, rfl, rfl, rfl, ?_⟩
    simp [described, grown, Mode.hasTree]

theorem joins_preview {a g : Analysis} (hregistry : g.registry = a.registry) (husage : g.usage = a.usage)
    (hgraph : g.graph = some (a.registry.graph a.usage).toJson)
    (hwarnings : a.warnings = g.warnings ++ a.cycles.map UsageTree.cycleMessage) :
    (preview { s with mode := .both } rs (alsoFlat (.ok a))).Joins
      (preview { s with mode := .graph } rs (.ok g)) (preview { s with mode := .tree } rs (.ok a)) where
  graph := hgraph.symm
  usage := husage.symm
  summary := congrArg Usage.summary husage.symm
  count := congrArg (fun registry => (registry.size : Int)) hregistry.symm
  tree := rfl
  cycles := rfl
  warnings := rfl
  flatWarnings := hwarnings

/-- Dry runs whose configurations differ in the mode alone show one analysis. -/
theorem views_previews (config : Json) (w : World) :
    Views fun mode => ((run (Settings.inMode mode config) true).on w).result := by
  generalize hs : (Settings.mend config).1 = s
  have hrun : ∀ mode, ((run (Settings.inMode mode config) true).on w).result = (do
      let rs ← ((roots s).on w).result
      let analysis ← ((analyse { s with mode } rs).on w).result
      return preview { s with mode } rs analysis) := by
    intro mode
    rw [result_preview, Settings.mend_inMode, hs]
    rfl
  cases hroots : ((roots s).on w).result with
  | error fault =>
    have hstop : ∀ mode, ((run (Settings.inMode mode config) true).on w).result = .error fault := by
      intro mode
      rw [hrun, hroots]
      rfl
    exact .of_stopped (hstop .tree) (hstop .both)
  | ok rs =>
    have hpreview : ∀ mode, ((run (Settings.inMode mode config) true).on w).result =
        ((analyse { s with mode } rs).on w).result.map (preview { s with mode } rs) := by
      intro mode
      rw [hrun, hroots, Fault.ok_bind]
      cases ((analyse { s with mode } rs).on w).result <;> rfl
    have hboth := hpreview .both
    rw [analyse_both] at hboth
    cases htree : ((analyse { s with mode := .tree } rs).on w).result with
    | error fault =>
      rw [htree] at hboth
      exact .of_stopped (by rw [hpreview, htree]; rfl) hboth
    | ok analysis =>
      rw [htree] at hboth
      cases analysis with
      | error r =>
        have hfailed := (outcome_of_kind (kind_of_analyse htree)).1
        exact .of_failed hfailed (by rw [hpreview, htree]; rfl) hboth
      | ok a =>
        obtain ⟨g, hgraph, hregistry, husage, hdoc, hwarnings⟩ := analyse_graph htree
        refine .of_joined ?_ ?_ hboth ⟨rfl, rfl, rfl⟩ (joins_preview hregistry husage hdoc hwarnings)
        · rw [hpreview, hgraph]
          rfl
        · rw [hpreview, htree]
          rfl

/-- A failed analysis is reported without places. -/
theorem unplaced_of_analyse {r : Report} (h : ((analyse s rs).on w).result = .ok (.error r)) : r.unplaced = r := by
  rcases analyse_cases h with ⟨-, he⟩ | ⟨-, fault, -, he⟩ | ⟨-, found, -, -, -, he⟩ | ⟨-, _, _, -, -, -, he⟩ <;>
    cases he <;> rfl

/-- A dry run tells what the real one comes to before it saves anything. -/
theorem preview_of_run {config : Json} {r : Report} (h : ((run config false).on w).result = .ok r) :
    (r.errorKind ≠ "write_failed" → ((run config true).on w).result = .ok r.unplaced) ∧
      (r.errorKind = "write_failed" → ∃ d, ((run config true).on w).result = .ok d ∧ d.ok = true ∧
        d.count = r.count ∧ d.warnings = r.warnings) := by
  obtain ⟨rs, analysis, hr, ha, hc⟩ := exists_conclusion h
  have hdry := result_run_of_analysis true hr ha
  rcases conclude_cases hc with ⟨rfl, -⟩ | ⟨a, -, hd, -, -⟩ | ⟨a, graphPath, treePath, rfl, -, -, rfl, -⟩ |
    ⟨a, fault, rfl, -, -, rfl, -⟩
  · refine ⟨fun _ => ?_, fun hwrite => absurd hwrite (outcome_of_kind (kind_of_analyse ha)).2⟩
    rw [unplaced_of_analyse ha]
    exact hdry
  · cases hd
  · exact ⟨fun _ => hdry, fun hwrite => absurd hwrite (by rw [errorKind_succeed]; decide)⟩
  · exact ⟨fun hwrite => absurd (errorKind_unwritten _ _ _ _) hwrite, fun _ => ⟨_, hdry, rfl, rfl, rfl⟩⟩

/-- Every run has a mode. Dry runs in the three modes show one analysis. A run that reports has
a dry run that reports the same, but for the places of documents. If the documents cannot be
saved, the dry run succeeds with the same components and warnings. -/
theorem run_views (config : Json) (w : World) :
    (∀ dry, ((run config dry).on w).result =
      ((run (Settings.inMode (Settings.mend config).1.mode config) dry).on w).result) ∧
    (Views fun mode => ((run (Settings.inMode mode config) true).on w).result) ∧
    ∀ r, ((run config false).on w).result = .ok r →
      (r.errorKind ≠ "write_failed" → ((run config true).on w).result = .ok r.unplaced) ∧
      (r.errorKind = "write_failed" → ∃ d, ((run config true).on w).result = .ok d ∧ d.ok = true ∧
        d.count = r.count ∧ d.warnings = r.warnings) := by
  refine ⟨fun dry => ?_, views_previews config w, fun r h => preview_of_run h⟩
  exact result_run_congr (Settings.mend_inMode _ config).symm dry w

/-- Where the tree's path leads on below the flat document, a real run cannot save both. A dry
run still shows them. -/
theorem run_views_blocked :
    ∃ r d flat deep, ((run (bothAt "doc.json" "doc.json/tree.json") false).on lone).result = .ok r ∧
      r.errorKind = "write_failed" ∧
      ((run (bothAt "doc.json" "doc.json/tree.json") true).on lone).result = .ok d ∧ d.ok = true ∧
      d.count = r.count ∧ d.Joins flat deep := by
  obtain ⟨r, hr, -, hk⟩ := exists_report (run (bothAt "doc.json" "doc.json/tree.json") false) lone false
    "write_failed" (by decide +kernel)
  have hmode : (Settings.mend (bothAt "doc.json" "doc.json/tree.json")).1.mode = .both := by decide +kernel
  obtain ⟨hsame, hviews, hdry⟩ := run_views (bothAt "doc.json" "doc.json/tree.json") lone
  obtain ⟨d, hd, hok, hcount, -⟩ := (hdry r hr).2 hk
  have hboth := hsame true
  rw [hd, hmode] at hboth
  obtain ⟨flat, deep, -, -, -, hjoins⟩ := hviews.joined d hboth.symm hok
  exact ⟨r, d, flat, deep, hr, hk, hd, hok, hcount, hjoins⟩

end Extraction
end ComponentUsage
