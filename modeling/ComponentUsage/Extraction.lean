import ComponentUsage.Component.Scan
import ComponentUsage.Json.Printer
import ComponentUsage.Report
import ComponentUsage.Settings.Check
import ComponentUsage.Usage.Discovery
import ComponentUsage.Usage.Graph
import ComponentUsage.Usage.Tree
/-!
# A run

From settings to a report: the project is scanned and its usage found, then the
documents are saved. Nothing is saved before the whole analysis is done.
-/

namespace ComponentUsage

namespace Extraction

/-- The part of the program that runs. -/
def source : String := "componentgraph.core.pipeline.engine"

/-- What an analysis has found out. -/
structure Analysis where
  registry : Registry
  usage : Usage
  graph : Option Json
  tree : Option Json
  warnings : List String
  cycles : List (List String)

/-- Where a run looks. -/
structure Roots where
  scan : String
  source : String
  deriving DecidableEq, Repr

/-- The directories that settings mean. A source root that does not hold the
scanned directory gives way to the directory above that. -/
def roots (s : Settings) : Job Roots := do
  let here := (← .disk).here
  let scan ← .ofExcept (here.resolve s.scanRoot here.workingDirectory)
  let source ← .ofExcept (here.resolve s.sourceRoot scan)
  if here.isWithin scan source then return { scan, source }
  else
    .tell .debug Extraction.source
      s!"Source root {source} does not contain the scan root. Using its parent."
    return { scan, source := Path.directory scan }

/-- Ends an analysis with a failure, which is reported. -/
def fail (level : Level) (r : Report) : Job (Except Report Analysis) := do
  .tell level source r.error
  return .error r

/-- The tree that a mode asks for has a root in a registry. -/
def Rooted (s : Settings) (registry : Registry) : Prop :=
  s.mode.hasTree = true → registry.contains s.rootSelector = true

theorem rooted_of_not {s : Settings} {registry : Registry}
    (h : ¬ (s.mode.hasTree && !registry.contains s.rootSelector) = true) : Rooted s registry := fun ht => by
  rw [ht, Bool.true_and, Bool.not_eq_true', Bool.not_eq_false] at h
  exact h

/-- What the components of a registry say, once the tree has its root. -/
def describe (s : Settings) (roots : Roots) (found : Found) (hroot : Rooted s found.registry) :
    Job Analysis := do
  let here := (← .disk).here
  let registry := found.registry
  let discovered ← Usage.discover registry
  let usage := discovered.usage
  let graph := if s.mode.hasGraph then some (registry.graph usage).toJson else none
  let soil : UsageTree.Soil :=
    { registry, usage, shown := (here.displayTemplate · roots.source s.separator) }
  let grown :=
    if ht : s.mode.hasTree then some (UsageTree.rooted soil s.rootSelector (hroot ht)) else none
  let cycles := (grown.map (·.2)).getD []
  .tellAll (UsageTree.cycleRecords cycles)
  return { registry, usage, graph, tree := grown.map (·.1.toJson), cycles,
           warnings := found.warnings ++ discovered.warnings ++ cycles.map UsageTree.cycleMessage }

/-- What a scan has found is described, unless the tree has no root in it. -/
def describeRooted (s : Settings) (roots : Roots) (found : Found) : Job (Except Report Analysis) :=
  if h : s.mode.hasTree && !found.registry.contains s.rootSelector then
    let missing : UsageTree.MissingRoot := ⟨s.rootSelector, UsageTree.available found.registry⟩
    fail .error { failure := some ⟨.missingRoot, missing.message⟩, mode := s.mode.name,
                  scanRoot := roots.scan, count := found.registry.size,
                  warnings := found.warnings, available := missing.available }
  else .ok <$> describe s roots found (rooted_of_not h)

/-- Scans the project and finds out what its documents hold. -/
def analyse (s : Settings) (roots : Roots) : Job (Except Report Analysis) := do
  let w ← .disk
  if !w.isFolder roots.scan then
    fail .error (.failed ⟨.invalidInput, s!"Invalid scan directory: {roots.scan}"⟩ s.mode.name roots.scan)
  else
    let conv : Component.Conventions :=
      { sourceRoot := roots.source, suffix := s.suffix, extensions := s.extensions, field := s.field,
        separator := s.separator }
    match ← (Registry.scan roots.scan conv).attempt with
    | .ok found =>
      .tell .info source s!"{found.registry.size} components found."
      describeRooted s roots found
    | .error fault =>
      if fault.isDisk then
        fail .critical (.failed ⟨.structuralRead, s!"Failed to scan project tree: {fault.message}"⟩
          s.mode.name roots.scan)
      else .ofExcept (.error fault)

/-- The report of an analysis whose documents are at these paths. -/
def succeed (s : Settings) (roots : Roots) (a : Analysis) (graphPath treePath : String) : Report :=
  { mode := s.mode.name, scanRoot := roots.scan, count := a.registry.size, graph := a.graph,
    tree := a.tree, graphPath, treePath, usage := a.usage, summary := a.usage.summary,
    warnings := a.warnings, cycles := a.cycles }

/-- A document as it is written to a file. -/
def fileText (v : Json) : String := v.print .indented ++ "\n"

/-- Saves a document, if there is one, and tells its path. -/
def save (what setting : String) : Option Json → Job String
  | none => return ""
  | some doc => do
    let here := (← .disk).here
    let path ← .ofExcept (here.resolve setting here.workingDirectory)
    .write path (fileText doc)
    .tell .info source s!"Component {what} written to {path}"
    return path

/-- Saves the documents of an analysis, the flat one first. -/
def saveAll (s : Settings) (a : Analysis) : Job (String × String) := do
  let graphPath ← save "graph" s.graphOutput a.graph
  let treePath ← save "tree" s.treeOutput a.tree
  return (graphPath, treePath)

/-- Saves the documents of an analysis and reports how that went. -/
def persist (s : Settings) (roots : Roots) (a : Analysis) : Job Report := do
  match ← (saveAll s a).attempt with
  | .ok (graphPath, treePath) => return succeed s roots a graphPath treePath
  | .error fault =>
    if fault.isDisk then
      let message := s!"Failed to write output artifact: {fault.message}"
      .tell .error source message
      return { failure := some ⟨.writeFailed, message⟩, mode := s.mode.name, scanRoot := roots.scan,
               count := a.registry.size, warnings := a.warnings }
    else .ofExcept (.error fault)

/-- What ends a run after its analysis. -/
def conclude (s : Settings) (dry : Bool) (roots : Roots) : Except Report Analysis → Job Report
  | .error r => return r
  | .ok a =>
    if dry then do
      .tell .info source "Dry run: no artifacts written."
      return succeed s roots a "" ""
    else persist s roots a

/-- The part of the program that checks settings. -/
def checkSource : String := "componentgraph.core.pipeline.validator"

/-- The reports about settings that had to be mended. -/
def complaintRecords (complaints : List Settings.Complaint) : List Record :=
  complaints.filterMap (fun
    | .notObject kind =>
      some { level := .warning, source := checkSource,
             message := (Settings.Complaint.notObject kind).message }
    | _ => none)

/-- The warnings of a run about settings that had to be mended. -/
def warningRecords (complaints : List Settings.Complaint) : List Record :=
  complaints.map fun c =>
    { level := .warning, source, message := s!"Configuration Warning: {c.warning}" }

/-- A run with a configuration of any kind; a dry one saves nothing. -/
def run (config : Json) (dry : Bool) : Job Report := do
  let (s, complaints) := Settings.mend config
  .tell .info source "Graph extraction started."
  .tellAll (complaintRecords complaints)
  .tellAll (warningRecords complaints)
  let roots ← roots s
  let analysis ← analyse s roots
  conclude s dry roots analysis

end Extraction
end ComponentUsage
