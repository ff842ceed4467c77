import ComponentUsage.Component.Basic
import ComponentUsage.Json.Basic
/-!
# Reports

What a run tells its caller: the documents and what is in them, or why there are
none.
-/

namespace ComponentUsage

/-- The kinds of failure. -/
inductive FailureKind where
  | invalidInput
  | structuralRead
  | missingRoot
  | writeFailed
  | other (word : String)
  deriving DecidableEq, Repr

namespace FailureKind

def word : FailureKind → String
  | .invalidInput => "invalid_input"
  | .structuralRead => "structural_read"
  | .missingRoot => "missing_root"
  | .writeFailed => "write_failed"
  | .other word => word

/-- The code that the program ends with after a failure. -/
def exitCode : FailureKind → Nat
  | .invalidInput => 2
  | .missingRoot => 3
  | _ => 1

/-- The kind of that word. -/
def ofWord (word : String) : FailureKind :=
  ([.invalidInput, .structuralRead, .missingRoot, .writeFailed].find?
    fun kind => FailureKind.word kind == word).getD (.other word)

end FailureKind

/-- Why a run failed. -/
structure Failure where
  kind : FailureKind
  message : String
  deriving DecidableEq, Repr

/-- What a run tells. -/
structure Report where
  failure : Option Failure := none
  /-- The word for the mode of the run. -/
  mode : String
  /-- The directory that was scanned. -/
  scanRoot : String
  /-- How many components there are. -/
  count : Int := 0
  graph : Option Json := none
  tree : Option Json := none
  /-- Where the documents were written, or nothing. -/
  graphPath : String := ""
  treePath : String := ""
  usage : Usage := .empty
  /-- The usage, a line for each component. -/
  summary : List String := []
  warnings : List String := []
  cycles : List (List String) := []
  /-- The selectors there are, if the root is none of them. -/
  available : List (String × String) := []

namespace Report

/-- The report of a run that failed. -/
def failed (failure : Failure) (mode scanRoot : String) : Report :=
  { failure := some failure, mode, scanRoot }

def ok (r : Report) : Bool := r.failure.isNone

/-- The kind of the failure in one word, or nothing. -/
def errorKind (r : Report) : String := (r.failure.map (·.kind.word)).getD ""

/-- What the failure says, or nothing. -/
def error (r : Report) : String := (r.failure.map (·.message)).getD ""

/-- A report as a document. -/
def toJson (r : Report) : Json :=
  .object [("ok", .bool r.ok), ("error", .text r.error), ("error_kind", .text r.errorKind),
    ("mode", .text r.mode), ("scan_root", .text r.scanRoot), ("component_count", .int r.count),
    ("graph", r.graph.getD .null), ("tree", r.tree.getD .null), ("graph_path", .text r.graphPath),
    ("tree_path", .text r.treePath),
    ("usages", .object (r.usage.entries.map fun (selector, users) => (selector, .texts users))),
    ("summary_lines", .texts r.summary), ("warnings", .texts r.warnings),
    ("cycles", .list (r.cycles.map .texts)),
    ("available_selectors", .object (r.available.map fun (selector, name) => (selector, .text name)))]

/-- Lines, each with its end. -/
def lines (l : List String) : String := String.join (l.map (· ++ "\n"))

/-- What is printed about a run that succeeded. -/
def outcome (r : Report) (relations : Bool) : String :=
  if !r.ok then ""
  else
    lines ([s!"Components found: {r.count}"]
      ++ (if r.graphPath = "" then [] else [s!"Component graph: {r.graphPath}"])
      ++ (if r.treePath = "" then [] else [s!"Component tree: {r.treePath}"])
      ++ (if r.warnings.isEmpty then [] else [s!"Warnings: {r.warnings.length}"])
      ++ (if relations && !r.summary.isEmpty then
            "\nComponent relationships (child -> parents):" :: r.summary
          else []))

/-- What is printed about a run that failed. -/
def complaint (r : Report) : String :=
  match r.failure with
  | none => ""
  | some failure =>
    lines (s!"ERROR: {failure.message}" ::
      (if failure.kind = .missingRoot then
        "Available components:" :: r.available.map fun (selector, name) => s!"- {selector} ({name})"
      else []))

/-- The code that the program ends with. -/
def exitCode (r : Report) : Nat :=
  match r.failure with
  | none => 0
  | some failure => failure.kind.exitCode

end Report
end ComponentUsage
