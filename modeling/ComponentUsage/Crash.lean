import ComponentUsage.Disk.Fault
import ComponentUsage.Journal.Record
import ComponentUsage.Json.Printer
import ComponentUsage.Usage.Tree
/-!
# Crashes

Failures that nothing in the program deals with, and what is said about them
before it ends. A failure of the system has a number, a text and up to two
paths; any other failure is told by its particulars.
-/

namespace ComponentUsage

/-- A failure that nothing deals with: a kind and its particulars. -/
structure Crash where
  kind : String
  particulars : List Json

namespace Crash

/-! ## Failures of the system -/

/-- The kinds of failure that the system reports, by number. -/
def systemKind? : Int → Option String
  | 1 | 13 => some "PermissionError"
  | 2 => some "FileNotFoundError"
  | 3 => some "ProcessLookupError"
  | 4 => some "InterruptedError"
  | 10 => some "ChildProcessError"
  | 11 | 114 | 115 => some "BlockingIOError"
  | 17 => some "FileExistsError"
  | 20 => some "NotADirectoryError"
  | 21 => some "IsADirectoryError"
  | 32 | 108 => some "BrokenPipeError"
  | 103 => some "ConnectionAbortedError"
  | 104 => some "ConnectionResetError"
  | 110 => some "TimeoutError"
  | 111 => some "ConnectionRefusedError"
  | _ => none

/-- Names of the kind that stands for every failure of the system. -/
def isSystem (kind : String) : Bool := kind ∈ ["OSError", "IOError", "EnvironmentError"]

/-- Kinds whose particulars are a number, a text and paths. -/
def hasNumber (kind : String) : Bool :=
  isSystem kind || kind ∈ ["PermissionError", "FileNotFoundError", "ProcessLookupError",
    "InterruptedError", "ChildProcessError", "BlockingIOError", "FileExistsError",
    "NotADirectoryError", "IsADirectoryError", "ConnectionError", "BrokenPipeError",
    "ConnectionAbortedError", "ConnectionResetError", "ConnectionRefusedError", "TimeoutError"]

/-- What is known about a failure of the system. -/
structure SystemFailure where
  number : Json
  what : Json
  path : Option Json
  /-- The path that something was to be moved to. -/
  target : Option Json

/-- A value that is there. -/
def present : Json → Option Json
  | .null => none
  | v => some v

/-- The number, text and paths of a failure of the system, if it has them. The
fourth particular means nothing, and a target needs a path. -/
def system? (c : Crash) : Option SystemFailure :=
  if hasNumber c.kind then
    match c.particulars with
    | [number, what] => some ⟨number, what, none, none⟩
    | [number, what, path] | [number, what, path, _] => some ⟨number, what, present path, none⟩
    | [number, what, path, _, target] =>
      some ⟨number, what, present path, (present path).bind fun _ => present target⟩
    | _ => none
  else none

/-- A whole number; a flag counts as zero or one. -/
def whole? : Json → Option Int
  | .int n => some n
  | .bool b => some (if b then 1 else 0)
  | _ => none

def isNumber : Json → Bool
  | .int _ | .float _ | .bool _ => true
  | _ => false

/-- The name of the kind. A system failure goes by the name for its number. -/
def shortName (c : Crash) : String :=
  if isSystem c.kind then
    ((c.system?.bind fun f => whole? f.number).bind systemKind?).getD "OSError"
  else c.kind

/-- How far a failed operation got: in one kind of failure a number in the place of
a path tells it. -/
def progress? (c : Crash) : Option Json :=
  if c.shortName = "BlockingIOError" then (c.system?.bind (·.path)).filter isNumber else none

/-! ## Crashes that cannot be -/

/-- Why particulars make no crash. -/
inductive Misfit where
  /-- How far an operation got is no whole number. -/
  | notWhole (kind : Json.Kind)
  /-- How far an operation got is no number of 64 bits. -/
  | tooLarge
  deriving DecidableEq, Repr

def Misfit.message : Misfit → String
  | .notWhole kind => s!"'{kind.word}' object cannot be interpreted as an integer"
  | .tooLarge => "cannot fit 'int' into an index-sized integer"

/-- What is wrong with the particulars, if anything is. -/
def misfit? (c : Crash) : Option Misfit :=
  c.progress?.bind fun v =>
    match whole? v with
    | none => some (.notWhole v.kind)
    | some n => if -0x8000000000000000 ≤ n && n < 0x8000000000000000 then none else some .tooLarge

/-! ## Texts -/

/-- A particular as it stands in a text of its own. -/
def plain : Json → String
  | .text s => s
  | v => v.literal

/-- The text of a failure of the system. -/
def SystemFailure.text (f : SystemFailure) : String :=
  let cause := s!"[Errno {plain f.number}] {plain f.what}"
  match f.path, f.target with
  | none, _ => cause
  | some path, none => s!"{cause}: {path.literal}"
  | some path, some target => s!"{cause}: {path.literal} -> {target.literal}"

/-- The text of a crash. -/
def text (c : Crash) : String :=
  match c.system? with
  | some f => if c.progress?.isSome then { f with path := none }.text else f.text
  | none =>
    match c.kind, c.particulars with
    | "MissingRootError", [selector, _] => UsageTree.MissingRoot.message ⟨plain selector, []⟩
    | _, [] => ""
    | "KeyError", [v] => v.literal
    | _, [v] => plain v
    | _, vs => "(" ++ ", ".intercalate (Json.literals vs) ++ ")"

/-- The full name of the kind. -/
def name (c : Crash) : String :=
  if c.kind ∈ ["ComponentGraphError", "MissingRootError"] then
    "componentgraph.domain.errors." ++ c.kind
  else c.shortName

/-- The crash in one line. -/
def line (c : Crash) : String :=
  if c.text = "" then c.name else s!"{c.name}: {c.text}"

/-- The crash that a fault makes if nothing deals with it. -/
def ofFault : Fault → Crash
  | .disk cause path => ⟨"OSError", [.int cause.number, .text cause.text, .text path]⟩
  | .interrupted => ⟨"KeyboardInterrupt", []⟩
  | fault => ⟨"ValueError", [.text fault.message]⟩

/-! ## Reports -/

/-- The part of the program that deals with crashes. -/
def source : String := "componentgraph.supervisor"

/-- The report about a crash. -/
def record (c : Crash) : Record :=
  { level := .critical, source, message := s!"FATAL EXCEPTION DETECTED: {c.text}\n{c.line}\n" }

/-- A line across the screen. -/
def ruler : String := String.ofList (List.replicate 80 '=')

/-- What is printed about a crash. -/
def notice (c : Crash) : String :=
  s!"\n{ruler}\nCRITICAL ERROR (COMPONENT-GRAPH)\n{ruler}\n{c.line}\n\n"

/-- The code that the program ends with after a crash. -/
def exitCode : Nat := 1

end Crash
end ComponentUsage
