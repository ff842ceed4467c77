import ComponentUsage.Settings.Basic
/-!
# Complaints about settings

What can be wrong with a value that is given for a setting, how it is told, and
checks that either stop at the first complaint or mend the value and go on.
-/

namespace ComponentUsage.Settings

/-- What is wrong with a value. -/
inductive Complaint where
  /-- The settings are no object. -/
  | notObject (kind : Json.Kind)
  | notText (key : String) (kind : Json.Kind)
  /-- The summary flag is neither true nor false; `shown` is the value. -/
  | notFlag (shown : String)
  | notList (kind : Json.Kind)
  | itemNotText (index : Nat)
  | unknownMode (mode : String)
  | suffixWithoutDot (suffix : String)
  | extensionWithoutDot (ext : String)
  /-- Not wrong, but worth a note: a word was read as a flag. -/
  | flagWord (word : String) (flag : Bool)
  deriving DecidableEq, Repr

namespace Complaint

/-- A complaint that never stops a check. -/
def isNote : Complaint → Bool
  | .flagWord _ _ => true
  | _ => false

/-- A complaint about the kind of a value, not about the value. -/
def isAboutKind : Complaint → Bool
  | .notObject _ | .notText _ _ | .notFlag _ | .notList _ | .itemNotText _ => true
  | _ => false

/-- How a complaint is told when it stops a check. -/
def message : Complaint → String
  | .notObject kind => s!"Invalid config type: expected dict, received {kind.word}."
  | .notText key kind => s!"'{key}' must be text, got {kind.word}."
  | .notFlag shown => s!"'print_summary' must be true or false, got {shown}."
  | .notList kind => s!"'template_extensions' must be a list, got {kind.word}."
  | .itemNotText index => s!"'template_extensions[{index}]' is not text."
  | .unknownMode mode =>
    s!"Invalid mode '{mode}': expected one of " ++ ", ".intercalate (Mode.all.map Mode.name) ++ "."
  | .suffixWithoutDot suffix => s!"Invalid definition suffix '{suffix}': must start with '.'."
  | .extensionWithoutDot ext => s!"Invalid extension '{ext}': must start with '.'."
  | .flagWord word flag =>
    let read := if flag then "True" else "False"
    s!"'print_summary' read '{word}' as {read}."

/-- How a complaint is told when the value is mended. -/
def warning (c : Complaint) : String :=
  match c with
  | .notObject _ => c.message ++ " Using defaults."
  | .unknownMode _ => c.message ++ s!" Using '{Mode.graph.name}'."
  | .suffixWithoutDot suffix => s!"Definition suffix '{suffix}' corrected to '.{suffix}'."
  | .extensionWithoutDot ext => s!"Extension '{ext}' corrected to '.{ext}'."
  | .flagWord _ _ => c.message
  | _ => c.message ++ " Using the default."

end Complaint

/-- A check that has complained and goes on, or that a complaint has stopped. -/
abbrev Checked := StateT (List Complaint) (Except Complaint)

/-- Complains: a strict check stops there, unless it is a note. -/
def complain (strict : Bool) (c : Complaint) : Checked Unit :=
  if strict && !c.isNote then throw c else modify (· ++ [c])

end ComponentUsage.Settings
