import ComponentUsage.Json.Printer
import ComponentUsage.Settings.Complaint
import ComponentUsage.Text.Blank
/-!
# Checking settings

Settings from a value of any kind. What is missing or wrong takes its default;
texts lose the blanks around them; a suffix or an extension without a dot gets
one.
-/

namespace ComponentUsage.Settings

/-- Small letters for the capitals of the English alphabet: the words that are
compared below have no other letters. -/
def lowered (s : String) : String := String.ofList (s.toList.map Char.toLower)

/-- A setting that is a text. -/
def checkText (strict : Bool) (given : List (String × Json)) (key default : String) :
    Checked String :=
  match Json.member? key given with
  | none | some .null => return default
  | some (.text s) =>
    let s := Text.trim s
    return if s = "" then default else s
  | some v => do
    complain strict (.notText key v.kind)
    return default

/-- Words that are read as flags. -/
def flagOfWord? (word : String) : Option Bool :=
  if word ∈ ["true", "yes", "on"] then some true
  else if word ∈ ["false", "no", "off"] then some false
  else none

/-- Whether a summary is printed. -/
def checkFlag (strict : Bool) (given : Option Json) : Checked Bool :=
  match given with
  | none | some .null => return true
  | some (.bool b) => return b
  | some v =>
    let word? := match v with
      | .text s => (flagOfWord? (lowered (Text.trim s))).map (s, ·)
      | _ => none
    match word? with
    | some (word, flag) => do
      complain strict (.flagWord word flag)
      return flag
    | none => do
      complain strict (.notFlag v.literal)
      return true

/-- The mode that a text means. -/
def checkMode (strict : Bool) (text : String) : Checked Mode :=
  match Mode.ofName? (lowered (Text.trim text)) with
  | some mode => return mode
  | none => do
    complain strict (.unknownMode text)
    return .graph

/-- Whether a text starts with a dot. -/
def isDotted (s : String) : Bool := s.toList.head? == some '.'

/-- A suffix of definition files. -/
def checkSuffix (strict : Bool) (suffix : String) : Checked String :=
  if isDotted suffix then return suffix
  else do
    complain strict (.suffixWithoutDot suffix)
    return "." ++ suffix

/-- The extension that an item of the list means, if it means one. -/
def checkItem (strict : Bool) (index : Nat) : Json → Checked (Option String)
  | .text s =>
    let ext := Text.trim s
    if ext = "" then return none
    else if isDotted ext then return some ext
    else do
      complain strict (.extensionWithoutDot ext)
      return some ("." ++ ext)
  | _ => do
    complain strict (.itemNotText index)
    return none

/-- The extensions of a list, each once, after those found before. -/
def checkItems (strict : Bool) (found : List String) (index : Nat) :
    List Json → Checked (List String)
  | [] => return found
  | v :: vs => do
    let ext ← checkItem strict index v
    let found := match ext with
      | some ext => if ext ∈ found then found else found ++ [ext]
      | none => found
    checkItems strict found (index + 1) vs

/-- The pieces of a text between commas. -/
def commaPieces (s : String) : List String :=
  (s.toList.splitOn ',').map String.ofList

/-- The extensions of template files: a list of texts, or one text with commas. -/
def checkExtensions (strict : Bool) (given : Option Json) : Checked (List String) := do
  let items? : Option (List Json) ←
    match given with
    | none | some .null => pure (some [])
    | some (.text s) => pure (some ((commaPieces s).map .text))
    | some (.list vs) => pure (some vs)
    | some v => do
      complain strict (.notList v.kind)
      pure none
  let found ← checkItems strict [] 0 (items?.getD [])
  return if found.isEmpty then default.extensions else found

/-- Settings from a value. -/
def check (strict : Bool) : Json → Checked Settings
  | .object given => do
    let text := checkText strict given
    let sourceRoot ← text "source_root" default.sourceRoot
    let scanRoot ← text "scan_root" default.scanRoot
    let graphOutput ← text "graph_output_path" default.graphOutput
    let treeOutput ← text "tree_output_path" default.treeOutput
    let modeText ← text "mode" default.mode.name
    let rootSelector ← text "root_selector" default.rootSelector
    let separator ← text "path_separator" default.separator
    let suffixText ← text "definition_suffix" default.suffix
    let field ← text "selector_field" default.field
    let printSummary ← checkFlag strict (Json.member? "print_summary" given)
    let mode ← checkMode strict modeText
    let suffix ← checkSuffix strict suffixText
    let extensions ← checkExtensions strict (Json.member? "template_extensions" given)
    return { sourceRoot, scanRoot, graphOutput, treeOutput, mode, rootSelector, separator,
             printSummary, suffix, extensions, field,
             extras := given.filter (·.1 ∉ keys) }
  | v => do
    complain strict (.notObject v.kind)
    return default

/-- Settings from a value that is mended where it has to be, and the complaints. -/
def mend (v : Json) : Settings × List Complaint :=
  match check false v [] with
  | .ok (s, complaints) => (s, complaints)
  | .error c => (default, [c])

/-- Settings from a value that has nothing wrong, with the notes. -/
def accept (v : Json) : Except Complaint (Settings × List Complaint) := check true v []

end ComponentUsage.Settings
