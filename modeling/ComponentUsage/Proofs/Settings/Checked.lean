import ComponentUsage.Proofs.Settings.Settled
/-!
# What a check makes of a value

A check goes through the settings step by step. What a setting comes to, and what is complained
about, comes from what is given for it alone, whether the check mends or is strict (`agree_check`):
a strict one does the same as a mending one, up to the first complaint that is more than a note.
-/

namespace ComponentUsage.Settings

/-! ## Single settings -/

/-- The text that is meant by what is given for a setting. -/
def normalText (given : Option Json) (default : String) : String :=
  match given with
  | some (.text s) => if Text.trim s = "" then default else Text.trim s
  | _ => default

/-- The flag that is meant; a word that is none counts as set. -/
def normalFlag : Option Json → Bool
  | some (.bool b) => b
  | some (.text s) => (flagOfWord? (lowered (Text.trim s))).getD true
  | _ => true

/-- The mode that a text means. -/
def normalMode (text : String) : Mode := (Mode.ofName? (lowered (Text.trim text))).getD .graph

/-- A text with a dot in front. -/
def dotted (s : String) : String := if isDotted s then s else "." ++ s

/-- The items that are meant: those of a list, or the pieces of a text. -/
def normalItems : Option Json → List Json
  | some (.text s) => (commaPieces s).map .text
  | some (.list vs) => vs
  | _ => []

/-- The extension that an item means, if it means one. -/
def extension? : Json → Option String
  | .text s => if Text.trim s = "" then none else some (dotted (Text.trim s))
  | _ => none

/-- One more extension, unless it is there. -/
def addNew (found : List String) (ext : String) : List String :=
  if ext ∈ found then found else found ++ [ext]

/-- The extensions that are meant, each once. -/
def normalExtensions (given : Option Json) : List String :=
  let found := ((normalItems given).filterMap extension?).foldl addNew []
  if found.isEmpty then default.extensions else found

/-! ## What is complained about -/

/-- Complaints about what is given for a text. -/
def textComplaints (key : String) : Option Json → List Complaint
  | none | some .null | some (.text _) => []
  | some v => [.notText key v.kind]

/-- Complaints about what is given for the flag, and the note about a word. -/
def flagComplaints : Option Json → List Complaint
  | none | some .null | some (.bool _) => []
  | some (.text s) =>
    match flagOfWord? (lowered (Text.trim s)) with
    | some flag => [.flagWord s flag]
    | none => [.notFlag (Json.text s).literal]
  | some v => [.notFlag v.literal]

def modeComplaints (text : String) : List Complaint :=
  if (Mode.ofName? (lowered (Text.trim text))).isSome then [] else [.unknownMode text]

def suffixComplaints (suffix : String) : List Complaint :=
  if isDotted suffix then [] else [.suffixWithoutDot suffix]

/-- Complaints about an item of the extensions, with its place. -/
def itemComplaints : Json × Nat → List Complaint
  | (.text s, _) =>
    if Text.trim s = "" then []
    else if isDotted (Text.trim s) then [] else [.extensionWithoutDot (Text.trim s)]
  | (_, index) => [.itemNotText index]

def extensionsComplaints : Option Json → List Complaint
  | none | some .null => []
  | some (.text s) => ((commaPieces s).map Json.text).zipIdx.flatMap itemComplaints
  | some (.list vs) => vs.zipIdx.flatMap itemComplaints
  | some v => [.notList v.kind]

/-- What a check looks at: the kind of each text, and then what is made of the flag, the mode, the
suffix and the extensions. -/
inductive Step where
  | text (key : String)
  | flag
  | mode
  | suffix
  | extensions

/-- The setting that a step is about. -/
def Step.key : Step → String
  | .text key => key
  | .flag => "print_summary"
  | .mode => "mode"
  | .suffix => "definition_suffix"
  | .extensions => "template_extensions"

/-- The steps of a check, in order. -/
def steps : List Step := (default.texts.map fun e => .text e.1) ++ [.flag, .mode, .suffix, .extensions]

/-- What a step of a check has to complain about. -/
def complaintsAt (members : List (String × Json)) (step : Step) : List Complaint :=
  let given := Json.member? step.key members
  match step with
  | .text key => textComplaints key given
  | .flag => flagComplaints given
  | .mode => modeComplaints (normalText given default.mode.name)
  | .suffix => suffixComplaints (normalText given default.suffix)
  | .extensions => extensionsComplaints given

/-- What a check has to complain about, in order. -/
def complaintsAbout : Json → List Complaint
  | .object members => steps.flatMap (complaintsAt members)
  | v => [.notObject v.kind]

/-! ## All settings -/

/-- The members of a value; none, if it is no object. -/
def given : Json → List (String × Json)
  | .object members => members
  | _ => []

/-- Settings of which each comes from what is given for it. -/
def mended (members : List (String × Json)) : Settings where
  sourceRoot := normalText (Json.member? "source_root" members) default.sourceRoot
  scanRoot := normalText (Json.member? "scan_root" members) default.scanRoot
  graphOutput := normalText (Json.member? "graph_output_path" members) default.graphOutput
  treeOutput := normalText (Json.member? "tree_output_path" members) default.treeOutput
  mode := normalMode (normalText (Json.member? "mode" members) default.mode.name)
  rootSelector := normalText (Json.member? "root_selector" members) default.rootSelector
  separator := normalText (Json.member? "path_separator" members) default.separator
  printSummary := normalFlag (Json.member? "print_summary" members)
  suffix := dotted (normalText (Json.member? "definition_suffix" members) default.suffix)
  extensions := normalExtensions (Json.member? "template_extensions" members)
  field := normalText (Json.member? "selector_field" members) default.field
  extras := members.filter (·.1 ∉ keys)

/-- Where nothing is given, all settings are the defaults. -/
theorem mended_nil : mended [] = default := by
  have hmode : normalMode default.mode.name = .graph := by decide
  have hsuffix : dotted default.suffix = default.suffix := if_pos settled_default.suffix
  simp only [mended, Json.member?, List.lookup_nil, normalText, hmode, hsuffix]
  rfl

/-! ## Two ways of checking -/

/-- The first complaint that is more than a note. -/
def correction? (complaints : List Complaint) : Option Complaint := complaints.find? (!·.isNote)

/-- A mending check returns a value and adds some complaints. A strict one does the same, unless
there is one among them that is more than a note: then the first such one stops it. -/
structure Agree {α : Type} (mending strict : Checked α) (a : α) (complaints : List Complaint) : Prop where
  mends : ∀ before, mending before = .ok (a, before ++ complaints)
  strict_eq : ∀ before, strict before =
    match correction? complaints with
    | some complaint => .error complaint
    | none => .ok (a, before ++ complaints)

theorem correction?_append (complaints later : List Complaint) :
    correction? (complaints ++ later) = (correction? complaints).or (correction? later) := List.find?_append

section Agree

variable {α β : Type} {mending strict : Checked α} {a : α} {complaints : List Complaint}

theorem Agree.pure (a : α) : Agree (Pure.pure a) (Pure.pure a) a [] where
  mends before := by rw [List.append_nil]; rfl
  strict_eq before := by rw [List.append_nil]; rfl

theorem Agree.bind {f g : α → Checked β} {b : β} {later : List Complaint} (h : Agree mending strict a complaints)
    (hf : Agree (f a) (g a) b later) : Agree (mending >>= f) (strict >>= g) b (complaints ++ later) := by
  have hbind : ∀ (c : Checked α) (k : α → Checked β) before, (c >>= k) before = c before >>= fun p => k p.1 p.2 :=
    fun _ _ _ => rfl
  constructor
  · intro before
    rw [hbind, h.mends, ← List.append_assoc]
    exact hf.mends _
  · intro before
    rw [hbind, h.strict_eq, correction?_append]
    cases hc : correction? complaints with
    | some complaint => rfl
    | none =>
      rw [Option.none_or, ← List.append_assoc]
      exact hf.strict_eq _

theorem Agree.map (h : Agree mending strict a complaints) (f : α → β) :
    Agree (do let a ← mending; Pure.pure (f a)) (do let a ← strict; Pure.pure (f a)) (f a) complaints := by
  rw [← List.append_nil complaints]
  exact h.bind (.pure (f a))

/-- A complaint stops a strict check, unless it is a note. -/
theorem Agree.complain (complaint : Complaint) :
    Agree (Settings.complain false complaint) (Settings.complain true complaint) () [complaint] where
  mends before := rfl
  strict_eq before := by
    cases hn : complaint.isNote <;> simp [Settings.complain, correction?, hn] <;> rfl

/-- One complaint, and then the value that is taken instead. -/
theorem Agree.complain_pure (complaint : Complaint) (a : α) :
    Agree (do Settings.complain false complaint; Pure.pure a) (do Settings.complain true complaint; Pure.pure a) a
      [complaint] :=
  .bind (.complain complaint) (.pure a)

theorem agree_checkText (given : List (String × Json)) (key default : String) :
    Agree (checkText false given key default) (checkText true given key default)
      (normalText (Json.member? key given) default) (textComplaints key (Json.member? key given)) := by
  unfold checkText
  cases Json.member? key given with
  | none => exact .pure _
  | some v =>
    cases v with
    | null | text => exact .pure _
    | bool | int | float | list | object => exact .complain_pure _ _

theorem agree_checkFlag (given : Option Json) :
    Agree (checkFlag false given) (checkFlag true given) (normalFlag given) (flagComplaints given) := by
  unfold checkFlag
  cases given with
  | none => exact .pure _
  | some v =>
    cases v with
    | null | bool => exact .pure _
    | text s =>
      dsimp only [normalFlag, flagComplaints]
      cases flagOfWord? (lowered (Text.trim s)) with
      | none => exact .complain_pure _ _
      | some flag => exact .complain_pure _ _
    | int | float | list | object => exact .complain_pure _ _

theorem agree_checkMode (text : String) :
    Agree (checkMode false text) (checkMode true text) (normalMode text) (modeComplaints text) := by
  unfold checkMode normalMode modeComplaints
  cases Mode.ofName? (lowered (Text.trim text)) with
  | none => exact .complain_pure _ _
  | some mode => exact .pure mode

theorem agree_checkSuffix (suffix : String) :
    Agree (checkSuffix false suffix) (checkSuffix true suffix) (dotted suffix) (suffixComplaints suffix) := by
  unfold checkSuffix dotted suffixComplaints
  split
  · exact .pure _
  · exact .complain_pure _ _

theorem agree_checkItem (index : Nat) (item : Json) :
    Agree (checkItem false index item) (checkItem true index item) (extension? item)
      (itemComplaints (item, index)) := by
  cases item with
  | text s =>
    dsimp only [checkItem, extension?, itemComplaints, dotted]
    split
    · exact .pure _
    · split
      · exact .pure _
      · exact .complain_pure _ _
  | null | bool | int | float | list | object => exact .complain_pure _ _

theorem agree_checkItems (found : List String) (index : Nat) (items : List Json) :
    Agree (checkItems false found index items) (checkItems true found index items)
      ((items.filterMap extension?).foldl addNew found) ((items.zipIdx index).flatMap itemComplaints) := by
  induction items generalizing found index with
  | nil => exact .pure _
  | cons item items ih =>
    refine .bind (agree_checkItem index item) ?_
    dsimp only
    cases hext : extension? item with
    | none =>
      rw [List.filterMap_cons_none hext]
      exact ih found (index + 1)
    | some ext =>
      rw [List.filterMap_cons_some hext]
      exact ih (addNew found ext) (index + 1)

theorem agree_checkExtensions (given : Option Json) :
    Agree (checkExtensions false given) (checkExtensions true given) (normalExtensions given)
      (extensionsComplaints given) := by
  have hrest : ∀ items : List Json, items = normalItems given → Agree (do
      let found ← checkItems false [] 0 items
      return if found.isEmpty then default.extensions else found) (do
      let found ← checkItems true [] 0 items
      return if found.isEmpty then default.extensions else found) (normalExtensions given)
      (items.zipIdx.flatMap itemComplaints) := by
    intro items hitems
    rw [normalExtensions, ← hitems]
    exact (agree_checkItems [] 0 items).map fun found => if found.isEmpty then default.extensions else found
  unfold checkExtensions
  simp only [pure_bind]
  cases given with
  | none => exact hrest [] rfl
  | some v =>
    cases v with
    | null => exact hrest [] rfl
    | text s => exact hrest ((commaPieces s).map .text) rfl
    | list vs => exact hrest vs rfl
    | bool | int | float | object => exact .bind (.complain _) (hrest [] rfl)

theorem agree_members (members : List (String × Json)) :
    Agree (check false (.object members)) (check true (.object members)) (mended members)
      (steps.flatMap (complaintsAt members)) := by
  unfold check
  dsimp only
  refine .bind (agree_checkText members "source_root" _) ?_
  refine .bind (agree_checkText members "scan_root" _) ?_
  refine .bind (agree_checkText members "graph_output_path" _) ?_
  refine .bind (agree_checkText members "tree_output_path" _) ?_
  refine .bind (agree_checkText members "mode" _) ?_
  refine .bind (agree_checkText members "root_selector" _) ?_
  refine .bind (agree_checkText members "path_separator" _) ?_
  refine .bind (agree_checkText members "definition_suffix" _) ?_
  refine .bind (agree_checkText members "selector_field" _) ?_
  refine .bind (agree_checkFlag _) ?_
  refine .bind (agree_checkMode _) ?_
  refine .bind (agree_checkSuffix _) ?_
  refine .bind (agree_checkExtensions _) ?_
  exact .pure (mended members)

/-- A check complains step by step, at each about what is given for its setting. -/
theorem agree_check (v : Json) :
    Agree (check false v) (check true v) (mended (given v)) (complaintsAbout v) := by
  cases v with
  | object members => exact agree_members members
  | null | bool | int | float | text | list =>
    change Agree _ _ (mended []) _
    rw [mended_nil]
    exact .complain_pure _ _

end Agree

end ComponentUsage.Settings
