import ComponentUsage.CommandLine.Options
import ComponentUsage.Text.Digit
import ComponentUsage.Text.Quoted
/-!
# Reading the command line

The words of a command line are classed first, all of them, and then read from
left to right. An option may be cut short as long as it is clear which one is
meant, and a value may be attached to it.

Releases of the parser differ in two places. As in the earlier ones, `--` attached to
an option is no value, and a letter that is no option ends a word of switches with a
refusal. Later ones take `--` as a text, and print the help where `-h` starts such a word.
-/

namespace ComponentUsage.CommandLine

/-- Why a command line is refused. -/
inductive Refusal where
  | ambiguous (word : String) (candidates : List String)
  | valueExpected (opt : Opt)
  | invalidChoice (opt : Opt) (value : String)
  | valueIgnored (opt : Opt) (value : String)
  | unrecognized (words : List String)
  deriving DecidableEq, Repr

/-- An option with all its names. -/
def Opt.title (o : Opt) : String := "/".intercalate o.names

def Refusal.message : Refusal → String
  | .ambiguous word candidates =>
    s!"ambiguous option: {word} could match " ++ ", ".intercalate candidates
  | .valueExpected opt => s!"argument {opt.title}: expected one argument"
  | .invalidChoice opt value =>
    let choices := ", ".intercalate ((opt.choices.getD []).map Text.quoted)
    s!"argument {opt.title}: invalid choice: {Text.quoted value} (choose from {choices})"
  | .valueIgnored opt value => s!"argument {opt.title}: ignored explicit argument {Text.quoted value}"
  | .unrecognized words => "unrecognized arguments: " ++ " ".intercalate words

/-! ## Classing words -/

/-- What a word is. -/
inductive Shape where
  /-- A value, or a word that belongs to nothing. -/
  | plain
  /-- The word `--`. -/
  | dashes
  /-- An option, the name it goes by, and the value attached to it. -/
  | option (opt : Opt) (name : String) (attached : Option String)
  /-- It looks like an option and is none. -/
  | unknown
  deriving DecidableEq, Repr

/-- The option of a full name. -/
def Opt.ofName? (name : String) : Option Opt := named.lookup name

/-- A word cut at its first equals sign. -/
def cutAtEquals (word : String) : Option (String × String) :=
  let cs := word.toList
  match cs.dropWhile (· ≠ '=') with
  | [] => none
  | _ :: after => some (String.ofList (cs.takeWhile (· ≠ '=')), String.ofList after)

/-- The options that a word may be short for, with the value attached to it. -/
def candidates (word : String) : List (Opt × String × Option String) :=
  match word.toList with
  | '-' :: '-' :: _ =>
    let (start, attached) :=
      match cutAtEquals word with
      | some (start, after) => (start, some after)
      | none => (word, none)
    (Opt.named.filter fun (name, _) => start.toList.isPrefixOf name.toList).map
      fun (name, o) => (o, name, attached)
  | '-' :: c :: rest =>
    Opt.named.filterMap fun (name, o) =>
      if name.toList = ['-', c] then some (o, name, some (String.ofList rest))
      else if word.toList.isPrefixOf name.toList then some (o, name, none)
      else none
  | _ => []

/-- Whether a word reads as a negative number. A line end may follow it. -/
def isNegativeNumber (word : String) : Bool :=
  match word.toList with
  | '-' :: cs =>
    let cs := if cs.getLast? = some '\n' then cs.dropLast else cs
    match cs.dropWhile Text.isDecimalDigit with
    | [] => !cs.isEmpty
    | '.' :: fraction => !fraction.isEmpty && fraction.all Text.isDecimalDigit
    | _ => false
  | _ => false

/-- What one word is. -/
def Shape.ofWord (word : String) : Except Refusal Shape :=
  match word.toList with
  | '-' :: _ :: _ =>
    match Opt.ofName? word with
    | some o => .ok (.option o word none)
    | none =>
      match (cutAtEquals word).bind fun (name, after) =>
          (Opt.ofName? name).map fun o => Shape.option o name (some after) with
      | some shape => .ok shape
      | none =>
        match candidates word with
        | [(o, name, attached)] => .ok (.option o name attached)
        | [] =>
          if isNegativeNumber word || word.toList.contains ' ' then .ok .plain else .ok .unknown
        | several => .error (.ambiguous word (several.map fun (_, name, _) => name))
  | _ => .ok .plain

/-- All words with what they are. After `--` every word is plain. -/
def classify : List String → Except Refusal (List (String × Shape))
  | [] => .ok []
  | "--" :: words => .ok (("--", .dashes) :: words.map (·, .plain))
  | word :: words => do
    let shape ← Shape.ofWord word
    return (word, shape) :: (← classify words)

/-! ## Reading words -/

/-- Why reading stops. -/
inductive Stop where
  /-- The help is asked for. -/
  | help
  | refused (r : Refusal)
  deriving DecidableEq, Repr

/-- The options that one word holds: switches of one letter may be followed by
another letter in the same word, which is refused if a letter is no option. Told are
the switches before the last option, that option, and what is attached to it. -/
def unchain (o : Opt) (short : Bool) : List Char → Except Refusal (List Opt × Opt × Option String)
  | [] => if o.isSwitch then .error (.valueIgnored o "") else .ok ([], o, some "")
  | c :: rest =>
    let attached := String.ofList (c :: rest)
    if !o.isSwitch then .ok ([], o, some attached)
    else if !short then .error (.valueIgnored o attached)
    else
      match Opt.ofName? (String.ofList ['-', c]) with
      | none => .error (.valueIgnored o attached)
      | some next =>
        if rest.isEmpty then .ok ([o], next, none)
        else do
          let (before, last, attached) ← unchain next true rest
          return (o :: before, last, attached)

/-- The options after one more is given a value; `--` stands for no text. -/
def take (o : Options) (opt : Opt) (value : String) : Except Stop Options :=
  if value = "--" then .ok (o.give opt .dashes)
  else
    match opt.choices with
    | some choices =>
      if value ∈ choices then .ok (o.give opt (.text value))
      else .error (.refused (.invalidChoice opt value))
    | none => .ok (o.give opt (.text value))

/-- The options after one more switch. -/
def switchOn (o : Options) (opt : Opt) : Except Stop Options :=
  if opt = .help then .error .help else .ok (o.give opt .on)

/-- Reads words from left to right; `extras` are the words so far that belong to
nothing. -/
def read (o : Options) (extras : List String) : List (String × Shape) → Except Stop Options
  | [] => if extras.isEmpty then .ok o else .error (.refused (.unrecognized extras))
  | (_, .option opt name attached) :: rest => do
    let (before, last, attached) ←
      match attached with
      | none => .ok ([], opt, none)
      | some value =>
        (unchain opt (!(['-', '-'].isPrefixOf name.toList)) value.toList).mapError .refused
    match attached with
    | some value =>
      let o ← before.foldlM switchOn o
      read (← take o last value) extras rest
    | none =>
      if last.isSwitch then
        let o ← before.foldlM switchOn o
        read (← switchOn o last) extras rest
      else
        match rest with
        | (value, .plain) :: rest =>
          let o ← before.foldlM switchOn o
          read (← take o last value) extras rest
        | _ => .error (.refused (.valueExpected last))
  | (word, _) :: rest => read o (extras ++ [word]) rest

/-- The options of a command line. -/
def parse (words : List String) : Except Stop Options := do
  read {} [] (← (classify words).mapError .refused)

end ComponentUsage.CommandLine
