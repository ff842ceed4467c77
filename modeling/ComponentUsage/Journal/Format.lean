import ComponentUsage.Crash
import ComponentUsage.Journal.Record
import ComponentUsage.Text.Digit
import ComponentUsage.Text.Letter
import ComponentUsage.Text.WordTable
/-!
# How records are written

A format is a text with references to what a record holds; a record is written
by putting that in their places. A reference bears a name between parentheses
and says how the value is written: flags, a width, a precision, and a letter for
the kind of value that it takes. A format is valid if one reference in it is well
formed (`Format.isValid`); that the record has what it refers to, of the right
kind, shows only when a record is written (`Format.render`).
-/

namespace ComponentUsage

/-- What a record says of itself to a format. -/
inductive Slot where
  | level
  | message
  | source
  | time
  deriving DecidableEq, Repr

namespace Slot

def all : List Slot := [.level, .message, .source, .time]

/-- The name under which a format refers to it. -/
def name : Slot → String
  | .level => "levelname"
  | .message => "message"
  | .source => "name"
  | .time => "asctime"

def ofName? (name : String) : Option Slot := all.find? (·.name == name)

/-- What it is of a record. -/
def text (now : String) (r : Record) : Slot → String
  | .level => r.level.name
  | .message => r.message
  | .source => r.sourceName
  | .time => now

end Slot

/-! ## References -/

/-- A width or a precision. -/
inductive Extent where
  | digits (n : Nat)
  /-- A star: a whole number among the values tells it. -/
  | star
  deriving DecidableEq, Repr

/-- How the value of a reference is written. -/
structure Manner where
  flags : List Char
  width : Option Extent
  precision : Option Extent
  /-- The kind of value; none where the format ends before the letter for it. -/
  letter : Option Char
  deriving DecidableEq, Repr

namespace Manner

/-- The extent that a text starts with, and what comes after it. -/
def extent (cs : List Char) : Option Extent × List Char :=
  match cs with
  | '*' :: cs => (some .star, cs)
  | cs =>
    let digits := cs.takeWhile Char.isDigit
    let n := digits.foldl (fun n c => 10 * n + (c.toNat - '0'.toNat)) 0
    (if digits.isEmpty then none else some (.digits n), cs.dropWhile Char.isDigit)

/-- The precision that a text starts with, after a dot; zero, if the dot stands alone. -/
def precisionOf (cs : List Char) : Option Extent × List Char :=
  match cs with
  | '.' :: cs => ((extent cs).1.getD (.digits 0), (extent cs).2)
  | cs => (none, cs)

def isFlag (c : Char) : Bool := c ∈ ['#', '0', '-', ' ', '+']

/-- The manner that a text starts with, and what comes after it. A letter for the
size of the value may stand before its kind, and means nothing. -/
def ofChars (cs : List Char) : Manner × List Char :=
  let (width, cs') := extent (cs.dropWhile isFlag)
  let (precision, cs') := precisionOf cs'
  let cs' := if cs'.head?.any (· ∈ ['h', 'l', 'L']) then cs'.tail else cs'
  ({ flags := cs.takeWhile isFlag, width, precision, letter := cs'.head? }, cs'.tail)

/-! ## Values -/

/-- The largest width and the largest precision that can be counted. -/
def widest : Nat := 0x7FFFFFFFFFFFFFFF

def mostPrecise : Nat := 0x7FFFFFFF

/-- A value of another kind is wanted. -/
def unfit (what : String) : Crash := ⟨"TypeError", [.text what]⟩

/-- A format that cannot be read to its end, or refers to nothing. -/
def unread (what : String) : Crash := ⟨"ValueError", [.text what]⟩

/-- The letter of a reference whose extents can be told, where a star meets the failure
`atStar`. -/
def checked (m : Manner) (atStar : Crash) : Except Crash Char :=
  match m.width, m.precision with
  | some .star, _ => .error atStar
  | some (.digits n), _ => if widest < n then .error (unread "width too big") else withPrecision
  | none, _ => withPrecision
where
  withPrecision : Except Crash Char :=
    match m.precision with
    | some .star => .error atStar
    | some (.digits n) => if mostPrecise < n then .error (unread "precision too big") else withLetter
    | none => withLetter
  withLetter : Except Crash Char :=
    match m.letter with
    | none => .error (unread "incomplete format")
    | some c => .ok c

/-- A text of at most the precision and at least the width. -/
def fitted (m : Manner) (cs : List Char) : List Char :=
  let cs := match m.precision with
    | some (.digits n) => cs.take n
    | _ => cs
  let blanks := match m.width with
    | some (.digits n) => List.replicate (n - cs.length) ' '
    | _ => []
  if m.flags.contains '-' then cs ++ blanks else blanks ++ cs

/-- A letter that is no kind of value, at its place in the format. -/
def unsupported (c : Char) (place : Nat) : Crash :=
  let shown := if 31 ≤ c.toNat && c.toNat < 127 then c else '?'
  let code := String.ofList (Nat.toDigits 16 c.toNat)
  unread s!"unsupported format character '{shown}' (0x{code}) at index {place}"

/-- A text as a reference writes it that ends at this place of the format. -/
def write (m : Manner) (place : Nat) (s : String) : Except Crash (List Char) := do
  let c ← m.checked (unfit "* wants int")
  if c = 's' then return m.fitted s.toList
  else if c = 'r' then return m.fitted (Text.quoted s).toList
  else if c = 'a' then return m.fitted (Text.quotedPlainly s).toList
  else if c = 'c' then
    if s.length = 1 then return m.fitted s.toList else throw (unfit "%c requires int or char")
  else if c ∈ ['d', 'i', 'u'] then throw (unfit s!"%{c} format: a real number is required, not str")
  else if c ∈ ['x', 'X', 'o'] then throw (unfit s!"%{c} format: an integer is required, not str")
  else if c ∈ ['e', 'E', 'f', 'F', 'g', 'G'] then throw (unfit "must be real number, not str")
  else throw (unsupported c place)

end Manner

/-! ## Formats -/

/-- How a record is written. -/
abbrev Format := String

namespace Format

/-- The format of a bare message. -/
def bare : Format := "%(message)s"

/-- The format that is used: an empty one stands for the bare message. -/
def used (f : Format) : Format := if f = "" then bare else f

/-- What comes after a text that takes up one or more characters of a kind, or nothing
if it does not. -/
def after1? (kind : Char → Bool) (cs : List Char) : Option (List Char) :=
  if cs.head?.any kind then some (cs.dropWhile kind) else none

/-- What comes after a width: a star or digits of any script. -/
def afterExtent? : List Char → Option (List Char)
  | '*' :: cs => some cs
  | cs => after1? Text.isDecimalDigit cs

/-- What comes after a name between parentheses that is a word. -/
def afterKey? : List Char → Option (List Char)
  | '%' :: '(' :: cs =>
    match after1? Text.isWordChar cs with
    | some (')' :: cs) => some cs
    | _ => none
  | _ => none

/-- Whether a text starts with a well formed reference. Its letter is well formed in
either case. -/
def opens (cs : List Char) : Bool :=
  match afterKey? cs with
  | none => false
  | some cs =>
    let cs := cs.dropWhile Manner.isFlag
    let cs := (afterExtent? cs).getD cs
    let cs := match cs with
      | '.' :: rest => (afterExtent? rest).getD cs
      | _ => cs
    cs.head?.any fun c => "diouxefgcrsa%".toList.any (Text.sameLetter c)

/-- Whether a text refers to anything. -/
def refers : List Char → Bool
  | [] => false
  | c :: cs => opens (c :: cs) || refers cs

/-- Whether a format says anything of a record. -/
def isValid (f : Format) : Bool := refers f.used.toList

/-- The name up to the parenthesis that closes it, and what comes after: `depth` more
parentheses have been opened. -/
def keyUpTo (depth : Nat) : List Char → Option (List Char × List Char)
  | [] => none
  | ')' :: cs =>
    match depth with
    | 0 => some ([], cs)
    | depth + 1 => (keyUpTo depth cs).map fun (key, rest) => (')' :: key, rest)
  | '(' :: cs => (keyUpTo (depth + 1) cs).map fun (key, rest) => ('(' :: key, rest)
  | c :: cs => (keyUpTo depth cs).map fun (key, rest) => (c :: key, rest)

/-- What is known of a record beyond what it says of itself (where it was made, its
thread and process), as a reference to it is written; without a name the record as
a whole. -/
abbrev Beyond := Record → Option String → Manner → Except Crash String

/-- Nothing more is known. -/
def nothingBeyond : Beyond := fun _ key _ =>
  .error (Manner.unread ("Formatting field not found in record: " ++ Text.quoted (key.getD "")))

/-- What a percent sign stands for that is not the last of a pair, by what comes after
it, and the characters that this takes up. Only the first reference can do without a
name. -/
def reference (beyond : Beyond) (now : String) (r : Record) (first : Bool) (place : Nat) (cs : List Char) :
    Except Crash (List Char × Nat) :=
  match cs with
  | '(' :: rest =>
    match keyUpTo 0 rest with
    | none => .error (Manner.unread "incomplete format key")
    | some (key, rest) =>
      let (manner, rest) := Manner.ofChars rest
      let taken := cs.length - rest.length
      let written :=
        match Slot.ofName? (String.ofList key) with
        | some slot => manner.write (place + taken) (slot.text now r)
        | none => (beyond r (some (String.ofList key)) manner).map String.toList
      written.map (·, taken)
  | cs =>
    let (manner, rest) := Manner.ofChars cs
    let noMore := Manner.unfit "not enough arguments for format string"
    if first then do
      let _ ← manner.checked (Manner.unfit "* wants int")
      return ((← beyond r none manner).toList, cs.length - rest.length)
    else manner.checked noMore >>= fun _ => throw noMore

/-- The text of a record: `skipped` characters belong to what came before, `place` is the
next one's, and two percent signs stand for one. -/
def fill (beyond : Beyond) (now : String) (r : Record) (first : Bool) (place skipped : Nat) :
    List Char → Except Crash (List Char)
  | [] => .ok []
  | c :: cs =>
    match skipped with
    | k + 1 => fill beyond now r first (place + 1) k cs
    | 0 =>
      if c ≠ '%' then (fill beyond now r first (place + 1) 0 cs).map (c :: ·)
      else if cs.head? = some '%' then (fill beyond now r first (place + 1) 1 cs).map (c :: ·)
      else do
        let (written, taken) ← reference beyond now r first place cs
        return written ++ (← fill beyond now r false (place + 1) taken cs)

/-- A record as it is written, with a line about its fault if it has one. -/
def render (f : Format) (beyond : Beyond) (now : String) (r : Record) : Except Crash String := do
  let text := String.ofList (← fill beyond now r true 0 0 f.used.toList)
  match r.fault with
  | none => return text
  | some fault =>
    return (if text.toList.getLast? == some '\n' then text else text ++ "\n")
      ++ "Traceback: " ++ (Crash.ofFault fault).line

end Format
end ComponentUsage
