import ComponentUsage.Decimal.Shortest
import ComponentUsage.Json.Basic
import ComponentUsage.Text.Decoding
/-!
# Reading JSON

The value that a text holds. The format is the standard one with three more
numbers, `NaN`, `Infinity` and `-Infinity`; a name that an object repeats keeps
its first place and its last value.
-/

namespace ComponentUsage.Json

/-- The blanks between the parts of a document. -/
def skipBlanks : List Char → List Char :=
  List.dropWhile fun c => c == ' ' || c == '\t' || c == '\n' || c == '\r'

/-! ## Strings -/

/-- The value of a digit in base sixteen. -/
def hexDigit? (c : Char) : Option Nat :=
  if '0' ≤ c && c ≤ '9' then some (c.toNat - 48)
  else if 'a' ≤ c && c ≤ 'f' then some (c.toNat - 87)
  else if 'A' ≤ c && c ≤ 'F' then some (c.toNat - 55)
  else none

/-- The value of four digits in base sixteen. -/
def hexUnit? (a b c d : Char) : Option Nat := do
  return ((← hexDigit? a) * 16 + (← hexDigit? b)) * 256 + (← hexDigit? c) * 16 + (← hexDigit? d)

/-- The character that an escape of one letter stands for. -/
def escape? : Char → Option Char
  | '"' => some '"'
  | '\\' => some '\\'
  | '/' => some '/'
  | 'b' => some '\x08'
  | 'f' => some '\x0c'
  | 'n' => some '\n'
  | 'r' => some '\r'
  | 't' => some '\t'
  | _ => none

/-- The units of a string up to its closing quote, and what follows it. -/
def stringUnits : List Char → Option (List Nat × List Char)
  | [] => none
  | '"' :: cs => some ([], cs)
  | '\\' :: 'u' :: a :: b :: c :: d :: cs => do
    let unit ← hexUnit? a b c d
    let (units, rest) ← stringUnits cs
    return (unit :: units, rest)
  | '\\' :: e :: cs => do
    let c ← escape? e
    let (units, rest) ← stringUnits cs
    return (c.toNat :: units, rest)
  | c :: cs =>
    if c.toNat < 0x20 then none
    else do
      let (units, rest) ← stringUnits cs
      return (c.toNat :: units, rest)

/-- Whether a unit is the first or the second half of a character. -/
def isHighHalf (n : Nat) : Bool := 0xD800 ≤ n && n < 0xDC00
def isLowHalf (n : Nat) : Bool := 0xDC00 ≤ n && n < 0xE000

/-- The characters of units: two halves that stand together are one. A lonely half is
no character of a text here; it becomes a replacement character. -/
def joinUnits : List Nat → List Char
  | [] => []
  | [n] => [if isHighHalf n || isLowHalf n then Text.replacement else Char.ofNat n]
  | n :: m :: units =>
    if isHighHalf n && isLowHalf m then
      Char.ofNat (0x10000 + (n - 0xD800) * 0x400 + (m - 0xDC00)) :: joinUnits units
    else
      (if isHighHalf n || isLowHalf n then Text.replacement else Char.ofNat n) ::
        joinUnits (m :: units)

/-- The text of a string after its opening quote, and what follows it. -/
def stringRest (cs : List Char) : Option (String × List Char) :=
  (stringUnits cs).map fun (units, rest) => (String.ofList (joinUnits units), rest)

/-! ## Numbers -/

def isDigit (c : Char) : Bool := '0' ≤ c && c ≤ '9'

/-- The number that digits stand for. -/
def digitsValue (cs : List Char) : Nat :=
  cs.foldl (fun n c => 10 * n + (c.toNat - 48)) 0

/-- The digits in front, and what follows them. -/
def spanDigits (cs : List Char) : List Char × List Char :=
  (cs.takeWhile isDigit, cs.dropWhile isDigit)

/-- The digits of a whole number: a zero stands alone. -/
def wholeDigits : List Char → List Char × List Char
  | '0' :: cs => (['0'], cs)
  | cs => spanDigits cs

/-- Digits after a point, if there are any. -/
def fractionDigits : List Char → List Char × List Char
  | '.' :: cs =>
    match spanDigits cs with
    | ([], _) => ([], '.' :: cs)
    | (ds, rest) => (ds, rest)
  | cs => ([], cs)

/-- A power of ten after its letter: a sign and digits. -/
def signedDigits : List Char → Option (Int × List Char)
  | '-' :: cs =>
    match spanDigits cs with
    | ([], _) => none
    | (ds, rest) => some (-(digitsValue ds : Int), rest)
  | cs =>
    match spanDigits (match cs with | '+' :: cs => cs | cs => cs) with
    | ([], _) => none
    | (ds, rest) => some (digitsValue ds, rest)

/-- The power of ten that a number has, if any. -/
def power : List Char → Option (Int × List Char)
  | 'e' :: cs => signedDigits cs
  | 'E' :: cs => signedDigits cs
  | _ => none

/-- A number without its sign. A whole number may have `limit` digits. -/
def number (limit : Nat) (negative : Bool) (cs : List Char) : Option (Json × List Char) :=
  match wholeDigits cs with
  | ([], _) => none
  | (whole, cs) =>
    let (fraction, cs) := fractionDigits cs
    match fraction, power cs with
    | [], none =>
      if limit < whole.length then none
      else some (.int (if negative then -(digitsValue whole : Int) else digitsValue whole), cs)
    | _, none =>
      some (.float (Decimal.nearest negative (digitsValue (whole ++ fraction)) (-fraction.length)), cs)
    | _, some (e, cs) =>
      some (.float (Decimal.nearest negative (digitsValue (whole ++ fraction)) (e - fraction.length)), cs)

/-! ## Values -/

mutual

/-- A value and what follows it. The first argument bounds the number of steps:
each takes a character or goes from a list or an object to a part of it. -/
def value (limit : Nat) : Nat → List Char → Option (Json × List Char)
  | 0, _ => none
  | fuel + 1, cs =>
    match cs with
    | '"' :: cs => (stringRest cs).map fun (s, rest) => (.text s, rest)
    | '[' :: cs =>
      match skipBlanks cs with
      | ']' :: rest => some (.list [], rest)
      | cs => (items limit fuel cs).map fun (vs, rest) => (.list vs, rest)
    | '\x7b' :: cs =>
      match skipBlanks cs with
      | '\x7d' :: rest => some (.object [], rest)
      | cs => (members limit fuel cs).map fun (ms, rest) => (ofMembers ms, rest)
    | 'n' :: 'u' :: 'l' :: 'l' :: rest => some (.null, rest)
    | 't' :: 'r' :: 'u' :: 'e' :: rest => some (.bool true, rest)
    | 'f' :: 'a' :: 'l' :: 's' :: 'e' :: rest => some (.bool false, rest)
    | 'N' :: 'a' :: 'N' :: rest => some (.float (0.0 / 0.0), rest)
    | 'I' :: 'n' :: 'f' :: 'i' :: 'n' :: 'i' :: 't' :: 'y' :: rest => some (.float (1.0 / 0.0), rest)
    | '-' :: 'I' :: 'n' :: 'f' :: 'i' :: 'n' :: 'i' :: 't' :: 'y' :: rest =>
      some (.float (-1.0 / 0.0), rest)
    | '-' :: cs => number limit true cs
    | cs => number limit false cs

/-- The items of a list up to its closing bracket. -/
def items (limit : Nat) : Nat → List Char → Option (List Json × List Char)
  | 0, _ => none
  | fuel + 1, cs => do
    let (v, cs) ← value limit fuel cs
    match skipBlanks cs with
    | ']' :: rest => return ([v], rest)
    | ',' :: cs =>
      let (vs, rest) ← items limit fuel (skipBlanks cs)
      return (v :: vs, rest)
    | _ => none

/-- The members of an object up to its closing brace. -/
def members (limit : Nat) : Nat → List Char → Option (List (String × Json) × List Char)
  | 0, _ => none
  | fuel + 1, cs =>
    match cs with
    | '"' :: cs => do
      let (n, cs) ← stringRest cs
      match skipBlanks cs with
      | ':' :: cs =>
        let (v, cs) ← value limit fuel (skipBlanks cs)
        match skipBlanks cs with
        | '\x7d' :: rest => return ([(n, v)], rest)
        | ',' :: cs =>
          let (ms, rest) ← members limit fuel (skipBlanks cs)
          return ((n, v) :: ms, rest)
        | _ => none
      | _ => none
    | _ => none

end

/-- The longest whole number that is read, in digits. -/
def wholeLimit : Nat := 4300

/-- The value that a text holds, with blanks around it. -/
def parse? (text : String) (limit : Nat := wholeLimit) : Option Json :=
  let cs := skipBlanks text.toList
  match value limit (2 * cs.length + 2) cs with
  | some (v, rest) => if (skipBlanks rest).isEmpty then some v else none
  | none => none

end ComponentUsage.Json
