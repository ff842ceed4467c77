import ComponentUsage.Text.PrintableTable
/-!
# Quoted texts

A text between quotes, so that it can be read inside a message: the quotes are
single ones unless only double ones spare an escape, and what is not printed as
itself is written as an escape.
-/

namespace ComponentUsage.Text

/-- A number in base sixteen, with zeros in front up to `width` digits. -/
def hexDigits (width n : Nat) : List Char :=
  let digits := Nat.toDigits 16 n
  List.replicate (width - digits.length) '0' ++ digits

/-- Characters that are not printed as themselves. -/
def isHidden (c : Char) : Bool :=
  hiddenRanges.any fun (first, last) => first ≤ c.toNat && c.toNat ≤ last

/-- A character by its number. -/
def escape (c : Char) : List Char :=
  if c.toNat < 0x100 then '\\' :: 'x' :: hexDigits 2 c.toNat
  else if c.toNat < 0x10000 then '\\' :: 'u' :: hexDigits 4 c.toNat
  else '\\' :: 'U' :: hexDigits 8 c.toNat

/-- A character as it stands between quotes of the kind `mark`. -/
def quoteChar (mark c : Char) : List Char :=
  if c = mark || c = '\\' then ['\\', c]
  else if c = '\n' then ['\\', 'n']
  else if c = '\r' then ['\\', 'r']
  else if c = '\t' then ['\\', 't']
  else if isHidden c then escape c
  else [c]

/-- The quotes to put around a text. -/
def quoteMark (cs : List Char) : Char :=
  if cs.contains '\'' && !cs.contains '"' then '"' else '\''

/-- A text between quotes. -/
def quoted (s : String) : String :=
  let mark := quoteMark s.toList
  String.ofList (mark :: s.toList.flatMap (quoteChar mark) ++ [mark])

/-- A text between quotes in which only characters of the English keyboard stand for
themselves. -/
def quotedPlainly (s : String) : String :=
  String.ofList ((quoted s).toList.flatMap fun c => if c.toNat < 0x80 then [c] else escape c)

end ComponentUsage.Text
