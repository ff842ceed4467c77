import ComponentUsage.Decimal.Written
import ComponentUsage.Json.Basic
import ComponentUsage.Text.Quoted
/-!
# JSON texts

How JSON values are written: as a document, on one line or indented, and as a
literal inside a message.
-/

namespace ComponentUsage.Json

/-! ## Documents -/

/-- How the parts of a list or an object are set apart. -/
inductive Layout where
  /-- All on one line. -/
  | line
  /-- Each part on a line of its own, two spaces further in. -/
  | indented
  deriving DecidableEq, Repr

/-- A line end and the blanks in front of the next line. -/
def lineStart (depth : Nat) : List Char :=
  '\n' :: List.replicate (2 * depth) ' '

/-- What stands between a bracket and the parts in it. -/
def Layout.edge : Layout → Nat → List Char
  | .line, _ => []
  | .indented, depth => lineStart depth

/-- What stands between two parts. -/
def Layout.comma : Layout → Nat → List Char
  | .line, _ => [',', ' ']
  | .indented, depth => ',' :: lineStart depth

/-- A character inside a string of a document. -/
def escapeChar (c : Char) : List Char :=
  if c = '"' then ['\\', '"']
  else if c = '\\' then ['\\', '\\']
  else if c = '\n' then ['\\', 'n']
  else if c = '\r' then ['\\', 'r']
  else if c = '\t' then ['\\', 't']
  else if c = '\x08' then ['\\', 'b']
  else if c = '\x0c' then ['\\', 'f']
  else if c.toNat < 0x20 then '\\' :: 'u' :: Text.hexDigits 4 c.toNat
  else [c]

/-- A string of a document. -/
def stringChars (s : String) : List Char :=
  '"' :: s.toList.flatMap escapeChar ++ ['"']

/-- A whole number. -/
def intChars (n : Int) : List Char :=
  (if n < 0 then ['-'] else []) ++ Nat.toDigits 10 n.natAbs

/-- Numbers of a document have a power of ten from `1e+16` up and below
`0.0001`. -/
def numberStyle : Decimal.Style :=
  { least := -4, bound := 16, notANumber := "NaN", infinite := "Infinity" }

mutual

/-- The characters of a value whose own lines are `depth` levels in. -/
def chars (layout : Layout) (depth : Nat) : Json → List Char
  | .null => ['n', 'u', 'l', 'l']
  | .bool true => ['t', 'r', 'u', 'e']
  | .bool false => ['f', 'a', 'l', 's', 'e']
  | .int n => intChars n
  | .float x => (numberStyle.text x).toList
  | .text s => stringChars s
  | .list [] => ['[', ']']
  | .list (v :: vs) =>
    '[' :: layout.edge (depth + 1) ++ chars layout (depth + 1) v ++
      itemChars layout (depth + 1) vs ++ layout.edge depth ++ [']']
  | .object [] => ['\x7b', '\x7d']
  | .object ((n, v) :: ms) =>
    '\x7b' :: layout.edge (depth + 1) ++ stringChars n ++ [':', ' '] ++
      chars layout (depth + 1) v ++ memberChars layout (depth + 1) ms ++ layout.edge depth ++ ['\x7d']

/-- The characters of the items that follow a first one. -/
def itemChars (layout : Layout) (depth : Nat) : List Json → List Char
  | [] => []
  | v :: vs => layout.comma depth ++ chars layout depth v ++ itemChars layout depth vs

/-- The characters of the members that follow a first one. -/
def memberChars (layout : Layout) (depth : Nat) : List (String × Json) → List Char
  | [] => []
  | (n, v) :: ms =>
    layout.comma depth ++ stringChars n ++ [':', ' '] ++ chars layout depth v ++
      memberChars layout depth ms

end

/-- The text of a value. -/
def print (layout : Layout) (v : Json) : String := String.ofList (v.chars layout 0)

/-! ## Literals -/

/-- Numbers of a literal differ from those of a document where there is no
number. -/
def literalStyle : Decimal.Style :=
  { numberStyle with notANumber := "nan", infinite := "inf" }

mutual

/-- A value as it is shown inside a message. -/
def literal : Json → String
  | .null => "None"
  | .bool true => "True"
  | .bool false => "False"
  | .int n => String.ofList (intChars n)
  | .float x => literalStyle.text x
  | .text s => Text.quoted s
  | .list vs => "[" ++ ", ".intercalate (literals vs) ++ "]"
  | .object ms => "\x7b" ++ ", ".intercalate (memberLiterals ms) ++ "\x7d"

/-- Several values, each as a literal. -/
def literals : List Json → List String
  | [] => []
  | v :: vs => literal v :: literals vs

/-- Several members, each as a literal. -/
def memberLiterals : List (String × Json) → List String
  | [] => []
  | (n, v) :: ms => (Text.quoted n ++ ": " ++ literal v) :: memberLiterals ms

end

end ComponentUsage.Json
