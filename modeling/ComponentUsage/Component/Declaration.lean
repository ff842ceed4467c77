import ComponentUsage.Text.Blank
/-!
# Declared names

A definition file declares the selector of its component after a label: the
label, a colon and a text between quotes, with blanks around the colon. The
first declaration of a file counts, and a blank one declares nothing.
-/

namespace ComponentUsage.Declaration

/-- The two quotes. A declaration may open with one and close with the other. -/
def isQuote (c : Char) : Bool := c == '\'' || c == '"'

/-- The characters between an opening quote and the next quote of that line. -/
def body? : List Char → Option (List Char)
  | [] => none
  | c :: cs =>
    if isQuote c then some []
    else if c = '\n' then none
    else (body? cs).map (c :: ·)

/-- What follows some characters, if a text starts with them. -/
def after? : List Char → List Char → Option (List Char)
  | [], cs => some cs
  | a :: as, c :: cs => if a = c then after? as cs else none
  | _ :: _, [] => none

/-- The body of the declaration that a text starts with. -/
def here? (label cs : List Char) : Option (List Char) := do
  let cs ← after? label cs
  match cs.dropWhile Text.isBlank with
  | ':' :: cs =>
    match cs.dropWhile Text.isBlank with
    | c :: cs => if isQuote c then body? cs else none
    | [] => none
  | _ => none

/-- The body of the first declaration in a text. -/
def first? (label : List Char) : List Char → Option (List Char)
  | [] => none
  | c :: cs =>
    match here? label (c :: cs) with
    | some body => some body
    | none => first? label cs

/-- The name that a text declares under a label. -/
def name? (text label : String) : Option String :=
  match first? label.toList text.toList with
  | none => none
  | some body =>
    let name := Text.trimChars body
    if name.isEmpty then none else some (String.ofList name)

end ComponentUsage.Declaration
