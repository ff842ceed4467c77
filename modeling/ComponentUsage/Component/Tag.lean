import ComponentUsage.Text.Blank
import ComponentUsage.Text.Letter
/-!
# Tags in templates

A template uses a component by opening a tag named after its selector. The case
of letters does not matter, and the name ends where the tag's name ends.
-/

namespace ComponentUsage.Tag

/-- Characters that end the name of a tag. -/
def endsName (c : Char) : Bool := Text.isBlank c || c == '>' || c == '/'

/-- What follows a name, if a text starts with it in whatever case. -/
def afterName? : List Char → List Char → Option (List Char)
  | [], cs => some cs
  | a :: as, c :: cs => if Text.sameLetter a c then afterName? as cs else none
  | _ :: _, [] => none

/-- Whether a text starts by opening a tag of that name. -/
def opensHere (name : List Char) : List Char → Bool
  | '<' :: cs =>
    match afterName? name cs with
    | some (c :: _) => endsName c
    | _ => false
  | _ => false

/-- Whether a tag of that name is opened anywhere in a text. -/
def opensIn (name : List Char) : List Char → Bool
  | [] => false
  | c :: cs => opensHere name (c :: cs) || opensIn name cs

/-- Whether a template uses the component with that selector. -/
def uses (template selector : String) : Bool :=
  selector ≠ "" && opensIn selector.toList template.toList

end ComponentUsage.Tag
