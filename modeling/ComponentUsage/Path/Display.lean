import ComponentUsage.Path.Place
/-!
# Displayed paths

Paths as they are shown: relative to a base directory, the names joined by a
separator of choice.
-/

namespace ComponentUsage

/-- The names that two lists have in common at their start. -/
def Path.shared : List String → List String → List String
  | a :: as, b :: bs => if a = b then a :: Path.shared as bs else []
  | _, _ => []

namespace Place

/-- The segments that lead from one directory to a path: up to what they share,
and down again. -/
def relative (here : Place) (p base : String) : List String :=
  let target := Path.names (here.absolute p)
  let start := Path.names (here.absolute base)
  let n := (Path.shared start target).length
  List.replicate (start.length - n) ".." ++ target.drop n

/-- The pieces of a name between backslashes. -/
def pieces (name : String) : List String :=
  (name.toList.splitOn '\\').map String.ofList

/-- The segments of a displayed path: a backslash in a name counts as a slash. -/
def displaySegments (here : Place) (p base : String) : List String :=
  ((here.relative p base).flatMap pieces).filter fun s => s ≠ "" && s ≠ "."

/-- A path relative to a base directory. -/
def display (here : Place) (p base separator : String) : String :=
  separator.intercalate (here.displaySegments p base)

/-- Whether a path is a directory or lies below it. -/
def isWithin (here : Place) (p dir : String) : Bool :=
  let p := here.absolute p
  let dir := here.absolute dir
  "/" ++ "/".intercalate (Path.shared (Path.names p) (Path.names dir)) == dir

/-- A template's path, from the directory that holds the source root; none for a
component without a template. -/
def displayTemplate (here : Place) (template : Option String) (sourceRoot separator : String) :
    Option String :=
  match template with
  | none => none
  | some p =>
    if p = "" then none
    else
      let root := Path.base (here.absolute sourceRoot)
      some (separator.intercalate [".", root, here.display p sourceRoot separator])

end Place
end ComponentUsage
