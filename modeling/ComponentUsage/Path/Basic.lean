/-!
# Paths

Paths are texts whose names stand between slashes. A path that starts with a
slash is absolute; exactly two slashes in front are kept apart from one.
-/

namespace ComponentUsage.Path

/-- What stands between the slashes of a path. -/
def segments (p : String) : List String :=
  (p.toList.splitOn '/').map String.ofList

/-- The names of a path: its segments that are not empty. -/
def names (p : String) : List String :=
  (segments p).filter (· ≠ "")

def isAbsolute (p : String) : Bool := p.toList.head? == some '/'

/-- A path seen from another one. -/
def join (base p : String) : String :=
  if isAbsolute p then p
  else if base = "" || base.toList.getLast? == some '/' then base ++ p
  else base ++ "/" ++ p

/-- A path has fewer bytes than this. -/
def limit : Nat := 4096

/-! ## Normal form -/

/-- The names above the current one, innermost first, after one more segment:
`..` takes a name back, unless there is none to take. -/
def step (rooted : Bool) (above : List String) (segment : String) : List String :=
  if segment = "" || segment = "." then above
  else if segment = ".." then
    match above with
    | [] => if rooted then [] else [".."]
    | name :: rest => if name = ".." then ".." :: above else rest
  else segment :: above

/-- The slashes in front of a path that matter: none, one or two. -/
def leadingSlashes (p : String) : String :=
  match p.toList with
  | '/' :: '/' :: '/' :: _ => "/"
  | '/' :: '/' :: _ => "//"
  | '/' :: _ => "/"
  | _ => ""

/-- A path without empty segments, `.` and what `..` takes back. -/
def normalize (p : String) : String :=
  let slashes := leadingSlashes p
  let above := (segments p).foldl (step (slashes ≠ "")) []
  let text := slashes ++ "/".intercalate above.reverse
  if text = "" then "." else text

/-! ## Parts -/

/-- The characters up to and including the last slash, and those after it. -/
def splitLast (cs : List Char) : List Char × List Char :=
  ((cs.reverse.dropWhile (· ≠ '/')).reverse, (cs.reverse.takeWhile (· ≠ '/')).reverse)

/-- The directory of a path and its last segment. The slashes between them belong
to neither, unless the directory is all slashes. -/
def split (p : String) : String × String :=
  let (head, tail) := splitLast p.toList
  let stripped := (head.reverse.dropWhile (· == '/')).reverse
  (String.ofList (if stripped.isEmpty then head else stripped), String.ofList tail)

def directory (p : String) : String := (split p).1

def base (p : String) : String := (split p).2

/-- A path and its extension, which starts with the last dot of the last
segment; dots that a segment starts with are no extension's. -/
def splitExtension (p : String) : String × String :=
  let (head, name) := splitLast p.toList
  let ext := (name.reverse.takeWhile (· ≠ '.')).reverse
  let stem := (name.reverse.dropWhile (· ≠ '.')).tail.reverse
  if stem.any (· ≠ '.') then (String.ofList (head ++ stem), String.ofList ('.' :: ext))
  else (p, "")

end ComponentUsage.Path
