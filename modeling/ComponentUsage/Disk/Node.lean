import ComponentUsage.Disk.Fault
import ComponentUsage.Table
/-!
# The tree of a disk

Files and folders by name, with the operations that read the tree and that
change it at one place. `get?` is the view that the laws speak of: what stands
at a list of names.
-/

namespace ComponentUsage

/-- A place of a disk and what is below it. -/
inductive Node where
  | file (content : ByteArray)
  | folder (entries : List (String × Node))
  /-- A link. In the tree alone it leads nowhere and nothing can be made behind it; where links
  lead somewhere is told beside the tree (`Disk/Links`). -/
  | dangling
  deriving Inhabited

namespace Node

def isFolder : Node → Bool
  | .folder _ => true
  | _ => false

def isFile : Node → Bool
  | .file _ => true
  | _ => false

/-- The names and nodes in a folder. -/
def entries : Node → List (String × Node)
  | .folder es => es
  | _ => []

/-- What stands at a list of names. -/
def get? : Node → List String → Option Node
  | n, [] => some n
  | n, name :: names => (n.entries.lookup name).bind (get? · names)

/-- The longest name that a disk takes, in bytes. -/
def nameLimit : Nat := 255

/-- Goes along the segments of a path. `above` are the nodes passed on the way,
innermost first: `..` goes back to them, and stays at the root. -/
def follow (above : List Node) (n : Node) : List String → Except Cause Node
  | [] => .ok n
  | segment :: segments =>
    match n with
    | .file _ => .error .notFolder
    | .dangling => .error .missing
    | .folder es =>
      if segment = "" || segment = "." then follow above n segments
      else if segment = ".." then
        match above with
        | [] => follow [] n segments
        | up :: rest => follow rest up segments
      else if nameLimit < segment.utf8ByteSize then .error .nameTooLong
      else
        match es.lookup segment with
        | none => .error .missing
        | some child => follow (n :: above) child segments

/-! ## Changes -/

/-- The tree with a node in place of what stands at the names. The folder that
is to hold it has to be there. -/
def place (n : Node) (new : Node) : List String → Except Cause Node
  | [] => .error .isFolder
  | name :: names =>
    match n with
    | .file _ => .error .notFolder
    | .dangling => .error .missing
    | .folder es =>
      if nameLimit < name.utf8ByteSize then .error .nameTooLong
      else
        match names, es.lookup name with
        | [], _ => .ok (.folder (upsert name new es))
        | _ :: _, none => .error .missing
        | _ :: _, some child => do
          let child ← place child new names
          return .folder (upsert name child es)

/-- The tree with an empty folder made at the names. -/
def makeFolder (n : Node) (names : List String) : Except Cause Node :=
  if names = [] || (n.get? names).isSome then .error .exists
  else n.place (.folder []) names

/-- The tree with a file written at the names. No file is made behind a link. -/
def write (n : Node) (content : ByteArray) (names : List String) : Except Cause Node :=
  match n.get? names with
  | some (.folder _) => .error .isFolder
  | some .dangling => .error .missing
  | _ => n.place (.file content) names

/-- The tree with a node planted at the names, in folders made on the way. A
folder that is there stays when an empty one is planted. -/
def plant (n : Node) (new : Node) : List String → Node
  | [] =>
    match n, new with
    | .folder es, .folder [] => .folder es
    | _, new => new
  | name :: names =>
    .folder (upsert name (plant ((n.entries.lookup name).getD (.folder [])) new names) n.entries)

/-- The tree without what stands at the names. -/
def remove (n : Node) : List String → Node
  | [] => n
  | name :: names =>
    match n with
    | .folder es =>
      match names, es.lookup name with
      | [], _ => .folder (es.filter (·.1 ≠ name))
      | _ :: _, some child => .folder (upsert name (remove child names) es)
      | _ :: _, none => .folder es
    | n => n

/-! ## Files -/

mutual

/-- The files of a tree, each with the names that lead to it. -/
def files : Node → List (List String × ByteArray)
  | .file content => [([], content)]
  | .dangling => []
  | .folder es => filesOf es

/-- The files below the entries of a folder. -/
def filesOf : List (String × Node) → List (List String × ByteArray)
  | [] => []
  | (name, n) :: es => n.files.map (fun (names, c) => (name :: names, c)) ++ filesOf es

end

end Node
end ComponentUsage
