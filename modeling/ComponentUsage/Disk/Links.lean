import ComponentUsage.Disk.Storage
/-!
# Links

A disk on which links lead somewhere. A program sees in the place of a link what it
leads to, and writes there; a link that leads nowhere may come to lead somewhere when
something is made.
-/

namespace ComponentUsage

/-! ## Along a path -/

/-- Where a path leads. -/
inductive Course where
  /-- It leads to a place; that many more links could be followed. -/
  | arrived (left : Nat) (place : List String)
  /-- It leads no further than to a place, for that cause, with those segments left. -/
  | halted (cause : Cause) (place rest : List String)
  deriving DecidableEq, Repr

namespace Course

/-- The place to which a path leads, or the one to which it leads last. -/
def place : Course → List String
  | .arrived _ place => place
  | .halted _ place _ => place

/-- Goes along the segments of a path from a place, as far as folders and names lead;
`what` tells what stands at a place. What is made of that is told by `arrive`, at the end
of the path, by `halt`, where it ends too early, and by `link`, at the first link; the
latter two are given the place and the segments after it. -/
def along {α : Type} (what : List String → Option Node) (arrive : List String → α)
    (halt : Cause → List String → List String → α) (link : List String → List String → α) :
    List String → List String → α
  | place, [] => arrive place
  | place, segment :: rest =>
    match what place with
    | some (.folder _) =>
      if segment = "" || segment = "." then along what arrive halt link place rest
      else if segment = ".." then along what arrive halt link place.dropLast rest
      else
        match what (place ++ [segment]) with
        | none =>
          halt (if Node.nameLimit < segment.utf8ByteSize then .nameTooLong else .missing)
            (place ++ [segment]) rest
        | some .dangling => link (place ++ [segment]) rest
        | some _ => along what arrive halt link (place ++ [segment]) rest
    | _ => halt .notFolder place (segment :: rest)

/-- So many links are followed on one path. -/
def limit : Nat := 40

/-- The place from which the path of a link is followed. -/
def start (link : List String) (target : String) : List String :=
  if Path.isAbsolute target then [] else link.dropLast

/-- Where segments lead from a place, if no more than a number of links is followed. A link
stands for the path that is its target; one without a target, or one too many, leads nowhere. -/
def follow (what : List String → Option Node) (target : List String → Option String) :
    Nat → List String → List String → Course
  | 0 => along what (.arrived 0) .halted (.halted .missing)
  | left + 1 =>
    along what (.arrived (left + 1)) .halted fun link rest =>
      match target link with
      | none => .halted .missing link rest
      | some p => Course.follow what target left (start link p) (Path.segments p ++ rest)

end Course

namespace Node

mutual

/-- A tree, which stands at a place, with something else in place of each link. -/
def dissolve (shown : List String → Node) (place : List String) : Node → Node
  | .file content => .file content
  | .folder es => .folder (dissolveAll shown place es)
  | .dangling => shown place

def dissolveAll (shown : List String → Node) (place : List String) :
    List (String × Node) → List (String × Node)
  | [] => []
  | (name, n) :: es => (name, n.dissolve shown (place ++ [name])) :: dissolveAll shown place es

end

/-- What would stand at a place if there were a folder wherever there is no link. -/
def cleared (n : Node) (place : List String) : Option Node :=
  match n.get? place with
  | some .dangling => some .dangling
  | _ => some (.folder [])

end Node

/-! ## A disk -/

/-- A disk with links: `world` is the disk with all of them dangling. -/
structure Linked where
  world : World
  /-- The path that the link at a place stands for. A link without one leads nowhere. -/
  target : List String → Option String

namespace Linked

/-- The tree of a disk, with all links dangling. -/
def root (d : Linked) : Node := d.world.root

/-- The disk with another tree. -/
def withRoot (d : Linked) (root : Node) : Linked := { d with world := { d.world with root } }

/-- Where names lead from the root. -/
def find (d : Linked) (names : List String) : Course :=
  Course.follow d.root.get? d.target Course.limit [] names

/-- The place to which names lead, or the one to which they lead last. -/
def ends (d : Linked) (names : List String) : List String := (d.find names).place

/-- The place that names mean: the one to which they would lead if all that is missing on
the way were there. -/
def meant (d : Linked) (names : List String) : List String :=
  match Course.follow d.root.cleared d.target Course.limit [] names with
  | .arrived _ place => place
  | .halted _ place rest => place ++ rest

/-! ## What is seen -/

/-- What stands at a place of the tree. -/
def stands (d : Linked) (place : List String) : Node := (d.root.get? place).getD .dangling

/-- What is seen where segments lead, if no more than a number of links is followed. -/
def view (d : Linked) : Nat → List String → List String → Node
  | 0 =>
    Course.along d.root.get? (fun place => (d.stands place).dissolve (fun _ => .dangling) place)
      (fun _ _ _ => .dangling) (fun _ _ => .dangling)
  | left + 1 =>
    let beyond (link rest : List String) : Node :=
      match d.target link with
      | none => .dangling
      | some p => d.view left (Course.start link p) (Path.segments p ++ rest)
    Course.along d.root.get? (fun place => (d.stands place).dissolve (beyond · []) place)
      (fun _ _ _ => .dangling) beyond

/-- The disk as a program sees it. A link that leads nowhere is seen as such, and so is one
of a round of links. Where a program follows `..` on a path it comes back to the folder
that it passed before, be that a link. -/
def seen (d : Linked) : World := { d.world with root := d.view Course.limit [] [] }

/-! ## Changes -/

/-- Stops at names that no disk takes. -/
def checkNames (names : List String) : Except Cause Unit :=
  if names.all (·.utf8ByteSize ≤ Node.nameLimit) then .ok () else .error .nameTooLong

/-- The place that is to be made under some names: the folders are followed to it. -/
def newPlace (d : Linked) (names : List String) : Except Cause (List String) :=
  match names.getLast? with
  | none => .ok []
  | some name =>
    match d.find names.dropLast with
    | .arrived _ place => (checkNames names).map fun () => place ++ [name]
    | .halted cause _ _ => .error cause

/-- The place of a file to be written under some names: links are followed to it. -/
def filePlace (d : Linked) (names : List String) : Except Cause (List String) :=
  match d.find names with
  | .arrived _ place | .halted .missing place [] => (checkNames names).map fun () => place
  | .halted cause _ _ => .error cause

/-- Makes one folder. -/
def makeFolder (d : Linked) (slashes : String) (names : List String) : Except Fault Linked := do
  let p := World.pathOf slashes names
  World.checkPath p
  match d.newPlace names >>= d.root.makeFolder with
  | .ok root => return d.withRoot root
  | .error cause => throw (.disk cause p)

/-- Writes the file at an absolute path. Behind a link that leads to a place in a folder
the file is made there. -/
def write (d : Linked) (full : String) (content : ByteArray) : Except Fault Linked := do
  World.checkPath full
  match d.filePlace (Path.names full) >>= d.root.write content with
  | .ok root => return d.withRoot root
  | .error cause => throw (.disk cause full)

instance : Storage Linked := ⟨seen, makeFolder, write⟩

theorem storage_seen (d : Linked) : Storage.seen d = d.seen := rfl

theorem here_seen (d : Linked) : d.seen.here = d.world.here := rfl

end Linked
end ComponentUsage
