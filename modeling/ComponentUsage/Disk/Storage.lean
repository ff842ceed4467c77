import ComponentUsage.Disk.World
/-!
# Saving on a disk

A program sees a disk, makes one folder and writes one file in it. Whatever the disk
is, a text is then saved in the same way: the folders that are to hold it are made
first, each unless it is there.
-/

namespace ComponentUsage

/-- A disk as a program works on it. -/
class Storage (D : Type) where
  /-- What the program sees of it. -/
  seen : D → World
  /-- Makes one folder. -/
  makeFolder : D → String → List String → Except Fault D
  /-- Writes the file at an absolute path. -/
  write : D → String → ByteArray → Except Fault D

namespace Storage

variable {D : Type} [Storage D]

/-- Makes one folder, which may be there. -/
def makeLast (d : D) (slashes : String) (names : List String) : D × Except Fault Unit :=
  match makeFolder d slashes names with
  | .ok d => (d, .ok ())
  | .error (.disk cause p) => if (seen d).isFolder p then (d, .ok ()) else (d, .error (.disk cause p))
  | .error fault => (d, .error fault)

/-- Goes on to one more folder, unless those above it could not be made. -/
def goOn (above : D × Except Fault Unit) (slashes : String) (names : List String) :
    D × Except Fault Unit :=
  match above.2 with
  | .ok () => makeLast above.1 slashes names
  | .error (.disk .exists _) => makeLast above.1 slashes names
  | .error fault => (above.1, .error fault)

/-- Makes a folder and those above it, given by its names, innermost first. What
is made before a failure stays. -/
def makeFolders (d : D) (slashes : String) : List String → D × Except Fault Unit
  | [] => (d, .ok ())
  | name :: above =>
    goOn (if (seen d).exists? (World.pathOf slashes above.reverse) then (d, .ok ())
      else makeFolders d slashes above) slashes (name :: above).reverse

/-- Makes the folders that are to hold an absolute path. -/
def makeParents (d : D) (full : String) : D × Except Fault Unit :=
  makeFolders d (Path.leadingSlashes full) (Path.names full).reverse.tail

/-- Writes the file at an absolute path, if it may be opened. -/
def put (d : D) (full : String) (content : ByteArray) : D × Except Fault Unit :=
  match (seen d).allow full >>= fun () => write d full content with
  | .ok d => (d, .ok ())
  | .error fault => (d, .error fault)

/-- Saves a text at a path, in folders made for it. What is made before a failure
stays. -/
def save (d : D) (p text : String) : D × Except Fault Unit :=
  let full := (seen d).here.absolute p
  match makeParents d full with
  | (d, .error fault) => (d, .error fault)
  | (d, .ok ()) => put d full text.toUTF8

end Storage

/-! ## A disk that is all that is seen -/

namespace World

instance : Storage World where
  seen w := w
  makeFolder := makeFolder
  write := write

/-- Saves a text at a path. -/
def save (w : World) (p text : String) : World × Except Fault Unit := Storage.save w p text

theorem seen_eq (w : World) : Storage.seen w = w := rfl

theorem storage_save (w : World) (p text : String) : Storage.save w p text = w.save p text := rfl

end World
end ComponentUsage
