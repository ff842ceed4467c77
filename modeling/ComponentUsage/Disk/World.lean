import ComponentUsage.Disk.Node
import ComponentUsage.Path.Place
import ComponentUsage.Text.Decoding
/-!
# A disk and its reader

What a program meets: a tree of files, the place from which it reads paths, and
the paths that are kept from it. Looking at a path never fails; opening a file
and listing a folder may, and so may making one folder or writing one file.
-/

namespace ComponentUsage

/-- A disk as one program sees it: a link that leads somewhere is what it leads to
(`Disk/Links` tells how a disk with links is seen). -/
structure World where
  root : Node
  here : Place
  /-- Absolute paths of files that the program may not read or write and of folders
  that it may not list, though it sees that they are there. Where it may not even see
  what is below a folder, that is not in the tree. -/
  locked : List String := []
  /-- Absolute paths at which no log file may be opened. -/
  sealed : List String := []
  /-- Absolute paths at which the user stops the program. -/
  interrupting : List String := []

namespace World

/-- Stops at a text that is no path, or too long for one. -/
def checkPath (p : String) : Except Fault Unit :=
  if p.toList.contains (Char.ofNat 0) then .error .zeroInPath
  else if Path.limit ≤ p.utf8ByteSize then .error (.disk .nameTooLong p)
  else .ok ()

/-- What stands at a path. -/
def find (w : World) (p : String) : Except Fault Node := do
  checkPath p
  if p = "" then throw (.disk .missing p)
  (w.root.follow [] (Path.segments (Path.join w.here.workingDirectory p))).mapError (.disk · p)

def isFile (w : World) (p : String) : Bool :=
  match w.find p with
  | .ok n => n.isFile
  | .error _ => false

def isFolder (w : World) (p : String) : Bool :=
  match w.find p with
  | .ok n => n.isFolder
  | .error _ => false

/-- Whether a path leads to a file or a folder. -/
def exists? (w : World) (p : String) : Bool := w.isFile p || w.isFolder p

/-- Stops at a path that cannot be opened or listed. -/
def allow (w : World) (p : String) : Except Fault Unit :=
  let full := w.here.absolute p
  if w.interrupting.contains full then .error .interrupted
  else if w.locked.contains full then .error (.disk .denied p)
  else .ok ()

/-! ## Reading -/

/-- The bytes of a file. -/
def read (w : World) (p : String) : Except Fault ByteArray := do
  w.allow p
  match ← w.find p with
  | .file content => return content
  | .folder _ => throw (.disk .isFolder p)
  | .dangling => throw (.disk .missing p)

/-- The text of a file, whatever its bytes. -/
def readText (w : World) (p : String) : Except Fault String :=
  (w.read p).map Text.ofBytes

/-- The names in a folder, in the order of their characters. -/
def list (w : World) (p : String) : Except Fault (List String) := do
  w.allow p
  match ← w.find p with
  | .folder entries => return (entries.map Prod.fst).mergeSort fun a b => !(b < a)
  | .file _ => throw (.disk .notFolder p)
  | .dangling => throw (.disk .missing p)

/-! ## Writing -/

/-- An absolute path in normal form: the slashes in front, and the names. -/
def pathOf (slashes : String) (names : List String) : String :=
  slashes ++ "/".intercalate names

/-- Makes one folder. -/
def makeFolder (w : World) (slashes : String) (names : List String) : Except Fault World := do
  let p := pathOf slashes names
  checkPath p
  match w.root.makeFolder names with
  | .ok root => return { w with root }
  | .error cause => throw (.disk cause p)

/-- Writes the file at an absolute path. -/
def write (w : World) (full : String) (content : ByteArray) : Except Fault World := do
  checkPath full
  match w.root.write content (Path.names full) with
  | .ok root => return { w with root }
  | .error cause => throw (.disk cause full)

end World
end ComponentUsage
