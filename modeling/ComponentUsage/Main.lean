import ComponentUsage.App
import Std.Time
/-!
# The command line

What stands between a call and the system: the part of the disk that the call
works on is loaded, the call is made, and what it changed is stored.
-/

namespace ComponentUsage

/-! ## Loading -/

/-- The longest chain of folders that a path of the system can name. -/
def deepest : Nat := 2048

/-- What stands at a name in a folder. -/
def entryAt (dir name : String) : IO.FS.DirEntry := { root := dir, fileName := name }

/-- What a path leads to, if it leads anywhere. -/
def typeOf (dir name : String) : IO (Option IO.FS.FileType) := do
  try return some (← (entryAt dir name).path.metadata).type
  catch _ => return none

/-- A disk with a node at an absolute path. -/
def World.hold (w : World) (full : String) (n : Node) : World :=
  { w with root := w.root.plant n (Path.names full) }

/-- A disk with a path that cannot be opened. -/
def World.lock (w : World) (full : String) : World := { w with locked := full :: w.locked }

/-- Loads a file. -/
def World.loadFile (w : World) (full : String) : IO World := do
  try return w.hold full (.file (← IO.FS.readBinFile full))
  catch _ => return (w.hold full (.file .empty)).lock full

/-- Loads what stands at a name in a folder. Of a folder what lies below it is
loaded as well, down to a depth. -/
def World.loadEntry (w : World) (depth : Nat) (dir name : String) : IO World := do
  let full := Path.join dir name
  match ← typeOf dir name with
  | none => return w
  | some .dir =>
    let w := w.hold full (.folder [])
    match depth with
    | 0 => return w
    | depth + 1 =>
      try
        let entries ← (entryAt dir name).path.readDir
        entries.foldlM (fun w entry => do
          match ← typeOf full entry.fileName with
          | none => return w.hold (Path.join full entry.fileName) .dangling
          | some _ => w.loadEntry depth full entry.fileName) w
      catch _ => return w.lock full
  | some _ => w.loadFile full

/-- Loads what stands at an absolute path, and the folders on the way to it. -/
def World.load (w : World) (depth : Nat) (full : String) : IO World := do
  let (w, _) ← (Path.names full).foldlM (fun (w, dir) name => do
    let last := Path.join dir name == full
    return (← w.loadEntry (if last then depth else 0) dir name, Path.join dir name)) (w, "/")
  return w

/-- The variables of the process. -/
def environment : IO (Table String) := do
  try
    let entries := (Text.verbatim (← IO.FS.readBinFile "/proc/self/environ")).splitOn "\x00"
    return .ofList ((entries.map CommandLine.cutAtEquals).filterMap id)
  catch _ => return .empty

/-- What the system has about a user. -/
structure User where
  name : String
  number : String
  home : String

/-- The user that a line is about. -/
def User.ofLine (line : String) : Option User :=
  match line.splitOn ":" with
  | [name, _, number, _, _, home, _] => some { name, number, home }
  | _ => none

/-- The lines of a file of the system. -/
def linesOf (path : String) : IO (List String) := do
  try return (Text.verbatim (← IO.FS.readBinFile path)).splitOn "\n"
  catch _ => return []

/-- The number of the user that the process belongs to. -/
def userNumber : IO (Option String) := do
  return (← linesOf "/proc/self/status").findSome? fun line =>
    match line.splitOn "\t" with
    | "Uid:" :: number :: _ => some number
    | _ => none

/-- The place from which the process reads paths. -/
def place : IO Place := do
  let users := (← linesOf "/etc/passwd").filterMap User.ofLine
  let number ← userNumber
  return {
    workingDirectory := toString (← IO.currentDir)
    environment := ← environment
    homes := .ofList (users.map fun u => (u.name, u.home))
    ownHome := (users.find? fun u => some u.number == number).map (·.home) }

/-- Loads what a call with these options works on. -/
def World.loadFor (w : World) (o : CommandLine.Options) : IO World := do
  let here := w.here
  let logs := (o.text? .logFile).toList.flatMap fun p => [p, p ++ ".1", p ++ ".2"]
  let w ← ((o.text? .config).toList ++ logs).foldlM (fun w p => w.load 0 (here.absolute p)) w
  match ((Machine.baseLayer o).on w).result with
  | .error _ => return w
  | .ok base =>
    let (s, _) := Machine.settle o base
    let resolve (setting : String) := (here.resolve setting here.workingDirectory).toOption
    let w ← (resolve s.scanRoot).toList.foldlM (·.load deepest) w
    ([s.graphOutput, s.treeOutput].filterMap resolve).foldlM (·.load 0) w

/-! ## Storing -/

/-- Stores the files that differ from those of an earlier disk, and takes away
those that are gone. -/
def World.store (old new : World) : IO Unit := do
  let before := old.root.files
  let after := new.root.files
  let pathOf (names : List String) := "/" ++ "/".intercalate names
  for (names, content) in after do
    if before.lookup names != some content then
      IO.FS.createDirAll (Path.directory (pathOf names))
      IO.FS.writeBinFile (pathOf names) content
  for (names, _) in before do
    if (after.lookup names).isNone then IO.FS.removeFile (pathOf names)

/-! ## Calling -/

/-- The time of the clock, down to thousandths of a second. -/
def clock : IO String := do
  return (← Std.Time.PlainDateTime.now).format "uuuu-MM-dd HH:mm:ss,SSS"

end ComponentUsage

open ComponentUsage in
def main (words : List String) : IO UInt32 := do
  let w : World := { root := .folder [], here := ← place }
  let w ← match CommandLine.parse words with
    | .ok o => w.loadFor o
    | .error _ => pure w
  let (m, code) := ({ world := w, now := ← clock } : Machine).supervised words
  w.store m.world
  IO.print m.stdout
  IO.eprint m.stderr
  return code.toUInt32
