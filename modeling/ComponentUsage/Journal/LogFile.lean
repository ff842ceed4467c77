import ComponentUsage.Disk.Storage
/-!
# Log files

A file to which lines are added, and which is put aside before it reaches its
limit: the files put aside bear its name and a number, and each moves on by one.
A log file that something else takes away stays open, and takes lines that no
one can read.
-/

namespace ComponentUsage

/-- What an open log file is to the disk. -/
inductive Stream where
  /-- It is the file at its path. -/
  | linked
  /-- It is no longer on the disk, and holds that many bytes. -/
  | adrift (size : Nat)
  /-- It is not open. -/
  | closed
  deriving DecidableEq, Repr

/-- A file to which lines are added. -/
structure LogFile where
  /-- Its absolute path. -/
  path : String
  /-- It is put aside before it has that many bytes; never, if that is zero. -/
  limit : Nat
  /-- How many files put aside are kept. -/
  backups : Nat
  stream : Stream := .linked
  deriving DecidableEq, Repr

/-! ## Changes of a disk -/

namespace World

/-- Adds to the file at an absolute path, which is made if it is not there. Whether it
may be opened is not asked again. -/
def append (w : World) (full : String) (content : ByteArray) : Except Fault World :=
  match w.find full with
  | .ok (.file old) => w.write full (old ++ content)
  | _ => w.write full content

/-- Opens the file at an absolute path for lines to be added; it is made if it is not
there. -/
def openToAdd (w : World) (full : String) : Except Fault World := do
  checkPath full
  if w.sealed.contains full then throw (.disk .denied full)
  w.append full .empty

/-- Makes a log file ready: its folders are made, and the file is opened. -/
def openLog (w : World) (full : String) : World × Except Fault Unit :=
  match Storage.makeParents w full with
  | (w, .error fault) => (w, .error fault)
  | (w, .ok ()) =>
    match w.openToAdd full with
    | .ok w => (w, .ok ())
    | .error fault => (w, .error fault)

/-- Takes away the file at an absolute path, if there is one. -/
def discard (w : World) (full : String) : Except Fault World :=
  if w.isFolder full then .error (.disk .isFolder full)
  else if w.isFile full then .ok { w with root := w.root.remove (Path.names full) }
  else .ok w

/-- Whether a path leads to a link to nowhere. -/
def isDangling (w : World) (p : String) : Bool :=
  match w.find p with
  | .ok .dangling => true
  | _ => false

/-- Moves the file or folder at an absolute path, if there is one, to a path where
there is none. -/
def move (w : World) (source target : String) : Except Fault World :=
  match w.find source with
  | .error _ | .ok .dangling => .ok w
  | .ok n => do
    if n.isFolder && w.isDangling target then throw (.disk .notFolder target)
    checkPath target
    match w.root.place n (Path.names target) with
    | .ok root => return { w with root := root.remove (Path.names source) }
    | .error cause => throw (.disk cause target)

end World

/-! ## Adding lines -/

namespace LogFile

/-- The path of a file put aside. -/
def aside (log : LogFile) (i : Nat) : String := s!"{log.path}.{i}"

/-- The bytes that are in the file. -/
def size (log : LogFile) (w : World) : Nat :=
  match log.stream with
  | .closed => 0
  | .adrift n => n
  | .linked =>
    match w.find log.path with
    | .ok (.file content) => content.size
    | _ => 0

/-- Whether the file would reach its limit. The limit is compared with the bytes of
the file and the characters of the line. -/
def isFullWith (log : LogFile) (w : World) (line : String) : Bool :=
  0 < log.limit && log.limit ≤ log.size w + line.length + 1

/-- The log file after what stands at its path was taken away from a disk. -/
def cutOff (log : LogFile) (w : World) : LogFile :=
  if log.stream = .linked && w.isFile log.path then { log with stream := .adrift (log.size w) }
  else log

/-- Work on a log file. What is done before a failure stays. -/
abbrev Filing := ExceptT Fault (StateM (LogFile × World))

/-- Changes the disk. -/
def change (f : World → Except Fault World) : Filing Unit := do
  let (log, w) ← get
  match f w with
  | .ok w => set (log, w)
  | .error fault => throw fault

/-- Says what the log file is to the disk from now on. -/
def become (stream : Stream) : Filing Unit := modify fun (log, w) => ({ log with stream }, w)

/-- Opens the log file if it is closed. -/
def reopen : Filing Unit := do
  let (log, _) ← get
  if log.stream = .closed then
    change (·.openToAdd log.path)
    become .linked

/-- Moves the first files put aside on by one, the last of them first. -/
def moveOn : Nat → Filing Unit
  | 0 => return ()
  | i + 1 => do
    let (log, w) ← get
    if w.exists? (log.aside (i + 1)) then
      change (·.discard (log.aside (i + 2)))
      change (·.move (log.aside (i + 1)) (log.aside (i + 2)))
    moveOn i

/-- Puts the log file aside, if such files are kept, and begins a new one. -/
def rollOver : Filing Unit := do
  let (log, _) ← get
  become .closed
  if log.backups ≠ 0 then
    moveOn (log.backups - 1)
    change (·.discard (log.aside 1))
    change (·.move log.path (log.aside 1))
  reopen

/-- Writes a line at the end of the file. -/
def put (line : String) : Filing Unit := do
  reopen
  let (log, _) ← get
  let bytes := (line ++ "\n").toUTF8
  match log.stream with
  | .adrift n => become (.adrift (n + bytes.size))
  | _ => change (·.append log.path bytes)

/-- Adds a line to the log file, which is put aside first if it would reach its
limit. A folder in its place stops that. -/
def add (line : String) : Filing Unit := do
  let (log, w) ← get
  if !w.isFolder log.path then
    reopen
    let (log, w) ← get
    if log.isFullWith w line then rollOver
  put line

end LogFile
end ComponentUsage
