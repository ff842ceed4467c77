import ComponentUsage.Disk.World
/-!
# Walking through a folder

The order in which the places below a folder are visited: its entries by name,
and what lies below a folder before the next entry.
-/

namespace ComponentUsage

/-- One step of a walk. -/
inductive Visit where
  /-- A folder is listed. -/
  | folder (path : String)
  /-- A place that is no folder is met, under its name. -/
  | entry (path name : String)
  deriving DecidableEq, Repr

/-- The steps at a name in a folder: those `below` it, if it is a folder. -/
def World.visitsAt (w : World) (below : String → List Visit) (path name : String) : List Visit :=
  let full := Path.join path name
  if w.isFolder full then below full else [.entry full name]

/-- The steps of a walk through the folder at a path, down to a depth. At a path
that cannot be listed it ends with the first step. -/
def World.visits (w : World) : Nat → String → List Visit
  | 0, _ => []
  | depth + 1, path =>
    .folder path ::
      match w.list path with
      | .error _ => []
      | .ok names => names.flatMap (w.visitsAt (w.visits depth) path)

end ComponentUsage
