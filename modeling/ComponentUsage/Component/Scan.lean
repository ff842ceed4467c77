import ComponentUsage.Component.Reading
import ComponentUsage.Disk.Visit
/-!
# The components of a project

All components that the definition files below a directory declare. Of two files
that declare one selector the later one counts, and the earlier one is named in
a warning.
-/

namespace ComponentUsage

/-- What a scan has found so far. -/
structure Found where
  registry : Registry
  warnings : List String

namespace Found

open Job

/-- A component is found: it takes the place of the one before it under its
selector. -/
def add (found : Found) (c : Component) : Found × Option String :=
  let registry := found.registry.put c.selector c
  match found.registry.get? c.selector with
  | none => ({ found with registry }, none)
  | some old =>
    let warning := s!"Duplicate selector '{c.selector}': {old.definition} replaced by {c.definition}"
    (⟨registry, found.warnings ++ [warning]⟩, some warning)

/-- One step of the walk. -/
def visit (conv : Component.Conventions) (found : Found) : Visit → Job Found
  | .folder path => do
    let w ← .disk
    let _ ← .ofExcept (w.list path)
    return found
  | .entry path name =>
    if conv.suffix.toList.isSuffixOf name.toList then do
      match ← Component.read conv path with
      | none => return found
      | some c =>
        let (found, warning) := found.add c
        if let some message := warning then
          .tell .warning Component.source message
        return found
    else return found

/-- The steps of a walk one after the other. -/
def visitAll (conv : Component.Conventions) (found : Found) (visits : List Visit) : Job Found :=
  visits.foldlM (visit conv) found

/-- Goes on to a name in a folder: `below` walks through it if it is a folder. -/
def enter (conv : Component.Conventions) (below : String → Found → Job Found) (path name : String)
    (found : Found) : Job Found := do
  let full := Path.join path name
  let w ← .disk
  if w.isFolder full then below full found else visit conv found (.entry full name)

/-- The walk through the folder at a path, down to a depth. -/
def walk (conv : Component.Conventions) : Nat → String → Found → Job Found
  | 0, _, found => return found
  | depth + 1, path, found => do
    let w ← .disk
    let names ← .ofExcept (w.list path)
    names.foldlM (fun found name => enter conv (walk conv depth) path name found) found

/-! ## The walk and the visits -/

theorem leavesDisk_visit (conv : Component.Conventions) (found : Found) (v : Visit) :
    (found.visit conv v).LeavesDisk := by
  cases v with
  | folder path => exact .bind .disk fun w => .bind (.ofExcept _) fun _ => .pure _
  | entry path name =>
    rw [visit]
    split
    · refine .bind (Component.leavesDisk_read conv path) fun c => ?_
      cases c with
      | none => exact .pure _
      | some c =>
        dsimp only
        split
        · exact .bind (.tell _ _ _) fun _ => .pure _
        · exact .pure _
    · exact .pure _

theorem leavesDisk_enter {conv : Component.Conventions} {below : String → Found → Job Found}
    (hb : ∀ path found, (below path found).LeavesDisk) (path name : String) (found : Found) :
    (enter conv below path name found).LeavesDisk := by
  refine .bind .disk fun w => ?_
  split
  · exact hb _ _
  · exact leavesDisk_visit _ _ _

theorem leavesDisk_walk (conv : Component.Conventions) (depth : Nat) (path : String) (found : Found) :
    (walk conv depth path found).LeavesDisk := by
  induction depth generalizing path found with
  | zero => exact .pure _
  | succ depth ih =>
    exact .bind .disk fun w => .bind (.ofExcept _) fun names =>
      .foldlM (fun found name => leavesDisk_enter ih path name found) _ _

theorem on_enter {conv : Component.Conventions} {w : World} {depth : Nat}
    (ih : ∀ path found,
      (walk conv depth path found).on w = (found.visitAll conv (w.visits depth path)).on w)
    (path name : String) (found : Found) :
    (enter conv (walk conv depth) path name found).on w =
      (found.visitAll conv (w.visitsAt (w.visits depth) path name)).on w := by
  simp only [enter, on_bind, on_disk, Outcome.andThen_ok, List.nil_append, World.visitsAt]
  split
  · exact ih _ _
  · simp only [visitAll, List.foldlM_cons, List.foldlM_nil, bind_pure]

/-- On a disk that nothing else changes the walk goes through the visits. -/
theorem on_walk (conv : Component.Conventions) (w : World) (depth : Nat) (path : String)
    (found : Found) :
    (walk conv depth path found).on w = (found.visitAll conv (w.visits depth path)).on w := by
  induction depth generalizing path found with
  | zero => rfl
  | succ depth ih =>
    rw [World.visits]
    simp only [walk, visitAll, List.foldlM_cons, visit, on_bind, on_disk, Outcome.andThen_ok]
    cases h : w.list path with
    | error fault => rfl
    | ok names =>
      simp only [on_ofExcept, Outcome.andThen_ok, on_pure, List.nil_append]
      rw [on_foldlM_flatMap (fun found name => leavesDisk_enter (leavesDisk_walk conv depth) path name found)
        _ _ fun name _ found => on_enter ih path name found]

end Found

/-- The components below a directory, and warnings about selectors that are
declared twice. A path has fewer folders on it than bytes, which bounds the walk. -/
def Registry.scan (dir : String) (conv : Component.Conventions) : Job Found := do
  let w ← .disk
  let full := w.here.absolute dir
  .tell .debug Component.source s!"Scanning component definitions under: {full}"
  Found.walk conv Path.limit full ⟨.empty, []⟩

end ComponentUsage
