import ComponentUsage.Component.Basic
import ComponentUsage.Component.Declaration
import ComponentUsage.Job
import ComponentUsage.Path.Display
/-!
# Reading a component

The component that a definition file declares, with the template file that lies
beside it.
-/

namespace ComponentUsage.Component

/-- How components are found and shown. -/
structure Conventions where
  /-- The directory that shown names start from. -/
  sourceRoot : String
  /-- How the names of definition files end. -/
  suffix : String := ".component.ts"
  /-- The extensions of template files, best first. -/
  extensions : List String := [".html"]
  /-- The label of a declaration. -/
  field : String := "selector"
  /-- What joins the segments of a shown name. -/
  separator : String := "\\"

/-- The directory that shown names start from: the one that is scanned, unless another
one is named. -/
def Conventions.sourceRootOf (here : Place) (dir : String) (named : Option String) : String :=
  here.absolute ((named.filter (· ≠ "")).getD dir)

/-- The template of a base name in a directory: the first possible file that is
there. -/
def findTemplate (w : World) (dir base suffix : String) (extensions : List String) : Option String :=
  ((templateNames base suffix extensions).map (Path.join dir)).find? w.isFile |>.map w.here.absolute

/-- The part of the program that reads components. -/
def source : String := "componentgraph.core.analysis.registry"

/-- The component of a definition file that declares a selector. -/
def ofDeclaration (w : World) (conv : Conventions) (path selector : String) : Component :=
  let (dir, file) := Path.split path
  let base := baseName file conv.suffix
  { selector
    name := w.here.display (Path.join dir base) conv.sourceRoot conv.separator
    definition := path
    template := findTemplate w dir base conv.suffix conv.extensions }

/-- The component that a definition file declares, if it declares one. -/
def read (conv : Conventions) (path : String) : Job (Option Component) := do
  let w ← .disk
  let text ← .ofExcept (w.readText path)
  match Declaration.name? text conv.field with
  | none =>
    .tell .debug source s!"No '{conv.field}' declaration in {path}. Skipped."
    return none
  | some selector => return some (ofDeclaration w conv path selector)

theorem leavesDisk_read (conv : Conventions) (path : String) : (read conv path).LeavesDisk := by
  refine .bind .disk fun w => .bind (.ofExcept _) fun text => ?_
  split
  · exact .bind (.tell _ _ _) fun _ => .pure _
  · exact .pure _

end ComponentUsage.Component
