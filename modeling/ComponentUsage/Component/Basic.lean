import ComponentUsage.Path.Basic
import ComponentUsage.Table
/-!
# Components

A component as it is found in a project, and the names of the files that belong
to one.
-/

namespace ComponentUsage

/-- A component of a project. -/
structure Component where
  /-- The name that markup uses. -/
  selector : String
  /-- The name that is shown: where the component lies below the source root. -/
  name : String
  /-- The file that declares it. -/
  definition : String
  /-- Its template file, if it has one. -/
  template : Option String
  deriving DecidableEq, Repr

/-- The components of a project under their selectors. -/
abbrev Registry := Table Component

/-- Who is used by whom: for each selector the selectors of its users. -/
abbrev Usage := Table (List String)

namespace Component

/-- A file name without the suffix of definition files. -/
def baseName (file suffix : String) : String :=
  if suffix ≠ "" && suffix.toList.isSuffixOf file.toList then
    String.ofList (file.toList.take (file.toList.length - suffix.toList.length))
  else file

/-- The names that a component's template may have, best first: the base name
with the definition suffix up to its extension, then the plain base name. -/
def templateNames (base suffix : String) (extensions : List String) : List String :=
  let (stem, ext) := Path.splitExtension suffix
  let specific := if ext = "" || stem = "" then [] else extensions.map (base ++ stem ++ ·)
  specific ++ extensions.map (base ++ ·)

end Component
end ComponentUsage
