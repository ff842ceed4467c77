import ComponentUsage.Component.Basic
import ComponentUsage.Component.Tag
import ComponentUsage.Job
/-!
# Who uses whom

The usage among the components of a registry: one component uses another if its
template opens the other's tag. A template that cannot be read is reported and
uses nothing.
-/

namespace ComponentUsage.Usage

/-- The part of the program that finds usage. -/
def source : String := "componentgraph.core.analysis.edges"

/-- No one uses anyone yet. -/
def none (registry : Registry) : Usage := registry.mapValues fun _ _ => []

/-- The usage with a component's template taken in: its selector joins the users
of every other selector that the template uses. -/
def addTemplate (usage : Usage) (user template : String) : Usage :=
  usage.mapValues fun selector users =>
    if selector ≠ user && Tag.uses template selector then users ++ [user] else users

/-- The number of pairs of a selector and its user. -/
def pairs (usage : Usage) : Nat := usage.values.flatten.length

/-- What a discovery has found so far. -/
structure Found where
  usage : Usage
  warnings : List String

/-- Takes in the template of one component. -/
def visit (found : Found) (selector : String) (c : Component) : Job Found :=
  match c.template with
  | .none => return found
  | some p =>
    if p = "" then return found
    else do
      let w ← .disk
      match w.readText p with
      | .ok template => return { found with usage := found.usage.addTemplate selector template }
      | .error fault =>
        if fault.isDisk then
          let message := s!"Failed to read template for '{selector}': {fault.message}"
          .tell .warning source message
          return { found with warnings := found.warnings ++ [message] }
        else .ofExcept (.error fault)

/-- The usage among the components of a registry, and warnings about templates
that cannot be read. -/
def discover (registry : Registry) : Job Found := do
  let found ← registry.entries.foldlM (fun found (selector, c) => visit found selector c)
    ⟨none registry, []⟩
  .tell .debug source
    s!"Discovered {found.usage.pairs} usage edges across {registry.size} components."
  return found

end ComponentUsage.Usage
