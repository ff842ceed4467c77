import ComponentUsage.Component.Basic
import ComponentUsage.Json.Basic
/-!
# The flat view of usage

For every component its name and its users, as a document and as lines to read.
-/

namespace ComponentUsage

/-- A component in the flat view. -/
structure GraphEntry where
  name : String
  parents : List String
  deriving DecidableEq, Repr

/-- The flat view of a registry. -/
abbrev Graph := Table GraphEntry

/-- The flat view: every component of the registry, in its order. -/
def Registry.graph (registry : Registry) (usage : Usage) : Graph :=
  registry.mapValues fun selector c => ⟨c.name, (usage.get? selector).getD []⟩

def GraphEntry.toJson (e : GraphEntry) : Json :=
  .object [("name", .text e.name), ("parents", .texts e.parents)]

/-- The flat view as a document. -/
def Graph.toJson (graph : Graph) : Json :=
  .object (graph.entries.map fun (selector, e) => (selector, e.toJson))

/-- The line about one component. -/
def Usage.line (selector : String) (users : List String) : String :=
  let who :=
    if users.isEmpty then "nobody (possibly the root component)" else ", ".intercalate users
  s!"- {selector} is used by: {who}"

/-- One line for every component. -/
def Usage.summary (usage : Usage) : List String :=
  usage.entries.map fun (selector, users) => Usage.line selector users

end ComponentUsage
