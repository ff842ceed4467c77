import ComponentUsage.Json.Basic
/-!
# Settings

What a run depends on: where to look, what to look for, what to write. Settings
have names under which they stand in a settings file.
-/

namespace ComponentUsage

/-- Which documents a run makes. -/
inductive Mode where
  | graph
  | tree
  | both
  deriving DecidableEq, Repr

namespace Mode

def name : Mode → String
  | .graph => "graph"
  | .tree => "tree"
  | .both => "both"

def all : List Mode := [.graph, .tree, .both]

/-- The mode of that name. -/
def ofName? (name : String) : Option Mode := all.find? (·.name == name)

def hasGraph : Mode → Bool
  | .tree => false
  | _ => true

def hasTree : Mode → Bool
  | .graph => false
  | _ => true

end Mode

/-- The settings of a run. -/
structure Settings where
  sourceRoot : String := "src"
  scanRoot : String := "src/app"
  graphOutput : String := "angular-component-graph.json"
  treeOutput : String := "angular-component-tree.json"
  mode : Mode := .graph
  rootSelector : String := "app-root"
  separator : String := "\\"
  printSummary : Bool := true
  suffix : String := ".component.ts"
  extensions : List String := [".html"]
  field : String := "selector"
  /-- Members of a settings file that are no settings. -/
  extras : List (String × Json) := []

namespace Settings

/-- The settings when nothing is said. -/
def default : Settings := {}

instance : Inhabited Settings := ⟨default⟩

/-- The settings under their names. -/
def members (s : Settings) : List (String × Json) :=
  [("source_root", .text s.sourceRoot), ("scan_root", .text s.scanRoot),
    ("graph_output_path", .text s.graphOutput), ("tree_output_path", .text s.treeOutput),
    ("mode", .text s.mode.name), ("root_selector", .text s.rootSelector),
    ("path_separator", .text s.separator), ("print_summary", .bool s.printSummary),
    ("definition_suffix", .text s.suffix), ("template_extensions", .texts s.extensions),
    ("selector_field", .text s.field)] ++ s.extras

/-- The settings as a document. -/
def toJson (s : Settings) : Json := .object s.members

/-- The names of the settings, in order. -/
def keys : List String := default.members.map Prod.fst

end Settings
end ComponentUsage
