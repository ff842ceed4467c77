import ComponentUsage.Settings.Layers
/-!
# Options

The options of the command line, what they are given, and the layer of settings
that they make.
-/

namespace ComponentUsage.CommandLine

/-- The options. -/
inductive Opt where
  | help
  | scanRoot
  | sourceRoot
  | graphOutput
  | treeOutput
  | mode
  | root
  | separator
  | noSummary
  | suffix
  | templateExt
  | field
  | config
  | useDefaults
  | dumpConfig
  | dryRun
  | json
  | debug
  | logFile
  deriving DecidableEq, Repr

namespace Opt

def all : List Opt :=
  [.help, .scanRoot, .sourceRoot, .graphOutput, .treeOutput, .mode, .root, .separator, .noSummary,
    .suffix, .templateExt, .field, .config, .useDefaults, .dumpConfig, .dryRun, .json, .debug,
    .logFile]

/-- How an option is written. -/
def names : Opt → List String
  | .help => ["-h", "--help"]
  | .scanRoot => ["-i", "--scan-root"]
  | .sourceRoot => ["--source-root"]
  | .graphOutput => ["--graph-output"]
  | .treeOutput => ["--tree-output"]
  | .mode => ["-m", "--mode"]
  | .root => ["-r", "--root"]
  | .separator => ["--separator"]
  | .noSummary => ["--no-summary"]
  | .suffix => ["--suffix"]
  | .templateExt => ["--template-ext"]
  | .field => ["--field"]
  | .config => ["-c", "--config"]
  | .useDefaults => ["--use-defaults"]
  | .dumpConfig => ["--dump-config"]
  | .dryRun => ["--dry-run"]
  | .json => ["--json"]
  | .debug => ["--debug"]
  | .logFile => ["--log-file"]

/-- The key under which an option's value is kept. -/
def key : Opt → String
  | .help => "help"
  | .scanRoot => "scan_root"
  | .sourceRoot => "source_root"
  | .graphOutput => "graph_output_path"
  | .treeOutput => "tree_output_path"
  | .mode => "mode"
  | .root => "root_selector"
  | .separator => "path_separator"
  | .noSummary => "no_summary"
  | .suffix => "definition_suffix"
  | .templateExt => "template_extensions"
  | .field => "selector_field"
  | .config => "config_path"
  | .useDefaults => "use_defaults"
  | .dumpConfig => "dump_config"
  | .dryRun => "dry_run"
  | .json => "json_output"
  | .debug => "debug"
  | .logFile => "log_file"

/-- Options that are given no value. -/
def isSwitch : Opt → Bool
  | .help | .noSummary | .useDefaults | .dumpConfig | .dryRun | .json | .debug => true
  | _ => false

/-- The values that an option takes, if not any. -/
def choices : Opt → Option (List String)
  | .mode => some (Mode.all.map Mode.name)
  | _ => none

/-- Every written name with its option, in order. -/
def named : List (String × Opt) :=
  all.flatMap fun o => o.names.map (·, o)

end Opt

/-- What an option is given. -/
inductive Value where
  /-- The option is not there. -/
  | absent
  | text (s : String)
  /-- The value was `--`, which stands for no value at all. -/
  | dashes
  /-- A switch is there. -/
  | on
  deriving DecidableEq, Repr

/-- What the options are given. -/
structure Options where
  value : Opt → Value := fun _ => .absent

namespace Options

/-- The options with one of them given. -/
def give (o : Options) (opt : Opt) (v : Value) : Options :=
  { value := fun other => if other = opt then v else o.value other }

/-- The text that an option is given. -/
def text? (o : Options) (opt : Opt) : Option String :=
  match o.value opt with
  | .text s => some s
  | _ => none

/-- Whether a switch is there. -/
def has (o : Options) (opt : Opt) : Bool := o.value opt == .on

/-- The value of an option in a document. -/
def json (o : Options) (opt : Opt) : Json :=
  if opt.isSwitch then .bool (o.has opt)
  else
    match o.value opt with
    | .text s => .text s
    | .dashes => .list []
    | _ => .null

/-- All options under their keys. -/
def members (o : Options) : List (String × Json) :=
  (Opt.all.filter (· ≠ .help)).map fun opt => (opt.key, o.json opt)

/-- The pieces of a text between commas that are not blank. -/
def commaList (s : String) : List String :=
  ((Settings.commaPieces s).map Text.trim).filter (· ≠ "")

/-- Options that give a setting as it is. -/
def direct : List Opt :=
  [.scanRoot, .sourceRoot, .graphOutput, .treeOutput, .mode, .root, .separator, .suffix, .field]

/-- The layer of settings that the options make. -/
def layer (o : Options) : Settings.Layer :=
  direct.map (fun opt => (opt.key, o.json opt))
    ++ (match o.text? .templateExt with
      | none => []
      | some s => if s = "" then [] else [(Opt.templateExt.key, .texts (commaList s))])
    ++ (if o.has .noSummary then [("print_summary", .bool false)] else [])

end Options
end ComponentUsage.CommandLine
