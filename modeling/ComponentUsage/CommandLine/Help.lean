import ComponentUsage.CommandLine.Options
import ComponentUsage.Path.Place
import ComponentUsage.Text.Digit
import ComponentUsage.Text.Wrap
/-!
# Usage and help

What the program says about its options, in lines that fit on the screen.
-/

namespace ComponentUsage.CommandLine

/-- The name of the program. -/
def programName : String := "component-graph"

/-- What the program does. -/
def purpose : String :=
  "Extract the component usage graph of a front-end project by matching declared "
    ++ "selectors against template markup."

namespace Opt

/-- The word for the value of an option. -/
def valueWord : Opt → String
  | .mode => "\x7bgraph,tree,both\x7d"
  | o => String.ofList (o.key.toList.map Char.toUpper)

/-- A name of an option, written with its value. -/
def withValue (o : Opt) (name : String) : String :=
  if o.isSwitch then name else s!"{name} {o.valueWord}"

/-- How an option stands in the usage. -/
def usage (o : Opt) : String := "[" ++ o.withValue (o.names.headD "") ++ "]"

/-- How an option stands in the help, with all its names. -/
def heading (o : Opt) : String := ", ".intercalate (o.names.map o.withValue)

/-- What an option is for. -/
def explanation : Opt → String
  | .help => "show this help message and exit"
  | .scanRoot => "Directory scanned for component definitions (default: src/app)."
  | .sourceRoot => "Directory display names and template paths are relative to (default: src)."
  | .graphOutput => "Destination of the flat graph JSON document."
  | .treeOutput => "Destination of the rooted tree JSON document."
  | .mode => "Output shape: flat graph, rooted tree, or both."
  | .root => "Selector of the tree root (default: app-root)."
  | .separator => "Separator used in display names and template paths (default: \\)."
  | .noSummary => "Do not print the relationship summary."
  | .suffix => "Suffix identifying component definition files (default: .component.ts)."
  | .templateExt => "Comma-separated template extensions, in preference order (default: .html)."
  | .field => "Field label declaring the selector (default: selector)."
  | .config => "JSON file with configuration keys layered over the defaults."
  | .useDefaults => "Ignore --config and start from the built-in defaults."
  | .dumpConfig => "Print the effective configuration as JSON and exit."
  | .dryRun => "Analyze and report without writing any artifact."
  | .json => "Print the run result as JSON instead of a human summary."
  | .debug => "Elevate logging verbosity to DEBUG."
  | .logFile => "Also write logs to this rotating file."

end Opt

/-! ## Layout -/

/-- The width of a screen that does not tell its own. -/
def defaultColumns : Nat := 80

/-- How many characters a line of the screen holds. -/
def columns (here : Place) : Nat :=
  ((here.environment.get? "COLUMNS").bind Text.positive?).getD defaultColumns

/-- The characters of a line that are used. -/
def lineWidth (columns : Nat) : Nat := columns - 2

/-- The width of what stands beside a margin, which is never very small. -/
def restWidth (columns margin : Nat) : Nat := max (lineWidth columns - margin) 11

/-- That many blanks. -/
def blanks (n : Nat) : String := String.ofList (List.replicate n ' ')

/-- Lines, each with its end. -/
def paragraph (lines : List String) : String := String.join (lines.map (· ++ "\n"))

/-- Words put into lines behind a margin; `line` holds some words already, and is
`used` characters long. -/
def packWords (width margin : Nat) (line : List String) (used : Nat) : List String → List (List String)
  | [] => [line]
  | word :: words =>
    if width < used + 1 + word.length && !line.isEmpty then
      line :: packWords width margin [word] (margin + word.length) words
    else packWords width margin (line ++ [word]) (used + 1 + word.length) words

/-- How the program is called: the options follow its name, or start below it if the
lines are short. -/
def usage (columns : Nat) : String :=
  let width := lineWidth columns
  let start := "usage: "
  let options := Opt.all.map Opt.usage
  let below (margin : Nat) (lines : List (List String)) :=
    lines.map fun line => blanks margin ++ " ".intercalate line
  let first := start ++ programName
  if 4 * first.length ≤ 3 * width then
    let margin := first.length + 1
    match packWords width margin [programName] first.length options with
    | [] => paragraph [first]
    | line :: lines => paragraph ((start ++ " ".intercalate line) :: below margin lines)
  else
    let margin := start.length
    paragraph (first :: below margin (packWords width margin [] (margin - 1) options))

/-- The column in which explanations start. -/
def helpColumn (columns : Nat) : Nat := min 24 (max (lineWidth columns - 20) 4)

/-- The lines about one option. A long heading has a line of its own. -/
def Opt.lines (columns : Nat) (o : Opt) : List String :=
  let column := helpColumn columns
  let heading := "  " ++ o.heading
  let explanation := Text.wrap (restWidth columns column) o.explanation
  if heading.length + 2 ≤ column then
    match explanation with
    | [] => [heading]
    | first :: rest =>
      (heading ++ blanks (column - heading.length) ++ first) :: rest.map (blanks column ++ ·)
  else heading :: explanation.map (blanks column ++ ·)

/-- Everything about the options. -/
def helpText (columns : Nat) : String :=
  usage columns ++ "\n" ++ paragraph (Text.wrap (restWidth columns 0) purpose) ++ "\n"
    ++ paragraph ("options:" :: Opt.all.flatMap (Opt.lines columns))

end ComponentUsage.CommandLine
