import ComponentUsage.Job
import ComponentUsage.Json.Parser
import ComponentUsage.Settings.Check
/-!
# Layers of settings

Settings come in layers: the defaults, a settings file over them, and what the
command line says over both. A file that cannot be used is reported and changes
nothing.
-/

namespace ComponentUsage.Settings

/-- Values given for settings, each under its key. -/
abbrev Layer := List (String × Json)

/-- The lowest layer. -/
def defaults : Layer := default.members

/-- A layer under another one: what the upper one gives for a setting counts,
unless it is null. -/
def overlay (base upper : Layer) : Layer :=
  keys.foldl (fun out key =>
    match Json.member? key upper with
    | none | some .null => out
    | some v => upsert key v out) base

/-- The defaults with the members of a file put over them. -/
def overDefaults (members : List (String × Json)) : Layer :=
  members.foldl (fun out (key, v) => if key ∈ keys then upsert key v out else out) defaults

/-- The part of the program that reads settings. -/
def source : String := "componentgraph.domain.config"

/-- Why a settings file cannot be used. -/
inductive Unusable where
  | unread (f : Fault)
  | malformed

def Unusable.message : Unusable → String
  | .unread f => f.message
  | .malformed => "not a JSON document"

/-- The value in a file. -/
def readJson (w : World) (p : String) : Except Fault (Option Json) := do
  let bytes ← w.read p
  return (Text.ofBytes? bytes).bind (Json.parse? ·)

/-- Reports that a file cannot be used. -/
def reportUnusable (p : String) (why : Unusable) : Job Unit :=
  .tell .error source s!"Failed to load config file '{p}': {why.message}. Using defaults."

/-- Reports the members of a file that are no settings, by name. -/
def reportUnknown (members : List (String × Json)) : Job Unit :=
  let unknown := (members.map Prod.fst).filter (· ∉ keys)
  if unknown.isEmpty then return ()
  else
    let sorted := unknown.mergeSort fun a b => !(b < a)
    .tell .warning source ("Ignoring unknown config keys: " ++ ", ".intercalate sorted)

/-- The layer of a settings file over the defaults. -/
def load (path : Option String) : Job Layer :=
  match path with
  | none => return defaults
  | some p =>
    if p = "" then return defaults
    else do
      let w ← .disk
      if !w.exists? p then
        .tell .warning source s!"Config file not found at '{p}'. Using defaults."
        return defaults
      else
        match readJson w p with
        | .error .interrupted => .ofExcept (.error .interrupted)
        | .error fault =>
          reportUnusable p (.unread fault)
          return defaults
        | .ok none =>
          reportUnusable p .malformed
          return defaults
        | .ok (some (.object members)) =>
          reportUnknown members
          .tell .debug source s!"Configuration loaded from {p}"
          return overDefaults members
        | .ok (some _) =>
          .tell .error source s!"Config file '{p}' must contain a JSON object. Using defaults."
          return defaults

end ComponentUsage.Settings
