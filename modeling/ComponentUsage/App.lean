import ComponentUsage.CommandLine.Help
import ComponentUsage.CommandLine.Parse
import ComponentUsage.Extraction
import ComponentUsage.Machine
import ComponentUsage.Settings.Layers
/-!
# The program

One call of the program, from its words to its exit code: it reads the command
line, sets up the journal, puts the layers of settings together, runs and prints
what came out.
-/

namespace ComponentUsage.Machine

/-- The part of the program that users meet. -/
def source : String := "componentgraph.interface.cli.app"

/-- The code of a call that the user has stopped. -/
def interruptedCode : Nat := 130

/-- Prints what a run came to, and tells the exit code. -/
def finish (m : Machine) (o : CommandLine.Options) (s : Settings) : Except Fault Report → Machine × Nat
  | .ok r =>
    if o.has .json then (m.print (r.toJson.print .indented ++ "\n"), r.exitCode)
    else ((m.print (r.outcome s.printSummary)).printError r.complaint, r.exitCode)
  | .error .interrupted =>
    let message := "Execution interrupted by user."
    ((m.emit { level := .warning, source, message }).printError (message ++ "\n"), interruptedCode)
  | .error fault =>
    let message := s!"Graph extraction failed: {fault.message}"
    ((m.emit { level := .critical, source, message, fault := some fault }).printError
      s!"ERROR: {message}\n", 1)

/-- The settings that the layers make together, and what had to be mended. -/
def settle (o : CommandLine.Options) (base : Settings.Layer) : Settings × List Settings.Complaint :=
  Settings.mend (.object (Settings.overlay base o.layer))

/-- The records about mended settings. -/
def constraintRecords (complaints : List Settings.Complaint) : List Record :=
  complaints.map fun c =>
    { level := .warning, source, message := s!"Configuration Constraint: {c.warning}" }

/-- The lower layers of settings: the defaults, and a settings file unless it is to
be ignored. -/
def baseLayer (o : CommandLine.Options) : Job Settings.Layer :=
  if o.has .useDefaults then return Settings.defaults else Settings.load (o.text? .config)

/-- The settings of a call with these options. -/
def settings (o : CommandLine.Options) : Job Settings := do
  .tell .debug source "CLI execution initiated. Resolving configuration hierarchy..."
  let base ← baseLayer o
  let (s, complaints) := settle o base
  .tellAll (constraintRecords complaints)
  return s

/-- How the journal is set up for a call. -/
def loggingConfig (o : CommandLine.Options) : LoggingConfig :=
  { level := if o.has .debug then "DEBUG" else "INFO", file := o.text? .logFile }

/-- A call with these options. -/
def call (m : Machine) (o : CommandLine.Options) : Machine × Except Fault Nat :=
  match m.configure (loggingConfig o) false with
  | (m, .error fault) => (m, .error fault)
  | (m, .ok ()) =>
    match m.perform (settings o) with
    | (m, .error fault) => (m, .error fault)
    | (m, .ok s) =>
      if o.has .dumpConfig then (m.print (s.toJson.print .indented ++ "\n"), .ok 0)
      else
        let (m, result) := m.perform (Extraction.run s.toJson (o.has .dryRun))
        let (m, code) := m.finish o s result
        (m, .ok code)

/-- One call of the program with these words. -/
def main (m : Machine) (words : List String) : Machine × Except Fault Nat :=
  let columns := CommandLine.columns m.world.here
  match CommandLine.parse words with
  | .ok o => m.call o
  | .error .help => (m.print (CommandLine.helpText columns), .ok 0)
  | .error (.refused r) =>
    (m.printError (CommandLine.usage columns
      ++ s!"{CommandLine.programName}: error: {r.message}\n"), .ok 2)

/-- One call of the program that always comes to an exit code: a fault that nothing
deals with is reported as a crash. -/
def supervised (m : Machine) (words : List String) : Machine × Nat :=
  match m.main words with
  | (m, .ok code) => (m, code)
  | (m, .error fault) =>
    let crash := Crash.ofFault fault
    ((m.emit crash.record).printError crash.notice, Crash.exitCode)

end ComponentUsage.Machine
