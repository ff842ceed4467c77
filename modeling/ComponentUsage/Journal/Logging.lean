import ComponentUsage.Journal.Format
import ComponentUsage.Journal.LogFile
import ComponentUsage.Text.Blank
/-!
# Where records go

Records go to handlers: one prints them, another one adds them to a log file.
Handlers are installed by a configuration and attached to the journal; records
reach those that are attached.
-/

namespace ComponentUsage

/-- What becomes of the records that a handler gets. -/
inductive Sink where
  | console (format : Format)
  | file (format : Format) (log : LogFile)
  deriving DecidableEq, Repr

/-- A handler; it takes records from its level up. Before it has one it takes them
all. -/
structure Handler where
  id : Nat
  sink : Sink
  level : Option Level
  deriving DecidableEq, Repr

def Handler.takes (h : Handler) (r : Record) : Bool :=
  match h.level with
  | none => true
  | some bound => r.level.atLeast bound

/-- What a configuration of the journal says. -/
structure LoggingConfig where
  level : String := "INFO"
  console : Bool := true
  file : Option String := none
  limit : Nat := 1024 * 1024
  backups : Nat := 2
  consoleFormat : Format := "%(levelname)s | %(message)s"
  fileFormat : Format := "%(asctime)s | %(levelname)s | %(name)s | %(message)s"

/-- The state of the journal. -/
structure Logging where
  /-- Records below this level go nowhere. -/
  threshold : Level := .warning
  /-- The handlers of the last configuration. -/
  installed : List Handler := []
  /-- Numbers of the handlers that records go to. -/
  attached : List Nat := []
  /-- The number of the next handler. -/
  next : Nat := 0
  deriving DecidableEq, Repr

/-- A level's name in capitals; of the letters outside the English alphabet only
the dotless i becomes a capital that such a name holds. -/
def Level.capitals (s : String) : String :=
  String.ofList (s.toList.map fun c => if c = 'ı' then 'I' else c.toUpper)

/-- The level that a configuration names. -/
def Level.ofSetting (s : String) : Level :=
  (Level.ofName? (Level.capitals (Text.trim s))).getD .info

namespace Logging

/-- Takes away every handler. -/
def shutdown (l : Logging) : Logging :=
  { l with
    installed := []
    attached := l.attached.filter fun id => !(l.installed.map (·.id)).contains id }

/-- One more handler, not attached yet. -/
def install (l : Logging) (sink : Sink) : Logging :=
  { l with installed := l.installed ++ [⟨l.next, sink, none⟩], next := l.next + 1 }

/-- All installed handlers take records from a level up, and get them. -/
def attachAll (l : Logging) (level : Level) : Logging :=
  { l with
    installed := l.installed.map ({ · with level := some level })
    attached := l.attached ++ (l.installed.map (·.id)).filter (!l.attached.contains ·) }

/-- A handler's records go elsewhere. -/
def redirect (l : Logging) (id : Nat) (sink : Sink) : Logging :=
  { l with installed := l.installed.map fun h => if h.id = id then { h with sink } else h }

/-- The journal after what stands at an absolute path was taken away from a disk. -/
def cutOff (l : Logging) (w : World) (full : String) : Logging :=
  { l with
    installed := l.installed.map fun h =>
      match h.sink with
      | .file format log =>
        if (Path.names full).isPrefixOf (Path.names log.path) then
          { h with sink := .file format (log.cutOff w) }
        else h
      | .console _ => h }

/-- The handlers that a record goes to. -/
def receivers (l : Logging) (r : Record) : List Handler :=
  if r.level.atLeast l.threshold then
    (l.attached.filterMap fun id => l.installed.find? (·.id == id)).filter (·.takes r)
  else []

end Logging

end ComponentUsage
