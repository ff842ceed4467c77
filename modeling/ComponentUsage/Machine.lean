import ComponentUsage.Job
import ComponentUsage.Journal.Logging
/-!
# The machine

What a program works on: a disk, a journal, a clock and what is printed. The
machine does jobs, and gives each record of a job to the journal as it is made; a
log file may thus lie where the job looks next. Where no handler is attached, a
job comes to what it comes to on the disk alone (`perform_of_unattached`).
-/

namespace ComponentUsage

/-- What a program works on. -/
structure Machine where
  world : World
  logging : Logging := {}
  /-- The time, as records show it. -/
  now : String := ""
  /-- What else the system knows of a record. -/
  beyond : Format.Beyond := Format.nothingBeyond
  stdout : String := ""
  stderr : String := ""

namespace Machine

def print (m : Machine) (s : String) : Machine := { m with stdout := m.stdout ++ s }

def printError (m : Machine) (s : String) : Machine := { m with stderr := m.stderr ++ s }

/-! ## Records -/

/-- What is printed about a record that a handler could not write. -/
def lossNotice (r : Record) (c : Crash) : String :=
  s!"--- Logging error ---\nTraceback: {c.line}\n"
    ++ s!"Message: {Text.quoted r.message}\nArguments: ()\n"

/-- The text of a record in a format. -/
def rendered (m : Machine) (format : Format) (r : Record) : Except Crash String :=
  format.render m.beyond m.now r

/-- What is printed of a record in a format. -/
def printout (m : Machine) (format : Format) (r : Record) : String :=
  match m.rendered format r with
  | .ok line => line ++ "\n"
  | .error c => lossNotice r c

/-- Gives a record to a handler. A log file is opened before it shows that a record
cannot be written. -/
def handle (m : Machine) (r : Record) (h : Handler) : Machine :=
  match h.sink with
  | .console format => m.printError (m.printout format r)
  | .file format log =>
    let filing :=
      match m.rendered format r with
      | .ok line => LogFile.add line
      | .error _ => LogFile.reopen
    let ((result, log, world) : Except Fault Unit × LogFile × World) := filing.run (log, m.world)
    let after := { m with world, logging := m.logging.redirect h.id (.file format log) }
    match result, m.rendered format r with
    | .ok (), .ok _ => after
    | .ok (), .error c => after.printError (lossNotice r c)
    | .error fault, _ => after.printError (lossNotice r (Crash.ofFault fault))

/-- Gives a record to all handlers that take it. When none is attached, a warning
or worse is printed bare. -/
def emit (m : Machine) (r : Record) : Machine :=
  if m.logging.attached.isEmpty then
    if r.level.atLeast m.logging.threshold && r.level.atLeast .warning then
      m.printError (m.printout Format.bare r)
    else m
  else (m.logging.receivers r).foldl (·.handle r) m

/-- Does a job. -/
def perform {α : Type} : Job α → Machine → Machine × Except Fault α
  | .done result, m => (m, result)
  | .report r next, m => (m.emit r).perform next
  | .look next, m => m.perform (next m.world)
  | .save path text next, m =>
    let saved := m.world.save path text
    { m with world := saved.1 }.perform (next saved.2)

/-! ## The journal -/

/-- Adds the handler of a log file, if the file can be used. That it cannot is
printed, unless the path is none at all. -/
def installFile (m : Machine) (config : LoggingConfig) (path : String) : Machine × Except Fault Unit :=
  let full := m.world.here.absolute path
  match m.world.openLog full with
  | (world, .ok ()) =>
    let m := { m with world }
    if config.fileFormat.isValid then
      let log : LogFile := { path := full, limit := config.limit, backups := config.backups }
      ({ m with logging := m.logging.install (.file config.fileFormat log) }, .ok ())
    else (m, .error (.emptyFormat config.fileFormat))
  | (world, .error fault) =>
    let m := { m with world }
    if fault.isDisk then
      (m.printError s!"WARNING: Cannot open log file '{path}': {fault.message}\n", .ok ())
    else (m, .error fault)

/-- Adds the handlers that a configuration asks for, the console first. -/
def installAll (m : Machine) (config : LoggingConfig) : Machine × Except Fault Unit :=
  if config.console && !config.consoleFormat.isValid then
    (m, .error (.emptyFormat config.consoleFormat))
  else
    let m :=
      if config.console then
        { m with logging := m.logging.install (.console config.consoleFormat) }
      else m
    match config.file with
    | none => (m, .ok ())
    | some path => if path = "" then (m, .ok ()) else m.installFile config path

/-- Sets the journal up. A journal that has handlers stays as it is unless it is
`forced`. -/
def configure (m : Machine) (config : LoggingConfig) (forced : Bool) : Machine × Except Fault Unit :=
  if !m.logging.installed.isEmpty && !forced then (m, .ok ())
  else
    let level := Level.ofSetting config.level
    let m := { m with logging := { m.logging.shutdown with threshold := level } }
    match m.installAll config with
    | (m, .error fault) => (m, .error fault)
    | (m, .ok ()) => ({ m with logging := m.logging.attachAll level }, .ok ())

def shutdown (m : Machine) : Machine := { m with logging := m.logging.shutdown }

/-- Something else takes away what stands at an absolute path. -/
def takeAway (m : Machine) (full : String) : Machine :=
  { m with
    world := { m.world with root := m.world.root.remove (Path.names full) }
    logging := m.logging.cutOff m.world full }

/-! ## A machine whose journal no handler reads -/

theorem emit_of_unattached {m : Machine} (h : m.logging.attached = []) (r : Record) :
    (m.emit r).world = m.world ∧ (m.emit r).logging = m.logging := by
  simp only [emit, h, List.isEmpty_nil, if_true]
  split <;> exact ⟨rfl, rfl⟩

theorem perform_of_unattached {α : Type} {m : Machine} (h : m.logging.attached = []) (job : Job α) :
    (m.perform job).1.world = (job.on m.world).world ∧
      (m.perform job).2 = (job.on m.world).result := by
  induction job generalizing m with
  | done result => exact ⟨rfl, rfl⟩
  | report r next ih =>
    have hw := (emit_of_unattached h r).1
    have hl := (emit_of_unattached h r).2
    simp only [perform, Job.on]
    generalize m.emit r = after at hw hl
    rw [← hw]
    exact ih (by rw [hl, h])
  | look next ih =>
    simp only [perform, Job.on, World.seen_eq]
    exact ih m.world h
  | save path text next ih =>
    simp only [perform, Job.on, World.storage_save]
    generalize m.world.save path text = saved
    exact ih saved.2 (m := { m with world := saved.1 }) h

end Machine
end ComponentUsage
