import ComponentUsage.Proofs.Disk.Sound
import ComponentUsage.Proofs.Journal.Handlers
/-!
# Log files that cannot be used

A configuration whose log file the disk refuses says so and goes on without it: its console is
attached and takes records, and another configuration can take its place (`goesOn_of_unopened`).
A zero character in the path of the log file is no fault of the disk: it ends the configuration
with the console installed and not attached.
-/

namespace ComponentUsage

/-! ## Opening a log file -/

theorem World.fault_of_openToAdd {w : World} {full : String} {fault : Fault} (h : w.openToAdd full = .error fault) :
    fault.isDisk = true ∨ fault = .zeroInPath ∧ ¬ Path.Plain full := by
  unfold openToAdd at h
  rcases Fault.bind_eq_error_iff.1 h with hcheck | ⟨-, -, h⟩
  · exact fault_of_checkPath hcheck
  · split at h
    · cases h
      exact .inl rfl
    · unfold append at h
      split at h <;> exact fault_of_write h

theorem World.fault_of_openLog {w : World} {full : String} {fault : Fault} (h : (w.openLog full).2 = .error fault) :
    fault.isDisk = true ∨ fault = .zeroInPath ∧ ¬ Path.Plain full := by
  unfold openLog at h
  split at h
  · rename_i hparents
    cases h
    exact fault_of_makeParents (congrArg Prod.snd hparents)
  · split at h
    · cases h
    · rename_i hopen
      cases h
      exact fault_of_openToAdd hopen

/-- At a sealed path no log file is opened. -/
theorem World.exists_fault_of_sealed {w : World} {full : String} (h : full ∈ w.sealed) :
    ∃ fault, (w.openLog full).2 = .error fault := by
  have hmade : w.Touched (Storage.makeParents w full).1 ∅ {Path.names full} :=
    touched_makeFolders _ _ (by rw [List.tail_reverse, List.reverse_reverse])
  unfold openLog
  rcases hparents : Storage.makeParents w full with ⟨mid, fault | done⟩
  · exact ⟨fault, rfl⟩
  · rw [hparents] at hmade
    have hsealed : mid.sealed.contains full = true := by
      rw [show mid = _ from hmade.rest]
      exact List.contains_iff_mem.2 h
    dsimp only
    unfold openToAdd
    cases checkPath full with
    | error fault => exact ⟨fault, rfl⟩
    | ok =>
      rw [Fault.ok_bind, if_pos hsealed]
      exact ⟨_, rfl⟩

theorem World.openLog_of_snd {w : World} {full : String} {result : Except Fault Unit}
    (h : (w.openLog full).2 = result) : ∃ w', w.openLog full = (w', result) := by
  rcases hopen : w.openLog full with ⟨w', result'⟩
  rw [hopen] at h
  exact ⟨w', congrArg (w', ·) h⟩

/-! ## Whatever is done -/

namespace Logging

variable {l l' : Logging}

/-- Two journals with the same handlers and the same ones attached. -/
theorem Kept.of_eq (h : l.Kept) (hi : l'.installed.map (·.id) = l.installed.map (·.id))
    (ha : l'.attached = l.attached) : l'.Kept := by
  rw [Kept, hi, ha]
  exact h

theorem ids_redirect (l : Logging) (id : Nat) (sink : Sink) :
    (l.redirect id sink).installed.map (·.id) = l.installed.map (·.id) := by
  rw [redirect, List.map_map]
  refine List.map_congr_left fun h _ => ?_
  rw [Function.comp_apply]
  split <;> rfl

end Logging

namespace Machine

open Logging

variable {m : Machine} {config : LoggingConfig} {forced : Bool}

theorem kept_handle (hl : m.logging.Kept) (r : Record) (h : Handler) : (m.handle r h).logging.Kept := by
  rcases m.logging_handle r h with hsame | ⟨sink, -, hredirect⟩
  · rwa [hsame]
  · rw [hredirect]
    exact hl.of_eq (ids_redirect _ _ _) rfl

theorem kept_emit (hl : m.logging.Kept) (r : Record) : (m.emit r).logging.Kept := by
  unfold emit
  split
  · split <;> exact hl
  · exact List.foldlRecOn (motive := fun m : Machine => m.logging.Kept) _ _ hl fun _ hm h _ => kept_handle hm r h

/-- A configuration that ends well leaves a sound journal, if it took effect. -/
theorem sound_of_configure (hl : m.logging.Kept) (hc : m.Configures forced)
    (hr : (m.configure config forced).2 = .ok ()) : (m.configure config forced).1.logging.Sound := by
  have hs : ¬ m.Strands (.configure config forced) := fun hs => by
    rw [Strands, hr] at hs
    cases hs.1
  exact (sound_configure_of_kept hl hc hs).1

/-- One step of any kind leaves records to installed handlers. -/
theorem kept_act (hl : m.logging.Kept) (call : JournalCall) : (m.act call).logging.Kept := by
  cases call with
  | configure config forced =>
    by_cases hc : m.Configures forced
    · rcases logging_configure hc config with ⟨hr, -⟩ | ⟨fault, -, hlog, -⟩
      · exact (sound_of_configure hl hc hr).kept
      · have hattached := attached_cleared hl config
        refine kept_of_unattached ?_
        rw [act, hlog]
        split
        · exact hattached
        · exact hattached
    · rw [act, configure_of_kept hc]
      exact hl
  | record r => exact kept_emit hl r
  | shutdown => exact kept_of_unattached hl.attached_shutdown
  | meanwhile world now => exact hl
  | takeAway full =>
    have halike := alike_cutOff m.logging m.world full
    exact hl.of_eq (halike.map_eq (·.1)) halike.attached

theorem kept_after (hl : m.logging.Kept) (calls : List JournalCall) : (m.after calls).logging.Kept :=
  List.foldlRecOn (motive := fun m : Machine => m.logging.Kept) calls _ hl fun _ hm call _ => kept_act hm call

/-! ## A configuration without its log file -/

/-- What is printed about a log file that the disk refuses. -/
def unopenedNotice (path : String) (fault : Fault) : String :=
  s!"WARNING: Cannot open log file '{path}': {fault.message}\n"

section unopened

variable {path : String} {fault : Fault} {world : World}

/-- The disk refuses the log file, which is told and no more; another fault is passed on. -/
theorem installFile_of_unopened (h : m.world.openLog (m.world.here.absolute path) = (world, .error fault)) :
    m.installFile config path =
      if fault.isDisk then ({ m with world, stderr := m.stderr ++ unopenedNotice path fault }, .ok ())
      else ({ m with world }, .error fault) := by
  unfold installFile
  dsimp only
  rw [h]
  rfl

/-- In both cases the console is installed by then. -/
theorem installAll_of_unopened (hconsole : config.console = true → config.consoleFormat.isValid = true)
    (hfile : config.file = some path) (hne : path ≠ "")
    (h : m.world.openLog (m.world.here.absolute path) = (world, .error fault)) :
    m.installAll config =
      if fault.isDisk then
        ({ m with world, stderr := m.stderr ++ unopenedNotice path fault,
                  logging := (consoles config).foldl install m.logging }, .ok ())
      else ({ m with world, logging := (consoles config).foldl install m.logging }, .error fault) := by
  have hgood : ¬ (config.console && !config.consoleFormat.isValid) = true := by
    rw [Bool.and_eq_true, Bool.not_eq_true', not_and, Bool.not_eq_false]
    exact hconsole
  rw [installAll, if_neg hgood]
  dsimp only
  rw [hfile]
  dsimp only
  rw [if_neg hne, consoles]
  split <;> exact installFile_of_unopened h

theorem configure_of_unopened (hc : m.Configures forced)
    (hconsole : config.console = true → config.consoleFormat.isValid = true)
    (hfile : config.file = some path) (hne : path ≠ "")
    (h : m.world.openLog (m.world.here.absolute path) = (world, .error fault)) :
    m.configure config forced =
      if fault.isDisk then
        ({ m with world, stderr := m.stderr ++ unopenedNotice path fault,
                  logging := ((consoles config).foldl install (m.cleared config)).attachAll
                    (Level.ofSetting config.level) }, .ok ())
      else ({ m with world, logging := (consoles config).foldl install (m.cleared config) }, .error fault) := by
  have hall := @installAll_of_unopened { m with logging := m.cleared config } config path fault world hconsole
    hfile hne h
  rw [configure_of_configures hc, hall]
  by_cases hd : fault.isDisk = true
  · rw [if_pos hd, if_pos hd]
  · rw [if_neg hd, if_neg hd]

end unopened

/-! ## Going on without the log file -/

/-- A configuration asks for a log file that cannot be opened. -/
structure Unopened (w : World) (config : LoggingConfig) (path : String) (fault : Fault) : Prop where
  asked : config.file = some path
  named : path ≠ ""
  refused : (w.openLog (w.here.absolute path)).2 = .error fault

/-- Where a console is all that is installed, it prints what is not below the level of the journal. -/
theorem emit_of_console {format : Format} (hl : m.logging.Sound)
    (hi : m.logging.installed.map (·.sink) = [.console format]) (r : Record) :
    m.emit r = if r.level.atLeast m.logging.threshold then m.printError (m.printout format r) else m := by
  obtain ⟨h, hinstalled, hsink⟩ := List.map_eq_singleton_iff.1 hi
  have hattached : m.logging.attached.isEmpty = false := by rw [hl.attached, hinstalled]; rfl
  rw [emit, hattached, if_neg Bool.false_ne_true, hl.receivers]
  split
  · rw [hinstalled, List.foldl_cons, List.foldl_nil, handle, hsink]
  · rfl

/-- A configuration that goes on without its log file: this is told, the console is installed if it
is asked for and nothing else, all that is installed is attached, records go to the console, and
another configuration can take its place. -/
structure GoesOn (config : LoggingConfig) (notice : String) (before after : Machine) : Prop where
  told : after.stderr = before.stderr ++ notice
  sinks : after.logging.installed.map (·.sink) = consoles config
  attached : ∀ h ∈ after.logging.installed, h.id ∈ after.logging.attached
  records : config.console = true → ∀ r, after.emit r =
    if r.level.atLeast (Level.ofSetting config.level) then
      after.printError (after.printout config.consoleFormat r)
    else after
  replaced : ∀ config', ¬ after.Strands (.configure config' true) →
    (after.configure config' true).1.logging.Sound ∧
      ∀ id ∈ (after.configure config' true).1.logging.attached, after.logging.next ≤ id

theorem goesOn_of_unopened {path : String} {fault : Fault} (hl : m.logging.Kept) (hc : m.Configures forced)
    (hconsole : config.console = true → config.consoleFormat.isValid = true)
    (hfile : Unopened m.world config path fault) (hd : fault.isDisk = true) :
    (m.configure config forced).2 = .ok () ∧
      GoesOn config (unopenedNotice path fault) m (m.configure config forced).1 := by
  obtain ⟨world, hopen⟩ := World.openLog_of_snd hfile.refused
  have hconfigure := configure_of_unopened hc hconsole hfile.asked hfile.named hopen
  rw [if_pos hd] at hconfigure
  have hsound := sound_of_configure hl hc (congrArg Prod.snd hconfigure)
  have hlogging : (m.configure config forced).1.logging =
      ((consoles config).foldl install (m.cleared config)).attachAll (Level.ofSetting config.level) := by
    rw [hconfigure]
  have hsinks : (m.configure config forced).1.logging.installed.map (·.sink) = consoles config := by
    rw [hlogging, attachAll, List.map_map]
    refine (sinks_installs _ _).trans ?_
    rw [installed_cleared, List.map_nil, List.nil_append]
  refine ⟨by rw [hconfigure], by rw [hconfigure], hsinks, fun h hm => ?_, fun hconsole r => ?_, fun config' hs => ?_⟩
  · rw [hsound.attached]
    exact List.mem_map_of_mem hm
  · have hthreshold : (m.configure config forced).1.logging.threshold = Level.ofSetting config.level := by
      rw [hlogging]
      exact (threshold_installs _ _).trans (threshold_cleared m config)
    have hconsoles : consoles config = [.console config.consoleFormat] := if_pos hconsole
    rw [emit_of_console hsound (hsinks.trans hconsoles), hthreshold]
  · obtain ⟨hsound, -, hnew⟩ := sound_configure hsound (.inr rfl) hs
    exact ⟨hsound, hnew⟩

/-- The fault of another kind that a log file can have ends the configuration where it is. -/
theorem halts_of_unopened {path : String} {fault : Fault} (hl : m.logging.Kept) (hc : m.Configures forced)
    (hconsole : config.console = true → config.consoleFormat.isValid = true)
    (hfile : Unopened m.world config path fault) (hd : fault.isDisk = false) :
    (m.configure config forced).2 = .error .zeroInPath ∧ (m.configure config forced).1.stderr = m.stderr ∧
      (m.configure config forced).1.logging.installed.map (·.sink) = consoles config ∧
      (m.configure config forced).1.logging.attached = [] := by
  obtain ⟨world, hopen⟩ := World.openLog_of_snd hfile.refused
  have hconfigure := configure_of_unopened hc hconsole hfile.asked hfile.named hopen
  rw [hd, if_neg Bool.false_ne_true] at hconfigure
  have hzero : fault = .zeroInPath := by
    rcases World.fault_of_openLog hfile.refused with hdisk | ⟨hzero, -⟩
    · exact absurd (hd.symm.trans hdisk) Bool.false_ne_true
    · exact hzero
  rw [hconfigure]
  refine ⟨congrArg Except.error hzero, rfl, ?_, ?_⟩
  · rw [sinks_installs, installed_cleared, List.map_nil, List.nil_append]
  · exact ((waiting_of_bare (installed_cleared m config) (attached_cleared hl config)).installs _).unattached

/-! ## Every configuration -/

/-- A console whose format says nothing ends a configuration before anything is installed. -/
theorem configure_of_mute (hc : m.Configures forced) (hconsole : config.console = true)
    (hformat : config.consoleFormat.isValid = false) :
    m.configure config forced = ({ m with logging := m.cleared config }, .error (.emptyFormat config.consoleFormat)) := by
  have hbad : (config.console && !config.consoleFormat.isValid) = true := by rw [hconsole, hformat]; rfl
  rw [configure_of_configures hc, installAll, if_pos hbad]

/-- From a journal without handlers on, whatever was done to it: where a configuration takes effect
and the disk refuses its log file, it goes on without it. No log file fails to open in another way,
unless its path holds a zero character. With such a path the configuration ends untold, and its console is
installed and not attached. A sealed log file is one that fails to open. -/
theorem configure_goes_on {m : Machine} (hm : m.logging = {}) (calls : List JournalCall) (config : LoggingConfig)
    (forced : Bool) :
    let before := m.after calls
    let after := (before.configure config forced).1
    let result := (before.configure config forced).2
    (¬ before.Configures forced → before.configure config forced = (before, .ok ())) ∧
    (before.Configures forced →
      (config.consoleFormat.isValid = true → ¬ StopsAtFile before.world config → result = .ok ()) ∧
      (result = .ok () → after.logging.Sound) ∧
      (config.console = true → config.consoleFormat.isValid = false →
        result = .error (.emptyFormat config.consoleFormat) ∧ after.logging.installed = []) ∧
      ((config.console = true → config.consoleFormat.isValid = true) →
        ∀ path fault, Unopened before.world config path fault →
          (Path.Plain before.world.here.workingDirectory → Path.Plain path → fault.isDisk = true) ∧
          (fault.isDisk = true → result = .ok () ∧ GoesOn config (unopenedNotice path fault) before after) ∧
          (fault.isDisk = false → result = .error .zeroInPath ∧ after.stderr = before.stderr ∧
            after.logging.installed.map (·.sink) = consoles config ∧ after.logging.attached = []))) ∧
    ∀ path, config.file = some path → path ≠ "" → before.world.here.absolute path ∈ before.world.sealed →
      ∃ fault, Unopened before.world config path fault := by
  intro before after result
  have hkept : before.logging.Kept := kept_after (kept_of_unattached (by rw [hm])) calls
  refine ⟨fun hc => configure_of_kept hc config, fun hc => ⟨fun hformat hfile => ?_, sound_of_configure hkept hc,
    fun hconsole hformat => ?_, fun hconsole path fault hfile => ⟨fun hhere hplain => ?_, ?_, fun hd => ?_⟩⟩,
    fun path hasked hnamed hsealed => ?_⟩
  · rcases logging_configure hc config with ⟨hok, -⟩ | ⟨fault, -, -, hbad | hstops⟩
    · exact hok
    · exact absurd (hbad.symm.trans hformat) Bool.false_ne_true
    · exact absurd hstops hfile
  · have hmute := configure_of_mute hc hconsole hformat
    exact ⟨congrArg Prod.snd hmute, by rw [show after = _ from congrArg Prod.fst hmute, installed_cleared]⟩
  · exact (World.fault_of_openLog hfile.refused).resolve_right fun ⟨_, habs⟩ =>
      habs (Path.plain_normalize (Path.plain_join hhere hplain))
  · exact goesOn_of_unopened hkept hc hconsole hfile
  · exact halts_of_unopened hkept hc hconsole hfile hd
  · obtain ⟨fault, hrefused⟩ := World.exists_fault_of_sealed hsealed
    exact ⟨fault, hasked, hnamed, hrefused⟩

/-- A console and a log file. -/
def both (path : String) : LoggingConfig := { file := some path }

/-- A machine whose console is stranded. -/
def halted : Machine := logged.after [.configure mute false]

def diskFull : Record := { level := .error, source := "test", message := "disk is full" }

/-- The log file is to lie below another file: a new console takes the place of the stranded one, and
takes records. -/
theorem configure_goes_on_halted :
    (halted.configure (both "run.log/a") true).2 = .ok () ∧
      (halted.configure (both "run.log/a") true).1.stderr =
        "WARNING: Cannot open log file 'run.log/a': [Errno 17] File exists: '/run.log'\n" ∧
      (halted.configure (both "run.log/a") true).1.logging.attached = [1] ∧
      ((halted.configure (both "run.log/a") true).1.emit diskFull).stderr =
        (halted.configure (both "run.log/a") true).1.stderr ++ "ERROR | disk is full\n" := by
  have hfile : Unopened halted.world (both "run.log/a") "run.log/a" (.disk .exists "/run.log") :=
    ⟨rfl, by decide, by decide +kernel⟩
  have hattached : (halted.configure (both "run.log/a") true).1.logging.attached = [1] := by decide +kernel
  have hlevel : diskFull.level.atLeast (Level.ofSetting (both "run.log/a").level) = true := by decide +kernel
  have htold : halted.stderr ++ unopenedNotice "run.log/a" (.disk .exists "/run.log") =
      "WARNING: Cannot open log file 'run.log/a': [Errno 17] File exists: '/run.log'\n" := by decide +kernel
  have hline : (halted.configure (both "run.log/a") true).1.printout (both "run.log/a").consoleFormat diskFull =
      "ERROR | disk is full\n" := by decide +kernel
  rw [halted] at *
  have hruns := (configure_goes_on (m := logged) rfl [.configure mute false] (both "run.log/a") true).2.1 (.inr rfl)
  obtain ⟨hok, hgoes⟩ := (hruns.2.2.2 (fun _ => by decide +kernel) _ _ hfile).2.1 rfl
  refine ⟨hok, ?_, hattached, ?_⟩
  · rw [hgoes.told]
    exact htold
  · rw [hgoes.records rfl, if_pos hlevel, hline]
    rfl

/-- A zero character in the path of the log file ends a configuration untold. Its console is installed
and not attached, and no other configuration changes that unless it is forced. -/
theorem configure_halts_at_zero :
    logged.logging = {} ∧ (logged.configure (both "a\x00b") false).2 = .error .zeroInPath ∧
      (logged.configure (both "a\x00b") false).1.stderr = "" ∧
      (logged.configure (both "a\x00b") false).1.logging.installed.length = 1 ∧
      (logged.configure (both "a\x00b") false).1.logging.attached = [] ∧
      ((logged.configure (both "a\x00b") false).1.emit diskFull).stderr = "disk is full\n" ∧
      ∀ config, (logged.configure (both "a\x00b") false).1.configure config false =
        ((logged.configure (both "a\x00b") false).1, .ok ()) := by
  have hinstalled : (logged.configure (both "a\x00b") false).1.logging.installed.length = 1 := by decide +kernel
  refine ⟨rfl, by decide +kernel, by decide +kernel, hinstalled, by decide +kernel, by decide +kernel, ?_⟩
  refine configure_of_kept fun hc => hc.elim (fun hbare => ?_) Bool.false_ne_true
  rw [hbare] at hinstalled
  cases hinstalled

end Machine
end ComponentUsage
