import ComponentUsage.Machine
import Mathlib.Data.List.Nodup
/-!
# Handlers of the journal

Whatever is done to a journal, its handlers are a console at most and then a log file at most.
Each is attached once and at the level of the journal, so that a record goes to all of them or to
none (`journal_sound`). There is one exception: a configuration that fails over its log file
strands its console, which is installed but never attached (`unsound_of_strands`).
-/

namespace ComponentUsage

/-! ## Sound journals -/

def Sink.isFile : Sink → Bool
  | .console _ => false
  | .file _ _ => true

namespace Logging

/-- A journal as a configuration is to leave it. -/
structure Sound (l : Logging) : Prop where
  /-- At most one console, and after it at most one log file. -/
  kinds : (l.installed.map (·.sink.isFile)).Sublist [false, true]
  attached : l.attached = l.installed.map (·.id)
  distinct : l.attached.Nodup
  level : ∀ h ∈ l.installed, h.level = some l.threshold
  known : ∀ id ∈ l.attached, id < l.next

/-- Records go to installed handlers only. -/
def Kept (l : Logging) : Prop := ∀ id ∈ l.attached, id ∈ l.installed.map (·.id)

/-- Between two moments the handlers of a journal stay the same ones, or all are new. -/
def Renews (l l' : Logging) : Prop :=
  l.next ≤ l'.next ∧ (l'.attached = l.attached ∨ ∀ id ∈ l'.attached, l.next ≤ id)

variable {l l' l'' : Logging}

theorem sound_of_bare (hi : l.installed = []) (ha : l.attached = []) : l.Sound where
  kinds := by
    rw [hi]
    exact List.nil_sublist _
  attached := by rw [hi, ha, List.map_nil]
  distinct := ha ▸ List.nodup_nil
  level := by
    rw [hi]
    nofun
  known := by
    rw [ha]
    nofun

theorem Sound.kept (h : l.Sound) : l.Kept := fun _ hid => h.attached ▸ hid

theorem kept_of_unattached (ha : l.attached = []) : l.Kept := by
  rw [Kept, ha]
  nofun

theorem Renews.refl (l : Logging) : l.Renews l := ⟨Nat.le_refl _, .inl rfl⟩

theorem Renews.trans (h : l.Renews l') (h' : l'.Renews l'') : l.Renews l'' := by
  refine ⟨Nat.le_trans h.1 h'.1, ?_⟩
  rcases h'.2 with hsame | hnew
  · rw [hsame]
    exact h.2
  · exact .inr fun id hid => Nat.le_trans h.1 (hnew id hid)

/-- Where all handlers are new, all later ones are. -/
theorem Renews.new {bound : Nat} (h : l.Renews l') (hb : bound ≤ l.next) (hn : ∀ id ∈ l.attached, bound ≤ id) :
    ∀ id ∈ l'.attached, bound ≤ id := by
  rcases h.2 with hsame | hnew
  · rw [hsame]
    exact hn
  · exact fun id hid => Nat.le_trans hb (hnew id hid)

/-! ## Records -/

theorem find_of_distinct {hs : List Handler} (hn : (hs.map (·.id)).Nodup) {h : Handler} (hm : h ∈ hs) :
    hs.find? (·.id == h.id) = some h := by
  induction hs with
  | nil => cases hm
  | cons first hs ih =>
    rw [List.map_cons, List.nodup_cons] at hn
    rcases List.mem_cons.1 hm with rfl | hm
    · rw [List.find?_cons_of_pos (by simp)]
    · have hne : first.id ≠ h.id := fun he => hn.1 (List.mem_map.2 ⟨h, hm, he.symm⟩)
      rw [List.find?_cons_of_neg (by simpa using hne)]
      exact ih hn.2 hm

/-- In a sound journal a record goes to each handler once, or to none. -/
theorem Sound.receivers (h : l.Sound) (r : Record) :
    l.receivers r = if r.level.atLeast l.threshold then l.installed else [] := by
  have hdistinct := h.distinct
  rw [h.attached] at hdistinct
  have hfound : l.attached.filterMap (fun id => l.installed.find? (·.id == id)) = l.installed := by
    rw [h.attached, List.filterMap_map]
    exact (List.filterMap_congr fun handler hm => find_of_distinct hdistinct hm).trans List.filterMap_some
  rw [Logging.receivers, hfound]
  split
  · rename_i hr
    refine List.filter_eq_self.2 fun handler hm => ?_
    rw [Handler.takes, h.level handler hm]
    exact hr
  · rfl

/-- What a handler keeps while it takes records. -/
def face (h : Handler) : Nat × Bool × Option Level := (h.id, h.sink.isFile, h.level)

/-- Journals that differ at most in how far their handlers have come. -/
structure Alike (l l' : Logging) : Prop where
  threshold : l'.threshold = l.threshold
  faces : l'.installed.map face = l.installed.map face
  attached : l'.attached = l.attached
  next : l'.next = l.next

theorem Alike.refl (l : Logging) : l.Alike l := ⟨rfl, rfl, rfl, rfl⟩

theorem Alike.trans (h : l.Alike l') (h' : l'.Alike l'') : l.Alike l'' :=
  ⟨h'.threshold.trans h.threshold, h'.faces.trans h.faces, h'.attached.trans h.attached, h'.next.trans h.next⟩

theorem Alike.renews (h : l.Alike l') : l.Renews l' := ⟨Nat.le_of_eq h.next.symm, .inl h.attached⟩

/-- What faces tell is the same of journals that are alike. -/
theorem Alike.map_eq {α : Type} (h : l.Alike l') (f : Nat × Bool × Option Level → α) :
    l'.installed.map (f ∘ face) = l.installed.map (f ∘ face) := by
  rw [← List.map_map, ← List.map_map, h.faces]

theorem Alike.sound (h : l.Alike l') (hl : l.Sound) : l'.Sound where
  kinds := by
    have hkinds := h.map_eq (·.2.1)
    exact hkinds ▸ hl.kinds
  attached := by
    have hids := h.map_eq (·.1)
    rw [h.attached, hl.attached]
    exact hids.symm
  distinct := h.attached ▸ hl.distinct
  level := by
    intro handler hm
    have hlevels := h.map_eq (·.2.2)
    have hmem : handler.level ∈ l'.installed.map (·.level) := List.mem_map.2 ⟨handler, hm, rfl⟩
    obtain ⟨old, hold, hlevel⟩ := List.mem_map.1 (hlevels ▸ hmem)
    rw [h.threshold, ← hl.level old hold]
    exact hlevel.symm
  known := by
    rw [h.attached, h.next]
    exact hl.known

theorem Sound.distinctIds (h : l.Sound) : (l.installed.map (·.id)).Nodup := h.attached ▸ h.distinct

/-- A handler of the journal may turn to another place, if that is of the same kind. -/
theorem Sound.alike_redirect (hl : l.Sound) {h : Handler} (hm : face h ∈ l.installed.map face) {sink : Sink}
    (hs : sink.isFile = h.sink.isFile) : l.Alike (l.redirect h.id sink) := by
  refine ⟨rfl, ?_, rfl, rfl⟩
  obtain ⟨own, hown, hface⟩ := List.mem_map.1 hm
  rw [redirect, List.map_map]
  refine List.map_congr_left fun other ho => ?_
  rw [Function.comp_apply]
  split
  · rename_i hid
    have hid' : other.id = own.id := hid.trans (congrArg Prod.fst hface).symm
    obtain rfl : other = own := List.inj_on_of_nodup_map hl.distinctIds ho hown hid'
    have hkind : h.sink.isFile = other.sink.isFile := (congrArg (·.2.1) hface).symm
    rw [face, face, hs, hkind]
  · rfl

/-- A log file is cut off from the disk. -/
theorem alike_cutOff (l : Logging) (w : World) (full : String) : l.Alike (l.cutOff w full) := by
  refine ⟨rfl, ?_, rfl, rfl⟩
  rw [cutOff, List.map_map]
  refine List.map_congr_left fun h _ => ?_
  obtain ⟨id, sink, level⟩ := h
  cases sink with
  | console format => rfl
  | file format log =>
    rw [Function.comp_apply]
    dsimp only
    split <;> rfl

end Logging

namespace Machine

open Logging

variable {m m' : Machine}

/-- A handler that gets a record turns at most to another place of the same kind. -/
theorem logging_handle (m : Machine) (r : Record) (h : Handler) :
    (m.handle r h).logging = m.logging ∨
      ∃ sink, sink.isFile = h.sink.isFile ∧ (m.handle r h).logging = m.logging.redirect h.id sink := by
  unfold handle
  cases hs : h.sink with
  | console format => exact .inl rfl
  | file format log =>
    dsimp only
    split
    rename_i result log' world hadd
    refine .inr ⟨.file format log', rfl, ?_⟩
    split <;> rfl

theorem alike_handle (hl : m.logging.Sound) {h : Handler} (hm : face h ∈ m.logging.installed.map face) (r : Record) :
    m.logging.Alike (m.handle r h).logging := by
  rcases m.logging_handle r h with hsame | ⟨sink, hkind, hredirect⟩
  · rw [hsame]
    exact .refl _
  · rw [hredirect]
    exact hl.alike_redirect hm hkind

/-- Handlers that get a record one after the other stay what they are. -/
theorem alike_handleAll (r : Record) (hs : List Handler) (hl : m.logging.Sound)
    (hm : ∀ h ∈ hs, face h ∈ m.logging.installed.map face) :
    m.logging.Alike (hs.foldl (·.handle r) m).logging := by
  induction hs generalizing m with
  | nil => exact .refl _
  | cons h hs ih =>
    have hfirst := alike_handle hl (hm h List.mem_cons_self) r
    refine hfirst.trans (ih (hfirst.sound hl) fun h' hm' => ?_)
    rw [hfirst.faces]
    exact hm h' (List.mem_cons_of_mem _ hm')

theorem alike_emit (hl : m.logging.Sound) (r : Record) : m.logging.Alike (m.emit r).logging := by
  unfold emit
  split
  · split <;> exact .refl _
  · refine alike_handleAll r _ hl fun h hm => ?_
    rw [hl.receivers] at hm
    split at hm
    · exact List.mem_map.2 ⟨h, hm, rfl⟩
    · cases hm

end Machine

/-! ## Configurations -/

namespace Logging

variable {l : Logging} {bound : Nat}

/-- Handlers with new numbers are installed and wait to be attached. -/
structure Waiting (bound : Nat) (l : Logging) : Prop where
  unattached : l.attached = []
  distinct : (l.installed.map (·.id)).Nodup
  new : ∀ h ∈ l.installed, bound ≤ h.id ∧ h.id < l.next
  bounded : bound ≤ l.next

theorem waiting_of_bare (hi : l.installed = []) (ha : l.attached = []) : l.Waiting l.next where
  unattached := ha
  distinct := by
    rw [hi]
    exact List.nodup_nil
  new := by
    rw [hi]
    nofun
  bounded := Nat.le_refl _

theorem Waiting.install (h : l.Waiting bound) (sink : Sink) : (l.install sink).Waiting bound where
  unattached := h.unattached
  distinct := by
    rw [Logging.install, List.map_append, List.nodup_append]
    refine ⟨h.distinct, List.nodup_singleton _, fun id hid next hnext => ?_⟩
    obtain ⟨handler, hm, rfl⟩ := List.mem_map.1 hid
    obtain rfl : next = l.next := List.mem_singleton.1 hnext
    exact Nat.ne_of_lt (h.new handler hm).2
  new := by
    intro handler hm
    rcases List.mem_append.1 hm with hm | hm
    · exact ⟨(h.new handler hm).1, Nat.lt_succ_of_lt (h.new handler hm).2⟩
    · rw [List.mem_singleton.1 hm]
      exact ⟨h.bounded, Nat.lt_succ_self _⟩
  bounded := Nat.le_succ_of_le h.bounded

theorem Waiting.installs (h : l.Waiting bound) (sinks : List Sink) : (sinks.foldl Logging.install l).Waiting bound :=
  List.foldlRecOn (motive := fun l : Logging => l.Waiting bound) sinks _ h fun _ hl sink _ => hl.install sink

theorem sinks_installs (l : Logging) (sinks : List Sink) :
    (sinks.foldl install l).installed.map (·.sink) = l.installed.map (·.sink) ++ sinks := by
  induction sinks generalizing l with
  | nil => exact (List.append_nil _).symm
  | cons sink sinks ih =>
    rw [List.foldl_cons, ih, install, List.map_append, List.append_assoc]
    rfl

theorem kinds_installs (l : Logging) (sinks : List Sink) :
    (sinks.foldl install l).installed.map (·.sink.isFile) = l.installed.map (·.sink.isFile) ++ sinks.map Sink.isFile := by
  have hsinks := congrArg (List.map Sink.isFile) (sinks_installs l sinks)
  rwa [List.map_append, List.map_map, List.map_map] at hsinks

theorem threshold_installs (l : Logging) (sinks : List Sink) : (sinks.foldl install l).threshold = l.threshold :=
  List.foldlRecOn (motive := fun l' : Logging => l'.threshold = l.threshold) sinks _ rfl fun _ hl _ _ => hl

/-- Handlers that wait are attached, all at the level of the journal. -/
theorem Waiting.sound_attachAll (h : l.Waiting bound) (hk : (l.installed.map (·.sink.isFile)).Sublist [false, true]) :
    (l.attachAll l.threshold).Sound ∧ ∀ id ∈ (l.attachAll l.threshold).attached, bound ≤ id := by
  have hids : (l.attachAll l.threshold).attached = l.installed.map (·.id) := by
    rw [attachAll, h.unattached]
    simp
  have hkeep : ∀ {α : Type} (f : Handler → α), (∀ handler : Handler, f { handler with level := some l.threshold } = f handler) →
      (l.attachAll l.threshold).installed.map f = l.installed.map f := by
    intro α f hf
    rw [attachAll, List.map_map]
    exact List.map_congr_left fun handler _ => hf handler
  have hnew : ∀ id ∈ (l.attachAll l.threshold).attached, bound ≤ id ∧ id < l.next := by
    intro id hid
    rw [hids] at hid
    obtain ⟨handler, hm, rfl⟩ := List.mem_map.1 hid
    exact h.new handler hm
  refine ⟨⟨?_, ?_, ?_, ?_, fun id hid => (hnew id hid).2⟩, fun id hid => (hnew id hid).1⟩
  · rw [hkeep (·.sink.isFile) fun _ => rfl]
    exact hk
  · rw [hids, hkeep (·.id) fun _ => rfl]
  · rw [hids]
    exact h.distinct
  · intro handler hm
    obtain ⟨old, -, rfl⟩ := List.mem_map.1 hm
    rfl

/-- A journal whose handlers are taken away has none attached. -/
theorem Kept.attached_shutdown (h : l.Kept) : l.shutdown.attached = [] := by
  rw [shutdown, List.filter_eq_nil_iff]
  intro id hid
  simpa using h id hid

end Logging

namespace Machine

open Logging

variable {m : Machine}

/-- What a configuration of the journal starts from. -/
def cleared (m : Machine) (config : LoggingConfig) : Logging :=
  { m.logging.shutdown with threshold := Level.ofSetting config.level }

/-- The console that a configuration asks for. -/
def consoles (config : LoggingConfig) : List Sink :=
  if config.console then [.console config.consoleFormat] else []

@[simp] theorem threshold_cleared (m : Machine) (config : LoggingConfig) :
    (m.cleared config).threshold = Level.ofSetting config.level := by
  rw [cleared]

@[simp] theorem installed_cleared (m : Machine) (config : LoggingConfig) : (m.cleared config).installed = [] := by
  simp only [cleared, Logging.shutdown]

@[simp] theorem next_cleared (m : Machine) (config : LoggingConfig) : (m.cleared config).next = m.logging.next := by
  simp only [cleared, Logging.shutdown]

theorem attached_cleared (hl : m.logging.Kept) (config : LoggingConfig) : (m.cleared config).attached = [] := by
  rw [cleared]
  exact hl.attached_shutdown

/-- A log file stops a configuration: its format says nothing, or it cannot be opened and the disk
is not to blame. -/
def StopsAtFile (w : World) (config : LoggingConfig) : Prop :=
  ∃ path, config.file = some path ∧
    (config.fileFormat.isValid = false ∨
      ∃ fault, (w.openLog (w.here.absolute path)).2 = .error fault ∧ fault.isDisk = false)

theorem logging_installFile (m : Machine) {config : LoggingConfig} {path : String} (hp : config.file = some path) :
    ((m.installFile config path).2 = .ok () ∧
      ∃ files : List Sink, (files.map Sink.isFile).Sublist [true] ∧
        (m.installFile config path).1.logging = files.foldl install m.logging) ∨
    ∃ fault, (m.installFile config path).2 = .error fault ∧ (m.installFile config path).1.logging = m.logging ∧
      StopsAtFile m.world config := by
  unfold installFile
  dsimp only
  split
  · split
    · exact .inl ⟨rfl, [.file _ _], List.Sublist.refl _, rfl⟩
    · rename_i hformat
      exact .inr ⟨_, rfl, rfl, path, hp, .inl (Bool.eq_false_iff.2 hformat)⟩
  · rename_i fault hopen
    split
    · exact .inl ⟨rfl, [], List.nil_sublist _, rfl⟩
    · rename_i hdisk
      exact .inr ⟨_, rfl, rfl, path, hp, .inr ⟨fault, congrArg Prod.snd hopen, Bool.eq_false_iff.2 hdisk⟩⟩

/-- Handlers are installed, the console first. Where that fails, it is over the format of the
console, or over the log file when the console is installed already. -/
theorem logging_installAll (m : Machine) (config : LoggingConfig) :
    ((m.installAll config).2 = .ok () ∧
      ∃ files : List Sink, (files.map Sink.isFile).Sublist [true] ∧
        (m.installAll config).1.logging = (consoles config ++ files).foldl install m.logging) ∨
    ∃ fault, (m.installAll config).2 = .error fault ∧
      ((m.installAll config).1.logging =
        if config.console && config.consoleFormat.isValid then m.logging.install (.console config.consoleFormat)
        else m.logging) ∧
      (config.consoleFormat.isValid = false ∨ StopsAtFile m.world config) := by
  unfold installAll
  by_cases hbad : (config.console && !config.consoleFormat.isValid) = true
  · rw [if_pos hbad]
    rw [Bool.and_eq_true, Bool.not_eq_true'] at hbad
    refine .inr ⟨_, rfl, ?_, .inl hbad.2⟩
    rw [hbad.1, hbad.2]
    rfl
  · rw [if_neg hbad]
    -- the console is installed: whether there is to be a log file is asked next
    generalize hm : (if config.console = true then
      { m with logging := m.logging.install (.console config.consoleFormat) } else m) = consoled
    have hconsole : consoled.logging = (consoles config).foldl install m.logging := by
      rw [← hm, consoles]
      split <;> rfl
    have hstart : (if config.console && config.consoleFormat.isValid then
        m.logging.install (.console config.consoleFormat) else m.logging) = consoled.logging := by
      rw [← hm]
      cases hc : config.console with
      | false => rfl
      | true =>
        rw [hc, Bool.true_and, Bool.not_eq_true', Bool.not_eq_false] at hbad
        rw [hbad]
        rfl
    have hunfiled : consoled.logging = (consoles config ++ []).foldl install m.logging := by
      rw [List.append_nil]
      exact hconsole
    rw [hstart]
    dsimp only
    split
    · exact .inl ⟨rfl, [], List.nil_sublist _, hunfiled⟩
    · rename_i path hpath
      by_cases hp : path = ""
      · rw [if_pos hp]
        exact .inl ⟨rfl, [], List.nil_sublist _, hunfiled⟩
      · rw [if_neg hp]
        have hworld : consoled.world = m.world := by
          rw [← hm]
          split <;> rfl
        rcases logging_installFile consoled hpath with ⟨hr, files, hk, hl⟩ | ⟨fault, hr, hl, hstops⟩
        · refine .inl ⟨hr, files, hk, ?_⟩
          rw [hl, hconsole, List.foldl_append]
        · exact .inr ⟨fault, hr, hl, .inr (hworld ▸ hstops)⟩

/-- A configuration takes effect: it is forced, or there are no handlers. -/
def Configures (m : Machine) (forced : Bool) : Prop := m.logging.installed = [] ∨ forced = true

theorem configure_of_kept {forced : Bool} (h : ¬ m.Configures forced) (config : LoggingConfig) :
    m.configure config forced = (m, .ok ()) := by
  rw [Configures, not_or] at h
  have hkept : (!m.logging.installed.isEmpty && !forced) = true := by
    rw [Bool.and_eq_true, Bool.not_eq_true', Bool.not_eq_true', Bool.eq_false_iff, Bool.eq_false_iff, ne_eq,
      List.isEmpty_iff]
    exact h
  rw [configure, if_pos hkept]

/-- A configuration that takes effect starts from a journal without handlers. What it installs is
attached in the end. -/
theorem configure_of_configures {forced : Bool} (h : m.Configures forced) (config : LoggingConfig) :
    m.configure config forced =
      match { m with logging := m.cleared config }.installAll config with
      | (m', .error fault) => (m', .error fault)
      | (m', .ok ()) => ({ m' with logging := m'.logging.attachAll (Level.ofSetting config.level) }, .ok ()) := by
  have heffect : ¬ (!m.logging.installed.isEmpty && !forced) = true := by
    rw [Bool.and_eq_true, Bool.not_eq_true', Bool.not_eq_true', Bool.eq_false_iff, Bool.eq_false_iff, ne_eq,
      List.isEmpty_iff]
    rintro ⟨hi, hf⟩
    exact h.elim hi hf
  rw [configure, if_neg heffect]
  rfl

/-- A configuration that takes effect attaches all that it asks for and can have. If it fails, its
console is installed all the same, if its format is good. -/
theorem logging_configure {forced : Bool} (h : m.Configures forced) (config : LoggingConfig) :
    ((m.configure config forced).2 = .ok () ∧
      ∃ sinks : List Sink, (sinks.map Sink.isFile).Sublist [false, true] ∧
        (m.configure config forced).1.logging =
          (sinks.foldl install (m.cleared config)).attachAll (m.cleared config).threshold) ∨
    ∃ fault, (m.configure config forced).2 = .error fault ∧
      ((m.configure config forced).1.logging =
        if config.console && config.consoleFormat.isValid then
          (m.cleared config).install (.console config.consoleFormat)
        else m.cleared config) ∧
      (config.consoleFormat.isValid = false ∨ StopsAtFile m.world config) := by
  rw [configure_of_configures h, threshold_cleared]
  have hinstall := logging_installAll { m with logging := m.cleared config } config
  generalize installAll { m with logging := m.cleared config } config = o at hinstall ⊢
  obtain ⟨m', fault | done⟩ := o
  · rcases hinstall with ⟨hr, -⟩ | ⟨fault', hr, hl, hstops⟩
    · cases hr
    · exact .inr ⟨fault, rfl, hl, hstops⟩
  · rcases hinstall with ⟨-, files, hk, hl⟩ | ⟨fault', hr, -⟩
    · refine .inl ⟨rfl, consoles config ++ files, ?_, ?_⟩
      · rw [consoles, List.map_append]
        split
        · exact hk.cons_cons false
        · exact hk.cons false
      · dsimp only at hl ⊢
        rw [hl]
    · cases hr

end Machine

/-! ## Histories -/

/-- What is done to a journal, and what happens meanwhile. -/
inductive JournalCall where
  | configure (config : LoggingConfig) (forced : Bool)
  | record (r : Record)
  | shutdown
  /-- The disk changes and time goes on. -/
  | meanwhile (world : World) (now : String)
  /-- What stands at an absolute path is taken away. -/
  | takeAway (full : String)

namespace Machine

open Logging

variable {m : Machine} {config : LoggingConfig} {forced : Bool}

def act (m : Machine) : JournalCall → Machine
  | .configure config forced => (m.configure config forced).1
  | .record r => m.emit r
  | .shutdown => m.shutdown
  | .meanwhile world now => { m with world, now }
  | .takeAway full => m.takeAway full

/-- The machine after all that, in order. -/
def after (m : Machine) (calls : List JournalCall) : Machine := calls.foldl act m

/-- A configuration fails when its console is installed already. -/
def Strands (m : Machine) : JournalCall → Prop
  | .configure config forced =>
    (m.configure config forced).2.isOk = false ∧ config.console = true ∧ config.consoleFormat.isValid = true
  | _ => False

instance (m : Machine) (call : JournalCall) : Decidable (m.Strands call) :=
  match call with
  | .configure config forced => inferInstanceAs (Decidable
      ((m.configure config forced).2.isOk = false ∧ config.console = true ∧ config.consoleFormat.isValid = true))
  | .record _ | .shutdown | .meanwhile _ _ | .takeAway _ => inferInstanceAs (Decidable False)

/-- None of these strands a console when its turn comes. -/
def Unstranded : Machine → List JournalCall → Prop
  | _, [] => True
  | m, call :: calls => ¬ m.Strands call ∧ (m.act call).Unstranded calls

instance decidableUnstranded : (m : Machine) → (calls : List JournalCall) → Decidable (m.Unstranded calls)
  | _, [] => inferInstanceAs (Decidable True)
  | m, call :: calls =>
    have := decidableUnstranded (m.act call) calls
    inferInstanceAs (Decidable (¬ m.Strands call ∧ (m.act call).Unstranded calls))

/-! ## One step -/

/-- A stranded console is installed and takes all records, but is not attached. -/
theorem stranded (hl : m.logging.Sound) {call : JournalCall} (hs : m.Strands call) :
    ∃ h, (m.act call).logging.installed = [h] ∧ h.sink.isFile = false ∧ h.level = none ∧
      (m.act call).logging.attached = [] := by
  cases call with
  | configure config forced =>
    obtain ⟨hr, hconsole, hvalid⟩ := hs
    by_cases hc : m.Configures forced
    · rcases logging_configure hc config with ⟨hok, -⟩ | ⟨fault, -, hlog, -⟩
      · rw [hok] at hr
        cases hr
      · rw [hconsole, hvalid, Bool.and_self, if_pos rfl] at hlog
        rw [act, hlog, install, installed_cleared]
        exact ⟨_, rfl, rfl, rfl, attached_cleared hl.kept config⟩
    · rw [configure_of_kept hc] at hr
      cases hr
  | record r => exact hs.elim
  | shutdown => exact hs.elim
  | meanwhile world now => exact hs.elim
  | takeAway full => exact hs.elim

theorem unsound_of_strands (hl : m.logging.Sound) {call : JournalCall} (hs : m.Strands call) :
    ¬ (m.act call).logging.Sound := by
  obtain ⟨h, hi, -, -, ha⟩ := stranded hl hs
  intro hsound
  have hattached := hsound.attached
  rw [hi, ha] at hattached
  cases hattached

/-- Only a log file strands a console. -/
theorem stopsAtFile_of_strands (hs : m.Strands (.configure config forced)) : StopsAtFile m.world config := by
  obtain ⟨hr, -, hvalid⟩ := hs
  by_cases hc : m.Configures forced
  · rcases logging_configure hc config with ⟨hok, -⟩ | ⟨fault, -, -, hformat | hstops⟩
    · rw [hok] at hr
      cases hr
    · exact absurd (hformat.symm.trans hvalid) Bool.false_ne_true
    · exact hstops
  · rw [configure_of_kept hc] at hr
    cases hr

/-- A configuration that takes effect and strands nothing leaves a sound journal with new handlers. -/
theorem sound_configure_of_kept (hl : m.logging.Kept) (hc : m.Configures forced)
    (hs : ¬ m.Strands (.configure config forced)) :
    (m.configure config forced).1.logging.Sound ∧ m.logging.next ≤ (m.configure config forced).1.logging.next ∧
      ∀ id ∈ (m.configure config forced).1.logging.attached, m.logging.next ≤ id := by
  have hbare := installed_cleared m config
  have hattached := attached_cleared hl config
  rcases logging_configure hc config with ⟨-, sinks, hk, hlog⟩ | ⟨fault, hr, hlog, -⟩
  · have hwaiting := (waiting_of_bare hbare hattached).installs sinks
    have hkinds : ((sinks.foldl install (m.cleared config)).installed.map (·.sink.isFile)).Sublist [false, true] := by
      rw [kinds_installs, hbare]
      exact hk
    obtain ⟨hsound, hnew⟩ := hwaiting.sound_attachAll hkinds
    rw [threshold_installs] at hsound hnew
    have hbounded := hwaiting.bounded
    rw [next_cleared] at hbounded hnew
    rw [hlog]
    exact ⟨hsound, hbounded, hnew⟩
  · have hgood : ¬ (config.console && config.consoleFormat.isValid) = true := by
      rw [Bool.and_eq_true]
      exact fun hgood => hs ⟨by rw [hr]; rfl, hgood⟩
    rw [if_neg hgood] at hlog
    rw [hlog, next_cleared, hattached]
    exact ⟨sound_of_bare hbare hattached, Nat.le_refl _, nofun⟩

theorem sound_configure (hl : m.logging.Sound) (hc : m.Configures forced)
    (hs : ¬ m.Strands (.configure config forced)) :
    (m.configure config forced).1.logging.Sound ∧ m.logging.next ≤ (m.configure config forced).1.logging.next ∧
      ∀ id ∈ (m.configure config forced).1.logging.attached, m.logging.next ≤ id :=
  sound_configure_of_kept hl.kept hc hs

/-- One step keeps a journal sound, and its handlers stay or are new. -/
theorem sound_act (hl : m.logging.Sound) {call : JournalCall} (hs : ¬ m.Strands call) :
    (m.act call).logging.Sound ∧ m.logging.Renews (m.act call).logging := by
  cases call with
  | configure config forced =>
    by_cases hc : m.Configures forced
    · obtain ⟨hsound, hnext, hnew⟩ := sound_configure hl hc hs
      exact ⟨hsound, hnext, .inr hnew⟩
    · rw [act, configure_of_kept hc]
      exact ⟨hl, .refl _⟩
  | record r => exact ⟨(alike_emit hl r).sound hl, (alike_emit hl r).renews⟩
  | shutdown =>
    have hattached : (m.act .shutdown).logging.attached = [] := hl.kept.attached_shutdown
    exact ⟨sound_of_bare rfl hattached, Nat.le_refl _, .inr (hattached ▸ nofun)⟩
  | meanwhile world now => exact ⟨hl, .refl _⟩
  | takeAway full =>
    have halike := alike_cutOff m.logging m.world full
    exact ⟨halike.sound hl, halike.renews⟩

theorem sound_after (hl : m.logging.Sound) {calls : List JournalCall} (h : m.Unstranded calls) :
    (m.after calls).logging.Sound ∧ m.logging.Renews (m.after calls).logging := by
  induction calls generalizing m with
  | nil => exact ⟨hl, .refl _⟩
  | cons call calls ih =>
    obtain ⟨hsound, hrenews⟩ := sound_act hl h.1
    obtain ⟨hsound', hrenews'⟩ := ih hsound h.2
    exact ⟨hsound', hrenews.trans hrenews'⟩

theorem after_append (m : Machine) (calls calls' : List JournalCall) :
    m.after (calls ++ calls') = (m.after calls).after calls' :=
  List.foldl_append

theorem unstranded_append {calls calls' : List JournalCall} :
    m.Unstranded (calls ++ calls') ↔ m.Unstranded calls ∧ (m.after calls).Unstranded calls' := by
  induction calls generalizing m with
  | nil => simp [Unstranded, after]
  | cons call calls ih =>
    rw [List.cons_append, Unstranded, Unstranded, ih, and_assoc]
    rfl

/-- Where a history strands a console, a first configuration of it does. -/
theorem exists_strands_of_not_unstranded {calls : List JournalCall} (h : ¬ m.Unstranded calls) :
    ∃ earlier config forced later, calls = earlier ++ .configure config forced :: later ∧
      m.Unstranded earlier ∧ (m.after earlier).Strands (.configure config forced) := by
  induction calls generalizing m with
  | nil => exact (h trivial).elim
  | cons call calls ih =>
    by_cases hs : m.Strands call
    · cases call with
      | configure config forced => exact ⟨[], config, forced, calls, rfl, trivial, hs⟩
      | record r => exact hs.elim
      | shutdown => exact hs.elim
      | meanwhile world now => exact hs.elim
      | takeAway full => exact hs.elim
    · obtain ⟨earlier, config, forced, later, rfl, hearlier, hstrands⟩ := ih fun hcalls => h ⟨hs, hcalls⟩
      exact ⟨call :: earlier, config, forced, later, rfl, ⟨hs, hearlier⟩, hstrands⟩

/-- From a journal without handlers on, whatever is configured, reported and shut down: unless a
configuration strands its console, the journal is sound. No handler is attached that is older than
the last configuration that took effect. A configuration that is not forced changes nothing where
there are handlers. A record goes to each handler once, or, below the level of the journal, to
none. Only a log file whose path is none or whose format is refused strands a console, and leaves
the journal unsound. -/
theorem journal_sound {m : Machine} (hm : m.logging = {}) (calls : List JournalCall) :
    let m' := m.after calls
    (m.Unstranded calls →
      m'.logging.Sound ∧
      (∀ earlier config forced later, calls = earlier ++ .configure config forced :: later →
        (m.after earlier).Configures forced →
        ∀ id ∈ m'.logging.attached, (m.after earlier).logging.next ≤ id) ∧
      (∀ config, m'.logging.installed ≠ [] → m'.configure config false = (m', .ok ())) ∧
      ∀ r, m'.logging.receivers r = (if r.level.atLeast m'.logging.threshold then m'.logging.installed else []) ∧
        (m'.logging.installed ≠ [] → m'.emit r = (m'.logging.receivers r).foldl (·.handle r) m')) ∧
    (¬ m.Unstranded calls →
      ∃ earlier config forced later, calls = earlier ++ .configure config forced :: later ∧
        StopsAtFile (m.after earlier).world config ∧
        ¬ (m.after (earlier ++ [.configure config forced])).logging.Sound) := by
  intro m'
  have hstart : m.logging.Sound := sound_of_bare (by rw [hm]) (by rw [hm])
  refine ⟨fun h => ?_, fun h => ?_⟩
  · have hsound : m'.logging.Sound := (sound_after hstart h).1
    refine ⟨hsound, ?_, fun config hi => ?_, fun r => ⟨hsound.receivers r, fun hi => ?_⟩⟩
    · rintro earlier config forced later rfl hc
      obtain ⟨hearlier, hstrands, hlater⟩ := unstranded_append.1 h
      obtain ⟨hconfigured, hnext, hnew⟩ := sound_configure (sound_after hstart hearlier).1 hc hstrands
      have hmachine : m' = ((m.after earlier).act (.configure config forced)).after later := after_append _ _ _
      rw [hmachine]
      exact (sound_after hconfigured hlater).2.new hnext hnew
    · exact configure_of_kept (fun hc => hc.elim hi Bool.false_ne_true) config
    · have hattached : m'.logging.attached.isEmpty = false := by
        rw [hsound.attached, List.isEmpty_map, List.isEmpty_eq_false_iff]
        exact hi
      rw [emit, hattached, if_neg Bool.false_ne_true]
  · obtain ⟨earlier, config, forced, later, hcalls, hearlier, hstrands⟩ := exists_strands_of_not_unstranded h
    refine ⟨earlier, config, forced, later, hcalls, stopsAtFile_of_strands hstrands, ?_⟩
    rw [after_append]
    exact unsound_of_strands (sound_after hstart hearlier).1 hstrands

/-- A machine with an empty log file on its disk. -/
def logged : Machine where
  world := {
    root := .folder [("run.log", .file .empty)]
    here := { workingDirectory := "/", environment := .empty } }

/-- A console and a log file, then a record, then a new console in their place. -/
def replacing : List JournalCall := [
  .configure { file := some "run.log" } false,
  .record { level := .error, source := "test", message := "disk is full" },
  .configure { level := "DEBUG" } true]

/-- The two first handlers are gone in the end, and a record of the lowest level goes to the new
console. -/
theorem journal_sound_replacing :
    logged.logging = {} ∧ logged.Unstranded replacing ∧
      (logged.after replacing).logging.Sound ∧
      (logged.after (replacing.take 2)).logging.attached = [0, 1] ∧
      (∀ id ∈ (logged.after replacing).logging.attached, 2 ≤ id) ∧
      ∀ r : Record, r.level = .debug → ((logged.after replacing).logging.receivers r).length = 1 := by
  have hclean : logged.Unstranded replacing := by decide +kernel
  have hfirst : (logged.after (replacing.take 2)).logging.attached = [0, 1] ∧
      (logged.after (replacing.take 2)).logging.next = 2 := by decide +kernel
  have hlast : (logged.after replacing).logging.threshold = .debug ∧
      (logged.after replacing).logging.installed.length = 1 := by decide +kernel
  obtain ⟨hsound, hnew, -, hrecord⟩ := (journal_sound (m := logged) rfl replacing).1 hclean
  refine ⟨rfl, hclean, hsound, hfirst.1, ?_, fun r hr => ?_⟩
  · rw [← hfirst.2]
    exact hnew (replacing.take 2) { level := "DEBUG" } true [] rfl (.inr rfl)
  · rw [(hrecord r).1, hlast.1, hr]
    exact hlast.2

/-- A console, and a log file whose format says nothing of a record. -/
def mute : LoggingConfig := { file := some "run.log", fileFormat := "plain" }

/-- That configuration strands its console, and no other one changes that unless it is forced. -/
theorem journal_unsound_mute :
    logged.logging = {} ∧ (logged.after [.configure mute false]).logging.installed.length = 1 ∧
      (logged.after [.configure mute false]).logging.attached = [] ∧
      ¬ (logged.after [.configure mute false]).logging.Sound ∧
      ∀ config, (logged.after [.configure mute false]).configure config false =
        (logged.after [.configure mute false], .ok ()) := by
  have hstart : logged.logging.Sound := sound_of_bare rfl rfl
  have hstrands : logged.Strands (.configure mute false) := by decide +kernel
  obtain ⟨h, hi, -, -, ha⟩ := stranded hstart hstrands
  have hafter : logged.after [.configure mute false] = logged.act (.configure mute false) := rfl
  rw [hafter]
  refine ⟨rfl, by rw [hi]; rfl, ha, unsound_of_strands hstart hstrands, configure_of_kept fun hc => ?_⟩
  rcases hc with hc | hc
  · rw [hi] at hc
    cases hc
  · cases hc

end Machine
end ComponentUsage
