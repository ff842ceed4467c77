import ComponentUsage.App
import ComponentUsage.Proofs.CommandLine.Attached
import ComponentUsage.Proofs.Disk.Depth
import ComponentUsage.Proofs.Settings.Layered
/-!
# Settings that are printed and read again

The settings of a call, printed and saved, are the settings of a call that reads them
(`dump_again`).
-/

namespace ComponentUsage

/-! ## What a job returns -/

namespace Job

variable {α β : Type} {P : α → Prop} {Q : β → Prop}

/-- A job returns something of which this holds, whatever happens between its steps, or fails. -/
inductive Returns (P : α → Prop) : Job α → Prop
  | ok {x : α} : P x → Returns P (.done (.ok x))
  | error (fault : Fault) : Returns P (.done (.error fault))
  | report (r : Record) {next : Job α} : Returns P next → Returns P (.report r next)
  | look {next : World → Job α} : (∀ w, Returns P (next w)) → Returns P (.look next)
  | save (path text : String) {next : Except Fault Unit → Job α} :
      (∀ saved, Returns P (next saved)) → Returns P (.save path text next)

theorem Returns.bind {job : Job α} {f : α → Job β} (hj : job.Returns P) (hf : ∀ x, P x → (f x).Returns Q) :
    (job >>= f).Returns Q := by
  change (job.bind f).Returns Q
  induction hj with
  | ok hx => exact hf _ hx
  | error fault => exact .error fault
  | report r _ ih => exact .report r ih
  | look _ ih => exact .look ih
  | save path text _ ih => exact .save path text ih

theorem Returns.disk : disk.Returns fun _ => True := .look fun _ => .ok trivial

theorem Returns.tell (level : Level) (source message : String) :
    (Job.tell level source message).Returns fun _ => True := .report _ (.ok trivial)

theorem Returns.tellAll (rs : List Record) : (Job.tellAll rs).Returns fun _ => True := by
  induction rs with
  | nil => exact .ok trivial
  | cons r rs ih => exact .report r ih

/-- So it does on a machine, whose journal may write between the steps. -/
theorem Returns.perform {job : Job α} (hj : job.Returns P) {m m' : Machine} {x : α}
    (h : m.perform job = (m', .ok x)) : P x := by
  induction hj generalizing m with
  | ok hx =>
    cases h
    exact hx
  | error fault => cases h
  | report r _ ih => exact ih h
  | look _ ih => exact ih _ h
  | save path text _ ih => exact ih _ h

end Job

/-! ## The settings of a call -/

namespace CommandLine.Options

/-- Only a settings file is given, and to print what comes of it. -/
def dumped (p : String) : Options := (give {} .config (.text p)).give .dumpConfig .on

/-- There is such a command line for every file. The path is attached to its option, so that it may
look like an option itself. -/
theorem parse_dumped {p : String} (hp : p ≠ "--") :
    parse ["--config" ++ "=" ++ p, "--dump-config"] = .ok (.dumped p) := by
  have hconfig : Shape.ofWord ("--config" ++ "=" ++ p) = .ok (.option .config "--config" (some p)) :=
    ofWord_append (by decide +kernel) p
  have hdump : Shape.ofWord "--dump-config" = .ok (.option .dumpConfig "--dump-config" none) := by
    decide +kernel
  have hne : "--config" ++ "=" ++ p ≠ "--" := fun h => by
    have hequals : '=' ∈ ("--config" ++ "=" ++ p).toList := by simp [String.toList_append]
    exact absurd (h ▸ hequals) (by decide)
  have hclassify : classify ["--config" ++ "=" ++ p, "--dump-config"] =
      .ok [("--config" ++ "=" ++ p, .option .config "--config" (some p)),
        ("--dump-config", .option .dumpConfig "--dump-config" none)] := by
    rw [classify.eq_3 _ _ hne, classify.eq_3 _ _ (by decide), classify, hconfig, hdump]
    rfl
  rw [parse, hclassify]
  change read {} [] [(_, .option .config "--config" (some p)), (_, .option .dumpConfig "--dump-config" none)] = _
  rw [read_attached rfl rfl hp, read_switch rfl (by decide), read]
  rfl

/-- Nothing is said about any setting. -/
theorem silent_dumped (p : String) (key : String) :
    Json.member? key (dumped p).layer = none ∨ Json.member? key (dumped p).layer = some .null := by
  have hlayer : (dumped p).layer = direct.map fun opt => (opt.key, .null) := rfl
  rw [hlayer]
  induction direct with
  | nil => exact .inl rfl
  | cons opt opts ih =>
    rw [List.map_cons, Json.member?, lookup_entry]
    split
    · exact .inr rfl
    · exact ih

end CommandLine.Options

namespace Machine

open CommandLine Settings

theorem returns_reportUnknown (members : List (String × Json)) : (reportUnknown members).Returns fun _ => True := by
  unfold reportUnknown
  dsimp only
  split
  · exact .ok trivial
  · exact .tell _ _ _

theorem returns_baseLayer (o : Options) : (baseLayer o).Returns fun base => base.map Prod.fst = Settings.keys := by
  have hdefaults : (pure Settings.defaults : Job Layer).Returns fun base => base.map Prod.fst = Settings.keys :=
    .ok rfl
  unfold baseLayer load
  split
  · exact hdefaults
  · split
    · exact hdefaults
    · split
      · exact hdefaults
      · refine .bind .disk fun w _ => ?_
        split
        · exact .bind (.tell _ _ _) fun _ _ => hdefaults
        · split
          · exact .error _
          · exact .bind (.tell _ _ _) fun _ _ => hdefaults
          · exact .bind (.tell _ _ _) fun _ _ => hdefaults
          · rename_i members _
            refine .bind (returns_reportUnknown members) fun _ _ => .bind (.tell _ _ _) fun _ _ => ?_
            exact .ok (names_overDefaults members)
          · exact .bind (.tell _ _ _) fun _ _ => hdefaults

theorem extras_settle (o : Options) {base : Layer} (h : base.map Prod.fst = Settings.keys) :
    (settle o base).1.extras = [] := by
  rw [settle, extras_mend, unknown, List.filter_eq_nil_iff]
  intro e he
  have hkey : e.1 ∈ (overlay base o.layer).map Prod.fst := List.mem_map.2 ⟨e, he, rfl⟩
  rw [names_overlay h] at hkey
  simpa using hkey

/-- The settings of a call are settled, and there are no members that are no settings. -/
theorem returns_settings (o : Options) : (settings o).Returns fun s => s.Settled ∧ s.extras = [] := by
  refine .bind (.tell _ _ _) fun _ _ => .bind (returns_baseLayer o) fun base hbase => ?_
  exact .bind (.tellAll _) fun _ _ => .ok ⟨settled_mend _, extras_settle o hbase⟩

/-! ## Reading them again -/

theorem exists_of_read {w : World} {p : String} {content : ByteArray} (h : w.read p = .ok content) :
    p ≠ "" ∧ w.exists? p = true := by
  have hf := World.find_of_read h
  constructor
  · rintro rfl
    cases hf
  · rw [World.exists?, World.isFile, hf]
    rfl

section

variable {s : Settings} {w : World} {p : String} (hs : s.Settled) (he : s.extras = [])
  (hr : w.read p = .ok (s.toJson.print .indented ++ "\n").toUTF8)

include he hr

theorem on_load : (load (some p)).on w =
    ⟨[{ level := .debug, source := Settings.source, message := s!"Configuration loaded from {p}" }],
      .ok s.members, w⟩ := by
  obtain ⟨hne, hexists⟩ := exists_of_read hr
  have hunknown : reportUnknown s.members = pure () := by
    rw [reportUnknown, names_members he]
    rfl
  simp only [load, hne, if_false, Job.on_bind, Job.on_disk, Outcome.andThen_ok, hexists, Bool.not_true,
    Bool.false_eq_true, readJson_print he hr, toJson, hunknown, Job.on_pure, Job.on_tell, overDefaults_members he]
  rfl

include hs

/-- A call that only reads them has the same settings, and nothing to complain about. -/
theorem on_settings_dumped : (settings (.dumped p)).on w =
    ⟨[{ level := .debug, source, message := "CLI execution initiated. Resolving configuration hierarchy..." },
      { level := .debug, source := Settings.source, message := s!"Configuration loaded from {p}" }],
      .ok s, w⟩ := by
  have hbase : baseLayer (.dumped p) = load (some p) := rfl
  have hsettle : settle (.dumped p) s.members = (s, []) := by
    rw [settle, overlay_of_silent (Options.silent_dumped p)]
    exact mend_of_settled hs
  simp only [settings, hbase, Job.on_bind, Job.on_tell, Outcome.andThen_ok, on_load he hr, hsettle]
  rfl

end

/-- A job of whose reports nobody hears comes to what it comes to on the disk alone, and changes
nothing else. -/
theorem perform_of_unheard {α : Type} {m : Machine} {job : Job α}
    (h : ∀ r ∈ (job.on m.world).records, ∀ w, { m with world := w }.emit r = { m with world := w }) :
    m.perform job = ({ m with world := (job.on m.world).world }, (job.on m.world).result) := by
  induction job generalizing m with
  | done result => rfl
  | report r next ih =>
    rw [Job.on] at h ⊢
    have hr : m.emit r = m := h r List.mem_cons_self m.world
    rw [perform, hr]
    exact ih fun r hr => h r (List.mem_cons_of_mem _ hr)
  | look next ih => exact ih m.world h
  | save path text next ih =>
    simp only [perform, Job.on, World.storage_save] at h ⊢
    generalize m.world.save path text = saved at h ⊢
    exact @ih saved.2 { m with world := saved.1 } h

/-- The journal of a call that prints what is of interest to its user. -/
def plainLogging : Logging where
  threshold := .info
  installed := [⟨0, .console "%(levelname)s | %(message)s", some .info⟩]
  attached := [0]
  next := 1

theorem configure_dumped {m : Machine} (h : m.logging = {}) (p : String) :
    m.configure (loggingConfig (.dumped p)) false = ({ m with logging := plainLogging }, .ok ()) := by
  have hconfig : loggingConfig (.dumped p) = {} := rfl
  have hlevel : Level.ofSetting ({} : LoggingConfig).level = .info := by decide +kernel
  have hformat : ({} : LoggingConfig).consoleFormat.isValid = true := by decide +kernel
  simp only [hconfig, configure, installAll, h, hlevel, hformat]
  rfl

theorem emit_of_debug {m : Machine} (h : m.logging = plainLogging) {r : Record} (hr : r.level = .debug) :
    m.emit r = m := by
  have hreceivers : m.logging.receivers r = [] := by
    rw [Logging.receivers, h, hr]
    rfl
  rw [emit, hreceivers, h]
  rfl

/-! ## What is printed -/

theorem stdout_handle (m : Machine) (r : Record) (h : Handler) : (m.handle r h).stdout = m.stdout := by
  unfold handle
  split
  · rfl
  · dsimp only
    split
    split <;> rfl

theorem stdout_emit (m : Machine) (r : Record) : (m.emit r).stdout = m.stdout := by
  unfold emit
  split
  · split <;> rfl
  · exact List.foldlRecOn (motive := fun n : Machine => n.stdout = m.stdout) _ _ rfl
      fun n hn h _ => (stdout_handle n r h).trans hn

/-- What a job tells is not printed where results are. -/
theorem stdout_perform {α : Type} (m : Machine) (job : Job α) : (m.perform job).1.stdout = m.stdout := by
  induction job generalizing m with
  | done result => rfl
  | report r next ih => exact (ih (m.emit r)).trans (stdout_emit m r)
  | look next ih => exact ih m.world m
  | save path text next ih => exact ih _ _

theorem stdout_installFile (m : Machine) (config : LoggingConfig) (path : String) :
    (m.installFile config path).1.stdout = m.stdout := by
  unfold installFile
  dsimp only
  split
  · split <;> rfl
  · split <;> rfl

theorem stdout_installAll (m : Machine) (config : LoggingConfig) : (m.installAll config).1.stdout = m.stdout := by
  unfold installAll
  split
  · rfl
  · dsimp only
    split
    · split <;> rfl
    · split
      · split <;> rfl
      · rw [stdout_installFile]
        split <;> rfl

theorem stdout_configure (m : Machine) (config : LoggingConfig) (forced : Bool) :
    (m.configure config forced).1.stdout = m.stdout := by
  unfold configure
  split
  · rfl
  · dsimp only
    have h := stdout_installAll
      { m with logging := { m.logging.shutdown with threshold := Level.ofSetting config.level } } config
    split
    · rename_i hi
      rw [hi] at h
      exact h
    · rename_i hi
      rw [hi] at h
      exact h

/-- What a call prints that prints its settings. -/
def dumpText (s : Settings) : String := s.toJson.print .indented ++ "\n"

theorem main_of_dump {m m₁ : Machine} {words : List String} {o : Options} {code : Nat}
    (hw : CommandLine.parse words = .ok o) (hd : o.has .dumpConfig = true) (hm : m.main words = (m₁, .ok code)) :
    ∃ s : Settings, s.Settled ∧ s.extras = [] ∧ m₁.stdout = m.stdout ++ dumpText s ∧ code = 0 := by
  rw [main, hw] at hm
  dsimp only at hm
  rw [call] at hm
  have hconfigured := stdout_configure m (loggingConfig o) false
  rcases hc : m.configure (loggingConfig o) false with ⟨m', fault | _⟩
  · rw [hc] at hm
    cases hm
  · rw [hc] at hm hconfigured
    dsimp only at hm
    have hperformed := stdout_perform m' (settings o)
    rcases hp : m'.perform (settings o) with ⟨m'', fault | s⟩
    · rw [hp] at hm
      cases hm
    · rw [hp] at hm hperformed
      dsimp only at hm
      rw [if_pos hd, Prod.mk.injEq, Except.ok.injEq] at hm
      obtain ⟨hs, he⟩ := (returns_settings o).perform hp
      refine ⟨s, hs, he, ?_, hm.2.symm⟩
      rw [← hm.1, print, hperformed, hconfigured]
      rfl

/-- A call that only reads settings which were printed prints them again. -/
theorem main_dumped {m : Machine} {words : List String} {p : String} {s : Settings} (hl : m.logging = {})
    (hw : CommandLine.parse words = .ok (.dumped p)) (hs : s.Settled) (he : s.extras = [])
    (hr : m.world.read p = .ok (dumpText s).toUTF8) :
    m.main words = ({ m with logging := plainLogging }.print (dumpText s), .ok 0) := by
  have hon := on_settings_dumped hs he hr
  have hperform : ({ m with logging := plainLogging } : Machine).perform (settings (.dumped p)) =
      ({ m with logging := plainLogging }, .ok s) := by
    rw [perform_of_unheard fun r hm w => ?_]
    · dsimp only
      rw [hon]
    · dsimp only at hm
      rw [hon] at hm
      exact emit_of_debug rfl (by simp at hm; rcases hm with rfl | rfl <;> rfl)
  rw [main, hw]
  dsimp only
  rw [call, configure_dumped hl]
  dsimp only
  rw [hperform]
  rfl

/-- Settings that a call prints are settled. Saved to a file as they were printed, and read by a new
call that is told nothing else, they are printed again as they are, and nothing is said about
them. -/
theorem dump_again {m m₁ : Machine} {words : List String} {o : Options} {code : Nat}
    (hw : CommandLine.parse words = .ok o) (hd : o.has .dumpConfig = true) (hm : m.main words = (m₁, .ok code)) :
    ∃ s : Settings, s.Settled ∧ m₁.stdout = m.stdout ++ dumpText s ∧ code = 0 ∧
      ∀ (m₂ : Machine) (p : String) (words₂ : List String), m₂.logging = {} →
        CommandLine.parse words₂ = .ok (.dumped p) → m₂.world.read p = .ok (dumpText s).toUTF8 →
        ∃ m₃, m₂.main words₂ = (m₃, .ok 0) ∧ m₃.stdout = m₂.stdout ++ dumpText s ∧ m₃.stderr = m₂.stderr ∧
          ∀ r ∈ ((settings (.dumped p)).on m₂.world).records, r.level = .debug := by
  obtain ⟨s, hs, he, hout, hcode⟩ := main_of_dump hw hd hm
  refine ⟨s, hs, hout, hcode, fun m₂ p words₂ hl hw₂ hr => ⟨_, main_dumped hl hw₂ hs he hr, rfl, rfl, ?_⟩⟩
  rw [on_settings_dumped hs he hr]
  simp

/-- A machine on whose disk a text is saved. -/
def keeping (text : String) : Machine where
  world := {
    root := .folder [("saved.json", .file text.toUTF8)]
    here := { workingDirectory := "/", environment := .empty } }

theorem read_keeping (text : String) : (keeping text).world.read "saved.json" = .ok text.toUTF8 := by
  have hsegments : Path.segments (Path.join "/" "saved.json") = ["", "saved.json"] := by decide +kernel
  simp only [World.read, World.allow, World.find, keeping, hsegments]
  rfl

/-- The settings of a call that gives a separator which has to be escaped, over a file that is no
settings file. -/
theorem dump_again_backslash :
    (CommandLine.parse ["-c", "saved.json", "--separator", "\\\"", "--dump-config"]).map (·.has .dumpConfig) =
        .ok true ∧
      ∃ m₁ s, (keeping "[]").main ["-c", "saved.json", "--separator", "\\\"", "--dump-config"] = (m₁, .ok 0) ∧
        m₁.stdout = dumpText s ∧
        CommandLine.parse ["--config=saved.json", "--dump-config"] = .ok (.dumped "saved.json") ∧
        (keeping (dumpText s)).world.read "saved.json" = .ok (dumpText s).toUTF8 ∧
        ∃ m₂, (keeping (dumpText s)).main ["--config=saved.json", "--dump-config"] = (m₂, .ok 0) ∧
          m₂.stdout = dumpText s ∧ m₂.stderr = "" := by
  have hmap : (CommandLine.parse ["-c", "saved.json", "--separator", "\\\"", "--dump-config"]).map
      (·.has .dumpConfig) = .ok true := by decide +kernel
  have hcode : ((keeping "[]").main ["-c", "saved.json", "--separator", "\\\"", "--dump-config"]).2 = .ok 0 := by
    decide +kernel
  refine ⟨hmap, ?_⟩
  rcases hw : CommandLine.parse ["-c", "saved.json", "--separator", "\\\"", "--dump-config"] with stop | o
  · rw [hw] at hmap
    cases hmap
  rw [hw, Except.map, Except.ok.injEq] at hmap
  obtain ⟨s, -, hout, -, hagain⟩ := dump_again hw hmap (Prod.ext rfl hcode)
  have hw₂ : CommandLine.parse ["--config=saved.json", "--dump-config"] = .ok (.dumped "saved.json") :=
    Options.parse_dumped (p := "saved.json") (by decide)
  obtain ⟨m₂, hm₂, hout₂, herr₂, -⟩ := hagain (keeping (dumpText s)) "saved.json" _ rfl hw₂ (read_keeping _)
  exact ⟨_, s, Prod.ext rfl hcode, hout.trans (String.empty_append), hw₂, read_keeping _, m₂, hm₂,
    hout₂.trans String.empty_append, herr₂⟩

end Machine
end ComponentUsage
