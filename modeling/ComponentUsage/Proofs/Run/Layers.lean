import ComponentUsage.Proofs.CommandLine.Given
import ComponentUsage.Proofs.Run.Dumped
import ComponentUsage.Proofs.Settings.Mended
/-!
# The settings of a call

Each setting of a call comes from one layer: what the command line gives for it, else what a
settings file holds under its name, else its default (`settings_layered`). What any layer says
about another setting, and a file that cannot be used, have no effect on it.
-/

namespace ComponentUsage

/-! ## What is read -/

namespace Job

variable {α β : Type} {result : Except Fault β}

/-- A job that only reports and comes to this. -/
inductive Tells (result : Except Fault α) : Job α → Prop
  | done : Tells result (.done result)
  | report (r : Record) {next : Job α} : Tells result next → Tells result (.report r next)

theorem Tells.bind {job : Job α} {f : α → Job β} {x : α} (hj : job.Tells (.ok x)) (hf : (f x).Tells result) :
    (job >>= f).Tells result := by
  change (job.bind f).Tells result
  induction hj with
  | done => exact hf
  | report r _ ih => exact .report r ih

theorem Tells.bind_error {job : Job α} (f : α → Job β) {fault : Fault} (hj : job.Tells (.error fault)) :
    (job >>= f).Tells (.error fault) := by
  change (job.bind f).Tells _
  induction hj with
  | done => exact .done
  | report r _ ih => exact .report r ih

theorem Tells.tell (level : Level) (source message : String) : (Job.tell level source message).Tells (.ok ()) :=
  .report _ .done

theorem Tells.tellAll (rs : List Record) : (Job.tellAll rs).Tells (.ok ()) := by
  induction rs with
  | nil => exact .done
  | cons r rs ih => exact .report r ih

/-- So it does on every machine, whatever its journal does with the reports. -/
theorem Tells.perform {job : Job β} (h : job.Tells result) (m : Machine) : (m.perform job).2 = result := by
  induction h generalizing m with
  | done => rfl
  | report r _ ih => exact ih (m.emit r)

end Job

namespace Machine

open CommandLine Settings

/-- The user stops the program while it reads the settings file of a call. -/
def StopsReading (w : World) (o : Options) : Prop :=
  o.has .useDefaults = false ∧
    ∃ p, o.text? .config = some p ∧ w.exists? p = true ∧ readJson w p = .error .interrupted

/-- The members that a settings file holds, if it can be used. -/
def usable? (w : World) (p : String) : Option Layer :=
  match readJson w p with
  | .ok (some (.object members)) => some members
  | _ => none

/-- The members of the settings file of a call. -/
def fileLayer? (w : World) (o : Options) : Option Layer :=
  if o.has .useDefaults then none else (o.text? .config).bind (usable? w)

/-- The defaults with a settings file over them, if there is one. -/
def lower (file? : Option Layer) : Layer := (file?.map overDefaults).getD defaults

theorem tells_reportUnknown (members : List (String × Json)) : (reportUnknown members).Tells (.ok ()) := by
  unfold reportUnknown
  dsimp only
  split
  · exact .done
  · exact .tell _ _ _

theorem usable?_eq_some {w : World} {p : String} {members : Layer} (h : usable? w p = some members) :
    p ≠ "" ∧ w.exists? p = true ∧ readJson w p = .ok (some (.object members)) := by
  unfold usable? at h
  split at h
  · rename_i hr
    obtain ⟨content, hread, -⟩ := Fault.bind_eq_ok_iff.1 hr
    obtain ⟨hne, he⟩ := exists_of_read hread
    exact ⟨hne, he, hr.trans (by rw [Option.some.inj h])⟩
  · cases h

theorem lower_of_unusable {w : World} {p : String} {read : Except Fault (Option Json)} (hr : readJson w p = read)
    (h : ∀ members, read ≠ .ok (some (.object members))) : lower (usable? w p) = defaults := by
  have hnone : usable? w p = none := Option.eq_none_iff_forall_ne_some.2 fun members hm =>
    h members (hr.symm.trans (usable?_eq_some hm).2.2)
  rw [hnone]
  rfl

/-- A settings file is used if it can be, and is else as good as none. -/
theorem tells_load {p : String} (hne : p ≠ "") :
    ∃ next, load (some p) = .look next ∧ ∀ w,
      (w.exists? p = true ∧ readJson w p = .error .interrupted → (next w).Tells (.error .interrupted)) ∧
      (¬ (w.exists? p = true ∧ readJson w p = .error .interrupted) → (next w).Tells (.ok (lower (usable? w p)))) := by
  refine ⟨_, by rw [load, if_neg hne]; rfl, fun w => ?_⟩
  dsimp only [Job.bind]
  by_cases he : w.exists? p = true
  · rw [he, Bool.not_true, if_neg Bool.false_ne_true]
    refine ⟨fun h => ?_, fun h => ?_⟩
    · rw [h.2]
      exact .done
    · split
      · rename_i hr
        exact absurd ⟨rfl, hr⟩ h
      · rename_i hr
        rw [lower_of_unusable hr fun members h => by cases h]
        exact .bind (.tell _ _ _) .done
      · rename_i hr
        rw [lower_of_unusable hr fun members h => by cases h]
        exact .bind (.tell _ _ _) .done
      · rename_i members hr
        have hm : usable? w p = some members := by rw [usable?, hr]
        rw [hm]
        exact .bind (tells_reportUnknown members) (.bind (.tell _ _ _) .done)
      · rename_i v hv hr
        rw [lower_of_unusable hr fun members h => hv members (Option.some.inj (Except.ok.inj h))]
        exact .bind (.tell _ _ _) .done
  · have hunused : ∀ members, readJson w p ≠ .ok (some (.object members)) := fun members h => by
      have hm : usable? w p = some members := by rw [usable?, h]
      exact he (usable?_eq_some hm).2.1
    refine ⟨fun h => absurd h.1 he, fun _ => ?_⟩
    rw [lower_of_unusable rfl hunused, Bool.eq_false_iff.2 he]
    exact .bind (.tell _ _ _) .done

/-- The lower layers are known from the start, or from one look at the disk. -/
theorem baseLayer_cases (o : Options) :
    (baseLayer o = pure defaults ∧ ∀ w, fileLayer? w o = none ∧ ¬ StopsReading w o) ∨
    ∃ next, baseLayer o = .look next ∧ ∀ w,
      (StopsReading w o → (next w).Tells (.error .interrupted)) ∧
      (¬ StopsReading w o → (next w).Tells (.ok (lower (fileLayer? w o)))) := by
  by_cases hd : o.has .useDefaults = true
  · refine .inl ⟨by rw [baseLayer, if_pos hd], fun w => ⟨by rw [fileLayer?, if_pos hd], fun h => ?_⟩⟩
    exact Bool.false_ne_true (h.1.symm.trans hd)
  · cases hp : o.text? .config with
    | none =>
      refine .inl ⟨by rw [baseLayer, if_neg hd, hp, load], fun w => ⟨?_, fun h => ?_⟩⟩
      · rw [fileLayer?, if_neg hd, hp, Option.bind_none]
      · obtain ⟨-, p, hp', -⟩ := h
        rw [hp] at hp'
        cases hp'
    | some p =>
      have hbase : baseLayer o = load (some p) := by rw [baseLayer, if_neg hd, hp]
      have hfile : ∀ w, fileLayer? w o = usable? w p := fun w => by
        rw [fileLayer?, if_neg hd, hp, Option.bind_some]
      have hstop : ∀ w, StopsReading w o ↔ w.exists? p = true ∧ readJson w p = .error .interrupted := by
        refine fun w => ⟨?_, fun h => ⟨Bool.eq_false_iff.2 hd, p, hp, h⟩⟩
        rintro ⟨-, q, hq, he, hr⟩
        obtain rfl : p = q := Option.some.inj (hp.symm.trans hq)
        exact ⟨he, hr⟩
      by_cases hne : p = ""
      · subst hne
        refine .inl ⟨by rw [hbase, load, if_pos rfl], fun w => ⟨?_, fun h => ?_⟩⟩
        · rw [hfile]
          exact Option.eq_none_iff_forall_ne_some.2 fun members hm => (usable?_eq_some hm).1 rfl
        · obtain ⟨he, -⟩ := (hstop w).1 h
          cases he
      · obtain ⟨next, hload, htells⟩ := tells_load hne
        refine .inr ⟨next, hbase.trans hload, fun w => ?_⟩
        rw [hstop, hfile]
        exact htells w

/-! ## The settings of a call -/

/-- The first record of a call, before it reads a settings file. -/
def initiated : Record where
  level := .debug
  source := source
  message := "CLI execution initiated. Resolving configuration hierarchy..."

/-- What a call comes to that has read its lower layers. -/
def overLower (o : Options) (base : Layer) : Job Settings := do
  let (s, complaints) := settle o base
  .tellAll (constraintRecords complaints)
  return s

theorem tells_overLower (o : Options) (base : Layer) : (overLower o base).Tells (.ok (settle o base).1) :=
  .bind (.tellAll _) .done

theorem perform_settings (m : Machine) (o : Options) :
    (StopsReading (m.emit initiated).world o → (m.perform (settings o)).2 = .error .interrupted) ∧
    (¬ StopsReading (m.emit initiated).world o →
      (m.perform (settings o)).2 = .ok (settle o (lower (fileLayer? (m.emit initiated).world o))).1) := by
  have hsettings : settings o = .report initiated (baseLayer o >>= overLower o) := rfl
  rw [hsettings, perform]
  generalize m.emit initiated = m
  rcases baseLayer_cases o with ⟨hbase, hnone⟩ | ⟨next, hbase, htells⟩
  · rw [hbase, (hnone m.world).1]
    exact ⟨fun h => absurd h (hnone m.world).2, fun _ => (tells_overLower o defaults).perform m⟩
  · rw [hbase]
    refine ⟨fun h => ?_, fun h => ?_⟩
    · exact (((htells m.world).1 h).bind_error (overLower o)).perform m
    · exact (((htells m.world).2 h).bind (tells_overLower o _)).perform m

theorem distinct_of_fileLayer {w : World} {o : Options} {members : Layer} (h : fileLayer? w o = some members) :
    (members.map Prod.fst).Nodup := by
  unfold fileLayer? at h
  split at h
  · cases h
  · obtain ⟨p, -, h⟩ := Option.bind_eq_some_iff.1 h
    obtain ⟨content, -, hv⟩ := Fault.bind_eq_ok_iff.1 (usable?_eq_some h).2.2
    obtain ⟨text, -, hparse⟩ := Option.bind_eq_some_iff.1 (Except.ok.inj hv)
    exact Json.distinct_of_parse hparse

/-- What the layers of a call say about a setting: the command line before the file, and the
defaults last. -/
def layered (o : Options) (file? : Option Layer) (key : String) : Option Json :=
  (o.given? key).or ((file?.bind (Json.member? key)).or (Json.member? key defaults))

theorem lookup_lower {file? : Option Layer} (hn : ∀ members, file? = some members → (members.map Prod.fst).Nodup)
    {key : String} (hk : key ∈ Settings.keys) :
    (lower file?).lookup key = (file?.bind (Json.member? key)).or (Json.member? key defaults) := by
  cases file? with
  | none => rfl
  | some members => exact lookup_overDefaults (hn members rfl) hk

/-- The settings that layers make together, each from what the layers say about it. -/
theorem members_settle (o : Options) {file? : Option Layer}
    (hn : ∀ members, file? = some members → (members.map Prod.fst).Nodup) :
    (settle o (lower file?)).1.members =
      Settings.keys.map fun key => (key, normal key (layered o file? key)) := by
  have hnames : (lower file?).map Prod.fst = Settings.keys := by
    cases file? with
    | none => rfl
    | some members => exact names_overDefaults members
  have hextras : (overlay (lower file?) o.layer).filter (·.1 ∉ Settings.keys) = [] := by
    have hsettled := extras_settle o hnames
    rw [settle, mend_eq] at hsettled
    exact hsettled
  rw [settle, mend_eq, given, members_mended, hextras, List.append_nil]
  refine List.map_congr_left fun key hk => ?_
  have hkey : Json.member? key (overlay (lower file?) o.layer) = layered o file? key := by
    refine (lookup_overlay (lower file?) o.layer hk).trans ?_
    rw [Options.said?_layer, lookup_lower hn hk, layered]
  rw [hkey]

theorem member?_settle (o : Options) {file? : Option Layer}
    (hn : ∀ members, file? = some members → (members.map Prod.fst).Nodup) (key : String) :
    Json.member? key (settle o (lower file?)).1.members =
      if key ∈ Settings.keys then some (normal key (layered o file? key)) else none := by
  change List.lookup key _ = _
  rw [members_settle o hn]
  split
  · rename_i hk
    exact lookup_map_names (fun key => normal key (layered o file? key)) hk
  · rename_i hk
    refine List.lookup_eq_none_iff.2 fun e he => bne_iff_ne.2 fun hkey => hk ?_
    obtain ⟨name, hname, rfl⟩ := List.mem_map.1 he
    rwa [hkey]

theorem eq_settle_of_perform {m : Machine} {o : Options} {s : Settings} (h : (m.perform (settings o)).2 = .ok s) :
    s = (settle o (lower (fileLayer? (m.emit initiated).world o))).1 := by
  by_cases hstop : StopsReading (m.emit initiated).world o
  · rw [(perform_settings m o).1 hstop] at h
    cases h
  · rw [(perform_settings m o).2 hstop] at h
    exact (Except.ok.inj h).symm

/-- A call that is given no settings file goes by the defaults. -/
theorem perform_settings_unfiled (m : Machine) (o : Options) :
    (m.perform (settings (o.give .config .absent))).2 = .ok (settle o (lower none)).1 := by
  have hlayer : (o.give .config .absent).layer = o.layer := rfl
  have hfile : ∀ w, fileLayer? w (o.give .config .absent) = none := fun w => ite_self none
  have hread : ¬ StopsReading (m.emit initiated).world (o.give .config .absent) := by
    rintro ⟨-, p, hp, -⟩
    cases hp
  rw [(perform_settings m _).2 hread, hfile, settle, settle, hlayer]

/-- Each setting of a call comes from one layer: the command line if that gives it, else the
settings file if that can be used and has it, else the defaults. What the layers say about other
settings has no effect on it, and a file that cannot be used is as good as none. Only a user who
stops the reading keeps a call from its settings. -/
theorem settings_layered (m : Machine) (o : Options) :
    let file? := fileLayer? (m.emit initiated).world o
    (StopsReading (m.emit initiated).world o → (m.perform (settings o)).2 = .error .interrupted) ∧
    (¬ StopsReading (m.emit initiated).world o →
      ∃ s, (m.perform (settings o)).2 = .ok s ∧
        s.members = Settings.keys.map (fun key => (key, normal key (layered o file? key))) ∧
        (∀ (m' : Machine) (o' : Options) (s' : Settings), (m'.perform (settings o')).2 = .ok s' →
          ∀ key, o'.given? key = o.given? key →
          (fileLayer? (m'.emit initiated).world o').bind (Json.member? key) = file?.bind (Json.member? key) →
          Json.member? key s'.members = Json.member? key s.members) ∧
        (file? = none → ∀ m' : Machine, (m'.perform (settings (o.give .config .absent))).2 = .ok s)) := by
  intro file?
  refine ⟨(perform_settings m o).1, fun h => ⟨_, (perform_settings m o).2 h, ?_, ?_, ?_⟩⟩
  · exact members_settle o fun _ => distinct_of_fileLayer
  · intro m' o' s' hs' key hgiven hfile
    rw [eq_settle_of_perform hs', member?_settle o' fun _ => distinct_of_fileLayer,
      member?_settle o fun _ => distinct_of_fileLayer, layered, layered, hgiven, hfile]
  · intro hnone m'
    rw [perform_settings_unfiled, ← hnone]

/-- A settings file with a mode that is none, a root with blanks around it and a separator. -/
def patchy : Json :=
  .object [("mode", .text "deep"), ("scan_root", .text " lib "), ("path_separator", .text "::")]

/-- That file, and a separator on the command line. -/
def patched : Options := (Options.give {} .config (.text "saved.json")).give .separator (.text "/")

/-- The mode of the file gives way to the default and leaves its root alone; the separator is that
of the command line. -/
theorem settings_layered_patchy :
    ∃ s, ((keeping (patchy.print .indented ++ "\n")).perform (settings patched)).2 = .ok s ∧
      Json.member? "mode" s.members = some (.text "graph") ∧
      Json.member? "scan_root" s.members = some (.text "lib") ∧
      Json.member? "path_separator" s.members = some (.text "/") := by
  have hplain : patchy.Plain := by
    refine ⟨by decide, ?_⟩
    simp only [Json.PlainMembers, Json.Plain, and_true]
  have hread : readJson (keeping (patchy.print .indented ++ "\n")).world "saved.json" = .ok (some patchy) := by
    rw [readJson, read_keeping, Fault.ok_bind, Json.ofBytes?_print hplain]
    rfl
  generalize hm : keeping (patchy.print .indented ++ "\n") = m at hread ⊢
  have hlogging : m.logging.attached = [] := hm ▸ rfl
  have hworld : (m.emit initiated).world = m.world := (emit_of_unattached hlogging initiated).1
  have hfile : fileLayer? m.world patched = some (given patchy) := by
    have hconfig : patched.text? .config = some "saved.json" := rfl
    rw [fileLayer?, hconfig, Option.bind_some, usable?, hread]
    rfl
  have hgoes : ¬ StopsReading m.world patched := by
    rintro ⟨-, p, hp, -, hr⟩
    obtain rfl : "saved.json" = p := Option.some.inj hp
    rw [hread] at hr
    cases hr
  obtain ⟨-, hsettings⟩ := settings_layered m patched
  rw [hworld, hfile] at hsettings
  obtain ⟨s, hs, hmembers, -⟩ := hsettings hgoes
  have hmember : ∀ key ∈ Settings.keys, Json.member? key s.members =
      some (normal key (layered patched (some (given patchy)) key)) := fun key hk => by
    rw [hmembers]
    exact lookup_map_names (fun key => normal key (layered patched (some (given patchy)) key)) hk
  have hmode : layered patched (some (given patchy)) "mode" = some (.text "deep") := rfl
  have hroot : layered patched (some (given patchy)) "scan_root" = some (.text " lib ") := rfl
  have hseparator : layered patched (some (given patchy)) "path_separator" = some (.text "/") := rfl
  refine ⟨s, hs, ?_, ?_, ?_⟩
  · have hnormal : normalMode (normalText (some (.text "deep")) Settings.default.mode.name) = .graph := by
      decide +kernel
    rw [hmember _ (by decide), hmode]
    exact congrArg (fun mode : Mode => some (Json.text mode.name)) hnormal
  · rw [hmember _ (by decide), hroot, normal_text (by decide)]
    exact congrArg (fun t => some (Json.text t)) (by decide +kernel)
  · rw [hmember _ (by decide), hseparator, normal_text (by decide)]
    exact congrArg (fun t => some (Json.text t)) (by decide +kernel)

end Machine
end ComponentUsage
