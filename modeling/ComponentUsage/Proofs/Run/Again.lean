import ComponentUsage.Proofs.Disk.Again
import ComponentUsage.Proofs.Run.Outcome
import ComponentUsage.Proofs.Scan.Idle
/-!
# Running again

A run that reports comes to the same when it is run once more: it tells the same, and the disk
stays as the first run has left it (`run_again`). All that is asked is that no name in the folder
that is scanned leads to where a document is saved, and that definition files and templates are
told by parts of names. That the paths of the documents are not in the folder is not enough
(`run_otherwise`).

The second run finds the same since nothing is saved where the scan could see it
(`analyse_of_altered`). It saves the same since a document that is saved once more comes to the
same, whether it could be saved or not (`saveAll_again`).
-/

namespace ComponentUsage

/-- A job made of two ends as the second one does, unless the first one fails. -/
theorem Job.ending_bind {α β D : Type} [Storage D] (job : Job α) (f : α → Job β) (d : D) :
    ((job >>= f).on d).ending =
      match (job.on d).ending with
      | (.ok x, d') => ((f x).on d').ending
      | (.error fault, d') => (.error fault, d') := by
  rw [on_bind]
  obtain ⟨records, fault | x, d'⟩ := job.on d <;> rfl

/-! ## What is outside of a folder -/

namespace Linked

variable {d d' : Linked} {scan out : List String}

/-- No name that is at or below some names leads to the place that other names mean, or to one above
it. -/
def Outside (d : Linked) (scan out : List String) : Prop :=
  ∀ way, (∀ n ∈ way, Node.IsName n) → ¬ d.ends (scan ++ way) <+: d.meant out

/-- Where no link leads anywhere names mean the place that they name. -/
theorem meant_of_no_target (htarget : ∀ link, d.target link = none) (hn : ∀ n ∈ out, Node.IsName n) :
    d.meant out = out := by
  rcases (Course.leads_follow d.root.cleared d.target Course.limit [] out).of_no_target
    (fun n hm => (hn n hm).descends) htarget with ⟨m, hm⟩ | ⟨cause, way, rest, rfl, hm⟩
  · rw [meant, hm, List.nil_append]
  · rw [meant, hm, List.nil_append]

/-- Where no link leads anywhere it is a matter of names whether something is outside. -/
theorem outside_iff (hr : d.root.isFolder = true) (htarget : ∀ link, d.target link = none)
    (hscan : ∀ n ∈ scan, Node.IsName n) (hout : ∀ n ∈ out, Node.IsName n)
    (hf : d.seen.look scan = some .folder) : d.Outside scan out ↔ ¬ scan <+: out := by
  obtain ⟨m, hfind⟩ : ∃ m, d.find scan = .arrived m scan := by
    obtain ⟨m, q, hfind, -⟩ := find_of_look_seen hr hscan hf (by simp)
    rcases (find_eq_iff.1 hfind).of_no_target (fun n hn => (hscan n hn).descends) htarget with
      ⟨m', he⟩ | ⟨cause, way, rest, -, he⟩
    · obtain ⟨rfl, rfl⟩ := Course.arrived.inj he
      exact ⟨m, hfind⟩
    · cases he
  rw [Outside, meant_of_no_target htarget hout]
  refine ⟨fun h => ?_, fun h way hway hp => h ?_⟩
  · have hself := h [] (by simp)
    rwa [List.append_nil, ends, hfind] at hself
  -- below the folder names lead on from it
  · rw [ends, find_append hfind] at hp
    rcases (follow_eq_iff.1 rfl).of_no_target (fun n hn => (hway n hn).descends) htarget with
      ⟨m', he⟩ | ⟨cause, way', rest, -, he⟩
    · rw [he] at hp
      exact (List.prefix_append scan way).trans hp
    · rw [he] at hp
      exact (List.prefix_append scan way').trans hp

/-- A place on the way to where a document is saved that has its path from one of some settings. -/
def Passed (d : Linked) (settings : List String) (z : List String) : Prop :=
  ∃ setting ∈ settings, ∃ p, d.world.here.output setting = .ok p ∧ z <+: d.meant (d.world.here.spot p)

theorem Altered.passed {allowed : Linked → List String → Prop} (h : Altered allowed d d') (settings : List String) :
    d'.Passed settings = d.Passed settings := by
  funext z
  simp only [Passed, h.here, h.meant]

end Linked

namespace Extraction

variable {s : Settings} {rs : Roots} {d d₁ d' : Linked} {config : Json} {dry : Bool} {a : Analysis}

/-! ## One document -/

section save

variable {what what' setting setting' p : String} {doc : Json} {doc? doc?' : Option Json}
  {o : Except Fault String × Linked}

theorem ending_save_of_error {fault : Fault} (h : d.world.here.output setting = .error fault) :
    ((save what setting (some doc)).on d).ending = (.error fault, d) := by
  simp only [save, Job.on_bind, Job.on_disk_eq, Outcome.andThen_ok, Job.on_ofExcept, Linked.storage_seen,
    Linked.here_seen]
  rw [← Place.output, h]
  rfl

theorem ending_save (h : d.world.here.output setting = .ok p) :
    ((save what setting (some doc)).on d).ending =
      ((Storage.save d p (fileText doc)).2.map fun _ => p, (Storage.save d p (fileText doc)).1) := by
  simp only [save, Job.on_bind, Job.on_disk_eq, Outcome.andThen_ok, Job.on_ofExcept, Linked.storage_seen,
    Linked.here_seen]
  rw [← Place.output, h]
  simp only [Outcome.andThen_ok, Job.on_bind, Job.on_write_eq]
  generalize Storage.save d p (fileText doc) = saved
  obtain ⟨d', fault | done⟩ := saved <;> rfl

/-- A document that was saved is one that its disk has taken. -/
theorem saved_of_ending_save (h : ((save what setting (some doc)).on d).ending = (.ok p, d₁)) :
    d.world.here.output setting = .ok p ∧ Storage.save d p (fileText doc) = (d₁, .ok ()) := by
  cases hp : d.world.here.output setting with
  | error fault =>
    rw [ending_save_of_error hp] at h
    cases h
  | ok q =>
    rw [ending_save hp] at h
    obtain ⟨hresult, hworld⟩ := Prod.mk.inj h
    cases hs : (Storage.save d q (fileText doc)).2 with
    | error fault =>
      rw [hs] at hresult
      cases hresult
    | ok =>
      rw [hs] at hresult
      obtain rfl : q = p := Except.ok.inj hresult
      exact ⟨rfl, Prod.ext hworld hs⟩

variable (hr : d.root.isFolder = true) (ha : Path.isAbsolute d.world.here.workingDirectory = true)

include hr ha

theorem altered_save {settings : List String} (h : ((save what setting doc?).on d).ending = o)
    (hmem : doc?.isSome = true → setting ∈ settings) : Linked.Altered (fun _ => d.Passed settings) d o.2 := by
  subst h
  cases doc? with
  | none => exact .refl
  | some doc =>
    cases hp : d.world.here.output setting with
    | error fault =>
      rw [ending_save_of_error hp]
      exact .refl
    | ok p =>
      obtain ⟨slashes, names, hs, hn, hfull⟩ := Place.absolute_eq_pathOf ha p
      rw [ending_save hp]
      dsimp only
      refine (Linked.altered_save hr hs hn hfull _).mono fun _ z hz => ⟨setting, hmem rfl, p, hp, ?_⟩
      rwa [Place.spot, hfull, Path.names_pathOf hs hn]

/-- A document that is saved once more comes to the same, on the same disk. -/
theorem save_again (h : ((save what setting doc?).on d).ending = o) :
    ((save what setting doc?).on o.2).ending = o := by
  have haltered := altered_save hr ha h fun _ => List.mem_singleton_self setting
  cases doc? with
  | none => exact h ▸ rfl
  | some doc =>
    cases hp : d.world.here.output setting with
    | error fault =>
      rw [ending_save_of_error hp] at h
      subst h
      exact ending_save_of_error hp
    | ok p =>
      rw [ending_save hp] at h
      subst h
      dsimp only at haltered ⊢
      rw [ending_save (by rw [haltered.here, hp]), Linked.save_again hr ha]

/-- Two documents that are saved one after the other, the first of them with success, come to the
same when both are saved again. -/
theorem save_both_again (h : ((save what setting doc?).on d).ending = (.ok p, d₁))
    (ho : ((save what' setting' doc?').on d₁).ending = o) :
    ∃ d₂, ((save what setting doc?).on o.2).ending = (.ok p, d₂) ∧
      ((save what' setting' doc?').on d₂).ending = o := by
  have hfirst := altered_save hr ha h fun _ => List.mem_singleton_self setting
  have hr₁ := hfirst.isFolder_root hr
  have ha₁ : Path.isAbsolute d₁.world.here.workingDirectory = true := by rw [hfirst.here, ha]
  have hsecond := altered_save hr₁ ha₁ ho fun _ => List.mem_singleton_self setting'
  cases doc? with
  | none =>
    cases h
    exact ⟨o.2, rfl, save_again hr ha ho⟩
  | some doc =>
    cases doc?' with
    | none =>
      subst ho
      exact ⟨d₁, save_again hr ha h, rfl⟩
    | some doc' =>
      obtain ⟨hp, hsave⟩ := saved_of_ending_save h
      cases hp' : d₁.world.here.output setting' with
      | error fault =>
        rw [ending_save_of_error hp'] at ho
        subst ho
        exact ⟨d₁, save_again hr ha h, ending_save_of_error hp'⟩
      | ok p' =>
        obtain ⟨d₂, hagain, hagain'⟩ := Linked.save_both_again hr ha hsave p' (fileText doc')
        rw [ending_save hp'] at ho
        subst ho
        dsimp only at hsecond ⊢
        have hhere : (Storage.save d₁ p' (fileText doc')).1.world.here = d.world.here := by
          rw [hsecond.here, hfirst.here]
        have hsaved : ((save what setting (some doc)).on (Storage.save d₁ p' (fileText doc')).1).ending =
            (.ok p, d₂) := by
          rw [ending_save (by rw [hhere, hp]), hagain]
          rfl
        have hr₂ := hsecond.isFolder_root hr₁
        have ha₂ : Path.isAbsolute (Storage.save d₁ p' (fileText doc')).1.world.here.workingDirectory = true := by
          rw [hhere, ha]
        have hlast := altered_save hr₂ ha₂ hsaved fun _ => List.mem_singleton_self setting
        refine ⟨d₂, hsaved, ?_⟩
        rw [ending_save (by rw [hlast.here, hhere, ← hfirst.here, hp']), hagain']

end save

/-! ## Both documents -/

section saveAll

variable (hr : d.root.isFolder = true) (ha : Path.isAbsolute d.world.here.workingDirectory = true)

include hr ha

/-- Documents that are saved once more come to the same, on the same disk, even where only the
first one can be saved. -/
theorem saveAll_again {o : Except Fault (String × String) × Linked} (h : ((saveAll s a).on d).ending = o) :
    ((saveAll s a).on o.2).ending = o := by
  unfold saveAll at h ⊢
  rw [Job.ending_bind] at h ⊢
  cases hgraph : ((save "graph" s.graphOutput a.graph).on d).ending with
  | mk result d₁ =>
    rw [hgraph] at h
    cases result with
    | error fault =>
      subst h
      rw [save_again hr ha hgraph]
    | ok graphPath =>
      dsimp only at h
      rw [Job.ending_bind] at h
      cases htree : ((save "tree" s.treeOutput a.tree).on d₁).ending with
      | mk result d₂ =>
        obtain ⟨d₃, hfirst, hsecond⟩ := save_both_again hr ha hgraph htree
        rw [htree] at h
        have hworld : o.2 = d₂ := by
          cases result <;> subst h <;> rfl
        rw [hworld, hfirst]
        dsimp only
        rw [Job.ending_bind, hsecond, ← h]

theorem persist_again {o : Except Fault Report × Linked} (h : ((persist s rs a).on d).ending = o) :
    ((persist s rs a).on o.2).ending = o := by
  rw [ending_persist] at h
  have hworld : ((saveAll s a).on d).world = o.2 := congrArg Prod.snd h
  have hagain : ((saveAll s a).on o.2).ending = ((saveAll s a).on d).ending := by
    rw [← hworld]
    exact saveAll_again hr ha rfl
  obtain ⟨hresult, hworld'⟩ := Prod.mk.inj hagain
  rw [ending_persist, hresult, hworld', h]

/-- Documents are saved on the way to where their paths lead. -/
theorem altered_saveAll (hfits : Fits a s) :
    Linked.Altered (fun _ => d.Passed s.outputs) d ((saveAll s a).on d).ending.2 := by
  unfold saveAll
  rw [Job.ending_bind]
  cases hg : ((save "graph" s.graphOutput a.graph).on d).ending with
  | mk result d₁ =>
    have hfirst := altered_save hr ha hg fun hsome => graphOutput_mem (hfits.graph ▸ hsome)
    cases result with
    | error fault => exact hfirst
    | ok graphPath =>
      dsimp only
      rw [Job.ending_bind]
      cases ht : ((save "tree" s.treeOutput a.tree).on d₁).ending with
      | mk result d₂ =>
        have hsecond := altered_save (hfirst.isFolder_root hr) (by rw [hfirst.here, ha]) ht fun hsome =>
          treeOutput_mem (hfits.tree ▸ hsome)
        rw [hfirst.passed] at hsecond
        cases result <;> exact hfirst.trans hsecond

end saveAll

/-! ## The folder that is scanned -/

/-- What is put at places to which nothing in a folder leads makes no difference to a scan of that. -/
theorem sameIdly_of_altered {allowed : Linked → List String → Prop} {conv : Component.Conventions}
    {slashes : String} {ns : List String} (h : Linked.Altered allowed d d') (hr : d.root.isFolder = true)
    (ht : d.root.Tidy) (hs : slashes = "/" ∨ slashes = "//") (hn : ∀ n ∈ ns, Node.IsName n)
    (hf : d.seen.isFolder (World.pathOf slashes ns) = true)
    (hout : ∀ e z way, allowed e z → (∀ n ∈ way, Node.IsName n) → d.ends (ns ++ way) ≠ z) :
    d.seen.SameIdly d'.seen conv slashes ns {spot | ¬ spot <+: ns ∧ ¬ ns <+: spot} where
  rest := by
    rw [h.rest]
    rfl
  below spot rest := by
    rintro ⟨habove, hbelow⟩
    refine ⟨fun hp => habove ((List.prefix_append spot rest).trans hp), fun hp => ?_⟩
    rcases List.prefix_or_prefix_of_prefix hp (List.prefix_append spot rest) with hp | hp
    · exact hbelow hp
    · exact habove hp
  look spot hspot := by
    by_cases hnames : ∀ n ∈ spot, Node.IsName n
    · refine h.look_seen hr hnames fun ps hps => ?_
      by_cases hbelow : ns <+: ps
      · obtain ⟨way, rfl⟩ := hbelow
        have hway : ∀ n ∈ way, Node.IsName n := fun n hm => hnames n (hps.subset (List.mem_append_right ns hm))
        exact .inl fun e z hz => hout e z way hz hway
      -- what is above the folder is one, too
      · obtain ⟨more, rfl⟩ : ps <+: ns := by
          by_contra hno
          refine hspot ⟨fun hp => hno (hps.trans hp), fun hp => ?_⟩
          exact (List.prefix_or_prefix_of_prefix hp hps).elim hbelow hno
        have hmore : more ≠ [] := fun he => hbelow (by rw [he, List.append_nil])
        have hfolder := ((World.isFolder_pathOf_iff hs hn).1 hf).2.2
        exact .inr (Linked.find_of_look_seen hr (fun n hm => hn n (List.mem_append_left more hm))
          (Node.look_above ps more hmore (by rw [World.look] at hfolder; simp [hfolder])) (by simp))
    -- a tidy tree holds nothing but names
    · rw [Linked.look_seen_of_not_names (h.tidy ht) hnames, Linked.look_seen_of_not_names ht hnames]
  rooted := hs
  tidy := Linked.tidy_seen ht
  tidy' := Linked.tidy_seen (h.tidy ht)
  outside hno := hno.1 (List.prefix_refl ns)
  idle ns' name htop _ hyes := absurd (htop.trans (List.prefix_append _ _)) hyes.2
  idle' ns' name htop _ hyes := absurd (htop.trans (List.prefix_append _ _)) hyes.2

theorem isFolder_of_analyse {w : World} (ha : ((analyse s rs).on w).result = .ok (.ok a)) :
    w.isFolder rs.scan = true := by
  rcases analyse_cases ha with ⟨-, he⟩ | ⟨hf, -⟩ | ⟨hf, -⟩ | ⟨hf, -⟩
  · cases he
  · exact hf
  · exact hf
  · exact hf

/-- An analysis finds the same as before. -/
theorem analyse_of_altered {allowed : Linked → List String → Prop} {slashes : String} {ns : List String}
    (h : Linked.Altered allowed d d') (hr : d.root.isFolder = true) (ht : d.root.Tidy)
    (hs : slashes = "/" ∨ slashes = "//") (hn : ∀ n ∈ ns, Node.IsName n) (hscan : rs.scan = World.pathOf slashes ns)
    (hsuffix : '/' ∉ s.suffix.toList) (hexts : ∀ ext ∈ s.extensions, '/' ∉ ext.toList)
    (hout : ∀ e z way, allowed e z → (∀ n ∈ way, Node.IsName n) → d.ends (ns ++ way) ≠ z)
    (ha : ((analyse s rs).on d).result = .ok (.ok a)) : ((analyse s rs).on d').result = .ok (.ok a) := by
  have hflat : (conventions s rs).Flat := ⟨hsuffix, hexts⟩
  rw [(leavesDisk_analyse s rs).result_seen, Linked.storage_seen] at ha ⊢
  have hf := isFolder_of_analyse ha
  have hf' : d'.seen.isFolder rs.scan = true := by
    rw [hscan] at hf ⊢
    exact h.isFolder_seen hr hs hn hf
  have hd : d.seen.here.absolute rs.scan = World.pathOf slashes ns := by
    rw [hscan, Place.absolute_pathOf _ hs hn]
  have hidly : d.seen.SameIdly d'.seen (conventions s rs) slashes ns {spot | ¬ spot <+: ns ∧ ¬ ns <+: spot} :=
    sameIdly_of_altered h hr ht hs hn (hscan ▸ hf) hout
  obtain ⟨found, discovered, hfound, hk, hdisc, rfl⟩ := described_of_analyse ha
  rw [← hidly.here]
  exact result_analyse_of_rooted hf' ((hidly.result_scan hflat hd hn).trans hfound) hk
    ((hidly.result_discover hflat hd hn hfound).trans hdisc)

/-! ## A run -/

theorem result_roots_seen (d : Linked) : ((roots s).on d).result = ((roots s).on d.seen).result := by
  rw [(leavesDisk_roots s).result_seen, Linked.storage_seen]

/-- A run that reports, whatever it reports, tells the same when it is run once more, and the disk
stays as it was after the first time: if nothing in the folder that is scanned leads to where a document
is saved, and neither the suffix of definition files nor an extension of templates leads on to another
folder. -/
theorem run_again (config : Json) (dry : Bool) {d : Linked} {r : Report} (hr : d.root.isFolder = true)
    (ht : d.root.Tidy) (ha : Path.isAbsolute d.world.here.workingDirectory = true)
    (hsuffix : '/' ∉ (Settings.mend config).1.suffix.toList)
    (hexts : ∀ ext ∈ (Settings.mend config).1.extensions, '/' ∉ ext.toList)
    (hout : ∀ scan,
      d.world.here.resolve (Settings.mend config).1.scanRoot d.world.here.workingDirectory = .ok scan →
      d.seen.isFolder scan = true →
      ∀ setting ∈ (Settings.mend config).1.outputs, ∀ p, d.world.here.output setting = .ok p →
        d.Outside (d.world.here.spot scan) (d.world.here.spot p))
    (h : ((run config dry).on d).result = .ok r) :
    ((run config dry).on ((run config dry).on d).world).ending = (.ok r, ((run config dry).on d).world) := by
  obtain ⟨rs, analysis, hroots, hanalysis, hc⟩ := exists_conclusion h
  generalize ((run config dry).on d).world = d' at hc ⊢
  -- where nothing was saved, the second run is the first one
  have hsame : d = d' → ((run config dry).on d').ending = (.ok r, d') := by
    rintro rfl
    rw [ending_run_of_analysis dry hroots hanalysis, hc]
  cases analysis with
  | error failed => exact hsame (congrArg Prod.snd hc)
  | ok a =>
    cases dry with
    | true => exact hsame (congrArg Prod.snd hc)
    | false =>
      have hpersist : ((persist (Settings.mend config).1 rs a).on d).ending = (.ok r, d') := hc
      have hworld : ((saveAll (Settings.mend config).1 a).on d).ending.2 = d' := by
        rw [ending_persist] at hpersist
        exact congrArg Prod.snd hpersist
      have hseen := hanalysis
      rw [(leavesDisk_analyse _ rs).result_seen, Linked.storage_seen] at hseen
      have haltered := altered_saveAll hr ha (fits_of_analyse hseen)
      rw [hworld] at haltered
      have hroots' := hroots
      rw [result_roots_seen] at hroots'
      obtain ⟨slashes, ns, hs, hn, hscan, hspot⟩ := exists_scan (by rw [Linked.here_seen, ha]) hroots'
      have hmeant := resolve_of_roots hroots'
      rw [Linked.here_seen] at hmeant hspot
      have hhere : d'.seen.here = d.seen.here := by rw [Linked.here_seen, Linked.here_seen, haltered.here]
      have hroots₂ : ((roots (Settings.mend config).1).on d').result = .ok rs := by
        rw [result_roots_seen, roots_of_here hhere, hroots']
      have hanalysis' := analyse_of_altered haltered hr ht hs hn hscan hsuffix hexts (fun _ z way hz hway he => ?_)
        hanalysis
      · rw [ending_run_of_analysis false hroots₂ hanalysis']
        exact persist_again hr ha hpersist
      · obtain ⟨setting, hsetting, p, hp, hpassed⟩ := hz
        have houtside := hout rs.scan hmeant (isFolder_of_analyse hseen) setting hsetting p hp
        rw [hspot] at houtside
        exact houtside way hway (he ▸ hpassed)

/-- A project that has its component from a library, and a folder for documents behind a link. -/
def shared : Linked where
  world :=
    { root := .folder [
        ("app", .folder [("app.component.ts", .dangling)]),
        ("build", .folder []),
        ("lib", .folder [("app.ts", .file "selector: 'app-root'".toUTF8)]),
        ("out", .dangling)]
      here := { workingDirectory := "/", environment := .empty } }
  target place := [(["app", "app.component.ts"], "../lib/app.ts"), (["out"], "build")].lookup place

/-- Documents behind the link are outside: the folder of the project leads to nothing but itself and the
library. -/
theorem outside_shared {rest : List String} (hmeant : shared.meant ("out" :: rest) = "build" :: rest) :
    shared.Outside ["app"] ("out" :: rest) := by
  intro way hway
  rw [hmeant]
  suffices hends : ∃ top more, shared.ends (["app"] ++ way) = top :: more ∧ top ≠ "build" by
    obtain ⟨top, more, hends, hne⟩ := hends
    rw [hends]
    exact fun hp => hne (List.cons_prefix_cons.1 hp).1
  cases way with
  | nil => exact ⟨"app", [], by decide +kernel, by decide⟩
  | cons name way =>
    have happ : shared.find ["app"] = .arrived Course.limit ["app"] := by decide +kernel
    have hcomponent : shared.find ["app", "app.component.ts"] = .arrived 39 ["lib", "app.ts"] := by decide +kernel
    by_cases hname : name = "app.component.ts"
    · subst hname
      exact ⟨_, _, Linked.ends_append_of_not_folder hcomponent (by decide +kernel) way, by decide⟩
    · have hnone : shared.root.look (["app"] ++ [name]) = none := by
        simp [shared, Linked.root, Node.look, Node.get?, Node.entries, lookup_entry, hname]
      have hdown := (hway name List.mem_cons_self).descends
      exact ⟨_, _, Linked.ends_append_of_nothing happ (by decide +kernel) hdown hnone way, by decide⟩

/-- The first run saves the flat document behind a link, and then the tree has no place below that. So
it is again. -/
theorem run_again_shared :
    ∃ r, ((run (bothAt "out/doc.json" "out/doc.json/tree.json") false).on shared).result = .ok r ∧
      r.errorKind = "write_failed" ∧
      ((run (bothAt "out/doc.json" "out/doc.json/tree.json") false).on
        ((run (bothAt "out/doc.json" "out/doc.json/tree.json") false).on shared).world).ending =
          (.ok r, ((run (bothAt "out/doc.json" "out/doc.json/tree.json") false).on shared).world) := by
  obtain ⟨r, hr, hk⟩ : ∃ r, ((run (bothAt "out/doc.json" "out/doc.json/tree.json") false).on shared).result = .ok r ∧
      r.errorKind = "write_failed" := Fault.exists_of_map_toOption (by decide +kernel)
  have hscan : shared.world.here.resolve (Settings.mend (bothAt "out/doc.json" "out/doc.json/tree.json")).1.scanRoot
      shared.world.here.workingDirectory = .ok "/app" := by decide +kernel
  have houtputs : (Settings.mend (bothAt "out/doc.json" "out/doc.json/tree.json")).1.outputs =
      ["out/doc.json", "out/doc.json/tree.json"] := by decide +kernel
  have htidy : shared.root.Tidy := by
    simp only [shared, Linked.root, Node.Tidy, Node.TidyEntries]
    decide +kernel
  have hspot : shared.world.here.spot "/app" = ["app"] := by decide +kernel
  have hpaths : ∀ setting ∈ ["out/doc.json", "out/doc.json/tree.json"],
      shared.world.here.output setting = .ok ("/" ++ setting) ∧
        ∃ rest, shared.world.here.spot ("/" ++ setting) = "out" :: rest ∧
          shared.meant ("out" :: rest) = "build" :: rest :=
    List.forall_mem_cons.2 ⟨⟨by decide +kernel, ["doc.json"], by decide +kernel⟩,
      List.forall_mem_singleton.2 ⟨by decide +kernel, ["doc.json", "tree.json"], by decide +kernel⟩⟩
  refine ⟨r, hr, hk, run_again _ false rfl htidy (by decide) (by decide +kernel) (by decide +kernel)
    (fun scan hs _ setting hset p hp => ?_) hr⟩
  obtain rfl : "/app" = scan := Except.ok.inj (hscan.symm.trans hs)
  rw [houtputs] at hset
  obtain ⟨hpath, rest, hrest, hmeant⟩ := hpaths setting hset
  obtain rfl := Except.ok.inj (hpath.symm.trans hp)
  rw [hspot, hrest]
  exact outside_shared hmeant

/-! ## Paths that are apart -/

/-- A run tells something else when it is run once more, though none of its documents has its path
in the folder that is scanned, and definition files and templates are told by parts of names. -/
structure TellsOtherwise {D : Type} [Storage D] (config : Json) (d : D) : Prop where
  suffix : '/' ∉ (Settings.mend config).1.suffix.toList
  extensions : ∀ ext ∈ (Settings.mend config).1.extensions, '/' ∉ ext.toList
  outside : ∃ scan, (Storage.seen d).here.resolve (Settings.mend config).1.scanRoot
      (Storage.seen d).here.workingDirectory = .ok scan ∧
    ∀ setting ∈ [(Settings.mend config).1.graphOutput, (Settings.mend config).1.treeOutput],
      ∃ p, (Storage.seen d).here.output setting = .ok p ∧ (Storage.seen d).here.isWithin p scan = false
  differs : ∃ r r', ((run config false).on d).result = .ok r ∧
    ((run config false).on ((run config false).on d).world).result = .ok r' ∧ r' ≠ r

/-- How many components a run tells of, and how many when it is run once more. -/
def counts {D : Type} [Storage D] (config : Json) (d : D) : Option Int × Option Int :=
  let o := (run config false).on d
  (o.result.toOption.map (·.count), ((run config false).on o.world).result.toOption.map (·.count))

theorem exists_reports_of_counts {D : Type} [Storage D] {config : Json} {d : D} {n m : Int} (hne : m ≠ n)
    (h : counts config d = (some n, some m)) :
    ∃ r r', ((run config false).on d).result = .ok r ∧
      ((run config false).on ((run config false).on d).world).result = .ok r' ∧ r' ≠ r := by
  obtain ⟨hfirst, hsecond⟩ := Prod.mk.inj h
  obtain ⟨r, hr, rfl⟩ := Fault.exists_of_map_toOption hfirst
  obtain ⟨r', hr', rfl⟩ := Fault.exists_of_map_toOption hsecond
  exact ⟨r, r', hr, hr', fun he => hne (congrArg Report.count he)⟩

/-- Settings for the flat document at this path. -/
def graphAt (scanRoot graphOutput : String) : Json :=
  .object [("scan_root", .text scanRoot), ("graph_output_path", .text graphOutput)]

/-- A project of one component, which a variable names. -/
def slashed : World where
  root := .folder [("w", .folder [("app", .folder [("a.component.ts", .file "selector: 'a'".toUTF8)])])]
  here := { workingDirectory := "/w", environment := Table.empty.put "X" "/w/app" }

/-- A project of one component, which is declared elsewhere. -/
def borrowed : Linked where
  world :=
    { root := .folder [
        ("app", .folder [("a.component.ts", .dangling)]),
        ("defs", .folder [("a.ts", .file "selector: 'a'".toUTF8)])]
      here := { workingDirectory := "/", environment := .empty } }
  target place := if place = ["app", "a.component.ts"] then some "../defs/a.ts" else none

/-- It is not enough that the paths of documents are not in the folder: the path of the folder may
have a slash more in front, and a link in it may lead to the path of a document. Both times the first
run saves the document in place of the definition file. -/
theorem run_otherwise :
    TellsOtherwise (graphAt "/$X" "app/a.component.ts") slashed ∧
      TellsOtherwise (graphAt "app" "defs/a.ts") borrowed := by
  constructor
  · have houtside : ∀ setting ∈ [(Settings.mend (graphAt "/$X" "app/a.component.ts")).1.graphOutput,
        (Settings.mend (graphAt "/$X" "app/a.component.ts")).1.treeOutput],
        (slashed.here.output setting).toOption.map (slashed.here.isWithin · "//w/app") = some false := by
      decide +kernel
    exact
      { suffix := by decide +kernel
        extensions := by decide +kernel
        outside := ⟨"//w/app", by decide +kernel, fun setting hm => Fault.exists_of_map_toOption (houtside setting hm)⟩
        differs := exists_reports_of_counts (n := 1) (m := 0) (by decide) (by decide +kernel) }
  · have houtside : ∀ setting ∈ [(Settings.mend (graphAt "app" "defs/a.ts")).1.graphOutput,
        (Settings.mend (graphAt "app" "defs/a.ts")).1.treeOutput],
        (borrowed.seen.here.output setting).toOption.map (borrowed.seen.here.isWithin · "/app") = some false := by
      decide +kernel
    exact
      { suffix := by decide +kernel
        extensions := by decide +kernel
        outside := ⟨"/app", by decide +kernel, fun setting hm => Fault.exists_of_map_toOption (houtside setting hm)⟩
        differs := exists_reports_of_counts (n := 1) (m := 0) (by decide) (by decide +kernel) }

end Extraction
end ComponentUsage
