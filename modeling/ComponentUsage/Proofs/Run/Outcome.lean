import ComponentUsage.App
import ComponentUsage.Proofs.Discovery
import ComponentUsage.Proofs.Disk.Sound
import ComponentUsage.Proofs.Run.Effects
/-!
# How a run ends

On a sound disk a run that finds its roots reports. What it reports is decided by the first
of these that applies: there is no folder to scan, something in it cannot be read, the tree
has no component at its root, a document cannot be saved (`run_outcome`).
-/

namespace ComponentUsage

/-- The disk as a job leaves it, unless the job fails. -/
def Outcome.left {α : Type} (o : Outcome α World) : Except Fault World := o.result.map fun _ => o.world

/-- Where a job goes on in the same way whatever was found, only the disk counts. -/
theorem Job.left_bind {α β : Type} (job : Job α) {f : α → Job β} {next : World → Except Fault World}
    (h : ∀ x w, ((f x).on w).left = next w) (w : World) :
    ((job >>= f).on w).left = (job.on w).left >>= next := by
  rw [on_bind]
  obtain ⟨records, fault | x, w'⟩ := job.on w
  · rfl
  · exact h x w'

/-! ## Templates -/

/-- A component's template is a file beside its definition file. -/
theorem Component.candidate_of_template {w : World} {conv : Conventions} {path selector t : String}
    (h : (ofDeclaration w conv path selector).template = some t) :
    ∃ name ∈ templateNames (baseName (Path.split path).2 conv.suffix) conv.suffix conv.extensions,
      w.isFile (Path.join (Path.split path).1 name) = true ∧
        t = w.here.absolute (Path.join (Path.split path).1 name) := by
  simp only [ofDeclaration, findTemplate, Option.map_eq_some_iff] at h
  obtain ⟨p, hp, ht⟩ := h
  obtain ⟨name, hn, rfl⟩ := List.mem_map.1 (List.mem_of_find?_eq_some hp)
  exact ⟨name, hn, List.find?_some hp, ht.symm⟩

/-- The templates of components that were found on a sound disk fail only as the disk does. -/
theorem Registry.readable_of_sound {registry : Registry} {w : World} (hw : w.Sound)
    (h : ∀ e ∈ registry.entries, ∃ conv path selector, e.2 = Component.ofDeclaration w conv path selector) :
    registry.Readable w := by
  intro e he fault hr
  obtain ⟨conv, path, selector, hc⟩ := h e he
  obtain ⟨t, ht, hr⟩ := Option.map_eq_some_iff.1 hr
  rw [hc] at ht
  obtain ⟨name, -, hp, rfl⟩ := Component.candidate_of_template (Option.filter_eq_some_iff.1 ht).1
  have hplain : Path.Plain (Path.join (Path.split path).1 name) := by
    unfold World.isFile at hp
    split at hp
    · rename_i hf
      exact World.plain_of_find hf
    · cases hp
  exact World.isDisk_of_readText hw.quiet (Path.plain_normalize (Path.plain_join hw.here hplain)) hr

theorem Visit.exists_ofDeclaration {w : World} {conv : Component.Conventions} {v : Visit} {c : Component}
    (h : v.component? w conv = some c) :
    ∃ path name selector, v = .entry path name ∧ c = Component.ofDeclaration w conv path selector := by
  cases v with
  | folder path => cases h
  | entry path name =>
    rw [component?] at h
    split at h
    · cases hr : w.readText path with
      | error fault => simp [hr] at h
      | ok text =>
        rw [hr] at h
        obtain ⟨selector, -, hs⟩ := Option.map_eq_some_iff.1 h
        exact ⟨path, name, selector, rfl, hs.symm⟩
    · cases h

/-- A component that a scan keeps was read at a step of its walk. -/
theorem Found.exists_visit_of_mem {w : World} {conv : Component.Conventions} {dir : String}
    {e : String × Component} (he : e ∈ (ofComponents (w.declared conv dir)).registry.entries) :
    ∃ v ∈ w.visits Path.limit (w.here.absolute dir), v.component? w conv = some e.2 := by
  have hg := Table.mem_entries_iff.1 (show (e.1, e.2) ∈ _ from he)
  rw [get?_ofComponents] at hg
  exact List.mem_filterMap.1 (List.mem_filter.1 (List.mem_of_getLast? hg)).1

theorem Found.ofDeclaration_of_mem {w : World} {conv : Component.Conventions} {dir : String}
    {e : String × Component} (he : e ∈ (ofComponents (w.declared conv dir)).registry.entries) :
    ∃ path selector, e.2 = Component.ofDeclaration w conv path selector := by
  obtain ⟨v, -, hv⟩ := exists_visit_of_mem he
  obtain ⟨path, -, selector, -, hc⟩ := Visit.exists_ofDeclaration hv
  exact ⟨path, selector, hc⟩

namespace Extraction

variable {s : Settings} {rs : Roots} {w : World} {config : Json} {dry : Bool}

/-! ## The paths of settings -/

theorem resolve_eq_ok {here : Place} {setting fallback p : String} (h : here.resolve setting fallback = .ok p) :
    ∃ q, p = here.absolute q := by
  obtain ⟨q, -, h⟩ := Fault.bind_eq_ok_iff.1 h
  exact ⟨_, (Except.ok.inj h).symm⟩

theorem resolve_eq_error {here : Place} {setting fallback : String} {fault : Fault}
    (h : here.resolve setting fallback = .error fault) : fault = .zeroInPath := by
  rcases Fault.bind_eq_error_iff.1 h with h | ⟨p, -, h⟩
  · unfold Place.expandHome at h
    split at h
    · dsimp only at h
      split at h
      · exact (Except.error.inj h).symm
      · split at h <;> cases h
    · cases h
  · cases h

/-! ## Documents that cannot be saved -/

/-- Documents with the settings for their paths, in the order in which they are saved. -/
def documents (s : Settings) (graph tree : Option Json) : List (String × Json) :=
  graph.toList.map (s.graphOutput, ·) ++ tree.toList.map (s.treeOutput, ·)

/-- The disk once a document is saved at the path that a setting means. -/
def savedTo (w : World) (d : String × Json) : Except Fault World := do
  let p ← w.here.output d.1
  let saved := w.save p (fileText d.2)
  saved.2.map fun _ => saved.1

/-- The disk once documents are saved one after the other. -/
def savedAll (w : World) (docs : List (String × Json)) : Except Fault World := docs.foldlM savedTo w

theorem left_save (what setting : String) (doc : Json) (w : World) :
    ((save what setting (some doc)).on w).left = savedTo w (setting, doc) := by
  simp only [save, savedTo, Job.on_bind, Job.on_disk, Outcome.andThen_ok, Job.on_ofExcept]
  rw [← Place.output]
  cases w.here.output setting with
  | error fault => rfl
  | ok p =>
    simp only [Outcome.andThen_ok, Job.on_bind, Job.on_write, Fault.ok_bind]
    generalize w.save p (fileText doc) = saved
    obtain ⟨w', fault | done⟩ := saved <;> rfl

theorem left_saveAll (s : Settings) (a : Analysis) (w : World) :
    ((saveAll s a).on w).left = savedAll w (documents s a.graph a.tree) := by
  have htree : ∀ graphPath w', ((do
      let treePath ← save "tree" s.treeOutput a.tree
      return (graphPath, treePath) : Job (String × String)).on w').left =
        savedAll w' (documents s none a.tree) := by
    intro graphPath w'
    refine (@Job.left_bind _ _ _ _ Except.ok (fun _ _ => rfl) w').trans ?_
    cases a.tree with
    | none => rfl
    | some tree =>
      rw [left_save]
      rfl
  rw [saveAll, Job.left_bind _ htree]
  cases a.graph with
  | none => rfl
  | some graph =>
    rw [left_save]
    rfl

/-- The path that a setting for a document means is one without a zero character. -/
def PlainOutput (here : Place) (setting : String) : Prop := ∃ p, here.output setting = .ok p ∧ Path.Plain p

theorem fault_of_savedTo {d : String × Json} {fault : Fault} (hq : w.interrupting = [])
    (hh : Path.Plain w.here.workingDirectory) (h : savedTo w d = .error fault) :
    fault.isDisk = true ∨ fault = .zeroInPath ∧ ¬ PlainOutput w.here d.1 := by
  rcases Fault.bind_eq_error_iff.1 h with hout | ⟨p, hout, hsave⟩
  · refine .inr ⟨resolve_eq_error hout, fun ⟨p, hp, _⟩ => ?_⟩
    rw [hout] at hp
    cases hp
  · dsimp only at hsave
    cases hr : (w.save p (fileText d.2)).2 with
    | ok done =>
      rw [hr] at hsave
      cases hsave
    | error stop =>
      rw [hr] at hsave
      obtain rfl : stop = fault := Except.error.inj hsave
      refine (World.fault_of_save hq hr).imp_right fun ⟨hz, habs⟩ => ⟨hz, fun ⟨q, hq, hplain⟩ => ?_⟩
      obtain rfl : p = q := Except.ok.inj (hout.symm.trans hq)
      exact habs (Path.plain_normalize (Path.plain_join hh hplain))

theorem rest_of_savedTo {d : String × Json} {w' : World} (h : savedTo w d = .ok w') :
    w'.here = w.here ∧ w'.interrupting = w.interrupting := by
  obtain ⟨p, -, hsave⟩ := Fault.bind_eq_ok_iff.1 h
  dsimp only at hsave
  rcases w.save_cases p (fileText d.2) with ⟨stop, hr, -⟩ | ⟨hr, ht, -⟩
  · rw [hr] at hsave
    cases hsave
  · rw [hr] at hsave
    obtain rfl : (w.save p (fileText d.2)).1 = w' := Except.ok.inj hsave
    exact ⟨ht.here, ht.interrupting⟩

/-- Documents are kept from being saved by the disk, or by a zero character in a path. -/
theorem fault_of_savedAll {docs : List (String × Json)} {fault : Fault} (hq : w.interrupting = [])
    (hh : Path.Plain w.here.workingDirectory) (h : savedAll w docs = .error fault) :
    fault.isDisk = true ∨ fault = .zeroInPath ∧ ∃ d ∈ docs, ¬ PlainOutput w.here d.1 := by
  induction docs generalizing w with
  | nil => cases h
  | cons d docs ih =>
    rw [savedAll, List.foldlM_cons] at h
    rcases Fault.bind_eq_error_iff.1 h with h | ⟨w', hd, h⟩
    · exact (fault_of_savedTo hq hh h).imp_right fun ⟨hz, hp⟩ => ⟨hz, d, List.mem_cons_self, hp⟩
    · obtain ⟨here, hint⟩ := rest_of_savedTo hd
      have hrest := ih (hint.trans hq) (by rwa [here]) h
      rw [here] at hrest
      exact hrest.imp_right fun ⟨hz, d', hm, hp⟩ => ⟨hz, d', List.mem_cons_of_mem _ hm, hp⟩

theorem isDisk_of_savedAll {docs : List (String × Json)} {fault : Fault} (hq : w.interrupting = [])
    (hh : Path.Plain w.here.workingDirectory) (hp : ∀ d ∈ docs, PlainOutput w.here d.1)
    (h : savedAll w docs = .error fault) : fault.isDisk = true :=
  (fault_of_savedAll hq hh h).resolve_right fun ⟨_, d, hd, hz⟩ => hz (hp d hd)

/-! ## Roots -/

theorem result_roots (s : Settings) (w : World) :
    ((roots s).on w).result = (do
      let scan ← w.here.resolve s.scanRoot w.here.workingDirectory
      let source ← w.here.resolve s.sourceRoot scan
      return if w.here.isWithin scan source then ⟨scan, source⟩ else ⟨scan, Path.directory scan⟩) := by
  rw [roots, Job.LeavesDisk.disk.result_bind, Job.on_disk, Fault.ok_bind,
    (Job.LeavesDisk.ofExcept _).result_bind, Job.on_ofExcept]
  refine bind_congr fun scan => ?_
  rw [(Job.LeavesDisk.ofExcept _).result_bind, Job.on_ofExcept]
  refine bind_congr fun source => ?_
  split <;> rfl

theorem roots_of_here {w' : World} (h : w'.here = w.here) :
    ((roots s).on w').result = ((roots s).on w).result := by
  rw [result_roots, result_roots, h]

/-- The directory that is scanned is the one that its setting means. -/
theorem resolve_of_roots (hr : ((roots s).on w).result = .ok rs) :
    w.here.resolve s.scanRoot w.here.workingDirectory = .ok rs.scan := by
  rw [result_roots] at hr
  obtain ⟨scan, hs, hr⟩ := Fault.bind_eq_ok_iff.1 hr
  obtain ⟨source, -, hr⟩ := Fault.bind_eq_ok_iff.1 hr
  rw [hs]
  split at hr <;> exact congrArg (Except.ok ∘ Roots.scan) (Except.ok.inj hr)

/-- The directory that is scanned stands for itself. -/
theorem absolute_scan (ha : Path.isAbsolute w.here.workingDirectory = true)
    (hr : ((roots s).on w).result = .ok rs) : w.here.absolute rs.scan = rs.scan := by
  obtain ⟨q, hq⟩ := resolve_eq_ok (resolve_of_roots hr)
  rw [hq, Place.absolute_absolute ha]

/-- Its path is made of slashes and names. -/
theorem exists_scan (ha : Path.isAbsolute w.here.workingDirectory = true)
    (hr : ((roots s).on w).result = .ok rs) :
    ∃ slashes ns, (slashes = "/" ∨ slashes = "//") ∧ (∀ n ∈ ns, Node.IsName n) ∧
      rs.scan = World.pathOf slashes ns ∧ w.here.spot rs.scan = ns := by
  obtain ⟨q, hq⟩ := resolve_eq_ok (resolve_of_roots hr)
  obtain ⟨slashes, ns, hs, hn, hpath⟩ := Place.absolute_eq_pathOf ha q
  have hscan : rs.scan = World.pathOf slashes ns := hq.trans hpath
  refine ⟨slashes, ns, hs, hn, hscan, ?_⟩
  rw [Place.spot, absolute_scan ha hr, hscan, Path.names_pathOf hs hn]

theorem zeroInPath_of_roots {fault : Fault} (hr : ((roots s).on w).result = .error fault) :
    fault = .zeroInPath := by
  rw [result_roots] at hr
  rcases Fault.bind_eq_error_iff.1 hr with hr | ⟨scan, -, hr⟩
  · exact resolve_eq_error hr
  · rcases Fault.bind_eq_error_iff.1 hr with hr | ⟨source, -, hr⟩
    · exact resolve_eq_error hr
    · cases hr

/-! ## Ends of a run -/

theorem result_run_of_rootless {fault : Fault}
    (hr : ((roots (Settings.mend config).1).on w).result = .error fault) :
    ((run config dry).on w).result = .error fault := by
  have he := congrArg Prod.fst (ending_run config dry w)
  dsimp only [Outcome.ending] at he
  rw [he, (leavesDisk_roots _).result_bind, hr]
  rfl

theorem result_run_of_analysis {analysis : Except Report Analysis} (dry : Bool)
    (hr : ((roots (Settings.mend config).1).on w).result = .ok rs)
    (ha : ((analyse (Settings.mend config).1 rs).on w).result = .ok analysis) :
    ((run config dry).on w).result = ((conclude (Settings.mend config).1 dry rs analysis).on w).result :=
  congrArg Prod.fst (ending_run_of_analysis dry hr ha)

theorem result_dry_run {a : Analysis} (hr : ((roots (Settings.mend config).1).on w).result = .ok rs)
    (ha : ((analyse (Settings.mend config).1 rs).on w).result = .ok (.ok a)) :
    ((run config true).on w).result = .ok (succeed (Settings.mend config).1 rs a "" "") :=
  result_run_of_analysis true hr ha

theorem result_persist (a : Analysis) (s : Settings) (rs : Roots) (w : World) :
    ((persist s rs a).on w).result =
      match ((saveAll s a).on w).result with
      | .ok (graphPath, treePath) => .ok (succeed s rs a graphPath treePath)
      | .error fault => if fault.isDisk then .ok (unwritten s rs a fault) else .error fault :=
  congrArg Prod.fst (ending_persist s rs a w)

theorem result_persist_of_saved (rs : Roots) {a : Analysis} {w' : World}
    (h : savedAll w (documents s a.graph a.tree) = .ok w') :
    ∃ graphPath treePath, ((persist s rs a).on w).result = .ok (succeed s rs a graphPath treePath) := by
  rw [← left_saveAll, Outcome.left] at h
  rw [result_persist]
  cases hr : ((saveAll s a).on w).result with
  | error fault =>
    rw [hr] at h
    cases h
  | ok paths => exact ⟨paths.1, paths.2, rfl⟩

theorem result_persist_of_fault (rs : Roots) {a : Analysis} {fault : Fault}
    (h : savedAll w (documents s a.graph a.tree) = .error fault) :
    ((persist s rs a).on w).result =
      if fault.isDisk then .ok (unwritten s rs a fault) else .error fault := by
  rw [← left_saveAll, Outcome.left] at h
  rw [result_persist]
  cases hr : ((saveAll s a).on w).result with
  | error stop =>
    rw [hr] at h
    obtain rfl : stop = fault := Except.error.inj h
    rfl
  | ok paths =>
    rw [hr] at h
    cases h

theorem result_persist_of_unsaved {a : Analysis} {fault : Fault} (hd : fault.isDisk = true)
    (h : savedAll w (documents s a.graph a.tree) = .error fault) :
    ((persist s rs a).on w).result = .ok (unwritten s rs a fault) := by
  rw [result_persist_of_fault rs h, if_pos hd]

theorem exitCode_of_finish (m : Machine) (o : CommandLine.Options) (settings : Settings) (r : Report) :
    (m.finish o settings (.ok r)).2 = r.exitCode := by
  unfold Machine.finish
  dsimp only
  split <;> rfl

theorem setting_of_mem_documents {graph tree : Option Json} (hg : graph.isSome = s.mode.hasGraph)
    (ht : tree.isSome = s.mode.hasTree) : ∀ d ∈ documents s graph tree, d.1 ∈ s.outputs := by
  intro d hd
  rcases List.mem_append.1 hd with hd | hd
  · obtain ⟨doc, hdoc, rfl⟩ := List.mem_map.1 hd
    exact graphOutput_mem (hg ▸ Option.isSome_iff_exists.2 ⟨doc, Option.mem_toList.1 hdoc⟩)
  · obtain ⟨doc, hdoc, rfl⟩ := List.mem_map.1 hd
    exact treeOutput_mem (ht ▸ Option.isSome_iff_exists.2 ⟨doc, Option.mem_toList.1 hdoc⟩)

/-! ## What decides how a run ends -/

theorem result_analyse_of_fault {spot : List String} {fault : Fault} (hw : w.Sound)
    (hr : ((roots s).on w).result = .ok rs) (hf : w.isFolder rs.scan = true)
    (h : w.FirstFault s.suffix rs.scan spot fault) :
    ((analyse s rs).on w).result = .ok (.error
      (.failed ⟨.structuralRead, s!"Failed to scan project tree: {fault.message}"⟩ s.mode.name rs.scan)) := by
  have hscan := absolute_scan hw.absolute hr
  obtain ⟨es, hfind⟩ := World.find_of_isFolder hf
  have hdisk := World.isDisk_of_faulty hw (World.plain_of_find hfind) h.faulty
  have hfail : ((Registry.scan rs.scan (conventions s rs)).on w).result = .error fault :=
    Found.result_scan_of_firstFault hw.tidy (hscan.symm ▸ hf) (hscan.symm ▸ h)
  rw [result_analyse, if_pos hf, hfail]
  exact if_pos hdisk

/-- Without faults the scan finds something, and the discovery too. -/
theorem exists_found (hw : w.Sound) (hr : ((roots s).on w).result = .ok rs) (hf : w.isFolder rs.scan = true)
    (h : ∀ spot fault, ¬ w.Faulty s.suffix rs.scan spot fault) :
    ∃ found discovered, ((Registry.scan rs.scan (conventions s rs)).on w).result = .ok found ∧
      ((Usage.discover found.registry).on w).result = .ok discovered := by
  have hscan := absolute_scan hw.absolute hr
  have hok : w.Scannable (conventions s rs) rs.scan :=
    Found.scannable_of_faultless (hscan.symm ▸ hf) (hscan.symm ▸ h)
  refine ⟨_, Usage.found (Found.ofComponents (w.declared (conventions s rs) rs.scan)).registry w,
    Found.result_scan hok, ?_⟩
  rw [Usage.on_discover (Registry.readable_of_sound hw fun e he => ⟨_, Found.ofDeclaration_of_mem he⟩)]

theorem result_analyse_of_unrooted {found : Found} (hf : w.isFolder rs.scan = true)
    (hs : ((Registry.scan rs.scan (conventions s rs)).on w).result = .ok found)
    (ht : s.mode.hasTree = true) (hk : s.rootSelector ∉ found.registry.keys) :
    ((analyse s rs).on w).result = .ok (.error (unrooted s rs found)) := by
  have hc : (s.mode.hasTree && !found.registry.contains s.rootSelector) = true := by
    rw [ht, Bool.true_and, Bool.not_eq_true', ← Bool.not_eq_true, Table.contains_iff]
    exact hk
  rw [result_analyse, if_pos hf, hs]
  exact if_pos hc

theorem result_analyse_of_rooted {found : Found} {discovered : Usage.Found} (hf : w.isFolder rs.scan = true)
    (hs : ((Registry.scan rs.scan (conventions s rs)).on w).result = .ok found)
    (hk : s.mode.hasTree = true → s.rootSelector ∈ found.registry.keys)
    (hd : ((Usage.discover found.registry).on w).result = .ok discovered) :
    ((analyse s rs).on w).result = .ok (.ok (described w.here s rs found discovered)) := by
  have hc : ¬ (s.mode.hasTree && !found.registry.contains s.rootSelector) = true := by
    rw [Bool.and_eq_true, Bool.not_eq_true', ← Bool.not_eq_true, Table.contains_iff]
    exact fun h => h.2 (hk h.1)
  rw [result_analyse, if_pos hf, hs]
  dsimp only
  rw [if_neg hc, hd]
  rfl

/-- The tree of a registry has a root exactly if the selector is there. -/
theorem ofRoot_of_mem {soil : UsageTree.Soil} {selector : String} (h : selector ∈ soil.registry.keys) :
    ∃ grown, UsageTree.ofRoot soil selector = .ok grown := by
  obtain ⟨c, hc⟩ := Table.mem_keys_iff.1 h
  exact ⟨_, by rw [UsageTree.ofRoot, hc]⟩

theorem ofRoot_of_not_mem {soil : UsageTree.Soil} {selector : String} (h : selector ∉ soil.registry.keys) :
    UsageTree.ofRoot soil selector = .error ⟨selector, UsageTree.available soil.registry⟩ := by
  have hn : soil.registry.get? selector = none := by
    rw [Option.eq_none_iff_forall_ne_some]
    exact fun c hc => h (Table.mem_keys_iff.2 ⟨c, hc⟩)
  rw [UsageTree.ofRoot, hn]

/-- What a run with a finished analysis comes to is decided by its documents alone. -/
theorem run_of_rooted {found : Found} {discovered : Usage.Found} (dry : Bool) (hw : w.Sound)
    (hout : ∀ setting ∈ (Settings.mend config).1.outputs,
      ∃ p, w.here.output setting = .ok p ∧ Path.Plain p)
    (hr : ((roots (Settings.mend config).1).on w).result = .ok rs)
    (hk : (Settings.mend config).1.mode.hasTree = true →
      (Settings.mend config).1.rootSelector ∈ found.registry.keys)
    (ha : ((analyse (Settings.mend config).1 rs).on w).result =
      .ok (.ok (described w.here (Settings.mend config).1 rs found discovered))) :
    ∃ r preview, ((run config dry).on w).result = .ok r ∧ ((run config true).on w).result = .ok preview ∧
      preview.ok = true ∧ preview.exitCode = 0 ∧
      (dry = false → match savedAll w (documents (Settings.mend config).1 preview.graph preview.tree) with
        | .error _ => r.errorKind = "write_failed" ∧ r.exitCode = 1
        | .ok _ => r.ok = true ∧ r.exitCode = 0) := by
  generalize hs : (Settings.mend config).1 = s at *
  have hfits : Fits (described w.here s rs found discovered) s := fits_described discovered hk
  generalize described w.here s rs found discovered = a at ha hfits
  have hpreview : ((run config true).on w).result = .ok (succeed s rs a "" "") := by
    subst hs
    exact result_dry_run hr ha
  cases dry with
  | true => exact ⟨_, _, hpreview, hpreview, rfl, rfl, fun h => by cases h⟩
  | false =>
    have hreal : ((run config false).on w).result = ((persist s rs a).on w).result := by
      subst hs
      exact result_run_of_analysis false hr ha
    have hdocs : (succeed s rs a "" "").graph = a.graph ∧ (succeed s rs a "" "").tree = a.tree := ⟨rfl, rfl⟩
    cases hsave : savedAll w (documents s a.graph a.tree) with
    | ok w' =>
      obtain ⟨graphPath, treePath, hp⟩ := result_persist_of_saved rs hsave
      refine ⟨_, _, hreal.trans hp, hpreview, rfl, rfl, fun _ => ?_⟩
      rw [hdocs.1, hdocs.2, hsave]
      exact ⟨rfl, rfl⟩
    | error fault =>
      have hdisk : fault.isDisk = true := isDisk_of_savedAll hw.quiet hw.here
        (fun d hd => hout d.1 (setting_of_mem_documents hfits.graph hfits.tree d hd)) hsave
      refine ⟨_, _, hreal.trans (result_persist_of_unsaved hdisk hsave), hpreview, rfl, rfl, fun _ => ?_⟩
      rw [hdocs.1, hdocs.2, hsave]
      exact ⟨rfl, rfl⟩

/-- A run that does not find its roots fails with the zero character in a path; lonely halves of
characters, with which it would fail too, are no part of a text here (`World.Sound`). Any other run
on a sound disk reports, and its report is decided by the first of these that applies: there
is no folder to scan; below it something cannot be listed or read, and then the first such
fault is told; the tree has no component at its root; some document cannot be saved. -/
theorem run_outcome (config : Json) (dry : Bool) {w : World} (hw : w.Sound)
    (hout : ∀ setting ∈ (Settings.mend config).1.outputs,
      ∃ p, w.here.output setting = .ok p ∧ Path.Plain p) :
    let s := (Settings.mend config).1
    (∀ fault, ((roots s).on w).result = .error fault →
      fault = .zeroInPath ∧ ((run config dry).on w).result = .error fault) ∧
    ∀ rs, ((roots s).on w).result = .ok rs →
      ∃ r, ((run config dry).on w).result = .ok r ∧
        (∀ m o settings, (Machine.finish m o settings (.ok r)).2 = r.exitCode) ∧
        (w.isFolder rs.scan = false → r.errorKind = "invalid_input" ∧ r.exitCode = 2) ∧
        (w.isFolder rs.scan = true → (∃ spot fault, w.Faulty s.suffix rs.scan spot fault) →
          ∃ spot fault, w.FirstFault s.suffix rs.scan spot fault ∧ r.errorKind = "structural_read" ∧
            r.error = s!"Failed to scan project tree: {fault.message}" ∧ r.count = 0 ∧ r.exitCode = 1) ∧
        (w.isFolder rs.scan = true → (∀ spot fault, ¬ w.Faulty s.suffix rs.scan spot fault) →
          ∃ found, ((Registry.scan rs.scan (conventions s rs)).on w).result = .ok found ∧
            (s.mode.hasTree = true → s.rootSelector ∉ found.registry.keys →
              r.errorKind = "missing_root" ∧ r.exitCode = 3 ∧
              ∀ soil : UsageTree.Soil, soil.registry = found.registry →
                UsageTree.ofRoot soil s.rootSelector = .error ⟨s.rootSelector, r.available⟩) ∧
            ((s.mode.hasTree = true → s.rootSelector ∈ found.registry.keys) →
              (∀ soil : UsageTree.Soil, soil.registry = found.registry → s.mode.hasTree = true →
                ∃ grown, UsageTree.ofRoot soil s.rootSelector = .ok grown) ∧
              ∃ preview, ((run config true).on w).result = .ok preview ∧ preview.ok = true ∧
                preview.exitCode = 0 ∧
                (dry = false → match savedAll w (documents s preview.graph preview.tree) with
                  | .error _ => r.errorKind = "write_failed" ∧ r.exitCode = 1
                  | .ok _ => r.ok = true ∧ r.exitCode = 0))) := by
  intro s
  refine ⟨fun fault hr => ⟨zeroInPath_of_roots hr, result_run_of_rootless hr⟩, fun rs hr => ?_⟩
  by_cases hf : w.isFolder rs.scan = true
  · by_cases hfault : ∃ spot fault, w.Faulty s.suffix rs.scan spot fault
    · have hne : rs.scan ≠ "" := absolute_scan hw.absolute hr ▸ Path.normalize_ne_empty _
      obtain ⟨spot, fault, -, -, hfirst, -⟩ := World.exists_firstFault hw.tidy hne hfault
      have ha := result_analyse_of_fault hw hr hf hfirst
      refine ⟨_, result_run_of_analysis dry hr ha, fun _ _ _ => exitCode_of_finish _ _ _ _,
        fun h => absurd hf (by simp [h]), fun _ _ => ⟨spot, fault, hfirst, rfl, rfl, rfl, rfl⟩, fun _ h => ?_⟩
      obtain ⟨spot, fault, h'⟩ := hfault
      exact absurd h' (h spot fault)
    · have hfaultless : ∀ spot fault, ¬ w.Faulty s.suffix rs.scan spot fault :=
        fun spot fault h => hfault ⟨spot, fault, h⟩
      obtain ⟨found, discovered, hs, hd⟩ := exists_found hw hr hf hfaultless
      by_cases hk : s.mode.hasTree = true → s.rootSelector ∈ found.registry.keys
      · have ha := result_analyse_of_rooted hf hs hk hd
        obtain ⟨r, preview, hres, hpreview⟩ := run_of_rooted dry hw hout hr hk ha
        refine ⟨r, hres, fun _ _ _ => exitCode_of_finish _ _ _ _, fun h => absurd hf (by simp [h]),
          fun _ h => absurd h hfault, fun _ _ => ⟨found, hs, fun ht h => absurd (hk ht) h, fun _ =>
            ⟨fun soil hsoil ht => ofRoot_of_mem (hsoil ▸ hk ht), preview, hpreview⟩⟩⟩
      · obtain ⟨ht, hk⟩ := Classical.not_imp.1 hk
        have ha := result_analyse_of_unrooted hf hs ht hk
        refine ⟨_, result_run_of_analysis dry hr ha, fun _ _ _ => exitCode_of_finish _ _ _ _,
          fun h => absurd hf (by simp [h]), fun _ h => absurd h hfault, fun _ _ => ⟨found, hs,
            fun _ _ => ⟨rfl, rfl, fun soil hsoil => ?_⟩, fun h => absurd (h ht) hk⟩⟩
        rw [ofRoot_of_not_mem (hsoil ▸ hk), hsoil]
        rfl
  · have ha : ((analyse s rs).on w).result = .ok (.error (.failed
        ⟨.invalidInput, s!"Invalid scan directory: {rs.scan}"⟩ s.mode.name rs.scan)) := by
      rw [result_analyse, if_neg hf]
    exact ⟨_, result_run_of_analysis dry hr ha, fun _ _ _ => exitCode_of_finish _ _ _ _,
      fun _ => ⟨rfl, rfl⟩, fun h => absurd h hf, fun h => absurd h hf⟩

theorem sound_lone (locked : List String) : { lone with locked }.Sound where
  tidy := by
    simp only [lone, Node.Tidy, Node.TidyEntries]
    decide +kernel
  plain := by
    refine Node.plain_folder ?_
    simp only [List.forall_mem_cons, List.not_mem_nil, false_implies, implies_true, and_true]
    refine ⟨by decide, Node.plain_folder ?_⟩
    simp only [List.forall_mem_cons, List.not_mem_nil, false_implies, implies_true, and_true]
    exact ⟨by decide, Node.plain_of_not_folder rfl⟩
  here := (by decide : Path.Plain "/")
  absolute := (by decide : Path.isAbsolute "/" = true)
  quiet := rfl

/-- A scan root may be the home of a user whose name holds a zero character. The run then
does not report at all. -/
theorem run_of_zero_in_user :
    lone.Sound ∧
      (∀ setting ∈ (Settings.mend (.object [("scan_root", .text "~u\x00")])).1.outputs,
        ∃ p, lone.here.output setting = .ok p ∧ Path.Plain p) ∧
      ∀ r, ((run (.object [("scan_root", .text "~u\x00")]) false).on lone).result ≠ .ok r := by
  have houtputs : (Settings.mend (.object [("scan_root", .text "~u\x00")])).1.outputs =
      ["angular-component-graph.json"] := by decide +kernel
  have hroots : ((roots (Settings.mend (.object [("scan_root", .text "~u\x00")])).1).on lone).result =
      .error .zeroInPath := by decide +kernel
  refine ⟨sound_lone [], fun setting hs => ?_, fun r h => ?_⟩
  · rw [houtputs, List.mem_singleton] at hs
    exact ⟨"/angular-component-graph.json", by rw [hs]; decide +kernel, by decide⟩
  · rw [result_run_of_rootless hroots] at h
    cases h

/-- A definition file that is kept from the program ends the run, whatever it is to write. -/
theorem run_outcome_locked :
    { lone with locked := ["/app/app.component.ts"] }.Sound ∧
      ∃ r, ((run (bothAt "doc.json" "tree.json") false).on
          { lone with locked := ["/app/app.component.ts"] }).result = .ok r ∧
        r.errorKind = "structural_read" ∧ r.exitCode = 1 := by
  have houtputs : (Settings.mend (bothAt "doc.json" "tree.json")).1.outputs = ["doc.json", "tree.json"] := by
    decide +kernel
  have hroots : ((roots (Settings.mend (bothAt "doc.json" "tree.json")).1).on
      { lone with locked := ["/app/app.component.ts"] }).result = .ok ⟨"/app", "/"⟩ := by decide +kernel
  have hsuffix : (Settings.mend (bothAt "doc.json" "tree.json")).1.suffix = ".component.ts" := by
    decide +kernel
  have hfaulty : { lone with locked := ["/app/app.component.ts"] }.Faulty ".component.ts" "/app"
      ["app.component.ts"] (.disk .denied "/app/app.component.ts") :=
    ⟨.inside rfl (by decide) (.here _), .inr (by decide +kernel)⟩
  have hw := sound_lone ["/app/app.component.ts"]
  obtain ⟨-, hends⟩ := run_outcome (bothAt "doc.json" "tree.json") false hw fun setting hs => by
    rw [houtputs] at hs
    rcases List.mem_cons.1 hs with rfl | hs
    · exact ⟨"/doc.json", by decide +kernel, by decide⟩
    · exact ⟨"/tree.json", by rw [List.mem_singleton.1 hs]; decide +kernel, by decide⟩
  obtain ⟨r, hr, -, -, hfault, -⟩ := hends _ hroots
  rw [hsuffix] at hfault
  obtain ⟨spot, fault, -, hkind, -, -, hcode⟩ := hfault (by decide +kernel) ⟨_, _, hfaulty⟩
  exact ⟨hw, r, hr, hkind, hcode⟩

end Extraction
end ComponentUsage
