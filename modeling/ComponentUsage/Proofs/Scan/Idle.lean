import ComponentUsage.Proofs.Disk.Apart
import ComponentUsage.Proofs.Scan.Faults
import ComponentUsage.Proofs.Scan.Hosts
import ComponentUsage.Proofs.Scan.Within
/-!
# What makes no difference to a scan

A file that neither declares a component nor can be the template of one, and an empty folder,
may come, go and change: a scan finds the same, or fails for the same fault (`result_scan`), and so
does the discovery after it (`result_discover`).
-/

namespace ComponentUsage

/-! ## What a walk comes to -/

/-- What a step of a walk comes to: the fault that ends the walk, or the component that is read. -/
def Visit.outcome? (w : World) (conv : Component.Conventions) (v : Visit) : Option (Except Fault Component) :=
  match v.fault? w conv.suffix with
  | some fault => some (.error fault)
  | none => (v.component? w conv).map .ok

theorem Visit.readText_of_component? {w : World} {conv : Component.Conventions} {path name : String} {c : Component}
    (h : (Visit.entry path name).component? w conv = some c) :
    conv.suffix.toList.isSuffixOf name.toList = true ∧ ∃ text, w.readText path = .ok text := by
  rw [component?] at h
  split at h
  · rename_i hsuffix
    cases hr : w.readText path with
    | ok text => exact ⟨hsuffix, text, rfl⟩
    | error fault => simp [hr] at h
  · cases h

namespace Found

variable {w : World} {conv : Component.Conventions}

/-- Takes in what a step has come to. -/
def takeIn (found : Found) (outcome : Except Fault Component) : Except Fault Found :=
  outcome.map fun c => (found.add c).1

/-- A walk comes to what its steps come to, one after the other. -/
theorem result_visitAll_eq (found : Found) (visits : List Visit) :
    ((found.visitAll conv visits).on w).result =
      (visits.filterMap (Visit.outcome? w conv)).foldlM takeIn found := by
  induction visits generalizing found with
  | nil => rfl
  | cons v visits ih =>
    have hrest : ∀ found : Found, ((visits.foldlM (visit conv) found).on w).result =
        (visits.filterMap (Visit.outcome? w conv)).foldlM takeIn found := ih
    rw [visitAll, List.foldlM_cons, (leavesDisk_visit conv found v).result_bind, List.filterMap_cons,
      Visit.outcome?]
    cases hv : v.fault? w conv.suffix with
    | some fault =>
      rw [result_visit_of_fault found hv, List.foldlM_cons]
      rfl
    | none =>
      rw [result_visit found (Visit.readable_iff.2 hv), Fault.ok_bind, hrest]
      cases v.component? w conv <;> rfl

theorem result_scan_eq (dir : String) :
    ((Registry.scan dir conv).on w).result =
      ((w.visits Path.limit (w.here.absolute dir)).filterMap (Visit.outcome? w conv)).foldlM takeIn ⟨.empty, []⟩ := by
  simp only [Registry.scan, Job.on_bind, Job.on_disk, Job.on_tell, Outcome.andThen_ok, on_walk]
  exact result_visitAll_eq _ _

end Found

/-! ## Idle places -/

namespace World

theorem look_of_readText {w : World} {slashes text : String} {ns : List String} (hs : slashes = "/" ∨ slashes = "//")
    (hn : ∀ n ∈ ns, Node.IsName n) (h : w.readText (pathOf slashes ns) = .ok text) :
    ∃ content, w.look ns = some (.file content) := by
  obtain ⟨content, hf, -⟩ := find_of_readText h
  obtain ⟨-, -, -, hget⟩ := (find_pathOf_eq_ok_iff hs hn).1 hf
  exact ⟨content, by rw [look, Node.look, hget]; rfl⟩

/-- What stands under a name in a folder, at a path, is idle for a scan: nothing, or a file that is
no definition file and is not called as the template of one beside it may be, or a folder that
can be listed and holds nothing, or a link that leads nowhere and is not called as a definition
file is. -/
inductive Idle (w : World) (conv : Component.Conventions) (ns : List String) (name path : String) : Prop
  | nothing : w.look (ns ++ [name]) = none → Idle w conv ns name path
  | file {content : ByteArray} : w.look (ns ++ [name]) = some (.file content) →
      conv.suffix.toList.isSuffixOf name.toList = false →
      (∀ file content, w.look (ns ++ [file]) = some (.file content) →
        conv.suffix.toList.isSuffixOf file.toList = true →
        name ∉ Component.templateNames (Component.baseName file conv.suffix) conv.suffix conv.extensions) →
      Idle w conv ns name path
  | folder : w.look (ns ++ [name]) = some .folder → w.list path = .ok [] → Idle w conv ns name path
  | dangling : w.look (ns ++ [name]) = some .dangling →
      conv.suffix.toList.isSuffixOf name.toList = false → Idle w conv ns name path

namespace Idle

variable {w : World} {conv : Component.Conventions} {ns ps : List String} {name file slashes : String}
  {content : ByteArray}

section

variable (hs : slashes = "/" ∨ slashes = "//") (h : w.Idle conv ns name (pathOf slashes (ns ++ [name])))

include hs h

/-- Where it is listed a walk comes to nothing. -/
theorem outcomes (ht : w.root.Tidy) (hn : ∀ n ∈ ns, Node.IsName n) {names : List String}
    (hl : w.list (pathOf slashes ns) = .ok names) (hm : name ∈ names) (depth : Nat) :
    (w.visitsAt (w.visits depth) (pathOf slashes ns) name).filterMap (Visit.outcome? w conv) = [] := by
  have hname := isName_of_list ht hl name hm
  have hsome := (mem_iff_of_list hs hn hl name).1 hm
  have hns := Node.isName_concat hn hname
  rw [visitsAt, Path.join_pathOf hs hn hname]
  cases h with
  | nothing hl =>
    rw [hl] at hsome
    cases hsome
  | file hl hsuffix _ | dangling hl hsuffix =>
    have hf : w.isFolder (pathOf slashes (ns ++ [name])) = false := by
      rw [← Bool.not_eq_true, isFolder_pathOf_iff hs hns, hl]
      simp
    simp [hf, Visit.outcome?, Visit.fault?, Visit.component?, hsuffix]
  | folder _ hlist =>
    obtain ⟨es, hf, -⟩ := list_eq_ok hlist
    rw [if_pos (isFolder_of_find hf)]
    cases depth with
    | zero => rfl
    | succ depth => simp [visits, hlist, Visit.outcome?, Visit.fault?, Visit.component?]

/-- Nothing stands below an idle place. -/
theorem look_below (hn : ∀ n ∈ ns ++ [name], Node.IsName n) {rest : List String} (hr : rest ≠ []) :
    w.look (ns ++ [name] ++ rest) = none := by
  have hnone : (∀ es, w.root.get? (ns ++ [name]) ≠ some (.folder es)) → w.look (ns ++ [name] ++ rest) = none := by
    intro hfolder
    rw [look, Node.look, Node.get?_below hr hfolder]
    rfl
  cases h with
  | nothing hl => exact hnone fun es he => by simp [look, Node.look, he] at hl
  | file hl | dangling hl => exact hnone fun es he => by simp [look, Node.look, he, Node.shape] at hl
  | folder _ hlist =>
    -- what the folder holds would be listed
    obtain ⟨a, rest, rfl⟩ := List.exists_cons_of_ne_nil hr
    have ha := (mem_iff_of_list hs hn hlist a).not.1 List.not_mem_nil
    rw [Bool.not_eq_true, Option.isSome_eq_false_iff, Option.isNone_iff_eq_none, look, Node.look,
      Option.map_eq_none_iff] at ha
    rw [show ns ++ [name] ++ a :: rest = ns ++ [name] ++ [a] ++ rest by simp, look, Node.look, Node.get?_append, ha]
    rfl

/-- An idle place is not the template of a definition file beside it. -/
theorem not_candidate (hn : ∀ n ∈ ns ++ [name], Node.IsName n)
    (hfile : w.look (ns ++ [file]) = some (.file content))
    (hsuffix : conv.suffix.toList.isSuffixOf file.toList = true)
    (hm : name ∈ Component.templateNames (Component.baseName file conv.suffix) conv.suffix conv.extensions) :
    w.isFile (pathOf slashes (ns ++ [name])) = false := by
  rw [← Bool.not_eq_true, isFile_pathOf_iff hs hn]
  rintro ⟨-, -, -, content', hl'⟩
  cases h with
  | nothing hl | folder hl | dangling hl => simp [hl] at hl'
  | file _ _ hno => exact hno file content hfile hsuffix hm

end
end Idle

/-! ## Two disks -/

/-- Elements from which nothing comes can be left out. -/
theorem flatMap_filter_of_nil {α β : Type} {l : List α} {p : α → Bool} {f : α → List β}
    (h : ∀ a ∈ l, p a = false → f a = []) : (l.filter p).flatMap f = l.flatMap f := by
  induction l with
  | nil => rfl
  | cons a l ih =>
    have hl := ih fun a ha => h a (List.mem_cons_of_mem _ ha)
    rw [List.filter_cons, List.flatMap_cons, ← hl]
    cases hp : p a with
    | true => rw [if_pos rfl, List.flatMap_cons]
    | false => rw [if_neg Bool.false_ne_true, h a List.mem_cons_self hp, List.nil_append]

/-- Two disks, seen from one place, that are the same apart from some names, under which all that
there is in folders below some other names is idle. -/
structure SameIdly (w w' : World) (conv : Component.Conventions) (slashes : String) (top : List String)
    (apart : Set (List String)) : Prop extends w.SameBut w' apart where
  rooted : slashes = "/" ∨ slashes = "//"
  tidy : w.root.Tidy
  tidy' : w'.root.Tidy
  outside : top ∉ apart
  idle : ∀ ns name, top <+: ns → ns ∉ apart → ns ++ [name] ∈ apart →
    w.Idle conv ns name (pathOf slashes (ns ++ [name]))
  idle' : ∀ ns name, top <+: ns → ns ∉ apart → ns ++ [name] ∈ apart →
    w'.Idle conv ns name (pathOf slashes (ns ++ [name]))

namespace SameIdly

variable {w w' : World} {conv : Component.Conventions} {slashes file : String} {top ps rest : List String}
  {apart : Set (List String)} (hc : conv.Flat) (h : w.SameIdly w' conv slashes top apart)

include h

theorem readText (hn : ∀ n ∈ ps, Node.IsName n) (hp : ps ∉ apart) :
    w'.readText (pathOf slashes ps) = w.readText (pathOf slashes ps) :=
  (h.findsShape h.rooted hn hp).readText (h.allow _)

/-- No way leads over something idle. -/
theorem not_mem_of_look {a : String} (hn : ∀ n ∈ top ++ rest, Node.IsName n)
    (hl : (w.look (top ++ rest ++ [a])).isSome = true) : top ++ rest ∉ apart := by
  induction rest using List.reverseRecOn generalizing a with
  | nil =>
    rw [List.append_nil]
    exact h.outside
  | append_singleton rest b ih =>
    rw [← List.append_assoc] at hn hl ⊢
    intro hno
    have hfolder : (w.look (top ++ rest ++ [b])).isSome = true := by
      rw [look, Node.look_above _ [a] (List.cons_ne_nil _ _) (Option.isSome_iff_ne_none.1 hl)]
      rfl
    have habove := ih (fun n hm => hn n (List.mem_append_left _ hm)) hfolder
    have hidle := h.idle _ b (List.prefix_append _ _) habove hno
    rw [hidle.look_below h.rooted hn (List.cons_ne_nil a [])] at hl
    cases hl

include hc

/-- A definition file declares the same component. -/
theorem ofDeclaration (htop : top <+: ps) (hn : ∀ n ∈ ps ++ [file], Node.IsName n) (hp : ps ++ [file] ∉ apart)
    {content : ByteArray} (hfile : w.look (ps ++ [file]) = some (.file content))
    (hsuffix : conv.suffix.toList.isSuffixOf file.toList = true) (selector : String) :
    Component.ofDeclaration w' conv (pathOf slashes (ps ++ [file])) selector =
      Component.ofDeclaration w conv (pathOf slashes (ps ++ [file])) selector := by
  have hps : ∀ n ∈ ps, Node.IsName n := fun n hm => hn n (List.mem_append_left _ hm)
  have hps' : ps ∉ apart := h.not_mem_above (List.prefix_append _ _) hp
  have hname : Node.IsName file := hn file (by simp)
  have hfile' := (h.look _ hp).trans hfile
  refine Component.ofDeclaration_congr h.rooted hps hname h.here (fun candidate hm => ?_) selector
  by_cases hcandidate : Node.IsName candidate
  · have hns := Node.isName_concat hps hcandidate
    rw [Path.join_pathOf h.rooted hps hcandidate]
    by_cases hplace : ps ++ [candidate] ∈ apart
    -- what is idle is the template of neither disk
    · rw [(h.idle ps candidate htop hps' hplace).not_candidate h.rooted hns hfile hsuffix hm,
        (h.idle' ps candidate htop hps' hplace).not_candidate h.rooted hns hfile' hsuffix hm]
    · exact (h.findsShape h.rooted hns hplace).isFile
  · have hslash := Component.no_slash_of_mem_templateNames hc hname.no_slash hm
    rw [isFile_join_of_not_name h.rooted hslash hcandidate,
      isFile_join_of_not_name h.rooted hslash hcandidate]

/-- A step elsewhere comes to the same. -/
theorem outcome?_entry (htop : top <+: ps) (hn : ∀ n ∈ ps ++ [file], Node.IsName n) (hp : ps ++ [file] ∉ apart) :
    (Visit.entry (pathOf slashes (ps ++ [file])) file).outcome? w' conv =
      (Visit.entry (pathOf slashes (ps ++ [file])) file).outcome? w conv := by
  rw [Visit.outcome?, Visit.outcome?, Visit.fault?, Visit.fault?, Visit.component?, Visit.component?,
    h.readText hn hp]
  by_cases hsuffix : conv.suffix.toList.isSuffixOf file.toList = true
  · cases htext : w.readText (pathOf slashes (ps ++ [file])) with
    | error fault => simp only [hsuffix, if_true]
    | ok text =>
      obtain ⟨content, hfile⟩ := look_of_readText h.rooted hn htext
      have hdecl := funext fun selector => h.ofDeclaration hc htop hn hp hfile hsuffix selector
      simp only [hdecl]
  · simp only [if_neg hsuffix]

open Classical in
/-- A walk from elsewhere comes to the same. -/
theorem outcomes_visits (depth : Nat) (htop : top <+: ps) (hn : ∀ n ∈ ps, Node.IsName n) (hp : ps ∉ apart) :
    (w'.visits depth (pathOf slashes ps)).filterMap (Visit.outcome? w' conv) =
      (w.visits depth (pathOf slashes ps)).filterMap (Visit.outcome? w conv) := by
  induction depth generalizing ps with
  | zero => simp only [visits, List.filterMap_nil]
  | succ depth ih =>
    rw [visits, visits]
    rcases h.list h.tidy h.tidy' h.rooted hn hp with ⟨fault, hl, hl'⟩ | ⟨names, names', hl, hl', hnames⟩
    · simp [hl, hl', Visit.outcome?, Visit.fault?]
    · have hfolder : (Visit.folder (pathOf slashes ps)).outcome? w' conv = none ∧
          (Visit.folder (pathOf slashes ps)).outcome? w conv = none := by
        simp [hl, hl', Visit.outcome?, Visit.fault?, Visit.component?]
      have hother : ∀ a, decide (ps ++ [a] ∉ apart) = false → ps ++ [a] ∈ apart := fun a ha =>
        of_not_not (of_decide_eq_false ha)
      rw [List.filterMap_cons_none hfolder.1, List.filterMap_cons_none hfolder.2, hl, hl']
      dsimp only
      rw [List.filterMap_flatMap, List.filterMap_flatMap]
      -- where the two differ neither walk comes to anything
      rw [← flatMap_filter_of_nil (l := names) (p := (ps ++ [·] ∉ apart)),
        ← flatMap_filter_of_nil (l := names') (p := (ps ++ [·] ∉ apart)), hnames]
      · refine List.flatMap_congr fun a ha => ?_
        obtain ⟨hm, hne⟩ := List.mem_filter.1 ha
        have hname := isName_of_list h.tidy hl a hm
        have hns := Node.isName_concat hn hname
        have hpa : ps ++ [a] ∉ apart := of_decide_eq_true hne
        rw [visitsAt, visitsAt, Path.join_pathOf h.rooted hn hname, (h.findsShape h.rooted hns hpa).isFolder]
        split
        · exact ih (htop.trans (List.prefix_append _ _)) hns hpa
        · simp only [List.filterMap_cons, List.filterMap_nil, h.outcome?_entry hc htop hns hpa]
      · intro a ha hidle
        exact (h.idle' ps a htop hp (hother a hidle)).outcomes h.rooted h.tidy' hn hl' ha depth
      · intro a ha hidle
        exact (h.idle ps a htop hp (hother a hidle)).outcomes h.rooted h.tidy hn hl ha depth

variable {dir : String}

theorem result_scan (hd : w.here.absolute dir = pathOf slashes top) (hn : ∀ n ∈ top, Node.IsName n) :
    ((Registry.scan dir conv).on w').result = ((Registry.scan dir conv).on w).result := by
  rw [Found.result_scan_eq, Found.result_scan_eq, h.here, hd,
    h.outcomes_visits hc Path.limit (List.prefix_refl _) hn h.outside]

/-- The template of a component reads the same. -/
theorem reading {v : Visit} (hv : v.Within slashes top) {c : Component}
    (hcomp : v.component? w conv = some c) : c.reading w' = c.reading w := by
  obtain ⟨path, file, selector, rfl, rfl⟩ := Visit.exists_ofDeclaration hcomp
  obtain ⟨rest, hrest, hname, rfl⟩ := hv
  have hns := Node.isName_concat hrest hname
  cases ht : (Component.ofDeclaration w conv (pathOf slashes (top ++ rest ++ [file])) selector).template with
  | none =>
    rw [Component.reading, Component.reading, ht]
    rfl
  | some t =>
    obtain ⟨candidate, hm, hns', rfl, hisFile⟩ := Component.exists_name_of_template h.rooted hc hrest hname ht
    obtain ⟨hsuffix, text, htext⟩ := Visit.readText_of_component? hcomp
    obtain ⟨content, hfile⟩ := look_of_readText h.rooted hns htext
    have hp := h.not_mem_of_look hrest (Option.isSome_iff_exists.2 ⟨_, hfile⟩)
    have hplace : top ++ rest ++ [candidate] ∉ apart := fun hno => by
      have hidle := h.idle _ candidate (List.prefix_append _ _) hp hno
      rw [hidle.not_candidate h.rooted hns' hfile hsuffix hm] at hisFile
      cases hisFile
    have hne := Path.pathOf_ne_empty h.rooted (top ++ rest ++ [candidate])
    rw [Component.reading_of_template ht hne, Component.reading_of_template ht hne, h.readText hns' hplace]

theorem result_discover (hd : w.here.absolute dir = pathOf slashes top) (hn : ∀ n ∈ top, Node.IsName n)
    {found : Found} (hf : ((Registry.scan dir conv).on w).result = .ok found) :
    ((Usage.discover found.registry).on w').result = ((Usage.discover found.registry).on w).result := by
  obtain rfl := Except.ok.inj (hf.symm.trans (Found.result_scan (Found.scannable_of_result_scan hf)))
  refine Usage.result_discover_congr fun e he => ?_
  obtain ⟨v, hv, hcomp⟩ := Found.exists_visit_of_mem he
  rw [hd, ← List.append_nil top] at hv
  exact h.reading hc (within_of_mem_visits h.tidy h.rooted (by rwa [List.append_nil]) hv) hcomp

end SameIdly
end World

end ComponentUsage
