import ComponentUsage.Proofs.Run.Outcome
import ComponentUsage.Proofs.Tree.Ways
/-!
# A report agrees with itself

A report shows the usage of a project in several ways: as a table, as lines, as a flat
document, as a tree and as cycles. Each is made by a loop of its own, and all of them tell
the same usage (`report_agrees`).
-/

namespace ComponentUsage

/-- A selector is among the users of another. -/
def Usage.HasUser (usage : Usage) (user child : String) : Prop :=
  ∃ users, usage.get? child = some users ∧ user ∈ users

/-! ## The links of a tree -/

namespace UsageTree

def selector : UsageTree → String
  | .node _ selector _ _ => selector

mutual

/-- The links of a tree, each from a selector to one right below it. -/
def links : UsageTree → List (String × String)
  | .node _ selector _ children => linksOf selector children

def linksOf (parent : String) : List UsageTree → List (String × String)
  | [] => []
  | t :: ts => (parent, t.selector) :: t.links ++ linksOf parent ts

end

theorem mem_linksOf {parent : String} {l : String × String} {ts : List UsageTree} :
    l ∈ linksOf parent ts ↔ ∃ t ∈ ts, l = (parent, t.selector) ∨ l ∈ t.links := by
  induction ts with
  | nil => simp [linksOf]
  | cons t ts ih => simp [linksOf, ih, or_assoc]

variable {soil : Soil}

theorem selector_grow (soil : Soil) (path : List String) (selector : String) (c : Component) :
    (grow soil path selector c).1.selector = selector := by
  rw [grow_eq]
  rfl

/-- A tree that is grown links only selectors of which the one uses the other. -/
theorem uses_of_mem_links (soil : Soil) (path : List String) (selector : String) (c : Component) :
    ∀ l ∈ (grow soil path selector c).1.links, soil.Uses l.1 l.2 := by
  -- as the tree grows: `ih` is for the selectors that are not on the path yet
  induction path, selector, c using grow.induct soil with
  | case1 path selector c ih =>
    intro l hl
    rw [grow_eq, links, mem_linksOf] at hl
    obtain ⟨t, ht, hl⟩ := hl
    obtain ⟨e, he, ht⟩ := List.mem_filterMap.1 ht
    unfold branch at ht
    split at ht
    · cases ht
    · rename_i hn
      cases ht
      rcases hl with rfl | hl
      · rw [selector_grow]
        exact (Soil.mem_usedBy.1 he).1
      · exact ih e.1 e.2 he hn l hl

theorem uses_of_isCycle {root : String} {cycle : List String} (h : soil.IsCycle root cycle) :
    cycle.head? = some root ∧ cycle.IsChain soil.Uses := by
  obtain ⟨way, last, child, rfl, hw, hlast, hu, -⟩ := h
  constructor
  · rw [List.head?_append, hw.head]
    rfl
  · refine List.isChain_append.2 ⟨hw.chain, .singleton _, fun a ha b hb => ?_⟩
    obtain rfl : a = last := by simpa [hlast] using ha.symm
    obtain rfl : child = b := by simpa using hb
    exact hu

end UsageTree

/-! ## The users that are found -/

namespace Usage

variable {w : World} {registry : Registry}

theorem users_sublist (w : World) (es : List (String × Component)) (selector : String) :
    (users w es selector).Sublist (es.map Prod.fst) :=
  List.filter_sublist.map _

theorem not_mem_users (w : World) (es : List (String × Component)) (selector : String) :
    selector ∉ users w es selector := by
  simp [users]

theorem isDisk_of_result_visit {found found' : Found} {selector : String} {c : Component} {fault : Fault}
    (h : ((visit found selector c).on w).result = .ok found') (hr : c.reading w = some (.error fault)) :
    fault.isDisk = true := by
  obtain ⟨p, hp, hr⟩ := Option.map_eq_some_iff.1 hr
  obtain ⟨ht, hne⟩ := Option.filter_eq_some_iff.1 hp
  have hne : p ≠ "" := by simpa using hne
  by_contra hd
  simp [visit, ht, hne, hr, hd] at h

/-- A discovery that comes to an end has met no fault but the disk's. -/
theorem readable_of_result_discover {found : Found} (h : ((discover registry).on w).result = .ok found) :
    registry.Readable w := by
  rw [discover, (Job.LeavesDisk.foldlM (fun _ _ => leavesDisk_visit _ _ _) _ _).result_bind] at h
  obtain ⟨last, h, -⟩ := Fault.bind_eq_ok_iff.1 h
  intro e he fault hr
  obtain ⟨before, after, hstep⟩ :=
    Job.LeavesDisk.step_of_result_foldlM (fun _ _ => leavesDisk_visit _ _ _) h e he
  exact isDisk_of_result_visit hstep hr

theorem eq_found_of_result_discover {discovered : Found}
    (h : ((discover registry).on w).result = .ok discovered) : discovered = found registry w := by
  rw [on_discover (readable_of_result_discover h)] at h
  exact (Except.ok.inj h).symm

theorem keys_found (w : World) (registry : Registry) : (found registry w).usage.keys = registry.keys :=
  Table.keys_mapValues _ _

/-- Users that are found are selectors of the registry in its order, and none uses itself. -/
theorem users_found {child : String} {us : List String}
    (h : (found registry w).usage.get? child = some us) :
    us.Sublist (found registry w).usage.keys ∧ us.Nodup ∧ child ∉ us := by
  have hsub := users_sublist w registry.entries child
  rw [found, Table.get?_mapValues] at h
  obtain ⟨c, -, rfl⟩ := Option.map_eq_some_iff.1 h
  refine ⟨?_, registry.distinct.sublist hsub, not_mem_users w registry.entries child⟩
  rw [keys_found]
  exact hsub

end Usage

/-- The flat view of a registry tells its usage. -/
theorem Registry.parents_graph {registry : Registry} {usage : Usage} (h : usage.keys = registry.keys) :
    (registry.graph usage).mapValues (fun _ e => e.parents) = usage := by
  rw [graph, Table.mapValues_mapValues]
  exact Table.mapValues_get? h []

/-! ## What reports tell -/

/-- The parts of a report agree on the usage, with the tree at this root. -/
structure Report.Agrees (r : Report) (root : String) : Prop where
  count : r.count = r.usage.keys.length
  summary : r.summary.length = r.usage.keys.length
  /-- Users are selectors of the usage and come in its order, and none uses itself. -/
  users : ∀ child us, r.usage.get? child = some us →
    us.Sublist r.usage.keys ∧ us.Nodup ∧ child ∉ us
  hasGraph : r.graph.isSome = true ↔ r.mode ∈ ["graph", "both"]
  graph : ∀ doc, r.graph = some doc →
    ∃ graph : Graph, doc = graph.toJson ∧ graph.mapValues (fun _ e => e.parents) = r.usage
  hasTree : r.tree.isSome = true ↔ r.mode ∈ ["tree", "both"]
  tree : ∀ doc, r.tree = some doc →
    ∃ tree : UsageTree, doc = tree.toJson ∧ tree.selector = root ∧
      ∀ l ∈ tree.links, r.usage.HasUser l.1 l.2
  cycles : ∀ cycle ∈ r.cycles, cycle.head? = some root ∧ cycle.IsChain r.usage.HasUser

namespace Extraction

variable {s : Settings} {rs : Roots} {w : World} {config : Json} {dry : Bool}

/-- A run that succeeds reports an analysis. -/
theorem exists_succeed {r : Report} (h : ((run config dry).on w).result = .ok r) (hok : r.ok = true) :
    ∃ rs a graphPath treePath, ((roots (Settings.mend config).1).on w).result = .ok rs ∧
      ((analyse (Settings.mend config).1 rs).on w).result = .ok (.ok a) ∧
      r = succeed (Settings.mend config).1 rs a graphPath treePath := by
  obtain ⟨rs, analysis, hr, ha, hc⟩ := exists_conclusion h
  rcases conclude_cases hc with ⟨rfl, -⟩ | ⟨a, rfl, -, rfl, -⟩ | ⟨a, graphPath, treePath, rfl, -, -, rfl, -⟩ |
    ⟨a, fault, rfl, -, -, rfl, -⟩
  · rw [(outcome_of_kind (kind_of_analyse ha)).1] at hok
    cases hok
  · exact ⟨rs, a, _, _, hr, ha, rfl⟩
  · exact ⟨rs, a, _, _, hr, ha, rfl⟩
  · cases hok

/-- The tree of a run and its cycles go along its usage, from the root on. -/
theorem hasUser_of_grown {here : Place} {registry : Registry} {usage : Usage}
    {g : UsageTree × List (List String)} (h : grown here s rs registry usage = some g) :
    g.1.selector = s.rootSelector ∧ (∀ l ∈ g.1.links, usage.HasUser l.1 l.2) ∧
      ∀ cycle ∈ g.2, cycle.head? = some s.rootSelector ∧ cycle.IsChain usage.HasUser := by
  unfold grown at h
  split at h
  · cases hc : (soil here s rs registry usage).registry.get? s.rootSelector with
    | none =>
      rw [UsageTree.ofRoot, hc] at h
      cases h
    | some c =>
      rw [UsageTree.ofRoot_of_get? hc] at h
      obtain rfl : UsageTree.grow _ _ _ c = g := Option.some.inj h
      refine ⟨UsageTree.selector_grow _ _ _ c, fun l hl => ?_, fun cycle hcycle => ?_⟩
      · exact (UsageTree.uses_of_mem_links _ _ _ c l hl).2
      · obtain ⟨hhead, hchain⟩ := UsageTree.uses_of_isCycle
          (((UsageTree.lists_cycles _ s.rootSelector c).mem_iff cycle).1 hcycle)
        exact ⟨hhead, hchain.imp fun _ _ hu => hu.2⟩
  · cases h

theorem hasGraph_iff (mode : Mode) : mode.hasGraph = true ↔ mode.name ∈ ["graph", "both"] := by
  cases mode <;> decide

theorem hasTree_iff (mode : Mode) : mode.hasTree = true ↔ mode.name ∈ ["tree", "both"] := by
  cases mode <;> decide

/-- The report of what a scan and a discovery have found agrees with itself. -/
theorem agrees_succeed {found : Found} (graphPath treePath : String)
    (hk : s.mode.hasTree = true → s.rootSelector ∈ found.registry.keys) :
    (succeed s rs (described w.here s rs found (Usage.found found.registry w)) graphPath treePath).Agrees
      s.rootSelector where
  count := by
    change (found.registry.size : Int) = _
    rw [Table.size_eq, ← Usage.keys_found w]
    rfl
  summary := by simp [succeed, Usage.summary, Table.keys]
  users := fun child us => Usage.users_found
  hasGraph := (Bool.eq_iff_iff.1 (@fits_described s rs w found _ hk).graph).trans (hasGraph_iff s.mode)
  graph := fun doc hdoc => by
    obtain ⟨-, hdoc⟩ := Option.ite_none_right_eq_some.1 hdoc
    exact ⟨_, (Option.some.inj hdoc).symm, Registry.parents_graph (Usage.keys_found w _)⟩
  hasTree := (Bool.eq_iff_iff.1 (@fits_described s rs w found _ hk).tree).trans (hasTree_iff s.mode)
  tree := fun doc hdoc => by
    obtain ⟨g, hg, rfl⟩ := Option.map_eq_some_iff.1 hdoc
    obtain ⟨hroot, hlinks, -⟩ := hasUser_of_grown hg
    exact ⟨g.1, rfl, hroot, hlinks⟩
  cycles := fun cycle hcycle => by
    cases hg : grown w.here s rs found.registry (Usage.found found.registry w).usage with
    | none =>
      rw [succeed, described, hg] at hcycle
      cases hcycle
    | some g =>
      rw [succeed, described, hg] at hcycle
      exact (hasUser_of_grown hg).2.2 cycle hcycle

/-- The parts of a report of success agree. Its warnings are those about selectors that are
declared again, then one for each template that cannot be read, then one for each cycle. -/
theorem report_agrees {r : Report} (h : ((run config dry).on w).result = .ok r) (hok : r.ok = true) :
    let s := (Settings.mend config).1
    r.Agrees s.rootSelector ∧
      ∃ rs, ((roots s).on w).result = .ok rs ∧
        let declared := w.declared (conventions s rs) rs.scan
        let registry := (Found.ofComponents declared).registry
        r.usage.keys = registry.keys ∧
          r.warnings =
            (Found.replaced declared).map (fun (old, new) => Found.replacement old new) ++
              registry.entries.filterMap (Usage.warning? w) ++ r.cycles.map UsageTree.cycleMessage := by
  intro s
  obtain ⟨rs, a, graphPath, treePath, hr, ha, rfl⟩ := exists_succeed h hok
  obtain ⟨found, discovered, hs, hk, hd, rfl⟩ := described_of_analyse ha
  obtain rfl := Usage.eq_found_of_result_discover hd
  refine ⟨agrees_succeed graphPath treePath hk, rs, hr, ?_⟩
  have hfound := hs.symm.trans (Found.result_scan (Found.scannable_of_result_scan hs))
  obtain rfl := Except.ok.inj hfound
  intro declared registry
  refine ⟨Usage.keys_found w _, ?_⟩
  rw [← Found.warnings_ofComponents]
  rfl

/-- A project of two components that use each other. -/
def ring : World where
  root := .folder [("app", .folder [
    ("nav.component.html", .file "<app-root>".toUTF8),
    ("nav.component.ts", .file "selector: 'app-nav'".toUTF8),
    ("root.component.html", .file "<app-nav>".toUTF8),
    ("root.component.ts", .file "selector: 'app-root'".toUTF8)])]
  here := { workingDirectory := "/", environment := .empty }

def ringNames : List String :=
  ["nav.component.html", "nav.component.ts", "root.component.html", "root.component.ts"]

theorem visits_ring : ring.visits Path.limit "/app" =
    .folder "/app" :: ringNames.map fun name => .entry (Path.join "/app" name) name :=
  World.visits_of_files
    (World.list_of_sorted (by decide +kernel) (by decide +kernel) (by decide +kernel) (by decide +kernel))
    (by decide +kernel) _

def ringSettings : Settings := (Settings.mend (bothAt "doc.json" "tree.json")).1

/-- What the files of the ring declare. -/
def ringComponents : List Component := [
  ⟨"app-nav", "app\\nav", "/app/nav.component.ts", some "/app/nav.component.html"⟩,
  ⟨"app-root", "app\\root", "/app/root.component.ts", some "/app/root.component.html"⟩]

theorem declared_ring : ring.Scannable (conventions ringSettings ⟨"/app", "/"⟩) "/app" ∧
    ring.declared (conventions ringSettings ⟨"/app", "/"⟩) "/app" = ringComponents := by
  have happ : ring.here.absolute "/app" = "/app" := by decide +kernel
  rw [World.Scannable, World.declared, happ, visits_ring]
  decide +kernel

/-- The tree of the ring ends where it would go around again, which is told. -/
theorem report_agrees_ring :
    ∃ r, ((run (bothAt "doc.json" "tree.json") true).on ring).result = .ok r ∧ r.ok = true ∧
      r.Agrees "app-root" ∧ r.usage.keys = ["app-nav", "app-root"] ∧
      r.warnings = ["Usage cycle detected: app-root -> app-nav -> app-root"] := by
  have hroots : ((roots ringSettings).on ring).result = .ok ⟨"/app", "/"⟩ := by decide +kernel
  have hroot : ringSettings.rootSelector = "app-root" := by decide +kernel
  obtain ⟨hscannable, hdeclared⟩ := declared_ring
  have hscan := Found.result_scan hscannable
  rw [hdeclared] at hscan
  have hread : (Found.ofComponents ringComponents).registry.Readable ring := by decide +kernel
  have hdiscover : ((Usage.discover (Found.ofComponents ringComponents).registry).on ring).result =
      .ok (Usage.found (Found.ofComponents ringComponents).registry ring) := by rw [Usage.on_discover hread]
  have ha := @result_analyse_of_rooted ringSettings ⟨"/app", "/"⟩ ring _ _ (by decide +kernel) hscan
    (fun _ => by decide +kernel) hdiscover
  have hrun := @result_dry_run ⟨"/app", "/"⟩ ring (bothAt "doc.json" "tree.json") _ hroots ha
  obtain ⟨hagrees, rs, hrs, hkeys, hwarn⟩ := report_agrees hrun rfl
  obtain rfl := Except.ok.inj (hroots.symm.trans hrs)
  rw [← ringSettings] at hrun hagrees hkeys hwarn
  rw [hroot] at hagrees
  rw [hdeclared] at hkeys hwarn
  refine ⟨_, hrun, rfl, hagrees, ?_, ?_⟩
  · rw [hkeys]
    decide +kernel
  · rw [hwarn]
    decide +kernel

end Extraction
end ComponentUsage
