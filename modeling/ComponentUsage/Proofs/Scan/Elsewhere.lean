import ComponentUsage.Proofs.Run.Agreement
import ComponentUsage.Proofs.Scan.Hosts
import ComponentUsage.Proofs.Scan.Within
import ComponentUsage.Proofs.Tree.Moved
/-!
# A project elsewhere

What is told about the components of a project depends on the tree of the project alone. In
whatever directory the tree lies, on whatever disk, the flat view, the usage and the trees are
the same (`documents_elsewhere`).
-/

namespace ComponentUsage

/-- What is told about the components of a project. -/
structure Documents where
  graph : Graph
  usage : Usage
  summary : List String
  /-- The tree at a selector and its cycles, or what there is instead. -/
  tree : String → Except UsageTree.MissingRoot (UsageTree × List (List String))

/-- What is told about the components of a registry and their usage. -/
def Documents.of (here : Place) (conv : Component.Conventions) (registry : Registry) (usage : Usage) :
    Documents where
  graph := registry.graph usage
  usage
  summary := usage.summary
  tree := UsageTree.ofRoot
    { registry, usage, shown := (here.displayTemplate · conv.sourceRoot conv.separator) }

/-- Scans a directory and finds out what is to be told about its components. -/
def Registry.documents (dir : String) (conv : Component.Conventions) : Job Documents := do
  let found ← Registry.scan dir conv
  let discovered ← Usage.discover found.registry
  return .of (← Job.disk).here conv found.registry discovered.usage

theorem Registry.result_documents (dir : String) (conv : Component.Conventions) (w : World) :
    ((Registry.documents dir conv).on w).result = (do
      let found ← ((Registry.scan dir conv).on w).result
      let discovered ← ((Usage.discover found.registry).on w).result
      return .of w.here conv found.registry discovered.usage) := by
  rw [Registry.documents, (Registry.leavesDisk_scan _ _).result_bind]
  refine bind_congr fun found => ?_
  rw [(Usage.leavesDisk_discover _).result_bind]
  exact bind_congr fun discovered => rfl

/-- The documents are the same for components with their files elsewhere, if their templates read
the same and are shown the same. -/
theorem Documents.of_moved {w w' : World} {conv conv' : Component.Conventions} {registry : Registry}
    {f : String → String} (hreading : ∀ e ∈ registry.entries, (e.2.moved f).reading w' = e.2.reading w)
    (hshown : ∀ e ∈ registry.entries,
      w'.here.displayTemplate (e.2.moved f).template conv'.sourceRoot conv'.separator =
        w.here.displayTemplate e.2.template conv.sourceRoot conv.separator) :
    Documents.of w'.here conv' (registry.moved f) (Usage.found (registry.moved f) w').usage =
      Documents.of w.here conv registry (Usage.found registry w).usage := by
  rw [Usage.usage_found_moved hreading, of, of, Registry.graph_moved, Documents.mk.injEq]
  refine ⟨rfl, rfl, rfl, funext fun root => ?_⟩
  exact @UsageTree.ofRoot_moved f ⟨registry, (Usage.found registry w).usage,
    (w.here.displayTemplate · conv.sourceRoot conv.separator)⟩ _ hshown root

/-- A project at the end of a path of names, some of which lead to its source root. -/
structure World.Lies (w : World) (conv : Component.Conventions) (slashes : String) (root way : List String)
    (es : List (String × Node)) : Prop where
  rooted : slashes = "/" ∨ slashes = "//"
  isName : ∀ n ∈ root ++ way, Node.IsName n
  sourceRoot : ∃ slashes, (slashes = "/" ∨ slashes = "//") ∧
    w.here.absolute conv.sourceRoot = World.pathOf slashes root
  hosts : w.Hosts conv.suffix (World.pathOf slashes (root ++ way)) (.folder es)

namespace World.Lies

variable {w : World} {conv : Component.Conventions} {slashes dir : String} {root way : List String}
  {es : List (String × Node)}

theorem isName_append (h : w.Lies conv slashes root way es) {rest : List String} (hn : ∀ n ∈ rest, Node.IsName n) :
    ∀ n ∈ root ++ way ++ rest, Node.IsName n :=
  List.forall_mem_append.2 ⟨h.isName, hn⟩

theorem names_sourceRoot (h : w.Lies conv slashes root way es) :
    Path.names (w.here.absolute conv.sourceRoot) = root := by
  obtain ⟨sl, hs, hroot⟩ := h.sourceRoot
  rw [hroot, Path.names_pathOf hs fun n hm => h.isName n (List.mem_append_left _ hm)]

theorem base_sourceRoot (h : w.Lies conv slashes root way es) {last : String} (hlast : root.getLast? = some last) :
    Path.base (w.here.absolute conv.sourceRoot) = last := by
  obtain ⟨sl, hs, hroot⟩ := h.sourceRoot
  rw [hroot, Path.base_pathOf hs (fun n hm => h.isName n (List.mem_append_left _ hm)) hlast]

/-- From the source root the way leads to the project, and on in it. -/
theorem relative (h : w.Lies conv slashes root way es) {rest : List String} (hn : ∀ n ∈ rest, Node.IsName n) :
    w.here.relative (pathOf slashes (root ++ way ++ rest)) conv.sourceRoot = way ++ rest := by
  have hlong := h.isName_append hn
  refine Place.relative_of_below h.names_sourceRoot ?_
  rw [Place.absolute_pathOf _ h.rooted hlong, Path.names_pathOf h.rooted hlong, List.append_assoc]

/-- A project that lies in a directory lies at the end of the names that lead there. -/
theorem of_hosts {top : Node} {source : List String} (ha : Path.isAbsolute dir = true)
    (hn : ∀ n ∈ source ++ way, Node.IsName n) (h : w.Hosts conv.suffix (w.here.absolute dir) top)
    (hg : top.get? (source ++ way) = some (.folder es)) :
    w.Lies { conv with sourceRoot := Path.below dir source } (Path.leadingSlashes dir)
        (Path.names (w.here.absolute dir) ++ source) way es ∧
      w.here.absolute (Path.below dir (source ++ way)) =
        pathOf (Path.leadingSlashes dir) (Path.names (w.here.absolute dir) ++ source ++ way) := by
  have hs := Path.leadingSlashes_of_isAbsolute ha
  have hall := List.forall_mem_append.2 ⟨w.here.isName_of_mem_names ha, hn⟩
  rw [List.append_assoc]
  refine ⟨⟨hs, by rwa [List.append_assoc], ⟨_, hs, w.here.absolute_below ha fun n hm => ?_⟩, ?_⟩,
    w.here.absolute_below ha hn⟩
  · exact hn n (List.mem_append_left _ hm)
  · rw [w.here.absolute_eq ha] at h
    rw [List.append_assoc]
    exact h.within hs hall hg

/-- The template of a component that a project declares is a file of the project. -/
theorem template (h : w.Lies conv slashes root way es) (hc : conv.Flat) {rest : List String}
    (hn : ∀ n ∈ rest, Node.IsName n) {file selector t : String} (hfile : Node.IsName file)
    (ht : (Component.ofDeclaration w conv (World.pathOf slashes (root ++ way ++ rest ++ [file])) selector).template =
      some t) :
    ∃ spot content, (∀ n ∈ spot, Node.IsName n) ∧ t = World.pathOf slashes (root ++ way ++ spot) ∧
      (Node.folder es).get? spot = some (.file content) := by
  obtain ⟨name, -, hlong, rfl, hisFile⟩ :=
    Component.exists_name_of_template h.rooted hc (h.isName_append hn) hfile ht
  rw [List.append_assoc] at hlong hisFile ⊢
  obtain ⟨content, hg⟩ := (h.hosts.isFile_iff h.rooted hlong).1 hisFile
  exact ⟨rest ++ [name], content, fun n hm => hlong n (List.mem_append_right _ hm), rfl, hg⟩

variable (h : w.Lies conv slashes root way es) (hd : w.here.absolute dir = pathOf slashes (root ++ way))

include h hd

theorem scannable : w.Scannable conv dir := by
  rw [Scannable, hd]
  exact h.hosts.readable_of_mem_visits h.hosts.tidy h.hosts.find

/-- Each component that is declared is that of a definition file of the project. -/
theorem exists_file {e : String × Component}
    (he : e ∈ (Found.ofComponents (w.declared conv dir)).registry.entries) :
    ∃ rest file selector, (∀ n ∈ rest, Node.IsName n) ∧ Node.IsName file ∧
      e.2 = Component.ofDeclaration w conv (pathOf slashes (root ++ way ++ rest ++ [file])) selector := by
  obtain ⟨v, hv, hcomp⟩ := Found.exists_visit_of_mem he
  obtain ⟨path, name, selector, rfl, hc⟩ := Visit.exists_ofDeclaration hcomp
  rw [hd, ← List.append_nil (root ++ way)] at hv
  obtain ⟨rest, hrest, hname, rfl⟩ := within_of_mem_visits h.hosts.tidy h.rooted (by simpa using h.isName) hv
  exact ⟨rest, name, selector, fun n hm => hrest n (List.mem_append_right _ hm), hname, hc⟩

/-- The templates of a project can be read. -/
theorem readable (hc : conv.Flat) : (Found.ofComponents (w.declared conv dir)).registry.Readable w := by
  intro e he fault hr
  obtain ⟨rest, file, selector, hrest, hfile, hdecl⟩ := h.exists_file hd he
  cases ht : e.2.template with
  | none => simp [Component.reading, ht] at hr
  | some t =>
    obtain ⟨spot, content, hspot, rfl, hg⟩ := h.template hc hrest hfile (hdecl ▸ ht)
    rw [Component.reading_of_template ht (Path.pathOf_ne_empty h.rooted _),
      h.hosts.readText h.rooted (h.isName_append hspot) hg] at hr
    cases hr

theorem result_documents (hc : conv.Flat) :
    ((Registry.documents dir conv).on w).result =
      .ok (.of w.here conv (Found.ofComponents (w.declared conv dir)).registry
        (Usage.found (Found.ofComponents (w.declared conv dir)).registry w).usage) := by
  rw [Registry.result_documents, Found.result_scan (h.scannable hd), Fault.ok_bind,
    Usage.on_discover (h.readable hd hc), Fault.ok_bind]
  rfl

end World.Lies

/-! ## One component -/

/-- Where a path after some names leads that is to come after other names. -/
def Path.movedTo (slashes : String) (ns ns' : List String) (p : String) : String :=
  World.pathOf slashes (ns' ++ (names p).drop ns.length)

theorem Path.movedTo_pathOf {slashes : String} {ns rest : List String} (hs : slashes = "/" ∨ slashes = "//")
    (hn : ∀ n ∈ ns ++ rest, Node.IsName n) (slashes' : String) (ns' : List String) :
    movedTo slashes' ns ns' (World.pathOf slashes (ns ++ rest)) = World.pathOf slashes' (ns' ++ rest) := by
  rw [movedTo, names_pathOf hs hn, List.drop_left]

section

variable {w w' : World} {conv : Component.Conventions} {sourceRoot' slashes slashes' : String}
  {root root' way rest : List String} {es es' : List (String × Node)}
  (hc : conv.Flat) (h : w.Lies conv slashes root way es)
  (h' : w'.Lies { conv with sourceRoot := sourceRoot' } slashes' root' way es')
  (hsame : (Node.folder es).Same (.folder es'))

include hc h h' hsame

/-- A definition file has the same template beside it. -/
theorem Component.findTemplate_moved (hn : ∀ n ∈ rest, Node.IsName n) {file : String} (hfile : Node.IsName file) :
    findTemplate w' (World.pathOf slashes' (root' ++ way ++ rest)) (baseName file conv.suffix) conv.suffix
        conv.extensions =
      (findTemplate w (World.pathOf slashes (root ++ way ++ rest)) (baseName file conv.suffix) conv.suffix
        conv.extensions).map (Path.movedTo slashes' (root ++ way) (root' ++ way)) := by
  have hns := h.isName_append hn
  have hns' := h'.isName_append hn
  have hcandidate : ∀ name ∈ templateNames (baseName file conv.suffix) conv.suffix conv.extensions,
      w'.isFile (Path.join (World.pathOf slashes' (root' ++ way ++ rest)) name) =
        w.isFile (Path.join (World.pathOf slashes (root ++ way ++ rest)) name) := by
    intro name hm
    by_cases hname : Node.IsName name
    · have hrest := Node.isName_concat hn hname
      rw [Path.join_pathOf h.rooted hns hname, Path.join_pathOf h'.rooted hns' hname, List.append_assoc,
        List.append_assoc _ rest, Bool.eq_iff_iff, h.hosts.isFile_iff h.rooted (h.isName_append hrest),
        h'.hosts.isFile_iff h'.rooted (h'.isName_append hrest)]
      exact exists_congr fun content => ⟨hsame.symm.get?_file, hsame.get?_file⟩
    · have hslash := no_slash_of_mem_templateNames hc hfile.no_slash hm
      rw [World.isFile_join_of_not_name h.rooted hslash hname,
        World.isFile_join_of_not_name h'.rooted hslash hname]
  rw [findTemplate_eq, findTemplate_eq, List.find?_congr hcandidate]
  cases hfind : (templateNames (baseName file conv.suffix) conv.suffix conv.extensions).find? fun name =>
      w.isFile (Path.join (World.pathOf slashes (root ++ way ++ rest)) name) with
  | none => simp only [Option.map_none]
  | some name =>
    have hslash := no_slash_of_mem_templateNames hc hfile.no_slash (List.mem_of_find?_eq_some hfind)
    have hisFile := List.find?_some hfind
    have hname := World.isName_of_isFile_join h.rooted hslash hisFile
    have hrest := Node.isName_concat hn hname
    have hlong := h.isName_append hrest
    have hlong' := h'.isName_append hrest
    simp only [Option.map_some]
    rw [Path.join_pathOf h.rooted hns hname, Path.join_pathOf h'.rooted hns' hname, List.append_assoc,
      List.append_assoc _ rest, Place.absolute_pathOf _ h.rooted hlong, Place.absolute_pathOf _ h'.rooted hlong',
      Path.movedTo_pathOf h.rooted hlong]

variable {last : String} (hlast : root.getLast? = some last) (hlast' : root'.getLast? = some last)

include hlast hlast'

/-- A definition file declares the same component, with its files elsewhere. -/
theorem Component.ofDeclaration_moved (hn : ∀ n ∈ rest, Node.IsName n) {file : String} (hfile : Node.IsName file)
    (selector : String) :
    ofDeclaration w' { conv with sourceRoot := sourceRoot' }
        (World.pathOf slashes' (root' ++ way ++ rest ++ [file])) selector =
      (ofDeclaration w conv (World.pathOf slashes (root ++ way ++ rest ++ [file])) selector).moved
        (Path.movedTo slashes' (root ++ way) (root' ++ way)) := by
  have hns := h.isName_append hn
  have hns' := h'.isName_append hn
  have hrest := Node.isName_concat hn hfile
  have hbase := no_slash_baseName hfile.no_slash conv.suffix
  have htemplate := findTemplate_moved hc h h' hsame hn hfile
  have hmoved := Path.movedTo_pathOf h.rooted (h.isName_append hrest) slashes' (root' ++ way)
  rw [← List.append_assoc, ← List.append_assoc] at hmoved
  -- neither source root is the root of its disk, from which no step leads back
  have hroot : root ≠ [] := by
    rintro rfl
    cases hlast
  have hroot' : root' ≠ [] := by
    rintro rfl
    cases hlast'
  have hdisplay : w'.here.displaySegments (Path.join (World.pathOf slashes' (root' ++ way ++ rest))
      (baseName file conv.suffix)) sourceRoot' = w.here.displaySegments
        (Path.join (World.pathOf slashes (root ++ way ++ rest)) (baseName file conv.suffix)) conv.sourceRoot := by
    rw [List.append_assoc] at hns hns' ⊢
    rw [List.append_assoc, Place.displaySegments, Place.displaySegments,
      Place.relative_join h.rooted hns h.names_sourceRoot hbase,
      Place.relative_join h'.rooted hns' h'.names_sourceRoot hbase, decide_eq_false hroot, decide_eq_false hroot']
  simp only [ofDeclaration, moved, Path.split_pathOf h.rooted hns hfile, Path.split_pathOf h'.rooted hns' hfile,
    Place.display, hdisplay, htemplate, hmoved]

/-- Its template reads the same, and is shown the same. -/
theorem Component.template_moved (hn : ∀ n ∈ rest, Node.IsName n) {file selector : String}
    (hfile : Node.IsName file) {c : Component}
    (he : c = ofDeclaration w conv (World.pathOf slashes (root ++ way ++ rest ++ [file])) selector) :
    (c.moved (Path.movedTo slashes' (root ++ way) (root' ++ way))).reading w' = c.reading w ∧
      w'.here.displayTemplate (c.moved (Path.movedTo slashes' (root ++ way) (root' ++ way))).template sourceRoot'
          conv.separator =
        w.here.displayTemplate c.template conv.sourceRoot conv.separator := by
  cases ht : c.template with
  | none => simp [reading, moved, ht, Place.displayTemplate]
  | some t =>
    rw [he] at ht
    obtain ⟨spot, content, hspot, rfl, hg⟩ := h.template hc hn hfile ht
    rw [← he] at ht
    have hg' := hsame.get?_file hg
    have hlong := h.isName_append hspot
    have hlong' := h'.isName_append hspot
    have hmoved := Path.movedTo_pathOf h.rooted hlong slashes' (root' ++ way)
    have hne := Path.pathOf_ne_empty h.rooted (root ++ way ++ spot)
    have hne' := Path.pathOf_ne_empty h'.rooted (root' ++ way ++ spot)
    constructor
    · have ht' : (c.moved (Path.movedTo slashes' (root ++ way) (root' ++ way))).template =
          some (World.pathOf slashes' (root' ++ way ++ spot)) := by rw [moved, ht, Option.map_some, hmoved]
      rw [reading_of_template ht hne, reading_of_template ht' hne', h.hosts.readText h.rooted hlong hg,
        h'.hosts.readText h'.rooted hlong' hg']
    · simp only [moved, ht, Option.map_some, hmoved, Place.displayTemplate, if_neg hne, if_neg hne',
        h.base_sourceRoot hlast, h'.base_sourceRoot hlast', Place.display, Place.displaySegments, h.relative hspot,
        h'.relative hspot]

/-! ## All components -/

/-- A step of a walk through the project reads the same component, with its files elsewhere. -/
theorem Visit.component?_moved {spot : List String} {n : Node} (hg : (Node.folder es).get? spot = some n) :
    (w'.visitAt (World.pathOf slashes' (root' ++ way)) spot).component? w' { conv with sourceRoot := sourceRoot' } =
      ((w.visitAt (World.pathOf slashes (root ++ way)) spot).component? w conv).map
        (Component.moved (Path.movedTo slashes' (root ++ way) (root' ++ way))) := by
  obtain ⟨n', hg', hn⟩ := hsame.get? hg
  have hnames := (Node.tidy_get? (World.tidy_find h.hosts.tidy h.hosts.find) hg).1
  have hkind := (h.hosts.below_of_get? h.hosts.tidy h.hosts.find hg).2
  have hkind' := (h'.hosts.below_of_get? h'.hosts.tidy h'.hosts.find hg').2
  have hlong := h.isName_append hnames
  have hlong' := h'.isName_append hnames
  rw [World.visitAt, World.visitAt, hkind, hkind', hn.isFolder, Path.below_pathOf h.rooted hlong,
    Path.below_pathOf h'.rooted hlong']
  by_cases hf : n.isFolder = true
  · rw [if_pos hf, if_pos hf]
    rfl
  rw [if_neg hf, if_neg hf, component?, component?]
  dsimp only
  split
  · rename_i hsuffix
    -- the project itself is a folder, so the names have a last one
    obtain ⟨rest, file, rfl⟩ : ∃ rest file, spot = rest ++ [file] := by
      rcases List.eq_nil_or_concat spot with rfl | ⟨rest, file, rfl⟩
      · cases hg
        exact absurd rfl hf
      · exact ⟨rest, file, List.concat_eq_append⟩
    rw [List.getLastD_eq_getLast?, List.getLast?_concat, Option.getD_some] at hsuffix
    obtain ⟨text, htext⟩ := h.hosts.files _ ⟨n, file, hg, by simpa using hf, List.getLast?_concat, hsuffix⟩
    rw [Path.below_pathOf h.rooted hlong] at htext
    obtain ⟨content, hfind, -⟩ := World.find_of_readText htext
    have hfile := h.hosts.get?_of_find h.rooted hlong hfind
    have hfile' := hsame.get?_file hfile
    rw [h.hosts.readText h.rooted hlong hfile, h'.hosts.readText h'.rooted hlong' hfile', Option.map_map]
    dsimp only
    refine congrArg (Option.map · _) (funext fun selector => ?_)
    rw [Function.comp_apply, ← List.append_assoc, ← List.append_assoc]
    exact Component.ofDeclaration_moved hc h h' hsame hlast hlast'
      (fun n hm => hnames n (List.mem_append_left _ hm)) (hnames file (by simp)) selector
  · rfl

/-- The project declares the same components, with their files elsewhere. -/
theorem World.declared_moved {dir dir' : String} (hd : w.here.absolute dir = pathOf slashes (root ++ way))
    (hd' : w'.here.absolute dir' = pathOf slashes' (root' ++ way)) :
    w'.declared { conv with sourceRoot := sourceRoot' } dir' =
      (w.declared conv dir).map (Component.moved (Path.movedTo slashes' (root ++ way) (root' ++ way))) := by
  have hspots := spots_eq h.hosts.tidy h'.hosts.tidy h.hosts.find h'.hosts.find h.hosts.toReadableTree
    h'.hosts.toReadableTree hsame Path.limit
  rw [declared, declared, hd, hd', visits_eq_map _ (isFolder_of_find h.hosts.find),
    visits_eq_map _ (isFolder_of_find h'.hosts.find), hspots, List.filterMap_map, List.filterMap_map,
    List.map_filterMap]
  refine List.filterMap_congr fun spot hspot => ?_
  obtain ⟨n, hg⟩ := h.hosts.get?_of_below h.hosts.tidy h.hosts.find (below_of_mem_spots hspot)
  exact Visit.component?_moved hc h h' hsame hlast hlast' hg

theorem Component.template_moved_of_mem {dir : String}
    (hd : w.here.absolute dir = World.pathOf slashes (root ++ way)) :
    ∀ e ∈ (Found.ofComponents (w.declared conv dir)).registry.entries,
      (e.2.moved (Path.movedTo slashes' (root ++ way) (root' ++ way))).reading w' = e.2.reading w ∧
        w'.here.displayTemplate (e.2.moved (Path.movedTo slashes' (root ++ way) (root' ++ way))).template sourceRoot'
            conv.separator =
          w.here.displayTemplate e.2.template conv.sourceRoot conv.separator := by
  intro e he
  obtain ⟨rest, file, selector, hrest, hfile, hdecl⟩ := h.exists_file hd he
  exact template_moved hc h h' hsame hlast hlast' hrest hfile hdecl

end

namespace Registry

/-- Where a project has no folder there are no documents. -/
theorem result_documents_of_not_folder {w : World} {conv : Component.Conventions} {top : Node} {dir : String}
    {scan : List String} (ha : Path.isAbsolute dir = true) (hn : ∀ n ∈ scan, Node.IsName n)
    (h : w.Hosts conv.suffix (w.here.absolute dir) top) (hno : top.look scan ≠ some .folder) (sourceRoot : String) :
    ∃ fault, ((documents (Path.below dir scan) { conv with sourceRoot }).on w).result = .error fault := by
  have hs := Path.leadingSlashes_of_isAbsolute ha
  rw [result_documents]
  cases hscan : ((Registry.scan (Path.below dir scan) { conv with sourceRoot }).on w).result with
  | error fault => exact ⟨fault, rfl⟩
  | ok found =>
    -- the first thing that a walk does is to list the folder
    have hfirst : Visit.folder (w.here.absolute (Path.below dir scan)) ∈
        w.visits Path.limit (w.here.absolute (Path.below dir scan)) := by
      rw [show Path.limit = 4095 + 1 from rfl, World.visits]
      exact List.mem_cons_self
    obtain ⟨names, hl⟩ := Found.scannable_of_result_scan hscan _ hfirst
    obtain ⟨es, hf, -⟩ := World.list_eq_ok hl
    rw [w.here.absolute_below ha hn] at hf
    rw [w.here.absolute_eq ha] at h
    have hg := h.get?_of_find hs (List.forall_mem_append.2 ⟨w.here.isName_of_mem_names ha, hn⟩) hf
    exact absurd (by rw [Node.look, hg]; rfl) hno

/-- What is told about a project that can be read does not depend on where it lies. From
whatever directory on whatever disk, with names from there to the source root and on to the
directory that is scanned, the documents are the same, if there is such a directory. -/
theorem documents_elsewhere {w w' : World} {conv : Component.Conventions} {top top' : Node} {dir dir' : String}
    {source scan : List String} (hc : conv.Flat) (ha : Path.isAbsolute dir = true)
    (ha' : Path.isAbsolute dir' = true) (h : w.Hosts conv.suffix (w.here.absolute dir) top)
    (h' : w'.Hosts conv.suffix (w'.here.absolute dir') top') (hsame : top.Same top') (hsource : source ≠ [])
    (hwithin : source <+: scan) (hn : ∀ n ∈ scan, Node.IsName n) :
    let told := ((documents (Path.below dir scan) { conv with sourceRoot := Path.below dir source }).on w).result
    let told' := ((documents (Path.below dir' scan) { conv with sourceRoot := Path.below dir' source }).on w').result
    (∃ docs, told = .ok docs ∧ told' = .ok docs) ∨
      (top.look scan ≠ some .folder ∧ (∃ fault, told = .error fault) ∧ ∃ fault, told' = .error fault) := by
  intro told told'
  obtain ⟨way, rfl⟩ := hwithin
  by_cases hfold : top.look (source ++ way) = some .folder
  · obtain ⟨es, hg⟩ := Node.get?_of_look_folder hfold
    obtain ⟨es', hg'⟩ := Node.get?_of_look_folder ((hsame (source ++ way)).symm.trans hfold)
    have hes : (Node.folder es).Same (.folder es') := by
      obtain ⟨n', hn', hs⟩ := hsame.get? hg
      rwa [Option.some.inj (hg'.symm.trans hn')]
    obtain ⟨hl, hd⟩ := World.Lies.of_hosts ha hn h hg
    obtain ⟨hl', hd'⟩ := World.Lies.of_hosts ha' hn h' hg'
    obtain ⟨last, hlast⟩ := Option.isSome_iff_exists.1 (List.getLast?_isSome.2 hsource)
    have hlasts : ∀ ns : List String, (ns ++ source).getLast? = some last := fun ns => by
      rw [List.getLast?_append_of_ne_nil _ hsource, hlast]
    have hflat : ∀ sourceRoot, Component.Conventions.Flat { conv with sourceRoot } := fun _ =>
      ⟨hc.suffix, hc.extensions⟩
    have hmoved := World.declared_moved (hflat _) hl hl' hes (hlasts _) (hlasts _) hd hd'
    have htemplate := Component.template_moved_of_mem (hflat _) hl hl' hes (hlasts _) (hlasts _) hd
    refine .inl ⟨_, hl.result_documents hd (hflat _), ?_⟩
    refine (hl'.result_documents hd' (hflat _)).trans (congrArg Except.ok ?_)
    rw [hmoved, Found.registry_moved]
    exact Documents.of_moved (fun e he => (htemplate e he).1) fun e he => (htemplate e he).2
  · refine .inr ⟨hfold, result_documents_of_not_folder ha hn h hfold _,
      result_documents_of_not_folder ha' hn h' (fun hfold' => hfold ?_) _⟩
    exact (hsame (source ++ way)).trans hfold'

/-- A project of two components in a folder of their own. -/
def stallEntries : List (String × Node) := [
  ("src", .folder [
    ("cart.component.html", .file "<shop-cart>".toUTF8),
    ("cart.component.ts", .file "selector: 'shop-cart'".toUTF8)])]

/-- A disk with the same project in two directories. -/
def stalls : World where
  root := .folder [("home", .folder [("ann", .folder stallEntries)]), ("srv", .folder stallEntries)]
  here := { workingDirectory := "/", environment := .empty }

theorem hosts_stalls {dir : String} (hd : stalls.find dir = .ok (.folder stallEntries))
    (hl : ([dir, Path.join dir "src"].map fun p => (stalls.list p).isOk) = [true, true])
    (hr : ∀ f ∈ (Node.folder stallEntries).files, (stalls.readText (Path.below dir f.1)).isOk = true) :
    stalls.Hosts ".component.ts" dir (.folder stallEntries) := by
  simp only [List.map_cons, List.map_nil, List.cons.injEq, and_true] at hl
  have hcart : (stalls.readText (Path.below dir ["src", "cart.component.ts"])).isOk = true :=
    hr (["src", "cart.component.ts"], _) (@Node.mem_files _ ["src", "cart.component.ts"] _ rfl)
  constructor
  · refine .folder hl.1 ?_
    simp only [stallEntries, List.forall_mem_cons, List.not_mem_nil, false_implies, implies_true, and_true]
    refine ⟨fun _ => .folder hl.2 ?_, by simp [Node.isFolder]⟩
    simp only [List.forall_mem_cons, List.not_mem_nil, false_implies, implies_true, and_true]
    exact ⟨⟨by simp [Node.isFolder], fun _ hno => absurd hno (by decide +kernel)⟩, by simp [Node.isFolder],
      fun _ _ => hcart⟩
  · simp only [stalls, stallEntries, Node.Tidy, Node.TidyEntries]
    decide +kernel
  · exact hd
  · exact fun spot content hg => Fault.isOk_iff.1 (hr (spot, content) (Node.mem_files hg))

/-- The project is the same at home and on the server, for which the path to it is no matter. -/
theorem documents_elsewhere_stalls :
    stalls.Hosts ".component.ts" (stalls.here.absolute "/home/./ann/") (.folder stallEntries) ∧
      stalls.Hosts ".component.ts" (stalls.here.absolute "/srv") (.folder stallEntries) ∧
      ∃ docs,
        ((documents (Path.below "/home/./ann/" ["src"])
          { Found.definitions with sourceRoot := Path.below "/home/./ann/" ["src"] }).on stalls).result = .ok docs ∧
        ((documents (Path.below "/srv" ["src"])
          { Found.definitions with sourceRoot := Path.below "/srv" ["src"] }).on stalls).result = .ok docs := by
  have hann : stalls.here.absolute "/home/./ann/" = "/home/ann" := by decide +kernel
  have hsrv : stalls.here.absolute "/srv" = "/srv" := by decide +kernel
  have h : stalls.Hosts ".component.ts" (stalls.here.absolute "/home/./ann/") (.folder stallEntries) :=
    hann ▸ hosts_stalls rfl (by decide +kernel) (by decide +kernel)
  have h' : stalls.Hosts ".component.ts" (stalls.here.absolute "/srv") (.folder stallEntries) :=
    hsrv ▸ hosts_stalls rfl (by decide +kernel) (by decide +kernel)
  have hflat : Found.definitions.Flat := ⟨by decide, by decide⟩
  rcases documents_elsewhere hflat (by decide) (by decide) h h' (fun _ => rfl) (List.cons_ne_nil "src" [])
    List.prefix_rfl (by decide) with hdocs | ⟨hno, -⟩
  · exact ⟨h, h', hdocs⟩
  · exact absurd rfl hno

end Registry
end ComponentUsage
