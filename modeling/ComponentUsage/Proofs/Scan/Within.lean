import ComponentUsage.Proofs.Disk.Names
import ComponentUsage.Proofs.Run.Agreement
import Mathlib.Data.List.Find
/-!
# What a scan depends on

A scan looks at its directory and at what is below it (`within_of_mem_visits`), as long as no
template has a name that leads on to another folder. A definition file then declares the same
wherever the same of its possible templates are there (`ofDeclaration_congr`), and a discovery finds
the same where all templates read the same (`result_discover_congr`).
-/

namespace ComponentUsage

/-! ## Names of templates -/

/-- Only a name leads from a path of names to a file. -/
theorem World.isName_of_isFile_join {w : World} {slashes : String} {ns : List String}
    (hs : slashes = "/" ∨ slashes = "//") {segment : String} (hc : '/' ∉ segment.toList)
    (h : w.isFile (Path.join (pathOf slashes ns) segment) = true) : Node.IsName segment := by
  by_contra hno
  rw [isFile_join_of_not_name hs hc hno] at h
  cases h

namespace Component

/-- The suffix of definition files and the extensions of templates are parts of names. -/
structure Conventions.Flat (conv : Conventions) : Prop where
  suffix : '/' ∉ conv.suffix.toList
  extensions : ∀ ext ∈ conv.extensions, '/' ∉ ext.toList

theorem no_slash_baseName {file : String} (hf : '/' ∉ file.toList) (suffix : String) :
    '/' ∉ (baseName file suffix).toList := by
  unfold baseName
  split
  · rw [String.toList_ofList]
    exact fun hm => hf (List.mem_of_mem_take hm)
  · exact hf

theorem no_slash_of_mem_templateNames {conv : Conventions} (hc : conv.Flat) {file name : String}
    (hf : '/' ∉ file.toList)
    (h : name ∈ templateNames (baseName file conv.suffix) conv.suffix conv.extensions) : '/' ∉ name.toList := by
  have hbase := no_slash_baseName hf conv.suffix
  have hstem : '/' ∉ (Path.splitExtension conv.suffix).1.toList := fun hm =>
    hc.suffix (Path.mem_of_mem_stem hm)
  unfold templateNames at h
  dsimp only at h
  rcases List.mem_append.1 h with h | h
  · split at h
    · cases h
    · obtain ⟨ext, hext, rfl⟩ := List.mem_map.1 h
      simp [hbase, hstem, hc.extensions ext hext]
  · obtain ⟨ext, hext, rfl⟩ := List.mem_map.1 h
    simp [hbase, hc.extensions ext hext]

/-- A template is the first of its possible names under which there is a file. -/
theorem findTemplate_eq (w : World) (dir base suffix : String) (extensions : List String) :
    findTemplate w dir base suffix extensions =
      ((templateNames base suffix extensions).find? fun name => w.isFile (Path.join dir name)).map
        fun name => w.here.absolute (Path.join dir name) := by
  rw [findTemplate, List.find?_map, Option.map_map]
  rfl

/-- A component's template lies beside its definition file, under one of the names for it. -/
theorem exists_name_of_template {w : World} {conv : Conventions} {slashes : String} {ns : List String}
    (hs : slashes = "/" ∨ slashes = "//") (hc : conv.Flat) (hn : ∀ n ∈ ns, Node.IsName n) {file : String}
    (hfile : Node.IsName file) {selector t : String}
    (h : (ofDeclaration w conv (World.pathOf slashes (ns ++ [file])) selector).template = some t) :
    ∃ name ∈ templateNames (baseName file conv.suffix) conv.suffix conv.extensions,
      (∀ n ∈ ns ++ [name], Node.IsName n) ∧ t = World.pathOf slashes (ns ++ [name]) ∧ w.isFile t = true := by
  obtain ⟨name, hm, hisFile, rfl⟩ := candidate_of_template h
  rw [Path.split_pathOf hs hn hfile] at hm hisFile ⊢
  dsimp only at hm hisFile ⊢
  have hname := World.isName_of_isFile_join hs (no_slash_of_mem_templateNames hc hfile.no_slash hm) hisFile
  have hns := Node.isName_concat hn hname
  rw [Path.join_pathOf hs hn hname] at hisFile ⊢
  rw [Place.absolute_pathOf _ hs hns]
  exact ⟨name, hm, hns, rfl, hisFile⟩

/-- On two disks a definition file declares the same component, if the same of its possible
templates are there. -/
theorem ofDeclaration_congr {w w' : World} {conv : Conventions} {slashes : String} {ns : List String}
    (hs : slashes = "/" ∨ slashes = "//") (hn : ∀ n ∈ ns, Node.IsName n) {file : String} (hfile : Node.IsName file)
    (hhere : w'.here = w.here)
    (h : ∀ name ∈ templateNames (baseName file conv.suffix) conv.suffix conv.extensions,
      w'.isFile (Path.join (World.pathOf slashes ns) name) = w.isFile (Path.join (World.pathOf slashes ns) name))
    (selector : String) : ofDeclaration w' conv (World.pathOf slashes (ns ++ [file])) selector =
      ofDeclaration w conv (World.pathOf slashes (ns ++ [file])) selector := by
  have hfind : findTemplate w' (World.pathOf slashes ns) (baseName file conv.suffix) conv.suffix conv.extensions =
      findTemplate w (World.pathOf slashes ns) (baseName file conv.suffix) conv.suffix conv.extensions := by
    rw [findTemplate_eq, findTemplate_eq, hhere, List.find?_congr h]
  simp only [ofDeclaration, Path.split_pathOf hs hn hfile, hhere, hfind]

end Component

theorem Usage.result_visit_congr {w w' : World} (found : Found) (selector : String) {c : Component}
    (h : c.reading w' = c.reading w) :
    ((visit found selector c).on w').result = ((visit found selector c).on w).result := by
  cases ht : c.template with
  | none => simp only [visit, ht, Job.on_pure]
  | some p =>
    by_cases hp : p = ""
    · simp only [visit, ht, hp, if_true, Job.on_pure]
    · rw [Component.reading_of_template ht hp, Component.reading_of_template ht hp] at h
      simp only [visit, ht, hp, if_false, Job.on_bind, Job.on_disk, Outcome.andThen_ok, Option.some.inj h]
      cases w.readText p with
      | ok template => rfl
      | error fault =>
        dsimp only
        split <;> rfl

/-- Where all templates read the same a discovery comes to the same, be it a fault. -/
theorem Usage.result_discover_congr {registry : Registry} {w w' : World}
    (h : ∀ e ∈ registry.entries, e.2.reading w' = e.2.reading w) :
    ((discover registry).on w').result = ((discover registry).on w).result := by
  have hfold : ∀ found (e : String × Component), (visit found e.1 e.2).LeavesDisk := fun found e =>
    leavesDisk_visit found e.1 e.2
  have hvisits := Job.LeavesDisk.result_foldlM_congr hfold
    fun e he found => result_visit_congr found e.1 (h e he)
  rw [discover, (Job.LeavesDisk.foldlM hfold _ _).result_bind, (Job.LeavesDisk.foldlM hfold _ _).result_bind, hvisits]
  exact bind_congr fun found => rfl

/-! ## Steps of a walk -/

/-- A step of a walk that is at or below some names. -/
def Visit.Within (slashes : String) (ns : List String) : Visit → Prop
  | .folder path => ∃ rest, (∀ n ∈ ns ++ rest, Node.IsName n) ∧ path = World.pathOf slashes (ns ++ rest)
  | .entry path name => ∃ rest, (∀ n ∈ ns ++ rest, Node.IsName n) ∧ Node.IsName name ∧
      path = World.pathOf slashes (ns ++ rest ++ [name])

namespace World

variable {w w' : World} {slashes : String} {ns rest : List String} {conv : Component.Conventions}

theorem names_concat (hn : ∀ n ∈ ns ++ rest, Node.IsName n) {name : String} (h : Node.IsName name) :
    ∀ n ∈ ns ++ (rest ++ [name]), Node.IsName n := by
  intro n hm
  rw [← List.append_assoc, List.mem_append, List.mem_singleton] at hm
  rcases hm with hm | rfl
  · exact hn n hm
  · exact h

theorem within_of_mem_visits (ht : w.root.Tidy) (hs : slashes = "/" ∨ slashes = "//") {depth : Nat}
    (hn : ∀ n ∈ ns ++ rest, Node.IsName n) {v : Visit} (hv : v ∈ w.visits depth (pathOf slashes (ns ++ rest))) :
    v.Within slashes ns := by
  induction depth generalizing rest with
  | zero => cases hv
  | succ depth ih =>
    rw [visits, List.mem_cons] at hv
    rcases hv with rfl | hv
    · exact ⟨rest, hn, rfl⟩
    · cases hl : w.list (pathOf slashes (ns ++ rest)) with
      | error fault => simp [hl] at hv
      | ok names =>
        rw [hl] at hv
        obtain ⟨name, hm, hv⟩ := List.mem_flatMap.1 hv
        have hname := isName_of_list ht hl name hm
        rw [visitsAt, Path.join_pathOf hs hn hname] at hv
        split at hv
        · rw [List.append_assoc] at hv
          exact ih (names_concat hn hname) hv
        · rw [List.mem_singleton] at hv
          subst hv
          exact ⟨rest, hn, hname, rfl⟩

end World
end ComponentUsage
