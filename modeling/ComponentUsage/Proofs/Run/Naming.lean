import ComponentUsage.Proofs.Path.Shown
import ComponentUsage.Proofs.Run.SourceRoot
import ComponentUsage.Proofs.Scan.Within
/-!
# The names that a run shows

A component is shown under the names that lead from the source root to its definition file,
the last of them without the suffix (`run_names`). A name shows no step back but for a file
called `..` and the suffix, right in the source root, or for backslashes in names.
-/

namespace ComponentUsage

/-! ## Names that are shown as they are -/

namespace Place

/-- The segments that are shown for some names: a backslash in a name counts as a slash. -/
def shownFor (names : List String) : List String :=
  (names.flatMap pieces).filter fun s => s ≠ "" && s ≠ "."

theorem displaySegments_eq (here : Place) (p root : String) :
    here.displaySegments p root = shownFor (here.relative p root) := rfl

/-- Names without backslashes are shown as they are. -/
theorem shownFor_eq {names : List String} (h : ∀ n ∈ names, Node.IsName n ∧ '\\' ∉ n.toList) :
    shownFor names = names := by
  rw [shownFor, flatMap_pieces fun n hn => (h n hn).2, List.filter_eq_self]
  exact fun n hn => by simp [(h n hn).1.ne_empty, (h n hn).1.ne_here]

end Place

/-- How a component is called whose definition file lies in a folder below the source root:
the names that lead to the folder and the base name of the file, which is one more step. -/
structure Component.CalledIn (s : Settings) (source dirs : List String) (file : String) (c : Component) : Prop where
  definition : ∃ slashes, (slashes = "/" ∨ slashes = "//") ∧
    c.definition = World.pathOf slashes (source ++ dirs ++ [file])
  isName : ∀ n ∈ source ++ dirs ++ [file], Node.IsName n
  suffix : s.suffix.toList.isSuffixOf file.toList = true
  name : c.name = s.separator.intercalate
    (Place.shownFor (Path.step (source = []) dirs.reverse (baseName file s.suffix)).reverse)
  /-- Where the base name is a name, and nothing holds a backslash, they are shown as they are. -/
  plainly : Node.IsName (baseName file s.suffix) →
    (∀ n ∈ dirs ++ [baseName file s.suffix], '\\' ∉ n.toList) →
    c.name = s.separator.intercalate (dirs ++ [baseName file s.suffix])
  /-- Without a backslash there is one file whose name climbs out of the source root. -/
  climbs : (∀ n ∈ dirs ++ [baseName file s.suffix], '\\' ∉ n.toList) →
    (".." ∈ Place.shownFor (Path.step (source = []) dirs.reverse (baseName file s.suffix)).reverse ↔
      baseName file s.suffix = ".." ∧ dirs = [] ∧ source ≠ [])

namespace Path

variable {rooted : Bool} {dirs : List String} {segment : String}

/-- One step from some names leads back before the first of them only if there is none. -/
theorem above_mem_step_iff (hn : ∀ n ∈ dirs, Node.IsName n) :
    ".." ∈ step rooted dirs.reverse segment ↔ segment = ".." ∧ dirs = [] ∧ rooted = false := by
  have hdirs : ".." ∉ dirs.reverse := fun hm => (hn _ (List.mem_reverse.1 hm)).ne_above rfl
  unfold step
  by_cases hnone : segment = "" ∨ segment = "."
  · rcases hnone with rfl | rfl <;> simpa using fun hm => absurd hm (by simpa using hdirs)
  · rw [not_or] at hnone
    by_cases hback : segment = ".."
    · cases hd : dirs.reverse with
      | nil =>
        rw [List.reverse_eq_nil_iff] at hd
        cases rooted <;> simp [hback, hd]
      | cons name above =>
        have hname : name ≠ ".." := fun he => hdirs (by simp [hd, he])
        have hne : dirs ≠ [] := by
          rintro rfl
          cases hd
        rw [hd, List.mem_cons, not_or] at hdirs
        simp [hback, hname, hne, hdirs.2]
    · simpa [hnone, hback, Ne.symm hback] using hdirs

end Path

namespace Extraction

variable {s : Settings} {rs : Roots} {w : World} {config : Json} {dry : Bool}

/-! ## The components of a run -/

/-- A definition file below the source root gives its component the name that is shown. -/
theorem calledIn_ofDeclaration {slashes file : String} {source dirs : List String}
    (hs : slashes = "/" ∨ slashes = "//") (hn : ∀ n ∈ source ++ dirs ++ [file], Node.IsName n)
    (hroot : w.here.spot rs.source = source) (hsuffix : s.suffix.toList.isSuffixOf file.toList = true)
    (selector : String) :
    (Component.ofDeclaration w (conventions s rs) (World.pathOf slashes (source ++ dirs ++ [file])) selector).CalledIn
      s source dirs file := by
  have hfile : Node.IsName file := hn file (by simp)
  have hdirs : ∀ n ∈ source ++ dirs, Node.IsName n := fun n hm => hn n (List.mem_append_left _ hm)
  have hrelative := @Place.relative_join w.here rs.source _ _ _ _ hs hdirs hroot
    (Component.no_slash_baseName hfile.no_slash s.suffix)
  have hname : (Component.ofDeclaration w (conventions s rs) (World.pathOf slashes (source ++ dirs ++ [file]))
      selector).name = s.separator.intercalate
        (Place.shownFor (Path.step (source = []) dirs.reverse (Component.baseName file s.suffix)).reverse) := by
    simp only [Component.ofDeclaration, Path.split_pathOf hs hdirs hfile, Place.display, Place.displaySegments_eq,
      conventions, hrelative]
  refine ⟨⟨slashes, hs, rfl⟩, hn, hsuffix, hname, fun hbase hplain => ?_, fun hplain => ?_⟩
  · rw [hname, Path.step_of_isName hbase, List.reverse_cons, List.reverse_reverse, Place.shownFor_eq]
    intro n hm
    refine ⟨?_, hplain n hm⟩
    rcases List.mem_append.1 hm with hm | hm
    · exact hdirs n (List.mem_append_right _ hm)
    · rwa [List.mem_singleton.1 hm]
  · have hsteps : ∀ n ∈ (Path.step (source = []) dirs.reverse (Component.baseName file s.suffix)).reverse,
        '\\' ∉ n.toList := by
      intro n hm
      rcases Path.mem_step (List.mem_reverse.1 hm) with hm | ⟨rfl, -⟩ | ⟨-, rfl⟩
      · exact hplain n (List.mem_append_left _ (List.mem_reverse.1 hm))
      · exact hplain _ (by simp)
      · decide
    have hmem := @Path.above_mem_step_iff (decide (source = [])) dirs (Component.baseName file s.suffix)
      fun n hm => hdirs n (List.mem_append_right _ hm)
    rw [Place.shownFor, Place.flatMap_pieces hsteps, List.mem_filter, List.mem_reverse, hmem]
    simp

/-- Each component of a run that succeeds is called by the way from the source root to its
definition file. -/
theorem run_names {r : Report} (ht : w.root.Tidy) (ha : Path.isAbsolute w.here.workingDirectory = true)
    (h : ((run config dry).on w).result = .ok r) (hok : r.ok = true) :
    let s := (Settings.mend config).1
    ∃ rs a graphPath treePath, ((roots s).on w).result = .ok rs ∧ ((analyse s rs).on w).result = .ok (.ok a) ∧
      r = succeed s rs a graphPath treePath ∧ w.here.spot rs.source <+: w.here.spot rs.scan ∧
      ∀ e ∈ a.registry.entries, ∃ dirs file, e.2.CalledIn s (w.here.spot rs.source) dirs file := by
  intro s
  obtain ⟨rs, a, graphPath, treePath, hr, han, rfl⟩ := exists_succeed h hok
  have hsource := source_of_roots ha hr
  refine ⟨rs, a, graphPath, treePath, hr, han, rfl, hsource, fun e he => ?_⟩
  obtain ⟨found, discovered, hf, -, -, rfl⟩ := described_of_analyse han
  have hfound := hf.symm.trans (Found.result_scan (Found.scannable_of_result_scan hf))
  obtain rfl := Except.ok.inj hfound
  obtain ⟨v, hv, hcomp⟩ := Found.exists_visit_of_mem he
  obtain ⟨slashes, ns, hs, hn, hscan, hspot⟩ := exists_scan ha hr
  rw [absolute_scan ha hr, hscan, ← List.append_nil ns] at hv
  have hwithin := World.within_of_mem_visits ht hs (by rwa [List.append_nil]) hv
  cases v with
  | folder path => cases hcomp
  | entry path name =>
    obtain ⟨rest, hrest, hname, rfl⟩ := hwithin
    rw [Visit.component?] at hcomp
    split at hcomp
    · rename_i hsuffix
      split at hcomp
      · obtain ⟨selector, -, hdecl⟩ := Option.map_eq_some_iff.1 hcomp
        obtain ⟨below, hbelow⟩ := hsource
        rw [hspot] at hbelow
        have hns : ns ++ rest ++ [name] = w.here.spot rs.source ++ (below ++ rest) ++ [name] := by
          rw [← hbelow]
          simp only [List.append_assoc]
        refine ⟨below ++ rest, name, ?_⟩
        rw [← hdecl, hns]
        refine calledIn_ofDeclaration hs ?_ rfl hsuffix selector
        rw [← hns]
        exact Node.isName_concat hrest hname
      · cases hcomp
    · cases hcomp

/-- A project of one file in a folder of its own. -/
def single (file : String) : World where
  root := .folder [("app", .folder [("shop", .folder [(file, .file "selector: 'app-root'".toUTF8)])])]
  here := { workingDirectory := "/", environment := .empty }

/-- Settings for the flat document of one directory, with the source root there too. -/
def scanOf (dir : String) : Json :=
  .object [("scan_root", .text dir), ("source_root", .text dir), ("path_separator", .text "/")]

/-- A run on a project of one file, from a directory on, reports its component under a name. -/
def ShowsName (dir file name : String) (r : Report) : Prop :=
  ((run (scanOf dir) true).on (single file)).result = .ok r ∧ r.ok = true ∧
    r.graph.map (Json.print .line) = some ((Json.object [("app-root", (GraphEntry.mk name []).toJson)]).print .line)

theorem exists_showsName (dir file name : String)
    (h : ((run (scanOf dir) true).on (single file)).result.toOption.map
        (fun r => (r.ok, r.graph.map (Json.print .line))) =
      some (true, some ((Json.object [("app-root", (GraphEntry.mk name []).toJson)]).print .line))) :
    ∃ r, ShowsName dir file name r := by
  obtain ⟨r, hr, he⟩ := Fault.exists_of_map_toOption h
  exact ⟨r, hr, congrArg Prod.fst he, congrArg Prod.snd he⟩

/-- The cart in the shop is called by the names that lead to it. -/
theorem run_names_single :
    (single "cart.component.ts").root.Tidy ∧
      Path.isAbsolute (single "cart.component.ts").here.workingDirectory = true ∧
      ∃ r rs a graphPath treePath, ShowsName "app" "cart.component.ts" "shop/cart" r ∧
        r = succeed (Settings.mend (scanOf "app")).1 rs a graphPath treePath ∧
        ∀ e ∈ a.registry.entries, ∃ dirs file, e.2.CalledIn (Settings.mend (scanOf "app")).1
          ((single "cart.component.ts").here.spot rs.source) dirs file := by
  have ht : (single "cart.component.ts").root.Tidy := by
    simp only [single, Node.Tidy, Node.TidyEntries]
    decide +kernel
  have ha : Path.isAbsolute (single "cart.component.ts").here.workingDirectory = true := by decide
  obtain ⟨r, hshows⟩ := exists_showsName "app" "cart.component.ts" "shop/cart" (by decide +kernel)
  obtain ⟨rs, a, graphPath, treePath, -, -, hsucceed, -, hnames⟩ := run_names ht ha hshows.1 hshows.2.1
  exact ⟨ht, ha, r, rs, a, graphPath, treePath, hshows, hsucceed, hnames⟩

/-- A base name of one dot is left out of what is shown. One of two dots leads back, out of the
source root if the file lies right in it, and so may a backslash. -/
theorem shown_names_of_dots :
    (∃ r, ShowsName "app" "..component.ts" "shop" r) ∧
      Component.baseName "..component.ts" ".component.ts" = "." ∧ "/".intercalate (["shop"] ++ ["."]) ≠ "shop" ∧
      (∃ r, ShowsName "app/shop" "...component.ts" ".." r) ∧
      ∃ r, ShowsName "app/shop" "..\\x.component.ts" "../x" r := by
  refine ⟨exists_showsName _ _ _ ?_, ?_, ?_, exists_showsName _ _ _ ?_, exists_showsName _ _ _ ?_⟩ <;>
    decide +kernel

end Extraction
end ComponentUsage
