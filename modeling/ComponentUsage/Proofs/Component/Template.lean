import ComponentUsage.Proofs.Disk.Entries
import ComponentUsage.Proofs.Scan.Within
import Mathlib.Data.List.TakeWhile
/-!
# Templates beside definition files

The names that a template may have are those of the definition file with another extension in place
of its last one, and then the base name with an extension (`templateNames_of_extends`). The first of
these under which a folder holds a file is the template (`findTemplate_first`).
-/

namespace ComponentUsage

namespace Path

/-! ## Extensions -/

/-- A name is a stem and an extension: the last dot of the name is between them, and the stem is not
all dots. -/
structure Extends (name stem ext : String) : Prop where
  eq : name = stem ++ "." ++ ext
  last : '.' ∉ ext.toList
  proper : ∃ c ∈ stem.toList, c ≠ '.'

variable {name stem ext : String}

/-- More in front of a name is more in front of its stem. -/
theorem Extends.append (h : Extends name stem ext) (front : String) : Extends (front ++ name) (front ++ stem) ext where
  eq := by rw [h.eq]; simp only [String.append_assoc]
  last := h.last
  proper := by
    obtain ⟨c, hm, hc⟩ := h.proper
    exact ⟨c, by rw [String.toList_append]; exact List.mem_append_right _ hm, hc⟩

theorem splitLast_of_no_slash {cs : List Char} (hc : '/' ∉ cs) : splitLast cs = ([], cs) := by
  have hall := ne_of_mem_reverse hc
  rw [splitLast, List.dropWhile_eq_nil_iff.2 hall, List.takeWhile_eq_self_iff.2 hall, List.reverse_reverse,
    List.reverse_nil]

theorem splitExtension_of_extends (hc : '/' ∉ name.toList) (h : Extends name stem ext) :
    splitExtension name = (stem, "." ++ ext) := by
  have hall := ne_of_mem_reverse h.last
  have hrev : name.toList.reverse = ext.toList.reverse ++ '.' :: stem.toList.reverse := by
    rw [h.eq]
    simp
  have hproper : stem.toList.any (· ≠ '.') = true := by simpa using h.proper
  rw [splitExtension, splitLast_of_no_slash hc]
  dsimp only
  rw [hrev, List.takeWhile_append_of_pos hall, List.dropWhile_append_of_pos hall,
    List.takeWhile_cons_of_neg (by simp), List.dropWhile_cons_of_neg (by simp), List.tail_cons, List.reverse_reverse,
    if_pos hproper]
  simp

theorem Extends.stem_unique {stem' ext' : String} (h : Extends name stem ext) (hc : '/' ∉ name.toList)
    (h' : Extends name stem' ext') : stem = stem' :=
  congrArg Prod.fst ((splitExtension_of_extends hc h).symm.trans (splitExtension_of_extends hc h'))

theorem extends_of_splitExtension (hc : '/' ∉ name.toList) (h : (splitExtension name).2 ≠ "") :
    ∃ stem ext, Extends name stem ext := by
  rw [splitExtension, splitLast_of_no_slash hc] at h
  dsimp only at h
  split at h
  · rename_i hany
    have hsplit := List.takeWhile_append_dropWhile (p := (· ≠ '.')) (l := name.toList.reverse)
    have hlast : ∀ c ∈ name.toList.reverse.takeWhile (· ≠ '.'), c ≠ '.' := fun c hm => by
      simpa using List.mem_takeWhile_imp hm
    have hdot := List.head?_dropWhile_not (· ≠ '.') name.toList.reverse
    generalize name.toList.reverse.takeWhile (· ≠ '.') = last at hsplit hlast
    -- the characters before the last dot are not all dots, so there is one
    cases hdrop : name.toList.reverse.dropWhile (· ≠ '.') with
    | nil =>
      rw [hdrop] at hany
      cases hany
    | cons c rest =>
      rw [hdrop] at hany hdot hsplit
      obtain rfl : c = '.' := by simpa using hdot
      refine ⟨String.ofList rest.reverse, String.ofList last.reverse, ?_, ?_, ?_⟩
      · rw [← String.toList_inj, ← List.reverse_inj, ← hsplit]
        simp
      · rw [String.toList_ofList, List.mem_reverse]
        exact fun hm => hlast _ hm rfl
      · rw [String.toList_ofList]
        simpa using hany
  · exact absurd rfl h

end Path

namespace Component

/-! ## Names for a template -/

/-- A definition file is named by its base name and the suffix. -/
theorem baseName_append {file suffix : String} (hne : suffix ≠ "") (hs : suffix.toList <:+ file.toList) :
    baseName file suffix ++ suffix = file := by
  obtain ⟨front, hfile⟩ := hs
  have hends : (suffix ≠ "" && suffix.toList.isSuffixOf file.toList) = true := by
    rw [Bool.and_eq_true, decide_eq_true_eq, List.isSuffixOf_iff_suffix]
    exact ⟨hne, front, hfile⟩
  rw [baseName, if_pos hends, ← hfile, List.length_append, Nat.add_sub_cancel, List.take_left, ← String.toList_inj,
    String.toList_append, String.toList_ofList, hfile]

/-- A suffix with an extension names the template in two ways, the first of which keeps its stem. -/
theorem templateNames_of_extends {suffix stem ext : String} (hc : '/' ∉ suffix.toList)
    (h : Path.Extends suffix stem ext) (base : String) (extensions : List String) :
    templateNames base suffix extensions = extensions.map (base ++ stem ++ ·) ++ extensions.map (base ++ ·) := by
  have hext : "." ++ ext ≠ "" := by simp
  have hstem : stem ≠ "" := by
    rintro rfl
    obtain ⟨c, hm, -⟩ := h.proper
    cases hm
  rw [templateNames, Path.splitExtension_of_extends hc h]
  dsimp only
  rw [decide_eq_false hext, decide_eq_false hstem, Bool.or_self, if_neg Bool.false_ne_true]

theorem templateNames_of_plain {suffix : String} (hc : '/' ∉ suffix.toList)
    (h : ∀ stem ext, ¬ Path.Extends suffix stem ext) (base : String) (extensions : List String) :
    templateNames base suffix extensions = extensions.map (base ++ ·) := by
  have hext : (Path.splitExtension suffix).2 = "" := by
    by_contra hne
    obtain ⟨stem, ext, hext⟩ := Path.extends_of_splitExtension hc hne
    exact h stem ext hext
  rw [templateNames]
  dsimp only
  rw [decide_eq_true hext, Bool.true_or, if_pos rfl, List.nil_append]

/-- The names that keep the stem of the suffix come before the plain ones. -/
theorem exists_specific {suffix : String} (hc : '/' ∉ suffix.toList) (base : String) (extensions : List String) :
    ∃ specific : List String,
      (∀ stem ext, Path.Extends suffix stem ext → specific = extensions.map (base ++ stem ++ ·)) ∧
      ((∀ stem ext, ¬ Path.Extends suffix stem ext) → specific = []) ∧
      templateNames base suffix extensions = specific ++ extensions.map (base ++ ·) := by
  by_cases h : ∃ stem ext, Path.Extends suffix stem ext
  · obtain ⟨stem, ext, h⟩ := h
    refine ⟨_, fun stem' ext' h' => ?_, fun hno => absurd h (hno stem ext), templateNames_of_extends hc h _ _⟩
    rw [h.stem_unique hc h']
  · simp only [not_exists] at h
    exact ⟨[], fun stem ext h' => absurd h' (h stem ext), fun _ => rfl, templateNames_of_plain hc h _ _⟩

/-! ## The first name of a file -/

/-- There is a file at the path of a name in a folder. -/
def Regular (w : World) (dir name : String) : Prop := ∃ content, w.find (Path.join dir name) = .ok (.file content)

variable {w : World} {dir base suffix t : String} {extensions : List String}

/-- In a folder that is what it holds as a file under a name, if the disk takes the name and the path. -/
theorem regular_iff {entries : List (String × Node)} (h : w.find dir = .ok (.folder entries)) {name : String}
    (hc : '/' ∉ name.toList) :
    Regular w dir name ↔ Node.IsName name ∧ World.checkPath (Path.join dir name) = .ok () ∧
      name.utf8ByteSize ≤ Node.nameLimit ∧ ∃ content, entries.lookup name = some (.file content) := by
  constructor
  · rintro ⟨content, hf⟩
    have hn := World.isName_of_find_join h hc hf
    obtain ⟨hp, hfit, hl⟩ := (World.find_join_eq_ok_iff h hn).1 hf
    exact ⟨hn, hp, hfit, content, hl⟩
  · rintro ⟨hn, hp, hfit, content, hl⟩
    exact ⟨content, (World.find_join_eq_ok_iff h hn).2 ⟨hp, hfit, hl⟩⟩

theorem findTemplate_eq_some_iff :
    findTemplate w dir base suffix extensions = some t ↔
      ∃ before name after, templateNames base suffix extensions = before ++ name :: after ∧
        (∀ earlier ∈ before, ¬ Regular w dir earlier) ∧ Regular w dir name ∧
        t = w.here.absolute (Path.join dir name) := by
  rw [findTemplate_eq, Option.map_eq_some_iff]
  constructor
  · rintro ⟨name, hfind, rfl⟩
    obtain ⟨hfile, before, after, hnames, hearlier⟩ := List.find?_eq_some_iff_append.1 hfind
    refine ⟨before, name, after, hnames, fun earlier hm hregular => ?_, World.isFile_iff_find.1 hfile, rfl⟩
    have hno := hearlier earlier hm
    rw [World.isFile_iff_find.2 hregular] at hno
    cases hno
  · rintro ⟨before, name, after, hnames, hearlier, hregular, rfl⟩
    refine ⟨name, List.find?_eq_some_iff_append.2 ⟨World.isFile_iff_find.2 hregular, before, after, hnames, ?_⟩, rfl⟩
    intro earlier hm
    rw [Bool.not_eq_true', Bool.eq_false_iff]
    exact fun hfile => hearlier earlier hm (World.isFile_iff_find.1 hfile)

theorem findTemplate_eq_none_iff :
    findTemplate w dir base suffix extensions = none ↔
      ∀ name ∈ templateNames base suffix extensions, ¬ Regular w dir name := by
  rw [findTemplate_eq, Option.map_eq_none_iff, List.find?_eq_none]
  exact forall₂_congr fun name _ => not_congr World.isFile_iff_find

/-- Of two lists one after the other, the first has the first name of a file if it has one at all. -/
theorem mem_of_first {specific plain before after : List String} {name : String}
    (h : specific ++ plain = before ++ name :: after) (hs : ∃ s ∈ specific, Regular w dir s)
    (hb : ∀ earlier ∈ before, ¬ Regular w dir earlier) : name ∈ specific := by
  obtain ⟨s, hm, hregular⟩ := hs
  rcases List.append_eq_append_iff.1 h with ⟨more, rfl, -⟩ | ⟨more, rfl, hmore⟩
  · exact absurd hregular (hb s (List.mem_append_left _ hm))
  · cases more with
    | nil => exact absurd hregular (hb s (by simpa using hm))
    | cons first more =>
      obtain rfl : name = first := (List.cons.inj hmore).1
      exact List.mem_append_right _ List.mem_cons_self

/-- The template of a definition file is the first file among these names: that of the definition
file with each extension in place of its own, if the suffix has one, and then the base name with each
extension. There is none if none of them is a file. So a name of the first kind comes before all of
the second. In a folder the files are those that it holds as such: neither a folder nor a link to
nowhere is a template. -/
theorem findTemplate_first (w : World) (dir : String) {file suffix : String} (extensions : List String)
    (hne : suffix ≠ "") (hs : suffix.toList <:+ file.toList) (hfile : '/' ∉ file.toList)
    (hext : ∀ ext ∈ extensions, '/' ∉ ext.toList) :
    let base := baseName file suffix
    let found := findTemplate w dir base suffix extensions
    base ++ suffix = file ∧
    ∃ specific : List String,
      (∀ stem ext, Path.Extends suffix stem ext →
        ∃ whole, Path.Extends file whole ext ∧ specific = extensions.map (whole ++ ·)) ∧
      ((∀ stem ext, ¬ Path.Extends suffix stem ext) → specific = []) ∧
      (∀ t, found = some t ↔ ∃ before name after,
        specific ++ extensions.map (base ++ ·) = before ++ name :: after ∧
          (∀ earlier ∈ before, ¬ Regular w dir earlier) ∧ Regular w dir name ∧
          t = w.here.absolute (Path.join dir name)) ∧
      (found = none ↔ ∀ name ∈ specific ++ extensions.map (base ++ ·), ¬ Regular w dir name) ∧
      ((∃ name ∈ specific, Regular w dir name) →
        ∃ name ∈ specific, Regular w dir name ∧ found = some (w.here.absolute (Path.join dir name))) ∧
      ∀ entries, w.find dir = .ok (.folder entries) → ∀ name ∈ specific ++ extensions.map (base ++ ·),
        (Regular w dir name ↔ Node.IsName name ∧ World.checkPath (Path.join dir name) = .ok () ∧
          name.utf8ByteSize ≤ Node.nameLimit ∧ ∃ content, entries.lookup name = some (.file content)) := by
  intro base found
  have hbase : base ++ suffix = file := baseName_append hne hs
  have hsuffix : '/' ∉ suffix.toList := fun hm => hfile (hs.subset hm)
  obtain ⟨specific, hstem, hplain, hnames⟩ := exists_specific hsuffix base extensions
  have hsome : ∀ t, found = some t ↔ _ := fun t => findTemplate_eq_some_iff
  have hnone : found = none ↔ _ := findTemplate_eq_none_iff
  rw [hnames] at hnone
  simp only [hnames] at hsome
  refine ⟨hbase, specific, fun stem ext h => ⟨base ++ stem, hbase ▸ h.append base, hstem stem ext h⟩, hplain, hsome,
    hnone, fun hregular => ?_, fun entries hdir name hm => ?_⟩
  · cases hfound : found with
    | none =>
      obtain ⟨name, hm, hfile⟩ := hregular
      exact absurd hfile (hnone.1 hfound name (List.mem_append_left _ hm))
    | some t =>
      obtain ⟨before, name, after, hsplit, hearlier, hname, rfl⟩ := (hsome t).1 hfound
      exact ⟨name, mem_of_first hsplit hregular hearlier, hname, rfl⟩
  · let conv : Conventions := { sourceRoot := "", suffix, extensions, field := "", separator := "" }
    have hflat : conv.Flat := ⟨hsuffix, hext⟩
    have hslash : '/' ∉ name.toList := no_slash_of_mem_templateNames hflat hfile (hnames ▸ hm)
    exact regular_iff hdir hslash

/-- A folder where a link to nowhere and a folder have the better names. -/
def cards : World where
  root := .folder [("app", .folder [
    ("card.component.html", .dangling), ("card.component.htm", .folder []), ("card.component.xml", .file .empty),
    ("card.html", .file .empty)])]
  here := { workingDirectory := "/", environment := .empty }

/-- The file with the stem of the suffix is the template, whatever stands before it and although the
plain file has a better extension. -/
theorem findTemplate_first_cards :
    findTemplate cards "app" "card" ".component.ts" [".html", ".htm", ".xml"] = some "/app/card.component.xml" := by
  have hbase : baseName "card.component.ts" ".component.ts" = "card" := by decide +kernel
  have hne : ".component.ts" ≠ "" := by decide
  have hs : ".component.ts".toList <:+ "card.component.ts".toList := by decide
  have hsuffix : Path.Extends ".component.ts" ".component" "ts" := ⟨rfl, by decide, 'c', by decide, by decide⟩
  have hfile : Path.Extends "card.component.ts" "card.component" "ts" := ⟨rfl, by decide, 'c', by decide, by decide⟩
  obtain ⟨-, specific, hspecific, -, hsome, -⟩ :=
    findTemplate_first cards "app" [".html", ".htm", ".xml"] hne hs (by decide) (by decide)
  obtain ⟨whole, hwhole, rfl⟩ := hspecific ".component" "ts" hsuffix
  obtain rfl : whole = "card.component" := hwhole.stem_unique (by decide) hfile
  rw [hbase] at hsome
  refine (hsome _).2 ⟨["card.component.html", "card.component.htm"], "card.component.xml",
    ["card.html", "card.htm", "card.xml"], rfl, fun earlier hm => ?_, ?_, by decide +kernel⟩
  · rw [Regular, ← World.isFile_iff_find]
    rcases List.mem_pair.1 hm with rfl | rfl <;> decide +kernel
  · rw [Regular, ← World.isFile_iff_find]
    decide +kernel

end Component
end ComponentUsage
