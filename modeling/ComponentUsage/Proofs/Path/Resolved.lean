import ComponentUsage.Proofs.Path.Shown
/-!
# Back from what is shown of a path

What is shown of a path with slashes is a path of its own, and from the base it was seen from it
leads back (`display_leads_back`): below the base, at it and beside it, and from the root. A template
is shown from the directory that holds the source root, and leads back from there
(`namesFrom_templateText`). A backslash in a name is lost, so names have none here.
-/

namespace ComponentUsage

namespace Path

variable {slashes p text : String} {ns segs above below : List String}

/-- The names that a text leads to from a directory. -/
def namesFrom (dir text : String) : List String := names (normalize (join dir text))

/-! ## Segments, step by step -/

theorem isAbsolute_intercalate (h : ∀ s ∈ segs, s ≠ "" ∧ '/' ∉ s.toList) :
    isAbsolute ("/".intercalate segs) = false := by
  match segs with
  | [] => rfl
  | [s] =>
    rw [String.intercalate_singleton]
    exact isAbsolute_of_no_slash (h s List.mem_cons_self).2
  | s :: s' :: segs =>
    obtain ⟨hne, hs⟩ := h s List.mem_cons_self
    rw [String.intercalate_cons_cons, String.append_assoc, isAbsolute_append hne, isAbsolute_of_no_slash hs]

theorem foldl_step_intercalate (h : ∀ s ∈ segs, '/' ∉ s.toList) (above : List String) :
    (segments ("/".intercalate segs)).foldl (step true) above = segs.foldl (step true) above := by
  rw [segments_intercalate_eq_ite h]
  split
  · rename_i hnil
    rw [hnil]
    rfl
  · rfl

/-- As many steps back as there are names take them back. -/
theorem foldl_step_above (h : ∀ n ∈ below, Node.IsName n) (above : List String) :
    (List.replicate below.length "..").foldl (step true) (below ++ above) = above := by
  induction below with
  | nil => rfl
  | cons n below ih =>
    have hback : step true (n :: (below ++ above)) ".." = below ++ above := by
      simp [step, (h n List.mem_cons_self).ne_above]
    rw [List.length_cons, List.replicate_succ, List.foldl_cons, List.cons_append, hback]
    exact ih fun n hn => h n (List.mem_cons_of_mem _ hn)

/-- From a path of names a relative text goes on, segment by segment. -/
theorem namesFrom_pathOf (hs : slashes = "/" ∨ slashes = "//") (hn : ∀ n ∈ ns, Node.IsName n)
    (htext : isAbsolute text = false) :
    namesFrom (World.pathOf slashes ns) text = ((segments text).foldl (step true) ns.reverse).reverse := by
  have habs := isAbsolute_join (isAbsolute_pathOf hs ns) text
  have hfrom : (segments (World.pathOf slashes ns)).foldl (step true) [] = ns.reverse := by
    rw [foldl_step_segments, names_pathOf hs hn, foldl_step_names _ hn, List.append_nil]
  rw [namesFrom, normalize_eq_pathOf habs,
    names_pathOf (leadingSlashes_of_isAbsolute habs) fun _ => isName_of_mem_foldl_step,
    foldl_step_join_of_relative htext, hfrom]

/-- The last part of a path of names is the step that leads to it from its directory. The root has
an empty one, which leads nowhere. -/
theorem step_base (hs : slashes = "/" ∨ slashes = "//") (hn : ∀ n ∈ ns, Node.IsName n) :
    step true ns.dropLast.reverse (base (World.pathOf slashes ns)) = ns.reverse := by
  rcases List.eq_nil_or_concat ns with rfl | ⟨above, name, rfl⟩
  · rcases hs with rfl | rfl <;> decide
  · rw [List.concat_eq_append] at hn ⊢
    rw [base_pathOf hs hn (List.getLast?_concat), List.dropLast_concat, step_of_isName (hn name (by simp)),
      List.reverse_concat]

theorem no_slash_base (hs : slashes = "/" ∨ slashes = "//") (hn : ∀ n ∈ ns, Node.IsName n) :
    '/' ∉ (base (World.pathOf slashes ns)).toList := by
  rcases List.eq_nil_or_concat ns with rfl | ⟨above, name, rfl⟩
  · rcases hs with rfl | rfl <;> decide
  · rw [List.concat_eq_append] at hn ⊢
    rw [base_pathOf hs hn (List.getLast?_concat)]
    exact (hn name (by simp)).no_slash

end Path

namespace Place

variable {here : Place} {p q base separator : String} {ns : List String}

/-! ## The segments between two places -/

/-- From one place to another: back to what leads to both, and down again. -/
theorem relative_parts (here : Place) (p base : String) : ∃ common below rest,
    Path.names (here.absolute base) = common ++ below ∧ Path.names (here.absolute p) = common ++ rest ∧
      here.relative p base = List.replicate below.length ".." ++ rest := by
  obtain ⟨below, hbelow⟩ := Path.shared_prefix (Path.names (here.absolute base)) (Path.names (here.absolute p))
  obtain ⟨rest, hrest⟩ := Path.shared_prefix (Path.names (here.absolute p)) (Path.names (here.absolute base))
  rw [Path.shared_comm] at hrest
  generalize hcommon : Path.shared (Path.names (here.absolute base)) (Path.names (here.absolute p)) = common
    at hbelow hrest
  refine ⟨common, below, rest, hbelow.symm, hrest.symm, ?_⟩
  rw [relative, hcommon, ← hbelow, ← hrest]
  simp

theorem mem_relative {segment : String} (h : segment ∈ here.relative p base) :
    segment = ".." ∨ segment ∈ Path.names (here.absolute p) := by
  obtain ⟨common, below, rest, -, hp, hrel⟩ := relative_parts here p base
  rw [hrel, List.mem_append] at h
  exact h.imp List.eq_of_mem_replicate fun hs => hp ▸ List.mem_append_right _ hs

section absolute

variable (ha : Path.isAbsolute here.workingDirectory = true)

include ha

theorem isName_of_mem_absolute (p : String) : ∀ n ∈ Path.names (here.absolute p), Node.IsName n := by
  obtain ⟨slashes, ns, hs, hn, hp⟩ := absolute_eq_pathOf ha p
  rwa [hp, Path.names_pathOf hs hn]

/-- The segments from one place to another lead from the one to the other. -/
theorem foldl_step_relative (p base : String) :
    (here.relative p base).foldl (Path.step true) (Path.names (here.absolute base)).reverse =
      (Path.names (here.absolute p)).reverse := by
  obtain ⟨common, below, rest, hbase, hp, hrel⟩ := relative_parts here p base
  have hbelow : ∀ n ∈ below.reverse, Node.IsName n := fun n hn =>
    isName_of_mem_absolute ha base n (hbase ▸ List.mem_append_right _ (List.mem_reverse.1 hn))
  have hrest : ∀ n ∈ rest, Node.IsName n := fun n hn =>
    isName_of_mem_absolute ha p n (hp ▸ List.mem_append_right _ hn)
  rw [hrel, hbase, hp, List.foldl_append, List.reverse_append, ← List.length_reverse, Path.foldl_step_above hbelow,
    Path.foldl_step_names _ hrest, List.reverse_append]

/-! ## What is shown -/

theorem mem_displaySegments {segment : String} (h : segment ∈ here.displaySegments p base) :
    segment ≠ "" ∧ '/' ∉ segment.toList := by
  obtain ⟨hmem, hkept⟩ := List.mem_filter.1 h
  obtain ⟨n, hn, hpiece⟩ := List.mem_flatMap.1 hmem
  obtain ⟨cs, hcs, rfl⟩ := List.mem_map.1 hpiece
  have hslash : '/' ∉ n.toList := by
    rcases mem_relative hn with rfl | hn
    · decide
    · exact (isName_of_mem_absolute ha p n hn).no_slash
  refine ⟨fun he => by simp [he] at hkept, fun hc => hslash ?_⟩
  exact (Path.mem_of_mem_splitOn hcs (by simpa using hc)).1

end absolute

/-- No name on the way to a path holds a backslash. -/
def NoBackslash (here : Place) (p : String) : Prop := ∀ n ∈ Path.names (here.absolute p), '\\' ∉ n.toList

instance (here : Place) (p : String) : Decidable (here.NoBackslash p) :=
  inferInstanceAs (Decidable (∀ n ∈ Path.names (here.absolute p), '\\' ∉ n.toList))

theorem displaySegments_eq_relative (ha : Path.isAbsolute here.workingDirectory = true) (hp : here.NoBackslash p)
    (base : String) : here.displaySegments p base = here.relative p base := by
  have hwhole : ∀ segment ∈ here.relative p base, '\\' ∉ segment.toList := fun segment hs => by
    rcases mem_relative hs with rfl | hs
    · decide
    · exact hp segment hs
  rw [displaySegments, flatMap_pieces hwhole, List.filter_eq_self]
  intro segment hs
  rcases mem_relative hs with rfl | hs
  · decide
  · have hname := isName_of_mem_absolute ha p segment hs
    simp [hname.ne_empty, hname.ne_here]

/-- What is shown with slashes falls apart into the segments that it was made of. -/
theorem foldl_step_display (ha : Path.isAbsolute here.workingDirectory = true) (hp : here.NoBackslash p)
    (base : String) :
    (Path.segments (here.display p base "/")).foldl (Path.step true) (Path.names (here.absolute base)).reverse =
      (Path.names (here.absolute p)).reverse := by
  rw [display, Path.foldl_step_intercalate fun segment hs => (mem_displaySegments ha hs).2,
    displaySegments_eq_relative ha hp, foldl_step_relative ha]

theorem namesFrom_display (ha : Path.isAbsolute here.workingDirectory = true) (hp : here.NoBackslash p)
    (base : String) :
    Path.namesFrom (here.absolute base) (here.display p base "/") = Path.names (here.absolute p) := by
  have hshown : Path.isAbsolute (here.display p base "/") = false :=
    Path.isAbsolute_intercalate fun segment hs => mem_displaySegments ha hs
  have hback := foldl_step_display ha hp base
  obtain ⟨slashes, ns, hs, hn, hbase⟩ := absolute_eq_pathOf ha base
  rw [hbase, Path.names_pathOf hs hn] at hback
  rw [hbase, Path.namesFrom_pathOf hs hn hshown, hback, List.reverse_reverse]

/-! ## A template -/

/-- The text of a template: the directory that holds the source root, the source root, and the template
from there. -/
def templateText (here : Place) (p base separator : String) : String :=
  separator.intercalate [".", Path.base (here.absolute base), here.display p base separator]

theorem displayTemplate_some (hp : p ≠ "") (base separator : String) :
    here.displayTemplate (some p) base separator = some (here.templateText p base separator) := by
  rw [displayTemplate, if_neg hp]
  rfl

theorem segments_templateText (ha : Path.isAbsolute here.workingDirectory = true) (p base : String) :
    Path.segments (here.templateText p base "/") =
      [".", Path.base (here.absolute base)] ++ Path.segments (here.display p base "/") := by
  obtain ⟨slashes, ns, hs, hn, hbase⟩ := absolute_eq_pathOf ha base
  have hslash := Path.no_slash_base hs hn
  rw [← hbase] at hslash
  rw [templateText, String.intercalate_cons_cons, String.intercalate_cons_cons, String.intercalate_singleton,
    Path.segments_slash, Path.segments_slash, Path.segments_of_no_slash hslash]
  rfl

theorem namesFrom_templateText (ha : Path.isAbsolute here.workingDirectory = true) (hp : here.NoBackslash p)
    (base : String) :
    Path.namesFrom (Path.directory (here.absolute base)) (here.templateText p base "/") =
      Path.names (here.absolute p) := by
  have hshown : Path.isAbsolute (here.templateText p base "/") = false := by
    rw [templateText, String.intercalate_cons_cons, String.append_assoc, Path.isAbsolute_append (by decide)]
    decide
  have hback := foldl_step_display ha hp base
  have hsegments := segments_templateText ha p base
  obtain ⟨slashes, ns, hs, hn, hbase⟩ := absolute_eq_pathOf ha base
  rw [hbase] at hsegments hback ⊢
  rw [Path.names_pathOf hs hn] at hback
  -- the dot is no step, and the next one is into the base
  have hdot : Path.step true ns.dropLast.reverse "." = ns.dropLast.reverse := rfl
  have hsteps : (Path.segments (here.templateText p base "/")).foldl (Path.step true) ns.dropLast.reverse =
      (Path.names (here.absolute p)).reverse := by
    rw [hsegments, List.foldl_append, List.foldl_cons, List.foldl_cons, List.foldl_nil, hdot, Path.step_base hs hn,
      hback]
  rw [Path.directory_pathOf hs hn,
    Path.namesFrom_pathOf hs (fun n hm => hn n (List.dropLast_subset ns hm)) hshown, hsteps, List.reverse_reverse]

/-! ## Other separators -/

theorem display_eq_intercalate (ha : Path.isAbsolute here.workingDirectory = true) (p base separator : String) :
    here.display p base separator = separator.intercalate (Path.segments (here.display p base "/")) := by
  have hsegs := Path.segments_intercalate_eq_ite
    fun segment (hs : segment ∈ here.displaySegments p base) => (mem_displaySegments ha hs).2
  rw [display, display, hsegs]
  split
  · rename_i hnil
    rw [hnil]
    simp
  · rfl

theorem templateText_eq_intercalate (ha : Path.isAbsolute here.workingDirectory = true)
    (p base separator : String) :
    here.templateText p base separator = separator.intercalate (Path.segments (here.templateText p base "/")) := by
  have hne : Path.segments (here.display p base "/") ≠ [] := by simp [Path.segments, List.splitOn_ne_nil]
  rw [segments_templateText ha, String.intercalate_append_of_ne_nil (List.cons_ne_nil _ _) hne,
    ← display_eq_intercalate ha, templateText]
  simp [String.intercalate_cons_cons, String.append_assoc]

/-! ## Back again -/

/-- What is shown of a path from a base leads back to it, and so does what is shown of a template. -/
theorem display_leads_back (ha : Path.isAbsolute here.workingDirectory = true) (base : String) :
    (∀ p, here.NoBackslash p →
      Path.namesFrom (here.absolute base) (here.display p base "/") = Path.names (here.absolute p) ∧
      (p ≠ "" → ∃ text, here.displayTemplate (some p) base "/" = some text ∧
        Path.namesFrom (Path.directory (here.absolute base)) text = Path.names (here.absolute p))) ∧
    (∀ p q, here.NoBackslash p → here.NoBackslash q →
      Path.names (here.absolute p) ≠ Path.names (here.absolute q) →
        here.display p base "/" ≠ here.display q base "/") ∧
    ∀ p separator,
      here.display p base separator = separator.intercalate (Path.segments (here.display p base "/")) ∧
      here.displayTemplate (some p) base separator =
        (here.displayTemplate (some p) base "/").map fun text => separator.intercalate (Path.segments text) := by
  refine ⟨fun p hp => ⟨namesFrom_display ha hp base, fun hne => ?_⟩, fun p q hp hq hne he => hne ?_,
    fun p separator => ⟨display_eq_intercalate ha p base separator, ?_⟩⟩
  · exact ⟨_, displayTemplate_some hne base "/", namesFrom_templateText ha hp base⟩
  · rw [← namesFrom_display ha hp base, ← namesFrom_display ha hq base, he]
  · obtain rfl | hne := eq_or_ne p ""
    · rfl
    · rw [displayTemplate_some hne, displayTemplate_some hne, Option.map_some, ← templateText_eq_intercalate ha]

/-- A working directory with nothing else around it. -/
def desk : Place := { workingDirectory := "/w", environment := .empty }

/-- A path beside its base, and a template that is seen from the root. -/
theorem display_leads_back_desk :
    Path.namesFrom "/w/src" "../lib/x.html" = ["w", "lib", "x.html"] ∧
      desk.displayTemplate (some "lib/x.html") "/" "/" = some ".//w/lib/x.html" ∧
      Path.namesFrom "/" ".//w/lib/x.html" = ["w", "lib", "x.html"] ∧
      desk.display "lib/x.html" "src" "/" ≠ desk.display "src/x.html" "src" "/" := by
  have hat : Path.names (desk.absolute "lib/x.html") = ["w", "lib", "x.html"] := by decide +kernel
  obtain ⟨hbeside, hapart, -⟩ := @display_leads_back desk (by decide) "src"
  obtain ⟨hroot, -⟩ := @display_leads_back desk (by decide) "/"
  have hback := (hbeside "lib/x.html" (by decide +kernel)).1
  rw [hat, show desk.absolute "src" = "/w/src" by decide +kernel,
    show desk.display "lib/x.html" "src" "/" = "../lib/x.html" by decide +kernel] at hback
  obtain ⟨text, htext, htemplate⟩ := (hroot "lib/x.html" (by decide +kernel)).2 (by decide)
  rw [hat, show Path.directory (desk.absolute "/") = "/" by decide +kernel] at htemplate
  have hlong : desk.displayTemplate (some "lib/x.html") "/" "/" = some ".//w/lib/x.html" := by decide +kernel
  obtain rfl := Option.some.inj (hlong.symm.trans htext)
  exact ⟨hback, hlong, htemplate, hapart _ _ (by decide +kernel) (by decide +kernel) (by decide +kernel)⟩

/-- With a backslash a name is shown as two. -/
example : desk.display "a\\b" "." "/" = desk.display "a/b" "." "/" := by decide +kernel

end Place
end ComponentUsage
