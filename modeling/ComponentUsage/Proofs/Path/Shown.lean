import ComponentUsage.Path.Display
import ComponentUsage.Proofs.Path.Parts
/-!
# What is shown of a path

A segment after an absolute path is one step from where that path leads (`absolute_join`). So
what is shown of it, seen from a directory above, is one step from what is shown of the path
(`relative_join`): the step may be a name, or none, or one back.
-/

namespace ComponentUsage

namespace Path

variable {p segment : String}

/-- What comes after a path leaves the slashes in front of it alone. -/
theorem leadingSlashes_join (ha : isAbsolute p = true) (hc : '/' ∉ segment.toList) :
    leadingSlashes (join p segment) = leadingSlashes p := by
  have hfirst : ∀ d ds, segment.toList = d :: ds → d ≠ '/' := fun d ds hs he => hc (by simp [hs, he])
  -- no more than three characters count
  have hthree : ∀ b c : Char, ∀ cs cs', leadingSlashes (String.ofList ('/' :: b :: c :: cs)) =
      leadingSlashes (String.ofList ('/' :: b :: c :: cs')) := by
    intro b c cs cs'
    by_cases hb : b = '/' <;> by_cases hc : c = '/' <;> simp [leadingSlashes, hb, hc]
  obtain ⟨cs, hp⟩ : ∃ cs, p = String.ofList ('/' :: cs) := by
    obtain ⟨cs, hcs⟩ := List.head?_eq_some_iff.1 (beq_iff_eq.1 ha)
    exact ⟨cs, by rw [← hcs, String.ofList_toList]⟩
  have hslash : ∀ a d, String.ofList a ++ "/" ++ String.ofList d = String.ofList (a ++ '/' :: d) := by
    intro a d
    rw [← String.toList_inj]
    simp
  have hsegment : segment = String.ofList segment.toList := String.ofList_toList.symm
  rw [join_of_no_slash hc]
  generalize segment.toList = ds at hfirst hsegment
  subst hp hsegment
  rw [← String.ofList_append, hslash]
  rcases cs with _ | ⟨b, _ | ⟨c, cs⟩⟩
  · cases ds with
    | nil => rfl
    | cons d ds => simp [leadingSlashes, hfirst d ds rfl]
  · by_cases hb : b = '/'
    · subst hb
      cases ds with
      | nil => rfl
      | cons d ds => simp [leadingSlashes, hfirst d ds rfl]
    · simp [leadingSlashes, hb]
  · split <;> exact hthree _ _ _ _

theorem step_of_isName {rooted : Bool} (h : Node.IsName segment) (above : List String) :
    step rooted above segment = segment :: above := by
  simp [step, h.ne_empty, h.ne_here, h.ne_above]

/-- A relative path after another one goes on from where that one leads. -/
theorem foldl_step_join_of_relative (h : isAbsolute segment = false) :
    (segments (join p segment)).foldl (step true) [] =
      (segments segment).foldl (step true) ((segments p).foldl (step true) []) := by
  obtain ⟨front, hp | hp, hj⟩ := segments_join_of_relative (p := p) h
  · rw [hj, hp, List.foldl_append]
  · rw [hj, hp, List.foldl_append, List.foldl_append]
    rfl

theorem foldl_step_join (hc : '/' ∉ segment.toList) :
    (segments (join p segment)).foldl (step true) [] = step true ((segments p).foldl (step true) []) segment := by
  rw [foldl_step_join_of_relative (isAbsolute_of_no_slash hc), segments_of_no_slash hc]
  rfl

/-! ## Lists with the same start -/

theorem shared_append (as bs cs : List String) : shared (as ++ bs) (as ++ cs) = as ++ shared bs cs := by
  induction as with
  | nil => rfl
  | cons a as ih => rw [List.cons_append, List.cons_append, shared, if_pos rfl, ih, List.cons_append]

theorem shared_prefix (as bs : List String) : shared as bs <+: as := by
  induction as generalizing bs with
  | nil => exact List.prefix_rfl
  | cons a as ih =>
    cases bs with
    | nil => exact List.nil_prefix
    | cons b bs =>
      rw [shared]
      split
      · exact List.cons_prefix_cons.2 ⟨rfl, ih bs⟩
      · exact List.nil_prefix

theorem shared_comm (as bs : List String) : shared as bs = shared bs as := by
  fun_induction shared as bs with
  | case1 a as bs ih => rw [ih, shared, if_pos rfl]
  | case2 a as b bs hne => rw [shared, if_neg (Ne.symm hne)]
  | case3 as bs hne =>
    cases as <;> cases bs
    all_goals first | rfl | exact (hne _ _ _ _ rfl rfl).elim

end Path

namespace Place

variable {here : Place} {p root slashes segment : String} {ns dirs : List String}

theorem absolute_of_isAbsolute (here : Place) (ha : Path.isAbsolute p = true) :
    here.absolute p = Path.normalize p := by
  rw [absolute, Path.join, if_pos ha]

theorem isName_of_mem_names (here : Place) (ha : Path.isAbsolute p = true) :
    ∀ n ∈ Path.names (here.absolute p), Node.IsName n := by
  rw [absolute_of_isAbsolute here ha, Path.normalize_eq_pathOf ha,
    Path.names_pathOf (Path.leadingSlashes_of_isAbsolute ha) fun _ => Path.isName_of_mem_foldl_step]
  exact fun _ => Path.isName_of_mem_foldl_step

theorem absolute_eq (here : Place) (ha : Path.isAbsolute p = true) :
    here.absolute p = World.pathOf (Path.leadingSlashes p) (Path.names (here.absolute p)) := by
  rw [absolute_of_isAbsolute here ha, Path.normalize_eq_pathOf ha,
    Path.names_pathOf (Path.leadingSlashes_of_isAbsolute ha) fun _ => Path.isName_of_mem_foldl_step]

/-- A segment after an absolute path is one step from where the path leads. -/
theorem absolute_join (ha : Path.isAbsolute p = true) (hc : '/' ∉ segment.toList) :
    here.absolute (Path.join p segment) = World.pathOf (Path.leadingSlashes p)
      (Path.step true (Path.names (here.absolute p)).reverse segment).reverse := by
  have hs := Path.leadingSlashes_of_isAbsolute ha
  rw [absolute_of_isAbsolute here ha, absolute_of_isAbsolute here (Path.isAbsolute_join ha segment),
    Path.normalize_eq_pathOf (Path.isAbsolute_join ha segment), Path.leadingSlashes_join ha hc,
    Path.foldl_step_join hc, Path.normalize_eq_pathOf ha,
    Path.names_pathOf hs fun _ => Path.isName_of_mem_foldl_step, List.reverse_reverse]

/-! ## Seen from a directory -/

theorem flatMap_pieces {names : List String} (h : ∀ n ∈ names, '\\' ∉ n.toList) : names.flatMap pieces = names := by
  have hpiece : ∀ n ∈ names, pieces n = [n] := fun n hn => by
    rw [pieces, List.splitOn_eq_singleton (h n hn)]
    simp
  rw [List.flatMap_congr hpiece]
  simp

/-- What lies below a directory is seen from there without what leads to the directory. -/
theorem relative_of_below (hroot : Path.names (here.absolute root) = ns)
    (hp : Path.names (here.absolute p) = ns ++ dirs) : here.relative p root = dirs := by
  have hshared := Path.shared_append ns [] dirs
  rw [List.append_nil] at hshared
  simp [relative, hroot, hp, hshared, Path.shared]

theorem relative_of_above {name : String} (hroot : Path.names (here.absolute root) = ns ++ [name])
    (hp : Path.names (here.absolute p) = ns) : here.relative p root = [".."] := by
  have hshared := Path.shared_append ns [name] []
  rw [List.append_nil] at hshared
  simp [relative, hroot, hp, hshared, Path.shared]

/-- Seen from a directory, a segment after the path of a folder below it is one step from where
the folder is seen. -/
theorem relative_join (hs : slashes = "/" ∨ slashes = "//") (hn : ∀ n ∈ ns ++ dirs, Node.IsName n)
    (hroot : Path.names (here.absolute root) = ns) (hc : '/' ∉ segment.toList) :
    here.relative (Path.join (World.pathOf slashes (ns ++ dirs)) segment) root =
      (Path.step (ns = []) dirs.reverse segment).reverse := by
  have hsteps : ∀ n ∈ (Path.step true (ns ++ dirs).reverse segment).reverse, Node.IsName n := by
    intro n hm
    rcases Path.mem_step (List.mem_reverse.1 hm) with hm | ⟨rfl, h0, h1, h2⟩ | ⟨h, -⟩
    · exact hn n (List.mem_reverse.1 hm)
    · exact ⟨h0, h1, h2, hc⟩
    · cases h
  have hat : Path.names (here.absolute (Path.join (World.pathOf slashes (ns ++ dirs)) segment)) =
      (Path.step true (ns ++ dirs).reverse segment).reverse := by
    rw [absolute_join (Path.isAbsolute_pathOf hs _) hc, Path.leadingSlashes_pathOf hs hn,
      absolute_pathOf here hs hn, Path.names_pathOf hs hn, Path.names_pathOf hs hsteps]
  unfold Path.step at hat ⊢
  by_cases hnone : segment = "" ∨ segment = "."
  · have hnone : (decide (segment = "") || decide (segment = ".")) = true := by simpa using hnone
    rw [if_pos hnone, List.reverse_reverse] at hat ⊢
    exact relative_of_below hroot hat
  have hnone : ¬ (decide (segment = "") || decide (segment = ".")) = true := by simpa using hnone
  rw [if_neg hnone] at hat ⊢
  by_cases hback : segment = ".."
  · rw [if_pos hback] at hat ⊢
    rcases List.eq_nil_or_concat dirs with rfl | ⟨above, name, rfl⟩
    -- one step back from the directory itself, unless there is none
    · rcases List.eq_nil_or_concat ns with rfl | ⟨before, last, rfl⟩
      · exact relative_of_below hroot hat
      · have hlast : last ≠ ".." := (hn last (by simp)).ne_above
        simp only [List.append_nil, List.concat_eq_append, List.reverse_append, List.reverse_singleton,
          List.singleton_append, hlast, if_false, List.reverse_reverse] at hat hroot ⊢
        rw [relative_of_above hroot hat]
        simp
    · have hname : name ≠ ".." := (hn name (by simp)).ne_above
      simp only [List.concat_eq_append, List.reverse_append, List.reverse_singleton, List.cons_append,
        hname, if_false, List.reverse_reverse] at hat ⊢
      exact relative_of_below hroot hat
  · rw [if_neg hback, List.reverse_cons, List.reverse_reverse] at hat ⊢
    rw [List.append_assoc] at hat
    exact relative_of_below hroot hat

end Place
end ComponentUsage
