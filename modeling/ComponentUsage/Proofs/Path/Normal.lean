import ComponentUsage.Proofs.Disk.Depth
/-!
# Paths and their names

What a path is made of when a name is put after it, and what is left of it in normal form:
slashes, and names that a disk can give. The normal form of a path is its own
(`normalize_normalize`), so that an absolute path stands for itself (`absolute_absolute`).
-/

namespace ComponentUsage

namespace Path

variable {base p name : String}

/-! ## A name after a path -/

theorem isAbsolute_append (h : p ≠ "") (q : String) : isAbsolute (p ++ q) = isAbsolute p := by
  have hp : p.toList ≠ [] := fun he => h (String.toList_eq_nil_iff.1 he)
  rw [isAbsolute, isAbsolute, String.toList_append, List.head?_append_of_ne_nil _ hp]

theorem segments_of_no_slash (h : '/' ∉ name.toList) : segments name = [name] := by
  rw [segments, List.splitOn_eq_singleton h]
  simp

theorem segments_slash (p q : String) : segments (p ++ "/" ++ q) = segments p ++ segments q := by
  simp only [segments, String.toList_append, show "/".toList = ['/'] from rfl, List.append_assoc,
    List.singleton_append, List.splitOn_append_cons_self, List.map_append]

/-- A path that ends in a slash has an empty last segment; what is appended to it takes the
place of that. -/
theorem segments_append_of_slash (hp : p.toList.getLast? = some '/') :
    ∃ front, segments p = front ++ [""] ∧ ∀ q, segments (p ++ q) = front ++ segments q := by
  obtain ⟨cs, hcs⟩ := List.getLast?_eq_some_iff.1 hp
  obtain rfl : p = String.ofList cs ++ "/" := by
    rw [← String.toList_inj, hcs]
    simp
  refine ⟨segments (String.ofList cs), ?_, fun q => segments_slash _ _⟩
  have h := segments_slash (String.ofList cs) ""
  rwa [String.append_empty] at h

theorem join_of_relative (h : isAbsolute name = false) :
    join p name = if p = "" || p.toList.getLast? == some '/' then p ++ name else p ++ "/" ++ name := by
  rw [join, h]
  rfl

theorem join_of_no_slash (hn : '/' ∉ name.toList) :
    join p name = if p = "" || p.toList.getLast? == some '/' then p ++ name else p ++ "/" ++ name :=
  join_of_relative (isAbsolute_of_no_slash hn)

theorem join_join (hp : p ≠ "") (hn : '/' ∉ name.toList) :
    join base (join p name) = join (join base p) name := by
  have hne : p.toList ≠ [] := fun he => hp (String.toList_eq_nil_iff.1 he)
  have happ : ∀ q : String, join base (p ++ q) = join base p ++ q := fun q => by
    unfold join
    rw [isAbsolute_append hp]
    split
    · rfl
    · split <;> simp only [String.append_assoc]
  have hends : (join base p = "" || (join base p).toList.getLast? == some '/') =
      (p = "" || p.toList.getLast? == some '/') := by
    have hlast : (join base p).toList.getLast? = p.toList.getLast? := by
      unfold join
      split
      · rfl
      · split <;> rw [String.toList_append, List.getLast?_append_of_ne_nil _ hne]
    have hj : join base p ≠ "" := fun he => by
      rw [he] at hlast
      exact hne (List.getLast?_eq_none_iff.1 hlast.symm)
    rw [hlast, decide_eq_false hj, decide_eq_false hp]
  rw [join_of_no_slash hn, join_of_no_slash hn, hends]
  split
  · exact happ _
  · rw [String.append_assoc, happ, String.append_assoc]

/-- The segments of a path with a relative one after it. What is last in the path falls away if it
is empty. -/
theorem segments_join_of_relative (h : isAbsolute name = false) :
    ∃ front, (segments p = front ∨ segments p = front ++ [""]) ∧ segments (join p name) = front ++ segments name := by
  rw [join_of_relative h]
  split
  · rename_i h
    rw [Bool.or_eq_true, decide_eq_true_eq, beq_iff_eq] at h
    rcases h with rfl | h
    · exact ⟨[], .inr rfl, by rw [String.empty_append, List.nil_append]⟩
    · obtain ⟨front, hs, happ⟩ := segments_append_of_slash h
      exact ⟨front, .inr hs, happ name⟩
  · exact ⟨segments p, .inl rfl, segments_slash p name⟩

theorem segments_join (hn : '/' ∉ name.toList) :
    ∃ front, (segments p = front ∨ segments p = front ++ [""]) ∧ segments (join p name) = front ++ [name] := by
  have h := segments_join_of_relative (p := p) (isAbsolute_of_no_slash hn)
  rwa [segments_of_no_slash hn] at h

/-! ## The names of a normal form -/

theorem mem_of_mem_splitOn {a c : Char} {cs segment : List Char} (hs : segment ∈ cs.splitOn a)
    (hc : c ∈ segment) : c ∈ cs ∧ c ≠ a := by
  induction cs generalizing segment with
  | nil => simp_all
  | cons x xs ih =>
    rw [List.splitOn_cons_eq_if_modifyHead] at hs
    split at hs
    · rcases List.mem_cons.1 hs with rfl | hs
      · cases hc
      · exact ⟨List.mem_cons_of_mem _ (ih hs hc).1, (ih hs hc).2⟩
    · rename_i hx
      have hx : x ≠ a := by simpa using hx
      cases hsplit : xs.splitOn a with
      | nil => exact absurd hsplit (List.splitOn_ne_nil _ _)
      | cons first rest =>
        rw [hsplit] at hs ih
        rcases List.mem_cons.1 hs with rfl | hs
        · rcases List.mem_cons.1 hc with rfl | hc
          · exact ⟨List.mem_cons_self, hx⟩
          · have := ih List.mem_cons_self hc
            exact ⟨List.mem_cons_of_mem _ this.1, this.2⟩
        · have := ih (List.mem_cons_of_mem _ hs) hc
          exact ⟨List.mem_cons_of_mem _ this.1, this.2⟩

theorem mem_of_mem_segments {c : Char} {segment : String} (hs : segment ∈ segments p)
    (hc : c ∈ segment.toList) : c ∈ p.toList ∧ c ≠ '/' := by
  obtain ⟨cs, hcs, rfl⟩ := List.mem_map.1 hs
  exact mem_of_mem_splitOn hcs (by simpa using hc)

/-- A segment of a path is dropped, takes a name back, or is a name. -/
theorem mem_step {rooted : Bool} {above : List String} {segment n : String}
    (h : n ∈ step rooted above segment) :
    n ∈ above ∨ (n = segment ∧ segment ≠ "" ∧ segment ≠ "." ∧ segment ≠ "..") ∨ (rooted = false ∧ n = "..") := by
  unfold step at h
  split at h
  · exact .inl h
  · rename_i hs
    simp only [Bool.or_eq_true, decide_eq_true_eq, not_or] at hs
    split at h
    · split at h
      · split at h
        · cases h
        · rename_i hr
          exact .inr (.inr ⟨by simpa using hr, by simpa using h⟩)
      · split at h
        · rename_i hname
          rcases List.mem_cons.1 h with rfl | h
          · exact .inl (List.mem_cons.2 (.inl hname.symm))
          · exact .inl h
        · exact .inl (List.mem_cons_of_mem _ h)
    · rename_i hd
      rcases List.mem_cons.1 h with rfl | h
      · exact .inr (.inl ⟨rfl, hs.1, hs.2, hd⟩)
      · exact .inl h

theorem mem_foldl_step {rooted : Bool} {above segments : List String} {n : String}
    (h : n ∈ segments.foldl (step rooted) above) :
    n ∈ above ∨ (n ∈ segments ∧ n ≠ "" ∧ n ≠ "." ∧ n ≠ "..") ∨ (rooted = false ∧ n = "..") := by
  induction segments generalizing above with
  | nil => exact .inl h
  | cons segment segments ih =>
    rcases ih h with h | ⟨hs, hn⟩ | hr
    · rcases mem_step h with h | ⟨rfl, hn⟩ | hr
      · exact .inl h
      · exact .inr (.inl ⟨List.mem_cons_self, hn⟩)
      · exact .inr (.inr hr)
    · exact .inr (.inl ⟨List.mem_cons_of_mem _ hs, hn⟩)
    · exact .inr (.inr hr)

/-- Names are put on what is above them, one after the other. -/
theorem foldl_step_names {rooted : Bool} (above : List String) {ns : List String}
    (h : ∀ n ∈ ns, Node.IsName n) : ns.foldl (step rooted) above = ns.reverse ++ above := by
  induction ns generalizing above with
  | nil => rfl
  | cons n ns ih =>
    have hn := h n List.mem_cons_self
    have hstep : step rooted above n = n :: above := by
      simp [step, hn.ne_empty, hn.ne_here, hn.ne_above]
    rw [List.foldl_cons, hstep, ih _ fun n hm => h n (List.mem_cons_of_mem _ hm)]
    simp

theorem leadingSlashes_of_isAbsolute (h : isAbsolute p = true) :
    leadingSlashes p = "/" ∨ leadingSlashes p = "//" := by
  unfold leadingSlashes
  unfold isAbsolute at h
  split
  · exact .inl rfl
  · exact .inr rfl
  · exact .inl rfl
  · rename_i hne
    cases hp : p.toList with
    | nil => simp [hp] at h
    | cons c cs =>
      have : c = '/' := by simpa [hp] using h
      exact absurd (this ▸ hp) (hne cs)

theorem normalize_eq_pathOf (h : isAbsolute p = true) :
    normalize p = World.pathOf (leadingSlashes p) ((segments p).foldl (step true) []).reverse := by
  have hne : leadingSlashes p ≠ "" := by rcases leadingSlashes_of_isAbsolute h with hs | hs <;> rw [hs] <;> decide
  have htext : leadingSlashes p ++ "/".intercalate ((segments p).foldl (step true) []).reverse ≠ "" :=
    fun he => hne (String.append_eq_empty_iff.1 he).1
  simp only [normalize, ne_eq, hne, not_false_eq_true, decide_true, htext, if_false]
  rfl

theorem isName_of_mem_foldl_step {n : String} (h : n ∈ ((segments p).foldl (step true) []).reverse) :
    Node.IsName n := by
  rcases mem_foldl_step (List.mem_reverse.1 h) with hn | ⟨hn, h0, h1, h2⟩ | ⟨h, -⟩
  · cases hn
  · exact ⟨h0, h1, h2, fun hc => (mem_of_mem_segments hn hc).2 rfl⟩
  · cases h

/-- The normal form of an absolute path is made of slashes and names. -/
theorem normalize_of_isAbsolute (h : isAbsolute p = true) :
    ∃ slashes ns, (slashes = "/" ∨ slashes = "//") ∧ (∀ n ∈ ns, Node.IsName n) ∧
      normalize p = World.pathOf slashes ns :=
  ⟨_, _, leadingSlashes_of_isAbsolute h, fun _ => isName_of_mem_foldl_step, normalize_eq_pathOf h⟩

/-! ## The normal form of a normal form -/

section pathOf

variable {slashes : String} {ns : List String}

theorem segments_intercalate (h : ∀ n ∈ ns, '/' ∉ n.toList) (hne : ns ≠ []) :
    segments ("/".intercalate ns) = ns := by
  have hsplit := @List.splitOn_intercalate Char (ns.map String.toList) _ _ '/'
    (by simpa using h) (by simpa using hne)
  rw [segments, String.toList_intercalate, show "/".toList = ['/'] from rfl, hsplit]
  simp

/-- Segments that are put together fall apart again; none leaves an empty one. -/
theorem segments_intercalate_eq_ite (h : ∀ n ∈ ns, '/' ∉ n.toList) :
    segments ("/".intercalate ns) = if ns = [] then [""] else ns := by
  split
  · rename_i hnil
    rw [hnil]
    rfl
  · rename_i hne
    exact segments_intercalate h hne

theorem names_slash (q : String) : names ("/" ++ q) = names q := by
  have h := segments_slash "" q
  rw [String.empty_append] at h
  rw [names, names, h]
  rfl

/-- The names of a path are the ones that it is made of. -/
theorem names_pathOf (hs : slashes = "/" ∨ slashes = "//") (h : ∀ n ∈ ns, Node.IsName n) :
    names (World.pathOf slashes ns) = ns := by
  have hn : names ("/".intercalate ns) = ns := by
    cases ns with
    | nil => rfl
    | cons n ns =>
      rw [names, segments_intercalate (fun n hn => (h n hn).no_slash) (List.cons_ne_nil _ _), List.filter_eq_self]
      exact fun n hn => by simpa using (h n hn).ne_empty
  rcases hs with rfl | rfl
  · rw [World.pathOf, names_slash, hn]
  · rw [World.pathOf, show "//" = "/" ++ "/" from rfl, String.append_assoc, names_slash, names_slash, hn]

theorem foldl_step_segments (rooted : Bool) (above : List String) :
    (segments p).foldl (step rooted) above = (names p).foldl (step rooted) above := by
  rw [names]
  generalize segments p = segs
  induction segs generalizing above with
  | nil => rfl
  | cons segment segs ih =>
    rw [List.foldl_cons, ih, List.filter_cons]
    split
    · rfl
    · rename_i hs
      obtain rfl : segment = "" := by simpa using hs
      rfl

theorem leadingSlashes_pathOf (hs : slashes = "/" ∨ slashes = "//") (h : ∀ n ∈ ns, Node.IsName n) :
    leadingSlashes (World.pathOf slashes ns) = slashes := by
  -- what comes after the slashes does not start with one
  have hhead : ∀ cs, ("/".intercalate ns).toList ≠ '/' :: cs := fun cs hcs => by
    obtain rfl | hne := eq_or_ne ns []
    · cases hcs
    · have hp : "/".intercalate ns = "" ++ "/" ++ String.ofList cs := by
        rw [← String.toList_inj, hcs]
        simp
      have hsegs := segments_intercalate (fun n hn => (h n hn).no_slash) hne
      rw [hp, segments_slash] at hsegs
      exact (h "" (hsegs ▸ List.mem_cons_self)).ne_empty rfl
  unfold leadingSlashes World.pathOf
  rcases hs with rfl | rfl
  · rw [String.toList_append, show "/".toList = ['/'] from rfl, List.singleton_append]
    split
    · rename_i h'
      exact absurd (List.cons.inj h').2 (hhead _)
    · rename_i h'
      exact absurd (List.cons.inj h').2 (hhead _)
    · rfl
    · rename_i h'
      exact absurd rfl (h' _)
  · rw [String.toList_append, show "//".toList = ['/', '/'] from rfl, List.cons_append, List.singleton_append]
    split
    · rename_i h'
      exact absurd (List.cons.inj (List.cons.inj h').2).2 (hhead _)
    · rfl
    · rename_i h' heq
      exact absurd (List.cons.inj heq).2.symm (h' _)
    · rename_i h'
      exact absurd rfl (h' _)

theorem normalize_pathOf (hs : slashes = "/" ∨ slashes = "//") (h : ∀ n ∈ ns, Node.IsName n) :
    normalize (World.pathOf slashes ns) = World.pathOf slashes ns := by
  have hne : slashes ≠ "" := by rcases hs with rfl | rfl <;> decide
  have htext : slashes ++ "/".intercalate ns ≠ "" := fun he => hne (String.append_eq_empty_iff.1 he).1
  simp only [normalize, foldl_step_segments, names_pathOf hs h, leadingSlashes_pathOf hs h,
    foldl_step_names _ h, List.append_nil, List.reverse_reverse, htext, if_false]
  rfl

end pathOf

theorem isAbsolute_pathOf {slashes : String} (hs : slashes = "/" ∨ slashes = "//") (ns : List String) :
    isAbsolute (World.pathOf slashes ns) = true := by
  rcases hs with rfl | rfl <;> rw [World.pathOf, isAbsolute_append (by decide)] <;> decide

theorem pathOf_ne_empty {slashes : String} (hs : slashes = "/" ∨ slashes = "//") (ns : List String) :
    World.pathOf slashes ns ≠ "" := by
  intro he
  have habs := isAbsolute_pathOf hs ns
  rw [he] at habs
  cases habs

theorem isAbsolute_normalize (h : isAbsolute p = true) : isAbsolute (normalize p) = true := by
  obtain ⟨slashes, ns, hs, -, he⟩ := normalize_of_isAbsolute h
  rw [he]
  exact isAbsolute_pathOf hs ns

theorem normalize_normalize (h : isAbsolute p = true) : normalize (normalize p) = normalize p := by
  obtain ⟨slashes, ns, hs, hn, he⟩ := normalize_of_isAbsolute h
  rw [he, normalize_pathOf hs hn]

theorem isAbsolute_join (h : isAbsolute base = true) (p : String) : isAbsolute (join base p) = true := by
  have hne : base ≠ "" := by
    rintro rfl
    cases h
  unfold join
  split
  · assumption
  · split
    · rw [isAbsolute_append hne, h]
    · rw [String.append_assoc, isAbsolute_append hne, h]

/-! ## The characters of a normal form -/

theorem mem_intercalate {c : Char} {sep : List Char} {ls : List (List Char)} (h : c ∈ sep.intercalate ls) :
    c ∈ sep ∨ ∃ l ∈ ls, c ∈ l := by
  induction ls with
  | nil => simp at h
  | cons l ls ih =>
    cases ls with
    | nil => exact .inr ⟨l, List.mem_cons_self, by simpa using h⟩
    | cons l' ls =>
      rw [List.intercalate_cons_cons, List.mem_append, List.mem_append] at h
      rcases h with (h | h) | h
      · exact .inr ⟨l, List.mem_cons_self, h⟩
      · exact .inl h
      · exact (ih h).imp_right fun ⟨l'', hl, hc⟩ => ⟨l'', List.mem_cons_of_mem _ hl, hc⟩

/-- A normal form has no characters but those of its path, and slashes and dots. -/
theorem mem_of_mem_normalize {c : Char} (h : c ∈ (normalize p).toList) :
    c ∈ p.toList ∨ c = '/' ∨ c = '.' := by
  have hdots : ∀ n ∈ (segments p).foldl (step (leadingSlashes p ≠ "")) [], c ∈ n.toList →
      c ∈ p.toList ∨ c = '.' := by
    intro n hn hc
    rcases mem_foldl_step hn with hn | ⟨hn, -⟩ | ⟨-, rfl⟩
    · cases hn
    · exact .inl (mem_of_mem_segments hn hc).1
    · exact .inr (by simpa using hc)
  have hslashes : c ∈ (leadingSlashes p).toList → c = '/' := by
    unfold leadingSlashes
    split <;> simp
  unfold normalize at h
  dsimp only at h
  split at h
  · exact .inr (.inr (by simpa using h))
  · rw [String.toList_append, List.mem_append, String.toList_intercalate] at h
    rcases h with h | h
    · exact .inr (.inl (hslashes h))
    · rcases mem_intercalate h with h | ⟨cs, hcs, h⟩
      · exact .inr (.inl (by simpa using h))
      · obtain ⟨n, hn, rfl⟩ := List.mem_map.1 hcs
        exact (hdots n (List.mem_reverse.1 hn) h).imp_right .inr

end Path

/-- From an absolute directory every path leads to slashes and names. -/
theorem Place.absolute_eq_pathOf {here : Place} (h : Path.isAbsolute here.workingDirectory = true) (p : String) :
    ∃ slashes ns, (slashes = "/" ∨ slashes = "//") ∧ (∀ n ∈ ns, Node.IsName n) ∧
      here.absolute p = World.pathOf slashes ns :=
  Path.normalize_of_isAbsolute (Path.isAbsolute_join h p)

/-- From an absolute directory the absolute normal form of a path is its own. -/
theorem Place.absolute_absolute {here : Place} (h : Path.isAbsolute here.workingDirectory = true) (p : String) :
    here.absolute (here.absolute p) = here.absolute p := by
  have hj := Path.isAbsolute_join h p
  rw [absolute, absolute, Path.join, Path.isAbsolute_normalize hj, if_pos rfl, Path.normalize_normalize hj]

/-- A path of names stands for itself. -/
theorem Place.absolute_pathOf (here : Place) {slashes : String} {ns : List String}
    (hs : slashes = "/" ∨ slashes = "//") (h : ∀ n ∈ ns, Node.IsName n) :
    here.absolute (World.pathOf slashes ns) = World.pathOf slashes ns := by
  rw [absolute, Path.join, if_pos (Path.isAbsolute_pathOf hs ns), Path.normalize_pathOf hs h]

end ComponentUsage
