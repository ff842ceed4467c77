import ComponentUsage.Proofs.Path.Normal
/-!
# The parts of a path

A path of names is put together by joining one name after the other (`join_pathOf`), and it is
taken apart the same way (`split_pathOf`).
-/

namespace ComponentUsage

namespace Path

section pathOf

variable {slashes : String} {ns : List String} {name : String}

theorem segments_pathOf (hs : slashes = "/" ∨ slashes = "//") (h : ∀ n ∈ ns, Node.IsName n) :
    ∃ front, (∀ segment ∈ front, segment = "") ∧ front ≠ [] ∧
      segments (World.pathOf slashes ns) = front ++ if ns = [] then [""] else ns := by
  have hns := segments_intercalate_eq_ite fun n hn => (h n hn).no_slash
  have hslash : ∀ q, segments ("/" ++ q) = "" :: segments q := fun q => by
    have := segments_slash "" q
    rwa [String.empty_append] at this
  rcases hs with rfl | rfl
  · exact ⟨[""], by simp, by simp, by rw [World.pathOf, hslash, hns]; rfl⟩
  · refine ⟨["", ""], by simp, by simp, ?_⟩
    rw [World.pathOf, show "//" = "/" ++ "/" from rfl, String.append_assoc, hslash, hslash, hns]
    rfl

/-- A path that ends in a name does not end in a slash. -/
theorem getLast?_pathOf (hs : slashes = "/" ∨ slashes = "//") (h : ∀ n ∈ ns, Node.IsName n) (hne : ns ≠ []) :
    (World.pathOf slashes ns).toList.getLast? ≠ some '/' := by
  intro hlast
  obtain ⟨front, hsegs, -⟩ := segments_append_of_slash hlast
  obtain ⟨front', -, -, hsegs'⟩ := segments_pathOf hs h
  rw [if_neg hne, hsegs] at hsegs'
  have hend := congrArg List.getLast? hsegs'
  rw [List.getLast?_append_of_ne_nil _ hne, List.getLast?_concat] at hend
  exact (h "" (List.mem_of_getLast? hend.symm)).ne_empty rfl

theorem pathOf_concat (hne : ns ≠ []) :
    World.pathOf slashes (ns ++ [name]) = World.pathOf slashes ns ++ "/" ++ name := by
  rw [World.pathOf, String.intercalate_append_of_ne_nil hne (List.cons_ne_nil _ _), String.intercalate_singleton,
    World.pathOf]
  simp only [String.append_assoc]

theorem pathOf_singleton : World.pathOf slashes [name] = World.pathOf slashes [] ++ name := by
  rw [World.pathOf, String.intercalate_singleton, World.pathOf]
  simp

/-- A name in the folder at a path of names is at the path of those names and that one. -/
theorem join_pathOf (hs : slashes = "/" ∨ slashes = "//") (h : ∀ n ∈ ns, Node.IsName n)
    (hn : Node.IsName name) : join (World.pathOf slashes ns) name = World.pathOf slashes (ns ++ [name]) := by
  rw [join_of_no_slash hn.no_slash]
  obtain rfl | hne := eq_or_ne ns []
  · rw [List.nil_append, pathOf_singleton]
    apply if_pos
    rcases hs with rfl | rfl <;> decide
  · rw [pathOf_concat hne, decide_eq_false (pathOf_ne_empty hs ns), Bool.false_or]
    apply if_neg
    simpa using getLast?_pathOf hs h hne

/-- Characters that do not occur do not stop a search from the end. -/
theorem ne_of_mem_reverse {cs : List Char} {stop : Char} (h : stop ∉ cs) : ∀ c ∈ cs.reverse, decide (c ≠ stop) = true := by
  intro c hm
  have hne : c ≠ stop := fun he => h (he ▸ List.mem_reverse.1 hm)
  simpa using hne

theorem splitLast_append {cs d : List Char} (hc : '/' ∉ cs) (hd : d.getLast? = some '/') :
    splitLast (d ++ cs) = (d, cs) := by
  obtain ⟨front, rfl⟩ := List.getLast?_eq_some_iff.1 hd
  have hall := ne_of_mem_reverse hc
  rw [splitLast, List.reverse_append, List.dropWhile_append_of_pos hall, List.takeWhile_append_of_pos hall]
  simp

/-- The parts of a path of names are the path of those before the last one and the last one. -/
theorem split_pathOf (hs : slashes = "/" ∨ slashes = "//") (h : ∀ n ∈ ns, Node.IsName n)
    (hn : Node.IsName name) :
    split (World.pathOf slashes (ns ++ [name])) = (World.pathOf slashes ns, name) := by
  obtain rfl | hne := eq_or_ne ns []
  · have hlast : (World.pathOf slashes []).toList.getLast? = some '/' ∧
        (World.pathOf slashes []).toList.reverse.dropWhile (· == '/') = [] := by
      rcases hs with rfl | rfl <;> decide
    rw [List.nil_append, pathOf_singleton, split, String.toList_append, splitLast_append hn.no_slash hlast.1]
    dsimp only
    rw [hlast.2]
    simp
  · have hlast := getLast?_pathOf hs h hne
    have hend : ((World.pathOf slashes ns ++ "/").toList.reverse.dropWhile (· == '/')).reverse =
        (World.pathOf slashes ns).toList := by
      rw [String.toList_append, List.reverse_append]
      generalize (World.pathOf slashes ns).toList = cs at hlast
      rw [← List.head?_reverse] at hlast
      rw [← List.reverse_reverse cs]
      generalize cs.reverse = rs at hlast
      cases rs with
      | nil => rfl
      | cons c rs =>
        have hc : (c == '/') = false := by simpa using hlast
        simp [hc]
    rw [pathOf_concat hne, split, String.toList_append, splitLast_append hn.no_slash (by simp)]
    dsimp only
    rw [hend]
    have hempty : (World.pathOf slashes ns).toList.isEmpty = false := by
      have habs := isAbsolute_pathOf hs ns
      cases hl : (World.pathOf slashes ns).toList with
      | nil =>
        rw [isAbsolute, hl] at habs
        cases habs
      | cons c cs => rfl
    rw [hempty]
    simp

theorem directory_pathOf (hs : slashes = "/" ∨ slashes = "//") (h : ∀ n ∈ ns, Node.IsName n) :
    directory (World.pathOf slashes ns) = World.pathOf slashes ns.dropLast := by
  rcases List.eq_nil_or_concat ns with rfl | ⟨above, name, rfl⟩
  · rcases hs with rfl | rfl <;> decide
  · rw [List.concat_eq_append] at h ⊢
    rw [directory, split_pathOf hs (fun n hn => h n (by simp [hn])) (h name (by simp)), List.dropLast_concat]

theorem base_pathOf (hs : slashes = "/" ∨ slashes = "//") (h : ∀ n ∈ ns, Node.IsName n)
    (hlast : ns.getLast? = some name) : base (World.pathOf slashes ns) = name := by
  obtain ⟨above, rfl⟩ := List.getLast?_eq_some_iff.1 hlast
  rw [base, split_pathOf hs (fun n hm => h n (List.mem_append_left _ hm)) (h name (by simp))]

end pathOf

theorem mem_of_mem_stem {p : String} {c : Char} (h : c ∈ (splitExtension p).1.toList) : c ∈ p.toList := by
  have hlast : ∀ cs : List Char, (splitLast cs).1 ++ (splitLast cs).2 = cs := fun cs => by
    rw [splitLast, ← List.reverse_append, List.takeWhile_append_dropWhile, List.reverse_reverse]
  have hsub := hlast p.toList
  unfold splitExtension at h
  dsimp only at h
  split at h
  · rw [String.toList_ofList] at h
    rw [← hsub]
    rcases List.mem_append.1 h with h | h
    · exact List.mem_append_left _ h
    · refine List.mem_append_right _ (List.mem_reverse.1 ?_)
      exact (List.dropWhile_suffix _).subset (List.mem_of_mem_tail (List.mem_reverse.1 h))
  · exact h

end Path

end ComponentUsage
