import ComponentUsage.Proofs.Disk.Names
/-!
# What stands in a folder

A path that leads to a folder leads, with one more name after it, to what the folder holds under
that name (`find_join_eq_ok_iff`), however it is written: `.`, `..` and slashes may be in it.
-/

namespace ComponentUsage

namespace Node

variable {n m : Node} {above : List Node} {es : List (String × Node)} {name : String}

/-- What follows segments goes on from where they lead, unless they lead nowhere. -/
theorem follow_append (n : Node) (above : List Node) (segments : List String) :
    (∃ cause, ∀ rest, n.follow above (segments ++ rest) = .error cause) ∨
      ∃ (m : Node) (above' : List Node), ∀ rest, n.follow above (segments ++ rest) = m.follow above' rest := by
  induction segments generalizing n above with
  | nil => exact .inr ⟨n, above, fun _ => rfl⟩
  | cons segment segments ih =>
    cases n with
    | file content => exact .inl ⟨.notFolder, fun _ => rfl⟩
    | dangling => exact .inl ⟨.missing, fun _ => rfl⟩
    | folder es =>
      simp only [List.cons_append, follow]
      split
      · exact ih _ _
      · split
        · split
          · exact ih _ _
          · exact ih _ _
        · split
          · exact .inl ⟨.nameTooLong, fun _ => rfl⟩
          · split
            · exact .inl ⟨.missing, fun _ => rfl⟩
            · exact ih _ _

theorem follow_append_of_eq_ok {segments : List String} (h : n.follow above segments = .ok m) :
    ∃ above', ∀ rest, n.follow above (segments ++ rest) = m.follow above' rest := by
  rcases follow_append n above segments with ⟨cause, herror⟩ | ⟨m', above', hall⟩
  · have hnone := herror []
    rw [List.append_nil, h] at hnone
    cases hnone
  · have hend := hall []
    rw [List.append_nil, h, follow, Except.ok.injEq] at hend
    exact ⟨above', hend ▸ hall⟩

/-- An empty segment at the end of a path changes nothing of where it leads. -/
theorem follow_of_follow_concat_empty {segments : List String} (h : n.follow above (segments ++ [""]) = .ok m) :
    n.follow above segments = .ok m := by
  rcases follow_append n above segments with ⟨cause, herror⟩ | ⟨m', above', hall⟩
  · rw [herror] at h
    cases h
  · rw [hall] at h
    rw [← List.append_nil segments, hall, follow]
    cases m' with
    | file | dangling => cases h
    | folder es => exact h

end Node

theorem Path.join_ne_empty {p : String} (hp : p ≠ "") (q : String) : join p q ≠ "" := by
  unfold join
  split
  · rintro rfl
    contradiction
  · split
    · simp [hp]
    · simp [hp]

namespace World

variable {w : World} {dir name : String} {es : List (String × Node)}

theorem ne_empty_of_find {n : Node} (h : w.find dir = .ok n) : dir ≠ "" := by
  rintro rfl
  cases h

theorem find_eq_ok_iff {p : String} {n : Node} :
    w.find p = .ok n ↔ checkPath p = .ok () ∧ p ≠ "" ∧
      w.root.follow [] (Path.segments (Path.join w.here.workingDirectory p)) = .ok n := by
  constructor
  · intro h
    obtain ⟨⟨⟩, hc, -⟩ := Fault.bind_eq_ok_iff.1 h
    exact ⟨hc, ne_empty_of_find h, (follow_of_find h).2⟩
  · rintro ⟨hc, hne, hfollow⟩
    unfold find
    rw [hc, Fault.ok_bind, if_neg hne, hfollow]
    rfl

/-- The segments of a path in a folder lead through the folder. -/
theorem follow_join (h : w.find dir = .ok (.folder es)) (hc : '/' ∉ name.toList) :
    ∃ front above, Path.segments (Path.join w.here.workingDirectory (Path.join dir name)) = front ++ [name] ∧
      w.root.follow [] (front ++ [name]) = (Node.folder es).follow above [name] := by
  obtain ⟨-, hne, hfollow⟩ := find_eq_ok_iff.1 h
  obtain ⟨front, hfront, hsegs⟩ := Path.segments_join (p := Path.join w.here.workingDirectory dir) hc
  have hlead : w.root.follow [] front = .ok (.folder es) := by
    rcases hfront with hfront | hfront
    · rwa [hfront] at hfollow
    · rw [hfront] at hfollow
      exact Node.follow_of_follow_concat_empty hfollow
  obtain ⟨above, hall⟩ := Node.follow_append_of_eq_ok hlead
  exact ⟨front, above, by rw [Path.join_join hne hc, hsegs], hall [name]⟩

/-- What is found at a name in a folder is what the folder holds under it, if the disk takes the name
and the path. -/
theorem find_join_eq_ok_iff (h : w.find dir = .ok (.folder es)) (hn : Node.IsName name) {m : Node} :
    w.find (Path.join dir name) = .ok m ↔
      checkPath (Path.join dir name) = .ok () ∧ name.utf8ByteSize ≤ Node.nameLimit ∧ es.lookup name = some m := by
  obtain ⟨front, above, hsegs, hlead⟩ := follow_join h hn.no_slash
  have hne : Path.join dir name ≠ "" := Path.join_ne_empty (ne_empty_of_find h) name
  have hnames : ∀ a ∈ [name], Node.IsName a := List.forall_mem_singleton.2 hn
  have hget : (Node.folder es).get? [name] = es.lookup name := by
    simp [Node.get?, Node.entries]
  rw [find_eq_ok_iff, hsegs, hlead, Node.follow_names_eq_ok_iff hnames, Node.Fit, List.forall_mem_singleton, hget,
    and_iff_right hne]

theorem find_join {m : Node} (hd : w.find dir = .ok (.folder es)) (hn : Node.IsName name)
    (h : w.find (Path.join dir name) = .ok m) : es.lookup name = some m :=
  ((find_join_eq_ok_iff hd hn).1 h).2.2

/-- A file is found in a folder under names only. -/
theorem isName_of_find_join (h : w.find dir = .ok (.folder es)) (hc : '/' ∉ name.toList) {content : ByteArray}
    (hf : w.find (Path.join dir name) = .ok (.file content)) : Node.IsName name := by
  by_contra hn
  obtain ⟨front, above, hsegs, -⟩ := follow_join h hc
  obtain ⟨-, -, hfollow⟩ := find_eq_ok_iff.1 hf
  rw [hsegs] at hfollow
  cases Node.isFolder_of_follow_concat (Node.eq_of_not_isName hc hn) (by simp) hfollow

end World
end ComponentUsage
