import ComponentUsage.Proofs.Disk.Saving
import ComponentUsage.Proofs.Path.Parts
/-!
# What stands at a path of names

A path of names leads to what stands at them (`find_pathOf_eq_ok_iff`), and a path that ends in
something else than a name leads to no file (`isFile_join_of_not_name`).
-/

namespace ComponentUsage

namespace Node

/-- Names of which a disk takes each. -/
def Fit (names : List String) : Prop := ∀ name ∈ names, name.utf8ByteSize ≤ nameLimit

variable {names : List String} {n m : Node} {above : List Node}

theorem follow_name_cons {name : String} (hn : IsName name) (es : List (String × Node)) :
    (folder es).follow above (name :: names) =
      if nameLimit < name.utf8ByteSize then .error .nameTooLong
      else
        match es.lookup name with
        | none => .error .missing
        | some child => child.follow (folder es :: above) names := by
  cases hl : es.lookup name <;>
    simp only [follow, hn.ne_empty, hn.ne_here, hn.ne_above, decide_false, Bool.or_self, Bool.false_eq_true,
      if_false, hl]

/-- Names lead to what stands at them, if a disk takes them. -/
theorem follow_names_eq_ok_iff (hn : ∀ name ∈ names, IsName name) :
    n.follow above names = .ok m ↔ Fit names ∧ n.get? names = some m := by
  induction names generalizing n above with
  | nil => simp [follow, Fit, get?]
  | cons name names ih =>
    cases n with
    | file | dangling => simp [follow, get?, entries]
    | folder es =>
      rw [follow_name_cons (hn name List.mem_cons_self), get?, entries]
      rw [Fit, List.forall_mem_cons]
      split
      · rename_i hlong
        simp [Nat.not_le.2 hlong]
      · rename_i hfit
        cases es.lookup name with
        | none => simp
        | some child =>
          dsimp only
          rw [ih fun name hm => hn name (List.mem_cons_of_mem _ hm), Option.bind_some, Fit, and_assoc]
          exact ⟨fun h => ⟨Nat.not_lt.1 hfit, h⟩, fun h => h.2⟩

theorem follow_empty_cons (es : List (String × Node)) (segments : List String) :
    (folder es).follow above ("" :: segments) = (folder es).follow above segments := by
  simp only [follow, decide_true, Bool.true_or, if_true]

theorem eq_of_not_isName {segment : String} (hc : '/' ∉ segment.toList) (hn : ¬ IsName segment) :
    segment = "" ∨ segment = "." ∨ segment = ".." := by
  by_contra hne
  simp only [not_or] at hne
  exact hn ⟨hne.1, hne.2.1, hne.2.2, hc⟩

/-- What a path ends in that leads nowhere, here or back is a folder. -/
theorem isFolder_of_follow_concat {last : String} (hl : last = "" ∨ last = "." ∨ last = "..")
    {segments : List String} (ha : ∀ a ∈ above, a.isFolder = true)
    (h : n.follow above (segments ++ [last]) = .ok m) : m.isFolder = true := by
  induction segments generalizing n above with
  | nil =>
    cases n with
    | file | dangling => cases h
    | folder es =>
      rcases hl with rfl | rfl | rfl
      · cases h
        rfl
      · cases h
        rfl
      · cases above with
        | nil =>
          cases h
          rfl
        | cons up rest =>
          cases h
          exact ha _ List.mem_cons_self
  | cons segment segments ih =>
    cases n with
    | file | dangling => cases h
    | folder es =>
      simp only [List.cons_append, follow] at h
      split at h
      · exact ih ha h
      · split at h
        · split at h
          · exact ih (by simp) h
          · exact ih (fun a hm => ha a (List.mem_cons_of_mem _ hm)) h
        · split at h
          · cases h
          · split at h
            · cases h
            · refine ih (fun a hm => ?_) h
              rcases List.mem_cons.1 hm with rfl | hm
              · rfl
              · exact ha a hm

theorem isFolder_of_get?_ne_nil (hne : names ≠ []) (h : n.get? names = some m) : n.isFolder = true := by
  obtain ⟨name, names, rfl⟩ := List.exists_cons_of_ne_nil hne
  cases n with
  | folder es => rfl
  | file | dangling => cases h

theorem isFolder_of_get? {es : List (String × Node)} (h : n.get? names = some (.folder es)) :
    n.isFolder = true := by
  obtain rfl | hne := eq_or_ne names []
  · cases h
    rfl
  · exact isFolder_of_get?_ne_nil hne h

theorem get?_of_look_folder (h : n.look names = some .folder) : ∃ es, n.get? names = some (.folder es) := by
  obtain ⟨m, hm, hs⟩ := Option.map_eq_some_iff.1 h
  obtain ⟨es, rfl⟩ := exists_folder_of_shape hs
  exact ⟨es, hm⟩

theorem get?_of_look_file {content : ByteArray} (h : n.look names = some (.file content)) :
    n.get? names = some (.file content) := by
  obtain ⟨m, hm, hs⟩ := Option.map_eq_some_iff.1 h
  cases m with
  | file content' => rw [hm, Shape.file.inj hs]
  | folder | dangling => cases hs

/-- Above what stands somewhere there are folders. -/
theorem get?_above {spot : List String} (h : n.get? spot = some m) (hp : names <+: spot) (hne : names ≠ spot) :
    ∃ es, n.get? names = some (.folder es) := by
  obtain ⟨rest, rfl⟩ := hp
  by_contra hno
  push Not at hno
  rw [get?_below (fun hr => hne (by rw [hr, List.append_nil])) hno] at h
  cases h

theorem look_above (q rest : List String) (hr : rest ≠ []) (h : n.look (q ++ rest) ≠ none) :
    n.look q = some .folder := by
  obtain ⟨shape, hshape⟩ := Option.ne_none_iff_exists'.1 h
  obtain ⟨m, hm, -⟩ := Option.map_eq_some_iff.1 hshape
  obtain ⟨es, hq⟩ := get?_above hm (List.prefix_append q rest) (by simpa using hr)
  rw [look, hq]
  rfl

end Node

namespace World

variable {w w' : World} {slashes : String} {ns : List String}

/-! ## Paths of names -/

theorem follow_segments_pathOf (hs : slashes = "/" ∨ slashes = "//") (hn : ∀ n ∈ ns, Node.IsName n)
    (es : List (String × Node)) :
    (Node.folder es).follow [] (Path.segments (pathOf slashes ns)) = (Node.folder es).follow [] ns := by
  obtain ⟨front, hfront, -, hsegs⟩ := Path.segments_pathOf hs hn
  have hskip : ∀ segments, (Node.folder es).follow [] (front ++ segments) = (Node.folder es).follow [] segments := by
    clear hsegs
    induction front with
    | nil => exact fun _ => rfl
    | cons segment front ih =>
      intro segments
      obtain rfl := hfront segment List.mem_cons_self
      rw [List.cons_append, Node.follow_empty_cons, ih fun s hm => hfront s (List.mem_cons_of_mem _ hm)]
  rw [hsegs, hskip]
  split
  · rename_i hnil
    rw [hnil, Node.follow_empty_cons]
  · rfl

theorem find_pathOf (hs : slashes = "/" ∨ slashes = "//") (hn : ∀ n ∈ ns, Node.IsName n)
    (hr : w.root.isFolder = true) :
    w.find (pathOf slashes ns) = (do
      checkPath (pathOf slashes ns)
      (w.root.follow [] ns).mapError (.disk · (pathOf slashes ns))) := by
  have hne := Path.pathOf_ne_empty hs ns
  unfold find
  rw [Path.join, if_pos (Path.isAbsolute_pathOf hs ns)]
  simp only [hne, if_false]
  cases hroot : w.root with
  | file | dangling => simp [hroot, Node.isFolder] at hr
  | folder es => rw [follow_segments_pathOf hs hn]

theorem isFolder_root_of_find (hs : slashes = "/" ∨ slashes = "//") (hn : ∀ n ∈ ns, Node.IsName n) {m : Node}
    (h : w.find (pathOf slashes ns) = .ok m) : w.root.isFolder = true := by
  obtain ⟨front, hfront, hne, hsegs⟩ := Path.segments_pathOf hs hn
  obtain ⟨segment, front, rfl⟩ := List.exists_cons_of_ne_nil hne
  have hfollow := (follow_of_find h).2
  rw [Path.join, if_pos (Path.isAbsolute_pathOf hs ns), hsegs] at hfollow
  cases hroot : w.root with
  | folder es => rfl
  | file | dangling =>
    rw [hroot] at hfollow
    cases hfollow

/-- What is found at a path of names is what stands at them, if the disk takes the path and each
of the names. -/
theorem find_pathOf_eq_ok_iff (hs : slashes = "/" ∨ slashes = "//") (hn : ∀ n ∈ ns, Node.IsName n) {m : Node} :
    w.find (pathOf slashes ns) = .ok m ↔
      checkPath (pathOf slashes ns) = .ok () ∧ Node.Fit ns ∧ w.root.isFolder = true ∧
        w.root.get? ns = some m := by
  by_cases hr : w.root.isFolder = true
  · have hmap : (w.root.follow [] ns).mapError (Fault.disk · (pathOf slashes ns)) = .ok m ↔
        w.root.follow [] ns = .ok m := by
      cases w.root.follow [] ns <;> simp [Except.mapError]
    rw [find_pathOf hs hn hr, Fault.bind_eq_ok_iff]
    constructor
    · rintro ⟨⟨⟩, hc, h⟩
      obtain ⟨hfit, hget⟩ := (Node.follow_names_eq_ok_iff hn).1 (hmap.1 h)
      exact ⟨hc, hfit, hr, hget⟩
    · rintro ⟨hc, hfit, -, hget⟩
      exact ⟨(), hc, hmap.2 ((Node.follow_names_eq_ok_iff hn).2 ⟨hfit, hget⟩)⟩
  · exact ⟨fun h => absurd (isFolder_root_of_find hs hn h) hr, fun h => absurd h.2.2.1 hr⟩

theorem isFolder_pathOf_iff (hs : slashes = "/" ∨ slashes = "//") (hn : ∀ n ∈ ns, Node.IsName n) :
    w.isFolder (pathOf slashes ns) = true ↔
      checkPath (pathOf slashes ns) = .ok () ∧ Node.Fit ns ∧ w.look ns = some .folder := by
  constructor
  · intro h
    obtain ⟨es, hf⟩ := find_of_isFolder h
    obtain ⟨hc, hfit, -, hget⟩ := (find_pathOf_eq_ok_iff hs hn).1 hf
    exact ⟨hc, hfit, by rw [look, Node.look, hget]; rfl⟩
  · rintro ⟨hc, hfit, hl⟩
    obtain ⟨es, hget⟩ := Node.get?_of_look_folder hl
    exact isFolder_of_find ((find_pathOf_eq_ok_iff hs hn).2 ⟨hc, hfit, Node.isFolder_of_get? hget, hget⟩)

theorem isFile_iff_find {p : String} : w.isFile p = true ↔ ∃ content, w.find p = .ok (.file content) := by
  unfold isFile
  cases w.find p with
  | error fault => simp
  | ok n => cases n <;> simp [Node.isFile]

theorem isFile_pathOf_iff (hs : slashes = "/" ∨ slashes = "//") (hn : ∀ n ∈ ns, Node.IsName n) :
    w.isFile (pathOf slashes ns) = true ↔
      checkPath (pathOf slashes ns) = .ok () ∧ Node.Fit ns ∧ ns ≠ [] ∧ ∃ content, w.look ns = some (.file content) := by
  have hlook : ∀ content, w.look ns = some (.file content) ↔ w.root.get? ns = some (.file content) := by
    intro content
    rw [look, Node.look]
    cases w.root.get? ns with
    | none => simp
    | some n => cases n <;> simp [Node.shape]
  simp only [isFile_iff_find, find_pathOf_eq_ok_iff hs hn, hlook]
  constructor
  · rintro ⟨content, hc, hfit, hr, hget⟩
    refine ⟨hc, hfit, ?_, content, hget⟩
    rintro rfl
    rw [Node.get?, Option.some.injEq] at hget
    rw [hget] at hr
    cases hr
  · rintro ⟨hc, hfit, hne, content, hget⟩
    exact ⟨content, hc, hfit, Node.isFolder_of_get?_ne_nil hne hget, hget⟩

/-- A path that ends in a segment that is no name leads to no file. -/
theorem isFile_join_of_not_name (hs : slashes = "/" ∨ slashes = "//") {segment : String}
    (hc : '/' ∉ segment.toList) (hn : ¬ Node.IsName segment) (w : World) (ns : List String) :
    w.isFile (Path.join (pathOf slashes ns) segment) = false := by
  obtain ⟨front, -, hsegs⟩ := Path.segments_join (p := pathOf slashes ns) hc
  unfold World.isFile
  split
  · rename_i n hf
    have hfollow := (follow_of_find hf).2
    have habs := Path.isAbsolute_join (Path.isAbsolute_pathOf hs ns) segment
    rw [Path.join, if_pos habs, hsegs] at hfollow
    have hfolder := Node.isFolder_of_follow_concat (Node.eq_of_not_isName hc hn) (by simp) hfollow
    cases n <;> simp_all [Node.isFolder, Node.isFile]
  · rfl

end World
end ComponentUsage
