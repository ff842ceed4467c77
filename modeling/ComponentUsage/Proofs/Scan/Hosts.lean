import ComponentUsage.Proofs.Disk.Names
import ComponentUsage.Proofs.Path.Shown
import ComponentUsage.Proofs.Scan.Order
/-!
# Projects in directories

A project is a tree that lies in a directory of a disk. Where the disk lets all of it be read,
what a walk and a reader meet there is what stands in the tree (`spots_eq`, `Hosts.readText`,
`Hosts.isFile_iff`), wherever the directory is.
-/

namespace ComponentUsage

/-! ## Paths below a directory -/

theorem Path.below_append (dir : String) (spot rest : List String) :
    below dir (spot ++ rest) = below (below dir spot) rest :=
  List.foldl_append

theorem Path.below_pathOf {slashes : String} {ns spot : List String} (hs : slashes = "/" ∨ slashes = "//")
    (hn : ∀ n ∈ ns ++ spot, Node.IsName n) :
    below (World.pathOf slashes ns) spot = World.pathOf slashes (ns ++ spot) := by
  induction spot generalizing ns with
  | nil => rw [below_nil, List.append_nil]
  | cons name spot ih =>
    have hname : ∀ n ∈ ns ++ [name] ++ spot, Node.IsName n := by simpa using hn
    rw [below_cons, join_pathOf hs (fun n hm => hn n (by simp [hm])) (hn name (by simp)), ih hname]
    simp

/-- Names after an absolute path come after the names that it has in normal form. -/
theorem Place.absolute_below (here : Place) {dir : String} {spot : List String} (ha : Path.isAbsolute dir = true)
    (hn : ∀ n ∈ spot, Node.IsName n) : here.absolute (Path.below dir spot) =
      World.pathOf (Path.leadingSlashes dir) (Path.names (here.absolute dir) ++ spot) := by
  have hs := Path.leadingSlashes_of_isAbsolute ha
  induction spot generalizing dir with
  | nil =>
    rw [Path.below_nil, List.append_nil, ← here.absolute_eq ha]
  | cons name spot ih =>
    have hname : Node.IsName name := hn name List.mem_cons_self
    have hc := hname.no_slash
    have hnames := Node.isName_concat (here.isName_of_mem_names ha) hname
    rw [Path.below_cons, ih (Path.isAbsolute_join ha name) (fun n hm => hn n (List.mem_cons_of_mem _ hm))
      (Path.leadingSlashes_join ha hc ▸ hs), Path.leadingSlashes_join ha hc, absolute_join ha hc,
      Path.step_of_isName hname, List.reverse_cons, List.reverse_reverse, Path.names_pathOf hs hnames]
    simp

theorem Node.mem_filesOf {es : List (String × Node)} {e : String × Node} {f : List String × ByteArray}
    (he : e ∈ es) (hf : f ∈ e.2.files) : (e.1 :: f.1, f.2) ∈ filesOf es := by
  induction es with
  | nil => cases he
  | cons e' es ih =>
    obtain ⟨name, n⟩ := e'
    rw [filesOf, List.mem_append]
    rcases List.mem_cons.1 he with rfl | he
    · exact .inl (List.mem_map.2 ⟨f, hf, rfl⟩)
    · exact .inr (ih he)

/-- A file that stands at some names is among the files of the tree. -/
theorem Node.mem_files {top : Node} {spot : List String} {content : ByteArray}
    (h : top.get? spot = some (.file content)) : (spot, content) ∈ top.files := by
  induction spot generalizing top with
  | nil =>
    cases h
    exact List.mem_singleton_self _
  | cons name spot ih =>
    obtain ⟨child, hc, hchild⟩ := Option.bind_eq_some_iff.1 h
    cases top with
    | file | dangling => cases hc
    | folder es =>
      obtain ⟨before, after, rfl, -⟩ := List.lookup_eq_some_iff.1 hc
      exact mem_filesOf (e := (name, child)) (by simp) (ih hchild)

namespace World

variable {w w' : World} {suffix dir dir' slashes : String} {ns spot : List String} {top n : Node}

/-- Two trees that are the same are walked through in the same way, wherever they lie. -/
theorem spots_eq {es es' : List (String × Node)} (ht : w.root.Tidy) (ht' : w'.root.Tidy)
    (hd : w.find dir = .ok (.folder es)) (hd' : w'.find dir' = .ok (.folder es'))
    (hr : w.ReadableTree suffix dir (.folder es)) (hr' : w'.ReadableTree suffix dir' (.folder es'))
    (h : (Node.folder es).Same (.folder es')) (depth : Nat) : w'.spots depth dir' = w.spots depth dir := by
  induction depth generalizing dir dir' es es' with
  | zero => rfl
  | succ depth ih =>
    obtain ⟨names, hl⟩ := hr.folders [] es rfl
    obtain ⟨names', hl'⟩ := hr'.folders [] es' rfl
    rw [Path.below_nil] at hl hl'
    obtain rfl : names' = names := by
      obtain ⟨es₁, hf, rfl⟩ := list_eq_ok hl
      obtain ⟨es₁', hf', rfl⟩ := list_eq_ok hl'
      cases hd.symm.trans hf
      cases hd'.symm.trans hf'
      exact sorted_of_perm (h.names (tidy_find ht hd) (tidy_find ht' hd'))
    rw [spots, spots, hl, hl']
    dsimp only
    congr 1
    refine List.flatMap_congr fun name hm => congrArg (List.map (name :: ·)) ?_
    -- what stands under the name is the same, and a folder in both or in neither
    have hname := isName_of_list ht hl name hm
    obtain ⟨m, hc⟩ : ∃ m, es.lookup name = some m := by
      obtain ⟨es₁, hf, rfl⟩ := list_eq_ok hl
      cases hd.symm.trans hf
      exact Option.isSome_iff_exists.1 (Node.mem_names_iff.1 (List.mem_mergeSort.1 hm))
    have hget : (Node.folder es).get? [name] = some m := by simp [Node.get?, Node.entries, hc]
    obtain ⟨m', hget', hsame⟩ := h.get? hget
    have hc' : es'.lookup name = some m' := by simpa [Node.get?, Node.entries] using hget'
    have hkind := (hr.below_of_get? ht hd hget).2
    have hkind' := (hr'.below_of_get? ht' hd' hget').2
    rw [Path.below_cons, Path.below_nil] at hkind hkind'
    rw [spotsAt, spotsAt, hkind, hkind', hsame.isFolder]
    split
    · rename_i hf
      obtain ⟨sub, rfl⟩ := Node.exists_folder_of_isFolder hf
      obtain ⟨sub', rfl⟩ := Node.exists_folder_of_shape hsame.shape.symm
      exact ih (hr.find_child hd hname hc) (hr'.find_child hd' hname hc') (hr.child hc) (hr'.child hc') hsame
    · rfl

/-- A project lies in a directory and can be read: all of its folders can be listed, and all of
its files read. -/
structure Hosts (w : World) (suffix dir : String) (top : Node) : Prop extends w.ReadableTree suffix dir top where
  tidy : w.root.Tidy
  find : w.find dir = .ok top
  texts : ∀ spot content, top.get? spot = some (.file content) →
    ∃ text, w.readText (Path.below dir spot) = .ok text

namespace Hosts

section

variable (hs : slashes = "/" ∨ slashes = "//") (hn : ∀ n ∈ ns ++ spot, Node.IsName n)
  (h : w.Hosts suffix (pathOf slashes ns) top)

include hs hn h

/-- What is found in the directory stands in the tree. -/
theorem get?_of_find (hf : w.find (pathOf slashes (ns ++ spot)) = .ok n) : top.get? spot = some n := by
  have hns : ∀ n ∈ ns, Node.IsName n := fun n hm => hn n (List.mem_append_left _ hm)
  obtain ⟨-, -, -, htop⟩ := (find_pathOf_eq_ok_iff hs hns).1 h.find
  obtain ⟨-, -, -, hget⟩ := (find_pathOf_eq_ok_iff hs hn).1 hf
  rwa [Node.get?_append, htop] at hget

/-- A file of the tree reads as what it holds. -/
theorem readText {content : ByteArray} (hg : top.get? spot = some (.file content)) :
    w.readText (pathOf slashes (ns ++ spot)) = .ok (Text.ofBytes content) := by
  obtain ⟨text, ht⟩ := h.texts spot content hg
  rw [Path.below_pathOf hs hn] at ht
  obtain ⟨content', hf, rfl⟩ := find_of_readText ht
  cases hg.symm.trans (get?_of_find hs hn h hf)
  exact ht

theorem isFile_iff :
    w.isFile (pathOf slashes (ns ++ spot)) = true ↔ ∃ content, top.get? spot = some (.file content) := by
  constructor
  · intro hfile
    unfold World.isFile at hfile
    split at hfile
    · rename_i n hf
      cases n with
      | file content => exact ⟨content, get?_of_find hs hn h hf⟩
      | folder | dangling => cases hfile
    · cases hfile
  · rintro ⟨content, hg⟩
    obtain ⟨content', hf, -⟩ := find_of_readText (h.readText hs hn hg)
    rw [World.isFile, hf]
    rfl

/-- A folder of the project is a project of its own. -/
theorem within {es : List (String × Node)} (hg : top.get? spot = some (.folder es)) :
    w.Hosts suffix (pathOf slashes (ns ++ spot)) (.folder es) := by
  have hbelow : ∀ rest, Path.below (pathOf slashes ns) (spot ++ rest) =
      Path.below (pathOf slashes (ns ++ spot)) rest := fun rest => by
    rw [Path.below_append, Path.below_pathOf hs hn]
  have hget : ∀ rest, top.get? (spot ++ rest) = (Node.folder es).get? rest := fun rest => by
    rw [Node.get?_append, hg]
    rfl
  constructor
  · constructor
    · intro rest es' hrest
      rw [← hbelow]
      exact h.folders (spot ++ rest) es' ((hget rest).trans hrest)
    · rintro rest ⟨m, last, hrest, hm, hlast, hsuffix⟩
      rw [← hbelow]
      refine h.files (spot ++ rest) ⟨m, last, (hget rest).trans hrest, hm, ?_, hsuffix⟩
      rw [List.getLast?_append, hlast]
      rfl
  · exact h.tidy
  · obtain ⟨names, hl⟩ := h.folders spot es hg
    obtain ⟨es', hf, -⟩ := list_eq_ok hl
    rw [Path.below_pathOf hs hn] at hf
    cases hg.symm.trans (get?_of_find hs hn h hf)
    exact hf
  · intro rest content hrest
    rw [← hbelow]
    exact h.texts (spot ++ rest) content ((hget rest).trans hrest)

end

end Hosts
end World
end ComponentUsage
