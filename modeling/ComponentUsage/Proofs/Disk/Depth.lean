import ComponentUsage.Disk.Visit
import Mathlib.Data.List.Basic
/-!
# How deep a walk goes

Each folder adds to the path of the one that holds it, and a path is only so long.
A walk is given a depth that no path reaches, so that a greater depth makes no
difference (`visits_of_limit_le`).
-/

namespace ComponentUsage

/-! ## Tidy trees -/

namespace Node

/-- A name that a disk can give. -/
structure IsName (name : String) : Prop where
  ne_empty : name ≠ ""
  ne_here : name ≠ "."
  ne_above : name ≠ ".."
  no_slash : '/' ∉ name.toList

instance (name : String) : Decidable (IsName name) :=
  decidable_of_iff (name ≠ "" ∧ name ≠ "." ∧ name ≠ ".." ∧ '/' ∉ name.toList)
    ⟨fun ⟨h, h', h'', hs⟩ => ⟨h, h', h'', hs⟩, fun ⟨h, h', h'', hs⟩ => ⟨h, h', h'', hs⟩⟩

theorem isName_concat {names : List String} {name : String} (hn : ∀ n ∈ names, IsName n) (h : IsName name) :
    ∀ n ∈ names ++ [name], IsName n :=
  List.forall_mem_append.2 ⟨hn, List.forall_mem_singleton.2 h⟩

theorem exists_folder_of_isFolder {n : Node} (h : n.isFolder = true) : ∃ es, n = .folder es := by
  cases n with
  | folder es => exact ⟨es, rfl⟩
  | file | dangling => cases h

mutual

/-- In all folders of a tree the names are ones that a disk can give, and distinct. -/
def Tidy : Node → Prop
  | .folder es => (es.map Prod.fst).Nodup ∧ TidyEntries es
  | _ => True

def TidyEntries : List (String × Node) → Prop
  | [] => True
  | (name, n) :: es => IsName name ∧ n.Tidy ∧ TidyEntries es

end

theorem TidyEntries.mem {es : List (String × Node)} (h : TidyEntries es) {e : String × Node}
    (he : e ∈ es) : IsName e.1 ∧ e.2.Tidy := by
  induction es with
  | nil => cases he
  | cons e' es ih =>
    obtain ⟨hn, ht, hes⟩ := h
    rcases List.mem_cons.1 he with rfl | he
    · exact ⟨hn, ht⟩
    · exact ih hes he

/-- What holds of a tree and of all that its folders hold, holds of what a path leads to. -/
theorem follow_induction {P : Node → Prop}
    (hP : ∀ es name child, P (.folder es) → es.lookup name = some child → P child)
    {segments : List String} {above : List Node} {n m : Node} (ha : ∀ a ∈ above, P a) (hn : P n)
    (h : n.follow above segments = .ok m) : P m := by
  -- `..` leads back to what was passed, of which it has to hold too
  fun_induction follow above n segments with
  | case1 above n =>
    obtain rfl : n = m := by simpa using h
    exact hn
  | case2 | case3 | case7 | case8 => cases h
  | case4 above segment segments es _ ih => exact ih ha hn h
  | case5 segments es _ ih => exact ih ha hn h
  | case6 segments es up rest _ ih =>
    exact ih (fun a hm => ha a (List.mem_cons_of_mem _ hm)) (ha up List.mem_cons_self) h
  | case9 above segment segments es _ _ _ child hc ih =>
    refine ih (fun a hm => ?_) (hP es segment child hn hc) h
    rcases List.mem_cons.1 hm with rfl | hm
    · exact hn
    · exact ha a hm

theorem tidy_child {es : List (String × Node)} {name : String} {child : Node} (ht : (folder es).Tidy)
    (hc : es.lookup name = some child) : IsName name ∧ child.Tidy :=
  ht.2.mem ((mem_iff_lookup ht.1 name child).2 hc)

/-- Whatever path is followed in a tidy tree, it leads to a tidy one. -/
theorem tidy_follow {segments : List String} {above : List Node} {n m : Node}
    (ha : ∀ a ∈ above, a.Tidy) (hn : n.Tidy) (h : n.follow above segments = .ok m) : m.Tidy :=
  follow_induction (fun _ _ _ ht hc => (tidy_child ht hc).2) ha hn h

/-- What a tidy tree holds is tidy, and under names only. -/
theorem tidy_get? {n m : Node} {names : List String} (ht : n.Tidy) (h : n.get? names = some m) :
    (∀ name ∈ names, IsName name) ∧ m.Tidy := by
  induction names generalizing n with
  | nil =>
    cases h
    exact ⟨by simp, ht⟩
  | cons name names ih =>
    obtain ⟨child, hc, hm⟩ := Option.bind_eq_some_iff.1 h
    cases n with
    | folder es =>
      obtain ⟨hname, hchild⟩ := tidy_child ht hc
      obtain ⟨hnames, hm⟩ := ih hchild hm
      exact ⟨List.forall_mem_cons.2 ⟨hname, hnames⟩, hm⟩
    | file | dangling => cases hc

end Node

/-! ## Folders on longer and longer paths -/

namespace World

variable {w : World} {p : String}

/-- What stands at a path is what its segments lead to. -/
theorem follow_of_find {n : Node} (h : w.find p = .ok n) :
    p.utf8ByteSize < Path.limit ∧
      w.root.follow [] (Path.segments (Path.join w.here.workingDirectory p)) = .ok n := by
  obtain ⟨_, hc, h⟩ := Fault.bind_eq_ok_iff.1 h
  have hl : p.utf8ByteSize < Path.limit := by
    unfold checkPath at hc
    split at hc
    · cases hc
    · split at hc
      · cases hc
      · omega
  refine ⟨hl, ?_⟩
  split at h
  · cases h
  · cases hf : w.root.follow [] (Path.segments (Path.join w.here.workingDirectory p)) with
    | error cause => simp [hf, Except.mapError] at h
    | ok m =>
      rw [hf] at h
      simpa [Except.mapError] using h

theorem tidy_find {n : Node} (ht : w.root.Tidy) (h : w.find p = .ok n) : n.Tidy :=
  Node.tidy_follow (by simp) ht (follow_of_find h).2

theorem isFolder_of_find {es : List (String × Node)} (h : w.find p = .ok (.folder es)) :
    w.isFolder p = true := by
  rw [isFolder, h]
  rfl

theorem find_of_isFolder (h : w.isFolder p = true) : ∃ es, w.find p = .ok (.folder es) := by
  unfold isFolder at h
  split at h
  · rename_i n hf
    obtain ⟨es, rfl⟩ := Node.exists_folder_of_isFolder h
    exact ⟨es, hf⟩
  · cases h

theorem length_of_isFolder (h : w.isFolder p = true) : p.utf8ByteSize < Path.limit := by
  obtain ⟨es, hf⟩ := find_of_isFolder h
  exact (follow_of_find hf).1

theorem find_of_read {content : ByteArray} (h : w.read p = .ok content) : w.find p = .ok (.file content) := by
  obtain ⟨-, -, h⟩ := Fault.bind_eq_ok_iff.1 h
  obtain ⟨n, hf, h⟩ := Fault.bind_eq_ok_iff.1 h
  cases n with
  | file content' =>
    cases h
    exact hf
  | folder | dangling => cases h

theorem find_of_readText {text : String} (h : w.readText p = .ok text) :
    ∃ content, w.find p = .ok (.file content) ∧ text = Text.ofBytes content := by
  rw [readText] at h
  cases hr : w.read p with
  | error fault =>
    rw [hr] at h
    cases h
  | ok content =>
    rw [hr] at h
    exact ⟨content, find_of_read hr, (Except.ok.inj h).symm⟩

theorem list_eq_ok {names : List String} (h : w.list p = .ok names) :
    ∃ es, w.find p = .ok (.folder es) ∧ names = (es.map Prod.fst).mergeSort fun a b => !(b < a) := by
  obtain ⟨-, -, h⟩ := Fault.bind_eq_ok_iff.1 h
  obtain ⟨n, hf, h⟩ := Fault.bind_eq_ok_iff.1 h
  cases n with
  | folder es => exact ⟨es, hf, (Except.ok.inj h).symm⟩
  | file | dangling => cases h

/-- A folder that holds its names in order is listed as it stands. -/
theorem list_of_sorted {names : List String} (ha : w.allow p = .ok ()) (hp : w.isFolder p = true)
    (hn : (w.find p).map (·.entries.map Prod.fst) = .ok names)
    (hs : names.Pairwise fun a b => ¬ b < a) : w.list p = .ok names := by
  unfold isFolder at hp
  unfold list
  rw [ha, Fault.ok_bind]
  cases hf : w.find p with
  | error fault => simp [hf] at hp
  | ok n =>
    rw [hf] at hp hn
    cases n with
    | folder es =>
      obtain rfl : es.map Prod.fst = names := by simpa [Except.map, Node.entries] using hn
      have hm : (es.map Prod.fst).mergeSort (fun a b => !(b < a)) = es.map Prod.fst :=
        List.mergeSort_of_pairwise (hs.imp fun h => by simpa using h)
      exact congrArg Except.ok hm
    | file | dangling => cases hp

theorem isName_of_list {names : List String} (ht : w.root.Tidy) (h : w.list p = .ok names) :
    ∀ name ∈ names, Node.IsName name := by
  obtain ⟨es, hf, rfl⟩ := list_eq_ok h
  intro name hm
  rw [List.mem_mergeSort] at hm
  obtain ⟨e, he, rfl⟩ := List.mem_map.1 hm
  exact ((tidy_find ht hf).2.mem he).1

end World

theorem Path.isAbsolute_of_no_slash {name : String} (h : '/' ∉ name.toList) : isAbsolute name = false := by
  rw [isAbsolute, beq_eq_false_iff_ne]
  exact fun hh => h (List.mem_of_mem_head? hh)

theorem Path.length_lt_join {p name : String} (h : Node.IsName name) :
    p.utf8ByteSize < (join p name).utf8ByteSize := by
  have hn : name.utf8ByteSize ≠ 0 := fun h0 => h.ne_empty (String.utf8ByteSize_eq_zero_iff.1 h0)
  rw [join, isAbsolute_of_no_slash h.no_slash]
  simp only [Bool.false_eq_true, ite_false]
  split <;> simp only [String.utf8ByteSize_append] <;> omega

namespace World

variable {w : World}

/-- Below a path a walk comes to no greater depth than there are bytes left for
longer paths. -/
theorem visits_eq (ht : w.root.Tidy) (depth depth' : Nat) (path : String)
    (h : Path.limit - path.utf8ByteSize < depth) (h' : Path.limit - path.utf8ByteSize < depth') :
    w.visits depth path = w.visits depth' path := by
  induction depth generalizing depth' path with
  | zero => omega
  | succ depth ih =>
    obtain _ | depth' := depth'
    · omega
    rw [visits, visits]
    cases hl : w.list path with
    | error fault => rfl
    | ok names =>
      have hs : ∀ name ∈ names,
          w.visitsAt (w.visits depth) path name = w.visitsAt (w.visits depth') path name := by
        intro name hm
        rw [visitsAt, visitsAt]
        split
        -- one level less, but also a byte less for longer paths
        · rename_i hf
          have hlong := Path.length_lt_join (p := path) (isName_of_list ht hl name hm)
          have hshort := length_of_isFolder hf
          exact ih depth' (Path.join path name) (by omega) (by omega)
        · rfl
      dsimp only
      rw [List.flatMap_congr hs]

end World

theorem Path.normalize_ne_empty (p : String) : normalize p ≠ "" := by
  unfold normalize
  dsimp only
  split
  · decide
  · assumption

/-- A walk that may go as deep as a path may be long is not cut short. -/
theorem World.visits_of_limit_le {w : World} (ht : w.root.Tidy) (dir : String) (depth : Nat)
    (h : Path.limit ≤ depth) :
    w.visits depth (w.here.absolute dir) = w.visits Path.limit (w.here.absolute dir) := by
  have hp : (w.here.absolute dir).utf8ByteSize ≠ 0 := fun h0 =>
    Path.normalize_ne_empty _ (String.utf8ByteSize_eq_zero_iff.1 h0)
  have hl : 0 < Path.limit := by decide
  exact visits_eq ht _ _ _ (by omega) (by omega)

end ComponentUsage
