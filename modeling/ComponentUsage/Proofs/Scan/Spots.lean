import ComponentUsage.Proofs.Disk.Listing
import Mathlib.Data.List.Lex
/-!
# Where a walk comes to

What lies below a folder lies at spots, each of them a list of names. A walk comes to
its spots in the order of their names (`pairwise_spots`), and to every one that there is
unless it ends at a folder above it (`mem_spots_or`).
-/

namespace ComponentUsage

/-- The path of a spot below a directory. -/
def Path.below (dir : String) (spot : List String) : String := spot.foldl join dir

@[simp] theorem Path.below_nil (dir : String) : below dir [] = dir := rfl

@[simp] theorem Path.below_cons (dir name : String) (spot : List String) :
    below dir (name :: spot) = below (join dir name) spot := rfl

/-- The order of spots by the first names in which they differ. A folder comes before
what is in it. -/
def Precedes : List String → List String → Prop := List.Lex (· < ·)

instance : DecidableRel Precedes := inferInstanceAs (DecidableRel (List.Lex (· < ·)))

namespace Precedes

instance : Std.Asymm Precedes := inferInstanceAs (Std.Asymm (List.Lex (· < ·)))

theorem of_front {s s' : List String} (h : s <+: s') (hne : s ≠ s') : Precedes s s' := by
  obtain ⟨rest, rfl⟩ := h
  obtain ⟨name, rest, rfl⟩ := List.exists_cons_of_ne_nil (l := rest) (by rintro rfl; simp at hne)
  have h : List.Lex (· < ·) (s ++ []) (s ++ name :: rest) := .append_left _ .nil s
  rwa [List.append_nil] at h

theorem trans_front {s s' s'' : List String} (h : Precedes s s') (hp : s' <+: s'') : Precedes s s'' := by
  obtain ⟨rest, rfl⟩ := hp
  exact List.Lex.append_right _ _ h

end Precedes

namespace World

/-- What the disk has at a path, and below it in the folders on the way. -/
inductive Below (w : World) : String → List String → Prop
  | here (path : String) : Below w path []
  | inside {path name : String} {spot : List String} {es : List (String × Node)} :
      w.find path = .ok (.folder es) → name ∈ es.map Prod.fst → Below w (Path.join path name) spot →
      Below w path (name :: spot)

/-- The spots at and below a name in a folder: those `below` it, if it is a folder. -/
def spotsAt (w : World) (below : String → List (List String)) (path name : String) : List (List String) :=
  let full := Path.join path name
  if w.isFolder full then below full else [[]]

/-- The spots that a walk through the folder at a path comes to, down to a depth. -/
def spots (w : World) : Nat → String → List (List String)
  | 0, _ => []
  | depth + 1, path =>
    [] ::
      match w.list path with
      | .error _ => []
      | .ok names => names.flatMap fun name => (w.spotsAt (w.spots depth) path name).map (name :: ·)

/-- The step of a walk at a spot. -/
def visitAt (w : World) (path : String) (spot : List String) : Visit :=
  let full := Path.below path spot
  if w.isFolder full then .folder full else .entry full (spot.getLastD "")

variable {w : World} {path name : String} {spot : List String}

/-! ## The steps of a walk and its spots -/

theorem visitAt_cons_of_isFolder (h : w.isFolder (Path.join path name) = true) :
    w.visitAt path (name :: spot) = w.visitAt (Path.join path name) spot := by
  cases spot with
  | nil => simp only [visitAt, Path.below_cons, Path.below_nil, h, if_true]
  | cons a spot => rfl

/-- A walk is one step at each of its spots. -/
theorem visits_eq_map (depth : Nat) (h : w.isFolder path = true) :
    w.visits depth path = (w.spots depth path).map (w.visitAt path) := by
  induction depth generalizing path with
  | zero => rfl
  | succ depth ih =>
    rw [visits, spots, List.map_cons]
    congr 1
    · simp only [visitAt, Path.below_nil, h, if_true]
    · cases w.list path with
      | error fault => rfl
      | ok names =>
        dsimp only
        rw [List.map_flatMap]
        refine List.flatMap_congr fun name _ => ?_
        rw [visitsAt, spotsAt, List.map_map]
        split
        · rename_i hf
          rw [ih hf]
          exact List.map_congr_left fun spot _ => (visitAt_cons_of_isFolder hf).symm
        · rename_i hf
          simp [visitAt, hf]

/-- A walk through a folder that holds no folders. -/
theorem visits_of_files {names : List String} (hl : w.list path = .ok names)
    (hf : ∀ name ∈ names, w.isFolder (Path.join path name) = false) (depth : Nat) :
    w.visits (depth + 1) path = .folder path :: names.map fun name => .entry (Path.join path name) name := by
  rw [visits, hl]
  refine congrArg (Visit.folder path :: ·) ?_
  rw [List.map_eq_flatMap]
  exact List.flatMap_congr fun name hn => by simp [visitsAt, hf name hn]

/-! ## Which spots there are -/

theorem Below.eq_nil (h : w.Below path spot) (hf : w.isFolder path = false) : spot = [] := by
  cases h with
  | here => rfl
  | inside hp => simp [isFolder_of_find hp] at hf

theorem below_of_mem_spots {depth : Nat} (h : spot ∈ w.spots depth path) : w.Below path spot := by
  induction depth generalizing path spot with
  | zero => cases h
  | succ depth ih =>
    rw [spots, List.mem_cons] at h
    rcases h with rfl | h
    · exact .here _
    · cases hl : w.list path with
      | error fault => simp [hl] at h
      | ok names =>
        rw [hl] at h
        obtain ⟨name, hname, h⟩ := List.mem_flatMap.1 h
        obtain ⟨spot, hspot, rfl⟩ := List.mem_map.1 h
        obtain ⟨es, hf, rfl⟩ := list_eq_ok hl
        refine .inside hf (List.mem_mergeSort.1 hname) ?_
        unfold spotsAt at hspot
        dsimp only at hspot
        split at hspot
        · exact ih hspot
        · rw [List.mem_singleton] at hspot
          exact hspot ▸ .here _

/-- A walk that may go deep enough comes to a spot, or it comes to a folder on the way
there that it cannot list. -/
theorem mem_spots_or (ht : w.root.Tidy) (h : w.Below path spot) (depth : Nat)
    (hd : Path.limit - path.utf8ByteSize < depth) :
    spot ∈ w.spots depth path ∨
      ∃ s ∈ w.spots depth path, s <+: spot ∧ s ≠ spot ∧ w.isFolder (Path.below path s) = true ∧
        ∃ fault, w.list (Path.below path s) = .error fault := by
  induction h generalizing depth with
  | here path =>
    obtain _ | depth := depth
    · omega
    · exact .inl List.mem_cons_self
  | @inside path name spot es hp hname hb ih =>
    obtain _ | depth := depth
    · omega
    cases hl : w.list path with
    | error fault =>
      exact .inr ⟨[], List.mem_cons_self, List.nil_prefix, by simp, isFolder_of_find hp, fault, hl⟩
    | ok names =>
      have hn : name ∈ names := by
        obtain ⟨es', hp', rfl⟩ := list_eq_ok hl
        cases hp.symm.trans hp'
        exact List.mem_mergeSort.2 hname
      -- what is found at the name is found here with the name in front
      have hmem : ∀ s, s ∈ w.spotsAt (w.spots depth) path name → name :: s ∈ w.spots (depth + 1) path := by
        intro s hs
        rw [spots, hl]
        exact List.mem_cons_of_mem _ (List.mem_flatMap.2 ⟨name, hn, List.mem_map.2 ⟨s, hs, rfl⟩⟩)
      by_cases hf : w.isFolder (Path.join path name) = true
      · have hlong := Path.length_lt_join (p := path) (isName_of_list ht hl name hn)
        have hshort := length_of_isFolder hf
        have hat : w.spotsAt (w.spots depth) path name = w.spots depth (Path.join path name) := if_pos hf
        rw [hat] at hmem
        rcases ih depth (by omega) with hs | ⟨s, hs, hpre, hne, hstop⟩
        · exact .inl (hmem _ hs)
        · refine .inr ⟨name :: s, hmem _ hs, ?_, ?_, hstop⟩
          · exact List.cons_prefix_cons.2 ⟨rfl, hpre⟩
          · simpa using hne
      · obtain rfl := hb.eq_nil (by simpa using hf)
        exact .inl (hmem [] (by simp [spotsAt, hf]))

/-! ## Their order -/

/-- A walk comes to each of its spots once, in their order. -/
theorem pairwise_spots (ht : w.root.Tidy) (depth : Nat) (path : String) :
    (w.spots depth path).Pairwise Precedes := by
  induction depth generalizing path with
  | zero => exact .nil
  | succ depth ih =>
    rw [spots]
    cases hl : w.list path with
    | error fault => exact List.pairwise_singleton _ _
    | ok names =>
      refine .cons (fun spot hs => ?_) (List.pairwise_flatMap.2 ⟨fun name _ => ?_, ?_⟩)
      · obtain ⟨name, -, hs⟩ := List.mem_flatMap.1 hs
        obtain ⟨spot, -, rfl⟩ := List.mem_map.1 hs
        exact .nil
      -- below one name the order is that of what follows the name
      · refine List.pairwise_map.2 (List.Pairwise.imp (fun h => .cons h) ?_)
        unfold spotsAt
        dsimp only
        split
        · exact ih _
        · exact List.pairwise_singleton _ _
      -- and what is below a smaller name comes before
      · refine (sorted_of_list ht hl).imp fun hlt spot hs spot' hs' => ?_
        obtain ⟨s, -, rfl⟩ := List.mem_map.1 hs
        obtain ⟨s', -, rfl⟩ := List.mem_map.1 hs'
        exact .rel hlt

end World
end ComponentUsage
