import ComponentUsage.Proofs.Disk.Saving
import ComponentUsage.Proofs.Path.Normal
/-!
# What a folder holds

A folder is listed by name. In which order the folders of a tree hold their entries makes no
difference to anyone who reads it (`reads_shuffled`).
-/

namespace ComponentUsage

/-! ## Names in order -/

theorem pairwise_sorted (names : List String) :
    (names.mergeSort fun a b => !(b < a)).Pairwise (· ≤ ·) := by
  have hle : ∀ a b : String, (!decide (b < a)) = true ↔ a ≤ b := fun a b => by
    rw [Bool.not_eq_true', decide_eq_false_iff_not, String.not_lt]
  have h := @List.pairwise_mergeSort String (fun a b => !decide (b < a))
    (fun a b c hab hbc => (hle a c).2 (String.le_trans ((hle a b).1 hab) ((hle b c).1 hbc)))
    (fun a b => by
      rw [Bool.or_eq_true, hle, hle]
      exact String.le_total a b) names
  exact h.imp fun hab => (hle _ _).1 hab

/-- In which order names are given makes no difference once they are sorted. -/
theorem sorted_of_perm {names names' : List String} (h : names.Perm names') :
    (names.mergeSort fun a b => !(b < a)) = names'.mergeSort fun a b => !(b < a) :=
  List.Perm.eq_of_pairwise (fun _ _ _ _ => String.le_antisymm) (pairwise_sorted _) (pairwise_sorted _)
    ((List.mergeSort_perm _ _).trans (h.trans (List.mergeSort_perm _ _).symm))

theorem World.sorted_of_list {w : World} {p : String} {names : List String} (ht : w.root.Tidy)
    (h : w.list p = .ok names) : names.Pairwise (· < ·) := by
  obtain ⟨es, hf, rfl⟩ := list_eq_ok h
  have hnodup : ((es.map Prod.fst).mergeSort fun a b => !(b < a)).Nodup :=
    (List.mergeSort_perm _ _).nodup_iff.2 (tidy_find ht hf).1
  exact (pairwise_sorted _).imp₂
    (fun a b hab hne => String.not_le.1 fun hba => hne (String.le_antisymm hab hba)) hnodup

/-! ## Entries in another order -/

namespace Node

/-- A tree and the same one with the entries of its folders in another order. -/
inductive Shuffled : Node → Node → Prop
  | refl (n : Node) : Shuffled n n
  | entries {es es' : List (String × Node)} : es.Perm es' → Shuffled (.folder es) (.folder es')
  | inside {before after : List (String × Node)} {name : String} {n n' : Node} :
      Shuffled n n' →
      Shuffled (.folder (before ++ (name, n) :: after)) (.folder (before ++ (name, n') :: after))
  | trans {n n' n'' : Node} : Shuffled n n' → Shuffled n' n'' → Shuffled n n''

theorem tidyEntries_iff {es : List (String × Node)} :
    TidyEntries es ↔ ∀ e ∈ es, IsName e.1 ∧ e.2.Tidy := by
  induction es with
  | nil => simp [TidyEntries]
  | cons e es ih =>
    obtain ⟨name, n⟩ := e
    simp only [TidyEntries, ih, List.forall_mem_cons, and_assoc]

/-- Two trees with the same at each place. -/
def Same (n n' : Node) : Prop := ∀ spot, n.look spot = n'.look spot

variable {n n' : Node}

theorem lookup_perm {es es' : List (String × Node)} (hp : es.Perm es') (hn : (es.map Prod.fst).Nodup)
    (name : String) : es.lookup name = es'.lookup name := by
  have hn' : (es'.map Prod.fst).Nodup := (hp.map Prod.fst).nodup_iff.1 hn
  refine Option.ext fun m => ?_
  rw [← mem_iff_lookup hn, ← mem_iff_lookup hn', hp.mem_iff]

theorem mem_names_iff {es : List (String × Node)} {name : String} :
    name ∈ es.map Prod.fst ↔ (es.lookup name).isSome = true := by
  induction es with
  | nil => simp
  | cons e es ih =>
    obtain ⟨n, m⟩ := e
    rw [List.map_cons, List.mem_cons, ih, lookup_entry]
    split <;> simp_all

/-- A tidy tree stays tidy, and stays the same at each place, in whatever order. -/
theorem Shuffled.same (h : n.Shuffled n') (ht : n.Tidy) : n'.Tidy ∧ n.Same n' := by
  induction h with
  | refl n => exact ⟨ht, fun _ => rfl⟩
  | @entries es es' hp =>
    obtain ⟨hn, hes⟩ := ht
    refine ⟨⟨(hp.map Prod.fst).nodup_iff.1 hn, ?_⟩, fun spot => ?_⟩
    · rw [tidyEntries_iff] at hes ⊢
      exact fun e he => hes e (hp.mem_iff.2 he)
    · cases spot with
      | nil => rfl
      | cons name spot =>
        simp only [look, get?, Node.entries, lookup_perm hp hn name]
  | @inside before after name n n' _ ih =>
    obtain ⟨hn, hes⟩ := ht
    rw [tidyEntries_iff] at hes
    obtain ⟨hname, htn⟩ := hes (name, n) (by simp)
    obtain ⟨htn', hs⟩ := ih htn
    refine ⟨⟨by simpa using hn, tidyEntries_iff.2 fun e he => ?_⟩, fun spot => ?_⟩
    · rw [List.mem_append, List.mem_cons] at he
      rcases he with he | rfl | he
      · exact hes e (by simp [he])
      · exact ⟨hname, htn'⟩
      · exact hes e (by simp [he])
    · cases spot with
      | nil => rfl
      | cons a spot =>
        simp only [look, get?, Node.entries, List.lookup_append, lookup_entry]
        split
        · cases List.lookup a before with
          | none => exact hs spot
          | some _ => rfl
        · rfl
  | trans _ _ ih ih' =>
    obtain ⟨ht', hs⟩ := ih ht
    obtain ⟨ht'', hs'⟩ := ih' ht'
    exact ⟨ht'', fun spot => (hs spot).trans (hs' spot)⟩

theorem Same.lookup (h : n.Same n') (name : String) :
    (n.entries.lookup name = none ∧ n'.entries.lookup name = none) ∨
      ∃ m m', n.entries.lookup name = some m ∧ n'.entries.lookup name = some m' ∧ m.Same m' := by
  have hl : ∀ spot, ((n.entries.lookup name).bind (get? · spot)).map shape =
      ((n'.entries.lookup name).bind (get? · spot)).map shape := fun spot => h (name :: spot)
  cases hn : n.entries.lookup name with
  | none =>
    cases hn' : n'.entries.lookup name with
    | none => exact .inl ⟨rfl, rfl⟩
    | some m' => simpa [hn, hn', get?] using hl []
  | some m =>
    cases hn' : n'.entries.lookup name with
    | none => simpa [hn, hn', get?] using hl []
    | some m' => exact .inr ⟨m, m', rfl, rfl, fun spot => by simpa [hn, hn', look] using hl spot⟩

theorem Same.symm (h : n.Same n') : n'.Same n := fun spot => (h spot).symm

theorem Same.shape (h : n.Same n') : n.shape = n'.shape := Option.some.inj (h [])

theorem Same.isFolder (h : n.Same n') : n'.isFolder = n.isFolder := by
  have hshape := h.shape
  cases n <;> cases n' <;> cases hshape <;> rfl

theorem Same.names {es es' : List (String × Node)} (h : (folder es).Same (folder es')) (ht : (folder es).Tidy)
    (ht' : (folder es').Tidy) : (es'.map Prod.fst).Perm (es.map Prod.fst) := by
  refine (List.perm_ext_iff_of_nodup ht'.1 ht.1).2 fun name => ?_
  rw [mem_names_iff, mem_names_iff]
  rcases h.lookup name with ⟨hl, hl'⟩ | ⟨m, m', hl, hl', -⟩
  · simp only [entries] at hl hl'
    simp [hl, hl']
  · simp only [entries] at hl hl'
    simp [hl, hl']

/-- Two trees that are the same at each place have the same trees there. -/
theorem Same.get? (h : n.Same n') {spot : List String} {m : Node} (hm : n.get? spot = some m) :
    ∃ m', n'.get? spot = some m' ∧ m.Same m' := by
  have hlook : ∀ rest, ((n.get? spot).bind (·.get? rest)).map Node.shape =
      ((n'.get? spot).bind (·.get? rest)).map Node.shape := fun rest => by
    rw [← get?_append, ← get?_append]
    exact h (spot ++ rest)
  rw [hm] at hlook
  cases hm' : n'.get? spot with
  | none => simpa [hm', Node.get?] using hlook []
  | some m' => exact ⟨m', rfl, fun rest => by simpa [hm', look] using hlook rest⟩

theorem Same.get?_file (h : n.Same n') {spot : List String} {content : ByteArray}
    (hg : n.get? spot = some (.file content)) : n'.get? spot = some (.file content) := by
  obtain ⟨m', hg', hm⟩ := h.get? hg
  have hshape := hm.shape
  cases m' <;> cases hshape
  exact hg'

/-- Whatever path is followed in both trees, it ends for the same cause or at the same. -/
theorem Same.follow {above above' : List Node} (ha : List.Forall₂ Same above above') (h : n.Same n')
    (segments : List String) :
    (∃ cause, n.follow above segments = .error cause ∧ n'.follow above' segments = .error cause) ∨
      ∃ m m', n.follow above segments = .ok m ∧ n'.follow above' segments = .ok m' ∧ m.Same m' := by
  induction segments generalizing above above' n n' with
  | nil => exact .inr ⟨n, n', rfl, rfl, h⟩
  | cons segment segments ih =>
    cases n with
    | file | dangling =>
      cases n' <;> cases h.shape
      exact .inl ⟨_, rfl, rfl⟩
    | folder es =>
      obtain ⟨es', rfl⟩ := exists_folder_of_shape h.shape.symm
      simp only [Node.follow]
      split
      · exact ih ha h
      · split
        · cases ha with
          | nil => exact ih .nil h
          | cons hup ha => exact ih ha hup
        · split
          · exact .inl ⟨_, rfl, rfl⟩
          · rcases h.lookup segment with ⟨hl, hl'⟩ | ⟨m, m', hl, hl', hm⟩
            · rw [show es.lookup segment = none from hl, show es'.lookup segment = none from hl']
              exact .inl ⟨_, rfl, rfl⟩
            · rw [show es.lookup segment = some m from hl, show es'.lookup segment = some m' from hl']
              exact ih (.cons h ha) hm

end Node

namespace World

/-- Two disks that read the same from the same place. -/
structure ReadsAs (w w' : World) : Prop where
  here : w'.here = w.here
  isFile : ∀ p, w'.isFile p = w.isFile p
  isFolder : ∀ p, w'.isFolder p = w.isFolder p
  readText : ∀ p, w'.readText p = w.readText p
  list : ∀ p, w'.list p = w.list p

variable {w w' : World} {root' : Node}

/-- At a path two disks find the same shape, or nothing for the same fault. -/
def FindsShape (w w' : World) (p : String) : Prop :=
  (∃ fault, w.find p = .error fault ∧ w'.find p = .error fault) ∨
    ∃ n n', w.find p = .ok n ∧ w'.find p = .ok n' ∧ n.shape = n'.shape

namespace FindsShape

variable {p : String}

theorem isFile (h : w.FindsShape w' p) : w'.isFile p = w.isFile p := by
  unfold World.isFile
  rcases h with ⟨fault, hf, hf'⟩ | ⟨n, n', hf, hf', hs⟩
  · rw [hf, hf']
  · rw [hf, hf']
    cases n <;> cases n' <;> cases hs <;> rfl

theorem isFolder (h : w.FindsShape w' p) : w'.isFolder p = w.isFolder p := by
  unfold World.isFolder
  rcases h with ⟨fault, hf, hf'⟩ | ⟨n, n', hf, hf', hs⟩
  · rw [hf, hf']
  · rw [hf, hf']
    cases n <;> cases n' <;> cases hs <;> rfl

theorem read (h : w.FindsShape w' p) (ha : w'.allow p = w.allow p) : w'.read p = w.read p := by
  rw [World.read, World.read, ha]
  congr 1
  funext _
  rcases h with ⟨fault, hf, hf'⟩ | ⟨n, n', hf, hf', hs⟩
  · rw [hf, hf']
  · rw [hf, hf', Fault.ok_bind, Fault.ok_bind]
    cases n <;> cases n' <;> cases hs <;> rfl

/-- Where one disk lists a folder the other one does. -/
theorem list (h : w.FindsShape w' p) (ha : w'.allow p = w.allow p) :
    (∃ fault, w.list p = .error fault ∧ w'.list p = .error fault) ∨
      ∃ names names', w.list p = .ok names ∧ w'.list p = .ok names' := by
  unfold World.list
  rw [ha]
  cases w.allow p with
  | error fault => exact .inl ⟨fault, rfl, rfl⟩
  | ok =>
    rcases h with ⟨fault, hf, hf'⟩ | ⟨n, n', hf, hf', hs⟩
    · exact .inl ⟨fault, by rw [hf]; rfl, by rw [hf']; rfl⟩
    · rw [hf, hf']
      cases n <;> cases n' <;> cases hs
      · exact .inl ⟨_, rfl, rfl⟩
      · exact .inr ⟨_, _, rfl, rfl⟩
      · exact .inl ⟨_, rfl, rfl⟩

theorem readText (h : w.FindsShape w' p) (ha : w'.allow p = w.allow p) : w'.readText p = w.readText p :=
  congrArg (Except.map Text.ofBytes) (h.read ha)

end FindsShape

theorem find_same (h : w.root.Same root') (p : String) :
    (∃ fault, w.find p = .error fault ∧ { w with root := root' }.find p = .error fault) ∨
      ∃ n n', w.find p = .ok n ∧ { w with root := root' }.find p = .ok n' ∧ n.Same n' := by
  unfold find
  cases checkPath p with
  | error fault => exact .inl ⟨fault, rfl, rfl⟩
  | ok =>
    simp only [Fault.ok_bind]
    split
    · exact .inl ⟨_, rfl, rfl⟩
    · rcases Node.Same.follow .nil h (Path.segments (Path.join w.here.workingDirectory p)) with
        ⟨cause, hf, hf'⟩ | ⟨n, n', hf, hf', hs⟩
      · exact .inl ⟨.disk cause p, by simp [hf, Except.mapError], by simp [hf', Except.mapError]⟩
      · exact .inr ⟨n, n', by simp [hf, Except.mapError], by simp [hf', Except.mapError], hs⟩

theorem findsShape_same (h : w.root.Same root') (p : String) : w.FindsShape { w with root := root' } p :=
  (find_same h p).imp_right fun ⟨n, n', hf, hf', hs⟩ => ⟨n, n', hf, hf', hs.shape⟩

theorem list_same (ht : w.root.Tidy) (ht' : root'.Tidy) (h : w.root.Same root') (p : String) :
    { w with root := root' }.list p = w.list p := by
  unfold list
  congr 1
  funext _
  rcases find_same h p with ⟨fault, hf, hf'⟩ | ⟨n, n', hf, hf', hs⟩
  · rw [hf, hf']
  · rw [hf, hf', Fault.ok_bind, Fault.ok_bind]
    have hshape := hs.shape
    cases n <;> cases n' <;> cases hshape
    · rfl
    · exact congrArg Except.ok (sorted_of_perm (hs.names (tidy_find ht hf) (tidy_find ht' hf')))
    · rfl

/-- The order in which the folders of a disk hold their entries makes no difference. -/
theorem reads_shuffled (ht : w.root.Tidy) (h : w.root.Shuffled root') :
    w.ReadsAs { w with root := root' } := by
  obtain ⟨ht', hs⟩ := h.same ht
  exact
    { here := rfl
      isFile := fun p => (findsShape_same hs p).isFile
      isFolder := fun p => (findsShape_same hs p).isFolder
      readText := fun p => (findsShape_same hs p).readText rfl
      list := list_same ht ht' hs }

end World
end ComponentUsage
