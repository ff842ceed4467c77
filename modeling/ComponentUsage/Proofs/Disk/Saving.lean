import ComponentUsage.Disk.Storage
import Mathlib.Data.List.Infix
import Mathlib.Data.Set.Insert
/-!
# What saving changes

A disk is looked at place by place: what stands at a list of names, without what is
below it. A text that is saved then stands at its own place, new folders stand above
it where nothing stood, and every other place is as it was (`save_cases`).
-/

namespace ComponentUsage

namespace Node

/-- What stands at a place, without what is below it. -/
inductive Shape where
  | file (content : ByteArray)
  | folder
  | dangling

/-- Files are compared by their bytes. -/
instance : DecidableEq Shape
  | .file a, .file b =>
    decidable_of_iff (a.data = b.data)
      ⟨fun h => congrArg Shape.file (ByteArray.ext h), fun h => by cases h; rfl⟩
  | .folder, .folder | .dangling, .dangling => isTrue rfl
  | .file _, .folder | .file _, .dangling | .folder, .file _ | .folder, .dangling | .dangling, .file _
  | .dangling, .folder => isFalse nofun

def shape : Node → Shape
  | .file content => .file content
  | .folder _ => .folder
  | .dangling => .dangling

theorem exists_folder_of_shape {n : Node} (h : n.shape = .folder) : ∃ es, n = .folder es := by
  cases n with
  | folder es => exact ⟨es, rfl⟩
  | file | dangling => cases h

/-- What stands at a list of names, without what is below it. -/
def look (n : Node) (spot : List String) : Option Shape := (n.get? spot).map shape

theorem get?_append (n : Node) (names rest : List String) :
    n.get? (names ++ rest) = (n.get? names).bind (·.get? rest) := by
  induction names generalizing n with
  | nil => rfl
  | cons name names ih =>
    simp only [List.cons_append, get?]
    cases n.entries.lookup name with
    | none => rfl
    | some child => exact ih child

/-- Nothing stands below a place where nothing or no folder stands. -/
theorem get?_below {n : Node} {names rest : List String} (hr : rest ≠ [])
    (hn : ∀ es, n.get? names ≠ some (.folder es)) : n.get? (names ++ rest) = none := by
  obtain ⟨name, rest, rfl⟩ := List.exists_cons_of_ne_nil hr
  rw [get?_append]
  cases h : n.get? names with
  | none => rfl
  | some m =>
    cases m with
    | folder es => exact absurd h (hn es)
    | file | dangling => rfl

/-! ## One place -/

variable {n n' new : Node} {names : List String}

theorem look_upsert (name : String) (child : Node) (es : List (String × Node)) (a : String)
    (rest : List String) :
    (folder (upsert name child es)).look (a :: rest) =
      if a = name then child.look rest else (folder es).look (a :: rest) := by
  simp only [look, get?, entries, lookup_upsert]
  split <;> rfl

/-- In a folder something is placed under the first name: the new node itself, or what
is there with the new node placed in it. -/
theorem place_cons {es : List (String × Node)} {name : String}
    (h : (folder es).place new (name :: names) = .ok n') :
    ∃ child, n' = .folder (upsert name child es) ∧
      ((names = [] ∧ child = new) ∨
        (names ≠ [] ∧ ∃ old, es.lookup name = some old ∧ old.place new names = .ok child)) := by
  rw [place.eq_def] at h
  dsimp only at h
  split at h
  · cases h
  · split at h
    · cases h
      exact ⟨new, rfl, .inl ⟨rfl, rfl⟩⟩
    · cases h
    · rename_i second names old hl
      cases hp : old.place new (second :: names) with
      | error cause =>
        rw [hp] at h
        cases h
      | ok child =>
        rw [hp] at h
        cases h
        exact ⟨child, rfl, .inr ⟨List.cons_ne_nil _ _, old, hl, hp⟩⟩

/-- What is placed at some names stands there, and elsewhere all is as it was. -/
theorem look_place (h : n.place new names = .ok n') (spot : List String) :
    n'.look spot = if names <+: spot then new.look (spot.drop names.length) else n.look spot := by
  induction names generalizing n n' spot with
  | nil => cases h
  | cons name names ih =>
    cases n with
    | file | dangling => cases h
    | folder es =>
      obtain ⟨child, rfl, hc⟩ := place_cons h
      cases spot with
      | nil => rfl
      | cons a rest =>
        rw [look_upsert]
        by_cases ha : a = name
        · subst ha
          simp only [if_true, List.cons_prefix_cons, true_and, List.length_cons, List.drop_succ_cons]
          rcases hc with ⟨rfl, rfl⟩ | ⟨-, old, hl, hp⟩
          · simp
          · rw [ih hp rest]
            simp [look, get?, entries, hl]
        · have ha' : ¬ name = a := fun h => ha h.symm
          simp [List.cons_prefix_cons, ha, ha']

/-- A folder is made only where nothing stands. -/
theorem place_of_makeFolder (h : n.makeFolder names = .ok n') :
    n.get? names = none ∧ n.place (.folder []) names = .ok n' := by
  unfold makeFolder at h
  split at h
  · cases h
  · rename_i hn
    exact ⟨(show names ≠ [] ∧ n.get? names = none by simpa using hn).2, h⟩

theorem look_makeFolder (h : n.makeFolder names = .ok n') :
    n.look names = none ∧ ∀ spot, n'.look spot = if spot = names then some .folder else n.look spot := by
  obtain ⟨hn, hplace⟩ := place_of_makeFolder h
  refine ⟨by simp [look, hn], fun spot => ?_⟩
  rw [look_place hplace]
  by_cases hp : names <+: spot
  · obtain ⟨rest, rfl⟩ := hp
    cases rest with
    | nil => simp [look, get?, shape]
    -- an empty folder has nothing below it, and there was nothing before
    | cons a rest =>
      have hb : n.get? (names ++ a :: rest) = none :=
        get?_below (List.cons_ne_nil a rest) (by simp [hn])
      simp [look, get?, entries, hb]
  · have hs : spot ≠ names := fun h => hp (h ▸ List.prefix_refl _)
    simp [hp, hs]

/-- A file is written only where no folder stands. -/
theorem place_of_write {content : ByteArray} (h : n.write content names = .ok n') :
    (∀ es, n.get? names ≠ some (.folder es)) ∧ n.place (.file content) names = .ok n' := by
  unfold write at h
  split at h
  · cases h
  · cases h
  · rename_i hn _
    exact ⟨hn, h⟩

theorem look_write {content : ByteArray} (h : n.write content names = .ok n') (spot : List String) :
    n'.look spot = if spot = names then some (.file content) else n.look spot := by
  obtain ⟨hno, hplace⟩ := place_of_write h
  rw [look_place hplace]
  by_cases hp : names <+: spot
  · obtain ⟨rest, rfl⟩ := hp
    cases rest with
    | nil => simp [look, get?, shape]
    | cons a rest => simp [look, get?, entries, get?_below (List.cons_ne_nil a rest) hno]
  · have hs : spot ≠ names := fun h => hp (h ▸ List.prefix_refl _)
    simp [hp, hs]

end Node

namespace Storage

variable {D : Type} [Storage D]

/-- A folder is made, or is there already, or what keeps it from being made is told. -/
theorem makeLast_cases (d : D) (slashes : String) (names : List String) :
    (∃ d', makeFolder d slashes names = .ok d' ∧ makeLast d slashes names = (d', .ok ())) ∨
    (∃ cause p, makeFolder d slashes names = .error (.disk cause p) ∧ (seen d).isFolder p = true ∧
      makeLast d slashes names = (d, .ok ())) ∨
    ∃ fault, makeFolder d slashes names = .error fault ∧ makeLast d slashes names = (d, .error fault) := by
  unfold makeLast
  split
  · exact .inl ⟨_, ‹_›, rfl⟩
  · split
    · exact .inr (.inl ⟨_, _, ‹_›, ‹_›, rfl⟩)
    · exact .inr (.inr ⟨_, ‹_›, rfl⟩)
  · exact .inr (.inr ⟨_, ‹_›, rfl⟩)

theorem goOn_cases (above : D × Except Fault Unit) (slashes : String) (names : List String) :
    goOn above slashes names = makeLast above.1 slashes names ∨
      ∃ fault, above.2 = .error fault ∧ goOn above slashes names = (above.1, .error fault) := by
  unfold goOn
  split
  · exact .inl rfl
  · exact .inl rfl
  · exact .inr ⟨_, ‹_›, rfl⟩

/-- The folders above the last one are made first, unless they are there. Then the last one is
made, or what kept those from being made ends it. -/
theorem makeFolders_cases (d : D) (slashes name : String) (above : List String) :
    ∃ mid, (mid = (d, .ok ()) ∨ mid = makeFolders d slashes above) ∧
      (makeFolders d slashes (name :: above) = makeLast mid.1 slashes (name :: above).reverse ∨
        ∃ fault, mid.2 = .error fault ∧ makeFolders d slashes (name :: above) = (mid.1, .error fault)) := by
  rw [makeFolders]
  refine ⟨_, ?_, goOn_cases _ _ _⟩
  split
  · exact .inl rfl
  · exact .inr rfl

variable {d d' : D} {p text full : String} {content : ByteArray} {fault : Fault}

theorem save_of_makeParents_error (hfull : (seen d).here.absolute p = full)
    (h : makeParents d full = (d', .error fault)) : save d p text = (d', .error fault) := by
  unfold save
  dsimp only
  rw [hfull, h]

theorem save_of_makeParents (hfull : (seen d).here.absolute p = full) (h : makeParents d full = (d', .ok ())) :
    save d p text = put d' full text.toUTF8 := by
  unfold save
  dsimp only
  rw [hfull, h]

/-- A file that could not be written has left the disk as it was. -/
theorem put_of_error (h : (put d full content).2 = .error fault) :
    (put d full content).1 = d ∧ ((seen d).allow full >>= fun () => write d full content) = .error fault := by
  unfold put at h ⊢
  split at h
  · cases h
  · rename_i hwrite
    cases h
    rw [hwrite]
    exact ⟨rfl, rfl⟩

theorem eq_of_put (h : put d full content = (d', .ok ())) :
    ((seen d).allow full >>= fun () => write d full content) = .ok d' := by
  unfold put at h
  split at h
  · rename_i hwrite
    cases h
    exact hwrite
  · cases h

end Storage

namespace World

/-- What stands at a place of a disk. -/
def look (w : World) (spot : List String) : Option Node.Shape := w.root.look spot

/-- From one disk to another, files are written at some places, folders are made above
some places where nothing stood, and all else stays. -/
structure Touched (w w' : World) (files targets : Set (List String)) : Prop where
  rest : w' = { w with root := w'.root }
  look : ∀ spot, w'.look spot = w.look spot ∨ spot ∈ files ∨
    (w.look spot = none ∧ w'.look spot = some .folder ∧ ∃ target ∈ targets, spot <+: target.dropLast)

variable {w w' w'' : World} {files targets : Set (List String)}

theorem Touched.here (h : w.Touched w' files targets) : w'.here = w.here := by rw [h.rest]

theorem Touched.interrupting (h : w.Touched w' files targets) : w'.interrupting = w.interrupting := by
  rw [h.rest]

theorem Touched.refl (w : World) (files targets : Set (List String)) : w.Touched w files targets :=
  ⟨rfl, fun _ => .inl rfl⟩

theorem Touched.trans (h : w.Touched w' files targets) (h' : w'.Touched w'' files targets) :
    w.Touched w'' files targets where
  rest := by rw [h'.rest, h.rest]
  look spot := by
    rcases h'.look spot with he | hf | ⟨hn, hd, ht⟩
    · rw [he]
      exact h.look spot
    · exact .inr (.inl hf)
    · rcases h.look spot with he | hf | ⟨-, hd', -⟩
      · exact .inr (.inr ⟨he ▸ hn, hd, ht⟩)
      · exact .inr (.inl hf)
      · rw [hn] at hd'
        cases hd'

theorem Touched.mono {files' targets' : Set (List String)} (h : w.Touched w' files targets)
    (hf : files ⊆ files') (ht : targets ⊆ targets') : w.Touched w' files' targets' where
  rest := h.rest
  look spot := by
    rcases h.look spot with he | hm | ⟨hn, hd, target, hm, hp⟩
    · exact .inl he
    · exact .inr (.inl (hf hm))
    · exact .inr (.inr ⟨hn, hd, target, ht hm, hp⟩)

/-! ## Folders on the way -/

theorem root_of_makeFolder {slashes : String} {names : List String} (h : w.makeFolder slashes names = .ok w') :
    checkPath (pathOf slashes names) = .ok () ∧
      ∃ root, w.root.makeFolder names = .ok root ∧ w' = { w with root } := by
  obtain ⟨⟨⟩, hc, h⟩ := Fault.bind_eq_ok_iff.1 h
  refine ⟨hc, ?_⟩
  cases hm : w.root.makeFolder names with
  | error cause => simp [hm, throw, throwThe, MonadExceptOf.throw] at h
  | ok root =>
    rw [hm] at h
    cases h
    exact ⟨root, rfl, rfl⟩

theorem touched_makeFolder {slashes : String} {names target : List String}
    (h : w.makeFolder slashes names = .ok w') (hp : names <+: target.dropLast) :
    w.Touched w' ∅ {target} := by
  obtain ⟨-, root, hm, rfl⟩ := root_of_makeFolder h
  obtain ⟨hn, hl⟩ := Node.look_makeFolder hm
  refine ⟨rfl, fun spot => ?_⟩
  by_cases hs : spot = names
  · subst hs
    exact .inr (.inr ⟨hn, by simp [look, hl], target, rfl, hp⟩)
  · exact .inl (by simp [look, hl, hs])

theorem touched_makeLast {slashes : String} {names target : List String} (hp : names <+: target.dropLast) :
    w.Touched (Storage.makeLast w slashes names).1 ∅ {target} := by
  rcases Storage.makeLast_cases w slashes names with ⟨w', hw, he⟩ | ⟨-, -, -, -, he⟩ | ⟨fault, -, he⟩
  · rw [he]
    exact touched_makeFolder hw hp
  · rw [he]
    exact .refl _ _ _
  · rw [he]
    exact .refl _ _ _

/-- Folders are made only on the way that is asked for. -/
theorem touched_makeFolders (slashes : String) (names : List String) {target : List String}
    (hp : names.reverse <+: target.dropLast) :
    w.Touched (Storage.makeFolders w slashes names).1 ∅ {target} := by
  induction names generalizing w with
  | nil => exact .refl _ _ _
  | cons name above ih =>
    have ha : above.reverse <+: target.dropLast := by
      rw [List.reverse_cons] at hp
      exact (List.prefix_append _ _).trans hp
    obtain ⟨mid, hmid, h⟩ := Storage.makeFolders_cases w slashes name above
    have hmid : w.Touched mid.1 ∅ {target} := by
      rcases hmid with rfl | rfl
      · exact .refl _ _ _
      · exact ih ha
    rcases h with h | ⟨fault, -, h⟩
    · rw [h]
      exact hmid.trans (touched_makeLast hp)
    · rw [h]
      exact hmid

theorem root_of_write {full : String} {content : ByteArray} (h : w.write full content = .ok w') :
    checkPath full = .ok () ∧ ∃ root, w.root.write content (Path.names full) = .ok root ∧ w' = { w with root } := by
  obtain ⟨⟨⟩, hc, h⟩ := Fault.bind_eq_ok_iff.1 h
  refine ⟨hc, ?_⟩
  cases hr : w.root.write content (Path.names full) with
  | error cause => simp [hr, throw, throwThe, MonadExceptOf.throw] at h
  | ok root =>
    rw [hr] at h
    cases h
    exact ⟨root, rfl, rfl⟩

theorem look_of_write {full : String} {content : ByteArray} (h : w.write full content = .ok w') :
    w' = { w with root := w'.root } ∧
      ∀ spot, w'.look spot = if spot = Path.names full then some (.file content) else w.look spot := by
  obtain ⟨-, root, hr, rfl⟩ := root_of_write h
  exact ⟨rfl, Node.look_write hr⟩

/-! ## Saving -/

theorem touched_makeParents (w : World) (full : String) :
    w.Touched (Storage.makeParents w full).1 ∅ {Path.names full} :=
  touched_makeFolders _ _ (by rw [List.tail_reverse, List.reverse_reverse])

section saved

variable {p text full : String} {content : ByteArray} {fault : Fault}

theorem save_of_makeParents_error (h : Storage.makeParents w (w.here.absolute p) = (w', .error fault)) :
    w.save p text = (w', .error fault) :=
  Storage.save_of_makeParents_error rfl h

theorem save_of_makeParents (h : Storage.makeParents w (w.here.absolute p) = (w', .ok ())) :
    w.save p text = Storage.put w' (w.here.absolute p) text.toUTF8 :=
  Storage.save_of_makeParents rfl h

theorem fault_of_put (h : (Storage.put w full content).2 = .error fault) :
    (w.allow full >>= fun () => w.write full content) = .error fault :=
  (Storage.put_of_error h).2

theorem eq_of_put (h : Storage.put w full content = (w', .ok ())) :
    (w.allow full >>= fun () => w.write full content) = .ok w' :=
  Storage.eq_of_put h

end saved

/-- A text that cannot be saved leaves some folders above its place. One that is saved
stands there. -/
theorem save_cases (w : World) (p text : String) :
    (∃ fault, (w.save p text).2 = .error fault ∧
      w.Touched (w.save p text).1 ∅ {Path.names (w.here.absolute p)}) ∨
    ((w.save p text).2 = .ok () ∧
      w.Touched (w.save p text).1 {Path.names (w.here.absolute p)} {Path.names (w.here.absolute p)} ∧
      (w.save p text).1.look (Path.names (w.here.absolute p)) = some (.file text.toUTF8)) := by
  have hm := touched_makeParents w (w.here.absolute p)
  rcases hparents : Storage.makeParents w (w.here.absolute p) with ⟨mid, fault | ⟨⟩⟩
  · rw [save_of_makeParents_error hparents]
    rw [hparents] at hm
    exact .inl ⟨fault, rfl, hm⟩
  · rw [save_of_makeParents hparents]
    rw [hparents] at hm
    rcases hput : Storage.put mid (w.here.absolute p) text.toUTF8 with ⟨last, fault | ⟨⟩⟩
    · obtain rfl : last = mid := (congrArg Prod.fst hput).symm.trans (Storage.put_of_error (congrArg Prod.snd hput)).1
      exact .inl ⟨fault, rfl, hm⟩
    · obtain ⟨-, -, hwrite⟩ := Fault.bind_eq_ok_iff.1 (eq_of_put hput)
      obtain ⟨hr, hl⟩ := look_of_write hwrite
      refine .inr ⟨rfl, (hm.mono (Set.empty_subset _) subset_rfl).trans ⟨hr, fun spot => ?_⟩, ?_⟩
      · by_cases hs : spot = Path.names (w.here.absolute p)
        · exact .inr (.inl hs)
        · exact .inl (by rw [hl, if_neg hs])
      · rw [hl, if_pos rfl]

end World
end ComponentUsage
