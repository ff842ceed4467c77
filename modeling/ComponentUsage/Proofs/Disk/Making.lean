import ComponentUsage.Proofs.Disk.Sight
/-!
# Making something on a disk with links

Making a folder and writing a file fill one place in which there was nothing, or a file
(`puts_of_makeFolder`, `puts_of_write`). Names that did not lead there lead as before, and names
mean the same place as before. A text is saved at the place that its path means, in folders above
it (`altered_save`).
-/

namespace ComponentUsage

namespace Node

variable {n n' new : Node} {names : List String}

theorem tidyEntries_upsert {es : List (String × Node)} {name : String} {child : Node} (hn : IsName name)
    (hc : child.Tidy) (h : TidyEntries es) : TidyEntries (upsert name child es) := by
  induction es with
  | nil => exact ⟨hn, hc, trivial⟩
  | cons e es ih =>
    rw [upsert]
    split
    · exact ⟨hn, hc, h.2.2⟩
    · exact ⟨h.1, h.2.1, ih h.2.2⟩

theorem nodup_upsert {es : List (String × Node)} (name : String) (child : Node) (h : (es.map Prod.fst).Nodup) :
    ((upsert name child es).map Prod.fst).Nodup := by
  rw [map_fst_upsert]
  split
  · exact h
  · rename_i hno
    exact List.nodup_append.2 ⟨h, by simp, fun a ha b hb he => by
      obtain rfl := List.mem_singleton.1 hb
      exact hno (he ▸ ha)⟩

/-- A tidy tree stays so when something tidy is placed under names. -/
theorem tidy_place (ht : n.Tidy) (hnew : new.Tidy) (hn : ∀ a ∈ names, IsName a) (h : n.place new names = .ok n') :
    n'.Tidy := by
  induction names generalizing n n' with
  | nil => cases h
  | cons name names ih =>
    obtain ⟨es, rfl⟩ := exists_folder_of_place h
    obtain ⟨hname, hnames⟩ := List.forall_mem_cons.1 hn
    obtain ⟨child, rfl, hc⟩ := place_cons h
    refine ⟨nodup_upsert name child ht.1, tidyEntries_upsert hname ?_ ht.2⟩
    rcases hc with ⟨-, rfl⟩ | ⟨-, old, hl, hp⟩
    · exact hnew
    · exact ih (tidy_child ht hl).2 hnames hp

end Node

namespace Linked

variable {d d' d'' : Linked} {slashes full : String} {names ps spot q out : List String} {m : Nat}
  {content : ByteArray}

/-- From one disk to another, something other than a link is put at a place where there was nothing,
or a file. -/
structure Puts (d d' : Linked) (spot : List String) : Prop extends d.SameBut d' spot where
  free : d.root.look spot ≠ some .folder ∧ d.root.look spot ≠ some .dangling
  filled : ∃ shape, d'.root.look spot = some shape ∧ shape ≠ .dangling
  tidy : d.root.Tidy → d'.root.Tidy

theorem checkNames_eq_ok_iff : checkNames names = .ok () ↔ Node.Fit names := by
  unfold checkNames
  split
  · rename_i h
    exact iff_of_true rfl fun n hn => of_decide_eq_true (List.all_eq_true.1 h n hn)
  · rename_i h
    exact iff_of_false (by simp) fun hfit => h (List.all_eq_true.2 fun n hn => decide_eq_true (hfit n hn))

/-- The place of a file is where its names lead, or where they would lead if it were there. -/
theorem filePlace_eq_ok_iff : d.filePlace names = .ok q ↔
    Node.Fit names ∧ ((∃ m, d.find names = .arrived m q) ∨ d.find names = .halted .missing q []) := by
  rw [filePlace, ← checkNames_eq_ok_iff]
  cases hnames : checkNames names with
  | error cause => split <;> simp [Except.map]
  | ok =>
    split
    · rename_i hfind
      simp [hfind, Except.map]
    · rename_i hfind
      simp [hfind, Except.map]
    · rename_i hno hfind
      simp only [hfind, true_and, reduceCtorEq, exists_const, false_or, false_iff, Course.halted.injEq, not_and]
      rintro rfl rfl rfl
      exact hno rfl rfl

/-! ## What stays when something is put at a place -/

namespace Puts

variable (h : d.Puts d' spot)

include h

theorem find (hne : d.ends names ≠ spot) : d'.find names = d.find names :=
  h.toSameBut.find (.inr h.free) hne

/-- A folder stays where it is. -/
theorem look_folder (hq : d.root.look q = some .folder) : d'.root.look q = some .folder := by
  rw [h.look q fun he => h.free.1 (he ▸ hq), hq]

theorem find_folder (hfind : d.find names = .arrived m q) (hq : d.root.look q = some .folder) :
    d'.find names = .arrived m q := by
  rw [h.find fun he => ?_, hfind]
  rw [ends, hfind] at he
  exact h.free.1 (he ▸ hq)

theorem isFolder_root (hr : d.root.isFolder = true) : d'.root.isFolder = true := by
  obtain ⟨es, hes⟩ := Node.get?_of_look_folder (h.look_folder (look_root hr))
  exact Node.isFolder_of_get? hes

/-- Names mean the same place as before, since the links are the same. -/
theorem meant (names : List String) : d'.meant names = d.meant names := by
  have hcleared : d'.root.cleared = d.root.cleared := by
    funext place
    have hlink : d'.root.look place = some .dangling ↔ d.root.look place = some .dangling := by
      by_cases hp : place = spot
      · obtain ⟨shape, hshape, hne⟩ := h.filled
        subst hp
        simp [hshape, hne, h.free.2]
      · rw [h.look place hp]
    have hiff : ∀ n : Node, n.cleared place =
        if n.look place = some .dangling then some .dangling else some (.folder []) := by
      intro n
      rw [Node.cleared, Node.look]
      cases hn : n.get? place with
      | none => rfl
      | some m => cases m <;> rfl
    rw [hiff, hiff]
    simp only [hlink]
  rw [Linked.meant, Linked.meant, hcleared, h.target]

/-- A file can be written under the same names as before, at the same place. -/
theorem filePlace (hq : d.filePlace names = .ok q) : d'.filePlace names = .ok q := by
  obtain ⟨hfit, hfind⟩ := filePlace_eq_ok_iff.1 hq
  refine filePlace_eq_ok_iff.2 ⟨hfit, ?_⟩
  have hends : d.ends names = q := by
    rcases hfind with ⟨m, hfind⟩ | hfind <;> rw [ends, hfind] <;> rfl
  by_cases hspot : q = spot
  · subst hspot
    obtain ⟨shape, hshape, hlink⟩ := h.filled
    obtain ⟨m, hm⟩ := (find_eq_iff.1 rfl).of_filled h.free.1 h.free.2 h.look hshape hlink
      (hfind.imp_right fun hfind => ⟨.missing, hfind⟩)
    exact .inl ⟨m, find_eq_iff.2 (h.target ▸ hm)⟩
  · rwa [h.find (hends ▸ hspot)]

end Puts

/-! ## A folder, and a file -/

theorem isName_ends (hn : ∀ n ∈ names, Node.IsName n) : ∀ n ∈ d.ends names, Node.IsName n :=
  (find_eq_iff.1 rfl).isName_place (by simp) fun s hs => (hn s hs).no_slash

theorem newPlace_concat_eq_ok_iff {name : String} : d.newPlace (ps ++ [name]) = .ok q ↔
    Node.Fit (ps ++ [name]) ∧ ∃ m above, d.find ps = .arrived m above ∧ q = above ++ [name] := by
  rw [newPlace, List.getLast?_concat, List.dropLast_concat, ← checkNames_eq_ok_iff]
  dsimp only
  cases d.find ps with
  | halted cause place rest => simp
  | arrived m above =>
    cases checkNames (ps ++ [name]) with
    | error cause => simp [Except.map]
    | ok => simp [Except.map, eq_comm]

theorem root_of_makeFolder (h : d.makeFolder slashes names = .ok d') :
    World.checkPath (World.pathOf slashes names) = .ok () ∧ Node.Fit names ∧
      ∃ ps name m q root, names = ps ++ [name] ∧ d.find ps = .arrived m q ∧
        d.root.makeFolder (q ++ [name]) = .ok root ∧ d' = d.withRoot root := by
  obtain ⟨⟨⟩, hc, h⟩ := Fault.bind_eq_ok_iff.1 h
  refine ⟨hc, ?_⟩
  cases hmake : d.newPlace names >>= d.root.makeFolder with
  | error cause => simp [hmake, throw, throwThe, MonadExceptOf.throw] at h
  | ok root =>
    rw [hmake] at h
    cases h
    cases hplace : d.newPlace names with
    | error cause =>
      rw [hplace] at hmake
      cases hmake
    | ok z =>
      rw [hplace] at hmake
      obtain rfl | ⟨ps, name, rfl⟩ := List.eq_nil_or_concat names
      · cases hplace
        simp [bind, Except.bind, Node.makeFolder] at hmake
      · rw [List.concat_eq_append] at *
        obtain ⟨hfit, m, q, hfind, rfl⟩ := newPlace_concat_eq_ok_iff.1 hplace
        exact ⟨hfit, ps, name, m, q, root, rfl, hfind, hmake, rfl⟩

/-- A folder is made in another one, where nothing was, and nothing is in it. -/
theorem puts_of_makeFolder (hn : ∀ n ∈ names, Node.IsName n) (h : d.makeFolder slashes names = .ok d') :
    ∃ ps name m q, names = ps ++ [name] ∧ d.find ps = .arrived m q ∧ d.root.look q = some .folder ∧
      d.root.look (q ++ [name]) = none ∧ d.Puts d' (q ++ [name]) ∧ d'.root.look (q ++ [name]) = some .folder := by
  obtain ⟨-, -, ps, name, m, q, root, rfl, hfind, hmake, rfl⟩ := root_of_makeFolder h
  obtain ⟨hnone, hlook⟩ := Node.look_makeFolder hmake
  have hfilled := hlook (q ++ [name])
  rw [if_pos rfl] at hfilled
  have hsame : ∀ p, p ≠ q ++ [name] → (d.withRoot root).root.look p = d.root.look p := fun p hp =>
    (hlook p).trans (if_neg hp)
  have hq : ∀ n ∈ q ++ [name], Node.IsName n := by
    have hends := isName_ends (d := d) fun n hm => hn n (List.mem_append_left [name] hm)
    rw [ends, hfind] at hends
    exact Node.isName_concat hends (hn name (by simp))
  have hfolder : d.root.look q = some .folder := by
    rw [← hsame q (by simp)]
    exact Node.look_above q [name] (List.cons_ne_nil _ _) (by simp [withRoot, Linked.root, hfilled])
  have hempty : (Node.folder []).Tidy := ⟨List.nodup_nil, trivial⟩
  exact ⟨ps, name, m, q, rfl, hfind, hfolder, hnone,
    ⟨⟨rfl, hsame⟩, by simp [hnone], ⟨_, hfilled, by simp⟩,
      fun ht => Node.tidy_place ht hempty hq (Node.place_of_makeFolder hmake).2⟩, hfilled⟩

theorem root_of_write (h : d.write full content = .ok d') :
    World.checkPath full = .ok () ∧ ∃ q root, d.filePlace (Path.names full) = .ok q ∧
      d.root.write content q = .ok root ∧ d' = d.withRoot root := by
  obtain ⟨⟨⟩, hc, h⟩ := Fault.bind_eq_ok_iff.1 h
  refine ⟨hc, ?_⟩
  cases hwrite : d.filePlace (Path.names full) >>= d.root.write content with
  | error cause => simp [hwrite, throw, throwThe, MonadExceptOf.throw] at h
  | ok root =>
    rw [hwrite] at h
    cases h
    cases hplace : d.filePlace (Path.names full) with
    | error cause =>
      rw [hplace] at hwrite
      cases hwrite
    | ok q =>
      rw [hplace] at hwrite
      exact ⟨q, root, rfl, hwrite, rfl⟩

/-- A file is written where there was a file, or nothing. -/
theorem puts_of_write (hn : ∀ n ∈ Path.names full, Node.IsName n) (h : d.write full content = .ok d') :
    ∃ q, d.filePlace (Path.names full) = .ok q ∧ d.root.place (.file content) q = .ok d'.root ∧
      d.Puts d' q ∧ d'.root.look q = some (.file content) := by
  obtain ⟨-, q, root, hplace, hwrite, rfl⟩ := root_of_write h
  have hlook := Node.look_write hwrite
  have hfilled := hlook q
  rw [if_pos rfl] at hfilled
  have hput := (Node.place_of_write hwrite).2
  have hsame : ∀ p, p ≠ q → (d.withRoot root).root.look p = d.root.look p := fun p hp =>
    (hlook p).trans (if_neg hp)
  have hfree : d.root.look q ≠ some .folder ∧ d.root.look q ≠ some .dangling := by
    rw [Node.look]
    rw [Node.write] at hwrite
    cases hget : d.root.get? q with
    | none => simp
    | some n =>
      rw [hget] at hwrite
      cases n with
      | file => simp [Node.shape]
      | folder | dangling => cases hwrite
  have hq : ∀ n ∈ q, Node.IsName n := by
    have hends := isName_ends (d := d) hn
    rcases (filePlace_eq_ok_iff.1 hplace).2 with ⟨m, hfind⟩ | hfind <;> rw [ends, hfind] at hends <;> exact hends
  have hfile : (Node.file content).Tidy := trivial
  exact ⟨q, hplace, hput, ⟨⟨rfl, hsame⟩, hfree, ⟨_, hfilled, by simp⟩, fun ht => Node.tidy_place ht hfile hq hput⟩,
    hfilled⟩

/-! ## What names mean -/

theorem shape_cleared (n : Node) : (fun spot => (n.cleared spot).map Node.shape) = Course.cleared n.look := by
  funext spot
  rw [Node.cleared, Course.cleared, Node.look]
  cases n.get? spot with
  | none => rfl
  | some m => cases m <;> rfl

theorem meant_eq (h : Course.Leads (Course.cleared d.root.look) d.target Course.limit [] names (.arrived m q)) :
    d.meant names = q := by
  rw [← shape_cleared] at h
  rw [meant, Course.follow_eq_iff.2 h]

/-- Names go on through what is missing. -/
theorem meant_of_find {name : String} {rest : List String} (hn : ∀ n ∈ name :: rest, Node.IsName n)
    (hfind : d.find ps = .arrived m q) (hq : d.root.look q = some .folder) (hnone : d.root.look (q ++ [name]) = none) :
    d.meant (ps ++ name :: rest) = q ++ name :: rest := by
  refine meant_eq ((find_eq_iff.1 hfind).cleared_of_arrived.append
    (.of_folders (fun n hm => (hn n hm).descends) (fun r hr => Course.cleared_of_ne ?_) m))
  rcases List.prefix_cons_iff.1 hr with rfl | ⟨below, rfl, -⟩
  · simp [hq]
  · rw [List.append_cons]
    obtain rfl | hne := eq_or_ne below []
    · simp [hnone]
    · have hbelow : d.root.look (q ++ [name] ++ below) = none := by
        by_contra hno
        rw [Node.look_above _ below hne hno] at hnone
        cases hnone
      rw [hbelow]
      simp

/-- A file is at the place that its names mean. -/
theorem meant_of_filePlace (h : d.filePlace names = .ok q) (hlink : d.root.look q ≠ some .dangling) :
    d.meant names = q := by
  rcases (filePlace_eq_ok_iff.1 h).2 with ⟨m, hfind⟩ | hfind
  · exact meant_eq (find_eq_iff.1 hfind).cleared_of_arrived
  · obtain ⟨m, hm⟩ := (find_eq_iff.1 hfind).cleared_of_missing
      ((find_eq_iff.1 hfind).look_of_missing.resolve_right hlink)
    have hend := hm [] _ .done
    rw [List.append_nil] at hend
    exact meant_eq hend

/-! ## Folders that are seen -/

section

variable (hr : d.root.isFolder = true) (hs : slashes = "/" ∨ slashes = "//") (hn : ∀ n ∈ names, Node.IsName n)

include hr hs hn

theorem isFolder_seen_iff : d.seen.isFolder (World.pathOf slashes names) = true ↔
    World.checkPath (World.pathOf slashes names) = .ok () ∧ Node.Fit names ∧
      ∃ m q, d.find names = .arrived m q ∧ d.root.look q = some .folder := by
  rw [World.isFolder_pathOf_iff hs hn]
  refine and_congr_right fun _ => and_congr_right fun _ => ⟨fun h => find_of_look_seen hr hn h (by simp), ?_⟩
  rintro ⟨m, q, hfind, hq⟩
  rw [look_seen hr hn hfind, hq]

theorem isFolder_seen_of_puts (h : d.Puts d' spot) (hf : d.seen.isFolder (World.pathOf slashes names) = true) :
    d'.seen.isFolder (World.pathOf slashes names) = true := by
  obtain ⟨hc, hfit, m, q, hfind, hq⟩ := (isFolder_seen_iff hr hs hn).1 hf
  exact (isFolder_seen_iff (h.isFolder_root hr) hs hn).2 ⟨hc, hfit, m, q, h.find_folder hfind hq, h.look_folder hq⟩

/-- A folder that was made is seen. -/
theorem isFolder_of_makeFolder (h : d.makeFolder slashes names = .ok d') :
    d'.seen.isFolder (World.pathOf slashes names) = true ∧
      ∀ name, Node.IsName name → d'.seen.exists? (World.pathOf slashes (names ++ [name])) = false := by
  obtain ⟨ps, last, m, q, rfl, hfind, hq, hnone, hput, hfilled⟩ := puts_of_makeFolder hn h
  obtain ⟨hc, hfit, -⟩ := root_of_makeFolder h
  have hr' := hput.isFolder_root hr
  have hlast : Node.IsName last := hn last (by simp)
  have hfind' : d'.find (ps ++ [last]) = .arrived m (q ++ [last]) := by
    rw [find_append (hput.find_folder hfind hq)]
    exact follow_eq_iff.2 (.onward (hput.look_folder hq) hlast.descends hfilled (by simp) .done)
  refine ⟨(isFolder_seen_iff hr' hs hn).2 ⟨hc, hfit, m, _, hfind', hfilled⟩, fun name hname => ?_⟩
  -- what is below nothing stays nothing
  have hbelow : d'.root.look (q ++ [last] ++ [name]) = none := by
    rw [hput.look _ (by simp)]
    by_contra hno
    rw [Node.look_above _ [name] (List.cons_ne_nil _ _) hno] at hnone
    cases hnone
  have hns := Node.isName_concat hn hname
  have hlook : d'.seen.look (ps ++ [last] ++ [name]) = none := by
    rw [← Option.not_isSome_iff_eq_none, isSome_look_seen_concat hr' hn hname, hfind']
    rintro ⟨m', q', he, hsome⟩
    cases he
    rw [hbelow] at hsome
    cases hsome
  rw [World.exists?, Bool.or_eq_false_iff, ← Bool.not_eq_true, ← Bool.not_eq_true, World.isFile_pathOf_iff hs hns,
    World.isFolder_pathOf_iff hs hns, hlook]
  simp

/-- A folder that is seen cannot be made. -/
theorem makeFolder_of_isFolder (h : d.seen.isFolder (World.pathOf slashes names) = true) :
    d.makeFolder slashes names = .error (.disk .exists (World.pathOf slashes names)) := by
  obtain ⟨hc, hfit, m, q, hfind, hq⟩ := (isFolder_seen_iff hr hs hn).1 h
  have hmake : d.newPlace names >>= d.root.makeFolder = .error .exists := by
    obtain rfl | ⟨ps, name, rfl⟩ := List.eq_nil_or_concat names
    · simp [newPlace, bind, Except.bind, Node.makeFolder]
    · rw [List.concat_eq_append] at *
      cases hps : d.find ps with
      | halted cause place rest =>
        rw [find_append_of_halted hps] at hfind
        cases hfind
      | arrived m' q' =>
        have hplace := newPlace_concat_eq_ok_iff.2 ⟨hfit, m', q', hps, rfl⟩
        have hsome : (d.seen.look (ps ++ [name])).isSome = true := by
          rw [look_seen hr hn hfind, hq]
          rfl
        obtain ⟨_, _, he, hsome⟩ := (isSome_look_seen_concat hr (fun n hm => hn n (List.mem_append_left _ hm))
          (hn name (by simp))).1 hsome
        rw [hps] at he
        cases he
        have hget : (d.root.get? (q' ++ [name])).isSome = true := by
          rwa [Node.look, Option.isSome_map] at hsome
        rw [hplace]
        change d.root.makeFolder (q' ++ [name]) = _
        rw [Node.makeFolder, if_pos (by simp [hget])]
  rw [makeFolder, hc, Fault.ok_bind, hmake]
  rfl

end

/-! ## One change after another -/

/-- From one disk to another things are put at places, one after the other, each where it is allowed
at that moment. -/
inductive Altered (allowed : Linked → List String → Prop) (d : Linked) : Linked → Prop
  | refl : Altered allowed d d
  | put {d' d'' : Linked} {spot : List String} : Altered allowed d d' → allowed d' spot → d'.Puts d'' spot →
      Altered allowed d d''

variable {allowed allowed' : Linked → List String → Prop}

/-- Names are spared that lead to no place where something may be put, or to a folder. -/
def Spared (d : Linked) (allowed : Linked → List String → Prop) (names : List String) : Prop :=
  (∀ e z, allowed e z → d.ends names ≠ z) ∨ ∃ m q, d.find names = .arrived m q ∧ d.root.look q = some .folder

/-- Spared names that lead as before do not lead to where something is put. -/
theorem Spared.ends_ne (h : d.Spared allowed names) (hfind : d'.find names = d.find names)
    (hfolder : ∀ m q, d.find names = .arrived m q → d.root.look q = some .folder → d'.root.look q = some .folder)
    (hspot : allowed d' spot) (hfree : d'.root.look spot ≠ some .folder) : d'.ends names ≠ spot := fun he => by
  rw [ends, hfind] at he
  rcases h with hne | ⟨m, q, hc, hq⟩
  · exact hne _ _ hspot he
  · rw [hc] at he
    exact hfree (he ▸ hfolder m q hc hq)

namespace Altered

theorem mono (h : Altered allowed d d') (himp : ∀ e spot, allowed e spot → allowed' e spot) :
    Altered allowed' d d' := by
  induction h with
  | refl => exact .refl
  | put _ hspot hput ih => exact .put ih (himp _ _ hspot) hput

theorem trans (h : Altered allowed d d') (h' : Altered allowed d' d'') : Altered allowed d d'' := by
  induction h' with
  | refl => exact h
  | put _ hspot hput ih => exact .put ih hspot hput

variable (h : Altered allowed d d')

include h

theorem rest : d' = d.withRoot d'.root := by
  induction h with
  | refl => rfl
  | put _ _ hput ih =>
    rw [hput.rest, ih]
    rfl

theorem here : d'.world.here = d.world.here := by
  rw [h.rest]
  rfl

theorem tidy (ht : d.root.Tidy) : d'.root.Tidy := by
  induction h with
  | refl => exact ht
  | put _ _ hput ih => exact hput.tidy ih

theorem isFolder_root (hr : d.root.isFolder = true) : d'.root.isFolder = true := by
  induction h with
  | refl => exact hr
  | put _ _ hput ih => exact hput.isFolder_root ih

theorem meant (names : List String) : d'.meant names = d.meant names := by
  induction h with
  | refl => rfl
  | put _ _ hput ih => rw [hput.meant, ih]

theorem isFolder_seen (hr : d.root.isFolder = true) (hs : slashes = "/" ∨ slashes = "//")
    (hn : ∀ n ∈ names, Node.IsName n) (hf : d.seen.isFolder (World.pathOf slashes names) = true) :
    d'.seen.isFolder (World.pathOf slashes names) = true := by
  induction h with
  | refl => exact hf
  | put hbefore _ hput ih => exact isFolder_seen_of_puts (hbefore.isFolder_root hr) hs hn hput ih

/-- Spared names lead as before. -/
theorem find (hspared : d.Spared allowed names) : d'.find names = d.find names ∧
    ∀ m q, d.find names = .arrived m q → d.root.look q = some .folder → d'.root.look q = some .folder := by
  induction h with
  | refl => exact ⟨rfl, fun _ _ _ hq => hq⟩
  | put _ hspot hput ih =>
    obtain ⟨hfind, hfolder⟩ := ih
    refine ⟨?_, fun m q hc hq => hput.look_folder (hfolder m q hc hq)⟩
    rw [hput.find (hspared.ends_ne hfind hfolder hspot hput.free.1), hfind]

/-- What is put at places is not seen under names that are spared with those before them. -/
theorem look_seen (hr : d.root.isFolder = true) (hn : ∀ n ∈ names, Node.IsName n)
    (hspared : ∀ ps, ps <+: names → d.Spared allowed ps) : d'.seen.look names = d.seen.look names := by
  induction h with
  | refl => rfl
  | @put e _ spot hbefore hspot hput ih =>
    have hr' := hbefore.isFolder_root hr
    have hne : ∀ ps, ps <+: names → e.ends ps ≠ spot := fun ps hp => by
      obtain ⟨hfind, hfolder⟩ := hbefore.find (hspared ps hp)
      exact (hspared ps hp).ends_ne hfind hfolder hspot hput.free.1
    rw [hput.toSameBut.look_seen (.inr hput.free) hr' (hput.isFolder_root hr') hn hne, ih]

end Altered

/-- The folders above a place are made where nothing is, above the place that its names mean. -/
theorem altered_makeFolders (hr : d.root.isFolder = true) (hout : ∀ n ∈ out, Node.IsName n)
    (hp : names.reverse <+: out) : Altered (fun e z => e.root.look z = none ∧ z <+: d.meant out) d
      (Storage.makeFolders d slashes names).1 := by
  induction names generalizing d with
  | nil => exact .refl
  | cons name above ih =>
    have habove : above.reverse <+: out := by
      rw [List.reverse_cons] at hp
      exact (List.prefix_append _ _).trans hp
    obtain ⟨mid, hmid, hlast⟩ := Storage.makeFolders_cases d slashes name above
    have hmade : Altered (fun e z => e.root.look z = none ∧ z <+: d.meant out) d mid.1 := by
      rcases hmid with rfl | rfl
      · exact .refl
      · exact ih hr habove
    rcases hlast with hlast | ⟨fault, -, hlast⟩
    · rw [hlast]
      rcases Storage.makeLast_cases mid.1 slashes (name :: above).reverse with ⟨d', hd', he⟩ | ⟨-, -, -, -, he⟩ |
        ⟨fault, -, he⟩
      · rw [he]
        obtain ⟨more, hmore⟩ := hp
        have hn : ∀ n ∈ (name :: above).reverse, Node.IsName n := fun n hm =>
          hout n (hmore ▸ List.mem_append_left _ hm)
        obtain ⟨ps, last, m, q, hps, hfind, hq, hnone, hput, -⟩ := puts_of_makeFolder hn hd'
        rw [hps, List.append_assoc, List.singleton_append] at hmore
        refine .put hmade ⟨hnone, ?_⟩ hput
        rw [← hmade.meant, ← hmore,
          meant_of_find (fun n hm => hout n (hmore ▸ List.mem_append_right _ hm)) hfind hq hnone]
        exact (List.prefix_append_right_inj q).2 (List.cons_prefix_cons.2 ⟨rfl, List.nil_prefix⟩)
      · rw [he]
        exact hmade
      · rw [he]
        exact hmade
    · rw [hlast]
      exact hmade

theorem makeParents_pathOf (hs : slashes = "/" ∨ slashes = "//") (hn : ∀ n ∈ names, Node.IsName n) (d : Linked) :
    Storage.makeParents d (World.pathOf slashes names) = Storage.makeFolders d slashes names.dropLast.reverse := by
  rw [Storage.makeParents, Path.leadingSlashes_pathOf hs hn, Path.names_pathOf hs hn, List.tail_reverse]

theorem altered_makeParents (hr : d.root.isFolder = true) (hs : slashes = "/" ∨ slashes = "//")
    (hn : ∀ n ∈ names, Node.IsName n) : Altered (fun e z => e.root.look z = none ∧ z <+: d.meant names) d
      (Storage.makeParents d (World.pathOf slashes names)).1 := by
  rw [makeParents_pathOf hs hn]
  exact altered_makeFolders hr hn (by rw [List.reverse_reverse]; exact List.dropLast_prefix names)

/-- A text that is saved, or cannot be, changes places on the way to what its path means. -/
theorem altered_save {p : String} (hr : d.root.isFolder = true) (hs : slashes = "/" ∨ slashes = "//")
    (hn : ∀ n ∈ names, Node.IsName n) (hfull : d.world.here.absolute p = World.pathOf slashes names) (text : String) :
    Altered (fun _ z => z <+: d.meant names) d (Storage.save d p text).1 := by
  have habs : (Storage.seen d).here.absolute p = World.pathOf slashes names := by rw [storage_seen, here_seen, hfull]
  have hparents := altered_makeParents hr hs hn
  rcases hmade : Storage.makeParents d (World.pathOf slashes names) with ⟨mid, fault | ⟨⟩⟩
  · rw [Storage.save_of_makeParents_error habs hmade]
    rw [hmade] at hparents
    exact hparents.mono fun _ _ h => h.2
  · rw [Storage.save_of_makeParents habs hmade]
    rw [hmade] at hparents
    have hmid := hparents.mono fun _ _ h => h.2
    rcases hput : Storage.put mid (World.pathOf slashes names) text.toUTF8 with ⟨last, fault | ⟨⟩⟩
    · obtain rfl : last = mid := (congrArg Prod.fst hput).symm.trans (Storage.put_of_error (congrArg Prod.snd hput)).1
      exact hmid
    · obtain ⟨-, -, hwrite⟩ := Fault.bind_eq_ok_iff.1 (Storage.eq_of_put hput)
      have hnames := Path.names_pathOf hs hn
      obtain ⟨q, hplace, -, hputs, -⟩ := puts_of_write (by rwa [hnames]) hwrite
      rw [hnames] at hplace
      refine .put hmid ?_ hputs
      rw [← hmid.meant, meant_of_filePlace hplace hputs.free.2]

end Linked
end ComponentUsage
