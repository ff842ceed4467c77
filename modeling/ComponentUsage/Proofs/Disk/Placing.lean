import ComponentUsage.Proofs.Disk.Names
/-!
# What stays where something is placed

A node that is placed where it stands already changes nothing (`place_self`), and of two nodes
placed at one spot the second one stays (`place_place`). A text that was saved stands at its place
(`look_of_save`).
-/

namespace ComponentUsage

namespace Node

variable {n n' new new' : Node} {name : String} {names spot : List String} {es : List (String × Node)}

theorem fit_of_place_cons (h : (folder es).place new (name :: names) = .ok n') :
    name.utf8ByteSize ≤ nameLimit := by
  rw [place.eq_def] at h
  dsimp only at h
  split at h
  · cases h
  · omega

theorem place_singleton (hn : name.utf8ByteSize ≤ nameLimit) :
    (folder es).place new [name] = .ok (.folder (upsert name new es)) := by
  rw [place.eq_def]
  dsimp only
  rw [if_neg (Nat.not_lt.2 hn)]

theorem place_inside (hn : name.utf8ByteSize ≤ nameLimit) (hne : names ≠ []) {child : Node}
    (hc : es.lookup name = some child) :
    (folder es).place new (name :: names) = (child.place new names).map fun c => .folder (upsert name c es) := by
  obtain ⟨second, names, rfl⟩ := List.exists_cons_of_ne_nil hne
  rw [place.eq_def]
  dsimp only
  rw [if_neg (Nat.not_lt.2 hn), hc]
  dsimp only
  cases child.place new (second :: names) <;> rfl

theorem exists_folder_of_place (h : n.place new (name :: names) = .ok n') : ∃ es, n = .folder es := by
  cases n with
  | folder es => exact ⟨es, rfl⟩
  | file | dangling => cases h

/-- Something is placed only under names that a disk takes, and stands there then. -/
theorem get?_of_place (h : n.place new names = .ok n') :
    names ≠ [] ∧ Fit names ∧ n'.get? names = some new := by
  induction names generalizing n n' with
  | nil => cases h
  | cons name names ih =>
    obtain ⟨es, rfl⟩ := exists_folder_of_place h
    have hname := fit_of_place_cons h
    obtain ⟨child, rfl, hc⟩ := place_cons h
    refine ⟨List.cons_ne_nil _ _, ?_, ?_⟩
    · rw [Fit, List.forall_mem_cons]
      refine ⟨hname, ?_⟩
      rcases hc with ⟨rfl, -⟩ | ⟨-, old, -, hp⟩
      · simp
      · exact (ih hp).2.1
    · rw [get?, entries, lookup_upsert, if_pos rfl, Option.bind_some]
      rcases hc with ⟨rfl, rfl⟩ | ⟨-, old, -, hp⟩
      · rfl
      · exact (ih hp).2.2

/-- Where something stands, something else can be placed. -/
theorem exists_place (hne : names ≠ []) (hfit : Fit names) (h : n.get? names = some new') (new : Node) :
    ∃ n', n.place new names = .ok n' := by
  induction names generalizing n with
  | nil => exact absurd rfl hne
  | cons name names ih =>
    obtain ⟨hname, hnames⟩ := List.forall_mem_cons.1 hfit
    obtain ⟨child, hc, hget⟩ := Option.bind_eq_some_iff.1 h
    cases n with
    | file | dangling => cases hc
    | folder es =>
      rw [entries] at hc
      obtain rfl | hne' := eq_or_ne names []
      · exact ⟨_, place_singleton hname⟩
      · obtain ⟨child', hp⟩ := ih hne' hnames hget
        rw [place_inside hname hne' hc, hp]
        exact ⟨_, rfl⟩

/-- What is placed where it stands already changes nothing. -/
theorem place_self (hne : names ≠ []) (hfit : Fit names) (h : n.get? names = some new) :
    n.place new names = .ok n := by
  induction names generalizing n with
  | nil => exact absurd rfl hne
  | cons name names ih =>
    obtain ⟨hname, hnames⟩ := List.forall_mem_cons.1 hfit
    obtain ⟨child, hc, hget⟩ := Option.bind_eq_some_iff.1 h
    cases n with
    | file | dangling => cases hc
    | folder es =>
      rw [entries] at hc
      obtain rfl | hne' := eq_or_ne names []
      · obtain rfl : child = new := Option.some.inj hget
        rw [place_singleton hname, upsert_self hc]
      · rw [place_inside hname hne' hc, ih hne' hnames hget, Except.map, upsert_self hc]

/-- Of two nodes that are placed at one spot the second one stays. -/
theorem place_place (h : n.place new names = .ok n') : n'.place new' names = n.place new' names := by
  induction names generalizing n n' with
  | nil => cases h
  | cons name names ih =>
    obtain ⟨es, rfl⟩ := exists_folder_of_place h
    have hname := fit_of_place_cons h
    obtain ⟨child, rfl, hc⟩ := place_cons h
    rcases hc with ⟨rfl, rfl⟩ | ⟨hne, old, hl, hp⟩
    · rw [place_singleton hname, place_singleton hname, upsert_upsert]
    · have hchild : (upsert name child es).lookup name = some child := by rw [lookup_upsert, if_pos rfl]
      rw [place_inside hname hne hchild, place_inside hname hne hl, ih hp]
      simp only [upsert_upsert]

end Node

namespace World

variable {w v : World} {full p text : String} {content : ByteArray}

/-! ## What was saved -/

/-- What a file that was written tells of its path: a disk takes it, and it may be opened. -/
theorem path_of_put (h : Storage.put w full content = (v, .ok ())) :
    checkPath full = .ok () ∧ w.allow full = .ok () ∧ Path.names full ≠ [] ∧ Node.Fit (Path.names full) := by
  obtain ⟨⟨⟩, hallow, hwrite⟩ := Fault.bind_eq_ok_iff.1 (eq_of_put h)
  obtain ⟨hcheck, root, hr, -⟩ := root_of_write hwrite
  obtain ⟨hne, hfit, -⟩ := Node.get?_of_place (Node.place_of_write hr).2
  exact ⟨hcheck, hallow, hne, hfit⟩

theorem path_of_save (h : w.save p text = (v, .ok ())) :
    checkPath (w.here.absolute p) = .ok () ∧ w.allow (w.here.absolute p) = .ok () ∧
      Path.names (w.here.absolute p) ≠ [] ∧ Node.Fit (Path.names (w.here.absolute p)) := by
  have hmade := touched_makeParents w (w.here.absolute p)
  rcases hparents : Storage.makeParents w (w.here.absolute p) with ⟨mid, fault | ⟨⟩⟩
  · rw [save_of_makeParents_error hparents] at h
    cases h
  · rw [save_of_makeParents hparents] at h
    rw [hparents] at hmade
    obtain ⟨hcheck, hallow, hne, hfit⟩ := path_of_put h
    rw [show mid = _ from hmade.rest] at hallow
    exact ⟨hcheck, hallow, hne, hfit⟩

/-- A text that was saved stands at its place. -/
theorem look_of_save (h : w.save p text = (v, .ok ())) :
    v = { w with root := v.root } ∧ v.look (Path.names (w.here.absolute p)) = some (.file text.toUTF8) := by
  obtain ⟨fault, hr, -⟩ | ⟨-, ht, hl⟩ := w.save_cases p text
  · rw [h] at hr
    cases hr
  · rw [h] at ht hl
    exact ⟨ht.rest, hl⟩

end World
end ComponentUsage
