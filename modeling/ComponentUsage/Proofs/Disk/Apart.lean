import ComponentUsage.Proofs.Disk.Listing
import ComponentUsage.Proofs.Disk.Names
/-!
# Disks that are the same apart from some names

What is found at a path of names depends on what stands at the names and on the way to them
(`findsShape_pathOf`). Two disks that are the same apart from some names find the same at every
path that is not among them, and list there the same names, but for those (`SameBut.list`).
-/

namespace ComponentUsage

namespace Node

variable {n n' : Node} {names : List String}

/-- Where two trees look the same all the way along some names, these lead to the same shape, or
nowhere for the same cause. -/
theorem follow_names_shape (hn : ∀ name ∈ names, IsName name)
    (h : ∀ spot, spot <+: names → n'.look spot = n.look spot) (above above' : List Node) :
    (∃ cause, n.follow above names = .error cause ∧ n'.follow above' names = .error cause) ∨
      ∃ m m', n.follow above names = .ok m ∧ n'.follow above' names = .ok m' ∧ m.shape = m'.shape := by
  have hshape : n'.shape = n.shape := Option.some.inj (h [] List.nil_prefix)
  induction names generalizing n n' above above' with
  | nil => exact .inr ⟨n, n', rfl, rfl, hshape.symm⟩
  | cons name names ih =>
    cases n with
    | file | dangling =>
      cases n' <;> cases hshape
      exact .inl ⟨_, rfl, rfl⟩
    | folder es =>
      obtain ⟨es', rfl⟩ := exists_folder_of_shape hshape
      rw [follow_name_cons (hn name List.mem_cons_self), follow_name_cons (hn name List.mem_cons_self)]
      split
      · exact .inl ⟨_, rfl, rfl⟩
      -- on along the name, if there is anything under it
      · have hlook : ∀ spot, spot <+: names →
            ((es'.lookup name).bind (get? · spot)).map Node.shape =
              ((es.lookup name).bind (get? · spot)).map Node.shape :=
          fun spot hs => h (name :: spot) (List.cons_prefix_cons.2 ⟨rfl, hs⟩)
        have hhere := hlook [] List.nil_prefix
        cases hc : es.lookup name with
        | none =>
          cases hc' : es'.lookup name with
          | none => exact .inl ⟨_, rfl, rfl⟩
          | some child' => simp [hc, hc', get?] at hhere
        | some child =>
          cases hc' : es'.lookup name with
          | none => simp [hc, hc', get?] at hhere
          | some child' =>
            rw [hc, hc'] at hlook
            exact ih (fun a hm => hn a (List.mem_cons_of_mem _ hm)) hlook _ _
              (Option.some.inj (hlook [] List.nil_prefix))

end Node

namespace World

variable {w w' : World} {slashes : String} {ns : List String}

/-- What is found at a path of names is seen from what stands at them and on the way there. -/
theorem findsShape_pathOf (hs : slashes = "/" ∨ slashes = "//") (hn : ∀ n ∈ ns, Node.IsName n)
    (h : ∀ spot, spot <+: ns → w'.look spot = w.look spot) : w.FindsShape w' (pathOf slashes ns) := by
  have hshape : w'.root.shape = w.root.shape := Option.some.inj (h [] List.nil_prefix)
  by_cases hr : w.root.isFolder = true
  · have hr' : w'.root.isFolder = true := by
      cases hroot : w.root <;> cases hroot' : w'.root <;> simp_all [Node.isFolder, Node.shape]
    unfold FindsShape
    rw [find_pathOf hs hn hr, find_pathOf hs hn hr']
    cases checkPath (pathOf slashes ns) with
    | error fault => exact .inl ⟨fault, rfl, rfl⟩
    | ok =>
      rcases Node.follow_names_shape hn h [] [] with ⟨cause, hf, hf'⟩ | ⟨m, m', hf, hf', hm⟩
      · exact .inl ⟨.disk cause _, by rw [hf]; rfl, by rw [hf']; rfl⟩
      · exact .inr ⟨m, m', by rw [hf]; rfl, by rw [hf']; rfl, hm⟩
  -- where the root is no folder no path leads anywhere
  · obtain ⟨front, -, hne, hsegs⟩ := Path.segments_pathOf hs hn
    obtain ⟨segment, front, rfl⟩ := List.exists_cons_of_ne_nil hne
    have hjoin : ∀ dir, Path.join dir (pathOf slashes ns) = pathOf slashes ns := fun dir => by
      rw [Path.join, if_pos (Path.isAbsolute_pathOf hs ns)]
    unfold FindsShape find
    rw [hjoin, hjoin, hsegs]
    cases checkPath (pathOf slashes ns) with
    | error fault => exact .inl ⟨fault, rfl, rfl⟩
    | ok =>
      simp only [Fault.ok_bind, Path.pathOf_ne_empty hs ns, if_false, List.cons_append]
      cases hroot : w.root with
      | folder es => simp [hroot, Node.isFolder] at hr
      | file | dangling =>
        cases hroot' : w'.root <;> rw [hroot, hroot'] at hshape <;> cases hshape
        exact .inl ⟨_, rfl, rfl⟩

/-- The names in a folder at some names are those under which anything stands there. -/
theorem mem_iff_of_list {names : List String} (hs : slashes = "/" ∨ slashes = "//") (hn : ∀ n ∈ ns, Node.IsName n)
    (hl : w.list (pathOf slashes ns) = .ok names) (name : String) :
    name ∈ names ↔ (w.look (ns ++ [name])).isSome = true := by
  obtain ⟨es, hf, rfl⟩ := list_eq_ok hl
  obtain ⟨-, -, -, hget⟩ := (find_pathOf_eq_ok_iff hs hn).1 hf
  rw [List.mem_mergeSort, Node.mem_names_iff, look, Node.look, Node.get?_append, hget]
  simp [Node.get?, Node.entries]

/-- Two disks, seen from one place, that are the same apart from some names and what is below
them. -/
structure SameBut (w w' : World) (apart : Set (List String)) : Prop where
  rest : w' = { w with root := w'.root }
  below : ∀ spot rest, spot ∈ apart → spot ++ rest ∈ apart
  look : ∀ spot, spot ∉ apart → w'.look spot = w.look spot

namespace SameBut

variable {apart : Set (List String)}

theorem here (h : w.SameBut w' apart) : w'.here = w.here := by rw [h.rest]

theorem allow (h : w.SameBut w' apart) (p : String) : w'.allow p = w.allow p := by
  rw [h.rest]
  rfl

theorem not_mem_above (h : w.SameBut w' apart) {spot : List String} (hp : spot <+: ns) (hns : ns ∉ apart) :
    spot ∉ apart := fun hno => by
  obtain ⟨rest, rfl⟩ := hp
  exact hns (h.below spot rest hno)

theorem findsShape (h : w.SameBut w' apart) (hs : slashes = "/" ∨ slashes = "//") (hn : ∀ n ∈ ns, Node.IsName n)
    (hns : ns ∉ apart) : w.FindsShape w' (pathOf slashes ns) :=
  findsShape_pathOf hs hn fun _ hspot => h.look _ (h.not_mem_above hspot hns)

open Classical in
/-- A folder elsewhere holds the same names, but for those that are apart. -/
theorem list (h : w.SameBut w' apart) (ht : w.root.Tidy) (ht' : w'.root.Tidy)
    (hs : slashes = "/" ∨ slashes = "//") (hn : ∀ n ∈ ns, Node.IsName n) (hns : ns ∉ apart) :
    (∃ fault, w.list (pathOf slashes ns) = .error fault ∧ w'.list (pathOf slashes ns) = .error fault) ∨
      ∃ names names', w.list (pathOf slashes ns) = .ok names ∧ w'.list (pathOf slashes ns) = .ok names' ∧
        names'.filter (ns ++ [·] ∉ apart) = names.filter (ns ++ [·] ∉ apart) := by
  refine ((h.findsShape hs hn hns).list (h.allow _)).imp_right ?_
  rintro ⟨names, names', hl, hl'⟩
  refine ⟨names, names', hl, hl', ?_⟩
  have hmem : ∀ name, name ∈ names'.filter (ns ++ [·] ∉ apart) ↔ name ∈ names.filter (ns ++ [·] ∉ apart) := by
    intro name
    rw [List.mem_filter, List.mem_filter, mem_iff_of_list hs hn hl, mem_iff_of_list hs hn hl']
    exact and_congr_left fun hne => by rw [h.look _ (of_decide_eq_true hne)]
  have hsorted := (sorted_of_list ht hl).filter (ns ++ [·] ∉ apart)
  have hsorted' := (sorted_of_list ht' hl').filter (ns ++ [·] ∉ apart)
  have hlt : ∀ {a b : String}, a < b → a ≠ b := fun hab he => String.lt_irrefl _ (he ▸ hab)
  exact List.Perm.eq_of_pairwise (fun a b _ _ hab hba => absurd hba (String.lt_asymm hab)) hsorted' hsorted
    ((List.perm_ext_iff_of_nodup (hsorted'.imp hlt) (hsorted.imp hlt)).2 hmem)

end SameBut
end World
end ComponentUsage
