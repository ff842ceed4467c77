import ComponentUsage.Proofs.Path.Resolved
/-!
# Paths in a directory

A path is a directory or lies below it if the directory's names come first among its own
(`isWithin_iff`), and then what is shown of it from there takes no step back
(`climbsOut_iff`). But a path with exactly two slashes in front is apart from all others, and in
a directory that is apart lies no path, not even the directory itself.
-/

namespace ComponentUsage

namespace Path

theorem shared_eq_left_iff {as bs : List String} : shared as bs = as ↔ as <+: bs := by
  constructor
  · intro h
    have hshared := shared_prefix bs as
    rwa [shared_comm, h] at hshared
  · rintro ⟨rest, rfl⟩
    have hnil : shared [] rest = [] := List.prefix_nil.1 <| shared_prefix [] rest
    have hshared := shared_append as [] rest
    rwa [hnil, List.append_nil] at hshared

/-- A path of names tells its slashes and its names. -/
theorem pathOf_inj {slashes slashes' : String} {ns ns' : List String} (hs : slashes = "/" ∨ slashes = "//")
    (hs' : slashes' = "/" ∨ slashes' = "//") (hn : ∀ n ∈ ns, Node.IsName n) (hn' : ∀ n ∈ ns', Node.IsName n) :
    World.pathOf slashes ns = World.pathOf slashes' ns' ↔ slashes = slashes' ∧ ns = ns' := by
  constructor
  · intro he
    have hslashes := leadingSlashes_pathOf hs hn
    have hnames := names_pathOf hs hn
    rw [he, leadingSlashes_pathOf hs' hn'] at hslashes
    rw [he, names_pathOf hs' hn'] at hnames
    exact ⟨hslashes.symm, hnames.symm⟩
  · rintro ⟨rfl, rfl⟩
    rfl

end Path

namespace Place

variable {here : Place}

/-- Exactly two slashes in front set a path apart. -/
def IsApart (here : Place) (p : String) : Prop := Path.leadingSlashes (here.absolute p) = "//"

instance (here : Place) (p : String) : Decidable (here.IsApart p) :=
  inferInstanceAs (Decidable (Path.leadingSlashes (here.absolute p) = "//"))

/-- What is shown of a path from a directory starts with a step back. -/
def ClimbsOut (here : Place) (p dir : String) : Prop :=
  (Path.segments (here.display p dir "/")).head? = some ".."

instance (here : Place) (p dir : String) : Decidable (here.ClimbsOut p dir) :=
  inferInstanceAs (Decidable ((Path.segments (here.display p dir "/")).head? = some ".."))

/-- The names of a path have no backslash if neither the path nor the working directory has one. -/
theorem noBackslash_of_not_mem {p : String} (hp : '\\' ∉ p.toList)
    (hdir : '\\' ∉ here.workingDirectory.toList) : here.NoBackslash p := by
  have hjoin : '\\' ∉ (Path.join here.workingDirectory p).toList := by
    unfold Path.join
    split
    · exact hp
    · split <;> simp [hp, hdir]
  intro n hn hc
  rcases Path.mem_of_mem_normalize (Path.mem_of_mem_segments (List.mem_filter.1 hn).1 hc).1 with h | h | h
  · exact hjoin h
  · cases h
  · cases h

section absolute

variable (ha : Path.isAbsolute here.workingDirectory = true)

include ha

/-! ## Names in front -/

/-- A path lies in a directory that is not apart if the directory's names come first among its own. -/
theorem isWithin_iff (p dir : String) :
    here.isWithin p dir = true ↔
      ¬ here.IsApart dir ∧ Path.names (here.absolute dir) <+: Path.names (here.absolute p) := by
  obtain ⟨slashes, ns, hs, hn, hdir⟩ := absolute_eq_pathOf ha dir
  have hfront := Path.shared_prefix ns (Path.names (here.absolute p))
  have hshared : ∀ n ∈ Path.shared ns (Path.names (here.absolute p)), Node.IsName n := fun n hm =>
    hn n (hfront.subset hm)
  rw [isWithin, IsApart, hdir, beq_iff_eq, Path.names_pathOf hs hn, Path.leadingSlashes_pathOf hs hn,
    Path.shared_comm, ← World.pathOf, Path.pathOf_inj (.inl rfl) hs hshared hn, Path.shared_eq_left_iff]
  refine and_congr_left fun _ => ?_
  rcases hs with rfl | rfl <;> decide

/-! ## Steps back -/

/-- The segments that lead from a directory to a path start with a step back if the path is not
in it. -/
theorem head?_relative_iff (p dir : String) :
    (here.relative p dir).head? = some ".." ↔
      ¬ Path.names (here.absolute dir) <+: Path.names (here.absolute p) := by
  constructor
  · rintro hback ⟨rest, hrest⟩
    rw [relative_of_below rfl hrest.symm] at hback
    have hmem : ".." ∈ Path.names (here.absolute p) :=
      hrest ▸ List.mem_append_right _ (List.mem_of_head? hback)
    exact (isName_of_mem_absolute ha p _ hmem).ne_above rfl
  · intro hout
    have hshared := Path.shared_prefix (Path.names (here.absolute dir)) (Path.names (here.absolute p))
    have hshort : (Path.shared (Path.names (here.absolute dir)) (Path.names (here.absolute p))).length <
        (Path.names (here.absolute dir)).length := by
      refine Nat.lt_of_le_of_ne hshared.length_le fun he => hout ?_
      exact Path.shared_eq_left_iff.1 (hshared.eq_of_length he)
    obtain ⟨k, hk⟩ := Nat.exists_eq_succ_of_ne_zero (Nat.sub_ne_zero_of_lt hshort)
    rw [relative, hk, List.replicate_succ]
    rfl

theorem climbsOut_iff_head? (p dir : String) :
    here.ClimbsOut p dir ↔ (here.displaySegments p dir).head? = some ".." := by
  rw [ClimbsOut, display, Path.segments_intercalate_eq_ite fun segment hs => (mem_displaySegments ha hs).2]
  split
  · rename_i hnone
    rw [hnone]
    decide
  · rfl

/-- What is shown of a path that is not in a directory starts with a step back, whatever its names. -/
theorem climbsOut_of_not_prefix {p dir : String}
    (h : ¬ Path.names (here.absolute dir) <+: Path.names (here.absolute p)) : here.ClimbsOut p dir := by
  obtain ⟨rest, hrest⟩ := List.head?_eq_some_iff.1 ((head?_relative_iff ha p dir).2 h)
  rw [climbsOut_iff_head? ha, displaySegments, hrest]
  rfl

/-- Without backslashes nothing else does. -/
theorem climbsOut_iff {p : String} (hp : here.NoBackslash p) (dir : String) :
    here.ClimbsOut p dir ↔ ¬ Path.names (here.absolute dir) <+: Path.names (here.absolute p) := by
  rw [climbsOut_iff_head? ha, displaySegments_eq_relative ha hp, head?_relative_iff ha]

end absolute

end Place
end ComponentUsage
