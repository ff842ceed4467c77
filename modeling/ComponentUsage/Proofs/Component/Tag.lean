import ComponentUsage.Component.Tag
import ComponentUsage.Proofs.Text.Letter
/-!
# Where a tag is opened

A place of a text where a tag of some name is opened is described character by character
(`OpensAt`). A template uses a selector just when there is such a place (`uses_iff`), wherever
the places lie and whatever is in between.
-/

namespace ComponentUsage.Tag

/-- A tag of that name is opened at a place of a text: there is `<`, then the name letter by
letter in whatever case, and then a character that ends it. -/
structure OpensAt (name text : List Char) (i : Nat) : Prop where
  opens : text[i]? = some '<'
  letters : ∀ (k : Nat) (a : Char), name[k]? = some a → ∃ c, text[i + 1 + k]? = some c ∧ Text.sameLetter a c = true
  ends : ∃ c, text[i + 1 + name.length]? = some c ∧ (Text.isBlank c = true ∨ c = '>' ∨ c = '/')

variable {name cs rest : List Char}

theorem endsName_iff {c : Char} : endsName c = true ↔ Text.isBlank c = true ∨ c = '>' ∨ c = '/' := by
  simp only [endsName, Bool.or_eq_true, beq_iff_eq, or_assoc]

/-- A text goes on after a name if it has the letters of the name, one after the other. -/
theorem afterName?_eq_some_iff :
    afterName? name cs = some rest ↔
      (∀ (k : Nat) (a : Char), name[k]? = some a → ∃ c, cs[k]? = some c ∧ Text.sameLetter a c = true) ∧
        cs.drop name.length = rest := by
  induction name generalizing cs with
  | nil => simp [afterName?]
  | cons a name ih =>
    cases cs with
    | nil =>
      refine ⟨nofun, fun ⟨hletters, _⟩ => ?_⟩
      obtain ⟨c, hc, -⟩ := hletters 0 a rfl
      cases hc
    | cons c cs =>
      have hfirst : (∀ (k : Nat) (b : Char), (a :: name)[k]? = some b →
          ∃ d, (c :: cs)[k]? = some d ∧ Text.sameLetter b d = true) ↔
          Text.sameLetter a c = true ∧
            ∀ (k : Nat) (b : Char), name[k]? = some b → ∃ d, cs[k]? = some d ∧ Text.sameLetter b d = true := by
        constructor
        · intro h
          obtain ⟨d, hd, hsame⟩ := h 0 a rfl
          obtain rfl := Option.some.inj hd
          exact ⟨hsame, fun k b hb => h (k + 1) b hb⟩
        · rintro ⟨hsame, h⟩ k b hb
          cases k with
          | zero =>
            obtain rfl := Option.some.inj hb
            exact ⟨c, rfl, hsame⟩
          | succ k => exact h k b hb
      rw [afterName?, hfirst, and_assoc, List.length_cons, List.drop_succ_cons]
      split
      · rename_i hsame
        rw [ih, and_iff_right hsame]
      · rename_i hsame
        simp [hsame]

theorem opensHere_iff : opensHere name cs = true ↔ OpensAt name cs 0 := by
  cases cs with
  | nil => exact ⟨nofun, fun h => nomatch h.opens⟩
  | cons c cs =>
    by_cases hc : c = '<'
    · subst hc
      have hshift : ∀ k, ('<' :: cs)[0 + 1 + k]? = cs[k]? := fun k => by
        rw [Nat.zero_add, Nat.add_comm, List.getElem?_cons_succ]
      rw [opensHere]
      constructor
      · intro h
        split at h
        · rename_i d more hafter
          obtain ⟨hletters, hdrop⟩ := afterName?_eq_some_iff.1 hafter
          refine ⟨rfl, fun k a ha => by rw [hshift]; exact hletters k a ha, d, ?_, endsName_iff.1 h⟩
          rw [hshift, ← Nat.add_zero name.length, ← List.getElem?_drop, hdrop]
          rfl
        · cases h
      · rintro ⟨-, hletters, d, hd, hends⟩
        simp only [hshift] at hletters hd
        have hafter := afterName?_eq_some_iff.2 ⟨hletters, rfl⟩
        obtain ⟨hlt, hget⟩ := List.getElem?_eq_some_iff.1 hd
        rw [List.drop_eq_getElem_cons hlt, hget] at hafter
        rw [hafter]
        exact endsName_iff.2 hends
    · have hnone : opensHere name (c :: cs) = false := by
        unfold opensHere
        split
        · rename_i h
          exact absurd (List.cons.inj h).1 hc
        · rfl
      rw [hnone]
      exact ⟨nofun, fun h => absurd (Option.some.inj h.opens) hc⟩

theorem opensAt_succ_iff {c : Char} {i : Nat} : OpensAt name (c :: cs) (i + 1) ↔ OpensAt name cs i := by
  have hshift : ∀ k, (c :: cs)[i + 1 + 1 + k]? = cs[i + 1 + k]? := fun k => by
    rw [Nat.add_right_comm, List.getElem?_cons_succ]
  constructor
  · rintro ⟨hopens, hletters, hends⟩
    simp only [hshift] at hletters hends
    exact ⟨hopens, hletters, hends⟩
  · rintro ⟨hopens, hletters, hends⟩
    simp only [← hshift] at hletters hends
    exact ⟨hopens, hletters, hends⟩

/-- Looking on from each place, no opening is passed over. -/
theorem opensIn_iff : opensIn name cs = true ↔ ∃ i, OpensAt name cs i := by
  induction cs with
  | nil => exact ⟨nofun, fun ⟨_, h⟩ => nomatch h.opens⟩
  | cons c cs ih =>
    rw [opensIn, Bool.or_eq_true, opensHere_iff, ih]
    constructor
    · rintro (h | ⟨i, h⟩)
      · exact ⟨0, h⟩
      · exact ⟨i + 1, opensAt_succ_iff.2 h⟩
    · rintro ⟨i, h⟩
      cases i with
      | zero => exact .inl h
      | succ i => exact .inr ⟨i, opensAt_succ_iff.1 h⟩

/-- Where a tag is opened, the signs of its name stand as they are. -/
theorem OpensAt.sign {text : List Char} {i k : Nat} {a : Char} (h : OpensAt name text i) (ha : name[k]? = some a)
    (hsign : Text.IsSign a) : text[i + 1 + k]? = some a := by
  obtain ⟨c, hc, hsame⟩ := h.letters k a ha
  rwa [(Text.sameLetter_iff_of_isSign hsign).1 hsame] at hc

/-- A name that goes on, or that the end of the text cuts off, is no tag of that name. -/
theorem not_opensAt_of_more {more : List Char} {i : Nat} (hname : '<' ∉ name) (hmore : '<' ∉ more)
    (hends : ∀ c ∈ more.head?, endsName c = false) : ¬ OpensAt name ('<' :: (name ++ more)) i := by
  rintro ⟨hopens, -, c, hc, hend⟩
  cases i with
  | zero =>
    rw [Nat.zero_add, Nat.add_comm, List.getElem?_cons_succ, List.getElem?_append_right (Nat.le_refl _),
      Nat.sub_self, ← List.head?_eq_getElem?] at hc
    exact Bool.false_ne_true ((hends c hc).symm.trans (endsName_iff.2 hend))
  | succ i =>
    rw [List.getElem?_cons_succ] at hopens
    exact (List.mem_append.1 (List.mem_of_getElem? hopens)).elim hname hmore

/-- A template uses a selector if at some place it opens a tag of that name, in whatever case.
The signs of the selector stand for themselves there; and a longer name, or one that the text
ends with, is not a use. -/
theorem uses_iff (template selector : String) :
    (uses template selector = true ↔ selector ≠ "" ∧ ∃ i, OpensAt selector.toList template.toList i) ∧
      (∀ i, OpensAt selector.toList template.toList i →
        ∀ (k : Nat) (a : Char), selector.toList[k]? = some a → Text.IsSign a → template.toList[i + 1 + k]? = some a) ∧
      ∀ more, '<' ∉ selector.toList → '<' ∉ more → (∀ c ∈ more.head?, endsName c = false) →
        uses (String.ofList ('<' :: (selector.toList ++ more))) selector = false := by
  refine ⟨?_, fun i h k a => h.sign, fun more hname hmore hends => ?_⟩
  · rw [uses, Bool.and_eq_true, decide_eq_true_eq, opensIn_iff]
  · rw [uses, String.toList_ofList, Bool.and_eq_false_iff]
    refine .inr (Bool.eq_false_iff.2 fun hin => ?_)
    obtain ⟨i, hi⟩ := opensIn_iff.1 hin
    exact not_opensAt_of_more hname hmore hends hi

/-- A name that comes again within itself is found, in whatever case. A longer one is not a use. -/
theorem uses_iff_overlapping :
    uses "<a<a<A/" "a<a" = true ∧ "<a<a<A/".toList[2 + 1 + 1]? = some '<' ∧
      uses (String.ofList ('<' :: ("app-it".toList ++ "em>".toList))) "app-it" = false := by
  have hopens : OpensAt "a<a".toList "<a<a<A/".toList 2 :=
    opensAt_succ_iff.2 (opensAt_succ_iff.2 (opensHere_iff.1 (by decide +kernel)))
  obtain ⟨hiff, hsigns, -⟩ := uses_iff "<a<a<A/" "a<a"
  obtain ⟨-, -, hmore⟩ := uses_iff "" "app-it"
  have hgoesOn : ∀ c ∈ "em>".toList.head?, endsName c = false := by
    rintro c ⟨⟩
    decide
  exact ⟨hiff.2 ⟨by decide, 2, hopens⟩, hsigns 2 hopens 1 '<' rfl (by decide),
    hmore "em>".toList (by decide) (by decide) hgoesOn⟩

end ComponentUsage.Tag
