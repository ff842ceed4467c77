import ComponentUsage.Component.Declaration
import Mathlib.Data.List.TakeWhile
/-!
# The first declaration of a text

What a declaration looks like is said here without regard to how one is looked for: a label, a
colon with blanks around it, and a body between two quotes of one line (`Declares`). A text
declares the body of its first declaration, without the blanks around it (`name?_first`).
-/

namespace ComponentUsage

/-- Nothing is left of a text when it is trimmed, if there are only blanks in it. -/
theorem Text.trimChars_eq_nil_iff {cs : List Char} : trimChars cs = [] ↔ ∀ c ∈ cs, isBlank c = true := by
  have hfront : (∀ c ∈ cs.dropWhile isBlank, isBlank c = true) ↔ ∀ c ∈ cs, isBlank c = true := by
    rw [← List.dropWhile_eq_nil_iff, dropWhile_eq_self (head?_dropWhile_not_blank cs), List.dropWhile_eq_nil_iff]
  rw [trimChars, List.reverse_eq_nil_iff, List.dropWhile_eq_nil_iff, ← hfront]
  simp only [List.mem_reverse]

/-- What comes after the blanks that a text starts with, if it starts with no blank itself. -/
theorem Text.dropWhile_eq_cons_iff {cs rest : List Char} {c : Char} :
    cs.dropWhile isBlank = c :: rest ↔
      isBlank c = false ∧ ∃ gap, (∀ b ∈ gap, isBlank b = true) ∧ cs = gap ++ c :: rest := by
  constructor
  · intro h
    refine ⟨head?_dropWhile_not_blank cs c (by rw [h]; rfl), cs.takeWhile isBlank, fun b hb => ?_, ?_⟩
    · exact List.mem_takeWhile_imp hb
    · rw [← h, List.takeWhile_append_dropWhile]
  · rintro ⟨hc, gap, hgap, rfl⟩
    rw [List.dropWhile_append_of_pos hgap, List.dropWhile_cons_of_neg (by simp [hc])]

namespace Declaration

/-- What may stand between the quotes of a declaration. -/
def IsBody (body : List Char) : Prop := ∀ c ∈ body, isQuote c = false ∧ c ≠ '\n'

/-- A text starts with a declaration: the label, a colon among blanks, and a body between
quotes of either kind. -/
inductive Declares (label body : List Char) : List Char → Prop
  | intro {gap space rest : List Char} {opening closing : Char}
      (gap_blank : ∀ c ∈ gap, Text.isBlank c = true) (space_blank : ∀ c ∈ space, Text.isBlank c = true)
      (opens : isQuote opening = true) (isBody : IsBody body) (closes : isQuote closing = true) :
      Declares label body (label ++ (gap ++ ':' :: (space ++ opening :: (body ++ closing :: rest))))

/-- The body of the declaration that starts first in a text. -/
def IsFirst (label text body : List Char) : Prop :=
  ∃ i, Declares label body (text.drop i) ∧ ∀ j < i, ∀ other, ¬ Declares label other (text.drop j)

variable {label body cs rest : List Char}

theorem Declares.isBody (h : Declares label body cs) : IsBody body := by
  obtain ⟨-, -, -, hbody, -⟩ := h
  exact hbody

/-! ## At one place -/

theorem not_blank_of_quote {c : Char} (h : isQuote c = true) : Text.isBlank c = false := by
  rw [isQuote, Bool.or_eq_true, beq_iff_eq, beq_iff_eq] at h
  rcases h with rfl | rfl <;> decide

theorem after?_eq_some_iff : after? label cs = some rest ↔ cs = label ++ rest := by
  induction label generalizing cs with
  | nil => rw [after?, Option.some.injEq, List.nil_append]
  | cons a label ih =>
    cases cs with
    | nil => simp [after?]
    | cons c cs =>
      rw [after?, List.cons_append, List.cons.injEq]
      split
      · rename_i hc
        rw [ih, eq_comm (a := c), and_iff_right hc]
      · rename_i hc
        simp [Ne.symm hc]

/-- The body ends at the first quote, which is on the same line. -/
theorem body?_eq_some_iff :
    body? cs = some body ↔ IsBody body ∧ ∃ closing rest, isQuote closing = true ∧ cs = body ++ closing :: rest := by
  induction cs generalizing body with
  | nil => simp [body?]
  | cons c cs ih =>
    rw [body?]
    split
    -- a quote ends the body here
    · rename_i hc
      constructor
      · rintro ⟨⟩
        exact ⟨nofun, c, cs, hc, rfl⟩
      · rintro ⟨hbody, closing, rest, -, h⟩
        cases body with
        | nil => rfl
        | cons b body =>
          obtain ⟨rfl, -⟩ := List.cons.inj h
          exact absurd hc (by simp [(hbody c List.mem_cons_self).1])
    · rename_i hc
      split
      -- and so would the end of the line
      · rename_i hline
        constructor
        · nofun
        · rintro ⟨hbody, closing, rest, hcloses, h⟩
          cases body with
          | nil =>
            obtain ⟨rfl, -⟩ := List.cons.inj h
            exact absurd hcloses hc
          | cons b body =>
            obtain ⟨rfl, -⟩ := List.cons.inj h
            exact absurd hline (hbody c List.mem_cons_self).2
      · rename_i hline
        rw [Option.map_eq_some_iff]
        constructor
        · rintro ⟨inner, hinner, rfl⟩
          obtain ⟨hbody, closing, rest, hcloses, rfl⟩ := ih.1 hinner
          exact ⟨List.forall_mem_cons.2 ⟨⟨by simpa using hc, hline⟩, hbody⟩, closing, rest, hcloses, rfl⟩
        · rintro ⟨hbody, closing, rest, hcloses, h⟩
          cases body with
          | nil =>
            obtain ⟨rfl, -⟩ := List.cons.inj h
            exact absurd hcloses hc
          | cons b body =>
            obtain ⟨rfl, rfl⟩ := List.cons.inj h
            exact ⟨body, ih.2 ⟨(List.forall_mem_cons.1 hbody).2, closing, rest, hcloses, rfl⟩, rfl⟩

/-- Reading a declaration finds the one that is there. -/
theorem here?_eq_some_iff : here? label cs = some body ↔ Declares label body cs := by
  constructor
  · intro hhere
    obtain ⟨after, hafter, h⟩ := Option.bind_eq_some_iff.1 hhere
    obtain rfl := after?_eq_some_iff.1 hafter
    split at h
    · rename_i afterColon hcolon
      obtain ⟨-, gap, hgap, rfl⟩ := Text.dropWhile_eq_cons_iff.1 hcolon
      split at h
      · rename_i opening inner hopening
        obtain ⟨-, space, hspace, rfl⟩ := Text.dropWhile_eq_cons_iff.1 hopening
        split at h
        · rename_i hopens
          obtain ⟨hbody, closing, rest, hcloses, rfl⟩ := body?_eq_some_iff.1 h
          exact .intro hgap hspace hopens hbody hcloses
        · cases h
      · cases h
    · cases h
  · rintro ⟨hgap, hspace, hopens, hbody, hcloses⟩
    rename_i gap space rest opening closing
    have hcolon := Text.dropWhile_eq_cons_iff.2 ⟨show Text.isBlank ':' = false by decide, gap, hgap,
      show gap ++ ':' :: (space ++ opening :: (body ++ closing :: rest)) = _ from rfl⟩
    have hopening := Text.dropWhile_eq_cons_iff.2 ⟨not_blank_of_quote hopens, space, hspace,
      show space ++ opening :: (body ++ closing :: rest) = _ from rfl⟩
    have hinner := body?_eq_some_iff.2 ⟨hbody, closing, rest, hcloses, rfl⟩
    have hafter := after?_eq_some_iff.2
      (show label ++ (gap ++ ':' :: (space ++ opening :: (body ++ closing :: rest))) = label ++ _ from rfl)
    rw [here?, hafter]
    simp only [Option.bind_eq_bind, Option.bind_some, hcolon, hopening, hopens, if_true, hinner]

theorem here?_eq_none_iff : here? label cs = none ↔ ∀ body, ¬ Declares label body cs := by
  rw [Option.eq_none_iff_forall_ne_some]
  exact forall_congr' fun body => not_congr here?_eq_some_iff

instance (label body cs : List Char) : Decidable (Declares label body cs) :=
  decidable_of_iff _ here?_eq_some_iff

/-! ## At the first place -/

theorem not_declares_nil : ¬ Declares label body [] := by
  rw [← here?_eq_some_iff]
  cases label <;> simp [here?, after?]

/-- Where a text does not start with a declaration, its first one is the first of the rest. -/
theorem isFirst_cons_of_none {c : Char} (h : here? label (c :: cs) = none) :
    IsFirst label (c :: cs) body ↔ IsFirst label cs body := by
  have hnone := here?_eq_none_iff.1 h
  constructor
  · rintro ⟨i, hi, hfirst⟩
    cases i with
    | zero => exact absurd hi (hnone body)
    | succ i => exact ⟨i, hi, fun j hj => hfirst (j + 1) (Nat.succ_lt_succ hj)⟩
  · rintro ⟨i, hi, hfirst⟩
    refine ⟨i + 1, hi, fun j hj => ?_⟩
    cases j with
    | zero => exact hnone
    | succ j => exact hfirst j (Nat.lt_of_succ_lt_succ hj)

theorem isFirst_cons_of_some {c : Char} {found : List Char} (h : here? label (c :: cs) = some found) :
    IsFirst label (c :: cs) body ↔ found = body := by
  constructor
  · rintro ⟨i, hi, hfirst⟩
    cases i with
    | zero => exact Option.some.inj (h.symm.trans (here?_eq_some_iff.2 hi))
    | succ i => exact absurd (here?_eq_some_iff.1 h) (hfirst 0 (Nat.succ_pos i) found)
  · rintro rfl
    exact ⟨0, here?_eq_some_iff.1 h, nofun⟩

theorem first?_eq_some_iff : first? label cs = some body ↔ IsFirst label cs body := by
  induction cs with
  | nil =>
    constructor
    · nofun
    · rintro ⟨i, hi, -⟩
      rw [List.drop_nil] at hi
      exact absurd hi not_declares_nil
  | cons c cs ih =>
    rw [first?]
    split
    · rename_i found h
      rw [isFirst_cons_of_some h, Option.some.injEq]
    · rename_i h
      rw [isFirst_cons_of_none h, ih]

theorem first?_eq_none_iff : first? label cs = none ↔ ∀ i body, ¬ Declares label body (cs.drop i) := by
  induction cs with
  | nil => simp [first?, not_declares_nil]
  | cons c cs ih =>
    rw [first?]
    split
    · rename_i found h
      exact ⟨nofun, fun hnone => absurd (here?_eq_some_iff.1 h) (hnone 0 found)⟩
    · rename_i h
      rw [ih]
      refine ⟨fun hnone i => ?_, fun hnone i => hnone (i + 1)⟩
      cases i with
      | zero => exact here?_eq_none_iff.1 h
      | succ i => exact hnone i

/-! ## The declared name -/

theorem name?_eq_some_iff {text label name : String} :
    name? text label = some name ↔
      ∃ body, IsFirst label.toList text.toList body ∧ Text.trimChars body = name.toList ∧ name ≠ "" := by
  have hempty : name.toList = [] ↔ name = "" := String.toList_eq_nil_iff
  rw [name?]
  cases hfirst : first? label.toList text.toList with
  | none =>
    refine ⟨nofun, fun ⟨body, hbody, _⟩ => ?_⟩
    rw [first?_eq_some_iff.2 hbody] at hfirst
    cases hfirst
  | some found =>
    have hfound : ∀ body, IsFirst label.toList text.toList body ↔ found = body := fun body => by
      rw [← first?_eq_some_iff, hfirst, Option.some.injEq]
    simp only [hfound, exists_eq_left', List.isEmpty_iff]
    split
    · rename_i hnil
      rw [hnil, eq_comm (a := []), hempty]
      simp
    · rename_i hne
      rw [Option.some.injEq, ← String.toList_inj, String.toList_ofList]
      refine ⟨fun h => ⟨h, fun he => hne ?_⟩, And.left⟩
      rw [h, hempty.2 he]

theorem name?_eq_none_iff {text label : String} :
    name? text label = none ↔ (∀ i body, ¬ Declares label.toList body (text.toList.drop i)) ∨
      ∃ body, IsFirst label.toList text.toList body ∧ ∀ c ∈ body, Text.isBlank c = true := by
  rw [name?, ← first?_eq_none_iff]
  cases hfirst : first? label.toList text.toList with
  | none => simp
  | some found =>
    have hfound : ∀ body, IsFirst label.toList text.toList body ↔ found = body := fun body => by
      rw [← first?_eq_some_iff, hfirst, Option.some.injEq]
    simp only [hfound, exists_eq_left', ← Text.trimChars_eq_nil_iff]
    cases h : Text.trimChars found <;> simp

/-- A text declares the name that its first declaration gives between quotes, without the blanks
around it; it declares none if it has no declaration, or if the first one is blank. Such a name
holds no quote and no line end, and there are no blanks around it. -/
theorem name?_first (text label : String) :
    (∀ name, name? text label = some name ↔
        ∃ body, IsFirst label.toList text.toList body ∧ Text.trimChars body = name.toList ∧ name ≠ "") ∧
      (name? text label = none ↔ (∀ i body, ¬ Declares label.toList body (text.toList.drop i)) ∨
        ∃ body, IsFirst label.toList text.toList body ∧ ∀ c ∈ body, Text.isBlank c = true) ∧
      ∀ name, name? text label = some name → IsBody name.toList ∧ Text.Trimmed name.toList := by
  refine ⟨fun name => name?_eq_some_iff, name?_eq_none_iff, fun name h => ?_⟩
  obtain ⟨body, ⟨i, hi, -⟩, hname, -⟩ := name?_eq_some_iff.1 h
  rw [← hname]
  exact ⟨fun c hc => hi.isBody c ((Text.trimChars_append body).subset hc), Text.trimChars_trimmed body⟩

/-- A declaration that is not closed on its line is passed over, and a blank one hides the next. -/
theorem name?_first_passing :
    (∃ body, IsFirst "selector".toList "selector: 'lost\nselector : \" app-cart '".toList body ∧
        Text.trimChars body = "app-cart".toList ∧ "app-cart" ≠ "") ∧
      (IsBody "app-cart".toList ∧ Text.Trimmed "app-cart".toList) ∧
      name? "selector: ' ' selector: 'cart'" "selector" = none := by
  have hcart : name? "selector: 'lost\nselector : \" app-cart '" "selector" = some "app-cart" := by decide +kernel
  obtain ⟨hsome, -, hneat⟩ := name?_first "selector: 'lost\nselector : \" app-cart '" "selector"
  have hblank := name?_first "selector: ' ' selector: 'cart'" "selector"
  have hblanks : ∀ c ∈ [' '], Text.isBlank c = true := List.forall_mem_singleton.2 (by decide)
  exact ⟨(hsome _).1 hcart, hneat _ hcart, hblank.2.1.2 (.inr ⟨[' '], ⟨0, by decide +kernel, nofun⟩, hblanks⟩)⟩

end Declaration
end ComponentUsage
