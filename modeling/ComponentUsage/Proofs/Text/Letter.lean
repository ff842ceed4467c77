import ComponentUsage.Text.Letter
/-!
# Characters that are no letters

No other character counts as the same letter as a sign of the keyboard: all that the table of
letters leads to, or joins, is a letter or lies beyond those signs (`sameLetter_iff_of_isSign`).
-/

namespace ComponentUsage.Text

/-- Digits, punctuation and the like: the first 128 characters without the letters. -/
def IsSign (c : Char) : Prop := c.toNat < 128 ∧ c.isAlpha = false

instance (c : Char) : Decidable (IsSign c) := inferInstanceAs (Decidable (_ ∧ _))

/-- Code points of which none is a sign's. -/
def NoSigns (first last : Int) : Prop :=
  (65 ≤ first ∧ last ≤ 90) ∨ (97 ≤ first ∧ last ≤ 122) ∨ (128 ≤ first ∧ last < 0xD800) ∨
    (0xE000 ≤ first ∧ last < 0x110000)

instance (first last : Int) : Decidable (NoSigns first last) := inferInstanceAs (Decidable (_ ∨ _))

theorem ne_of_noSigns {c : Char} {first last n : Int} (hc : IsSign c) (h : NoSigns first last) (hf : first ≤ n)
    (hl : n ≤ last) : (c.toNat : Int) ≠ n := by
  obtain ⟨hlt, halpha⟩ := hc
  have hletter : ¬ ((65 ≤ c.toNat ∧ c.toNat ≤ 90) ∨ (97 ≤ c.toNat ∧ c.toNat ≤ 122)) := by
    intro hin
    have htrue : c.isAlpha = true := by
      change (decide (c.val ≥ 65 ∧ c.val ≤ 90) || (decide (c.val ≥ 97) && decide (c.val ≤ 122))) = true
      simp only [Bool.or_eq_true, Bool.and_eq_true, decide_eq_true_eq, ge_iff_le, UInt32.le_iff_toNat_le]
      exact hin
    rw [htrue] at halpha
    cases halpha
  unfold NoSigns at h
  omega

theorem toNat_ofNat {n : Nat} (h : n.isValidChar) : (Char.ofNat n).toNat = n := by
  rw [Char.ofNat, dif_pos h]
  rfl

/-- The runs of the table hold no signs, and lead to none. -/
theorem noSigns_letterRuns :
    ∀ run ∈ letterRuns, NoSigns run.first run.last ∧ NoSigns (run.first + run.shift) (run.last + run.shift) := by
  decide +kernel

theorem noSigns_letterShapes : ∀ shapes ∈ letterShapes, ∀ n ∈ shapes, NoSigns n n := by
  decide +kernel

theorem small_of_isSign {a : Char} (h : IsSign a) : small a = a := by
  have hnone : letterRuns.find? (·.covers a.toNat) = none := by
    rw [List.find?_eq_none]
    intro run hrun hcovers
    simp only [LetterRun.covers, Bool.and_eq_true, decide_eq_true_eq] at hcovers
    exact ne_of_noSigns h (noSigns_letterRuns run hrun).1 (Int.ofNat_le.2 hcovers.1.1) (Int.ofNat_le.2 hcovers.1.2) rfl
  rw [small, hnone]

/-- A sign is the small letter of no character but itself. -/
theorem eq_of_small_eq {a c : Char} (h : IsSign a) (hc : small c = a) : c = a := by
  rw [small] at hc
  split at hc
  · rename_i run hrun
    have hcovers := List.find?_some hrun
    obtain ⟨-, hland⟩ := noSigns_letterRuns run (List.mem_of_find?_eq_some hrun)
    simp only [LetterRun.covers, Bool.and_eq_true, decide_eq_true_eq] at hcovers
    have hne := @ne_of_noSigns a _ _ (c.toNat + run.shift) h hland (by omega) (by omega)
    have hvalid : (c.toNat + run.shift).toNat.isValidChar := by
      unfold Nat.isValidChar
      unfold NoSigns at hland
      omega
    refine absurd ?_ hne
    rw [← hc, toNat_ofNat hvalid]
    unfold NoSigns at hland
    omega
  · exact hc

theorem sameLetter_iff_of_isSign {a c : Char} (h : IsSign a) : sameLetter a c = true ↔ c = a := by
  constructor
  · intro hsame
    rw [sameLetter, Bool.or_eq_true, beq_iff_eq, List.any_eq_true, small_of_isSign h] at hsame
    rcases hsame with hsmall | ⟨shapes, hshapes, hin⟩
    · exact eq_of_small_eq h hsmall.symm
    · rw [Bool.and_eq_true, List.contains_iff_mem] at hin
      exact absurd rfl (ne_of_noSigns h (noSigns_letterShapes shapes hshapes _ hin.1) (Int.le_refl _) (Int.le_refl _))
  · rintro rfl
    exact sameLetter_refl _

end ComponentUsage.Text
