import ComponentUsage.Text.LetterTable
/-!
# Letters without regard to case

When two characters count as the same letter: their small letters agree, or
these are two shapes of one letter.
-/

namespace ComponentUsage.Text

/-- The small letter of a character, or the character itself. -/
def small (c : Char) : Char :=
  match letterRuns.find? (·.covers c.toNat) with
  | some run => Char.ofNat (c.toNat + run.shift).toNat
  | none => c

/-- Small letters that are shapes of one letter, such as the sigma within a word
and the sigma that ends one. -/
def letterShapes : List (List Nat) := [
  [0x69, 0x131], [0x73, 0x17F], [0xB5, 0x3BC], [0x345, 0x3B9, 0x1FBE], [0x390, 0x1FD3],
  [0x3B0, 0x1FE3], [0x3B2, 0x3D0], [0x3B5, 0x3F5], [0x3B8, 0x3D1], [0x3BA, 0x3F0],
  [0x3C0, 0x3D6], [0x3C1, 0x3F1], [0x3C2, 0x3C3], [0x3C6, 0x3D5], [0x1E61, 0x1E9B],
  [0xFB05, 0xFB06], [0x432, 0x1C80], [0x434, 0x1C81], [0x43E, 0x1C82], [0x441, 0x1C83],
  [0x442, 0x1C84, 0x1C85], [0x44A, 0x1C86], [0x463, 0x1C87], [0x1C88, 0xA64B]]

/-- Two characters are one letter, whatever their case. -/
def sameLetter (a b : Char) : Bool :=
  small a == small b ||
    letterShapes.any fun shapes =>
      shapes.contains (small a).toNat && shapes.contains (small b).toNat

theorem sameLetter_refl (a : Char) : sameLetter a a = true := by
  simp [sameLetter]

theorem sameLetter_comm (a b : Char) : sameLetter a b = sameLetter b a := by
  simp only [sameLetter, Bool.and_comm, Bool.beq_comm (a := small a)]

/-- Two texts of one length that agree letter by letter. -/
def sameLetters : List Char → List Char → Bool
  | [], [] => true
  | a :: as, b :: bs => sameLetter a b && sameLetters as bs
  | _, _ => false

end ComponentUsage.Text
