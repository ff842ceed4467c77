/-!
# Blank characters

Which characters count as blank space, and texts without the blanks around
them. Trimming leaves a text that neither starts nor ends with a blank
(`trimChars_trimmed`) and leaves such a text alone (`trimChars_eq_self`), so
trimming twice is trimming once (`trim_trim`).
-/

namespace ComponentUsage.Text

/-- The characters that separate words without being seen: tabulation and line
ends, the information separators, and the space characters of every script. -/
def isBlank (c : Char) : Bool :=
  let n := c.toNat
  (0x09 ≤ n && n ≤ 0x0D) || (0x1C ≤ n && n ≤ 0x20) || n == 0x85 || n == 0xA0 || n == 0x1680 ||
    (0x2000 ≤ n && n ≤ 0x200A) || n == 0x2028 || n == 0x2029 || n == 0x202F || n == 0x205F ||
    n == 0x3000

/-- The characters left when the blanks at both ends are gone. -/
def trimChars (cs : List Char) : List Char :=
  (((cs.dropWhile isBlank).reverse).dropWhile isBlank).reverse

/-- A text without the blanks at its ends. -/
def trim (s : String) : String := String.ofList (trimChars s.toList)

/-! ## Trimmed texts -/

/-- No blank at either end. -/
def Trimmed (cs : List Char) : Prop :=
  (∀ c ∈ cs.head?, isBlank c = false) ∧ (∀ c ∈ cs.getLast?, isBlank c = false)

theorem head?_dropWhile_not_blank (cs : List Char) :
    ∀ c ∈ (cs.dropWhile isBlank).head?, isBlank c = false := by
  intro c hc
  have := List.head?_dropWhile_not isBlank cs
  rw [Option.mem_def.1 hc] at this
  simpa using this

theorem dropWhile_eq_self {cs : List Char} (h : ∀ c ∈ cs.head?, isBlank c = false) :
    cs.dropWhile isBlank = cs := by
  cases cs with
  | nil => rfl
  | cons c cs => simp [h c rfl]

/-- What `trimChars` leaves of a text is the middle of it. -/
theorem trimChars_append (cs : List Char) :
    trimChars cs <:+: cs := by
  have h1 : trimChars cs <+: cs.dropWhile isBlank := by
    rw [trimChars, ← List.reverse_suffix, List.reverse_reverse]
    exact List.dropWhile_suffix _
  exact h1.isInfix.trans (List.dropWhile_suffix _).isInfix

theorem trimChars_trimmed (cs : List Char) : Trimmed (trimChars cs) := by
  have h1 : trimChars cs <+: cs.dropWhile isBlank := by
    rw [trimChars, ← List.reverse_suffix, List.reverse_reverse]
    exact List.dropWhile_suffix _
  refine ⟨fun c hc => ?_, fun c hc => ?_⟩
  · obtain ⟨rest, hr⟩ := h1
    refine head?_dropWhile_not_blank cs c ?_
    rw [← hr, Option.mem_def, List.head?_append, Option.mem_def.1 hc, Option.some_or]
  · refine head?_dropWhile_not_blank (cs.dropWhile isBlank).reverse c ?_
    rwa [trimChars, List.getLast?_reverse] at hc

theorem trimChars_eq_self {cs : List Char} (h : Trimmed cs) : trimChars cs = cs := by
  rw [trimChars, dropWhile_eq_self h.1, dropWhile_eq_self, List.reverse_reverse]
  intro c hc
  exact h.2 c (by rwa [List.head?_reverse] at hc)

theorem trim_trim (s : String) : trim (trim s) = trim s := by
  simp [trim, trimChars_eq_self (trimChars_trimmed s.toList)]

end ComponentUsage.Text
