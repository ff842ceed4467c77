/-!
# Texts from bytes

The text that a sequence of UTF-8 bytes stands for. Reading is strict
(`ofBytes?`) or lenient (`ofBytes`): then every longest piece that no character
goes on from becomes one replacement character. Line ends are read as `\n`,
however they were written.
-/

namespace ComponentUsage.Text

/-- A character of which some bytes are still to come. -/
structure Unfinished where
  /-- The bits read so far. -/
  bits : Nat
  /-- How many bytes are to come. -/
  missing : Nat
  /-- The least and the greatest value of the next byte. -/
  least : Nat
  greatest : Nat

/-- What a first byte begins: a character, the start of one, or nothing. -/
inductive Lead where
  | whole (c : Char)
  | start (u : Unfinished)
  | invalid

/-- The role of a first byte. The bounds on the second byte keep out characters
written with more bytes than they need, surrogates and numbers past the last
character. -/
def Lead.ofByte (b : Nat) : Lead :=
  if b < 0x80 then .whole (Char.ofNat b)
  else if b < 0xC2 then .invalid
  else if b < 0xE0 then .start ⟨b - 0xC0, 1, 0x80, 0xBF⟩
  else if b = 0xE0 then .start ⟨0, 2, 0xA0, 0xBF⟩
  else if b = 0xED then .start ⟨0xD, 2, 0x80, 0x9F⟩
  else if b < 0xF0 then .start ⟨b - 0xE0, 2, 0x80, 0xBF⟩
  else if b = 0xF0 then .start ⟨0, 3, 0x90, 0xBF⟩
  else if b < 0xF4 then .start ⟨b - 0xF0, 3, 0x80, 0xBF⟩
  else if b = 0xF4 then .start ⟨4, 3, 0x80, 0x8F⟩
  else .invalid

/-- The character that stands for bytes that are none. -/
def replacement : Char := Char.ofNat 0xFFFD

/-- The characters of the bytes that follow a first byte's role. -/
def Lead.emit : Lead → Option Unfinished × List Char
  | .whole c => (none, [c])
  | .start u => (some u, [])
  | .invalid => (none, [replacement])

/-- The characters of some bytes, after the unfinished one in front of them. -/
def lenientChars : Option Unfinished → List Nat → List Char
  | none, [] => []
  | some _, [] => [replacement]
  | none, b :: bs =>
    let (next, out) := (Lead.ofByte b).emit
    out ++ lenientChars next bs
  | some u, b :: bs =>
    if u.least ≤ b && b ≤ u.greatest then
      let bits := u.bits * 64 + (b - 0x80)
      if u.missing ≤ 1 then Char.ofNat bits :: lenientChars none bs
      else lenientChars (some ⟨bits, u.missing - 1, 0x80, 0xBF⟩) bs
    else
      let (next, out) := (Lead.ofByte b).emit
      replacement :: (out ++ lenientChars next bs)

/-- Line ends of every kind as `\n`. -/
def unifyNewlines : List Char → List Char
  | '\r' :: '\n' :: cs => '\n' :: unifyNewlines cs
  | '\r' :: cs => '\n' :: unifyNewlines cs
  | c :: cs => c :: unifyNewlines cs
  | [] => []

/-- The text of some bytes, line ends unified, unless they are not UTF-8. -/
def ofBytes? (bytes : ByteArray) : Option String :=
  (String.fromUTF8? bytes).map fun s => String.ofList (unifyNewlines s.toList)

/-- The text of some bytes as they stand, with replacement characters where they
are not UTF-8. -/
def verbatim (bytes : ByteArray) : String :=
  match String.fromUTF8? bytes with
  | some s => s
  | none => String.ofList (lenientChars none (bytes.toList.map UInt8.toNat))

/-- The text of any bytes, line ends unified. -/
def ofBytes (bytes : ByteArray) : String :=
  String.ofList (unifyNewlines (verbatim bytes).toList)

theorem fromUTF8?_toUTF8 (s : String) : String.fromUTF8? s.toUTF8 = some s := by
  unfold String.fromUTF8?
  rw [dif_pos (show s.toUTF8.IsValidUTF8 from s.isValidUTF8)]
  rfl

theorem unifyNewlines_of_not_mem {cs : List Char} (h : '\r' ∉ cs) : unifyNewlines cs = cs := by
  induction cs with
  | nil => rfl
  | cons c cs ih =>
    rw [List.mem_cons, not_or] at h
    have hc : c = '\r' → False := fun he => h.1 he.symm
    rw [unifyNewlines.eq_3 c cs (fun _ he _ => hc he) hc, ih h.2]

/-- A text whose lines all end in `\n` is read back from its bytes. -/
theorem ofBytes?_toUTF8 {s : String} (h : '\r' ∉ s.toList) : ofBytes? s.toUTF8 = some s := by
  rw [ofBytes?, fromUTF8?_toUTF8, Option.map_some, unifyNewlines_of_not_mem h, String.ofList_toList]

end ComponentUsage.Text
