/-!
# Text in lines

A text broken into lines that are no longer than a width (`length_le_of_mem_fill`).
Lines are broken at spaces, after the hyphen of a compound word and, where nothing
else helps, within a word.
-/

namespace ComponentUsage.Text

/-- Whether a word can be broken between what is before, last character first, and
what comes: after a hyphen that joins two parts of a compound word. -/
def breaksBetween (before after : List Char) : Bool :=
  match before, after with
  | '-' :: a :: b :: _, c :: d :: e =>
    a.isAlpha && b.isAlpha && c.isAlpha && (d.isAlpha || d == '-' && e.head?.any Char.isAlpha)
  | _, _ => false

/-- The pieces of a word that can stand in different lines; `piece` are the
characters of the first one so far, last one first. -/
def pieces (piece : List Char) : List Char → List (List Char)
  | [] => if piece.isEmpty then [] else [piece.reverse]
  | c :: cs =>
    if breaksBetween (c :: piece) cs then (c :: piece).reverse :: pieces [] cs
    else pieces (c :: piece) cs

/-- Nothing of a word is lost between its pieces. -/
theorem flatten_pieces (piece cs : List Char) : (pieces piece cs).flatten = piece.reverse ++ cs := by
  induction cs generalizing piece with
  | nil => cases piece <;> simp [pieces]
  | cons c cs ih => rw [pieces]; split <;> simp [ih]

/-- The pieces of a text, with the spaces between its words. -/
def chunks (text : List Char) : List (List Char) :=
  [[' ']].intercalate ((text.splitOn ' ').map (pieces []))

/-- A line without the space at its end. -/
def withoutSpace (line : List Char) : List Char :=
  if line.getLast? = some ' ' then line.dropLast else line

/-- How much of a piece that is too long for every line goes into this one: at
least one character of it, if the line is empty. -/
def room (width : Nat) (line : List Char) : Nat :=
  if line.isEmpty then max width 1 else width - line.length

theorem length_pos_of_room_eq_zero {width : Nat} {line : List Char} (h : room width line = 0) :
    0 < line.length := by
  cases line with
  | nil => simp only [room, List.isEmpty_nil, if_true] at h; omega
  | cons c line => simp

/-- Puts pieces into lines, of which the first holds `line` already. A piece that is
too long for every line fills the line at hand and goes on in the next. -/
def fill (width : Nat) (line : List Char) (cs : List (List Char)) : List (List Char) :=
  match cs with
  | [] => if line.isEmpty then [] else [withoutSpace line]
  | c :: rest =>
    if line.isEmpty && c = [' '] then fill width [] rest
    else if _h : line.length + c.length ≤ width then fill width (line ++ c) rest
    else if _h : c.length ≤ width then withoutSpace line :: fill width [] (c :: rest)
    else if _h : room width line = 0 then line :: fill width [] (c :: rest)
    else (line ++ c.take (room width line)) :: fill width [] (c.drop (room width line) :: rest)
termination_by 2 * (cs.flatten.length + cs.length) + min 1 line.length
decreasing_by
  all_goals simp only [List.flatten_cons, List.length_append, List.length_cons, List.length_nil,
    List.length_drop]
  · omega
  · omega
  · omega
  · have := length_pos_of_room_eq_zero _h
    omega
  · omega

theorem length_withoutSpace_le (line : List Char) : (withoutSpace line).length ≤ line.length := by
  rw [withoutSpace]
  split <;> simp

/-- No line is longer than the width. -/
theorem length_le_of_mem_fill {width : Nat} (hw : 0 < width) {line : List Char}
    (hl : line.length ≤ width) {cs : List (List Char)} {l : List Char} (h : l ∈ fill width line cs) :
    l.length ≤ width := by
  fun_induction fill width line cs with
  | case1 line => simp at h
  | case2 line hne =>
    obtain rfl := List.mem_singleton.1 h
    exact Nat.le_trans (length_withoutSpace_le line) hl
  | case3 line c rest hs ih => exact ih (Nat.zero_le width) h
  | case4 line c rest hs hfit ih => exact ih (by simpa using hfit) h
  | case5 line c rest hs hfull hc ih =>
    rcases List.mem_cons.1 h with rfl | h
    · exact Nat.le_trans (length_withoutSpace_le line) hl
    · exact ih (Nat.zero_le width) h
  | case6 line c rest hs hfull hc hr ih =>
    rcases List.mem_cons.1 h with rfl | h
    · exact hl
    · exact ih (Nat.zero_le width) h
  | case7 line c rest hs hfull hc hr ih =>
    rcases List.mem_cons.1 h with rfl | h
    · have hroom : line.length + room width line ≤ width := by
        cases line with
        | nil => simp only [room, List.isEmpty_nil, if_true, List.length_nil]; omega
        | cons d line => simp only [room, List.isEmpty_cons, Bool.false_eq_true, if_false]; omega
      simp only [List.length_append, List.length_take]
      omega
    · exact ih (Nat.zero_le width) h

/-- The lines of a text that are no longer than a width. -/
def wrap (width : Nat) (text : String) : List String :=
  (fill width [] (chunks text.toList)).map String.ofList

end ComponentUsage.Text
