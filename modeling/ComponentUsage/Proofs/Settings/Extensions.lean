import ComponentUsage.CommandLine.Options
import ComponentUsage.Proofs.Settings.Checked
/-!
# Extensions of template files

A text for the extensions means its pieces between commas, as far as they are not blank: each
without the blanks around it, with a dot in front, and once. A check makes the same of the text
itself and of the list that the command line makes of it.
-/

namespace ComponentUsage.Settings

/-! ## Pieces -/

/-- Texts without the blanks around them, as far as anything is left. -/
def filled (texts : List String) : List String := (texts.map Text.trim).filter (· ≠ "")

theorem filled_filled (texts : List String) : filled (filled texts) = filled texts := by
  have htrimmed : (filled texts).map Text.trim = filled texts := by
    refine List.map_congr_left (fun s hs => ?_) |>.trans (List.map_id _)
    obtain ⟨t, -, rfl⟩ := List.mem_map.1 (List.mem_filter.1 hs).1
    exact Text.trim_trim t
  rw [filled, htrimmed, filled, List.filter_filter]
  simp only [Bool.and_self]

theorem filled_cons (s : String) (texts : List String) :
    filled (s :: texts) = if Text.trim s = "" then filled texts else Text.trim s :: filled texts := by
  rw [filled, List.map_cons, List.filter_cons]
  by_cases hs : Text.trim s = "" <;> simp [hs, filled]

theorem extensions_of_texts (texts : List String) :
    (texts.map Json.text).filterMap extension? = (filled texts).map dotted := by
  induction texts with
  | nil => rfl
  | cons s texts ih =>
    rw [List.map_cons, filled_cons, List.filterMap_cons, extension?]
    by_cases hs : Text.trim s = ""
    · rw [if_pos hs, if_pos hs]
      exact ih
    · rw [if_neg hs, if_neg hs, List.map_cons, ← ih]

/-- What is complained about in texts: pieces without a dot, wherever they stand. -/
theorem complaints_of_texts (texts : List String) (index : Nat) :
    ((texts.map Json.text).zipIdx index).flatMap itemComplaints =
      ((filled texts).filter (!isDotted ·)).map .extensionWithoutDot := by
  induction texts generalizing index with
  | nil => rfl
  | cons s texts ih =>
    rw [List.map_cons, List.zipIdx_cons, List.flatMap_cons, ih, filled_cons, itemComplaints]
    by_cases hs : Text.trim s = ""
    · rw [if_pos hs, if_pos hs, List.nil_append]
    · rw [if_neg hs, if_neg hs, List.filter_cons]
      cases isDotted (Text.trim s) <;> rfl

/-! ## Each once -/

/-- What is added to what was found: the first of each that was not. -/
theorem foldl_addNew (found exts : List String) :
    exts.foldl addNew found = found ++ (exts.filter (· ∉ found)).eraseDups := by
  induction exts generalizing found with
  | nil => simp
  | cons ext exts ih =>
    rw [List.foldl_cons, ih, addNew]
    by_cases hm : ext ∈ found
    · rw [if_pos hm, List.filter_cons_of_neg (by simpa using hm)]
    · -- those that come later are new if they are not this one either
      have hlater : exts.filter (· ∉ found ++ [ext]) = (exts.filter (· ∉ found)).filter (!· == ext) := by
        rw [List.filter_filter]
        refine List.filter_congr fun other _ => ?_
        simp [not_or, and_comm, beq_eq_decide]
      rw [if_neg hm, List.filter_cons_of_pos (by simpa using hm), List.eraseDups_cons, hlater, List.append_assoc,
        List.singleton_append]

/-- The extensions that pieces stand for. -/
def extensionsOf (pieces : List String) : List String :=
  if pieces = [] then default.extensions else (pieces.map dotted).eraseDups

theorem normalExtensions_of_texts {given : Option Json} {texts : List String}
    (h : normalItems given = texts.map .text) : normalExtensions given = extensionsOf (filled texts) := by
  rw [normalExtensions, h, extensions_of_texts, foldl_addNew, extensionsOf]
  cases filled texts with
  | nil => rfl
  | cons piece pieces => simp [List.eraseDups_cons]

/-! ## Two ways to the extensions -/

/-- The value and the complaints say all that two ways of checking do. -/
theorem Agree.unique {α : Type} {mending strict mending' strict' : Checked α} {a : α} {complaints : List Complaint}
    (h : Agree mending strict a complaints) (h' : Agree mending' strict' a complaints) :
    mending = mending' ∧ strict = strict' :=
  ⟨funext fun before => (h.mends before).trans (h'.mends before).symm,
    funext fun before => (h.strict_eq before).trans (h'.strict_eq before).symm⟩

/-- Texts are checked in the same way, in whatever form they are given. -/
theorem agree_of_texts {given : Option Json} {texts : List String} (h : normalItems given = texts.map .text)
    (hc : extensionsComplaints given = (texts.map Json.text).zipIdx.flatMap itemComplaints) :
    Agree (checkExtensions false given) (checkExtensions true given) (extensionsOf (filled texts))
      (((filled texts).filter (!isDotted ·)).map .extensionWithoutDot) := by
  rw [← normalExtensions_of_texts h, ← complaints_of_texts texts 0, ← hc]
  exact agree_checkExtensions given

theorem agree_text (v : String) :
    Agree (checkExtensions false (some (.text v))) (checkExtensions true (some (.text v)))
      (extensionsOf (filled (commaPieces v)))
      (((filled (commaPieces v)).filter (!isDotted ·)).map .extensionWithoutDot) :=
  agree_of_texts rfl rfl

/-- The first piece without a dot stops a strict check. -/
theorem checkExtensions_strict (v : String) (before : List Complaint) :
    checkExtensions true (some (.text v)) before =
      match (filled (commaPieces v)).find? (!isDotted ·) with
      | some piece => .error (.extensionWithoutDot piece)
      | none => .ok (extensionsOf (filled (commaPieces v)), before) := by
  rw [(agree_text v).strict_eq, ← List.head?_filter]
  cases (filled (commaPieces v)).filter (!isDotted ·) with
  | nil =>
    rw [List.map_nil, List.append_nil]
    rfl
  | cons piece pieces => rfl

/-- A text for the extensions, and the list that the command line makes of it, come to the same in a
mending check and in a strict one. What they come to: the pieces of the text with a dot in front,
each once, or the defaults if there are none. A piece without a dot is told, or stops a strict
check. -/
theorem checkExtensions_commaList (v : String) :
    let pieces := ((commaPieces v).map Text.trim).filter (· ≠ "")
    let extensions :=
      if pieces = [] then default.extensions
      else (pieces.map fun piece => if isDotted piece then piece else "." ++ piece).eraseDups
    (∀ strict, checkExtensions strict (some (.texts (CommandLine.Options.commaList v))) =
      checkExtensions strict (some (.text v))) ∧
    (∀ before, checkExtensions false (some (.text v)) before =
      .ok (extensions, before ++ (pieces.filter (!isDotted ·)).map .extensionWithoutDot)) ∧
    ∀ before, checkExtensions true (some (.text v)) before =
      match pieces.find? (!isDotted ·) with
      | some piece => .error (.extensionWithoutDot piece)
      | none => .ok (extensions, before) := by
  intro pieces extensions
  have htext := agree_text v
  have htexts : Agree (checkExtensions false (some (.texts (filled (commaPieces v)))))
      (checkExtensions true (some (.texts (filled (commaPieces v))))) _ _ := agree_of_texts rfl rfl
  rw [filled_filled] at htexts
  obtain ⟨hmending, hstrict⟩ := htexts.unique htext
  refine ⟨fun strict => ?_, htext.mends, checkExtensions_strict v⟩
  cases strict with
  | false => exact hmending
  | true => exact hstrict

end ComponentUsage.Settings
