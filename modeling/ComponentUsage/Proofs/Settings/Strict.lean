import ComponentUsage.Proofs.Settings.Checked
/-!
# Strict checks

A strict check stops at the first complaint that a mending one has and that is more than a note. It
is about the first setting, in the order of the check, that has such a one; where there is none,
both checks return the same (`accept_first`).
-/

namespace ComponentUsage.Settings

/-- The setting that a complaint is about, if it is about one. -/
def Complaint.key? : Complaint → Option String
  | .notObject _ => none
  | .notText key _ => some key
  | .notFlag _ | .flagWord _ _ => some "print_summary"
  | .unknownMode _ => some "mode"
  | .suffixWithoutDot _ => some "definition_suffix"
  | .notList _ | .itemNotText _ | .extensionWithoutDot _ => some "template_extensions"

/-! ## Where a strict check stops -/

theorem correction?_eq_none_iff {complaints : List Complaint} :
    correction? complaints = none ↔ ∀ c ∈ complaints, ∃ word flag, c = .flagWord word flag := by
  rw [correction?, List.find?_eq_none]
  refine forall₂_congr fun c _ => ?_
  cases c <;> simp [Complaint.isNote]

/-- What is found first among the complaints of all steps is found at the first step that has any. -/
theorem correction?_flatMap_eq_some {members : List (String × Json)} {all : List Step} {c : Complaint}
    (h : correction? (all.flatMap (complaintsAt members)) = some c) :
    ∃ before step after, all = before ++ step :: after ∧ correction? (complaintsAt members step) = some c ∧
      ∀ earlier ∈ before, correction? (complaintsAt members earlier) = none := by
  rw [correction?, List.find?_flatMap, List.findSome?_eq_some_iff] at h
  exact h

/-- A complaint at a step is about the setting of that step. -/
theorem key?_of_mem_complaintsAt {members : List (String × Json)} {step : Step} {c : Complaint}
    (h : c ∈ complaintsAt members step) : c.key? = some step.key := by
  cases step with
  | text key =>
    dsimp only [complaintsAt, textComplaints] at h
    split at h <;> simp_all [Complaint.key?, Step.key]
  | flag =>
    dsimp only [complaintsAt, flagComplaints] at h
    split at h
    all_goals try split at h
    all_goals simp_all [Complaint.key?, Step.key]
  | mode =>
    dsimp only [complaintsAt, modeComplaints] at h
    split at h <;> simp_all [Complaint.key?, Step.key]
  | suffix =>
    dsimp only [complaintsAt, suffixComplaints] at h
    split at h <;> simp_all [Complaint.key?, Step.key]
  | extensions =>
    have hitem : ∀ item, c ∈ itemComplaints item → c.key? = some "template_extensions" := by
      intro item hc
      unfold itemComplaints at hc
      split at hc
      · split at hc
        · cases hc
        · split at hc <;> simp_all [Complaint.key?]
      · simp_all [Complaint.key?]
    dsimp only [complaintsAt, extensionsComplaints] at h
    split at h
    · cases h
    · cases h
    · obtain ⟨item, -, hc⟩ := List.mem_flatMap.1 h
      exact hitem item hc
    · obtain ⟨item, -, hc⟩ := List.mem_flatMap.1 h
      exact hitem item hc
    · simp_all [Complaint.key?, Step.key]

/-- What is more than a note and not about a kind is about a mode, a suffix or an extension. -/
theorem isAboutKind_eq_false_iff {c : Complaint} (hc : c.isNote = false) :
    c.isAboutKind = false ↔
      ∃ text, c = .unknownMode text ∨ c = .suffixWithoutDot text ∨ c = .extensionWithoutDot text := by
  cases c <;> simp_all [Complaint.isAboutKind, Complaint.isNote]

/-- A mending check returns settings and complaints, whatever it is given. A strict one returns
the same if an object is given and there is nothing but a note about a word that was read as a
flag. Otherwise it stops at the first complaint that is more, which is about the first setting, in
the order of the check, that has such a one. -/
theorem accept_first (v : Json) :
    ∃ s complaints, check false v [] = .ok (s, complaints) ∧
      (∀ r, accept v = .ok r ↔ (∃ members, v = .object members) ∧
        (∀ c ∈ complaints, ∃ word flag, c = .flagWord word flag) ∧ r = (s, complaints)) ∧
      (∀ c, accept v = .error c ↔ correction? complaints = some c) ∧
      (∀ c, accept v = .error c → (c.isAboutKind = false ↔
        ∃ text, c = .unknownMode text ∨ c = .suffixWithoutDot text ∨ c = .extensionWithoutDot text)) ∧
      ∀ members, v = .object members → complaints = steps.flatMap (complaintsAt members) ∧
        ∀ c, accept v = .error c → ∃ before step after, steps = before ++ step :: after ∧
          c ∈ complaintsAt members step ∧ c.key? = some step.key ∧
          ∀ earlier ∈ before, ∀ d ∈ complaintsAt members earlier, ∃ word flag, d = .flagWord word flag := by
  have hagree := agree_check v
  have hstrict := hagree.strict_eq []
  have herror : ∀ c, accept v = .error c ↔ correction? (complaintsAbout v) = some c := fun c => by
    rw [accept, hstrict]
    cases correction? (complaintsAbout v) <;> simp
  refine ⟨mended (given v), complaintsAbout v, hagree.mends [], fun r => ?_, herror, fun c hc => ?_, ?_⟩
  · rw [← correction?_eq_none_iff, accept, hstrict]
    cases hc : correction? (complaintsAbout v) with
    | some complaint => simp
    | none =>
      have hobject : ∃ members, v = .object members := by
        cases v with
        | object members => exact ⟨members, rfl⟩
        | null | bool | int | float | text | list => cases hc
      simp [hobject, eq_comm]
  · have hnote : c.isNote = false := by simpa using List.find?_some ((herror c).1 hc)
    exact isAboutKind_eq_false_iff hnote
  · rintro members rfl
    refine ⟨rfl, fun c hc => ?_⟩
    obtain ⟨before, step, after, hsteps, hfirst, hbefore⟩ := correction?_flatMap_eq_some ((herror c).1 hc)
    have hmem := List.mem_of_find?_eq_some hfirst
    exact ⟨before, step, after, hsteps, hmem, key?_of_mem_complaintsAt hmem,
      fun earlier he => correction?_eq_none_iff.1 (hbefore earlier he)⟩

/-- Most of what is given here is wrong. The root selector is looked at before the flag, and the
flag before the suffix and the extensions. -/
def spoilt : List (String × Json) :=
  [("template_extensions", .list [.text "html", .int 3]), ("definition_suffix", .text "cmp.ts"),
    ("print_summary", .text "No"), ("root_selector", .int 5)]

/-- The first of four complaints stops the strict check; without what it is about, a later one does,
and the note about the flag alone stops none. -/
theorem accept_first_spoilt :
    accept (.object spoilt) = .error (.notText "root_selector" .int) ∧
      accept (.object (spoilt.take 3)) = .error (.suffixWithoutDot "cmp.ts") ∧
      ∃ s, accept (.object (spoilt.drop 2 |>.take 1)) = .ok (s, [.flagWord "No" false]) := by
  obtain ⟨-, complaints, -, -, herror, -, hsteps⟩ := accept_first (.object spoilt)
  obtain ⟨-, complaints', -, -, herror', -, hsteps'⟩ := accept_first (.object (spoilt.take 3))
  obtain ⟨s, complaints'', -, hok, -, -, hsteps''⟩ := accept_first (.object (spoilt.drop 2 |>.take 1))
  obtain ⟨rfl, -⟩ := hsteps _ rfl
  obtain ⟨rfl, -⟩ := hsteps' _ rfl
  obtain ⟨hnote, -⟩ := hsteps'' _ rfl
  have hword : steps.flatMap (complaintsAt (spoilt.drop 2 |>.take 1)) = [.flagWord "No" false] := by decide +kernel
  rw [hword] at hnote
  subst hnote
  refine ⟨(herror _).2 (by decide +kernel), (herror' _).2 (by decide +kernel), s, (hok _).2 ⟨⟨_, rfl⟩, ?_, rfl⟩⟩
  simp

end ComponentUsage.Settings
