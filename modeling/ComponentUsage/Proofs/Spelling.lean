import ComponentUsage.Proofs.Component.Tag
import ComponentUsage.Proofs.Run.Agreement
/-!
# Selectors in small and large letters

Whether two characters are one letter is an equivalence of all characters (`sameLetter_trans`).
So two selectors of the same letters are used by the same templates (`uses_congr`), and a project
whose selectors are all spelled in another way has the usage that it had (`usage_spelled`).
-/

namespace ComponentUsage

/-! ## One letter -/

namespace Text

/-- No small letter is a shape of two letters. -/
theorem eq_of_mem_letterShapes :
    ∀ shapes ∈ letterShapes, ∀ others ∈ letterShapes, ∀ n ∈ shapes, n ∈ others → shapes = others := by
  decide +kernel

theorem sameLetter_iff {a b : Char} :
    sameLetter a b = true ↔
      small a = small b ∨ ∃ shapes ∈ letterShapes, (small a).toNat ∈ shapes ∧ (small b).toNat ∈ shapes := by
  simp [sameLetter]

theorem sameLetter_trans {a b c : Char} (hab : sameLetter a b = true) (hbc : sameLetter b c = true) :
    sameLetter a c = true := by
  rw [sameLetter_iff] at hab hbc ⊢
  rcases hab with hab | ⟨shapes, hs, ha, hb⟩
  · rw [hab]
    exact hbc
  · right
    rcases hbc with hbc | ⟨others, ho, hb', hc⟩
    · rw [← hbc]
      exact ⟨shapes, hs, ha, hb⟩
    · have heq := eq_of_mem_letterShapes shapes hs others ho _ hb hb'
      subst heq
      exact ⟨shapes, hs, ha, hc⟩

/-- A letter in two shapes is the same as the same letters. -/
theorem sameLetter_congr {a b : Char} (h : sameLetter a b = true) (c : Char) : sameLetter a c = sameLetter b c := by
  apply Bool.eq_iff_iff.2
  constructor
  · intro hac
    rw [sameLetter_comm] at h
    exact sameLetter_trans h hac
  · intro hbc
    exact sameLetter_trans h hbc

theorem sameLetters_iff {as bs : List Char} :
    sameLetters as bs = true ↔ List.Forall₂ (fun a b => sameLetter a b = true) as bs := by
  induction as generalizing bs with
  | nil => cases bs <;> simp [sameLetters]
  | cons a as ih => cases bs <;> simp [sameLetters, ih]

end Text

open Text

/-! ## Tags of the same letters -/

namespace Tag

theorem afterName?_congr {as bs : List Char} (h : sameLetters as bs = true) (cs : List Char) :
    afterName? as cs = afterName? bs cs := by
  rw [sameLetters_iff] at h
  induction h generalizing cs with
  | nil => rfl
  | cons hab _ ih =>
    cases cs with
    | nil => rfl
    | cons c cs =>
      unfold afterName?
      rw [sameLetter_congr hab c, ih cs]

theorem opensIn_congr {as bs : List Char} (h : sameLetters as bs = true) (cs : List Char) :
    opensIn as cs = opensIn bs cs := by
  induction cs with
  | nil => rfl
  | cons c cs ih =>
    have hhere : opensHere as (c :: cs) = opensHere bs (c :: cs) := by
      unfold opensHere
      split
      · rw [afterName?_congr h]
      · rfl
    unfold opensIn
    rw [hhere, ih]

/-- Selectors of the same letters are used by the same templates. -/
theorem uses_congr {s t : String} (h : sameLetters s.toList t.toList = true) (template : String) :
    uses template s = uses template t := by
  have hlength := (sameLetters_iff.1 h).length_eq
  have hempty : s = "" ↔ t = "" := by
    simp only [← String.toList_eq_nil_iff, ← List.length_eq_zero_iff, hlength]
  unfold uses
  simp only [ne_eq, hempty, opensIn_congr h]

end Tag

/-! ## Users of selectors of the same letters -/

/-- Another way to spell the selectors of a registry: each has its letters, and no two are
spelled alike. -/
structure Registry.Spelling (registry : Registry) where
  spell : String → String
  letters : ∀ selector ∈ registry.keys, sameLetters selector.toList (spell selector).toList = true
  distinct : (registry.keys.map spell).Nodup

/-- The registry with its selectors spelled that way. -/
def Registry.spelled (registry : Registry) (spelling : registry.Spelling) : Registry where
  entries := registry.entries.map fun (selector, c) =>
    (spelling.spell selector, { c with selector := spelling.spell selector })
  distinct := by
    rw [List.map_map]
    have h := spelling.distinct
    rw [Table.keys, List.map_map] at h
    exact h

namespace Usage

variable {w : World} {registry : Registry}

theorem opens_congr {s t : String} (h : sameLetters s.toList t.toList = true)
    (reading : Option (Except Fault String)) : opens reading s = opens reading t := by
  unfold opens
  split
  · exact Tag.uses_congr h _
  · rfl

theorem users_congr {s t : String} (h : sameLetters s.toList t.toList = true) (w : World)
    (es : List (String × Component)) :
    (users w es s).filter (fun user => user ≠ s ∧ user ≠ t) =
      (users w es t).filter (fun user => user ≠ s ∧ user ≠ t) := by
  unfold users
  rw [List.filter_map, List.filter_map, List.filter_filter, List.filter_filter]
  congr 1
  apply List.filter_congr
  intro e _
  simp only [Function.comp_apply, opens_congr h, ne_eq, eq_comm (a := s), eq_comm (a := t)]
  by_cases hs : e.1 = s
  · simp [hs]
  · by_cases ht : e.1 = t
    · simp [ht]
    · simp [hs, ht]

theorem users_spelled (spelling : registry.Spelling) (w : World) {selector : String} (hs : selector ∈ registry.keys) :
    users w (registry.spelled spelling).entries (spelling.spell selector) =
      (users w registry.entries selector).map spelling.spell := by
  unfold users Registry.spelled
  rw [List.filter_map, List.map_map, List.map_map]
  have hfilter : ∀ e ∈ registry.entries,
      (decide (spelling.spell selector ≠ spelling.spell e.1) && opens (e.2.reading w) (spelling.spell selector)) =
        (decide (selector ≠ e.1) && opens (e.2.reading w) selector) := by
    intro e he
    have hinj : spelling.spell selector = spelling.spell e.1 ↔ selector = e.1 := by
      constructor
      · apply List.inj_on_of_nodup_map spelling.distinct hs
        exact List.mem_map_of_mem he
      · rintro rfl
        rfl
    rw [← opens_congr (spelling.letters selector hs)]
    simp only [ne_eq, hinj]
  rw [← List.filter_congr hfilter]
  rfl

theorem usage_spelled (spelling : registry.Spelling) (w : World) :
    (found (registry.spelled spelling) w).usage.entries =
      (found registry w).usage.entries.map fun (selector, users) =>
        (spelling.spell selector, users.map spelling.spell) := by
  simp only [found, Table.mapValues, List.map_map]
  conv_lhs => arg 2; unfold Registry.spelled
  rw [List.map_map]
  apply List.map_congr_left
  intro e he
  have husers := users_spelled spelling w (List.mem_map_of_mem (f := Prod.fst) he)
  simp only [Function.comp_apply, husers]

theorem readable_spelled (spelling : registry.Spelling) (h : registry.Readable w) :
    (registry.spelled spelling).Readable w := by
  intro e he
  obtain ⟨e, hm, rfl⟩ := List.mem_map.1 he
  exact h e hm

/-- Two selectors of the same letters are used by the same templates, and the usage that is found
gives them the same users but for these two themselves. However all selectors are spelled, the same
users are found. -/
theorem discover_of_sameLetters (registry : Registry) (s t : String) (hs : s ∈ registry.keys)
    (ht : t ∈ registry.keys) (h : sameLetters s.toList t.toList = true) :
    (∀ template, Tag.uses template s = Tag.uses template t) ∧
      ∀ w, (registry.Readable w → ∃ found, ((discover registry).on w).result = .ok found) ∧
        ∀ found, ((discover registry).on w).result = .ok found →
          (∃ us vs, found.usage.get? s = some us ∧ found.usage.get? t = some vs ∧
            us.filter (fun user => user ≠ s ∧ user ≠ t) = vs.filter (fun user => user ≠ s ∧ user ≠ t)) ∧
          ∀ spelling : registry.Spelling, ∃ spelled,
            ((discover (registry.spelled spelling)).on w).result = .ok spelled ∧
              spelled.usage.entries = found.usage.entries.map fun (selector, users) =>
                (spelling.spell selector, users.map spelling.spell) := by
  refine ⟨Tag.uses_congr h, ?_⟩
  intro w
  constructor
  · intro hr
    exact ⟨found registry w, by rw [on_discover hr]⟩
  · intro discovered hd
    have hr := readable_of_result_discover hd
    have heq := eq_found_of_result_discover hd
    subst heq
    constructor
    · obtain ⟨c, hc⟩ := Table.mem_keys_iff.1 hs
      obtain ⟨d, hd⟩ := Table.mem_keys_iff.1 ht
      refine ⟨users w registry.entries s, users w registry.entries t, ?_, ?_, users_congr h w _⟩
      · rw [found, Table.get?_mapValues, hc]
        rfl
      · rw [found, Table.get?_mapValues, hd]
        rfl
    · intro spelling
      refine ⟨found (registry.spelled spelling) w, ?_, usage_spelled spelling w⟩
      rw [on_discover (readable_spelled spelling hr)]

/-- A market with two stalls whose selectors are of the same letters. -/
def market : Registry :=
  .ofList [("SHOP-ITEM", ⟨"SHOP-ITEM", "large", "/large.component.ts", some "/large.html"⟩),
    ("ſhop-ıtem", ⟨"ſhop-ıtem", "small", "/small.component.ts", .none⟩),
    ("market", ⟨"market", "market", "/market.component.ts", some "/market.html"⟩)]

def market.spelling : market.Spelling where
  spell selector := if selector = "market" then "MarKet" else selector
  letters := by decide +kernel
  distinct := by decide +kernel

def market.shelf : World := Usage.shelf [("large.html", "<Shop-Item/>"), ("market.html", "<shop-İTEM>")]

theorem discover_of_sameLetters_market :
    market.Readable market.shelf ∧ sameLetters "SHOP-ITEM".toList "ſhop-ıtem".toList = true ∧
      Tag.uses "<ſHOP-item>" "SHOP-ITEM" = Tag.uses "<ſHOP-item>" "ſhop-ıtem" ∧
      ∃ found us vs, ((discover market).on market.shelf).result = .ok found ∧
        found.usage.get? "SHOP-ITEM" = some us ∧ us = ["market"] ∧
        found.usage.get? "ſhop-ıtem" = some vs ∧ vs = ["SHOP-ITEM", "market"] ∧
        us.filter (fun user => user ≠ "SHOP-ITEM" ∧ user ≠ "ſhop-ıtem") =
          vs.filter (fun user => user ≠ "SHOP-ITEM" ∧ user ≠ "ſhop-ıtem") ∧
        ∃ spelled, ((discover (market.spelled market.spelling)).on market.shelf).result = .ok spelled ∧
          spelled.usage.entries =
            [("SHOP-ITEM", ["MarKet"]), ("ſhop-ıtem", ["SHOP-ITEM", "MarKet"]), ("MarKet", [])] := by
  have hletters : sameLetters "SHOP-ITEM".toList "ſhop-ıtem".toList = true := by decide +kernel
  have hreadable : market.Readable market.shelf := by decide +kernel
  obtain ⟨huses, hmarket⟩ := discover_of_sameLetters market "SHOP-ITEM" "ſhop-ıtem" (by decide) (by decide) hletters
  obtain ⟨hreturns, hagree⟩ := hmarket market.shelf
  obtain ⟨discovered, hd⟩ := hreturns hreadable
  obtain ⟨⟨us, vs, hus, hvs, hsame⟩, hspelled⟩ := hagree discovered hd
  obtain ⟨spelled, hs, hentries⟩ := hspelled market.spelling
  have heq := eq_found_of_result_discover hd
  subst heq
  have hlarge : (found market market.shelf).usage.get? "SHOP-ITEM" = some ["market"] := by decide +kernel
  have hsmall : (found market market.shelf).usage.get? "ſhop-ıtem" = some ["SHOP-ITEM", "market"] := by decide +kernel
  rw [hlarge, Option.some.injEq] at hus
  rw [hsmall, Option.some.injEq] at hvs
  subst hus hvs
  refine ⟨hreadable, hletters, huses _, _, _, _, hd, hlarge, rfl, hsmall, rfl, hsame, spelled, hs, ?_⟩
  rw [hentries]
  decide +kernel

end Usage
end ComponentUsage
