import ComponentUsage.Proofs.Json.RoundTrip
import ComponentUsage.Proofs.Settings.Settled
import ComponentUsage.Settings.Layers
/-!
# Layers of all settings

Every layer over the defaults has all settings and nothing else (`names_overDefaults`,
`names_overlay`), and what it holds for one is what the uppermost layer says about it
(`lookup_overDefaults`, `lookup_overlay`). Settings that were checked, printed and saved are read
from the file as they are (`readJson_print`), and over the defaults nothing of these is left
(`overDefaults_members`).
-/

namespace ComponentUsage

namespace Settings

variable {s : Settings}

/-- Settings alone make a document without numbers. -/
theorem plain_toJson (h : s.extras = []) : s.toJson.Plain := by
  rw [toJson, members, h]
  refine ⟨?_, ?_⟩
  · simp only [List.append_nil, List.map_cons, List.map_nil]
    decide
  · simp only [List.append_nil, Json.PlainMembers, Json.plain_texts, Json.Plain, and_true]

theorem names_members (h : s.extras = []) : s.members.map Prod.fst = keys := by
  rw [members, h]
  rfl

/-- The members of settings take the place of all defaults. -/
theorem overDefaults_members (h : s.extras = []) : overDefaults s.members = s.members := by
  have hnames := names_members h
  have hstep : ∀ out, ∀ e ∈ s.members,
      (if e.1 ∈ keys then upsert e.1 e.2 out else out) = upsert e.1 e.2 out := fun out e he =>
    if_pos (hnames ▸ List.mem_map.2 ⟨e, he, rfl⟩)
  refine (List.foldl_ext _ _ defaults hstep).trans ?_
  refine @foldl_upsert _ [] s.members defaults ?_ (.inr hnames.symm)
  rw [List.nil_append, hnames]
  decide

/-! ## The names in a layer -/

theorem names_upsert {layer : Layer} {key : String} (h : layer.map Prod.fst = keys) (hk : key ∈ keys) (v : Json) :
    (upsert key v layer).map Prod.fst = keys := by
  rw [map_fst_upsert, h, if_pos hk]

/-- Whatever a file holds, over the defaults it makes a layer of all settings. -/
theorem names_overDefaults (members : List (String × Json)) : (overDefaults members).map Prod.fst = keys := by
  refine List.foldlRecOn (motive := fun layer : Layer => layer.map Prod.fst = keys) members _ rfl fun layer h e _ => ?_
  dsimp only
  split
  · rename_i hk
    exact names_upsert h hk e.2
  · exact h

theorem names_overlay {base : Layer} (h : base.map Prod.fst = keys) (upper : Layer) :
    (overlay base upper).map Prod.fst = keys := by
  refine List.foldlRecOn (motive := fun layer : Layer => layer.map Prod.fst = keys) keys _ h fun layer h key hk => ?_
  split
  · exact h
  · exact h
  · exact names_upsert h hk _

/-- A layer that says nothing changes nothing. -/
theorem overlay_of_silent {upper : Layer}
    (h : ∀ key, Json.member? key upper = none ∨ Json.member? key upper = some .null) (base : Layer) :
    overlay base upper = base :=
  List.foldl_fixed' (fun key => by rcases h key with h | h <;> rw [h]) _

/-! ## What layers say -/

/-- What a layer says about a setting; null says nothing. -/
def said? (layer : Layer) (key : String) : Option Json :=
  match Json.member? key layer with
  | none | some .null => none
  | some v => some v

theorem lookup_overlay (base upper : Layer) {key : String} (hk : key ∈ keys) :
    (overlay base upper).lookup key = (said? upper key).or (base.lookup key) := by
  -- along the keys that are left: those before this one and after it do not touch its value
  have hfold : ∀ (names : List String) (out : Layer),
      (names.foldl (fun out name =>
        match Json.member? name upper with
        | none | some .null => out
        | some v => upsert name v out) out).lookup key =
        if key ∈ names then (said? upper key).or (out.lookup key) else out.lookup key := by
    intro names
    induction names with
    | nil =>
      intro out
      rfl
    | cons name names ih =>
      intro out
      rw [List.foldl_cons, ih]
      have hstep : (match Json.member? name upper with
          | none | some .null => out
          | some v => upsert name v out).lookup key =
          if key = name then (said? upper key).or (out.lookup key) else out.lookup key := by
        by_cases hn : key = name
        · subst hn
          rw [if_pos rfl, said?]
          split
          · rfl
          · rfl
          · rw [lookup_upsert, if_pos rfl, Option.some_or]
        · rw [if_neg hn]
          split
          · rfl
          · rfl
          · rw [lookup_upsert, if_neg hn]
      rw [hstep]
      by_cases hn : key = name
      · rw [if_pos hn, if_pos (List.mem_cons.2 (.inl hn))]
        cases said? upper key with
        | none => simp only [Option.none_or, ite_self]
        | some v => simp only [Option.some_or, ite_self]
      · simp only [hn, if_false, List.mem_cons, false_or]
  exact (hfold keys base).trans (if_pos hk)

theorem lookup_overDefaults {members : List (String × Json)} (hn : (members.map Prod.fst).Nodup) {key : String}
    (hk : key ∈ keys) :
    (overDefaults members).lookup key = (Json.member? key members).or (Json.member? key defaults) := by
  have hfold : ∀ out : Layer,
      (members.foldl (fun out e => if e.1 ∈ keys then upsert e.1 e.2 out else out) out).lookup key =
        (members.lookup key).or (out.lookup key) := by
    induction members with
    | nil =>
      intro out
      rfl
    | cons e members ih =>
      intro out
      obtain ⟨name, v⟩ := e
      rw [List.map_cons, List.nodup_cons] at hn
      rw [List.foldl_cons, ih hn.2, lookup_entry]
      dsimp only
      by_cases he : key = name
      · subst he
        have hrest : members.lookup key = none := List.lookup_eq_none_iff.2 fun e he =>
          bne_iff_ne.2 fun heq => hn.1 (List.mem_map.2 ⟨e, he, heq.symm⟩)
        rw [if_pos rfl, if_pos hk, hrest, lookup_upsert, if_pos rfl]
        rfl
      · rw [if_neg he]
        split
        · rw [lookup_upsert, if_neg he]
        · rfl
  exact hfold defaults

/-! ## Settings that are read -/

theorem extras_mend (v : Json) : (mend v).1.extras = unknown v := by
  unfold mend
  cases hr : check false v [] with
  | ok p => exact ((ends_check false v).holds _ _ _ hr).2
  | error complaint => exact absurd ((ends_check false v).strict_of_error _ _ hr) Bool.false_ne_true

/-- Settled settings are mended to themselves. -/
theorem mend_of_settled (h : s.Settled) : mend s.toJson = (s, []) := by
  rw [mend, check_of_settled h]
  rfl

/-- Settings that were printed and saved are read from the file. -/
theorem readJson_print (h : s.extras = []) {w : World} {p : String}
    (hr : w.read p = .ok (s.toJson.print .indented ++ "\n").toUTF8) : readJson w p = .ok (some s.toJson) := by
  rw [readJson, hr, Fault.ok_bind, Json.ofBytes?_print (plain_toJson h)]
  rfl

end Settings
end ComponentUsage
