import ComponentUsage.Settings.Check
import Mathlib.Data.List.Nodup
/-!
# Settings that have been checked

A check that mends always returns settings, and one that is strict returns some or stops
(`ends_check`). Settings that a check returns are settled: in either way of checking they
pass as they are, without a complaint (`check_of_settled`, `check_settles`).
-/

namespace ComponentUsage

/-- A text that is not empty and has no blanks around it. -/
structure Text.Neat (s : String) : Prop where
  ne_empty : s ≠ ""
  trimmed : Text.Trimmed s.toList

theorem Text.Neat.trim_eq {s : String} (h : Text.Neat s) : Text.trim s = s := by
  rw [Text.trim, Text.trimChars_eq_self h.trimmed, String.ofList_toList]

theorem Text.neat_trim {s : String} (h : Text.trim s ≠ "") : Text.Neat (Text.trim s) where
  ne_empty := h
  trimmed := by
    rw [Text.trim, String.toList_ofList]
    exact Text.trimChars_trimmed _

instance (s : String) : Decidable (Text.Neat s) :=
  decidable_of_iff (s ≠ "" ∧ Text.trim s = s)
    ⟨fun h => h.2 ▸ Text.neat_trim (h.2.symm ▸ h.1), fun h => ⟨h.ne_empty, h.trim_eq⟩⟩

/-- A dot in front of a text is no blank. -/
theorem Text.neat_dotted {s : String} (h : Text.Neat s) : Text.Neat ("." ++ s) where
  ne_empty := fun he => h.ne_empty (String.append_eq_empty_iff.1 he).2
  trimmed := by
    have hne : s.toList ≠ [] := fun he => h.ne_empty (String.toList_eq_nil_iff.1 he)
    rw [String.toList_append, show ".".toList = ['.'] from rfl, List.singleton_append]
    refine ⟨fun c hc => ?_, fun c hc => ?_⟩
    · obtain rfl : '.' = c := Option.some.inj hc
      decide
    · rw [List.getLast?_cons, Option.mem_def, List.getLast?_eq_some_getLast hne, Option.getD_some,
        Option.some.injEq] at hc
      exact h.trimmed.2 c (Option.mem_def.2 (hc ▸ List.getLast?_eq_some_getLast hne))

namespace Settings

theorem isDotted_dotted (s : String) : isDotted ("." ++ s) = true := by
  rw [isDotted, String.toList_append, show ".".toList = ['.'] from rfl, List.singleton_append]
  rfl

/-- An extension of template files as a check leaves it. -/
def IsExtension (ext : String) : Prop := Text.Neat ext ∧ isDotted ext = true

/-- The settings that are texts, under their names. -/
def texts (s : Settings) : List (String × String) :=
  [("source_root", s.sourceRoot), ("scan_root", s.scanRoot), ("graph_output_path", s.graphOutput),
    ("tree_output_path", s.treeOutput), ("mode", s.mode.name), ("root_selector", s.rootSelector),
    ("path_separator", s.separator), ("definition_suffix", s.suffix), ("selector_field", s.field)]

theorem member?_of_mem_texts {s : Settings} {e : String × String} (h : e ∈ s.texts) :
    Json.member? e.1 s.members = some (.text e.2) := by
  simp only [texts, List.mem_cons, List.not_mem_nil, or_false] at h
  rcases h with rfl | rfl | rfl | rfl | rfl | rfl | rfl | rfl | rfl <;> rfl

/-- Settings as a check leaves them. -/
structure Settled (s : Settings) : Prop where
  texts : ∀ e ∈ s.texts, Text.Neat e.2
  suffix : isDotted s.suffix = true
  extensions : s.extensions ≠ [] ∧ s.extensions.Nodup ∧ ∀ ext ∈ s.extensions, IsExtension ext
  extras : ∀ e ∈ s.extras, e.1 ∉ keys

theorem settled_default : default.Settled where
  texts := by decide
  suffix := by decide
  extensions := by
    refine ⟨by decide, by decide, ?_⟩
    simp only [default, List.mem_singleton, forall_eq]
    exact ⟨by decide, by decide⟩
  extras := nofun

/-! ## What a check returns -/

/-- A check returns something of which this holds, unless it is strict and stops. -/
structure Ends {α : Type} (strict : Bool) (c : Checked α) (P : α → Prop) : Prop where
  holds : ∀ before a after, c before = .ok (a, after) → P a
  strict_of_error : ∀ before complaint, c before = .error complaint → strict = true

section Ends

variable {α β : Type} {strict : Bool} {P : α → Prop} {Q : β → Prop}

theorem Ends.pure {a : α} (h : P a) : Ends strict (Pure.pure a) P where
  holds before a' after hr := by
    cases hr
    exact h
  strict_of_error := nofun

theorem Ends.bind {c : Checked α} {f : α → Checked β} (hc : Ends strict c P)
    (hf : ∀ a, P a → Ends strict (f a) Q) : Ends strict (c >>= f) Q := by
  have hbind : ∀ before, (c >>= f) before = c before >>= fun p => f p.1 p.2 := fun _ => rfl
  constructor
  · intro before b after hr
    rw [hbind] at hr
    cases h : c before with
    | error complaint =>
      rw [h] at hr
      cases hr
    | ok p =>
      rw [h] at hr
      exact (hf p.1 (hc.holds _ _ _ h)).holds _ _ _ hr
  · intro before complaint hr
    rw [hbind] at hr
    cases h : c before with
    | error complaint' => exact hc.strict_of_error _ _ h
    | ok p =>
      rw [h] at hr
      exact (hf p.1 (hc.holds _ _ _ h)).strict_of_error _ _ hr

theorem Ends.complain (complaint : Complaint) :
    Ends strict (Settings.complain strict complaint) fun _ => True where
  holds _ _ _ _ := trivial
  strict_of_error before complaint' hr := by
    unfold Settings.complain at hr
    split at hr
    · rename_i h
      exact (Bool.and_eq_true_iff.1 h).1
    · cases hr

theorem ends_checkText (given : List (String × Json)) (key : String) {default : String}
    (hd : Text.Neat default) : Ends strict (checkText strict given key default) Text.Neat := by
  unfold checkText
  split
  · exact .pure hd
  · exact .pure hd
  · dsimp only
    split
    · exact .pure hd
    · rename_i hne
      exact .pure (Text.neat_trim hne)
  · exact .bind (.complain _) fun _ _ => .pure hd

theorem ends_checkFlag (given : Option Json) : Ends strict (checkFlag strict given) fun _ => True := by
  unfold checkFlag
  split
  · exact .pure trivial
  · exact .pure trivial
  · exact .pure trivial
  · dsimp only
    split
    · exact .bind (.complain _) fun _ _ => .pure trivial
    · exact .bind (.complain _) fun _ _ => .pure trivial

theorem neat_name (mode : Mode) : Text.Neat mode.name := by
  cases mode <;> decide

theorem ends_checkMode (text : String) : Ends strict (checkMode strict text) fun _ => True := by
  unfold checkMode
  split
  · exact .pure trivial
  · exact .bind (.complain _) fun _ _ => .pure trivial

theorem ends_checkSuffix {suffix : String} (h : Text.Neat suffix) :
    Ends strict (checkSuffix strict suffix) fun s => Text.Neat s ∧ isDotted s = true := by
  unfold checkSuffix
  split
  · rename_i hd
    exact .pure ⟨h, hd⟩
  · exact .bind (.complain _) fun _ _ => .pure ⟨Text.neat_dotted h, isDotted_dotted _⟩

theorem ends_checkItem (index : Nat) (item : Json) :
    Ends strict (checkItem strict index item) fun ext? => ∀ ext ∈ ext?, IsExtension ext := by
  unfold checkItem
  split
  · dsimp only
    split
    · exact .pure (by simp)
    · rename_i hne
      have hneat := Text.neat_trim hne
      split
      · rename_i hd
        exact .pure (by simpa using ⟨hneat, hd⟩)
      · exact .bind (.complain _) fun _ _ => .pure (by simpa using ⟨Text.neat_dotted hneat, isDotted_dotted _⟩)
  · exact .bind (.complain _) fun _ _ => .pure (by simp)

theorem ends_checkItems {found : List String} (index : Nat) (items : List Json) (hn : found.Nodup)
    (hf : ∀ ext ∈ found, IsExtension ext) :
    Ends strict (checkItems strict found index items) fun exts =>
      exts.Nodup ∧ ∀ ext ∈ exts, IsExtension ext := by
  induction items generalizing found index with
  | nil => exact .pure ⟨hn, hf⟩
  | cons item items ih =>
    refine .bind (ends_checkItem index item) fun ext? hext => ?_
    dsimp only
    cases ext? with
    | none => exact ih _ hn hf
    | some ext =>
      dsimp only
      split
      · exact ih _ hn hf
      · rename_i hnew
        refine ih _ (List.nodup_append.2 ⟨hn, List.nodup_singleton _, ?_⟩) fun e he => ?_
        · rintro a ha b hb rfl
          exact hnew (List.mem_singleton.1 hb ▸ ha)
        · rcases List.mem_append.1 he with he | he
          · exact hf e he
          · exact hext e (List.mem_singleton.1 he ▸ rfl)

theorem ends_checkExtensions (given : Option Json) :
    Ends strict (checkExtensions strict given) fun exts =>
      exts ≠ [] ∧ exts.Nodup ∧ ∀ ext ∈ exts, IsExtension ext := by
  have hrest : ∀ items? : Option (List Json), Ends strict (do
      let found ← checkItems strict [] 0 (items?.getD [])
      return if found.isEmpty then default.extensions else found) fun exts =>
        exts ≠ [] ∧ exts.Nodup ∧ ∀ ext ∈ exts, IsExtension ext := by
    intro items?
    refine .bind (ends_checkItems 0 _ List.nodup_nil (by simp)) fun found hfound => .pure ?_
    split
    · exact settled_default.extensions
    · rename_i hne
      exact ⟨by simpa using hne, hfound⟩
  unfold checkExtensions
  dsimp only
  simp only [pure_bind]
  split
  · exact hrest (some [])
  · exact hrest (some [])
  · exact hrest (some _)
  · exact hrest (some _)
  · exact .bind (.complain _) fun _ _ => hrest none

/-- The members of a value that are no settings. -/
def unknown : Json → List (String × Json)
  | .object given => given.filter (·.1 ∉ keys)
  | _ => []

/-- What a check returns is settled, and keeps what is no setting. -/
theorem ends_check (strict : Bool) (v : Json) :
    Ends strict (check strict v) fun s => s.Settled ∧ s.extras = unknown v := by
  unfold check
  split
  · have hdefault := settled_default.texts
    simp only [texts, List.forall_mem_cons] at hdefault
    obtain ⟨hsource, hscan, hgraph, htree, hmode, hroot, hseparator, hsuffix, hfield, -⟩ := hdefault
    dsimp only
    refine .bind (ends_checkText _ _ hsource) fun _ hsource => ?_
    refine .bind (ends_checkText _ _ hscan) fun _ hscan => ?_
    refine .bind (ends_checkText _ _ hgraph) fun _ hgraph => ?_
    refine .bind (ends_checkText _ _ htree) fun _ htree => ?_
    refine .bind (ends_checkText _ _ hmode) fun _ _ => ?_
    refine .bind (ends_checkText _ _ hroot) fun _ hroot => ?_
    refine .bind (ends_checkText _ _ hseparator) fun _ hseparator => ?_
    refine .bind (ends_checkText _ _ hsuffix) fun _ hsuffix => ?_
    refine .bind (ends_checkText _ _ hfield) fun _ hfield => ?_
    refine .bind (ends_checkFlag _) fun _ _ => ?_
    refine .bind (ends_checkMode _) fun mode _ => ?_
    refine .bind (ends_checkSuffix hsuffix) fun _ ⟨hsuffix, hdotted⟩ => ?_
    refine .bind (ends_checkExtensions _) fun _ hexts => .pure ⟨⟨?_, hdotted, hexts, ?_⟩, rfl⟩
    · simp only [texts, List.forall_mem_cons]
      exact ⟨hsource, hscan, hgraph, htree, neat_name mode, hroot, hseparator, hsuffix, hfield, nofun⟩
    · exact fun e he => by simpa using (List.mem_filter.1 he).2
  · rename_i hv
    refine .bind (.complain _) fun _ _ => .pure ⟨settled_default, ?_⟩
    unfold unknown
    split
    · exact absurd rfl (hv _)
    · rfl

end Ends

theorem settled_mend (v : Json) : (mend v).1.Settled := by
  unfold mend
  cases hr : check false v [] with
  | ok p => exact ((ends_check false v).holds _ _ _ hr).1
  | error complaint => exact absurd ((ends_check false v).strict_of_error _ _ hr) Bool.false_ne_true

/-! ## Checking again -/

section Again

variable {s : Settings}

theorem checkText_texts (h : s.Settled) (strict : Bool) :
    ∀ e ∈ s.texts, ∀ default, checkText strict s.members e.1 default = pure e.2 := by
  intro e he default
  have hneat := h.texts e he
  simp only [checkText, member?_of_mem_texts he, hneat.trim_eq, hneat.ne_empty, if_false]

theorem checkMode_name (strict : Bool) (mode : Mode) : checkMode strict mode.name = pure mode := by
  have hn : Mode.ofName? (lowered (Text.trim mode.name)) = some mode := by cases mode <;> decide +kernel
  rw [checkMode, hn]

theorem checkItem_text {ext : String} (strict : Bool) (index : Nat) (h : IsExtension ext) :
    checkItem strict index (.text ext) = pure (some ext) := by
  simp only [checkItem, h.1.trim_eq, h.1.ne_empty, h.2, if_true, if_false]

theorem checkItems_texts {found exts : List String} (strict : Bool) (index : Nat)
    (hn : (found ++ exts).Nodup) (he : ∀ ext ∈ exts, IsExtension ext) :
    checkItems strict found index (exts.map .text) = pure (found ++ exts) := by
  induction exts generalizing found index with
  | nil => rw [List.append_nil]; rfl
  | cons ext exts ih =>
    have hnew : ext ∉ found := fun hm =>
      (List.nodup_append.1 hn).2.2 ext hm ext List.mem_cons_self rfl
    rw [List.append_cons] at hn ⊢
    rw [List.map_cons, checkItems, checkItem_text strict index (he ext List.mem_cons_self), pure_bind]
    dsimp only
    rw [if_neg hnew, ih _ hn fun e hm => he e (List.mem_cons_of_mem _ hm)]

theorem checkExtensions_texts (h : s.Settled) (strict : Bool) :
    checkExtensions strict (some (.texts s.extensions)) = pure s.extensions := by
  obtain ⟨hne, hn, he⟩ := h.extensions
  have hitems := @checkItems_texts [] s.extensions strict 0 hn he
  rw [List.nil_append] at hitems
  simp only [checkExtensions, Json.texts, pure_bind, Option.getD_some, hitems, List.isEmpty_iff, hne,
    if_false]

theorem unknown_toJson (h : s.Settled) : unknown s.toJson = s.extras := by
  rw [toJson, unknown, members, List.filter_append, List.filter_eq_nil_iff.2 (by simp; decide),
    List.nil_append, List.filter_eq_self]
  exact fun e he => by simpa using h.extras e he

/-- Settled settings pass a check of either kind as they are, without a complaint. -/
theorem check_of_settled (h : s.Settled) (strict : Bool) : check strict s.toJson = pure s := by
  have htexts := checkText_texts h strict
  simp only [texts, List.forall_mem_cons] at htexts
  obtain ⟨hsource, hscan, hgraph, htree, hmode, hroot, hseparator, hsuffix, hfield, -⟩ := htexts
  have hflag : checkFlag strict (Json.member? "print_summary" s.members) = pure s.printSummary := rfl
  have hdotted : checkSuffix strict s.suffix = pure s.suffix := if_pos h.suffix
  have hexts : checkExtensions strict (Json.member? "template_extensions" s.members) = pure s.extensions :=
    checkExtensions_texts h strict
  have hextras : s.members.filter (·.1 ∉ keys) = s.extras := unknown_toJson h
  rw [toJson, check]
  simp only [hsource, hscan, hgraph, htree, hmode, hroot, hseparator, hsuffix, hfield, pure_bind, hflag,
    checkMode_name, hdotted, hexts, hextras]

end Again

/-! ## The members of what is returned -/

/-- Members of which each setting has one, and a proper one. -/
structure Proper (members : List (String × Json)) : Prop where
  complete : ∀ key ∈ keys, ∃ v, Json.member? key members = some v
  texts : ∀ key ∈ default.texts.map Prod.fst,
    ∃ t, Json.member? key members = some (.text t) ∧ Text.Neat t
  mode : ∃ mode : Mode, Json.member? "mode" members = some (.text mode.name)
  suffix : ∃ suffix, Json.member? "definition_suffix" members = some (.text suffix) ∧ isDotted suffix = true
  flag : ∃ flag, Json.member? "print_summary" members = some (.bool flag)
  extensions : ∃ exts, Json.member? "template_extensions" members = some (.texts exts) ∧
    exts ≠ [] ∧ exts.Nodup ∧ ∀ ext ∈ exts, IsExtension ext

theorem proper_of_settled {s : Settings} (h : s.Settled) : Proper s.members where
  complete key hk := by
    simp only [keys, members, default, List.append_nil, List.map_cons, List.map_nil, List.mem_cons,
      List.not_mem_nil, or_false] at hk
    rcases hk with rfl | rfl | rfl | rfl | rfl | rfl | rfl | rfl | rfl | rfl | rfl <;> exact ⟨_, rfl⟩
  texts key hk := by
    have hkeys : default.texts.map Prod.fst = s.texts.map Prod.fst := rfl
    rw [hkeys] at hk
    obtain ⟨e, he, rfl⟩ := List.mem_map.1 hk
    exact ⟨e.2, member?_of_mem_texts he, h.texts e he⟩
  mode := ⟨s.mode, rfl⟩
  suffix := ⟨s.suffix, rfl, h.suffix⟩
  flag := ⟨s.printSummary, rfl⟩
  extensions := ⟨s.extensions, rfl, h.extensions⟩

theorem lookup_filter {es : List (String × Json)} {p : String → Bool} {key : String} (hp : p key = true) :
    (es.filter (p ·.1)).lookup key = es.lookup key := by
  induction es with
  | nil => rfl
  | cons e es ih =>
    obtain ⟨name, v⟩ := e
    by_cases hn : p name = true
    · rw [List.filter_cons, if_pos hn, lookup_entry, lookup_entry, ih]
    · have hne : key ≠ name := fun he => hn (he ▸ hp)
      rw [List.filter_cons, if_neg hn, lookup_entry, if_neg hne, ih]

/-- What is no setting is found among the members as it was given. -/
theorem member?_of_unknown {s : Settings} {given : List (String × Json)} {key : String}
    (hs : s.extras = unknown (.object given)) (hk : key ∉ keys) :
    Json.member? key s.members = Json.member? key given := by
  have hfront : (s.members.take 11).lookup key = none := by
    rw [List.lookup_eq_none_iff]
    intro e he
    have hm : e.1 ∈ (s.members.take 11).map Prod.fst := List.mem_map.2 ⟨e, he, rfl⟩
    exact bne_iff_ne.2 fun hkey => hk (hkey ▸ hm)
  have hmembers : s.members = s.members.take 11 ++ s.extras := rfl
  rw [Json.member?, hmembers, List.lookup_append, hfront, Option.none_or, hs, unknown]
  exact @lookup_filter given (· ∉ keys) key (decide_eq_true hk)

/-- A check that mends returns settings, whatever it is given. All that any check returns is
proper and keeps what is no setting, and it passes each further check as it is. -/
theorem check_settles (v : Json) :
    (∃ s complaints, check false v [] = .ok (s, complaints) ∧ mend v = (s, complaints)) ∧
      ∀ strict s complaints, check strict v [] = .ok (s, complaints) →
        Proper s.members ∧
        (∀ given, v = .object given → ∀ key ∉ keys, Json.member? key s.members = Json.member? key given) ∧
        ∀ again, check again s.toJson [] = .ok (s, []) := by
  constructor
  · cases hr : check false v [] with
    | error complaint => exact absurd ((ends_check false v).strict_of_error _ _ hr) Bool.false_ne_true
    | ok p => exact ⟨p.1, p.2, rfl, by rw [mend, hr]⟩
  · intro strict s complaints hr
    obtain ⟨hs, hextras⟩ := (ends_check strict v).holds _ _ _ hr
    refine ⟨proper_of_settled hs, fun given hv key hk => ?_, fun again => by rw [check_of_settled hs]; rfl⟩
    subst hv
    exact member?_of_unknown hextras hk

/-- Extensions without dots that come twice, a blank one, a suffix without a dot, and a member
that is no setting. -/
def rough : Json :=
  .object [("owner", .text "web"), ("definition_suffix", .text " cmp.ts "), ("mode", .text "TREE"),
    ("template_extensions", .text "html, .html,, htm")]

theorem check_settles_rough :
    ∃ s complaints, check false rough [] = .ok (s, complaints) ∧ s.suffix = ".cmp.ts" ∧ s.mode = .tree ∧
      s.extensions = [".html", ".htm"] ∧ complaints.length = 3 ∧ Proper s.members ∧
      check true s.toJson [] = .ok (s, []) := by
  obtain ⟨⟨s, complaints, hr, hmend⟩, hsettles⟩ := check_settles rough
  obtain ⟨hproper, -, hagain⟩ := hsettles false s complaints hr
  have hmended : (mend rough).1.suffix = ".cmp.ts" ∧ (mend rough).1.mode = .tree ∧
      (mend rough).1.extensions = [".html", ".htm"] ∧ (mend rough).2.length = 3 := by decide +kernel
  rw [hmend] at hmended
  obtain ⟨hsuffix, hmode, hexts, hlength⟩ := hmended
  exact ⟨s, complaints, hr, hsuffix, hmode, hexts, hlength, hproper, hagain true⟩

end Settings
end ComponentUsage
