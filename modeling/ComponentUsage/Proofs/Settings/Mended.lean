import ComponentUsage.Proofs.Settings.Checked
/-!
# What a setting comes to

A check that mends always returns settings, and each of them comes from what is given for it
alone (`mend_eq`, `members_mended`). What is given for one setting changes no other one
(`mend_inMode`).
-/

namespace ComponentUsage.Settings

theorem mend_eq (v : Json) : (mend v).1 = mended (given v) := by
  rw [mend, (agree_check v).mends]

/-- What a value given for a setting comes to. -/
def normal (key : String) (given : Option Json) : Json :=
  if key = "print_summary" then .bool (normalFlag given)
  else if key = "mode" then .text (normalMode (normalText given default.mode.name)).name
  else if key = "definition_suffix" then .text (dotted (normalText given default.suffix))
  else if key = "template_extensions" then .texts (normalExtensions given)
  else .text (normalText given ((default.texts.lookup key).getD ""))

/-- For most settings, what is given is a text. -/
theorem normal_text {key : String} (h : key ∉ ["print_summary", "mode", "definition_suffix", "template_extensions"])
    (given : Option Json) : normal key given = .text (normalText given ((default.texts.lookup key).getD "")) := by
  simp only [List.mem_cons, List.not_mem_nil, or_false, not_or] at h
  obtain ⟨hflag, hmode, hsuffix, hexts⟩ := h
  rw [normal, if_neg hflag, if_neg hmode, if_neg hsuffix, if_neg hexts]

theorem members_mended (members : List (String × Json)) :
    (mended members).members =
      keys.map (fun key => (key, normal key (Json.member? key members))) ++ members.filter (·.1 ∉ keys) := by
  have hkeys : keys = ["source_root", "scan_root", "graph_output_path", "tree_output_path", "mode", "root_selector",
    "path_separator", "print_summary", "definition_suffix", "template_extensions", "selector_field"] := rfl
  have hflag : ∀ g, normal "print_summary" g = .bool (normalFlag g) := fun g => if_pos rfl
  have hmode : ∀ g, normal "mode" g = .text (normalMode (normalText g default.mode.name)).name := fun g => by
    rw [normal, if_neg (by decide), if_pos rfl]
  have hsuffix : ∀ g, normal "definition_suffix" g = .text (dotted (normalText g default.suffix)) := fun g => by
    rw [normal, if_neg (by decide), if_neg (by decide), if_pos rfl]
  have hexts : ∀ g, normal "template_extensions" g = .texts (normalExtensions g) := fun g => by
    rw [normal, if_neg (by decide), if_neg (by decide), if_neg (by decide), if_pos rfl]
  have hsource : ∀ g, normal "source_root" g = .text (normalText g default.sourceRoot) := normal_text (by decide)
  have hscan : ∀ g, normal "scan_root" g = .text (normalText g default.scanRoot) := normal_text (by decide)
  have hgraph : ∀ g, normal "graph_output_path" g = .text (normalText g default.graphOutput) := normal_text (by decide)
  have htree : ∀ g, normal "tree_output_path" g = .text (normalText g default.treeOutput) := normal_text (by decide)
  have hroot : ∀ g, normal "root_selector" g = .text (normalText g default.rootSelector) := normal_text (by decide)
  have hseparator : ∀ g, normal "path_separator" g = .text (normalText g default.separator) := normal_text (by decide)
  have hfield : ∀ g, normal "selector_field" g = .text (normalText g default.field) := normal_text (by decide)
  rw [Settings.members]
  refine congrArg₂ (· ++ ·) ?_ rfl
  rw [hkeys]
  simp only [List.map_cons, List.map_nil, hsource, hscan, hgraph, htree, hmode, hroot, hseparator, hflag, hsuffix,
    hexts, hfield, mended]

theorem lookup_map_names (f : String → Json) {key : String} {names : List String} (h : key ∈ names) :
    (names.map fun name => (name, f name)).lookup key = some (f key) := by
  induction names with
  | nil => cases h
  | cons name names ih =>
    rw [List.map_cons, lookup_entry]
    split
    · rename_i he
      rw [he]
    · rename_i hne
      exact ih ((List.mem_cons.1 h).resolve_left hne)

/-! ## One setting given anew -/

/-- A configuration in which this mode is given, and all else as before. -/
def inMode (mode : Mode) (config : Json) : Json := .object (upsert "mode" (.text mode.name) (given config))

theorem normalMode_name (mode : Mode) : normalMode (normalText (some (.text mode.name)) default.mode.name) = mode := by
  rw [normalText, (neat_name mode).trim_eq, if_neg (neat_name mode).ne_empty]
  cases mode <;> decide

/-- What is no setting stays among the members when a setting is given anew. -/
theorem unknown_upsert {key : String} (h : key ∈ keys) (v : Json) (members : List (String × Json)) :
    (upsert key v members).filter (·.1 ∉ keys) = members.filter (·.1 ∉ keys) := by
  have hout : (decide (key ∉ keys)) = false := decide_eq_false (not_not_intro h)
  induction members with
  | nil => rw [upsert, List.filter_cons, hout, if_neg Bool.false_ne_true]
  | cons e members ih =>
    rw [upsert]
    split
    · rename_i he
      rw [List.filter_cons, List.filter_cons, he, hout, if_neg Bool.false_ne_true, if_neg Bool.false_ne_true]
    · rw [List.filter_cons, List.filter_cons, ih]

/-- Another mode changes no other setting. -/
theorem mend_inMode (mode : Mode) (config : Json) : (mend (inMode mode config)).1 = { (mend config).1 with mode } := by
  have hmember : ∀ key, Json.member? key (upsert "mode" (.text mode.name) (given config)) =
      if key = "mode" then some (.text mode.name) else Json.member? key (given config) := fun key =>
    lookup_upsert _ _ _ _
  have hmode := normalMode_name mode
  have hextras := unknown_upsert (show "mode" ∈ keys by decide) (.text mode.name) (given config)
  rw [mend_eq, mend_eq, inMode, given, mended, hextras]
  simp only [hmember, String.reduceEq, if_true, if_false, hmode, mended]

end ComponentUsage.Settings
