import ComponentUsage.CommandLine.Options
import ComponentUsage.Proofs.Settings.Layered
/-!
# What the command line gives

The layer of the command line says of each setting just what its option gives, and nothing where
that is not there (`said?_layer`).
-/

namespace ComponentUsage.CommandLine.Options

/-- The value of an option that gives a setting as it is. -/
def value? (o : Options) (opt : Opt) : Option Json :=
  match o.value opt with
  | .text s => some (.text s)
  | .dashes => some (.list [])
  | _ => none

/-- The extensions of template files, unless the text for them is empty. -/
def extensions? (o : Options) : Option Json :=
  match o.text? .templateExt with
  | none => none
  | some s => if s = "" then none else some (.texts (commaList s))

def summary? (o : Options) : Option Json := if o.has .noSummary then some (.bool false) else none

/-- What the command line gives for a setting. -/
def given? (o : Options) (key : String) : Option Json :=
  if key = Opt.templateExt.key then o.extensions?
  else if key = "print_summary" then o.summary?
  else (direct.find? (·.key = key)).bind o.value?

theorem layer_eq (o : Options) : o.layer = direct.map (fun opt => (opt.key, o.json opt)) ++
    o.extensions?.toList.map (Opt.templateExt.key, ·) ++ o.summary?.toList.map ("print_summary", ·) := by
  rw [layer, extensions?, summary?]
  congr 1
  · cases o.text? .templateExt with
    | none => rfl
    | some s =>
      dsimp only
      split <;> rfl
  · split <;> rfl

theorem lookup_direct (o : Options) (key : String) (opts : List Opt) :
    (opts.map fun opt => (opt.key, o.json opt)).lookup key = (opts.find? (·.key = key)).map o.json := by
  induction opts with
  | nil => rfl
  | cons opt opts ih =>
    rw [List.map_cons, lookup_entry, List.find?_cons]
    by_cases hk : key = opt.key
    · rw [if_pos hk, decide_eq_true hk.symm]
      rfl
    · rw [if_neg hk, decide_eq_false fun he => hk he.symm, ih]

theorem lookup_toList (name key : String) (v? : Option Json) :
    (v?.toList.map (name, ·)).lookup key = if key = name then v? else none := by
  cases v? with
  | none => simp
  | some v => exact lookup_entry key name v []

/-- Of the options that give a setting as it is, none has one of the two other names. -/
theorem find_direct_eq_none {key : String} (h : key = Opt.templateExt.key ∨ key = "print_summary") :
    direct.find? (·.key = key) = none := by
  rcases h with rfl | rfl <;> decide

/-- The layer of the command line says just what the command line gives. -/
theorem said?_layer (o : Options) (key : String) : Settings.said? o.layer key = o.given? key := by
  have hlayer : Json.member? key o.layer = (((direct.find? (·.key = key)).map o.json).or
      (if key = Opt.templateExt.key then o.extensions? else none)).or
      (if key = "print_summary" then o.summary? else none) := by
    rw [Json.member?, layer_eq, List.lookup_append, List.lookup_append, lookup_direct, lookup_toList, lookup_toList]
  rw [Settings.said?, hlayer, given?]
  by_cases hext : key = Opt.templateExt.key
  · have hsummary : key ≠ "print_summary" := hext ▸ by decide
    rw [find_direct_eq_none (.inl hext), if_pos hext, if_pos hext, if_neg hsummary, Option.map_none, Option.none_or,
      Option.or_none, extensions?]
    cases o.text? .templateExt with
    | none => rfl
    | some s =>
      dsimp only
      by_cases hs : s = ""
      · rw [if_pos hs]
      · rw [if_neg hs]
        rfl
  · rw [if_neg hext, if_neg hext, Option.or_none]
    by_cases hsummary : key = "print_summary"
    · rw [find_direct_eq_none (.inr hsummary), if_pos hsummary, if_pos hsummary, Option.map_none, Option.none_or, summary?]
      by_cases hs : o.has .noSummary = true
      · rw [if_pos hs]
      · rw [if_neg hs]
    · rw [if_neg hsummary, if_neg hsummary, Option.or_none]
      cases hfind : direct.find? (·.key = key) with
      | none => rfl
      | some opt =>
        have hswitch : ∀ opt ∈ direct, opt.isSwitch = false := by decide
        rw [Option.map_some, Option.bind_some, json, hswitch opt (List.mem_of_find?_eq_some hfind), value?,
          if_neg Bool.false_ne_true]
        cases o.value opt <;> rfl

end ComponentUsage.CommandLine.Options
