import ComponentUsage.CommandLine.Parse
/-!
# Values that are attached to options

The word that joins the name of an option and a value by an equals sign is that option with
that value, whatever the value holds (`ofWord_append`, `read_attached`). A switch needs no value
(`read_switch`).
-/

namespace ComponentUsage.CommandLine

variable {name value : String}

/-- A word is cut at its first equals sign. -/
theorem cutAtEquals_append (h : '=' ∉ name.toList) (value : String) :
    cutAtEquals (name ++ "=" ++ value) = some (name, value) := by
  have hword : (name ++ "=" ++ value).toList = name.toList ++ '=' :: value.toList := by
    simp [String.toList_append]
  have hname : ∀ c ∈ name.toList, decide (c ≠ '=') = true := fun c hc => by
    rw [decide_eq_true_eq]
    rintro rfl
    exact h hc
  simp only [cutAtEquals, hword]
  rw [List.dropWhile_append_of_pos hname, List.takeWhile_append_of_pos hname,
    List.dropWhile_cons_of_neg (by simp), List.takeWhile_cons_of_neg (by simp), List.append_nil]
  simp only [String.ofList_toList]

theorem no_equals_of_named : ∀ e ∈ Opt.named, '=' ∉ e.1.toList := by decide +kernel

/-- The name of an option is a hyphen and something behind it. -/
theorem toList_of_named : ∀ e ∈ Opt.named, ∃ c cs, e.1.toList = '-' :: c :: cs := by
  have hlong : ∀ e ∈ Opt.named, e.1.toList.head? = some '-' ∧ 2 ≤ e.1.toList.length := by decide +kernel
  intro e he
  obtain ⟨hhead, hlength⟩ := hlong e he
  match h : e.1.toList with
  | [] | [_] => simp [h] at hlength
  | a :: c :: cs =>
    rw [h, List.head?_cons, Option.some.injEq] at hhead
    exact ⟨c, cs, by rw [hhead]⟩

theorem mem_named {opt : Opt} (h : Opt.ofName? name = some opt) : (name, opt) ∈ Opt.named := by
  obtain ⟨before, after, hnamed, -⟩ := List.lookup_eq_some_iff.1 h
  rw [hnamed]
  simp

/-- No option is called by a word with an equals sign. -/
theorem ofName?_append (name value : String) : Opt.ofName? (name ++ "=" ++ value) = none := by
  rw [Option.eq_none_iff_forall_ne_some]
  intro opt h
  exact no_equals_of_named _ (mem_named h) (by simp [String.toList_append])

theorem ofWord_append {opt : Opt} (h : Opt.ofName? name = some opt) (value : String) :
    Shape.ofWord (name ++ "=" ++ value) = .ok (.option opt name (some value)) := by
  obtain ⟨c, cs, hname⟩ := toList_of_named _ (mem_named h)
  have hword : (name ++ "=" ++ value).toList = '-' :: c :: (cs ++ '=' :: value.toList) := by
    simp [String.toList_append, hname]
  rw [Shape.ofWord, hword]
  dsimp only
  rw [ofName?_append, cutAtEquals_append (no_equals_of_named _ (mem_named h)), Option.bind_some, h]
  rfl

theorem unchain_of_value {opt : Opt} (h : opt.isSwitch = false) (short : Bool) (value : String) :
    unchain opt short value.toList = .ok ([], opt, some value) := by
  cases hv : value.toList with
  | nil => simp [unchain, h, String.toList_eq_nil_iff.1 hv]
  | cons c cs => simp [unchain, h, ← hv]

/-- An option that takes any value is given the one that is attached to it. -/
theorem read_attached {opt : Opt} (hs : opt.isSwitch = false) (hc : opt.choices = none) (hv : value ≠ "--")
    (o : Options) (extras : List String) (word : String) (rest : List (String × Shape)) :
    read o extras ((word, .option opt name (some value)) :: rest) =
      read (o.give opt (.text value)) extras rest := by
  have htake : take o opt value = .ok (o.give opt (.text value)) := by rw [take, if_neg hv, hc]
  rw [read]
  rw [unchain_of_value hs]
  change (take o opt value >>= fun o => read o extras rest) = _
  rw [htake]
  rfl

/-- A switch that nothing is attached to is turned on. -/
theorem read_switch {opt : Opt} (hs : opt.isSwitch = true) (hh : opt ≠ .help) (o : Options)
    (extras : List String) (word : String) (rest : List (String × Shape)) :
    read o extras ((word, .option opt name none) :: rest) = read (o.give opt .on) extras rest := by
  have hon : switchOn o opt = .ok (o.give opt .on) := by rw [switchOn, if_neg hh]
  rw [read]
  change (if opt.isSwitch = true then switchOn o opt >>= fun o => read o extras rest else _) = _
  rw [if_pos hs, hon]
  rfl

end ComponentUsage.CommandLine
