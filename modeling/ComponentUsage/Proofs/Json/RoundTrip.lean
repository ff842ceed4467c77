import ComponentUsage.Json.Parser
import ComponentUsage.Json.Printer
/-!
# Reading what was printed

A value without numbers is read back from its text, in whatever layout it was printed
(`parse?_print`).
-/

namespace ComponentUsage.Json

/-! ## Strings -/

/-- A letter that is written by its number is read as that number. -/
theorem hexUnit?_hexDigits : ∀ n < 0x20, ∃ a b c d,
    Text.hexDigits 4 n = [a, b, c, d] ∧ hexUnit? a b c d = some n := by
  have h : ∀ n < 0x20, Text.hexDigits 4 n = ['0', '0', Nat.digitChar (n / 16), Nat.digitChar (n % 16)] ∧
      hexUnit? '0' '0' (Nat.digitChar (n / 16)) (Nat.digitChar (n % 16)) = some n := by
    decide +kernel
  intro n hn
  exact ⟨_, _, _, _, h n hn⟩

/-- A character of a string is written as an escape of one letter, by its number, or as itself. -/
theorem escapeChar_cases (c : Char) :
    (∃ e, escapeChar c = ['\\', e] ∧ escape? e = some c) ∨
      (c.toNat < 0x20 ∧ escapeChar c = '\\' :: 'u' :: Text.hexDigits 4 c.toNat) ∨
      (escapeChar c = [c] ∧ c ≠ '"' ∧ c ≠ '\\' ∧ ¬ c.toNat < 0x20) := by
  by_cases hshort : c ∈ ['"', '\\', '\n', '\r', '\t', '\x08', '\x0c']
  · have h : ∀ c ∈ ['"', '\\', '\n', '\r', '\t', '\x08', '\x0c'],
        ∃ e, escapeChar c = ['\\', e] ∧ escape? e = some c := by
      simp only [List.forall_mem_cons, List.not_mem_nil, false_implies, implies_true, and_true]
      exact ⟨⟨'"', rfl, rfl⟩, ⟨'\\', rfl, rfl⟩, ⟨'n', rfl, rfl⟩, ⟨'r', rfl, rfl⟩, ⟨'t', rfl, rfl⟩, ⟨'b', rfl, rfl⟩,
        ⟨'f', rfl, rfl⟩⟩
    exact .inl (h c hshort)
  · simp only [List.mem_cons, List.not_mem_nil, or_false, not_or] at hshort
    obtain ⟨hquote, hslash, hn, hr, ht, hb, hf⟩ := hshort
    simp only [escapeChar, hquote, hslash, hn, hr, ht, hb, hf, if_false]
    split
    · rename_i hlow
      exact .inr (.inl ⟨hlow, rfl⟩)
    · rename_i hlow
      exact .inr (.inr ⟨rfl, hquote, hslash, hlow⟩)

/-- What is written for a character is read as its unit. -/
theorem stringUnits_escapeChar (c : Char) (cs : List Char) :
    stringUnits (escapeChar c ++ cs) = (stringUnits cs).map fun (units, rest) => (c.toNat :: units, rest) := by
  rcases escapeChar_cases c with ⟨e, he, hc⟩ | ⟨hlow, he⟩ | ⟨he, hquote, hslash, hlow⟩
  · have hu : e ≠ 'u' := by
      rintro rfl
      cases hc
    rw [he, List.cons_append, List.singleton_append, stringUnits.eq_4 e cs fun _ _ _ _ _ h _ => hu h, hc]
    cases stringUnits cs <;> rfl
  · obtain ⟨a, b, c', d, hdigits, hunit⟩ := hexUnit?_hexDigits c.toNat hlow
    rw [he, hdigits]
    simp only [List.cons_append, List.nil_append]
    rw [stringUnits, hunit]
    cases stringUnits cs <;> rfl
  · rw [he, List.singleton_append, stringUnits.eq_5 c cs hquote (fun _ _ _ _ _ h _ => hslash h)
      fun _ _ h _ => hslash h, if_neg hlow]
    cases stringUnits cs <;> rfl

theorem stringUnits_flatMap (cs rest : List Char) :
    stringUnits (cs.flatMap escapeChar ++ '"' :: rest) = some (cs.map Char.toNat, rest) := by
  induction cs with
  | nil => rw [List.flatMap_nil, List.nil_append, stringUnits, List.map_nil]
  | cons c cs ih =>
    rw [List.flatMap_cons, List.append_assoc, stringUnits_escapeChar, ih, Option.map_some, List.map_cons]

/-- A character is no half of one. -/
theorem not_isHalf (c : Char) : isHighHalf c.toNat = false ∧ isLowHalf c.toNat = false := by
  have h : c.toNat < 0xD800 ∨ 0xDFFF < c.toNat ∧ c.toNat < 0x110000 := c.valid
  simp only [isHighHalf, isLowHalf, Bool.and_eq_false_iff, decide_eq_false_iff_not]
  omega

theorem joinUnits_map (cs : List Char) : joinUnits (cs.map Char.toNat) = cs := by
  induction cs with
  | nil => rfl
  | cons c cs ih =>
    obtain ⟨hhigh, hlow⟩ := not_isHalf c
    cases cs with
    | nil => simp [joinUnits, hhigh, hlow]
    | cons c' cs =>
      rw [List.map_cons] at ih
      simp [joinUnits, hhigh, hlow, ih]

/-- A string is read back from what is written for it. -/
theorem stringRest_flatMap (s : String) (rest : List Char) :
    stringRest (s.toList.flatMap escapeChar ++ '"' :: rest) = some (s, rest) := by
  rw [stringRest, stringUnits_flatMap, Option.map_some]
  dsimp only
  rw [joinUnits_map, String.ofList_toList]

/-! ## Values -/

mutual

/-- A value without numbers, of whose objects each has distinct names. -/
def Plain : Json → Prop
  | .null | .bool _ | .text _ => True
  | .int _ | .float _ => False
  | .list vs => PlainItems vs
  | .object ms => (ms.map Prod.fst).Nodup ∧ PlainMembers ms

def PlainItems : List Json → Prop
  | [] => True
  | v :: vs => v.Plain ∧ PlainItems vs

def PlainMembers : List (String × Json) → Prop
  | [] => True
  | (_, v) :: ms => v.Plain ∧ PlainMembers ms

end

theorem plainItems_iff {vs : List Json} : PlainItems vs ↔ ∀ v ∈ vs, v.Plain := by
  induction vs with
  | nil => simp [PlainItems]
  | cons v vs ih => simp [PlainItems, ih]

theorem plainMembers_iff {ms : List (String × Json)} : PlainMembers ms ↔ ∀ m ∈ ms, m.2.Plain := by
  induction ms with
  | nil => simp [PlainMembers]
  | cons m ms ih => simp [PlainMembers, ih]

theorem plain_texts (l : List String) : (texts l).Plain := by
  apply plainItems_iff.2
  simp [Plain]

/-- Members with distinct names make the object that has just these. -/
theorem ofMembers_of_nodup {ms : List (String × Json)} (h : (ms.map Prod.fst).Nodup) : ofMembers ms = .object ms :=
  congrArg Json.object (@foldl_upsert _ [] ms [] h (.inl rfl))

/-- A character with which a value may start, but no list or object end. -/
def Opens (c : Char) : Prop := c ∈ ['n', 't', 'f', '"', '[', '\x7b']

/-- The text of a value starts at once, and not as a list or an object ends. -/
theorem exists_cons_chars (layout : Layout) (depth : Nat) {v : Json} (h : v.Plain) :
    ∃ c cs, v.chars layout depth = c :: cs ∧ Opens c := by
  cases v with
  | null => exact ⟨_, _, rfl, by simp [Opens]⟩
  | bool b => cases b <;> exact ⟨_, _, rfl, by simp [Opens]⟩
  | int | float => exact h.elim
  | text s => exact ⟨_, _, rfl, by simp [Opens]⟩
  | list vs => cases vs <;> exact ⟨_, _, rfl, by simp [Opens]⟩
  | object ms => cases ms <;> exact ⟨_, _, rfl, by simp [Opens]⟩

theorem skipBlanks_of_opens {c : Char} (h : Opens c) (cs : List Char) : skipBlanks (c :: cs) = c :: cs := by
  have hblank : ∀ c ∈ ['n', 't', 'f', '"', '[', '\x7b'],
      (c == ' ' || c == '\t' || c == '\n' || c == '\r') = false := by
    simp
  exact List.dropWhile_cons_of_neg (Bool.eq_false_iff.1 (hblank c h))

theorem skipBlanks_chars {v : Json} (h : v.Plain) (layout : Layout) (depth : Nat) (tail : List Char) :
    skipBlanks (v.chars layout depth ++ tail) = v.chars layout depth ++ tail := by
  obtain ⟨c, cs, hc, hopens⟩ := exists_cons_chars layout depth h
  rw [hc, List.cons_append, skipBlanks_of_opens hopens]

theorem skipBlanks_comma (cs : List Char) : skipBlanks (',' :: cs) = ',' :: cs := rfl

theorem skipBlanks_colon (cs : List Char) : skipBlanks (':' :: cs) = ':' :: cs := rfl

theorem skipBlanks_blank (cs : List Char) : skipBlanks (' ' :: cs) = skipBlanks cs := rfl

theorem skipBlanks_lineStart (depth : Nat) (cs : List Char) : skipBlanks (lineStart depth ++ cs) = skipBlanks cs := by
  refine List.dropWhile_append_of_pos fun c hc => ?_
  rcases List.mem_cons.1 hc with rfl | hc
  · rfl
  · obtain rfl := List.eq_of_mem_replicate hc
    rfl

theorem skipBlanks_edge (layout : Layout) (depth : Nat) (cs : List Char) :
    skipBlanks (layout.edge depth ++ cs) = skipBlanks cs := by
  cases layout with
  | line => rfl
  | indented => exact skipBlanks_lineStart depth cs

theorem exists_comma (layout : Layout) (depth : Nat) :
    ∃ blanks, layout.comma depth = ',' :: blanks ∧ ∀ cs, skipBlanks (blanks ++ cs) = skipBlanks cs := by
  cases layout with
  | line => exact ⟨[' '], rfl, fun cs => rfl⟩
  | indented => exact ⟨lineStart depth, rfl, skipBlanks_lineStart depth⟩

/-- A value is read back from what is written for it, whatever follows. Twice as many steps as
characters suffice. -/
def Reads (limit : Nat) (layout : Layout) (v : Json) : Prop :=
  ∀ depth fuel rest, 2 * (v.chars layout depth).length ≤ fuel →
    value limit fuel (v.chars layout depth ++ rest) = some (v, rest)

variable {limit : Nat} {layout : Layout}

/-! ### Lists -/

theorem items_last {v : Json} (h : Reads limit layout v) {depth fuel : Nat}
    (hf : 2 * (v.chars layout depth).length ≤ fuel) {tail rest : List Char} (ht : skipBlanks tail = ']' :: rest) :
    items limit (fuel + 1) (v.chars layout depth ++ tail) = some ([v], rest) := by
  rw [items, h depth fuel tail hf]
  simp only [Option.bind_eq_bind, Option.bind_some, ht]
  rfl

theorem items_comma {v : Json} (h : Reads limit layout v) {depth fuel : Nat}
    (hf : 2 * (v.chars layout depth).length ≤ fuel) {tail cs rest : List Char} (ht : skipBlanks tail = ',' :: cs)
    {vs : List Json} (hvs : items limit fuel (skipBlanks cs) = some (vs, rest)) :
    items limit (fuel + 1) (v.chars layout depth ++ tail) = some (v :: vs, rest) := by
  rw [items, h depth fuel tail hf]
  simp only [Option.bind_eq_bind, Option.bind_some, ht, hvs]
  rfl

/-- The items of a list are read up to its end. -/
theorem items_itemChars {v : Json} {vs : List Json} (h : ∀ a ∈ v :: vs, a.Plain ∧ Reads limit layout a)
    (depth edge : Nat) {fuel : Nat} (hf : 2 * (v.chars layout depth ++ itemChars layout depth vs).length < fuel)
    (rest : List Char) :
    items limit fuel (v.chars layout depth ++ (itemChars layout depth vs ++ (layout.edge edge ++ ']' :: rest))) =
      some (v :: vs, rest) := by
  induction vs generalizing v fuel with
  | nil =>
    obtain _ | fuel := fuel
    · omega
    rw [itemChars, List.append_nil] at hf
    refine items_last (h v List.mem_cons_self).2 (by omega) ?_
    rw [itemChars, List.nil_append, skipBlanks_edge]
    rfl
  | cons a vs ih =>
    obtain _ | fuel := fuel
    · omega
    obtain ⟨blanks, hcomma, hblanks⟩ := exists_comma layout depth
    simp only [itemChars, hcomma, List.length_append, List.length_cons] at hf
    have hitems : itemChars layout depth (a :: vs) ++ (layout.edge edge ++ ']' :: rest) =
        ',' :: (blanks ++ (a.chars layout depth ++ (itemChars layout depth vs ++
          (layout.edge edge ++ ']' :: rest)))) := by
      simp only [itemChars, hcomma, List.cons_append, List.append_assoc]
    rw [hitems]
    refine items_comma (h v List.mem_cons_self).2 (by omega) (skipBlanks_comma _) ?_
    rw [hblanks, skipBlanks_chars (h a (by simp)).1]
    refine ih (fun b hb => h b (List.mem_cons_of_mem _ hb)) ?_
    rw [List.length_append]
    omega

/-! ### Objects -/

/-- What is written for a member. -/
def memberText (layout : Layout) (depth : Nat) (m : String × Json) : List Char :=
  stringChars m.1 ++ [':', ' '] ++ m.2.chars layout depth

theorem skipBlanks_memberText (depth : Nat) (m : String × Json) (tail : List Char) :
    skipBlanks (memberText layout depth m ++ tail) = memberText layout depth m ++ tail :=
  skipBlanks_of_opens (by simp [Opens]) _

section

variable {m : String × Json} (hp : m.2.Plain) (h : Reads limit layout m.2) {depth fuel : Nat}
  (hf : 2 * (m.2.chars layout depth).length ≤ fuel) {tail rest : List Char}

include hp h hf

theorem members_last (ht : skipBlanks tail = '\x7d' :: rest) :
    members limit (fuel + 1) (memberText layout depth m ++ tail) = some ([m], rest) := by
  simp only [memberText, stringChars, List.cons_append, List.append_assoc, List.nil_append, members,
    stringRest_flatMap, Option.bind_eq_bind, Option.bind_some, skipBlanks_colon, skipBlanks_blank,
    skipBlanks_chars hp, h depth fuel tail hf, ht]
  rfl

theorem members_comma {cs : List Char} (ht : skipBlanks tail = ',' :: cs) {ms : List (String × Json)}
    (hms : members limit fuel (skipBlanks cs) = some (ms, rest)) :
    members limit (fuel + 1) (memberText layout depth m ++ tail) = some (m :: ms, rest) := by
  simp only [memberText, stringChars, List.cons_append, List.append_assoc, List.nil_append, members,
    stringRest_flatMap, Option.bind_eq_bind, Option.bind_some, skipBlanks_colon, skipBlanks_blank,
    skipBlanks_chars hp, h depth fuel tail hf, ht, hms]
  rfl

end

/-- The members of an object are read up to its end. -/
theorem members_memberChars {m : String × Json} {ms : List (String × Json)}
    (h : ∀ a ∈ m :: ms, a.2.Plain ∧ Reads limit layout a.2) (depth edge : Nat) {fuel : Nat}
    (hf : 2 * (memberText layout depth m ++ memberChars layout depth ms).length < fuel) (rest : List Char) :
    members limit fuel (memberText layout depth m ++ (memberChars layout depth ms ++
      (layout.edge edge ++ '\x7d' :: rest))) = some (m :: ms, rest) := by
  induction ms generalizing m fuel with
  | nil =>
    obtain _ | fuel := fuel
    · omega
    obtain ⟨hp, hm⟩ := h m List.mem_cons_self
    simp only [memberText, memberChars, List.length_append] at hf
    refine members_last hp hm (by omega) ?_
    rw [memberChars, List.nil_append, skipBlanks_edge]
    rfl
  | cons a ms ih =>
    obtain _ | fuel := fuel
    · omega
    obtain ⟨hp, hm⟩ := h m List.mem_cons_self
    obtain ⟨blanks, hcomma, hblanks⟩ := exists_comma layout depth
    have hmember : (m.2.chars layout depth).length ≤ (memberText layout depth m).length := by
      simp only [memberText, List.length_append]
      omega
    have hmembers : memberChars layout depth (a :: ms) =
        ',' :: (blanks ++ (memberText layout depth a ++ memberChars layout depth ms)) := by
      simp only [memberChars, memberText, hcomma, List.cons_append, List.append_assoc]
    rw [hmembers, List.length_append, List.length_cons, List.length_append] at hf
    rw [hmembers, List.cons_append]
    refine members_comma hp hm (by omega) (skipBlanks_comma _) ?_
    rw [List.append_assoc, hblanks, List.append_assoc, skipBlanks_memberText]
    exact ih (fun b hb => h b (List.mem_cons_of_mem _ hb)) (by omega)

/-! ### All values -/

theorem value_items {fuel : Nat} {c : Char} {cs tail rest : List Char} {vs : List Json}
    (hs : skipBlanks cs = c :: tail) (hc : Opens c) (h : items limit fuel (c :: tail) = some (vs, rest)) :
    value limit (fuel + 1) ('[' :: cs) = some (.list vs, rest) := by
  rw [value, hs]
  split
  · rename_i he
    obtain rfl := List.head_eq_of_cons_eq he
    simp [Opens] at hc
  · rw [h]
    rfl

theorem value_members {fuel : Nat} {c : Char} {cs tail rest : List Char} {ms : List (String × Json)}
    (hs : skipBlanks cs = c :: tail) (hc : Opens c) (h : members limit fuel (c :: tail) = some (ms, rest)) :
    value limit (fuel + 1) ('\x7b' :: cs) = some (ofMembers ms, rest) := by
  rw [value, hs]
  split
  · rename_i he
    obtain rfl := List.head_eq_of_cons_eq he
    simp [Opens] at hc
  · rw [h]
    rfl

mutual

/-- A plain value is read back. -/
theorem reads (limit : Nat) (layout : Layout) : ∀ v : Json, v.Plain → Reads limit layout v
  | .null, _ => fun depth fuel rest hf => by
    obtain _ | fuel := fuel
    · simp [chars] at hf
    · rfl
  | .bool b, _ => fun depth fuel rest hf => by
    obtain _ | fuel := fuel
    · cases b <;> simp [chars] at hf
    · cases b <;> rfl
  | .text s, _ => fun depth fuel rest hf => by
    obtain _ | fuel := fuel
    · simp [chars, stringChars] at hf
    · simp only [chars, stringChars, List.cons_append, List.append_assoc, List.nil_append, value, stringRest_flatMap,
        Option.map_some]
  | .int _, h => h.elim
  | .float _, h => h.elim
  | .list [], _ => fun depth fuel rest hf => by
    obtain _ | fuel := fuel
    · simp [chars] at hf
    · rfl
  | .list (v :: vs), h => fun depth fuel rest hf => by
    obtain _ | fuel := fuel
    · simp [chars] at hf
    · have hlong : 2 * (v.chars layout (depth + 1) ++ itemChars layout (depth + 1) vs).length < fuel := by
        simp only [chars, List.length_append, List.length_cons] at hf ⊢
        omega
      have hitems := items_itemChars (reads_items limit layout (v :: vs) h) (depth + 1) depth hlong rest
      obtain ⟨c, cs, hc, hopens⟩ := exists_cons_chars layout (depth + 1) h.1
      simp only [chars, List.cons_append, List.append_assoc, List.nil_append]
      rw [hc] at hitems
      refine value_items ?_ hopens hitems
      rw [skipBlanks_edge, skipBlanks_chars h.1, hc]
      rfl
  | .object [], _ => fun depth fuel rest hf => by
    obtain _ | fuel := fuel
    · simp [chars] at hf
    · rfl
  | .object (m :: ms), h => fun depth fuel rest hf => by
    obtain _ | fuel := fuel
    · simp [chars] at hf
    · have htext : (Json.object (m :: ms)).chars layout depth ++ rest = '\x7b' :: (layout.edge (depth + 1) ++
          (memberText layout (depth + 1) m ++ (memberChars layout (depth + 1) ms ++
            (layout.edge depth ++ '\x7d' :: rest)))) := by
        simp only [chars, memberText, List.cons_append, List.append_assoc, List.nil_append]
      have hlong : 2 * (memberText layout (depth + 1) m ++ memberChars layout (depth + 1) ms).length < fuel := by
        simp only [chars, memberText, List.length_append, List.length_cons] at hf ⊢
        omega
      have hmembers := members_memberChars (reads_members limit layout (m :: ms) h.2) (depth + 1) depth hlong rest
      rw [htext, ← ofMembers_of_nodup h.1]
      exact value_members (by rw [skipBlanks_edge, skipBlanks_memberText]; rfl) (by simp [Opens]) hmembers

theorem reads_items (limit : Nat) (layout : Layout) :
    ∀ vs : List Json, PlainItems vs → ∀ v ∈ vs, v.Plain ∧ Reads limit layout v
  | [], _ => nofun
  | v :: vs, h => List.forall_mem_cons.2 ⟨⟨h.1, reads limit layout v h.1⟩, reads_items limit layout vs h.2⟩

theorem reads_members (limit : Nat) (layout : Layout) :
    ∀ ms : List (String × Json), PlainMembers ms → ∀ m ∈ ms, m.2.Plain ∧ Reads limit layout m.2
  | [], _ => nofun
  | (_, v) :: ms, h => List.forall_mem_cons.2 ⟨⟨h.1, reads limit layout v h.1⟩, reads_members limit layout ms h.2⟩

end

/-- A plain value is read back from its text, with blanks after it. -/
theorem parse?_print {v : Json} (h : v.Plain) (layout : Layout) {tail : String}
    (ht : skipBlanks tail.toList = []) (limit : Nat) : parse? (v.print layout ++ tail) limit = some v := by
  have hskip : skipBlanks (v.print layout ++ tail).toList = v.chars layout 0 ++ tail.toList := by
    rw [String.toList_append, print, String.toList_ofList, skipBlanks_chars h]
  rw [parse?, hskip, reads limit layout v h 0 _ _ (by rw [List.length_append]; omega)]
  dsimp only
  rw [ht]
  rfl

/-! ## Lines -/

theorem no_return_escapeChar (c : Char) : '\r' ∉ escapeChar c := by
  rcases escapeChar_cases c with ⟨e, he, hc⟩ | ⟨hlow, he⟩ | ⟨he, -, -, hlow⟩
  · rw [he]
    simp only [List.mem_cons, List.not_mem_nil, or_false, not_or]
    refine ⟨by decide, ?_⟩
    rintro rfl
    cases hc
  · have hdigits : ∀ n < 0x20, '\r' ∉ Text.hexDigits 4 n := by decide +kernel
    simp [he, hdigits c.toNat hlow]
  · rw [he, List.mem_singleton]
    rintro rfl
    exact hlow (by decide)

theorem no_return_stringChars (s : String) : '\r' ∉ stringChars s := by
  simp [stringChars, no_return_escapeChar]

theorem no_return_edge (layout : Layout) (depth : Nat) : '\r' ∉ layout.edge depth := by
  cases layout <;> simp [Layout.edge, lineStart]

theorem no_return_comma (layout : Layout) (depth : Nat) : '\r' ∉ layout.comma depth := by
  cases layout <;> simp [Layout.comma, lineStart]

mutual

/-- The text of a plain value has no line ends but its own. -/
theorem no_return_chars (layout : Layout) : ∀ v : Json, v.Plain → ∀ depth, '\r' ∉ v.chars layout depth
  | .null, _ | .list [], _ | .object [], _ => fun _ => by simp [chars]
  | .bool b, _ => fun _ => by cases b <;> simp [chars]
  | .text s, _ => fun _ => no_return_stringChars s
  | .int _, h => h.elim
  | .float _, h => h.elim
  | .list (v :: vs), h => fun depth => by
    simp [chars, no_return_edge, no_return_chars layout v h.1, no_return_itemChars layout vs h.2]
  | .object ((n, v) :: ms), h => fun depth => by
    simp [chars, no_return_edge, no_return_stringChars, no_return_chars layout v h.2.1,
      no_return_memberChars layout ms h.2.2]

theorem no_return_itemChars (layout : Layout) :
    ∀ vs : List Json, PlainItems vs → ∀ depth, '\r' ∉ itemChars layout depth vs
  | [], _ => fun _ => List.not_mem_nil
  | v :: vs, h => fun depth => by
    simp [itemChars, no_return_comma, no_return_chars layout v h.1, no_return_itemChars layout vs h.2]

theorem no_return_memberChars (layout : Layout) :
    ∀ ms : List (String × Json), PlainMembers ms → ∀ depth, '\r' ∉ memberChars layout depth ms
  | [], _ => fun _ => List.not_mem_nil
  | (n, v) :: ms, h => fun depth => by
    simp [memberChars, no_return_comma, no_return_stringChars, no_return_chars layout v h.1,
      no_return_memberChars layout ms h.2]

end

/-- A plain value that is saved as a document is read back from its bytes. -/
theorem ofBytes?_print {v : Json} (h : v.Plain) (layout : Layout) :
    (Text.ofBytes? (v.print layout ++ "\n").toUTF8).bind (parse? ·) = some v := by
  have hlines : '\r' ∉ (v.print layout ++ "\n").toList := by
    simp [print, no_return_chars layout v h]
  rw [Text.ofBytes?_toUTF8 hlines, Option.bind_some]
  exact parse?_print h layout rfl _

/-! ## Objects that are read -/

theorem distinct_ofMembers {members done : List (String × Json)} (h : ofMembers members = .object done) :
    (done.map Prod.fst).Nodup := by
  obtain rfl := Json.object.inj h
  refine List.foldlRecOn (motive := fun done : List (String × Json) => (done.map Prod.fst).Nodup) members _
    List.nodup_nil fun done hdone e _ => ?_
  exact (Table.put ⟨done, hdone⟩ e.1 e.2).distinct

theorem number_ne_object {limit : Nat} {negative : Bool} {cs rest : List Char} {members : List (String × Json)} :
    number limit negative cs ≠ some (.object members, rest) := by
  intro h
  unfold number at h
  split at h
  · cases h
  · dsimp only at h
    split at h
    · split at h <;> cases h
    · cases h
    · cases h

/-- An object that is read has no name twice. -/
theorem distinct_of_value {limit fuel : Nat} {cs rest : List Char} {members : List (String × Json)}
    (h : value limit fuel cs = some (.object members, rest)) : (members.map Prod.fst).Nodup := by
  cases fuel with
  | zero => cases h
  | succ fuel =>
    unfold value at h
    split at h
    · obtain ⟨_, -, h⟩ := Option.map_eq_some_iff.1 h
      cases h
    · split at h
      · cases h
      · obtain ⟨_, -, h⟩ := Option.map_eq_some_iff.1 h
        cases h
    · split at h
      · cases h
        exact List.nodup_nil
      · obtain ⟨_, -, h⟩ := Option.map_eq_some_iff.1 h
        exact distinct_ofMembers (Prod.mk.inj h).1
    · cases h
    · cases h
    · cases h
    · cases h
    · cases h
    · cases h
    · exact absurd h number_ne_object
    · exact absurd h number_ne_object

theorem distinct_of_parse {text : String} {members : List (String × Json)} (h : parse? text = some (.object members)) :
    (members.map Prod.fst).Nodup := by
  unfold parse? at h
  dsimp only at h
  split at h
  · rename_i v rest hv
    split at h
    · obtain rfl : v = .object members := Option.some.inj h
      exact distinct_of_value hv
    · cases h
  · cases h

end ComponentUsage.Json
