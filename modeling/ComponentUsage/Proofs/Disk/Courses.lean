import ComponentUsage.Disk.Links
import ComponentUsage.Proofs.Disk.Placing
/-!
# Where paths lead

A path leads on from folder to folder, and behind a link along another path (`Course.Leads`). What
happens at a place to which it does not lead makes no difference to it (`Leads.of_place_ne`).
-/

namespace ComponentUsage

namespace Course

/-- A segment that leads from a folder to what is in it. -/
def Descends (segment : String) : Prop := segment ≠ "" ∧ segment ≠ "." ∧ segment ≠ ".."

/-- How segments lead from a place, step by step; `look` tells what stands at a place. -/
inductive Leads (look : List String → Option Node.Shape) (target : List String → Option String) :
    Nat → List String → List String → Course → Prop
  | done {left : Nat} {place : List String} : Leads look target left place [] (.arrived left place)
  | stuck {left : Nat} {place rest : List String} {segment : String} : look place ≠ some .folder →
      Leads look target left place (segment :: rest) (.halted .notFolder place (segment :: rest))
  | here {left : Nat} {place rest : List String} {segment : String} {c : Course} :
      look place = some .folder → segment = "" ∨ segment = "." →
      Leads look target left place rest c → Leads look target left place (segment :: rest) c
  | above {left : Nat} {place rest : List String} {c : Course} : look place = some .folder →
      Leads look target left place.dropLast rest c → Leads look target left place (".." :: rest) c
  | nothing {left : Nat} {place rest : List String} {segment : String} :
      look place = some .folder → Descends segment → look (place ++ [segment]) = none →
      Leads look target left place (segment :: rest)
        (.halted (if Node.nameLimit < segment.utf8ByteSize then .nameTooLong else .missing)
          (place ++ [segment]) rest)
  | onward {left : Nat} {place rest : List String} {segment : String} {c : Course} {shape : Node.Shape} :
      look place = some .folder → Descends segment → look (place ++ [segment]) = some shape →
      shape ≠ .dangling → Leads look target left (place ++ [segment]) rest c →
      Leads look target left place (segment :: rest) c
  | dead {left : Nat} {place rest : List String} {segment : String} :
      look place = some .folder → Descends segment → look (place ++ [segment]) = some .dangling →
      left = 0 ∨ target (place ++ [segment]) = none →
      Leads look target left place (segment :: rest) (.halted .missing (place ++ [segment]) rest)
  | link {left : Nat} {place rest : List String} {segment p : String} {c : Course} :
      look place = some .folder → Descends segment → look (place ++ [segment]) = some .dangling →
      target (place ++ [segment]) = some p →
      Leads look target left (start (place ++ [segment]) p) (Path.segments p ++ rest) c →
      Leads look target (left + 1) place (segment :: rest) c

variable {what : List String → Option Node} {look look' : List String → Option Node.Shape}
  {target : List String → Option String} {left m : Nat} {place q spot : List String} {segment p : String}
  {segments rest rest' : List String} {c c' : Course} {cause : Cause}

theorem follow_nil (what : List String → Option Node) (target : List String → Option String) (left : Nat)
    (place : List String) : follow what target left place [] = .arrived left place := by
  cases left <;> rfl

/-- Where a link and what is after it lead. -/
def beyond (what : List String → Option Node) (target : List String → Option String) :
    Nat → List String → List String → Course
  | 0, link, rest => .halted .missing link rest
  | left + 1, link, rest =>
    match target link with
    | none => .halted .missing link rest
    | some p => follow what target left (start link p) (Path.segments p ++ rest)

theorem follow_cons (what : List String → Option Node) (target : List String → Option String) (left : Nat)
    (place : List String) (segment : String) (rest : List String) :
    follow what target left place (segment :: rest) =
      match what place with
      | some (.folder _) =>
        if segment = "" || segment = "." then follow what target left place rest
        else if segment = ".." then follow what target left place.dropLast rest
        else
          match what (place ++ [segment]) with
          | none =>
            .halted (if Node.nameLimit < segment.utf8ByteSize then .nameTooLong else .missing)
              (place ++ [segment]) rest
          | some .dangling => beyond what target left (place ++ [segment]) rest
          | some _ => follow what target left (place ++ [segment]) rest
      | _ => .halted .notFolder place (segment :: rest) := by
  cases left <;> rw [follow, along] <;> rfl

theorem follow_name {es : List (String × Node)} (hf : what place = some (.folder es)) (hd : Descends segment) :
    follow what target left place (segment :: rest) =
      match what (place ++ [segment]) with
      | none =>
        .halted (if Node.nameLimit < segment.utf8ByteSize then .nameTooLong else .missing) (place ++ [segment]) rest
      | some .dangling => beyond what target left (place ++ [segment]) rest
      | some _ => follow what target left (place ++ [segment]) rest := by
  rw [follow_cons, hf]
  dsimp only
  rw [if_neg (by simp [hd.1, hd.2.1]), if_neg hd.2.2]

theorem leads_follow (what : List String → Option Node) (target : List String → Option String) (left : Nat)
    (place segments : List String) :
    Leads (fun spot => (what spot).map Node.shape) target left place segments
      (follow what target left place segments) := by
  induction left using Nat.strongRecOn generalizing place segments with
  | ind left ihleft =>
    induction segments generalizing place with
    | nil =>
      rw [follow_nil]
      exact .done
    | cons segment rest ih =>
      rw [follow_cons]
      cases hw : what place with
      | none => exact .stuck (by simp [hw])
      | some n =>
        cases n with
        | file | dangling => exact .stuck (by simp [hw, Node.shape])
        | folder es =>
          have hf : (what place).map Node.shape = some .folder := by rw [hw]; rfl
          dsimp only
          split
          · rename_i hs
            rw [Bool.or_eq_true, decide_eq_true_iff, decide_eq_true_iff] at hs
            exact .here hf hs (ih place)
          · rename_i hs
            rw [Bool.or_eq_true, decide_eq_true_iff, decide_eq_true_iff, not_or] at hs
            split
            · rename_i habove
              subst habove
              exact .above hf (ih _)
            · rename_i habove
              have hdown : Descends segment := ⟨hs.1, hs.2, habove⟩
              cases hn : what (place ++ [segment]) with
              | none => exact .nothing hf hdown (by simp [hn])
              | some n =>
                cases n with
                | file | folder => exact .onward hf hdown (by rw [hn]; rfl) (by simp [Node.shape]) (ih _)
                | dangling =>
                  have hlink : (what (place ++ [segment])).map Node.shape = some .dangling := by rw [hn]; rfl
                  cases left with
                  | zero => exact .dead hf hdown hlink (.inl rfl)
                  | succ left =>
                    dsimp only
                    rw [beyond]
                    cases ht : target (place ++ [segment]) with
                    | none => exact .dead hf hdown hlink (.inr ht)
                    | some p => exact .link hf hdown hlink ht (ihleft left (Nat.lt_succ_self _) _ _)

namespace Leads

/-- There is one course only. -/
theorem unique (h : Leads look target left place segments c) (h' : Leads look target left place segments c') :
    c = c' := by
  induction h with
  | done => cases h'; rfl
  | stuck hf => cases h' <;> first | rfl | contradiction
  | here hf hs _ ih =>
    cases h' with
    | stuck hno => exact absurd hf hno
    | here _ _ h' => exact ih h'
    | above => simp at hs
    | nothing _ hd | onward _ hd | dead _ hd | link _ hd => exact absurd hs (by simp [hd.1, hd.2.1])
  | above hf _ ih =>
    cases h' with
    | stuck hno => exact absurd hf hno
    | here _ hs => simp at hs
    | above _ h' => exact ih h'
    | nothing _ hd | onward _ hd | dead _ hd | link _ hd => exact absurd rfl hd.2.2
  | nothing hf hd hn =>
    cases h' with
    | stuck hno => exact absurd hf hno
    | here _ hs => exact absurd hs (by simp [hd.1, hd.2.1])
    | above => exact absurd rfl hd.2.2
    | nothing => rfl
    | onward _ _ hs | dead _ _ hs | link _ _ hs => simp [hn] at hs
  | onward hf hd hn hne _ ih =>
    cases h' with
    | stuck hno => exact absurd hf hno
    | here _ hs => exact absurd hs (by simp [hd.1, hd.2.1])
    | above => exact absurd rfl hd.2.2
    | nothing _ _ hs => simp [hn] at hs
    | onward _ _ _ _ h' => exact ih h'
    | dead _ _ hs | link _ _ hs => exact absurd (Option.some.inj (hn.symm.trans hs)) hne
  | dead hf hd hn hdead =>
    cases h' with
    | stuck hno => exact absurd hf hno
    | here _ hs => exact absurd hs (by simp [hd.1, hd.2.1])
    | above => exact absurd rfl hd.2.2
    | nothing _ _ hs => simp [hn] at hs
    | onward _ _ hs hne => exact absurd (Option.some.inj (hs.symm.trans hn)) hne
    | dead => rfl
    | link _ _ _ ht => simp [ht] at hdead
  | link hf hd hn ht _ ih =>
    cases h' with
    | stuck hno => exact absurd hf hno
    | here _ hs => exact absurd hs (by simp [hd.1, hd.2.1])
    | above => exact absurd rfl hd.2.2
    | nothing _ _ hs => simp [hn] at hs
    | onward _ _ hs hne => exact absurd (Option.some.inj (hs.symm.trans hn)) hne
    | dead _ _ _ hdead => simp [ht] at hdead
    | link _ _ _ ht' h' =>
      obtain rfl := Option.some.inj (ht.symm.trans ht')
      exact ih h'

/-! ## One path after another -/

/-- Where a path has led it goes on. -/
theorem append (h : Leads look target left place segments (.arrived m q)) (h' : Leads look target m q rest c) :
    Leads look target left place (segments ++ rest) c := by
  generalize hc : Course.arrived m q = c' at h
  induction h with
  | done =>
    cases hc
    exact h'
  | stuck | nothing | dead => cases hc
  | here hf hs _ ih => exact .here hf hs (ih hc)
  | above hf _ ih => exact .above hf (ih hc)
  | onward hf hd hn hne _ ih => exact .onward hf hd hn hne (ih hc)
  | link hf hd hn ht _ ih =>
    have hmore := ih hc
    rw [List.append_assoc] at hmore
    exact .link hf hd hn ht hmore

/-- Where a path leads no further no more segments help. -/
theorem append_of_halted (h : Leads look target left place segments (.halted cause q rest)) (more : List String) :
    Leads look target left place (segments ++ more) (.halted cause q (rest ++ more)) := by
  generalize hc : Course.halted cause q rest = c at h
  induction h with
  | done => cases hc
  | stuck hf =>
    cases hc
    exact .stuck hf
  | nothing hf hd hn =>
    cases hc
    exact .nothing hf hd hn
  | dead hf hd hn hdead =>
    cases hc
    exact .dead hf hd hn hdead
  | here hf hs _ ih => exact .here hf hs (ih hc)
  | above hf _ ih => exact .above hf (ih hc)
  | onward hf hd hn hne _ ih => exact .onward hf hd hn hne (ih hc)
  | link hf hd hn ht _ ih =>
    have hmore := ih hc
    rw [List.append_assoc] at hmore
    exact .link hf hd hn ht hmore

/-- Names lead through folders. -/
theorem of_folders {names : List String} (hn : ∀ n ∈ names, Descends n)
    (hf : ∀ r, r <+: names → look (place ++ r) = some .folder) (left : Nat) :
    Leads look target left place names (.arrived left (place ++ names)) := by
  induction names generalizing place with
  | nil =>
    rw [List.append_nil]
    exact .done
  | cons name names ih =>
    have hplace := hf [] List.nil_prefix
    rw [List.append_nil] at hplace
    have hnext := hf [name] (List.cons_prefix_cons.2 ⟨rfl, List.nil_prefix⟩)
    refine .onward hplace (hn name List.mem_cons_self) hnext (by simp) ?_
    rw [List.append_cons place name names]
    refine ih (fun a ha => hn a (List.mem_cons_of_mem _ ha)) fun r hr => ?_
    rw [List.append_assoc]
    exact hf _ (List.cons_prefix_cons.2 ⟨rfl, hr⟩)

/-! ## What a path depends on -/

theorem place_eq_of_not_folder (h : Leads look target left place segments c) (hf : look place ≠ some .folder) :
    c.place = place := by
  cases h with
  | done | stuck => rfl
  | here hfolder | above hfolder | nothing hfolder | onward hfolder | dead hfolder | link hfolder =>
    exact absurd hfolder hf

/-- A folder or a link is not at a place where there is neither. -/
theorem same_of_ne (hf : look spot ≠ some .folder) (hd : look spot ≠ some .dangling)
    (hlook : ∀ q, q ≠ spot → look' q = look q) :
    ∀ q shape, look q = some shape → shape = .folder ∨ shape = .dangling → look' q = some shape := by
  intro q shape hq hshape
  rw [hlook q fun he => ?_, hq]
  subst he
  rcases hshape with rfl | rfl
  · exact hf hq
  · exact hd hq

/-- A path does not depend on what there is at a place to which it does not lead, if that is neither
a folder nor a link. -/
theorem of_place_ne (h : Leads look target left place segments c) (hf : look spot ≠ some .folder)
    (hd : look spot ≠ some .dangling) (hlook : ∀ q, q ≠ spot → look' q = look q) (hne : c.place ≠ spot) :
    Leads look' target left place segments c := by
  have hsame := same_of_ne hf hd hlook
  induction h with
  | done => exact .done
  | stuck hno => exact .stuck (hlook _ hne ▸ hno)
  | here hfolder hs _ ih => exact .here (hsame _ _ hfolder (.inl rfl)) hs (ih hne)
  | above hfolder _ ih => exact .above (hsame _ _ hfolder (.inl rfl)) (ih hne)
  | nothing hfolder hdown hn => exact .nothing (hsame _ _ hfolder (.inl rfl)) hdown (hlook _ hne ▸ hn)
  | @onward _ place _ segment _ shape hfolder hdown hn hlink h ih =>
    refine .onward (hsame _ _ hfolder (.inl rfl)) hdown ?_ hlink (ih hne)
    rw [hlook _ fun he => ?_, hn]
    refine hne ((h.place_eq_of_not_folder ?_).trans he)
    rw [he]
    exact hf
  | dead hfolder hdown hn hdead => exact .dead (hsame _ _ hfolder (.inl rfl)) hdown (hsame _ _ hn (.inr rfl)) hdead
  | link hfolder hdown hn ht _ ih =>
    exact .link (hsame _ _ hfolder (.inl rfl)) hdown (hsame _ _ hn (.inr rfl)) ht (ih hne)

/-- A path that leads to a place, or only not there since nothing is there, leads there once
something is. -/
theorem of_filled (h : Leads look target left place segments c) (hf : look spot ≠ some .folder)
    (hd : look spot ≠ some .dangling) (hlook : ∀ q, q ≠ spot → look' q = look q) {shape : Node.Shape}
    (hshape : look' spot = some shape) (hlink : shape ≠ .dangling)
    (hc : (∃ m, c = .arrived m spot) ∨ ∃ cause, c = .halted cause spot []) :
    ∃ m, Leads look' target left place segments (.arrived m spot) := by
  have hsame := same_of_ne hf hd hlook
  induction h with
  | @done left =>
    rcases hc with ⟨m, hc⟩ | ⟨cause, hc⟩ <;> cases hc
    exact ⟨left, .done⟩
  | stuck => rcases hc with ⟨m, hc⟩ | ⟨cause, hc⟩ <;> cases hc
  | here hfolder hs _ ih =>
    obtain ⟨m, hm⟩ := ih hc
    exact ⟨m, .here (hsame _ _ hfolder (.inl rfl)) hs hm⟩
  | above hfolder _ ih =>
    obtain ⟨m, hm⟩ := ih hc
    exact ⟨m, .above (hsame _ _ hfolder (.inl rfl)) hm⟩
  | @nothing left _ _ _ hfolder hdown =>
    rcases hc with ⟨m, hc⟩ | ⟨cause, hc⟩
    · cases hc
    · obtain ⟨-, rfl, rfl⟩ := Course.halted.inj hc
      exact ⟨left, .onward (hsame _ _ hfolder (.inl rfl)) hdown hshape hlink .done⟩
  | @onward _ place _ segment _ shape' hfolder hdown hn hlink' _ ih =>
    obtain ⟨m, hm⟩ := ih hc
    by_cases hnext : place ++ [segment] = spot
    · exact ⟨m, .onward (hsame _ _ hfolder (.inl rfl)) hdown (hnext ▸ hshape) hlink hm⟩
    · exact ⟨m, .onward (hsame _ _ hfolder (.inl rfl)) hdown ((hlook _ hnext).trans hn) hlink' hm⟩
  | dead _ _ hn =>
    rcases hc with ⟨m, hc⟩ | ⟨cause, hc⟩ <;> cases hc
    exact absurd hn hd
  | link hfolder hdown hn ht _ ih =>
    obtain ⟨m, hm⟩ := ih hc
    exact ⟨m, .link (hsame _ _ hfolder (.inl rfl)) hdown (hsame _ _ hn (.inr rfl)) ht hm⟩

/-! ## Where a path comes to -/

/-- Something other than a link stands where a path arrives. -/
theorem stands_of_arrived (h : Leads look target left place segments (.arrived m q))
    (hup : ∀ q r, r ≠ [] → look (q ++ r) ≠ none → look q = some .folder) {shape : Node.Shape}
    (hplace : look place = some shape) (hlink : shape ≠ .dangling) :
    ∃ shape, look q = some shape ∧ shape ≠ .dangling := by
  generalize hc : Course.arrived m q = c at h
  have hfolder : Node.Shape.folder ≠ .dangling := by simp
  induction h generalizing shape with
  | done =>
    cases hc
    exact ⟨shape, hplace, hlink⟩
  | stuck | nothing | dead => cases hc
  | here _ _ _ ih => exact ih hplace hlink hc
  | @above _ place _ _ hf _ ih =>
    refine ih ?_ hfolder hc
    obtain rfl | hne := eq_or_ne place []
    · exact hf
    · refine hup _ [place.getLast hne] (List.cons_ne_nil _ _) ?_
      rw [List.dropLast_append_getLast hne, hf]
      simp
  | onward _ _ hn hne _ ih => exact ih hn hne hc
  | @link _ place _ segment _ _ hf _ hn _ _ ih =>
    refine ih ?_ hfolder hc
    unfold start
    split
    · exact hup [] (place ++ [segment]) (by simp) (by simp [hn])
    · rw [List.dropLast_concat]
      exact hf

/-- Where something is missing there is nothing, or a link that leads nowhere. -/
theorem look_of_missing (h : Leads look target left place segments (.halted .missing q rest)) :
    look q = none ∨ look q = some .dangling := by
  generalize hc : Course.halted .missing q rest = c at h
  induction h with
  | done | stuck => cases hc
  | nothing _ _ hn =>
    obtain ⟨-, rfl, -⟩ := Course.halted.inj hc
    exact .inl hn
  | dead _ _ hn =>
    cases hc
    exact .inr hn
  | here _ _ _ ih | above _ _ ih | onward _ _ _ _ _ ih | link _ _ _ _ _ ih => exact ih hc

/-- Names lead to names only, whatever paths links stand for. -/
theorem isName_place (h : Leads look target left place segments c) (hplace : ∀ n ∈ place, Node.IsName n)
    (hs : ∀ s ∈ segments, '/' ∉ s.toList) : ∀ n ∈ c.place, Node.IsName n := by
  have hnext : ∀ {place rest : List String} {segment : String}, Descends segment →
      (∀ n ∈ place, Node.IsName n) → (∀ s ∈ segment :: rest, '/' ∉ s.toList) →
      ∀ n ∈ place ++ [segment], Node.IsName n := fun hd hplace hs =>
    Node.isName_concat hplace ⟨hd.1, hd.2.1, hd.2.2, hs _ List.mem_cons_self⟩
  induction h with
  | done | stuck => exact hplace
  | here _ _ _ ih => exact ih hplace fun s hm => hs s (List.mem_cons_of_mem _ hm)
  | above _ _ ih =>
    exact ih (fun n hm => hplace n (List.dropLast_subset _ hm)) fun s hm => hs s (List.mem_cons_of_mem _ hm)
  | nothing _ hd | dead _ hd => exact hnext hd hplace hs
  | onward _ hd _ _ _ ih => exact ih (hnext hd hplace hs) fun s hm => hs s (List.mem_cons_of_mem _ hm)
  | link _ hd _ _ _ ih =>
    refine ih (fun n hm => ?_) fun s hm => ?_
    · unfold start at hm
      split at hm
      · cases hm
      · exact hnext hd hplace hs n (List.dropLast_subset _ hm)
    · rcases List.mem_append.1 hm with hm | hm
      · exact fun hc => (Path.mem_of_mem_segments hm hc).2 rfl
      · exact hs s (List.mem_cons_of_mem _ hm)

/-- Where no link leads anywhere names lead to the place that they name, or to one above it. -/
theorem of_no_target (h : Leads look target left place segments c) (hs : ∀ s ∈ segments, Descends s)
    (ht : ∀ link, target link = none) :
    (∃ m, c = .arrived m (place ++ segments)) ∨
      ∃ cause way rest, segments = way ++ rest ∧ c = .halted cause (place ++ way) rest := by
  induction h with
  | @done left => exact .inl ⟨left, by rw [List.append_nil]⟩
  | stuck => exact .inr ⟨_, [], _, rfl, by rw [List.append_nil]⟩
  | here _ hskip => exact absurd hskip (by simp [(hs _ List.mem_cons_self).1, (hs _ List.mem_cons_self).2.1])
  | above => exact absurd rfl (hs _ List.mem_cons_self).2.2
  | nothing | dead => exact .inr ⟨_, [_], _, rfl, rfl⟩
  | onward _ _ _ _ _ ih =>
    rcases ih fun s hm => hs s (List.mem_cons_of_mem _ hm) with ⟨m, rfl⟩ | ⟨cause, way, rest, rfl, rfl⟩
    · exact .inl ⟨m, by rw [List.append_assoc, List.singleton_append]⟩
    · exact .inr ⟨cause, _ :: way, rest, rfl, by rw [List.append_assoc, List.singleton_append]⟩
  | link _ _ _ hlink =>
    rw [ht] at hlink
    cases hlink

/-! ## If there were folders wherever there is no link -/

end Leads

/-- What would stand at a place if there were a folder wherever there is no link. -/
def cleared (look : List String → Option Node.Shape) (place : List String) : Option Node.Shape :=
  if look place = some .dangling then some .dangling else some .folder

theorem cleared_of_ne (h : look place ≠ some .dangling) : cleared look place = some .folder := if_neg h

theorem cleared_of_some {shape : Node.Shape} (h : look place = some shape) (hne : shape ≠ .dangling) :
    cleared look place = some .folder :=
  cleared_of_ne fun hd => hne (Option.some.inj (h.symm.trans hd))

namespace Leads

theorem cleared_of_arrived (h : Leads look target left place segments (.arrived m q)) :
    Leads (cleared look) target left place segments (.arrived m q) := by
  generalize hc : Course.arrived m q = c at h ⊢
  induction h with
  | done => exact .done
  | stuck | nothing | dead => cases hc
  | here hf hs _ ih => exact .here (cleared_of_some hf (by simp)) hs (ih hc)
  | above hf _ ih => exact .above (cleared_of_some hf (by simp)) (ih hc)
  | onward hf hd hn hne _ ih =>
    exact .onward (cleared_of_some hf (by simp)) hd (cleared_of_some hn hne) (by simp) (ih hc)
  | link hf hd hn ht _ ih => exact .link (cleared_of_some hf (by simp)) hd (if_pos hn) ht (ih hc)

/-- A path that leads no further than to a place where nothing is goes on from there. -/
theorem cleared_of_missing (h : Leads look target left place segments (.halted .missing q rest))
    (hq : look q = none) : ∃ m, ∀ more c, Leads (cleared look) target m q (rest ++ more) c →
      Leads (cleared look) target left place (segments ++ more) c := by
  generalize hc : Course.halted .missing q rest = c at h
  induction h with
  | done | stuck => cases hc
  | @nothing left place _ _ hf hd hn =>
    obtain ⟨-, rfl, rfl⟩ := Course.halted.inj hc
    refine ⟨left, fun more c h => ?_⟩
    exact .onward (cleared_of_some hf (by simp)) hd (cleared_of_ne (by simp [hn])) (by simp) h
  | dead _ _ hn =>
    cases hc
    rw [hq] at hn
    cases hn
  | here hf hs _ ih =>
    obtain ⟨m, hm⟩ := ih hc
    exact ⟨m, fun more c h => .here (cleared_of_some hf (by simp)) hs (hm more c h)⟩
  | above hf _ ih =>
    obtain ⟨m, hm⟩ := ih hc
    exact ⟨m, fun more c h => .above (cleared_of_some hf (by simp)) (hm more c h)⟩
  | onward hf hd hn hne _ ih =>
    obtain ⟨m, hm⟩ := ih hc
    exact ⟨m, fun more c h =>
      .onward (cleared_of_some hf (by simp)) hd (cleared_of_some hn hne) (by simp) (hm more c h)⟩
  | link hf hd hn ht _ ih =>
    obtain ⟨m, hm⟩ := ih hc
    refine ⟨m, fun more c h => ?_⟩
    have hmore := hm more c h
    rw [List.append_assoc] at hmore
    exact .link (cleared_of_some hf (by simp)) hd (if_pos hn) ht hmore

end Leads

/-- What segments lead to is told by their course. -/
theorem follow_eq_iff : follow what target left place segments = c ↔
    Leads (fun spot => (what spot).map Node.shape) target left place segments c :=
  ⟨fun h => h ▸ leads_follow what target left place segments, fun h => (leads_follow _ _ _ _ _).unique h⟩

end Course
end ComponentUsage
