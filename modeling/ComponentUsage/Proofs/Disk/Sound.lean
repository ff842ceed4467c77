import ComponentUsage.Proofs.Scan.Faults
/-!
# Faults of the disk

Where no name holds a zero character and the user does not stop the program, whatever goes
wrong with reading is the fault of the disk (`isDisk_of_faulty`). What goes wrong with saving
is too, or a zero character in the path is at fault (`fault_of_save`).
-/

namespace ComponentUsage

/-- A text without a zero character. -/
def Path.Plain (p : String) : Prop := Char.ofNat 0 ∉ p.toList

instance (p : String) : Decidable (Path.Plain p) := inferInstanceAs (Decidable (_ ∉ _))

/-- A tree in which no name holds a zero character. -/
def Node.Plain (top : Node) : Prop :=
  ∀ spot n, top.get? spot = some n → ∀ name ∈ spot, Path.Plain name

/-- A disk as a system gives it to a program that nobody stops, in a working directory that is
there. Its names and paths are texts: bytes that are none, and lonely halves of characters, have
no place in it. -/
structure World.Sound (w : World) : Prop where
  tidy : w.root.Tidy
  plain : w.root.Plain
  here : Path.Plain w.here.workingDirectory
  absolute : Path.isAbsolute w.here.workingDirectory = true
  quiet : w.interrupting = []

/-! ## Texts and trees without zero characters -/

namespace Path

variable {p q : String}

theorem plain_append : Plain (p ++ q) ↔ Plain p ∧ Plain q := by
  simp [Plain, not_or]

theorem plain_join (hp : Plain p) (hq : Plain q) : Plain (join p q) := by
  unfold join
  split
  · exact hq
  · split
    · exact plain_append.2 ⟨hp, hq⟩
    · exact plain_append.2 ⟨plain_append.2 ⟨hp, by decide⟩, hq⟩

theorem plain_pathOf {slashes : String} {ns : List String} (hs : Plain slashes) (hn : ∀ n ∈ ns, Plain n) :
    Plain (World.pathOf slashes ns) := by
  refine plain_append.2 ⟨hs, fun hc => ?_⟩
  rw [String.toList_intercalate] at hc
  rcases mem_intercalate hc with hc | ⟨cs, hcs, hc⟩
  · exact absurd hc (by decide)
  · obtain ⟨n, hm, rfl⟩ := List.mem_map.1 hcs
    exact hn n hm hc

theorem plain_of_mem_names (h : Plain p) {name : String} (hn : name ∈ names p) : Plain name :=
  fun hc => h (mem_of_mem_segments (List.mem_of_mem_filter hn) hc).1

theorem plain_leadingSlashes (p : String) : Plain (leadingSlashes p) := by
  unfold leadingSlashes
  split <;> decide

theorem plain_normalize (h : Plain p) : Plain (normalize p) := fun hc => by
  rcases mem_of_mem_normalize hc with hc | hc | hc
  · exact h hc
  · exact absurd hc (by decide)
  · exact absurd hc (by decide)

end Path

namespace Node

theorem plain_of_not_folder {n : Node} (h : n.isFolder = false) : n.Plain := by
  intro spot m hm
  cases spot with
  | nil => simp
  | cons name spot => cases n <;> simp_all [get?, entries, isFolder]

theorem plain_folder {es : List (String × Node)} (h : ∀ e ∈ es, Path.Plain e.1 ∧ e.2.Plain) :
    (folder es).Plain := by
  intro spot m hm name hname
  cases spot with
  | nil => cases hname
  | cons first spot =>
    obtain ⟨child, hc, hget⟩ := Option.bind_eq_some_iff.1 hm
    obtain ⟨before, after, rfl, -⟩ := List.lookup_eq_some_iff.1 hc
    obtain ⟨hfirst, hchild⟩ := h (first, child) (by simp)
    rcases List.mem_cons.1 hname with rfl | hname
    · exact hfirst
    · exact hchild spot m hget name hname

theorem plain_child {es : List (String × Node)} {name : String} {child : Node} (h : (folder es).Plain)
    (hc : es.lookup name = some child) : Path.Plain name ∧ child.Plain := by
  have hget : ∀ spot, (folder es).get? (name :: spot) = child.get? spot := fun spot => by
    simp [get?, entries, hc]
  refine ⟨h [name] child (hget []) name List.mem_cons_self, fun spot n hn a ha => ?_⟩
  exact h (name :: spot) n ((hget spot).trans hn) a (List.mem_cons_of_mem _ ha)

end Node

namespace World

variable {w : World} {p : String} {fault : Fault}

theorem plain_of_find {n : Node} (h : w.find p = .ok n) : Path.Plain p := by
  obtain ⟨_, hc, -⟩ := Fault.bind_eq_ok_iff.1 h
  unfold checkPath at hc
  split at hc
  · cases hc
  · rename_i hz
    simpa [Path.Plain] using hz

theorem plain_below {dir : String} {spot : List String} (hw : w.root.Plain) (hd : Path.Plain dir)
    (h : w.Below dir spot) : Path.Plain (Path.below dir spot) := by
  induction h with
  | here dir => exact hd
  | @inside dir name spot es hf hname _ ih =>
    have hes : (Node.folder es).Plain :=
      Node.follow_induction (fun _ _ _ hp hc => (Node.plain_child hp hc).2) (by simp) hw (follow_of_find hf).2
    obtain ⟨child, hc⟩ := Option.isSome_iff_exists.1 (Node.mem_names_iff.1 hname)
    exact ih (Path.plain_join hd (Node.plain_child hes hc).1)

/-! ## Reading -/

/-- A path that is refused is too long, or holds a zero character. -/
theorem fault_of_checkPath (h : checkPath p = .error fault) :
    fault.isDisk = true ∨ fault = .zeroInPath ∧ ¬ Path.Plain p := by
  unfold checkPath at h
  split at h
  · rename_i hz
    cases h
    exact .inr ⟨rfl, fun hp => hp (by simpa using hz)⟩
  · split at h
    · cases h
      exact .inl rfl
    · cases h

theorem isDisk_of_checkPath (hp : Path.Plain p) (h : checkPath p = .error fault) : fault.isDisk = true :=
  (fault_of_checkPath h).resolve_right fun hz => hz.2 hp

theorem isDisk_of_allow (hq : w.interrupting = []) (h : w.allow p = .error fault) : fault.isDisk = true := by
  unfold allow at h
  rw [hq] at h
  simp only [List.contains_nil, Bool.false_eq_true, if_false] at h
  split at h <;> cases h
  rfl

theorem isDisk_of_find (hp : Path.Plain p) (h : w.find p = .error fault) : fault.isDisk = true := by
  rcases Fault.bind_eq_error_iff.1 h with h | ⟨-, -, h⟩
  · exact isDisk_of_checkPath hp h
  · split at h
    · cases h
      rfl
    · cases hf : w.root.follow [] (Path.segments (Path.join w.here.workingDirectory p)) with
      | error cause =>
        rw [hf] at h
        cases h
        rfl
      | ok n =>
        rw [hf] at h
        cases h

theorem isDisk_of_list (hq : w.interrupting = []) (hp : Path.Plain p) (h : w.list p = .error fault) :
    fault.isDisk = true := by
  rcases Fault.bind_eq_error_iff.1 h with h | ⟨-, -, h⟩
  · exact isDisk_of_allow hq h
  · rcases Fault.bind_eq_error_iff.1 h with h | ⟨n, -, h⟩
    · exact isDisk_of_find hp h
    · cases n <;> cases h <;> rfl

theorem isDisk_of_readText (hq : w.interrupting = []) (hp : Path.Plain p)
    (h : w.readText p = .error fault) : fault.isDisk = true := by
  have hr : w.read p = .error fault := by
    unfold readText at h
    cases hr : w.read p with
    | error stop =>
      rw [hr] at h
      exact congrArg Except.error (Except.error.inj h)
    | ok content =>
      rw [hr] at h
      cases h
  rcases Fault.bind_eq_error_iff.1 hr with h | ⟨-, -, h⟩
  · exact isDisk_of_allow hq h
  · rcases Fault.bind_eq_error_iff.1 h with h | ⟨n, -, h⟩
    · exact isDisk_of_find hp h
    · cases n <;> cases h <;> rfl

theorem isDisk_of_faulty (hw : w.Sound) {suffix dir : String} {spot : List String} (hd : Path.Plain dir)
    (h : w.Faulty suffix dir spot fault) : fault.isDisk = true := by
  have hp := plain_below hw.plain hd h.1
  rcases h.2 with ⟨-, hl⟩ | ⟨-, -, hr⟩
  · exact isDisk_of_list hw.quiet hp hl
  · exact isDisk_of_readText hw.quiet hp hr

/-! ## Saving -/

theorem exists_of_not_plain_pathOf {slashes : String} {names : List String} (hs : Path.Plain slashes)
    (h : ¬ Path.Plain (pathOf slashes names)) : ∃ name ∈ names, ¬ Path.Plain name := by
  by_contra hn
  push Not at hn
  exact h (Path.plain_pathOf hs hn)

theorem fault_of_makeFolder {slashes : String} {names : List String} (hs : Path.Plain slashes)
    (h : w.makeFolder slashes names = .error fault) :
    fault.isDisk = true ∨ fault = .zeroInPath ∧ ∃ name ∈ names, ¬ Path.Plain name := by
  rcases Fault.bind_eq_error_iff.1 h with h | ⟨-, -, h⟩
  · exact (fault_of_checkPath h).imp_right fun hz => ⟨hz.1, exists_of_not_plain_pathOf hs hz.2⟩
  · split at h
    · cases h
    · cases h
      exact .inl rfl

theorem fault_of_makeLast {slashes : String} {names : List String} (hs : Path.Plain slashes)
    (h : (Storage.makeLast w slashes names).2 = .error fault) :
    fault.isDisk = true ∨ fault = .zeroInPath ∧ ∃ name ∈ names, ¬ Path.Plain name := by
  rcases Storage.makeLast_cases w slashes names with ⟨w', -, he⟩ | ⟨-, -, -, -, he⟩ | ⟨stop, hf, he⟩
  · rw [he] at h
    cases h
  · rw [he] at h
    cases h
  · rw [he] at h
    obtain rfl : stop = fault := Except.error.inj h
    exact fault_of_makeFolder hs hf

theorem fault_of_makeFolders {slashes : String} (hs : Path.Plain slashes) {names : List String}
    (h : (Storage.makeFolders w slashes names).2 = .error fault) :
    fault.isDisk = true ∨ fault = .zeroInPath ∧ ∃ name ∈ names, ¬ Path.Plain name := by
  induction names generalizing w fault with
  | nil => cases h
  | cons name above ih =>
    obtain ⟨mid, hmid, hmake | ⟨stop, hstop, hmake⟩⟩ := Storage.makeFolders_cases w slashes name above
    · rw [hmake] at h
      refine (fault_of_makeLast hs h).imp_right fun ⟨hz, n, hn, hplain⟩ => ?_
      exact ⟨hz, n, List.mem_reverse.1 hn, hplain⟩
    · rw [hmake] at h
      obtain rfl : stop = fault := Except.error.inj h
      rcases hmid with rfl | rfl
      · cases hstop
      · refine (ih hstop).imp_right fun ⟨hz, n, hn, hplain⟩ => ?_
        exact ⟨hz, n, List.mem_cons_of_mem _ hn, hplain⟩

theorem fault_of_makeParents (h : (Storage.makeParents w p).2 = .error fault) :
    fault.isDisk = true ∨ fault = .zeroInPath ∧ ¬ Path.Plain p := by
  refine (fault_of_makeFolders (Path.plain_leadingSlashes _) h).imp_right fun ⟨hz, name, hn, hname⟩ => ?_
  exact ⟨hz, fun hp => hname (Path.plain_of_mem_names hp (List.mem_reverse.1 (List.mem_of_mem_tail hn)))⟩

theorem fault_of_write {content : ByteArray} (h : w.write p content = .error fault) :
    fault.isDisk = true ∨ fault = .zeroInPath ∧ ¬ Path.Plain p := by
  rcases Fault.bind_eq_error_iff.1 h with h | ⟨-, -, h⟩
  · exact fault_of_checkPath h
  · split at h <;> cases h
    exact .inl rfl

/-- A text is kept from being saved by the disk, or by a zero character in its path. -/
theorem fault_of_save (hq : w.interrupting = []) {text : String} (h : (w.save p text).2 = .error fault) :
    fault.isDisk = true ∨ fault = .zeroInPath ∧ ¬ Path.Plain (w.here.absolute p) := by
  have hmade := touched_makeParents w (w.here.absolute p)
  rcases hparents : Storage.makeParents w (w.here.absolute p) with ⟨mid, stop | ⟨⟩⟩
  · rw [save_of_makeParents_error hparents] at h
    cases h
    exact fault_of_makeParents (congrArg Prod.snd hparents)
  · rw [hparents] at hmade
    rw [save_of_makeParents hparents] at h
    rcases Fault.bind_eq_error_iff.1 (fault_of_put h) with hallow | ⟨-, -, hwrite⟩
    · exact .inl (isDisk_of_allow (hmade.interrupting.trans hq) hallow)
    · exact fault_of_write hwrite

end World
end ComponentUsage
