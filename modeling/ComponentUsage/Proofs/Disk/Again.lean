import ComponentUsage.Proofs.Disk.Making
/-!
# Saving again

A text that is saved once more right after it was saved comes to the same, on the same disk:
the folders that could be made are there, and what kept others from being made still does
(`save_again`). So do two texts that are saved one after the other (`save_both_again`).
-/

namespace ComponentUsage

namespace Storage

variable {D : Type} [Storage D] {d : D} {slashes name : String} {names above : List String} {fault : Fault}

theorem makeLast_of_error (h : (makeLast d slashes names).2 = .error fault) : (makeLast d slashes names).1 = d := by
  rcases makeLast_cases d slashes names with ⟨d', -, he⟩ | ⟨-, -, -, -, he⟩ | ⟨fault, -, he⟩
  · rw [he] at h
    cases h
  · rw [he]
  · rw [he]

/-- Where the last folder is not made, the disk is as the attempt at those above it has left it. -/
theorem makeFolders_of_error (h : (makeFolders d slashes (name :: above)).2 = .error fault) :
    (makeFolders d slashes (name :: above)).1 =
      if (seen d).exists? (World.pathOf slashes above.reverse) then d else (makeFolders d slashes above).1 := by
  rw [makeFolders] at h ⊢
  rcases goOn_cases (if (seen d).exists? (World.pathOf slashes above.reverse) then (d, .ok ())
    else makeFolders d slashes above) slashes (name :: above).reverse with hlast | ⟨stop, -, hstop⟩
  · rw [hlast] at h ⊢
    rw [makeLast_of_error h]
    split <;> rfl
  · rw [hstop]
    split <;> rfl

end Storage

namespace World

variable {w : World} {slashes : String} {names ns : List String}

/-- A path that is made of fewer names is taken as well. -/
theorem checkPath_above (hp : names <+: ns)
    (h : checkPath (pathOf slashes ns) = .ok ()) : checkPath (pathOf slashes names) = .ok () := by
  obtain ⟨rest, rfl⟩ := hp
  obtain ⟨q, hq⟩ : ∃ q, pathOf slashes (names ++ rest) = pathOf slashes names ++ q := by
    obtain rfl | hnames := eq_or_ne names []
    · exact ⟨"/".intercalate rest, by simp [pathOf]⟩
    · obtain rfl | hrest := eq_or_ne rest []
      · exact ⟨"", by simp⟩
      · exact ⟨"/" ++ "/".intercalate rest, by
          rw [pathOf, pathOf, String.intercalate_append_of_ne_nil hnames hrest]
          simp only [String.append_assoc]⟩
  rw [hq] at h
  unfold checkPath at h ⊢
  split at h
  · cases h
  · rename_i hz
    split at h
    · cases h
    · rename_i hl
      rw [String.utf8ByteSize_append] at hl
      rw [if_neg fun hc => hz (by simp_all), if_neg (by omega)]

/-- What is there is in a folder. -/
theorem isFolder_of_exists? (hs : slashes = "/" ∨ slashes = "//") (hn : ∀ n ∈ ns, Node.IsName n) (hp : names <+: ns)
    (hne : names ≠ ns) (h : w.exists? (pathOf slashes ns) = true) : w.isFolder (pathOf slashes names) = true := by
  rw [exists?, Bool.or_eq_true, isFile_pathOf_iff hs hn, isFolder_pathOf_iff hs hn] at h
  obtain ⟨hc, hfit, shape, hl⟩ :
      checkPath (pathOf slashes ns) = .ok () ∧ Node.Fit ns ∧ ∃ shape, w.look ns = some shape := by
    rcases h with ⟨hc, hfit, -, content, hl⟩ | ⟨hc, hfit, hl⟩
    · exact ⟨hc, hfit, _, hl⟩
    · exact ⟨hc, hfit, _, hl⟩
  refine (isFolder_pathOf_iff hs fun n hm => hn n (hp.subset hm)).2
    ⟨checkPath_above hp hc, fun n hm => hfit n (hp.subset hm), ?_⟩
  obtain ⟨rest, rfl⟩ := hp
  exact Node.look_above names rest (by simpa using hne) (by rw [look] at hl; simp [hl])

end World

namespace Linked

variable {d d' : Linked} {slashes name full : String} {names above ns : List String}

/-! ## Folders -/

theorem eq_of_makeFolder_error {cause : Cause} {p : String} (h : d.makeFolder slashes names = .error (.disk cause p)) :
    p = World.pathOf slashes names := by
  rcases Fault.bind_eq_error_iff.1 h with hc | ⟨-, -, hw⟩
  · unfold World.checkPath at hc
    split at hc
    · cases hc
    · split at hc <;> cases hc
      rfl
  · split at hw <;> cases hw
    rfl

section

variable (hr : d.root.isFolder = true) (hs : slashes = "/" ∨ slashes = "//") (hn : ∀ n ∈ names, Node.IsName n)

include hr hs hn

theorem isFolder_of_makeLast (h : (Storage.makeLast d slashes names).2 = .ok ()) :
    (Storage.makeLast d slashes names).1.seen.isFolder (World.pathOf slashes names) = true := by
  rcases Storage.makeLast_cases d slashes names with ⟨d', hd', he⟩ | ⟨cause, p, hd', hp, he⟩ | ⟨fault, -, he⟩
  · rw [he]
    exact (isFolder_of_makeFolder hr hs hn hd').1
  · rw [he]
    rw [eq_of_makeFolder_error hd'] at hp
    exact hp
  · rw [he] at h
    cases h

/-- Where the last folder is there, it stays, and no other is made. -/
theorem makeLast_of_isFolder (h : d.seen.isFolder (World.pathOf slashes names) = true) :
    Storage.makeLast d slashes names = (d, .ok ()) := by
  have hmake : Storage.makeFolder d slashes names = .error (.disk .exists (World.pathOf slashes names)) :=
    makeFolder_of_isFolder hr hs hn h
  rw [Storage.makeLast, hmake]
  exact if_pos h

end

section

variable (hs : slashes = "/" ∨ slashes = "//")

include hs

theorem makeFolders_of_isFolder (hr : d.root.isFolder = true) (hn : ∀ n ∈ names, Node.IsName n)
    (h : d.seen.isFolder (World.pathOf slashes names.reverse) = true) :
    Storage.makeFolders d slashes names = (d, .ok ()) := by
  cases names with
  | nil => rfl
  | cons name above =>
    have hn' : ∀ n ∈ (name :: above).reverse, Node.IsName n := fun n hm => hn n (List.mem_reverse.1 hm)
    have hexists : d.seen.exists? (World.pathOf slashes above.reverse) = true := by
      have hlast : d.seen.exists? (World.pathOf slashes (name :: above).reverse) = true := by
        rw [World.exists?, h, Bool.or_true]
      have hp : above.reverse <+: (name :: above).reverse := by simp
      rw [World.exists?, World.isFolder_of_exists? hs hn' hp (by simp) hlast, Bool.or_true]
    rw [Storage.makeFolders, storage_seen, if_pos hexists, Storage.goOn]
    exact makeLast_of_isFolder hr hs hn' h

/-- Folders that could be made are there. -/
theorem isFolder_of_makeFolders (hr : d.root.isFolder = true) (hn : ∀ n ∈ names, Node.IsName n) (hne : names ≠ [])
    (h : (Storage.makeFolders d slashes names).2 = .ok ()) :
    (Storage.makeFolders d slashes names).1.seen.isFolder (World.pathOf slashes names.reverse) = true := by
  obtain ⟨name, above, rfl⟩ := List.exists_cons_of_ne_nil hne
  have hn' : ∀ n ∈ (name :: above).reverse, Node.IsName n := fun n hm => hn n (List.mem_reverse.1 hm)
  obtain ⟨mid, hmid, hlast⟩ := Storage.makeFolders_cases d slashes name above
  have hr' : mid.1.root.isFolder = true := by
    rcases hmid with rfl | rfl
    · exact hr
    · exact (altered_makeFolders hr (fun n hm => hn n (List.mem_cons_of_mem _ (List.mem_reverse.1 hm)))
        (List.prefix_refl _)).isFolder_root hr
  rcases hlast with hlast | ⟨fault, -, hlast⟩
  · rw [hlast] at h ⊢
    exact isFolder_of_makeLast hr' hs hn' h
  · rw [hlast] at h
    cases h

/-- A folder that is made holds nothing: where something is missing, it is so after the folders above
it are made. -/
theorem not_exists_of_makeFolders (hr : d.root.isFolder = true) (hn : ∀ n ∈ name :: above, Node.IsName n)
    (h : d.seen.exists? (World.pathOf slashes above.reverse) = false) :
    (Storage.makeFolders d slashes above).1.seen.exists? (World.pathOf slashes (name :: above).reverse) = false := by
  -- nothing is in what is not there
  have hbelow : ∀ {e : Linked} {name : String} {above : List String}, (∀ n ∈ name :: above, Node.IsName n) →
      e.seen.exists? (World.pathOf slashes above.reverse) = false →
      e.seen.exists? (World.pathOf slashes (name :: above).reverse) = false := by
    intro e name above hn hno
    by_contra hyes
    rw [Bool.not_eq_false] at hyes
    have hp : above.reverse <+: (name :: above).reverse := by simp
    have hfolder := World.isFolder_of_exists? hs (fun n hm => hn n (List.mem_reverse.1 hm)) hp (by simp) hyes
    rw [World.exists?, hfolder, Bool.or_true] at hno
    cases hno
  induction above generalizing name with
  | nil => exact hbelow hn h
  | cons last above ih =>
    have hn' : ∀ n ∈ last :: above, Node.IsName n := fun n hm => hn n (List.mem_cons_of_mem _ hm)
    have hr' : (Storage.makeFolders d slashes above).1.root.isFolder = true :=
      (altered_makeFolders hr (fun n hm => hn' n (List.mem_cons_of_mem _ (List.mem_reverse.1 hm)))
        (List.prefix_refl _)).isFolder_root hr
    rw [Storage.makeFolders, storage_seen]
    obtain ⟨mid, hmid⟩ : ∃ mid, mid = if d.seen.exists? (World.pathOf slashes above.reverse) then (d, .ok ())
        else Storage.makeFolders d slashes above := ⟨_, rfl⟩
    -- the last folder is not there when it is made
    have hlast : mid.1.root.isFolder = true ∧
        mid.1.seen.exists? (World.pathOf slashes (last :: above).reverse) = false := by
      rw [hmid]
      split
      · exact ⟨hr, h⟩
      · rename_i hno
        exact ⟨hr', ih hn' (by simpa using hno)⟩
    rw [← hmid]
    rcases Storage.goOn_cases mid slashes (last :: above).reverse with he | ⟨fault, -, he⟩
    · rw [he]
      rcases Storage.makeLast_cases mid.1 slashes (last :: above).reverse with ⟨d', hd', he⟩ | ⟨-, -, -, -, he⟩ |
        ⟨fault, -, he⟩
      · rw [he, List.reverse_cons]
        exact (isFolder_of_makeFolder hlast.1 hs (fun n hm => hn' n (List.mem_reverse.1 hm)) hd').2 name
          (hn name List.mem_cons_self)
      · rw [he]
        exact hbelow hn hlast.2
      · rw [he]
        exact hbelow hn hlast.2
    · rw [he]
      exact hbelow hn hlast.2

/-- What was not there is not there either where it could not be made. -/
theorem not_exists_of_makeFolders_error (hr : d.root.isFolder = true) (hn : ∀ n ∈ names, Node.IsName n) {fault : Fault}
    (h : d.seen.exists? (World.pathOf slashes names.reverse) = false)
    (hfault : (Storage.makeFolders d slashes names).2 = .error fault) :
    (Storage.makeFolders d slashes names).1.seen.exists? (World.pathOf slashes names.reverse) = false := by
  cases names with
  | nil => cases hfault
  | cons name above =>
    rw [Storage.makeFolders_of_error hfault, storage_seen]
    split
    · exact h
    · rename_i hno
      exact not_exists_of_makeFolders hs hr hn (by simpa using hno)

/-- Folders that are made again come to the same, on the same disk. -/
theorem makeFolders_again (hr : d.root.isFolder = true) (hn : ∀ n ∈ names, Node.IsName n) :
    Storage.makeFolders (Storage.makeFolders d slashes names).1 slashes names =
      Storage.makeFolders d slashes names := by
  induction names generalizing d with
  | nil => rfl
  | cons name above ih =>
    have hnabove : ∀ n ∈ above, Node.IsName n := fun n hm => hn n (List.mem_cons_of_mem _ hm)
    have hr' : (Storage.makeFolders d slashes (name :: above)).1.root.isFolder = true :=
      (altered_makeFolders hr (fun n hm => hn n (List.mem_reverse.1 hm)) (List.prefix_refl _)).isFolder_root hr
    cases hresult : (Storage.makeFolders d slashes (name :: above)).2 with
    | ok done =>
      rw [makeFolders_of_isFolder hs hr' hn (isFolder_of_makeFolders hs hr hn (List.cons_ne_nil _ _) hresult)]
      exact Prod.ext rfl hresult.symm
    | error fault =>
      rw [Storage.makeFolders_of_error hresult, storage_seen]
      split
      · rfl
      · rename_i hno
        have hstep : ∀ e : Linked, Storage.makeFolders e slashes (name :: above) =
            Storage.goOn (if e.seen.exists? (World.pathOf slashes above.reverse) then (e, .ok ())
              else Storage.makeFolders e slashes above) slashes (name :: above).reverse := fun _ => rfl
        rw [hstep d, if_neg hno, hstep, ih hr hnabove]
        congr 1
        split
        · rename_i hyes
          cases habove : (Storage.makeFolders d slashes above).2 with
          | ok done => exact Prod.ext rfl habove.symm
          | error stop =>
            rw [not_exists_of_makeFolders_error hs hr hnabove (by simpa using hno) habove] at hyes
            cases hyes
        · rfl

end

/-! ## One text -/

variable {q spot : List String} {content content' : ByteArray} {p text p' text' : String}

/-- There is a file at a path, in a folder that is seen, and the path may be opened. -/
structure Stands (d : Linked) (slashes : String) (ns q : List String) (content : ByteArray) : Prop where
  path : World.checkPath (World.pathOf slashes ns) = .ok ()
  allow : d.seen.allow (World.pathOf slashes ns) = .ok ()
  parents : ns.dropLast = [] ∨ d.seen.isFolder (World.pathOf slashes ns.dropLast) = true
  place : d.filePlace ns = .ok q
  fit : q ≠ [] ∧ Node.Fit q
  file : d.root.get? q = some (.file content)

theorem allow_seen (d : Linked) (p : String) : d.seen.allow p = d.world.allow p := by
  simp only [World.allow, seen]
  rfl

theorem allow_withRoot (d : Linked) (root : Node) (p : String) : (d.withRoot root).seen.allow p = d.seen.allow p := by
  rw [allow_seen, allow_seen]
  simp only [World.allow, withRoot]
  rfl

theorem withRoot_root (d : Linked) : d.withRoot d.root = d := rfl

section

variable (hr : d.root.isFolder = true) (hs : slashes = "/" ∨ slashes = "//") (hn : ∀ n ∈ ns, Node.IsName n)

include hr hs hn

theorem Stands.puts (h : d.Stands slashes ns q content) (hput : d.Puts d' spot)
    (hfile : d'.root.get? q = some (.file content')) : d'.Stands slashes ns q content' where
  path := h.path
  allow := by
    rw [hput.rest, allow_withRoot]
    exact h.allow
  parents := h.parents.imp_right
    (isFolder_seen_of_puts hr hs (fun n hm => hn n (List.dropLast_subset _ hm)) hput)
  place := hput.filePlace h.place
  fit := h.fit
  file := hfile

/-- A file stays where folders are made. -/
theorem Stands.altered {out : List String} (h : d.Stands slashes ns q content)
    (ha : Altered (fun e z => e.root.look z = none ∧ z <+: out) d d') : d'.Stands slashes ns q content := by
  induction ha with
  | refl => exact h
  | @put e _ spot hbefore hspot hput ih =>
    refine ih.puts (hbefore.isFolder_root hr) hs hn hput (Node.get?_of_look_file ?_)
    have hlook : e.root.look q = some (.file content) := by
      rw [Node.look, ih.file]
      rfl
    rw [hput.look q fun he => ?_, hlook]
    rw [he, hspot.1] at hlook
    cases hlook

/-- A text that was saved stands at its path. -/
theorem stands_of_save (hfull : d.world.here.absolute p = World.pathOf slashes ns)
    (h : Storage.save d p text = (d', .ok ())) : ∃ q, d'.Stands slashes ns q text.toUTF8 := by
  have habs : (Storage.seen d).here.absolute p = World.pathOf slashes ns := by rw [storage_seen, here_seen, hfull]
  have hdrop : ∀ n ∈ ns.dropLast.reverse, Node.IsName n := fun n hm =>
    hn n (List.dropLast_subset _ (List.mem_reverse.1 hm))
  have hparents := altered_makeParents hr hs hn
  rcases hmade : Storage.makeParents d (World.pathOf slashes ns) with ⟨mid, fault | ⟨⟩⟩
  · rw [Storage.save_of_makeParents_error habs hmade] at h
    cases h
  · rw [Storage.save_of_makeParents habs hmade] at h
    rw [hmade] at hparents
    have hr' := hparents.isFolder_root hr
    obtain ⟨⟨⟩, hallow, hwrite⟩ := Fault.bind_eq_ok_iff.1 (Storage.eq_of_put h)
    have hnames := Path.names_pathOf hs hn
    obtain ⟨hc, -⟩ := root_of_write hwrite
    obtain ⟨q, hplace, hq, hput, hlook⟩ := puts_of_write (by rwa [hnames]) hwrite
    rw [hnames] at hplace
    obtain ⟨hne, hfit, -⟩ := Node.get?_of_place hq
    refine ⟨q, hc, ?_, ?_, hput.filePlace hplace, ⟨hne, hfit⟩, Node.get?_of_look_file hlook⟩
    · rw [hput.rest, allow_withRoot]
      exact hallow
    · rw [makeParents_pathOf hs hn] at hmade
      by_cases hnil : ns.dropLast = []
      · exact .inl hnil
      · have hfolder := isFolder_of_makeFolders hs hr hdrop (by simpa using hnil) (congrArg Prod.snd hmade)
        rw [hmade, List.reverse_reverse] at hfolder
        exact .inr (isFolder_seen_of_puts hr' hs (fun n hm => hn n (List.dropLast_subset _ hm)) hput hfolder)

/-- Where a file stands another text takes its place. -/
theorem Stands.save (h : d.Stands slashes ns q content) (hfull : d.world.here.absolute p = World.pathOf slashes ns)
    (text : String) : ∃ root, d.root.place (.file text.toUTF8) q = .ok root ∧
      Storage.save d p text = (d.withRoot root, .ok ()) ∧ d.Puts (d.withRoot root) q := by
  have habs : (Storage.seen d).here.absolute p = World.pathOf slashes ns := by rw [storage_seen, here_seen, hfull]
  have hnames := Path.names_pathOf hs hn
  obtain ⟨root, hroot⟩ := Node.exists_place h.fit.1 h.fit.2 h.file (.file text.toUTF8)
  have hparents : Storage.makeParents d (World.pathOf slashes ns) = (d, .ok ()) := by
    rw [makeParents_pathOf hs hn]
    rcases h.parents with hnil | hfolder
    · rw [hnil]
      rfl
    · exact makeFolders_of_isFolder hs hr (fun n hm => hn n (List.dropLast_subset _ (List.mem_reverse.1 hm)))
        (by rwa [List.reverse_reverse])
  have hnode : d.root.write text.toUTF8 q = .ok root := by
    rw [Node.write, h.file]
    exact hroot
  have hnode' : d.filePlace ns >>= d.root.write text.toUTF8 = .ok root := by
    rw [h.place]
    exact hnode
  have hwrite : Storage.write d (World.pathOf slashes ns) text.toUTF8 = .ok (d.withRoot root) := by
    change d.write _ _ = _
    rw [write, h.path, Fault.ok_bind, hnames, hnode']
    rfl
  have hallow : (Storage.seen d).allow (World.pathOf slashes ns) = .ok () := h.allow
  refine ⟨root, hroot, ?_, ?_⟩
  · rw [Storage.save_of_makeParents habs hparents, Storage.put, hallow, Fault.ok_bind, hwrite]
  · obtain ⟨q', hplace, -, hput, -⟩ := puts_of_write (by rwa [hnames]) hwrite
    rw [hnames, h.place] at hplace
    cases hplace
    exact hput

theorem Stands.save_same (h : d.Stands slashes ns q text.toUTF8)
    (hfull : d.world.here.absolute p = World.pathOf slashes ns) : Storage.save d p text = (d, .ok ()) := by
  obtain ⟨root, hroot, hsave, -⟩ := h.save hr hs hn hfull text
  rw [Node.place_self h.fit.1 h.fit.2 h.file] at hroot
  cases hroot
  rw [hsave, withRoot_root]

end

/-- Of two texts that have the same place, the second one is there in the end, as before. -/
theorem Stands.save_over (hr : d.root.isFolder = true) (hs : slashes = "/" ∨ slashes = "//")
    (hn : ∀ n ∈ ns, Node.IsName n) {slashes' : String} {ns' : List String} (hs' : slashes' = "/" ∨ slashes' = "//")
    (hn' : ∀ n ∈ ns', Node.IsName n) (hfull : d.world.here.absolute p = World.pathOf slashes ns)
    (hfull' : d.world.here.absolute p' = World.pathOf slashes' ns') (h : d.Stands slashes ns q text'.toUTF8)
    (h' : d.Stands slashes' ns' q text'.toUTF8) (text : String) :
    ∃ d₂, Storage.save d p text = (d₂, .ok ()) ∧ Storage.save d₂ p' text' = (d, .ok ()) := by
  obtain ⟨root, hroot, hfirst, hput⟩ := h.save hr hs hn hfull text
  obtain ⟨-, -, hget⟩ := Node.get?_of_place hroot
  have hfull₂ : (d.withRoot root).world.here.absolute p' = World.pathOf slashes' ns' := by rw [hput.here, hfull']
  obtain ⟨root', hroot', hsecond, -⟩ :=
    (h'.puts hr hs' hn' hput hget).save (hput.isFolder_root hr) hs' hn' hfull₂ text'
  have hback : root.place (.file text'.toUTF8) q = d.root.place (.file text'.toUTF8) q := Node.place_place hroot
  rw [Node.place_self h'.fit.1 h'.fit.2 h'.file] at hback
  obtain rfl : d.root = root' := Except.ok.inj (hback.symm.trans hroot')
  exact ⟨_, hfirst, hsecond⟩

section

variable (hr : d.root.isFolder = true) (ha : Path.isAbsolute d.world.here.workingDirectory = true)

include hr ha

/-- A text that is saved once more comes to the same, on the same disk. -/
theorem save_again (p text : String) : Storage.save (Storage.save d p text).1 p text = Storage.save d p text := by
  obtain ⟨slashes, ns, hs, hn, hfull⟩ := Place.absolute_eq_pathOf ha p
  have habs : (Storage.seen d).here.absolute p = World.pathOf slashes ns := by rw [storage_seen, here_seen, hfull]
  have hdrop : ∀ n ∈ ns.dropLast.reverse, Node.IsName n := fun n hm =>
    hn n (List.dropLast_subset _ (List.mem_reverse.1 hm))
  have hmid := altered_makeParents hr hs hn
  have hagain := makeFolders_again hs hr hdrop
  rw [← makeParents_pathOf hs hn, ← makeParents_pathOf hs hn] at hagain
  rcases hmade : Storage.makeParents d (World.pathOf slashes ns) with ⟨mid, fault | ⟨⟩⟩ <;> rw [hmade] at hmid hagain
  · rw [Storage.save_of_makeParents_error habs hmade]
    exact Storage.save_of_makeParents_error (by rw [storage_seen, here_seen, hmid.here, hfull]) hagain
  · have habs' : (Storage.seen mid).here.absolute p = World.pathOf slashes ns := by
      rw [storage_seen, here_seen, hmid.here, hfull]
    have hsave : Storage.save d p text = _ := Storage.save_of_makeParents habs hmade
    rcases hput : Storage.put mid (World.pathOf slashes ns) text.toUTF8 with ⟨last, fault | ⟨⟩⟩ <;> rw [hput] at hsave
    · obtain rfl : last = mid := (congrArg Prod.fst hput).symm.trans (Storage.put_of_error (congrArg Prod.snd hput)).1
      rw [hsave, Storage.save_of_makeParents habs' hagain, hput]
    · obtain ⟨q, hq⟩ := stands_of_save hr hs hn hfull hsave
      have haltered := altered_save hr hs hn hfull text
      rw [hsave] at haltered ⊢
      exact hq.save_same (haltered.isFolder_root hr) hs hn (by rw [haltered.here, hfull])

/-- Two texts that are saved one after the other, the first of them with success, come to the
same when both are saved again. -/
theorem save_both_again {d₁ : Linked} (h : Storage.save d p text = (d₁, .ok ())) (p' text' : String) :
    ∃ d₂, Storage.save (Storage.save d₁ p' text').1 p text = (d₂, .ok ()) ∧
      Storage.save d₂ p' text' = Storage.save d₁ p' text' := by
  obtain ⟨slashes, ns, hs, hn, hfull⟩ := Place.absolute_eq_pathOf ha p
  have haltered := altered_save hr hs hn hfull text
  obtain ⟨q, hq⟩ := stands_of_save hr hs hn hfull h
  rw [h] at haltered
  have hr₁ := haltered.isFolder_root hr
  have ha₁ : Path.isAbsolute d₁.world.here.workingDirectory = true := by rw [haltered.here, ha]
  have hfull₁ : d₁.world.here.absolute p = World.pathOf slashes ns := by rw [haltered.here, hfull]
  obtain ⟨slashes', ns', hs', hn', hfull'⟩ := Place.absolute_eq_pathOf ha₁ p'
  have haltered' := altered_save hr₁ hs' hn' hfull' text'
  have hr' := haltered'.isFolder_root hr₁
  have hfull₂ : (Storage.save d₁ p' text').1.world.here.absolute p = World.pathOf slashes ns := by
    rw [haltered'.here, hfull₁]
  -- where the first text still stands, only the second one is saved again
  have hstays (hstands : (Storage.save d₁ p' text').1.Stands slashes ns q text.toUTF8) :
      ∃ d₂, Storage.save (Storage.save d₁ p' text').1 p text = (d₂, .ok ()) ∧
        Storage.save d₂ p' text' = Storage.save d₁ p' text' :=
    ⟨_, hstands.save_same hr' hs hn hfull₂, save_again hr₁ ha₁ p' text'⟩
  have habs : (Storage.seen d₁).here.absolute p' = World.pathOf slashes' ns' := by rw [storage_seen, here_seen, hfull']
  have hmid := altered_makeParents hr₁ hs' hn'
  rcases hmade : Storage.makeParents d₁ (World.pathOf slashes' ns') with ⟨mid, fault | ⟨⟩⟩ <;> rw [hmade] at hmid
  · refine hstays ?_
    rw [Storage.save_of_makeParents_error habs hmade]
    exact hq.altered hr₁ hs hn hmid
  · have hstands := hq.altered hr₁ hs hn hmid
    have hsave : Storage.save d₁ p' text' = _ := Storage.save_of_makeParents habs hmade
    rcases hput : Storage.put mid (World.pathOf slashes' ns') text'.toUTF8 with ⟨last, fault | ⟨⟩⟩ <;>
      rw [hput] at hsave
    · obtain rfl : last = mid := (congrArg Prod.fst hput).symm.trans (Storage.put_of_error (congrArg Prod.snd hput)).1
      refine hstays ?_
      rw [hsave]
      exact hstands
    · obtain ⟨-, -, hwrite⟩ := Fault.bind_eq_ok_iff.1 (Storage.eq_of_put hput)
      have hnames := Path.names_pathOf hs' hn'
      obtain ⟨spot, hplace, -, hputs, hlook⟩ := puts_of_write (by rwa [hnames]) hwrite
      have hrmid := hmid.isFolder_root hr₁
      obtain ⟨q', hq'⟩ := stands_of_save hr₁ hs' hn' hfull' hsave
      obtain rfl : spot = q' := by
        have hlast := hputs.filePlace hplace
        rw [hnames, hq'.place] at hlast
        exact (Except.ok.inj hlast).symm
      rw [hsave] at hr' hfull₂ haltered' hstays ⊢
      by_cases hspot : q = spot
      · subst hspot
        have hover := hstands.puts hrmid hs hn hputs (Node.get?_of_look_file hlook)
        exact hover.save_over hr' hs hn hs' hn' hfull₂ (by rw [haltered'.here, hfull']) hq' text
      · refine hstays (hstands.puts hrmid hs hn hputs (Node.get?_of_look_file ?_))
        rw [hputs.look q hspot, Node.look, hstands.file]
        rfl

end

end Linked
end ComponentUsage
