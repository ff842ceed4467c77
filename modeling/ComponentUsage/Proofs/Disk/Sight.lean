import ComponentUsage.Proofs.Disk.Courses
/-!
# What is seen behind links

Under some names that lead somewhere a program sees what stands there (`look_seen`), and under
others nothing, or a link that leads nowhere. What stands where none of them leads is not seen
(`SameBut.look_seen`).
-/

namespace ComponentUsage

theorem Node.IsName.descends {name : String} (h : IsName name) : Course.Descends name :=
  ⟨h.ne_empty, h.ne_here, h.ne_above⟩

namespace Node

variable {shown : List String → Node} {place : List String} {es : List (String × Node)}

theorem dissolveAll_eq (shown : List String → Node) (place : List String) (es : List (String × Node)) :
    dissolveAll shown place es = es.map fun e => (e.1, e.2.dissolve shown (place ++ [e.1])) := by
  induction es with
  | nil => rfl
  | cons e es ih => rw [dissolveAll, ih, List.map_cons]

theorem get?_dissolve_cons (shown : List String → Node) (place : List String) (es : List (String × Node))
    (name : String) (names : List String) :
    ((folder es).dissolve shown place).get? (name :: names) =
      (es.lookup name).bind fun child => (child.dissolve shown (place ++ [name])).get? names := by
  have hlookup := lookup_map_entry (fun a child => dissolve shown (place ++ [a]) child) name es
  rw [dissolve, dissolveAll_eq, get?, entries, hlookup]
  cases es.lookup name <;> rfl

mutual

theorem tidy_dissolve {shown : List String → Node} (h : ∀ place, (shown place).Tidy) :
    ∀ (n : Node) (place : List String), n.Tidy → (n.dissolve shown place).Tidy
  | .file _, _, _ => trivial
  | .dangling, place, _ => h place
  | .folder es, place, ht => by
    rw [dissolve]
    refine ⟨?_, tidyEntries_dissolveAll h es place ht.2⟩
    rw [dissolveAll_eq, List.map_map]
    exact ht.1

theorem tidyEntries_dissolveAll {shown : List String → Node} (h : ∀ place, (shown place).Tidy) :
    ∀ (es : List (String × Node)) (place : List String), TidyEntries es → TidyEntries (dissolveAll shown place es)
  | [], _, _ => trivial
  | (_, n) :: es, place, ht => ⟨ht.1, tidy_dissolve h n _ ht.2.1, tidyEntries_dissolveAll h es place ht.2.2⟩

end

mutual

theorem dissolve_dangling : ∀ (n : Node) (place : List String), n.dissolve (fun _ => .dangling) place = n
  | .file _, _ => rfl
  | .dangling, _ => rfl
  | .folder es, place => congrArg folder (dissolveAll_dangling es place)

theorem dissolveAll_dangling : ∀ (es : List (String × Node)) (place : List String),
    dissolveAll (fun _ => .dangling) place es = es
  | [], _ => rfl
  | (name, n) :: es, place =>
    congrArg₂ List.cons (congrArg (Prod.mk name) (dissolve_dangling n (place ++ [name])))
      (dissolveAll_dangling es place)

end

end Node

namespace Linked

variable {d d' : Linked} {left m : Nat} {place q names ps spot : List String} {c : Course} {name : String}

theorem find_eq_iff : d.find names = c ↔ Course.Leads d.root.look d.target Course.limit [] names c :=
  Course.follow_eq_iff

theorem follow_eq_iff {segments : List String} : Course.follow d.root.get? d.target left place segments = c ↔
    Course.Leads d.root.look d.target left place segments c :=
  Course.follow_eq_iff

theorem find_nil (d : Linked) : d.find [] = .arrived Course.limit [] := Course.follow_nil _ _ _ _

/-- Where names lead to a place others after them lead on from there. -/
theorem find_append (h : d.find ps = .arrived m q) (names : List String) :
    d.find (ps ++ names) = Course.follow d.root.get? d.target m q names :=
  find_eq_iff.2 ((find_eq_iff.1 h).append (follow_eq_iff.1 rfl))

theorem find_append_of_halted {cause : Cause} {rest : List String} (h : d.find ps = .halted cause q rest)
    (names : List String) : d.find (ps ++ names) = .halted cause q (rest ++ names) :=
  find_eq_iff.2 ((find_eq_iff.1 h).append_of_halted names)

/-- Something other than a link stands where names lead. -/
theorem stands_of_find (hr : d.root.isFolder = true) (h : d.find names = .arrived m q) :
    ∃ shape, d.root.look q = some shape ∧ shape ≠ .dangling := by
  have hroot : d.root.look [] = some .folder := by
    obtain ⟨es, hes⟩ := Node.exists_folder_of_isFolder hr
    rw [hes]
    rfl
  exact (find_eq_iff.1 h).stands_of_arrived Node.look_above hroot (by simp)

/-- A name in a folder leads to what it names, unless that is a link. -/
theorem place_follow_name (hf : d.root.look q = some .folder) (hn : Course.Descends name)
    (hlink : d.root.look (q ++ [name]) ≠ some .dangling) :
    (Course.follow d.root.get? d.target m q [name]).place = q ++ [name] := by
  cases hl : d.root.look (q ++ [name]) with
  | none => exact congrArg Course.place (follow_eq_iff.2 (.nothing hf hn hl))
  | some shape =>
    refine congrArg Course.place (follow_eq_iff.2 (.onward hf hn hl (fun he => ?_) .done))
    rw [hl, he] at hlink
    exact hlink rfl

/-! ## The tree that is seen -/

/-- What is seen behind a link, with segments after it. -/
def behind (d : Linked) : Nat → List String → List String → Node
  | 0, _, _ => .dangling
  | left + 1, link, rest =>
    match d.target link with
    | none => .dangling
    | some p => d.view left (Course.start link p) (Path.segments p ++ rest)

/-- What is seen at the end of a course. -/
def sight (d : Linked) : Course → Node
  | .arrived m q => (d.stands q).dissolve (fun link => d.behind m link []) q
  | .halted _ _ _ => .dangling

theorem view_nil (d : Linked) (left : Nat) (place : List String) :
    d.view left place [] = d.sight (.arrived left place) := by
  cases left <;> rfl

theorem view_cons (d : Linked) (left : Nat) (place : List String) (segment : String) (rest : List String) :
    d.view left place (segment :: rest) =
      match d.root.get? place with
      | some (.folder _) =>
        if segment = "" || segment = "." then d.view left place rest
        else if segment = ".." then d.view left place.dropLast rest
        else
          match d.root.get? (place ++ [segment]) with
          | none => .dangling
          | some .dangling => d.behind left (place ++ [segment]) rest
          | some _ => d.view left (place ++ [segment]) rest
      | _ => .dangling := by
  cases left <;> rw [view, Course.along] <;> rfl

theorem view_eq (d : Linked) (left : Nat) (place segments : List String) :
    d.view left place segments = d.sight (Course.follow d.root.get? d.target left place segments) := by
  induction left using Nat.strongRecOn generalizing place segments with
  | ind left ihleft =>
    induction segments generalizing place with
    | nil => rw [view_nil, Course.follow_nil]
    | cons segment rest ih =>
      rw [view_cons, Course.follow_cons]
      rcases d.root.get? place with _ | n
      · rfl
      cases n with
      | file | dangling => rfl
      | folder es =>
        dsimp only
        split
        · exact ih place
        · split
          · exact ih _
          · rcases d.root.get? (place ++ [segment]) with _ | n
            · rfl
            cases n with
            | file | folder => exact ih _
            | dangling =>
              cases left with
              | zero => rfl
              | succ left =>
                dsimp only
                rw [behind, Course.beyond]
                cases d.target (place ++ [segment]) with
                | none => rfl
                | some p => exact ihleft left (Nat.lt_succ_self _) _ _

theorem behind_eq (d : Linked) (left : Nat) (link rest : List String) :
    d.behind left link rest = d.sight (Course.beyond d.root.get? d.target left link rest) := by
  cases left with
  | zero => rfl
  | succ left =>
    rw [behind, Course.beyond]
    cases d.target link with
    | none => rfl
    | some p => exact view_eq _ _ _ _

theorem root_seen (d : Linked) : d.seen.root = d.sight (.arrived Course.limit []) := view_nil _ _ _

/-- A disk on which no link leads anywhere is seen as it is. -/
theorem seen_of_no_target (ht : ∀ link, d.target link = none) : d.seen = d.world := by
  have hbehind : (fun link => d.behind Course.limit link []) = fun _ => .dangling := by
    funext link
    rw [Course.limit, behind, ht]
  have hroot : d.seen.root = d.world.root := by
    rw [root_seen, sight, hbehind, Node.dissolve_dangling]
    rfl
  rw [seen]
  exact congrArg (fun root => { d.world with root }) hroot

/-- Behind what is no folder names lead no further. -/
theorem ends_append_of_not_folder (h : d.find ps = .arrived m q) (hq : d.root.look q ≠ some .folder)
    (names : List String) : d.ends (ps ++ names) = q := by
  rw [ends, find_append h]
  exact (follow_eq_iff.1 rfl).place_eq_of_not_folder hq

theorem ends_append_of_nothing (h : d.find ps = .arrived m q) (hq : d.root.look q = some .folder)
    (hname : Course.Descends name) (hnone : d.root.look (q ++ [name]) = none) (names : List String) :
    d.ends (ps ++ name :: names) = q ++ [name] := by
  rw [ends, find_append h]
  exact congrArg Course.place (follow_eq_iff.2 (.nothing hq hname hnone))

/-- What is seen where something other than a link stands. -/
theorem shape_sight {shape : Node.Shape} (h : d.root.look q = some shape) (hlink : shape ≠ .dangling) :
    (d.sight (.arrived m q)).shape = shape := by
  obtain ⟨n, hn, rfl⟩ := Option.map_eq_some_iff.1 h
  rw [sight, stands, hn, Option.getD_some]
  cases n with
  | file | folder => rfl
  | dangling => exact absurd rfl hlink

/-- Under a name in a folder is seen where the name leads, if anything stands there. -/
theorem get?_sight_cons (hf : d.root.look q = some .folder) (hn : Course.Descends name) (names : List String) :
    (d.sight (.arrived m q)).get? (name :: names) =
      if (d.root.look (q ++ [name])).isSome then
        (d.sight (Course.follow d.root.get? d.target m q [name])).get? names
      else none := by
  obtain ⟨es, hes⟩ := Node.get?_of_look_folder hf
  have hchild : d.root.get? (q ++ [name]) = es.lookup name := by
    rw [Node.get?_append, hes]
    simp [Node.get?, Node.entries]
  rw [sight, stands, hes, Option.getD_some, Node.get?_dissolve_cons, Course.follow_name hes hn, Node.look, hchild]
  cases hc : es.lookup name with
  | none => rfl
  | some child =>
    rw [Option.bind_some, Option.map_some, Option.isSome_some, if_pos rfl]
    cases child with
    | file | folder =>
      dsimp only
      rw [Course.follow_nil, sight, stands, hchild, hc, Option.getD_some]
    | dangling =>
      dsimp only
      rw [Node.dissolve, behind_eq]

theorem get?_sight_cons_of_ne (hf : d.root.look q ≠ some .folder) {shape : Node.Shape}
    (h : d.root.look q = some shape) (hlink : shape ≠ .dangling) (names : List String) :
    (d.sight (.arrived m q)).get? (name :: names) = none := by
  obtain ⟨n, hn, rfl⟩ := Option.map_eq_some_iff.1 h
  rw [sight, stands, hn, Option.getD_some]
  cases n with
  | file => rfl
  | folder => exact absurd h hf
  | dangling => exact absurd rfl hlink

/-- Under names is seen where they lead, or nothing if they lead nowhere. -/
theorem get?_sight (hn : ∀ n ∈ names, Course.Descends n) {shape : Node.Shape}
    (h : d.root.look q = some shape) (hlink : shape ≠ .dangling) :
    (d.sight (.arrived m q)).get? names = some (d.sight (Course.follow d.root.get? d.target m q names)) ∨
      ((d.sight (.arrived m q)).get? names = none ∧
        ∃ cause place rest, Course.follow d.root.get? d.target m q names = .halted cause place rest) := by
  induction names generalizing m q shape with
  | nil =>
    rw [Course.follow_nil]
    exact .inl rfl
  | cons name names ih =>
    obtain ⟨hname, hnames⟩ := List.forall_mem_cons.1 hn
    by_cases hf : d.root.look q = some .folder
    · rw [get?_sight_cons hf hname]
      split
      · cases hstep : Course.follow d.root.get? d.target m q [name] with
        | arrived m' q' =>
          obtain ⟨shape', hstands, hlink'⟩ := (follow_eq_iff.1 hstep).stands_of_arrived Node.look_above h hlink
          have hgo : Course.follow d.root.get? d.target m q (name :: names) =
              Course.follow d.root.get? d.target m' q' names :=
            follow_eq_iff.2 ((follow_eq_iff.1 hstep).append (follow_eq_iff.1 rfl))
          rw [hgo]
          exact ih hnames hstands hlink'
        | halted cause place rest =>
          have hgo : Course.follow d.root.get? d.target m q (name :: names) = .halted cause place (rest ++ names) :=
            follow_eq_iff.2 ((follow_eq_iff.1 hstep).append_of_halted names)
          rw [hgo]
          cases names with
          | nil => exact .inl rfl
          | cons => exact .inr ⟨rfl, _, _, _, rfl⟩
      · rename_i hnone
        have hnone : d.root.look (q ++ [name]) = none := by simpa using hnone
        exact .inr ⟨rfl, _, _, _, follow_eq_iff.2 (.nothing hf hname hnone)⟩
    · exact .inr ⟨get?_sight_cons_of_ne hf h hlink names, _, _, _, follow_eq_iff.2 (.stuck hf)⟩

/-! ## What is seen under names -/

section

variable (hr : d.root.isFolder = true) (hn : ∀ n ∈ names, Node.IsName n)

include hr

theorem look_root : d.root.look [] = some .folder := by
  obtain ⟨es, hes⟩ := Node.exists_folder_of_isFolder hr
  rw [hes]
  rfl

include hn

theorem get?_seen :
    d.seen.root.get? names = some (d.sight (d.find names)) ∨
      (d.seen.root.get? names = none ∧ ∃ cause place rest, d.find names = .halted cause place rest) := by
  rw [root_seen]
  exact get?_sight (fun n hm => (hn n hm).descends) (look_root hr) (by simp)

/-- Under names that lead somewhere is seen what stands there. -/
theorem look_seen (h : d.find names = .arrived m q) : d.seen.look names = d.root.look q := by
  obtain ⟨shape, hshape, hlink⟩ := stands_of_find hr h
  rcases get?_seen hr hn with hget | ⟨-, cause, place, rest, hhalted⟩
  · rw [World.look, Node.look, hget, h, Option.map_some, shape_sight hshape hlink, hshape]
  · rw [h] at hhalted
    cases hhalted

theorem look_seen_of_halted {cause : Cause} {rest : List String} (h : d.find names = .halted cause q rest) :
    d.seen.look names = none ∨ d.seen.look names = some .dangling := by
  rcases get?_seen hr hn with hget | ⟨hget, -⟩
  · rw [World.look, Node.look, hget, h]
    exact .inr rfl
  · rw [World.look, Node.look, hget]
    exact .inl rfl

/-- What is seen is there: names lead to it. -/
theorem find_of_look_seen {shape : Node.Shape} (h : d.seen.look names = some shape) (hlink : shape ≠ .dangling) :
    ∃ m q, d.find names = .arrived m q ∧ d.root.look q = some shape := by
  cases hfind : d.find names with
  | arrived m q => exact ⟨m, q, rfl, (look_seen hr hn hfind).symm.trans h⟩
  | halted cause place rest =>
    rcases look_seen_of_halted hr hn hfind with hl | hl <;> rw [hl] at h <;> cases h
    exact absurd rfl hlink

/-- Under a name something is seen if it stands in the folder to which the names before it lead. -/
theorem isSome_look_seen_concat (hname : Node.IsName name) :
    (d.seen.look (names ++ [name])).isSome = true ↔
      ∃ m q, d.find names = .arrived m q ∧ (d.root.look (q ++ [name])).isSome = true := by
  rw [World.look, Node.look, Option.isSome_map, Node.get?_append]
  cases hfind : d.find names with
  | arrived m q =>
    obtain ⟨shape, hshape, hlink⟩ := stands_of_find hr hfind
    have hget : d.seen.root.get? names = some (d.sight (.arrived m q)) := by
      rcases get?_seen hr hn with hget | ⟨-, cause, place, rest, hhalted⟩
      · rw [hget, hfind]
      · rw [hfind] at hhalted
        cases hhalted
    have hexists : (∃ m' q', Course.arrived m q = .arrived m' q' ∧ (d.root.look (q' ++ [name])).isSome = true) ↔
        (d.root.look (q ++ [name])).isSome = true := by
      constructor
      · rintro ⟨_, _, he, h⟩
        cases he
        exact h
      · intro h
        exact ⟨m, q, rfl, h⟩
    rw [hexists, hget, Option.bind_some]
    by_cases hf : d.root.look q = some .folder
    · rw [get?_sight_cons hf hname.descends]
      split <;> simp_all [Node.get?]
    · rw [get?_sight_cons_of_ne hf hshape hlink]
      have hnone : d.root.look (q ++ [name]) = none := by
        by_contra hne
        exact hf (Node.look_above q [name] (List.cons_ne_nil _ _) hne)
      simp [hnone]
  | halted cause place rest =>
    have hnot : ¬ ∃ m q, Course.halted cause place rest = .arrived m q ∧
        (d.root.look (q ++ [name])).isSome = true := by
      rintro ⟨m, q, he, -⟩
      cases he
    rw [iff_false_right hnot]
    rcases get?_seen hr hn with hget | ⟨hget, -⟩
    · rw [hget, hfind]
      simp [sight, Node.get?, Node.entries]
    · rw [hget]
      simp

end

/-! ## Tidy trees -/

theorem tidy_sight (ht : d.root.Tidy) (h : ∀ link rest, (d.behind m link rest).Tidy) (q : List String) :
    (d.sight (.arrived m q)).Tidy := by
  refine Node.tidy_dissolve (fun link => h link []) _ _ ?_
  rw [stands]
  cases hn : d.root.get? q with
  | none => trivial
  | some n => exact (Node.tidy_get? ht hn).2

theorem tidy_view (ht : d.root.Tidy) (left : Nat) (place segments : List String) :
    (d.view left place segments).Tidy := by
  induction left using Nat.strongRecOn generalizing place segments with
  | ind left ihleft =>
    have hbehind : ∀ link rest, (d.behind left link rest).Tidy := by
      intro link rest
      cases left with
      | zero => trivial
      | succ left =>
        rw [behind]
        cases d.target link with
        | none => trivial
        | some p => exact ihleft left (Nat.lt_succ_self _) _ _
    induction segments generalizing place with
    | nil =>
      rw [view_nil]
      exact tidy_sight ht hbehind place
    | cons segment rest ih =>
      rw [view_cons]
      rcases d.root.get? place with _ | n
      · trivial
      cases n with
      | file | dangling => trivial
      | folder es =>
        dsimp only
        split
        · exact ih place
        · split
          · exact ih _
          · rcases d.root.get? (place ++ [segment]) with _ | n
            · trivial
            cases n with
            | file | folder => exact ih _
            | dangling => exact hbehind _ _

/-- A program sees a tidy tree. -/
theorem tidy_seen (ht : d.root.Tidy) : d.seen.root.Tidy := tidy_view ht _ _ _

/-- It holds nothing but names. -/
theorem look_seen_of_not_names (ht : d.root.Tidy) (hn : ¬ ∀ n ∈ names, Node.IsName n) : d.seen.look names = none := by
  rw [World.look, Node.look, Option.map_eq_none_iff]
  by_contra hne
  obtain ⟨n, hget⟩ := Option.ne_none_iff_exists'.1 hne
  exact hn (Node.tidy_get? (tidy_seen ht) hget).1

/-! ## Disks that are the same apart from one place -/

/-- Two disks with the same links, seen from one place, that are the same but for what stands at
one place. -/
structure SameBut (d d' : Linked) (spot : List String) : Prop where
  rest : d' = d.withRoot d'.root
  look : ∀ q, q ≠ spot → d'.root.look q = d.root.look q

namespace SameBut

theorem symm (h : d.SameBut d' spot) : d'.SameBut d spot where
  rest := by
    rw [h.rest]
    rfl
  look q hq := (h.look q hq).symm

theorem target (h : d.SameBut d' spot) : d'.target = d.target := by
  rw [h.rest]
  rfl

theorem here (h : d.SameBut d' spot) : d'.world.here = d.world.here := by
  rw [h.rest]
  rfl

/-- What is seen differs in the tree only. -/
theorem seen (h : d.SameBut d' spot) : d'.seen = { d.seen with root := d'.seen.root } := by
  rw [h.rest]
  rfl

section

variable (h : d.SameBut d' spot)
  (hspot : d'.root.look spot = d.root.look spot ∨ d.root.look spot ≠ some .folder ∧ d.root.look spot ≠ some .dangling)

include h hspot

/-- What happens at a place to which names do not lead makes no difference to them. -/
theorem find (hne : d.ends names ≠ spot) : d'.find names = d.find names := by
  refine find_eq_iff.2 ?_
  rw [h.target]
  rcases hspot with he | ⟨hf, hd⟩
  · have hlook : d'.root.look = d.root.look := funext fun q => by
      by_cases hq : q = spot
      · rw [hq, he]
      · exact h.look q hq
    rw [hlook]
    exact find_eq_iff.1 rfl
  · exact (find_eq_iff.1 rfl).of_place_ne hf hd h.look hne

/-- Nothing else is made or lost in a folder to which names lead. -/
theorem look_concat (hname : Node.IsName name) (hps : d.find ps = .arrived m q) (hq : q ≠ spot)
    (hne : d.ends (ps ++ [name]) ≠ spot) : d'.root.look (q ++ [name]) = d.root.look (q ++ [name]) := by
  by_cases hplace : q ++ [name] = spot
  · rcases hspot with he | ⟨-, hd⟩
    · rw [hplace, he]
    -- the names would lead there from a folder, and there is nothing below anything else
    · rw [ends, find_append hps, ← hplace] at hne
      have hq' : d.root.look q ≠ some .folder := fun hfolder =>
        hne (place_follow_name hfolder hname.descends (hplace ▸ hd))
      have hnone : ∀ e : Linked, e.root.look q ≠ some .folder → e.root.look (q ++ [name]) = none := fun e he => by
        by_contra hno
        exact he (Node.look_above q [name] (List.cons_ne_nil _ _) hno)
      rw [hnone d hq', hnone d' (h.look q hq ▸ hq')]
  · exact h.look _ hplace

/-- What happens at a place that is not passed is not seen. -/
theorem look_seen (hr : d.root.isFolder = true) (hr' : d'.root.isFolder = true) (hn : ∀ n ∈ names, Node.IsName n)
    (hne : ∀ ps, ps <+: names → d.ends ps ≠ spot) : d'.seen.look names = d.seen.look names := by
  have hfind := h.find hspot (hne names (List.prefix_refl _))
  cases hc : d.find names with
  | arrived m q =>
    have hq : q ≠ spot := by
      have hends := hne names (List.prefix_refl _)
      rwa [ends, hc] at hends
    rw [Linked.look_seen hr' hn (hfind.trans hc), Linked.look_seen hr hn hc, h.look q hq]
  | halted cause place rest =>
    obtain rfl | ⟨ps, name, rfl⟩ := List.eq_nil_or_concat names
    · rw [find_nil] at hc
      cases hc
    -- whether there is a link at the last name is told by where those before it lead
    · rw [List.concat_eq_append] at *
      have hps : ∀ n ∈ ps, Node.IsName n := fun n hm => hn n (List.mem_append_left _ hm)
      have hname : Node.IsName name := hn name (by simp)
      have hends := hne ps (List.prefix_append _ _)
      have hsome : (d'.seen.look (ps ++ [name])).isSome = (d.seen.look (ps ++ [name])).isSome := by
        rw [Bool.eq_iff_iff, isSome_look_seen_concat hr' hps hname, isSome_look_seen_concat hr hps hname,
          h.find hspot hends]
        refine exists_congr fun m => exists_congr fun q => and_congr_right fun hq => ?_
        rw [ends, hq] at hends
        rw [h.look_concat hspot hname hq hends (hne _ (List.prefix_refl _))]
      rcases look_seen_of_halted hr hn hc with hl | hl <;>
        rcases look_seen_of_halted hr' hn (hfind.trans hc) with hl' | hl' <;> simp_all

end
end SameBut

end Linked
end ComponentUsage
