/-!
# Tables

Values under distinct names, in the order in which the names came in. Putting a
value under a name that is there keeps the name's place (`keys_put`).
-/

namespace ComponentUsage

/-- Entries after a value is put under a name: in the place of the old one, or
at the end. -/
def upsert {α : Type} (k : String) (v : α) : List (String × α) → List (String × α)
  | [] => [(k, v)]
  | e :: es => if e.1 = k then (k, v) :: es else e :: upsert k v es

theorem map_fst_upsert {α : Type} (k : String) (v : α) (es : List (String × α)) :
    (upsert k v es).map Prod.fst =
      if k ∈ es.map Prod.fst then es.map Prod.fst else es.map Prod.fst ++ [k] := by
  induction es with
  | nil => simp [upsert]
  | cons e es ih =>
    by_cases h : e.1 = k
    · simp [upsert, h]
    · have h' : ¬ k = e.1 := fun hk => h hk.symm
      simp only [upsert, h, ite_false, List.map_cons, ih, List.mem_cons, h', false_or]
      split <;> simp

theorem lookup_entry {α : Type} (j n : String) (v : α) (es : List (String × α)) :
    List.lookup j ((n, v) :: es) = if j = n then some v else es.lookup j := by
  by_cases h : j = n
  · simp [h]
  · simp [List.lookup_cons, h, beq_eq_false_iff_ne.2 h]

theorem lookup_upsert {α : Type} (k j : String) (v : α) (es : List (String × α)) :
    (upsert k v es).lookup j = if j = k then some v else es.lookup j := by
  induction es with
  | nil => rw [upsert, lookup_entry]
  | cons e es ih =>
    obtain ⟨n, x⟩ := e
    by_cases h : n = k
    · subst h
      simp only [upsert, ite_true, lookup_entry]
      split <;> rfl
    · by_cases hj : j = n
      · subst hj
        simp [upsert, h]
      · simp only [upsert, h, ite_false, lookup_entry, hj, ih]

/-- What is there already is put there without a change. -/
theorem upsert_self {α : Type} {k : String} {v : α} {es : List (String × α)} (h : es.lookup k = some v) :
    upsert k v es = es := by
  induction es with
  | nil => cases h
  | cons e es ih =>
    obtain ⟨n, x⟩ := e
    rw [lookup_entry] at h
    by_cases hn : n = k
    · rw [if_pos hn.symm, Option.some.injEq] at h
      rw [upsert, if_pos hn, h, hn]
    · rw [if_neg fun hk => hn hk.symm] at h
      rw [upsert, if_neg hn, ih h]

/-- Of two values put under one name the second one stays. -/
theorem upsert_upsert {α : Type} (k : String) (v v' : α) (es : List (String × α)) :
    upsert k v (upsert k v' es) = upsert k v es := by
  induction es with
  | nil => simp [upsert]
  | cons e es ih =>
    by_cases hn : e.1 = k
    · simp [upsert, hn]
    · simp [upsert, hn, ih]

theorem upsert_append {α : Type} {k : String} {front : List (String × α)} (h : k ∉ front.map Prod.fst) (v : α)
    (es : List (String × α)) : upsert k v (front ++ es) = front ++ upsert k v es := by
  induction front with
  | nil => rfl
  | cons e front ih =>
    rw [List.map_cons, List.mem_cons, not_or] at h
    rw [List.cons_append, upsert, if_neg fun he => h.1 he.symm, ih h.2, List.cons_append]

/-- Entries with distinct names that are put one by one are just these in the end, if nothing was
there before or entries with the same names. -/
theorem foldl_upsert {α : Type} {front es old : List (String × α)} (hn : ((front ++ es).map Prod.fst).Nodup)
    (ho : old = [] ∨ old.map Prod.fst = es.map Prod.fst) :
    es.foldl (fun done (k, v) => upsert k v done) (front ++ old) = front ++ es := by
  induction es generalizing front old with
  | nil =>
    obtain rfl : old = [] := by simpa using ho
    rfl
  | cons e es ih =>
    have hk : e.1 ∉ front.map Prod.fst := by
      rw [List.map_append, List.nodup_append, List.map_cons] at hn
      exact fun hm => hn.2.2 _ hm _ List.mem_cons_self rfl
    have hstep : ∃ old', upsert e.1 e.2 old = e :: old' ∧ (old' = [] ∨ old'.map Prod.fst = es.map Prod.fst) := by
      cases old with
      | nil => exact ⟨[], rfl, .inl rfl⟩
      | cons o old =>
        rw [List.map_cons, List.map_cons, List.cons.injEq] at ho
        obtain ⟨hname, ho⟩ := ho.resolve_left (List.cons_ne_nil _ _)
        exact ⟨old, if_pos hname, .inr ho⟩
    obtain ⟨old', hold, ho'⟩ := hstep
    rw [List.foldl_cons]
    dsimp only
    rw [upsert_append hk, hold, List.append_cons front e old', List.append_cons front e es]
    exact ih (by rwa [← List.append_cons]) ho'

theorem lookup_map_entry {α β : Type} (f : String → α → β) (k : String) (es : List (String × α)) :
    (es.map fun (k, v) => (k, f k v)).lookup k = (es.lookup k).map (f k) := by
  induction es with
  | nil => rfl
  | cons e es ih =>
    obtain ⟨n, x⟩ := e
    rw [List.map_cons, lookup_entry, lookup_entry, ih]
    split
    · rename_i h
      rw [h]
      rfl
    · rfl

theorem mem_iff_lookup {α : Type} {es : List (String × α)} (hn : (es.map Prod.fst).Nodup)
    (k : String) (v : α) : (k, v) ∈ es ↔ es.lookup k = some v := by
  induction es with
  | nil => simp
  | cons e es ih =>
    obtain ⟨n, x⟩ := e
    simp only [List.map_cons, List.nodup_cons] at hn
    rw [lookup_entry, List.mem_cons, Prod.mk.injEq, ih hn.2]
    by_cases hk : k = n
    · subst hk
      have hx : es.lookup k ≠ some v := fun h =>
        hn.1 (List.mem_map.2 ⟨_, (ih hn.2).2 h, rfl⟩)
      simp [hx, eq_comm]
    · simp [hk]

/-- Values under distinct names, oldest name first. -/
structure Table (α : Type) where
  entries : List (String × α)
  distinct : (entries.map Prod.fst).Nodup

namespace Table

variable {α : Type}

def empty : Table α := ⟨[], List.nodup_nil⟩

instance : Inhabited (Table α) := ⟨empty⟩

/-- The names, oldest first. -/
def keys (t : Table α) : List String := t.entries.map Prod.fst

/-- The values in the order of their names. -/
def values (t : Table α) : List α := t.entries.map Prod.snd

def size (t : Table α) : Nat := t.entries.length

/-- The value under a name. -/
def get? (t : Table α) (k : String) : Option α := t.entries.lookup k

/-- Whether a name is there. -/
def contains (t : Table α) (k : String) : Bool := t.keys.contains k

/-- The table with a value put under a name. -/
def put (t : Table α) (k : String) (v : α) : Table α :=
  ⟨upsert k v t.entries, by
    rw [map_fst_upsert]
    split
    · exact t.distinct
    · rename_i h
      exact List.nodup_append.2 ⟨t.distinct, by simp, by
        intro a ha b hb hab
        simp only [List.mem_singleton] at hb
        subst hb hab
        exact h ha⟩⟩

/-- The table that entries make when they are put in one by one. -/
def ofList (es : List (String × α)) : Table α :=
  es.foldl (fun t (k, v) => t.put k v) empty

/-- The table with every value changed. -/
def mapValues {β : Type} (f : String → α → β) (t : Table α) : Table β :=
  ⟨t.entries.map fun (k, v) => (k, f k v), by
    have h : (t.entries.map fun (k, v) => (k, f k v)).map Prod.fst = t.entries.map Prod.fst := by
      simp [Function.comp_def]
    rw [h]
    exact t.distinct⟩

@[simp] theorem keys_empty : (empty : Table α).keys = [] := rfl

theorem size_eq (t : Table α) : t.size = t.keys.length := by
  simp [size, keys]

theorem keys_put (t : Table α) (k : String) (v : α) :
    (t.put k v).keys = if k ∈ t.keys then t.keys else t.keys ++ [k] :=
  map_fst_upsert k v t.entries

theorem get?_put (t : Table α) (k j : String) (v : α) :
    (t.put k v).get? j = if j = k then some v else t.get? j :=
  lookup_upsert k j v t.entries

@[simp] theorem keys_mapValues {β : Type} (f : String → α → β) (t : Table α) :
    (t.mapValues f).keys = t.keys := by
  simp [keys, mapValues, Function.comp_def]

theorem get?_mapValues {β : Type} (f : String → α → β) (t : Table α) (k : String) :
    (t.mapValues f).get? k = (t.get? k).map (f k) :=
  lookup_map_entry f k t.entries

theorem mapValues_mapValues {β γ : Type} (f : String → α → β) (g : String → β → γ) (t : Table α) :
    (t.mapValues f).mapValues g = t.mapValues fun k v => g k (f k v) := by
  simp only [mapValues, List.map_map, Function.comp_def]

theorem mem_entries_iff {t : Table α} {k : String} {v : α} :
    (k, v) ∈ t.entries ↔ t.get? k = some v :=
  mem_iff_lookup t.distinct k v

theorem mem_keys_iff {t : Table α} {k : String} : k ∈ t.keys ↔ ∃ v, t.get? k = some v := by
  simp only [keys, List.mem_map, ← mem_entries_iff]
  constructor
  · rintro ⟨⟨n, v⟩, hm, rfl⟩
    exact ⟨v, hm⟩
  · rintro ⟨v, hm⟩
    exact ⟨(k, v), hm, rfl⟩

/-- The values that one table has under the names of another. -/
theorem mapValues_get? {β : Type} {t : Table α} {u : Table β} (h : u.keys = t.keys) (d : β) :
    t.mapValues (fun k _ => (u.get? k).getD d) = u := by
  have hentries : u.keys.map (fun k => (k, (u.get? k).getD d)) = u.entries := by
    rw [keys, List.map_map]
    refine (List.map_congr_left fun e he => ?_).trans (List.map_id _)
    simp [mem_entries_iff.1 (show (e.1, e.2) ∈ u.entries from he)]
  rw [h, keys, List.map_map] at hentries
  obtain ⟨es, hd⟩ := u
  rw [mapValues, Table.mk.injEq]
  exact hentries

/-- The entries are in the order of the places of their names. -/
theorem pairwise_idxOf (t : Table α) :
    t.entries.Pairwise fun a b => t.keys.idxOf a.1 < t.keys.idxOf b.1 := by
  rw [List.pairwise_iff_getElem]
  intro i j hi hj hij
  have place : ∀ n (hn : n < t.entries.length), t.keys.idxOf t.entries[n].1 = n := by
    intro n hn
    have := t.distinct.idxOf_getElem n (by simpa using hn)
    simpa [keys] using this
  rwa [place i hi, place j hj]

@[simp] theorem contains_iff (t : Table α) (k : String) : t.contains k = true ↔ k ∈ t.keys := by
  simp [contains]

/-- What is under a name that is there. -/
def getAt (t : Table α) (k : String) (h : t.contains k = true) : α :=
  (t.get? k).get (by
    obtain ⟨v, hv⟩ := mem_keys_iff.1 ((t.contains_iff k).1 h)
    rw [hv]
    rfl)

theorem get?_eq_getAt {t : Table α} {k : String} (h : t.contains k = true) : t.get? k = some (t.getAt k h) :=
  (Option.some_get _).symm

end Table
end ComponentUsage
