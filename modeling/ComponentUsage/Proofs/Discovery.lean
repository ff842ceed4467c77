import ComponentUsage.Usage.Discovery
import Mathlib.Data.List.Nodup
/-!
# The users of a selector

Usage is found template by template, each of which may add a user to many
selectors. `on_discover` says what that comes to for one selector: its users are
the components that open its tag, in the order of the registry.
-/

namespace ComponentUsage

/-- What comes of reading a component's template, if it has one. -/
def Component.reading (c : Component) (w : World) : Option (Except Fault String) :=
  (c.template.filter (· ≠ "")).map w.readText

theorem Component.reading_of_template {c : Component} {p : String} {w : World} (h : c.template = some p)
    (hp : p ≠ "") : c.reading w = some (w.readText p) := by
  simp [reading, h, Option.filter, hp]

/-- Every template of a registry can be read, or is refused by the disk. -/
def Registry.Readable (registry : Registry) (w : World) : Prop :=
  ∀ e ∈ registry.entries, ∀ fault, e.2.reading w = some (.error fault) → fault.isDisk = true

instance (registry : Registry) (w : World) : Decidable (registry.Readable w) :=
  decidable_of_iff
    (∀ e ∈ registry.entries, (match e.2.reading w with
      | some (.error fault) => fault.isDisk
      | _ => true) = true) <| by
    refine forall₂_congr fun e _ => ?_
    cases e.2.reading w with
    | none => simp
    | some r => cases r <;> simp

namespace Usage

/-- Whether a template could be read and opens the tag of a selector. -/
def opens : Option (Except Fault String) → String → Bool
  | some (.ok template), selector => Tag.uses template selector
  | _, _ => false

/-- The users of a selector among some components. -/
def users (w : World) (es : List (String × Component)) (selector : String) : List String :=
  (es.filter fun e => selector ≠ e.1 && opens (e.2.reading w) selector).map Prod.fst

/-- The warning about a component whose template cannot be read. -/
def warning? (w : World) (e : String × Component) : Option String :=
  match e.2.reading w with
  | some (.error fault) => some s!"Failed to read template for '{e.1}': {fault.message}"
  | _ => Option.none

def warned (message : String) : Record := { level := .warning, source, message }

/-- What is found once some more components are visited. -/
def Found.after (found : Found) (w : World) (es : List (String × Component)) : Found where
  usage := found.usage.mapValues fun selector us => us ++ users w es selector
  warnings := found.warnings ++ es.filterMap (warning? w)

theorem Found.after_nil (found : Found) (w : World) : found.after w [] = found := by
  obtain ⟨⟨es, hd⟩, ws⟩ := found
  simp [after, users, Table.mapValues]

theorem Found.after_cons (found : Found) (w : World) (e : String × Component)
    (es : List (String × Component)) :
    (found.after w [e]).after w es = found.after w (e :: es) := by
  simp only [after, Table.mapValues_mapValues, List.append_assoc, ← List.filterMap_append,
    List.singleton_append]
  congr 2
  funext selector us
  rw [users, users, users, ← List.map_append, ← List.filter_append, List.singleton_append]

variable {w : World}

theorem opens_of_unread {reading : Option (Except Fault String)}
    (h : ∀ template, reading ≠ some (.ok template)) (selector : String) :
    opens reading selector = false := by
  unfold opens
  split
  · exact absurd rfl (h _)
  · rfl

theorem users_of_unread {e : String × Component} (h : ∀ template, e.2.reading w ≠ some (.ok template))
    (selector : String) : users w [e] selector = [] := by
  simp [users, opens_of_unread h]

theorem Found.after_of_unread (found : Found) {e : String × Component}
    (h : ∀ template, e.2.reading w ≠ some (.ok template)) :
    found.after w [e] = { found with warnings := found.warnings ++ [e].filterMap (warning? w) } := by
  obtain ⟨⟨es, hd⟩, ws⟩ := found
  simp only [after, users_of_unread h, List.append_nil, Table.mapValues, List.map_id']

theorem Found.after_of_read (found : Found) {selector template : String} {c : Component}
    (h : c.reading w = some (.ok template)) :
    found.after w [(selector, c)] = { found with usage := found.usage.addTemplate selector template } := by
  simp only [after, addTemplate, Found.mk.injEq]
  constructor
  · congr 1
    funext child us
    by_cases hc : child ≠ selector && Tag.uses template child <;> simp_all [users, opens]
  · simp [warning?, h]

/-! ## Visits -/

theorem on_visit (found : Found) (selector : String) (c : Component)
    (h : ∀ fault, c.reading w = some (.error fault) → fault.isDisk = true) :
    (visit found selector c).on w =
      ⟨([(selector, c)].filterMap (warning? w)).map warned, .ok (found.after w [(selector, c)]), w⟩ := by
  cases hr : c.reading w with
  | none =>
    have hu := found.after_of_unread (e := (selector, c)) (w := w) (by simp [hr])
    -- no template, or an empty path for one
    have hv : visit found selector c = return found := by
      unfold visit
      split
      · rfl
      · rename_i p ht
        have hp : p = "" := by
          by_contra hne
          simp [Component.reading, ht, Option.filter, hne] at hr
        rw [if_pos hp]
    simp [hv, hu, warning?, hr]
  | some r =>
    obtain ⟨p, hp, rfl⟩ := Option.map_eq_some_iff.1 hr
    obtain ⟨ht, hne⟩ := Option.filter_eq_some_iff.1 hp
    have hne : p ≠ "" := by simpa using hne
    simp only [visit, ht, hne, ite_false, Job.on_bind, Job.on_disk, Outcome.andThen_ok, List.nil_append]
    cases hw : w.readText p with
    | ok template =>
      rw [hw] at hr
      simp [Found.after_of_read found hr, warning?, hr]
    | error fault =>
      rw [hw] at hr
      have hd := h fault hr
      have hu := found.after_of_unread (e := (selector, c)) (w := w) (by simp [hr])
      simp [hd, hu, warning?, hr, warned, Except.map]

theorem on_visits (found : Found) (es : List (String × Component))
    (h : ∀ e ∈ es, ∀ fault, e.2.reading w = some (.error fault) → fault.isDisk = true) :
    (es.foldlM (fun found (selector, c) => visit found selector c) found).on w =
      ⟨(es.filterMap (warning? w)).map warned, .ok (found.after w es), w⟩ := by
  induction es generalizing found with
  | nil => simp [Found.after_nil]
  | cons e es ih =>
    obtain ⟨selector, c⟩ := e
    rw [List.foldlM_cons, Job.on_bind, on_visit found selector c (h _ List.mem_cons_self),
      Outcome.andThen_ok, ih _ fun e he => h e (List.mem_cons_of_mem _ he), Found.after_cons,
      ← List.map_append, ← List.filterMap_append, List.singleton_append]

def found (registry : Registry) (w : World) : Found where
  usage := registry.mapValues fun selector _ => users w registry.entries selector
  warnings := registry.entries.filterMap (warning? w)

/-- The users of each selector are found, and the disk's refusals are told. -/
theorem on_discover {registry : Registry} (h : registry.Readable w) :
    (discover registry).on w =
      ⟨(found registry w).warnings.map warned ++ [{
        level := .debug, source,
        message := s!"Discovered {(found registry w).usage.pairs} usage edges across {registry.size} components."
      }], .ok (found registry w), w⟩ := by
  have hf : Found.after ⟨none registry, []⟩ w registry.entries = found registry w := by
    simp only [Found.after, found, none, Table.mapValues_mapValues, List.nil_append]
  rw [discover, Job.on_bind, on_visits _ _ h, Outcome.andThen_ok, hf]
  simp [found, Except.map]

/-! ## One template more or less -/

/-- Two disks on which all templates but that of one component read the same. -/
def AgreeBut (registry : Registry) (w w' : World) (selector : String) : Prop :=
  ∀ e ∈ registry.entries, e.1 ≠ selector → e.2.reading w' = e.2.reading w

instance (registry : Registry) (w w' : World) (selector : String) :
    Decidable (AgreeBut registry w w' selector) :=
  inferInstanceAs (Decidable (∀ e ∈ registry.entries, e.1 ≠ selector → e.2.reading w' = e.2.reading w))

variable {registry : Registry} {w' : World} {selector : String} {c : Component}

/-- A component whose template is refused only drops out as a user. -/
theorem users_of_agreeBut (ha : AgreeBut registry w w' selector) (hc : registry.get? selector = some c)
    (hr : ∀ template, c.reading w ≠ some (.ok template)) (child : String) :
    users w registry.entries child =
      (users w' registry.entries child).filter (· ≠ selector) := by
  rw [users, users, List.filter_map, List.filter_filter]
  congr 1
  refine List.filter_congr fun e he => ?_
  by_cases hs : e.1 = selector
  · obtain rfl : e.2 = c := by
      have := Table.mem_entries_iff.1 (show (e.1, e.2) ∈ registry.entries from he)
      rw [hs, hc] at this
      exact (Option.some.inj this).symm
    simp [opens_of_unread hr, hs]
  · rw [ha e he hs]
    simp [hs]

theorem warnings_of_agreeBut (ha : AgreeBut registry w w' selector) (hc : registry.get? selector = some c) :
    ∃ before after,
      registry.entries.filterMap (warning? w) = before ++ (warning? w (selector, c)).toList ++ after ∧
      registry.entries.filterMap (warning? w') = before ++ (warning? w' (selector, c)).toList ++ after := by
  obtain ⟨before, after, hes⟩ := List.append_of_mem (Table.mem_entries_iff.2 hc)
  have hd := registry.distinct
  rw [hes, List.map_append, List.map_cons, List.nodup_middle, List.nodup_cons,
    ← List.map_append] at hd
  -- keys are distinct: no other entry is of that selector
  have same : ∀ e ∈ before ++ after, warning? w' e = warning? w e := by
    intro e he
    have hne : e.1 ≠ selector := by
      rintro rfl
      exact hd.1 (List.mem_map.2 ⟨e, he, rfl⟩)
    have hm : e ∈ registry.entries := by
      rw [hes]
      simp only [List.mem_append, List.mem_cons] at he ⊢
      tauto
    rw [warning?, warning?, ha e hm hne]
  refine ⟨before.filterMap (warning? w), after.filterMap (warning? w), ?_, ?_⟩
  · rw [hes, List.filterMap_append, List.filterMap_cons]
    cases warning? w (selector, c) <;> simp
  · have hb : before.filterMap (warning? w') = before.filterMap (warning? w) :=
      List.filterMap_congr fun e he => same e (List.mem_append_left _ he)
    have hf : after.filterMap (warning? w') = after.filterMap (warning? w) :=
      List.filterMap_congr fun e he => same e (List.mem_append_right _ he)
    rw [hes, List.filterMap_append, List.filterMap_cons, hb, hf]
    cases warning? w' (selector, c) <;> simp

/-- Each selector of a registry gets the other components whose templates can be
read and open its tag, in the order of the registry. There is one warning for each
template that the disk refuses, in that order too, and all that a refusal takes
away is that component as a user. -/
theorem discover_users (registry : Registry) (w : World) (h : registry.Readable w) :
    ∃ found, ((discover registry).on w).result = .ok found ∧
      found.usage.keys = registry.keys ∧
      (∀ child ∈ registry.keys, found.usage.get? child = some (users w registry.entries child)) ∧
      found.warnings = registry.entries.filterMap (warning? w) ∧
      ∀ w' selector c fault, registry.Readable w' → AgreeBut registry w w' selector →
        registry.get? selector = some c → c.reading w = some (.error fault) →
        ∃ found', ((discover registry).on w').result = .ok found' ∧
          (∀ child, found.usage.get? child =
            (found'.usage.get? child).map (·.filter (· ≠ selector))) ∧
          ∃ before after, found.warnings = before ++ (warning? w (selector, c)).toList ++ after ∧
            found'.warnings = before ++ (warning? w' (selector, c)).toList ++ after := by
  refine ⟨found registry w, by rw [on_discover h], by simp [found], ?_, rfl, ?_⟩
  · intro child hchild
    obtain ⟨c, hc⟩ := Table.mem_keys_iff.1 hchild
    rw [found, Table.get?_mapValues, hc]
    rfl
  · intro w' selector c fault h' ha hc hr
    refine ⟨found registry w', by rw [on_discover h'], ?_, warnings_of_agreeBut ha hc⟩
    intro child
    have hu := users_of_agreeBut ha hc (by simp [hr]) child
    rw [found, found, Table.get?_mapValues, Table.get?_mapValues, hu, Option.map_map]
    rfl

/-- A shop whose cart has its template at one of two places, of which the second
is not there. -/
def shop : Registry :=
  .ofList [("shop-root", ⟨"shop-root", "root", "/root.component.ts", some "/root.html"⟩),
    ("shop-cart", ⟨"shop-cart", "cart", "/cart.component.ts", some "/cart.html"⟩),
    ("shop-item", ⟨"shop-item", "item", "/item.component.ts", .none⟩)]

/-- A disk with some templates. -/
def shelf (templates : List (String × String)) : World where
  root := .folder (templates.map fun (name, text) => (name, .file text.toUTF8))
  here := { workingDirectory := "/", environment := .empty }

theorem discover_users_shop :
    shop.Readable (shelf [("root.html", "<shop-item>")]) ∧
      ∃ found, ((discover shop).on (shelf [("root.html", "<shop-item>")])).result = .ok found ∧
        found.usage.get? "shop-item" = some ["shop-root"] ∧
        found.warnings = ["Failed to read template for 'shop-cart': " ++
          "[Errno 2] No such file or directory: '/cart.html'"] ∧
        ∃ found', ((discover shop).on
            (shelf [("root.html", "<shop-item>"), ("cart.html", "<Shop-Item/>")])).result = .ok found' ∧
          found.usage.get? "shop-item" =
            (found'.usage.get? "shop-item").map (·.filter (· ≠ "shop-cart")) := by
  have hb : shop.Readable (shelf [("root.html", "<shop-item>")]) := by decide +kernel
  obtain ⟨found, hf, -, husers, hwarn, hless⟩ := discover_users shop _ hb
  obtain ⟨found', hf', hu, -⟩ := hless (shelf [("root.html", "<shop-item>"), ("cart.html", "<Shop-Item/>")])
    "shop-cart" ⟨"shop-cart", "cart", "/cart.component.ts", some "/cart.html"⟩ (.disk .missing "/cart.html")
    (by decide +kernel) (by decide +kernel) (by decide +kernel) (by decide +kernel)
  refine ⟨hb, found, hf, ?_, ?_, found', hf', hu "shop-item"⟩
  · rw [husers "shop-item" (by decide +kernel)]
    decide +kernel
  · rw [hwarn]
    decide +kernel

end Usage
end ComponentUsage
