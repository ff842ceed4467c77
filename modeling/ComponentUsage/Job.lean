import ComponentUsage.Disk.Storage
import ComponentUsage.Journal.Record
/-!
# Jobs

Work on a disk, step by step: a job reports what it does, looks at the disk as it
is seen at that moment, and saves texts. Who does a job decides what else happens
between its steps; `on` does it where nothing else happens, and `on_bind` says
that a job made of two is then done one after the other.
-/

namespace ComponentUsage

/-- Work on a disk. -/
inductive Job (α : Type) where
  | done (result : Except Fault α)
  | report (r : Record) (next : Job α)
  /-- Goes on according to the disk. -/
  | look (next : World → Job α)
  /-- Saves a text at a path, and goes on according to how that went. -/
  | save (path text : String) (next : Except Fault Unit → Job α)

/-- What a job has come to, on some kind of disk. -/
structure Outcome (α D : Type) where
  /-- The reports, in order. -/
  records : List Record
  result : Except Fault α
  /-- The disk as the job leaves it. -/
  world : D

namespace Job

variable {α β γ : Type}

/-! ## Jobs from jobs -/

/-- A job that goes on with what another one found, unless that failed. -/
def bind : Job α → (α → Job β) → Job β
  | .done (.ok x), f => f x
  | .done (.error fault), _ => .done (.error fault)
  | .report r next, f => .report r (next.bind f)
  | .look next, f => .look fun w => (next w).bind f
  | .save path text next, f => .save path text fun saved => (next saved).bind f

instance : Monad Job where
  pure x := .done (.ok x)
  bind := Job.bind

/-- A job whose failure is a result. -/
def attempt : Job α → Job (Except Fault α)
  | .done result => .done (.ok result)
  | .report r next => .report r next.attempt
  | .look next => .look fun w => (next w).attempt
  | .save path text next => .save path text fun saved => (next saved).attempt

/-- Does nothing but fail, or succeed. -/
def ofExcept (result : Except Fault α) : Job α := .done result

/-- The disk as it is. -/
def disk : Job World := .look fun w => .done (.ok w)

/-- Reports. -/
def tell (level : Level) (source message : String) : Job Unit :=
  .report { level, source, message } (.done (.ok ()))

/-- Gives all these reports. -/
def tellAll : List Record → Job Unit
  | [] => .done (.ok ())
  | r :: rs => .report r (tellAll rs)

/-- Saves a text at a path. -/
def write (path text : String) : Job Unit := .save path text .done

theorem bind_done (job : Job α) : job.bind (fun x => .done (.ok x)) = job := by
  induction job with
  | done result => cases result <;> rfl
  | report r next ih => simp only [bind, ih]
  | look next ih => simp only [bind, ih]
  | save path text next ih => simp only [bind, ih]

theorem bind_assoc (job : Job α) (f : α → Job β) (g : β → Job γ) :
    (job.bind f).bind g = job.bind fun x => (f x).bind g := by
  induction job with
  | done result => cases result <;> rfl
  | report r next ih => simp only [bind, ih]
  | look next ih => simp only [bind, ih]
  | save path text next ih => simp only [bind, ih]

instance : LawfulMonad Job :=
  LawfulMonad.mk' Job bind_done (fun _ _ => rfl) bind_assoc

/-! ## Doing a job -/

/-- What a job comes to on a disk that nothing else changes. -/
def on {D : Type} [Storage D] : Job α → D → Outcome α D
  | .done result, d => ⟨[], result, d⟩
  | .report r next, d =>
    let o := next.on d
    { o with records := r :: o.records }
  | .look next, d => (next (Storage.seen d)).on d
  | .save path text next, d =>
    let saved := Storage.save d path text
    (next saved.2).on saved.1

end Job

section doing

variable {D : Type} [Storage D]

/-- What a job comes to that goes on after another one. -/
def Outcome.andThen {α β : Type} (o : Outcome α D) (f : α → Job β) : Outcome β D :=
  match o.result with
  | .ok x =>
    let rest := (f x).on o.world
    { rest with records := o.records ++ rest.records }
  | .error fault => { o with result := .error fault }

@[simp] theorem Outcome.andThen_ok {α β : Type} (rs : List Record) (x : α) (d : D)
    (f : α → Job β) :
    (⟨rs, .ok x, d⟩ : Outcome α D).andThen f =
      { (f x).on d with records := rs ++ ((f x).on d).records } := rfl

@[simp] theorem Outcome.andThen_error {α β : Type} (rs : List Record) (fault : Fault) (d : D)
    (f : α → Job β) :
    (⟨rs, .error fault, d⟩ : Outcome α D).andThen f = ⟨rs, .error fault, d⟩ := rfl

namespace Job

variable {α β : Type}

@[simp] theorem on_pure (x : α) (d : D) : (pure x : Job α).on d = ⟨[], .ok x, d⟩ := rfl

@[simp] theorem on_ofExcept (result : Except Fault α) (d : D) :
    (ofExcept result).on d = ⟨[], result, d⟩ := rfl

theorem on_disk_eq (d : D) : disk.on d = ⟨[], .ok (Storage.seen d), d⟩ := rfl

@[simp] theorem on_disk (w : World) : disk.on w = ⟨[], .ok w, w⟩ := rfl

@[simp] theorem on_tell (level : Level) (source message : String) (d : D) :
    (tell level source message).on d = ⟨[{ level, source, message }], .ok (), d⟩ := rfl

@[simp] theorem on_tellAll (rs : List Record) (d : D) :
    (tellAll rs).on d = ⟨rs, .ok (), d⟩ := by
  induction rs with
  | nil => rfl
  | cons r rs ih => simp only [tellAll, on, ih]

theorem on_write_eq (path text : String) (d : D) :
    (write path text).on d = ⟨[], (Storage.save d path text).2, (Storage.save d path text).1⟩ := by
  simp only [write, on]

@[simp] theorem on_write (path text : String) (w : World) :
    (write path text).on w = ⟨[], (w.save path text).2, (w.save path text).1⟩ :=
  on_write_eq path text w

@[simp] theorem on_bind (job : Job α) (f : α → Job β) (d : D) :
    (job >>= f).on d = (job.on d).andThen f := by
  change (job.bind f).on d = _
  induction job generalizing d with
  | done result => cases result <;> rfl
  | report r next ih =>
    simp only [bind, on, ih, Outcome.andThen]
    split <;> rfl
  | look next ih => simp only [bind, on, ih]
  | save path text next ih => simp only [bind, on, ih]

@[simp] theorem on_map (f : α → β) (job : Job α) (d : D) :
    (f <$> job).on d = { job.on d with result := (job.on d).result.map f } := by
  rw [map_eq_pure_bind, on_bind]
  rcases job.on d with ⟨rs, fault | x, d'⟩ <;> simp [Except.map]

@[simp] theorem on_attempt (job : Job α) (d : D) :
    job.attempt.on d = { job.on d with result := .ok (job.on d).result } := by
  induction job generalizing d with
  | done result => rfl
  | report r next ih => simp only [attempt, on, ih]
  | look next ih => simp only [attempt, on, ih]
  | save path text next ih => simp only [attempt, on, ih]

/-! ## Jobs that only look -/

/-- A job that leaves the disk alone never saves anything. -/
inductive LeavesDisk : Job α → Prop
  | done (result : Except Fault α) : LeavesDisk (.done result)
  | report (r : Record) {next : Job α} : LeavesDisk next → LeavesDisk (.report r next)
  | look {next : World → Job α} : (∀ w, LeavesDisk (next w)) → LeavesDisk (.look next)

theorem LeavesDisk.world {job : Job α} (h : job.LeavesDisk) (d : D) : (job.on d).world = d := by
  induction h with
  | done result => rfl
  | report r _ ih => exact ih
  | look _ ih => exact ih _

/-- A job that only looks depends on what is seen of the disk. -/
theorem LeavesDisk.result_seen {job : Job α} (h : job.LeavesDisk) (d : D) :
    (job.on d).result = (job.on (Storage.seen d)).result := by
  induction h with
  | done result => rfl
  | report r _ ih => exact ih
  | look _ ih => exact ih _

theorem LeavesDisk.pure (x : α) : (Pure.pure x : Job α).LeavesDisk := .done _

theorem LeavesDisk.ofExcept (result : Except Fault α) : (Job.ofExcept result).LeavesDisk := .done _

theorem LeavesDisk.disk : disk.LeavesDisk := .look fun _ => .done _

theorem LeavesDisk.tell (level : Level) (source message : String) :
    (Job.tell level source message).LeavesDisk := .report _ (.done _)

theorem LeavesDisk.bind {job : Job α} {f : α → Job β} (hj : job.LeavesDisk) (hf : ∀ x, (f x).LeavesDisk) :
    (job >>= f).LeavesDisk := by
  change (job.bind f).LeavesDisk
  induction hj with
  | done result =>
    cases result with
    | ok x => exact hf x
    | error fault => exact .done _
  | report r _ ih => exact .report r ih
  | look _ ih => exact .look ih

theorem LeavesDisk.foldlM {f : β → α → Job β} (hf : ∀ y x, (f y x).LeavesDisk) (y : β) (xs : List α) :
    (xs.foldlM f y).LeavesDisk := by
  induction xs generalizing y with
  | nil => exact .pure y
  | cons x xs ih =>
    rw [List.foldlM_cons]
    exact .bind (hf y x) fun y => ih y

theorem LeavesDisk.result_bind {job : Job α} (hj : job.LeavesDisk) (f : α → Job β) (d : D) :
    ((job >>= f).on d).result = (job.on d).result >>= fun x => ((f x).on d).result := by
  have h := hj.world d
  rw [on_bind]
  generalize job.on d = o at h
  obtain ⟨rs, fault | x, d'⟩ := o
  · rfl
  · obtain rfl : d' = d := h
    rfl

/-- In a fold that comes to an end each step does. -/
theorem LeavesDisk.step_of_result_foldlM {f : β → α → Job β} (hf : ∀ y x, (f y x).LeavesDisk) {w : World}
    {y last : β} {xs : List α} (h : ((xs.foldlM f y).on w).result = .ok last) :
    ∀ x ∈ xs, ∃ before after, ((f before x).on w).result = .ok after := by
  induction xs generalizing y with
  | nil => simp
  | cons x xs ih =>
    rw [List.foldlM_cons, (hf y x).result_bind] at h
    obtain ⟨next, hx, h⟩ := Fault.bind_eq_ok_iff.1 h
    exact List.forall_mem_cons.2 ⟨⟨y, next, hx⟩, ih h⟩

/-- A fold of which each step finds the same on two disks finds the same on both. -/
theorem LeavesDisk.result_foldlM_congr {f : β → α → Job β} (hf : ∀ y x, (f y x).LeavesDisk) {w w' : World}
    {xs : List α} (h : ∀ x ∈ xs, ∀ y, ((f y x).on w').result = ((f y x).on w).result) (y : β) :
    ((xs.foldlM f y).on w').result = ((xs.foldlM f y).on w).result := by
  induction xs generalizing y with
  | nil => rfl
  | cons x xs ih =>
    rw [List.foldlM_cons, (hf y x).result_bind, (hf y x).result_bind, h x List.mem_cons_self]
    exact bind_congr fun y => ih (fun x hx => h x (List.mem_cons_of_mem _ hx)) y

/-- Two jobs that go on in the same way after the same start come to the same. -/
theorem on_bind_congr {job job' : Job α} {f g : α → Job β} {w : World} (hj : job.on w = job'.on w)
    (hw : job.LeavesDisk) (hf : ∀ x, (f x).on w = (g x).on w) : (job >>= f).on w = (job' >>= g).on w := by
  have h := hw.world w
  rw [on_bind, on_bind, ← hj]
  generalize job.on w = o at h
  obtain ⟨rs, fault | x, w'⟩ := o
  · rfl
  · obtain rfl : w' = w := h
    rw [Outcome.andThen_ok, Outcome.andThen_ok, hf]

theorem on_foldlM_flatMap {γ : Type} {f : β → α → Job β} {g : α → List γ} {h : β → γ → Job β}
    {w : World} (hf : ∀ y x, (f y x).LeavesDisk) (y : β) (xs : List α)
    (hg : ∀ x ∈ xs, ∀ y, (f y x).on w = ((g x).foldlM h y).on w) :
    (xs.foldlM f y).on w = ((xs.flatMap g).foldlM h y).on w := by
  induction xs generalizing y with
  | nil => rfl
  | cons x xs ih =>
    rw [List.foldlM_cons, List.flatMap_cons, List.foldlM_append]
    exact on_bind_congr (hg x List.mem_cons_self y) (hf y x) fun y =>
      ih y fun x hx => hg x (List.mem_cons_of_mem _ hx)

end Job
end doing
end ComponentUsage
