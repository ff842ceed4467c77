import ComponentUsage.Text.Quoted
/-!
# Faults

What ends a step early: mostly a disk, which has a cause for which it does not
let a file or a directory be used.
-/

namespace ComponentUsage

/-- Why a path cannot be used. -/
inductive Cause where
  | missing
  | denied
  | exists
  | notFolder
  | isFolder
  | nameTooLong
  deriving DecidableEq, Repr

/-- The number of a cause. -/
def Cause.number : Cause → Nat
  | .missing => 2
  | .denied => 13
  | .exists => 17
  | .notFolder => 20
  | .isFolder => 21
  | .nameTooLong => 36

def Cause.text : Cause → String
  | .missing => "No such file or directory"
  | .denied => "Permission denied"
  | .exists => "File exists"
  | .notFolder => "Not a directory"
  | .isFolder => "Is a directory"
  | .nameTooLong => "File name too long"

/-- What ends a step early. -/
inductive Fault where
  /-- The disk refuses the path, for that cause. -/
  | disk (cause : Cause) (path : String)
  /-- A path that holds a zero character is none. -/
  | zeroInPath
  /-- A format for records that has no place for anything of a record. -/
  | emptyFormat (format : String)
  /-- The user stops the program. -/
  | interrupted
  deriving DecidableEq, Repr

def Fault.message : Fault → String
  | .disk cause path => s!"[Errno {cause.number}] {cause.text}: {Text.quoted path}"
  | .zeroInPath => "embedded null byte"
  | .emptyFormat format => s!"Invalid format '{format}' for '%' style"
  | .interrupted => ""

@[simp] theorem Fault.ok_bind {α β : Type} (x : α) (f : α → Except Fault β) :
    (Except.ok x >>= f) = f x := rfl

/-- Two steps, one after the other, succeed if both do. -/
theorem Fault.bind_eq_ok_iff {α β : Type} {x : Except Fault α} {f : α → Except Fault β} {b : β} :
    (x >>= f) = .ok b ↔ ∃ a, x = .ok a ∧ f a = .ok b := by
  cases x <;> simp [bind, Except.bind]

theorem Fault.bind_eq_error_iff {α β : Type} {x : Except Fault α} {f : α → Except Fault β} {fault : Fault} :
    (x >>= f) = .error fault ↔ x = .error fault ∨ ∃ a, x = .ok a ∧ f a = .error fault := by
  cases x <;> simp [bind, Except.bind]

theorem Fault.isOk_iff {α : Type} {x : Except Fault α} : x.isOk = true ↔ ∃ a, x = .ok a := by
  cases x <;> simp [Except.isOk, Except.toBool]

/-- What is known of a part of a result is known of a step that succeeds. -/
theorem Fault.exists_of_map_toOption {α β : Type} {x : Except Fault α} {f : α → β} {b : β}
    (h : x.toOption.map f = some b) : ∃ a, x = .ok a ∧ f a = b := by
  cases x with
  | error fault => cases h
  | ok a => exact ⟨a, rfl, Option.some.inj h⟩

/-- Whether the disk is at fault. -/
def Fault.isDisk : Fault → Bool
  | .disk _ _ => true
  | _ => false

end ComponentUsage
