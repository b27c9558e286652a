import Mathlib.Data.List.ReduceOption

/-!
# Queues with barriers

Items wait in a queue, and between them barriers: `none`, in a list of `Option α`. Who takes the
items one by one gets those ahead of the first barrier before it meets a barrier.

**Theorem (`ahead_remove`).** Without a barrier no fewer items are ahead of the first one.
-/

namespace Barrier

variable {α : Type*}

/-- The items ahead of the first barrier. -/
def ahead : List (Option α) → List α
  | some x :: l => x :: ahead l
  | _ => []

@[simp] theorem ahead_nil : ahead ([] : List (Option α)) = [] := rfl

@[simp] theorem ahead_cons_some (x : α) (l : List (Option α)) :
    ahead (some x :: l) = x :: ahead l := rfl

@[simp] theorem ahead_cons_none (l : List (Option α)) : ahead (none :: l) = [] := rfl

/-- Behind everything else nothing gets in the way. -/
theorem ahead_append (l l' : List (Option α)) : ahead l <+: ahead (l ++ l') := by
  induction l with
  | nil => exact List.nil_prefix
  | cons x l ih =>
    cases x with
    | none => exact List.nil_prefix
    | some x => exact (List.prefix_cons_inj x).mpr ih

theorem ahead_remove (l l' : List (Option α)) : ahead (l ++ none :: l') <+: ahead (l ++ l') := by
  induction l with
  | nil => exact List.nil_prefix
  | cons x l ih =>
    cases x with
    | none => exact List.nil_prefix
    | some x => exact (List.prefix_cons_inj x).mpr ih

/-- Without barriers all items are ahead. -/
theorem ahead_eq_reduceOption {l : List (Option α)} (h : none ∉ l) : ahead l = l.reduceOption := by
  induction l with
  | nil => rfl
  | cons x l ih =>
    rw [List.mem_cons, not_or] at h
    cases x with
    | none => exact absurd rfl h.1
    | some x => simp [ih h.2]

/-- A barrier counts for nothing among the items. -/
theorem reduceOption_remove (l l' : List (Option α)) :
    (l ++ none :: l').reduceOption = (l ++ l').reduceOption := by
  simp [List.reduceOption_append]

end Barrier
