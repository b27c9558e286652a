import Mathlib.Data.List.Basic
import Mathlib.Data.List.Nodup

/-!
# Condition variables

Waiters `ω` sleep on a condition, first come first. `notify` wakes the first one, `notifyAll` wakes
all, and a waiter may also wake because its time is up. Who was woken runs at some later time.

Some waiters take an item when they run, the others look and go. With `n` items there, the condition
is *covered* if no taker sleeps, or at least `n` takers were woken and have not run.

**Theorem (`covered_notify`).** A notification for one more item keeps the condition covered exactly
if it is useful: it wakes a taker, or no taker sleeps, or there were more woken takers than items.
The other operations keep the condition covered (`covered_*`).
-/

/-- Who sleeps, first come first, and who was woken and has not run yet. -/
@[ext] structure Condition (ω : Type*) where
  waiters : List ω
  woken : List ω

namespace Condition

variable {ω : Type*}

/-- A condition nobody waits for. -/
def empty : Condition ω := ⟨[], []⟩

/-- Fall asleep. -/
def wait (c : Condition ω) (w : ω) : Condition ω := { c with waiters := c.waiters ++ [w] }

/-- Wake the first waiter. -/
def notify (c : Condition ω) : Condition ω :=
  match c.waiters with
  | [] => c
  | w :: ws => ⟨ws, c.woken ++ [w]⟩

/-- Wake all waiters. -/
def notifyAll (c : Condition ω) : Condition ω := ⟨[], c.woken ++ c.waiters⟩

/-- The time of a waiter is up. -/
def expire [DecidableEq ω] (c : Condition ω) (w : ω) : Condition ω :=
  ⟨c.waiters.erase w, c.woken ++ [w]⟩

/-- A woken waiter runs. -/
def resume [DecidableEq ω] (c : Condition ω) (w : ω) : Condition ω :=
  { c with woken := c.woken.erase w }

/-- No waiter sleeps or is woken twice. -/
def Once (c : Condition ω) : Prop := (c.waiters ++ c.woken).Nodup

/-- No taker sleeps, or every item has a woken taker. -/
def Covered (takes : ω → Bool) (n : Nat) (c : Condition ω) : Prop :=
  (∀ w ∈ c.waiters, takes w = false) ∨ n ≤ c.woken.countP takes

/-- With `n` items there, a notification for one more is not wasted. -/
def Useful (takes : ω → Bool) (n : Nat) (c : Condition ω) : Prop :=
  (∀ w ∈ c.waiters.head?, takes w = true) ∨ (∀ w ∈ c.waiters, takes w = false) ∨
    n < c.woken.countP takes

instance (takes : ω → Bool) (n : Nat) (c : Condition ω) : Decidable (Useful takes n c) :=
  inferInstanceAs (Decidable (_ ∨ _ ∨ _))

variable {takes : ω → Bool} {n : Nat} {c : Condition ω} {w : ω}

/-! ## Who sleeps and who was woken -/

theorem mem_notify : w ∈ c.notify.waiters ++ c.notify.woken ↔ w ∈ c.waiters ++ c.woken := by
  unfold notify
  split
  · rfl
  · next v ws h =>
    simp only [h, List.mem_append, List.mem_cons, List.not_mem_nil, or_false]
    tauto

theorem mem_notifyAll :
    w ∈ c.notifyAll.waiters ++ c.notifyAll.woken ↔ w ∈ c.waiters ++ c.woken := by
  simp only [notifyAll, List.mem_append, List.not_mem_nil, false_or]
  exact or_comm

theorem once_notify (h : c.Once) : c.notify.Once := by
  unfold notify
  split
  · exact h
  · next v ws hw =>
    rw [Once, hw] at h
    rw [Once, List.cons_append, List.nodup_cons] at *
    rw [← List.append_assoc, List.nodup_append]
    refine ⟨h.2, List.nodup_singleton v, ?_⟩
    intro x hx y hy
    rw [List.mem_singleton.mp hy]
    rintro rfl
    exact h.1 hx

theorem once_notifyAll (h : c.Once) : c.notifyAll.Once := by
  rw [Once, notifyAll, List.nil_append]
  exact List.nodup_append_comm.mp h

theorem once_wait (h : c.Once) (hw : w ∉ c.waiters ++ c.woken) : (c.wait w).Once := by
  rw [Once, wait, List.append_assoc, List.singleton_append]
  exact List.nodup_middle.mpr (List.nodup_cons.mpr ⟨hw, h⟩)

section

variable [DecidableEq ω]

theorem expire_perm (h : w ∈ c.waiters) :
    ((c.expire w).waiters ++ (c.expire w).woken).Perm (c.waiters ++ c.woken) := by
  have herase : (w :: c.waiters.erase w).Perm c.waiters := (List.perm_cons_erase h).symm
  calc (c.expire w).waiters ++ (c.expire w).woken
      = c.waiters.erase w ++ (c.woken ++ [w]) := rfl
    _ |>.Perm (c.waiters.erase w ++ (w :: c.woken)) :=
        (List.perm_append_singleton w c.woken).append_left _
    _ |>.Perm (w :: (c.waiters.erase w ++ c.woken)) := List.perm_middle
    _ |>.Perm (c.waiters ++ c.woken) := herase.append_right c.woken

theorem once_expire (h : c.Once) (hw : w ∈ c.waiters) : (c.expire w).Once :=
  (expire_perm hw).nodup_iff.mpr h

theorem once_resume (h : c.Once) : (c.resume w).Once :=
  h.sublist (List.Sublist.append_left List.erase_sublist c.waiters)

theorem not_mem_resume (h : c.Once) (hw : w ∈ c.woken) :
    w ∉ (c.resume w).waiters ++ (c.resume w).woken := by
  have hnd := List.nodup_append.mp h
  simp only [resume, List.mem_append, not_or]
  refine ⟨fun hmem => hnd.2.2 w hmem w hw rfl, ?_⟩
  exact fun hmem => (List.Nodup.mem_erase_iff hnd.2.1).mp hmem |>.1 rfl

theorem mem_resume_of_ne {v : ω} (h : v ≠ w) :
    v ∈ (c.resume w).waiters ++ (c.resume w).woken ↔ v ∈ c.waiters ++ c.woken := by
  simp only [resume, List.mem_append, List.mem_erase_of_ne h]

end

/-! ## Covered conditions -/

theorem covered_of_nil (h : c.waiters = []) : c.Covered takes n := by
  refine Or.inl ?_
  rw [h]
  exact fun w hw => absurd hw List.not_mem_nil

theorem covered_zero : c.Covered takes 0 := Or.inr (Nat.zero_le _)

theorem covered_mono {m : Nat} (hle : m ≤ n) (h : c.Covered takes n) : c.Covered takes m :=
  h.imp_right (Nat.le_trans hle)

/-- One more item is there, and one waiter is notified. -/
theorem covered_notify (h : c.Covered takes n) :
    c.notify.Covered takes (n + 1) ↔ c.Useful takes n := by
  cases hw : c.waiters with
  | nil =>
    refine iff_of_true (covered_of_nil ?_) (Or.inl ?_)
    · simp only [notify, hw]
    · simp only [hw, List.head?_nil, Option.mem_def, reduceCtorEq, false_imp_iff, implies_true]
  | cons w ws =>
    simp only [Covered, Useful, notify, hw, List.countP_append, List.countP_singleton,
      List.head?_cons, List.mem_cons, forall_eq_or_imp, Option.mem_some_iff, forall_eq'] at h ⊢
    cases ht : takes w with
    | true =>
      simp only [if_true, true_or, iff_true]
      refine Or.inr ?_
      rcases h with h | h
      · simp [ht] at h
      · omega
    | false =>
      simp only [Bool.false_eq_true, if_false, Nat.add_zero, false_or, true_and]
      exact or_congr_right Nat.succ_le_iff

theorem covered_notifyAll : c.notifyAll.Covered takes n := covered_of_nil rfl

section

variable [DecidableEq ω]

theorem covered_expire (h : c.Covered takes n) : (c.expire w).Covered takes n := by
  refine h.imp (fun h v hv => h v (List.mem_of_mem_erase hv)) fun h => ?_
  rw [expire, List.countP_append]
  omega

/-- A woken waiter runs, and takes an item if it is a taker. -/
theorem covered_resume (hw : w ∈ c.woken) (h : c.Covered takes n) :
    (c.resume w).Covered takes (if takes w then n - 1 else n) := by
  refine h.imp_right fun h => ?_
  have hcount : c.woken.countP takes =
      (c.woken.erase w).countP takes + if takes w then 1 else 0 := by
    have hperm := (List.perm_cons_erase hw).countP_eq takes
    rwa [List.countP_cons] at hperm
  simp only [resume]
  split_ifs at hcount ⊢ <;> omega

end

end Condition
