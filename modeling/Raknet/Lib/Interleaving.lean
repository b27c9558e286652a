import Mathlib.Data.Nat.Notation
import Mathlib.Logic.Function.Basic
import Mathlib.Tactic.SplitIfs

/-!
# Interleaved threads over a shared state

A `System` has a shared state `σ` and threads with private states `τ`, numbered by `ℕ`. A step
is a shared action, which moves `σ` alone, or an action of one thread, which moves `σ` and that
thread's private state. Both are partial functions, so a run can be computed (`System.exec`).

`Reach M ok c₀ c` says that `c` is reached from `c₀` by steps that all satisfy `ok`; an `ok`
that is always true gives plain reachability.

* `Reach.invariant` — what holds at the start and survives every step holds throughout.
* `Reach.outline` — the same for an assertion on the shared state together with one assertion
  per thread, each stable under the steps of everyone else.
* `Reach.map` — a map of configurations that sends steps to steps or to nothing sends runs
  to runs.
-/

namespace Interleaving

variable {σ τ ε α : Type*}

/-- Threads with private states `τ` over a shared state `σ`. -/
structure System (σ τ ε α : Type*) where
  shared : ε → σ → Option σ
  thread : ℕ → α → σ → τ → Option (σ × τ)

/-- The shared state and every thread's private state. -/
@[ext] structure Config (σ τ : Type*) where
  shared : σ
  thread : ℕ → τ

/-- Who moves, and how. -/
inductive Action (ε α : Type*)
  | shared (e : ε)
  | thread (i : ℕ) (a : α)

/-! ## Steps and runs -/

/-- Write one thread's private state. -/
def Config.move (c : Config σ τ) (i : ℕ) (r : σ × τ) : Config σ τ :=
  ⟨r.1, Function.update c.thread i r.2⟩

@[simp] theorem Config.move_shared (c : Config σ τ) (i : ℕ) (r : σ × τ) :
    (c.move i r).shared = r.1 := rfl

@[simp] theorem Config.move_thread_self (c : Config σ τ) (i : ℕ) (r : σ × τ) :
    (c.move i r).thread i = r.2 := by
  simp [Config.move]

theorem Config.move_thread_of_ne (c : Config σ τ) {i j : ℕ} (r : σ × τ) (h : j ≠ i) :
    (c.move i r).thread j = c.thread j := by
  simp [Config.move, h]

theorem Config.move_thread (c : Config σ τ) (i j : ℕ) (r : σ × τ) :
    (c.move i r).thread j = if j = i then r.2 else c.thread j := by
  simp [Config.move, Function.update_apply]

/-- One step of the system. -/
def System.step (M : System σ τ ε α) (c : Config σ τ) : Action ε α → Option (Config σ τ)
  | .shared e => (M.shared e c.shared).map fun s => { c with shared := s }
  | .thread i a => (M.thread i a c.shared (c.thread i)).map (c.move i)

theorem System.step_cases {M : System σ τ ε α} {c c' : Config σ τ} {a : Action ε α}
    (h : M.step c a = some c') :
    (∃ e s, a = .shared e ∧ M.shared e c.shared = some s ∧ c' = { c with shared := s }) ∨
      ∃ i x s t, a = .thread i x ∧ M.thread i x c.shared (c.thread i) = some (s, t) ∧
        c' = c.move i (s, t) := by
  cases a with
  | shared e =>
    obtain ⟨s, hs, rfl⟩ := Option.map_eq_some_iff.mp h
    exact Or.inl ⟨e, s, rfl, hs, rfl⟩
  | thread i x =>
    obtain ⟨⟨s, t⟩, hs, rfl⟩ := Option.map_eq_some_iff.mp h
    exact Or.inr ⟨i, x, s, t, rfl, hs, rfl⟩

/-- Reachability by steps that satisfy `ok` in the configuration they are taken from. -/
inductive Reach (M : System σ τ ε α) (ok : Config σ τ → Action ε α → Prop)
    (c₀ : Config σ τ) : Config σ τ → Prop
  | start : Reach M ok c₀ c₀
  | step {c c' : Config σ τ} {a : Action ε α} :
      Reach M ok c₀ c → ok c a → M.step c a = some c' → Reach M ok c₀ c'

/-- Every step is allowed. -/
def anyStep (_ : Config σ τ) (_ : Action ε α) : Prop := True

instance (c : Config σ τ) (a : Action ε α) : Decidable (anyStep c a) := .isTrue trivial

/-- Run a list of actions, checking `ok` before each. -/
def System.exec (M : System σ τ ε α) (ok : Config σ τ → Action ε α → Prop)
    [∀ c a, Decidable (ok c a)] : List (Action ε α) → Config σ τ → Option (Config σ τ)
  | [], c => some c
  | a :: l, c => if ok c a then (M.step c a).bind (M.exec ok l) else none

variable {M : System σ τ ε α} {ok ok' : Config σ τ → Action ε α → Prop} {c₀ c₁ c c' : Config σ τ}

theorem Reach.trans (h : Reach M ok c₀ c₁) (h' : Reach M ok c₁ c) : Reach M ok c₀ c := by
  induction h' with
  | start => exact h
  | step _ hok hstep ih => exact .step ih hok hstep

theorem Reach.single {a : Action ε α} (hok : ok c a) (h : M.step c a = some c') :
    Reach M ok c c' :=
  .step .start hok h

theorem Reach.of_step {a : Action ε α} (h : M.step c a = some c') : Reach M anyStep c c' :=
  .single trivial h

theorem Reach.mono (h : Reach M ok c₀ c)
    (himp : ∀ d a, Reach M ok c₀ d → ok d a → ok' d a) : Reach M ok' c₀ c := by
  induction h with
  | start => exact .start
  | step hr hok hstep ih => exact .step ih (himp _ _ hr hok) hstep

theorem Reach.any (h : Reach M ok c₀ c) : Reach M anyStep c₀ c :=
  h.mono fun _ _ _ _ => trivial

theorem Reach.of_exec [∀ c a, Decidable (ok c a)] {l : List (Action ε α)}
    (h : M.exec ok l c₀ = some c) : Reach M ok c₀ c := by
  induction l generalizing c₀ with
  | nil =>
    cases h
    exact .start
  | cons a l ih =>
    simp only [System.exec] at h
    split_ifs at h with hok
    obtain ⟨d, hd, h⟩ := Option.bind_eq_some_iff.mp h
    exact (Reach.single hok hd).trans (ih h)

/-! ## Invariants -/

/-- **The invariant rule.** The step may use that the configuration it starts from is
reachable, so an invariant can build on those proved before it. -/
theorem Reach.invariant {I : Config σ τ → Prop} (h : Reach M ok c₀ c) (h₀ : I c₀)
    (hstep : ∀ c a c', Reach M ok c₀ c → ok c a → M.step c a = some c' → I c → I c') : I c := by
  induction h with
  | start => exact h₀
  | step hr hok hs ih => exact hstep _ _ _ hr hok hs ih

/-- **The outline rule.** `G` is asserted of the shared state and `L i` of thread `i`. A shared
action keeps `G` and every `L`; a thread's action keeps `G`, establishes its own `L` and
keeps the `L` of every other thread. -/
theorem Reach.outline {G : σ → Prop} {L : ℕ → σ → τ → Prop} (h : Reach M ok c₀ c)
    (hG : G c₀.shared) (hL : ∀ i, L i c₀.shared (c₀.thread i))
    (hshared : ∀ c e s, Reach M ok c₀ c → ok c (.shared e) → M.shared e c.shared = some s →
      G c.shared → G s ∧ ∀ i t, L i c.shared t → L i s t)
    (hthread : ∀ c i x s t, Reach M ok c₀ c → ok c (.thread i x) →
      M.thread i x c.shared (c.thread i) = some (s, t) → G c.shared →
      L i c.shared (c.thread i) →
      G s ∧ L i s t ∧ ∀ j, j ≠ i → ∀ u, L j c.shared u → L j s u) :
    G c.shared ∧ ∀ i, L i c.shared (c.thread i) := by
  refine h.invariant (I := fun c => G c.shared ∧ ∀ i, L i c.shared (c.thread i)) ⟨hG, hL⟩ ?_
  rintro c a c' hr hok hstep ⟨hg, hl⟩
  rcases System.step_cases hstep with ⟨e, s, rfl, hs, rfl⟩ | ⟨i, x, s, t, rfl, hs, rfl⟩
  · obtain ⟨hg', hkeep⟩ := hshared c e s hr hok hs hg
    exact ⟨hg', fun j => hkeep j _ (hl j)⟩
  · obtain ⟨hg', hown, hkeep⟩ := hthread c i x s t hr hok hs hg (hl i)
    refine ⟨hg', fun j => ?_⟩
    by_cases hj : j = i
    · subst hj
      simpa using hown
    · rw [Config.move_thread_of_ne c (s, t) hj]
      exact hkeep j hj _ (hl j)

/-! ## Projections -/

/-- A map of configurations under which every allowed step becomes an allowed step or nothing
maps reachable configurations to reachable ones. -/
theorem Reach.map {σ' τ' ε' α' : Type*} {N : System σ' τ' ε' α'}
    {okN : Config σ' τ' → Action ε' α' → Prop} (f : Config σ τ → Config σ' τ')
    (h : Reach M ok c₀ c)
    (hstep : ∀ c a c', Reach M ok c₀ c → ok c a → M.step c a = some c' →
      f c' = f c ∨ ∃ b, okN (f c) b ∧ N.step (f c) b = some (f c')) :
    Reach N okN (f c₀) (f c) := by
  induction h with
  | start => exact .start
  | step hr hok hs ih =>
    rcases hstep _ _ _ hr hok hs with heq | ⟨b, hb, hbs⟩
    · rw [heq]
      exact ih
    · exact .step ih hb hbs

end Interleaving
