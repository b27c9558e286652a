import Raknet.Lib.Interleaving

/-!
# Runs and their steps

`Trace M ok c₀ tr c` is a run from `c₀` to `c` with its steps `tr`: the configuration each step was
taken from, and the action. What a run did can be read off its steps, also where the state does not
remember it.

**Theorem (`Trace.reach`, `Reach.exists_trace`).** The traces of a system are its runs.

**Theorem (`Trace.holds_iff`).** What holds in all states of a run can be told from its steps.

**Theorem (`Trace.budget`).** Steps that use up a measure are few.
-/

namespace Interleaving

variable {σ τ ε α : Type*}

/-- A run with the list of its steps. -/
inductive Trace (M : System σ τ ε α) (ok : Config σ τ → Action ε α → Prop) (c₀ : Config σ τ) :
    List (Config σ τ × Action ε α) → Config σ τ → Prop
  | start : Trace M ok c₀ [] c₀
  | step {tr : List (Config σ τ × Action ε α)} {c c' : Config σ τ} {a : Action ε α} :
      Trace M ok c₀ tr c → ok c a → M.step c a = some c' → Trace M ok c₀ (tr ++ [(c, a)]) c'

variable {M : System σ τ ε α} {ok ok' : Config σ τ → Action ε α → Prop} {c₀ c : Config σ τ}
  {tr : List (Config σ τ × Action ε α)}

theorem Trace.reach (h : Trace M ok c₀ tr c) : Reach M ok c₀ c := by
  induction h with
  | start => exact .start
  | step _ hok hs ih => exact .step ih hok hs

theorem Reach.exists_trace (h : Reach M ok c₀ c) : ∃ tr, Trace M ok c₀ tr c := by
  induction h with
  | start => exact ⟨[], .start⟩
  | step _ hok hs ih =>
    obtain ⟨tr, htr⟩ := ih
    exact ⟨_, .step htr hok hs⟩

theorem Trace.mono (h : Trace M ok c₀ tr c) (himp : ∀ d a, ok d a → ok' d a) :
    Trace M ok' c₀ tr c := by
  induction h with
  | start => exact .start
  | step _ hok hs ih => exact .step ih (himp _ _ hok) hs

/-- **The invariant rule** for what is said about a run's steps and where it leads. -/
theorem Trace.invariant {I : List (Config σ τ × Action ε α) → Config σ τ → Prop}
    (h : Trace M ok c₀ tr c) (h₀ : I [] c₀)
    (hstep : ∀ tr c a c', Trace M ok c₀ tr c → ok c a → M.step c a = some c' → I tr c →
      I (tr ++ [(c, a)]) c') : I tr c := by
  induction h with
  | start => exact h₀
  | step htr hok hs ih => exact hstep _ _ _ _ htr hok hs ih

theorem Trace.forall_of_step {P : Config σ τ → Prop} {Q : Config σ τ → Action ε α → Prop}
    (h : Trace M ok c₀ tr c)
    (hstep : ∀ c a c', Reach M ok c₀ c → ok c a → M.step c a = some c' → P c → P c' → Q c a)
    (htr : ∀ x ∈ tr, P x.1) (hc : P c) : ∀ x ∈ tr, Q x.1 x.2 := by
  induction h with
  | start => simp
  | step h hok hs ih =>
    simp only [List.mem_append, List.mem_singleton, or_imp, forall_and, forall_eq] at htr ⊢
    exact ⟨ih htr.1 htr.2, hstep _ _ _ h.reach hok hs htr.2 hc⟩

theorem Trace.prefix_of_forall {P : Config σ τ → Prop} {Q : Config σ τ → Action ε α → Prop}
    (h : Trace M ok c₀ tr c) (hreach : ∀ c, Reach M (fun c a => ok c a ∧ Q c a) c₀ c → P c)
    (htr : ∀ x ∈ tr, Q x.1 x.2) :
    Reach M (fun c a => ok c a ∧ Q c a) c₀ c ∧ ∀ x ∈ tr, P x.1 := by
  induction h with
  | start => exact ⟨.start, by simp⟩
  | step h hok hs ih =>
    simp only [List.mem_append, List.mem_singleton, or_imp, forall_and, forall_eq] at htr ⊢
    obtain ⟨hr, hall⟩ := ih htr.1
    exact ⟨.step hr ⟨hok, htr.2⟩ hs, hall, hreach _ hr⟩

/-- **The exactness rule.** `P` holds as long as all steps are `Q`, and a step between two states
in which `P` holds is `Q`: so `P` holds in all states of a run exactly if all its steps are `Q`. -/
theorem Trace.holds_iff {P : Config σ τ → Prop} {Q : Config σ τ → Action ε α → Prop}
    (h : Trace M ok c₀ tr c) (hreach : ∀ c, Reach M (fun c a => ok c a ∧ Q c a) c₀ c → P c)
    (hstep : ∀ c a c', Reach M ok c₀ c → ok c a → M.step c a = some c' → P c → P c' → Q c a) :
    ((∀ x ∈ tr, P x.1) ∧ P c) ↔ ∀ x ∈ tr, Q x.1 x.2 := by
  constructor
  · rintro ⟨htr, hc⟩
    exact h.forall_of_step hstep htr hc
  · intro htr
    obtain ⟨hr, hall⟩ := h.prefix_of_forall hreach htr
    exact ⟨hall, hreach c hr⟩

/-- **The budget rule.** A measure that no step increases and that every `work` step decreases
bounds the number of these steps, as long as an invariant holds. -/
theorem Trace.budget (h : Trace M ok c₀ tr c) (I : Config σ τ → Prop)
    (work : Config σ τ × Action ε α → Bool) (cost : Config σ τ → ℕ) (h₀ : I c₀)
    (hstep : ∀ c a c', Reach M ok c₀ c → ok c a → M.step c a = some c' → I c →
      I c' ∧ cost c' + (if work (c, a) then 1 else 0) ≤ cost c) :
    I c ∧ cost c + tr.countP work ≤ cost c₀ := by
  refine h.invariant (I := fun tr c => I c ∧ cost c + tr.countP work ≤ cost c₀)
    ⟨h₀, Nat.le_refl _⟩ ?_
  intro tr c a c' htr hok hs ⟨hi, hle⟩
  obtain ⟨hi', hcost⟩ := hstep c a c' htr.reach hok hs hi
  rw [List.countP_append, List.countP_singleton]
  exact ⟨hi', by omega⟩

end Interleaving
