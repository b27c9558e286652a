import Raknet.Lib.Interleaving

/-!
# Systems that simulate one another

Two systems over one shared state whose threads have different private states. Thread by thread a
step of the one is matched by steps of the other that do the same to the shared state.

* `Reach.mapThreads` — a map of private states under which a step becomes a step or nothing sends
  runs to runs.
* `Reach.matchThreads` — a relation of private states along which a step can be answered by a run
  of the same thread gives every run a counterpart.
-/

namespace Interleaving

variable {σ τ τ' ε α α' : Type*}

/-- Replace every thread's private state. -/
def Config.mapThreads (f : τ → τ') (c : Config σ τ) : Config σ τ' :=
  ⟨c.shared, fun i => f (c.thread i)⟩

@[simp] theorem Config.mapThreads_shared (f : τ → τ') (c : Config σ τ) :
    (c.mapThreads f).shared = c.shared := rfl

@[simp] theorem Config.mapThreads_thread (f : τ → τ') (c : Config σ τ) (i : ℕ) :
    (c.mapThreads f).thread i = f (c.thread i) := rfl

theorem Config.mapThreads_move (f : τ → τ') (c : Config σ τ) (i : ℕ) (r : σ × τ) :
    (c.move i r).mapThreads f = (c.mapThreads f).move i (r.1, f r.2) := by
  ext j
  · rfl
  · by_cases hj : j = i <;> simp [Config.move_thread, hj]

theorem Config.move_move (c : Config σ τ) (i : ℕ) (r r' : σ × τ) :
    (c.move i r).move i r' = c.move i r' := by
  ext j
  · rfl
  · by_cases hj : j = i <;> simp [Config.move_thread, hj]

theorem Config.move_eq_self (c : Config σ τ) (i : ℕ) : c.move i (c.shared, c.thread i) = c := by
  ext j
  · rfl
  · by_cases hj : j = i <;> simp [Config.move_thread, hj]

/-- A step that leaves the thread where it is. -/
theorem Config.move_thread_same (c : Config σ τ) (i : ℕ) (s : σ) :
    c.move i (s, c.thread i) = { c with shared := s } := by
  ext j
  · rfl
  · by_cases hj : j = i <;> simp [Config.move_thread, hj]

/-! ## Steps of one thread -/

/-- Thread `i` goes from one state to another by steps of its own, all of them `ok`. -/
inductive Runs (M : System σ τ ε α) (ok : ℕ → σ → τ → α → Prop) (i : ℕ) :
    σ → τ → σ → τ → Prop
  | done {s : σ} {t : τ} : Runs M ok i s t s t
  | step {s s₁ s' : σ} {t t₁ t' : τ} {x : α} (hok : ok i s t x)
      (h : M.thread i x s t = some (s₁, t₁))
      (hrest : Runs M ok i s₁ t₁ s' t') : Runs M ok i s t s' t'

variable {M : System σ τ ε α} {N : System σ τ' ε α'} {ok : Config σ τ → Action ε α → Prop}
  {c₀ c : Config σ τ} {i : ℕ} {s s' : σ} {t t' : τ}

theorem Runs.one {okT : ℕ → σ → τ → α → Prop} {x : α} (hok : okT i s t x)
    (h : M.thread i x s t = some (s', t')) : Runs M okT i s t s' t' :=
  .step hok h .done

/-- The steps of one thread are steps of the system. -/
theorem Runs.reach {okT : ℕ → σ → τ → α → Prop}
    (h : Runs M okT i s t s' t') (hs : c.shared = s) (ht : c.thread i = t)
    (hok : ∀ d x, okT i d.shared (d.thread i) x → ok d (.thread i x)) :
    Reach M ok c (c.move i (s', t')) := by
  induction h generalizing c with
  | done =>
    subst hs ht
    rw [Config.move_eq_self]
    exact .start
  | @step s s₁ s' t t₁ t' x hokx hstep hrest ih =>
    subst hs ht
    have hfirst : Reach M ok c (c.move i (s₁, t₁)) := by
      apply Reach.single (hok c x hokx)
      simp [System.step, hstep]
    have hlast := ih (c := c.move i (s₁, t₁)) rfl (by simp)
    rw [Config.move_move] at hlast
    exact hfirst.trans hlast

/-! ## Simulations -/

/-- **A map of private states** under which every step of a thread becomes a step or nothing. -/
theorem Reach.mapThreads (f : τ → τ') (h : Reach M ok c₀ c)
    (hshared : ∀ e s, N.shared e s = M.shared e s)
    (hthread : ∀ c i x s t, Reach M ok c₀ c → ok c (.thread i x) →
      M.thread i x c.shared (c.thread i) = some (s, t) →
      s = c.shared ∧ f t = f (c.thread i) ∨
        ∃ y, N.thread i y c.shared (f (c.thread i)) = some (s, f t)) :
    Reach N anyStep (c₀.mapThreads f) (c.mapThreads f) := by
  refine h.map (Config.mapThreads f) ?_
  intro c a c' hr hok hstep
  rcases System.step_cases hstep with ⟨e, s, rfl, hs, rfl⟩ | ⟨i, x, s, t, rfl, hs, rfl⟩
  · right
    exact ⟨.shared e, trivial, by simp [System.step, hshared, hs]; rfl⟩
  · rcases hthread c i x s t hr hok hs with ⟨rfl, ht⟩ | ⟨y, hy⟩
    · left
      rw [Config.mapThreads_move]
      simp only [ht]
      exact Config.move_eq_self _ i
    · right
      exact ⟨.thread i y, trivial, by simp [System.step, hy, Config.mapThreads_move]⟩

/-- **A relation of private states** along which every step of a thread is answered by a run of
that thread. -/
theorem Reach.matchThreads (h : Reach M ok c₀ c) (r : τ → τ' → Prop)
    (okN : Config σ τ' → Action ε α' → Prop) (okT : ℕ → σ → τ' → α' → Prop) (d₀ : Config σ τ')
    (hs₀ : c₀.shared = d₀.shared) (hr₀ : ∀ i, r (c₀.thread i) (d₀.thread i))
    (hshared : ∀ e s, N.shared e s = M.shared e s) (hokS : ∀ d e, okN d (.shared e))
    (hokT : ∀ d i x, okT i d.shared (d.thread i) x → okN d (.thread i x))
    (hthread : ∀ i x s t s' t' u, M.thread i x s t = some (s', t') → r t u →
      ∃ u', r t' u' ∧ Runs N okT i s u s' u') :
    ∃ d, Reach N okN d₀ d ∧ c.shared = d.shared ∧ ∀ i, r (c.thread i) (d.thread i) := by
  induction h with
  | start => exact ⟨d₀, .start, hs₀, hr₀⟩
  | step _ _ hstep ih =>
    obtain ⟨d, hd, hsd, hrd⟩ := ih
    rcases System.step_cases hstep with ⟨e, s, rfl, hs, rfl⟩ | ⟨i, x, s, t, rfl, hs, rfl⟩
    · refine ⟨{ d with shared := s }, .step hd (hokS d e) ?_, rfl, hrd⟩
      simp [System.step, hshared, ← hsd, hs]
    · obtain ⟨u', hu', hruns⟩ := hthread i x _ _ s t _ hs (hrd i)
      refine ⟨d.move i (s, u'), hd.trans (hruns.reach hsd.symm rfl fun d x => hokT d i x), rfl, ?_⟩
      intro j
      by_cases hj : j = i
      · subst hj
        simpa using hu'
      · rw [Config.move_thread_of_ne _ _ hj, Config.move_thread_of_ne _ _ hj]
        exact hrd j

end Interleaving
