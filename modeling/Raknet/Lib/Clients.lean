import Mathlib.Data.List.Basic
import Mathlib.Data.Nat.Pairing
import Raknet.Lib.Interleaving

/-!
# Clients that make one call after another

In a system of calls every thread is one call. A client is a program that makes calls one after the
other: between two of them it takes steps of its own, for which it sees how its last call ended and
what the clients share. The `n`th call of client `i` is thread `Nat.pair i n` of the system of
calls.

* `System.clients` — the clients of a system of calls, given what their code does (`Program`).
* `Reach.calls` — the calls of the clients are a run of the system of calls. What holds of calls
  that interleave in any way holds of those of the clients.
-/

namespace Interleaving

variable {σ τ ε α ω π β : Type*}

/-- A client: where it is in its own code, the calls it has made before, and its latest call. -/
structure Client (π τ : Type*) where
  place : π
  past : List τ
  call : τ

/-- What the code of the clients does. `ω` is what the clients share beside the calls. -/
structure Program (τ α ω π β : Type*) where
  /-- The code is in a call that may take the step. -/
  allows : π → α → Bool
  /-- A step of the client's own: what is shared then, where the client is then, and whether it
  begins another call. -/
  own : ℕ → β → ω → π → τ → Option (ω × π × Bool)

/-- The clients of a system of calls. -/
def System.clients (M : System σ τ ε α) (P : Program τ α ω π β) (idle : τ) :
    System (σ × ω) (Client π τ) ε (α ⊕ β) where
  shared e s := (M.shared e s.1).map (·, s.2)
  thread i x s c :=
    match x with
    | .inl a =>
      if P.allows c.place a then
        (M.thread (Nat.pair i c.past.length) a s.1 c.call).map fun r =>
          ((r.1, s.2), { c with call := r.2 })
      else none
    | .inr b => (P.own i b s.2 c.place c.call).map fun
      | (w, p, true) => ((s.1, w), ⟨p, c.past ++ [c.call], idle⟩)
      | (w, p, false) => ((s.1, w), { c with place := p })

/-- The `n`th call of the client. -/
def Client.nth (idle : τ) (c : Client π τ) (n : ℕ) : τ :=
  if h : n < c.past.length then c.past[n] else if n = c.past.length then c.call else idle

/-- The calls of the clients. -/
def Config.calls (idle : τ) (c : Config (σ × ω) (Client π τ)) : Config σ τ :=
  ⟨c.shared.1, fun n => (c.thread n.unpair.1).nth idle n.unpair.2⟩

section

variable {idle : τ}

@[simp] theorem Config.calls_shared (c : Config (σ × ω) (Client π τ)) :
    (c.calls idle).shared = c.shared.1 := rfl

@[simp] theorem Config.calls_thread (c : Config (σ × ω) (Client π τ)) (i n : ℕ) :
    (c.calls idle).thread (Nat.pair i n) = (c.thread i).nth idle n := by
  simp [Config.calls]

theorem Config.calls_init (s : σ) (w : ω) (p : ℕ → π) :
    Config.calls idle ⟨(s, w), fun i => ⟨p i, [], idle⟩⟩ = ⟨s, fun _ => idle⟩ := by
  refine Config.ext rfl (funext fun n => ?_)
  simp [Config.calls, Client.nth]

theorem Client.nth_call (c : Client π τ) : c.nth idle c.past.length = c.call := by
  simp [Client.nth]

theorem Client.nth_past (c : Client π τ) {n : ℕ} (hn : n < c.past.length) :
    c.nth idle n = c.past[n] :=
  dif_pos hn

theorem Client.exists_nth (idle : τ) {c : Client π τ} {t : τ} (h : t ∈ c.past) :
    ∃ n, n < c.past.length ∧ c.nth idle n = t := by
  obtain ⟨n, hn, rfl⟩ := List.mem_iff_getElem.mp h
  exact ⟨n, hn, c.nth_past hn⟩

theorem Client.nth_set (c : Client π τ) (t : τ) (n : ℕ) :
    Client.nth idle { c with call := t } n = if n = c.past.length then t else c.nth idle n := by
  unfold Client.nth
  by_cases hlt : n < c.past.length
  · simp [hlt, Nat.ne_of_lt hlt]
  · by_cases heq : n = c.past.length <;> simp [heq]

theorem Client.nth_begin (c : Client π τ) (p : π) (n : ℕ) :
    Client.nth idle ⟨p, c.past ++ [c.call], idle⟩ n = c.nth idle n := by
  unfold Client.nth
  simp only [List.length_append, List.length_singleton]
  by_cases hlt : n < c.past.length
  · simp [hlt, Nat.lt_succ_of_lt hlt]
  · by_cases heq : n = c.past.length
    · simp [heq]
    · have hgt : ¬ n < c.past.length + 1 := by omega
      simp [hlt, heq, hgt]

end

variable {M : System σ τ ε α} {P : Program τ α ω π β} {idle : τ}
  {ok : Config (σ × ω) (Client π τ) → Action ε (α ⊕ β) → Prop}
  {c₀ c c' : Config (σ × ω) (Client π τ)} {a : Action ε (α ⊕ β)}

/-- A step of a client's latest call, or of its own. -/
theorem clients_cases {i : ℕ} {x : α ⊕ β} {s s' : σ × ω} {t t' : Client π τ}
    (h : (M.clients P idle).thread i x s t = some (s', t')) :
    (∃ a r, x = .inl a ∧ P.allows t.place a = true ∧
      M.thread (Nat.pair i t.past.length) a s.1 t.call = some (s'.1, r) ∧ s'.2 = s.2 ∧
      t' = { t with call := r }) ∨
    ∃ b w p more, x = .inr b ∧ P.own i b s.2 t.place t.call = some (w, p, more) ∧ s' = (s.1, w) ∧
      t' = if more then ⟨p, t.past ++ [t.call], idle⟩ else { t with place := p } := by
  cases x with
  | inl a =>
    simp only [System.clients] at h
    split_ifs at h with hallow
    obtain ⟨⟨s₁, r⟩, hr, heq⟩ := Option.map_eq_some_iff.mp h
    cases heq
    exact Or.inl ⟨a, r, rfl, hallow, hr, rfl, rfl⟩
  | inr b =>
    obtain ⟨⟨w, p, more⟩, hown, heq⟩ := Option.map_eq_some_iff.mp h
    refine Or.inr ⟨b, w, p, more, rfl, hown, ?_⟩
    cases more <;> cases heq <;> exact ⟨rfl, rfl⟩

/-- A client's latest call may take the steps that its place allows. -/
theorem clients_call {i : ℕ} {a : α} {r : σ × τ} (hallow : P.allows (c.thread i).place a = true)
    (h : M.thread (Nat.pair i (c.thread i).past.length) a c.shared.1 (c.thread i).call = some r) :
    ∃ c', (M.clients P idle).step c (.thread i (.inl a)) = some c' := by
  simp [System.step, System.clients, hallow, h]

theorem clients_own {i : ℕ} {b : β} {r : ω × π × Bool}
    (h : P.own i b c.shared.2 (c.thread i).place (c.thread i).call = some r) :
    ∃ c', (M.clients P idle).step c (.thread i (.inr b)) = some c' := by
  simp [System.step, System.clients, h]

theorem clients_shared {e : ε} {s : σ} (h : M.shared e c.shared.1 = some s) :
    ∃ c', (M.clients P idle).step c (.shared e) = some c' := by
  simp [System.step, System.clients, h]

theorem clients_step (h : (M.clients P idle).step c a = some c') :
    c'.calls idle = c.calls idle ∨ ∃ b, M.step (c.calls idle) b = some (c'.calls idle) := by
  rcases System.step_cases h with ⟨e, s, rfl, he, rfl⟩ | ⟨i, x, s, t, rfl, hx, rfl⟩
  · right
    obtain ⟨s₁, hs, rfl⟩ := Option.map_eq_some_iff.mp he
    exact ⟨.shared e, by simp only [System.step, Config.calls_shared, hs]; rfl⟩
  · rcases clients_cases hx with ⟨a, r, rfl, -, hr, -, rfl⟩ | ⟨b, w, p, more, rfl, -, rfl, rfl⟩
    · right
      refine ⟨.thread (Nat.pair i (c.thread i).past.length) a, ?_⟩
      simp only [System.step, Config.calls_thread, Client.nth_call, Config.calls_shared, hr]
      refine congrArg some (Config.ext rfl (funext fun n => ?_))
      show _ = Client.nth idle _ _
      rw [Config.move_thread, Config.move_thread]
      by_cases hi : n.unpair.1 = i
      · rw [if_pos hi, Client.nth_set]
        by_cases hn : n.unpair.2 = (c.thread i).past.length
        · rw [if_pos hn, if_pos]
          rw [← hn, ← hi]
          exact (Nat.pair_unpair n).symm
        · rw [if_neg hn, if_neg, ← hi]
          · rfl
          · rintro rfl
            simp at hn
      · rw [if_neg hi, if_neg]
        · rfl
        · rintro rfl
          simp at hi
    · left
      refine Config.ext rfl (funext fun n => ?_)
      show Client.nth idle _ _ = Client.nth idle _ _
      rw [Config.move_thread]
      by_cases hi : n.unpair.1 = i
      · rw [if_pos hi, hi]
        cases more
        · rfl
        · exact Client.nth_begin _ _ _
      · rw [if_neg hi]

/-- **The calls of the clients are a run of the system of calls.** -/
theorem Reach.calls (h : Reach (M.clients P idle) ok c₀ c) :
    Reach M anyStep (c₀.calls idle) (c.calls idle) := by
  refine h.map (Config.calls idle) ?_
  intro c a c' _ _ hs
  exact (clients_step hs).imp id fun ⟨b, hb⟩ => ⟨b, trivial, hb⟩

end Interleaving
