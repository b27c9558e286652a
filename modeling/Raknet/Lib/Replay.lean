import Mathlib.Data.List.Induction
import Raknet.Lib.Interleaving

/-!
# Histories of a sequential object

A sequential object is a partial function `play`: what an event does to the object, if the object
can show that event. A history is a list of events, and `replay` plays it from a first state.

**Theorem (`Reach.replays`).** If every step of a concurrent system records nothing, or one event
that the object can show in the related state, then every recorded history is one of the object's.
-/

namespace Interleaving

variable {μ η : Type*} {play : μ → η → Option μ}

/-- Play a history, oldest event first. -/
def replay (play : μ → η → Option μ) (m : μ) (l : List η) : Option μ := l.foldlM play m

@[simp] theorem replay_nil (m : μ) : replay play m [] = some m := rfl

theorem replay_cons (m : μ) (e : η) (l : List η) :
    replay play m (e :: l) = (play m e).bind fun m' => replay play m' l := rfl

/-- A history can be cut anywhere. -/
theorem replay_append {m m' : μ} {l l' : List η} :
    replay play m (l ++ l') = some m' ↔
      ∃ n, replay play m l = some n ∧ replay play n l' = some m' := by
  simp [replay, List.foldlM_append, Option.bind_eq_some_iff]

theorem replay_concat {m m' : μ} {l : List η} {e : η} :
    replay play m (l ++ [e]) = some m' ↔ ∃ n, replay play m l = some n ∧ play n e = some m' := by
  rw [replay_append]
  simp [replay]

/-- **The invariant rule** for what holds of an object and the history that led there. -/
theorem replay_invariant {I : List η → μ → Prop} {m₀ m : μ} {l : List η}
    (h : replay play m₀ l = some m) (h₀ : I [] m₀)
    (hstep : ∀ l m e m', replay play m₀ l = some m → play m e = some m' → I l m →
      I (l ++ [e]) m') : I l m := by
  induction l using List.reverseRecOn generalizing m with
  | nil =>
    cases h
    exact h₀
  | append_singleton l e ih =>
    obtain ⟨n, hn, hplay⟩ := replay_concat.mp h
    exact hstep l n e m hn hplay (ih hn)

variable {σ τ ε α : Type*} {M : System σ τ ε α} {ok : Config σ τ → Action ε α → Prop}
  {c₀ c : Config σ τ}

/-- **The simulation rule.** `log` is what was recorded, and `R` relates the object's states to the
configurations. -/
theorem Reach.replays (log : Config σ τ → List η) {R : μ → Config σ τ → Prop} {m₀ : μ}
    (h : Reach M ok c₀ c) (hlog : log c₀ = []) (h₀ : R m₀ c₀)
    (hstep : ∀ c a c' m, Reach M ok c₀ c → ok c a → M.step c a = some c' → R m c →
      log c' = log c ∧ R m c' ∨
        ∃ e m', log c' = log c ++ [e] ∧ play m e = some m' ∧ R m' c') :
    ∃ m, replay play m₀ (log c) = some m ∧ R m c := by
  refine h.invariant (I := fun c => ∃ m, replay play m₀ (log c) = some m ∧ R m c)
    ⟨m₀, by rw [hlog, replay_nil], h₀⟩ ?_
  rintro c a c' hr hok hs ⟨m, hm, hR⟩
  rcases hstep c a c' m hr hok hs hR with ⟨hsame, hR'⟩ | ⟨e, m', hmore, hplay, hR'⟩
  · exact ⟨m, by rw [hsame, hm], hR'⟩
  · exact ⟨m', by rw [hmore, replay_concat]; exact ⟨m, hm, hplay⟩, hR'⟩

end Interleaving
