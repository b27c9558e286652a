import Mathlib.Data.List.Basic

/-!
# What an observer sees of a machine

A machine takes inputs one after the other. An observer sees its state through `view` and is
concerned by some of the inputs, of which it sees the `label`. If every input that concerns the
observer moves the view as `next` says, and every other input leaves the view alone, then the view
is a machine of its own.

**Theorem (`Projects.run`).** The view after a run is what `next` makes of the inputs that concern
the observer.

**Theorem (`Projects.noninterference`).** Two runs that agree on these inputs look the same.
-/

namespace Projection

variable {σ ι κ ω : Type*}

/-- The machine `step` projects to the machine `next`, as long as `inv` holds and the inputs are
`ok`. -/
structure Projects (step : σ → ι → σ) (inv : σ → Prop) (ok : ι → Prop) (view : σ → ω)
    (concerns : ι → Bool) (label : ι → κ) (next : ω → κ → ω) : Prop where
  keeps : ∀ s x, inv s → ok x → inv (step s x)
  moves : ∀ s x, inv s → ok x → concerns x = true → view (step s x) = next (view s) (label x)
  stays : ∀ s x, inv s → ok x → concerns x = false → view (step s x) = view s

variable {step : σ → ι → σ} {inv : σ → Prop} {ok : ι → Prop} {view : σ → ω} {concerns : ι → Bool}
  {label : ι → κ} {next : ω → κ → ω}

theorem Projects.run (h : Projects step inv ok view concerns label next) {s : σ} (hs : inv s)
    {l : List ι} (hl : ∀ x ∈ l, ok x) :
    view (l.foldl step s) = ((l.filter concerns).map label).foldl next (view s) := by
  induction l generalizing s with
  | nil => rfl
  | cons x l ih =>
    have hx : ok x := hl x List.mem_cons_self
    rw [List.foldl_cons, ih (h.keeps s x hs hx) fun y hy => hl y (List.mem_cons_of_mem x hy)]
    cases hc : concerns x with
    | true => simp [hc, h.moves s x hs hx hc]
    | false => simp [hc, h.stays s x hs hx hc]

/-- **Noninterference.** What does not concern the observer makes no difference to it. -/
theorem Projects.noninterference (h : Projects step inv ok view concerns label next) {s : σ}
    (hs : inv s) {l l' : List ι} (hl : ∀ x ∈ l, ok x) (hl' : ∀ x ∈ l', ok x)
    (hagree : (l.filter concerns).map label = (l'.filter concerns).map label) :
    view (l.foldl step s) = view (l'.foldl step s) := by
  rw [h.run hs hl, h.run hs hl', hagree]

end Projection
