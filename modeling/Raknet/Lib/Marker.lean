import Mathlib.Data.List.Basic
import Mathlib.Data.Set.Insert

/-!
# A queue with an end marker

Items are put at the end of a queue and taken from its head. Behind the last item a marker is put,
once. Whoever takes the marker holds it and later puts it back, for the next one to find.

**Theorem (`Step.inv`).** A marker that was put is there exactly once: behind everything in the
queue, or in the hands of one taker while the queue is empty.
-/

/-- The queue, with `none` for the marker, whether the marker was put, and who holds it. -/
@[ext] structure Marked (α ι : Type*) where
  queue : List (Option α)
  marked : Prop
  held : Set ι

namespace Marked

variable {α ι : Type*} {m m' : Marked α ι}

/-- The items in the queue. -/
def items (m : Marked α ι) : List α := m.queue.filterMap id

/-- What happens to the queue. -/
inductive Step (m : Marked α ι) : Marked α ι → Prop
  | skip : Step m m
  | put (x : α) (hmarked : ¬ m.marked) : Step m { m with queue := m.queue ++ [some x] }
  | mark (hmarked : ¬ m.marked) : Step m { m with queue := m.queue ++ [none], marked := True }
  | take (x : α) (rest : List (Option α)) (hqueue : m.queue = some x :: rest) :
      Step m { m with queue := rest }
  | takeMarker (i : ι) (rest : List (Option α)) (hqueue : m.queue = none :: rest) :
      Step m { m with queue := rest, held := insert i m.held }
  | putBack (i : ι) (hheld : i ∈ m.held) :
      Step m { m with queue := m.queue ++ [none], held := m.held \ {i} }

/-- Where the marker is. -/
structure Inv (m : Marked α ι) : Prop where
  unmarked : ¬ m.marked → (∃ l : List α, m.queue = l.map some) ∧ m.held = ∅
  marked : m.marked → (∃ l : List α, m.queue = l.map some ++ [none]) ∧ m.held = ∅ ∨
    m.queue = [] ∧ ∃ i, m.held = {i}

theorem inv_of_empty (hqueue : m.queue = []) (hmarked : ¬ m.marked) (hheld : m.held = ∅) :
    m.Inv :=
  ⟨fun _ => ⟨⟨[], hqueue⟩, hheld⟩, fun h => absurd h hmarked⟩

/-- Nobody takes the marker from a queue it is not in. -/
theorem map_some_ne_marker {l : List α} {rest : List (Option α)} :
    l.map some ≠ none :: rest := by
  cases l <;> simp

theorem Step.inv (h : Step m m') (hi : m.Inv) : m'.Inv := by
  cases h with
  | skip => exact hi
  | put x hmarked =>
    refine ⟨fun hm => ?_, fun hm => absurd hm hmarked⟩
    obtain ⟨⟨l, hl⟩, hheld⟩ := hi.unmarked hm
    exact ⟨⟨l ++ [x], by simp [hl]⟩, hheld⟩
  | mark hmarked =>
    refine ⟨fun hm => absurd trivial hm, fun _ => Or.inl ?_⟩
    obtain ⟨⟨l, hl⟩, hheld⟩ := hi.unmarked hmarked
    exact ⟨⟨l, by simp [hl]⟩, hheld⟩
  | take x rest hqueue =>
    refine ⟨fun hm => ?_, fun hm => ?_⟩
    · obtain ⟨⟨l, hl⟩, hheld⟩ := hi.unmarked hm
      rw [hqueue] at hl
      cases l with
      | nil => cases hl
      | cons y l =>
        obtain ⟨-, hrest⟩ := List.cons.inj hl
        exact ⟨⟨l, hrest⟩, hheld⟩
    · rcases hi.marked hm with ⟨⟨l, hl⟩, hheld⟩ | ⟨hnil, -⟩
      · rw [hqueue] at hl
        cases l with
        | nil => cases hl
        | cons y l =>
          obtain ⟨-, hrest⟩ := List.cons.inj hl
          exact Or.inl ⟨⟨l, hrest⟩, hheld⟩
      · rw [hqueue] at hnil
        cases hnil
  | takeMarker i rest hqueue =>
    refine ⟨fun hm => ?_, fun hm => ?_⟩
    · obtain ⟨⟨l, hl⟩, -⟩ := hi.unmarked hm
      exact absurd (hl.symm.trans hqueue) map_some_ne_marker
    · rcases hi.marked hm with ⟨⟨l, hl⟩, hheld⟩ | ⟨hnil, -⟩
      · rw [hqueue] at hl
        cases l with
        | nil =>
          obtain ⟨-, hrest⟩ := List.cons.inj hl
          exact Or.inr ⟨hrest, i, by simp [hheld]⟩
        | cons y l => cases hl
      · rw [hqueue] at hnil
        cases hnil
  | putBack i hheld =>
    refine ⟨fun hm => ?_, fun hm => ?_⟩
    · rw [(hi.unmarked hm).2] at hheld
      exact absurd hheld (Set.notMem_empty i)
    · rcases hi.marked hm with ⟨-, hempty⟩ | ⟨hnil, j, hj⟩
      · rw [hempty] at hheld
        exact absurd hheld (Set.notMem_empty i)
      · rw [hj, Set.mem_singleton_iff] at hheld
        refine Or.inl ⟨⟨[], by simp [hnil]⟩, ?_⟩
        rw [hj, hheld]
        ext x
        simp

/-- The marker is found or held only after it was put. -/
theorem Inv.marked_of_mem (hi : m.Inv) (h : none ∈ m.queue ∨ ∃ i, i ∈ m.held) : m.marked := by
  by_contra hm
  obtain ⟨⟨l, hl⟩, hheld⟩ := hi.unmarked hm
  rcases h with h | ⟨i, h⟩
  · simp [hl] at h
  · simp [hheld] at h

/-- Nobody looks for the marker in vain: if the queue is empty, somebody holds it. -/
theorem Inv.exists_held (hi : m.Inv) (hmarked : m.marked) (hqueue : m.queue = []) :
    ∃ i, m.held = {i} := by
  rcases hi.marked hmarked with ⟨⟨l, hl⟩, -⟩ | ⟨-, hheld⟩
  · simp [hqueue] at hl
  · exact hheld

end Marked
