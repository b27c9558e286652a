import Raknet.Lib.Dict

/-!
# Requests handed over through a table

Requests `ι` wait in a table under keys `κ` until somebody takes them out and gives them an
outcome `ω`. There are two takers: a worker that takes one request at a time, and a closer that
empties the whole table once and then serves what it took, one after the other. A request's event
is set when its outcome is final. Anybody may drop an entry, and a new entry replaces an old one
under the same key.

`entered`, `taken` and `resolved` are histories: the requests that entered the table, were taken
by a taker, and had their event set, in order.

**Theorem (`Step.inv`).** Nothing enters, is taken or is resolved twice; what was resolved has a
settled outcome.

**Theorem (`Step.grows`).** What left the table does not come back, and nothing about a resolved
request changes.

**Theorem (`Step.tracked`).** A request is lost only when its entry is dropped or replaced.

**Theorem (`Step.accounted`).** What a taker took is resolved or still in its hands.
-/

namespace Handoff

variable {κ ι ω : Type*} [DecidableEq κ]

/-- The table, what the two takers hold, and the requests themselves. `held` is the worker's
request, with whether its outcome is written; `swept` is what the closer took and has not
touched; `inHand` is the request whose outcome the closer has written. -/
@[ext] structure Board (κ ι ω : Type*) where
  closed : Bool
  table : Dict κ ι
  held : Option (ι × Bool)
  swept : List ι
  inHand : Option ι
  event : ι → Bool
  outcome : ι → ω
  entered : List ι
  taken : List ι
  resolved : List ι

namespace Board

/-- An entry of the table. -/
def Listed (b : Board κ ι ω) (i : ι) : Prop := ∃ k, b.table.get? k = some i

/-- Waiting under the key `k`, in the hands of a taker, or resolved. -/
def Tracked (b : Board κ ι ω) (k : κ) (i : ι) : Prop :=
  b.event i = true ∨ b.table.get? k = some i ∨ b.held.map Prod.fst = some i ∨ i ∈ b.swept ∨
    b.inHand = some i

/-! ## Invariants -/

/-- Where every request is: in one place at most, and on its way from the table to its event. -/
structure Placed (b : Board κ ι ω) : Prop where
  table_inj : ∀ k k' i, b.table.get? k = some i → b.table.get? k' = some i → k = k'
  listed : ∀ k i, b.table.get? k = some i → i ∈ b.entered ∧ i ∉ b.taken
  held : ∀ i w, b.held = some (i, w) →
    i ∈ b.taken ∧ i ∉ b.resolved ∧ i ∉ b.swept ∧ b.inHand ≠ some i
  swept : ∀ i ∈ b.swept, i ∈ b.taken ∧ i ∉ b.resolved ∧ b.inHand ≠ some i
  inHand : ∀ i, b.inHand = some i → i ∈ b.taken ∧ i ∉ b.resolved
  opened : b.closed = false → b.swept = [] ∧ b.inHand = none
  taken_entered : ∀ i ∈ b.taken, i ∈ b.entered
  resolved_taken : ∀ i ∈ b.resolved, i ∈ b.taken
  swept_nodup : b.swept.Nodup
  entered_nodup : b.entered.Nodup
  taken_nodup : b.taken.Nodup
  resolved_nodup : b.resolved.Nodup

/-- What the place of a request says about its event and its outcome: `blank` says that an outcome
is unwritten, `settled` that it is final. The latter may depend on whether the board is closed. -/
structure Inv (blank : ω → Prop) (settled : Bool → ω → Prop) (b : Board κ ι ω) : Prop
    extends Placed b where
  mem_resolved : ∀ i, i ∈ b.resolved ↔ b.event i = true
  blank_untaken : ∀ i, i ∉ b.taken → blank (b.outcome i)
  blank_held : ∀ i, b.held = some (i, false) → blank (b.outcome i)
  blank_swept : ∀ i ∈ b.swept, blank (b.outcome i)
  settled_held : ∀ i, b.held = some (i, true) → settled b.closed (b.outcome i)
  settled_inHand : ∀ i, b.inHand = some i → settled b.closed (b.outcome i)
  settled_resolved : ∀ i ∈ b.resolved, settled b.closed (b.outcome i)

/-- Nothing happens twice to a request: it enters the table once, one taker takes it out of the
table, and only what was taken is resolved, once. -/
structure Once (b : Board κ ι ω) : Prop where
  entered : b.entered.Nodup
  taken : b.taken.Nodup
  resolved : b.resolved.Nodup
  taken_entered : ∀ i ∈ b.taken, i ∈ b.entered ∧ ¬ b.Listed i
  resolved_taken : ∀ i ∈ b.resolved, i ∈ b.taken
  mem_resolved : ∀ i, i ∈ b.resolved ↔ b.event i = true

/-- What the past leaves behind: a request that left the table does not come back, if no taker took
it then none will, and a resolved request stays as it is. -/
structure Grows (b b' : Board κ ι ω) : Prop where
  entered : b.entered <+: b'.entered
  taken : b.taken <+: b'.taken
  left : ∀ i ∈ b.entered, ¬ b.Listed i → ¬ b'.Listed i
  lost : ∀ i ∈ b.entered, ¬ b.Listed i → i ∉ b.taken → i ∉ b'.taken
  event : ∀ i, b.event i = true → b'.event i = true ∧ b'.outcome i = b.outcome i

variable {blank : ω → Prop} {settled : Bool → ω → Prop} {b b' b'' : Board κ ι ω}

theorem Grows.refl (b : Board κ ι ω) : Grows b b :=
  ⟨List.prefix_rfl, List.prefix_rfl, fun _ _ h => h, fun _ _ _ h => h, fun _ h => ⟨h, rfl⟩⟩

theorem Grows.trans (h : Grows b b') (h' : Grows b' b'') : Grows b b'' where
  entered := h.entered.trans h'.entered
  taken := h.taken.trans h'.taken
  left i hi hl := h'.left i (h.entered.subset hi) (h.left i hi hl)
  lost i hi hl ht := h'.lost i (h.entered.subset hi) (h.left i hi hl) (h.lost i hi hl ht)
  event i hi := ⟨(h'.event i (h.event i hi).1).1,
    (h'.event i (h.event i hi).1).2.trans (h.event i hi).2⟩

theorem Inv.once (hi : b.Inv blank settled) : b.Once where
  entered := hi.entered_nodup
  taken := hi.taken_nodup
  resolved := hi.resolved_nodup
  taken_entered i hti := ⟨hi.taken_entered i hti, fun ⟨k, hk⟩ => (hi.listed k i hk).2 hti⟩
  resolved_taken := hi.resolved_taken
  mem_resolved := hi.mem_resolved

theorem Inv.event_of_not_entered (hi : b.Inv blank settled) {i : ι} (h : i ∉ b.entered) :
    b.event i = false := by
  by_contra hev
  exact h (hi.taken_entered i (hi.resolved_taken i ((hi.mem_resolved i).mpr (by simpa using hev))))

theorem inv_of_empty (htable : b.table = .empty) (hheld : b.held = none) (hswept : b.swept = [])
    (hhand : b.inHand = none) (hevent : ∀ i, b.event i = false) (hblank : ∀ i, blank (b.outcome i))
    (hentered : b.entered = []) (htaken : b.taken = []) (hresolved : b.resolved = []) :
    b.Inv blank settled := by
  refine ⟨?_, ?_, ?_, ?_, ?_, ?_, ?_, ?_⟩
  · constructor <;> simp [*]
  all_goals simp [*]

/-! ## What the steps keep -/

theorem Placed.enter (hi : b.Placed) {k : κ} {i : ι} (hnew : i ∉ b.entered) :
    Placed { b with table := b.table.set k i, entered := b.entered ++ [i] } where
  __ := hi
  table_inj k₁ k₂ j h₁ h₂ := by
    have hfresh : ∀ k', b.table.get? k' ≠ some i := fun k' h => hnew (hi.listed k' i h).1
    have hinj := hi.table_inj k₁ k₂ j
    simp only [Dict.get?_set] at h₁ h₂
    grind
  listed k' j h := by
    have hold := hi.listed k' j
    simp only [Dict.get?_set] at h
    have hun : i ∉ b.taken := fun hi' => hnew (hi.taken_entered i hi')
    grind
  taken_entered j hj := List.mem_append_left _ (hi.taken_entered j hj)
  entered_nodup := List.nodup_append.mpr
    ⟨hi.entered_nodup, List.nodup_singleton i, fun x hx y hy => by
      rw [List.mem_singleton.mp hy]
      exact fun h => hnew (h ▸ hx)⟩

theorem Placed.drop (hi : b.Placed) (k : κ) : Placed { b with table := b.table.erase k } where
  __ := hi
  table_inj k₁ k₂ j h₁ h₂ := by
    have hinj := hi.table_inj k₁ k₂ j
    simp only [Dict.get?_erase] at h₁ h₂
    grind
  listed k' j h := by
    have hold := hi.listed k' j
    simp only [Dict.get?_erase] at h
    grind

theorem Placed.take (hi : b.Placed) {k : κ} {i : ι} (hget : b.table.get? k = some i) :
    Placed
      { b with table := b.table.erase k, held := some (i, false), taken := b.taken ++ [i] } := by
  obtain ⟨hentered, huntaken⟩ := hi.listed k i hget
  have hnot : i ∉ b.resolved := fun h => huntaken (hi.resolved_taken i h)
  exact
    { hi.drop k with
      listed := fun k' j h => by
        obtain ⟨hj, hj'⟩ := (hi.drop k).listed k' j h
        have hne : j ≠ i := by
          rintro rfl
          simp only [Dict.get?_erase] at h
          split_ifs at h with hk
          exact hk (hi.table_inj _ _ _ h hget)
        exact ⟨hj, by simpa [hne] using hj'⟩
      held := fun j w h => by
        cases h
        exact ⟨by simp, hnot, fun h => huntaken (hi.swept i h).1,
          fun h => huntaken (hi.inHand i h).1⟩
      swept := fun j hj => ⟨List.mem_append_left _ (hi.swept j hj).1, (hi.swept j hj).2⟩
      inHand := fun j hj => ⟨List.mem_append_left _ (hi.inHand j hj).1, (hi.inHand j hj).2⟩
      taken_entered := fun j hj => by
        rcases List.mem_append.mp hj with hj | hj
        · exact hi.taken_entered j hj
        · rwa [List.mem_singleton.mp hj]
      resolved_taken := fun j hj => List.mem_append_left _ (hi.resolved_taken j hj)
      taken_nodup := List.nodup_append.mpr
        ⟨hi.taken_nodup, List.nodup_singleton i, fun x hx y hy => by
          rw [List.mem_singleton.mp hy]
          exact fun h => huntaken (h ▸ hx)⟩ }

theorem Placed.sweep (hi : b.Placed) (hopen : b.closed = false) :
    Placed { b with
      closed := true, table := (.empty : Dict κ ι), swept := b.table.values
      taken := b.taken ++ b.table.values } := by
  obtain ⟨hswept, hhand⟩ := hi.opened hopen
  have hvalue : ∀ j, j ∈ b.table.values → j ∈ b.entered ∧ j ∉ b.taken := fun j hj => by
    obtain ⟨k, hk⟩ := Dict.mem_values.mp hj
    exact hi.listed k j hk
  exact
    { hi with
      table_inj := fun _ _ _ h => by simp at h
      listed := fun _ _ h => by simp at h
      held := fun j w h => by
        obtain ⟨h1, h2, -, h4⟩ := hi.held j w h
        exact ⟨List.mem_append_left _ h1, h2, fun hj => (hvalue j hj).2 h1, h4⟩
      swept := fun j hj => ⟨List.mem_append_right _ hj,
        fun h => (hvalue j hj).2 (hi.resolved_taken j h), by simp [hhand]⟩
      inHand := fun j hj => by simp [hhand] at hj
      opened := fun h => by simp at h
      taken_entered := fun j hj => (List.mem_append.mp hj).elim (hi.taken_entered j) fun h =>
        (hvalue j h).1
      resolved_taken := fun j hj => List.mem_append_left _ (hi.resolved_taken j hj)
      swept_nodup := Dict.values_nodup hi.table_inj
      taken_nodup := List.nodup_append.mpr
        ⟨hi.taken_nodup, Dict.values_nodup hi.table_inj, fun x hx y hy h =>
          (hvalue y hy).2 (h ▸ hx)⟩ }

theorem Placed.resolve (hi : b.Placed) {i : ι} (htaken : i ∈ b.taken) (hnew : i ∉ b.resolved)
    {held : Option (ι × Bool)} {swept : List ι} {hand : Option ι} {event : ι → Bool}
    (hheld : ∀ j w, held = some (j, w) → b.held = some (j, w) ∧ j ≠ i)
    (hswept : ∀ j ∈ swept, j ∈ b.swept ∧ j ≠ i) (hnodup : swept.Nodup)
    (hhand : ∀ j, hand = some j → b.inHand = some j ∧ j ≠ i)
    (hopened : b.closed = false → swept = [] ∧ hand = none) :
    Placed { b with
      held := held, swept := swept, inHand := hand, event := event
      resolved := b.resolved ++ [i] } where
  __ := hi
  held j w h := by
    obtain ⟨hj, hne⟩ := hheld j w h
    obtain ⟨h1, h2, h3, h4⟩ := hi.held j w hj
    exact ⟨h1, by simp [h2, hne], fun h => h3 (hswept j h).1, fun h => h4 (hhand j h).1⟩
  swept j hj := by
    obtain ⟨hj', hne⟩ := hswept j hj
    obtain ⟨h1, h2, h3⟩ := hi.swept j hj'
    exact ⟨h1, by simp [h2, hne], fun h => h3 (hhand j h).1⟩
  inHand j hj := by
    obtain ⟨hj', hne⟩ := hhand j hj
    exact ⟨(hi.inHand j hj').1, by simp [(hi.inHand j hj').2, hne]⟩
  opened := hopened
  resolved_taken j hj := by
    rcases List.mem_append.mp hj with hj | hj
    · exact hi.resolved_taken j hj
    · rwa [List.mem_singleton.mp hj]
  swept_nodup := hnodup
  resolved_nodup := List.nodup_append.mpr
    ⟨hi.resolved_nodup, List.nodup_singleton i, fun x hx y hy => by
      rw [List.mem_singleton.mp hy]
      exact fun h => hnew (h ▸ hx)⟩

theorem Inv.settled_set (hi : b.Inv blank settled) {i : ι} (ho : settled b.closed (b.outcome i)) :
    ∀ j ∈ b.resolved ++ [i], settled b.closed (b.outcome j) := by
  intro j hj
  rcases List.mem_append.mp hj with hj | hj
  · exact hi.settled_resolved j hj
  · rwa [List.mem_singleton.mp hj]

theorem Grows.of_table (htable : b'.table = b.table) (hentered : b'.entered = b.entered)
    (htaken : b'.taken = b.taken)
    (hevent : ∀ i, b.event i = true → b'.event i = true ∧ b'.outcome i = b.outcome i) :
    Grows b b' where
  entered := by simp only [hentered, List.prefix_rfl]
  taken := by simp only [htaken, List.prefix_rfl]
  left i _ hl := by simpa only [Listed, htable] using hl
  lost i _ _ ht := by rwa [htaken]
  event := hevent

/-! ## Steps -/

variable [DecidableEq ι]

/-- What a user, the worker or the closer does to the board. -/
inductive Step (blank : ω → Prop) (settled : Bool → ω → Prop) (b : Board κ ι ω) :
    Board κ ι ω → Prop
  | skip : Step blank settled b b
  | renew (i : ι) (o : ω) (hnew : i ∉ b.entered) (ho : blank o) :
      Step blank settled b { b with outcome := Function.update b.outcome i o }
  | enter (k : κ) (i : ι) (hnew : i ∉ b.entered) (hopen : b.closed = false) :
      Step blank settled b { b with table := b.table.set k i, entered := b.entered ++ [i] }
  | drop (k : κ) : Step blank settled b { b with table := b.table.erase k }
  | take (k : κ) (i : ι) (hget : b.table.get? k = some i) (hfree : b.held = none) :
      Step blank settled b
        { b with table := b.table.erase k, held := some (i, false), taken := b.taken ++ [i] }
  | assign (i : ι) (o : ω) (hheld : b.held = some (i, false)) (ho : settled b.closed o) :
      Step blank settled b
        { b with held := some (i, true), outcome := Function.update b.outcome i o }
  | set (i : ι) (hheld : b.held = some (i, true)) :
      Step blank settled b
        { b with
          held := none
          event := Function.update b.event i true
          resolved := b.resolved ++ [i] }
  | sweep (hopen : b.closed = false) :
      Step blank settled b
        { b with
          closed := true
          table := .empty
          swept := b.table.values
          taken := b.taken ++ b.table.values }
  | grab (i : ι) (is : List ι) (o : ω) (hswept : b.swept = i :: is) (hfree : b.inHand = none)
      (ho : settled b.closed o) :
      Step blank settled b
        { b with swept := is, inHand := some i, outcome := Function.update b.outcome i o }
  | release (i : ι) (hhand : b.inHand = some i) :
      Step blank settled b
        { b with
          inHand := none
          event := Function.update b.event i true
          resolved := b.resolved ++ [i] }
  | resolve (i : ι) (is : List ι) (hswept : b.swept = i :: is)
      (ho : settled b.closed (b.outcome i)) :
      Step blank settled b
        { b with
          swept := is
          event := Function.update b.event i true
          resolved := b.resolved ++ [i] }

theorem Step.of_eq {b₁ : Board κ ι ω} (h : Step blank settled b b₁) (heq : b' = b₁) :
    Step blank settled b b' :=
  heq ▸ h

theorem Step.placed (h : Step blank settled b b') (hi : b.Placed) : b'.Placed := by
  cases h with
  | skip => exact hi
  | renew i o hnew ho => exact { hi with }
  | enter k i hnew hopen => exact hi.enter hnew
  | drop k => exact hi.drop k
  | take k i hget hfree => exact hi.take hget
  | assign i o hheld ho =>
    exact { hi with held := fun j w h => by cases h; exact hi.held i false hheld }
  | set i hheld =>
    obtain ⟨h1, h2, h3, h4⟩ := hi.held i true hheld
    exact hi.resolve h1 h2 (fun _ _ h => by cases h) (fun j hj => ⟨hj, fun h => h3 (h ▸ hj)⟩)
      hi.swept_nodup (fun j hj => ⟨hj, fun h => h4 (h ▸ hj)⟩) hi.opened
  | sweep hopen => exact hi.sweep hopen
  | grab i is o hswept hfree ho =>
    have hmem : ∀ j ∈ is, j ∈ b.swept := fun j hj => hswept ▸ List.mem_cons_of_mem i hj
    have hhead : i ∈ b.swept := hswept ▸ List.mem_cons_self
    have hnodup : i ∉ is ∧ is.Nodup := List.nodup_cons.mp (hswept ▸ hi.swept_nodup)
    exact
      { hi with
        held := fun j w h => by
          obtain ⟨h1, h2, h3, -⟩ := hi.held j w h
          exact ⟨h1, h2, fun hj => h3 (hmem j hj), fun hj => by cases hj; exact h3 hhead⟩
        swept := fun j hj => ⟨(hi.swept j (hmem j hj)).1, (hi.swept j (hmem j hj)).2.1,
          fun h => by cases h; exact hnodup.1 hj⟩
        inHand := fun j hj => by
          cases hj
          exact ⟨(hi.swept i hhead).1, (hi.swept i hhead).2.1⟩
        opened := fun h => by simp [(hi.opened h).1] at hswept
        swept_nodup := hnodup.2 }
  | release i hhand =>
    obtain ⟨h1, h2⟩ := hi.inHand i hhand
    exact hi.resolve h1 h2 (fun j w h => ⟨h, fun hji => (hi.held j w h).2.2.2 (hji ▸ hhand)⟩)
      (fun j hj => ⟨hj, fun h => (hi.swept j hj).2.2 (h ▸ hhand)⟩) hi.swept_nodup
      (fun _ h => by cases h) fun h => ⟨(hi.opened h).1, rfl⟩
  | resolve i is hswept ho =>
    have hmem : ∀ j ∈ is, j ∈ b.swept := fun j hj => hswept ▸ List.mem_cons_of_mem i hj
    have hhead : i ∈ b.swept := hswept ▸ List.mem_cons_self
    have hnodup : i ∉ is ∧ is.Nodup := List.nodup_cons.mp (hswept ▸ hi.swept_nodup)
    obtain ⟨h1, h2, h3⟩ := hi.swept i hhead
    exact hi.resolve h1 h2 (fun j w h => ⟨h, fun hji => (hi.held j w h).2.2.1 (hji ▸ hhead)⟩)
      (fun j hj => ⟨hmem j hj, fun h => hnodup.1 (h ▸ hj)⟩) hnodup.2
      (fun j h => ⟨h, fun hji => h3 (hji ▸ h)⟩)
      fun h => by simp [(hi.opened h).1] at hswept

/-- The invariant after an outcome was written that nobody relies on yet. -/
theorem Inv.write (hi : b.Inv blank settled) {i : ι} {o : ω} (hnew : i ∉ b.resolved)
    (hhand : b.inHand ≠ some i) (hheld : b.held ≠ some (i, true)) :
    (∀ j, j ∈ b.resolved ↔ b.event j = true) ∧
      (∀ j, b.inHand = some j → settled b.closed (Function.update b.outcome i o j)) ∧
      (∀ j, b.held = some (j, true) → settled b.closed (Function.update b.outcome i o j)) ∧
      ∀ j ∈ b.resolved, settled b.closed (Function.update b.outcome i o j) := by
  refine ⟨hi.mem_resolved, fun j hj => ?_, fun j hj => ?_, fun j hj => ?_⟩
  · have hne : j ≠ i := fun h => hhand (h ▸ hj)
    rw [Function.update_of_ne hne]
    exact hi.settled_inHand j hj
  · have hne : j ≠ i := fun h => hheld (h ▸ hj)
    rw [Function.update_of_ne hne]
    exact hi.settled_held j hj
  · have hne : j ≠ i := fun h => hnew (h ▸ hj)
    rw [Function.update_of_ne hne]
    exact hi.settled_resolved j hj

theorem Inv.mem_resolved_set (hi : b.Inv blank settled) (i j : ι) :
    j ∈ b.resolved ++ [i] ↔ Function.update b.event i true j = true := by
  rw [List.mem_append, List.mem_singleton, hi.mem_resolved, Function.update_apply]
  by_cases h : j = i <;> simp [h]

theorem Step.inv (hmono : ∀ o, settled false o → settled true o) (h : Step blank settled b b')
    (hi : b.Inv blank settled) : b'.Inv blank settled := by
  have hplaced := h.placed hi.toPlaced
  cases h with
  | skip => exact hi
  | renew i o hnew ho =>
    have huntaken : i ∉ b.taken := fun h => hnew (hi.taken_entered i h)
    obtain ⟨hmem, hhand, hheld, hres⟩ := hi.write (o := o)
      (fun h => huntaken (hi.resolved_taken i h)) (fun h => huntaken (hi.inHand i h).1)
      (fun h => huntaken (hi.held i true h).1)
    refine ⟨hplaced, hmem, fun j hj => ?_, fun j hj => ?_, fun j hj => ?_, hheld, hhand, hres⟩
    · by_cases h : j = i
      · subst h
        simpa using ho
      · simpa [h] using hi.blank_untaken j hj
    · have h : j ≠ i := fun h => huntaken (h ▸ (hi.held j false hj).1)
      simpa [h] using hi.blank_held j hj
    · have h : j ≠ i := fun h => huntaken (h ▸ (hi.swept j hj).1)
      simpa [h] using hi.blank_swept j hj
  | enter k i hnew hopen => exact { hi with toPlaced := hplaced }
  | drop k => exact { hi with toPlaced := hplaced }
  | take k i hget hfree =>
    exact
      { hi with
        toPlaced := hplaced
        blank_untaken := fun j hj => hi.blank_untaken j fun h => hj (List.mem_append_left _ h)
        blank_held := fun j hj => by
          cases hj
          exact hi.blank_untaken i (hi.listed k i hget).2
        settled_held := fun j hj => by cases hj }
  | assign i o hheld ho =>
    obtain ⟨h1, h2, h3, h4⟩ := hi.held i false hheld
    obtain ⟨hmem, hhand, -, hres⟩ := hi.write (o := o) h2 h4 (by simp [hheld])
    refine ⟨hplaced, hmem, fun j hj => ?_, fun j hj => by simp at hj, fun j hj => ?_,
      fun j hj => ?_,
      hhand, hres⟩
    · have h : j ≠ i := fun h => hj (h ▸ h1)
      simpa [h] using hi.blank_untaken j hj
    · have h : j ≠ i := fun h => h3 (h ▸ hj)
      simpa [h] using hi.blank_swept j hj
    · cases hj
      simpa using ho
  | set i hheld =>
    exact
      { hi with
        toPlaced := hplaced
        mem_resolved := hi.mem_resolved_set i
        blank_held := fun j hj => by cases hj
        settled_held := fun j hj => by cases hj
        settled_resolved := hi.settled_set (hi.settled_held i hheld) }
  | sweep hopen =>
    have hup : ∀ o, settled b.closed o → settled true o := by
      rw [hopen]
      exact hmono
    refine ⟨hplaced, hi.mem_resolved, fun j hj => ?_, hi.blank_held, fun j hj => ?_,
      fun j hj => hup _ (hi.settled_held j hj), fun j hj => hup _ (hi.settled_inHand j hj),
      fun j hj => hup _ (hi.settled_resolved j hj)⟩
    · exact hi.blank_untaken j fun h => hj (List.mem_append_left _ h)
    · obtain ⟨k, hk⟩ := Dict.mem_values.mp hj
      exact hi.blank_untaken j (hi.listed k j hk).2
  | grab i is o hswept hfree ho =>
    have hhead : i ∈ b.swept := hswept ▸ List.mem_cons_self
    have hnodup : i ∉ is := (List.nodup_cons.mp (hswept ▸ hi.swept_nodup)).1
    obtain ⟨h1, h2, h3⟩ := hi.swept i hhead
    obtain ⟨hmem, -, hheld, hres⟩ := hi.write (o := o) h2 h3
      fun h => (hi.held i true h).2.2.1 hhead
    refine ⟨hplaced, hmem, fun j hj => ?_, fun j hj => ?_, fun j hj => ?_, hheld,
      fun j hj => ?_, hres⟩
    · have h : j ≠ i := fun h => hj (h ▸ h1)
      simpa [h] using hi.blank_untaken j hj
    · have h : j ≠ i := fun h => (hi.held j false hj).2.2.1 (h ▸ hhead)
      simpa [h] using hi.blank_held j hj
    · have h : j ≠ i := fun h => hnodup (h ▸ hj)
      simpa [h] using hi.blank_swept j (hswept ▸ List.mem_cons_of_mem i hj)
    · cases hj
      simpa using ho
  | release i hhand =>
    exact
      { hi with
        toPlaced := hplaced
        mem_resolved := hi.mem_resolved_set i
        settled_inHand := fun j hj => by cases hj
        settled_resolved := hi.settled_set (hi.settled_inHand i hhand) }
  | resolve i is hswept ho =>
    exact
      { hi with
        toPlaced := hplaced
        mem_resolved := hi.mem_resolved_set i
        blank_swept := fun j hj => hi.blank_swept j (hswept ▸ List.mem_cons_of_mem i hj)
        settled_resolved := hi.settled_set ho }

/-- Writing the outcome of a request that is not resolved. -/
theorem Inv.event_write (hi : b.Inv blank settled) {i : ι} {o : ω} (hnew : i ∉ b.resolved) (j : ι)
    (hj : b.event j = true) : b.event j = true ∧ Function.update b.outcome i o j = b.outcome j := by
  have hne : j ≠ i := fun h => hnew (h ▸ (hi.mem_resolved j).mpr hj)
  exact ⟨hj, Function.update_of_ne hne _ _⟩

theorem update_true {f : ι → Bool} (i j : ι) (hj : f j = true) :
    Function.update f i true j = true := by
  rw [Function.update_apply]
  split_ifs
  · rfl
  · exact hj

theorem Step.grows (h : Step blank settled b b') (hi : b.Inv blank settled) : Grows b b' := by
  cases h with
  | skip => exact .refl b
  | renew i o hnew ho =>
    exact .of_table rfl rfl rfl (hi.event_write fun h =>
      hnew (hi.taken_entered i (hi.resolved_taken i h)))
  | enter k i hnew hopen =>
    refine ⟨List.prefix_append _ _, List.prefix_rfl, fun j hj hl => ?_, fun j hj hl ht => ht,
      fun j hj => ⟨hj, rfl⟩⟩
    rintro ⟨k', hk'⟩
    simp only [Dict.get?_set] at hk'
    split_ifs at hk' with h
    · cases hk'
      exact hnew hj
    · exact hl ⟨k', hk'⟩
  | drop k =>
    refine ⟨List.prefix_rfl, List.prefix_rfl, fun j hj hl => ?_, fun j hj hl ht => ht,
      fun j hj => ⟨hj, rfl⟩⟩
    rintro ⟨k', hk'⟩
    simp only [Dict.get?_erase] at hk'
    split_ifs at hk' with h
    exact hl ⟨k', hk'⟩
  | take k i hget hfree =>
    refine ⟨List.prefix_rfl, List.prefix_append _ _, fun j hj hl => ?_, fun j hj hl ht => ?_,
      fun j hj => ⟨hj, rfl⟩⟩
    · rintro ⟨k', hk'⟩
      simp only [Dict.get?_erase] at hk'
      split_ifs at hk' with h
      exact hl ⟨k', hk'⟩
    · have h : j ≠ i := by
        rintro rfl
        exact hl ⟨k, hget⟩
      simpa [h] using ht
  | assign i o hheld ho =>
    exact .of_table rfl rfl rfl (hi.event_write (hi.held i false hheld).2.1)
  | set i hheld => exact .of_table rfl rfl rfl fun j hj => ⟨update_true i j hj, rfl⟩
  | sweep hopen =>
    refine ⟨List.prefix_rfl, List.prefix_append _ _, fun j hj hl => ?_, fun j hj hl ht => ?_,
      fun j hj => ⟨hj, rfl⟩⟩
    · rintro ⟨k', hk'⟩
      simp at hk'
    · have h : j ∉ b.table.values := fun h => hl (Dict.mem_values.mp h)
      simpa [h] using ht
  | grab i is o hswept hfree ho =>
    exact .of_table rfl rfl rfl (hi.event_write (hi.swept i (hswept ▸ List.mem_cons_self)).2.1)
  | release i hhand => exact .of_table rfl rfl rfl fun j hj => ⟨update_true i j hj, rfl⟩
  | resolve i is hswept ho => exact .of_table rfl rfl rfl fun j hj => ⟨update_true i j hj, rfl⟩

/-- A tracked request stays tracked, unless its entry leaves the table without a taker. -/
theorem Step.tracked (h : Step blank settled b b') (hi : b.Placed) {k : κ} {i : ι}
    (ht : b.Tracked k i) :
    b'.Tracked k i ∨ b.table.get? k = some i ∧ b'.taken = b.taken ∧ b'.table.get? k ≠ some i := by
  have hopened := hi.opened
  have hlisted := hi.listed k i
  simp only [Tracked] at ht ⊢
  cases h <;> grind [Dict.mem_values, Function.update_apply]

/-- What a taker took is resolved, or still in a taker's hands. -/
def Accounted (b : Board κ ι ω) : Prop :=
  ∀ i ∈ b.taken, i ∈ b.resolved ∨ b.held.map Prod.fst = some i ∨ i ∈ b.swept ∨ b.inHand = some i

theorem Step.accounted (h : Step blank settled b b') (hp : b.Placed) (ha : b.Accounted) :
    b'.Accounted := by
  intro i hi
  have hold := ha i
  cases h with
  | skip | renew | enter | drop => exact hold hi
  | take k j hget hfree =>
    rcases List.mem_append.mp hi with hi | hi
    · rcases hold hi with h | h | h
      · exact Or.inl h
      · simp [hfree] at h
      · exact Or.inr (Or.inr h)
    · obtain rfl := List.mem_singleton.mp hi
      exact Or.inr (Or.inl rfl)
  | assign j o hheld ho =>
    rw [hheld] at hold
    exact hold hi
  | set j hheld =>
    rcases hold hi with h | h | h
    · exact Or.inl (List.mem_append_left _ h)
    · rw [hheld] at h
      cases h
      exact Or.inl (List.mem_append_right _ List.mem_cons_self)
    · exact Or.inr (Or.inr h)
  | sweep hopen =>
    obtain ⟨hswept, hhand⟩ := hp.opened hopen
    rcases List.mem_append.mp hi with hi | hi
    · rcases hold hi with h | h | h | h
      · exact Or.inl h
      · exact Or.inr (Or.inl h)
      · simp [hswept] at h
      · simp [hhand] at h
    · exact Or.inr (Or.inr (Or.inl hi))
  | grab j js o hswept hfree ho =>
    rcases hold hi with h | h | h | h
    · exact Or.inl h
    · exact Or.inr (Or.inl h)
    · rw [hswept] at h
      rcases List.mem_cons.mp h with rfl | h
      · exact Or.inr (Or.inr (Or.inr rfl))
      · exact Or.inr (Or.inr (Or.inl h))
    · rw [hfree] at h
      cases h
  | release j hhand =>
    rcases hold hi with h | h | h | h
    · exact Or.inl (List.mem_append_left _ h)
    · exact Or.inr (Or.inl h)
    · exact Or.inr (Or.inr (Or.inl h))
    · rw [hhand] at h
      cases h
      exact Or.inl (List.mem_append_right _ List.mem_cons_self)
  | resolve j js hswept ho =>
    rcases hold hi with h | h | h | h
    · exact Or.inl (List.mem_append_left _ h)
    · exact Or.inr (Or.inl h)
    · rw [hswept] at h
      rcases List.mem_cons.mp h with rfl | h
      · exact Or.inl (List.mem_append_right _ List.mem_cons_self)
      · exact Or.inr (Or.inr (Or.inl h))
    · exact Or.inr (Or.inr (Or.inr h))

end Board

end Handoff
