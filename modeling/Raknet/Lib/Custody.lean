import Mathlib.Data.List.Nodup
import Mathlib.Logic.Function.Basic

/-!
# Links between a transport and its owner

A *transport* opens links `γ` to addresses `α` on request. An attempt may turn into a live link or
fail at any moment, and a link may end; the transport then queues a report. The *owner* acts on
the reports in order: it builds and registers a link that it expects, drops one that it does not,
and forgets a link that ended. On its side it may give up on an attempt, which it then cancels, or
take a link out of its register, which it then releases.

A cancellation reaches only an attempt that is still in progress. If the attempt has turned into a
link before, the owner drops the report and nobody ever releases the link. `Step.cancel` therefore
requires that it has not.

**Theorem (`Step.inv`).** Then every live link has an owner: its acceptance is on its way and
expected, or the owner is building it, has it registered, or is releasing it.

**Theorem (`Inv.mono`).** Ownership may be shared: the owner may know more than the invariant asks.
-/

namespace Custody

variable {α γ : Type*}

/-- What the transport reports. -/
inductive Report (α γ : Type*)
  | accepted (a : α) (g : γ)
  | failed (a : α)
  | ended (g : γ)
deriving DecidableEq

namespace Report

/-- The attempt that a report settles. -/
def settles : Report α γ → Option α
  | accepted a _ | failed a => some a
  | ended _ => none

/-- The link that a report is about. -/
def link : Report α γ → Option γ
  | accepted _ g | ended g => some g
  | failed _ => none

end Report

/-! ## Settled attempts -/

/-- An unsettled attempt is settled by one more report. -/
theorem settled_append {reports : List (Report α γ)} {r : Report α γ} {a : α}
    (h : (reports.filterMap Report.settles).Nodup) (hr : r.settles = some a)
    (hnew : ∀ r ∈ reports, r.settles ≠ some a) :
    ((reports ++ [r]).filterMap Report.settles).Nodup := by
  rw [List.filterMap_append, List.nodup_append]
  refine ⟨h, by simp [hr], fun b hb c hc => ?_⟩
  obtain ⟨r', hr', hb⟩ := List.mem_filterMap.mp hb
  obtain rfl : a = c := by simpa [hr, eq_comm] using hc
  exact fun hba => hnew r' hr' (hba ▸ hb)

/-- A report settles what no later report settles. -/
theorem unsettled_of_cons {reports rest : List (Report α γ)} {r : Report α γ} {a : α}
    (h : (reports.filterMap Report.settles).Nodup) (hreports : reports = r :: rest)
    (hr : r.settles = some a) : ∀ r' ∈ rest, r'.settles ≠ some a := by
  subst hreports
  rw [List.filterMap_cons_some hr, List.nodup_cons] at h
  exact fun r' hr' hs => h.1 (List.mem_filterMap.mpr ⟨r', hr', hs⟩)

/-! ## The last report about a link -/

section

variable [DecidableEq γ]

/-- The last report about a link. -/
def last (g : γ) (reports : List (Report α γ)) : Option (Report α γ) :=
  (reports.filter (·.link = some g)).getLast?

@[simp] theorem last_nil (g : γ) : last g ([] : List (Report α γ)) = none := rfl

theorem last_append (g : γ) (reports : List (Report α γ)) (r : Report α γ) :
    last g (reports ++ [r]) = if r.link = some g then some r else last g reports := by
  unfold last
  split_ifs with h <;> simp [List.filter_append, h]

theorem last_cons (g : γ) (reports : List (Report α γ)) (r : Report α γ) :
    last g (r :: reports) = (last g reports).or (if r.link = some g then some r else none) := by
  unfold last
  by_cases h : r.link = some g
  · rw [List.filter_cons_of_pos (by simpa using h), if_pos h, List.getLast?_cons]
    cases (reports.filter (·.link = some g)).getLast? <;> rfl
  · rw [List.filter_cons_of_neg (by simpa using h), if_neg h, Option.or_none]

theorem mem_of_last {g : γ} {reports : List (Report α γ)} {r : Report α γ}
    (h : last g reports = some r) : r ∈ reports :=
  (List.mem_filter.mp (List.mem_of_getLast? h)).1

end

/-! ## The ledger -/

/-- The transport's attempts, live links and reports not yet acted on, and what the owner does
about them. -/
structure Ledger (α γ : Type*) where
  attempts : α → Prop
  live : γ → Option α
  reports : List (Report α γ)
  expected : α → Prop
  building : Option (α × γ)
  registered : γ → α → Prop
  releasing : γ → Prop
  cancelling : α → Prop

namespace Ledger

/-- The transport has not heard of the address, or has nothing more to say about it. -/
def Unused (k : Ledger α γ) (a : α) : Prop :=
  ¬ k.attempts a ∧ ∀ r ∈ k.reports, r.settles ≠ some a

variable [DecidableEq γ]

/-- Somebody will take care of the link: its acceptance is on its way and expected, or it was
acted on and the owner is building the link, releasing it, or has it registered. -/
def Owned (k : Ledger α γ) (g : γ) (a : α) : Prop :=
  match last g k.reports with
  | some r => r = .accepted a g ∧ k.expected a
  | none => k.building = some (a, g) ∨ k.releasing g ∨
      k.registered g a ∧ ∀ b, k.building ≠ some (b, g)

/-- Every attempt and every link is somebody's, and no attempt is settled twice. -/
structure Inv (k : Ledger α γ) : Prop where
  settled : (k.reports.filterMap Report.settles).Nodup
  unsettled : ∀ a, k.attempts a → ∀ r ∈ k.reports, r.settles ≠ some a
  attempted : ∀ a, k.attempts a → k.expected a ∨ k.cancelling a
  owned : ∀ g a, k.live g = some a → k.cancelling a ∨ k.Owned g a

/-- The same transport, with an owner that knows at least as much. -/
structure Le (k k' : Ledger α γ) : Prop where
  attempts : ∀ a, k'.attempts a → k.attempts a
  live : ∀ g a, k'.live g = some a → k.live g = some a
  reports : k'.reports = k.reports
  building : k'.building = k.building
  expected : ∀ a, k.expected a → k'.expected a
  registered : ∀ g a, k.registered g a → k'.registered g a
  releasing : ∀ g, k.releasing g → k'.releasing g
  cancelling : ∀ a, k.cancelling a → k'.cancelling a

variable {k k' : Ledger α γ}

theorem Inv.mono (h : k.Inv) (hle : Le k k') : k'.Inv where
  settled := hle.reports ▸ h.settled
  unsettled a ha := hle.reports ▸ h.unsettled a (hle.attempts a ha)
  attempted a ha := (h.attempted a (hle.attempts a ha)).imp (hle.expected a) (hle.cancelling a)
  owned g a hg := by
    refine (h.owned g a (hle.live g a hg)).imp (hle.cancelling a) fun howned => ?_
    unfold Owned at howned ⊢
    rw [hle.reports, hle.building]
    split at howned
    · exact howned.imp_right (hle.expected a)
    · exact howned.imp_right (Or.imp (hle.releasing g) (And.imp_left (hle.registered g a)))

/-! ## Steps -/

/-- What the transport or the owner does. -/
inductive Step (k : Ledger α γ) : Ledger α γ → Prop
  | skip : Step k k
  -- the transport
  | accept (a : α) (g : γ) (ha : k.attempts a) (hg : k.live g = none) :
      Step k { k with
        attempts := fun b => b ≠ a ∧ k.attempts b
        live := Function.update k.live g (some a)
        reports := k.reports ++ [.accepted a g] }
  | fail (a : α) (ha : k.attempts a) :
      Step k { k with
        attempts := fun b => b ≠ a ∧ k.attempts b
        reports := k.reports ++ [.failed a] }
  | hangUp (g : γ) :
      Step k { k with
        live := Function.update k.live g none
        reports := k.reports ++ [.ended g] }
  -- the owner asks for a link
  | start (a : α) (hexp : k.expected a) (hnew : k.Unused a) :
      Step k { k with attempts := fun b => b = a ∨ k.attempts b }
  | forget (a : α) (hnew : k.Unused a) :
      Step k { k with expected := fun b => b ≠ a ∧ k.expected b }
  | abandon (a : α) :
      Step k { k with
        expected := fun b => b ≠ a ∧ k.expected b
        cancelling := fun b => b = a ∨ k.cancelling b }
  | cancel (a : α) (hfree : ∀ g, k.live g ≠ some a) :
      Step k { k with
        attempts := fun b => b ≠ a ∧ k.attempts b
        cancelling := fun b => b ≠ a ∧ k.cancelling b }
  -- the owner acts on a report
  | build (a : α) (g : γ) (rest : List (Report α γ)) (hreports : k.reports = .accepted a g :: rest)
      (hfree : k.building = none) :
      Step k { k with
        reports := rest
        expected := fun b => b ≠ a ∧ k.expected b
        building := some (a, g) }
  | drop (a : α) (g : γ) (rest : List (Report α γ)) (hreports : k.reports = .accepted a g :: rest)
      (hnot : ¬ k.expected a) : Step k { k with reports := rest }
  | giveUp (a : α) (rest : List (Report α γ)) (hreports : k.reports = .failed a :: rest) :
      Step k { k with reports := rest, expected := fun b => b ≠ a ∧ k.expected b }
  | unlist (g : γ) (rest : List (Report α γ)) (hreports : k.reports = .ended g :: rest) :
      Step k { k with reports := rest, registered := fun x b => x ≠ g ∧ k.registered x b }
  -- the owner's links
  | register (a : α) (g : γ) (hbuilding : k.building = some (a, g)) :
      Step k { k with
        building := none
        registered := fun x b => x = g ∧ b = a ∨ x ≠ g ∧ k.registered x b }
  | unregister (g : γ) :
      Step k { k with
        registered := fun x b => x ≠ g ∧ k.registered x b
        releasing := fun x => x = g ∨ k.releasing x }
  | release (g : γ) :
      Step k { k with
        live := Function.update k.live g none
        releasing := fun x => x ≠ g ∧ k.releasing x }

theorem Step.inv (h : Step k k') (hi : k.Inv) : k'.Inv := by
  obtain ⟨h1, h2, h3, h4⟩ := hi
  have hmem : ∀ g r, last g k.reports = some r → r ∈ k.reports := fun _ _ => mem_of_last
  have htail : ∀ {r rest}, k.reports = r :: rest → (rest.filterMap Report.settles).Nodup := by
    intro r rest hreports
    rw [hreports, List.filterMap_cons] at h1
    split at h1
    · exact h1
    · exact (List.nodup_cons.mp h1).2
  cases h with
  | skip => exact ⟨h1, h2, h3, h4⟩
  -- a new report is the last one about its link
  | accept a g ha hg =>
    refine ⟨settled_append h1 rfl (h2 a ha), ?_, ?_, ?_⟩ <;>
      grind [Owned, last_append, Function.update_apply, Report.settles, Report.link]
  | fail a ha =>
    refine ⟨settled_append h1 rfl (h2 a ha), ?_, ?_, ?_⟩ <;>
      grind [Owned, last_append, Report.settles, Report.link]
  | hangUp g =>
    refine ⟨by simpa [List.filterMap_cons, Report.settles] using h1, ?_, ?_, ?_⟩ <;>
      grind [Owned, last_append, Function.update_apply, Report.settles, Report.link]
  | start | abandon | cancel | register | unregister =>
    refine ⟨h1, ?_, ?_, ?_⟩ <;> grind [Owned, Unused]
  | release g => refine ⟨h1, ?_, ?_, ?_⟩ <;> grind [Owned, Function.update_apply]
  -- the address has no acceptance on its way, so no link relies on its being expected
  | forget a hnew =>
    refine ⟨h1, ?_, ?_, ?_⟩ <;> grind [Owned, Unused, Report.settles]
  -- the report acted on settles its address, so no later report needs the expectation
  | build a g rest hreports hfree =>
    have hrest := unsettled_of_cons h1 hreports rfl
    have hlate : ∀ x r, last x rest = some r → r.settles ≠ some a :=
      fun _ r h => hrest r (mem_of_last h)
    refine ⟨htail hreports, ?_, ?_, ?_⟩ <;>
      grind [Owned, last_cons, Report.settles, Report.link]
  | drop a g rest hreports hnot =>
    refine ⟨htail hreports, ?_, ?_, ?_⟩ <;> grind [Owned, last_cons, Report.link]
  | giveUp a rest hreports =>
    have hrest := unsettled_of_cons h1 hreports rfl
    have hlate : ∀ x r, last x rest = some r → r.settles ≠ some a :=
      fun _ r h => hrest r (mem_of_last h)
    refine ⟨htail hreports, ?_, ?_, ?_⟩ <;>
      grind [Owned, last_cons, Report.settles, Report.link]
  -- a link that is live was accepted after it ended
  | unlist g rest hreports =>
    refine ⟨htail hreports, ?_, ?_, ?_⟩ <;> grind [Owned, last_cons, Report.link]

/-- An address stays unused until an attempt is started. -/
theorem Unused.step {m : Ledger α γ} (h : Step k m) (hle : Le m k') {a : α} (hu : k.Unused a)
    (ha : k'.attempts a → k.attempts a) : k'.Unused a := by
  refine ⟨fun h' => hu.1 (ha h'), fun r hr => ?_⟩
  rw [hle.reports] at hr
  obtain ⟨hnot, hreports⟩ := hu
  cases h <;> grind [Report.settles]

/-- When nothing is on its way and the owner is at rest, every live link is registered. -/
theorem Inv.registered_of_rest (h : k.Inv) (hreports : k.reports = [])
    (hbuilding : k.building = none) (hreleasing : ∀ g, ¬ k.releasing g)
    (hcancelling : ∀ a, ¬ k.cancelling a) {g : γ} {a : α} (hg : k.live g = some a) :
    k.registered g a := by
  have howned := (h.owned g a hg).resolve_left (hcancelling a)
  simp only [Owned, hreports, last_nil, hbuilding, reduceCtorEq, false_or] at howned
  exact (howned.resolve_left (hreleasing g)).1

end Ledger

end Custody
