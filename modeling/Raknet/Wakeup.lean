import Raknet.Lib.Condition
import Raknet.Lib.Interleaving
import Raknet.Peer

/-!
# The condition of a mailbox

`_Mailbox` with its `threading.Condition`, which `Mailbox` leaves out. `get` and `poll` both wait on
it, `put` notifies one waiter and `close` all. A waiter that wakes looks again, under the lock.

**Theorem (`mailbox_wakes`).** As long as no `put` spends its notification on a `poll` while a `get`
needs it, no `get` sleeps on when there is something for it and nobody else is about to run. The
first notification that is spent so leads to a `get` that does.
-/

namespace Raknet

open Interleaving

/-! ## The monitor -/

/-- The methods of `_Mailbox` that wait. -/
inductive Method
  | get
  | poll
deriving DecidableEq, Repr

/-- A waiter of `_cond`: the call, and the method it is in. -/
structure Waiter where
  call : CallId
  method : Method
deriving DecidableEq, Repr

/-- A waiter that takes an item when it runs. -/
def Waiter.takes (w : Waiter) : Bool := decide (w.method = .get)

/-- `_Mailbox`. -/
structure Monitor where
  box : Mailbox
  cond : Condition Waiter

/-- What a call of a `_Mailbox` method ends with. -/
inductive Outcome
  /-- `put` returned True -/
  | accepted
  /-- `put` returned False -/
  | rejected
  | closed
  | item (data : Bytes)
  | raised (exc : ConnectionClosed)
  /-- `TimeoutError("recv timed out")` -/
  | timedOut
  | polled (ready : Bool)
deriving DecidableEq, Repr

/-- A call of a `_Mailbox` method; `timed` says that it has a timeout. -/
inductive BoxCall
  | idle
  | put (data : Bytes)
  | close (exc : ConnectionClosed)
  /-- at `with self._cond` -/
  | enter (m : Method) (timed : Bool)
  /-- in `self._cond.wait_for(..)`, asleep or woken -/
  | waiting (m : Method) (timed : Bool)
  | done (r : Outcome)
deriving DecidableEq, Repr

/-- What happens to a call. -/
inductive BoxChoice
  | begin (t : BoxCall)
  | go
  /-- the time of a sleeping waiter is up -/
  | expire
  /-- a woken waiter looks for the last time -/
  | giveUp
deriving DecidableEq, Repr

/-- `wait_for` looks, and the method goes on if there is something. -/
def Monitor.look (s : Monitor) (m : Method) : Option (Monitor × Outcome) :=
  match m, s.box.get with
  | _, .blocked => none
  | .poll, _ => some (s, .polled true)
  | .get, .item d rest => some ({ s with box := rest }, .item d)
  | .get, .raised exc => some (s, .raised exc)

/-- What the method returns or raises when `wait_for` gives up. -/
def Method.expired : Method → Outcome
  | .get => .timedOut
  | .poll => .polled false

/-- One step of call `i`. -/
def boxStep (i : CallId) (ch : BoxChoice) (s : Monitor) (t : BoxCall) :
    Option (Monitor × BoxCall) :=
  match t, ch with
  | .idle, .begin (.put d) => some (s, .put d)
  | .idle, .begin (.close exc) => some (s, .close exc)
  | .idle, .begin (.enter m timed) => some (s, .enter m timed)
  | .put d, .go => some (match s.box.put d with
    | (true, box) => (⟨box, s.cond.notify⟩, .done .accepted)
    | (false, _) => (s, .done .rejected))
  | .close exc, .go => some (⟨s.box.close exc, s.cond.notifyAll⟩, .done .closed)
  | .enter m timed, .go => some (match s.look m with
    | some (s', r) => (s', .done r)
    | none => ({ s with cond := s.cond.wait ⟨i, m⟩ }, .waiting m timed))
  | .waiting m true, .expire =>
    if ⟨i, m⟩ ∈ s.cond.waiters then
      some ({ s with cond := s.cond.expire ⟨i, m⟩ }, .waiting m true)
    else none
  | .waiting m timed, .go =>
    if ⟨i, m⟩ ∈ s.cond.woken then
      let s := { s with cond := s.cond.resume ⟨i, m⟩ }
      some (match s.look m with
        | some (s', r) => (s', .done r)
        | none => ({ s with cond := s.cond.wait ⟨i, m⟩ }, .waiting m timed))
    else none
  | .waiting m true, .giveUp =>
    if ⟨i, m⟩ ∈ s.cond.woken then
      let s := { s with cond := s.cond.resume ⟨i, m⟩ }
      some (match s.look m with
        | some (s', r) => (s', .done r)
        | none => (s, .done m.expired))
    else none
  | _, _ => none

/-- A mailbox and the calls of its methods. -/
abbrev Boxed := Config Monitor BoxCall

/-- The system of a mailbox: nothing happens but calls. -/
def mailbox : System Monitor BoxCall Empty BoxChoice where
  shared := nofun
  thread := boxStep

/-- A new mailbox, before any call. -/
def Boxed.init (maxsize : Option Nat) : Boxed := ⟨⟨⟨[], none, maxsize⟩, .empty⟩, fun _ => .idle⟩

/-- A put that is accepted does not waste its notification. -/
def Heeded (c : Boxed) : Action Empty BoxChoice → Prop
  | .thread i .go =>
    match c.thread i with
    | .put _ => c.shared.box.full = false →
      c.shared.cond.Useful Waiter.takes c.shared.box.items.length
    | _ => True
  | _ => True

/-- What `Heeded` asks of a call can be decided. -/
def BoxCall.decideHeed {P : Prop} [Decidable P] :
    (t : BoxCall) → Decidable (match t with | .put _ => P | _ => True)
  | .put _ => inferInstanceAs (Decidable P)
  | .idle | .close _ | .enter _ _ | .waiting _ _ | .done _ => .isTrue trivial

instance (c : Boxed) : (a : Action Empty BoxChoice) → Decidable (Heeded c a)
  | .thread i .go => (c.thread i).decideHeed (P := c.shared.box.full = false →
    c.shared.cond.Useful Waiter.takes c.shared.box.items.length)
  | .shared _ | .thread _ (.begin _) | .thread _ .expire | .thread _ .giveUp => .isTrue trivial

/-- Every woken thread has run, a payload or the end is there, and a `get` sleeps. -/
structure Boxed.Lost (c : Boxed) : Prop where
  woken : c.shared.cond.woken = []
  ready : c.shared.box.items ≠ [] ∨ c.shared.box.exc ≠ none
  asleep : ∃ i timed, c.thread i = .waiting .get timed

variable {s s' s₀ : Monitor} {t t' : BoxCall} {i : CallId} {m : Method} {timed : Bool} {r : Outcome}

/-! ## Looking -/

theorem look_eq_none (h : s.look m = none) : s.box.items = [] ∧ s.box.exc = none := by
  obtain ⟨⟨items, exc, maxsize⟩, cond⟩ := s
  cases items <;> cases exc <;> cases m <;> simp_all [Monitor.look, Mailbox.get]

theorem look_eq_some (h : s.look m = some (s', r)) :
    s'.cond = s.cond ∧ s'.box.exc = s.box.exc ∧
      s'.box.items.length = if m = .get then s.box.items.length - 1 else s.box.items.length := by
  obtain ⟨⟨items, exc, maxsize⟩, cond⟩ := s
  cases items <;> cases exc <;> cases m <;> simp [Monitor.look, Mailbox.get] at h
  all_goals
    obtain ⟨rfl, rfl⟩ := h
    simp

theorem look_of_ready (h : s.box.items ≠ []) : ∃ s' r, s.look m = some (s', r) := by
  cases hl : s.look m with
  | none => exact absurd (look_eq_none hl).1 h
  | some p => exact ⟨p.1, p.2, rfl⟩

/-! ## Transitions -/

/-- Call `i` holds the lock and is about to look: for the first time, or because it was woken. -/
inductive Arrives (i : CallId) (s : Monitor) : Method → Bool → BoxCall → Monitor → Prop
  | enter (m : Method) (timed : Bool) : Arrives i s m timed (.enter m timed) s
  | woken (m : Method) (timed : Bool) (h : ⟨i, m⟩ ∈ s.cond.woken) :
      Arrives i s m timed (.waiting m timed) { s with cond := s.cond.resume ⟨i, m⟩ }

/-- The transitions of call `i`. -/
inductive BoxMove (i : CallId) (s : Monitor) : BoxCall → Monitor → BoxCall → Prop
  | begin (t : BoxCall) (h : ∀ m timed, t ≠ .waiting m timed) : BoxMove i s .idle s t
  | accept (d : Bytes) (hroom : s.box.full = false) :
      BoxMove i s (.put d) ⟨s.box.append d, s.cond.notify⟩ (.done .accepted)
  | reject (d : Bytes) : BoxMove i s (.put d) s (.done .rejected)
  | close (exc : ConnectionClosed) :
      BoxMove i s (.close exc) ⟨s.box.close exc, s.cond.notifyAll⟩ (.done .closed)
  | expire (m : Method) (h : ⟨i, m⟩ ∈ s.cond.waiters) :
      BoxMove i s (.waiting m true) { s with cond := s.cond.expire ⟨i, m⟩ } (.waiting m true)
  | find (m : Method) (timed : Bool) (t : BoxCall) (s₀ s' : Monitor) (r : Outcome)
      (h : Arrives i s m timed t s₀) (hlook : s₀.look m = some (s', r)) :
      BoxMove i s t s' (.done r)
  | sleep (m : Method) (timed : Bool) (t : BoxCall) (s₀ : Monitor) (h : Arrives i s m timed t s₀)
      (hlook : s₀.look m = none) :
      BoxMove i s t { s₀ with cond := s₀.cond.wait ⟨i, m⟩ } (.waiting m timed)
  | giveUp (m : Method) (timed : Bool) (t : BoxCall) (s₀ : Monitor) (h : Arrives i s m timed t s₀)
      (hlook : s₀.look m = none) : BoxMove i s t s₀ (.done m.expired)

theorem boxStep_move {ch : BoxChoice} (h : boxStep i ch s t = some (s', t')) :
    BoxMove i s t s' t' := by
  cases t with
  | idle =>
    cases ch with
    | begin u => cases u <;> cases h <;> exact .begin _ (by simp)
    | _ => cases h
  | put d =>
    cases ch <;> simp only [boxStep, Mailbox.put, Option.some.injEq, reduceCtorEq] at h
    cases hfull : s.box.full <;> simp only [hfull, Bool.false_eq_true, if_false, if_true] at h <;>
      cases h
    · exact .accept d hfull
    · exact .reject d
  | close exc => cases ch <;> cases h; exact .close exc
  | enter m timed =>
    cases ch <;> simp only [boxStep, Option.some.injEq, reduceCtorEq] at h
    split at h <;> cases h
    · next r hlook => exact .find m timed _ s _ r (.enter m timed) hlook
    · next hlook => exact .sleep m timed _ s (.enter m timed) hlook
  | waiting m timed =>
    cases ch with
    | begin u => cases timed <;> cases h
    | go =>
      simp only [boxStep] at h
      split_ifs at h with hw
      rw [Option.some.injEq] at h
      split at h <;> cases h
      · next r hlook => exact .find m timed _ _ _ r (.woken m timed hw) hlook
      · next hlook => exact .sleep m timed _ _ (.woken m timed hw) hlook
    | expire =>
      cases timed
      · cases h
      simp only [boxStep] at h
      split_ifs at h with hw
      cases h
      exact .expire m hw
    | giveUp =>
      cases timed
      · cases h
      simp only [boxStep] at h
      split_ifs at h with hw
      rw [Option.some.injEq] at h
      split at h <;> cases h
      · next r hlook => exact .find m true _ _ _ r (.woken m true hw) hlook
      · next hlook => exact .giveUp m true _ _ (.woken m true hw) hlook
  | done r => cases ch <;> cases h

/-! ## Who waits -/

/-- The waiters of the condition are the calls that wait, and nobody sleeps after the end. -/
structure BoxInv (c : Boxed) : Prop where
  once : c.shared.cond.Once
  mem : ∀ w, w ∈ c.shared.cond.waiters ++ c.shared.cond.woken ↔
    ∃ timed, c.thread w.call = .waiting w.method timed
  ended : c.shared.box.exc ≠ none → c.shared.cond.waiters = []

variable {c c' : Boxed}

theorem BoxInv.move (hi : BoxInv c) (honce : s'.cond.Once)
    (hother : ∀ w : Waiter, w.call ≠ i → (w ∈ s'.cond.waiters ++ s'.cond.woken ↔
      w ∈ c.shared.cond.waiters ++ c.shared.cond.woken))
    (hself : ∀ m, ⟨i, m⟩ ∈ s'.cond.waiters ++ s'.cond.woken ↔ ∃ timed, t' = .waiting m timed)
    (hended : s'.box.exc ≠ none → s'.cond.waiters = []) : BoxInv (c.move i (s', t')) where
  once := honce
  mem w := by
    rw [Config.move_thread]
    split_ifs with hw
    · obtain ⟨j, m⟩ := w
      obtain rfl : j = i := hw
      exact hself m
    · exact (hother w hw).trans (hi.mem w)
  ended := hended

/-- A call that holds the lock is no waiter. -/
theorem Arrives.frame (h : Arrives i c.shared m timed (c.thread i) s₀) (hi : BoxInv c) :
    s₀.box = c.shared.box ∧ s₀.cond.waiters = c.shared.cond.waiters ∧ s₀.cond.Once ∧
      (∀ m, ⟨i, m⟩ ∉ s₀.cond.waiters ++ s₀.cond.woken) ∧
      ∀ w : Waiter, w.call ≠ i → (w ∈ s₀.cond.waiters ++ s₀.cond.woken ↔
        w ∈ c.shared.cond.waiters ++ c.shared.cond.woken) := by
  generalize ht : c.thread i = t at h
  cases h with
  | enter =>
    refine ⟨rfl, rfl, hi.once, ?_, fun w _ => Iff.rfl⟩
    intro m' hmem
    obtain ⟨timed', hw⟩ := (hi.mem ⟨i, m'⟩).mp hmem
    rw [ht] at hw
    cases hw
  | woken hw =>
    refine ⟨rfl, rfl, Condition.once_resume hi.once, ?_, ?_⟩
    · intro m' hmem
      by_cases hm : m' = m
      · subst hm
        exact Condition.not_mem_resume hi.once hw hmem
      · have hne : (⟨i, m'⟩ : Waiter) ≠ ⟨i, m⟩ := by
          intro h
          cases h
          exact hm rfl
        obtain ⟨timed', hw'⟩ := (hi.mem ⟨i, m'⟩).mp ((Condition.mem_resume_of_ne hne).mp hmem)
        rw [ht] at hw'
        cases hw'
        exact hm rfl
    · intro w hne
      apply Condition.mem_resume_of_ne
      rintro rfl
      exact hne rfl

theorem BoxInv.self (hi : BoxInv c) (ht : c.thread i = t) (m : Method) :
    ⟨i, m⟩ ∈ c.shared.cond.waiters ++ c.shared.cond.woken ↔ ∃ timed, t = .waiting m timed := by
  rw [hi.mem, ht]

theorem BoxMove.inv (h : BoxMove i c.shared (c.thread i) s' t') (hi : BoxInv c) :
    BoxInv (c.move i (s', t')) := by
  generalize ht : c.thread i = t at h
  have hself := hi.self ht
  cases h with
  | begin u hu =>
    refine hi.move hi.once (fun _ _ => Iff.rfl) ?_ hi.ended
    intro m
    rw [hself]
    constructor
    · rintro ⟨timed, h⟩
      cases h
    · rintro ⟨timed, h⟩
      exact absurd h (hu m timed)
  | accept d hroom =>
    refine hi.move (Condition.once_notify hi.once) (fun w _ => Condition.mem_notify) ?_ ?_
    · intro m
      rw [Condition.mem_notify, hself]
      simp
    · intro hexc
      have hnil := hi.ended hexc
      simp only [Condition.notify, hnil]
  | reject d =>
    refine hi.move hi.once (fun _ _ => Iff.rfl) ?_ hi.ended
    intro m
    rw [hself]
    simp
  | close exc =>
    refine hi.move (Condition.once_notifyAll hi.once) (fun w _ => Condition.mem_notifyAll) ?_
      fun _ => rfl
    intro m
    rw [Condition.mem_notifyAll, hself]
    simp
  | expire m hw =>
    refine hi.move (Condition.once_expire hi.once hw)
      (fun w _ => (Condition.expire_perm hw).mem_iff) ?_ ?_
    · intro m'
      rw [(Condition.expire_perm hw).mem_iff, hself]
    · intro hexc
      rw [hi.ended hexc] at hw
      cases hw
  | find m timed _ s₀ s' r ha hlook =>
    subst ht
    obtain ⟨hbox, hwaiters, honce, hout, hother⟩ := ha.frame hi
    obtain ⟨hcond, hexc, -⟩ := look_eq_some hlook
    refine hi.move (hcond ▸ honce) (hcond ▸ hother) ?_ ?_
    · intro m'
      rw [hcond]
      exact iff_of_false (hout m') (by rintro ⟨timed, h⟩; cases h)
    · rw [hcond, hexc, hbox, hwaiters]
      exact hi.ended
  | sleep m timed _ s₀ ha hlook =>
    subst ht
    obtain ⟨hbox, hwaiters, honce, hout, hother⟩ := ha.frame hi
    refine hi.move (Condition.once_wait honce (hout m)) ?_ ?_ ?_
    · intro w hne
      rw [← hother w hne]
      have hw : w ≠ ⟨i, m⟩ := fun h => hne (congrArg Waiter.call h)
      simp [Condition.wait, hw]
    · intro m'
      have hold := hout m'
      simp only [Condition.wait, List.mem_append, List.mem_singleton, Waiter.mk.injEq, true_and,
        not_or] at hold ⊢
      constructor
      · rintro ((h | rfl) | h)
        · exact absurd h hold.1
        · exact ⟨timed, rfl⟩
        · exact absurd h hold.2
      · rintro ⟨timed', h⟩
        cases h
        exact Or.inl (Or.inr rfl)
    · intro hexc
      exact absurd (look_eq_none hlook).2 hexc
  | giveUp m timed _ s₀ ha hlook =>
    subst ht
    obtain ⟨hbox, hwaiters, honce, hout, hother⟩ := ha.frame hi
    refine hi.move honce hother ?_ ?_
    · intro m'
      exact iff_of_false (hout m') (by rintro ⟨timed, h⟩; cases h)
    · intro hexc
      exact absurd (look_eq_none hlook).2 hexc

/-! ## Who was woken -/

/-- Every payload that a sleeping `get` could take has a woken `get`. -/
def Boxed.Covered (c : Boxed) : Prop :=
  c.shared.cond.Covered Waiter.takes c.shared.box.items.length

/-- Who holds the lock and looks takes no more than what was meant for it. -/
theorem Arrives.covered (h : Arrives i c.shared m timed t s₀) (hcov : c.Covered) :
    s₀.cond.Covered Waiter.takes
      (if m = .get then c.shared.box.items.length - 1 else c.shared.box.items.length) := by
  cases h with
  | enter =>
    apply Condition.covered_mono _ hcov
    split_ifs <;> omega
  | woken hw => simpa [Waiter.takes] using Condition.covered_resume hw hcov

/-- Every step keeps the mailbox covered, if a put that is accepted has a useful notification. -/
theorem BoxMove.covered (h : BoxMove i c.shared (c.thread i) s' t') (hi : BoxInv c)
    (hcov : c.Covered)
    (hput : ∀ d, c.thread i = .put d → c.shared.box.full = false →
      c.shared.cond.Useful Waiter.takes c.shared.box.items.length) :
    s'.cond.Covered Waiter.takes s'.box.items.length := by
  generalize ht : c.thread i = t at h
  cases h with
  | begin => exact hcov
  | accept d hroom =>
    rw [Mailbox.append_items, List.length_append, List.length_singleton]
    exact (Condition.covered_notify hcov).mpr (hput d ht hroom)
  | reject => exact hcov
  | close exc => exact Condition.covered_notifyAll
  | expire m hw => exact Condition.covered_expire hcov
  | find m timed _ s₀ s' r ha hlook =>
    subst ht
    obtain ⟨hcond, -, hlen⟩ := look_eq_some hlook
    rw [hcond, hlen, (ha.frame hi).1]
    exact ha.covered hcov
  | sleep m timed _ s₀ ha hlook =>
    rw [(look_eq_none hlook).1]
    exact Condition.covered_zero
  | giveUp m timed _ _ ha hlook =>
    rw [(look_eq_none hlook).1]
    exact Condition.covered_zero

/-! ## Runs -/

theorem boxInv_init (maxsize : Option Nat) : BoxInv (Boxed.init maxsize) where
  once := List.nodup_nil
  mem w := by simp [Boxed.init, Condition.empty]
  ended := fun _ => rfl

theorem reach_boxInv {ok : Boxed → Action Empty BoxChoice → Prop} {maxsize : Option Nat}
    (h : Reach mailbox ok (Boxed.init maxsize) c) : BoxInv c := by
  refine h.invariant (boxInv_init maxsize) ?_
  intro c a c' _ _ hs hi
  rcases System.step_cases hs with ⟨e, _⟩ | ⟨i, x, s, t, rfl, hx, rfl⟩
  · exact e.elim
  · exact (boxStep_move hx).inv hi

theorem heeded_put {x : BoxChoice} {p : Monitor × BoxCall} (hok : Heeded c (.thread i x))
    (hs : boxStep i x c.shared (c.thread i) = some p) (d : Bytes) (ht : c.thread i = .put d)
    (hroom : c.shared.box.full = false) :
    c.shared.cond.Useful Waiter.takes c.shared.box.items.length := by
  rw [ht] at hs
  cases x with
  | go =>
    simp only [Heeded, ht] at hok
    exact hok hroom
  | _ => cases hs

theorem reach_covered {maxsize : Option Nat} (h : Reach mailbox Heeded (Boxed.init maxsize) c) :
    c.Covered := by
  refine h.invariant (I := Boxed.Covered) Condition.covered_zero ?_
  intro c a c' hr hok hs hcov
  rcases System.step_cases hs with ⟨e, _⟩ | ⟨i, x, s, t, rfl, hx, rfl⟩
  · exact e.elim
  · exact (boxStep_move hx).covered (reach_boxInv hr) hcov (heeded_put hok hx)

/-- A covered mailbox loses no wake-up. -/
theorem BoxInv.not_lost (hi : BoxInv c) (hcov : c.Covered) : ¬ c.Lost := by
  rintro ⟨hwoken, hready, i, timed, ht⟩
  have hmem : (⟨i, .get⟩ : Waiter) ∈ c.shared.cond.waiters := by
    have hw := (hi.mem ⟨i, .get⟩).mpr ⟨timed, ht⟩
    rwa [hwoken, List.append_nil] at hw
  rcases hready with hitems | hexc
  · rcases hcov with hnone | hle
    · cases hnone _ hmem
    · rw [hwoken, List.countP_nil, Nat.le_zero, List.length_eq_zero_iff] at hle
      exact hitems hle
  · rw [hi.ended hexc] at hmem
    cases hmem

/-- What is not covered gets lost, once every woken thread has run. -/
theorem exists_lost (hi : BoxInv c) (hcov : ¬ c.Covered) :
    ∃ c', Reach mailbox anyStep c c' ∧ Boxed.Lost c' := by
  generalize hn : c.shared.cond.woken.length = n
  induction n generalizing c with
  | zero =>
    have hnil := List.length_eq_zero_iff.mp hn
    rw [Boxed.Covered, Condition.Covered, hnil, not_or] at hcov
    obtain ⟨hsome, hpos⟩ := hcov
    simp only [not_forall, Bool.not_eq_false] at hsome
    obtain ⟨⟨j, m⟩, hw, htakes⟩ := hsome
    obtain rfl : m = .get := by simpa [Waiter.takes] using htakes
    refine ⟨c, .start, hnil, Or.inl ?_, j, (hi.mem ⟨j, .get⟩).mp (List.mem_append_left _ hw)⟩
    rintro hitems
    rw [hitems] at hpos
    exact hpos (Nat.zero_le _)
  | succ n ih =>
    obtain ⟨⟨j, m⟩, ws, hws⟩ := List.exists_cons_of_length_eq_add_one hn
    have hw : ⟨j, m⟩ ∈ c.shared.cond.woken := hws ▸ List.mem_cons_self
    obtain ⟨timed, ht⟩ := (hi.mem ⟨j, m⟩).mp (List.mem_append_right _ hw)
    have hitems : c.shared.box.items ≠ [] := by
      intro hnil
      rw [Boxed.Covered, hnil] at hcov
      exact hcov Condition.covered_zero
    obtain ⟨s', r, hlook⟩ := look_of_ready
      (s := { c.shared with cond := c.shared.cond.resume ⟨j, m⟩ }) (m := m) hitems
    obtain ⟨hcond, -, hlen⟩ := look_eq_some hlook
    have hb : boxStep j .go c.shared (c.thread j) = some (s', .done r) := by
      rw [ht]
      cases timed <;> simp [boxStep, hw, hlook]
    have hs : mailbox.step c (.thread j .go) = some (c.move j (s', .done r)) :=
      Option.map_eq_some_iff.mpr ⟨_, hb, rfl⟩
    have hwoken : s'.cond.woken = ws := by
      rw [hcond]
      simp [Condition.resume, hws]
    have hlen' : s'.cond.woken.length = n := by
      rw [hwoken]
      simpa [hws] using hn
    -- the thread takes one payload at most, which was counted for it
    have hcov' : ¬ Boxed.Covered (c.move j (s', .done r)) := by
      have hlt := not_or.mp hcov
      simp only [Boxed.Covered, Condition.Covered, Config.move_shared, hwoken, hlen, not_or]
      rw [hcond]
      refine ⟨hlt.1, ?_⟩
      have hlt := hlt.2
      rw [hws, List.countP_cons] at hlt
      simp only [Waiter.takes, decide_eq_true_eq] at hlt ⊢
      split_ifs at hlt ⊢ <;> omega
    obtain ⟨c', hr, hl⟩ := ih ((boxStep_move hb).inv hi) hcov' hlen'
    exact ⟨c', (Reach.single trivial hs).trans hr, hl⟩

/-- **No lost wake-up.** If every accepted put notifies a `get`, or finds no `get` asleep, or finds
more woken `get`s than payloads, then no `get` sleeps on while there is something for it and no
woken thread has still to run. The first put that does none of this leads there. -/
theorem mailbox_wakes {maxsize : Option Nat} :
    (∀ c : Boxed, Reach mailbox Heeded (Boxed.init maxsize) c → ¬ c.Lost) ∧
    ∀ c a c', Reach mailbox Heeded (Boxed.init maxsize) c → mailbox.step c a = some c' →
      ¬ Heeded c a → ∃ c'', Reach mailbox anyStep c' c'' ∧ Boxed.Lost c'' := by
  refine ⟨fun c h => (reach_boxInv h).not_lost (reach_covered h), ?_⟩
  intro c a c' h hs hnot
  refine exists_lost (reach_boxInv (h.any.trans (.single trivial hs))) ?_
  rcases System.step_cases hs with ⟨e, _⟩ | ⟨i, x, s, t, rfl, hx, rfl⟩
  · exact e.elim
  · cases x with
    | go =>
      cases ht : c.thread i with
      | put d =>
        simp only [Heeded, ht, Classical.not_imp] at hnot
        obtain ⟨hroom, huseful⟩ := hnot
        have hx : boxStep i .go c.shared (c.thread i) = some (s, t) := hx
        simp only [ht, boxStep, Mailbox.put, hroom, Bool.false_eq_true, if_false,
          Option.some.injEq] at hx
        cases hx
        intro hcov
        refine huseful ((Condition.covered_notify (reach_covered h)).mp ?_)
        simpa [Boxed.Covered] using hcov
      | _ => simp [Heeded, ht] at hnot
    | _ => exact absurd trivial hnot

/-- Call `i` begins and takes its first step. -/
def begins (i : Nat) (t : BoxCall) : List (Action Empty BoxChoice) :=
  [.thread i (.begin t), .thread i .go]

/-- A `put` wakes the one `get` that sleeps. A `put` that meets a `poll` which came before a `get`
leads to a lost wake-up. -/
theorem mailbox_wakes_get :
    (∃ c : Boxed, Reach mailbox Heeded (Boxed.init none) c ∧ c.thread 0 = .waiting .get false ∧
      c.shared.box.items = [[0x86]] ∧ ¬ c.Lost) ∧
    ∃ c c' : Boxed, Reach mailbox Heeded (Boxed.init none) c ∧ Reach mailbox anyStep c c' ∧
      c'.Lost := by
  have h : Reach mailbox Heeded (Boxed.init none) _ :=
    .of_exec (show mailbox.exec Heeded
      (begins 0 (.enter .get false) ++ begins 1 (.put [0x86])) (Boxed.init none) = some _ from rfl)
  refine ⟨⟨_, h, rfl, rfl, mailbox_wakes.1 _ h⟩, ?_⟩
  have h : Reach mailbox Heeded (Boxed.init none) _ :=
    .of_exec (show mailbox.exec Heeded
      (begins 0 (.enter .poll false) ++ begins 1 (.enter .get false) ++
        [.thread 2 (.begin (.put [0x86]))]) (Boxed.init none) = some _ from rfl)
  obtain ⟨c', hr, hl⟩ := mailbox_wakes.2 _ (.thread 2 .go) _ h rfl (by decide)
  exact ⟨_, c', h, (Reach.single (a := .thread 2 .go) trivial rfl).trans hr, hl⟩

/-- A `poll` and then a `get` sleep, and the pump puts a payload: the `poll` is woken and returns,
the `get` sleeps on. -/
theorem mailbox_sleeps_on :
    ∃ c : Boxed, Reach mailbox anyStep (Boxed.init none) c ∧ c.Lost ∧
      c.shared.box.items = [[0x86]] ∧ c.thread 0 = .done (.polled true) := by
  have h : Reach mailbox anyStep (Boxed.init none) _ :=
    .of_exec (show mailbox.exec anyStep
      (begins 0 (.enter .poll false) ++ begins 1 (.enter .get false) ++ begins 2 (.put [0x86]) ++
        [.thread 0 .go]) (Boxed.init none) = some _ from rfl)
  exact ⟨_, h, ⟨rfl, Or.inl (List.cons_ne_nil [0x86] []), 1, false, rfl⟩, rfl, rfl⟩

end Raknet
