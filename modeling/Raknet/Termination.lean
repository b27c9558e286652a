import Raknet.Aio.Teardown
import Raknet.Pings

/-!
# How a Peer comes to an end

`Peer.close` joins the pump, and the pump may be anywhere in a callback when the flag is set. From
then on every step of the pump brings it closer to the end of its loop, and every step of the closer
uses up the snapshot. Nobody else moves either of them.

**Theorem (`close_terminates`).** On a closed Peer the pump and the closer take a bounded number of
steps in all. Until the closer is done one of them can take a step, and then whoever called `close`
can return.

**Theorem (`aio_close_terminates`).** So it is in asyncio, unless the `close` that tears the Peer
down is cancelled.
-/

namespace Raknet

open Interleaving

variable {text : SystemAddress → String} {s s' : State}

/-! ## What is left to do -/

/-- How many steps the pump of a closed Peer takes at most. -/
def PumpPc.left : PumpPc → Nat
  | exited => 0
  | failing | loop | fail _ => 1
  | connectSet _ | pingSet _ | incomingAccept _ | overflowMailbox _ | disconnectedMailbox _ _ => 2
  | succeededAssign _ _ | failedAssign _ _ | pongAssign _ _ _ _ | incomingRegister _ _
  | disconnectedMark _ _ | overflowRaw _ => 3
  | succeededRegister _ _ _ | failedPop _ _ | pongPop _ _ _ | incomingCreate _ _
  | disconnectedPop _ _ | overflowCheck _ => 4
  | succeededCreate _ _ _ | overflowMark _ => 5
  | succeededPop _ _ | overflowPop _ => 6
  | messagePut _ _ => 7
  | messageLookup _ _ => 8
  | route _ => 9
  | receive => 10

/-- How many steps the closer still takes. -/
def Teardown.left : Teardown → Nat
  | unbegun | done | cancelled _ => 0
  | putSentinel => 1
  | sweepPings snap => snap.pendingPings.length + 2
  | sweepConnects snap => 2 * snap.pendingConnects.length + snap.pendingPings.length + 3
  | setConnect _ snap => 2 * snap.pendingConnects.length + snap.pendingPings.length + 4
  | sweepConnections _ snap =>
    2 * snap.connections.length + 2 * snap.pendingConnects.length + snap.pendingPings.length + 4
  | closeMailbox _ _ snap =>
    2 * snap.connections.length + 2 * snap.pendingConnects.length + snap.pendingPings.length + 5
  | shutdown _ snap =>
    2 * snap.connections.length + 2 * snap.pendingConnects.length + snap.pendingPings.length + 5
  | joining snap =>
    2 * snap.connections.length + 2 * snap.pendingConnects.length + snap.pendingPings.length + 6

/-- What the pump and the closer of a closed Peer have left to do. -/
def State.left (s : State) : Nat := s.pump.left + s.teardown.left

/-- The action is one of the pump or the closer. -/
def State.Act.works : State.Act → Bool
  | pump | received _ | routeRaises _ | closer => true
  | recv _ | tick _ => false

theorem PumpPc.left_le (pc : PumpPc) : pc.left ≤ 10 := by
  cases pc <;> simp [left]

theorem PumpPc.left_enter (cb : Option Callback) : (enter cb).left < 9 := by
  rcases cb with _ | ⟨_ | _⟩ <;> simp [enter, left]

theorem PumpPc.DropsIn.left {p : Peer} {pc : PumpPc} (h : pc.DropsIn text p) : 1 < pc.left := by
  cases pc <;> first | exact h.elim | simp [PumpPc.left]

/-- Every step of the pump or the closer of a closed Peer uses up some of it. -/
theorem ActEffect.left {e : State.Act} (h : ActEffect text s e s')
    (hclosed : s.peer.closed = true) :
    s'.left + (if e.works then 1 else 0) ≤ s.left := by
  cases h with
  | route p h =>
    have henter := PumpPc.left_enter (Raknet.route p)
    have hroute : s.pump.left = 9 := by rw [h]; rfl
    simp only [State.left, State.goto_pump, State.goto_teardown, State.emit_teardown, hroute,
      State.Act.works, if_true]
    omega
  | drop h =>
    have hdrop := h.left
    have hloop : PumpPc.loop.left = 1 := rfl
    simp only [State.left, State.goto_pump, State.goto_teardown, hloop, State.Act.works, if_true]
    omega
  | poll h hopen | overflowCheck c h hopen | fail detail h hopen => simp [hclosed] at hopen
  | _ => simp_all [State.left, PumpPc.left, Teardown.left, State.Act.works] <;> omega

/-- The pump waits for RakNet in `receive`, and for the closer after it failed. -/
theorem pumpStep_isSome (hreceive : s.pump ≠ .receive) (hfailing : s.pump ≠ .failing)
    (hexited : s.pump ≠ .exited) : (s.pumpStep text).isSome := by
  cases hp : s.pump with
  | receive => exact absurd hp hreceive
  | failing => exact absurd hp hfailing
  | exited => exact absurd hp hexited
  | _ =>
    simp only [State.pumpStep, hp]
    first
    | rfl
    | split <;> rfl

variable (text) in
/-- As long as the closer of a closed Peer is not done, it or the pump can take a step. -/
theorem exists_work (hsd : ShutdownInv s) (hclosed : s.peer.closed = true)
    (hcancelled : ∀ snap, s.teardown ≠ .cancelled snap) (hdone : s.teardown ≠ .done) :
    ∃ e s', e.works = true ∧ State.act text e s = some s' := by
  have hcloser : s.closerStep.isSome → ∃ e s', e.works = true ∧ State.act text e s = some s' := by
    intro hsome
    obtain ⟨s', hs'⟩ := Option.isSome_iff_exists.mp hsome
    exact ⟨.closer, s', rfl, hs'⟩
  have hpump :
      (s.pumpStep text).isSome → ∃ e s', e.works = true ∧ State.act text e s = some s' := by
    intro hsome
    obtain ⟨s', hs'⟩ := Option.isSome_iff_exists.mp hsome
    exact ⟨.pump, s', rfl, hs'⟩
  cases ht : s.teardown with
  | unbegun => exact absurd ht (hsd.begun.mp hclosed)
  | done => exact absurd ht hdone
  | cancelled snap => exact absurd ht (hcancelled snap)
  | joining snap =>
    -- the closer waits for the pump, and the pump for nobody
    cases hp : s.pump with
    | exited => exact hcloser (by simp [State.closerStep, ht, hp])
    | receive =>
      exact ⟨.received .nothing, s.goto .loop, rfl, by simp [State.act, State.received, hp]⟩
    | failing =>
      have hjoined := hsd.failing hp
      rw [ht] at hjoined
      cases hjoined
    | _ => exact hpump (pumpStep_isSome (by simp [hp]) (by simp [hp]) (by simp [hp]))
  | sweepConnections exc snap | sweepConnects snap | sweepPings snap =>
    exact hcloser (by simp only [State.closerStep, ht]; split <;> rfl)
  | _ => exact hcloser (by simp only [State.closerStep, ht]; rfl)

/-! ## Runs -/

section

variable {τ α : Type} {M : System State τ State.Act α}
  {ok : Config State τ → Action State.Act α → Prop} {c d : Config State τ}
  {tr : List (Config State τ × Action State.Act α)}

/-- The step is one of the pump or the closer. -/
def teardownStep : Config State τ × Action State.Act α → Bool
  | (_, .shared e) => e.works
  | (_, .thread _ _) => false

variable (text) in
/-- Whatever the threads do: if they leave the pump and the closer of a closed Peer alone, these
take no more steps than they have left. -/
theorem closed_budget (hshared : M.shared = State.act text)
    (hthread : ∀ c i x s t, ok c (.thread i x) → M.thread i x c.shared (c.thread i) = some (s, t) →
      c.shared.peer.closed = true → s.peer.closed = true ∧ s.left = c.shared.left)
    (hclosed : c.shared.peer.closed = true) (h : Trace M ok c tr d) :
    d.shared.peer.closed = true ∧ d.shared.left + tr.countP teardownStep ≤ c.shared.left := by
  refine h.budget (fun c => c.shared.peer.closed = true) teardownStep
    (fun c => c.shared.left) hclosed
    ?_
  intro c a c' _ hok hs hclosed
  rcases System.step_cases hs with ⟨e, s, rfl, he, rfl⟩ | ⟨i, x, s, t, rfl, hx, rfl⟩
  · rw [hshared] at he
    have heff := act_effect he
    exact ⟨heff.closed hclosed, heff.left hclosed⟩
  · obtain ⟨hclosed', hleft⟩ := hthread c i x s t hok hx hclosed
    exact ⟨hclosed', by simp [teardownStep, hleft]⟩

end

/-- A call of the sync API is waiting for the closer. -/
def Call.joins : Call → Bool
  | connect _ (.reap _ (.peer .closing)) | connect _ (.closePeer _ .closing)
  | close _ _ (.peer .closing) | closePeer .closing => true
  | _ => false

theorem CallEffect.left {i : CallId} {t : Call} (h : CallEffect text i s t s')
    (hclosed : s.peer.closed = true) : s'.peer.closed = true ∧ s'.left = s.left := by
  cases h with
  | beginClose hopen => simp [hclosed] at hopen
  | _ => exact ⟨hclosed, rfl⟩

variable (text) in
/-- Who waits for the closer goes on when it is done. -/
theorem Call.joins_step {i : CallId} {t : Call} (h : t.joins = true) (hdone : s.teardown = .done) :
    ∃ t', callStep text i (.inr .go) s t = some (s, t') := by
  unfold Call.joins at h
  split at h
  case h_5 => cases h
  all_goals simp [callStep, connectStep, closeStep, closePeerStep, hdone]

theorem reach_uncancelled {q : Option Nat} {t₀ : Int} {c : Sync}
    (h : Reach (sync text) anyStep (Sync.init q t₀) c) (snap : Snapshot) :
    c.shared.teardown ≠ .cancelled snap := by
  refine h.invariant (I := fun c => c.shared.teardown ≠ .cancelled snap)
    (by simp [Sync.init, State.init])
    ?_
  intro c a c' _ _ hs hi
  rcases System.step_cases hs with ⟨e, s, rfl, he, rfl⟩ | ⟨i, x, s, t, rfl, hx, rfl⟩
  · cases act_effect he <;> simp_all
  · cases callStep_effect hx <;> simp_all

theorem left_joining {snap : Snapshot} (h : s.teardown = .joining snap) :
    s.left ≤ 2 * snap.connections.length + 2 * snap.pendingConnects.length +
      snap.pendingPings.length + 16 := by
  have hpump := s.pump.left_le
  simp only [State.left, h, Teardown.left]
  omega

/-! ## Sync and asyncio -/

/-- **`Peer.close` terminates.** From any state of a closed Peer the pump and the closer take no
more steps than they have left, however the calls go on; until the closer is done one of them can
take a step; and when it is done, whoever waits for it can return. -/
theorem close_terminates {q : Option Nat} {t₀ : Int} {c d : Sync} {tr : List (Sync × SyncAction)}
    (hr : Reach (sync text) anyStep (Sync.init q t₀) c) (hclosed : c.shared.peer.closed = true)
    (h : Trace (sync text) anyStep c tr d) :
    d.shared.left + tr.countP teardownStep ≤ c.shared.left ∧
    (∀ snap, c.shared.teardown = .joining snap → c.shared.left ≤ 2 * snap.connections.length +
      2 * snap.pendingConnects.length + snap.pendingPings.length + 16) ∧
    (d.shared.teardown ≠ .done → ∃ e d', e.works = true ∧
      (sync text).step d (.shared e) = some d') ∧
    (d.shared.teardown = .done → ∀ i, (d.thread i).joins = true →
      ∃ d', (sync text).step d (.thread i (.inr .go)) = some d') := by
  have hrd := hr.trans h.reach
  obtain ⟨hclosed', hbudget⟩ := closed_budget text rfl
    (fun c i x s t _ hx hclosed => (callStep_effect hx).left hclosed) hclosed h
  refine ⟨hbudget, fun snap => left_joining, ?_, ?_⟩
  · intro hdone
    obtain ⟨e, s, hworks, hs⟩ :=
      exists_work text (reach_shutdownInv hrd) hclosed' (reach_uncancelled hrd) hdone
    exact ⟨e, { d with shared := s }, hworks, by simp [System.step, sync, hs]⟩
  · intro hdone i hjoins
    obtain ⟨t, ht⟩ := Call.joins_step text (i := i) hjoins hdone
    exact ⟨d.move i (d.shared, t), by simp [System.step, sync, ht]⟩

/-- A client connects, and the Peer is closed: the pump and the closer take ten steps together. -/
theorem close_terminates_one :
    ∃ c d tr, Reach (sync SystemAddress.text) anyStep (Sync.init none 0) c ∧
      c.shared.teardown = .joining ⟨[0], [], []⟩ ∧ Trace (sync SystemAddress.text) anyStep c tr d ∧
      tr.countP teardownStep ≤ 18 ∧ d.shared.teardown = .done ∧
      ∃ d', (sync SystemAddress.text).step d (.thread 0 (.inr .go)) = some d' := by
  let c : Sync := ((sync SystemAddress.text).exec anyStep
    (routes ⟨⟨"10.0.0.1", 1⟩, 7, [19]⟩ 4 ++ .thread 0 (.inl .closePeer) :: steps 0 1)
    (Sync.init none 0)).get rfl
  have hr : Reach (sync SystemAddress.text) anyStep (Sync.init none 0) c :=
    .of_exec (Option.some_get rfl).symm
  have hrun : Reach (sync SystemAddress.text) anyStep c _ :=
    .of_exec (show (sync SystemAddress.text).exec anyStep (pumps 1 ++ closes 8) c = some _ from rfl)
  obtain ⟨tr, htr⟩ := hrun.exists_trace
  obtain ⟨hbudget, hleft, -, hend⟩ := close_terminates hr rfl htr
  have hcount : tr.countP teardownStep ≤ 18 :=
    (Nat.le_add_left _ _).trans (hbudget.trans (hleft ⟨[0], [], []⟩ rfl))
  exact ⟨_, _, tr, hr, rfl, htr, hcount, rfl, hend rfl 0 rfl⟩

theorem TaskMove.left {i : CallId} {t t' : Task} {x : CallStart ⊕ TaskChoice}
    (h : TaskMove text i s t x s' t') (hspare : x = .inr .cancel → t.closesPeer = false)
    (hclosed : s.peer.closed = true) : s'.peer.closed = true ∧ s'.left = s.left := by
  have hteardown := h.teardown
  generalize hb : t.closesPeer = b at hteardown hspare
  generalize t'.closesPeer = b' at hteardown
  cases hteardown with
  | keep b hteardown hclosed' hpump hcancel =>
    exact ⟨hclosed'.trans hclosed, by rw [State.left, State.left, hpump, hteardown]⟩
  | begin hopen hs => simp [hclosed] at hopen
  | done hs hdone hgo =>
    subst hs
    exact ⟨hclosed, rfl⟩
  | cancelled hx hs => cases hspare hx

instance (c : Aio) (a : AioAction) : Decidable (Aio.Spares c a) := by
  rcases a with _ | ⟨i, _ | _ | _ | _⟩ <;> simp only [Aio.Spares] <;> infer_instance

variable (text) in
/-- A task that waits for the closer goes on when it is done. -/
theorem Task.closesPeer_step {i : CallId} {t : Task} (h : t.closesPeer = true)
    (hdone : s.teardown = .done) : ∃ t', taskStep text i (.inr .go) s t = some (s, t') := by
  cases t with
  | connect args w pc =>
    cases pc with
    | reap c q =>
      cases q with
      | peer q =>
        cases q with
        | closing => simp [taskStep, connectTaskStep, closeStep, closePeerStep, hdone]
        | «begin» => cases h
      | _ => cases h
    | closePeer x q =>
      cases q with
      | closing => simp [taskStep, connectTaskStep, closePeerStep, hdone]
      | «begin» => cases h
    | _ => cases h
  | close c notify q =>
    cases q with
    | peer q =>
      cases q with
      | closing => simp [taskStep, closeStep, closePeerStep, hdone]
      | «begin» => cases h
    | _ => cases h
  | closePeer q =>
    cases q with
    | closing => simp [taskStep, closePeerStep, hdone]
    | «begin» => cases h
  | _ => cases h

/-- **In asyncio, `Peer.close` terminates unless it is cancelled.** -/
theorem aio_close_terminates {q : Option Nat} {t₀ : Int} {c d : Aio} {tr : List (Aio × AioAction)}
    (hr : Reach (aio text) Aio.Spares (Aio.init q t₀) c) (hclosed : c.shared.peer.closed = true)
    (h : Trace (aio text) Aio.Spares c tr d) :
    d.shared.left + tr.countP teardownStep ≤ c.shared.left ∧
    (∀ snap, c.shared.teardown = .joining snap → c.shared.left ≤ 2 * snap.connections.length +
      2 * snap.pendingConnects.length + snap.pendingPings.length + 16) ∧
    (d.shared.teardown ≠ .done → ∃ e d', e.works = true ∧
      (aio text).step d (.shared e) = some d') ∧
    (d.shared.teardown = .done → ∀ i, (d.thread i).closesPeer = true →
      ∃ d', (aio text).step d (.thread i (.inr .go)) = some d') := by
  have hrd := hr.trans h.reach
  have hspare : ∀ c i x, Aio.Spares c (.thread i x) → x = .inr .cancel →
      (c.thread i).closesPeer = false := by
    rintro c i _ hok rfl
    exact hok
  obtain ⟨hclosed', hbudget⟩ := closed_budget text rfl
    (fun c i x s t hok hx hclosed => (taskStep_move hx).left (hspare c i x hok) hclosed) hclosed h
  refine ⟨hbudget, fun snap => left_joining, ?_, ?_⟩
  · intro hdone
    obtain ⟨e, s, hworks, hs⟩ := exists_work text (reach_aioShutdown hrd).toShutdownInv
      hclosed' (reach_sweeping hrd).uncancelled hdone
    exact ⟨e, { d with shared := s }, hworks, by simp [System.step, aio, hs]⟩
  · intro hdone i hcloses
    obtain ⟨t, ht⟩ := Task.closesPeer_step text (i := i) hcloses hdone
    exact ⟨d.move i (d.shared, t), by simp [System.step, aio, ht]⟩

/-- The `close` of a Peer with one client goes on to its end. -/
theorem aio_close_terminates_one :
    ∃ c d tr, Reach (aio SystemAddress.text) Aio.Spares (Aio.init none 0) c ∧
      c.shared.teardown = .joining ⟨[0], [0], []⟩ ∧
        Trace (aio SystemAddress.text) Aio.Spares c tr d ∧
      tr.countP teardownStep ≤ 20 ∧ d.shared.teardown = .done ∧
      ∃ d', (aio SystemAddress.text).step d (.thread 1 (.inr .go)) = some d' := by
  let c : Aio :=
    ((aio SystemAddress.text).exec Aio.Spares closeBegun (Aio.init none 0)).get rfl
  have hr : Reach (aio SystemAddress.text) Aio.Spares (Aio.init none 0) c :=
    .of_exec (Option.some_get rfl).symm
  have hrun : Reach (aio SystemAddress.text) Aio.Spares c _ :=
    .of_exec (show (aio SystemAddress.text).exec Aio.Spares
      (.shared .pump :: List.replicate 10 (.shared .closer)) c = some _ from rfl)
  obtain ⟨tr, htr⟩ := hrun.exists_trace
  obtain ⟨hbudget, hleft, -, hend⟩ := aio_close_terminates hr rfl htr
  have hcount : tr.countP teardownStep ≤ 20 :=
    (Nat.le_add_left _ _).trans (hbudget.trans (hleft ⟨[0], [0], []⟩ rfl))
  exact ⟨_, _, tr, hr, rfl, htr, hcount, rfl, hend rfl 1 rfl⟩

end Raknet
