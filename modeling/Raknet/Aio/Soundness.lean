import Raknet.Aio.Requests
import Raknet.Sync.Closing

/-!
# What cancellation leaves intact

A `CancelledError` can reach a task of the asyncio API at every await point, and workers go on
without their tasks. The registry and the pending tables keep what they keep in a sync Peer.

**Theorem (`aio_registry_sound`).** Entries of the registry are stored under their own guid, open
and without a reason; what left the registry stays out; a stored reason stays; and when no operation
is half-way, exactly the flagged Connections have a reason.

**Theorem (`aio_pending_sound`).** Every pending object enters its table at most once, is taken out
of it by at most one party and is resolved at most once, with a settled outcome; no `assert` fails.
-/

namespace Raknet

open Interleaving Handoff

variable {text : SystemAddress → String} {s s' : State} {i : CallId}

/-! ## The flag and the reason -/

/-- A `Connection.close` that has flagged its Connection holds it until it has stored a reason. -/
theorem CloseEffect.settled {k : ConnId} {notify : Bool} {pc : ClosePc} {pc' : Option ClosePc}
    (h : CloseEffect k notify s pc s' pc') (hsd : ShutdownInv s) {c : ConnId} {held : Prop}
    (hc : s.Settled c ((pc.finishing = true ∧ k = c) ∨ held)) :
    s'.Settled c ((∃ q, pc' = some q ∧ q.finishing = true ∧ k = c) ∨ held) := by
  have hbegun := hsd.begun
  simp only [State.Settled, State.Finishing] at hc ⊢
  cases h <;> grind [ClosePc.finishing, Teardown.inHand]

theorem CallEffect.settled {t : Call} (h : CallEffect text i s t s') (ht : t.closing = Option.none)
    (hsd : ShutdownInv s) {c : ConnId} {held : Prop} (hc : s.Settled c held) :
    s'.Settled c held := by
  have hbegun := hsd.begun
  simp only [State.Settled, State.Finishing] at hc ⊢
  cases h <;> grind [Teardown.inHand]

theorem cancelled_settled {snap : Snapshot}
    (hsnap : s.teardown = .joining snap ∨ s.teardown = .shutdown none snap) {c : ConnId}
    {held : Prop} (hc : s.Settled c held) : (s.close (.cancelled snap)).Settled c held := by
  intro hclosed
  refine (hc hclosed).imp_right (Or.imp_left ?_)
  rintro (hpump | hhand)
  · exact Or.inl hpump
  · rcases hsnap with hsnap | hsnap <;> rw [hsnap] at hhand <;> cases hhand

/-- The Connection that a task has flagged and not yet given a reason. -/
def Task.finishing (t : Task) : Option ConnId := t.taskCall.finishing

theorem Task.workerCall_closing (t : Task) : t.workerCall.closing = none := by
  unfold Task.workerCall
  split <;> rfl

theorem CloseEffect.task {k : ConnId} {notify : Bool} {pc : ClosePc} {pc' : Option ClosePc}
    {t t' : Task} (h : CloseEffect k notify s pc s' pc') (hsd : ShutdownInv s)
    (ht : t.taskCall.closing = some (k, pc))
    (ht' : ∀ q, pc' = some q → t'.taskCall.closing = some (k, q)) {c : ConnId} {held : Prop}
    (hc : s.Settled c (t.finishing = some c ∨ held)) :
    s'.Settled c (t'.finishing = some c ∨ held) := by
  have hmine : t.finishing = some c → pc.finishing = true ∧ k = c := by
    intro hfin
    simp only [Task.finishing, Call.finishing, ht] at hfin
    split_ifs at hfin with hpc
    exact ⟨hpc, Option.some.inj hfin⟩
  have hset : s'.Settled c ((∃ q, pc' = some q ∧ q.finishing = true ∧ k = c) ∨ held) :=
    h.settled hsd fun hclosed => (hc hclosed).imp_right (Or.imp_right (Or.imp_left hmine))
  refine fun hclosed => (hset hclosed).imp_right (Or.imp_right (Or.imp_left ?_))
  rintro ⟨q, hq, hfin, rfl⟩
  simp [Task.finishing, Call.finishing, ht' q hq, hfin]

theorem TaskMove.settled {t t' : Task} {x : CallStart ⊕ TaskChoice}
    (h : TaskMove text i s t x s' t') (hsd : ShutdownInv s) {c : ConnId} {held : Prop}
    (hc : s.Settled c (t.finishing = some c ∨ held)) :
    s'.Settled c (t'.finishing = some c ∨ held) := by
  have hlet : t.finishing = none → (s.Settled c held → s'.Settled c held) →
      s'.Settled c (t'.finishing = some c ∨ held) := by
    intro hfin hkeep
    have hset := hkeep (by simpa [hfin] using hc)
    exact fun hclosed => (hset hclosed).imp_right (Or.imp_right Or.inr)
  have hidle : t.taskCall.closing = none → s'.Settled c (t'.finishing = some c ∨ held) := by
    intro hcl
    refine hlet (by simp [Task.finishing, Call.finishing, hcl]) fun hs => ?_
    cases h.effect with
    | worker s' h => exact h.settled t.workerCall_closing hsd hs
    | task s' h => exact h.settled hcl hsd hs
    | cancelClose snap hsnap => exact cancelled_settled hsnap hs
  cases h with
  | connect args w w' pc pc' s' ch h =>
    cases h with
    | work q ch s' n pc h =>
      -- the coroutine stands still while its worker moves
      have heff := (CallMove.connect args _ _ _ (startStep_connectEffect h)).effect
      have hsame : (Task.connect args n.worker pc).finishing =
          (Task.connect args (.running q) pc).finishing :=
        congrArg Call.finishing (Task.taskCall_connect args n.worker (.running q) pc)
      rw [hsame]
      exact heff.settled rfl hsd hc
    | reap w k pc pc' s' h => exact h.task hsd rfl (fun q hq => by cases hq; rfl) hc
    | reaped w k pc s' h => exact h.task hsd rfl (fun q hq => by cases hq) hc
    | cancelReap w k s' h =>
      obtain ⟨snap, hsnap, rfl⟩ := cancelClose_eq_some h
      exact hlet rfl (cancelled_settled hsnap)
    | _ => exact hidle rfl
  | ping args w w' pc pc' s' ch h => exact hidle (by cases pc <;> rfl)
  | close k notify pc pc' s' h => exact h.task hsd rfl (fun q hq => by cases hq; rfl) hc
  | closed k notify pc s' h => exact h.task hsd rfl (fun q hq => by cases hq) hc
  | cancelClose k notify s' h =>
    obtain ⟨snap, hsnap, rfl⟩ := cancelClose_eq_some h
    exact hlet rfl (cancelled_settled hsnap)
  | _ => exact hidle rfl

/-- In every run, a flagged Connection has a reason or somebody will store one. -/
theorem reach_aioSettled {ok : Aio → AioAction → Prop} {c : Aio} {q : Option Nat} {t₀ : Int}
    (h : Reach (aio text) ok (Aio.init q t₀) c) (k : ConnId) :
    c.shared.Settled k (∃ i, (c.thread i).finishing = some k) := by
  refine h.invariant (I := fun c => c.shared.Settled k (∃ i, (c.thread i).finishing = some k))
    (fun hc => by simp [Aio.init, State.init, Peer.init, default] at hc) ?_
  intro c a c' hr _ hs hi
  have hsd := (reach_aioShutdown hr).toShutdownInv
  rcases System.step_cases hs with ⟨e, s, rfl, he, rfl⟩ | ⟨i, x, s, t, rfl, hx, rfl⟩
  · exact (act_effect he).settled hsd hi
  · -- the other tasks keep what they hold
    have hsplit : c.shared.Settled k ((c.thread i).finishing = some k ∨
        ∃ j, j ≠ i ∧ (c.thread j).finishing = some k) := by
      refine fun hc => (hi hc).imp_right (Or.imp_right ?_)
      rintro ⟨j, hj⟩
      by_cases hji : j = i
      · exact Or.inl (hji ▸ hj)
      · exact Or.inr ⟨j, hji, hj⟩
    refine fun hc => ((taskStep_move hx).settled hsd hsplit hc).imp_right (Or.imp_right ?_)
    rintro (hown | ⟨j, hji, hj⟩)
    · exact ⟨i, by simpa using hown⟩
    · exact ⟨j, by rwa [Config.move_thread_of_ne _ _ hji]⟩

/-- No operation on a Connection is half-way. A `close` that was cancelled has given up. -/
structure Aio.Quiet (c : Aio) : Prop where
  pump : c.shared.pump.idle = true
  closer : c.shared.teardown = .unbegun ∨ c.shared.teardown = .done ∨
    ∃ snap, c.shared.teardown = .cancelled snap
  tasks : ∀ i, (c.thread i).taskCall.closing = none

theorem Aio.Quiet.reason {c : Aio} (hq : c.Quiet) {k : ConnId}
    (h : c.shared.Settled k (∃ i, (c.thread i).finishing = some k))
    (hc : (c.shared.peer.connection k).closed = true) : c.shared.registry.reason k ≠ none := by
  rcases h hc with h | (h | h) | ⟨i, h⟩
  · exact h
  · have hidle := hq.pump
    cases hp : c.shared.pump <;> simp_all [PumpPc.idle, PumpPc.finishing]
  · rcases hq.closer with ht | ht | ⟨snap, ht⟩ <;> simp [ht, Teardown.inHand] at h
  · simp [Task.finishing, Call.finishing, hq.tasks i] at h

theorem reach_aioGrows {ok ok' : Aio → AioAction → Prop} {c c' : Aio} {q : Option Nat} {t₀ : Int}
    (h : Reach (aio text) ok (Aio.init q t₀) c) (h' : Reach (aio text) ok' c c') :
    c.shared.registry.Grows c'.shared.registry := by
  induction h' with
  | start => exact .refl _
  | step hr _ hs ih =>
    have hreach := h.any.trans hr.any
    exact ih.trans ((step_aioRegistry hreach hs).grows (reach_aioRegistry hreach).1.inv)

/-- **The registry of an asyncio Peer.** In every reachable configuration the entries are stored
under their own guid, open and without a reason; a Connection that left the registry stays out of
it; when no operation is half-way exactly the flagged Connections have a reason; and a stored reason
is never replaced. -/
theorem aio_registry_sound {q : Option Nat} {t₀ : Int} {c : Aio}
    (h : Reach (aio text) anyStep (Aio.init q t₀) c) :
    (∀ g k, c.shared.peer.connections.get? g = some k →
      (c.shared.peer.connection k).rawGuid = g ∧ (c.shared.peer.connection k).closed = false ∧
        (c.shared.peer.connection k).mailbox.exc = none) ∧
    (∀ c' c'' k, Reach (aio text) anyStep c c' → Reach (aio text) anyStep c' c'' →
      c.shared.registry.Listed k → ¬ c'.shared.registry.Listed k →
      ¬ c''.shared.registry.Listed k) ∧
    (c.Quiet → ∀ k, k < c.shared.peer.created →
      ((c.shared.peer.connection k).closed = true ↔
        (c.shared.peer.connection k).mailbox.exc ≠ none)) ∧
    (∀ c' k e, Reach (aio text) anyStep c c' → k < c.shared.peer.created →
      (c.shared.peer.connection k).mailbox.exc = some e →
      (c'.shared.peer.connection k).mailbox.exc = some e) := by
  have hinv := (reach_aioRegistry h).1.inv
  refine ⟨fun g k hg => ?_, fun c' c'' k hc' hc'' hin hout => ?_, fun hq k hk => ⟨?_, fun he => ?_⟩,
    fun c' k e hc' hk he => (reach_aioGrows h hc').reason k e hk he⟩
  · exact ⟨hinv.listed_guid g k hg, hinv.listed_open g k hg,
      hinv.open_reason k (hinv.listed_published g k hg).1 (hinv.listed_open g k hg)⟩
  · obtain ⟨g, hg⟩ := hin
    have hpub := (reach_aioGrows h hc').published k (hinv.listed_published g k hg)
    exact ((reach_aioGrows (h.trans hc') hc'').gone k ⟨hpub, hout⟩).2
  · exact hq.reason (reach_aioSettled h k)
  · by_contra hopen
    exact he (hinv.open_reason k hk (by simpa using hopen))

/-- A Connection is closed, and the `close` of the Peer is cancelled while it waits for the pump. -/
theorem aio_registry_sound_cancelled :
    ∃ c snap, Reach (aio SystemAddress.text) anyStep (Aio.init none 0) c ∧
      c.shared.teardown = .cancelled snap ∧ c.thread 0 = .closed 0 ∧
      (c.shared.peer.connection 0).mailbox.exc ≠ none := by
  have h := Reach.of_exec (show (aio SystemAddress.text).exec anyStep
    (aioRoutes ⟨⟨"10.0.0.1", 1⟩, 7, [19]⟩ 4 ++ .thread 0 (.inl (.close 0 true)) ::
      List.replicate 7 (.thread 0 (.inr .go)) ++
      [.thread 1 (.inl .closePeer), .thread 1 (.inr .go), .thread 1 (.inr .cancel)])
    (Aio.init none 0) = some _ from rfl)
  refine ⟨_, _, h, rfl, rfl, ?_⟩
  refine ((aio_registry_sound h).2.2.1 ⟨rfl, Or.inr (Or.inr ⟨_, rfl⟩), fun i => ?_⟩ 0
    (by decide)).mp rfl
  rcases i with _ | _ | i <;> rfl

/-! ## What the callers see -/

/-- A worker that raises does not fail an `assert`. -/
def Worker.Fine : ConnectWorker → Prop
  | .done (.error e) => e ≠ .assertion
  | _ => True

/-- What the end of a task says about its pending object. -/
def ConnectTask.Holds (s : State) (i : CallId) : ConnectTask → Prop
  | finish => (s.peer.pendingConnect i).event = true
  | own c | returned c =>
    (s.peer.pendingConnect i).event = true ∧ (s.peer.pendingConnect i).connection = some c
  | closePeer x _ | left x => x ≠ .error .assertion
  | _ => True

/-- What a task says about its worker and its pending object. -/
def Task.Holds (s : State) (i : CallId) : Task → Prop
  | connect _ w pc => w.Fine ∧ pc.Holds s i
  | _ => True

theorem ConnectTask.Holds.grows {pc : ConnectTask} (h : pc.Holds s i)
    (hc : s.connects.Grows s'.connects) : pc.Holds s' i := by
  cases pc with
  | finish => exact (hc.event i h).1
  | own c | returned c =>
    obtain ⟨hevent, hconn⟩ := hc.event i h.1
    exact ⟨hevent, (congrArg Prod.fst hconn).trans h.2⟩
  | _ => exact h

theorem Task.Holds.grows {t : Task} (h : t.Holds s i) (hc : s.connects.Grows s'.connects) :
    t.Holds s' i := by
  cases t with
  | connect args w pc => exact ⟨h.1, h.2.grows hc⟩
  | _ => trivial

theorem startStep_fine {args : ConnectArgs} {q : StartPc} {ch : Choice}
    {n : Next StartPc (Except Error SystemAddress)}
    (h : startStep text i args s q ch = some (s', n)) : n.worker.Fine := by
  cases q <;> cases ch <;> simp only [startStep, reduceCtorEq] at h
  case checkOpen.go =>
    cases h
    split_ifs <;> simp [Next.worker, Worker.Fine, peerIsClosed]
  case checkAttempts.go =>
    cases h
    split_ifs <;> simp [Next.worker, Worker.Fine]
  case resolve.resolved ip => cases ip <;> cases h <;> simp [Next.worker, Worker.Fine]
  case register.go a =>
    split_ifs at h <;> cases h <;> simp [Next.worker, Worker.Fine, peerIsClosed]
  case rawConnect.connectResult a r =>
    cases h
    split_ifs <;> simp [Next.worker, Worker.Fine]
  case rawConnect.connectRaises a message | popFailed.go a r =>
    cases h
    simp [Next.worker, Worker.Fine]

theorem holds_exit {args : ConnectArgs} {x : Exit} (hx : x ≠ .error .assertion) :
    (args.exit x).Holds s i := by
  unfold ConnectArgs.exit
  split_ifs <;> exact hx

theorem ConnectTaskEffect.holds {args : ConnectArgs} {w w' : ConnectWorker} {pc pc' : ConnectTask}
    {ch : TaskChoice} (h : ConnectTaskEffect text i args s w pc ch s' w' pc')
    (hi : s.connects.Inv ConnectOutcome.Blank ConnectOutcome.Settled) (hw : w.Fine)
    (hpc : pc.Holds s i) (hpc' : pc.Holds s' i) : w'.Fine ∧ pc'.Holds s' i := by
  cases h with
  | take => exact ⟨trivial, trivial⟩
  | drop => exact ⟨trivial, holds_exit (by simp)⟩
  | work q ch s' n pc h => exact ⟨startStep_fine h, hpc'⟩
  | raised e => exact ⟨hw, holds_exit fun hx => hw (by cases hx; rfl)⟩
  | woken w a hevent => exact ⟨hw, hevent⟩
  | finish w c h =>
    have hconn : (s.peer.pendingConnect i).connection = some c := by
      unfold finishConnect at h
      split at h <;> cases h
      assumption
    unfold ConnectArgs.hand
    split_ifs <;> exact ⟨hw, hpc, hconn⟩
  | failed w e h =>
    -- a settled outcome with no reason has a Connection
    have hsettled := hi.settled_resolved i ((hi.mem_resolved i).mpr hpc)
    refine ⟨hw, holds_exit fun hassert => ?_⟩
    cases hassert
    unfold finishConnect at h
    split at h <;> simp_all [ConnectOutcome.Settled, State.connects]
  | closeLost w x hclosed | closeBegin w x hopen | closeDone w x hdone | own w c => exact ⟨hw, hpc'⟩
  | cancelStart w hw' | cancel w a | nothing w hnone | reaped w c pc s' h | cancelReap w c s' h =>
    exact ⟨hw, holds_exit (by simp)⟩
  | cancelClosePeer w x s' h => exact ⟨hw, by simp [ConnectTask.Holds]⟩
  | _ => exact ⟨hw, trivial⟩

theorem TaskMove.holds {t t' : Task} {x : CallStart ⊕ TaskChoice}
    (h : TaskMove text i s t x s' t')
    (hi : s.connects.Inv ConnectOutcome.Blank ConnectOutcome.Settled)
    (hc : s.connects.Grows s'.connects) (ht : t.Holds s i) : t'.Holds s' i := by
  cases h with
  | begin start t h =>
    cases start <;> simp only [startTask] at h
    case connect args =>
      cases h
      exact ⟨trivial, trivial⟩
    case close k notify =>
      split_ifs at h
      cases h
      trivial
    all_goals
      cases h
      trivial
  | connect args w w' pc pc' s' ch h => exact h.holds hi ht.1 ht.2 (ht.2.grows hc)
  | _ => trivial

theorem TaskEffect.connectionInv {t : Task} (h : TaskEffect text i s t s')
    (hi : ConnectionInv s) : ConnectionInv s' := by
  cases h with
  | worker s' h | task s' h => exact h.connectionInv hi
  | cancelClose snap h => exact ⟨hi.inj, hi.assign⟩

theorem reach_aioHolds {ok : Aio → AioAction → Prop} {c : Aio} {q : Option Nat} {t₀ : Int}
    (h : Reach (aio text) ok (Aio.init q t₀) c) :
    ConnectionInv c.shared ∧ ∀ i, (c.thread i).Holds c.shared i := by
  refine h.outline (L := fun i s t => t.Holds s i) (connectionInv_init q t₀) (fun _ => trivial)
    ?_ ?_
  · intro c e s hr _ hs hi
    have hpend := (reach_aioPending hr).1
    have heff := act_effect hs
    have hgrows := ((heff.pending hpend (reach_aioShutdown hr).toShutdownInv).grows hpend).1
    exact ⟨heff.connectionInv (reach_aioRegistry hr).1 hi, fun i t ht => ht.grows hgrows⟩
  · intro c i x s t hr _ hs hi ht
    obtain ⟨hpend, hun⟩ := reach_aioPending hr
    have hmove := taskStep_move hs
    have hstep := hmove.effect.pending hpend (hun i) (reach_aioShutdown hr).toShutdownInv
    have hgrows := (hstep.grows hpend).1
    exact ⟨hmove.effect.connectionInv hi, hmove.holds hpend.connects hgrows ht,
      fun j _ u hu => hu.grows hgrows⟩

theorem reach_aioPendingGrows {ok ok' : Aio → AioAction → Prop} {c c' : Aio} {q : Option Nat}
    {t₀ : Int} (h : Reach (aio text) ok (Aio.init q t₀) c) (h' : Reach (aio text) ok' c c') :
    c.shared.connects.Grows c'.shared.connects ∧ c.shared.pings.Grows c'.shared.pings := by
  induction h' with
  | start => exact ⟨.refl _, .refl _⟩
  | step hr _ hs ih =>
    have hreach := h.any.trans hr.any
    have hgrows := (step_aioPending hreach hs).grows (reach_aioPending hreach).1
    exact ⟨ih.1.trans hgrows.1, ih.2.trans hgrows.2⟩

/-- **Pending requests of an asyncio Peer.** In every reachable configuration nothing happened twice
to a pending object, and from there on what left its table does not come back and what was resolved
stays as it is. A resolved connect has a Connection or a reason and not both, a resolved ping has
its pong unless the Peer was closed. No `assert` fails, and the Connection that a connect returned
belongs to no other pending connect. -/
theorem aio_pending_sound {q : Option Nat} {t₀ : Int} {c : Aio}
    (h : Reach (aio text) anyStep (Aio.init q t₀) c) :
    (c.shared.connects.Once ∧ c.shared.pings.Once) ∧
    (∀ c', Reach (aio text) anyStep c c' →
      c.shared.connects.Grows c'.shared.connects ∧ c.shared.pings.Grows c'.shared.pings) ∧
    (∀ i, (c.shared.peer.pendingConnect i).event = true →
      ((c.shared.peer.pendingConnect i).connection = none ↔
        (c.shared.peer.pendingConnect i).reason ≠ none)) ∧
    (∀ i, (c.shared.peer.pendingPing i).event = true → (c.shared.peer.pendingPing i).pong = none →
      c.shared.peer.closed = true) ∧
    (∀ i args w, c.thread i ≠ .connect args w (.left (.error .assertion)) ∧
      ∀ pc, c.thread i ≠ .connect args w (.closePeer (.error .assertion) pc)) ∧
    (∀ i j args w k, c.thread i = .connect args w (.returned k) →
      ((c.shared.peer.pendingConnect j).connection = some k ↔ j = i)) := by
  obtain ⟨hc, hp⟩ := (reach_aioPending h).1
  obtain ⟨hconn, hholds⟩ := reach_aioHolds h
  refine ⟨⟨hc.once, hp.once⟩, fun c' h' => reach_aioPendingGrows h h', fun i hi => ?_,
    fun i hi hnone => ?_, fun i args w => ⟨fun ht => ?_, fun pc ht => ?_⟩,
    fun i j args w k ht => ⟨fun hj => ?_, fun hj => ?_⟩⟩
  · exact hc.settled_resolved i ((hc.mem_resolved i).mpr hi)
  · exact hp.settled_resolved i ((hp.mem_resolved i).mpr hi) hnone
  · have hi := hholds i
    rw [ht] at hi
    exact hi.2 rfl
  · have hi := hholds i
    rw [ht] at hi
    exact hi.2 rfl
  · have hi := hholds i
    rw [ht] at hi
    exact hconn.inj j i k hj hi.2.2
  · have hi := hholds i
    rw [ht] at hi
    exact hj ▸ hi.2.2

/-- One connect is cancelled while it waits, another one is accepted and returns. -/
theorem aio_pending_sound_cancelled :
    ∃ c, Reach (aio SystemAddress.text) anyStep (Aio.init none 0) c ∧
      c.thread 0 =
        .connect ⟨"a", 1, 12, false⟩ (.done (.ok ⟨"10.0.0.1", 1⟩)) (.left .cancelled) ∧
      c.thread 1 = .connect ⟨"b", 1, 12, false⟩ (.done (.ok ⟨"10.0.0.2", 1⟩)) (.returned 0) ∧
      (c.shared.peer.pendingConnect 0).connection ≠ some 0 := by
  have h := Reach.of_exec (show (aio SystemAddress.text).exec anyStep
    (aioConnects 0 ⟨"a", 1, 12, false⟩ "10.0.0.1" ++
      aioConnects 1 ⟨"b", 1, 12, false⟩ "10.0.0.2" ++
      [.thread 0 (.inr .cancel), .thread 0 (.inr .go), .thread 0 (.inr .go)] ++
      aioRoutes ⟨⟨"10.0.0.2", 1⟩, 7, [16]⟩ 6 ++ List.replicate 2 (.thread 1 (.inr .go)))
    (Aio.init none 0) = some _ from rfl)
  refine ⟨_, h, rfl, rfl, fun hc => ?_⟩
  exact absurd (((aio_pending_sound h).2.2.2.2.2 1 0 _ _ 0 rfl).mp hc) (by decide)

end Raknet
