import Raknet.Aio.Tasks
import Raknet.Effects.Calls

/-!
# What the steps of the tasks do

A task of the asyncio API does to the shared state what a thread of the sync API does, from other
program counters: `Task.workerCall` and `Task.taskCall` are the sync calls at which its worker and
its coroutine stand. A cancelled `close` has no sync counterpart.

**Theorem (`taskStep_move`, `TaskMove.effect`).** Every step of a call is a `TaskMove`; and the
shared state changes as in a step of the sync calls, or the teardown is abandoned.
-/

namespace Raknet

variable {text : SystemAddress → String}

/-- The worker after a step of its function. -/
def Next.worker {π ρ : Type} : Next π ρ → Worker π ρ
  | pc p => .running p
  | ret r => .done r

theorem cancelClose_eq_some {s s' : State} (h : s.cancelClose = some s') :
    ∃ snap, (s.teardown = .joining snap ∨ s.teardown = .shutdown none snap) ∧
      s' = s.close (.cancelled snap) := by
  unfold State.cancelClose at h
  split at h
  · next snap hsnap =>
    cases h
    exact ⟨snap, Or.inl hsnap, rfl⟩
  · next snap hsnap =>
    cases h
    exact ⟨snap, Or.inr hsnap, rfl⟩
  · cases h

/-! ## `Peer.connect` and `create_connection` -/

/-- The transitions of `Peer.connect`, called by call `i`. -/
inductive ConnectTaskEffect (text : SystemAddress → String) (i : CallId) (args : ConnectArgs)
    (s : State) :
    ConnectWorker → ConnectTask → TaskChoice → State → ConnectWorker → ConnectTask → Prop
  -- the worker
  | take :
      ConnectTaskEffect text i args s .queued .starting (.worker .go) s (.running .checkOpen)
        .starting
  | work (q : StartPc) (ch : Choice) (s' : State) (n : Next StartPc (Except Error SystemAddress))
      (pc : ConnectTask) (h : startStep text i args s q ch = some (s', n)) :
      ConnectTaskEffect text i args s (.running q) pc (.worker ch) s' n.worker pc
  -- the task
  | started (a : SystemAddress) :
      ConnectTaskEffect text i args s (.done (.ok a)) .starting .go s (.done (.ok a)) (.wait a)
  | raised (e : Error) :
      ConnectTaskEffect text i args s (.done (.error e)) .starting .go s (.done (.error e))
        (args.exit (.error e))
  | drop :
      ConnectTaskEffect text i args s .queued .starting .cancel s .dropped (args.exit .cancelled)
  | cancelStart (w : ConnectWorker) (hw : w ≠ .queued) :
      ConnectTaskEffect text i args s w .starting .cancel s w (args.exit .cancelled)
  | woken (w : ConnectWorker) (a : SystemAddress)
      (hevent : (s.peer.pendingConnect i).event = true) :
      ConnectTaskEffect text i args s w (.wait a) .go s w .finish
  | cancelWait (w : ConnectWorker) (a : SystemAddress) :
      ConnectTaskEffect text i args s w (.wait a) .cancel s w (.abandon a .pop)
  | late (w : ConnectWorker) (a : SystemAddress)
      (hget : s.peer.pendingConnects.get? (text a) = none) :
      ConnectTaskEffect text i args s w (.abandon a .pop) .go s w .look
  | abandon (w : ConnectWorker) (a : SystemAddress) (j : CallId)
      (hget : s.peer.pendingConnects.get? (text a) = some j) :
      ConnectTaskEffect text i args s w (.abandon a .pop) .go (s.set (s.peer.popConnect (text a))) w
        (.abandon a .cancel)
  | cancel (w : ConnectWorker) (a : SystemAddress) :
      ConnectTaskEffect text i args s w (.abandon a .cancel) .go (s.emit (.rawCancel a)) w
        (args.exit .cancelled)
  | nothing (w : ConnectWorker) (hnone : (s.peer.pendingConnect i).connection = none) :
      ConnectTaskEffect text i args s w .look .go s w (args.exit .cancelled)
  | orphan (w : ConnectWorker) (c : ConnId)
      (hconn : (s.peer.pendingConnect i).connection = some c) :
      ConnectTaskEffect text i args s w .look .go s w (.reap c .check)
  | reap (w : ConnectWorker) (c : ConnId) (pc pc' : ClosePc) (s' : State)
      (h : CloseEffect c true s pc s' (some pc')) :
      ConnectTaskEffect text i args s w (.reap c pc) .go s' w (.reap c pc')
  | reaped (w : ConnectWorker) (c : ConnId) (pc : ClosePc) (s' : State)
      (h : CloseEffect c true s pc s' none) :
      ConnectTaskEffect text i args s w (.reap c pc) .go s' w (args.exit .cancelled)
  | cancelReap (w : ConnectWorker) (c : ConnId) (s' : State) (h : s.cancelClose = some s') :
      ConnectTaskEffect text i args s w (.reap c (.peer .closing)) .cancel s' w
        (args.exit .cancelled)
  -- _finish_connect
  | finish (w : ConnectWorker) (c : ConnId)
      (h : finishConnect args (s.peer.pendingConnect i) = .ok c) :
      ConnectTaskEffect text i args s w .finish .go s w (args.hand c)
  | failed (w : ConnectWorker) (e : Error)
      (h : finishConnect args (s.peer.pendingConnect i) = .error e) :
      ConnectTaskEffect text i args s w .finish .go s w (args.exit (.error e))
  -- create_connection
  | closeLost (w : ConnectWorker) (x : Exit) (hclosed : s.peer.closed = true) :
      ConnectTaskEffect text i args s w (.closePeer x .begin) .go s w (.left x)
  | closeBegin (w : ConnectWorker) (x : Exit) (hopen : s.peer.closed = false) :
      ConnectTaskEffect text i args s w (.closePeer x .begin) .go (s.beginClose .joining) w
        (.closePeer x .closing)
  | closeDone (w : ConnectWorker) (x : Exit) (hdone : s.teardown = .done) :
      ConnectTaskEffect text i args s w (.closePeer x .closing) .go s w (.left x)
  | cancelClosePeer (w : ConnectWorker) (x : Exit) (s' : State) (h : s.cancelClose = some s') :
      ConnectTaskEffect text i args s w (.closePeer x .closing) .cancel s' w (.left .cancelled)
  | own (w : ConnectWorker) (c : ConnId) :
      ConnectTaskEffect text i args s w (.own c) .go (s.set (s.peer.own c)) w (.returned c)

theorem connectTaskStep_effect {s s' : State} {args : ConnectArgs} {w w' : ConnectWorker}
    {pc pc' : ConnectTask} {ch : TaskChoice} {i : CallId}
    (h : connectTaskStep text i args s w pc ch = some (s', w', pc')) :
    ConnectTaskEffect text i args s w pc ch s' w' pc' := by
  unfold connectTaskStep at h
  split at h
  · cases h
    exact .take
  · next q ch =>
    obtain ⟨⟨s₁, n⟩, hs, hn⟩ := Option.map_eq_some_iff.mp h
    have hwork : ConnectTaskEffect text i args s (.running q) pc (.worker ch) s₁ n.worker pc :=
      .work q ch s₁ n pc hs
    rcases n with q' | r <;> cases hn <;> exact hwork
  · next a =>
    cases h
    exact .started a
  · next e =>
    cases h
    exact .raised e
  · cases h
    exact .drop
  · next hw =>
    cases h
    exact .cancelStart w hw
  · next a =>
    split_ifs at h with hevent
    cases h
    exact .woken w a hevent
  · next a =>
    cases h
    exact .cancelWait w a
  · next a q =>
    obtain ⟨⟨s₁, n⟩, hs, hn⟩ := Option.map_eq_some_iff.mp h
    cases q <;> simp only [abandonStep] at hs
    · split at hs <;> cases hs <;> cases hn
      · next hget => exact .late w a hget
      · next j hget => exact .abandon w a j hget
    · cases hs
      cases hn
      exact .cancel w a
  · cases h
    split
    · next c hc => exact .orphan w c hc
    · next hc => exact .nothing w hc
  · next c q =>
    obtain ⟨⟨s₁, n⟩, hs, hn⟩ := Option.map_eq_some_iff.mp h
    have he := closeStep_closeEffect hs
    rcases n with q' | _ <;> cases hn
    · exact .reap w c q q' s' he
    · exact .reaped w c q s' he
  · next c =>
    obtain ⟨s₁, hs, hn⟩ := Option.map_eq_some_iff.mp h
    cases hn
    exact .cancelReap w c _ hs
  · cases h
    split
    · next c hc => exact .finish w c hc
    · next e he => exact .failed w e he
  · next x q =>
    obtain ⟨⟨s₁, n⟩, hs, hn⟩ := Option.map_eq_some_iff.mp h
    cases q <;> simp only [closePeerStep] at hs <;> split_ifs at hs with hc <;> cases hs <;>
      cases hn
    · exact .closeLost w x hc
    · exact .closeBegin w x (by simpa using hc)
    · exact .closeDone w x hc
  · next x =>
    obtain ⟨s₁, hs, hn⟩ := Option.map_eq_some_iff.mp h
    cases hn
    exact .cancelClosePeer w x _ hs
  · next c =>
    cases h
    exact .own w c
  · cases h

/-! ## `Peer.ping` -/

/-- The transitions of `Peer.ping`, called by call `i`. -/
inductive PingTaskEffect (text : SystemAddress → String) (i : CallId) (args : PingArgs)
    (s : State) : PingWorker → PingTask → TaskChoice → State → PingWorker → PingTask → Prop
  -- the worker
  | take :
      PingTaskEffect text i args s .queued .starting (.worker .go) s (.running .checkOpen) .starting
  | work (q : StartPingPc) (ch : Choice) (s' : State)
      (n : Next StartPingPc (Except Error SystemAddress)) (pc : PingTask)
      (h : startPingStep text i args s q ch = some (s', n)) :
      PingTaskEffect text i args s (.running q) pc (.worker ch) s' n.worker pc
  -- the task
  | started (a : SystemAddress) :
      PingTaskEffect text i args s (.done (.ok a)) .starting .go s (.done (.ok a)) (.wait a)
  | raised (e : Error) :
      PingTaskEffect text i args s (.done (.error e)) .starting .go s (.done (.error e))
        (.left (.error e))
  | drop : PingTaskEffect text i args s .queued .starting .cancel s .dropped (.left .cancelled)
  | cancelStart (w : PingWorker) (hw : w ≠ .queued) :
      PingTaskEffect text i args s w .starting .cancel s w (.left .cancelled)
  | woken (w : PingWorker) (a : SystemAddress) (hevent : (s.peer.pendingPing i).event = true) :
      PingTaskEffect text i args s w (.wait a) .go s w .finish
  | cancelWait (w : PingWorker) (a : SystemAddress) :
      PingTaskEffect text i args s w (.wait a) .cancel s w (.popCancelled a)
  | popCancelled (w : PingWorker) (a : SystemAddress) :
      PingTaskEffect text i args s w (.popCancelled a) .go (s.set (s.peer.popPing (text a))) w
        (.left .cancelled)
  -- _finish_ping
  | failed (w : PingWorker) (hnone : (s.peer.pendingPing i).pong = none) :
      PingTaskEffect text i args s w .finish .go s w (.left (.error peerIsClosed))
  | finish (w : PingWorker) (pong : Pong) (hpong : (s.peer.pendingPing i).pong = some pong) :
      PingTaskEffect text i args s w .finish .go s w (.returned pong)

theorem pingTaskStep_effect {s s' : State} {args : PingArgs} {w w' : PingWorker}
    {pc pc' : PingTask} {ch : TaskChoice} {i : CallId}
    (h : pingTaskStep text i args s w pc ch = some (s', w', pc')) :
    PingTaskEffect text i args s w pc ch s' w' pc' := by
  unfold pingTaskStep at h
  split at h
  · cases h
    exact .take
  · next q ch =>
    obtain ⟨⟨s₁, n⟩, hs, hn⟩ := Option.map_eq_some_iff.mp h
    have hwork : PingTaskEffect text i args s (.running q) pc (.worker ch) s₁ n.worker pc :=
      .work q ch s₁ n pc hs
    rcases n with q' | r <;> cases hn <;> exact hwork
  · next a =>
    cases h
    exact .started a
  · next e =>
    cases h
    exact .raised e
  · cases h
    exact .drop
  · next hw =>
    cases h
    exact .cancelStart w hw
  · next a =>
    split_ifs at h with hevent
    cases h
    exact .woken w a hevent
  · next a =>
    cases h
    exact .cancelWait w a
  · next a =>
    cases h
    exact .popCancelled w a
  · cases h
    split
    · next hnone => exact .failed w hnone
    · next pong hpong => exact .finish w pong hpong
  · cases h

/-! ## Any call -/

/-- The transitions of call `i`. -/
inductive TaskMove (text : SystemAddress → String) (i : CallId) (s : State) :
    Task → CallStart ⊕ TaskChoice → State → Task → Prop
  | begin (start : CallStart) (t : Task) (h : startTask s start = some t) :
      TaskMove text i s .idle (.inl start) s t
  | connect (args : ConnectArgs) (w w' : ConnectWorker) (pc pc' : ConnectTask) (s' : State)
      (ch : TaskChoice)
      (h : ConnectTaskEffect text i args s w pc ch s' w' pc') :
      TaskMove text i s (.connect args w pc) (.inr ch) s' (.connect args w' pc')
  | ping (args : PingArgs) (w w' : PingWorker) (pc pc' : PingTask) (s' : State)
      (ch : TaskChoice)
      (h : PingTaskEffect text i args s w pc ch s' w' pc') :
      TaskMove text i s (.ping args w pc) (.inr ch) s' (.ping args w' pc')
  | accept (pc pc' : AcceptPc) (s' : State) (h : acceptStep s pc .go = some (s', pc')) :
      TaskMove text i s (.accept pc) (.inr .go) s' (.accept pc')
  | cancelAccept : TaskMove text i s (.accept .get) (.inr .cancel) s .cancelled
  | close (c : ConnId) (notify : Bool) (pc pc' : ClosePc) (s' : State)
      (h : CloseEffect c notify s pc s' (some pc')) :
      TaskMove text i s (.close c notify pc) (.inr .go) s' (.close c notify pc')
  | closed (c : ConnId) (notify : Bool) (pc : ClosePc) (s' : State)
      (h : CloseEffect c notify s pc s' none) :
      TaskMove text i s (.close c notify pc) (.inr .go) s' (.closed c)
  | cancelClose (c : ConnId) (notify : Bool) (s' : State) (h : s.cancelClose = some s') :
      TaskMove text i s (.close c notify (.peer .closing)) (.inr .cancel) s' .cancelled
  | closeLost (hclosed : s.peer.closed = true) :
      TaskMove text i s (.closePeer .begin) (.inr .go) s .closedPeer
  | closeBegin (hopen : s.peer.closed = false) :
      TaskMove text i s (.closePeer .begin) (.inr .go) (s.beginClose .joining) (.closePeer .closing)
  | closeDone (hdone : s.teardown = .done) :
      TaskMove text i s (.closePeer .closing) (.inr .go) s .closedPeer
  | cancelClosePeer (s' : State) (h : s.cancelClose = some s') :
      TaskMove text i s (.closePeer .closing) (.inr .cancel) s' .cancelled

theorem taskStep_move {s s' : State} {t t' : Task} {ch : CallStart ⊕ TaskChoice} {i : CallId}
    (h : taskStep text i ch s t = some (s', t')) : TaskMove text i s t ch s' t' := by
  unfold taskStep at h
  split at h
  · next start =>
    obtain ⟨u, hu, hs⟩ := Option.map_eq_some_iff.mp h
    cases hs
    exact .begin start _ hu
  · next args w pc ch =>
    obtain ⟨⟨s₁, w', pc'⟩, hr, hu⟩ := Option.map_eq_some_iff.mp h
    cases hu
    exact .connect args w w' pc pc' _ ch (connectTaskStep_effect hr)
  · next args w pc ch =>
    obtain ⟨⟨s₁, w', pc'⟩, hr, hu⟩ := Option.map_eq_some_iff.mp h
    cases hu
    exact .ping args w w' pc pc' _ ch (pingTaskStep_effect hr)
  · next pc =>
    obtain ⟨⟨s₁, pc'⟩, hr, hu⟩ := Option.map_eq_some_iff.mp h
    cases hu
    exact .accept pc pc' _ hr
  · cases h
    exact .cancelAccept
  · next c notify pc =>
    obtain ⟨⟨s₁, n⟩, hr, hu⟩ := Option.map_eq_some_iff.mp h
    have he := closeStep_closeEffect hr
    rcases n with pc' | _ <;> cases hu
    · exact .close c notify pc pc' _ he
    · exact .closed c notify pc _ he
  · next c notify =>
    obtain ⟨s₁, hr, hu⟩ := Option.map_eq_some_iff.mp h
    cases hu
    exact .cancelClose c notify _ hr
  · next pc =>
    obtain ⟨⟨s₁, n⟩, hr, hu⟩ := Option.map_eq_some_iff.mp h
    cases pc <;> simp only [closePeerStep] at hr <;> split_ifs at hr with hc <;> cases hr <;>
      cases hu
    · exact .closeLost hc
    · exact .closeBegin (by simpa using hc)
    · exact .closeDone hc
  · obtain ⟨s₁, hr, hu⟩ := Option.map_eq_some_iff.mp h
    cases hu
    exact .cancelClosePeer _ hr
  · cases h

/-! ## The shared state -/

/-- The sync call at whose program counter the worker is. -/
def Task.workerCall : Task → Call
  | .connect args (.running q) _ => .connect args (.start q)
  | .ping args (.running q) _ => .ping args (.start q)
  | _ => .idle

/-- The sync call at whose program counter the coroutine is. -/
def Task.taskCall : Task → Call
  | .connect args _ (.abandon a q) => .connect args (.abandon a q)
  | .connect args _ (.reap c q) => .connect args (.reap c q)
  | .connect args _ (.own c) => .connect args (.own c)
  | .ping args _ (.popCancelled a) => .ping args (.popTimedOut a)
  | .accept pc => .accept pc
  | .close c notify pc => .close c notify pc
  | _ => .idle

/-- What a step of call `i` may do to the shared state. -/
inductive TaskEffect (text : SystemAddress → String) (i : CallId) (s : State) (t : Task) :
    State → Prop
  | worker (s' : State) (h : CallEffect text i s t.workerCall s') : TaskEffect text i s t s'
  | task (s' : State) (h : CallEffect text i s t.taskCall s') : TaskEffect text i s t s'
  | cancelClose (snap : Snapshot)
      (h : s.teardown = .joining snap ∨ s.teardown = .shutdown none snap) :
      TaskEffect text i s t (s.close (.cancelled snap))

theorem TaskEffect.of_cancelClose {s s' : State} {t : Task} {i : CallId}
    (h : s.cancelClose = some s') : TaskEffect text i s t s' := by
  obtain ⟨snap, hsnap, rfl⟩ := cancelClose_eq_some h
  exact .cancelClose snap hsnap

theorem pingStep_start {s s' : State} {args : PingArgs} {q : StartPingPc} {ch : Choice} {i : CallId}
    {n : Next StartPingPc (Except Error SystemAddress)}
    (h : startPingStep text i args s q ch = some (s', n)) :
    ∃ pc', pingStep text i args s (.start q) ch = some (s', pc') := by
  rcases n with q' | _ | _ <;> exact ⟨_, Option.map_eq_some_iff.mpr ⟨_, h, rfl⟩⟩

theorem TaskMove.effect {s s' : State} {t t' : Task} {i : CallId}
    {x : CallStart ⊕ TaskChoice} (h : TaskMove text i s t x s' t') : TaskEffect text i s t s' := by
  cases h with
  | begin start t h => exact .task _ .none
  | connect args w w' pc pc' s' ch h =>
    cases h with
    | work q ch s' n pc h =>
      exact .worker _ (CallMove.connect args _ _ _ (startStep_connectEffect h)).effect
    | abandon w a j hget => exact .task _ (.popAbandoned args a j rfl hget)
    | cancel w a => exact .task _ (.cancel args a rfl)
    | reap w c pc pc' s' h => exact .task _ (h.effect rfl)
    | reaped w c pc s' h => exact .task _ (h.effect rfl)
    | cancelReap w c s' h => exact .of_cancelClose h
    | closeBegin w x hopen => exact .task _ (.beginClose hopen)
    | cancelClosePeer w x s' h => exact .of_cancelClose h
    | own w c => exact .task _ (.own args c rfl)
    | _ => exact .task _ .none
  | ping args w w' pc pc' s' ch h =>
    cases h with
    | work q ch s' n pc h =>
      obtain ⟨pc', hstep⟩ := pingStep_start h
      exact .worker _ (CallMove.ping args _ _ _ (pingStep_pingEffect hstep)).effect
    | popCancelled w a => exact .task _ (.popPing args a (Or.inr rfl))
    | _ => exact .task _ .none
  | accept pc pc' s' h => exact .task _ (CallMove.accept _ _ _ (acceptStep_acceptEffect h)).effect
  | close c notify pc pc' s' h => exact .task _ (h.effect rfl)
  | closed c notify pc s' h => exact .task _ (h.effect rfl)
  | closeBegin hopen => exact .task _ (.beginClose hopen)
  | cancelClose c notify s' h => exact .of_cancelClose h
  | cancelClosePeer s' h => exact .of_cancelClose h
  | cancelAccept => exact .task _ .none
  | closeLost hclosed => exact .task _ .none
  | closeDone hdone => exact .task _ .none

/-! ## Workers -/

section

variable {s s' : State} {i : CallId}

/-- The flag, the pump, the closer and who owns a Peer are as before. -/
structure Unmoved (s s' : State) : Prop where
  closed : s'.peer.closed = s.peer.closed
  pump : s'.pump = s.pump
  teardown : s'.teardown = s.teardown
  ownsPeer : ∀ c, (s'.peer.connection c).ownsPeer = (s.peer.connection c).ownsPeer

theorem Unmoved.refl : Unmoved s s := ⟨rfl, rfl, rfl, fun _ => rfl⟩

theorem startStep_unmoved {args : ConnectArgs} {q : StartPc} {ch : Choice}
    {r : State × Next StartPc (Except Error SystemAddress)}
    (h : startStep text i args s q ch = some r) : Unmoved s r.1 := by
  cases q <;> cases ch <;> simp only [startStep, reduceCtorEq] at h
  case checkOpen.go | checkAttempts.go | rawConnect.connectResult | rawConnect.connectRaises =>
    cases h
    exact .refl
  case resolve.resolved ip => cases ip <;> cases h <;> exact ⟨rfl, rfl, rfl, fun _ => rfl⟩
  case register.go a => split_ifs at h <;> cases h <;> exact ⟨rfl, rfl, rfl, fun _ => rfl⟩
  case popFailed.go a r =>
    cases h
    exact ⟨rfl, rfl, rfl, fun _ => rfl⟩

theorem startPingStep_unmoved {args : PingArgs} {q : StartPingPc} {ch : Choice}
    {r : State × Next StartPingPc (Except Error SystemAddress)}
    (h : startPingStep text i args s q ch = some r) : Unmoved s r.1 := by
  cases q <;> cases ch <;> simp only [startPingStep, reduceCtorEq] at h
  case checkOpen.go | rawPing.pingResult =>
    cases h
    exact .refl
  case resolve.resolved ip => cases ip <;> cases h <;> exact ⟨rfl, rfl, rfl, fun _ => rfl⟩
  case register.go a => split_ifs at h <;> cases h <;> exact ⟨rfl, rfl, rfl, fun _ => rfl⟩
  case popFailed.go a =>
    cases h
    exact ⟨rfl, rfl, rfl, fun _ => rfl⟩

end

end Raknet
