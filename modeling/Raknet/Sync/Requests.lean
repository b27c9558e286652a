import Raknet.Sync.Pending
import Raknet.Sync.Registry

/-!
# Requests of a sync Peer, over whole runs

A call registers its pending object once, and the boards of `Raknet.Sync.Pending` say the rest.

**Theorem (`pending_sound`).** Every pending object enters its table at most once, is taken out of
it by at most one party and is resolved at most once; when its event is set its outcome is
settled, and stays as it is.
-/

namespace Raknet

open Interleaving Handoff

/-- The call has not registered a pending connect, and may still do so. -/
def Call.beforeConnect : Call → Bool
  | idle | connect _ (.start .checkOpen) | connect _ (.start .checkAttempts)
  | connect _ (.start .resolve) | connect _ (.start (.register _)) => true
  | _ => false

/-- The call has not registered a pending ping, and may still do so. -/
def Call.beforePing : Call → Bool
  | idle | ping _ (.start .checkOpen) | ping _ (.start .resolve)
  | ping _ (.start (.register _)) => true
  | _ => false

variable {text : SystemAddress → String} {s s' : State}

/-! ## Entering the tables -/

theorem ActEffect.entered {e : State.Act} (h : ActEffect text s e s') :
    s'.connects.entered = s.connects.entered ∧ s'.pings.entered = s.pings.entered := by
  cases h <;> simp [State.connects, State.pings, Event.connectEntered?, Event.pingEntered?]

theorem CallEffect.entered {i : CallId} {t : Call} (h : CallEffect text i s t s') :
    (s'.connects.entered = s.connects.entered ∨ s'.connects.entered = s.connects.entered ++ [i]) ∧
      (s'.pings.entered = s.pings.entered ∨ s'.pings.entered = s.pings.entered ++ [i]) := by
  cases h <;> simp [State.connects, State.pings, Event.connectEntered?, Event.pingEntered?]

@[simp] theorem beforeConnect_leave (args : ConnectArgs) (e : Error) :
    (Call.connect args (args.leave e)).beforeConnect = false := by
  unfold ConnectArgs.leave
  split_ifs <;> rfl

@[simp] theorem beforeConnect_give (args : ConnectArgs) (c : ConnId) :
    (Call.connect args (args.give c)).beforeConnect = false := by
  unfold ConnectArgs.give
  split_ifs <;> rfl

theorem CallMove.beforeConnect {i : CallId} {t t' : Call} (h : CallMove text i s t s' t')
    (hb : t'.beforeConnect = true) :
    t.beforeConnect = true ∧ s'.connects.entered = s.connects.entered := by
  cases h with
  | begin start t h => exact ⟨rfl, rfl⟩
  | connect args pc pc' s' h =>
    cases h with
    | refused | fewAttempts | unresolved | closedMeanwhile | rawRaised | popFailed | cancel |
      wokenLate |
        reaped | failed =>
      simp at hb
    | finish => simp at hb
    | checkOpen | checkAttempts | resolve => exact ⟨rfl, rfl⟩
    | _ => cases hb
  | _ => cases hb

theorem CallMove.beforePing {i : CallId} {t t' : Call} (h : CallMove text i s t s' t')
    (hb : t'.beforePing = true) :
    t.beforePing = true ∧ s'.pings.entered = s.pings.entered := by
  cases h with
  | begin start t h => exact ⟨rfl, rfl⟩
  | ping args pc pc' s' h =>
    cases h with
    | checkOpen | resolve => exact ⟨rfl, rfl⟩
    | finish =>
      unfold finishPing at hb
      split at hb <;> cases hb
    | _ => cases hb
  | _ => cases hb

/-! ## The boards, over whole runs -/

structure PendingInv (s : State) : Prop where
  connects : s.connects.Inv ConnectOutcome.Blank ConnectOutcome.Settled
  pings : s.pings.Inv PingOutcome.Blank PingOutcome.Settled

/-- What a call that has yet to register knows about its pending object. -/
structure Call.Unentered (s : State) (i : CallId) (t : Call) : Prop where
  connect : t.beforeConnect = true → i ∉ s.connects.entered
  ping : t.beforePing = true → i ∉ s.pings.entered

theorem pendingInv_init (q : Option Nat) (t₀ : Int) : PendingInv (State.init q t₀) := by
  constructor <;> apply Board.inv_of_empty <;>
    simp [State.connects, State.pings, State.init, Peer.init, PumpPc.connectHeld, PumpPc.pingHeld,
      Teardown.connects, Teardown.pings, Teardown.connectInHand, PendingConnect.new,
        PendingPing.new,
      ConnectOutcome.Blank, PingOutcome.Blank]

/-- What a step does to both boards. -/
structure PendingStep (s s' : State) : Prop where
  connects : ConnectStep s.connects s'.connects
  pings : PingStep s.pings s'.pings

theorem PendingStep.inv (h : PendingStep s s') (hi : PendingInv s) : PendingInv s' :=
  ⟨h.connects.inv (fun _ => id) hi.connects, h.pings.inv (fun _ _ _ => rfl) hi.pings⟩

theorem PendingStep.grows (h : PendingStep s s') (hi : PendingInv s) :
    s.connects.Grows s'.connects ∧ s.pings.Grows s'.pings :=
  ⟨h.connects.grows hi.connects, h.pings.grows hi.pings⟩

theorem ActEffect.pending {e : State.Act} (h : ActEffect text s e s') (hi : PendingInv s)
    (hsd : ShutdownInv s) : PendingStep s s' :=
  ⟨h.connects hi.connects hsd, h.pings hsd⟩

theorem CallEffect.pending {i : CallId} {t : Call} (h : CallEffect text i s t s')
    (hi : PendingInv s) (ht : t.Unentered s i) (hsd : ShutdownInv s) : PendingStep s s' := by
  refine ⟨h.connects hi.connects (fun hpc => ht.connect ?_) hsd,
    h.pings hi.pings (fun hpc => ht.ping ?_) hsd⟩
  · rcases hpc with ⟨args, rfl⟩ | ⟨args, a, rfl⟩ <;> rfl
  · rcases hpc with ⟨args, rfl⟩ | ⟨args, a, rfl⟩ <;> rfl

theorem reach_pendingInv {ok : Sync → SyncAction → Prop} {c : Sync} {q : Option Nat} {t₀ : Int}
    (h : Reach (sync text) ok (Sync.init q t₀) c) :
    PendingInv c.shared ∧ ∀ i, (c.thread i).Unentered c.shared i := by
  refine h.outline (L := fun i s t => t.Unentered s i) (pendingInv_init q t₀)
    (fun i => ⟨fun _ => List.not_mem_nil, fun _ => List.not_mem_nil⟩) ?_ ?_
  · intro c e s hr _ hs hi
    have heff := act_effect hs
    refine ⟨(heff.pending hi (reach_shutdownInv hr)).inv hi, fun i t ht => ?_⟩
    exact ⟨heff.entered.1 ▸ ht.connect, heff.entered.2 ▸ ht.ping⟩
  · intro c i x s t hr _ hs hi ht
    have hmove := callStep_move hs
    have heff := hmove.effect
    refine ⟨(heff.pending hi ht (reach_shutdownInv hr)).inv hi, ⟨fun hb => ?_, fun hb => ?_⟩,
      fun j hj u hu => ⟨fun hb => ?_, fun hb => ?_⟩⟩
    · obtain ⟨hb', he⟩ := hmove.beforeConnect hb
      exact he ▸ ht.connect hb'
    · obtain ⟨hb', he⟩ := hmove.beforePing hb
      exact he ▸ ht.ping hb'
    · rcases heff.entered.1 with he | he <;> simp [he, hu.connect hb, hj]
    · rcases heff.entered.2 with he | he <;> simp [he, hu.ping hb, hj]

theorem step_pending {ok : Sync → SyncAction → Prop} {c c' : Sync} {q : Option Nat} {t₀ : Int}
    {a : SyncAction} (h : Reach (sync text) ok (Sync.init q t₀) c)
    (hs : (sync text).step c a = some c') : PendingStep c.shared c'.shared := by
  obtain ⟨hi, ht⟩ := reach_pendingInv h
  rcases System.step_cases hs with ⟨e, s, rfl, he, rfl⟩ | ⟨i, x, s, t, rfl, hx, rfl⟩
  · exact (act_effect he).pending hi (reach_shutdownInv h)
  · exact (callStep_effect hx).pending hi (ht i) (reach_shutdownInv h)

/-- What the past of the boards leaves behind, from a reachable configuration on. -/
theorem reach_pendingGrows {ok ok' : Sync → SyncAction → Prop} {c c' : Sync} {q : Option Nat}
    {t₀ : Int} (h : Reach (sync text) ok (Sync.init q t₀) c) (h' : Reach (sync text) ok' c c') :
    c.shared.connects.Grows c'.shared.connects ∧ c.shared.pings.Grows c'.shared.pings := by
  induction h' with
  | start => exact ⟨.refl _, .refl _⟩
  | step hr _ hs ih =>
    have hreach := h.any.trans hr.any
    have hgrows := (step_pending hreach hs).grows (reach_pendingInv hreach).1
    exact ⟨ih.1.trans hgrows.1, ih.2.trans hgrows.2⟩

/-! ## What the callers see -/

@[simp] theorem PumpPc.enter_ne_succeededAssign (cb : Option Callback) (i : CallId) (c : ConnId) :
    PumpPc.enter cb ≠ .succeededAssign i c := by
  rcases cb with _ | ⟨_ | _⟩ <;> simp [PumpPc.enter]

/-- No two pending connects have the same Connection, and the pump is not about to make it so. -/
structure ConnectionInv (s : State) : Prop where
  inj : ∀ i j c, (s.peer.pendingConnect i).connection = some c →
    (s.peer.pendingConnect j).connection = some c → i = j
  assign : ∀ i c, s.pump = .succeededAssign i c →
    ∀ j, (s.peer.pendingConnect j).connection ≠ some c

theorem connectionInv_init (q : Option Nat) (t₀ : Int) : ConnectionInv (State.init q t₀) := by
  constructor <;> simp [State.init, Peer.init, PendingConnect.new]

theorem CallEffect.connectionInv {i : CallId} {t : Call} (h : CallEffect text i s t s')
    (hi : ConnectionInv s) : ConnectionInv s' := by
  obtain ⟨hinj, hassign⟩ := hi
  cases h with
  | newConnect args h =>
    refine ⟨fun j k c hj hk => hinj j k c ?_ ?_, fun j c hp k hk => hassign j c hp k ?_⟩
    all_goals grind [PendingConnect.new]
  | _ => exact ⟨hinj, hassign⟩

theorem ActEffect.connectionInv {e : State.Act} (h : ActEffect text s e s') (hr : RegistryInv s)
    (hi : ConnectionInv s) : ConnectionInv s' := by
  obtain ⟨hinj, hassign⟩ := hi
  cases h
  case succeededRegister i g c h =>
    -- the Connection in hand is known to the pump alone
    refine ⟨hinj, fun j k hp l hl => ?_⟩
    cases hp
    exact (hr.pending l c hl).2 (by simp [h, PumpPc.fresh?])
  case succeededAssign i c h =>
    refine ⟨fun j k d hj hk => ?_, by simp⟩
    have hfree := hassign i c h
    have hold := hinj j k d
    simp only [State.goto_peer, State.set_peer, Peer.assignConnection_pendingConnect_apply] at hj hk
    grind
  case failedAssign i r h | connectSet i h =>
    refine ⟨fun j k d hj hk => hinj j k d ?_ ?_, by simp⟩ <;> grind
  case sweepConnect snap i is h hcons =>
    refine ⟨fun j k d hj hk => hinj j k d ?_ ?_, fun j c hp k hk => hassign j c hp k ?_⟩ <;> grind
  case setConnect i snap h =>
    refine ⟨fun j k d hj hk => hinj j k d ?_ ?_, fun j c hp k hk => hassign j c hp k ?_⟩ <;> grind
  case route p h => exact ⟨hinj, fun j c hp => by simp [PumpPc.enter_ne_succeededAssign] at hp⟩
  case join | shutdown | sweptConnections | sweepConnection | closeMailbox | sweptConnects |
      sweptPings | sweepPing | putSentinel | recvItem | recvRaises | tick =>
    exact ⟨hinj, hassign⟩
  all_goals exact ⟨hinj, by simp⟩

/-- What the end of a call says about its pending object. -/
def Call.Holds (s : State) (i : CallId) : Call → Prop
  | connect _ .finish => (s.peer.pendingConnect i).event = true
  | connect _ (.own c) | connect _ (.returned c) =>
    (s.peer.pendingConnect i).event = true ∧ (s.peer.pendingConnect i).connection = some c
  | connect _ (.closePeer e _) | connect _ (.raised e) => e ≠ .assertion
  | ping _ .finish => (s.peer.pendingPing i).event = true
  | ping _ (.returned pong) =>
    (s.peer.pendingPing i).event = true ∧ (s.peer.pendingPing i).pong = some pong
  | _ => True

theorem Call.Holds.grows {i : CallId} {t : Call} (h : t.Holds s i)
    (hc : s.connects.Grows s'.connects) (hp : s.pings.Grows s'.pings) : t.Holds s' i := by
  cases t with
  | connect args pc =>
    cases pc with
    | finish => exact (hc.event i h).1
    | own c | returned c =>
      obtain ⟨hevent, hconn⟩ := hc.event i h.1
      exact ⟨hevent, (congrArg Prod.fst hconn).trans h.2⟩
    | _ => exact h
  | ping args pc =>
    cases pc with
    | finish => exact (hp.event i h).1
    | returned pong =>
      obtain ⟨hevent, hpong⟩ := hp.event i h.1
      exact ⟨hevent, (congrArg Prod.fst hpong).trans h.2⟩
    | _ => trivial
  | _ => trivial

theorem holds_leave {i : CallId} {args : ConnectArgs} {e : Error} (he : e ≠ .assertion) :
    (Call.connect args (args.leave e)).Holds s i := by
  unfold ConnectArgs.leave
  split_ifs <;> exact he

theorem ConnectEffect.holds {i : CallId} {args : ConnectArgs} {pc pc' : ConnectPc}
    (h : ConnectEffect text i args s pc s' pc')
    (hi : s.connects.Inv ConnectOutcome.Blank ConnectOutcome.Settled)
    (ht : (Call.connect args pc).Holds s i) (ht' : (Call.connect args pc).Holds s' i) :
    (Call.connect args pc').Holds s' i := by
  cases h with
  | woken a hevent => exact hevent
  | finish c h =>
    have hconn : (s.peer.pendingConnect i).connection = some c := by
      unfold finishConnect at h
      split at h <;> cases h
      assumption
    unfold ConnectArgs.give
    split_ifs <;> exact ⟨ht, hconn⟩
  | failed e h =>
    -- a settled outcome with no reason has a Connection
    have hsettled := hi.settled_resolved i ((hi.mem_resolved i).mpr ht)
    refine holds_leave fun hassert => ?_
    subst hassert
    unfold finishConnect at h
    split at h <;> simp_all [ConnectOutcome.Settled, State.connects]
  | closeLost e hclosed => exact ht'
  | closeBegin e hopen => exact ht'
  | closeDone e hdone => exact ht'
  | own c => exact ht'
  | _ => first | trivial | exact holds_leave (by simp [peerIsClosed, ConnectArgs.timedOut])

theorem CallMove.holds {i : CallId} {t t' : Call} (h : CallMove text i s t s' t')
    (hi : s.connects.Inv ConnectOutcome.Blank ConnectOutcome.Settled) (ht : t.Holds s i)
    (ht' : t.Holds s' i) : t'.Holds s' i := by
  cases h with
  | begin start t h =>
    cases start <;> simp only [startCall] at h
    case close c notify =>
      split_ifs at h
      cases h
      trivial
    all_goals
      cases h
      trivial
  | connect args pc pc' s' h => exact h.holds hi ht ht'
  | ping args pc pc' s' h =>
    cases h with
    | woken a hevent => exact hevent
    | finish =>
      unfold finishPing
      split
      · trivial
      · next pong hpong => exact ⟨ht, hpong⟩
    | _ => trivial
  | _ => trivial

theorem reach_holds {ok : Sync → SyncAction → Prop} {c : Sync} {q : Option Nat} {t₀ : Int}
    (h : Reach (sync text) ok (Sync.init q t₀) c) :
    ConnectionInv c.shared ∧ ∀ i, (c.thread i).Holds c.shared i := by
  refine h.outline (L := fun i s t => t.Holds s i) (connectionInv_init q t₀)
    (fun _ => trivial) ?_ ?_
  · intro c e s hr _ hs hi
    have hpend := (reach_pendingInv hr).1
    have heff := act_effect hs
    obtain ⟨hc, hp⟩ := (heff.pending hpend (reach_shutdownInv hr)).grows hpend
    exact ⟨heff.connectionInv (reach_registryInv hr).1 hi, fun i t ht => ht.grows hc hp⟩
  · intro c i x s t hr _ hs hi ht
    obtain ⟨hpend, hun⟩ := reach_pendingInv hr
    have hmove := callStep_move hs
    obtain ⟨hc, hp⟩ := (hmove.effect.pending hpend (hun i) (reach_shutdownInv hr)).grows hpend
    exact ⟨hmove.effect.connectionInv hi, hmove.holds hpend.connects ht (ht.grows hc hp),
      fun j _ u hu => hu.grows hc hp⟩

/-- **Pending requests of a sync Peer.** In every reachable configuration nothing happened twice to
a pending object, and from there on what left its table does not come back and what was resolved
stays as it is. A resolved connect has a Connection or a reason and not both, a resolved ping has
its pong unless the Peer was closed. No `assert` fails, and the Connection that a connect returned
belongs to no other pending connect. -/
theorem pending_sound {q : Option Nat} {t₀ : Int} {c : Sync}
    (h : Reach (sync text) anyStep (Sync.init q t₀) c) :
    (c.shared.connects.Once ∧ c.shared.pings.Once) ∧
    (∀ c', Reach (sync text) anyStep c c' →
      c.shared.connects.Grows c'.shared.connects ∧ c.shared.pings.Grows c'.shared.pings) ∧
    (∀ i, (c.shared.peer.pendingConnect i).event = true →
      ((c.shared.peer.pendingConnect i).connection = none ↔
        (c.shared.peer.pendingConnect i).reason ≠ none)) ∧
    (∀ i, (c.shared.peer.pendingPing i).event = true → (c.shared.peer.pendingPing i).pong = none →
      c.shared.peer.closed = true) ∧
    (∀ i args, c.thread i ≠ .connect args (.raised .assertion)) ∧
    (∀ i j args k, c.thread i = .connect args (.returned k) →
      ((c.shared.peer.pendingConnect j).connection = some k ↔ j = i)) := by
  obtain ⟨hc, hp⟩ := (reach_pendingInv h).1
  obtain ⟨hconn, hholds⟩ := reach_holds h
  refine ⟨⟨hc.once, hp.once⟩, fun c' h' => reach_pendingGrows h h', fun i hi => ?_,
    fun i hi hnone => ?_, fun i args ht => ?_, fun i j args k ht => ⟨fun hj => ?_, fun hj => ?_⟩⟩
  · exact hc.settled_resolved i ((hc.mem_resolved i).mpr hi)
  · exact hp.settled_resolved i ((hp.mem_resolved i).mpr hi) hnone
  · have hi := hholds i
    rw [ht] at hi
    exact hi rfl
  · have hi := hholds i
    rw [ht] at hi
    exact hconn.inj j i k hj hi.2
  · have hi := hholds i
    rw [ht] at hi
    exact hj ▸ hi.2

/-- Two calls connect, one is accepted and returns while the other still waits. -/
theorem pending_sound_connected :
    ∃ c, Reach (sync SystemAddress.text) anyStep (Sync.init none 0) c ∧
      c.thread 0 = .connect ⟨"a", 1, 12, false⟩ (.returned 0) ∧
      (c.shared.peer.pendingConnect 1).connection ≠ some 0 := by
  have h : Reach (sync SystemAddress.text) anyStep (Sync.init none 0) _ :=
    .of_exec (show (sync SystemAddress.text).exec anyStep
      (connects 0 ⟨"a", 1, 12, false⟩ "10.0.0.1" .connectionAttemptStarted ++
        connects 1 ⟨"b", 1, 12, false⟩ "10.0.0.2" .connectionAttemptStarted ++
        routes ⟨⟨"10.0.0.1", 1⟩, 7, [16]⟩ 6 ++ steps 0 2) (Sync.init none 0) = some _ from rfl)
  refine ⟨_, h, rfl, fun hc => ?_⟩
  exact absurd (((pending_sound h).2.2.2.2.2 0 1 _ 0 rfl).mp hc) (by decide)

end Raknet
