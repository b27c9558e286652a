import Raknet.Sync.Accept
import Raknet.Sync.Requests

/-!
# Which calls a closed Peer leaves waiting

No call loops: it ends after a bounded number of steps, unless it waits. It may wait for its pending
object, for the accept queue, or for the closer. The closer resolves what it found in the tables
and the pump what it popped; a pending object that another call displaced from the table is found
by neither.

**Theorem (`closed_calls`).** When the closer is done, a call that has begun and not ended can take
a step of its own, except for two kinds. A connect or a ping whose pending object nobody took from
the table waits until it times out. An accept on the empty queue waits for another one, which holds
the sentinel.
-/

namespace Raknet

open Interleaving Handoff

variable {text : SystemAddress → String} {s s' : State} {i : CallId}

/-! ## How long a call goes on -/

/-- How many steps `Peer.close` takes at most. -/
def ClosePeerPc.rank : ClosePeerPc → Nat
  | «begin» => 2
  | closing => 1

/-- How many steps `Connection.close` takes at most. -/
def ClosePc.rank : ClosePc → Nat
  | check => 9
  | pop => 8
  | mark => 7
  | checkPeer => 6
  | raw => 5
  | mailbox => 4
  | owns => 3
  | peer pc => pc.rank

/-- How many steps `Peer.connect` takes at most. -/
def ConnectPc.rank : ConnectPc → Nat
  | start .checkOpen => 19
  | start .checkAttempts => 18
  | start .resolve => 17
  | start (.register _) => 16
  | start (.rawConnect _) => 15
  | start (.popFailed _ _) => 3
  | wait _ => 14
  | abandon _ .pop => 13
  | abandon _ .cancel => 3
  | waitAgain _ => 12
  | reap _ pc => pc.rank + 2
  | finish => 3
  | closePeer _ pc => pc.rank
  | own _ => 1
  | returned _ | raised _ => 0

/-- How many steps `Peer.ping` takes at most. -/
def PingPc.rank : PingPc → Nat
  | start .checkOpen => 6
  | start .resolve => 5
  | start (.register _) => 4
  | start (.rawPing _) => 3
  | start (.popFailed _) => 1
  | wait _ => 2
  | popTimedOut _ | finish => 1
  | returned _ | raised _ => 0

/-- How many steps a call takes at most. -/
def Call.rank : Call → Nat
  | idle => 20
  | connect _ pc => pc.rank
  | ping _ pc => pc.rank
  | accept pc => (accept pc).acceptRank
  | close _ _ pc => pc.rank
  | closePeer pc => pc.rank
  | closed _ | closedPeer => 0

theorem ConnectArgs.rank_leave (args : ConnectArgs) (e : Error) : (args.leave e).rank ≤ 2 := by
  unfold ConnectArgs.leave
  split_ifs <;> simp [ConnectPc.rank, ClosePeerPc.rank]

theorem ConnectArgs.rank_give (args : ConnectArgs) (c : ConnId) : (args.give c).rank ≤ 1 := by
  unfold ConnectArgs.give
  split_ifs <;> simp [ConnectPc.rank]

theorem CloseEffect.rank {c : ConnId} {notify : Bool} {pc : ClosePc} {pc' : Option ClosePc}
    (h : CloseEffect c notify s pc s' pc') : pc'.elim 0 ClosePc.rank < pc.rank := by
  cases h <;> simp [ClosePc.rank, ClosePeerPc.rank]

theorem ConnectEffect.rank {args : ConnectArgs} {pc pc' : ConnectPc}
    (h : ConnectEffect text i args s pc s' pc') : pc'.rank < pc.rank := by
  have hleave := args.rank_leave
  cases h with
  | refused | fewAttempts | unresolved | closedMeanwhile | rawRaised | popFailed | cancel |
    wokenLate |
      failed =>
    exact Nat.lt_of_le_of_lt (hleave _) (by simp [ConnectPc.rank])
  | reap c q q' s' h =>
    have hrank := h.rank
    simpa [ConnectPc.rank] using hrank
  | reaped c q s' h =>
    have hrank := h.rank
    have hreap : (ConnectPc.reap c q).rank = q.rank + 2 := rfl
    have hle := hleave args.timedOut
    simp only [Option.elim_none] at hrank
    omega
  | finish c h =>
    exact Nat.lt_of_le_of_lt (args.rank_give c) (by simp [ConnectPc.rank])
  | _ => simp [ConnectPc.rank, ClosePc.rank, ClosePeerPc.rank]

theorem PingEffect.rank {args : PingArgs} {pc pc' : PingPc}
    (h : PingEffect text i args s pc s' pc') :
    pc'.rank < pc.rank := by
  cases h with
  | finish =>
    unfold finishPing
    split <;> simp [PingPc.rank]
  | _ => simp [PingPc.rank]

theorem CallMove.rank {t t' : Call} (h : CallMove text i s t s' t') : t'.rank < t.rank := by
  cases h with
  | begin start t h =>
    cases start <;> simp only [startCall] at h
    case close c notify =>
      split_ifs at h
      cases h
      simp [Call.rank, ClosePc.rank]
    all_goals
      cases h
      simp [Call.rank, ConnectPc.rank, PingPc.rank, Call.acceptRank, ClosePeerPc.rank]
  | connect args pc pc' s' h => exact h.rank
  | ping args pc pc' s' h => exact h.rank
  | accept pc pc' s' h => cases h <;> simp [Call.rank, Call.acceptRank]
  | close c notify pc pc' s' h => exact h.rank
  | closed c notify pc s' h => exact h.rank
  | _ => simp [Call.rank, ClosePeerPc.rank]

/-! ## When the closer is done -/

theorem reach_boardsAccounted {ok : Sync → SyncAction → Prop} {c : Sync} {q : Option Nat} {t₀ : Int}
    (h : Reach (sync text) ok (Sync.init q t₀) c) :
    c.shared.connects.Accounted ∧ c.shared.pings.Accounted := by
  refine h.invariant (I := fun c => c.shared.connects.Accounted ∧ c.shared.pings.Accounted) ?_ ?_
  · constructor <;> intro i hi <;> simp [Sync.init, State.init, State.connects, State.pings] at hi
  · intro c a c' hr _ hs hi
    have hpend := (reach_pendingInv hr).1
    have hstep := step_pending hr hs
    exact ⟨hstep.connects.accounted hpend.connects.toPlaced hi.1,
      hstep.pings.accounted hpend.pings.toPlaced hi.2⟩

/-- When the closer is done, nobody holds a pending object any more. -/
theorem hands_of_done (hsd : ShutdownInv s) (hdone : s.teardown = .done) :
    (s.pump.connectHeld = none ∧ s.teardown.connects = [] ∧ s.teardown.connectInHand = none) ∧
      s.pump.pingHeld = none ∧ s.teardown.pings = [] := by
  have hstopped : s.pump.stopped = true := hsd.joined (by rw [hdone]; rfl)
  rw [hdone]
  refine ⟨⟨?_, rfl, rfl⟩, ?_, rfl⟩
  · cases hp : s.pump <;> simp [hp, PumpPc.stopped] at hstopped <;> rfl
  · cases hp : s.pump <;> simp [hp, PumpPc.stopped] at hstopped <;> rfl

/-- When the closer is done, exactly the pending connects that were taken are resolved. -/
theorem connect_event_iff {ok : Sync → SyncAction → Prop} {c : Sync} {q : Option Nat} {t₀ : Int}
    (h : Reach (sync text) ok (Sync.init q t₀) c) (hdone : c.shared.teardown = .done) (i : CallId) :
    (c.shared.peer.pendingConnect i).event = true ↔ i ∈ c.shared.connects.taken := by
  have hpend := (reach_pendingInv h).1.connects
  obtain ⟨⟨hheld, hswept, hhand⟩, -⟩ := hands_of_done (reach_shutdownInv h) hdone
  rw [show (c.shared.peer.pendingConnect i).event = c.shared.connects.event i from rfl,
    ← hpend.mem_resolved]
  refine ⟨hpend.resolved_taken i, fun hi => ?_⟩
  rcases (reach_boardsAccounted h).1 i hi with h | h | h | h
  · exact h
  · simp [State.connects, hheld] at h
  · simp [State.connects, hswept] at h
  · simp [State.connects, hhand] at h

/-- When the closer is done, exactly the pending pings that were taken are resolved. -/
theorem ping_event_iff {ok : Sync → SyncAction → Prop} {c : Sync} {q : Option Nat} {t₀ : Int}
    (h : Reach (sync text) ok (Sync.init q t₀) c) (hdone : c.shared.teardown = .done) (i : CallId) :
    (c.shared.peer.pendingPing i).event = true ↔ i ∈ c.shared.pings.taken := by
  have hpend := (reach_pendingInv h).1.pings
  obtain ⟨-, hheld, hswept⟩ := hands_of_done (reach_shutdownInv h) hdone
  rw [show (c.shared.peer.pendingPing i).event = c.shared.pings.event i from rfl,
    ← hpend.mem_resolved]
  refine ⟨hpend.resolved_taken i, fun hi => ?_⟩
  rcases (reach_boardsAccounted h).2 i hi with h | h | h | h
  · exact h
  · simp [State.pings, hheld] at h
  · simp [State.pings, hswept] at h
  · cases h

/-- From then on nothing is taken any more. -/
theorem ActEffect.taken_of_stopped {e : State.Act} (h : ActEffect text s e s')
    (hstopped : s.pump.stopped = true) (hclosed : s.peer.closed = true) :
    s'.connects.taken = s.connects.taken ∧ s'.pings.taken = s.pings.taken := by
  cases h
  case succeededPop h _ | failedPop h _ | pongPop h _ => simp [h, PumpPc.stopped] at hstopped
  case fail hopen => simp [hclosed] at hopen
  all_goals simp [State.connects, State.pings, Event.connectsTaken, Event.pingsTaken]

theorem CallEffect.taken_of_closed {t : Call} (h : CallEffect text i s t s')
    (hclosed : s.peer.closed = true) :
    s'.connects.taken = s.connects.taken ∧ s'.pings.taken = s.pings.taken := by
  cases h
  case beginClose hopen => simp [hclosed] at hopen
  all_goals simp [State.connects, State.pings, Event.connectsTaken, Event.pingsTaken]

theorem reach_taken_of_done {q : Option Nat} {t₀ : Int} {c d : Sync}
    (h : Reach (sync text) anyStep (Sync.init q t₀) c) (h' : Reach (sync text) anyStep c d)
    (hdone : c.shared.teardown = .done) :
    d.shared.connects.taken = c.shared.connects.taken ∧
      d.shared.pings.taken = c.shared.pings.taken := by
  refine h'.invariant (I := fun d => d.shared.connects.taken = c.shared.connects.taken ∧
    d.shared.pings.taken = c.shared.pings.taken) ⟨rfl, rfl⟩ ?_
  intro d a d' hr _ hs ⟨hconnects, hpings⟩
  have hsd := reach_shutdownInv (h.trans hr)
  have hdone' := reach_done h hr hdone
  have hclosed : d.shared.peer.closed = true := hsd.begun.mpr (by simp [hdone'])
  rw [← hconnects, ← hpings]
  rcases System.step_cases hs with ⟨e, s, rfl, he, rfl⟩ | ⟨i, x, s, t, rfl, hx, rfl⟩
  · exact (act_effect he).taken_of_stopped (hsd.joined (by rw [hdone']; rfl)) hclosed
  · exact (callStep_effect hx).taken_of_closed hclosed

/-! ## Blocked calls -/

/-- The call waits for its pending object, and nobody took that from the table. -/
def Call.Stranded (s : State) (i : CallId) : Call → Prop
  | connect _ (.wait _) | connect _ (.waitAgain _) => i ∉ s.connects.taken
  | ping _ (.wait _) => i ∉ s.pings.taken
  | _ => False

/-- The call waits for an event that is not set, or for the accept queue, which is empty. -/
def Call.Waits (s : State) (i : CallId) : Call → Prop
  | connect _ (.wait _) | connect _ (.waitAgain _) => (s.peer.pendingConnect i).event = false
  | ping _ (.wait _) => (s.peer.pendingPing i).event = false
  | accept .get => s.peer.acceptQueue = []
  | _ => False

/-- The call cannot take a step, unless it times out. -/
def Sync.Blocked (text : SystemAddress → String) (c : Sync) (i : CallId) : Prop :=
  ∀ x c', (sync text).step c (.thread i x) = some c' → x = .inr .timeout

theorem exists_closePeerStep (hdone : s.teardown = .done) (pc : ClosePeerPc) :
    ∃ r, closePeerStep s pc = some r := by
  cases pc with
  | «begin» =>
    simp only [closePeerStep]
    split_ifs <;> exact ⟨_, rfl⟩
  | closing => simp [closePeerStep, hdone]

theorem closeStep_enabled (hdone : s.teardown = .done) (c : ConnId) (notify : Bool) (pc : ClosePc) :
    ∃ r, closeStep c notify s pc = some r := by
  cases pc with
  | peer q =>
    obtain ⟨r, hr⟩ := exists_closePeerStep hdone q
    simp only [closeStep, hr, Option.map_some]
    exact ⟨_, rfl⟩
  | _ => exact ⟨_, rfl⟩

variable (text) in
theorem exists_connectStep (hdone : s.teardown = .done) (args : ConnectArgs) {pc : ConnectPc}
    (hlive : 0 < pc.rank) (hwaits : ¬ (Call.connect args pc).Waits s i) :
    ∃ ch r, ch ≠ .timeout ∧ connectStep text i args s pc ch = some r := by
  cases pc with
  | start q =>
    cases q with
    | resolve => exact ⟨.resolved none, _, by simp, rfl⟩
    | rawConnect a => exact ⟨.connectResult .connectionAttemptStarted, _, by simp, rfl⟩
    | register a =>
      refine ⟨.go, ?_⟩
      simp only [connectStep, startStep]
      split_ifs <;> simp
    | _ => exact ⟨.go, _, by simp, rfl⟩
  | wait a | waitAgain a =>
    have hevent : (s.peer.pendingConnect i).event = true := by simpa [Call.Waits] using hwaits
    refine ⟨.go, ?_⟩
    simp [connectStep, hevent]
  | abandon a q =>
    cases q with
    | pop =>
      refine ⟨.go, ?_⟩
      cases hget : s.peer.pendingConnects.get? (text a) <;> simp [connectStep, abandonStep, hget]
    | cancel => exact ⟨.go, _, by simp, rfl⟩
  | reap c q =>
    obtain ⟨r, hr⟩ := closeStep_enabled hdone c true q
    refine ⟨.go, ?_⟩
    simp [connectStep, hr]
  | closePeer e q =>
    obtain ⟨r, hr⟩ := exists_closePeerStep hdone q
    refine ⟨.go, ?_⟩
    simp [connectStep, hr]
  | returned c | raised e => simp [ConnectPc.rank] at hlive
  | _ => exact ⟨.go, _, by simp, rfl⟩

variable (text) in
theorem exists_pingStep (args : PingArgs) {pc : PingPc} (hlive : 0 < pc.rank)
    (hwaits : ¬ (Call.ping args pc).Waits s i) :
    ∃ ch r, ch ≠ .timeout ∧ pingStep text i args s pc ch = some r := by
  cases pc with
  | start q =>
    cases q with
    | resolve => exact ⟨.resolved none, _, by simp, rfl⟩
    | rawPing a => exact ⟨.pingResult true, _, by simp, rfl⟩
    | register a =>
      refine ⟨.go, ?_⟩
      simp only [pingStep, startPingStep]
      split_ifs <;> simp
    | _ => exact ⟨.go, _, by simp, rfl⟩
  | wait a =>
    have hevent : (s.peer.pendingPing i).event = true := by simpa [Call.Waits] using hwaits
    refine ⟨.go, ?_⟩
    simp [pingStep, hevent]
  | returned pong | raised e => simp [PingPc.rank] at hlive
  | _ => exact ⟨.go, _, by simp, rfl⟩

theorem exists_acceptStep_go {pc : AcceptPc} (hlive : 0 < (Call.accept pc).acceptRank)
    (hwaits : ¬ (Call.accept pc).Waits s i) : ∃ r, acceptStep s pc .go = some r := by
  cases pc with
  | get =>
    cases hqueue : s.peer.acceptQueue with
    | nil => exact absurd hqueue hwaits
    | cons x rest => cases x <;> simp [acceptStep, hqueue]
  | returned c | raised e => simp [Call.acceptRank] at hlive
  | _ => exact ⟨_, rfl⟩

variable (text) in
/-- When the closer is done, a call that has begun and not ended can take a step unless it waits for
an event or for the accept queue. -/
theorem exists_callStep (hdone : s.teardown = .done) {t : Call} (hbegun : t ≠ .idle)
    (hlive : 0 < t.rank) (hwaits : ¬ t.Waits s i) :
    ∃ ch r, ch ≠ .timeout ∧ callStep text i (.inr ch) s t = some r := by
  cases t with
  | idle => exact absurd rfl hbegun
  | connect args pc =>
    obtain ⟨ch, r, hch, hr⟩ := exists_connectStep text hdone args hlive hwaits
    exact ⟨ch, _, hch, by simp [callStep, hr]; rfl⟩
  | ping args pc =>
    obtain ⟨ch, r, hch, hr⟩ := exists_pingStep text args hlive hwaits
    exact ⟨ch, _, hch, by simp [callStep, hr]; rfl⟩
  | accept pc =>
    obtain ⟨r, hr⟩ := exists_acceptStep_go hlive hwaits
    exact ⟨.go, _, by simp, by simp [callStep, hr]; rfl⟩
  | close c notify pc =>
    obtain ⟨r, hr⟩ := closeStep_enabled hdone c notify pc
    exact ⟨.go, _, by simp, by simp [callStep, hr]; rfl⟩
  | closePeer pc =>
    obtain ⟨r, hr⟩ := exists_closePeerStep hdone pc
    exact ⟨.go, _, by simp, by simp [callStep, hr]; rfl⟩
  | closed c | closedPeer => simp [Call.rank] at hlive

theorem Call.Waits.timeout {t : Call} (h : t.Waits s i) {x : CallStart ⊕ Choice} {r : State × Call}
    (hr : callStep text i x s t = some r) : x = .inr .timeout := by
  unfold Call.Waits at h
  split at h
  case h_5 => exact h.elim
  all_goals
    rcases x with start | ch
    · cases hr
    · cases ch <;> simp_all [callStep, connectStep, pingStep, acceptStep]

theorem blocked_iff_waits {c : Sync} (hdone : c.shared.teardown = .done)
    (hbegun : c.thread i ≠ .idle) (hlive : 0 < (c.thread i).rank) :
    Sync.Blocked text c i ↔ (c.thread i).Waits c.shared i := by
  constructor
  · intro hblocked
    by_contra hwaits
    obtain ⟨ch, r, hch, hr⟩ := exists_callStep text hdone hbegun hlive hwaits
    have hx := hblocked (.inr ch) (c.move i r) (by simp [System.step, sync, hr])
    cases hx
    exact hch rfl
  · intro hwaits x c' hs
    obtain ⟨r, hr, -⟩ := Option.map_eq_some_iff.mp hs
    exact hwaits.timeout hr

/-- Who waits when the closer is done. -/
theorem waits_iff {q : Option Nat} {t₀ : Int} {c : Sync}
    (h : Reach (sync text) anyStep (Sync.init q t₀) c) (hdone : c.shared.teardown = .done)
    (i : CallId) : (c.thread i).Waits c.shared i ↔ (c.thread i).Stranded c.shared i ∨
      c.thread i = .accept .get ∧ c.shared.peer.acceptQueue = [] := by
  have hconnect := connect_event_iff h hdone i
  have hping := ping_event_iff h hdone i
  cases ht : c.thread i with
  | connect args pc => cases pc <;> simp [Call.Waits, Call.Stranded, ← hconnect]
  | ping args pc => cases pc <;> simp [Call.Waits, Call.Stranded, ← hping]
  | accept pc => cases pc <;> simp [Call.Waits, Call.Stranded]
  | _ => simp [Call.Waits, Call.Stranded]

/-- The step is one of call `i`. -/
def stepOf (i : CallId) : Sync × SyncAction → Bool
  | (_, .thread j _) => j = i
  | _ => false

/-- A call uses up its rank. -/
theorem trace_rank {c d : Sync} {tr : List (Sync × SyncAction)}
    (h : Trace (sync text) anyStep c tr d) (i : CallId) :
    (d.thread i).rank + tr.countP (stepOf i) ≤ (c.thread i).rank := by
  refine (h.budget (fun _ => True) (stepOf i) (fun c => (Config.thread c i).rank) trivial ?_).2
  intro c a c' _ _ hs _
  refine ⟨trivial, ?_⟩
  rcases System.step_cases hs with ⟨e, s, rfl, he, rfl⟩ | ⟨j, x, s, t, rfl, hx, rfl⟩
  · simp [stepOf]
  · by_cases hj : j = i
    · subst hj
      have hrank := (callStep_move hx).rank
      simp only [Config.move_thread_self, stepOf, decide_true, if_true]
      omega
    · simp [Config.move_thread_of_ne _ _ (Ne.symm hj), stepOf, hj]

/-- **After the closer.** A call that has begun and not ended is blocked exactly if nobody took its
pending object from the table, or if it accepts on the empty queue. The former stays blocked as
long as it stays where it is, for the latter somebody holds the sentinel; and no call takes more
steps than its rank. -/
theorem closed_calls {q : Option Nat} {t₀ : Int} {c : Sync}
    (h : Reach (sync text) anyStep (Sync.init q t₀) c) (hdone : c.shared.teardown = .done) :
    (∀ i, c.thread i ≠ .idle → 0 < (c.thread i).rank → (Sync.Blocked text c i ↔
      (c.thread i).Stranded c.shared i ∨
        c.thread i = .accept .get ∧ c.shared.peer.acceptQueue = [])) ∧
    (∀ i, (c.thread i).Stranded c.shared i → ∀ d, Reach (sync text) anyStep c d →
      d.thread i = c.thread i → Sync.Blocked text d i) ∧
    (c.shared.peer.acceptQueue = [] → ∃ j c', c.thread j = .accept .putBack ∧
      (sync text).step c (.thread j (.inr .go)) = some c' ∧ c'.shared.peer.acceptQueue = [none]) ∧
    (∀ i tr d, Trace (sync text) anyStep c tr d →
      (d.thread i).rank + tr.countP (stepOf i) ≤ (c.thread i).rank) := by
  refine ⟨fun i hbegun hlive => ?_, fun i hstranded d hd hsame => ?_, fun hqueue => ?_,
    fun i tr d htr => trace_rank htr i⟩
  · rw [blocked_iff_waits hdone hbegun hlive]
    exact waits_iff h hdone i
  · have htaken := reach_taken_of_done h hd hdone
    have hwaits : (d.thread i).Waits d.shared i := by
      rw [waits_iff (h.trans hd) (reach_done h hd hdone)]
      left
      rw [hsame]
      unfold Call.Stranded at hstranded ⊢
      rw [htaken.1, htaken.2]
      exact hstranded
    intro x d' hs
    obtain ⟨r, hr, -⟩ := Option.map_eq_some_iff.mp hs
    exact hwaits.timeout hr
  · have hput : c.acceptQueue.marked := (reach_sentinelDone h).mpr hdone
    obtain ⟨j, hj⟩ := (reach_marked h).exists_held hput hqueue
    have hj : c.thread j = .accept .putBack := by
      have hmem : j ∈ c.acceptQueue.held := by simp only [hj, Set.mem_singleton_iff]
      exact hmem
    refine ⟨j,
      c.move j (c.shared.set (c.shared.peer.acceptPut none), .accept (.raised peerIsClosed)),
      hj, ?_, ?_⟩
    · simp [System.step, sync, callStep, hj, acceptStep]
    · simp [hqueue]

/-- Two calls connect to one address and the error path of the second pops the entry of the first.
The Peer is closed: the first call is blocked, and so is one of two accepts. -/
theorem closed_calls_stranded :
    ∃ c, Reach (sync SystemAddress.text) anyStep (Sync.init none 0) c ∧
      c.shared.teardown = .done ∧
        c.thread 0 = .connect ⟨"a", 1, 12, false⟩ (.wait ⟨"10.0.0.1", 1⟩) ∧
      Sync.Blocked SystemAddress.text c 0 ∧ c.thread 3 = .accept .get ∧
      Sync.Blocked SystemAddress.text c 3 ∧ ∃ j, c.thread j = .accept .putBack := by
  have h : Reach (sync SystemAddress.text) anyStep (Sync.init none 0) _ :=
    .of_exec (show (sync SystemAddress.text).exec anyStep
      (connects 0 ⟨"a", 1, 12, false⟩ "10.0.0.1" .connectionAttemptStarted ++
        connects 1 ⟨"a", 1, 12, false⟩ "10.0.0.1" .connectionAttemptAlreadyInProgress ++ steps 1
          1 ++
        [.thread 2 (.inl .accept), .thread 3 (.inl .accept)] ++ steps 2 1 ++ steps 3 1 ++
        .thread 4 (.inl .closePeer) :: steps 4 1 ++ pumps 1 ++ closes 6 ++ steps 2 1)
      (Sync.init none 0) = some _ from rfl)
  obtain ⟨hblocked, -, hsentinel, -⟩ := closed_calls h rfl
  obtain ⟨j, -, hj, -, -⟩ := hsentinel rfl
  refine ⟨_, h, rfl, rfl, (hblocked 0 (by decide) (by decide)).mpr (Or.inl ?_), rfl,
    (hblocked 3 (by decide) (by decide)).mpr (Or.inr ⟨rfl, rfl⟩), j, hj⟩
  exact List.not_mem_nil

end Raknet
