import Raknet.Aio.Effects
import Raknet.Lib.Simulation

/-!
# The asyncio API mirrors the sync API

A task stands where a sync call stands: `Task.mirror` forgets the worker, and reads a
`CancelledError` as the `TimeoutError` of the sync call. A call whose worker was dropped has never
begun.

Three things an asyncio call can do have no sync counterpart. Its task can be cancelled while the
worker is at `_start_connect` or `_start_ping`, or has just returned from it; a `close` that tears
the Peer down can be cancelled; and a cancelled connect that comes too late looks at
`pending.connection` without waiting for the event. Runs without these are orderly (`Aio.Orderly`).

**Theorem (`mirrored`).** An orderly run of the asyncio Peer is a run of the sync Peer, with the
same shared state.

**Theorem (`mirrored_back`).** Every run of the sync Peer is the mirror of an orderly run.
-/

namespace Raknet

open Interleaving

variable {text : SystemAddress → String}

/-! ## The sync call at which a task stands -/

/-- The address that `_start_connect` returned. -/
def ConnectWorker.address : ConnectWorker → SystemAddress
  | .done (.ok a) => a
  | _ => ⟨"", 0⟩

/-- The exception of the sync call: what the worker raised, or what leaves the task. -/
def ConnectArgs.mirrorExit (args : ConnectArgs) : ConnectWorker → Exit → Error
  | .done (.error e), _ => e
  | _, .error e => e
  | _, .cancelled => args.timedOut

/-- The sync call at which a connect stands. -/
def ConnectTask.mirror (args : ConnectArgs) (w : ConnectWorker) : ConnectTask → Call
  | .starting =>
    match w with
    | .queued | .dropped => .idle
    | .running q => .connect args (.start q)
    | .done (.ok a) => .connect args (.wait a)
    | .done (.error e) => .connect args (args.leave e)
  | .wait a => .connect args (.wait a)
  | .abandon a q => .connect args (.abandon a q)
  | .look => .connect args (.waitAgain w.address)
  | .reap c q => .connect args (.reap c q)
  | .finish => .connect args .finish
  | .closePeer x q =>
    if w = .dropped then .closePeer q else .connect args (.closePeer (args.mirrorExit w x) q)
  | .own c => .connect args (.own c)
  | .returned c => .connect args (.returned c)
  | .left x =>
    if w = .dropped then (if args.oneShot then .closedPeer else .idle)
    else .connect args (.raised (args.mirrorExit w x))

/-- `TimeoutError(f"ping to {host}:{port} timed out")`. -/
def PingArgs.timedOut (args : PingArgs) : Error :=
  let host := args.host
  let port := args.port
  .timeout s!"ping to {host}:{port} timed out"

/-- The exception of the sync call: what the worker raised, or what leaves the task. -/
def PingArgs.mirrorExit (args : PingArgs) : PingWorker → Exit → Error
  | .done (.error e), _ => e
  | _, .error e => e
  | _, .cancelled => args.timedOut

/-- The sync call at which a ping stands. -/
def PingTask.mirror (args : PingArgs) (w : PingWorker) : PingTask → Call
  | .starting =>
    match w with
    | .queued | .dropped => .idle
    | .running q => .ping args (.start q)
    | .done (.ok a) => .ping args (.wait a)
    | .done (.error e) => .ping args (.raised e)
  | .wait a => .ping args (.wait a)
  | .popCancelled a => .ping args (.popTimedOut a)
  | .finish => .ping args .finish
  | .returned pong => .ping args (.returned pong)
  | .left x => if w = .dropped then .idle else .ping args (.raised (args.mirrorExit w x))

/-- The sync call at which a task stands. Of the calls that leave no other trace only `accept` can
be cancelled in an orderly run. -/
def Task.mirror : Task → Call
  | idle => .idle
  | connect args w pc => pc.mirror args w
  | ping args w pc => pc.mirror args w
  | accept pc => .accept pc
  | close c notify pc => .close c notify pc
  | closed c => .closed c
  | closePeer pc => .closePeer pc
  | closedPeer => .closedPeer
  | cancelled => .accept (.raised (.timeout "accept timed out"))

/-- The sync Peer at which an asyncio Peer stands. -/
def Aio.mirror (c : Aio) : Sync := c.mapThreads Task.mirror

/-! ## Orderly runs -/

/-- The function has not begun, or it has raised. -/
def Worker.settled {π ρ : Type} : Worker π (Except Error ρ) → Bool
  | queued | done (.error _) => true
  | _ => false

/-- A `CancelledError` does here what a time-out does, or what the call does anyway. -/
def Task.interruptible : Task → Bool
  | connect _ w .starting => w.settled
  | ping _ w .starting => w.settled
  | connect _ _ (.wait _) | ping _ _ (.wait _) | accept .get => true
  | _ => false

/-- The task is about to look at `pending.connection`. -/
def Task.looks : Task → Bool
  | connect _ _ .look => true
  | _ => false

/-- The step of call `i` has a counterpart in the sync API. -/
def Task.Orderly (i : CallId) (s : State) (t : Task) : CallStart ⊕ TaskChoice → Prop
  | .inr .cancel => t.interruptible = true
  | .inr .go => t.looks = true → (s.peer.pendingConnect i).event = true
  | _ => True

/-- The step has a counterpart in the sync API. -/
def Aio.Orderly (c : Aio) : AioAction → Prop
  | .shared _ => True
  | .thread i x => (c.thread i).Orderly i c.shared x

instance Aio.decidableOrderly (c : Aio) (a : AioAction) : Decidable (Aio.Orderly c a) := by
  rcases a with _ | ⟨i, _ | _ | _ | _⟩ <;> simp only [Aio.Orderly, Task.Orderly] <;> infer_instance

/-- How far the worker has come when the task stands where it does. -/
def Task.Paired : Task → Prop
  | connect args w pc =>
    match pc with
    | .starting => True
    | .wait a | .abandon a _ => w = .done (.ok a)
    | .look | .reap _ _ | .finish | .own _ | .returned _ => ∃ a, w = .done (.ok a)
    | .closePeer _ _ => args.oneShot = true ∧ (w = .dropped ∨ ∃ r, w = .done r)
    | .left _ => w = .dropped ∨ ∃ r, w = .done r
  | ping _ w pc =>
    match pc with
    | .starting => True
    | .wait _ | .popCancelled _ | .finish | .returned _ => ∃ a, w = .done (.ok a)
    | .left _ => w = .dropped ∨ ∃ r, w = .done r
  | _ => True

theorem ConnectArgs.exit_paired (args : ConnectArgs) {w : ConnectWorker} (x : Exit)
    (hw : w = .dropped ∨ ∃ r, w = .done r) : (Task.connect args w (args.exit x)).Paired := by
  unfold ConnectArgs.exit
  split_ifs with hone
  · exact ⟨hone, hw⟩
  · exact hw

theorem ConnectArgs.hand_paired (args : ConnectArgs) {w : ConnectWorker} (c : ConnId)
    (hw : ∃ a, w = .done (.ok a)) : (Task.connect args w (args.hand c)).Paired := by
  unfold ConnectArgs.hand
  split_ifs <;> exact hw

theorem Worker.eq_of_settled {π ρ : Type} {w : Worker π (Except Error ρ)} (h : w.settled = true) :
    w = .queued ∨ ∃ e, w = .done (.error e) := by
  rcases w with _ | _ | (_ | _) | _ <;> simp_all [Worker.settled]

theorem TaskMove.paired {i : CallId} {s s' : State} {t t' : Task} {x : CallStart ⊕ TaskChoice}
    (h : TaskMove text i s t x s' t') (hok : t.Orderly i s x) (ht : t.Paired) : t'.Paired := by
  cases h with
  | begin start t h =>
    cases start <;> simp only [startTask] at h
    case close =>
      split_ifs at h
      cases h
      trivial
    all_goals
      cases h
      trivial
  | connect args w w' pc pc' s' ch h =>
    cases h with
    | take => trivial
    | work q ch s' n pc h => cases pc <;> simp_all [Task.Paired]
    | started a => rfl
    | raised e => exact args.exit_paired _ (Or.inr ⟨_, rfl⟩)
    | drop => exact args.exit_paired _ (Or.inl rfl)
    | cancelStart w hw =>
      rcases Worker.eq_of_settled hok with rfl | ⟨e, rfl⟩
      · exact absurd rfl hw
      · exact args.exit_paired _ (Or.inr ⟨_, rfl⟩)
    | woken w a hevent => exact ⟨a, ht⟩
    | cancelWait w a => exact ht
    | late w a hget => exact ⟨a, ht⟩
    | abandon w a j hget => exact ht
    | cancel w a => exact args.exit_paired _ (Or.inr ⟨_, ht⟩)
    | nothing w hnone =>
      obtain ⟨a, rfl⟩ := ht
      exact args.exit_paired _ (Or.inr ⟨_, rfl⟩)
    | orphan w c hconn => exact ht
    | reap w c pc pc' s' h => exact ht
    | reaped w c pc s' h =>
      obtain ⟨a, rfl⟩ := ht
      exact args.exit_paired _ (Or.inr ⟨_, rfl⟩)
    | cancelReap w c s' h => cases hok
    | finish w c h => exact args.hand_paired c ht
    | failed w e h =>
      obtain ⟨a, rfl⟩ := ht
      exact args.exit_paired _ (Or.inr ⟨_, rfl⟩)
    | closeLost w x hclosed => exact ht.2
    | closeBegin w x hopen => exact ht
    | closeDone w x hdone => exact ht.2
    | cancelClosePeer w x s' h => cases hok
    | own w c => exact ht
  | ping args w w' pc pc' s' ch h =>
    cases h with
    | take => trivial
    | work q ch s' n pc h => cases pc <;> simp_all [Task.Paired]
    | started a => exact ⟨a, rfl⟩
    | raised e => exact Or.inr ⟨_, rfl⟩
    | drop => exact Or.inl rfl
    | cancelStart w hw =>
      rcases Worker.eq_of_settled hok with rfl | ⟨e, rfl⟩
      · exact absurd rfl hw
      · exact Or.inr ⟨_, rfl⟩
    | woken w a hevent => exact ht
    | cancelWait w a => exact ht
    | popCancelled w a =>
      obtain ⟨b, rfl⟩ := ht
      exact Or.inr ⟨_, rfl⟩
    | failed w hnone =>
      obtain ⟨b, rfl⟩ := ht
      exact Or.inr ⟨_, rfl⟩
    | finish w pong hpong => exact ht
  | _ => trivial

theorem reach_paired {q : Option Nat} {t₀ : Int} {c : Aio}
    (h : Reach (aio text) Aio.Orderly (Aio.init q t₀) c) : ∀ i, (c.thread i).Paired := by
  refine h.invariant (I := fun c => ∀ i, (c.thread i).Paired) (fun _ => trivial) ?_
  intro c a c' _ hok hstep hi j
  rcases System.step_cases hstep with ⟨e, s, rfl, hs, rfl⟩ | ⟨i, x, s, t, rfl, hs, rfl⟩
  · exact hi j
  · by_cases hj : j = i
    · subst hj
      simpa using (taskStep_move hs).paired hok (hi j)
    · rw [Config.move_thread_of_ne _ _ hj]
      exact hi j

/-! ## From tasks to calls -/

theorem CloseEffect.closeStep {s s' : State} {c : ConnId} {notify : Bool} {pc : ClosePc}
    {pc' : Option ClosePc} (h : CloseEffect c notify s pc s' pc') :
    Raknet.closeStep c notify s pc = some (s', pc'.elim (.ret ()) .pc) := by
  cases h <;> simp_all [Raknet.closeStep, closePeerStep]

theorem ConnectArgs.mirror_exit (args : ConnectArgs) {w : ConnectWorker} (x : Exit)
    (hw : w ≠ .dropped) :
    (args.exit x).mirror args w = .connect args (args.leave (args.mirrorExit w x)) := by
  unfold ConnectArgs.exit ConnectArgs.leave
  split_ifs <;> simp [ConnectTask.mirror, hw]

/-- The exception of the worker leaves the call, whether the task is cancelled or not. -/
theorem ConnectArgs.mirror_raised (args : ConnectArgs) (e : Error) (x : Exit) :
    (args.exit x).mirror args (.done (.error e)) = .connect args (args.leave e) :=
  args.mirror_exit x (by simp)

theorem ConnectArgs.mirror_drop (args : ConnectArgs) (x : Exit) :
    (args.exit x).mirror args .dropped = if args.oneShot then .closePeer .begin else .idle := by
  unfold ConnectArgs.exit
  split_ifs with h <;> simp [ConnectTask.mirror, h]

theorem ConnectArgs.mirror_hand (args : ConnectArgs) (w : ConnectWorker) (c : ConnId) :
    (args.hand c).mirror args w = .connect args (args.give c) := by
  unfold ConnectArgs.hand ConnectArgs.give
  split_ifs <;> rfl

/-- What the sync thread is doing while the worker is at work, or when it is done. -/
theorem ConnectArgs.mirror_worker (args : ConnectArgs) (i : CallId) {s s' : State} {q : StartPc}
    {ch : Choice} {n : Next StartPc (Except Error SystemAddress)}
    (h : startStep text i args s q ch = some (s', n)) :
    callStep text i (.inr ch) s (.connect args (.start q)) =
      some (s', ConnectTask.starting.mirror args n.worker) := by
  rcases n with q' | (e | a) <;> simp [callStep, connectStep, h, Next.worker, ConnectTask.mirror]

theorem PingArgs.mirror_worker (args : PingArgs) (i : CallId) {s s' : State} {q : StartPingPc}
    {ch : Choice} {n : Next StartPingPc (Except Error SystemAddress)}
    (h : startPingStep text i args s q ch = some (s', n)) :
    callStep text i (.inr ch) s (.ping args (.start q)) =
      some (s', PingTask.starting.mirror args n.worker) := by
  rcases n with q' | (e | a) <;> simp [callStep, pingStep, h, Next.worker, PingTask.mirror]

/-- A step of a task is a step of the sync call, or nothing to it. -/
def Mirrored (text : SystemAddress → String) (i : CallId) (s : State) (t : Task) (s' : State)
    (t' : Task) : Prop :=
  s' = s ∧ t'.mirror = t.mirror ∨ ∃ y, callStep text i y s t.mirror = some (s', t'.mirror)

theorem ConnectTaskEffect.mirrors {i : CallId} {args : ConnectArgs} {s s' : State}
    {w w' : ConnectWorker} {pc pc' : ConnectTask} {ch : TaskChoice}
    (h : ConnectTaskEffect text i args s w pc ch s' w' pc')
    (hok : (Task.connect args w pc).Orderly i s (.inr ch)) (ht : (Task.connect args w pc).Paired) :
    Mirrored text i s (.connect args w pc) s' (.connect args w' pc') := by
  cases h with
  | take => exact Or.inr ⟨.inl (.connect args), rfl⟩
  | work q ch s' n pc h =>
    cases pc with
    | starting => exact Or.inr ⟨.inr ch, args.mirror_worker i h⟩
    | _ => simp [Task.Paired] at ht
  | started a => exact Or.inl ⟨rfl, rfl⟩
  | raised e => exact Or.inl ⟨rfl, args.mirror_raised e _⟩
  | drop =>
    have hdrop := args.mirror_drop .cancelled
    cases hone : args.oneShot with
    | false =>
      rw [hone] at hdrop
      exact Or.inl ⟨rfl, hdrop⟩
    | true =>
      rw [hone] at hdrop
      exact Or.inr ⟨.inl .closePeer, by simp [Task.mirror, hdrop]; rfl⟩
  | cancelStart w hw =>
    rcases Worker.eq_of_settled hok with rfl | ⟨e, rfl⟩
    · exact absurd rfl hw
    · exact Or.inl ⟨rfl, args.mirror_raised e _⟩
  | woken w a hevent =>
    refine Or.inr ⟨.inr .go, ?_⟩
    simp [Task.mirror, ConnectTask.mirror, callStep, connectStep, hevent]
  | cancelWait w a => exact Or.inr ⟨.inr .timeout, rfl⟩
  | late w a hget =>
    obtain rfl : w = .done (.ok a) := ht
    refine Or.inr ⟨.inr .go, ?_⟩
    simp [Task.mirror, ConnectTask.mirror, callStep, connectStep, abandonStep, hget,
      ConnectWorker.address]
  | abandon w a j hget =>
    refine Or.inr ⟨.inr .go, ?_⟩
    simp [Task.mirror, ConnectTask.mirror, callStep, connectStep, abandonStep, hget]
  | cancel w a =>
    obtain rfl : w = .done (.ok a) := ht
    refine Or.inr ⟨.inr .go, ?_⟩
    rw [Task.mirror, Task.mirror, args.mirror_exit .cancelled (by simp)]
    rfl
  | nothing w hnone =>
    obtain ⟨a, rfl⟩ := ht
    refine Or.inr ⟨.inr .go, ?_⟩
    have hevent := hok rfl
    rw [Task.mirror, Task.mirror, args.mirror_exit .cancelled (by simp)]
    simp [ConnectTask.mirror, callStep, connectStep, hevent, hnone, ConnectArgs.mirrorExit]
  | orphan w c hconn =>
    refine Or.inr ⟨.inr .go, ?_⟩
    have hevent := hok rfl
    simp [Task.mirror, ConnectTask.mirror, callStep, connectStep, hevent, hconn]
  | reap w c pc pc' s' h =>
    refine Or.inr ⟨.inr .go, ?_⟩
    simp [Task.mirror, ConnectTask.mirror, callStep, connectStep, h.closeStep]
  | reaped w c pc s' h =>
    obtain ⟨a, rfl⟩ := ht
    refine Or.inr ⟨.inr .go, ?_⟩
    rw [Task.mirror, Task.mirror, args.mirror_exit .cancelled (by simp)]
    simp [ConnectTask.mirror, callStep, connectStep, h.closeStep, ConnectArgs.mirrorExit]
  | cancelReap w c s' h => cases hok
  | finish w c h =>
    refine Or.inr ⟨.inr .go, ?_⟩
    rw [Task.mirror, Task.mirror, args.mirror_hand]
    simp [ConnectTask.mirror, callStep, connectStep, h]
  | failed w e h =>
    obtain ⟨a, rfl⟩ := ht
    refine Or.inr ⟨.inr .go, ?_⟩
    rw [Task.mirror, Task.mirror, args.mirror_exit _ (by simp)]
    simp [ConnectTask.mirror, callStep, connectStep, h, ConnectArgs.mirrorExit]
  | closeLost w x hclosed =>
    refine Or.inr ⟨.inr .go, ?_⟩
    by_cases hw : w = .dropped <;>
      simp [Task.mirror, ConnectTask.mirror, hw, ht.1, callStep, connectStep, closePeerStep,
        hclosed]
  | closeBegin w x hopen =>
    refine Or.inr ⟨.inr .go, ?_⟩
    by_cases hw : w = .dropped <;>
      simp [Task.mirror, ConnectTask.mirror, hw, callStep, connectStep, closePeerStep, hopen]
  | closeDone w x hdone =>
    refine Or.inr ⟨.inr .go, ?_⟩
    by_cases hw : w = .dropped <;>
      simp [Task.mirror, ConnectTask.mirror, hw, ht.1, callStep, connectStep, closePeerStep, hdone]
  | cancelClosePeer w x s' h => cases hok
  | own w c => exact Or.inr ⟨.inr .go, rfl⟩

theorem PingTaskEffect.mirrors {i : CallId} {args : PingArgs} {s s' : State} {w w' : PingWorker}
    {pc pc' : PingTask} {ch : TaskChoice} (h : PingTaskEffect text i args s w pc ch s' w' pc')
    (hok : (Task.ping args w pc).Orderly i s (.inr ch)) (ht : (Task.ping args w pc).Paired) :
    Mirrored text i s (.ping args w pc) s' (.ping args w' pc') := by
  cases h with
  | take => exact Or.inr ⟨.inl (.ping args), rfl⟩
  | work q ch s' n pc h =>
    cases pc with
    | starting => exact Or.inr ⟨.inr ch, args.mirror_worker i h⟩
    | _ => simp [Task.Paired] at ht
  | started a => exact Or.inl ⟨rfl, rfl⟩
  | raised e => exact Or.inl ⟨rfl, by simp [Task.mirror, PingTask.mirror, PingArgs.mirrorExit]⟩
  | drop => exact Or.inl ⟨rfl, by simp [Task.mirror, PingTask.mirror]⟩
  | cancelStart w hw =>
    rcases Worker.eq_of_settled hok with rfl | ⟨e, rfl⟩
    · exact absurd rfl hw
    · exact Or.inl ⟨rfl, by simp [Task.mirror, PingTask.mirror, PingArgs.mirrorExit]⟩
  | woken w a hevent =>
    refine Or.inr ⟨.inr .go, ?_⟩
    simp [Task.mirror, PingTask.mirror, callStep, pingStep, hevent]
  | cancelWait w a => exact Or.inr ⟨.inr .timeout, rfl⟩
  | popCancelled w a =>
    obtain ⟨b, rfl⟩ := ht
    exact Or.inr ⟨.inr .go, by simp [Task.mirror, PingTask.mirror, PingArgs.mirrorExit,
      PingArgs.timedOut, callStep, pingStep]⟩
  | failed w hnone =>
    obtain ⟨b, rfl⟩ := ht
    refine Or.inr ⟨.inr .go, ?_⟩
    simp [Task.mirror, PingTask.mirror, PingArgs.mirrorExit, callStep, pingStep, finishPing, hnone]
  | finish w pong hpong =>
    refine Or.inr ⟨.inr .go, ?_⟩
    simp [Task.mirror, PingTask.mirror, callStep, pingStep, finishPing, hpong]

theorem TaskMove.mirrors {i : CallId} {s s' : State} {t t' : Task} {x : CallStart ⊕ TaskChoice}
    (h : TaskMove text i s t x s' t') (hok : t.Orderly i s x) (ht : t.Paired) :
    Mirrored text i s t s' t' := by
  cases h with
  | begin start t h =>
    cases start with
    | connect args | ping args =>
      cases h
      exact Or.inl ⟨rfl, rfl⟩
    | accept =>
      cases h
      exact Or.inr ⟨.inl .accept, rfl⟩
    | closePeer =>
      cases h
      exact Or.inr ⟨.inl .closePeer, rfl⟩
    | close c notify =>
      simp only [startTask] at h
      split_ifs at h with hpub
      cases h
      exact Or.inr ⟨.inl (.close c notify), by simp [Task.mirror, callStep, startCall, hpub]⟩
  | connect args w w' pc pc' s' ch h => exact h.mirrors hok ht
  | ping args w w' pc pc' s' ch h => exact h.mirrors hok ht
  | accept pc pc' s' h => exact Or.inr ⟨.inr .go, by simp [Task.mirror, callStep, h]⟩
  | cancelAccept => exact Or.inr ⟨.inr .timeout, rfl⟩
  | close c notify pc pc' s' h =>
    exact Or.inr ⟨.inr .go, by simp [Task.mirror, callStep, h.closeStep]⟩
  | closed c notify pc s' h => exact Or.inr ⟨.inr .go, by simp [Task.mirror, callStep, h.closeStep]⟩
  | cancelClose c notify s' h => cases hok
  | closeLost hclosed =>
    exact Or.inr ⟨.inr .go, by simp [Task.mirror, callStep, closePeerStep, hclosed]⟩
  | closeBegin hopen =>
    exact Or.inr ⟨.inr .go, by simp [Task.mirror, callStep, closePeerStep, hopen]⟩
  | closeDone hdone =>
    exact Or.inr ⟨.inr .go, by simp [Task.mirror, callStep, closePeerStep, hdone]⟩
  | cancelClosePeer s' h => cases hok

/-- **An orderly run of the asyncio Peer is a run of the sync Peer.** -/
theorem mirrored {q : Option Nat} {t₀ : Int} {c : Aio}
    (h : Reach (aio text) Aio.Orderly (Aio.init q t₀) c) :
    Reach (sync text) anyStep (Sync.init q t₀) c.mirror := by
  refine h.mapThreads Task.mirror (fun _ _ => rfl) ?_
  intro c i x s t hr hok hstep
  exact (taskStep_move hstep).mirrors hok (reach_paired hr i)

/-- A connect that is cancelled while it waits mirrors one that times out. -/
theorem mirrored_cancelled :
    ∃ c : Aio,
      c.thread 0 = .connect ⟨"host", 1, 12, false⟩ (.done (.ok ⟨"ip", 1⟩)) (.left .cancelled) ∧
      c.mirror.thread 0 = .connect ⟨"host", 1, 12, false⟩
        (.raised (.timeout "connect to host:1 timed out")) ∧
      Reach (sync SystemAddress.text) anyStep (Sync.init none 0) c.mirror := by
  have hrun : Reach (aio SystemAddress.text) Aio.Orderly (Aio.init none 0) _ :=
    .of_exec (show (aio SystemAddress.text).exec Aio.Orderly
      [.thread 0 (.inl (.connect ⟨"host", 1, 12, false⟩)), .thread 0 (.inr (.worker .go)),
        .thread 0 (.inr (.worker .go)), .thread 0 (.inr (.worker .go)),
        .thread 0 (.inr (.worker (.resolved (some "ip")))), .thread 0 (.inr (.worker .go)),
        .thread 0 (.inr (.worker (.connectResult .connectionAttemptStarted))), .thread 0 (.inr .go),
        .thread 0 (.inr .cancel), .thread 0 (.inr .go), .thread 0 (.inr .go)]
      (Aio.init none 0) = some _ from rfl)
  exact ⟨_, rfl, rfl, mirrored hrun⟩

/-! ## From calls to tasks -/

/-- The worker is at work, or the task goes on without it. -/
def Task.Ready : Task → Prop
  | connect _ w .starting => ∃ q, w = .running q
  | ping _ w .starting => ∃ q, w = .running q
  | connect args w pc => w ≠ .dropped ∧ (connect args w pc).Paired
  | ping args w pc => w ≠ .dropped ∧ (ping args w pc).Paired
  | _ => True

/-- The step of a sync call is answered by steps of the task. -/
def Answered (text : SystemAddress → String) (i : CallId) (s : State) (t : Task) (s' : State)
    (call : Call) : Prop :=
  ∃ u, (u.mirror = call ∧ u.Ready) ∧ Runs (aio text) (fun i s t x => t.Orderly i s x) i s t s' u

theorem Answered.one {i : CallId} {s s' : State} {t : Task} (x : CallStart ⊕ TaskChoice) (u : Task)
    {call : Call} (hok : t.Orderly i s x) (h : taskStep text i x s t = some (s', u))
    (hcall : u.mirror = call) (hu : u.Ready) : Answered text i s t s' call :=
  ⟨u, ⟨hcall, hu⟩, .one hok h⟩

theorem ConnectArgs.exit_ready (args : ConnectArgs) {w : ConnectWorker} (x : Exit)
    (hw : ∃ r, w = .done r) : (Task.connect args w (args.exit x)).Ready := by
  obtain ⟨r, rfl⟩ := hw
  unfold ConnectArgs.exit
  split_ifs with hone <;> simp [Task.Ready, Task.Paired, hone]

theorem ConnectArgs.hand_ready (args : ConnectArgs) {w : ConnectWorker} (c : ConnId)
    (hw : ∃ a, w = .done (.ok a)) : (Task.connect args w (args.hand c)).Ready := by
  obtain ⟨a, rfl⟩ := hw
  unfold ConnectArgs.hand
  split_ifs <;> simp [Task.Ready, Task.Paired]

theorem answered_start (i : CallId) (s : State) (start : CallStart) {s' : State} {call : Call}
    (h : callStep text i (.inl start) s .idle = some (s', call)) :
    Answered text i s .idle s' call := by
  obtain ⟨u, hu, hs⟩ := Option.map_eq_some_iff.mp h
  cases hs
  cases start with
  | connect args =>
    cases hu
    refine ⟨.connect args (.running .checkOpen) .starting, ⟨rfl, _, rfl⟩, ?_⟩
    refine .step (x := .inl (.connect args)) trivial rfl
      (.one (x := .inr (.worker .go)) trivial rfl)
  | ping args =>
    cases hu
    refine ⟨.ping args (.running .checkOpen) .starting, ⟨rfl, _, rfl⟩, ?_⟩
    refine .step (x := .inl (.ping args)) trivial rfl (.one (x := .inr (.worker .go)) trivial rfl)
  | accept =>
    cases hu
    exact .one (.inl .accept) (.accept .checkOpen) trivial rfl rfl trivial
  | close c notify =>
    simp only [startCall] at hu
    split_ifs at hu with hpub
    cases hu
    refine .one (.inl (.close c notify)) (.close c notify .check) trivial ?_ rfl trivial
    simp [taskStep, startTask, hpub]
  | closePeer =>
    cases hu
    exact .one (.inl .closePeer) (.closePeer .begin) trivial rfl rfl trivial

/-- What `_start_connect` leaves behind, and the task that resumes with it. -/
theorem ConnectArgs.answered_worker (args : ConnectArgs) (i : CallId) {s s' : State} {q : StartPc}
    {ch : Choice} {n : Next StartPc (Except Error SystemAddress)}
    (h : startStep text i args s q ch = some (s', n)) :
    Answered text i s (.connect args (.running q) .starting) s'
      (ConnectTask.starting.mirror args n.worker) := by
  have hwork : taskStep text i (.inr (.worker ch)) s (.connect args (.running q) .starting) =
      some (s', .connect args n.worker .starting) := by
    rcases n with q' | (e | a) <;> simp [taskStep, connectTaskStep, h, Next.worker]
  rcases n with q' | (e | a)
  · exact .one (.inr (.worker ch)) _ trivial hwork rfl ⟨q', rfl⟩
  · refine ⟨.connect args (.done (.error e)) (args.exit (.error e)),
      ⟨args.mirror_raised e _, args.exit_ready _ ⟨_, rfl⟩⟩, ?_⟩
    refine .step (x := .inr (.worker ch)) trivial hwork (.one (x := .inr .go) ?_ rfl)
    intro hlooks
    cases hlooks
  · refine ⟨.connect args (.done (.ok a)) (.wait a), ⟨rfl, by simp [Task.Ready, Task.Paired]⟩, ?_⟩
    refine .step (x := .inr (.worker ch)) trivial hwork (.one (x := .inr .go) ?_ rfl)
    intro hlooks
    cases hlooks

theorem PingArgs.answered_worker (args : PingArgs) (i : CallId) {s s' : State} {q : StartPingPc}
    {ch : Choice} {n : Next StartPingPc (Except Error SystemAddress)}
    (h : startPingStep text i args s q ch = some (s', n)) :
    Answered text i s (.ping args (.running q) .starting) s'
      (PingTask.starting.mirror args n.worker) := by
  have hwork : taskStep text i (.inr (.worker ch)) s (.ping args (.running q) .starting) =
      some (s', .ping args n.worker .starting) := by
    rcases n with q' | (e | a) <;> simp [taskStep, pingTaskStep, h, Next.worker]
  rcases n with q' | (e | a)
  · exact .one (.inr (.worker ch)) _ trivial hwork rfl ⟨q', rfl⟩
  · refine ⟨.ping args (.done (.error e)) (.left (.error e)),
      ⟨rfl, by simp [Task.Ready, Task.Paired]⟩,
      ?_⟩
    refine .step (x := .inr (.worker ch)) trivial hwork (.one (x := .inr .go) ?_ rfl)
    intro hlooks
    cases hlooks
  · refine ⟨.ping args (.done (.ok a)) (.wait a), ⟨rfl, by simp [Task.Ready, Task.Paired]⟩, ?_⟩
    refine .step (x := .inr (.worker ch)) trivial hwork (.one (x := .inr .go) ?_ rfl)
    intro hlooks
    cases hlooks

theorem ConnectEffect.answered {i : CallId} {args : ConnectArgs} {s s' : State} {w : ConnectWorker}
    {pc : ConnectTask} {p p' : ConnectPc} (h : ConnectEffect text i args s p s' p')
    (hw : ∃ r, w = .done r) (ht : (Task.connect args w pc).Paired)
    (hp : pc.mirror args w = .connect args p) (hpc : pc ≠ .starting) :
    Answered text i s (.connect args w pc) s' (.connect args p') := by
  have hdrop : w ≠ .dropped := by
    obtain ⟨r, rfl⟩ := hw
    simp
  have hdone : ∀ (pc' : ConnectTask) {call : Call} (x : TaskChoice),
      (Task.connect args w pc).Orderly i s (.inr x) →
      connectTaskStep text i args s w pc x = some (s', w, pc') → pc'.mirror args w = call →
      (Task.connect args w pc').Ready → Answered text i s (.connect args w pc) s' call := by
    intro pc' call x hok hstep hcall hready
    exact .one (.inr x) (.connect args w pc') hok (by simp [taskStep, hstep]) hcall hready
  cases pc with
  | starting => exact absurd rfl hpc
  | wait a =>
    obtain rfl : w = .done (.ok a) := ht
    cases hp
    cases h with
    | woken _ hevent =>
      exact hdone .finish .go (by simp [Task.looks, Task.Orderly])
        (by simp [connectTaskStep, hevent]) rfl ⟨hdrop, _, rfl⟩
    | timeout => exact hdone (.abandon a .pop) .cancel rfl rfl rfl ⟨hdrop, rfl⟩
  | abandon a q =>
    obtain rfl : w = .done (.ok a) := ht
    cases hp
    cases h with
    | late _ hget =>
      exact hdone .look .go (by simp [Task.looks, Task.Orderly])
        (by simp [connectTaskStep, abandonStep, hget]) rfl ⟨hdrop, _, rfl⟩
    | abandon _ j hget =>
      exact hdone (.abandon a .cancel) .go (by simp [Task.looks, Task.Orderly])
        (by simp [connectTaskStep, abandonStep, hget]) rfl ⟨hdrop, rfl⟩
    | cancel =>
      exact hdone (args.exit .cancelled) .go (by simp [Task.looks, Task.Orderly])
        (by simp [connectTaskStep, abandonStep]) (args.mirror_exit _ hdrop) (args.exit_ready _ hw)
  | look =>
    obtain ⟨a, rfl⟩ := ht
    cases hp
    cases h with
    | wokenLate _ hevent hnone =>
      exact hdone (args.exit .cancelled) .go (fun _ => hevent)
        (by simp [connectTaskStep, hnone]) (args.mirror_exit _ hdrop) (args.exit_ready _ hw)
    | orphan _ c hevent hconn =>
      exact hdone (.reap c .check) .go (fun _ => hevent)
        (by simp [connectTaskStep, hconn]) rfl ⟨hdrop, _, rfl⟩
  | reap c q =>
    obtain ⟨a, rfl⟩ := ht
    cases hp
    cases h with
    | reap _ _ pc' _ h =>
      exact hdone (.reap c pc') .go (by simp [Task.looks, Task.Orderly])
        (by simp [connectTaskStep, h.closeStep]) rfl ⟨hdrop, _, rfl⟩
    | reaped _ _ _ h =>
      exact hdone (args.exit .cancelled) .go (by simp [Task.looks, Task.Orderly])
        (by simp [connectTaskStep, h.closeStep]) (args.mirror_exit _ hdrop) (args.exit_ready _ hw)
  | finish =>
    obtain ⟨a, rfl⟩ := ht
    cases hp
    cases h with
    | finish c h =>
      exact hdone (args.hand c) .go (by simp [Task.looks, Task.Orderly])
        (by simp [connectTaskStep, h]) (args.mirror_hand _ c) (args.hand_ready c ⟨a, rfl⟩)
    | failed e h =>
      exact hdone (args.exit (.error e)) .go (by simp [Task.looks, Task.Orderly])
        (by simp [connectTaskStep, h]) (args.mirror_exit _ hdrop) (args.exit_ready _ hw)
  | closePeer x q =>
    simp only [ConnectTask.mirror, hdrop, if_false, Call.connect.injEq, true_and] at hp
    subst hp
    have hleft :
        ConnectTask.mirror args w (.left x) = .connect args (.raised (args.mirrorExit w x)) := by
      simp [ConnectTask.mirror, hdrop]
    cases h with
    | closeLost _ hclosed =>
      exact hdone (.left x) .go (by simp [Task.looks, Task.Orderly])
        (by simp [connectTaskStep, closePeerStep, hclosed]) hleft ⟨hdrop, ht.2⟩
    | closeBegin _ hopen =>
      exact hdone (.closePeer x .closing) .go (by simp [Task.looks, Task.Orderly])
        (by simp [connectTaskStep, closePeerStep, hopen]) (by simp [ConnectTask.mirror, hdrop])
        ⟨hdrop, ht⟩
    | closeDone _ hdone' =>
      exact hdone (.left x) .go (by simp [Task.looks, Task.Orderly])
        (by simp [connectTaskStep, closePeerStep, hdone']) hleft ⟨hdrop, ht.2⟩
  | own c =>
    obtain ⟨a, rfl⟩ := ht
    cases hp
    cases h with
    | own =>
      exact hdone (.returned c) .go (by simp [Task.looks, Task.Orderly]) rfl rfl ⟨hdrop, _, rfl⟩
  | returned c =>
    cases hp
    cases h
  | left x =>
    simp only [ConnectTask.mirror, hdrop, if_false, Call.connect.injEq, true_and] at hp
    subst hp
    cases h

theorem ConnectArgs.answered (args : ConnectArgs) {i : CallId} {s s' : State} {w : ConnectWorker}
    {pc : ConnectTask} {x : CallStart ⊕ Choice} {call : Call}
    (h : callStep text i x s (pc.mirror args w) = some (s', call))
    (ht : (Task.connect args w pc).Ready) : Answered text i s (.connect args w pc) s' call := by
  by_cases hpc : pc = .starting
  · subst hpc
    obtain ⟨q, rfl⟩ := ht
    rcases x with start | ch
    · cases h
    obtain ⟨⟨s₁, p⟩, hstep, hcall⟩ := Option.map_eq_some_iff.mp h
    obtain ⟨⟨s₂, n⟩, hn, -⟩ := Option.map_eq_some_iff.mp hstep
    have hsame := (args.mirror_worker i hn).symm.trans h
    cases hsame
    exact args.answered_worker i hn
  · have hready : w ≠ .dropped ∧ (Task.connect args w pc).Paired := by
      cases pc with
      | starting => exact absurd rfl hpc
      | _ => exact ht
    have hdone : ∃ r, w = .done r := by
      cases pc with
      | starting => exact absurd rfl hpc
      | wait a | abandon a q => exact ⟨_, hready.2⟩
      | closePeer x q => exact hready.2.2.resolve_left hready.1
      | left x => exact hready.2.resolve_left hready.1
      | _ =>
        obtain ⟨a, rfl⟩ := hready.2
        exact ⟨_, rfl⟩
    obtain ⟨p, hp⟩ : ∃ p, pc.mirror args w = .connect args p := by
      cases pc <;> simp_all [ConnectTask.mirror]
    rw [hp] at h
    rcases x with start | ch
    · cases h
    obtain ⟨⟨s₁, p'⟩, hstep, hcall⟩ := Option.map_eq_some_iff.mp h
    cases hcall
    exact (connectStep_connectEffect hstep).answered hdone hready.2 hp hpc

theorem PingArgs.answered (args : PingArgs) {i : CallId} {s s' : State} {w : PingWorker}
    {pc : PingTask} {x : CallStart ⊕ Choice} {call : Call}
    (h : callStep text i x s (pc.mirror args w) = some (s', call))
    (ht : (Task.ping args w pc).Ready) : Answered text i s (.ping args w pc) s' call := by
  have hone : ∀ (pc' : PingTask) {s' : State} {call : Call} (x : TaskChoice),
      (Task.ping args w pc).Orderly i s (.inr x) →
      pingTaskStep text i args s w pc x = some (s', w, pc') → pc'.mirror args w = call →
      (Task.ping args w pc').Ready → Answered text i s (.ping args w pc) s' call := by
    intro pc' s' call x hok hstep hcall hready
    exact .one (.inr x) (.ping args w pc') hok (by simp [taskStep, hstep]) hcall hready
  cases pc with
  | starting =>
    obtain ⟨q, rfl⟩ := ht
    rcases x with start | ch
    · cases h
    obtain ⟨⟨s₁, p⟩, hstep, hcall⟩ := Option.map_eq_some_iff.mp h
    obtain ⟨⟨s₂, n⟩, hn, -⟩ := Option.map_eq_some_iff.mp hstep
    have hsame := (args.mirror_worker i hn).symm.trans h
    cases hsame
    exact args.answered_worker i hn
  | wait a =>
    obtain ⟨hdrop, b, rfl⟩ := ht
    rcases x with start | ch
    · cases h
    cases ch <;> simp [PingTask.mirror, callStep, pingStep] at h
    · obtain ⟨hevent, rfl, rfl⟩ := h
      exact hone .finish .go (by simp [Task.looks, Task.Orderly])
        (by simp [pingTaskStep, hevent]) rfl ⟨hdrop, b, rfl⟩
    · obtain ⟨rfl, rfl⟩ := h
      exact hone (.popCancelled a) .cancel rfl rfl rfl ⟨hdrop, b, rfl⟩
  | popCancelled a =>
    obtain ⟨hdrop, b, rfl⟩ := ht
    rcases x with start | ch
    · cases h
    cases ch <;> simp [PingTask.mirror, callStep, pingStep] at h
    obtain ⟨rfl, rfl⟩ := h
    exact hone (.left .cancelled) .go (by simp [Task.looks, Task.Orderly]) rfl
      (by simp [PingTask.mirror, PingArgs.mirrorExit, PingArgs.timedOut])
      (by simp [Task.Ready, Task.Paired])
  | finish =>
    obtain ⟨hdrop, b, rfl⟩ := ht
    rcases x with start | ch
    · cases h
    cases ch <;> simp [PingTask.mirror, callStep, pingStep] at h
    obtain ⟨rfl, rfl⟩ := h
    cases hpong : (s.peer.pendingPing i).pong with
    | none =>
      exact hone (.left (.error peerIsClosed)) .go (by simp [Task.looks, Task.Orderly])
        (by simp [pingTaskStep, hpong])
        (by simp [PingTask.mirror, PingArgs.mirrorExit, finishPing, hpong])
        (by simp [Task.Ready, Task.Paired])
    | some pong =>
      exact hone (.returned pong) .go (by simp [Task.looks, Task.Orderly])
        (by simp [pingTaskStep, hpong]) (by simp [PingTask.mirror, finishPing, hpong])
        (by simp [Task.Ready, Task.Paired])
  | returned pong =>
    rcases x with start | ch
    · cases h
    · cases ch <;> cases h
  | left x' =>
    have hdrop : w ≠ .dropped := ht.1
    rcases x with start | ch <;> simp [PingTask.mirror, hdrop, callStep] at h
    cases ch <;> simp [pingStep] at h

/-- Every step of a sync call is answered by the task that stands there. -/
theorem Task.answered {i : CallId} {s s' : State} {t : Task} {x : CallStart ⊕ Choice} {call : Call}
    (h : callStep text i x s t.mirror = some (s', call)) (ht : t.Ready) :
    Answered text i s t s' call := by
  cases t with
  | idle =>
    rcases x with start | ch
    · exact answered_start i s start h
    · cases h
  | connect args w pc => exact args.answered h ht
  | ping args w pc => exact args.answered h ht
  | accept pc =>
    rcases x with start | ch
    · cases h
    obtain ⟨⟨s₁, pc'⟩, hstep, hcall⟩ := Option.map_eq_some_iff.mp h
    cases hcall
    cases ch with
    | go =>
      exact .one (.inr .go) (.accept pc') (by simp [Task.looks, Task.Orderly])
        (by simp [taskStep, hstep]) rfl trivial
    | timeout =>
      cases pc <;> simp [acceptStep] at hstep
      obtain ⟨rfl, rfl⟩ := hstep
      exact .one (.inr .cancel) .cancelled rfl rfl rfl trivial
    | _ => cases pc <;> simp [acceptStep] at hstep
  | close c notify pc =>
    rcases x with start | (_ | _ | _ | _ | _) <;>
      simp only [Task.mirror, callStep, reduceCtorEq] at h
    obtain ⟨⟨s₁, n⟩, hstep, hcall⟩ := Option.map_eq_some_iff.mp h
    rcases n with pc' | _ <;> cases hcall
    · exact .one (.inr .go) (.close c notify pc') (by simp [Task.looks, Task.Orderly])
        (by simp [taskStep, hstep]) rfl trivial
    · exact .one (.inr .go) (.closed c) (by simp [Task.looks, Task.Orderly])
        (by simp [taskStep, hstep]) rfl trivial
  | closePeer pc =>
    rcases x with start | (_ | _ | _ | _ | _) <;>
      simp only [Task.mirror, callStep, reduceCtorEq] at h
    obtain ⟨⟨s₁, n⟩, hstep, hcall⟩ := Option.map_eq_some_iff.mp h
    rcases n with pc' | _ <;> cases hcall
    · exact .one (.inr .go) (.closePeer pc') (by simp [Task.looks, Task.Orderly])
        (by simp [taskStep, hstep]) rfl trivial
    · exact .one (.inr .go) .closedPeer (by simp [Task.looks, Task.Orderly])
        (by simp [taskStep, hstep]) rfl trivial
  | cancelled =>
    rcases x with start | ch
    · cases h
    · cases ch <;> simp [Task.mirror, callStep, acceptStep] at h
  | closed c | closedPeer => rcases x with start | (_ | _ | _ | _ | _) <;> cases h

/-- **Every run of the sync Peer is the mirror of an orderly run of the asyncio Peer.** -/
theorem mirrored_back {q : Option Nat} {t₀ : Int} {c : Sync}
    (h : Reach (sync text) anyStep (Sync.init q t₀) c) :
    ∃ d : Aio, Reach (aio text) Aio.Orderly (Aio.init q t₀) d ∧ d.mirror = c := by
  obtain ⟨d, hd, hs, ht⟩ :=
    h.matchThreads (N := aio text) (fun call t => t.mirror = call ∧ t.Ready) Aio.Orderly
      (fun i s t x => t.Orderly i s x) (Aio.init q t₀) rfl (fun _ => ⟨rfl, trivial⟩)
        (fun _ _ => rfl)
      (fun _ _ => trivial) (fun _ _ _ hx => hx)
      (fun i x s t s' t' u hstep hu => Task.answered (hu.1 ▸ hstep) hu.2)
  refine ⟨d, hd, ?_⟩
  ext i
  · exact hs.symm
  · exact (ht i).1

/-- A connect that times out is mirrored by one that is cancelled. -/
theorem mirrored_back_timed_out :
    ∃ d : Aio, Reach (aio SystemAddress.text) Aio.Orderly (Aio.init none 0) d ∧
      d.mirror.thread 0 = .connect ⟨"host", 1, 12, false⟩
        (.raised (.timeout "connect to host:1 timed out")) := by
  have hrun : Reach (sync SystemAddress.text) anyStep (Sync.init none 0) _ :=
    .of_exec (show (sync SystemAddress.text).exec anyStep
      (connects 0 ⟨"host", 1, 12, false⟩ "ip" .connectionAttemptStarted ++
        .thread 0 (.inr .timeout) :: steps 0 2) (Sync.init none 0) = some _ from rfl)
  obtain ⟨d, hd, heq⟩ := mirrored_back hrun
  exact ⟨d, hd, by rw [heq]; rfl⟩

end Raknet
