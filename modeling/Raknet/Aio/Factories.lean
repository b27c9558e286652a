import Raknet.Aio.Effects
import Raknet.Effects.Shared
import Raknet.Lib.Trace

/-!
# The one-shot factories of the asyncio API

`create_connection` and `ping` build a private Peer in a worker thread, make one call on it, and
close it after an exception; `ping` closes it in any case. The task can be cancelled once, at any of
its await points. Nobody else knows the Peer.

`Factory` is the state of such a call with its three kinds of workers: the one that builds, the one
of the call on the Peer, and the two of `Peer.close`. A worker that no thread has taken up yet is
dropped when its await is cancelled; any other goes on.

**Theorem (`factories_leak`).** When an exception has left the call and its workers have finished,
the Peer is closed and its pump has left the loop, in all states of a run, exactly if all its steps
are `Careful`: the task is not cancelled while a thread builds a Peer that does start, nor in
`close` before a thread waits for the pump.
-/

namespace Raknet

open Interleaving

/-! ## The state of a call -/

/-- `raw.StartupResult`. -/
inductive StartupResult
  | raknetStarted
  | raknetAlreadyStarted
  | invalidSocketDescriptors
  | invalidMaxConnections
  | socketFamilyNotSupported
  | socketPortAlreadyInUse
  | socketFailedToBind
  | socketFailedTestSend
  | portCannotBeZero
  | failedToCreateNetworkThread
  | couldNotGenerateGuid
  | startupOtherFailure
deriving DecidableEq, Repr

/-- The program counter of `Peer.__init__`. -/
inductive BuildPc
  /-- in `self._raw.startup(..)` -/
  | startup
  /-- at `self._pump.start()` -/
  | startPump
deriving DecidableEq, Repr

/-- What a factory calls on its Peer. -/
inductive FactoryCall
  | connection (args : ConnectArgs)
  | ping (args : PingArgs)
deriving DecidableEq, Repr

/-- `peer.connect(..)` or `peer.ping(..)`. -/
def FactoryCall.task : FactoryCall → Task
  | connection args => .connect { args with oneShot := false } .queued .starting
  | ping args => .ping args .queued .starting

/-- How an exception leaves a factory. -/
inductive FactoryExit
  /-- `StartupError(result)` -/
  | startup (result : StartupResult)
  | exit (x : Exit)
deriving DecidableEq, Repr

/-- What follows `peer.close(0)`. -/
inductive Ending
  | raise (x : Exit)
  | give (pong : Pong)
deriving DecidableEq, Repr

/-- The program counter of a factory. -/
inductive FactoryPc
  /-- in `await asyncio.to_thread(build)` -/
  | build
  /-- in `await peer.connect(..)` or `await peer.ping(..)` -/
  | call
  /-- at `self._begin_close()` of `peer.close(0)` -/
  | close (o : Ending)
  /-- in `await asyncio.to_thread(self._pump.join)` -/
  | join (o : Ending)
  /-- in `await asyncio.to_thread(self._raw.shutdown, ..)` -/
  | shutdown (o : Ending)
  /-- in `self._finish_close(*state)` -/
  | finish (o : Ending)
  /-- at `connection._owns_peer = True` -/
  | own (c : ConnId)
  | returnedConnection (c : ConnId)
  | returnedPong (pong : Pong)
  | left (x : FactoryExit)
deriving DecidableEq, Repr

/-- After `peer.close(0)`. -/
def Ending.after : Ending → FactoryPc
  | raise x => .left (.exit x)
  | give pong => .returnedPong pong

/-- After a step of the call on the Peer. -/
def Task.after : Task → FactoryPc
  | .connect _ _ (.left x) | .ping _ _ (.left x) => .close (.raise x)
  | .connect _ _ (.returned c) => .own c
  | .ping _ _ (.returned pong) => .close (.give pong)
  | _ => .call

/-- A factory's call, its workers, and its Peer once the pump was started. -/
structure Factory where
  pc : FactoryPc
  build : Worker BuildPc (Except StartupResult Unit)
  state : Option State
  /-- the call on the Peer -/
  task : Task
  /-- the worker that joins the pump -/
  joiner : Option (Worker Unit Unit)
  /-- the worker that shuts RakNet down -/
  shutter : Option (Worker Unit Unit)
  /-- the task was cancelled -/
  cancelled : Bool

namespace Factory

/-- A factory that was just called. -/
def init : Factory := ⟨.build, .queued, none, .idle, none, none, false⟩

/-! ## Steps -/

/-- What happens in a step. -/
inductive Act
  /-- the factory's task goes on -/
  | task
  /-- `CancelledError` is thrown into it -/
  | cancel
  /-- the worker that builds, with the answer of `raw.startup` -/
  | build (result : StartupResult)
  /-- the worker of the call on the Peer -/
  | worker (ch : Choice)
  /-- the worker that joins the pump -/
  | joiner
  /-- the worker that shuts RakNet down -/
  | shutter
  /-- the Peer's pump, or its clock -/
  | own (e : State.Act)
deriving DecidableEq, Repr

/-- One step of `build()`: `Peer.__init__` of a Peer with room for `maxQueue` payloads, at time
`clock`. -/
def buildStep (maxQueue : Option Nat) (clock : Int) (f : Factory) (result : StartupResult) :
    Option Factory :=
  match f.build with
  | .queued => some { f with build := .running .startup }
  | .running .startup =>
    some { f with build :=
      if result = .raknetStarted then .running .startPump else .done (.error result) }
  | .running .startPump =>
    some { f with build := .done (.ok ()), state := some (.init maxQueue clock) }
  | _ => none

/-- A worker's function that returns as soon as `ready`. -/
def workStep (ready : Bool) : Worker Unit Unit → Option (Worker Unit Unit)
  | .queued => some (.running ())
  | .running () => if ready then some (.done ()) else none
  | _ => none

/-- Cancelling the await of a worker. -/
def drop {π ρ : Type} : Worker π ρ → Worker π ρ
  | .queued => .dropped
  | w => w

section

variable (text : SystemAddress → String)

/-- The task's next step on its Peer. -/
def taskStep (f : Factory) (s : State) : Option Factory :=
  match f.pc with
  | .call => (Raknet.taskStep text 0 (.inr .go) s f.task).map fun (s', t) =>
    { f with state := some s', task := t, pc := t.after }
  | .close o =>
    some (if s.peer.closed then { f with pc := o.after }
      else { f with state := some (s.beginClose .joining), joiner := some .queued, pc := .join o })
  | .join o =>
    if f.joiner = some (.done ()) then s.closerStep.map fun s' =>
      { f with state := some s', shutter := some .queued, pc := .shutdown o }
    else none
  | .shutdown o =>
    if f.shutter = some (.done ()) then s.closerStep.map fun s' =>
      { f with state := some s', pc := .finish o }
    else none
  | .finish o =>
    if s.teardown = .done then some { f with pc := o.after }
    else s.closerStep.map fun s' => { f with state := some s' }
  | .own c => some { f with state := some (s.set (s.peer.own c)), pc := .returnedConnection c }
  | _ => none

/-- `CancelledError` reaches the task in an await on its Peer. -/
def cancelStep (f : Factory) (s : State) : Option Factory :=
  match f.pc with
  | .call => (Raknet.taskStep text 0 (.inr .cancel) s f.task).map fun (s', t) =>
    { f with state := some s', task := t, pc := t.after, cancelled := true }
  | .join _ => s.cancelClose.map fun s' =>
    { f with state := some s', joiner := f.joiner.map drop, pc := .left (.exit .cancelled),
             cancelled := true }
  | .shutdown _ => s.cancelClose.map fun s' =>
    { f with state := some s', shutter := f.shutter.map drop, pc := .left (.exit .cancelled),
             cancelled := true }
  | _ => none

/-- A step of the Peer's pump or clock. The pump runs the closer after it failed; else the task
does. -/
def peerStep (s : State) : State.Act → Option State
  | .recv _ => none
  | .closer => if s.pump = .failing then s.closerStep else none
  | e => State.act text e s

/-- One step of a factory and what belongs to it. -/
def act (call : FactoryCall) (maxQueue : Option Nat) (clock : Int) (a : Act) (f : Factory) :
    Option Factory :=
  match a, f.pc with
  | .task, .build =>
    match f.build with
    | .done (.ok ()) => some { f with task := call.task, pc := .call }
    | .done (.error result) => some { f with pc := .left (.startup result) }
    | _ => none
  | .task, _ => f.state.bind (f.taskStep text)
  | .cancel, .build =>
    if f.cancelled then none
    else some { f with build := drop f.build, pc := .left (.exit .cancelled), cancelled := true }
  | .cancel, _ => if f.cancelled then none else f.state.bind (f.cancelStep text)
  | .build result, _ => f.buildStep maxQueue clock result
  | .worker ch, _ => f.state.bind fun s =>
    (Raknet.taskStep text 0 (.inr (.worker ch)) s f.task).map fun (s', t) =>
      { f with state := some s', task := t }
  | .joiner, _ => f.state.bind fun s => f.joiner.bind fun w =>
    (workStep (s.pump = .exited) w).map fun w' => { f with joiner := some w' }
  | .shutter, _ => f.shutter.bind fun w =>
    (workStep true w).map fun w' => { f with shutter := some w' }
  | .own e, _ => f.state.bind fun s =>
    (peerStep text s e).map fun s' => { f with state := some s' }

end

end Factory

/-- A factory's run: nothing happens but the steps of the factory. -/
abbrev FactoryRun := Config Factory Unit

/-- A call of `create_connection` or `ping`. -/
def factory (text : SystemAddress → String) (call : FactoryCall) (maxQueue : Option Nat)
    (clock : Int) : System Factory Unit Factory.Act Empty where
  shared := Factory.act text call maxQueue clock
  thread _ a _ _ := a.elim

/-- A factory that was just called. -/
def FactoryRun.init : FactoryRun := ⟨.init, fun _ => ()⟩

/-! ## Leaks -/

/-- The pump has left its loop. -/
def PumpPc.out : PumpPc → Bool
  | .fail _ | .failing | .exited => true
  | _ => false

namespace Factory

/-- An exception has left the call, and the workers it started have finished. -/
def Over (f : Factory) : Prop :=
  (∃ x, f.pc = .left x) ∧ f.build.over = true ∧ f.task.workerOver = true ∧
    (∀ w, f.joiner = some w → w.over = true) ∧ ∀ w, f.shutter = some w → w.over = true

/-- The Peer is marked closed and its pump has left the loop. -/
def Shut (s : State) : Prop := s.peer.closed = true ∧ s.pump.out = true

/-- No Peer is leaked. -/
def Clean (f : Factory) : Prop := f.Over → ∀ s, f.state = some s → Shut s

/-- The step starts no pump for a call that is gone, cancels no call that has yet to take over its
Peer, and cancels no wait for the pump that no thread has taken up; unless the pump is out. -/
def Careful (f : Factory) : Action Act Empty → Prop
  | .shared (.build _) => ∀ x, f.pc = .left x → f.build ≠ .running .startPump
  | .shared .cancel =>
    (f.pc = .build → ∀ s, f.state = some s → Shut s) ∧
      ∀ o, f.pc = .join o → f.joiner = some .queued → ∀ s, f.state = some s → s.pump.out = true
  | _ => True

end Factory

/-! ## What the steps keep -/

section

variable {text : SystemAddress → String} {s s' : State} {i : CallId}

theorem CloseEffect.unmoved {c : ConnId} {notify : Bool} {pc : ClosePc} {pc' : Option ClosePc}
    (h : CloseEffect c notify s pc s' pc') (hpc : ∀ q, pc ≠ .peer q)
    (hown : (s.peer.connection c).ownsPeer = false) :
    Unmoved s s' ∧ ∀ q, pc' ≠ some (.peer q) := by
  cases h with
  | mark =>
    refine ⟨⟨rfl, rfl, rfl, fun k => ?_⟩, by simp⟩
    by_cases hk : k = c
    · subst hk
      simp
    · simp [hk]
  | mailbox =>
    refine ⟨⟨rfl, rfl, rfl, fun k => ?_⟩, by simp⟩
    by_cases hk : k = c
    · subst hk
      simp
    · simp [hk]
  | owns h => simp [hown] at h
  | lost _ | begin _ | closed _ => exact absurd rfl (hpc _)
  | _ => exact ⟨⟨rfl, rfl, rfl, fun _ => rfl⟩, by simp⟩

/-- The task of a factory's call on its Peer, which closes no Peer itself. -/
def Task.plain : Task → Bool
  | .idle | .ping _ _ _ => true
  | .connect args _ pc => !args.oneShot && match pc with
    | .closePeer _ _ | .own _ | .reap _ (.peer _) => false
    | _ => true
  | _ => false

/-- Who is past its first await has left no worker behind. -/
def Task.settled : Task → Bool
  | .connect _ _ .starting | .ping _ _ .starting => true
  | t => t.workerOver

theorem Task.settled_of_workerOver {t : Task} (h : t.workerOver = true) : t.settled = true := by
  unfold Task.settled
  split <;> [rfl; rfl; exact h]

theorem worker_unmoved {t t' : Task} {ch : Choice}
    (h : taskStep text i (.inr (.worker ch)) s t = some (s', t')) (ht : t.plain = true) :
    Unmoved s s' ∧ t'.plain = true ∧ (t' = .idle ↔ t = .idle) ∧
      (t.settled = true → t'.settled = true) ∧ t.workerOver = false := by
  cases taskStep_move h with
  | connect args w w' pc pc' s' ch heff =>
    cases heff with
    | take => exact ⟨.refl, ht, by simp, fun _ => rfl, rfl⟩
    | work q ch s' n pc hstep =>
      refine ⟨startStep_unmoved hstep, ht, by simp, fun hs => ?_, rfl⟩
      cases pc with
      | starting => rfl
      | _ => cases hs
  | ping args w w' pc pc' s' ch heff =>
    cases heff with
    | take => exact ⟨.refl, ht, by simp, fun _ => rfl, rfl⟩
    | work q ch s' n pc hstep =>
      refine ⟨startPingStep_unmoved hstep, ht, by simp, fun hs => ?_, rfl⟩
      cases pc with
      | starting => rfl
      | _ => cases hs

theorem ConnectArgs.exit_eq_left {args : ConnectArgs} (h : args.oneShot = false) (x : Exit) :
    args.exit x = .left x := by
  simp [ConnectArgs.exit, h]

theorem ConnectArgs.hand_eq_returned {args : ConnectArgs} (h : args.oneShot = false) (c : ConnId) :
    args.hand c = .returned c := by
  simp [ConnectArgs.hand, h]

theorem task_unmoved {t t' : Task} {ch : TaskChoice}
    (h : taskStep text i (.inr ch) s t = some (s', t')) (hch : ∀ x, ch ≠ .worker x)
    (ht : t.plain = true) (hown : ∀ c, (s.peer.connection c).ownsPeer = false) :
    Unmoved s s' ∧ t'.plain = true ∧ (ch = .go → t.settled = true → t'.workerOver = true) := by
  cases taskStep_move h with
  | connect args w w' pc pc' s' ch heff =>
    obtain ⟨hargs, hpc⟩ : args.oneShot = false ∧ _ := by simpa [Task.plain] using ht
    have hexit : ∀ w x, (Task.connect args w (args.exit x)).plain = true := fun w x => by
      simp [Task.plain, ConnectArgs.exit_eq_left hargs, hargs]
    cases heff with
    | take | work q ch s' n pc hstep => exact absurd rfl (hch _)
    | started a => exact ⟨.refl, by simp [Task.plain, hargs], fun _ _ => rfl⟩
    | raised e => exact ⟨.refl, hexit _ _, fun _ _ => rfl⟩
    | drop | cancelStart w hw => exact ⟨.refl, hexit _ _, by simp⟩
    | woken w a hevent => exact ⟨.refl, by simp [Task.plain, hargs], fun _ => id⟩
    | cancelWait w a => exact ⟨.refl, by simp [Task.plain, hargs], by simp⟩
    | late w a hget => exact ⟨.refl, by simp [Task.plain, hargs], fun _ => id⟩
    | abandon w a j hget =>
      exact ⟨⟨rfl, rfl, rfl, fun _ => rfl⟩, by simp [Task.plain, hargs], fun _ => id⟩
    | cancel w a => exact ⟨⟨rfl, rfl, rfl, fun _ => rfl⟩, hexit _ _, fun _ => id⟩
    | nothing w hnone => exact ⟨.refl, hexit _ _, fun _ => id⟩
    | orphan w c hconn => exact ⟨.refl, by simp [Task.plain, hargs], fun _ => id⟩
    | reap w c pc pc' s' hclose =>
      obtain ⟨hmoved, hpc'⟩ := hclose.unmoved (by rintro q rfl; simp at hpc) (hown c)
      refine ⟨hmoved, ?_, fun _ => id⟩
      cases pc' <;> simp_all [Task.plain]
    | reaped w c pc s' hclose =>
      obtain ⟨hmoved, -⟩ := hclose.unmoved (by rintro q rfl; simp at hpc) (hown c)
      exact ⟨hmoved, hexit _ _, fun _ => id⟩
    | cancelReap w c s' hclose => simp at hpc
    | finish w c hres =>
      rw [ConnectArgs.hand_eq_returned hargs]
      exact ⟨.refl, by simp [Task.plain, hargs], fun _ => id⟩
    | failed w e hres => exact ⟨.refl, hexit _ _, fun _ => id⟩
    | closeLost w x hclosed | closeBegin w x hopen | closeDone w x hdone => simp at hpc
    | cancelClosePeer w x s' hclose | own w c => simp at hpc
  | ping args w w' pc pc' s' ch heff =>
    cases heff with
    | take | work q ch s' n pc hstep => exact absurd rfl (hch _)
    | started a | raised e => exact ⟨.refl, rfl, fun _ _ => rfl⟩
    | drop | cancelStart w hw | cancelWait w a => exact ⟨.refl, rfl, by simp⟩
    | woken w a hevent | failed w hnone | finish w pong hpong => exact ⟨.refl, rfl, fun _ => id⟩
    | popCancelled w a => exact ⟨⟨rfl, rfl, rfl, fun _ => rfl⟩, rfl, fun _ => id⟩
  | _ => simp [Task.plain] at ht

/-- A Peer that is closed stays closed, a pump that is out stays out, and nobody but the pump closes
the Peer. -/
structure Onward (s s' : State) : Prop where
  closed : s.peer.closed = true → s'.peer.closed = true
  out : s.pump.out = true → s'.pump.out = true
  shut : s'.peer.closed = true → s.peer.closed = true ∨ s'.pump.out = true
  ownsPeer : ∀ c, (s.peer.connection c).ownsPeer = false → (s'.peer.connection c).ownsPeer = false

theorem Unmoved.onward (h : Unmoved s s') : Onward s s' where
  closed hclosed := h.closed.trans hclosed
  out hout := by rw [h.pump, hout]
  shut hclosed := Or.inl (h.closed.symm.trans hclosed)
  ownsPeer c hc := (h.ownsPeer c).trans hc

theorem ActEffect.out {e : State.Act} (h : ActEffect text s e s') (hout : s.pump.out = true) :
    s'.pump.out = true := by
  cases h with
  | drop h =>
    cases hp : s.pump with
    | fail detail | failing | exited => simp [hp, PumpPc.DropsIn] at h
    | _ => simp [hp, PumpPc.out] at hout
  | _ => first
    | exact hout
    | rfl
    | simp_all [PumpPc.out]

theorem ActEffect.onward {e : State.Act} (h : ActEffect text s e s') : Onward s s' where
  closed hclosed := by
    cases h <;> first
      | exact hclosed
      | rfl
  out := h.out
  shut hclosed := by
    cases h with
    | fail detail h hopen => exact Or.inr rfl
    | _ => exact Or.inl hclosed
  ownsPeer k hk := by
    by_contra hown
    have := h.ownsPeer k (by simpa using hown)
    simp [hk] at this

end

namespace Factory

/-! ## The transitions of a factory -/

/-- What a step of a factory may do. -/
inductive Move (text : SystemAddress → String) (call : FactoryCall) (maxQueue : Option Nat)
    (clock : Int) (f : Factory) : Act → Factory → Prop
  -- the task
  | built (h : f.pc = .build) (hbuild : f.build = .done (.ok ())) :
      Move text call maxQueue clock f .task { f with task := call.task, pc := .call }
  | refused (r : StartupResult) (h : f.pc = .build) (hbuild : f.build = .done (.error r)) :
      Move text call maxQueue clock f .task { f with pc := .left (.startup r) }
  | call (s s' : State) (t : Task) (h : f.pc = .call) (hs : f.state = some s)
      (hstep : Raknet.taskStep text 0 (.inr .go) s f.task = some (s', t)) :
      Move text call maxQueue clock f .task { f with state := some s', task := t, pc := t.after }
  | closeLost (s : State) (o : Ending) (h : f.pc = .close o) (hs : f.state = some s)
      (hclosed : s.peer.closed = true) :
      Move text call maxQueue clock f .task { f with pc := o.after }
  | closeBegin (s : State) (o : Ending) (h : f.pc = .close o) (hs : f.state = some s)
      (hopen : s.peer.closed = false) :
      Move text call maxQueue clock f .task
        { f with state := some (s.beginClose .joining), joiner := some .queued, pc := .join o }
  | join (s s' : State) (o : Ending) (h : f.pc = .join o) (hs : f.state = some s)
      (hjoiner : f.joiner = some (.done ())) (hstep : s.closerStep = some s') :
      Move text call maxQueue clock f .task
        { f with state := some s', shutter := some .queued, pc := .shutdown o }
  | shutdown (s s' : State) (o : Ending) (h : f.pc = .shutdown o) (hs : f.state = some s)
      (hstep : s.closerStep = some s') :
      Move text call maxQueue clock f .task { f with state := some s', pc := .finish o }
  | finish (s s' : State) (o : Ending) (h : f.pc = .finish o) (hs : f.state = some s)
      (hstep : s.closerStep = some s') :
      Move text call maxQueue clock f .task { f with state := some s', pc := .finish o }
  | finished (s : State) (o : Ending) (h : f.pc = .finish o) (hs : f.state = some s) :
      Move text call maxQueue clock f .task { f with pc := o.after }
  | own (s : State) (c : ConnId) (h : f.pc = .own c) (hs : f.state = some s) :
      Move text call maxQueue clock f .task
        { f with state := some (s.set (s.peer.own c)), pc := .returnedConnection c }
  -- its cancellation
  | cancelBuild (h : f.pc = .build) (hc : f.cancelled = false) :
      Move text call maxQueue clock f .cancel
        { f with build := drop f.build, pc := .left (.exit .cancelled), cancelled := true }
  | cancelCall (s s' : State) (t : Task) (h : f.pc = .call) (hc : f.cancelled = false)
      (hs : f.state = some s)
      (hstep : Raknet.taskStep text 0 (.inr .cancel) s f.task = some (s', t)) :
      Move text call maxQueue clock f .cancel
        { f with state := some s', task := t, pc := t.after, cancelled := true }
  | cancelJoin (s : State) (o : Ending) (u : Teardown) (h : f.pc = .join o)
      (hc : f.cancelled = false) (hs : f.state = some s) :
      Move text call maxQueue clock f .cancel
        { f with state := some (s.close u), joiner := f.joiner.map drop,
                 pc := .left (.exit .cancelled), cancelled := true }
  | cancelShutdown (s : State) (o : Ending) (u : Teardown) (h : f.pc = .shutdown o)
      (hc : f.cancelled = false) (hs : f.state = some s) :
      Move text call maxQueue clock f .cancel
        { f with state := some (s.close u), shutter := f.shutter.map drop,
                 pc := .left (.exit .cancelled), cancelled := true }
  -- the workers
  | build (result : StartupResult) (w : Worker BuildPc (Except StartupResult Unit))
      (h : f.build ≠ .done (.ok ()) ∧ f.build ≠ .running .startPump) (hw : w ≠ .done (.ok ())) :
      Move text call maxQueue clock f (.build result) { f with build := w }
  | startPump (result : StartupResult) (h : f.build = .running .startPump) :
      Move text call maxQueue clock f (.build result)
        { f with build := .done (.ok ()), state := some (.init maxQueue clock) }
  | worker (s s' : State) (t : Task) (ch : Choice) (hs : f.state = some s)
      (hstep : Raknet.taskStep text 0 (.inr (.worker ch)) s f.task = some (s', t)) :
      Move text call maxQueue clock f (.worker ch) { f with state := some s', task := t }
  | takeJoin (h : f.joiner = some .queued) :
      Move text call maxQueue clock f .joiner { f with joiner := some (.running ()) }
  | joined (s : State) (hs : f.state = some s) (h : f.joiner = some (.running ()))
      (hpump : s.pump = .exited) :
      Move text call maxQueue clock f .joiner { f with joiner := some (.done ()) }
  | shutter (w : Worker Unit Unit) (h : f.shutter ≠ none) :
      Move text call maxQueue clock f .shutter { f with shutter := some w }
  -- the Peer
  | peer (e : State.Act) (s s' : State) (hs : f.state = some s) (heff : ActEffect text s e s') :
      Move text call maxQueue clock f (.own e) { f with state := some s' }

variable {text : SystemAddress → String} {call : FactoryCall} {maxQueue : Option Nat} {clock : Int}
  {f f' : Factory}

theorem taskStep_move {s : State} (hs : f.state = some s) (hstep : f.taskStep text s = some f') :
    Move text call maxQueue clock f .task f' := by
  cases hpc : f.pc with
  | call =>
    simp only [taskStep, hpc] at hstep
    obtain ⟨⟨s', t⟩, hs', rfl⟩ := Option.map_eq_some_iff.mp hstep
    exact .call s s' t hpc hs hs'
  | close o =>
    simp only [taskStep, hpc] at hstep
    split_ifs at hstep with hclosed <;> cases hstep
    · exact .closeLost s o hpc hs hclosed
    · exact .closeBegin s o hpc hs (by simpa using hclosed)
  | join o =>
    simp only [taskStep, hpc] at hstep
    split_ifs at hstep with hjoiner
    obtain ⟨s', hs', rfl⟩ := Option.map_eq_some_iff.mp hstep
    exact .join s s' o hpc hs hjoiner hs'
  | shutdown o =>
    simp only [taskStep, hpc] at hstep
    split_ifs at hstep with hshutter
    obtain ⟨s', hs', rfl⟩ := Option.map_eq_some_iff.mp hstep
    exact .shutdown s s' o hpc hs hs'
  | finish o =>
    simp only [taskStep, hpc] at hstep
    split_ifs at hstep with hdone
    · cases hstep
      exact .finished s o hpc hs
    · obtain ⟨s', hs', rfl⟩ := Option.map_eq_some_iff.mp hstep
      exact .finish s s' o hpc hs hs'
  | own c =>
    simp only [taskStep, hpc] at hstep
    cases hstep
    exact .own s c hpc hs
  | build | returnedConnection c | returnedPong pong | left x => simp [taskStep, hpc] at hstep

theorem cancelStep_move {s : State} (hs : f.state = some s) (hc : f.cancelled = false)
    (hstep : f.cancelStep text s = some f') : Move text call maxQueue clock f .cancel f' := by
  cases hpc : f.pc with
  | call =>
    simp only [cancelStep, hpc] at hstep
    obtain ⟨⟨s', t⟩, hs', rfl⟩ := Option.map_eq_some_iff.mp hstep
    exact .cancelCall s s' t hpc hc hs hs'
  | join o =>
    simp only [cancelStep, hpc] at hstep
    obtain ⟨s', hs', rfl⟩ := Option.map_eq_some_iff.mp hstep
    obtain ⟨snap, -, rfl⟩ := cancelClose_eq_some hs'
    exact .cancelJoin s o _ hpc hc hs
  | shutdown o =>
    simp only [cancelStep, hpc] at hstep
    obtain ⟨s', hs', rfl⟩ := Option.map_eq_some_iff.mp hstep
    obtain ⟨snap, -, rfl⟩ := cancelClose_eq_some hs'
    exact .cancelShutdown s o _ hpc hc hs
  | _ => simp [cancelStep, hpc] at hstep

theorem buildStep_move {result : StartupResult}
    (hstep : f.buildStep maxQueue clock result = some f') :
    Move text call maxQueue clock f (.build result) f' := by
  unfold buildStep at hstep
  split at hstep <;> cases hstep
  · next hbuild => exact .build result _ (by simp [hbuild]) (by simp)
  · next hbuild =>
    refine .build result _ (by simp [hbuild]) ?_
    split_ifs <;> simp
  · next hbuild => exact .startPump result hbuild

theorem peerStep_effect {s s' : State} {e : State.Act} (hstep : peerStep text s e = some s') :
    ActEffect text s e s' := by
  cases e with
  | recv c => cases hstep
  | closer =>
    simp only [peerStep] at hstep
    split_ifs at hstep
    exact closerStep_effect hstep
  | _ => exact act_effect hstep

theorem act_move {a : Act} (hstep : act text call maxQueue clock a f = some f') :
    Move text call maxQueue clock f a f' := by
  cases a with
  | task =>
    by_cases hpc : f.pc = .build
    · simp only [act, hpc] at hstep
      split at hstep <;> cases hstep
      · next hbuild => exact .built hpc hbuild
      · next r hbuild => exact .refused r hpc hbuild
    · obtain ⟨s, hs, hstep⟩ : ∃ s, f.state = some s ∧ f.taskStep text s = some f' := by
        simpa [act, hpc, Option.bind_eq_some_iff] using hstep
      exact taskStep_move hs hstep
  | cancel =>
    by_cases hpc : f.pc = .build
    · simp only [act, hpc] at hstep
      split_ifs at hstep with hc
      cases hstep
      exact .cancelBuild hpc (by simpa using hc)
    · have hc : f.cancelled = false := by
        by_contra hc
        simp [act, hc] at hstep
      obtain ⟨s, hs, hstep⟩ : ∃ s, f.state = some s ∧ f.cancelStep text s = some f' := by
        simpa [act, hpc, hc, Option.bind_eq_some_iff] using hstep
      exact cancelStep_move hs hc hstep
  | build result => exact buildStep_move hstep
  | worker ch =>
    obtain ⟨s, hs, hstep⟩ := Option.bind_eq_some_iff.mp hstep
    obtain ⟨⟨s', t⟩, hs', rfl⟩ := Option.map_eq_some_iff.mp hstep
    exact .worker s s' t ch hs hs'
  | joiner =>
    obtain ⟨s, hs, hstep⟩ := Option.bind_eq_some_iff.mp hstep
    obtain ⟨w, hw, hstep⟩ := Option.bind_eq_some_iff.mp hstep
    obtain ⟨w', hw', rfl⟩ := Option.map_eq_some_iff.mp hstep
    cases w with
    | queued =>
      cases hw'
      exact .takeJoin hw
    | running =>
      simp only [workStep] at hw'
      split_ifs at hw' with hpump
      cases hw'
      exact .joined s hs hw (by simpa using hpump)
    | done | dropped => cases hw'
  | shutter =>
    obtain ⟨w, hw, hstep⟩ := Option.bind_eq_some_iff.mp hstep
    obtain ⟨w', hw', rfl⟩ := Option.map_eq_some_iff.mp hstep
    exact .shutter w' (by simp [hw])
  | own e =>
    obtain ⟨s, hs, hstep⟩ := Option.bind_eq_some_iff.mp hstep
    obtain ⟨s', hs', rfl⟩ := Option.map_eq_some_iff.mp hstep
    exact .peer e s s' hs (peerStep_effect hs')

/-! ## What holds in any run -/

/-- The factory has not come to the shutdown of RakNet. -/
def Unshut (f : Factory) : Prop :=
  match f.pc with
  | .build | .call | .close _ | .join _ => True
  | _ => False

/-- The Peer was handed out. -/
def Handed (f : Factory) : Prop := ∃ c, f.pc = .returnedConnection c

/-- What holds whoever is cancelled when. -/
structure Base (f : Factory) : Prop where
  built : f.build = .done (.ok ()) ↔ f.state ≠ none
  unbuilt : f.pc = .build ∨ f.state = none → f.task = .idle ∧ f.joiner = none ∧ f.shutter = none
  plain : f.task.plain = true
  owned : ¬ f.Handed → ∀ s, f.state = some s → ∀ c, (s.peer.connection c).ownsPeer = false
  settled : f.cancelled = false → f.task.settled = true
  called : f.cancelled = false → f.pc ≠ .call → f.task.workerOver = true
  shutter : f.Unshut → f.shutter = none

theorem Base.init : Factory.init.Base where
  built := by simp [Factory.init]
  unbuilt _ := ⟨rfl, rfl, rfl⟩
  plain := rfl
  owned _ s hs := by cases hs
  settled _ := rfl
  called _ _ := rfl
  shutter _ := rfl

theorem after_cases (t : Task) :
    t.after = .call ∨ (∃ o, t.after = .close o) ∨ ∃ c, t.after = .own c := by
  unfold Task.after
  split
  · exact Or.inr (Or.inl ⟨_, rfl⟩)
  · exact Or.inr (Or.inl ⟨_, rfl⟩)
  · exact Or.inr (Or.inr ⟨_, rfl⟩)
  · exact Or.inr (Or.inl ⟨_, rfl⟩)
  · exact Or.inl rfl

theorem drop_eq_done {π ρ : Type} {w : Worker π ρ} {r : ρ} : drop w = .done r ↔ w = .done r := by
  cases w <;> simp [drop]

theorem Base.close {pc' : FactoryPc} {u : Option State} {j w : Option (Worker Unit Unit)} {b : Bool}
    (h : f.Base) (hbuilt : u ≠ none) (hs : f.state ≠ none) (hcalled : f.pc ≠ .call)
    (hpc : pc' ≠ .build) (hb : b = false → f.cancelled = false)
    (hown : ∀ s, u = some s → ∀ c, (s.peer.connection c).ownsPeer = false)
    (hw : w = none ∨ ¬ { f with pc := pc' }.Unshut) :
    { f with state := u, joiner := j, shutter := w, pc := pc', cancelled := b }.Base where
  built := by simpa [hs, hbuilt] using h.built
  unbuilt hor := absurd hor (by simp [hpc, hbuilt])
  plain := h.plain
  owned _ := hown
  settled hc := h.settled (hb hc)
  called hc _ := h.called (hb hc) hcalled
  shutter hu := hw.resolve_right fun hw => hw hu

theorem Base.work {s s' : State} {t : Task} (h : f.Base) (hs : f.state = some s)
    (hon : ∀ c, (s.peer.connection c).ownsPeer = false → (s'.peer.connection c).ownsPeer = false)
    (hidle : t = .idle ↔ f.task = .idle) (hplain : t.plain = true)
    (hsettled : f.task.settled = true → t.settled = true)
    (hover : f.task.workerOver = true → t.workerOver = true) :
    { f with state := some s', task := t }.Base where
  built := by simpa [hs] using h.built
  unbuilt hor := by
    have := h.unbuilt (hor.imp_right fun hs' => by cases hs')
    exact ⟨hidle.mpr this.1, this.2⟩
  plain := hplain
  owned hh u hu c := by
    cases hu
    exact hon c (h.owned hh s hs c)
  settled hc := hsettled (h.settled hc)
  called hc hpc := hover (h.called hc hpc)
  shutter := h.shutter

theorem Base.calling {s s' : State} {t : Task} {b : Bool} (h : f.Base) (hs : f.state = some s)
    (hpc : f.pc = .call) (hmoved : Unmoved s s') (hplain : t.plain = true)
    (hb : b = false → f.cancelled = false ∧ (f.task.settled = true → t.workerOver = true)) :
    { f with state := some s', task := t, pc := t.after, cancelled := b }.Base where
  built := by simpa [hs] using h.built
  unbuilt hor := by
    have := after_cases t
    simp_all
  plain := hplain
  owned _ u hu c := by
    cases hu
    exact (hmoved.ownsPeer c).trans (h.owned (by simp [Handed, hpc]) s hs c)
  settled hc := Task.settled_of_workerOver ((hb hc).2 (h.settled (hb hc).1))
  called hc _ := (hb hc).2 (h.settled (hb hc).1)
  shutter _ := h.shutter (by simp [Unshut, hpc])

theorem Base.state_eq_none (h : f.Base) (hbuild : f.build = .running .startPump) :
    f.state = none := by
  by_contra hne
  have hok := h.built.mpr hne
  simp [hbuild] at hok

theorem Base.not_owner {s : State} (h : f.Base) (hs : f.state = some s)
    (hpc : ∀ c, f.pc ≠ .returnedConnection c) (c : ConnId) :
    (s.peer.connection c).ownsPeer = false :=
  h.owned (fun ⟨k, hk⟩ => hpc k hk) s hs c

theorem Base.not_owner_closer {s s' : State} (h : f.Base) (hs : f.state = some s)
    (hpc : ∀ c, f.pc ≠ .returnedConnection c) (hstep : s.closerStep = some s') (u : State)
    (hu : some s' = some u) (c : ConnId) : (u.peer.connection c).ownsPeer = false := by
  cases hu
  have heff : ActEffect SystemAddress.text s .closer s' := closerStep_effect hstep
  exact heff.onward.ownsPeer c (h.not_owner hs hpc c)

theorem Base.task (h : f.Base) (hmove : Move text call maxQueue clock f .task f') : f'.Base := by
  cases hmove with
  | built hpc hbuild =>
    refine ⟨h.built, ?_, ?_, fun _ => h.owned (by simp [Handed, hpc]), ?_, ?_,
      fun _ => (h.unbuilt (Or.inl hpc)).2.2⟩
    · rintro (hc | hnone)
      · cases hc
      · exact absurd hnone (h.built.mp hbuild)
    · cases call <;> rfl
    · cases call <;> exact fun _ => rfl
    · exact fun _ hc => absurd rfl hc
  | refused r hpc hbuild =>
    exact { h with
      unbuilt := fun _ => h.unbuilt (Or.inl hpc)
      owned := fun _ => h.owned (by simp [Handed, hpc])
      called := fun hc _ => h.called hc (by simp [hpc])
      shutter := fun _ => (h.unbuilt (Or.inl hpc)).2.2 }
  | call s s' t hpc hs hstep =>
    obtain ⟨hmoved, hplain, hover⟩ :=
      task_unmoved hstep (by simp) h.plain (h.not_owner hs (by simp [hpc]))
    exact h.calling hs hpc hmoved hplain fun hc => ⟨hc, hover rfl⟩
  | closeLost s o hpc hs hclosed =>
    refine h.close (by simp [hs]) (by simp [hs]) (by simp [hpc]) ?_ id
      (fun u hu => h.not_owner hu (by simp [hpc])) (Or.inl (h.shutter (by simp [Unshut, hpc])))
    cases o <;> simp [Ending.after]
  | closeBegin s o hpc hs hopen =>
    refine h.close (by simp) (by simp [hs]) (by simp [hpc]) (by simp) id ?_
      (Or.inl (h.shutter (by simp [Unshut, hpc])))
    rintro u ⟨⟩
    have hnot := h.not_owner hs (by simp [hpc])
    exact hnot
  | join s s' o hpc hs hjoiner hstep =>
    exact h.close (by simp) (by simp [hs]) (by simp [hpc]) (by simp) id
      (h.not_owner_closer hs (by simp [hpc]) hstep) (Or.inr id)
  | shutdown s s' o hpc hs hstep =>
    exact h.close (by simp) (by simp [hs]) (by simp [hpc]) (by simp) id
      (h.not_owner_closer hs (by simp [hpc]) hstep) (Or.inr id)
  | finish s s' o hpc hs hstep =>
    exact h.close (by simp) (by simp [hs]) (by simp [hpc]) (by simp) id
      (h.not_owner_closer hs (by simp [hpc]) hstep) (Or.inr id)
  | finished s o hpc hs =>
    refine h.close (by simp [hs]) (by simp [hs]) (by simp [hpc]) ?_ id
      (fun u hu => h.not_owner hu (by simp [hpc])) (Or.inr ?_)
    · cases o <;> simp [Ending.after]
    · cases o <;> exact id
  | own s c hpc hs =>
    exact { h with
      built := by simpa [hs] using h.built
      unbuilt := by simp
      owned := fun hh => absurd ⟨c, rfl⟩ hh
      called := fun hc _ => h.called hc (by simp [hpc])
      shutter := False.elim }

theorem Base.cancel (h : f.Base) (hmove : Move text call maxQueue clock f .cancel f') :
    f'.Base := by
  cases hmove with
  | cancelBuild hpc hc =>
    exact { h with
      built := drop_eq_done.trans h.built
      unbuilt := fun _ => h.unbuilt (Or.inl hpc)
      owned := fun _ => h.owned (by simp [Handed, hpc])
      settled := by simp
      called := by simp
      shutter := False.elim }
  | cancelCall s s' t hpc hc hs hstep =>
    obtain ⟨hmoved, hplain, -⟩ :=
      task_unmoved hstep (by simp) h.plain (h.not_owner hs (by simp [hpc]))
    exact h.calling hs hpc hmoved hplain (by simp)
  | cancelJoin s o u hpc hc hs =>
    refine h.close (by simp) (by simp [hs]) (by simp [hpc]) (by simp) (by simp) ?_ (Or.inr id)
    rintro u ⟨⟩
    have hnot := h.not_owner hs (by simp [hpc])
    exact hnot
  | cancelShutdown s o u hpc hc hs =>
    refine h.close (by simp) (by simp [hs]) (by simp [hpc]) (by simp) (by simp) ?_ (Or.inr id)
    rintro u ⟨⟩
    have hnot := h.not_owner hs (by simp [hpc])
    exact hnot

theorem Base.step {a : Act} (h : f.Base) (hmove : Move text call maxQueue clock f a f') :
    f'.Base := by
  cases a with
  | task => exact h.task hmove
  | cancel => exact h.cancel hmove
  | build result =>
    cases hmove with
    | build _ w hbuild hw =>
      exact { h with
        built := by
          have := h.built
          simp_all }
    | startPump _ hbuild =>
      have hnone := h.state_eq_none hbuild
      obtain ⟨htask, hjoiner, hshutter⟩ := h.unbuilt (Or.inr hnone)
      exact { h with
        built := by simp
        unbuilt := fun _ => ⟨htask, hjoiner, hshutter⟩
        owned := by
          rintro - s ⟨⟩ c
          rfl }
  | worker ch =>
    cases hmove with
    | worker s s' t _ hs hstep =>
      obtain ⟨hmoved, hplain, hidle, hsettled, hover⟩ := worker_unmoved hstep h.plain
      exact h.work hs hmoved.onward.ownsPeer hidle hplain hsettled (by simp [hover])
  | joiner =>
    cases hmove with
    | takeJoin hjoiner =>
      exact { h with
        unbuilt := fun hor => by simp [h.unbuilt hor] at hjoiner }
    | joined s hs hjoiner hpump =>
      exact { h with
        unbuilt := fun hor => by simp [h.unbuilt hor] at hjoiner }
  | shutter =>
    cases hmove with
    | shutter w hshutter =>
      exact { h with
        unbuilt := fun hor => absurd (h.unbuilt hor).2.2 hshutter
        shutter := fun hu => absurd (h.shutter hu) hshutter }
  | own e =>
    cases hmove with
    | peer _ s s' hs heff => exact h.work hs heff.onward.ownsPeer Iff.rfl h.plain id id

/-! ## Careful steps -/

/-- What is known of a factory's Peer as long as all steps were careful. -/
structure Kept (f : Factory) (s : State) : Prop where
  joined : f.joiner = some (.done ()) → s.pump.out = true
  stage : match f.pc with
    | .build | .call | .close _ | .own _ => s.peer.closed = true → s.pump.out = true
    | .join _ => s.peer.closed = true ∧ ∃ w, f.joiner = some w ∧ w ≠ .dropped
    | .shutdown _ | .finish _ => Shut s
    | .left _ => s.peer.closed = true ∧ (s.pump.out = true ∨ f.joiner = some (.running ()))
    | .returnedConnection _ | .returnedPong _ => True

/-- A factory whose steps were careful. -/
structure Sound (f : Factory) : Prop where
  unbuilt : f.state = none → f.pc = .build ∨ ∃ x, f.pc = .left x
  kept : ∀ s, f.state = some s → f.Kept s

theorem Sound.init : Factory.init.Sound where
  unbuilt _ := Or.inl rfl
  kept s hs := by cases hs

theorem Sound.of_state {s : State} (hs : f.state = some s) (h : f.Kept s) : f.Sound where
  unbuilt hnone := by simp [hs] at hnone
  kept u hu := by
    rw [hs] at hu
    cases hu
    exact h

theorem Sound.clean (h : f.Sound) : f.Clean := by
  rintro ⟨⟨x, hx⟩, -, -, hjoiner, -⟩ s hs
  have hstage := (h.kept s hs).stage
  simp only [hx] at hstage
  obtain ⟨hclosed, hout | hrunning⟩ := hstage
  · exact ⟨hclosed, hout⟩
  · cases hjoiner _ hrunning

theorem Kept.onward {s s' : State} (h : f.Kept s) (hon : Onward s s') : f.Kept s' := by
  refine ⟨fun hj => hon.out (h.joined hj), ?_⟩
  have hstage := h.stage
  have hlater : (s.peer.closed = true → s.pump.out = true) → s'.peer.closed = true →
      s'.pump.out = true := fun hs hclosed =>
    (hon.shut hclosed).elim (fun hc => hon.out (hs hc)) id
  cases hpc : f.pc <;> simp only [hpc] at hstage
  case build | call | close | own => exact hlater hstage
  case join => exact hstage.imp_left hon.closed
  case shutdown | finish => exact hstage.imp hon.closed hon.out
  case left => exact hstage.imp hon.closed (Or.imp_left hon.out)
  case returnedConnection | returnedPong => trivial

theorem Kept.of_eq {s : State} {g : Factory} (h : f.Kept s) (hpc : g.pc = f.pc)
    (hjoiner : g.joiner = f.joiner) : g.Kept s where
  joined hj := h.joined (hjoiner.symm.trans hj)
  stage := by
    have hstage := h.stage
    rwa [← hpc, ← hjoiner] at hstage

theorem Kept.after {s : State} {u : Option State} {b : Bool} (h : f.Kept s) (hpc : f.pc = .call)
    (t : Task) : { f with state := u, task := t, pc := t.after, cancelled := b }.Kept s := by
  have hstage := h.stage
  simp only [hpc] at hstage
  refine ⟨h.joined, ?_⟩
  rcases after_cases t with ha | ⟨o, ha⟩ | ⟨c, ha⟩ <;> simpa only [ha] using hstage

theorem Kept.joining {s : State} {w' : Worker Unit Unit} (h : f.Kept s)
    (hw' : w' = .running () ∨ w' = .done () ∧ s.pump.out = true) :
    { f with joiner := some w' }.Kept s := by
  have hstage := h.stage
  constructor
  · intro hj
    rcases hw' with rfl | ⟨rfl, hout⟩
    · cases hj
    · exact hout
  · cases hpc : f.pc <;> simp only [hpc] at hstage ⊢
    case join =>
      refine ⟨hstage.1, w', rfl, ?_⟩
      rcases hw' with rfl | ⟨rfl, -⟩ <;> simp
    case left =>
      refine ⟨hstage.1, ?_⟩
      rcases hw' with rfl | ⟨rfl, hout⟩
      · exact Or.inr rfl
      · exact Or.inl hout
    all_goals exact hstage

theorem Sound.step {a : Act} (h : f.Sound) (hb : f.Base) (hcare : f.Careful (.shared a))
    (hmove : Move text call maxQueue clock f a f') : f'.Sound := by
  have howned : ∀ s, f.state = some s → f.pc = .call →
      ∀ c, (s.peer.connection c).ownsPeer = false :=
    fun s hs hpc => hb.owned (by simp [Handed, hpc]) s hs
  have hcloser : ∀ {s s' : State}, s.closerStep = some s' → Onward s s' := by
    intro s s' hstep
    have heff : ActEffect text s .closer s' := closerStep_effect hstep
    exact heff.onward
  cases hmove with
  | built hpc hbuild =>
    refine ⟨fun hnone => absurd hnone (hb.built.mp hbuild), fun s hs => ?_⟩
    have hk := h.kept s hs
    exact ⟨hk.joined, by simpa [hpc] using hk.stage⟩
  | refused r hpc hbuild =>
    refine ⟨fun _ => Or.inr ⟨_, rfl⟩, fun s hs => ?_⟩
    have hok := hb.built.mpr (fun hnone => by cases hs.symm.trans hnone)
    simp [hbuild] at hok
  | call s s' t hpc hs hstep =>
    obtain ⟨hmoved, -⟩ := task_unmoved hstep (by simp) hb.plain (howned s hs hpc)
    exact .of_state rfl (((h.kept s hs).onward hmoved.onward).after hpc t)
  | closeLost s o hpc hs hclosed =>
    have hstage := (h.kept s hs).stage
    simp only [hpc] at hstage
    have hshut : Shut s := ⟨hclosed, hstage hclosed⟩
    refine .of_state hs ⟨(h.kept s hs).joined, ?_⟩
    cases o with
    | raise x => exact hshut.imp_right Or.inl
    | give pong => trivial
  | closeBegin s o hpc hs hopen =>
    exact .of_state rfl ⟨by simp, rfl, _, rfl, by simp⟩
  | join s s' o hpc hs hjoiner hstep =>
    have hk := (h.kept s hs).onward (hcloser hstep)
    have hstage := hk.stage
    simp only [hpc] at hstage
    exact .of_state rfl ⟨hk.joined, hstage.1, hk.joined hjoiner⟩
  | shutdown s s' o hpc hs hstep =>
    have hk := (h.kept s hs).onward (hcloser hstep)
    exact .of_state rfl ⟨hk.joined, by simpa only [hpc] using hk.stage⟩
  | finish s s' o hpc hs hstep =>
    have hk := (h.kept s hs).onward (hcloser hstep)
    exact .of_state rfl ⟨hk.joined, by simpa only [hpc] using hk.stage⟩
  | finished s o hpc hs =>
    have hstage := (h.kept s hs).stage
    simp only [hpc] at hstage
    refine .of_state hs ⟨(h.kept s hs).joined, ?_⟩
    cases o with
    | raise x => exact hstage.imp_right Or.inl
    | give pong => trivial
  | own s c hpc hs => exact .of_state rfl ⟨(h.kept s hs).joined, trivial⟩
  | cancelBuild hpc hc =>
    refine ⟨fun _ => Or.inr ⟨_, rfl⟩, fun s hs => ⟨(h.kept s hs).joined, ?_⟩⟩
    exact (hcare.1 hpc s hs).imp_right Or.inl
  | cancelCall s s' t hpc hc hs hstep =>
    obtain ⟨hmoved, -⟩ := task_unmoved hstep (by simp) hb.plain (howned s hs hpc)
    exact .of_state rfl (((h.kept s hs).onward hmoved.onward).after hpc t)
  | cancelJoin s o u hpc hc hs =>
    have hk := h.kept s hs
    have hstage := hk.stage
    simp only [hpc] at hstage
    obtain ⟨hclosed, w, hw, hne⟩ := hstage
    refine .of_state rfl ⟨fun hj => hk.joined ?_, hclosed, ?_⟩
    · simpa [hw, drop_eq_done] using hj
    · cases w with
      | queued => exact Or.inl (hcare.2 o hpc hw s hs)
      | running => exact Or.inr (by simp [hw, drop])
      | done => exact Or.inl (hk.joined hw)
      | dropped => exact absurd rfl hne
  | cancelShutdown s o u hpc hc hs =>
    have hstage := (h.kept s hs).stage
    simp only [hpc] at hstage
    exact .of_state rfl ⟨(h.kept s hs).joined, hstage.imp_right Or.inl⟩
  | build result w hbuild hw => exact ⟨h.unbuilt, fun s hs => (h.kept s hs).of_eq rfl rfl⟩
  | startPump result hbuild =>
    have hnone := hb.state_eq_none hbuild
    refine .of_state rfl ⟨by simp [(hb.unbuilt (Or.inr hnone)).2.1], ?_⟩
    rcases h.unbuilt hnone with hpc | ⟨x, hpc⟩
    · simp [hpc, State.init, Peer.init]
    · exact absurd hbuild (hcare x hpc)
  | worker s s' t ch hs hstep =>
    obtain ⟨hmoved, -⟩ := worker_unmoved hstep hb.plain
    exact .of_state rfl (((h.kept s hs).onward hmoved.onward).of_eq rfl rfl)
  | takeJoin hjoiner => exact ⟨h.unbuilt, fun s hs => (h.kept s hs).joining (by simp)⟩
  | joined s hs hjoiner hpump =>
    exact .of_state hs ((h.kept s hs).joining (by simp [hpump, PumpPc.out]))
  | shutter w hshutter => exact ⟨h.unbuilt, fun s hs => (h.kept s hs).of_eq rfl rfl⟩
  | peer e s s' hs heff =>
    exact .of_state rfl (((h.kept s hs).onward heff.onward).of_eq rfl rfl)

/-- Whoever is not careful leaves a Peer behind. -/
theorem Base.careful {a : Act} (h : f.Base) (hmove : Move text call maxQueue clock f a f')
    (hclean : f'.Clean) : f.Careful (.shared a) := by
  cases hmove with
  | startPump result hbuild =>
    rintro x hpc -
    obtain ⟨htask, hjoiner, hshutter⟩ := h.unbuilt (Or.inr (h.state_eq_none hbuild))
    have hover : { f with build := .done (.ok ()), state := some (.init maxQueue clock) }.Over :=
      ⟨⟨x, hpc⟩, rfl, by simp [htask, Task.workerOver], by simp [hjoiner], by simp [hshutter]⟩
    obtain ⟨hclosed, -⟩ := hclean hover _ rfl
    cases hclosed
  | build result w hbuild hw => exact fun _ _ => hbuild.2
  | cancelBuild hpc hc =>
    refine ⟨fun _ s hs => ?_, fun o ho => ?_⟩
    · obtain ⟨htask, hjoiner, hshutter⟩ := h.unbuilt (Or.inl hpc)
      have hbuild := h.built.mpr (fun hnone => by cases hs.symm.trans hnone)
      refine hclean ⟨⟨_, rfl⟩, ?_, ?_, ?_, ?_⟩ s hs
      · simp [hbuild, drop, Worker.over]
      · simp [htask, Task.workerOver]
      · simp [hjoiner]
      · simp [hshutter]
    · simp [hpc] at ho
  | cancelCall s s' t hpc hc hs hstep => exact ⟨by simp [hpc], by simp [hpc]⟩
  | cancelJoin s o u hpc hc hs =>
    refine ⟨by simp [hpc], fun _ _ hjoiner s' hs' => ?_⟩
    have hbuild := h.built.mpr (fun hnone => by cases hs.symm.trans hnone)
    have hover := h.called hc (by simp [hpc])
    have hshutter := h.shutter (by simp [Unshut, hpc])
    obtain ⟨-, hout⟩ := hclean ⟨⟨_, rfl⟩, by simp [hbuild, Worker.over], hover,
      by simp [hjoiner, drop, Worker.over], by simp [hshutter]⟩ _ rfl
    cases hs.symm.trans hs'
    exact hout
  | cancelShutdown s o u hpc hc hs => exact ⟨by simp [hpc], by simp [hpc]⟩
  | _ => trivial

end Factory

section

variable {text : SystemAddress → String} {call : FactoryCall} {maxQueue : Option Nat} {clock : Int}

theorem factory_move {c c' : FactoryRun} {a : Action Factory.Act Empty}
    (hstep : (factory text call maxQueue clock).step c a = some c') :
    ∃ x, a = .shared x ∧ Factory.Move text call maxQueue clock c.shared x c'.shared := by
  rcases System.step_cases hstep with ⟨x, f, rfl, hx, rfl⟩ | ⟨_, x, _⟩
  · exact ⟨x, rfl, Factory.act_move hx⟩
  · exact x.elim

theorem factory_base {c : FactoryRun}
    (h : Reach (factory text call maxQueue clock) anyStep FactoryRun.init c) : c.shared.Base := by
  refine h.invariant (I := fun c => c.shared.Base) .init ?_
  intro c a c' _ _ hstep hb
  obtain ⟨x, -, hmove⟩ := factory_move hstep
  exact hb.step hmove

theorem factory_sound {c : FactoryRun}
    (h : Reach (factory text call maxQueue clock) (fun c a => c.shared.Careful a)
      FactoryRun.init c) :
    c.shared.Sound := by
  refine h.invariant (I := fun c => c.shared.Sound) .init ?_
  intro c a c' hr hcare hstep hs
  obtain ⟨x, rfl, hmove⟩ := factory_move hstep
  exact hs.step (factory_base hr.any) hcare hmove

/-- **Main theorem.** In all states of a run of `create_connection` or `ping` in which an exception
has left it and its workers have finished, its Peer is closed with the pump out of the loop, exactly
if all steps of the run are careful. -/
theorem factories_leak {tr : List (FactoryRun × Action Factory.Act Empty)} {c : FactoryRun}
    (h : Trace (factory text call maxQueue clock) anyStep FactoryRun.init tr c) :
    ((∀ x ∈ tr, x.1.shared.Clean) ∧ c.shared.Clean) ↔ ∀ x ∈ tr, x.1.shared.Careful x.2 := by
  refine h.holds_iff (P := fun c => c.shared.Clean) (Q := fun c a => c.shared.Careful a)
    (fun c hr => ?_) ?_
  · exact (factory_sound (hr.mono fun _ _ _ hok => hok.2)).clean
  · intro c a c' hr _ hstep _ hclean
    obtain ⟨x, rfl, hmove⟩ := factory_move hstep
    exact (factory_base hr).careful hmove hclean

end

/-- A `ping` whose address does not resolve, to the end of `peer.close(0)`. -/
def unresolvedPing : List (Action Factory.Act Empty) :=
  List.map .shared
    ([.build .raknetStarted, .build .raknetStarted, .build .raknetStarted, .task,
      .worker .go, .worker .go, .worker (.resolved none), .task, .task, .joiner, .own .pump,
      .joiner, .task, .shutter, .shutter] ++ List.replicate 6 .task)

/-- The Peer of a `ping` that fails is closed. -/
theorem factories_leak_one :
    ∃ tr c, Trace (factory SystemAddress.text (.ping ⟨"localhost", 19132⟩) none 0) anyStep
        FactoryRun.init tr c ∧ c.shared.Over ∧ c.shared.state ≠ none ∧
      (((∀ x ∈ tr, x.1.shared.Clean) ∧ c.shared.Clean) ↔
        ∀ x ∈ tr, x.1.shared.Careful x.2) := by
  have hrun : Reach (factory SystemAddress.text (.ping ⟨"localhost", 19132⟩) none 0) anyStep
      FactoryRun.init _ :=
    .of_exec (show (factory SystemAddress.text (.ping ⟨"localhost", 19132⟩) none 0).exec anyStep
      unresolvedPing FactoryRun.init = some _ from rfl)
  obtain ⟨tr, htr⟩ := hrun.exists_trace
  refine ⟨tr, _, htr, ⟨⟨_, rfl⟩, rfl, rfl, ?_, ?_⟩, by simp, factories_leak htr⟩
  · rintro w ⟨⟩
    rfl
  · rintro w ⟨⟩
    rfl

/-- The task is cancelled while a thread builds the Peer, whose startup then succeeds: its pump
polls on. -/
theorem cancelled_factory_leaks :
    ¬ ∀ c, Reach (factory SystemAddress.text (.ping ⟨"localhost", 19132⟩) none 0) anyStep
      FactoryRun.init c → c.shared.Clean := by
  intro hall
  have hrun : Reach (factory SystemAddress.text (.ping ⟨"localhost", 19132⟩) none 0) anyStep
      FactoryRun.init _ :=
    .of_exec (show (factory SystemAddress.text (.ping ⟨"localhost", 19132⟩) none 0).exec anyStep
      [.shared (.build .raknetStarted), .shared .cancel, .shared (.build .raknetStarted),
        .shared (.build .raknetStarted), .shared (.own .pump)] FactoryRun.init = some _ from rfl)
  obtain ⟨hclosed, -⟩ := hall _ hrun ⟨⟨_, rfl⟩, rfl, rfl, by rintro w ⟨⟩, by rintro w ⟨⟩⟩ _ rfl
  cases hclosed

end Raknet
