import Raknet.Calls

/-!
# The tasks of the asyncio API

`raknet.asyncio` runs the same pump, tables and teardown as the sync API; its calls are coroutines.
`_start_connect` and `_start_ping` run in a worker thread, the rest runs on the event loop. A call
is two program counters here, that of its worker and that of its task.

`CancelledError` can reach a task at each of its await points and nowhere else. Cancelling the await
of a worker does not stop the worker, unless it has not started yet. What `call_soon_threadsafe`
schedules is taken as done when it is scheduled: an event that is set lets its waiter go on at any
later time, and the waiter may still be cancelled before it does. Of a mailbox, only what its
threads schedule matters here.

`aio text` is the resulting system.
-/

namespace Raknet

/-! ## Tasks -/

/-- What `await asyncio.to_thread(..)` waits for. -/
inductive Worker (π ρ : Type)
  /-- no thread has taken up the function -/
  | queued
  | running (pc : π)
  | done (r : ρ)
  /-- cancelled before a thread took up the function -/
  | dropped
deriving DecidableEq, Repr

/-- The worker has finished, or never started. -/
def Worker.over {π ρ : Type} : Worker π ρ → Bool
  | .done _ | .dropped => true
  | .queued | .running _ => false

/-- How an exception leaves a call. -/
inductive Exit
  | error (e : Error)
  /-- `CancelledError` -/
  | cancelled
deriving DecidableEq, Repr

/-- What the event loop and the environment decide in a step of a call. -/
inductive TaskChoice
  /-- the task's next step -/
  | go
  /-- the worker's next step -/
  | worker (ch : Choice)
  /-- `CancelledError` is thrown into the task -/
  | cancel
deriving DecidableEq, Repr

/-- The worker of `Peer.connect`. -/
abbrev ConnectWorker := Worker StartPc (Except Error SystemAddress)

/-- The worker of `Peer.ping`. -/
abbrev PingWorker := Worker StartPingPc (Except Error SystemAddress)

inductive ConnectTask
  /-- in `await asyncio.to_thread(self._start_connect, ..)` -/
  | starting
  /-- in `await pending.event.wait()` -/
  | wait (a : SystemAddress)
  | abandon (a : SystemAddress) (pc : AbandonPc)
  /-- at `pending.connection is not None` -/
  | look
  /-- in `await pending.connection.close()` -/
  | reap (c : ConnId) (pc : ClosePc)
  /-- at `_finish_connect` -/
  | finish
  /-- `create_connection` closes its Peer after an exception -/
  | closePeer (x : Exit) (pc : ClosePeerPc)
  /-- `create_connection` takes over the Peer -/
  | own (c : ConnId)
  | returned (c : ConnId)
  | left (x : Exit)
deriving DecidableEq, Repr

inductive PingTask
  /-- in `await asyncio.to_thread(self._start_ping, ..)` -/
  | starting
  /-- in `await pending.event.wait()` -/
  | wait (a : SystemAddress)
  /-- the wait was cancelled -/
  | popCancelled (a : SystemAddress)
  /-- at `_finish_ping` -/
  | finish
  | returned (pong : Pong)
  | left (x : Exit)
deriving DecidableEq, Repr

/-- A call of a user's task. -/
inductive Task
  /-- not started -/
  | idle
  | connect (args : ConnectArgs) (w : ConnectWorker) (pc : ConnectTask)
  | ping (args : PingArgs) (w : PingWorker) (pc : PingTask)
  | accept (pc : AcceptPc)
  | close (c : ConnId) (notify : Bool) (pc : ClosePc)
  /-- `Connection.close` has returned -/
  | closed (c : ConnId)
  | closePeer (pc : ClosePeerPc)
  /-- `Peer.close` has returned -/
  | closedPeer
  /-- `CancelledError` has left an `accept` or a `close` -/
  | cancelled
deriving DecidableEq, Repr

/-- The worker of a call is over. -/
def Task.workerOver : Task → Bool
  | .connect _ w _ => w.over
  | .ping _ w _ => w.over
  | _ => true

/-- An exception leaves `Peer.connect`. -/
def ConnectArgs.exit (args : ConnectArgs) (x : Exit) : ConnectTask :=
  if args.oneShot then .closePeer x .begin else .left x

/-- `Peer.connect` returns. -/
def ConnectArgs.hand (args : ConnectArgs) (c : ConnId) : ConnectTask :=
  if args.oneShot then .own c else .returned c

/-! ## Steps -/

/-- `CancelledError` is thrown into the `close` that is tearing the Peer down, at `await
asyncio.to_thread(self._pump.join)` or at `await asyncio.to_thread(self._raw.shutdown, ..)`. -/
def State.cancelClose (s : State) : Option State :=
  match s.teardown with
  | .joining snap | .shutdown none snap => some (s.close (.cancelled snap))
  | _ => none

section

variable (text : SystemAddress → String)

/-- `Peer.connect` and `create_connection`, called by call `i`. -/
def connectTaskStep (i : CallId) (args : ConnectArgs) (s : State) :
    ConnectWorker → ConnectTask → TaskChoice → Option (State × ConnectWorker × ConnectTask)
  -- the worker
  | .queued, .starting, .worker .go => some (s, .running .checkOpen, .starting)
  | .running q, pc, .worker ch => (startStep text i args s q ch).map fun
    | (s', .pc q') => (s', .running q', pc)
    | (s', .ret r) => (s', .done r, pc)
  -- the task
  | .done (.ok a), .starting, .go => some (s, .done (.ok a), .wait a)
  | .done (.error e), .starting, .go => some (s, .done (.error e), args.exit (.error e))
  | .queued, .starting, .cancel => some (s, .dropped, args.exit .cancelled)
  | w, .starting, .cancel => some (s, w, args.exit .cancelled)
  | w, .wait _, .go => if (s.peer.pendingConnect i).event then some (s, w, .finish) else none
  | w, .wait a, .cancel => some (s, w, .abandon a .pop)
  | w, .abandon a q, .go => (abandonStep text a s q).map fun
    | (s', .pc q') => (s', w, .abandon a q')
    | (s', .ret true) => (s', w, args.exit .cancelled)
    | (s', .ret false) => (s', w, .look)
  | w, .look, .go =>
    some (s, w, match (s.peer.pendingConnect i).connection with
      | some c => .reap c .check
      | none => args.exit .cancelled)
  | w, .reap c q, .go => (closeStep c true s q).map fun
    | (s', .pc q') => (s', w, .reap c q')
    | (s', .ret ()) => (s', w, args.exit .cancelled)
  | w, .reap _ (.peer .closing), .cancel => s.cancelClose.map (·, w, args.exit .cancelled)
  | w, .finish, .go =>
    some (s, w, match finishConnect args (s.peer.pendingConnect i) with
      | .ok c => args.hand c
      | .error e => args.exit (.error e))
  | w, .closePeer x q, .go => (closePeerStep s q).map fun
    | (s', .pc q') => (s', w, .closePeer x q')
    | (s', .ret ()) => (s', w, .left x)
  | w, .closePeer _ .closing, .cancel => s.cancelClose.map (·, w, .left .cancelled)
  | w, .own c, .go => some (s.set (s.peer.own c), w, .returned c)
  | _, _, _ => none

/-- `Peer.ping`, called by call `i`. -/
def pingTaskStep (i : CallId) (args : PingArgs) (s : State) :
    PingWorker → PingTask → TaskChoice → Option (State × PingWorker × PingTask)
  -- the worker
  | .queued, .starting, .worker .go => some (s, .running .checkOpen, .starting)
  | .running q, pc, .worker ch => (startPingStep text i args s q ch).map fun
    | (s', .pc q') => (s', .running q', pc)
    | (s', .ret r) => (s', .done r, pc)
  -- the task
  | .done (.ok a), .starting, .go => some (s, .done (.ok a), .wait a)
  | .done (.error e), .starting, .go => some (s, .done (.error e), .left (.error e))
  | .queued, .starting, .cancel => some (s, .dropped, .left .cancelled)
  | w, .starting, .cancel => some (s, w, .left .cancelled)
  | w, .wait _, .go => if (s.peer.pendingPing i).event then some (s, w, .finish) else none
  | w, .wait a, .cancel => some (s, w, .popCancelled a)
  | w, .popCancelled a, .go => some (s.set (s.peer.popPing (text a)), w, .left .cancelled)
  | w, .finish, .go =>
    some (s, w, match (s.peer.pendingPing i).pong with
      | none => .left (.error peerIsClosed)
      | some pong => .returned pong)
  | _, _, _ => none

/-- Start a call. A Connection can be closed once it was handed out. -/
def startTask (s : State) : CallStart → Option Task
  | .connect args => some (.connect args .queued .starting)
  | .ping args => some (.ping args .queued .starting)
  | .accept => some (.accept .checkOpen)
  | .close c notify => if s.published c then some (.close c notify .check) else none
  | .closePeer => some (.closePeer .begin)

/-- One step of call `i`. -/
def taskStep (i : CallId) (ch : CallStart ⊕ TaskChoice) (s : State) (t : Task) :
    Option (State × Task) :=
  match t, ch with
  | .idle, .inl start => (startTask s start).map (s, ·)
  | .connect args w pc, .inr ch => (connectTaskStep text i args s w pc ch).map fun
    | (s', w', pc') => (s', .connect args w' pc')
  | .ping args w pc, .inr ch => (pingTaskStep text i args s w pc ch).map fun
    | (s', w', pc') => (s', .ping args w' pc')
  | .accept pc, .inr .go => (acceptStep s pc .go).map fun (s', pc') => (s', .accept pc')
  | .accept .get, .inr .cancel => some (s, .cancelled)
  | .close c notify pc, .inr .go => (closeStep c notify s pc).map fun
    | (s', .pc pc') => (s', .close c notify pc')
    | (s', .ret ()) => (s', .closed c)
  | .close _ _ (.peer .closing), .inr .cancel => s.cancelClose.map (·, .cancelled)
  | .closePeer pc, .inr .go => (closePeerStep s pc).map fun
    | (s', .pc pc') => (s', .closePeer pc')
    | (s', .ret ()) => (s', .closedPeer)
  | .closePeer .closing, .inr .cancel => s.cancelClose.map (·, .cancelled)
  | _, _ => none

end

/-! ## The system -/

open Interleaving

/-- A configuration of an asyncio Peer. -/
abbrev Aio := Config State Task

/-- What happens in a step: a shared action, or a step of one call. -/
abbrev AioAction := Action State.Act (CallStart ⊕ TaskChoice)

/-- The pump, the closer, the readers and the users' tasks of an asyncio Peer. -/
def aio (text : SystemAddress → String) : System State Task State.Act (CallStart ⊕ TaskChoice) where
  shared := State.act text
  thread := taskStep text

/-- An asyncio Peer whose pump was just started, before any call. -/
def Aio.init (maxQueue : Option Nat) (clock : Int) : Aio :=
  ⟨.init maxQueue clock, fun _ => .idle⟩

/-! ## Schedules -/

/-- A call `Peer.connect`, until `_start_connect` has returned. -/
def aioConnects (i : Nat) (args : ConnectArgs) (ip : String) : List AioAction :=
  .thread i (.inl (.connect args)) :: List.replicate 3 (.thread i (.inr (.worker .go))) ++
    [.thread i (.inr (.worker (.resolved (some ip)))), .thread i (.inr (.worker .go)),
      .thread i (.inr (.worker (.connectResult .connectionAttemptStarted))), .thread i (.inr .go)]

/-- The pump receives a packet and takes `n` steps with it. -/
def aioRoutes (p : Packet) (n : Nat) : List AioAction :=
  .shared .pump :: .shared (.received (.packet p)) :: List.replicate n (.shared .pump)

end Raknet
