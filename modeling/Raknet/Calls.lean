import Raknet.Lib.Interleaving
import Raknet.Pump

/-!
# The calls of the synchronous API

Every call a user thread makes is a program counter over the shared state, with one constructor
for each point between two steps. `_start_connect`, `_abandon_connect`, `Connection.close` and
`Peer.close` are machines of their own, since several callers share them; `Next` says whether
such a machine goes on or returns.

What the environment decides is in the `Choice` of a step: what RakNet answers, what a host name
resolves to, and whether a wait times out. A wait can time out at any moment, also just after its
event was set; that a wait raises because it cannot take its `timeout` is left out.

`sync text` is the resulting system: the pump, the closer and the readers of `Raknet.Pump` as
shared actions, one thread per call.
-/

namespace Raknet

/-! ## Exceptions and results -/

/-- `ConnectError.reason`. -/
inductive ConnectReason
  | attempt (result : ConnectionAttemptResult)
  | message (mid : DefaultMessageIDTypes)
deriving DecidableEq, Repr

/-- The exceptions that the calls raise. -/
inductive Error
  /-- `ValueError` -/
  | value (text : String)
  /-- `ConnectError(address, reason)` -/
  | connect (host : String) (port : Nat) (reason : ConnectReason)
  /-- `TimeoutError` -/
  | timeout (text : String)
  /-- `RakNetError` -/
  | rakNet (text : String)
  /-- a failing `assert` -/
  | assertion
  /-- what `raw.connect` raises, or the conversion of its arguments -/
  | raw (text : String)
deriving DecidableEq, Repr

/-- The exception of `raw.connect`. -/
def Error.isRaw : Error → Bool
  | raw _ => true
  | _ => false

/-- `RakNetError("peer is closed")`. -/
def peerIsClosed : Error := .rakNet "peer is closed"

/-- Where a sub-machine goes: on to a program counter, or back to its caller. -/
inductive Next (π ρ : Type)
  | pc (p : π)
  | ret (r : ρ)
deriving DecidableEq, Repr

/-- What the environment decides in a step of a call. -/
inductive Choice
  /-- the call's next step -/
  | go
  /-- a wait times out -/
  | timeout
  /-- the answer of `socket.getaddrinfo`, `none` for an `OSError` -/
  | resolved (ip : Option String)
  /-- the answer of `raw.connect` -/
  | connectResult (r : ConnectionAttemptResult)
  /-- `raw.connect` raises, or the conversion of its arguments -/
  | connectRaises (text : String)
  /-- the answer of `raw.ping` -/
  | pingResult (ok : Bool)
deriving DecidableEq, Repr

section

variable (text : SystemAddress → String)

/-! ## `_start_connect` and `_abandon_connect` -/

/-- The arguments of `Peer.connect`. `oneShot` marks the call that `create_connection` makes on
its private Peer. -/
structure ConnectArgs where
  host : String
  port : Nat
  attempts : Int
  oneShot : Bool
deriving DecidableEq, Repr

inductive StartPc
  | checkOpen
  | checkAttempts
  | resolve
  | register (a : SystemAddress)
  /-- in `self._raw.connect(..)` -/
  | rawConnect (a : SystemAddress)
  /-- `raw.connect` refused -/
  | popFailed (a : SystemAddress) (r : ConnectionAttemptResult)
deriving DecidableEq, Repr

/-- `_start_connect`, called by call `i`. -/
def startStep (i : CallId) (args : ConnectArgs) (s : State) :
    StartPc → Choice → Option (State × Next StartPc (Except Error SystemAddress))
  | .checkOpen, .go =>
    some (s, if s.peer.closed then .ret (.error peerIsClosed) else .pc .checkAttempts)
  | .checkAttempts, .go =>
    some (s, if args.attempts < 3 then
        .ret (.error (.value
          "attempts must be at least 3, RakNet probes one MTU size per third of the attempts"))
      else .pc .resolve)
  | .resolve, .resolved none =>
    some (s, .ret (.error (.connect args.host args.port (.attempt .cannotResolveDomainName))))
  | .resolve, .resolved (some ip) =>
    some (s.set (s.peer.setPendingConnect i .new), .pc (.register ⟨ip, args.port⟩))
  | .register a, .go =>
    if s.peer.closed then some (s, .ret (.error peerIsClosed))
    else some
      ((s.set (s.peer.registerConnect (text a) i)).emit (.connectEntered i a), .pc (.rawConnect a))
  | .rawConnect a, .connectResult r =>
    some (s, if r = .connectionAttemptStarted then .ret (.ok a) else .pc (.popFailed a r))
  -- no `finally` pops the entry
  | .rawConnect _, .connectRaises message => some (s, .ret (.error (.raw message)))
  | .popFailed a r, .go =>
    some (s.set (s.peer.popConnect (text a)),
      .ret (.error (.connect args.host args.port (.attempt r))))
  | _, _ => none

inductive AbandonPc
  | pop
  /-- in `self._raw.cancel_connection_attempt(..)` -/
  | cancel
deriving DecidableEq, Repr

/-- `_abandon_connect`: whether the attempt was still pending. -/
def abandonStep (a : SystemAddress) (s : State) : AbandonPc → Option (State × Next AbandonPc Bool)
  | .pop =>
    match s.peer.pendingConnects.get? (text a) with
    | none => some (s, .ret false)
    | some _ => some (s.set (s.peer.popConnect (text a)), .pc .cancel)
  | .cancel => some (s.emit (.rawCancel a), .ret true)

/-! ## `Peer.close` and `Connection.close` -/

inductive ClosePeerPc
  | begin
  /-- won `_begin_close`; the closer runs on this thread -/
  | closing
deriving DecidableEq, Repr

/-- `Peer.close`, with a `timeout` that `int` and `raw.shutdown` take. -/
def closePeerStep (s : State) : ClosePeerPc → Option (State × Next ClosePeerPc Unit)
  | .begin =>
    if s.peer.closed then some (s, .ret ()) else some (s.beginClose .joining, .pc .closing)
  | .closing => if s.teardown = .done then some (s, .ret ()) else none

inductive ClosePc
  /-- at `if not self._closed` -/
  | check
  | pop
  | mark
  /-- at `if not self._closed` of the Peer -/
  | checkPeer
  /-- in `self._raw.close_connection(..)` -/
  | raw
  | mailbox
  /-- at `if self._owns_peer` -/
  | owns
  | peer (pc : ClosePeerPc)
deriving DecidableEq, Repr

/-- `Connection.close`, with `_close_connection` inlined. -/
def closeStep (c : ConnId) (notify : Bool) (s : State) :
    ClosePc → Option (State × Next ClosePc Unit)
  | .check => some (s, .pc (if (s.peer.connection c).closed then .owns else .pop))
  | .pop => some (s.set (s.peer.unregister (s.peer.connection c).rawGuid), .pc .mark)
  | .mark => some (s.set (s.peer.markClosed c), .pc .checkPeer)
  | .checkPeer => some (s, .pc (if s.peer.closed then .mailbox else .raw))
  | .raw => some (s.emit (.rawClose (s.peer.connection c).rawGuid notify), .pc .mailbox)
  | .mailbox => some (s.set (s.peer.closeMailbox c (.ok "connection closed")), .pc .owns)
  | .owns => some (s, if (s.peer.connection c).ownsPeer then .pc (.peer .begin) else .ret ())
  | .peer pc => (closePeerStep s pc).map fun
    | (s', .pc pc') => (s', .pc (.peer pc'))
    | (s', .ret r) => (s', .ret r)

/-! ## `Peer.connect` and `create_connection` -/

inductive ConnectPc
  | start (pc : StartPc)
  /-- in `pending.event.wait(timeout)` -/
  | wait (a : SystemAddress)
  | abandon (a : SystemAddress) (pc : AbandonPc)
  /-- in `pending.event.wait()` -/
  | waitAgain (a : SystemAddress)
  /-- in `pending.connection.close()` -/
  | reap (c : ConnId) (pc : ClosePc)
  /-- at `_finish_connect` -/
  | finish
  /-- `create_connection` closes its Peer after an exception -/
  | closePeer (e : Error) (pc : ClosePeerPc)
  /-- `create_connection` takes over the Peer -/
  | own (c : ConnId)
  | returned (c : ConnId)
  | raised (e : Error)
deriving DecidableEq, Repr

/-- An exception leaves `Peer.connect`. -/
def ConnectArgs.leave (args : ConnectArgs) (e : Error) : ConnectPc :=
  if args.oneShot then .closePeer e .begin else .raised e

/-- `Peer.connect` returns. -/
def ConnectArgs.give (args : ConnectArgs) (c : ConnId) : ConnectPc :=
  if args.oneShot then .own c else .returned c

/-- `TimeoutError(f"connect to {host}:{port} timed out")`. -/
def ConnectArgs.timedOut (args : ConnectArgs) : Error :=
  let host := args.host
  let port := args.port
  .timeout s!"connect to {host}:{port} timed out"

/-- `_finish_connect`. -/
def finishConnect (args : ConnectArgs) (pending : PendingConnect) : Except Error ConnId :=
  match pending.reason, pending.connection with
  | some r, _ => .error (.connect args.host args.port (.message r))
  | none, some c => .ok c
  | none, none => .error .assertion

/-- `Peer.connect`, called by call `i`. -/
def connectStep (i : CallId) (args : ConnectArgs) (s : State) :
    ConnectPc → Choice → Option (State × ConnectPc)
  | .start pc, ch => (startStep text i args s pc ch).map fun
    | (s', .pc pc') => (s', .start pc')
    | (s', .ret (.ok a)) => (s', .wait a)
    | (s', .ret (.error e)) => (s', args.leave e)
  | .wait _, .go => if (s.peer.pendingConnect i).event then some (s, .finish) else none
  | .wait a, .timeout => some (s, .abandon a .pop)
  | .abandon a pc, .go => (abandonStep text a s pc).map fun
    | (s', .pc pc') => (s', .abandon a pc')
    | (s', .ret true) => (s', args.leave args.timedOut)
    | (s', .ret false) => (s', .waitAgain a)
  | .waitAgain _, .go =>
    if (s.peer.pendingConnect i).event then
      some (s, match (s.peer.pendingConnect i).connection with
        | some c => .reap c .check
        | none => args.leave args.timedOut)
    else none
  | .reap c pc, .go => (closeStep c true s pc).map fun
    | (s', .pc pc') => (s', .reap c pc')
    | (s', .ret ()) => (s', args.leave args.timedOut)
  | .finish, .go =>
    some (s, match finishConnect args (s.peer.pendingConnect i) with
      | .ok c => args.give c
      | .error e => args.leave e)
  | .closePeer e pc, .go => (closePeerStep s pc).map fun
    | (s', .pc pc') => (s', .closePeer e pc')
    | (s', .ret ()) => (s', .raised e)
  | .own c, .go => some (s.set (s.peer.own c), .returned c)
  | _, _ => none

/-! ## `Peer.ping` -/

/-- The address of `Peer.ping`. -/
structure PingArgs where
  host : String
  port : Nat
deriving DecidableEq, Repr

inductive StartPingPc
  | checkOpen
  | resolve
  | register (a : SystemAddress)
  /-- in `self._raw.ping(..)` -/
  | rawPing (a : SystemAddress)
  /-- `raw.ping` failed -/
  | popFailed (a : SystemAddress)
deriving DecidableEq, Repr

/-- `_start_ping`, called by call `i`. -/
def startPingStep (i : CallId) (args : PingArgs) (s : State) :
    StartPingPc → Choice → Option (State × Next StartPingPc (Except Error SystemAddress))
  | .checkOpen, .go =>
    some (s, if s.peer.closed then .ret (.error peerIsClosed) else .pc .resolve)
  | .resolve, .resolved none =>
    let host := args.host
    some (s, .ret (.error (.rakNet s!"cannot resolve {host}")))
  | .resolve, .resolved (some ip) =>
    some (s.set (s.peer.setPendingPing i (.new s.clock)), .pc (.register ⟨ip, args.port⟩))
  | .register a, .go =>
    if s.peer.closed then some (s, .ret (.error peerIsClosed))
    else some ((s.set (s.peer.registerPing (text a) i)).emit (.pingEntered i), .pc (.rawPing a))
  | .rawPing a, .pingResult ok => some (s, if ok then .ret (.ok a) else .pc (.popFailed a))
  | .popFailed a, .go =>
    let host := args.host
    let port := args.port
    some (s.set (s.peer.popPing (text a)), .ret (.error (.rakNet s!"ping to {host}:{port} failed")))
  | _, _ => none

inductive PingPc
  | start (pc : StartPingPc)
  /-- in `pending.event.wait(timeout)` -/
  | wait (a : SystemAddress)
  /-- the wait timed out -/
  | popTimedOut (a : SystemAddress)
  /-- at `_finish_ping` -/
  | finish
  | returned (pong : Pong)
  | raised (e : Error)
deriving DecidableEq, Repr

/-- `_finish_ping`. -/
def finishPing (pending : PendingPing) : PingPc :=
  match pending.pong with
  | none => .raised peerIsClosed
  | some pong => .returned pong

/-- `Peer.ping`, called by call `i`. -/
def pingStep (i : CallId) (args : PingArgs) (s : State) :
    PingPc → Choice → Option (State × PingPc)
  | .start pc, ch => (startPingStep text i args s pc ch).map fun
    | (s', .pc pc') => (s', .start pc')
    | (s', .ret (.ok a)) => (s', .wait a)
    | (s', .ret (.error e)) => (s', .raised e)
  | .wait _, .go => if (s.peer.pendingPing i).event then some (s, .finish) else none
  | .wait a, .timeout => some (s, .popTimedOut a)
  | .popTimedOut a, .go =>
    let host := args.host
    let port := args.port
    some (s.set (s.peer.popPing (text a)), .raised (.timeout s!"ping to {host}:{port} timed out"))
  | .finish, .go => some (s, finishPing (s.peer.pendingPing i))
  | _, _ => none

/-! ## `Peer.accept` -/

inductive AcceptPc
  | checkOpen
  /-- in `self._accept_queue.get(timeout=timeout)` -/
  | get
  /-- took the sentinel -/
  | putBack
  | returned (c : ConnId)
  | raised (e : Error)
deriving DecidableEq, Repr

/-- `Peer.accept`. -/
def acceptStep (s : State) : AcceptPc → Choice → Option (State × AcceptPc)
  | .checkOpen, .go => some (s, if s.peer.closed then .raised peerIsClosed else .get)
  | .get, .go =>
    match s.peer.acceptQueue with
    | [] => none
    | some c :: _ => some (s.set s.peer.acceptPop, .returned c)
    | none :: _ => some (s.set s.peer.acceptPop, .putBack)
  | .get, .timeout => some (s, .raised (.timeout "accept timed out"))
  | .putBack, .go => some (s.set (s.peer.acceptPut none), .raised peerIsClosed)
  | _, _ => none

/-! ## The system -/

/-- A call of a user thread. -/
inductive Call
  /-- not started -/
  | idle
  | connect (args : ConnectArgs) (pc : ConnectPc)
  | ping (args : PingArgs) (pc : PingPc)
  | accept (pc : AcceptPc)
  | close (c : ConnId) (notify : Bool) (pc : ClosePc)
  /-- `Connection.close` has returned -/
  | closed (c : ConnId)
  | closePeer (pc : ClosePeerPc)
  /-- `Peer.close` has returned -/
  | closedPeer
deriving DecidableEq, Repr

/-- Which call a user starts. -/
inductive CallStart
  | connect (args : ConnectArgs)
  | ping (args : PingArgs)
  | accept
  | close (c : ConnId) (notify : Bool)
  | closePeer
deriving DecidableEq, Repr

/-- Start a call. A Connection can be closed once it was handed out. -/
def startCall (s : State) : CallStart → Option Call
  | .connect args => some (.connect args (.start .checkOpen))
  | .ping args => some (.ping args (.start .checkOpen))
  | .accept => some (.accept .checkOpen)
  | .close c notify => if s.published c then some (.close c notify .check) else none
  | .closePeer => some (.closePeer .begin)

/-- One step of call `i`. -/
def callStep (i : CallId) (ch : CallStart ⊕ Choice) (s : State) (t : Call) :
    Option (State × Call) :=
  match t, ch with
  | .idle, .inl start => (startCall s start).map (s, ·)
  | .connect args pc, .inr ch =>
    (connectStep text i args s pc ch).map fun (s', pc') => (s', .connect args pc')
  | .ping args pc, .inr ch =>
    (pingStep text i args s pc ch).map fun (s', pc') => (s', .ping args pc')
  | .accept pc, .inr ch => (acceptStep s pc ch).map fun (s', pc') => (s', .accept pc')
  | .close c notify pc, .inr .go => (closeStep c notify s pc).map fun
    | (s', .pc pc') => (s', .close c notify pc')
    | (s', .ret ()) => (s', .closed c)
  | .closePeer pc, .inr .go => (closePeerStep s pc).map fun
    | (s', .pc pc') => (s', .closePeer pc')
    | (s', .ret ()) => (s', .closedPeer)
  | _, _ => none

end

open Interleaving

/-- A configuration of a sync Peer: the shared state and the calls of its users. -/
abbrev Sync := Config State Call

/-- What happens in a step: a shared action, or a step of one call. -/
abbrev SyncAction := Action State.Act (CallStart ⊕ Choice)

/-- The pump, the closer, the readers and the users' calls of a sync Peer. -/
def sync (text : SystemAddress → String) : System State Call State.Act (CallStart ⊕ Choice) where
  shared := State.act text
  thread := callStep text

/-- A sync Peer whose pump was just started, before any call. -/
def Sync.init (maxQueue : Option Nat) (clock : Int) : Sync := ⟨.init maxQueue clock, fun _ => .idle⟩

/-! ## Schedules -/

/-- `SystemAddress.to_string(True)`. -/
def SystemAddress.text (a : SystemAddress) : String := a.ip ++ "|" ++ toString a.port

theorem append_bar {l l' d d' : List Char} (hd : '|' ∉ d) (hd' : '|' ∉ d')
    (h : l ++ '|' :: d = l' ++ '|' :: d') : l = l' ∧ d = d' := by
  rcases List.append_eq_append_iff.mp h with ⟨m, rfl, hm⟩ | ⟨m, rfl, hm⟩
  · cases m with
    | nil => simpa using hm
    | cons x m => simp_all
  · cases m with
    | nil => simpa using hm.symm
    | cons x m => simp_all

/-- The port is what follows the last bar. -/
theorem text_injective : Function.Injective SystemAddress.text := by
  have hbar : ∀ n : Nat, '|' ∉ Nat.toDigits 10 n := fun n h => by
    have hdigit := Nat.isDigit_of_mem_toDigits (by decide) (by decide) h
    revert hdigit
    decide
  rintro ⟨ip, port⟩ ⟨ip', port'⟩ h
  have hlist := congrArg String.toList h
  simp only [SystemAddress.text, String.toList_append, Nat.toString_eq_repr, Nat.toList_repr,
    List.append_assoc] at hlist
  obtain ⟨hip, hport⟩ := append_bar (hbar port) (hbar port') hlist
  have hport := congrArg (Nat.ofDigitChars 10 · 0) hport
  simp only [Nat.ofDigitChars_ten_toDigits] at hport
  rw [String.toList_inj.mp hip, hport]

/-- Call `i` takes `n` steps of its own. -/
def steps (i n : Nat) : List SyncAction := List.replicate n (.thread i (.inr .go))

/-- The pump takes `n` steps. -/
def pumps (n : Nat) : List SyncAction := List.replicate n (.shared .pump)

/-- The closer takes `n` steps. -/
def closes (n : Nat) : List SyncAction := List.replicate n (.shared .closer)

/-- The pump receives a packet and takes `n` steps with it. -/
def routes (p : Packet) (n : Nat) : List SyncAction :=
  .shared .pump :: .shared (.received (.packet p)) :: pumps n

/-- A call `Peer.connect`, up to the answer of `raw.connect`. -/
def connects (i : Nat) (args : ConnectArgs) (ip : String) (r : ConnectionAttemptResult) :
    List SyncAction :=
  .thread i (.inl (.connect args)) :: steps i 2 ++
    [.thread i (.inr (.resolved (some ip))), .thread i (.inr .go),
      .thread i (.inr (.connectResult r))]

end Raknet
