import Raknet.Peer

/-!
# The pump and the closer, step by step

Two threads work on a Peer besides its users. The **pump** (`_pump_loop`) receives packets,
routes them and runs the sink callbacks; the **closer** is whoever wins `_begin_close`, the
caller of `close` or the failing pump, and runs `_finish_close`. Both are program counters here,
one constructor for each point between two steps. A step is a critical section, or one read
or write of something another thread can reach.

`State.log` is a history variable: it records what happened and no step reads it.

The pump fails only in `receive` or at the entry of `route`: nothing in the callbacks raises.
-/

namespace Raknet

/-- What the history records. -/
inductive Event
  /-- `Router.route` took up a packet. -/
  | routed (packet : Packet)
  /-- A Connection entered `_connections`. -/
  | registered (c : ConnId)
  /-- `_Mailbox.put` accepted a payload. -/
  | put (c : ConnId) (data : Bytes)
  /-- `_Mailbox.put` rejected a payload. -/
  | rejected (c : ConnId) (data : Bytes)
  /-- A `recv` returned. -/
  | returned (c : ConnId) (data : Bytes)
  /-- A `recv` raised the mailbox's reason. -/
  | raised (c : ConnId) (exc : ConnectionClosed)
  /-- A connect entered its pending object into the table, under the address. -/
  | connectEntered (i : CallId) (address : SystemAddress)
  /-- A ping entered its pending object into the table. -/
  | pingEntered (i : CallId)
  /-- The pump popped a pending connect. -/
  | connectPopped (i : CallId)
  /-- The pump popped a pending ping. -/
  | pingPopped (i : CallId)
  /-- `event.set()` of a pending connect. -/
  | connectResolved (i : CallId)
  /-- `event.set()` of a pending ping. -/
  | pingResolved (i : CallId)
  /-- `_begin_close` set the flag and took the tables' contents. -/
  | beganClose (snap : Snapshot)
  /-- `_finish_close` put the sentinel. -/
  | sentinel
  /-- `raw.close_connection`. -/
  | rawClose (guid : Guid) (notify : Bool)
  /-- `raw.cancel_connection_attempt`. -/
  | rawCancel (address : SystemAddress)
deriving DecidableEq, Repr

/-- The pump's program counter. -/
inductive PumpPc
  /-- at `while not self._closed` -/
  | loop
  /-- in `self._raw.receive()` -/
  | receive
  /-- at `self._router.route(packet)` -/
  | route (packet : Packet)
  | incomingCreate (address : SystemAddress) (guid : Guid)
  | incomingRegister (guid : Guid) (c : ConnId)
  | incomingAccept (c : ConnId)
  | succeededPop (address : SystemAddress) (guid : Guid)
  | succeededCreate (i : CallId) (address : SystemAddress) (guid : Guid)
  | succeededRegister (i : CallId) (guid : Guid) (c : ConnId)
  | succeededAssign (i : CallId) (c : ConnId)
  | failedPop (address : SystemAddress) (reason : DefaultMessageIDTypes)
  | failedAssign (i : CallId) (reason : DefaultMessageIDTypes)
  | connectSet (i : CallId)
  | messageLookup (guid : Guid) (data : Bytes)
  | messagePut (c : ConnId) (data : Bytes)
  | overflowPop (c : ConnId)
  | overflowMark (c : ConnId)
  | overflowCheck (c : ConnId)
  | overflowRaw (c : ConnId)
  | overflowMailbox (c : ConnId)
  | disconnectedPop (guid : Guid) (graceful : Bool)
  | disconnectedMark (c : ConnId) (graceful : Bool)
  | disconnectedMailbox (c : ConnId) (graceful : Bool)
  | pongPop (address : SystemAddress) (guid : Guid) (data : Bytes)
  | pongAssign (i : CallId) (address : SystemAddress) (guid : Guid) (data : Bytes)
  | pingSet (i : CallId)
  /-- at the head of `_fail` -/
  | fail (detail : String)
  /-- `_fail` won `_begin_close`, the closer runs on this thread -/
  | failing
  | exited
deriving DecidableEq, Repr

namespace PumpPc

/-- Where a callback starts. -/
def enter : Option Callback → PumpPc
  | none => loop
  | some (.incomingConnection a g) => incomingCreate a g
  | some (.connectSucceeded a g) => succeededPop a g
  | some (.connectFailed a r) => failedPop a r
  | some (.message g d) => messageLookup g d
  | some (.disconnected g b) => disconnectedPop g b
  | some (.pong a g d) => pongPop a g d

/-- The Connection the pump has constructed and not yet registered. -/
def fresh? : PumpPc → Option ConnId
  | incomingRegister _ c | succeededRegister _ _ c => some c
  | _ => none

@[simp] theorem fresh?_enter (cb : Option Callback) : (enter cb).fresh? = none := by
  rcases cb with _ | ⟨_ | _⟩ <;> rfl

/-- The pump is between two packets, or gone. -/
def idle : PumpPc → Bool
  | loop | receive | exited => true
  | _ => false

end PumpPc

/-- The closer's program counter, with what is left of the snapshot. -/
inductive Teardown
  | unbegun
  /-- in `self._pump.join()` -/
  | joining (snap : Snapshot)
  /-- in `self._raw.shutdown(..)` -/
  | shutdown (exc : Option ConnectionClosed) (snap : Snapshot)
  /-- at the loop over `connections` -/
  | sweepConnections (exc : ConnectionClosed) (snap : Snapshot)
  | closeMailbox (exc : ConnectionClosed) (c : ConnId) (snap : Snapshot)
  /-- at the loop over `pending_connects` -/
  | sweepConnects (snap : Snapshot)
  | setConnect (i : CallId) (snap : Snapshot)
  /-- at the loop over `pending_pings` -/
  | sweepPings (snap : Snapshot)
  | putSentinel
  | done
  /-- an asyncio `close` was cancelled at an await point -/
  | cancelled (snap : Snapshot)
deriving DecidableEq, Repr

/-- The shared state of a Peer's threads. -/
structure State where
  peer : Peer
  pump : PumpPc
  teardown : Teardown
  clock : Int
  log : List Event

namespace State

/-- A Peer whose pump was just started. -/
def init (maxQueue : Option Nat) (clock : Int) : State :=
  ⟨.init maxQueue, .loop, .unbegun, clock, []⟩

/-- Move the pump. -/
@[simps, grind =] def goto (s : State) (pc : PumpPc) : State := { s with pump := pc }

/-- Move the closer. -/
@[simps, grind =] def close (s : State) (t : Teardown) : State := { s with teardown := t }

/-- Write the shared objects. -/
@[simps, grind =] def set (s : State) (p : Peer) : State := { s with peer := p }

/-- Record an event. -/
@[simps, grind =] def emit (s : State) (e : Event) : State := { s with log := s.log ++ [e] }

/-- `_begin_close` of an open Peer, by a closer that continues at `t`. -/
@[simps, grind =] def beginClose (s : State) (t : Snapshot → Teardown) : State :=
  { s with
    peer := s.peer.beginClose
    teardown := t s.peer.snapshot
    log := s.log ++ [.beganClose s.peer.snapshot] }

/-- The Connection has been handed out: constructed, and past its registration. -/
def published (s : State) (c : ConnId) : Bool :=
  decide (c < s.peer.created) && decide (s.pump.fresh? ≠ some c)

/-! ## The pump -/

/-- The reason `disconnected` stores. -/
def remoteReason (graceful : Bool) : ConnectionClosed :=
  if graceful then .ok "connection closed by remote" else .error "connection lost"

section

-- `SystemAddress.to_string(True)` is RakNet's.
variable (text : SystemAddress → String)

/-- `ConnectionClosedError(f"receive pump crashed:\n{detail}")`. -/
def crashed (detail : String) : ConnectionClosed := .error s!"receive pump crashed:\n{detail}"

/-- One step of the pump, outside `receive`. -/
def pumpStep (s : State) : Option State :=
  match s.pump with
  | .loop => some (s.goto (if s.peer.closed then .exited else .receive))
  | .receive => none
  | .route packet => some ((s.emit (.routed packet)).goto (.enter (route packet)))
  -- incoming_connection
  | .incomingCreate a g =>
    some ((s.set (s.peer.construct a g)).goto (.incomingRegister g s.peer.created))
  | .incomingRegister g c =>
    some (((s.set (s.peer.register g c)).emit (.registered c)).goto (.incomingAccept c))
  | .incomingAccept c => some ((s.set (s.peer.acceptPut (some c))).goto .loop)
  -- connect_succeeded
  | .succeededPop a g =>
    match s.peer.pendingConnects.get? (text a) with
    | none => some (s.goto .loop)
    | some i =>
      some (((s.set (s.peer.popConnect (text a))).emit (.connectPopped i)).goto
        (.succeededCreate i a g))
  | .succeededCreate i a g =>
    some ((s.set (s.peer.construct a g)).goto (.succeededRegister i g s.peer.created))
  | .succeededRegister i g c =>
    some (((s.set (s.peer.register g c)).emit (.registered c)).goto (.succeededAssign i c))
  | .succeededAssign i c => some ((s.set (s.peer.assignConnection i c)).goto (.connectSet i))
  -- connect_failed
  | .failedPop a r =>
    match s.peer.pendingConnects.get? (text a) with
    | none => some (s.goto .loop)
    | some i =>
      some (((s.set (s.peer.popConnect (text a))).emit (.connectPopped i)).goto (.failedAssign i r))
  | .failedAssign i r => some ((s.set (s.peer.assignReason i r)).goto (.connectSet i))
  | .connectSet i =>
    some (((s.set (s.peer.setConnectEvent i)).emit (.connectResolved i)).goto .loop)
  -- message
  | .messageLookup g d =>
    match s.peer.connections.get? g with
    | none => some (s.goto .loop)
    | some c => some (s.goto (.messagePut c d))
  | .messagePut c d =>
    match (s.peer.mailbox c).put d with
    | (true, m) => some (((s.set (s.peer.setMailbox c m)).emit (.put c d)).goto .loop)
    | (false, _) => some ((s.emit (.rejected c d)).goto (.overflowPop c))
  -- _overflow
  | .overflowPop c =>
    some ((s.set (s.peer.unregister (s.peer.connection c).rawGuid)).goto (.overflowMark c))
  | .overflowMark c => some ((s.set (s.peer.markClosed c)).goto (.overflowCheck c))
  | .overflowCheck c => some (s.goto (if s.peer.closed then .overflowMailbox c else .overflowRaw c))
  | .overflowRaw c =>
    some ((s.emit (.rawClose (s.peer.connection c).rawGuid true)).goto (.overflowMailbox c))
  | .overflowMailbox c =>
    some ((s.set (s.peer.closeMailbox c (.error "receive queue overflow"))).goto .loop)
  -- disconnected
  | .disconnectedPop g b =>
    match s.peer.connections.get? g with
    | none => some (s.goto .loop)
    | some c => some ((s.set (s.peer.unregister g)).goto (.disconnectedMark c b))
  | .disconnectedMark c b => some ((s.set (s.peer.markClosed c)).goto (.disconnectedMailbox c b))
  | .disconnectedMailbox c b =>
    some ((s.set (s.peer.closeMailbox c (remoteReason b))).goto .loop)
  -- pong
  | .pongPop a g d =>
    match s.peer.pendingPings.get? (text a) with
    | none => some (s.goto .loop)
    | some i =>
      some (((s.set (s.peer.popPing (text a))).emit (.pingPopped i)).goto (.pongAssign i a g d))
  | .pongAssign i a g d => some ((s.set (s.peer.assignPong i a g d s.clock)).goto (.pingSet i))
  | .pingSet i => some (((s.set (s.peer.setPingEvent i)).emit (.pingResolved i)).goto .loop)
  -- _fail
  | .fail detail =>
    if s.peer.closed then
      some (s.goto .exited)
    else
      some ((s.beginClose (.shutdown (some (crashed detail)))).goto .failing)
  | .failing => if s.teardown = .done then some (s.goto .exited) else none
  | .exited => none

/-- What `self._raw.receive()` does. -/
inductive Received
  | nothing
  | packet (p : Packet)
  | raises (detail : String)
deriving DecidableEq, Repr

/-- The pump's step out of `receive`. -/
def received (s : State) (r : Received) : Option State :=
  match s.pump, r with
  | .receive, .nothing => some (s.goto .loop)
  | .receive, .packet p => some (s.goto (.route p))
  | .receive, .raises detail => some (s.goto (.fail detail))
  | _, _ => none

/-- `route` raises at its entry. -/
def routeRaises (s : State) (detail : String) : Option State :=
  match s.pump with
  | .route _ => some (s.goto (.fail detail))
  | _ => none

/-! ## The closer -/

/-- One step of the closer, from the join of the pump to the end of `_finish_close`. `raw.shutdown`
returns: `int` and it take the `timeout` of the `close`. -/
def closerStep (s : State) : Option State :=
  match s.teardown with
  | .joining snap => if s.pump = .exited then some (s.close (.shutdown none snap)) else none
  | .shutdown exc snap => some (s.close (.sweepConnections (exc.getD (.ok "peer closed")) snap))
  | .sweepConnections exc snap =>
    match snap.connections with
    | [] => some (s.close (.sweepConnects snap))
    | c :: cs =>
      some
        ((s.set (s.peer.markClosed c)).close (.closeMailbox exc c { snap with connections := cs }))
  | .closeMailbox exc c snap =>
    some ((s.set (s.peer.closeMailbox c exc)).close (.sweepConnections exc snap))
  | .sweepConnects snap =>
    match snap.pendingConnects with
    | [] => some (s.close (.sweepPings snap))
    | i :: is =>
      some ((s.set (s.peer.assignReason i .connectionAttemptFailed)).close
        (.setConnect i { snap with pendingConnects := is }))
  | .setConnect i snap =>
    some
      (((s.set (s.peer.setConnectEvent i)).emit (.connectResolved i)).close (.sweepConnects snap))
  | .sweepPings snap =>
    match snap.pendingPings with
    | [] => some (s.close .putSentinel)
    | i :: is =>
      some (((s.set (s.peer.setPingEvent i)).emit (.pingResolved i)).close
        (.sweepPings { snap with pendingPings := is }))
  | .putSentinel => some (((s.set (s.peer.acceptPut none)).emit .sentinel).close .done)
  | .unbegun | .done | .cancelled _ => none

/-! ## Readers and the clock -/

/-- The moment a `Connection.recv` takes effect. A `recv` that finds nothing sleeps, and one that
times out changes nothing. -/
def recv (s : State) (c : ConnId) : Option State :=
  if s.published c then
    match (s.peer.mailbox c).get with
    | .item d m => some ((s.set (s.peer.setMailbox c m)).emit (.returned c d))
    | .raised exc => some (s.emit (.raised c exc))
    | .blocked => none
  else none

/-- Actions on the shared state that no call performs. -/
inductive Act
  | pump
  | received (r : Received)
  | routeRaises (detail : String)
  | closer
  | recv (c : ConnId)
  | tick (d : Nat)
deriving DecidableEq, Repr

/-- One action on the shared state. -/
def act : Act → State → Option State
  | .pump, s => s.pumpStep text
  | .received r, s => s.received r
  | .routeRaises detail, s => s.routeRaises detail
  | .closer, s => s.closerStep
  | .recv c, s => s.recv c
  | .tick d, s => some { s with clock := s.clock + d }

end

end State

end Raknet
