import Mathlib.Logic.Function.Basic
import Mathlib.Tactic.Simps.Basic
import Raknet.Lib.Dict
import Raknet.Router

/-!
# The objects of a Peer

The attributes that the threads of a Peer share: the `_closed` flag, the three tables, the
accept queue, and the objects the tables point to. Objects have identities. A `Connection` is
the `n`-th one the pump constructed; the pending object of a connect or ping call is identified
by the call, which constructs exactly one.

Every update here is one the source performs without interruption: a critical section under
`_lock` or `_cond`, or a single attribute write. The handlers built from them are in
`Raknet.Sink` (run to completion) and `Raknet.Pump` (step by step).
-/

namespace Raknet

/-- Identity of a `Connection` object. -/
abbrev ConnId := Nat

/-- Identity of a call, and of the pending object it constructs. -/
abbrev CallId := Nat

/-! ## Exceptions -/

/-- `ConnectionClosedOK` and `ConnectionClosedError`. -/
inductive ConnectionClosed
  | ok (text : String)
  | error (text : String)
deriving DecidableEq, Repr

/-- The results of `RakPeer.connect`, and what `_start_connect` reports when it cannot resolve. -/
inductive ConnectionAttemptResult
  | connectionAttemptStarted
  | invalidParameter
  | cannotResolveDomainName
  | alreadyConnectedToEndpoint
  | connectionAttemptAlreadyInProgress
  | securityInitializationFailed
deriving DecidableEq, Repr

/-! ## Mailboxes -/

/-- `_Mailbox`. -/
structure Mailbox where
  items : List Bytes
  exc : Option ConnectionClosed
  maxsize : Option Nat
deriving DecidableEq, Repr

namespace Mailbox

/-- The payload limit is reached. -/
def full (m : Mailbox) : Bool :=
  match m.maxsize with
  | none => false
  | some n => m.items.length ≥ n

/-- `_Mailbox.put`, when it is not `full`. -/
def append (m : Mailbox) (item : Bytes) : Mailbox := { m with items := m.items ++ [item] }

/-- `_Mailbox.put`: whether the item was accepted, and the mailbox afterwards. -/
def put (m : Mailbox) (item : Bytes) : Bool × Mailbox :=
  if m.full then (false, m) else (true, m.append item)

/-- `_Mailbox.close`: the first reason stays. -/
def close (m : Mailbox) (exc : ConnectionClosed) : Mailbox :=
  { m with exc := m.exc.or (some exc) }

/-- What `_Mailbox.get` finds when it looks. -/
inductive Got
  | item (data : Bytes) (rest : Mailbox)
  | raised (exc : ConnectionClosed)
  | blocked

/-- `_Mailbox.get`: payloads first, then the reason; otherwise it sleeps. -/
def get (m : Mailbox) : Got :=
  match m.items, m.exc with
  | item :: rest, _ => .item item { m with items := rest }
  | [], some exc => .raised exc
  | [], none => .blocked

@[simp, grind =] theorem append_items (m : Mailbox) (d : Bytes) :
    (m.append d).items = m.items ++ [d] := rfl
@[simp, grind =] theorem append_exc (m : Mailbox) (d : Bytes) : (m.append d).exc = m.exc := rfl
@[simp, grind =] theorem append_maxsize (m : Mailbox) (d : Bytes) :
    (m.append d).maxsize = m.maxsize := rfl
@[simp, grind =] theorem close_items (m : Mailbox) (e : ConnectionClosed) :
    (m.close e).items = m.items := rfl
@[simp, grind =] theorem close_maxsize (m : Mailbox) (e : ConnectionClosed) :
    (m.close e).maxsize = m.maxsize := rfl

@[simp, grind .] theorem close_exc_ne_none (m : Mailbox) (e : ConnectionClosed) :
    (m.close e).exc ≠ none := by
  simp only [close]
  cases m.exc <;> simp

/-- A reason that is set is never replaced. -/
theorem close_exc_of_some {m : Mailbox} {e e' : ConnectionClosed} (h : m.exc = some e) :
    (m.close e').exc = some e := by
  simp [close, h]

theorem get_eq_item {m r : Mailbox} {d : Bytes} (h : m.get = .item d r) :
    m.items = d :: r.items ∧ r.exc = m.exc ∧ r.maxsize = m.maxsize := by
  obtain ⟨items, exc, maxsize⟩ := m
  cases items <;> cases exc <;> simp_all [get]
  all_goals
    obtain ⟨rfl, rfl⟩ := h
    simp

theorem get_eq_raised {m : Mailbox} {e : ConnectionClosed} (h : m.get = .raised e) :
    m.items = [] ∧ m.exc = some e := by
  obtain ⟨items, exc, maxsize⟩ := m
  cases items <;> cases exc <;> simp_all [get]

/-- A mailbox with a reason never blocks its reader. -/
theorem get_ne_blocked {m : Mailbox} (h : m.exc ≠ none) : m.get ≠ .blocked := by
  obtain ⟨items, exc, maxsize⟩ := m
  cases items <;> cases exc <;> simp_all [get]

end Mailbox

/-! ## Connections and pending requests -/

/-- `Connection`. -/
structure Connection where
  rawAddress : SystemAddress
  rawGuid : Guid
  closed : Bool
  ownsPeer : Bool
  mailbox : Mailbox
deriving DecidableEq, Repr

namespace Connection

/-- `Connection.__init__`. -/
def new (maxQueue : Option Nat) (address : SystemAddress) (guid : Guid) : Connection where
  rawAddress := address
  rawGuid := guid
  closed := false
  ownsPeer := false
  mailbox := ⟨[], none, maxQueue⟩

/-- `connection._closed = True`. -/
@[simps, grind =] def markClosed (c : Connection) : Connection := { c with closed := true }

/-- `connection._owns_peer = True`. -/
@[simps, grind =] def own (c : Connection) : Connection := { c with ownsPeer := true }

/-- Replace the mailbox's contents. -/
@[simps, grind =] def setMailbox (c : Connection) (m : Mailbox) : Connection :=
  { c with mailbox := m }

@[simp, grind =] theorem new_rawGuid (q : Option Nat) (a : SystemAddress) (g : Guid) :
    (new q a g).rawGuid = g := rfl
@[simp, grind =] theorem new_closed (q : Option Nat) (a : SystemAddress) (g : Guid) :
    (new q a g).closed = false := rfl
@[simp, grind =] theorem new_exc (q : Option Nat) (a : SystemAddress) (g : Guid) :
    (new q a g).mailbox.exc = none := rfl
@[simp, grind =] theorem new_items (q : Option Nat) (a : SystemAddress) (g : Guid) :
    (new q a g).mailbox.items = [] := rfl

end Connection

instance : Inhabited Connection := ⟨Connection.new none ⟨"", 0⟩ 0⟩

/-- `_PendingConnect`. -/
structure PendingConnect where
  event : Bool
  connection : Option ConnId
  reason : Option DefaultMessageIDTypes
deriving DecidableEq, Repr

/-- `_PendingConnect.__init__`. -/
def PendingConnect.new : PendingConnect := ⟨false, none, none⟩

/-- `Pong`. -/
structure Pong where
  address : SystemAddress
  guid : Guid
  data : Bytes
  roundTripTime : Int
deriving DecidableEq, Repr

/-- `_PendingPing`. -/
structure PendingPing where
  event : Bool
  pong : Option Pong
  started : Int
deriving DecidableEq, Repr

/-- `_PendingPing.__init__`. -/
def PendingPing.new (now : Int) : PendingPing := ⟨false, none, now⟩

/-! ## The Peer -/

/-- The attributes of a Peer that its threads share, with the objects they point to. Objects
`0 .. created - 1` are the Connections constructed so far. -/
structure Peer where
  closed : Bool
  maxQueue : Option Nat
  connections : Dict Guid ConnId
  pendingConnects : Dict String CallId
  pendingPings : Dict String CallId
  acceptQueue : List (Option ConnId)
  created : Nat
  connection : ConnId → Connection
  pendingConnect : CallId → PendingConnect
  pendingPing : CallId → PendingPing

/-- What `_begin_close` takes out of the tables. -/
structure Snapshot where
  connections : List ConnId
  pendingConnects : List CallId
  pendingPings : List CallId
deriving DecidableEq, Repr

namespace Peer

/-- A Peer after `__init__`. -/
def init (maxQueue : Option Nat) : Peer where
  closed := false
  maxQueue := maxQueue
  connections := .empty
  pendingConnects := .empty
  pendingPings := .empty
  acceptQueue := []
  created := 0
  connection := fun _ => default
  pendingConnect := fun _ => .new
  pendingPing := fun _ => .new 0

/-! ### Critical sections and single writes -/

/-- `connection = self._connection_cls(self, address, guid)`. -/
@[simps -fullyApplied, grind =] def construct (p : Peer) (address : SystemAddress) (guid : Guid) :
    Peer :=
  { p with
    created := p.created + 1
    connection := Function.update p.connection p.created (.new p.maxQueue address guid) }

/-- `self._connections[guid.g] = connection`. -/
@[simps -fullyApplied, grind =] def register (p : Peer) (guid : Guid) (c : ConnId) : Peer :=
  { p with connections := p.connections.set guid c }

/-- `self._connections.pop(guid, None)`. -/
@[simps -fullyApplied, grind =] def unregister (p : Peer) (guid : Guid) : Peer :=
  { p with connections := p.connections.erase guid }

/-- `connection._closed = True`. -/
@[simps -fullyApplied, grind =] def markClosed (p : Peer) (c : ConnId) : Peer :=
  { p with connection := Function.update p.connection c (p.connection c).markClosed }

/-- `connection._owns_peer = True`. -/
@[simps -fullyApplied, grind =] def own (p : Peer) (c : ConnId) : Peer :=
  { p with connection := Function.update p.connection c (p.connection c).own }

/-- Replace the mailbox of a Connection. -/
@[simps -fullyApplied, grind =] def setMailbox (p : Peer) (c : ConnId) (m : Mailbox) : Peer :=
  { p with connection := Function.update p.connection c ((p.connection c).setMailbox m) }

/-- The mailbox of a Connection. -/
@[grind =] def mailbox (p : Peer) (c : ConnId) : Mailbox := (p.connection c).mailbox

/-- `connection._mailbox.close(exc)`. -/
@[simps! -fullyApplied, grind =] def closeMailbox (p : Peer) (c : ConnId) (exc : ConnectionClosed) :
    Peer :=
  p.setMailbox c ((p.mailbox c).close exc)

/-- `self._pending_connects[key] = pending`. -/
@[simps -fullyApplied, grind =] def registerConnect (p : Peer) (key : String) (i : CallId) : Peer :=
  { p with pendingConnects := p.pendingConnects.set key i }

/-- `self._pending_connects.pop(key, None)`. -/
@[simps -fullyApplied, grind =] def popConnect (p : Peer) (key : String) : Peer :=
  { p with pendingConnects := p.pendingConnects.erase key }

/-- Write a `_PendingConnect`. -/
@[simps -fullyApplied, grind =] def setPendingConnect (p : Peer) (i : CallId) (x : PendingConnect) :
    Peer :=
  { p with pendingConnect := Function.update p.pendingConnect i x }

/-- `pending.connection = connection`. -/
@[simps! -fullyApplied, grind =] def assignConnection (p : Peer) (i : CallId) (c : ConnId) : Peer :=
  p.setPendingConnect i { p.pendingConnect i with connection := some c }

/-- `pending.reason = reason`. -/
@[simps! -fullyApplied, grind =] def assignReason (p : Peer) (i : CallId)
    (reason : DefaultMessageIDTypes) : Peer :=
  p.setPendingConnect i { p.pendingConnect i with reason := some reason }

/-- `pending.event.set()` of a connect. -/
@[simps! -fullyApplied, grind =] def setConnectEvent (p : Peer) (i : CallId) : Peer :=
  p.setPendingConnect i { p.pendingConnect i with event := true }

/-- `self._pending_pings[key] = pending`. -/
@[simps -fullyApplied, grind =] def registerPing (p : Peer) (key : String) (i : CallId) : Peer :=
  { p with pendingPings := p.pendingPings.set key i }

/-- `self._pending_pings.pop(key, None)`. -/
@[simps -fullyApplied, grind =] def popPing (p : Peer) (key : String) : Peer :=
  { p with pendingPings := p.pendingPings.erase key }

/-- Write a `_PendingPing`. -/
@[simps -fullyApplied, grind =] def setPendingPing (p : Peer) (i : CallId) (x : PendingPing) :
    Peer :=
  { p with pendingPing := Function.update p.pendingPing i x }

/-- `pending.pong = Pong(...)`, at time `now`. -/
@[simps! -fullyApplied, grind =] def assignPong (p : Peer) (i : CallId) (address : SystemAddress)
    (guid : Guid) (data : Bytes)
    (now : Int) : Peer :=
  p.setPendingPing i { p.pendingPing i with
    pong := some ⟨address, guid, data, now - (p.pendingPing i).started⟩ }

/-- `pending.event.set()` of a ping. -/
@[simps! -fullyApplied, grind =] def setPingEvent (p : Peer) (i : CallId) : Peer :=
  p.setPendingPing i { p.pendingPing i with event := true }

/-- `self._accept_queue.put(item)`. -/
@[simps -fullyApplied, grind =] def acceptPut (p : Peer) (item : Option ConnId) : Peer :=
  { p with acceptQueue := p.acceptQueue ++ [item] }

/-- `self._accept_queue.get()`, when the queue is not empty. -/
@[simps -fullyApplied, grind =] def acceptPop (p : Peer) : Peer :=
  { p with acceptQueue := p.acceptQueue.tail }

section

variable (p : Peer) (k c : ConnId) (i j : CallId)

@[grind =] theorem construct_connection_apply (a : SystemAddress) (g : Guid) :
    (p.construct a g).connection c =
      if c = p.created then .new p.maxQueue a g else p.connection c := by
  simp [Function.update_apply]

@[grind =] theorem markClosed_connection_apply :
    (p.markClosed k).connection c =
      if c = k then (p.connection k).markClosed else p.connection c := by
  simp [Function.update_apply]

@[grind =] theorem own_connection_apply :
    (p.own k).connection c = if c = k then (p.connection k).own else p.connection c := by
  simp [Function.update_apply]

@[grind =] theorem setMailbox_connection_apply (m : Mailbox) :
    (p.setMailbox k m).connection c =
      if c = k then (p.connection k).setMailbox m else p.connection c := by
  simp [Function.update_apply]

@[grind =] theorem closeMailbox_connection_apply (e : ConnectionClosed) :
    (p.closeMailbox k e).connection c =
      if c = k then (p.connection k).setMailbox ((p.mailbox k).close e) else p.connection c := by
  simp [Function.update_apply]

@[grind =] theorem setPendingConnect_pendingConnect_apply (x : PendingConnect) :
    (p.setPendingConnect i x).pendingConnect j = if j = i then x else p.pendingConnect j := by
  simp [Function.update_apply]

@[grind =] theorem assignConnection_pendingConnect_apply :
    (p.assignConnection i c).pendingConnect j =
      if j = i then { p.pendingConnect i with connection := some c } else p.pendingConnect j := by
  simp [Function.update_apply]

@[grind =] theorem assignReason_pendingConnect_apply (r : DefaultMessageIDTypes) :
    (p.assignReason i r).pendingConnect j =
      if j = i then { p.pendingConnect i with reason := some r } else p.pendingConnect j := by
  simp [Function.update_apply]

@[grind =] theorem setConnectEvent_pendingConnect_apply :
    (p.setConnectEvent i).pendingConnect j =
      if j = i then { p.pendingConnect i with event := true } else p.pendingConnect j := by
  simp [Function.update_apply]

@[grind =] theorem setPendingPing_pendingPing_apply (x : PendingPing) :
    (p.setPendingPing i x).pendingPing j = if j = i then x else p.pendingPing j := by
  simp [Function.update_apply]

@[grind =] theorem assignPong_pendingPing_apply (a : SystemAddress) (g : Guid) (d : Bytes)
    (now : Int) :
    (p.assignPong i a g d now).pendingPing j =
      if j = i then
        { p.pendingPing i with pong := some ⟨a, g, d, now - (p.pendingPing i).started⟩ }
      else p.pendingPing j := by
  simp [Function.update_apply]

@[grind =] theorem setPingEvent_pendingPing_apply :
    (p.setPingEvent i).pendingPing j =
      if j = i then { p.pendingPing i with event := true } else p.pendingPing j := by
  simp [Function.update_apply]

end

/-- The lists `_begin_close` returns. -/
def snapshot (p : Peer) : Snapshot :=
  ⟨p.connections.values, p.pendingConnects.values, p.pendingPings.values⟩

/-- `_begin_close`, when the Peer is open: set the flag and empty the tables. -/
@[simps -fullyApplied, grind =] def beginClose (p : Peer) : Peer :=
  { p with
    closed := true
    connections := .empty
    pendingConnects := .empty
    pendingPings := .empty }

end Peer

end Raknet
