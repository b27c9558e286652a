import Raknet.Pump

/-!
# What the shared actions do

**Theorem (`act_effect`).** A step of the pump, of the closer, of a reader or of the clock changes
the state in one of the ways `ActEffect` lists, each with the program counter it happens at. The
invariants of the later modules are derived from this list and do not look into the step
functions again.
-/

namespace Raknet

variable {text : SystemAddress → String}

/-- The callback's critical section finds no entry to work on. -/
def PumpPc.DropsIn (text : SystemAddress → String) (p : Peer) : PumpPc → Prop
  | succeededPop a _ | failedPop a _ => p.pendingConnects.get? (text a) = none
  | messageLookup g _ | disconnectedPop g _ => p.connections.get? g = none
  | pongPop a _ _ => p.pendingPings.get? (text a) = none
  | _ => False

/-- What an action on the shared state may do, and from which program counters. -/
inductive ActEffect (text : SystemAddress → String) (s : State) : State.Act → State → Prop
  -- the loop
  | leave (h : s.pump = .loop) (hclosed : s.peer.closed = true) :
      ActEffect text s .pump (s.goto .exited)
  | poll (h : s.pump = .loop) (hopen : s.peer.closed = false) :
      ActEffect text s .pump (s.goto .receive)
  | receivedNothing (h : s.pump = .receive) :
      ActEffect text s (.received .nothing) (s.goto .loop)
  | receivedPacket (p : Packet) (h : s.pump = .receive) :
      ActEffect text s (.received (.packet p)) (s.goto (.route p))
  | receiveRaises (detail : String) (h : s.pump = .receive) :
      ActEffect text s (.received (.raises detail)) (s.goto (.fail detail))
  | routeRaises (detail : String) (p : Packet) (h : s.pump = .route p) :
      ActEffect text s (.routeRaises detail) (s.goto (.fail detail))
  | route (p : Packet) (h : s.pump = .route p) :
      ActEffect text s .pump ((s.emit (.routed p)).goto (.enter (route p)))
  /-- The callback finds no entry. -/
  | drop (h : s.pump.DropsIn text s.peer) : ActEffect text s .pump (s.goto .loop)
  -- incoming_connection
  | incomingCreate (a : SystemAddress) (g : Guid) (h : s.pump = .incomingCreate a g) :
      ActEffect text s .pump
        ((s.set (s.peer.construct a g)).goto (.incomingRegister g s.peer.created))
  | incomingRegister (g : Guid) (c : ConnId) (h : s.pump = .incomingRegister g c) :
      ActEffect text s .pump
        (((s.set (s.peer.register g c)).emit (.registered c)).goto (.incomingAccept c))
  | incomingAccept (c : ConnId) (h : s.pump = .incomingAccept c) :
      ActEffect text s .pump ((s.set (s.peer.acceptPut (some c))).goto .loop)
  -- connect_succeeded
  | succeededPop (i : CallId) (a : SystemAddress) (g : Guid) (h : s.pump = .succeededPop a g)
      (hget : s.peer.pendingConnects.get? (text a) = some i) :
      ActEffect text s .pump
        (((s.set (s.peer.popConnect (text a))).emit (.connectPopped i)).goto
          (.succeededCreate i a g))
  | succeededCreate (i : CallId) (a : SystemAddress) (g : Guid)
      (h : s.pump = .succeededCreate i a g) :
      ActEffect text s .pump
        ((s.set (s.peer.construct a g)).goto (.succeededRegister i g s.peer.created))
  | succeededRegister (i : CallId) (g : Guid) (c : ConnId) (h : s.pump = .succeededRegister i g c) :
      ActEffect text s .pump
        (((s.set (s.peer.register g c)).emit (.registered c)).goto (.succeededAssign i c))
  | succeededAssign (i : CallId) (c : ConnId) (h : s.pump = .succeededAssign i c) :
      ActEffect text s .pump ((s.set (s.peer.assignConnection i c)).goto (.connectSet i))
  -- connect_failed
  | failedPop (i : CallId) (a : SystemAddress) (r : DefaultMessageIDTypes)
      (h : s.pump = .failedPop a r) (hget : s.peer.pendingConnects.get? (text a) = some i) :
      ActEffect text s .pump
        (((s.set (s.peer.popConnect (text a))).emit (.connectPopped i)).goto (.failedAssign i r))
  | failedAssign (i : CallId) (r : DefaultMessageIDTypes) (h : s.pump = .failedAssign i r) :
      ActEffect text s .pump ((s.set (s.peer.assignReason i r)).goto (.connectSet i))
  | connectSet (i : CallId) (h : s.pump = .connectSet i) :
      ActEffect text s .pump
        (((s.set (s.peer.setConnectEvent i)).emit (.connectResolved i)).goto .loop)
  -- message
  | messageLookup (g : Guid) (d : Bytes) (c : ConnId) (h : s.pump = .messageLookup g d)
      (hget : s.peer.connections.get? g = some c) :
      ActEffect text s .pump (s.goto (.messagePut c d))
  | messagePut (c : ConnId) (d : Bytes) (h : s.pump = .messagePut c d)
      (hroom : (s.peer.mailbox c).full = false) :
      ActEffect text s .pump
        (((s.set (s.peer.setMailbox c ((s.peer.mailbox c).append d))).emit (.put c d)).goto .loop)
  | messageReject (c : ConnId) (d : Bytes) (h : s.pump = .messagePut c d)
      (hfull : (s.peer.mailbox c).full = true) :
      ActEffect text s .pump ((s.emit (.rejected c d)).goto (.overflowPop c))
  -- _overflow
  | overflowPop (c : ConnId) (h : s.pump = .overflowPop c) :
      ActEffect text s .pump
        ((s.set (s.peer.unregister (s.peer.connection c).rawGuid)).goto (.overflowMark c))
  | overflowMark (c : ConnId) (h : s.pump = .overflowMark c) :
      ActEffect text s .pump ((s.set (s.peer.markClosed c)).goto (.overflowCheck c))
  | overflowSkip (c : ConnId) (h : s.pump = .overflowCheck c) (hclosed : s.peer.closed = true) :
      ActEffect text s .pump (s.goto (.overflowMailbox c))
  | overflowCheck (c : ConnId) (h : s.pump = .overflowCheck c) (hopen : s.peer.closed = false) :
      ActEffect text s .pump (s.goto (.overflowRaw c))
  | overflowRaw (c : ConnId) (h : s.pump = .overflowRaw c) :
      ActEffect text s .pump
        ((s.emit (.rawClose (s.peer.connection c).rawGuid true)).goto (.overflowMailbox c))
  | overflowMailbox (c : ConnId) (h : s.pump = .overflowMailbox c) :
      ActEffect text s .pump
        ((s.set (s.peer.closeMailbox c (.error "receive queue overflow"))).goto .loop)
  -- disconnected
  | disconnectedPop (g : Guid) (b : Bool) (c : ConnId) (h : s.pump = .disconnectedPop g b)
      (hget : s.peer.connections.get? g = some c) :
      ActEffect text s .pump ((s.set (s.peer.unregister g)).goto (.disconnectedMark c b))
  | disconnectedMark (c : ConnId) (b : Bool) (h : s.pump = .disconnectedMark c b) :
      ActEffect text s .pump ((s.set (s.peer.markClosed c)).goto (.disconnectedMailbox c b))
  | disconnectedMailbox (c : ConnId) (b : Bool) (h : s.pump = .disconnectedMailbox c b) :
      ActEffect text s .pump
        ((s.set (s.peer.closeMailbox c (State.remoteReason b))).goto .loop)
  -- pong
  | pongPop (i : CallId) (a : SystemAddress) (g : Guid) (d : Bytes) (h : s.pump = .pongPop a g d)
      (hget : s.peer.pendingPings.get? (text a) = some i) :
      ActEffect text s .pump
        (((s.set (s.peer.popPing (text a))).emit (.pingPopped i)).goto (.pongAssign i a g d))
  | pongAssign (i : CallId) (a : SystemAddress) (g : Guid) (d : Bytes)
      (h : s.pump = .pongAssign i a g d) :
      ActEffect text s .pump ((s.set (s.peer.assignPong i a g d s.clock)).goto (.pingSet i))
  | pingSet (i : CallId) (h : s.pump = .pingSet i) :
      ActEffect text s .pump (((s.set (s.peer.setPingEvent i)).emit (.pingResolved i)).goto .loop)
  -- _fail
  | failLost (detail : String) (h : s.pump = .fail detail) (hclosed : s.peer.closed = true) :
      ActEffect text s .pump (s.goto .exited)
  | fail (detail : String) (h : s.pump = .fail detail) (hopen : s.peer.closed = false) :
      ActEffect text s .pump
        ((s.beginClose (.shutdown (some (State.crashed detail)))).goto .failing)
  | failed (h : s.pump = .failing) (hdone : s.teardown = .done) :
      ActEffect text s .pump (s.goto .exited)
  -- the closer
  | join (snap : Snapshot) (h : s.teardown = .joining snap) (hpump : s.pump = .exited) :
      ActEffect text s .closer (s.close (.shutdown none snap))
  | shutdown (exc : Option ConnectionClosed) (snap : Snapshot)
      (h : s.teardown = .shutdown exc snap) :
      ActEffect text s .closer
        (s.close (.sweepConnections (exc.getD (.ok "peer closed")) snap))
  | sweptConnections (exc : ConnectionClosed) (snap : Snapshot)
      (h : s.teardown = .sweepConnections exc snap) (hnil : snap.connections = []) :
      ActEffect text s .closer (s.close (.sweepConnects snap))
  | sweepConnection (exc : ConnectionClosed) (snap : Snapshot) (c : ConnId) (cs : List ConnId)
      (h : s.teardown = .sweepConnections exc snap) (hcons : snap.connections = c :: cs) :
      ActEffect text s .closer
        ((s.set (s.peer.markClosed c)).close (.closeMailbox exc c { snap with connections := cs }))
  | closeMailbox (exc : ConnectionClosed) (c : ConnId) (snap : Snapshot)
      (h : s.teardown = .closeMailbox exc c snap) :
      ActEffect text s .closer
        ((s.set (s.peer.closeMailbox c exc)).close (.sweepConnections exc snap))
  | sweptConnects (snap : Snapshot) (h : s.teardown = .sweepConnects snap)
      (hnil : snap.pendingConnects = []) : ActEffect text s .closer (s.close (.sweepPings snap))
  | sweepConnect (snap : Snapshot) (i : CallId) (is : List CallId)
      (h : s.teardown = .sweepConnects snap) (hcons : snap.pendingConnects = i :: is) :
      ActEffect text s .closer
        ((s.set (s.peer.assignReason i .connectionAttemptFailed)).close
          (.setConnect i { snap with pendingConnects := is }))
  | setConnect (i : CallId) (snap : Snapshot) (h : s.teardown = .setConnect i snap) :
      ActEffect text s .closer
        (((s.set (s.peer.setConnectEvent i)).emit (.connectResolved i)).close (.sweepConnects snap))
  | sweptPings (snap : Snapshot) (h : s.teardown = .sweepPings snap)
      (hnil : snap.pendingPings = []) : ActEffect text s .closer (s.close .putSentinel)
  | sweepPing (snap : Snapshot) (i : CallId) (is : List CallId)
      (h : s.teardown = .sweepPings snap) (hcons : snap.pendingPings = i :: is) :
      ActEffect text s .closer
        (((s.set (s.peer.setPingEvent i)).emit (.pingResolved i)).close
          (.sweepPings { snap with pendingPings := is }))
  | putSentinel (h : s.teardown = .putSentinel) :
      ActEffect text s .closer (((s.set (s.peer.acceptPut none)).emit .sentinel).close .done)
  -- readers and the clock
  | recvItem (c : ConnId) (d : Bytes) (m : Mailbox) (hpub : s.published c = true)
      (hget : (s.peer.mailbox c).get = .item d m) :
      ActEffect text s (.recv c) ((s.set (s.peer.setMailbox c m)).emit (.returned c d))
  | recvRaises (c : ConnId) (exc : ConnectionClosed) (hpub : s.published c = true)
      (hget : (s.peer.mailbox c).get = .raised exc) :
      ActEffect text s (.recv c) (s.emit (.raised c exc))
  | tick (d : Nat) : ActEffect text s (.tick d) { s with clock := s.clock + d }

theorem pumpStep_effect {s s' : State} (h : s.pumpStep text = some s') :
    ActEffect text s .pump s' := by
  cases hp : s.pump
  all_goals simp only [State.pumpStep, hp, Option.some.injEq, reduceCtorEq] at h
  case loop =>
    subst h
    split_ifs with hc
    · exact .leave hp hc
    · exact .poll hp (by simpa using hc)
  case route p => subst h; exact .route p hp
  case incomingCreate a g => subst h; exact .incomingCreate a g hp
  case incomingRegister g c => subst h; exact .incomingRegister g c hp
  case incomingAccept c => subst h; exact .incomingAccept c hp
  case succeededPop a g =>
    split at h <;> cases h
    · next hget => exact .drop (by rw [hp]; exact hget)
    · next i hget => exact .succeededPop i a g hp hget
  case succeededCreate i a g => subst h; exact .succeededCreate i a g hp
  case succeededRegister i g c => subst h; exact .succeededRegister i g c hp
  case succeededAssign i c => subst h; exact .succeededAssign i c hp
  case failedPop a r =>
    split at h <;> cases h
    · next hget => exact .drop (by rw [hp]; exact hget)
    · next i hget => exact .failedPop i a r hp hget
  case failedAssign i r => subst h; exact .failedAssign i r hp
  case connectSet i => subst h; exact .connectSet i hp
  case messageLookup g d =>
    split at h <;> cases h
    · next hget => exact .drop (by rw [hp]; exact hget)
    · next c hget => exact .messageLookup g d c hp hget
  case messagePut c d =>
    unfold Mailbox.put at h
    split_ifs at h with hfull <;> cases h
    · exact .messageReject c d hp hfull
    · exact .messagePut c d hp (by simpa using hfull)
  case overflowPop c => subst h; exact .overflowPop c hp
  case overflowMark c => subst h; exact .overflowMark c hp
  case overflowCheck c =>
    subst h
    split_ifs with hc
    · exact .overflowSkip c hp hc
    · exact .overflowCheck c hp (by simpa using hc)
  case overflowRaw c => subst h; exact .overflowRaw c hp
  case overflowMailbox c => subst h; exact .overflowMailbox c hp
  case disconnectedPop g b =>
    split at h <;> cases h
    · next hget => exact .drop (by rw [hp]; exact hget)
    · next c hget => exact .disconnectedPop g b c hp hget
  case disconnectedMark c b => subst h; exact .disconnectedMark c b hp
  case disconnectedMailbox c b => subst h; exact .disconnectedMailbox c b hp
  case pongPop a g d =>
    split at h <;> cases h
    · next hget => exact .drop (by rw [hp]; exact hget)
    · next i hget => exact .pongPop i a g d hp hget
  case pongAssign i a g d => subst h; exact .pongAssign i a g d hp
  case pingSet i => subst h; exact .pingSet i hp
  case fail detail =>
    split_ifs at h with hc <;> cases h
    · exact .failLost detail hp hc
    · exact .fail detail hp (by simpa using hc)
  case failing =>
    split_ifs at h with hc
    cases h
    exact .failed hp hc

theorem closerStep_effect {s s' : State} (h : s.closerStep = some s') :
    ActEffect text s .closer s' := by
  cases ht : s.teardown
  all_goals simp only [State.closerStep, ht, reduceCtorEq] at h
  case joining snap =>
    split_ifs at h with hp
    cases h
    exact .join snap ht hp
  case shutdown exc snap => cases h; exact .shutdown exc snap ht
  case sweepConnections exc snap =>
    split at h <;> cases h
    · next hnil => exact .sweptConnections exc snap ht hnil
    · next c cs hcons => exact .sweepConnection exc snap c cs ht hcons
  case closeMailbox exc c snap => cases h; exact .closeMailbox exc c snap ht
  case sweepConnects snap =>
    split at h <;> cases h
    · next hnil => exact .sweptConnects snap ht hnil
    · next i is hcons => exact .sweepConnect snap i is ht hcons
  case setConnect i snap => cases h; exact .setConnect i snap ht
  case sweepPings snap =>
    split at h <;> cases h
    · next hnil => exact .sweptPings snap ht hnil
    · next i is hcons => exact .sweepPing snap i is ht hcons
  case putSentinel => cases h; exact .putSentinel ht

theorem act_effect {s s' : State} {e : State.Act} (h : State.act text e s = some s') :
    ActEffect text s e s' := by
  cases e with
  | pump => exact pumpStep_effect h
  | closer => exact closerStep_effect h
  | received r =>
    cases hp : s.pump <;> cases r <;> simp only [State.act, State.received, hp, reduceCtorEq] at h
    all_goals cases h
    · exact .receivedNothing hp
    · exact .receivedPacket _ hp
    · exact .receiveRaises _ hp
  | routeRaises detail =>
    cases hp : s.pump <;> simp only [State.act, State.routeRaises, hp, reduceCtorEq] at h
    cases h
    exact .routeRaises detail _ hp
  | recv c =>
    simp only [State.act, State.recv] at h
    split_ifs at h with hpub
    split at h <;> cases h
    · next d m hget => exact .recvItem c d m hpub hget
    · next exc hget => exact .recvRaises c exc hpub hget
  | tick d => cases h; exact .tick d

/-- Only `create_connection` hands the Peer over. -/
theorem ActEffect.ownsPeer {s s' : State} {e : State.Act} (h : ActEffect text s e s') (k : ConnId)
    (hk : (s'.peer.connection k).ownsPeer = true) : (s.peer.connection k).ownsPeer = true := by
  cases h <;> first | exact hk | grind [Connection.new]

end Raknet
