import Raknet.Calls

/-!
# The handlers, run to completion

The sink callbacks, `recv` and `close` as functions of the Peer, for runs in which one operation
follows the other. `Raknet.Pump` has the same callbacks step by step.

**Theorem (`pump_routed`).** A pump that takes all its steps with a packet, undisturbed, does to the
Peer what `Peer.routed` does.

**Theorem (`close_alone`).** A `Connection.close` that takes all its steps, with nobody but the
closer and the exiting pump beside it, does to the Peer what `Peer.connectionClose` does.
-/

namespace Raknet

namespace Peer

/-! ## Closing -/

/-- `_finish_close`. -/
def finishClose (p : Peer) (snap : Snapshot) (exc : ConnectionClosed) : Peer :=
  let p := snap.connections.foldl (fun p c => (p.markClosed c).closeMailbox c exc) p
  let p := snap.pendingConnects.foldl
    (fun p i => (p.assignReason i .connectionAttemptFailed).setConnectEvent i) p
  let p := snap.pendingPings.foldl (fun p i => p.setPingEvent i) p
  p.acceptPut none

/-- `Peer.close`. -/
def close (p : Peer) : Peer :=
  if p.closed then p else p.beginClose.finishClose p.snapshot (.ok "peer closed")

/-- `_close_connection`. -/
def closeConnection (p : Peer) (c : ConnId) : Peer :=
  ((p.unregister (p.connection c).rawGuid).markClosed c).closeMailbox c (.ok "connection closed")

/-! ## The sink callbacks -/

section

variable (text : SystemAddress → String) (p : Peer)

/-- `incoming_connection`. -/
def incomingConnection (address : SystemAddress) (guid : Guid) : Peer :=
  let c := p.created
  ((p.construct address guid).register guid c).acceptPut (some c)

/-- `connect_succeeded`. -/
def connectSucceeded (address : SystemAddress) (guid : Guid) : Peer :=
  match p.pendingConnects.get? (text address) with
  | none => p
  | some i =>
    let c := p.created
    (((((p.popConnect (text address)).construct address guid).register guid c).assignConnection i c)
      |>.setConnectEvent i)

/-- `connect_failed`. -/
def connectFailed (address : SystemAddress) (reason : DefaultMessageIDTypes) : Peer :=
  match p.pendingConnects.get? (text address) with
  | none => p
  | some i => ((p.popConnect (text address)).assignReason i reason).setConnectEvent i

/-- `_overflow`. -/
def overflow (c : ConnId) : Peer :=
  ((p.unregister (p.connection c).rawGuid).markClosed c).closeMailbox c
    (.error "receive queue overflow")

/-- `message`. -/
def message (guid : Guid) (data : Bytes) : Peer :=
  match p.connections.get? guid with
  | none => p
  | some c =>
    match (p.mailbox c).put data with
    | (true, m) => p.setMailbox c m
    | (false, _) => p.overflow c

/-- `disconnected`. -/
def disconnected (guid : Guid) (graceful : Bool) : Peer :=
  match p.connections.get? guid with
  | none => p
  | some c =>
    ((p.unregister guid).markClosed c).closeMailbox c (State.remoteReason graceful)

/-- `pong`, at time `now`. -/
def pong (address : SystemAddress) (guid : Guid) (data : Bytes) (now : Int) : Peer :=
  match p.pendingPings.get? (text address) with
  | none => p
  | some i => ((p.popPing (text address)).assignPong i address guid data now).setPingEvent i

/-- The callback of the sink, at time `now`. -/
def callback (now : Int) : Callback → Peer
  | .incomingConnection a g => p.incomingConnection a g
  | .connectSucceeded a g => p.connectSucceeded text a g
  | .connectFailed a r => p.connectFailed text a r
  | .message g d => p.message g d
  | .disconnected g b => p.disconnected g b
  | .pong a g d => p.pong text a g d now

/-- `Router.route`, with the Peer as its sink. -/
def routed (now : Int) (packet : Packet) : Peer :=
  match route packet with
  | none => p
  | some cb => p.callback text now cb

end

/-! ## Calls on a Connection -/

/-- `Connection.close`. -/
def connectionClose (p : Peer) (c : ConnId) : Peer :=
  let p := if (p.connection c).closed then p else p.closeConnection c
  if (p.connection c).ownsPeer then p.close else p

/-- How a `recv` ends. -/
inductive Recv
  | returned (data : Bytes)
  | raised (exc : ConnectionClosed)
  | timedOut
deriving DecidableEq, Repr

/-- `Connection.recv`: how it ends when nobody else acts, and the Peer afterwards. -/
def recv (p : Peer) (c : ConnId) : Recv × Peer :=
  match (p.mailbox c).get with
  | .item d m => (.returned d, p.setMailbox c m)
  | .raised exc => (.raised exc, p)
  | .blocked => (.timedOut, p)

end Peer

/-! ## The pump, undisturbed -/

variable {text : SystemAddress → String} {s s' : State}

/-- The pump takes steps, and nobody else. -/
inductive Pumps (text : SystemAddress → String) (s : State) : State → Prop
  | refl : Pumps text s s
  | step {s₁ s₂ : State} : Pumps text s s₁ → s₁.pumpStep text = some s₂ → Pumps text s s₂

theorem Pumps.head {s₁ : State} (h : s.pumpStep text = some s₁) (h' : Pumps text s₁ s') :
    Pumps text s s' := by
  induction h' with
  | refl => exact .step .refl h
  | step _ hs ih => exact .step ih hs

theorem pump_callback (cb : Callback) (h : s.pump = .enter (some cb)) :
    ∃ s', Pumps text s s' ∧ s'.pump = .loop ∧ s'.peer = s.peer.callback text s.clock cb := by
  obtain ⟨peer, pump, teardown, clock, log⟩ := s
  cases h
  cases cb with
  | incomingConnection a g => exact ⟨_, .head rfl (.head rfl (.head rfl .refl)), rfl, rfl⟩
  | connectSucceeded a g =>
    cases hget : peer.pendingConnects.get? (text a) with
    | none =>
      refine ⟨_, .head (by simp only [State.pumpStep, hget]; rfl) .refl, rfl, ?_⟩
      simp only [Peer.callback, Peer.connectSucceeded, hget]
      rfl
    | some i =>
      refine ⟨_, .head (by simp only [State.pumpStep, hget]; rfl)
        (.head rfl (.head rfl (.head rfl (.head rfl .refl)))), rfl, ?_⟩
      simp only [Peer.callback, Peer.connectSucceeded, hget]
      rfl
  | connectFailed a r =>
    cases hget : peer.pendingConnects.get? (text a) with
    | none =>
      refine ⟨_, .head (by simp only [State.pumpStep, hget]; rfl) .refl, rfl, ?_⟩
      simp only [Peer.callback, Peer.connectFailed, hget]
      rfl
    | some i =>
      refine ⟨_, .head (by simp only [State.pumpStep, hget]; rfl)
        (.head rfl (.head rfl .refl)), rfl, ?_⟩
      simp only [Peer.callback, Peer.connectFailed, hget]
      rfl
  | message g d =>
    cases hget : peer.connections.get? g with
    | none =>
      refine ⟨_, .head (by simp only [State.pumpStep, hget]; rfl) .refl, rfl, ?_⟩
      simp only [Peer.callback, Peer.message, hget]
      rfl
    | some c =>
      rcases hput : (peer.mailbox c).put d with ⟨_ | _, m⟩
      · cases hclosed : peer.closed
        · refine ⟨_, .head (by simp only [State.pumpStep, hget]; rfl)
            (.head (by simp only [State.pumpStep, State.goto, hput]; rfl) (.head rfl (.head rfl
              (.head (by simp [State.pumpStep, hclosed]; rfl) (.head rfl (.head rfl .refl)))))),
                rfl, ?_⟩
          simp only [Peer.callback, Peer.message, hget, hput]
          rfl
        · refine ⟨_, .head (by simp only [State.pumpStep, hget]; rfl)
            (.head (by simp only [State.pumpStep, State.goto, hput]; rfl) (.head rfl (.head rfl
              (.head (by simp [State.pumpStep, hclosed]; rfl) (.head rfl .refl))))), rfl, ?_⟩
          simp only [Peer.callback, Peer.message, hget, hput]
          rfl
      · refine ⟨_, .head (by simp only [State.pumpStep, hget]; rfl)
          (.head (by simp only [State.pumpStep, State.goto, hput]; rfl) .refl), rfl, ?_⟩
        simp only [Peer.callback, Peer.message, hget, hput]
        rfl
  | disconnected g b =>
    cases hget : peer.connections.get? g with
    | none =>
      refine ⟨_, .head (by simp only [State.pumpStep, hget]; rfl) .refl, rfl, ?_⟩
      simp only [Peer.callback, Peer.disconnected, hget]
      rfl
    | some c =>
      refine ⟨_, .head (by simp only [State.pumpStep, hget]; rfl)
        (.head rfl (.head rfl .refl)), rfl, ?_⟩
      simp only [Peer.callback, Peer.disconnected, hget]
      rfl
  | pong a g d =>
    cases hget : peer.pendingPings.get? (text a) with
    | none =>
      refine ⟨_, .head (by simp only [State.pumpStep, hget]; rfl) .refl, rfl, ?_⟩
      simp only [Peer.callback, Peer.pong, hget]
      rfl
    | some i =>
      refine ⟨_, .head (by simp only [State.pumpStep, hget]; rfl)
        (.head rfl (.head rfl .refl)), rfl, ?_⟩
      simp only [Peer.callback, Peer.pong, hget]
      rfl

/-- **The pump's steps make up the handler.** A pump that takes all its steps with a packet,
undisturbed, does to the Peer what `Peer.routed` does. -/
theorem pump_routed {p : Packet} (h : s.pump = .route p) :
    ∃ s', Pumps text s s' ∧ s'.pump = .loop ∧ s'.peer = s.peer.routed text s.clock p := by
  have hstep : s.pumpStep text = some ((s.emit (.routed p)).goto (.enter (route p))) := by
    simp only [State.pumpStep, h]
  rw [Peer.routed]
  cases hr : route p with
  | none =>
    rw [hr] at hstep
    exact ⟨_, .head hstep .refl, rfl, rfl⟩
  | some cb =>
    rw [hr] at hstep
    obtain ⟨s', hs', hloop, hpeer⟩ :=
      pump_callback (s := (s.emit (.routed p)).goto (.enter (some cb))) cb rfl
    exact ⟨s', .head hstep hs', hloop, hpeer⟩

/-! ## The calls, undisturbed -/

/-- The moment a `recv` takes effect. -/
theorem recv_alone {c : ConnId} (hpub : s.published c = true) :
    s.recv c = match s.peer.recv c with
      | (.returned d, p) => some ((s.set p).emit (.returned c d))
      | (.raised exc, p) => some ((s.set p).emit (.raised c exc))
      | (.timedOut, _) => none := by
  simp only [State.recv, hpub, if_true, Peer.recv]
  cases (s.peer.mailbox c).get <;> rfl

variable {π ρ : Type} {step : State → π → Option (State × Next π ρ)}

/-- A call takes steps, the closer and the pump beside it, and nobody else. -/
inductive Alone (text : SystemAddress → String) (step : State → π → Option (State × Next π ρ)) :
    State → Next π ρ → State → Next π ρ → Prop
  | refl {s : State} {n : Next π ρ} : Alone text step s n s n
  | call {s s₁ s' : State} {pc : π} {n n' : Next π ρ} :
      step s pc = some (s₁, n) → Alone text step s₁ n s' n' → Alone text step s (.pc pc) s' n'
  | closer {s s₁ s' : State} {n n' : Next π ρ} :
      s.closerStep = some s₁ → Alone text step s₁ n s' n' → Alone text step s n s' n'
  | pump {s s₁ s' : State} {n n' : Next π ρ} :
      s.pumpStep text = some s₁ → Alone text step s₁ n s' n' → Alone text step s n s' n'

theorem Alone.trans {s₁ s₂ s₃ : State} {n₁ n₂ n₃ : Next π ρ} (h : Alone text step s₁ n₁ s₂ n₂)
    (h' : Alone text step s₂ n₂ s₃ n₃) : Alone text step s₁ n₁ s₃ n₃ := by
  induction h with
  | refl => exact h'
  | call hs _ ih => exact .call hs (ih h')
  | closer hs _ ih => exact .closer hs (ih h')
  | pump hs _ ih => exact .pump hs (ih h')

section

variable (text step) (n : Next π ρ)

theorem sweepConnections_alone {cs : List ConnId} {is js : List CallId} {exc : ConnectionClosed}
    (h : s.teardown = .sweepConnections exc ⟨cs, is, js⟩) :
    ∃ s', Alone text step s n s' n ∧ s'.teardown = .sweepConnects ⟨[], is, js⟩ ∧
      s'.peer = cs.foldl (fun p c => (p.markClosed c).closeMailbox c exc) s.peer := by
  induction cs generalizing s with
  | nil =>
    exact ⟨s.close (.sweepConnects ⟨[], is, js⟩),
      .closer (by simp only [State.closerStep, h]) .refl,
      rfl, rfl⟩
  | cons c cs ih =>
    obtain ⟨s', hs', hdone, hpeer⟩ :=
      ih (s := ((s.set (s.peer.markClosed c)).set ((s.peer.markClosed c).closeMailbox c exc)).close
        (.sweepConnections exc ⟨cs, is, js⟩)) rfl
    exact ⟨s', .closer (by simp only [State.closerStep, h]; rfl) (.closer rfl hs'), hdone, hpeer⟩

theorem sweepConnects_alone {is js : List CallId}
    (h : s.teardown = .sweepConnects ⟨[], is, js⟩) :
    ∃ s', Alone text step s n s' n ∧ s'.teardown = .sweepPings ⟨[], [], js⟩ ∧
      s'.peer = is.foldl
        (fun p i => (p.assignReason i .connectionAttemptFailed).setConnectEvent i) s.peer := by
  induction is generalizing s with
  | nil =>
    exact ⟨s.close (.sweepPings ⟨[], [], js⟩), .closer (by simp only [State.closerStep, h]) .refl,
      rfl, rfl⟩
  | cons i is ih =>
    obtain ⟨s', hs', hdone, hpeer⟩ :=
      ih (s := ((s.set ((s.peer.assignReason i .connectionAttemptFailed).setConnectEvent i)).emit
        (.connectResolved i)).close (.sweepConnects ⟨[], is, js⟩)) rfl
    exact ⟨s', .closer (by simp only [State.closerStep, h]; rfl) (.closer rfl hs'), hdone, hpeer⟩

theorem sweepPings_alone {js : List CallId}
    (h : s.teardown = .sweepPings ⟨[], [], js⟩) :
    ∃ s', Alone text step s n s' n ∧ s'.teardown = .done ∧
      s'.peer = (js.foldl (fun p i => p.setPingEvent i) s.peer).acceptPut none := by
  induction js generalizing s with
  | nil =>
    have hstep : s.closerStep = some (s.close .putSentinel) := by simp only [State.closerStep, h]
    exact ⟨_, .closer hstep (.closer rfl .refl), rfl, rfl⟩
  | cons i js ih =>
    obtain ⟨s', hs', hdone, hpeer⟩ :=
      ih (s := ((s.set (s.peer.setPingEvent i)).emit (.pingResolved i)).close
        (.sweepPings ⟨[], [], js⟩)) rfl
    exact ⟨s', .closer (by simp only [State.closerStep, h]) hs', hdone, hpeer⟩

theorem finishClose_alone {snap : Snapshot} {exc : ConnectionClosed}
    (h : s.teardown = .sweepConnections exc snap) :
    ∃ s', Alone text step s n s' n ∧ s'.teardown = .done ∧
      s'.peer = s.peer.finishClose snap exc := by
  obtain ⟨s₁, h₁, ht₁, hp₁⟩ := sweepConnections_alone text step n h
  obtain ⟨s₂, h₂, ht₂, hp₂⟩ := sweepConnects_alone text step n ht₁
  obtain ⟨s₃, h₃, ht₃, hp₃⟩ := sweepPings_alone text step n ht₂
  refine ⟨s₃, h₁.trans (h₂.trans h₃), ht₃, ?_⟩
  rw [hp₃, hp₂, hp₁]
  rfl

end

/-- **The steps of `Peer.close` make up `Peer.close`.** -/
theorem closePeer_alone (text : SystemAddress → String)
    (h : s.peer.closed = false → s.pump = .loop) :
    ∃ s', Alone text closePeerStep s (.pc .begin) s' (.ret ()) ∧ s'.peer = s.peer.close := by
  obtain ⟨peer, pump, teardown, clock, log⟩ := s
  cases hclosed : peer.closed with
  | true =>
    refine ⟨_, .call (by simp only [closePeerStep, hclosed]; rfl) .refl, ?_⟩
    simp [Peer.close, hclosed]
  | false =>
    cases h hclosed
    have hbegin : closePeerStep ⟨peer, .loop, teardown, clock, log⟩ .begin = some
        (State.beginClose ⟨peer, .loop, teardown, clock, log⟩ .joining, .pc .closing) := by
      simp only [closePeerStep, hclosed]
      rfl
    obtain ⟨s', hs', hdone, hpeer⟩ := finishClose_alone text closePeerStep
      (.pc .closing) (s := ⟨peer.beginClose, .exited,
        .sweepConnections (.ok "peer closed") peer.snapshot, clock,
        log ++ [.beganClose peer.snapshot]⟩) rfl
    refine ⟨s', .call hbegin (.pump rfl (.closer rfl (.closer rfl (hs'.trans
      (.call (by simp only [closePeerStep, hdone]; rfl) .refl))))), ?_⟩
    rw [hpeer, Peer.close, if_neg (by simp [hclosed])]

/-- `Connection.close` in `Peer.close`. -/
def Next.inPeer : Next ClosePeerPc Unit → Next ClosePc Unit
  | .pc p => .pc (.peer p)
  | .ret r => .ret r

theorem Alone.within {c : ConnId} {notify : Bool} {n n' : Next ClosePeerPc Unit}
    (h : Alone text closePeerStep s n s' n') :
    Alone text (closeStep c notify) s n.inPeer s' n'.inPeer := by
  induction h with
  | refl => exact .refl
  | @call s s₁ s' pc n n' hs _ ih =>
    have hstep : closeStep c notify s (.peer pc) = some (s₁, n.inPeer) := by
      simp only [closeStep, hs, Option.map_some]
      cases n <;> rfl
    exact .call hstep ih
  | closer hs _ ih => exact .closer hs ih
  | pump hs _ ih => exact .pump hs ih

theorem owns_alone (text : SystemAddress → String) (c : ConnId) (notify : Bool)
    (h : s.peer.closed = false → s.pump = .loop) :
    ∃ s', Alone text (closeStep c notify) s (.pc .owns) s' (.ret ()) ∧
      s'.peer = if (s.peer.connection c).ownsPeer then s.peer.close else s.peer := by
  cases hown : (s.peer.connection c).ownsPeer with
  | false => exact ⟨s, .call (by simp only [closeStep, hown]; rfl) .refl, rfl⟩
  | true =>
    obtain ⟨s', hs', hpeer⟩ := closePeer_alone text h
    have hstep : closeStep c notify s .owns = some (s, .pc (.peer .begin)) := by
      simp [closeStep, hown]
    exact ⟨s', .call hstep hs'.within, hpeer⟩

/-- **The steps of `Connection.close` make up `Connection.close`.** Nobody but the closer and the
exiting pump acts beside them. -/
theorem close_alone {c : ConnId} {notify : Bool} (h : s.peer.closed = false → s.pump = .loop) :
    ∃ s', Alone text (closeStep c notify) s (.pc .check) s' (.ret ()) ∧
      s'.peer = s.peer.connectionClose c := by
  cases hclosed : (s.peer.connection c).closed with
  | true =>
    obtain ⟨s', hs', hpeer⟩ := owns_alone text c notify h
    refine ⟨s', .call (by simp only [closeStep, hclosed]; rfl) hs', ?_⟩
    simp [hpeer, Peer.connectionClose, hclosed]
  | false =>
    have hrest : ∀ s₁ : State, s₁.pump = s.pump → s₁.peer = s.peer.closeConnection c →
        ∃ s', Alone text (closeStep c notify) s₁ (.pc .owns) s' (.ret ()) ∧
          s'.peer = s.peer.connectionClose c := by
      intro s₁ hpump hpeer₁
      obtain ⟨s', hs', hpeer⟩ := owns_alone text c notify (s := s₁)
        (fun hopen => hpump.trans (h (by rw [hpeer₁] at hopen; exact hopen)))
      refine ⟨s', hs', ?_⟩
      simp [hpeer, hpeer₁, Peer.connectionClose, hclosed]
    have hcheck : closeStep c notify s .check = some (s, .pc .pop) := by
      simp only [closeStep, hclosed]
      rfl
    -- where `_close_connection` asks whether the Peer is closed
    let marked := (s.set (s.peer.unregister (s.peer.connection c).rawGuid)).set
      ((s.peer.unregister (s.peer.connection c).rawGuid).markClosed c)
    cases hpeer : s.peer.closed with
    | true =>
      have hskip : closeStep c notify marked .checkPeer = some (marked, .pc .mailbox) := by
        simp [closeStep, marked, hpeer]
      obtain ⟨s', hs', hlast⟩ := hrest (s.set (s.peer.closeConnection c)) rfl rfl
      exact ⟨s', .call hcheck (.call rfl (.call rfl (.call hskip (.call rfl hs')))), hlast⟩
    | false =>
      have hask : closeStep c notify marked .checkPeer = some (marked, .pc .raw) := by
        simp [closeStep, marked, hpeer]
      have hraw : closeStep c notify marked .raw =
          some (marked.emit (.rawClose (s.peer.connection c).rawGuid notify), .pc .mailbox) := by
        simp [closeStep, marked]
      obtain ⟨s', hs', hlast⟩ := hrest
        ((marked.emit (.rawClose (s.peer.connection c).rawGuid notify)).set
          (s.peer.closeConnection c))
        rfl rfl
      exact ⟨s', .call hcheck (.call rfl (.call rfl (.call hask (.call hraw (.call rfl hs'))))),
        hlast⟩

end Raknet
