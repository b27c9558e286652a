import Raknet.Effects.Calls
import Raknet.Effects.Shared
import Raknet.Lib.Handoff
import Raknet.Sync.Shutdown

/-!
# Pending requests of a sync Peer

The table of pending connects and the table of pending pings are `Handoff` boards: the pump is
the worker that takes one request at a time, the closer empties the table once.
-/

namespace Raknet

open Interleaving Handoff

/-! ## The board of the connects -/

/-- The pending connect that the pump has popped, and whether its outcome is written. -/
def PumpPc.connectHeld : PumpPc → Option (CallId × Bool)
  | succeededCreate i _ _ | succeededRegister i _ _ | succeededAssign i _ | failedAssign i _ =>
    some (i, false)
  | connectSet i => some (i, true)
  | _ => none

/-- The pending connects that the closer has still to resolve. -/
def Teardown.connects : Teardown → List CallId
  | joining snap | shutdown _ snap | sweepConnections _ snap | closeMailbox _ _ snap
  | sweepConnects snap | setConnect _ snap | cancelled snap => snap.pendingConnects
  | _ => []

/-- The pending connect whose event the closer is about to set. -/
def Teardown.connectInHand : Teardown → Option CallId
  | setConnect i _ => some i
  | _ => none

/-- The pending connects that an event takes out of the table. -/
def Event.connectsTaken : Event → List CallId
  | connectPopped i => [i]
  | beganClose snap => snap.pendingConnects
  | _ => []

/-- The pending connect that an event enters into the table. -/
def Event.connectEntered? : Event → List CallId
  | connectEntered i _ => [i]
  | _ => []

/-- The pending connect that an event resolves. -/
def Event.connectResolved? : Event → List CallId
  | connectResolved i => [i]
  | _ => []

/-- The outcome of a pending connect. -/
abbrev ConnectOutcome := Option ConnId × Option DefaultMessageIDTypes

/-- The pending connects of a state. -/
def State.connects (s : State) : Board String CallId ConnectOutcome where
  closed := s.peer.closed
  table := s.peer.pendingConnects
  held := s.pump.connectHeld
  swept := s.teardown.connects
  inHand := s.teardown.connectInHand
  event i := (s.peer.pendingConnect i).event
  outcome i := ((s.peer.pendingConnect i).connection, (s.peer.pendingConnect i).reason)
  entered := s.log.flatMap Event.connectEntered?
  taken := s.log.flatMap Event.connectsTaken
  resolved := s.log.flatMap Event.connectResolved?

/-- Neither a Connection nor a reason. -/
def ConnectOutcome.Blank (o : ConnectOutcome) : Prop := o = (none, none)

/-- Exactly one of a Connection and a reason. -/
def ConnectOutcome.Settled (_ : Bool) (o : ConnectOutcome) : Prop := o.1 = none ↔ o.2 ≠ none

/-- A step of the pending connects. -/
abbrev ConnectStep : Board String CallId ConnectOutcome → Board String CallId ConnectOutcome →
    Prop :=
  Board.Step ConnectOutcome.Blank ConnectOutcome.Settled

variable {text : SystemAddress → String} {s s' : State}

@[simp] theorem PumpPc.connectHeld_enter (cb : Option Callback) :
    (PumpPc.enter cb).connectHeld = none := by
  rcases cb with _ | ⟨_ | _⟩ <;> rfl

theorem PumpPc.DropsIn.connectHeld {p : Peer} {pc : PumpPc} (h : pc.DropsIn text p) :
    pc.connectHeld = none := by
  cases pc <;> first | rfl | exact h.elim

section

variable (p : Peer) (i : CallId)

theorem setConnectEvent_event :
    (fun j => ((p.setConnectEvent i).pendingConnect j).event) =
      Function.update (fun j => (p.pendingConnect j).event) i true := by
  funext j
  grind [Function.update_apply]

theorem setConnectEvent_outcome :
    (fun j => (((p.setConnectEvent i).pendingConnect j).connection,
        ((p.setConnectEvent i).pendingConnect j).reason)) =
      fun j => ((p.pendingConnect j).connection, (p.pendingConnect j).reason) := by
  funext j
  grind

theorem assignConnection_event (c : ConnId) :
    (fun j => ((p.assignConnection i c).pendingConnect j).event) =
      fun j => (p.pendingConnect j).event := by
  funext j
  grind

theorem assignConnection_outcome (c : ConnId) :
    (fun j => (((p.assignConnection i c).pendingConnect j).connection,
        ((p.assignConnection i c).pendingConnect j).reason)) =
      Function.update (fun j => ((p.pendingConnect j).connection, (p.pendingConnect j).reason)) i
        (some c, (p.pendingConnect i).reason) := by
  funext j
  grind [Function.update_apply]

theorem assignReason_event (r : DefaultMessageIDTypes) :
    (fun j => ((p.assignReason i r).pendingConnect j).event) =
      fun j => (p.pendingConnect j).event := by
  funext j
  grind

theorem assignReason_outcome (r : DefaultMessageIDTypes) :
    (fun j => (((p.assignReason i r).pendingConnect j).connection,
        ((p.assignReason i r).pendingConnect j).reason)) =
      Function.update (fun j => ((p.pendingConnect j).connection, (p.pendingConnect j).reason)) i
        ((p.pendingConnect i).connection, some r) := by
  funext j
  grind [Function.update_apply]

end

theorem ActEffect.connects {e : State.Act} (h : ActEffect text s e s')
    (hi : s.connects.Inv ConnectOutcome.Blank ConnectOutcome.Settled) (hsd : ShutdownInv s) :
    ConnectStep s.connects s'.connects := by
  cases h
  case succeededPop i a g h hget | failedPop i a r h hget =>
    refine (Board.Step.take (text a) i hget (by rw [State.connects, h]; rfl)).of_eq ?_
    simp [State.connects, PumpPc.connectHeld, Event.connectEntered?, Event.connectsTaken,
      Event.connectResolved?]
  case succeededAssign i c h =>
    have hblank := hi.blank_held i (by rw [State.connects, h]; rfl)
    refine (Board.Step.assign i (some c, (s.peer.pendingConnect i).reason)
      (by rw [State.connects, h]; rfl) ?_).of_eq ?_
    · simp_all [ConnectOutcome.Settled, ConnectOutcome.Blank, State.connects]
    · simp only [State.connects, State.goto_peer, State.set_peer, assignConnection_event,
        assignConnection_outcome]
      rfl
  case failedAssign i r h =>
    have hblank := hi.blank_held i (by rw [State.connects, h]; rfl)
    refine (Board.Step.assign i ((s.peer.pendingConnect i).connection, some r)
      (by rw [State.connects, h]; rfl) ?_).of_eq ?_
    · simp_all [ConnectOutcome.Settled, ConnectOutcome.Blank, State.connects]
    · simp only [State.connects, State.goto_peer, State.set_peer, assignReason_event,
        assignReason_outcome]
      rfl
  case connectSet i h =>
    refine (Board.Step.set i (by rw [State.connects, h]; rfl)).of_eq ?_
    simp only [State.connects, State.goto_peer, State.emit_peer, State.set_peer,
      setConnectEvent_event, setConnectEvent_outcome]
    simp [PumpPc.connectHeld, Event.connectEntered?, Event.connectsTaken, Event.connectResolved?]
  case drop h =>
    refine Board.Step.skip.of_eq ?_
    simp only [State.connects, h.connectHeld]
    rfl
  case route p h =>
    refine Board.Step.skip.of_eq ?_
    simp [State.connects, PumpPc.connectHeld_enter, h, Event.connectEntered?, Event.connectsTaken,
      Event.connectResolved?]
    rfl
  case fail detail h hopen =>
    refine (Board.Step.sweep hopen).of_eq ?_
    simp [State.connects, PumpPc.connectHeld, h, hsd.unbegun hopen, Teardown.connects,
      Peer.snapshot,
      Teardown.connectInHand, Event.connectEntered?, Event.connectsTaken, Event.connectResolved?]
  case sweepConnect snap i is h hcons =>
    have hblank := hi.blank_swept i (by simp [State.connects, h, Teardown.connects, hcons])
    refine (Board.Step.grab i is
      ((s.peer.pendingConnect i).connection, some .connectionAttemptFailed)
      (by rw [State.connects, h]; exact hcons) (by rw [State.connects, h]; rfl) ?_).of_eq ?_
    · simp_all [ConnectOutcome.Settled, ConnectOutcome.Blank, State.connects]
    · simp only [State.connects, State.close_peer, State.set_peer, assignReason_event,
        assignReason_outcome]
      rfl
  case setConnect i snap h =>
    refine (Board.Step.release i (by rw [State.connects, h]; rfl)).of_eq ?_
    simp only [State.connects, State.close_peer, State.emit_peer, State.set_peer,
      setConnectEvent_event, setConnectEvent_outcome]
    simp [h, Teardown.connects, Teardown.connectInHand, Event.connectEntered?,
      Event.connectsTaken, Event.connectResolved?]
  all_goals
    refine Board.Step.skip.of_eq ?_
    simp [*, State.connects, PumpPc.connectHeld, Event.connectEntered?, Event.connectsTaken,
      Event.connectResolved?, Teardown.connects, Teardown.connectInHand]

theorem CallEffect.connects {i : CallId} {t : Call} (h : CallEffect text i s t s')
    (hi : s.connects.Inv ConnectOutcome.Blank ConnectOutcome.Settled)
    (hnew : (∃ args, t = .connect args (.start .resolve)) ∨
      (∃ args a, t = .connect args (.start (.register a))) → i ∉ s.connects.entered)
    (hsd : ShutdownInv s) : ConnectStep s.connects s'.connects := by
  cases h
  case newConnect args h =>
    have hout := hnew (Or.inl ⟨args, h⟩)
    refine (Board.Step.renew i (Option.none, Option.none) hout
      (show ConnectOutcome.Blank (Option.none, Option.none) from rfl)).of_eq ?_
    have hevent : (s.peer.pendingConnect i).event = false := hi.event_of_not_entered hout
    ext j <;> grind [State.connects, PendingConnect.new, Function.update_apply]
  case registerConnect args a h hopen =>
    refine (Board.Step.enter (text a) i (hnew (Or.inr ⟨args, a, h⟩)) hopen).of_eq ?_
    simp [State.connects, Event.connectEntered?, Event.connectsTaken, Event.connectResolved?]
  case popFailed args a r h => exact Board.Step.drop (text a)
  case popAbandoned args a j h hget => exact Board.Step.drop (text a)
  case beginClose hopen =>
    refine (Board.Step.sweep hopen).of_eq ?_
    simp [State.connects, hsd.unbegun hopen, Teardown.connects, Peer.snapshot,
      Teardown.connectInHand, Event.connectEntered?, Event.connectsTaken, Event.connectResolved?]
  all_goals
    refine Board.Step.skip.of_eq ?_
    simp [State.connects, Event.connectEntered?, Event.connectsTaken, Event.connectResolved?]

/-! ## The board of the pings -/

/-- The pending ping that the pump has popped, and whether its outcome is written. -/
def PumpPc.pingHeld : PumpPc → Option (CallId × Bool)
  | pongAssign i _ _ _ => some (i, false)
  | pingSet i => some (i, true)
  | _ => none

/-- The pending pings that the closer has still to resolve. -/
def Teardown.pings : Teardown → List CallId
  | joining snap | shutdown _ snap | sweepConnections _ snap | closeMailbox _ _ snap
  | sweepConnects snap | setConnect _ snap | sweepPings snap | cancelled snap => snap.pendingPings
  | _ => []

/-- The pending pings that an event takes out of the table. -/
def Event.pingsTaken : Event → List CallId
  | pingPopped i => [i]
  | beganClose snap => snap.pendingPings
  | _ => []

/-- The pending ping that an event enters into the table. -/
def Event.pingEntered? : Event → List CallId
  | pingEntered i => [i]
  | _ => []

/-- The pending ping that an event resolves. -/
def Event.pingResolved? : Event → List CallId
  | pingResolved i => [i]
  | _ => []

/-- The outcome of a pending ping: its pong, and when it started. -/
abbrev PingOutcome := Option Pong × Int

/-- The pending pings of a state. -/
def State.pings (s : State) : Board String CallId PingOutcome where
  closed := s.peer.closed
  table := s.peer.pendingPings
  held := s.pump.pingHeld
  swept := s.teardown.pings
  inHand := none
  event i := (s.peer.pendingPing i).event
  outcome i := ((s.peer.pendingPing i).pong, (s.peer.pendingPing i).started)
  entered := s.log.flatMap Event.pingEntered?
  taken := s.log.flatMap Event.pingsTaken
  resolved := s.log.flatMap Event.pingResolved?

/-- No pong. -/
def PingOutcome.Blank (o : PingOutcome) : Prop := o.1 = none

/-- A pong, unless the Peer was closed. -/
def PingOutcome.Settled (closed : Bool) (o : PingOutcome) : Prop := o.1 = none → closed = true

/-- A step of the pending pings. -/
abbrev PingStep : Board String CallId PingOutcome → Board String CallId PingOutcome → Prop :=
  Board.Step PingOutcome.Blank PingOutcome.Settled

@[simp] theorem PumpPc.pingHeld_enter (cb : Option Callback) :
    (PumpPc.enter cb).pingHeld = none := by
  rcases cb with _ | ⟨_ | _⟩ <;> rfl

theorem PumpPc.DropsIn.pingHeld {p : Peer} {pc : PumpPc} (h : pc.DropsIn text p) :
    pc.pingHeld = none := by
  cases pc <;> first | rfl | exact h.elim

section

variable (p : Peer) (i : CallId)

theorem setPingEvent_event :
    (fun j => ((p.setPingEvent i).pendingPing j).event) =
      Function.update (fun j => (p.pendingPing j).event) i true := by
  funext j
  grind [Function.update_apply]

theorem setPingEvent_outcome :
    (fun j => (((p.setPingEvent i).pendingPing j).pong,
        ((p.setPingEvent i).pendingPing j).started)) =
      fun j => ((p.pendingPing j).pong, (p.pendingPing j).started) := by
  funext j
  grind

end

theorem ActEffect.pings {e : State.Act} (h : ActEffect text s e s')
    (hsd : ShutdownInv s) : PingStep s.pings s'.pings := by
  cases h
  case pongPop i a g d h hget =>
    refine (Board.Step.take (text a) i hget (by rw [State.pings, h]; rfl)).of_eq ?_
    simp [State.pings, PumpPc.pingHeld, Event.pingEntered?, Event.pingsTaken, Event.pingResolved?]
  case pongAssign i a g d h =>
    refine (Board.Step.assign i
      (some ⟨a, g, d, s.clock - (s.peer.pendingPing i).started⟩, (s.peer.pendingPing i).started)
      (by rw [State.pings, h]; rfl) (by simp [PingOutcome.Settled])).of_eq ?_
    ext j <;> grind [State.pings, PumpPc.pingHeld, Function.update_apply]
  case pingSet i h =>
    refine (Board.Step.set i (by rw [State.pings, h]; rfl)).of_eq ?_
    simp only [State.pings, State.goto_peer, State.emit_peer, State.set_peer,
      setPingEvent_event, setPingEvent_outcome]
    simp [PumpPc.pingHeld, Event.pingEntered?, Event.pingsTaken, Event.pingResolved?]
  case drop h =>
    refine Board.Step.skip.of_eq ?_
    simp only [State.pings, h.pingHeld]
    rfl
  case route p h =>
    refine Board.Step.skip.of_eq ?_
    simp [State.pings, PumpPc.pingHeld_enter, h, Event.pingEntered?, Event.pingsTaken,
      Event.pingResolved?]
    rfl
  case fail detail h hopen =>
    refine (Board.Step.sweep hopen).of_eq ?_
    simp [State.pings, PumpPc.pingHeld, h, Teardown.pings, Peer.snapshot, Event.pingEntered?,
      Event.pingsTaken, Event.pingResolved?]
  case sweepPing snap i is h hcons =>
    have hclosed : s.peer.closed = true := hsd.begun.mpr (by simp [h])
    refine (Board.Step.resolve i is (by rw [State.pings, h]; exact hcons) fun _ => hclosed).of_eq ?_
    simp only [State.pings, State.close_peer, State.emit_peer, State.set_peer,
      setPingEvent_event, setPingEvent_outcome]
    simp [Teardown.pings, Event.pingEntered?, Event.pingsTaken, Event.pingResolved?]
  all_goals
    refine Board.Step.skip.of_eq ?_
    simp [*, State.pings, PumpPc.pingHeld, Event.pingEntered?, Event.pingsTaken,
      Event.pingResolved?, Teardown.pings]

theorem CallEffect.pings {i : CallId} {t : Call} (h : CallEffect text i s t s')
    (hi : s.pings.Inv PingOutcome.Blank PingOutcome.Settled)
    (hnew : (∃ args, t = .ping args (.start .resolve)) ∨
      (∃ args a, t = .ping args (.start (.register a))) → i ∉ s.pings.entered)
    (hsd : ShutdownInv s) : PingStep s.pings s'.pings := by
  cases h
  case newPing args h =>
    have hout := hnew (Or.inl ⟨args, h⟩)
    refine (Board.Step.renew i (Option.none, s.clock) hout
      (show PingOutcome.Blank (Option.none, s.clock) from rfl)).of_eq ?_
    have hevent : (s.peer.pendingPing i).event = false := hi.event_of_not_entered hout
    ext j <;> grind [State.pings, PendingPing.new, Function.update_apply]
  case registerPing args a h hopen =>
    refine (Board.Step.enter (text a) i (hnew (Or.inr ⟨args, a, h⟩)) hopen).of_eq ?_
    simp [State.pings, Event.pingEntered?, Event.pingsTaken, Event.pingResolved?]
  case popPing args a h => exact Board.Step.drop (text a)
  case beginClose hopen =>
    refine (Board.Step.sweep hopen).of_eq ?_
    simp [State.pings, hsd.unbegun hopen, Teardown.pings, Peer.snapshot, Event.pingEntered?,
      Event.pingsTaken, Event.pingResolved?]
  all_goals
    refine Board.Step.skip.of_eq ?_
    simp [State.pings, Event.pingEntered?, Event.pingsTaken, Event.pingResolved?]

end Raknet
