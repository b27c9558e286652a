import Raknet.Sync.Closing
import Raknet.Sync.Dialing

/-!
# `create_connection`

One call on a private Peer: `create_connection` connects, and after an exception it closes the
Peer. Nobody else calls anything, and the Peer accepts no incoming connections.

**Theorem (`create_connection_sound`).** If the call raises, nothing stays open: the Peer is closed,
its tables are empty, and the Connection the pump may have created is closed, its reason stored or
in the hands of the failing pump. If it returns, it returns the Connection of the acceptance that
resolved the attempt, whose `close` closes the Peer. While it waits without timeout, its event is
set or somebody who will set it holds its pending object.

**Theorem (`create_connection_early`).** The pump's `_fail` may still be at work when the call
raises.
-/

namespace Raknet

open Interleaving DefaultMessageIDTypes

/-! ## The conditions -/

/-- An accepted connection request was routed. -/
def Event.accepts : Event → Bool
  | routed p => p.hasId connectionRequestAccepted
  | _ => false

/-- The pump has received an accepted connection request. -/
def PumpPc.accepts : PumpPc → Bool
  | route p => p.hasId connectionRequestAccepted
  | _ => false

/-- RakNet has reported an accepted connection request. -/
def State.accepted (s : State) : Bool := s.log.any Event.accepts || s.pump.accepts

/-- `raw.connect` has refused the attempt, or raised. -/
def ConnectPc.refused : ConnectPc → Bool
  | start (.popFailed _ _) => true
  | closePeer e _ | raised e => e.isRaw
  | _ => false

/-- `raw.connect` has refused the attempt of the call, or raised. -/
def Call.refused : Call → Bool
  | connect _ pc => pc.refused
  | _ => false

/-- Thread 0 makes the one call. RakNet reports no incoming connection, and no acceptance of an
attempt that `raw.connect` refused, or out of which an exception came. -/
def OneShot (args : ConnectArgs) (c : Sync) : SyncAction → Prop
  | .shared (.received (.packet p)) =>
    p.hasId newIncomingConnection = false ∧
      ((c.thread 0).refused = true → p.hasId connectionRequestAccepted = false)
  | .thread i (.inl start) => i = 0 ∧ start = .connect args
  | .thread _ (.inr (.connectResult r)) =>
    r ≠ .connectionAttemptStarted → c.shared.accepted = false
  | .thread _ (.inr (.connectRaises _)) => c.shared.accepted = false
  | _ => True

instance (args : ConnectArgs) (c : Sync) : (a : SyncAction) → Decidable (OneShot args c a)
  | .shared (.received (.packet p)) =>
    inferInstanceAs (Decidable (p.hasId newIncomingConnection = false ∧
      ((c.thread 0).refused = true → p.hasId connectionRequestAccepted = false)))
  | .thread i (.inl start) => inferInstanceAs (Decidable (i = 0 ∧ start = .connect args))
  | .thread _ (.inr (.connectResult r)) =>
    inferInstanceAs (Decidable (r ≠ .connectionAttemptStarted → c.shared.accepted = false))
  | .thread _ (.inr (.connectRaises _)) =>
    inferInstanceAs (Decidable (c.shared.accepted = false))
  | .shared .pump | .shared (.received .nothing) | .shared (.received (.raises _))
  | .shared (.routeRaises _) | .shared .closer | .shared (.recv _) | .shared (.tick _)
  | .thread _ (.inr .go) | .thread _ (.inr .timeout) | .thread _ (.inr (.resolved _))
  | .thread _ (.inr (.pingResult _)) => .isTrue trivial

/-! ## The private Peer -/

/-- The pump is about to construct or register a Connection. -/
def PumpPc.building : PumpPc → Bool
  | succeededCreate _ _ _ | succeededRegister _ _ _ => true
  | _ => false

/-- The pump has constructed a Connection and not yet assigned it. -/
def PumpPc.assigning : PumpPc → Bool
  | succeededRegister _ _ _ | succeededAssign _ _ => true
  | _ => false

/-- No Connection can come any more. -/
structure State.Barren (s : State) : Prop where
  table : ∀ k, s.peer.pendingConnects.get? k = none
  pump : s.pump.building = false

/-- What holds of the private Peer. -/
structure PrivateInv (s : State) : Prop where
  incoming : s.pump.incoming = false
  entry : ∀ k j, s.peer.pendingConnects.get? k = some j → j = 0
  held : ∀ j w, s.pump.connectHeld = some (j, w) → j = 0
  created : s.peer.created ≤ 1
  built : s.peer.created ≠ 0 →
    s.pump.assigning = true ∨ (s.peer.pendingConnect 0).connection = some 0
  unheard : s.log.any Event.accepts = false → s.peer.created = 0 ∧ s.pump.building = false ∧
    ∀ a g, s.pump ≠ .succeededPop a g
  shut : s.peer.closed = true →
    (∀ g, s.peer.connections.get? g = none) ∧ s.pump.building = false

/-! ## The call -/

/-- The table holds entries under the key of `a` alone. -/
def State.Keyed (text : SystemAddress → String) (s : State) (a : SystemAddress) : Prop :=
  ∀ k j, s.peer.pendingConnects.get? k = some j → k = text a

/-- Every Connection is closed. -/
def State.AllClosed (s : State) : Prop :=
  ∀ k, k < s.peer.created → (s.peer.connection k).closed = true

/-- No Connection comes for a call that the exception leaves. If it came out of `raw.connect`, the
entry may still be there. -/
def State.Ended (s : State) (e : Error) : Prop :=
  s.Barren ∨ e.isRaw = true ∧ s.accepted = false

/-- How far the call has come with the private Peer. -/
def ConnectPc.Stage (text : SystemAddress → String) (s : State) : ConnectPc → Prop
  | .start (.rawConnect a) | .wait a | .abandon a .pop => s.Keyed text a
  | .start (.popFailed a _) => s.Keyed text a ∧ s.accepted = false
  | .start _ | .abandon _ .cancel => s.Barren ∧ s.peer.created = 0
  | .waitAgain _ => ∀ k, s.peer.pendingConnects.get? k = none
  | .finish | .own _ | .returned _ => s.Barren
  | .reap _ pc => s.Barren ∧ ∀ q, pc ≠ .peer q
  | .closePeer e pc => s.Ended e ∧ s.AllClosed ∧ (pc = .closing → s.peer.closed = true)
  | .raised e => s.Ended e ∧ s.AllClosed ∧ s.peer.closed = true

/-- The Connection that the call has returned. -/
def ConnectPc.result : ConnectPc → Option ConnId
  | .returned c => some c
  | _ => none

/-- The call itself is closing the Peer. -/
def ConnectPc.tearing : ConnectPc → Bool
  | .closePeer _ .closing => true
  | _ => false

/-- What holds while the call is at `pc`. Until the call closes the Peer, only the failing pump
does, and no Connection owns the Peer before the call returns it. -/
structure ConnectPc.Runs (text : SystemAddress → String) (s : State) (pc : ConnectPc) : Prop where
  stage : pc.Stage text s
  closer : pc.tearing = false → s.peer.closed = true → s.pump = .failing ∨ s.teardown = .done
  unowned : pc.result = none → ∀ k, (s.peer.connection k).ownsPeer = false
  owned : ∀ k, pc.result = some k → (s.peer.connection k).ownsPeer = true

variable {text : SystemAddress → String} {s s' : State}

theorem privateInv_init (q : Option Nat) (t₀ : Int) : PrivateInv (State.init q t₀) := by
  constructor <;>
    simp [State.init, Peer.init, PumpPc.incoming, PumpPc.building, PumpPc.connectHeld]

/-- What was taken from the table leaves it empty: nobody else has a pending connect. -/
theorem PrivateInv.table_of_taken (hi : PrivateInv s) (hp : PendingInv s)
    (h : 0 ∈ s.connects.taken) (k : String) : s.peer.pendingConnects.get? k = none := by
  by_contra hne
  obtain ⟨j, hj⟩ := Option.ne_none_iff_exists'.mp hne
  obtain rfl := hi.entry k j hj
  exact (hp.connects.listed k 0 hj).2 h

/-- The pump builds for the one pending connect. -/
theorem PrivateInv.held_of_building (hi : PrivateInv s)
    (h : s.pump.building = true ∨ s.pump.assigning = true) :
    s.pump.connectHeld = some (0, false) := by
  have hheld := hi.held
  cases hs : s.pump <;>
    simp only [hs, PumpPc.building, PumpPc.assigning, reduceCtorEq, or_self] at h
  all_goals
    rw [hs] at hheld
    obtain rfl := hheld _ _ rfl
    rfl

theorem PrivateInv.taken_of_built (hi : PrivateInv s) (hp : PendingInv s)
    (h : s.peer.created ≠ 0) : 0 ∈ s.connects.taken := by
  rcases hi.built h with ha | hc
  · exact hp.taken_of_held (hi.held_of_building (Or.inr ha))
  · exact hp.taken_of_connection hc

theorem PrivateInv.taken_of_building (hi : PrivateInv s) (hp : PendingInv s)
    (h : s.pump.building = true) : 0 ∈ s.connects.taken :=
  hp.taken_of_held (hi.held_of_building (Or.inl h))

/-- While the entry is in the table, nothing has been built. -/
theorem PrivateInv.unbuilt (hi : PrivateInv s) (hp : PendingInv s) {k : String} {j : CallId}
    (h : s.peer.pendingConnects.get? k = some j) :
    s.peer.created = 0 ∧ s.pump.building = false := by
  constructor
  · by_contra hc
    simp [hi.table_of_taken hp (hi.taken_of_built hp hc) k] at h
  · by_contra hb
    simp [hi.table_of_taken hp (hi.taken_of_building hp (by simpa using hb)) k] at h

/-- The one Connection is constructed once. -/
theorem PrivateInv.create (hi : PrivateInv s) (hp : PendingInv s) {i : CallId}
    {a : SystemAddress} {g : Guid} (h : s.pump = .succeededCreate i a g) :
    s.peer.created = 0 := by
  obtain rfl := hi.held i false (by rw [h]; rfl)
  have hblank := hp.connects.blank_held 0 (by simp [State.connects, h, PumpPc.connectHeld])
  by_contra hc
  rcases hi.built hc with ha | hc
  · rw [h] at ha
    cases ha
  · simp [ConnectOutcome.Blank, State.connects, hc] at hblank

theorem enter_route_accepts {p : Packet} {a : SystemAddress} {g : Guid}
    (h : PumpPc.enter (route p) = .succeededPop a g) :
    p.hasId connectionRequestAccepted = true := by
  have hr := trail_route h
  rcases route_cases hr with ⟨-, hc⟩ | ⟨-, hc⟩ | ⟨ha, hc⟩ | ⟨r, -, -, hc⟩ | ⟨-, hc⟩ | ⟨-, hc⟩ |
    ⟨-, hc⟩ <;> cases hc
  exact ha

@[simp] theorem PumpPc.building_enter (cb : Option Callback) :
    (PumpPc.enter cb).building = false := by
  rcases cb with _ | ⟨_ | _⟩ <;> rfl

theorem PumpPc.DropsIn.building {p : Peer} {pc : PumpPc} (h : pc.DropsIn text p) :
    pc.building = false ∧ pc.assigning = false := by
  cases pc <;> first | exact ⟨rfl, rfl⟩ | exact h.elim

/-- The pending connects that the pump pops are entries of the table. -/
theorem ActEffect.heldZero {e : State.Act} (h : ActEffect text s e s') (hi : PrivateInv s) :
    ∀ j w, s'.pump.connectHeld = some (j, w) → j = 0 := by
  have hentry := hi.entry
  have hheld := hi.held
  cases h
  case drop h => simp [PumpPc.connectHeld]
  case route p h => simp
  all_goals grind [PumpPc.connectHeld]

theorem ActEffect.built {e : State.Act} (h : ActEffect text s e s') (hr : RegistryInv s)
    (hp : PendingInv s) (hi : PrivateInv s) :
    s'.peer.created ≤ 1 ∧ (s'.peer.created ≠ 0 →
      s'.pump.assigning = true ∨ (s'.peer.pendingConnect 0).connection = some 0) := by
  have hcreated := hi.created
  have hbuilt := hi.built
  have hpub := hr.pump
  cases h
  case drop h =>
    rw [h.building.2] at hbuilt
    exact ⟨hcreated, fun hc => (hbuilt hc).imp_left (fun hf => by cases hf)⟩
  case route p h =>
    exact ⟨hcreated, fun hc => Or.inr (by simpa [h, PumpPc.assigning] using hbuilt hc)⟩
  case incomingCreate h =>
    have hin := hi.incoming
    rw [h] at hin
    cases hin
  case succeededCreate i a g h => simp [hi.create hp h, PumpPc.assigning]
  case succeededAssign i c h =>
    obtain rfl := hi.held i false (by rw [h]; rfl)
    rw [h] at hpub
    obtain rfl : c = 0 := by simpa using Nat.lt_of_lt_of_le hpub.1 hcreated
    exact ⟨hcreated, fun _ => Or.inr (by simp)⟩
  all_goals
    refine ⟨hcreated, fun hc => ?_⟩
    have := hbuilt hc
    grind [PumpPc.assigning]

theorem ActEffect.unheard {e : State.Act} (h : ActEffect text s e s') (hi : PrivateInv s)
    (hacc : s'.log.any Event.accepts = false) : s'.peer.created = 0 ∧ s'.pump.building = false ∧
      ∀ a g, s'.pump ≠ .succeededPop a g := by
  have hunheard := hi.unheard
  cases h
  case drop h => exact ⟨(hunheard hacc).1, rfl, by simp⟩
  case route p h =>
    simp only [State.goto_log, State.emit_log, List.any_append, List.any_cons, List.any_nil,
      Bool.or_false, Bool.or_eq_false_iff] at hacc
    refine ⟨(hunheard hacc.1).1, by simp, fun a g hpop => ?_⟩
    have hp : p.hasId connectionRequestAccepted = false := hacc.2
    simp [enter_route_accepts hpop] at hp
  case incomingCreate h =>
    have hin := hi.incoming
    rw [h] at hin
    cases hin
  all_goals
    simp only [State.goto_log, State.emit_log, State.set_log, State.close_log, State.beginClose_log,
      List.any_append, List.any_cons, List.any_nil, Bool.or_false, Bool.or_eq_false_iff] at hacc
    first | have hold := hunheard hacc | have hold := hunheard hacc.1
    grind -linarith [PumpPc.building]

theorem ActEffect.shut {e : State.Act} (h : ActEffect text s e s') (hsd : ShutdownInv s)
    (hi : PrivateInv s) (hclosed : s'.peer.closed = true) :
    (∀ g, s'.peer.connections.get? g = none) ∧ s'.pump.building = false := by
  have hshut := hi.shut
  have htable := hsd.connects
  have hin := hi.incoming
  cases h
  case drop h => exact ⟨(hshut hclosed).1, rfl⟩
  case route p h => exact ⟨(hshut hclosed).1, by simp⟩
  all_goals grind -linarith [PumpPc.building, PumpPc.incoming]

theorem ActEffect.privateInv {e : State.Act} (h : ActEffect text s e s') (hr : RegistryInv s)
    (hp : PendingInv s) (hsd : ShutdownInv s)
    (hin : ∀ p, e = .received (.packet p) → p.hasId newIncomingConnection = false)
    (hi : PrivateInv s) : PrivateInv s' where
  incoming := h.incoming hi.incoming hin
  entry k j hk := hi.entry k j (h.entry_old hk)
  held := h.heldZero hi
  created := (h.built hr hp hi).1
  built := (h.built hr hp hi).2
  unheard := h.unheard hi
  shut := h.shut hsd hi

/-- Once no Connection can come any more, none comes. -/
theorem ActEffect.barren {e : State.Act} (h : ActEffect text s e s') (hi : PrivateInv s)
    (hb : s.Barren) : s'.Barren ∧ s'.peer.created = s.peer.created := by
  have hin := hi.incoming
  obtain ⟨htable, hpump⟩ := hb
  refine ⟨⟨fun k => ?_, ?_⟩, ?_⟩
  · by_contra hne
    obtain ⟨j, hj⟩ := Option.ne_none_iff_exists'.mp hne
    simpa [htable k] using h.entry_old hj
  · cases h
    case drop h => rfl
    case route p h => simp
    all_goals grind [PumpPc.building, PumpPc.incoming]
  · cases h <;> first | rfl | grind [PumpPc.building, PumpPc.incoming]

/-- A set event means that the pump is through with the pending connect. -/
theorem PrivateInv.barren_of_event (hi : PrivateInv s) (hp : PendingInv s)
    (hevent : (s.peer.pendingConnect 0).event = true) :
    s.Barren ∧ ((s.peer.pendingConnect 0).connection = none → s.peer.created = 0) := by
  have hresolved : 0 ∈ s.connects.resolved := (hp.connects.mem_resolved 0).mpr hevent
  have htaken := hp.connects.resolved_taken 0 hresolved
  have hfree : s.pump.connectHeld ≠ some (0, false) := fun hw =>
    (hp.connects.held 0 false hw).2.1 hresolved
  refine ⟨⟨hi.table_of_taken hp htaken, ?_⟩, fun hnone => ?_⟩
  · simpa using fun hb => hfree (hi.held_of_building (Or.inl hb))
  · by_contra hc
    rcases hi.built hc with ha | hsome
    · exact hfree (hi.held_of_building (Or.inr ha))
    · simp [hnone] at hsome

theorem PrivateInv.unborn_of_unaccepted (hi : PrivateInv s) (hacc : s.accepted = false) :
    s.peer.created = 0 ∧ s.pump.building = false := by
  simp only [State.accepted, Bool.or_eq_false_iff] at hacc
  obtain ⟨hcreated, hbuilding, -⟩ := hi.unheard hacc.1
  exact ⟨hcreated, hbuilding⟩

theorem PrivateInv.ended_building {e : Error} (hi : PrivateInv s) (he : s.Ended e) :
    s.pump.building = false := by
  rcases he with hb | ⟨-, hacc⟩
  · exact hb.pump
  · exact (hi.unborn_of_unaccepted hacc).2

theorem ConnectEffect.privateInv {args : ConnectArgs} {pc pc' : ConnectPc}
    (h : ConnectEffect text 0 args s pc s' pc') (hi : PrivateInv s) (ht : pc.Runs text s) :
    PrivateInv s' := by
  have hstage := ht.stage
  have hbuilding : ∀ e q, pc = .closePeer e q → s.pump.building = false := by
    rintro e q rfl
    exact hi.ended_building hstage.1
  obtain ⟨h1, h2, h3, h4, h5, h6, h7⟩ := hi
  cases h with
  | resolve ip =>
    exact ⟨h1, h2, h3, h4, fun hc => absurd hstage.2 hc, h6, h7⟩
  | register a hopen =>
    refine ⟨h1, fun k j hk => ?_, h3, h4, h5, fun hacc => h6 ?_, fun hclosed => ?_⟩
    · grind
    · simpa [Event.accepts] using hacc
    · exact h7 hclosed
  | popFailed a r | abandon a j =>
    exact ⟨h1, fun k j hk => h2 k j (by grind), h3, h4, h5, h6, h7⟩
  | cancel a =>
    exact ⟨h1, h2, h3, h4, h5, fun hacc => h6 (by simpa [Event.accepts] using hacc), h7⟩
  | reaped c q s' h =>
    cases h with
    | _ => exact ⟨h1, h2, h3, h4, h5, h6, h7⟩
  | reap c q q' s' h =>
    cases h with
    | raw => exact ⟨h1, h2, h3, h4, h5, fun hacc => h6 (by simpa [Event.accepts] using hacc), h7⟩
    | pop => exact ⟨h1, h2, h3, h4, h5, h6, fun hclosed => ⟨by grind, (h7 hclosed).2⟩⟩
    | begin hopen => exact absurd rfl (hstage.2 .begin)
    | _ => exact ⟨h1, h2, h3, h4, h5, h6, h7⟩
  | closeBegin e hopen =>
    refine ⟨h1, by simp, h3, h4, h5, fun hacc => h6 (by simpa [Event.accepts] using hacc), ?_⟩
    exact fun _ => ⟨by simp, hbuilding e .begin rfl⟩
  | own c => exact ⟨h1, h2, h3, h4, h5, h6, h7⟩
  | _ => exact ⟨h1, h2, h3, h4, h5, h6, h7⟩

/-- Leaving with an exception, when everything is closed and nothing comes any more. -/
theorem runs_leave {args : ConnectArgs} (hone : args.oneShot = true) {e : Error}
    (he : s.Ended e) (hall : s.AllClosed)
    (hcloser : s.peer.closed = true → s.pump = .failing ∨ s.teardown = .done)
    (hun : ∀ k, (s.peer.connection k).ownsPeer = false) : (args.leave e).Runs text s := by
  rw [ConnectArgs.leave, if_pos hone]
  exact ⟨⟨he, hall, (fun h => by cases h)⟩, fun _ => hcloser, fun _ => hun, fun k hk => by cases hk⟩

theorem allClosed_of_created (h : s.peer.created = 0) : s.AllClosed := by
  intro k hk
  rw [h] at hk
  exact absurd hk (Nat.not_lt_zero k)

theorem erase_keyed {a : SystemAddress} (h : s.Keyed text a) (k : String) :
    (s.peer.pendingConnects.erase (text a)).get? k = none := by
  rw [Dict.get?_erase]
  split_ifs with hk
  · rfl
  · by_contra hne
    obtain ⟨j, hj⟩ := Option.ne_none_iff_exists'.mp hne
    exact hk (h k j hj)

theorem ConnectEffect.runs {args : ConnectArgs} {pc pc' : ConnectPc} (hone : args.oneShot = true)
    (h : ConnectEffect text 0 args s pc s' pc') (hi : PrivateInv s) (hp : PendingInv s)
    (hasserts : (Call.connect args pc).Asserts s.registry)
    (hholds : (Call.connect args pc).Holds s 0)
    (hrefuse : ∀ a, pc = .start (.rawConnect a) → pc'.refused = true → s.accepted = false)
    (ht : pc.Runs text s) : pc'.Runs text s' := by
  obtain ⟨hstage, hcloser, hun, hown⟩ := ht
  cases h with
  | refused hclosed | fewAttempts message h | unresolved | closedMeanwhile a hclosed =>
    exact runs_leave hone (.inl hstage.1) (allClosed_of_created hstage.2) (hcloser rfl) (hun rfl)
  | checkOpen hopen => exact ⟨hstage, hcloser, hun, hown⟩
  | checkAttempts h => exact ⟨hstage, hcloser, hun, hown⟩
  | resolve ip => exact ⟨⟨⟨hstage.1.table, hstage.1.pump⟩, hstage.2⟩, hcloser, hun, hown⟩
  | register a hopen =>
    have htable := hstage.1.table
    exact ⟨fun k j hk => by grind, hcloser, hun, hown⟩
  | started a => exact ⟨hstage, hcloser, hun, hown⟩
  | rawRefused a r hr => exact ⟨⟨hstage, hrefuse a rfl rfl⟩, hcloser, hun, hown⟩
  | rawRaised a message =>
    have hacc := hrefuse a rfl (by rw [ConnectArgs.leave, if_pos hone]; rfl)
    exact runs_leave hone (.inr ⟨rfl, hacc⟩)
      (allClosed_of_created (hi.unborn_of_unaccepted hacc).1) (hcloser rfl) (hun rfl)
  | popFailed a r =>
    obtain ⟨hcreated, hbuilding⟩ := hi.unborn_of_unaccepted hstage.2
    exact runs_leave hone (.inl ⟨erase_keyed hstage.1, hbuilding⟩)
      (allClosed_of_created hcreated) (hcloser rfl) (hun rfl)
  | woken a hevent => exact ⟨(hi.barren_of_event hp hevent).1, hcloser, hun, hown⟩
  | timeout a => exact ⟨hstage, hcloser, hun, hown⟩
  | late a hget =>
    refine ⟨fun k => ?_, hcloser, hun, hown⟩
    by_contra hne
    obtain ⟨j, hj⟩ := Option.ne_none_iff_exists'.mp hne
    rw [hstage k j hj, hget] at hj
    cases hj
  | abandon a j hget =>
    obtain ⟨hcreated, hbuilding⟩ := hi.unbuilt hp hget
    exact ⟨⟨⟨erase_keyed hstage, hbuilding⟩, hcreated⟩, hcloser, hun, hown⟩
  | cancel a =>
    exact runs_leave hone (.inl ⟨hstage.1.table, hstage.1.pump⟩) (allClosed_of_created hstage.2)
      (hcloser rfl) (hun rfl)
  | wokenLate a hevent hnone =>
    obtain ⟨hb, hcreated⟩ := hi.barren_of_event hp hevent
    exact runs_leave hone (.inl hb) (allClosed_of_created (hcreated hnone)) (hcloser rfl) (hun rfl)
  | orphan a c hevent hconn =>
    exact ⟨⟨(hi.barren_of_event hp hevent).1, by simp⟩, hcloser, hun, hown⟩
  | reap c q q' s' h =>
    obtain ⟨⟨htable, hpump⟩, hq⟩ := hstage
    cases h with
    | skip | check | skipRaw | checkPeer => exact ⟨⟨⟨htable, hpump⟩, by simp⟩, hcloser, hun, hown⟩
    | pop | raw => exact ⟨⟨⟨htable, hpump⟩, by simp⟩, hcloser, hun, hown⟩
    | mark | mailbox =>
      exact ⟨⟨⟨htable, hpump⟩, by simp⟩, hcloser, fun _ k => by grind [hun rfl k],
        fun k hk => by cases hk⟩
    | owns hown' => simp [hun rfl c] at hown'
    | begin hopen => exact absurd rfl (hq .begin)
  | reaped c q s' h =>
    obtain ⟨hb, hq⟩ := hstage
    cases h with
    | shared hown' =>
      have hretired : s.registry.Retired c := hasserts.closing c .owns rfl
      refine runs_leave hone (.inl hb) (fun k hk => ?_) (hcloser rfl) (hun rfl)
      obtain rfl : k = 0 := Nat.lt_one_iff.mp (Nat.lt_of_lt_of_le hk hi.created)
      obtain rfl : c = 0 := Nat.lt_one_iff.mp (Nat.lt_of_lt_of_le hretired.1.1.1 hi.created)
      exact hretired.2
    | lost hclosed => exact absurd rfl (hq .begin)
    | closed hdone => exact absurd rfl (hq .closing)
  | finish c h =>
    rw [ConnectArgs.give, if_pos hone]
    exact ⟨hstage, hcloser, hun, hown⟩
  | failed e h =>
    have hsettled := hp.connects.settled_resolved 0 ((hp.connects.mem_resolved 0).mpr hholds)
    have hnone : (s.peer.pendingConnect 0).connection = none := by
      unfold finishConnect at h
      split at h <;> simp_all [ConnectOutcome.Settled, State.connects]
    obtain ⟨hb, hcreated⟩ := hi.barren_of_event hp hholds
    exact runs_leave hone (.inl hb) (allClosed_of_created (hcreated hnone)) (hcloser rfl) (hun rfl)
  | closeLost e hclosed => exact ⟨⟨hstage.1, hstage.2.1, hclosed⟩, hcloser, hun, hown⟩
  | closeBegin e hopen =>
    exact ⟨⟨.inl ⟨by simp, hi.ended_building hstage.1⟩, hstage.2.1, fun _ => rfl⟩,
      (fun h => by cases h), hun, hown⟩
  | closeDone e hdone =>
    exact ⟨⟨hstage.1, hstage.2.1, hstage.2.2 rfl⟩, fun _ _ => Or.inr hdone, hun, hown⟩
  | own c =>
    refine ⟨⟨hstage.table, hstage.pump⟩, hcloser, (fun h => by cases h), fun k hk => ?_⟩
    cases hk
    simp

/-! ## The pump and the closer, meanwhile -/

/-- As long as nobody else closes the Peer, only the failing pump does. -/
theorem ActEffect.failingOrDone {e : State.Act} (h : ActEffect text s e s') (hsd : ShutdownInv s)
    (hi : s.peer.closed = true → s.pump = .failing ∨ s.teardown = .done)
    (hclosed : s'.peer.closed = true) : s'.pump = .failing ∨ s'.teardown = .done := by
  have hjoined := hsd.joined
  cases h
  case drop h =>
    have hstop := h.stopped
    rcases hi hclosed with hp | ht
    · rw [hp] at hstop
      cases hstop
    · exact Or.inr ht
  all_goals grind -linarith [Teardown.joined, PumpPc.stopped]

theorem ActEffect.ownsPeer_barren {e : State.Act} (h : ActEffect text s e s')
    (hi : s.pump.incoming = false) (hb : s.pump.building = false) (k : ConnId) :
    (s'.peer.connection k).ownsPeer = (s.peer.connection k).ownsPeer ∧
      ((s.peer.connection k).closed = true → (s'.peer.connection k).closed = true) := by
  cases h <;> first | exact ⟨rfl, id⟩ | grind [PumpPc.building, PumpPc.incoming]

theorem ActEffect.unaccepted {e : State.Act} (h : ActEffect text s e s')
    (hin : ∀ p, e = .received (.packet p) → p.hasId connectionRequestAccepted = false)
    (hacc : s.accepted = false) : s'.accepted = false := by
  have henter : ∀ cb, (PumpPc.enter cb).accepts = false := by rintro (_ | ⟨_ | _⟩) <;> rfl
  simp only [State.accepted, Bool.or_eq_false_iff] at hacc ⊢
  obtain ⟨hlog, hpump⟩ := hacc
  cases h
  case receivedPacket p h => exact ⟨hlog, hin p rfl⟩
  case route p h =>
    rw [h] at hpump
    have hp : p.hasId connectionRequestAccepted = false := hpump
    exact ⟨by simp [hlog, Event.accepts, hp], henter _⟩
  all_goals
    refine ⟨?_, by first | exact hpump | rfl⟩
    first | exact hlog | simp [hlog, Event.accepts]

theorem ActEffect.ended {e : State.Act} (h : ActEffect text s e s') (hi : PrivateInv s) {x : Error}
    (hin : x.isRaw = true → ∀ p, e = .received (.packet p) →
      p.hasId connectionRequestAccepted = false)
    (hx : s.Ended x) (hall : s.AllClosed) : s'.Ended x ∧ s'.AllClosed := by
  rcases hx with hb | ⟨hraw, hacc⟩
  · obtain ⟨hb', hcreated⟩ := h.barren hi hb
    refine ⟨Or.inl hb', fun k hk => ?_⟩
    rw [hcreated] at hk
    exact (h.ownsPeer_barren hi.incoming hb.pump k).2 (hall k hk)
  · have hacc' := h.unaccepted (hin hraw) hacc
    refine ⟨Or.inr ⟨hraw, hacc'⟩, allClosed_of_created (h.unheard hi ?_).1⟩
    simp only [State.accepted, Bool.or_eq_false_iff] at hacc'
    exact hacc'.1

theorem ActEffect.runs {e : State.Act} {pc : ConnectPc} (h : ActEffect text s e s')
    (hi : PrivateInv s) (hsd : ShutdownInv s)
    (hin : ∀ p, e = .received (.packet p) → pc.refused = true →
      p.hasId connectionRequestAccepted = false)
    (ht : pc.Runs text s) : pc.Runs text s' := by
  obtain ⟨hstage, hcloser, hun, hown⟩ := ht
  have hclosed : s.peer.closed = true → s'.peer.closed = true := by
    cases h <;> exact fun hc => by first | exact hc | rfl
  have hbarren : s.Barren → s'.Barren ∧ s'.peer.created = s.peer.created := h.barren hi
  have hkeyed : ∀ a, s.Keyed text a → s'.Keyed text a := fun a ha k j hk => ha k j (h.entry_old hk)
  have hunborn : s.Barren ∧ s.peer.created = 0 → s'.Barren ∧ s'.peer.created = 0 :=
    fun ⟨hb, hc⟩ => ⟨(hbarren hb).1, (hbarren hb).2.trans hc⟩
  refine ⟨?_, fun hpc => h.failingOrDone hsd (hcloser hpc), fun hpc k => ?_, fun k hk => ?_⟩
  · cases pc with
    | start q =>
      cases q with
      | rawConnect a => exact hkeyed a hstage
      | popFailed a r =>
        exact ⟨hkeyed a hstage.1, h.unaccepted (fun p hp => hin p hp rfl) hstage.2⟩
      | _ => exact hunborn hstage
    | wait a => exact hkeyed a hstage
    | abandon a q =>
      cases q with
      | pop => exact hkeyed a hstage
      | cancel => exact hunborn hstage
    | waitAgain a =>
      intro k
      by_contra hne
      obtain ⟨j, hj⟩ := Option.ne_none_iff_exists'.mp hne
      have hstage : ∀ k, s.peer.pendingConnects.get? k = none := hstage
      simpa [hstage k] using h.entry_old hj
    | finish => exact (hbarren hstage).1
    | own c => exact (hbarren hstage).1
    | returned c => exact (hbarren hstage).1
    | reap c q => exact ⟨(hbarren hstage.1).1, hstage.2⟩
    | closePeer e q =>
      obtain ⟨he, hc⟩ := h.ended hi (fun he p hp => hin p hp he) hstage.1 hstage.2.1
      exact ⟨he, hc, fun hq => hclosed (hstage.2.2 hq)⟩
    | raised e =>
      obtain ⟨he, hc⟩ := h.ended hi (fun he p hp => hin p hp he) hstage.1 hstage.2.1
      exact ⟨he, hc, hclosed hstage.2.2⟩
  · by_contra ho
    simpa [hun hpc k] using h.ownsPeer k (by simpa using ho)
  · cases pc <;> cases hk
    rw [(h.ownsPeer_barren hi.incoming hstage.pump k).1]
    exact hown k rfl

/-! ## Runs -/

/-- Thread 0 makes the one call, or is about to; the other threads do nothing. -/
structure Sync.Solo (text : SystemAddress → String) (args : ConnectArgs) (c : Sync) : Prop where
  others : ∀ i, i ≠ 0 → c.thread i = .idle
  peer : PrivateInv c.shared
  call : ∃ pc, (c.thread 0 = .connect args pc ∨ c.thread 0 = .idle ∧ pc = .start .checkOpen) ∧
    pc.Runs text c.shared

theorem solo_init (args : ConnectArgs) (q : Option Nat) (t₀ : Int) :
    (Sync.init q t₀).Solo text args := by
  refine ⟨fun _ _ => rfl, privateInv_init q t₀, .start .checkOpen, Or.inr ⟨rfl, rfl⟩, ?_⟩
  exact ⟨⟨⟨fun _ => rfl, rfl⟩, rfl⟩, (fun _ h => by cases h), fun _ _ => rfl, fun _ h => by cases h⟩

theorem Sync.Solo.shared {args : ConnectArgs} {c : Sync} {e : State.Act} (hc : c.Solo text args)
    (hr : RegistryInv c.shared) (hp : PendingInv c.shared) (hsd : ShutdownInv c.shared)
    (hok : OneShot args c (.shared e)) (h : ActEffect text c.shared e s) :
    Sync.Solo text args { c with shared := s } := by
  obtain ⟨hothers, hpeer, pc, hpc, hruns⟩ := hc
  refine ⟨hothers, h.privateInv hr hp hsd ?_ hpeer, pc, hpc, h.runs hpeer hsd ?_ hruns⟩
  · rintro p rfl
    exact hok.1
  · rintro p rfl hrefused
    rcases hpc with hcall | ⟨-, rfl⟩
    · exact hok.2 (by rw [hcall]; exact hrefused)
    · cases hrefused

theorem Sync.Solo.thread {args : ConnectArgs} (hone : args.oneShot = true) {c : Sync} {i : CallId}
    {x : CallStart ⊕ Choice} {t : Call} (hc : c.Solo text args) (hp : PendingInv c.shared)
    (hasserts : (c.thread 0).Asserts c.shared.registry) (hholds : (c.thread 0).Holds c.shared 0)
    (hok : OneShot args c (.thread i x))
    (h : callStep text i x c.shared (c.thread i) = some (s, t)) :
    Sync.Solo text args (c.move i (s, t)) := by
  obtain ⟨hothers, hpeer, pc, hpc, hruns⟩ := hc
  -- only thread 0 moves
  obtain rfl : i = 0 := by
    by_contra hi
    rw [hothers i hi] at h
    cases x with
    | inl start => exact hi hok.1
    | inr ch => cases h
  have hrest : ∀ j, j ≠ 0 → (c.move 0 (s, t)).thread j = .idle := fun j hj => by
    rw [Config.move_thread_of_ne _ _ hj]
    exact hothers j hj
  rcases hpc with hcall | ⟨hcall, rfl⟩
  · rw [hcall] at h hasserts hholds
    have hmove := callStep_move h
    cases hmove with
    | connect _ _ pc' _ heff =>
      refine ⟨hrest, heff.privateInv hpeer hruns, pc', Or.inl (by simp), ?_⟩
      cases x with
      | inl start => cases h
      | inr ch =>
        refine heff.runs hone hpeer hp hasserts hholds ?_ hruns
        rintro a rfl hrefused
        cases ch <;>
          simp only [callStep, connectStep, startStep, Option.map_none, reduceCtorEq] at h
        · next r =>
            refine hok fun hr => ?_
            subst hr
            cases h
            cases hrefused
        · exact hok
  · rw [hcall] at h
    cases x with
    | inr ch => cases h
    | inl start =>
      obtain ⟨-, rfl⟩ := hok
      cases h
      exact ⟨hrest, hpeer, .start .checkOpen, Or.inl (by simp), hruns⟩

theorem reach_solo {args : ConnectArgs} (hone : args.oneShot = true) {c : Sync} {q : Option Nat}
    {t₀ : Int} (h : Reach (sync text) (OneShot args) (Sync.init q t₀) c) :
    Sync.Solo text args c := by
  refine h.invariant (I := fun c => Sync.Solo text args c) (solo_init args q t₀) ?_
  intro c a c' hr hok hs hi
  have hp := (reach_pendingInv hr).1
  rcases System.step_cases hs with ⟨e, s, rfl, he, rfl⟩ | ⟨i, x, s, t, rfl, hx, rfl⟩
  · exact hi.shared (reach_registryInv hr).1 hp (reach_shutdownInv hr) hok (act_effect he)
  · exact hi.thread hone hp ((reach_registryInv hr).2 0) ((reach_holds hr).2 0) hok hx

theorem Sync.Solo.respectful {args : ConnectArgs} {c : Sync} (hc : c.Solo text args)
    (a : SyncAction) : Respectful text c a := by
  obtain ⟨hothers, hpeer, pc, hpc, hruns⟩ := hc
  have hstage := hruns.stage
  have hentry : ∀ k, c.shared.peer.pendingConnects.get? k = none ∨
      c.shared.peer.pendingConnects.get? k = some 0 := by
    intro k
    rcases hk : c.shared.peer.pendingConnects.get? k with _ | j
    · exact Or.inl rfl
    · exact Or.inr (congrArg some (hpeer.entry k j hk))
  cases a with
  | shared e => trivial
  | thread i x =>
    by_cases hi : i = 0
    · subst hi
      rcases hpc with hcall | ⟨hcall, rfl⟩
      · simp only [Respectful, hcall]
        split
        · next heq =>
          cases heq
          exact hstage.1.table _
        all_goals first | exact hentry _ | trivial
      · simp [Respectful, hcall]
    · simp [Respectful, hothers i hi]

/-! ## The event is set -/

/-- Only the pump and the closer move. -/
def Working (_ : Sync) : SyncAction → Prop
  | .shared .pump | .shared .closer => True
  | _ => False

/-- The pump and the closer, left alone, set the event of call `i`. -/
def Sync.Wakes (text : SystemAddress → String) (c : Sync) (i : CallId) : Prop :=
  ∃ c', Reach (sync text) Working c c' ∧ (c'.shared.peer.pendingConnect i).event = true

theorem wakes_pump {c : Sync} {i : CallId} (h : c.shared.pumpStep text = some s)
    (hw : Sync.Wakes text { c with shared := s } i) : c.Wakes text i := by
  obtain ⟨c', hc', hevent⟩ := hw
  have hstep : (sync text).step c (.shared .pump) = some { c with shared := s } := by
    simp [System.step, sync, State.act, h]
  exact ⟨c', (Reach.single (show Working c (.shared .pump) from trivial) hstep).trans hc', hevent⟩

theorem wakes_closer {c : Sync} {i : CallId} (h : c.shared.closerStep = some s)
    (hw : Sync.Wakes text { c with shared := s } i) : c.Wakes text i := by
  obtain ⟨c', hc', hevent⟩ := hw
  have hstep : (sync text).step c (.shared .closer) = some { c with shared := s } := by
    simp [System.step, sync, State.act, h]
  exact ⟨c', (Reach.single (show Working c (.shared .closer) from trivial) hstep).trans hc', hevent⟩

/-- A handler that holds the pending connect goes on to set its event. -/
theorem wakes_of_held {c : Sync} {i : CallId} {w : Bool}
    (h : c.shared.pump.connectHeld = some (i, w)) : c.Wakes text i := by
  have hset : ∀ c : Sync, c.shared.pump = .connectSet i → c.Wakes text i := by
    intro c hc
    have hs : c.shared.pumpStep text = some
        (((c.shared.set (c.shared.peer.setConnectEvent i)).emit (.connectResolved i)).goto
          .loop) := by
      simp only [State.pumpStep, hc]
    exact wakes_pump hs ⟨_, .start, by simp⟩
  have hassign : ∀ (c : Sync) k, c.shared.pump = .succeededAssign i k → c.Wakes text i :=
    fun c k hc => wakes_pump
      (by simp only [State.pumpStep, hc]; rfl) (hset _ rfl)
  have hregister : ∀ (c : Sync) g k, c.shared.pump = .succeededRegister i g k → c.Wakes text i :=
    fun c g k hc => wakes_pump
      (by simp only [State.pumpStep, hc]; rfl) (hassign _ k rfl)
  cases hp : c.shared.pump <;> rw [hp] at h <;> cases h
  case succeededCreate a g =>
    exact wakes_pump (by simp only [State.pumpStep, hp]; rfl)
      (hregister _ g _ rfl)
  case succeededRegister g k => exact hregister c g k hp
  case succeededAssign k => exact hassign c k hp
  case failedAssign r =>
    exact wakes_pump (by simp only [State.pumpStep, hp]; rfl)
      (hset _ rfl)
  case connectSet => exact hset c hp

/-- A closer that has passed the join goes on to set the events of its snapshot. -/
theorem wakes_of_swept {c : Sync} {i : CallId} (hjoined : c.shared.teardown.joined = true)
    (h : i ∈ c.shared.teardown.connects ∨ c.shared.teardown.connectInHand = some i) :
    c.Wakes text i := by
  have hset : ∀ (c : Sync) snap, c.shared.teardown = .setConnect i snap → c.Wakes text i := by
    intro c snap hc
    have hs : c.shared.closerStep = some (((c.shared.set
        (c.shared.peer.setConnectEvent i)).emit (.connectResolved i)).close
          (.sweepConnects snap)) := by
      simp only [State.closerStep, hc]
    exact wakes_closer hs ⟨_, .start, by simp⟩
  -- the loop over the pending connects
  have hconnects : ∀ (l : List CallId) (c : Sync) snap, snap.pendingConnects = l → i ∈ l →
      c.shared.teardown = .sweepConnects snap → c.Wakes text i := by
    intro l
    induction l with
    | nil => simp
    | cons j l ih =>
      intro c snap hl hi hc
      have hs : c.shared.closerStep = some
          ((c.shared.set (c.shared.peer.assignReason j .connectionAttemptFailed)).close
            (.setConnect j { snap with pendingConnects := l })) := by
        simp only [State.closerStep, hc, hl]
      by_cases hj : j = i
      · subst hj
        exact wakes_closer hs (hset _ _ rfl)
      · have hi' : i ∈ l := by simpa [Ne.symm hj] using hi
        exact wakes_closer hs
          (wakes_closer rfl (ih _ { snap with pendingConnects := l } rfl hi' rfl))
  -- the loop over the Connections
  have hconnections : ∀ (l : List ConnId) (c : Sync) exc snap, snap.connections = l →
      i ∈ snap.pendingConnects → c.shared.teardown = .sweepConnections exc snap →
        c.Wakes text i := by
    intro l
    induction l with
    | nil =>
      intro c exc snap hl hi hc
      have hs : c.shared.closerStep = some (c.shared.close (.sweepConnects snap)) := by
        simp only [State.closerStep, hc, hl]
      exact wakes_closer hs (hconnects _ _ snap rfl hi rfl)
    | cons k l ih =>
      intro c exc snap hl hi hc
      have hs : c.shared.closerStep = some ((c.shared.set
          (c.shared.peer.markClosed k)).close
            (.closeMailbox exc k { snap with connections := l })) := by
        simp only [State.closerStep, hc, hl]
      exact wakes_closer hs (wakes_closer rfl (ih _ exc { snap with connections := l } rfl hi rfl))
  cases ht : c.shared.teardown <;> rw [ht] at h hjoined <;>
    simp only [Teardown.connects, Teardown.connectInHand, List.not_mem_nil, reduceCtorEq, or_false,
      Option.some.injEq] at h
  case joining | cancelled => cases hjoined
  case shutdown exc snap =>
    exact wakes_closer (by simp only [State.closerStep, ht]; rfl)
      (hconnections _ _ _ snap rfl h rfl)
  case sweepConnections exc snap => exact hconnections _ c exc snap rfl h ht
  case closeMailbox exc k snap =>
    exact wakes_closer (by simp only [State.closerStep, ht]; rfl)
      (hconnections _ _ _ snap rfl h rfl)
  case sweepConnects snap => exact hconnects _ c snap rfl h ht
  case setConnect j snap =>
    rcases h with h | rfl
    · exact wakes_closer (by simp only [State.closerStep, ht]; rfl)
        (hconnects _ _ snap rfl h rfl)
    · exact hset c snap ht

/-- `close` of a Connection that owns its Peer returns with the Peer closed. -/
theorem reach_closes {c c' : Sync} {q : Option Nat} {t₀ : Int} {k : ConnId}
    (h : Reach (sync text) anyStep (Sync.init q t₀) c) (hk : k < c.shared.peer.created)
    (hown : (c.shared.peer.connection k).ownsPeer = true) (hcalls : ∀ i, c.thread i ≠ .closed k)
    (h' : Reach (sync text) anyStep c c') (i : CallId) (hi : c'.thread i = .closed k) :
    c'.shared.peer.closed = true := by
  refine (h'.outline (G := fun _ => True)
    (L := fun i s t => t = .closed k → s.peer.closed = true) trivial
    (fun i hi => absurd hi (hcalls i)) ?_ ?_).2 i hi
  · intro c₁ e s hr _ hs _
    refine ⟨trivial, fun i t ht hcl => ?_⟩
    have hclosed := ht hcl
    cases act_effect hs <;> first | exact hclosed | rfl
  · intro c₁ j x s t hr _ hs _ ht
    have hmono : c₁.shared.peer.closed = true → s.peer.closed = true := fun hclosed => by
      cases callStep_effect hs <;> first | exact hclosed | rfl
    refine ⟨trivial, fun hcl => ?_, fun _ _ u hu hcl => hmono (hu hcl)⟩
    generalize hcall : c₁.thread j = call at hs
    have hmove := callStep_move hs
    cases hmove with
    | begin start t h =>
      cases hcl
      cases start <;> simp only [startCall, Option.some.injEq, reduceCtorEq] at h
      split_ifs at h
      cases h
    | closed k' notify pc s' hclose =>
      cases hcl
      have howns : (c₁.shared.peer.connection k).ownsPeer = true :=
        (reach_grows h hr).owned k hk hown
      cases hclose with
      | shared hno => simp [howns] at hno
      | lost hclosed => exact hclosed
      | closed hdone => exact (reach_shutdownInv (h.trans hr)).begun.mpr (by simp [hdone])
    | _ => cases hcl

/-! ## All or nothing -/

/-- A closer that has still pending connects to resolve is the failing pump. -/
theorem failing_of_swept (hsd : ShutdownInv s) {i : CallId}
    (hstop : s.peer.closed = true → s.pump = .failing ∨ s.teardown = .done)
    (h : i ∈ s.teardown.connects ∨ s.teardown.connectInHand = some i) : s.pump = .failing := by
  have hbegun : s.teardown ≠ .unbegun := by
    rintro ht
    simp [ht, Teardown.connects, Teardown.connectInHand] at h
  refine (hstop (hsd.begun.mpr hbegun)).resolve_right fun ht => ?_
  simp [ht, Teardown.connects, Teardown.connectInHand] at h

/-- **`create_connection` is all or nothing.** If it raises, the private Peer is closed, its tables
are empty and every Connection is closed, with a reason or as the one the failing pump is about to
give a reason. If it returns, then the Connection of the acceptance that resolved the attempt, and
that Connection's `close` returns only with the Peer closed. While it waits without timeout, its
event is set or the pump, in a handler or in `_fail`, holds its pending object and sets the
event. -/
theorem create_connection_sound {args : ConnectArgs} (hone : args.oneShot = true)
    {q : Option Nat} {t₀ : Int} {c : Sync}
    (h : Reach (sync text) (OneShot args) (Sync.init q t₀) c) :
    (∀ e, c.thread 0 = .connect args (.raised e) →
      e ≠ .assertion ∧ c.shared.peer.closed = true ∧
      (∀ g, c.shared.peer.connections.get? g = none) ∧
      (∀ k, c.shared.peer.pendingConnects.get? k = none) ∧
      (∀ k, c.shared.peer.pendingPings.get? k = none) ∧
      ∀ k, k < c.shared.peer.created → (c.shared.peer.connection k).closed = true ∧
        ((c.shared.peer.mailbox k).exc ≠ none ∨
          c.shared.pump = .failing ∧ c.shared.teardown.inHand = some k)) ∧
    (∀ k, c.thread 0 = .connect args (.returned k) →
      (c.shared.peer.pendingConnect 0).connection = some k ∧
      c.shared.Accepted text 0 (c.shared.peer.connection k).rawAddress
        (c.shared.peer.connection k).rawGuid ∧
      (c.shared.peer.connection k).ownsPeer = true ∧
      ∀ c', Reach (sync text) anyStep c c' → ∀ i, c'.thread i = .closed k →
        c'.shared.peer.closed = true) ∧
    (∀ a, c.thread 0 = .connect args (.waitAgain a) →
      (c.shared.peer.pendingConnect 0).event = true ∨
      ((∃ w, c.shared.pump.connectHeld = some (0, w)) ∨
        c.shared.pump = .failing ∧ (0 ∈ c.shared.teardown.connects ∨
          c.shared.teardown.connectInHand = some 0)) ∧ c.Wakes text 0) := by
  have hsolo := reach_solo hone h
  obtain ⟨hothers, hpeer, pc, hpc, hruns⟩ := hsolo
  have hsd := reach_shutdownInv h
  have hholds := (reach_holds h).2 0
  have hat : ∀ pc', c.thread 0 = .connect args pc' → pc' = pc := by
    rintro pc' hc
    rcases hpc with hcall | ⟨hcall, -⟩ <;> rw [hcall] at hc <;> cases hc
    rfl
  refine ⟨fun e hc => ?_, fun k hc => ?_, fun a hc => ?_⟩ <;> obtain rfl := hat _ hc <;>
    rw [hc] at hholds
  · obtain ⟨-, hall, hclosed⟩ := hruns.stage
    refine ⟨hholds, hclosed, (hpeer.shut hclosed).1, hsd.connects hclosed, hsd.pings hclosed,
      fun k hk => ⟨hall k hk, ?_⟩⟩
    have hstop := hruns.closer rfl hclosed
    rcases reach_settled h k (hall k hk) with hreason | (hpump | hhand) | ⟨i, hi⟩
    · exact Or.inl hreason
    · have hstopped : c.shared.pump.stopped = true := by
        rcases hstop with hp | ht
        · rw [hp]; rfl
        · exact hsd.joined (by rw [ht]; rfl)
      cases hp : c.shared.pump <;> rw [hp] at hpump hstopped <;> cases hpump <;> cases hstopped
    · refine Or.inr ⟨hstop.resolve_right fun ht => ?_, hhand⟩
      simp [ht, Teardown.inHand] at hhand
    · by_cases h0 : i = 0
      · subst h0
        rw [hc] at hi
        cases hi
      · rw [hothers i h0] at hi
        cases hi
  · have hconn := hholds.2
    have hk := ((reach_registryInv h).1.pending 0 k hconn).1
    refine ⟨hconn, (reach_origin h).assigned 0 k hconn, hruns.owned k rfl, fun c' h' i hi => ?_⟩
    refine reach_closes h.any hk (hruns.owned k rfl) (fun j hj => ?_) h' i hi
    by_cases h0 : j = 0
    · subst h0
      rw [hc] at hj
      cases hj
    · rw [hothers j h0] at hj
      cases hj
  · have htable : ∀ k, c.shared.peer.pendingConnects.get? k = none := hruns.stage
    have hrespect : Reach (sync text) (Respectful text) (Sync.init q t₀) c :=
      h.mono fun d b hd _ => (reach_solo hone hd).respectful b
    have hstop := hruns.closer rfl
    rcases reach_tracked hrespect (by rw [hc]; rfl) with hevent | hentry | hheld | hswept | hhand
    · exact Or.inl hevent
    · simp [State.connects, htable] at hentry
    · obtain ⟨⟨j, w⟩, hw, rfl⟩ := Option.map_eq_some_iff.mp hheld
      exact Or.inr ⟨Or.inl ⟨w, hw⟩, wakes_of_held hw⟩
    · have hfailing : c.shared.pump = .failing := failing_of_swept hsd hstop (Or.inl hswept)
      exact Or.inr ⟨Or.inr ⟨hfailing, Or.inl hswept⟩,
        wakes_of_swept (hsd.failing hfailing) (Or.inl hswept)⟩
    · have hfailing : c.shared.pump = .failing := failing_of_swept hsd hstop (Or.inr hhand)
      exact Or.inr ⟨Or.inr ⟨hfailing, Or.inr hhand⟩,
        wakes_of_swept (hsd.failing hfailing) (Or.inr hhand)⟩

/-- The arguments of a `create_connection`. -/
def oneShotArgs : ConnectArgs := ⟨"a", 1, 12, true⟩

theorem create_connection_returned :
    ∃ c, Reach (sync SystemAddress.text) (OneShot oneShotArgs) (Sync.init none 0) c ∧
      c.thread 0 = .connect oneShotArgs (.returned 0) ∧
      (c.shared.peer.pendingConnect 0).connection = some 0 := by
  have h : Reach (sync SystemAddress.text) (OneShot oneShotArgs) (Sync.init none 0) _ :=
    .of_exec (show (sync SystemAddress.text).exec (OneShot oneShotArgs)
      (connects 0 oneShotArgs "10.0.0.1" .connectionAttemptStarted ++
        routes ⟨⟨"10.0.0.1", 1⟩, 7, [16]⟩ 6 ++ steps 0 3) (Sync.init none 0) = some _ from rfl)
  exact ⟨_, h, rfl, ((create_connection_sound rfl h).2.1 0 rfl).1⟩

/-- The call times out while the pump builds its Connection, then the pump fails. `_fail` has
flagged the Connection, so the call does not close it again, loses `_begin_close` and raises
before `_fail` has closed the mailbox. -/
theorem create_connection_early :
    ∃ c, Reach (sync SystemAddress.text) (OneShot oneShotArgs) (Sync.init none 0) c ∧
      c.thread 0 = .connect oneShotArgs (.raised oneShotArgs.timedOut) ∧
      0 < c.shared.peer.created ∧ (c.shared.peer.mailbox 0).exc = none := by
  have h : Reach (sync SystemAddress.text) (OneShot oneShotArgs) (Sync.init none 0) _ :=
    .of_exec (show (sync SystemAddress.text).exec (OneShot oneShotArgs)
      (connects 0 oneShotArgs "10.0.0.1" .connectionAttemptStarted ++
        routes ⟨⟨"10.0.0.1", 1⟩, 7, [16]⟩ 2 ++ .thread 0 (.inr .timeout) :: steps 0 1 ++
        pumps 5 ++ .shared (.received (.raises "")) :: pumps 1 ++ closes 2 ++ steps 0 4)
      (Sync.init none 0) = some _ from rfl)
  exact ⟨_, h, rfl, by decide, rfl⟩

end Raknet
