import Raknet.Sync.Requests

/-!
# The packet that resolved a connect

The pump pops a pending connect while it routes a packet, and builds the Connection from that
packet. `trail` reads both from the history.

**Theorem (`reach_origin`).** The Connection of a pending connect has the address and the guid of
the acceptance in whose callback the pending connect was popped, and the call registered under the
text of that address.
-/

namespace Raknet

open Interleaving

/-- The packet routed last, and the packet in whose callback the pending connect of call `i` was
popped, after one more event. -/
def Event.follow (i : CallId) (r : Option Packet × Option Packet) :
    Event → Option Packet × Option Packet
  | routed p => (some p, r.2)
  | connectPopped j => if j = i then (r.1, r.1) else r
  | _ => r

/-- The packet routed last, and the packet in whose callback the pending connect of call `i` was
popped. -/
def trail (i : CallId) (log : List Event) : Option Packet × Option Packet :=
  log.foldl (Event.follow i) (none, none)

@[grind =] theorem trail_append (i : CallId) (log : List Event) (e : Event) :
    trail i (log ++ [e]) = e.follow i (trail i log) := by
  simp [trail]

/-- The pending connect of call `i` was popped for the acceptance of `g` at `a`, under the text of
an address that the call had registered. -/
def State.Accepted (text : SystemAddress → String) (s : State) (i : CallId) (a : SystemAddress)
    (g : Guid) : Prop :=
  (∃ p, (trail i s.log).2 = some p ∧ route p = some (.connectSucceeded a g)) ∧
    ∃ b, .connectEntered i b ∈ s.log ∧ text b = text a

structure OriginInv (text : SystemAddress → String) (s : State) : Prop where
  routing : ∀ a g, s.pump = .succeededPop a g →
    ∀ i, ∃ p, (trail i s.log).1 = some p ∧ route p = some (.connectSucceeded a g)
  entry : ∀ k i, s.peer.pendingConnects.get? k = some i →
    ∃ b, .connectEntered i b ∈ s.log ∧ text b = k
  create : ∀ i a g, s.pump = .succeededCreate i a g → s.Accepted text i a g
  register : ∀ i g c, s.pump = .succeededRegister i g c →
    s.Accepted text i (s.peer.connection c).rawAddress (s.peer.connection c).rawGuid
  assign : ∀ i c, s.pump = .succeededAssign i c →
    s.Accepted text i (s.peer.connection c).rawAddress (s.peer.connection c).rawGuid
  assigned : ∀ i c, (s.peer.pendingConnect i).connection = some c →
    s.Accepted text i (s.peer.connection c).rawAddress (s.peer.connection c).rawGuid

variable {text : SystemAddress → String} {s s' : State}

theorem originInv_init (q : Option Nat) (t₀ : Int) : OriginInv text (State.init q t₀) := by
  constructor <;> simp [State.init, Peer.init, PendingConnect.new]

theorem State.Accepted.mono {i : CallId} {a : SystemAddress} {g : Guid}
    (h : s.Accepted text i a g)
    (hlog : s'.log = s.log ∨ ∃ e : Event, e ≠ .connectPopped i ∧ s'.log = s.log ++ [e]) :
    s'.Accepted text i a g := by
  obtain ⟨⟨p, hp, hroute⟩, b, hb, htext⟩ := h
  rcases hlog with hlog | ⟨e, he, hlog⟩
  · exact ⟨⟨p, hlog ▸ hp, hroute⟩, b, hlog ▸ hb, htext⟩
  · refine ⟨⟨p, ?_, hroute⟩, b, by simp [hlog, hb], htext⟩
    rw [hlog, trail_append]
    cases e <;> simp only [Event.follow, hp]
    case connectPopped j => rw [if_neg fun hj => he (congrArg Event.connectPopped hj), hp]

/-- A pending connect that the pump holds, or whose outcome is written, was taken. -/
theorem PendingInv.taken_of_connection (hp : PendingInv s) {i : CallId} {c : ConnId}
    (h : (s.peer.pendingConnect i).connection = some c) : i ∈ s.connects.taken := by
  by_contra htaken
  have hblank := hp.connects.blank_untaken i htaken
  simp [ConnectOutcome.Blank, State.connects, h] at hblank

theorem PendingInv.taken_of_held (hp : PendingInv s) {i : CallId} {w : Bool}
    (h : s.pump.connectHeld = some (i, w)) : i ∈ s.connects.taken :=
  (hp.connects.held i w h).1

theorem ActEffect.accepted {e : State.Act} (h : ActEffect text s e s') (hp : PendingInv s)
    {i : CallId} {a : SystemAddress} {g : Guid} (htaken : i ∈ s.connects.taken)
    (ha : s.Accepted text i a g) : s'.Accepted text i a g := by
  cases h
  case succeededPop j b g' h hget | failedPop j b r h hget =>
    refine ha.mono (Or.inr ⟨_, ?_, rfl⟩)
    rintro ⟨⟩
    exact (hp.connects.listed _ _ hget).2 htaken
  case route | incomingRegister | succeededRegister | connectSet | messagePut | messageReject |
      overflowRaw | pongPop | pingSet | fail | setConnect | sweepPing | putSentinel | recvItem |
      recvRaises =>
    exact ha.mono (Or.inr ⟨_, by simp, rfl⟩)
  all_goals exact ha.mono (Or.inl rfl)

theorem CallEffect.accepted {i : CallId} {t : Call} (h : CallEffect text i s t s') {j : CallId}
    {a : SystemAddress} {g : Guid} (ha : s.Accepted text j a g) : s'.Accepted text j a g := by
  cases h with
  | registerConnect | cancel | registerPing | rawClose | beginClose =>
    exact ha.mono (Or.inr ⟨_, by simp, rfl⟩)
  | _ => exact ha.mono (Or.inl rfl)

theorem CallEffect.originInv {i : CallId} {t : Call} (h : CallEffect text i s t s')
    (hr : RegistryInv s) (hg : s.registry.Grows s'.registry) (hi : OriginInv text s) :
    OriginInv text s' := by
  have hsame : s'.pump = s.pump ∧ ∀ j, (trail j s'.log).1 = (trail j s.log).1 := by
    cases h <;> simp [trail_append, Event.follow]
  obtain ⟨hpump, htrail⟩ := hsame
  have hkeep : ∀ j c, s.peer.created > c →
      s.Accepted text j (s.peer.connection c).rawAddress (s.peer.connection c).rawGuid →
      s'.Accepted text j (s'.peer.connection c).rawAddress (s'.peer.connection c).rawGuid := by
    intro j c hc ha
    have hguid := hg.guid c hc
    have haddress := hg.address c hc
    simp only [State.registry_connection] at hguid haddress
    rw [hguid, haddress]
    exact h.accepted ha
  constructor
  case routing =>
    intro a g hp j
    rw [htrail]
    exact hi.routing a g (hpump ▸ hp) j
  case entry =>
    intro k j hk
    have hmono : ∀ b, Event.connectEntered j b ∈ s.log → Event.connectEntered j b ∈ s'.log := by
      intro b hb
      cases h <;> simp [hb]
    cases h with
    | registerConnect args a h hopen =>
      simp only [State.emit_peer, State.set_peer, Peer.registerConnect_pendingConnects,
        Dict.get?_set] at hk
      split_ifs at hk with hka
      · cases hk
        exact ⟨a, by simp, hka.symm⟩
      · obtain ⟨b, hb, htext⟩ := hi.entry k j hk
        exact ⟨b, hmono b hb, htext⟩
    | popFailed | popAbandoned | beginClose =>
      have hk' : s.peer.pendingConnects.get? k = some j := by grind
      obtain ⟨b, hb, htext⟩ := hi.entry k j hk'
      exact ⟨b, hmono b hb, htext⟩
    | _ =>
      obtain ⟨b, hb, htext⟩ := hi.entry k j hk
      exact ⟨b, hmono b hb, htext⟩
  case create => exact fun j a g hp => h.accepted (hi.create j a g (hpump ▸ hp))
  case register =>
    intro j g c hp
    rw [hpump] at hp
    exact hkeep j c (hr.inv.fresh_lt c (by simp [hp, PumpPc.fresh?])) (hi.register j g c hp)
  case assign =>
    intro j c hp
    rw [hpump] at hp
    have hpub := hr.pump
    rw [hp] at hpub
    exact hkeep j c hpub.1 (hi.assign j c hp)
  case assigned =>
    intro j c hc
    have hc' : (s.peer.pendingConnect j).connection = some c := by
      cases h with
      | newConnect args h => grind [PendingConnect.new]
      | _ => exact hc
    exact hkeep j c (hr.pending j c hc').1 (hi.assigned j c hc')

/-- Only the calls enter pending connects. -/
theorem ActEffect.entry_old {e : State.Act} (h : ActEffect text s e s') {k : String} {j : CallId}
    (hk : s'.peer.pendingConnects.get? k = some j) : s.peer.pendingConnects.get? k = some j := by
  cases h <;> first | exact hk | grind

theorem trail_route {p : Packet} {a : SystemAddress} {g : Guid}
    (h : PumpPc.enter (route p) = .succeededPop a g) : route p = some (.connectSucceeded a g) := by
  rcases hr : route p with _ | cb
  · rw [hr] at h
    cases h
  · rw [hr] at h
    cases cb <;> cases h
    rfl

/-- The pump carries what it read from the packet over to the Connection. -/
theorem ActEffect.originPump {e : State.Act} (h : ActEffect text s e s')
    (hi : OriginInv text s) (hmove : s'.pump ≠ s.pump) :
    (∀ a g, s'.pump = .succeededPop a g → ∀ i, ∃ p, (trail i s'.log).1 = some p ∧
      Raknet.route p = some (.connectSucceeded a g)) ∧
    (∀ i a g, s'.pump = .succeededCreate i a g → s'.Accepted text i a g) ∧
    (∀ i g c, s'.pump = .succeededRegister i g c →
      s'.Accepted text i (s'.peer.connection c).rawAddress (s'.peer.connection c).rawGuid) ∧
    (∀ i c, s'.pump = .succeededAssign i c →
      s'.Accepted text i (s'.peer.connection c).rawAddress (s'.peer.connection c).rawGuid) := by
  cases h
  case route p h =>
    refine ⟨fun a g hp i => ⟨p, by simp [trail_append, Event.follow], trail_route hp⟩, ?_, ?_,
      ?_⟩ <;>
      rcases Raknet.route p with _ | ⟨_ | _⟩ <;> simp [PumpPc.enter]
  case succeededPop i a g h hget =>
    refine ⟨by simp, fun j b g' hp => ?_, by simp, by simp⟩
    cases hp
    obtain ⟨p, hp, hroute⟩ := hi.routing a g h i
    obtain ⟨b, hb, htext⟩ := hi.entry _ _ hget
    exact ⟨⟨p, by simp [trail_append, Event.follow, hp], hroute⟩, b, by simp [hb], htext⟩
  case succeededCreate i a g h =>
    refine ⟨by simp, by simp, fun j g' c hp => ?_, by simp⟩
    cases hp
    simp only [State.goto_peer, State.set_peer, Peer.construct_connection, Function.update_self]
    exact hi.create i a g h
  case succeededRegister i g c h =>
    refine ⟨by simp, by simp, by simp, fun j k hp => ?_⟩
    cases hp
    exact (hi.register i g c h).mono (Or.inr ⟨.registered c, by simp, rfl⟩)
  all_goals first | exact absurd rfl hmove | simp

theorem ActEffect.originInv {e : State.Act} (h : ActEffect text s e s') (hr : RegistryInv s)
    (hg : s.registry.Grows s'.registry) (hp : PendingInv s) (hi : OriginInv text s) :
    OriginInv text s' := by
  have hkeep : ∀ j c, c < s.peer.created → j ∈ s.connects.taken →
      s.Accepted text j (s.peer.connection c).rawAddress (s.peer.connection c).rawGuid →
      s'.Accepted text j (s'.peer.connection c).rawAddress (s'.peer.connection c).rawGuid := by
    intro j c hc hj ha
    have hguid := hg.guid c hc
    have haddress := hg.address c hc
    simp only [State.registry_connection] at hguid haddress
    rw [hguid, haddress]
    exact h.accepted hp hj ha
  have hpub := hr.pump
  have hheld : ∀ j c, s.pump = .succeededAssign j c →
      s'.Accepted text j (s'.peer.connection c).rawAddress (s'.peer.connection c).rawGuid := by
    intro j c hj
    rw [hj] at hpub
    exact hkeep j c hpub.1 (hp.taken_of_held (by rw [hj]; rfl)) (hi.assign j c hj)
  -- a pump that stays where it is keeps what it has read
  have hpump : (∀ a g, s'.pump = .succeededPop a g → ∀ i, ∃ p, (trail i s'.log).1 = some p ∧
        Raknet.route p = some (.connectSucceeded a g)) ∧
      (∀ i a g, s'.pump = .succeededCreate i a g → s'.Accepted text i a g) ∧
      (∀ i g c, s'.pump = .succeededRegister i g c →
        s'.Accepted text i (s'.peer.connection c).rawAddress (s'.peer.connection c).rawGuid) ∧
      (∀ i c, s'.pump = .succeededAssign i c →
        s'.Accepted text i (s'.peer.connection c).rawAddress (s'.peer.connection c).rawGuid) := by
    by_cases hmove : s'.pump = s.pump
    · rw [hmove]
      refine ⟨fun a g hj i => ?_, fun i a g hj => ?_, fun i g c hj => ?_, hheld⟩
      · have htrail : (trail i s'.log).1 = (trail i s.log).1 := by
          cases h
          case route p h => cases hj.symm.trans h
          all_goals simp [trail_append, Event.follow]
          all_goals split_ifs <;> rfl
        rw [htrail]
        exact hi.routing a g hj i
      · exact h.accepted hp (hp.taken_of_held (by rw [hj]; rfl)) (hi.create i a g hj)
      · exact hkeep i c (hr.inv.fresh_lt c (by simp [hj, PumpPc.fresh?]))
          (hp.taken_of_held (by rw [hj]; rfl)) (hi.register i g c hj)
    · exact h.originPump hi hmove
  obtain ⟨hrouting, hcreate, hregister, hassign⟩ := hpump
  refine ⟨hrouting, fun k j hk => ?_, hcreate, hregister, hassign, fun j c hc => ?_⟩
  · obtain ⟨b, hb, htext⟩ := hi.entry k j (h.entry_old hk)
    exact ⟨b, by cases h <;> simp [hb], htext⟩
  · have hc' : (s.peer.pendingConnect j).connection = some c ∨ s.pump = .succeededAssign j c := by
      cases h
      case succeededAssign i k h => grind
      case failedAssign | connectSet | sweepConnect | setConnect => left; grind
      all_goals exact Or.inl hc
    rcases hc' with hc' | hj
    · exact hkeep j c (hr.pending j c hc').1 (hp.taken_of_connection hc') (hi.assigned j c hc')
    · exact hheld j c hj

/-- Every Connection of a pending connect stems from the acceptance that took the pending connect
out of the table. -/
theorem reach_origin {ok : Sync → SyncAction → Prop} {c : Sync} {q : Option Nat} {t₀ : Int}
    (h : Reach (sync text) ok (Sync.init q t₀) c) : OriginInv text c.shared := by
  refine h.invariant (I := fun c => OriginInv text c.shared) (originInv_init q t₀) ?_
  intro c a c' hr _ hs hi
  have hreg := (reach_registryInv hr).1
  have hgrows := (step_registry hr hs).grows hreg.inv
  rcases System.step_cases hs with ⟨e, s, rfl, he, rfl⟩ | ⟨i, x, s, t, rfl, hx, rfl⟩
  · exact (act_effect he).originInv hreg hgrows (reach_pendingInv hr).1 hi
  · exact (callStep_effect hx).originInv hreg hgrows hi

end Raknet
