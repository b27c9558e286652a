import Raknet.Transport.Linked

/-!
# Every live guid has an owner

The Peer and its transport drive the ledger of `Raknet.Lib.Custody`. A report is on its way while
its packet is in the FIFO or the pump has not acted on it. An address is expected while the table
has its entry, a guid is registered while `_connections` has it, and the pump and `Connection.close`
release what they have taken out of the registry.

**Theorem (`act_custody`, `callStep_custody`).** Every step of an open Peer is a step of the ledger.

**Theorem (`custody`).** If every call that times out cancels in time, then at rest every live guid
is the key of a registered Connection, and RakNet will not refuse the address of a timed-out call.

**Theorem (`custody_leak`).** An attempt that turns into a live guid between the time-out and the
cancellation stays live, and nobody knows it.
-/

namespace Raknet

open Interleaving DefaultMessageIDTypes Custody

/-! ## The ledger of a Peer -/

/-- The report in whose callback the pump is, as long as it has not acted on it. -/
def PumpPc.hand : PumpPc → List (Report SystemAddress Guid)
  | route p => p.report.toList
  | succeededPop a g => [.accepted a g]
  | failedPop a _ => [.failed a]
  | disconnectedPop g _ => [.ended g]
  | _ => []

/-- The link for which the pump has to register a Connection. -/
def State.underway (s : State) : Option (SystemAddress × Guid) :=
  match s.pump with
  | .succeededCreate _ a g => some (a, g)
  | .succeededRegister _ g k => some ((s.peer.connection k).rawAddress, g)
  | _ => none

/-- The Connection whose guid the pump is going to close. -/
def PumpPc.letting : PumpPc → Option ConnId
  | overflowMark c | overflowCheck c | overflowRaw c => some c
  | _ => none

/-- The Connection whose guid a call is going to close. -/
def Call.letting (t : Call) : Option ConnId :=
  match t.closing with
  | some (c, .mark) | some (c, .checkPeer) | some (c, .raw) => some c
  | _ => none

/-- The attempt that the call is going to cancel. -/
def Call.cancelling : Call → Option SystemAddress
  | connect _ (.abandon a .cancel) => some a
  | _ => none

/-- The ledger of a Peer, its transport and its calls. -/
@[simps] def ledger (text : SystemAddress → String) (s : State) (n : Net) (t : ℕ → Call) :
    Ledger SystemAddress Guid where
  attempts a := a ∈ n.attempts
  live g := n.live.get? g
  reports := s.pump.hand ++ n.fifo.filterMap Packet.report
  expected a := s.peer.pendingConnects.get? (text a) ≠ none
  building := s.underway
  registered g a := ∃ k, s.peer.connections.get? g = some k ∧ (s.peer.connection k).rawAddress = a
  releasing g := (∃ k, s.pump.letting = some k ∧ (s.peer.connection k).rawGuid = g) ∨
    ∃ i k, (t i).letting = some k ∧ (s.peer.connection k).rawGuid = g
  cancelling a := ∃ i, (t i).cancelling = some a

/-- The Peer is open and will stay so for the step its pump takes. -/
def State.Alive (s : State) : Prop := s.peer.closed = false ∧ ∀ detail, s.pump ≠ .fail detail

variable {text : SystemAddress → String} {s s' : State} {n n' : Net} {t t' : ℕ → Call}

/-! ## Reports -/

/-- The first byte decides the id. -/
theorem hasId_cons {a : SystemAddress} {g : Guid} {b : UInt8} {l : Bytes}
    {mid : DefaultMessageIDTypes} :
    Packet.hasId ⟨a, g, b :: l⟩ mid = true ↔ b = UInt8.ofNat mid.int := by
  have hlt : mid.int < 256 := by cases mid <;> decide
  simp only [Packet.hasId, decide_eq_true_eq, ← UInt8.toNat_inj, UInt8.toNat_ofNat']
  omega

/-- The router passes on what RakNet reports. -/
theorem hand_enter {p : Packet} (h : p.hasId newIncomingConnection = false) :
    (PumpPc.enter (route p)).hand = p.report.toList := by
  obtain ⟨a, g, data⟩ := p
  cases data with
  | nil => rfl
  | cons b l =>
    by_cases haccepted : Packet.hasId ⟨a, g, b :: l⟩ connectionRequestAccepted
    · rw [hasId_cons.mp haccepted]
      rfl
    by_cases hfailed : connectFailures.any (Packet.hasId ⟨a, g, b :: l⟩)
    · obtain ⟨r, hr, hid⟩ := List.any_eq_true.mp hfailed
      rw [hasId_cons.mp hid]
      simp only [connectFailures, List.mem_cons, List.not_mem_nil, or_false] at hr
      rcases hr with rfl | rfl | rfl | rfl | rfl | rfl | rfl <;> rfl
    by_cases hended : Packet.hasId ⟨a, g, b :: l⟩ disconnectionNotification ||
        Packet.hasId ⟨a, g, b :: l⟩ connectionLost
    · rcases Bool.or_eq_true_iff.mp hended with hid | hid <;> rw [hasId_cons.mp hid] <;> rfl
    · have hnone : Packet.report ⟨a, g, b :: l⟩ = none := by
        simp [Packet.report, haccepted, hfailed, hended]
      rw [hnone]
      rcases hr : route ⟨a, g, b :: l⟩ with _ | cb
      · rfl
      · rcases route_cases hr with ⟨-, rfl⟩ | ⟨hid, rfl⟩ | ⟨hid, rfl⟩ | ⟨r, hmem, hid, rfl⟩ |
          ⟨hid, rfl⟩ | ⟨hid, rfl⟩ | ⟨-, rfl⟩
        · rfl
        · simp [h] at hid
        · exact absurd hid haccepted
        · exact absurd (List.any_eq_true.mpr ⟨r, hmem, hid⟩) hfailed
        · simp [hid] at hended
        · simp [hid] at hended
        · rfl

/-! ## What stays -/

/-- The Connections in use keep their addresses and their guids. -/
structure Frame (s s' : State) (t : ℕ → Call) : Prop where
  fresh : ∀ k, s.pump.fresh? = some k →
    (s'.peer.connection k).rawAddress = (s.peer.connection k).rawAddress
  listed : ∀ g k, s.peer.connections.get? g = some k →
    (s'.peer.connection k).rawAddress = (s.peer.connection k).rawAddress
  pump : ∀ k, s.pump.letting = some k →
    (s'.peer.connection k).rawGuid = (s.peer.connection k).rawGuid
  calls : ∀ i k, (t i).letting = some k →
    (s'.peer.connection k).rawGuid = (s.peer.connection k).rawGuid

theorem PumpPc.Asserts.letting {pc : PumpPc} {r : Registry} (h : pc.Asserts r) {k : ConnId}
    (hk : pc.letting = some k) : k < r.created := by
  cases pc <;> cases hk
  case overflowMark => exact h.1.1
  all_goals exact h.1.1.1

theorem Call.Asserts.letting {t : Call} {r : Registry} (h : t.Asserts r) {k : ConnId}
    (hk : t.letting = some k) : k < r.created := by
  unfold Call.letting at hk
  split at hk <;> cases hk
  all_goals exact ((h.closing _ _ (by assumption)).published).1

theorem frame_of_grows (hr : RegistryInv s) (ht : ∀ i, (t i).Asserts s.registry)
    (hg : s.registry.Grows s'.registry) : Frame s s' t where
  fresh k hk := hg.address k (hr.inv.fresh_lt k hk)
  listed g k hk := hg.address k (hr.inv.listed_published g k hk).1
  pump k hk := hg.guid k (hr.pump.letting hk)
  calls i k hk := hg.guid k ((ht i).letting hk)

theorem Frame.underway (hf : Frame s s' t) (hpump : s'.pump = s.pump) :
    s'.underway = s.underway := by
  have hfresh := hf.fresh
  simp only [State.underway, hpump]
  cases hp : s.pump <;> simp_all [PumpPc.fresh?]

theorem Frame.registered (hf : Frame s s' t) {g : Guid} {a : SystemAddress}
    (hkeep : ∀ k, s.peer.connections.get? g = some k → s'.peer.connections.get? g = some k)
    (h : (ledger text s n t).registered g a) : (ledger text s' n' t').registered g a := by
  obtain ⟨k, hk, ha⟩ := h
  exact ⟨k, hkeep k hk, (hf.listed g k hk).trans ha⟩

theorem Frame.releasing (hf : Frame s s' t) {g : Guid}
    (hpump : ∀ k, s.pump.letting = some k → s'.pump.letting = some k)
    (hcalls : ∀ i k, (t i).letting = some k → (t' i).letting = some k)
    (h : (ledger text s n t).releasing g) : (ledger text s' n' t').releasing g := by
  rcases h with ⟨k, hk, hg⟩ | ⟨i, k, hk, hg⟩
  · exact Or.inl ⟨k, hpump k hk, (hf.pump k hk).trans hg⟩
  · exact Or.inr ⟨i, k, hcalls i k hk, (hf.calls i k hk).trans hg⟩

/-- A step that takes nothing out of the tables and leaves the transport alone. -/
theorem ledger_le (hf : Frame s s' t) (hhand : s'.pump.hand = s.pump.hand)
    (hunderway : s'.underway = s.underway)
    (hexpected : ∀ k, s.peer.pendingConnects.get? k ≠ none → s'.peer.pendingConnects.get? k ≠ none)
    (hlisted : s'.peer.connections = s.peer.connections)
    (hpump : ∀ k, s.pump.letting = some k → s'.pump.letting = some k)
    (hcalls : ∀ i k, (t i).letting = some k → (t' i).letting = some k)
    (hcancelling : ∀ i a, (t i).cancelling = some a → (t' i).cancelling = some a) :
    Ledger.Le (ledger text s n t) (ledger text s' n t') where
  attempts _ := id
  live _ _ := id
  reports := by simp [hhand]
  building := hunderway
  expected a h := hexpected (text a) h
  registered _ _ := hf.registered fun k hk => hlisted ▸ hk
  releasing _ := hf.releasing hpump hcalls
  cancelling a h := h.imp fun i => hcancelling i a

/-! ## Steps of the Peer's threads -/

theorem custody_skip (hf : Frame s s' t) (hn : n.follow s s' = n)
    (hhand : s'.pump.hand = s.pump.hand) (hunderway : s'.underway = s.underway)
    (hpending : s'.peer.pendingConnects = s.peer.pendingConnects)
    (hlisted : s'.peer.connections = s.peer.connections)
    (hpump : ∀ k, s.pump.letting = some k → s'.pump.letting = some k) :
    ∃ m, (ledger text s n t).Step m ∧ m.Le (ledger text s' (n.follow s s') t) := by
  rw [hn]
  exact ⟨_, .skip, ledger_le hf hhand hunderway (fun k hk => hpending ▸ hk) hlisted hpump
    (fun _ _ => id) (fun _ _ => id)⟩

/-- Popping the entry of one address leaves those of the others. -/
theorem expected_of_pop (hinj : Function.Injective text) (a b : SystemAddress)
    (hb : b ≠ a ∧ (ledger text s n t).expected b) :
    (s.peer.popConnect (text a)).pendingConnects.get? (text b) ≠ none := by
  simpa [hinj.ne hb.1] using hb.2

theorem PumpPc.DropsIn.letting {p : Peer} {pc : PumpPc} (h : pc.DropsIn text p) :
    pc.letting = none := by
  cases pc <;> first | rfl | exact h.elim

/-- The callback finds no entry: its report is dropped. -/
theorem custody_drop (h : s.pump.DropsIn text s.peer) (hf : Frame s (s.goto .loop) t) :
    ∃ m, (ledger text s n t).Step m ∧
      m.Le (ledger text (s.goto .loop) (n.follow s (s.goto .loop)) t) := by
  have hund : s.underway = none := by
    cases hp : s.pump <;> simp only [State.underway, hp]
    all_goals
      rw [hp] at h
      exact h.elim
  have hreleasing : ∀ g, (ledger text s n t).releasing g →
      (ledger text (s.goto .loop) n t).releasing g :=
    fun g => hf.releasing (by simp [h.letting]) fun _ _ => id
  rw [follow_eq (by rfl)]
  cases hp : s.pump <;> rw [hp] at h
  case succeededPop a g =>
    exact ⟨_, .drop a g _ (by rw [ledger_reports, hp]; rfl) (not_not_intro h),
      ⟨fun _ => id, fun _ _ => id, rfl, hund.symm, fun _ => id, fun _ _ => id, hreleasing,
        fun _ => id⟩⟩
  case failedPop a r =>
    exact ⟨_, .giveUp a _ (by rw [ledger_reports, hp]; rfl),
      ⟨fun _ => id, fun _ _ => id, rfl, hund.symm, fun _ hb => hb.2, fun _ _ => id, hreleasing,
        fun _ => id⟩⟩
  case disconnectedPop g b =>
    exact ⟨_, .unlist g _ (by rw [ledger_reports, hp]; rfl),
      ⟨fun _ => id, fun _ _ => id, rfl, hund.symm, fun _ => id, fun _ _ hb => hb.2, hreleasing,
        fun _ => id⟩⟩
  case messageLookup | pongPop =>
    exact ⟨_, .skip, ⟨fun _ => id, fun _ _ => id, by simp [hp, PumpPc.hand], hund.symm,
      fun _ => id, fun _ _ => id, hreleasing, fun _ => id⟩⟩
  all_goals exact h.elim

theorem custody_succeededPop {i : CallId} {a : SystemAddress} {g : Guid}
    (hinj : Function.Injective text) (h : s.pump = .succeededPop a g)
    (hs : s' = ((s.set (s.peer.popConnect (text a))).emit (.connectPopped i)).goto
      (.succeededCreate i a g)) (hf : Frame s s' t) :
    ∃ m, (ledger text s n t).Step m ∧ m.Le (ledger text s' (n.follow s s') t) := by
  subst hs
  rw [follow_idle rfl rfl]
  refine ⟨_, .build a g (n.fifo.filterMap Packet.report) (by rw [ledger_reports, h]; rfl)
    (by simp [State.underway, h]), ?_⟩
  exact {
    attempts := fun _ => id
    live := fun _ _ => id
    reports := rfl
    building := rfl
    expected := fun b hb => expected_of_pop hinj a b hb
    registered := fun _ _ => hf.registered (n := n) fun _ => id
    releasing := fun _ => hf.releasing (n := n) (by simp [h, PumpPc.letting]) fun _ _ => id
    cancelling := fun _ => id }

theorem custody_succeededRegister {i : CallId} {g : Guid} {c : ConnId}
    (h : s.pump = .succeededRegister i g c)
    (hs : s' = ((s.set (s.peer.register g c)).emit (.registered c)).goto (.succeededAssign i c))
    (hf : Frame s s' t) :
    ∃ m, (ledger text s n t).Step m ∧ m.Le (ledger text s' (n.follow s s') t) := by
  subst hs
  rw [follow_idle rfl rfl]
  refine ⟨_, .register (s.peer.connection c).rawAddress g (by simp [State.underway, h]), ?_⟩
  exact {
    attempts := fun _ => id
    live := fun _ _ => id
    reports := by simp [h, PumpPc.hand]
    building := by simp [State.underway]
    expected := fun _ => id
    registered := by
      rintro x b (⟨rfl, rfl⟩ | ⟨hx, k, hk, hb⟩)
      · exact ⟨c, by simp, rfl⟩
      · exact ⟨k, by simpa [hx] using hk, hb⟩
    releasing := fun _ => hf.releasing (n := n) (by simp [h, PumpPc.letting]) fun _ _ => id
    cancelling := fun _ => id }

theorem custody_failedPop {i : CallId} {a : SystemAddress} {r : DefaultMessageIDTypes}
    (hinj : Function.Injective text) (h : s.pump = .failedPop a r)
    (hs : s' = ((s.set (s.peer.popConnect (text a))).emit (.connectPopped i)).goto
      (.failedAssign i r)) (hf : Frame s s' t) :
    ∃ m, (ledger text s n t).Step m ∧ m.Le (ledger text s' (n.follow s s') t) := by
  subst hs
  rw [follow_idle rfl rfl]
  refine ⟨_, .giveUp a (n.fifo.filterMap Packet.report) (by rw [ledger_reports, h]; rfl), ?_⟩
  exact {
    attempts := fun _ => id
    live := fun _ _ => id
    reports := rfl
    building := by simp [State.underway, h]
    expected := fun b hb => expected_of_pop hinj a b hb
    registered := fun _ _ => hf.registered (n := n) fun _ => id
    releasing := fun _ => hf.releasing (n := n) (by simp [h, PumpPc.letting]) fun _ _ => id
    cancelling := fun _ => id }

theorem custody_disconnectedPop {g : Guid} {b : Bool} {c : ConnId}
    (h : s.pump = .disconnectedPop g b)
    (hs : s' = (s.set (s.peer.unregister g)).goto (.disconnectedMark c b)) (hf : Frame s s' t) :
    ∃ m, (ledger text s n t).Step m ∧ m.Le (ledger text s' (n.follow s s') t) := by
  subst hs
  rw [follow_eq (by rfl)]
  refine ⟨_, .unlist g (n.fifo.filterMap Packet.report) (by rw [ledger_reports, h]; rfl), ?_⟩
  exact {
    attempts := fun _ => id
    live := fun _ _ => id
    reports := rfl
    building := by simp [State.underway, h]
    expected := fun _ => id
    registered := by
      rintro x b ⟨hx, k, hk, hb⟩
      exact ⟨k, by simpa [hx] using hk, hb⟩
    releasing := fun _ => hf.releasing (n := n) (by simp [h, PumpPc.letting]) fun _ _ => id
    cancelling := fun _ => id }

/-- The guid leaves the registry, and `_overflow` will close it. -/
theorem custody_overflowPop {c : ConnId} (h : s.pump = .overflowPop c)
    (hs : s' = (s.set (s.peer.unregister (s.peer.connection c).rawGuid)).goto (.overflowMark c))
    (hf : Frame s s' t) :
    ∃ m, (ledger text s n t).Step m ∧ m.Le (ledger text s' (n.follow s s') t) := by
  subst hs
  rw [follow_eq (by rfl)]
  refine ⟨_, .unregister (s.peer.connection c).rawGuid, ?_⟩
  exact {
    attempts := fun _ => id
    live := fun _ _ => id
    reports := by simp [h, PumpPc.hand]
    building := by simp [State.underway, h]
    expected := fun _ => id
    registered := by
      rintro x b ⟨hx, k, hk, hb⟩
      exact ⟨k, by simpa [hx] using hk, hb⟩
    releasing := by
      rintro x (rfl | hx)
      · exact Or.inl ⟨c, rfl, rfl⟩
      · exact hf.releasing (n := n) (by simp [h, PumpPc.letting]) (fun _ _ => id) hx
    cancelling := fun _ => id }

theorem custody_overflowRaw {c : ConnId} (h : s.pump = .overflowRaw c)
    (hs : s' = (s.emit (.rawClose (s.peer.connection c).rawGuid true)).goto (.overflowMailbox c))
    (hf : Frame s s' t) :
    ∃ m, (ledger text s n t).Step m ∧ m.Le (ledger text s' (n.follow s s') t) := by
  subst hs
  rw [follow_emit rfl]
  refine ⟨_, .release (s.peer.connection c).rawGuid, ?_⟩
  exact {
    attempts := fun _ => id
    live := by
      intro x b hx
      simpa [Net.hear, Function.update_apply] using hx
    reports := by simp [h, PumpPc.hand, Net.hear]
    building := by simp [State.underway, h]
    expected := fun _ => id
    registered := fun _ _ => hf.registered (n := n) fun _ => id
    releasing := by
      rintro x ⟨hx, ⟨k, hk, hg⟩ | hx'⟩
      · rw [h] at hk
        cases hk
        exact absurd hg.symm hx
      · exact Or.inr hx'
    cancelling := fun _ => id }

/-- The reports that a routed packet brings were on their way. -/
theorem custody_route {p : Packet} (h : s.pump = .route p) (hin : s.pump.incoming = false)
    (hf : Frame s ((s.emit (.routed p)).goto (.enter (route p))) t) :
    ∃ m, (ledger text s n t).Step m ∧
      m.Le (ledger text ((s.emit (.routed p)).goto (.enter (route p)))
        (n.follow s ((s.emit (.routed p)).goto (.enter (route p)))) t) := by
  have hp : p.hasId newIncomingConnection = false := by simpa [h, PumpPc.incoming] using hin
  refine custody_skip hf (follow_idle rfl rfl) ?_ ?_ rfl rfl (by simp [h, PumpPc.letting])
  · rw [h]
    exact hand_enter hp
  · simp only [State.underway, h, State.goto_pump]
    rcases Raknet.route p with _ | ⟨_ | _⟩ <;> rfl

theorem ActEffect.custody_kept {e : State.Act} (h : ActEffect text s e s')
    (hreceive : ∀ p, e ≠ .received (.packet p))
    (hinj : Function.Injective text) (hf : Frame s s' t) (hsd : ShutdownInv s)
    (hin : s.pump.incoming = false) (halive : s'.Alive) :
    ∃ m, (ledger text s n t).Step m ∧ m.Le (ledger text s' (n.follow s s') t) := by
  have hbegun := hsd.begun
  obtain ⟨hopen', hfail'⟩ := halive
  cases h
  case receivedPacket p h => exact absurd rfl (hreceive p)
  -- the Peer does not stay open
  case leave h hclosed | failLost d h hclosed | overflowSkip c h hclosed => simp [hclosed] at hopen'
  case fail => cases hopen'
  case failed h hdone => simp [hbegun.mpr (by simp [hdone])] at hopen'
  case receiveRaises d h | routeRaises d p h => exact absurd rfl (hfail' d)
  case join h _ | shutdown h | sweptConnections h _ | sweepConnection h _ | closeMailbox h |
      sweptConnects h _ | sweepConnect h _ | setConnect h | sweptPings h _ | sweepPing h _ |
      putSentinel h =>
    simp [hbegun.mpr (by simp [h])] at hopen'
  -- no remote connects on its own
  case incomingCreate h | incomingRegister h | incomingAccept h =>
    rw [h] at hin
    cases hin
  case route p h => exact custody_route h hin hf
  case drop h => exact custody_drop h hf
  case succeededPop i a g h hget => exact custody_succeededPop hinj h rfl hf
  case succeededRegister i g c h => exact custody_succeededRegister h rfl hf
  case failedPop i a r h hget => exact custody_failedPop hinj h rfl hf
  case disconnectedPop g b c h hget => exact custody_disconnectedPop h rfl hf
  case overflowPop c h => exact custody_overflowPop h rfl hf
  case overflowRaw c h => exact custody_overflowRaw h rfl hf
  -- nothing happens to the ledger
  case succeededCreate i a g h =>
    exact custody_skip hf (follow_eq rfl) (by rw [h]; rfl)
      (by simp [State.underway, h, Connection.new]) rfl rfl
      (by simp [h, PumpPc.letting])
  case poll h _ | receivedNothing h | succeededAssign h | failedAssign h | messageLookup h _ |
      overflowMark h | overflowCheck h _ | overflowMailbox h | disconnectedMark h |
      disconnectedMailbox h | pongAssign h =>
    exact custody_skip hf (follow_eq rfl) (by rw [h]; rfl) (by simp [State.underway, h]) rfl rfl
      (by simp [h, PumpPc.letting])
  case connectSet h | messagePut h _ | messageReject h _ | pongPop h _ | pingSet h =>
    exact custody_skip hf (follow_idle rfl rfl) (by rw [h]; rfl) (by simp [State.underway, h]) rfl
      rfl (by simp [h, PumpPc.letting])
  case recvItem | recvRaises =>
    exact custody_skip hf (follow_idle rfl rfl) rfl (hf.underway rfl) rfl rfl fun _ => id
  case tick => exact custody_skip hf (follow_eq rfl) rfl rfl rfl rfl fun _ => id

/-- The pump takes a packet over from the FIFO. -/
theorem receive_custody {p : Packet} (hf : Frame s (s.goto (.route p)) t) (h : s.pump = .receive) :
    ∃ m, (ledger text s { n with fifo := p :: n.fifo } t).Step m ∧
      m.Le (ledger text (s.goto (.route p)) n t) := by
  refine ⟨_, .skip, ⟨fun _ => id, fun _ _ => id, ?_, by simp [State.underway, h], fun _ => id,
    fun _ _ => id, fun _ => hf.releasing (n := n) (by simp [h, PumpPc.letting]) fun _ _ => id,
    fun _ => id⟩⟩
  simp only [ledger_reports, State.goto_pump, PumpPc.hand, h, List.filterMap_cons, List.nil_append]
  cases p.report <;> rfl

/-- **The Peer's threads.** Every action of an open Peer is a step of the ledger. -/
theorem act_custody {e : State.Act} (h : State.act text e s = some s')
    (hn : n.receive e = some n') (hinj : Function.Injective text) (hf : Frame s s' t)
    (hsd : ShutdownInv s) (hin : s.pump.incoming = false) (halive : s'.Alive) :
    ∃ m, (ledger text s n t).Step m ∧ m.Le (ledger text s' (n'.follow s s') t) := by
  rcases Net.receive_cases hn with ⟨rfl, hne⟩ | ⟨p, rfl, hfifo⟩
  · exact (act_effect h).custody_kept hne hinj hf hsd hin halive
  · cases act_effect h with
    | receivedPacket _ hpump =>
      rw [follow_eq (by rfl), hfifo]
      exact receive_custody hf hpump

/-- **The transport.** What it does and reports is a step of the ledger. -/
theorem report_custody {p : Packet} (h : n.report p = some n') :
    ∃ m, (ledger text s n t).Step m ∧ m.Le (ledger text s n' t) := by
  have hqueue : ∀ r, p.report = some r →
      s.pump.hand ++ (n.fifo ++ [p]).filterMap Packet.report =
        s.pump.hand ++ n.fifo.filterMap Packet.report ++ [r] := by
    intro r hr
    simp [hr]
  unfold Net.report at h
  split_ifs at h with hin
  cases hr : p.report with
  | none =>
    rw [hr] at h
    cases h
    exact ⟨_, .skip, ⟨fun _ => id, fun _ _ => id, by simp [hr], rfl, fun _ => id, fun _ _ => id,
      fun _ => id, fun _ => id⟩⟩
  | some r =>
    cases r with
    | accepted a g =>
      simp only [hr] at h
      split_ifs at h with ha
      cases h
      exact ⟨_, .accept a g ha.1 ha.2, ⟨fun b hb => by simpa [Net.settle, and_comm] using hb,
        fun x b hx => by simpa [Function.update_apply] using hx, hqueue _ hr, rfl, fun _ => id,
        fun _ _ => id, fun _ => id, fun _ => id⟩⟩
    | failed a =>
      simp only [hr] at h
      split_ifs at h with ha
      cases h
      exact ⟨_, .fail a ha, ⟨fun b hb => by simpa [Net.settle, and_comm] using hb, fun _ _ => id,
        hqueue _ hr, rfl, fun _ => id, fun _ _ => id, fun _ => id, fun _ => id⟩⟩
    | ended g =>
      simp only [hr] at h
      split_ifs at h with hg
      cases h
      exact ⟨_, .hangUp g, ⟨fun _ => id, fun x b hx => by simpa [Function.update_apply] using hx,
        hqueue _ hr, rfl, fun _ => id, fun _ _ => id, fun _ => id, fun _ => id⟩⟩

/-! ## Steps of the calls -/

/-- The address that a call has entered into the table and to which it has started no attempt. -/
def Call.opening : Call → Option SystemAddress
  | connect _ (.start (.rawConnect a)) | connect _ (.start (.popFailed a _)) => some a
  | _ => none

/-- What a call knows of an address to which it has started no attempt. -/
structure Call.Opens (k : Ledger SystemAddress Guid) (t : Call) : Prop where
  unused : ∀ a, t.opening = some a → k.Unused a
  expected : ∀ args a, t = .connect args (.start (.rawConnect a)) → k.expected a

theorem CallMove.cancel {i : CallId} {t t' : Call} (h : CallMove text i s t s' t')
    {a : SystemAddress} (ha : t.cancelling = some a) : s' = s.emit (.rawCancel a) := by
  unfold Call.cancelling at ha
  split at ha <;> cases ha
  cases h with
  | connect args pc pc' s' h =>
    cases h
    rfl

/-- A call that takes its entry back is going to cancel. -/
theorem CallMove.abandon {i : CallId} {args : ConnectArgs} {a : SystemAddress} {t' : Call}
    (h : CallMove text i s (.connect args (.abandon a .pop)) s' t') {j : CallId}
    (hget : s.peer.pendingConnects.get? (text a) = some j) : t'.cancelling = some a := by
  cases h with
  | connect args pc pc' s' h =>
    cases h with
    | late _ hnone => simp [hnone] at hget
    | abandon => rfl

theorem letting_update {i : ℕ} {u : Call}
    (h : ∀ k, (t i).letting = some k → u.letting = some k) (j : ℕ) (k : ConnId)
    (hk : (t j).letting = some k) : (Function.update t i u j).letting = some k := by
  by_cases hj : j = i
  · subst hj
    simpa using h k hk
  · simpa [hj] using hk

theorem cancelling_update {i : ℕ} {u : Call}
    (h : ∀ a, (t i).cancelling = some a → u.cancelling = some a) (j : ℕ) (a : SystemAddress)
    (ha : (t j).cancelling = some a) : (Function.update t i u j).cancelling = some a := by
  by_cases hj : j = i
  · subst hj
    simpa using h a ha
  · simpa [hj] using ha

theorem custody_move (hf : Frame s s' t) (hn : n.follow s s' = n) (hpump : s'.pump = s.pump)
    (hpending : ∀ k, s.peer.pendingConnects.get? k ≠ none →
      s'.peer.pendingConnects.get? k ≠ none)
    (hlisted : s'.peer.connections = s.peer.connections) {i : ℕ} {u : Call}
    (hletting : ∀ k, (t i).letting = some k → u.letting = some k)
    (hcancelling : ∀ a, (t i).cancelling = some a → u.cancelling = some a) :
    ∃ m, (ledger text s n t).Step m ∧
      m.Le (ledger text s' (n.follow s s') (Function.update t i u)) := by
  rw [hn]
  exact ⟨_, .skip, ledger_le hf (by rw [hpump]) (hf.underway hpump) hpending hlisted
    (by simp [hpump]) (letting_update hletting) (cancelling_update hcancelling)⟩

theorem Call.cancelling_of_closing {u : Call} {r : ConnId × ClosePc} (h : u.closing = some r) :
    u.cancelling = none := by
  unfold Call.closing at h
  split at h <;> first | rfl | cases h

theorem Call.letting_of_closing {u : Call} {c : ConnId} {pc : ClosePc}
    (h : u.closing = some (c, pc)) :
    u.letting = if pc = .mark ∨ pc = .checkPeer ∨ pc = .raw then some c else none := by
  unfold Call.letting
  rw [h]
  cases pc <;> rfl

theorem closing_custody {i : ℕ} {u : Call} {c : ConnId} {notify : Bool} {pc : ClosePc}
    {pc' : Option ClosePc} (h : CloseEffect c notify s pc s' pc')
    (hcl : (t i).closing = some (c, pc)) (hu : u.closing = pc'.map (c, ·)) (hf : Frame s s' t)
    (halive : s'.Alive) :
    ∃ m, (ledger text s n t).Step m ∧
      m.Le (ledger text s' (n.follow s s') (Function.update t i u)) := by
  have hcancelling : ∀ a, (t i).cancelling = some a → u.cancelling = some a := by
    simp [Call.cancelling_of_closing hcl]
  have hlet := Call.letting_of_closing hcl
  have hlet' : ∀ q, pc' = some q → u.letting =
      if q = .mark ∨ q = .checkPeer ∨ q = .raw then some c else none := by
    rintro q rfl
    exact Call.letting_of_closing hu
  cases h
  -- the Peer does not stay open
  case skipRaw hclosed => exact absurd halive.1 (by simp [hclosed])
  case begin hopen => cases halive.1
  case pop =>
    rw [follow_eq (by rfl)]
    refine ⟨_, .unregister (s.peer.connection c).rawGuid, ?_⟩
    exact {
      attempts := fun _ => id
      live := fun _ _ => id
      reports := rfl
      building := hf.underway rfl
      expected := fun _ => id
      registered := by
        rintro x b ⟨hx, k, hk, hb⟩
        exact ⟨k, by simpa [hx] using hk, hb⟩
      releasing := by
        rintro x (rfl | hx)
        · exact Or.inr ⟨i, c, by simp [hlet' .mark rfl], rfl⟩
        · exact hf.releasing (n := n) (fun _ => id) (letting_update (by simp [hlet])) hx
      cancelling := fun b hb => hb.imp fun j => cancelling_update hcancelling j b }
  case raw =>
    rw [follow_emit (by rfl)]
    refine ⟨_, .release (s.peer.connection c).rawGuid, ?_⟩
    exact {
      attempts := fun _ => id
      live := by
        intro x b hx
        simpa [Net.hear, Function.update_apply] using hx
      reports := rfl
      building := hf.underway rfl
      expected := fun _ => id
      registered := fun _ _ => hf.registered (n := n) fun _ => id
      releasing := by
        rintro x ⟨hx, hk | ⟨j, k, hk, hg⟩⟩
        · exact Or.inl hk
        · -- a call that lets go of another guid is another call
          have hj : j ≠ i := by
            rintro rfl
            simp only [hlet, or_true, if_true, Option.some.injEq] at hk
            exact hx (hk ▸ hg.symm)
          exact Or.inr ⟨j, k, by simpa [hj] using hk, hg⟩
      cancelling := fun b hb => hb.imp fun j => cancelling_update hcancelling j b }
  case mark =>
    exact custody_move hf (follow_eq rfl) rfl (fun _ => id) rfl
      (by simp [hlet, hlet' .checkPeer rfl]) hcancelling
  case checkPeer =>
    exact custody_move hf (follow_eq rfl) rfl (fun _ => id) rfl
      (by simp [hlet, hlet' .raw rfl]) hcancelling
  all_goals
    exact custody_move hf (follow_eq rfl) rfl (fun _ => id) rfl (by simp [hlet]) hcancelling

theorem CallMove.custody_kept {i : ℕ} {u : Call} (h : CallMove text i s (t i) s' u)
    (hcl : (t i).closing = none) (hinj : Function.Injective text) (hf : Frame s s' t)
    (hopens : (t i).Opens (ledger text s n t))
    (hintime : ∀ a, (t i).cancelling = some a → n.connected a = false) (halive : s'.Alive) :
    ∃ m, (ledger text s n t).Step m ∧
      m.Le (ledger text s' (n.follow s s') (Function.update t i u)) := by
  have hletting : ∀ k, (t i).letting = some k → u.letting = some k := by simp [Call.letting, hcl]
  rcases hcan : (t i).cancelling with _ | a
  · have hcancelling : ∀ a, (t i).cancelling = some a → u.cancelling = some a := by simp [hcan]
    have heff := h.effect
    cases heff with
    | registerConnect args a hcall hopen =>
      refine custody_move hf (follow_idle rfl rfl) rfl (fun k hk => ?_) rfl hletting hcancelling
      simp only [State.emit_peer, State.set_peer, Peer.registerConnect_pendingConnects,
        Dict.get?_set]
      split_ifs
      · simp
      · exact hk
    | popFailed args a r hcall =>
      rw [follow_eq (by rfl)]
      refine ⟨_, .forget a (hopens.unused a (by rw [hcall]; rfl)), ?_⟩
      exact {
        attempts := fun _ => id
        live := fun _ _ => id
        reports := rfl
        building := hf.underway rfl
        expected := fun b hb => expected_of_pop (n := n) (t := t) hinj a b hb
        registered := fun _ _ => hf.registered (n := n) fun _ => id
        releasing := fun _ => hf.releasing (n := n) (fun _ => id) (letting_update hletting)
        cancelling := fun b hb => hb.imp fun j => cancelling_update hcancelling j b }
    | popAbandoned args a j hcall hget =>
      have hu : u.cancelling = some a := by
        rw [hcall] at h
        exact h.abandon hget
      rw [follow_eq (by rfl)]
      refine ⟨_, .abandon a, ?_⟩
      exact {
        attempts := fun _ => id
        live := fun _ _ => id
        reports := rfl
        building := hf.underway rfl
        expected := fun b hb => expected_of_pop (n := n) (t := t) hinj a b hb
        registered := fun _ _ => hf.registered (n := n) fun _ => id
        releasing := fun _ => hf.releasing (n := n) (fun _ => id) (letting_update hletting)
        cancelling := by
          rintro b (rfl | ⟨l, hl⟩)
          · exact ⟨i, by simpa using hu⟩
          · exact ⟨l, cancelling_update hcancelling l b hl⟩ }
    | cancel args a hcall => simp [hcall, Call.cancelling] at hcan
    | unregister c hc | mark c hc | rawClose c _ hc | closeMailbox c hc => simp [hcl] at hc
    | beginClose hopen => cases halive.1
    | registerPing =>
      exact custody_move hf (follow_idle rfl rfl) rfl (fun _ => id) rfl hletting hcancelling
    | _ => exact custody_move hf (follow_eq rfl) rfl (fun _ => id) rfl hletting hcancelling
  · obtain rfl := h.cancel hcan
    rw [follow_emit (by rfl)]
    refine ⟨_, .cancel a fun g hg => ?_, ?_⟩
    · have hfree := hintime a hcan
      simp only [Net.connected, decide_eq_false_iff_not] at hfree
      exact hfree (Dict.mem_values.mpr ⟨g, hg⟩)
    · exact {
        attempts := fun b hb => by simpa [Net.hear, Net.settle, and_comm] using hb
        live := fun _ _ => id
        reports := rfl
        building := hf.underway rfl
        expected := fun _ => id
        registered := fun _ _ => hf.registered (n := n) fun _ => id
        releasing := fun _ => hf.releasing (n := n) (fun _ => id) (letting_update hletting)
        cancelling := by
          rintro b ⟨hb, j, hj⟩
          have hji : j ≠ i := by
            rintro rfl
            rw [hcan, Option.some.injEq] at hj
            exact hb hj.symm
          exact ⟨j, by simpa [hji] using hj⟩ }

/-- **The calls.** Every step of a call on an open Peer is a step of the ledger, if a call that
cancels does so in time. -/
theorem callStep_custody {i : ℕ} {x : CallStart ⊕ Choice} {u : Call}
    (h : Raknet.callStep text i x s (t i) = some (s', u)) (hn : n.answer x (t i) = some n')
    (hinj : Function.Injective text) (hf : Frame s s' t)
    (hopens : (t i).Opens (ledger text s n t))
    (hintime : ∀ a, (t i).cancelling = some a → n.connected a = false) (halive : s'.Alive) :
    ∃ m, (ledger text s n t).Step m ∧
      m.Le (ledger text s' (n'.follow s s') (Function.update t i u)) := by
  rcases Net.answer_cases hn with rfl | ⟨args, a, rfl, hcall, rfl⟩
  · rcases hcl : (t i).closing with _ | ⟨c, pc⟩
    · exact (callStep_move h).custody_kept hcl hinj hf hopens hintime halive
    · obtain ⟨notify, pc', hs, hu⟩ := (callStep_move h).of_closing hcl
      exact closing_custody hs hcl hu hf halive
  · -- `raw.connect` has started the attempt
    simp only [hcall, callStep, connectStep, startStep, if_true, Option.map_some,
      Option.some.injEq, Prod.mk.injEq] at h
    obtain ⟨rfl, rfl⟩ := h
    rw [follow_eq (by rfl)]
    refine ⟨_, .start a (hopens.expected args a hcall) (hopens.unused a (by rw [hcall]; rfl)), ?_⟩
    exact {
      attempts := fun b hb => List.mem_cons.mp hb
      live := fun _ _ => id
      reports := rfl
      building := rfl
      expected := fun _ => id
      registered := fun _ _ => hf.registered (n := n) fun _ => id
      releasing := fun _ => hf.releasing (n := n) (fun _ => id)
        (letting_update (by simp [hcall, Call.letting, Call.closing]))
      cancelling := fun b hb => hb.imp fun j =>
        cancelling_update (by simp [hcall, Call.cancelling]) j b }

/-! ## Runs -/

theorem ActEffect.alive {e : State.Act} (h : ActEffect text s e s') (halive : s'.Alive) :
    s.Alive := by
  obtain ⟨hopen, hfail⟩ := halive
  cases h
  case drop h =>
    refine ⟨hopen, fun d hd => ?_⟩
    rw [hd] at h
    exact h
  case failLost d h hclosed => exact absurd hopen (by simp [hclosed])
  case fail => cases hopen
  case join | shutdown | sweptConnections | sweepConnection | closeMailbox | sweptConnects |
      sweepConnect | setConnect | sweptPings | sweepPing | putSentinel | recvItem | recvRaises |
      tick =>
    exact ⟨hopen, hfail⟩
  all_goals exact ⟨hopen, by simp [*]⟩

theorem CallEffect.alive {i : CallId} {u : Call} (h : CallEffect text i s u s')
    (halive : s'.Alive) :
    s.Alive := by
  cases h with
  | beginClose => cases halive.1
  | _ => exact halive

/-- Nobody takes an entry out while its address is unused, and the calls to other addresses do
not. -/
theorem ActEffect.entry_kept {e : State.Act} (h : ActEffect text s e s')
    (hinj : Function.Injective text) (halive : s'.Alive) {a : SystemAddress}
    (hunused : (ledger text s n t).Unused a) (hget : s.peer.pendingConnects.get? (text a) ≠ none) :
    s'.peer.pendingConnects.get? (text a) ≠ none := by
  have hhand : ∀ r ∈ s.pump.hand, r.settles ≠ some a :=
    fun r hr => hunused.2 r (List.mem_append_left _ hr)
  cases h
  case succeededPop i b g h _ | failedPop i b g h _ =>
    have hne : b ≠ a := by
      rintro rfl
      rw [h] at hhand
      exact hhand _ (List.mem_singleton.mpr rfl) rfl
    simpa [hinj.ne hne.symm] using hget
  case fail => cases halive.1
  all_goals exact hget

theorem CallEffect.entry_kept {i : CallId} {u : Call} (h : CallEffect text i s u s')
    (hinj : Function.Injective text) (halive : s'.Alive) {a : SystemAddress}
    (hother : u.dialing ≠ some a) (hget : s.peer.pendingConnects.get? (text a) ≠ Option.none) :
    s'.peer.pendingConnects.get? (text a) ≠ Option.none := by
  cases h with
  | registerConnect =>
    simp only [State.emit_peer, State.set_peer, Peer.registerConnect_pendingConnects,
      Dict.get?_set]
    split_ifs
    · simp
    · exact hget
  | popFailed args b _ h | popAbandoned args b _ h _ =>
    have hne : a ≠ b := by
      rintro rfl
      exact hother (by rw [h]; rfl)
    simpa [hinj.ne hne] using hget
  | beginClose => cases halive.1
  | _ => exact hget

theorem attempts_follow {a : SystemAddress} (h : a ∈ (n.follow s s').attempts) :
    a ∈ n.attempts := by
  unfold Net.follow at h
  generalize s'.log.drop s.log.length = l at h
  induction l generalizing n with
  | nil => exact h
  | cons e l ih =>
    have ha := ih h
    cases e <;> first | exact ha | exact (List.mem_filter.mp ha).1

theorem Net.report_attempts {p : Packet} (h : n.report p = some n') {a : SystemAddress}
    (ha : a ∈ n'.attempts) : a ∈ n.attempts := by
  unfold Net.report at h
  split_ifs at h
  split at h <;> try split_ifs at h
  all_goals
    cases h
    first | exact ha | exact (List.mem_filter.mp ha).1

theorem Net.receive_attempts {e : State.Act} (h : n.receive e = some n') :
    n'.attempts = n.attempts := by
  rcases Net.receive_cases h with ⟨rfl, -⟩ | ⟨p, -, hfifo⟩
  · rfl
  · rw [hfifo]

/-- The ledger of a configuration. -/
def Linked.ledger (text : SystemAddress → String) (c : Config Linked Call) :
    Ledger SystemAddress Guid :=
  Raknet.ledger text c.shared.state c.shared.net c.thread

structure CustodyInv (text : SystemAddress → String) (c : Config Linked Call) : Prop where
  inv : (Linked.ledger text c).Inv
  unused : ∀ a, a ∉ c.shared.state.dialed → (Linked.ledger text c).Unused a
  opens : ∀ i, (c.thread i).Opens (Linked.ledger text c)

theorem custodyInv_init (q : Option Nat) (t₀ : Int) : CustodyInv text (Linked.init q t₀) := by
  refine ⟨⟨?_, ?_, ?_, ?_⟩, fun a _ => ⟨?_, ?_⟩, fun i => ⟨fun a ha => ?_, fun args a ha => ?_⟩⟩
  all_goals first | cases ha | simp [Linked.ledger, Linked.init, Net.init, State.init, PumpPc.hand]

theorem CustodyInv.shared {c : Config Linked Call} (hi : CustodyInv text c)
    (hstep : ∃ m, (Linked.ledger text c).Step m ∧ m.Le (ledger text s' n' c.thread))
    (hattempts : ∀ a ∈ n'.attempts, a ∈ c.shared.net.attempts)
    (hdialed : ∀ a, a ∈ c.shared.state.dialed → a ∈ s'.dialed)
    (hentry : ∀ a, (Linked.ledger text c).Unused a →
      c.shared.state.peer.pendingConnects.get? (text a) ≠ none →
      s'.peer.pendingConnects.get? (text a) ≠ none) :
    CustodyInv text { c with shared := ⟨s', n'⟩ } := by
  obtain ⟨m, hs, hle⟩ := hstep
  have hunused : ∀ a, (Linked.ledger text c).Unused a → (ledger text s' n' c.thread).Unused a :=
    fun a hu => hu.step hs hle (hattempts a)
  exact ⟨(hs.inv hi.inv).mono hle,
    fun a ha => hunused a (hi.unused a fun h => ha (hdialed a h)),
    fun i => ⟨fun a ha => hunused a ((hi.opens i).unused a ha), fun args a ha =>
      hentry a ((hi.opens i).unused a (by rw [ha]; rfl)) ((hi.opens i).expected args a ha)⟩⟩

@[simp] theorem opening_leave (args : ConnectArgs) (e : Error) :
    (Call.connect args (args.leave e)).opening = none := by
  unfold ConnectArgs.leave
  split_ifs <;> rfl

@[simp] theorem opening_give (args : ConnectArgs) (c : ConnId) :
    (Call.connect args (args.give c)).opening = none := by
  unfold ConnectArgs.give
  split_ifs <;> rfl

/-- A call opens an address by its registration. -/
theorem CallMove.opening {i : CallId} {u u' : Call} (h : CallMove text i s u s' u')
    {a : SystemAddress} (ha : u'.opening = some a) :
    u.opening = some a ∧ (∀ args, u' ≠ .connect args (.start (.rawConnect a))) ∨
      (∃ args, u = .connect args (.start (.register a))) ∧
        s'.peer.pendingConnects.get? (text a) ≠ none := by
  cases h with
  | connect args pc pc' s' h =>
    cases h with
    | register b hopen =>
      cases ha
      exact Or.inr ⟨⟨args, rfl⟩, by simp⟩
    | rawRefused b r hr =>
      cases ha
      exact Or.inl ⟨rfl, by simp⟩
    | refused | fewAttempts | unresolved | closedMeanwhile | rawRaised | popFailed | cancel |
        wokenLate | reaped | failed =>
      simp at ha
    | finish => simp at ha
    | _ => cases ha
  | begin start t h =>
    cases start <;> simp only [startCall] at h
    case close k notify =>
      split_ifs at h
      cases h
      cases ha
    all_goals
      cases h
      cases ha
  | _ => cases ha

/-- An attempt is started by the call that opens its address. -/
theorem attempts_callStep {i : CallId} {x : CallStart ⊕ Choice} {u u' : Call}
    (h : Raknet.callStep text i x s u = some (s', u')) (hn : n.answer x u = some n')
    {a : SystemAddress} (ha : a ∈ (n'.follow s s').attempts) :
    a ∈ n.attempts ∨ u.opening = some a ∧ u'.opening = none := by
  replace ha := attempts_follow ha
  rcases Net.answer_cases hn with rfl | ⟨args, b, rfl, rfl, rfl⟩
  · exact Or.inl ha
  · simp only [callStep, connectStep, startStep, if_true, Option.map_some, Option.some.injEq,
      Prod.mk.injEq] at h
    obtain ⟨rfl, rfl⟩ := h
    rcases List.mem_cons.mp ha with rfl | ha
    · exact Or.inr ⟨rfl, rfl⟩
    · exact Or.inl ha

theorem opening_dialing {u : Call} {a : SystemAddress} (h : u.opening = some a) :
    u.dialing = some a := by
  unfold Call.opening at h
  split at h <;> first | exact h | cases h

theorem CustodyInv.thread {c : Config Linked Call} (hi : CustodyInv text c) {i : CallId}
    {x : CallStart ⊕ Choice} {u : Call}
    (h : Raknet.callStep text i x c.shared.state (c.thread i) = some (s', u))
    (hn : c.shared.net.answer x (c.thread i) = some n') (hinj : Function.Injective text)
    (hstep : ∃ m, (Linked.ledger text c).Step m ∧
      m.Le (ledger text s' (n'.follow c.shared.state s') (Function.update c.thread i u)))
    (hdistinct : ¬ (c.thread i).Redials c.shared.state)
    (hdialing : ∀ j a, (c.thread j).dialing = some a → a ∈ c.shared.state.dialed)
    (hone : ∀ j k a, (c.thread j).dialing = some a → (c.thread k).dialing = some a → j = k)
    (halive : s'.Alive) :
    CustodyInv text ⟨⟨s', n'.follow c.shared.state s'⟩, Function.update c.thread i u⟩ := by
  obtain ⟨m, hs, hle⟩ := hstep
  have hmove := callStep_move h
  have heff := hmove.effect
  have hunused : ∀ a, (Linked.ledger text c).Unused a →
      ((c.thread i).opening = some a → u.opening ≠ none) →
      (ledger text s' (n'.follow c.shared.state s') (Function.update c.thread i u)).Unused a := by
    refine fun a hu hopening => hu.step hs hle fun ha => ?_
    rcases attempts_callStep h hn ha with ha | ⟨hfrom, hto⟩
    · exact ha
    · exact absurd hto (hopening hfrom)
  refine ⟨(hs.inv hi.inv).mono hle, fun a ha => ?_, fun j => ?_⟩
  · have hnew : a ∉ c.shared.state.dialed := by
      intro hd
      obtain ⟨j, hj⟩ := mem_dialed.mp hd
      exact ha (mem_dialed.mpr ⟨j, heff.mem_log hj⟩)
    exact hunused a (hi.unused a hnew) fun ho => absurd (hdialing i a (opening_dialing ho)) hnew
  · by_cases hj : j = i
    · subst hj
      simp only [Function.update_self]
      refine ⟨fun a ha => ?_, fun args a ha => ?_⟩
      · rcases hmove.opening ha with ⟨ho, -⟩ | ⟨⟨args, hreg⟩, -⟩
        · exact hunused a ((hi.opens j).unused a ho) fun _ => by simp [ha]
        · simp only [hreg, Call.Redials] at hdistinct
          exact hunused a (hi.unused a hdistinct) fun _ => by simp [ha]
      · rcases hmove.opening (a := a) (by rw [ha]; rfl) with ⟨-, hne⟩ | ⟨-, hget⟩
        · exact absurd ha (hne args)
        · exact hget
    · simp only [Function.update_of_ne hj]
      have hother : ∀ a, (c.thread j).opening = some a → (c.thread i).dialing ≠ some a :=
        fun a ha hd => hj (hone j i a (opening_dialing ha) hd)
      refine ⟨fun a ha => hunused a ((hi.opens j).unused a ha) fun ho =>
        absurd (opening_dialing ho) (hother a ha), fun args a ha => ?_⟩
      exact heff.entry_kept hinj halive (hother a (by rw [ha]; rfl))
        ((hi.opens j).expected args a ha)

theorem reach_custody (hinj : Function.Injective text) {c : Config Linked Call} {q : Option Nat}
    {t₀ : Int} (h : Reach (linked text) Careful (Linked.init q t₀) c)
    (halive : c.shared.state.Alive) : CustodyInv text c := by
  refine h.invariant (I := fun c => c.shared.state.Alive → CustodyInv text c)
    (fun _ => custodyInv_init q t₀) ?_ halive
  intro c a c' hr hok hs hi halive
  have hsync := reach_sync (fun _ _ h => h.1) hr
  obtain ⟨hreg, hasserts⟩ := reach_registryInv hsync
  have hsd := reach_shutdownInv hsync
  have hin := reach_incoming hsync
  obtain ⟨hone, hdialing⟩ := reach_dialed hsync
  rcases System.step_cases hs with ⟨e, l, rfl, he, rfl⟩ | ⟨i, x, l, u, rfl, hx, rfl⟩
  · rcases Linked.act_cases he with ⟨p, n, rfl, hn, rfl⟩ | ⟨b, n, s, rfl, hn, hb, rfl⟩
    · exact (hi halive).shared (report_custody hn) (fun a => Net.report_attempts hn) (fun _ => id)
        fun _ _ => id
    · have heff := act_effect hb
      have hi := hi (heff.alive halive)
      have hf := frame_of_grows hreg hasserts ((heff.registry hreg).grows hreg.inv)
      refine hi.shared (act_custody hb hn hinj hf hsd hin halive) (fun a ha => ?_) (fun a ha => ?_)
        fun a hu => heff.entry_kept hinj halive hu
      · exact Net.receive_attempts hn ▸ attempts_follow ha
      · obtain ⟨j, hj⟩ := mem_dialed.mp ha
        exact mem_dialed.mpr ⟨j, heff.mem_log.mpr hj⟩
  · obtain ⟨n, s, hn, hcall, rfl⟩ := Linked.callStep_cases hx
    have heff := callStep_effect hcall
    have hi := hi (heff.alive halive)
    have hf := frame_of_grows hreg hasserts ((heff.registry (hasserts i)).grows hreg.inv)
    have hintime : ∀ a, (c.thread i).cancelling = some a → c.shared.net.connected a = false := by
      intro a ha
      have hok := hok.2
      unfold Call.cancelling at ha
      split at ha <;> cases ha
      next hcall => simpa [InTime, hcall] using hok
    exact hi.thread hcall hn hinj
      (callStep_custody hcall hn hinj hf (hi.opens i) hintime halive) hok.1
      (fun j a hj => mem_dialed.mpr ⟨j, hdialing j a hj⟩)
      (fun j k a hj hk => hone j k a (hdialing j a hj) (hdialing k a hk)) halive

/-! ## At rest -/

/-- Nothing is on its way and nobody is half-way: the FIFO is empty, the pump is between two
packets, no call has an attempt to cancel or a guid to close. -/
structure Linked.AtRest (c : Config Linked Call) : Prop where
  opened : c.shared.state.peer.closed = false
  fifo : c.shared.net.fifo = []
  pump : c.shared.state.pump.idle = true
  calls : ∀ i, (c.thread i).letting = none ∧ (c.thread i).cancelling = none

theorem CustodyInv.registered {c : Config Linked Call} (hi : CustodyInv text c)
    (hrest : Linked.AtRest c) {g : Guid} {a : SystemAddress}
    (hlive : c.shared.net.live.get? g = some a) :
    ∃ k, c.shared.state.peer.connections.get? g = some k ∧
      (c.shared.state.peer.connection k).rawAddress = a := by
  have hidle := hrest.pump
  refine hi.inv.registered_of_rest ?_ ?_ ?_ ?_ hlive
  · simp only [Linked.ledger, ledger_reports, hrest.fifo, List.filterMap_nil, List.append_nil]
    cases hp : c.shared.state.pump <;> rw [hp] at hidle <;> first | rfl | cases hidle
  · simp only [Linked.ledger, ledger_building, State.underway]
    cases hp : c.shared.state.pump <;> rw [hp] at hidle <;> first | rfl | cases hidle
  · rintro x (⟨k, hk, -⟩ | ⟨i, k, hk, -⟩)
    · cases hp : c.shared.state.pump <;> rw [hp] at hidle hk <;> cases hidle <;> cases hk
    · simp [(hrest.calls i).1] at hk
  · rintro b ⟨i, hb⟩
    simp [(hrest.calls i).2] at hb

/-- **No connection of RakNet lives without an owner**, if every call that times out cancels its
attempt before the attempt turns into a live guid: at rest, every live guid is the key of a
registered Connection. A call that ended with a time-out leaves no live guid at its address, and
RakNet will not refuse the address as already connected. -/
theorem custody (hinj : Function.Injective text) {c : Config Linked Call} {q : Option Nat}
    {t₀ : Int} (h : Reach (linked text) Careful (Linked.init q t₀) c) (hrest : Linked.AtRest c) :
    (∀ g a, c.shared.net.live.get? g = some a →
      ∃ k, c.shared.state.peer.connections.get? g = some k) ∧
    ∀ i args a, c.thread i = .connect args (args.leave args.timedOut) →
      .connectEntered i a ∈ c.shared.state.log →
      (∀ g, c.shared.net.live.get? g ≠ some a) ∧
        c.shared.net.connect a .alreadyConnectedToEndpoint = none := by
  have hsync := reach_sync (fun _ _ h => h.1) h
  have halive : c.shared.state.Alive := by
    refine ⟨hrest.opened, fun d hd => ?_⟩
    have hidle := hrest.pump
    rw [hd] at hidle
    cases hidle
  have hi := reach_custody hinj h halive
  refine ⟨fun g a hg => ?_, fun i args a hcall hdialed => ?_⟩
  · obtain ⟨k, hk, -⟩ := hi.registered hrest hg
    exact ⟨k, hk⟩
  · have hfree : ∀ g, c.shared.net.live.get? g ≠ some a := by
      intro g hg
      obtain ⟨k, hk, ha⟩ := hi.registered hrest hg
      exact unlisted_of_timedOut hinj hsync hcall hdialed hrest.pump hk ha
    refine ⟨hfree, ?_⟩
    have hconnected : c.shared.net.connected a = false := by
      simp only [Net.connected, decide_eq_false_iff_not, Dict.mem_values]
      rintro ⟨g, hg⟩
      exact hfree g hg
    simp [Net.connect, hconnected]

/-- The same actions on a Peer with a transport. -/
def SyncAction.linked : SyncAction → Action Linked.Act (CallStart ⊕ Choice)
  | .shared e => .shared (.own e)
  | .thread i x => .thread i x

/-- One call connects. Another times out and cancels its attempt, which is still in progress. -/
theorem custody_cancelled :
    ∃ c, Reach (linked SystemAddress.text) Careful (Linked.init none 0) c ∧
      c.shared.net.live.get? 7 = some ⟨"10.0.0.1", 1⟩ ∧
      (∃ k, c.shared.state.peer.connections.get? 7 = some k) ∧
      c.shared.net.connect ⟨"10.0.0.2", 1⟩ .alreadyConnectedToEndpoint = none := by
  have h : Reach (linked SystemAddress.text) Careful (Linked.init none 0) _ :=
    .of_exec (show (linked SystemAddress.text).exec Careful
      ((connects 0 ⟨"a", 1, 12, false⟩ "10.0.0.1" .connectionAttemptStarted ++
          connects 1 ⟨"b", 1, 12, false⟩ "10.0.0.2" .connectionAttemptStarted).map
            SyncAction.linked ++
        .shared (.report ⟨⟨"10.0.0.1", 1⟩, 7, [16]⟩) ::
        (routes ⟨⟨"10.0.0.1", 1⟩, 7, [16]⟩ 6 ++ steps 0 2 ++
          .thread 1 (.inr .timeout) :: steps 1 2).map SyncAction.linked)
      (Linked.init none 0) = some _ from rfl)
  obtain ⟨hlive, htimedOut⟩ := custody text_injective h
    ⟨rfl, rfl, rfl, fun i => by rcases i with _ | _ | i <;> exact ⟨rfl, rfl⟩⟩
  exact ⟨_, h, rfl, hlive 7 _ rfl, (htimedOut 1 ⟨"b", 1, 12, false⟩ _ rfl (by decide)).2⟩

/-- The attempt turns into a live guid after the call has timed out and before it cancels. The
cancellation comes too late, the pump drops the acceptance, and at rest nobody knows the guid. -/
theorem custody_leak :
    ∃ c, Reach (linked SystemAddress.text) Distinct (Linked.init none 0) c ∧ Linked.AtRest c ∧
      c.thread 0 = .connect ⟨"a", 1, 12, false⟩ (.raised (.timeout "connect to a:1 timed out")) ∧
      c.shared.net.live.get? 7 = some ⟨"10.0.0.1", 1⟩ ∧
      c.shared.state.peer.connections.get? 7 = none ∧
      c.shared.net.connect ⟨"10.0.0.1", 1⟩ .alreadyConnectedToEndpoint ≠ none := by
  have h : Reach (linked SystemAddress.text) Distinct (Linked.init none 0) _ :=
    .of_exec (show (linked SystemAddress.text).exec Distinct
      ((connects 0 ⟨"a", 1, 12, false⟩ "10.0.0.1" .connectionAttemptStarted ++
          .thread 0 (.inr .timeout) :: steps 0 1).map SyncAction.linked ++
        .shared (.report ⟨⟨"10.0.0.1", 1⟩, 7, [16]⟩) ::
        (steps 0 1 ++ routes ⟨⟨"10.0.0.1", 1⟩, 7, [16]⟩ 2).map SyncAction.linked)
      (Linked.init none 0) = some _ from rfl)
  exact ⟨_, h, ⟨rfl, rfl, rfl, fun i => by rcases i with _ | i <;> exact ⟨rfl, rfl⟩⟩, rfl, rfl, rfl,
    by decide⟩

end Raknet
