import Raknet.Sync.Closing
import Raknet.Sync.Delivery

/-!
# What a closed Peer leaves open

`Peer.close` sets the flag and takes the registry's Connections under the lock, joins the pump, and
closes what it took. A Connection escapes it if it is registered after the flag was set: the pump
may have constructed it before, and `incoming_connection` and `connect_succeeded` do not look at the
flag again. A Connection also escapes if its entry is removed on behalf of another, which
`Connection.close` can do since it removes by guid.

**Theorem (`close_complete`).** In a run where neither happens, every Connection is closed, with a
reason in its mailbox, when the closer is done.

**Theorem (`close_leftover`).** A Connection that the pump registers after the flag was set stays
open.
-/

namespace Raknet

open Interleaving DefaultMessageIDTypes

/-! ## What RakNet reported about a guid -/

/-- The packet reports a new connection. -/
def Packet.opens (p : Packet) : Bool :=
  p.hasId newIncomingConnection || p.hasId connectionRequestAccepted

/-- The packet reports the end of a connection. -/
def Packet.ends (p : Packet) : Bool :=
  p.hasId disconnectionNotification || p.hasId connectionLost

/-- Whether `g` is connected after an event, given whether it was before. -/
def Event.upAfter (g : Guid) (up : Bool) : Event → Bool
  | routed p => if p.guid = g then p.opens || (up && !p.ends) else up
  | _ => up

/-- By the packets routed so far, `g` is connected. -/
def reportedUp (g : Guid) (log : List Event) : Bool := log.foldl (Event.upAfter g) false

@[grind =] theorem reportedUp_append (g : Guid) (log : List Event) (e : Event) :
    reportedUp g (log ++ [e]) = e.upAfter g (reportedUp g log) := by
  simp [reportedUp]

theorem route_opens {p : Packet} {a : SystemAddress} {g : Guid}
    (h : route p = some (.incomingConnection a g) ∨ route p = some (.connectSucceeded a g)) :
    p.opens = true ∧ p.guid = g := by
  rcases h with h | h <;>
    rcases route_cases h with ⟨hu, hc⟩ | ⟨hu, hc⟩ | ⟨hu, hc⟩ | ⟨r, -, hu, hc⟩ | ⟨hu, hc⟩ |
        ⟨hu, hc⟩ |
      ⟨hu, hc⟩ <;> cases hc <;> simp [Packet.opens, hu]

/-- The end of a connection goes to `disconnected`. -/
theorem route_ends {p : Packet} (h : p.ends = true) :
    ∃ b, route p = some (.disconnected p.guid b) := by
  obtain ⟨a, g, data⟩ := p
  cases data with
  | nil => simp [Packet.ends, Packet.hasId] at h
  | cons b l =>
    simp only [Packet.ends, Packet.hasId, Bool.or_eq_true, decide_eq_true_eq] at h
    rcases h with h | h
    · obtain rfl : b = 21 := UInt8.toNat_inj.mp h
      exact ⟨true, rfl⟩
    · obtain rfl : b = 22 := UInt8.toNat_inj.mp h
      exact ⟨false, rfl⟩

/-! ## The conditions -/

/-- RakNet reports a new connection of a guid only after it reported the end of the previous one. -/
def Orderly (c : Sync) : SyncAction → Prop
  | .shared (.received (.packet p)) => p.opens = true → reportedUp p.guid c.shared.log = false
  | _ => True

/-- The Connection that the pump is about to enter into the registry. -/
def PumpPc.registering (pc : PumpPc) : Bool := pc.fresh?.isSome

/-- The pump registers while the Peer is open, and a `Connection.close` finds its own Connection in
the registry, or none. -/
def Unhurried (c : Sync) : SyncAction → Prop
  | .shared .pump => c.shared.pump.registering = true → c.shared.peer.closed = false
  | .thread i _ =>
    match (c.thread i).closing with
    | some (k, .pop) =>
      c.shared.peer.connections.get? (c.shared.peer.connection k).rawGuid = none ∨
        c.shared.peer.connections.get? (c.shared.peer.connection k).rawGuid = some k
    | _ => True
  | _ => True

instance (c : Sync) (a : SyncAction) : Decidable (Orderly c a) := by
  unfold Orderly
  split <;> infer_instance

instance (c : Sync) (a : SyncAction) : Decidable (Unhurried c a) := by
  unfold Unhurried
  split
  · infer_instance
  · split <;> infer_instance
  · infer_instance

/-! ## Nobody is forgotten -/

/-- The Connection that the pump has taken out of the registry and not yet flagged. -/
def PumpPc.removing : PumpPc → Option ConnId
  | overflowMark c | disconnectedMark c _ => some c
  | _ => none

/-- The guid of which the pump is bringing a new connection. -/
def PumpPc.opening : PumpPc → Option Guid
  | incomingCreate _ g | incomingRegister g _ | succeededPop _ g | succeededCreate _ _ g
  | succeededRegister _ g _ => some g
  | _ => none

/-- The guid of which the pump is bringing the end. -/
def PumpPc.ending : PumpPc → Option Guid
  | disconnectedPop g _ => some g
  | _ => none

/-- Somebody will flag the Connection, or it is flagged. -/
def State.Accounted (s : State) (k : ConnId) (held : Prop) : Prop :=
  s.pump.fresh? = some k ∨ s.registry.Listed k ∨ k ∈ s.teardown.connections ∨
    s.pump.removing = some k ∨ (s.peer.connection k).closed = true ∨ held

structure RegistrationInv (s : State) : Prop where
  shut : s.peer.closed = true → ∀ g, s.peer.connections.get? g = none
  up : ∀ g k, s.peer.connections.get? g = some k →
    reportedUp g s.log = true ∨ s.pump.ending = some g
  opening : ∀ g, s.pump.opening = some g →
    reportedUp g s.log = true ∧ s.peer.connections.get? g = none
  route : ∀ p, s.pump = .route p → p.opens = true → reportedUp p.guid s.log = false

variable {text : SystemAddress → String} {s s' : State}

@[simp] theorem PumpPc.enter_ne_route (cb : Option Callback) (p : Packet) :
    PumpPc.enter cb ≠ .route p := by
  rcases cb with _ | ⟨_ | _⟩ <;> simp [PumpPc.enter]

theorem PumpPc.opening_enter_route (p : Packet) {g : Guid}
    (h : (PumpPc.enter (Raknet.route p)).opening = some g) : p.opens = true ∧ p.guid = g := by
  rcases hr : Raknet.route p with _ | cb
  · rw [hr] at h
    cases h
  · rw [hr] at h
    cases cb <;> cases h
    · exact route_opens (Or.inl hr)
    · exact route_opens (Or.inr hr)

theorem registrationInv_init (q : Option Nat) (t₀ : Int) : RegistrationInv (State.init q t₀) := by
  constructor <;> simp [State.init, Peer.init, PumpPc.opening]

theorem PumpPc.DropsIn.opening {p : Peer} {pc : PumpPc} (h : pc.DropsIn text p) {g : Guid}
    {k : ConnId} (hg : p.connections.get? g = some k) : pc.ending ≠ some g := by
  cases pc
  case disconnectedPop g' b =>
    rintro ⟨⟩
    rw [PumpPc.DropsIn, hg] at h
    cases h
  all_goals simp [PumpPc.ending]

theorem RegistrationInv.keep (hi : RegistrationInv s)
    (hclosed : s'.peer.closed = s.peer.closed) (hconn : s'.peer.connections = s.peer.connections)
    (hup : ∀ g, reportedUp g s'.log = reportedUp g s.log)
    (hending : s.pump.ending = none ∨ s'.pump.ending = s.pump.ending)
    (hopening : s'.pump.opening = none ∨ s'.pump.opening = s.pump.opening)
    (hroute : ∀ p, s'.pump = .route p → s.pump = .route p) : RegistrationInv s' where
  shut h g := by
    rw [hclosed] at h
    rw [hconn]
    exact hi.shut h g
  up g k hg := by
    rw [hconn] at hg
    rw [hup]
    refine (hi.up g k hg).imp_right fun h => ?_
    rcases hending with he | he
    · rw [he] at h
      cases h
    · rw [he, h]
  opening g hg := by
    rw [hup, hconn]
    rcases hopening with ho | ho
    · rw [ho] at hg
      cases hg
    · exact hi.opening g (ho ▸ hg)
  route p hp hopens := by
    rw [hup]
    exact hi.route p (hroute p hp) hopens

theorem ActEffect.registrationInv {e : State.Act} (h : ActEffect text s e s')
    (hi : RegistrationInv s)
    (hopen : e = .pump → s.pump.registering = true → s.peer.closed = false)
    (horder : ∀ p, e = .received (.packet p) → p.opens = true → reportedUp p.guid s.log = false) :
    RegistrationInv s' := by
  obtain ⟨h1, h2, h3, h4⟩ := id hi
  cases h
  case route p h =>
    refine ⟨h1, fun g k hg => ?_, fun g hg => ?_, fun p' hp => by simp at hp⟩
    · have hup : reportedUp g s.log = true := by simpa [h, PumpPc.ending] using h2 g k hg
      simp only [State.goto_log, State.emit_log, reportedUp_append, Event.upAfter, hup]
      by_cases hends : p.ends = true ∧ p.guid = g
      · obtain ⟨b, hb⟩ := route_ends hends.1
        refine Or.inr ?_
        simp [hb, PumpPc.enter, PumpPc.ending, hends.2]
      · refine Or.inl ?_
        grind
    · obtain ⟨hopens, rfl⟩ := PumpPc.opening_enter_route p hg
      refine ⟨by simp [reportedUp_append, Event.upAfter, hopens], ?_⟩
      have hdown := h4 p h hopens
      by_contra hsome
      obtain ⟨k, hk⟩ := Option.ne_none_iff_exists'.mp hsome
      simpa [h, PumpPc.ending, hdown] using h2 p.guid k hk
  case drop h =>
    refine ⟨h1, fun g k hg => ?_, fun g hg => (by cases hg), fun p hp => (by cases hp)⟩
    exact Or.inl ((h2 g k hg).resolve_right (h.opening hg))
  case receivedPacket p h =>
    refine ⟨h1, fun g k hg => Or.inl ?_, fun g hg => (by cases hg), fun p' hp hopens => ?_⟩
    · simpa [h, PumpPc.ending] using h2 g k hg
    · cases hp
      exact horder p rfl hopens
  case incomingRegister | succeededRegister | overflowPop | disconnectedPop | fail =>
    constructor <;>
      grind -linarith [Event.upAfter, PumpPc.opening, PumpPc.ending, PumpPc.registering,
        PumpPc.fresh?]
  all_goals
    refine hi.keep rfl rfl (fun g => ?_) ?_ ?_ (fun p => ?_) <;>
      simp [reportedUp_append, Event.upAfter, PumpPc.opening, PumpPc.ending, *]

theorem CallEffect.registrationInv {i : CallId} {t : Call} (h : CallEffect text i s t s')
    (hi : RegistrationInv s) : RegistrationInv s' := by
  obtain ⟨h1, h2, h3, h4⟩ := hi
  cases h with
  | unregister | beginClose | registerConnect | registerPing | cancel | rawClose =>
    constructor <;> grind [Event.upAfter]
  | _ => exact ⟨h1, h2, h3, h4⟩

theorem PumpPc.DropsIn.removing {p : Peer} {pc : PumpPc} (h : pc.DropsIn text p) :
    pc.removing = none := by
  cases pc <;> first | rfl | exact h.elim

theorem ActEffect.accounted {e : State.Act} (h : ActEffect text s e s')
    (hfree : ∀ g, s.pump.opening = some g → s.peer.connections.get? g = none)
    (hd : DeliveryInv s) (hsd : ShutdownInv s) {k : ConnId} {held : Prop}
    (hk : k < s'.peer.created) (hold : k < s.peer.created → s.Accounted k held) :
    s'.Accounted k held := by
  simp only [State.Accounted, Registry.Listed, State.registry_connections] at hold ⊢
  have hunbegun : s.peer.closed = false → s.teardown = .unbegun := hsd.unbegun
  cases h
  case drop h =>
    have hfresh := h.fresh?
    have hremoving := h.removing
    grind
  case fail detail h hopen =>
    have hmem : k ∈ s.peer.snapshot.connections ↔ ∃ g, s.peer.connections.get? g = some k :=
      Dict.mem_values
    grind [PumpPc.fresh?, PumpPc.removing, Teardown.connections]
  case incomingRegister g c h | succeededRegister i g c h =>
    -- the new entry replaces none
    have hnone := hfree g (by rw [h]; rfl)
    have hset : ∀ g' k', s.peer.connections.get? g' = some k' →
        (s.peer.connections.set g c).get? g' = some k' := by grind
    have hself : (s.peer.connections.set g c).get? g = some c := by grind
    grind [PumpPc.fresh?, PumpPc.removing]
  case overflowPop c h =>
    have htarget := hd.target c (by rw [h]; rfl)
    have herase : ∀ g' k', s.peer.connections.get? g' = some k' → k' = c ∨
        (s.peer.connections.erase (s.peer.connection c).rawGuid).get? g' = some k' := by grind
    grind [PumpPc.fresh?, PumpPc.removing]
  case disconnectedPop g b c h hget =>
    have herase : ∀ g' k', s.peer.connections.get? g' = some k' → k' = c ∨
        (s.peer.connections.erase g).get? g' = some k' := by grind
    grind [PumpPc.fresh?, PumpPc.removing]
  all_goals first
    | simpa [PumpPc.fresh?, PumpPc.removing, Teardown.connections, *] using hold
    | grind -linarith [PumpPc.fresh?, PumpPc.removing, Teardown.connections]

/-- `Connection.close` has taken the Connection out of the registry and not yet flagged it. -/
def Call.removing (t : Call) : Option ConnId :=
  match t.closing with
  | some (c, .mark) => some c
  | _ => none

theorem call_accounted {i : CallId} {ch : CallStart ⊕ Choice} {t t' : Call}
    (h : callStep text i ch s t = some (s', t')) (hsd : ShutdownInv s)
    (hpop : ∀ c, t.closing = some (c, .pop) →
      s.peer.connections.get? (s.peer.connection c).rawGuid = none ∨
        s.peer.connections.get? (s.peer.connection c).rawGuid = some c)
    {k : ConnId} {held : Prop} (hk : s.Accounted k (t.removing = some k ∨ held)) :
    s'.Accounted k (t'.removing = some k ∨ held) := by
  have hmem : k ∈ s.peer.snapshot.connections ↔ ∃ g, s.peer.connections.get? g = some k :=
    Dict.mem_values
  have hunbegun : s.peer.closed = false → s.teardown = .unbegun := hsd.unbegun
  simp only [State.Accounted, Registry.Listed, State.registry_connections] at hk ⊢
  cases hcl : t.closing with
  | some r =>
    obtain ⟨c, pc⟩ := r
    obtain ⟨notify, pc', hs, ht'⟩ := (callStep_move h).of_closing hcl
    simp only [Call.removing, hcl, ht'] at hk ⊢
    cases hs
    case pop =>
      have hpop := hpop c hcl
      have herase : ∀ g' k', s.peer.connections.get? g' = some k' → k' = c ∨
          (s.peer.connections.erase (s.peer.connection c).rawGuid).get? g' = some k' := by grind
      grind
    all_goals grind [Teardown.connections]
  | none =>
    have hnone : t.removing = none := by simp [Call.removing, hcl]
    simp only [hnone, reduceCtorEq, false_or] at hk
    have he := callStep_effect h
    cases he <;> grind [Teardown.connections]

/-! ## Runs -/

/-- RakNet keeps its order, the pump registers in time, and no close removes another's entry. -/
def Tidy (c : Sync) (a : SyncAction) : Prop := Orderly c a ∧ Unhurried c a

instance (c : Sync) (a : SyncAction) : Decidable (Tidy c a) :=
  inferInstanceAs (Decidable (_ ∧ _))

theorem reach_registrationInv {c : Sync} {q : Option Nat} {t₀ : Int}
    (h : Reach (sync text) Tidy (Sync.init q t₀) c) : RegistrationInv c.shared := by
  refine h.invariant (I := fun c => RegistrationInv c.shared) (registrationInv_init q t₀) ?_
  intro c a c' _ hok hs hi
  rcases System.step_cases hs with ⟨e, s, rfl, he, rfl⟩ | ⟨i, x, s, t, rfl, hx, rfl⟩
  · refine (act_effect he).registrationInv hi ?_ ?_
    · rintro rfl
      exact hok.2
    · rintro p rfl
      exact hok.1
  · exact (callStep_effect hx).registrationInv hi

theorem reach_accounted {c : Sync} {q : Option Nat} {t₀ : Int}
    (h : Reach (sync text) Tidy (Sync.init q t₀) c) {k : ConnId}
    (hk : k < c.shared.peer.created) :
    c.shared.Accounted k (∃ i, (c.thread i).removing = some k) := by
  refine h.invariant (I := fun c => k < c.shared.peer.created →
    c.shared.Accounted k (∃ i, (c.thread i).removing = some k))
    (fun hk => absurd hk (Nat.not_lt_zero k)) ?_ hk
  intro c a c' hr hok hs hi hk
  have hsd := reach_shutdownInv hr
  rcases System.step_cases hs with ⟨e, s, rfl, he, rfl⟩ | ⟨i, x, s, t, rfl, hx, rfl⟩
  · exact (act_effect he).accounted (fun g hg => ((reach_registrationInv hr).opening g hg).2)
      (reach_deliveryInv hr) hsd hk hi
  · have hpop : ∀ k, (c.thread i).closing = some (k, .pop) →
        c.shared.peer.connections.get? (c.shared.peer.connection k).rawGuid = none ∨
          c.shared.peer.connections.get? (c.shared.peer.connection k).rawGuid = some k := by
      intro k hcl
      simpa [Unhurried, hcl] using hok.2
    have hcreated : k < c.shared.peer.created := by
      have hle : s.peer.created = c.shared.peer.created := by cases callStep_effect hx <;> rfl
      exact hle ▸ hk
    -- the other calls keep what they hold
    have hsplit : c.shared.Accounted k ((c.thread i).removing = some k ∨
        ∃ j, j ≠ i ∧ (c.thread j).removing = some k) := by
      refine (hi hcreated).imp_right (Or.imp_right (Or.imp_right (Or.imp_right (Or.imp_right ?_))))
      rintro ⟨j, hj⟩
      by_cases hji : j = i
      · exact Or.inl (hji ▸ hj)
      · exact Or.inr ⟨j, hji, hj⟩
    refine (call_accounted hx hsd hpop hsplit).imp_right
      (Or.imp_right (Or.imp_right (Or.imp_right (Or.imp_right ?_))))
    rintro (hown | ⟨j, hji, hj⟩)
    · exact ⟨i, by simpa using hown⟩
    · exact ⟨j, by rwa [Config.move_thread_of_ne _ _ hji]⟩

/-- `Connection.close` has popped the entry and not yet stored its reason. -/
def ClosePc.halfway : ClosePc → Bool
  | mark | checkPeer | raw | mailbox => true
  | _ => false

/-- **Closing leaves no open Connection behind**, in a tidy run: when the closer is done and no
`Connection.close` is half-way, every Connection ever constructed is closed, has a reason, and
blocks no reader. -/
theorem close_complete {q : Option Nat} {t₀ : Int} {c : Sync}
    (h : Reach (sync text) Tidy (Sync.init q t₀) c) (hdone : c.shared.teardown = .done)
    (hcalls : ∀ i k pc, (c.thread i).closing = some (k, pc) → pc.halfway = false) :
    ∀ k, k < c.shared.peer.created → (c.shared.peer.connection k).closed = true ∧
      (c.shared.peer.mailbox k).exc ≠ none ∧ (c.shared.peer.mailbox k).get ≠ .blocked := by
  intro k hk
  have hsd := reach_shutdownInv h
  have hstopped : c.shared.pump.stopped = true := hsd.joined (by rw [hdone]; rfl)
  have hclosed : c.shared.peer.closed = true := hsd.begun.mpr (by simp [hdone])
  have hflag : (c.shared.peer.connection k).closed = true := by
    rcases reach_accounted h hk with hfresh | ⟨g, hg⟩ | hsweep | hpump | hflag | ⟨i, hi⟩
    · cases hp : c.shared.pump <;> rw [hp] at hfresh hstopped <;> cases hfresh <;> cases hstopped
    · rw [State.registry_connections, (reach_registrationInv h).shut hclosed] at hg
      cases hg
    · simp [hdone, Teardown.connections] at hsweep
    · cases hp : c.shared.pump <;> rw [hp] at hpump hstopped <;> cases hpump <;> cases hstopped
    · exact hflag
    · unfold Call.removing at hi
      split at hi <;> cases hi
      next hcl => cases hcalls i _ _ hcl
  have hreason : (c.shared.peer.mailbox k).exc ≠ none := by
    rcases reach_settled h k hflag with hreason | (hpump | hhand) | ⟨i, hi⟩
    · exact hreason
    · cases hp : c.shared.pump <;> rw [hp] at hpump hstopped <;> cases hpump <;> cases hstopped
    · simp [hdone, Teardown.inHand] at hhand
    · unfold Call.finishing at hi
      split at hi
      · next k' pc hcl =>
        have hpc := hcalls i k' pc hcl
        cases pc <;> simp_all [ClosePc.halfway, ClosePc.finishing]
      · cases hi
  exact ⟨hflag, hreason, Mailbox.get_ne_blocked hreason⟩

/-- A Peer with two Connections and a waiting connect is closed, while a user is closing the first
Connection and the pump is putting a payload into the second. -/
theorem close_complete_busy :
    ∃ c, Reach (sync SystemAddress.text) Tidy (Sync.init none 0) c ∧
      c.thread 0 = .closedPeer ∧ c.thread 2 = .closed 0 ∧ c.shared.peer.created = 2 ∧
      ∀ k < 2, (c.shared.peer.connection k).closed = true ∧
        (c.shared.peer.mailbox k).exc ≠ none ∧ (c.shared.peer.mailbox k).get ≠ .blocked := by
  have h : Reach (sync SystemAddress.text) Tidy (Sync.init none 0) _ :=
    .of_exec (show (sync SystemAddress.text).exec Tidy
      (routes ⟨⟨"10.0.0.1", 1⟩, 7, [19]⟩ 4 ++ routes ⟨⟨"10.0.0.2", 1⟩, 8, [19]⟩ 4 ++
        connects 1 ⟨"c", 1, 12, false⟩ "10.0.0.3" .connectionAttemptStarted ++
        .thread 2 (.inl (.close 0 true)) :: steps 2 1 ++ routes ⟨⟨"10.0.0.2", 1⟩, 8, [0x86]⟩ 2 ++
        steps 2 3 ++ .thread 0 (.inl .closePeer) :: steps 0 1 ++ pumps 2 ++ steps 2 3 ++
        closes 10 ++ steps 0 1) (Sync.init none 0) = some _ from rfl)
  refine ⟨_, h, rfl, rfl, rfl, close_complete h rfl ?_⟩
  rintro (_ | _ | _ | i) k pc hcl
  all_goals
    replace hcl : none = some (k, pc) := hcl
    cases hcl

/-- The pump has constructed a Connection when `close` sets the flag, and registers it afterwards:
the closer finishes without it, and its reader blocks. -/
theorem close_leftover :
    ∃ c, Reach (sync SystemAddress.text) Orderly (Sync.init none 0) c ∧
      c.thread 0 = .closedPeer ∧ c.shared.teardown = .done ∧ 0 < c.shared.peer.created ∧
      (c.shared.peer.connection 0).closed = false ∧
      (c.shared.peer.mailbox 0).get = .blocked := by
  have h : Reach (sync SystemAddress.text) Orderly (Sync.init none 0) _ :=
    .of_exec (show (sync SystemAddress.text).exec Orderly
      (routes ⟨⟨"10.0.0.1", 1⟩, 7, [19]⟩ 2 ++ .thread 0 (.inl .closePeer) :: steps 0 1 ++
        pumps 3 ++ closes 6 ++ steps 0 1) (Sync.init none 0) = some _ from rfl)
  exact ⟨_, h, rfl, rfl, by decide, rfl, rfl⟩

end Raknet
