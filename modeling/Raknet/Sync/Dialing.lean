import Raknet.Sync.Origin
import Raknet.Sync.Waiting

/-!
# Calls to pairwise distinct addresses

When no two calls connect to one address, each entry of the table is the affair of one call, and so
is the Connection that comes of it. The Peer accepts no incoming connections here.

**Theorem (`reach_dialed`, `Dialing.respectful`).** An address belongs to one call, and no call
touches the entry of another.

**Theorem (`reach_spent`).** A call that timed out has left nothing behind that is open: nobody will
ever resolve its pending connect, or the Connection of its pending connect is closed.

**Theorem (`reach_listed`).** Every Connection of the registry is that of a pending connect, or the
pump is about to make it so.
-/

namespace Raknet

open Interleaving DefaultMessageIDTypes

/-! ## The condition -/

/-- The address under which an event enters a pending connect. -/
def Event.dialed? : Event → Option SystemAddress
  | connectEntered _ a => some a
  | _ => none

/-- The addresses to which calls have started to connect. -/
def State.dialed (s : State) : List SystemAddress := s.log.filterMap Event.dialed?

/-- The call is about to connect to an address to which another call connects. -/
def Call.Redials (s : State) : Call → Prop
  | connect _ (.start (.register a)) => a ∈ s.dialed
  | _ => False

instance (s : State) (t : Call) : Decidable (t.Redials s) := by
  unfold Call.Redials
  split <;> infer_instance

/-- Calls connect to pairwise distinct addresses, and RakNet reports no incoming connection. -/
def Dialing (c : Sync) : SyncAction → Prop
  | .shared (.received (.packet p)) => p.hasId newIncomingConnection = false
  | .thread i _ => ¬ (c.thread i).Redials c.shared
  | _ => True

variable {text : SystemAddress → String} {s s' : State}

theorem mem_dialed {a : SystemAddress} : a ∈ s.dialed ↔ ∃ i, .connectEntered i a ∈ s.log := by
  simp only [State.dialed, List.mem_filterMap]
  constructor
  · rintro ⟨e, he, ha⟩
    cases e <;> cases ha
    exact ⟨_, he⟩
  · rintro ⟨i, hi⟩
    exact ⟨_, hi, rfl⟩

/-! ## Whose address -/

/-- The address to which the call has started to connect, until it ends. -/
def Call.dialing : Call → Option SystemAddress
  | connect _ (.start (.rawConnect a)) | connect _ (.start (.popFailed a _)) | connect _ (.wait a)
  | connect _ (.abandon a _) | connect _ (.waitAgain a) => some a
  | _ => none

@[simp] theorem dialing_leave (args : ConnectArgs) (e : Error) :
    (Call.connect args (args.leave e)).dialing = none := by
  unfold ConnectArgs.leave
  split_ifs <;> rfl

@[simp] theorem dialing_give (args : ConnectArgs) (c : ConnId) :
    (Call.connect args (args.give c)).dialing = none := by
  unfold ConnectArgs.give
  split_ifs <;> rfl

/-- Only a registration dials. -/
theorem ActEffect.mem_log {e : State.Act} (h : ActEffect text s e s') {i : CallId}
    {a : SystemAddress} : .connectEntered i a ∈ s'.log ↔ .connectEntered i a ∈ s.log := by
  cases h <;> simp

theorem CallEffect.mem_log {i : CallId} {t : Call} (h : CallEffect text i s t s') {j : CallId}
    {a : SystemAddress} (ha : .connectEntered j a ∈ s.log) : .connectEntered j a ∈ s'.log := by
  cases h <;> simp [ha]

theorem CallEffect.mem_log_cases {i : CallId} {t : Call} (h : CallEffect text i s t s') {j : CallId}
    {a : SystemAddress} (ha : .connectEntered j a ∈ s'.log) :
    .connectEntered j a ∈ s.log ∨ j = i ∧ ∃ args, t = .connect args (.start (.register a)) := by
  cases h with
  | registerConnect args b h hopen =>
    simp only [State.emit_log, State.set_log, List.mem_append, List.mem_singleton,
      Event.connectEntered.injEq] at ha
    rcases ha with ha | ⟨rfl, rfl⟩
    · exact Or.inl ha
    · exact Or.inr ⟨rfl, args, h⟩
  | _ => exact Or.inl (by simpa using ha)

/-- A call dials when it registers, and the address stays the same from then on. -/
theorem CallMove.dialing {i : CallId} {t t' : Call} (h : CallMove text i s t s' t')
    {a : SystemAddress} (ha : t'.dialing = some a) :
    t.dialing = some a ∨ .connectEntered i a ∈ s'.log := by
  cases h with
  | begin start t h =>
    cases start <;> simp only [startCall] at h
    case close k notify =>
      split_ifs at h
      cases h
      cases ha
    all_goals
      cases h
      cases ha
  | connect args pc pc' s' h =>
    cases h with
    | refused | fewAttempts | unresolved | closedMeanwhile | rawRaised | popFailed | cancel |
        wokenLate | reaped | failed =>
      simp at ha
    | finish => simp at ha
    | register b hopen =>
      cases ha
      exact Or.inr (by simp)
    | started b | rawRefused b | timeout b | late b | abandon b =>
      cases ha
      exact Or.inl rfl
    | _ => cases ha
  | _ => cases ha

theorem reach_dialed {c : Sync} {q : Option Nat} {t₀ : Int}
    (h : Reach (sync text) Dialing (Sync.init q t₀) c) :
    (∀ i j a, .connectEntered i a ∈ c.shared.log → .connectEntered j a ∈ c.shared.log → i = j) ∧
      ∀ i a, (c.thread i).dialing = some a → .connectEntered i a ∈ c.shared.log := by
  refine h.outline
    (G := fun s => ∀ i j a, .connectEntered i a ∈ s.log → .connectEntered j a ∈ s.log → i = j)
    (L := fun i s t => ∀ a, t.dialing = some a → .connectEntered i a ∈ s.log)
    (fun _ _ _ hi => by cases hi) (fun _ _ ha => by cases ha) ?_ ?_
  · intro c e s _ _ hs hi
    have heff := act_effect hs
    exact ⟨fun i j a => by simpa only [heff.mem_log] using hi i j a,
      fun i t ht a ha => heff.mem_log.mpr (ht a ha)⟩
  · intro c i x s t _ hok hs hi ht
    have hmove := callStep_move hs
    have heff := hmove.effect
    refine ⟨fun j k a hj hk => ?_, fun a ha => ?_, fun j _ u hu a ha => ?_⟩
    · -- a new address is not among the old ones
      have hnew : ∀ args, c.thread i = .connect args (.start (.register a)) →
          ∀ l, .connectEntered l a ∉ c.shared.log := by
        intro args hcall l hl
        simp only [Dialing, hcall, Call.Redials] at hok
        exact hok (mem_dialed.mpr ⟨l, hl⟩)
      rcases heff.mem_log_cases hj with hj | ⟨rfl, args, hcall⟩ <;>
        rcases heff.mem_log_cases hk with hk | ⟨rfl, args', hcall'⟩
      · exact hi j k a hj hk
      · exact absurd hj (hnew args' hcall' j)
      · exact absurd hk (hnew args hcall k)
      · rfl
    · rcases hmove.dialing ha with ha | ha
      · exact heff.mem_log (ht a ha)
      · exact ha
    · exact heff.mem_log (hu a ha)

/-- The entry under an address belongs to the call that dialed it. -/
theorem OriginInv.entry_of_dialed (ho : OriginInv text s) (hinj : Function.Injective text)
    {a : SystemAddress} {j : CallId} (hget : s.peer.pendingConnects.get? (text a) = some j) :
    .connectEntered j a ∈ s.log := by
  obtain ⟨b, hb, htext⟩ := ho.entry _ _ hget
  exact hinj htext ▸ hb

/-- With distinct addresses, no call touches the entry of another. -/
theorem Dialing.respectful (hinj : Function.Injective text) {c : Sync} {q : Option Nat} {t₀ : Int}
    (h : Reach (sync text) Dialing (Sync.init q t₀) c) {a : SyncAction} (hok : Dialing c a) :
    Respectful text c a := by
  obtain ⟨hone, hdialing⟩ := reach_dialed h
  have ho := reach_origin h
  cases a with
  | shared e => trivial
  | thread i x =>
    -- who finds an entry under an address it has dialed finds its own
    have hown : ∀ a, (c.thread i).dialing = some a →
        c.shared.peer.pendingConnects.get? (text a) = none ∨
          c.shared.peer.pendingConnects.get? (text a) = some i := by
      intro a ha
      rcases hget : c.shared.peer.pendingConnects.get? (text a) with _ | j
      · exact Or.inl rfl
      · obtain rfl := hone j i a (ho.entry_of_dialed hinj hget) (hdialing i a ha)
        exact Or.inr rfl
    simp only [Respectful]
    split
    · next args a hcall =>
      rcases hget : c.shared.peer.pendingConnects.get? (text a) with _ | j
      · rfl
      · simp only [Dialing, hcall, Call.Redials] at hok
        exact absurd (mem_dialed.mpr ⟨j, ho.entry_of_dialed hinj hget⟩) hok
    · next args a r hcall => exact hown a (by rw [hcall]; rfl)
    · next args a hcall => exact hown a (by rw [hcall]; rfl)
    · trivial

/-! ## No incoming connection -/

/-- The pump is bringing an incoming connection. -/
def PumpPc.incoming : PumpPc → Bool
  | route p => p.hasId newIncomingConnection
  | incomingCreate _ _ | incomingRegister _ _ | incomingAccept _ => true
  | _ => false

theorem enter_route_incoming {p : Packet} (h : p.hasId newIncomingConnection = false) :
    (PumpPc.enter (route p)).incoming = false := by
  rcases hr : route p with _ | cb
  · rfl
  · rcases route_cases hr with ⟨-, rfl⟩ | ⟨hn, rfl⟩ | ⟨-, rfl⟩ | ⟨r, -, -, rfl⟩ | ⟨-, rfl⟩ |
      ⟨-, rfl⟩ | ⟨-, rfl⟩
    case inr.inl => simp [h] at hn
    all_goals rfl

theorem ActEffect.incoming {e : State.Act} (h : ActEffect text s e s')
    (hi : s.pump.incoming = false)
    (hin : ∀ p, e = .received (.packet p) → p.hasId newIncomingConnection = false) :
    s'.pump.incoming = false := by
  cases h
  case route p h => exact enter_route_incoming (by simpa [h, PumpPc.incoming] using hi)
  case receivedPacket p h => exact hin p rfl
  case incomingCreate h | incomingRegister h | incomingAccept h =>
    rw [h] at hi
    cases hi
  case join | shutdown | sweptConnections | sweepConnection | closeMailbox | sweptConnects |
      sweepConnect | setConnect | sweptPings | sweepPing | putSentinel | recvItem | recvRaises |
      tick =>
    exact hi
  all_goals rfl

theorem reach_incoming {c : Sync} {q : Option Nat} {t₀ : Int}
    (h : Reach (sync text) Dialing (Sync.init q t₀) c) : c.shared.pump.incoming = false := by
  refine h.invariant (I := fun c => c.shared.pump.incoming = false) rfl ?_
  intro c a c' _ hok hs hi
  rcases System.step_cases hs with ⟨e, s, rfl, he, rfl⟩ | ⟨i, x, s, t, rfl, hx, rfl⟩
  · refine (act_effect he).incoming hi ?_
    rintro p rfl
    exact hok
  · have hsame : s.pump = c.shared.pump := by cases callStep_effect hx <;> rfl
    exact hsame ▸ hi

/-! ## Where the Connections come from -/

/-- A Connection of the registry is that of a pending connect, or the pump is about to make it so.
-/
def State.Dialed (s : State) : Prop :=
  ∀ g k, s.peer.connections.get? g = some k →
    (∃ j, (s.peer.pendingConnect j).connection = some k) ∨ ∃ j, s.pump = .succeededAssign j k

/-- The Connection of a pending connect stays. -/
theorem ActEffect.connection_kept {e : State.Act} (h : ActEffect text s e s') (hp : PendingInv s)
    {j : CallId} {k : ConnId} (hj : (s.peer.pendingConnect j).connection = some k) :
    (s'.peer.pendingConnect j).connection = some k := by
  cases h
  case succeededAssign i c h =>
    -- the pending connect that the pump holds has no Connection yet
    have hblank := hp.connects.blank_held i (by rw [State.connects, h]; rfl)
    simp only [ConnectOutcome.Blank, State.connects, Prod.mk.injEq] at hblank
    grind
  case failedAssign | connectSet | sweepConnect | setConnect => grind
  all_goals exact hj

theorem ActEffect.dialed {e : State.Act} (h : ActEffect text s e s') (hp : PendingInv s)
    (hin : s.pump.incoming = false) (hd : s.Dialed) : s'.Dialed := by
  intro g k hk
  by_cases hold : s.peer.connections.get? g = some k
  · rcases hd g k hold with ⟨j, hj⟩ | ⟨j, hj⟩
    · exact Or.inl ⟨j, h.connection_kept hp hj⟩
    · by_cases hmove : s'.pump = s.pump
      · exact Or.inr ⟨j, hmove.trans hj⟩
      · refine Or.inl ⟨j, ?_⟩
        cases h
        case succeededAssign i c h =>
          rw [h] at hj
          cases hj
          simp
        case drop h =>
          rw [hj] at h
          cases h
        all_goals first | exact absurd rfl hmove | simp_all
  · cases h
    case incomingRegister g' c h =>
      rw [h] at hin
      cases hin
    case succeededRegister i g' c h =>
      simp only [State.goto_peer, State.emit_peer, State.set_peer, Peer.register_connections,
        Dict.get?_set] at hk
      split_ifs at hk
      · cases hk
        exact Or.inr ⟨i, rfl⟩
      · exact absurd hk hold
    case overflowPop | disconnectedPop | fail => grind
    all_goals exact absurd hk hold

theorem CallEffect.dialed {i : CallId} {t : Call} (h : CallEffect text i s t s')
    (hp : PendingInv s) (ht : t.Unentered s i) (hd : s.Dialed) : s'.Dialed := by
  intro g k hk
  have hold := hd g k
  cases h with
  | newConnect args h =>
    -- a call that has not registered has no Connection
    have hblank := hp.connects.blank_untaken i
      fun htaken => ht.connect (by rw [h]; rfl) (hp.connects.taken_entered i htaken)
    simp only [ConnectOutcome.Blank, State.connects, Prod.mk.injEq] at hblank
    rcases hold hk with ⟨j, hj⟩ | hj
    · exact Or.inl ⟨j, by grind⟩
    · exact Or.inr hj
  | unregister => exact hold (by grind)
  | beginClose => grind
  | _ => exact hold hk

theorem reach_listed {c : Sync} {q : Option Nat} {t₀ : Int}
    (h : Reach (sync text) Dialing (Sync.init q t₀) c) : c.shared.Dialed := by
  refine h.invariant (I := fun c => c.shared.Dialed)
    (fun g k hk => by simp [Sync.init, State.init, Peer.init] at hk) ?_
  intro c a c' hr _ hs hi
  obtain ⟨hp, hun⟩ := reach_pendingInv hr
  rcases System.step_cases hs with ⟨e, s, rfl, he, rfl⟩ | ⟨i, x, s, t, rfl, hx, rfl⟩
  · exact (act_effect he).dialed hp (reach_incoming hr) hi
  · exact (callStep_effect hx).dialed hp (hun i) hi

/-! ## What a timed-out call leaves behind -/

/-- Nobody will resolve the pending connect of call `i`, or it is resolved and its Connection, if
there is one, is closed. -/
def State.Spent (s : State) (i : CallId) : Prop :=
  i ∈ s.connects.entered ∧ ¬ s.connects.Listed i ∧ i ∉ s.connects.taken ∨
    (s.peer.pendingConnect i).event = true ∧
      ∀ k, (s.peer.pendingConnect i).connection = some k → (s.peer.connection k).closed = true

/-- What a call that gives up knows about its pending connect. -/
structure ConnectPc.GivesUp (s : State) (i : CallId) (args : ConnectArgs) (pc : ConnectPc) :
    Prop where
  cancel : ∀ a, pc = .abandon a .cancel →
    i ∈ s.connects.entered ∧ ¬ s.connects.Listed i ∧ i ∉ s.connects.taken
  reap : ∀ k q, pc = .reap k q →
    (s.peer.pendingConnect i).event = true ∧ (s.peer.pendingConnect i).connection = some k
  timedOut : pc = args.leave args.timedOut → s.Spent i
  oneShot : ∀ e q, pc = .closePeer e q → args.oneShot = true

theorem State.Spent.grows {i : CallId} (h : s.Spent i) (hr : RegistryInv s)
    (hg : s.registry.Grows s'.registry) (hc : s.connects.Grows s'.connects) : s'.Spent i := by
  rcases h with ⟨hent, hlist, htaken⟩ | ⟨hevent, hclosed⟩
  · exact Or.inl ⟨hc.entered.subset hent, hc.left i hent hlist, hc.lost i hent hlist htaken⟩
  · obtain ⟨hevent', hout⟩ := hc.event i hevent
    refine Or.inr ⟨hevent', fun k hk => ?_⟩
    have hk' : (s.peer.pendingConnect i).connection = some k := by
      rw [← hk]
      exact (congrArg Prod.fst hout).symm
    exact hg.closed k (hr.pending i k hk').1 (hclosed k hk')

theorem ConnectPc.GivesUp.grows {i : CallId} {args : ConnectArgs} {pc : ConnectPc}
    (h : pc.GivesUp s i args) (hr : RegistryInv s) (hg : s.registry.Grows s'.registry)
    (hc : s.connects.Grows s'.connects) : pc.GivesUp s' i args where
  cancel a hpc := by
    obtain ⟨hent, hlist, htaken⟩ := h.cancel a hpc
    exact ⟨hc.entered.subset hent, hc.left i hent hlist, hc.lost i hent hlist htaken⟩
  reap k q hpc := by
    obtain ⟨hevent, hconn⟩ := h.reap k q hpc
    obtain ⟨hevent', hout⟩ := hc.event i hevent
    exact ⟨hevent', (congrArg Prod.fst hout).trans hconn⟩
  timedOut hpc := (h.timedOut hpc).grows hr hg hc
  oneShot := h.oneShot

theorem leave_ne_timedOut {args : ConnectArgs} {e : Error} (h : e ≠ args.timedOut) :
    args.leave e ≠ args.leave args.timedOut := by
  unfold ConnectArgs.leave
  split_ifs <;> simpa using h

theorem givesUp_of_ne {i : CallId} {args : ConnectArgs} {pc : ConnectPc}
    (hcancel : ∀ a, pc ≠ .abandon a .cancel) (hreap : ∀ k q, pc ≠ .reap k q)
    (htimedOut : pc ≠ args.leave args.timedOut)
    (hone : ∀ e q, pc = .closePeer e q → args.oneShot = true) : pc.GivesUp s i args :=
  ⟨fun a h => absurd h (hcancel a), fun k q h => absurd h (hreap k q),
    fun h => absurd h htimedOut, hone⟩

theorem givesUp_leave {i : CallId} {args : ConnectArgs} {e : Error}
    (h : e = args.timedOut → s.Spent i) : (args.leave e).GivesUp s i args := by
  by_cases he : e = args.timedOut
  · refine ⟨?_, ?_, fun _ => h he, ?_⟩ <;> unfold ConnectArgs.leave <;> split_ifs <;> simp_all
  · refine givesUp_of_ne ?_ ?_ (leave_ne_timedOut he) ?_ <;> unfold ConnectArgs.leave <;>
      split_ifs <;> simp_all

/-- A close that returns leaves its Connection closed. -/
theorem CloseEffect.closed_of_none {c : ConnId} {notify : Bool} {pc : ClosePc}
    (h : CloseEffect c notify s pc s' none) (ha : pc.Asserts s.registry c) :
    (s.peer.connection c).closed = true := by
  cases h <;> exact ha.2

theorem ConnectEffect.givesUp {i : CallId} {args : ConnectArgs} {pc pc' : ConnectPc}
    (h : ConnectEffect text i args s pc s' pc') (hp : PendingInv s) (hr : RegistryInv s)
    (ha : (Call.connect args pc).Asserts s.registry)
    (hpop : ∀ a j, pc = .abandon a .pop → s.peer.pendingConnects.get? (text a) = some j → j = i)
    (hent : ∀ a, pc = .abandon a .pop → i ∈ s.connects.entered)
    (hg : s.registry.Grows s'.registry) (hc : s.connects.Grows s'.connects)
    (ht : pc.GivesUp s i args) : pc'.GivesUp s' i args := by
  have ht' := ht.grows hr hg hc
  cases h with
  | abandon a j hget =>
    obtain rfl := hpop a j rfl hget
    refine ⟨fun b hb => ⟨hent a rfl, ?_, (hp.connects.listed _ _ hget).2⟩, by simp,
      fun h => ?_, by simp⟩
    · rintro ⟨k, hk⟩
      simp only [State.connects, State.set_peer, Peer.popConnect_pendingConnects,
        Dict.get?_erase] at hk
      split_ifs at hk with hne
      exact hne (hp.connects.table_inj _ _ _ hk hget)
    · unfold ConnectArgs.leave at h
      split_ifs at h
  | cancel a => exact givesUp_leave fun _ => Or.inl (ht'.cancel a rfl)
  | wokenLate a hevent hnone =>
    exact givesUp_leave fun _ => Or.inr ⟨hevent, by simp [hnone]⟩
  | orphan a c hevent hconn =>
    refine ⟨by simp, fun k q h => ?_, fun h => ?_, by simp⟩
    · cases h
      exact ⟨hevent, hconn⟩
    · unfold ConnectArgs.leave at h
      split_ifs at h
  | reap c q q' s' h =>
    refine ⟨by simp, fun k q h => ?_, fun h => ?_, by simp⟩
    · cases h
      exact ht'.reap c _ rfl
    · unfold ConnectArgs.leave at h
      split_ifs at h
  | reaped c q s' h =>
    have hclosed := h.closed_of_none (ha.closing c q rfl)
    have hconn := ht.reap c q rfl
    refine givesUp_leave fun _ => State.Spent.grows (Or.inr ⟨hconn.1, fun k hk => ?_⟩) hr hg hc
    obtain rfl : c = k := by simpa [hconn.2] using hk
    exact hclosed
  | failed e h =>
    refine givesUp_leave fun he => ?_
    subst he
    unfold finishConnect at h
    split at h <;> cases h
  | refused | fewAttempts | unresolved | closedMeanwhile | rawRaised | popFailed =>
    exact givesUp_leave fun h => by simp [peerIsClosed, ConnectArgs.timedOut] at h
  | finish c h =>
    refine givesUp_of_ne ?_ ?_ ?_ ?_ <;> unfold ConnectArgs.give <;> split_ifs <;>
      simp_all [ConnectArgs.leave]
  | closeLost e | closeDone e =>
    have hone := ht.oneShot e _ rfl
    exact givesUp_of_ne (by simp) (by simp) (by simp [ConnectArgs.leave, hone]) (by simp)
  | closeBegin e =>
    have hone := ht.oneShot e _ rfl
    exact givesUp_of_ne (by simp) (by simp) (by simp [ConnectArgs.leave, hone]) (by simp [hone])
  | _ =>
    refine givesUp_of_ne (by simp) (by simp) ?_ (by simp)
    unfold ConnectArgs.leave
    split_ifs <;> simp

theorem mem_entered {i : CallId} {a : SystemAddress} (h : .connectEntered i a ∈ s.log) :
    i ∈ s.connects.entered :=
  List.mem_flatMap.mpr ⟨_, h, by simp [Event.connectEntered?]⟩

theorem reach_givesUp (hinj : Function.Injective text) {c : Sync} {q : Option Nat} {t₀ : Int}
    (h : Reach (sync text) Dialing (Sync.init q t₀) c) (i : CallId) :
    ∀ args pc, c.thread i = .connect args pc → pc.GivesUp c.shared i args := by
  refine (h.outline (G := fun _ => True)
    (L := fun i s t => ∀ args pc, t = .connect args pc → pc.GivesUp s i args)
    trivial (fun _ _ _ ht => by cases ht) ?_ ?_).2 i
  · intro c e s hr _ hs _
    obtain ⟨hreg, -⟩ := reach_registryInv hr
    have hp := (reach_pendingInv hr).1
    have heff := act_effect hs
    have hc := ((heff.pending hp (reach_shutdownInv hr)).grows hp).1
    exact ⟨trivial, fun i t ht args pc hpc =>
      (ht args pc hpc).grows hreg ((heff.registry hreg).grows hreg.inv) hc⟩
  · intro c i x s t hr hok hs _ ht
    obtain ⟨hreg, hasserts⟩ := reach_registryInv hr
    obtain ⟨hp, hun⟩ := reach_pendingInv hr
    have hmove := callStep_move hs
    have hg := (hmove.effect.registry (hasserts i)).grows hreg.inv
    have hc := ((hmove.effect.pending hp (hun i) (reach_shutdownInv hr)).grows hp).1
    refine ⟨trivial, fun args pc' hpc' => ?_, fun j _ u hu args pc hpc =>
      (hu args pc hpc).grows hreg hg hc⟩
    have hresp := Dialing.respectful hinj hr hok
    have hdialed := (reach_dialed hr).2 i
    have hassert := hasserts i
    generalize hcall : c.thread i = call at hmove ht hassert hdialed
    cases hmove with
    | connect args pc pc' s' h =>
      cases hpc'
      refine h.givesUp hp hreg hassert ?_ ?_ hg hc (ht args pc rfl)
      · rintro a j rfl hget
        simp only [Respectful, hcall, hget, reduceCtorEq, Option.some.injEq, false_or] at hresp
        exact hresp
      · rintro a rfl
        exact mem_entered (hdialed a rfl)
    | begin start t h =>
      cases start <;> simp only [startCall] at h
      case close k notify =>
        split_ifs at h
        cases h
        cases hpc'
      all_goals
        cases h
        cases hpc'
      exact givesUp_of_ne (by simp) (by simp) (by unfold ConnectArgs.leave; split_ifs <;> simp)
        (by simp)
    | _ => cases hpc'

/-- A spent pending connect has no open Connection. -/
theorem State.Spent.closed {i : CallId} (h : s.Spent i) (hp : PendingInv s) {k : ConnId}
    (hk : (s.peer.pendingConnect i).connection = some k) :
    (s.peer.connection k).closed = true := by
  rcases h with ⟨-, -, htaken⟩ | ⟨-, hclosed⟩
  · exact absurd (hp.taken_of_connection hk) htaken
  · exact hclosed k hk

theorem reach_spent (hinj : Function.Injective text) {c : Sync} {q : Option Nat} {t₀ : Int}
    (h : Reach (sync text) Dialing (Sync.init q t₀) c) {i : CallId} {args : ConnectArgs}
    (hcall : c.thread i = .connect args (args.leave args.timedOut)) : c.shared.Spent i :=
  (reach_givesUp hinj h i args _ hcall).timedOut rfl

/-- The registry holds no Connection to the address of a call that timed out. -/
theorem unlisted_of_timedOut (hinj : Function.Injective text) {c : Sync} {q : Option Nat} {t₀ : Int}
    (h : Reach (sync text) Dialing (Sync.init q t₀) c) {i : CallId} {args : ConnectArgs}
    (hcall : c.thread i = .connect args (args.leave args.timedOut)) {a : SystemAddress}
    (hdialed : .connectEntered i a ∈ c.shared.log) (hpump : c.shared.pump.idle = true) {g : Guid}
    {k : ConnId} (hget : c.shared.peer.connections.get? g = some k) :
    (c.shared.peer.connection k).rawAddress ≠ a := by
  rintro rfl
  rcases reach_listed h g k hget with ⟨j, hj⟩ | ⟨j, hj⟩
  · obtain ⟨-, b, hb, htext⟩ := (reach_origin h).assigned j k hj
    rw [hinj htext] at hb
    obtain rfl := (reach_dialed h).1 i j _ hdialed hb
    have hclosed := (reach_spent hinj h hcall).closed (reach_pendingInv h).1 hj
    have hopen := (reach_registryInv h).1.inv.listed_open g k hget
    rw [State.registry_connection, hclosed] at hopen
    cases hopen
  · rw [hj] at hpump
    cases hpump

end Raknet
