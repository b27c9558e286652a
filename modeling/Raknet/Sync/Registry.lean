import Raknet.Effects.Calls
import Raknet.Effects.Shared
import Raknet.Registry

/-!
# The registry of a sync Peer

The threads of a Peer drive the machine of `Raknet.Registry`. Every program counter says how far
the Connection in hand has come: `PumpPc.Asserts` for the pump, `RegistryInv.sweep` and `.hand`
for the closer, `Call.Asserts` for the calls. An assertion of one thread survives the steps of
all others because a Connection only moves forward (`Registry.Grows`).

**Theorem (`reach_registryInv`, `step_registry`).** The assertions hold throughout every run,
and every step of a run is a `Registry.Step`.
-/

namespace Raknet

open Interleaving

/-- What the pump's program counter says about the Connection it works on. -/
def PumpPc.Asserts (r : Registry) : PumpPc → Prop
  | incomingRegister g c | succeededRegister _ g c => (r.connection c).rawGuid = g
  | incomingAccept c | succeededAssign _ c | messagePut c _ | overflowPop c => r.Published c
  | overflowMark c | disconnectedMark c _ => r.Gone c
  | overflowCheck c | overflowRaw c | overflowMailbox c | disconnectedMailbox c _ => r.Retired c
  | _ => True

/-- The Connections the closer has still to flag. -/
def Teardown.connections : Teardown → List ConnId
  | joining snap | shutdown _ snap | sweepConnections _ snap | closeMailbox _ _ snap
  | cancelled snap => snap.connections
  | _ => []

/-- The Connection whose mailbox the closer is about to close. -/
def Teardown.inHand : Teardown → Option ConnId
  | closeMailbox _ c _ => some c
  | _ => none

structure RegistryInv (s : State) : Prop where
  inv : s.registry.Inv
  pump : s.pump.Asserts s.registry
  sweep : ∀ c ∈ s.teardown.connections, s.registry.Gone c
  hand : ∀ c, s.teardown.inHand = some c → s.registry.Retired c
  pending : ∀ i c, (s.peer.pendingConnect i).connection = some c → s.registry.Published c

variable {text : SystemAddress → String} {s s' : State}

/-! ## Calls -/

/-- What the program counter of a `Connection.close` says about its Connection. -/
def ClosePc.Asserts (r : Registry) (c : ConnId) : ClosePc → Prop
  | check | pop => r.Published c
  | mark => r.Gone c
  | checkPeer | raw | mailbox | owns | peer _ => r.Retired c

/-- What a call's program counter says about the Connection it works on. -/
structure Call.Asserts (r : Registry) (t : Call) : Prop where
  closing : ∀ c pc, t.closing = some (c, pc) → pc.Asserts r c
  owning : ∀ args c, t = .connect args (.own c) → r.Published c

theorem ClosePc.Asserts.grows {r r' : Registry} {c : ConnId} {pc : ClosePc} (h : pc.Asserts r c)
    (hg : r.Grows r') : pc.Asserts r' c := by
  cases pc
  case check | pop => exact hg.published c h
  case mark => exact hg.gone c h
  all_goals exact hg.retired h

theorem ClosePc.Asserts.published {r : Registry} {c : ConnId} {pc : ClosePc} (h : pc.Asserts r c) :
    r.Published c := by
  cases pc
  case check | pop => exact h
  case mark => exact h.1
  all_goals exact h.1.1

theorem Call.Asserts.grows {r r' : Registry} {t : Call} (h : t.Asserts r) (hg : r.Grows r') :
    t.Asserts r' :=
  ⟨fun c pc hc => (h.closing c pc hc).grows hg,
    fun args c hc => hg.published c (h.owning args c hc)⟩

theorem CallEffect.registry {i : CallId} {t : Call} (h : CallEffect text i s t s')
    (ht : t.Asserts s.registry) : Registry.Step s.registry s'.registry := by
  cases h with
  | unregister c h => exact .unregister _
  | mark c h => exact .mark c (ht.closing c _ h)
  | closeMailbox c h => exact .close c _ (ht.closing c _ h)
  | own args c h => exact .own c (ht.owning args c h)
  | beginClose hopen => exact .clear
  | _ => exact .skip

theorem CloseEffect.asserts {c : ConnId} {notify : Bool} {pc pc' : ClosePc}
    (h : CloseEffect c notify s pc s' (some pc')) (hi : s.registry.Inv)
    (hpc : pc.Asserts s.registry c) (hg : s.registry.Grows s'.registry) :
    pc'.Asserts s'.registry c := by
  cases h with
  | pop =>
    refine ⟨hg.published c hpc, ?_⟩
    rintro ⟨g, hget⟩
    simp only [State.registry_connections, State.set_peer, Peer.unregister_connections,
      Dict.get?_erase] at hget
    split_ifs at hget with hne
    exact hne (hi.listed_guid g c hget).symm
  | skip hclosed =>
    refine ⟨⟨hpc, fun ⟨g, hget⟩ => ?_⟩, hclosed⟩
    have hopen := hi.listed_open g c hget
    rw [State.registry_connection, hclosed] at hopen
    cases hopen
  | mark => exact ⟨hg.gone c hpc, by simp⟩
  | mailbox => exact hg.retired hpc
  | begin hopen => exact hg.retired hpc
  | _ => exact hpc

theorem CloseEffect.retired {k : ConnId} {notify : Bool} {pc : ClosePc}
    (h : CloseEffect k notify s pc s' none) (hpc : pc.Asserts s.registry k) :
    s'.registry.Retired k := by
  cases h <;> exact hpc

theorem startCall_asserts {start : CallStart} {t : Call} (h : startCall s start = some t) :
    t.Asserts s.registry := by
  cases start <;> simp only [startCall] at h
  case close c notify =>
    split_ifs at h with hpub
    cases h
    exact ⟨fun c pc hc => by cases hc; exact Registry.published_of_state.mp hpub,
      fun _ _ hc => by cases hc⟩
  all_goals
    cases h
    exact ⟨fun _ _ hc => by simp [Call.closing] at hc, fun _ _ hc => by cases hc⟩

/-- A call that works on no Connection asserts nothing. -/
theorem Call.asserts_of_none {r : Registry} {t : Call} (hc : t.closing = none)
    (ho : ∀ args c, t ≠ .connect args (.own c)) : t.Asserts r :=
  ⟨fun c pc h => by simp [hc] at h, fun args c h => absurd h (ho args c)⟩

theorem leave_asserts {r : Registry} (args : ConnectArgs) (e : Error) :
    (Call.connect args (args.leave e)).Asserts r := by
  unfold ConnectArgs.leave
  split_ifs <;> exact Call.asserts_of_none rfl (by simp)

theorem ConnectEffect.asserts {args : ConnectArgs} {pc pc' : ConnectPc} {i : CallId}
    (h : ConnectEffect text i args s pc s' pc') (hi : RegistryInv s)
    (ht : (Call.connect args pc).Asserts s.registry) (hg : s.registry.Grows s'.registry) :
    (Call.connect args pc').Asserts s'.registry := by
  cases h with
  | orphan a c hevent hconn =>
    refine ⟨fun c' pc' hc' => ?_, fun _ _ hc' => by cases hc'⟩
    cases hc'
    exact hi.pending i c hconn
  | reap c pc pc' s' h =>
    refine ⟨fun c' q hc => ?_, fun _ _ hc => by cases hc⟩
    cases hc
    exact h.asserts hi.inv (ht.closing c pc rfl) hg
  | finish c h =>
    have hpub : s.registry.Published c := by
      refine hi.pending i c ?_
      unfold finishConnect at h
      split at h <;> cases h
      assumption
    unfold ConnectArgs.give
    split_ifs
    · exact ⟨fun _ _ hc => by simp [Call.closing] at hc, fun _ _ hc => by cases hc; exact hpub⟩
    · exact Call.asserts_of_none rfl (by simp)
  | _ => first | exact leave_asserts _ _ | exact Call.asserts_of_none rfl (by simp)

theorem CallMove.asserts {t t' : Call} {i : CallId} (h : CallMove text i s t s' t')
    (hi : RegistryInv s) (ht : t.Asserts s.registry) : t'.Asserts s'.registry := by
  have hg := (h.effect.registry ht).grows hi.inv
  cases h with
  | begin start t h => exact startCall_asserts h
  | connect args pc pc' s' h => exact h.asserts hi ht hg
  | close c notify pc pc' s' h =>
    refine ⟨fun c' pc' hc => ?_, fun _ _ hc => by cases hc⟩
    cases hc
    exact h.asserts hi.inv (ht.closing c pc rfl) hg
  | _ => exact Call.asserts_of_none rfl (by simp)

/-! ## The shared state -/

theorem PumpPc.Asserts.grows {pc : PumpPc} {r r' : Registry} (h : pc.Asserts r)
    (hlt : ∀ c, pc.fresh? = some c → c < r.created) (hg : r.Grows r') : pc.Asserts r' := by
  cases pc
  case incomingRegister g c | succeededRegister i g c => exact (hg.guid c (hlt c rfl)).trans h
  case incomingAccept c | succeededAssign i c | messagePut c d | overflowPop c =>
    exact hg.published c h
  case overflowMark c | disconnectedMark c b => exact hg.gone c h
  case overflowCheck c | overflowRaw c | overflowMailbox c | disconnectedMailbox c b =>
    exact hg.retired h
  all_goals trivial

theorem RegistryInv.of_step (hi : RegistryInv s) (hs : Registry.Step s.registry s'.registry)
    (hpump : s'.pump.Asserts s'.registry)
    (hsweep : ∀ c ∈ s'.teardown.connections, c ∈ s.teardown.connections ∨ s'.registry.Gone c)
    (hhand : ∀ c, s'.teardown.inHand = some c → s.teardown.inHand = some c ∨ s'.registry.Retired c)
    (hpending : ∀ i c, (s'.peer.pendingConnect i).connection = some c →
      (s.peer.pendingConnect i).connection = some c ∨ s'.registry.Published c) :
    RegistryInv s' := by
  have hg := hs.grows hi.inv
  refine ⟨hs.inv hi.inv, hpump, fun c hc => ?_, fun c hc => ?_, fun i c hc => ?_⟩
  · exact (hsweep c hc).elim (fun h => hg.gone c (hi.sweep c h)) id
  · exact (hhand c hc).elim (fun h => hg.retired (hi.hand c h)) id
  · exact (hpending i c hc).elim (fun h => hg.published c (hi.pending i c h)) id

theorem gone_of_beginClose (t : Snapshot → Teardown) (hi : RegistryInv s) {c : ConnId}
    (hc : c ∈ s.peer.snapshot.connections) : (s.beginClose t).registry.Gone c := by
  obtain ⟨g, hg⟩ := Dict.mem_values.mp hc
  exact ⟨hi.inv.listed_published g c hg, by simp [Registry.Listed]⟩

theorem registry_skip (hcreated : s'.peer.created = s.peer.created)
    (hconnections : s'.peer.connections = s.peer.connections)
    (hconnection : s'.peer.connection = s.peer.connection)
    (hfresh : s'.pump.fresh? = s.pump.fresh?) : Registry.Step s.registry s'.registry := by
  have heq : s'.registry = s.registry := by
    simp only [State.registry, hcreated, hconnections, hconnection, hfresh]
  exact heq ▸ .skip

theorem CallEffect.inv {i : CallId} {t : Call} (h : CallEffect text i s t s')
    (hi : RegistryInv s) (ht : t.Asserts s.registry) : RegistryInv s' := by
  have hs := h.registry ht
  have hpump : s'.pump.Asserts s'.registry := by
    have hsame : s'.pump = s.pump := by cases h <;> rfl
    rw [hsame]
    exact hi.pump.grows hi.inv.fresh_lt (hs.grows hi.inv)
  cases h with
  | beginClose hopen =>
    exact hi.of_step hs hpump (fun c hc => Or.inr (gone_of_beginClose _ hi hc))
      (fun c hc => by cases hc) fun _ _ => Or.inl
  | newConnect args h =>
    refine hi.of_step hs hpump (fun _ => Or.inl) (fun _ => Or.inl) fun j c hc => ?_
    by_cases hj : j = i <;> simp_all [PendingConnect.new]
  | _ => exact hi.of_step hs hpump (fun _ => Or.inl) (fun _ => Or.inl) fun _ _ => Or.inl

/-! ## Shared actions -/

theorem asserts_enter (r : Registry) (cb : Option Callback) : (PumpPc.enter cb).Asserts r := by
  rcases cb with _ | ⟨_ | _⟩ <;> trivial

theorem PumpPc.DropsIn.fresh? {p : Peer} {pc : PumpPc} (h : pc.DropsIn text p) :
    pc.fresh? = none := by
  cases pc <;> first | rfl | exact h.elim

theorem ActEffect.registry {e : State.Act} (h : ActEffect text s e s') (hi : RegistryInv s) :
    Registry.Step s.registry s'.registry := by
  obtain ⟨hinv, hpump, hsweep, hhand, -⟩ := hi
  cases h
  case incomingCreate a g h | succeededCreate i a g h =>
    simpa [State.registry, h, Registry.write, PumpPc.fresh?] using
      Registry.Step.construct (r := s.registry) s.peer.maxQueue a g (by simp [h, PumpPc.fresh?])
  case incomingRegister g c h | succeededRegister i g c h =>
    rw [h] at hpump
    simpa [State.registry, h, PumpPc.fresh?] using
      Registry.Step.register (r := s.registry) g c (by simp [h, PumpPc.fresh?]) hpump
  case overflowPop c h =>
    simpa [State.registry, h, PumpPc.fresh?] using
      Registry.Step.unregister (r := s.registry) (s.peer.connection c).rawGuid
  case disconnectedPop g b c h hget =>
    simpa [State.registry, h, PumpPc.fresh?] using Registry.Step.unregister (r := s.registry) g
  case overflowMark c h | disconnectedMark c b h =>
    rw [h] at hpump
    simpa [State.registry, h, Registry.write, PumpPc.fresh?] using
      Registry.Step.mark (r := s.registry) c hpump
  case overflowMailbox c h | disconnectedMailbox c b h =>
    rw [h] at hpump
    simpa [State.registry, h, Registry.write, PumpPc.fresh?, Peer.mailbox] using
      Registry.Step.close (r := s.registry) c _ hpump
  case messagePut c d h hroom =>
    rw [h] at hpump
    simpa [State.registry, h, Registry.write, PumpPc.fresh?] using
      Registry.Step.deliver (r := s.registry) c ((s.peer.mailbox c).append d) hpump rfl
  case fail detail h hopen =>
    simpa [State.registry, h, PumpPc.fresh?] using Registry.Step.clear (r := s.registry)
  case sweepConnection exc snap c cs h hcons =>
    exact .mark c (hsweep c (by simp [h, Teardown.connections, hcons]))
  case closeMailbox exc c snap h => exact .close c _ (hhand c (by simp [h, Teardown.inHand]))
  case recvItem c d m hpub hget =>
    exact .deliver c m (Registry.published_of_state.mp hpub) (Mailbox.get_eq_item hget).2.1
  case drop h => exact registry_skip rfl rfl rfl (by rw [h.fresh?]; rfl)
  case route p h => exact registry_skip rfl rfl rfl (by rw [State.goto_pump, h]; simp; rfl)
  -- moves of the pump that leave the Connections alone
  case leave h _ | poll h _ | receivedNothing h | receivedPacket p h | receiveRaises d h |
      routeRaises d p h | incomingAccept c h | succeededPop i a g h _ | succeededAssign i c h |
      failedPop i a r h _ | failedAssign i r h | connectSet i h | messageLookup g d c h _ |
      messageReject c d h _ | overflowSkip c h _ | overflowCheck c h _ | overflowRaw c h |
      pongPop i a g d h _ | pongAssign i a g d h | pingSet i h | failLost d h _ | failed h _ =>
    exact registry_skip rfl rfl rfl (by simp [h, PumpPc.fresh?])
  all_goals exact .skip

theorem ActEffect.asserts {e : State.Act} (h : ActEffect text s e s') (hi : RegistryInv s) :
    s'.pump.Asserts s'.registry := by
  have hgrows := (h.registry hi).grows hi.inv
  obtain ⟨hinv, hpump, -, -, -⟩ := hi
  have hkeep := hpump.grows hinv.fresh_lt hgrows
  cases h
  case route p h => exact asserts_enter _ _
  case incomingCreate a g h | succeededCreate i a g h => simp [PumpPc.Asserts]
  case incomingRegister g c h | succeededRegister i g c h =>
    have := hinv.fresh_lt c (by simp [h, PumpPc.fresh?])
    simpa [PumpPc.Asserts, Registry.Published, PumpPc.fresh?] using this
  case messageLookup g d c h hget =>
    exact hgrows.published c (hinv.listed_published g c hget)
  case messageReject c d h hfull => rwa [h] at hkeep
  case overflowPop c h =>
    rw [h] at hpump
    refine ⟨hgrows.published c hpump, ?_⟩
    rintro ⟨g, hg⟩
    simp only [State.registry_connections, State.goto_peer, State.set_peer,
      Peer.unregister_connections, Dict.get?_erase] at hg
    split_ifs at hg with hne
    exact hne (hinv.listed_guid g c hg).symm
  case disconnectedPop g b c h hget =>
    refine ⟨hgrows.published c (hinv.listed_published g c hget), ?_⟩
    rintro ⟨g', hg⟩
    simp only [State.registry_connections, State.goto_peer, State.set_peer,
      Peer.unregister_connections, Dict.get?_erase] at hg
    split_ifs at hg with hne
    exact hne ((hinv.listed_guid g' c hg).symm.trans (hinv.listed_guid g c hget))
  case overflowMark c h | disconnectedMark c b h =>
    rw [h] at hpump
    exact ⟨hgrows.gone c hpump, by simp⟩
  case overflowSkip c h _ | overflowCheck c h _ | overflowRaw c h =>
    rw [h] at hpump
    exact hgrows.retired hpump
  case join | shutdown | sweptConnections | sweepConnection | closeMailbox | sweptConnects |
      sweepConnect | setConnect | sweptPings | sweepPing | putSentinel | recvItem | recvRaises |
      tick =>
    exact hkeep
  all_goals trivial

theorem ActEffect.inv {e : State.Act} (h : ActEffect text s e s') (hi : RegistryInv s) :
    RegistryInv s' := by
  have hs := h.registry hi
  have hpump := h.asserts hi
  have hg := hs.grows hi.inv
  cases h
  case fail detail h hopen =>
    refine hi.of_step hs hpump (fun c hc => Or.inr ?_) (fun c hc => by cases hc) fun _ _ => Or.inl
    simpa [State.registry, h, PumpPc.fresh?] using gone_of_beginClose .joining hi hc
  case succeededAssign i c h =>
    have hpub : s.registry.Published c := by simpa [h, PumpPc.Asserts] using hi.pump
    refine hi.of_step hs hpump (fun _ => Or.inl) (fun _ => Or.inl) fun j c' hc => ?_
    by_cases hj : j = i
    · subst hj
      obtain rfl : c = c' := by simpa using hc
      exact Or.inr (hg.published c hpub)
    · exact Or.inl (by simpa [hj] using hc)
  case sweepConnection exc snap c cs h hcons =>
    have hgone := hi.sweep c (by simp [h, Teardown.connections, hcons])
    refine hi.of_step hs hpump (fun c' hc' => Or.inl ?_) (fun c' hc' => Or.inr ?_)
      fun _ _ => Or.inl
    · simp only [State.close_teardown, Teardown.connections] at hc'
      simp [h, Teardown.connections, hcons, hc']
    · cases hc'
      exact ⟨hg.gone c hgone, by simp⟩
  case join snap h _ | shutdown exc snap h | closeMailbox exc c snap h =>
    exact hi.of_step hs hpump (fun c hc => Or.inl (by simpa [h, Teardown.connections] using hc))
      (fun c hc => by cases hc) fun _ _ => Or.inl
  case failedAssign i _ _ | connectSet i _ =>
    refine hi.of_step hs hpump (fun _ => Or.inl) (fun _ => Or.inl) fun j c hc => Or.inl ?_
    by_cases hj : j = i
    · subst hj
      simpa using hc
    · simpa [hj] using hc
  case sweepConnect snap i is h hcons =>
    refine hi.of_step hs hpump (fun c hc => by cases hc) (fun c hc => by cases hc)
      fun j c hc => Or.inl ?_
    by_cases hj : j = i
    · subst hj
      simpa using hc
    · simpa [hj] using hc
  case setConnect i snap h =>
    refine hi.of_step hs hpump (fun c hc => by cases hc) (fun c hc => by cases hc)
      fun j c hc => Or.inl ?_
    by_cases hj : j = i
    · subst hj
      simpa using hc
    · simpa [hj] using hc
  case sweptConnections | sweptConnects | sweptPings | sweepPing | putSentinel =>
    exact hi.of_step hs hpump (fun c hc => by cases hc) (fun c hc => by cases hc) fun _ _ => Or.inl
  all_goals exact hi.of_step hs hpump (fun _ => Or.inl) (fun _ => Or.inl) fun _ _ => Or.inl

theorem call_registry {t t' : Call} {ch : CallStart ⊕ Choice} {i : CallId}
    (h : callStep text i ch s t = some (s', t')) (hi : RegistryInv s) (ht : t.Asserts s.registry) :
    Registry.Step s.registry s'.registry ∧ RegistryInv s' ∧ t'.Asserts s'.registry :=
  ⟨(callStep_effect h).registry ht, (callStep_effect h).inv hi ht, (callStep_move h).asserts hi ht⟩

/-! ## Reachable configurations -/

theorem registryInv_init (maxQueue : Option Nat) (clock : Int) :
    RegistryInv (State.init maxQueue clock) := by
  refine ⟨?_, trivial, ?_, ?_, ?_⟩
  · constructor <;> simp [State.registry, State.init, Peer.init, PumpPc.fresh?, Registry.Listed]
  · simp [State.init, Teardown.connections]
  · simp [State.init, Teardown.inHand]
  · simp [State.init, Peer.init, PendingConnect.new]

theorem reach_registryInv {ok : Sync → SyncAction → Prop} {c : Sync}
    {q : Option Nat} {t₀ : Int} (h : Reach (sync text) ok (Sync.init q t₀) c) :
    RegistryInv c.shared ∧ ∀ i, (c.thread i).Asserts c.shared.registry := by
  refine h.outline (L := fun _ s t => t.Asserts s.registry) (registryInv_init q t₀)
    (fun _ => Call.asserts_of_none rfl (by simp [Sync.init])) ?_ ?_
  · intro c e s _ _ hs hi
    have hstep := (act_effect hs).registry hi
    exact ⟨(act_effect hs).inv hi, fun _ t ht => ht.grows (hstep.grows hi.inv)⟩
  · intro c i x s t _ _ hs hi ht
    obtain ⟨hstep, hi', ht'⟩ := call_registry hs hi ht
    exact ⟨hi', ht', fun _ _ _ hu => hu.grows (hstep.grows hi.inv)⟩

theorem step_registry {ok : Sync → SyncAction → Prop} {c c' : Sync}
    {q : Option Nat} {t₀ : Int} {a : SyncAction}
    (h : Reach (sync text) ok (Sync.init q t₀) c) (hs : (sync text).step c a = some c') :
    Registry.Step c.shared.registry c'.shared.registry := by
  obtain ⟨hi, ht⟩ := reach_registryInv h
  rcases System.step_cases hs with ⟨e, s, rfl, he, rfl⟩ | ⟨i, x, s, t, rfl, hx, rfl⟩
  · exact (act_effect he).registry hi
  · exact (call_registry hx hi (ht i)).1

/-- From a reachable configuration on, a Connection only moves forward in its life. -/
theorem reach_grows {ok ok' : Sync → SyncAction → Prop} {c c' : Sync}
    {q : Option Nat} {t₀ : Int} (h : Reach (sync text) ok (Sync.init q t₀) c)
    (h' : Reach (sync text) ok' c c') : c.shared.registry.Grows c'.shared.registry := by
  induction h' with
  | start => exact .refl _
  | step hr _ hs ih =>
    have hreach := h.any.trans hr.any
    exact ih.trans ((step_registry hreach hs).grows (reach_registryInv hreach).1.inv)

end Raknet
