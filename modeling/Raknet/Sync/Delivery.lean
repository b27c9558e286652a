import Raknet.Sync.Registry

/-!
# End-to-end delivery

The history of a run says which packets the pump routed, which Connections entered the registry,
and what every mailbox took in and gave out. A payload travels from the packet to the reader in
three critical sections: the lookup, the put and the get.

**Theorem (`delivery`).** What a mailbox took in is a contiguous block of the user packets of its
guid, starting with the first one routed after the Connection was registered, and while it is
registered all of them up to the one the pump brings; what its readers got, followed by what is
still queued, is that block; and a reader sees the reason only when it has seen every payload.
-/

namespace Raknet

open Interleaving

/-! ## Histories -/

/-- The payload that an event puts into the mailbox of `k`. -/
def Event.putInto (k : ConnId) : Event → List Bytes
  | put c d => if c = k then [d] else []
  | _ => []

/-- The payload that an event returns to a reader of `k`. -/
def Event.returnedFrom (k : ConnId) : Event → List Bytes
  | returned c d => if c = k then [d] else []
  | _ => []

/-- The user packet of the guid `g` that an event routes. -/
def Event.userPacket (g : Guid) : Event → List Bytes
  | routed p => if p.isUser ∧ p.guid = g then [p.data] else []
  | _ => []

/-- The payloads put into the mailbox of `k`. -/
def puts (k : ConnId) (log : List Event) : List Bytes := log.flatMap (Event.putInto k)

/-- The payloads that `recv` on `k` returned. -/
def returns (k : ConnId) (log : List Event) : List Bytes := log.flatMap (Event.returnedFrom k)

/-- What happened after `k` was registered. -/
def since (k : ConnId) : List Event → List Event
  | [] => []
  | e :: log => if e = .registered k then log else since k log

/-- The user packets of the guid `g` routed after `k` was registered. -/
def arrivals (k : ConnId) (g : Guid) (log : List Event) : List Bytes :=
  (since k log).flatMap (Event.userPacket g)

section

variable {k : ConnId} {g : Guid} {log : List Event} {e : Event}

@[grind =] theorem puts_append : puts k (log ++ [e]) = puts k log ++ e.putInto k := by
  simp [puts]

@[grind =] theorem returns_append :
    returns k (log ++ [e]) = returns k log ++ e.returnedFrom k := by
  simp [returns]

theorem since_append (h : .registered k ∈ log) : since k (log ++ [e]) = since k log ++ [e] := by
  induction log with
  | nil => cases h
  | cons x log ih =>
    rw [List.cons_append, since, since]
    split_ifs with hx
    · rfl
    · exact ih ((List.mem_cons.mp h).resolve_left (Ne.symm hx))

theorem since_registered (h : .registered k ∉ log) : since k (log ++ [.registered k]) = [] := by
  induction log with
  | nil => simp [since]
  | cons x log ih =>
    rw [List.mem_cons, not_or] at h
    rw [List.cons_append, since, if_neg (Ne.symm h.1), ih h.2]

theorem since_of_not_mem (h : .registered k ∉ log) : since k log = [] := by
  induction log with
  | nil => rfl
  | cons x log ih =>
    rw [List.mem_cons, not_or] at h
    rw [since, if_neg (Ne.symm h.1), ih h.2]

theorem arrivals_append (h : .registered k ∈ log) :
    arrivals k g (log ++ [e]) = arrivals k g log ++ e.userPacket g := by
  simp [arrivals, since_append h]

theorem arrivals_registered (h : .registered k ∉ log) :
    arrivals k g (log ++ [.registered k]) = [] := by
  simp [arrivals, since_registered h]

theorem arrivals_of_not_mem (h : .registered k ∉ log) : arrivals k g log = [] := by
  simp [arrivals, since_of_not_mem h]

end

/-! ## The invariant -/

/-- The payload that the pump is about to put into the mailbox of `k`. -/
def PumpPc.putting (k : ConnId) : PumpPc → List Bytes
  | messagePut c d => if c = k then [d] else []
  | _ => []

/-- The payload that the pump will put into the mailbox of `k`, the entry of `g`, if nobody
interferes. -/
def PumpPc.bringing (g : Guid) (k : ConnId) : PumpPc → List Bytes
  | messageLookup g' d => if g' = g then [d] else []
  | messagePut c d => if c = k then [d] else []
  | _ => []

/-- The Connection that the pump has looked up and still takes for registered. -/
def PumpPc.target : PumpPc → Option ConnId
  | messagePut c _ | overflowPop c => some c
  | _ => none

structure DeliveryInv (s : State) : Prop where
  unregistered : ∀ k, ¬ s.registry.Published k → .registered k ∉ s.log ∧ puts k s.log = []
  registered : ∀ k, s.registry.Published k → .registered k ∈ s.log
  queue : ∀ k, returns k s.log ++ (s.peer.connection k).mailbox.items = puts k s.log
  listed : ∀ g k, s.peer.connections.get? g = some k → s.pump ≠ .overflowPop k →
    arrivals k g s.log = puts k s.log ++ s.pump.bringing g k
  block : ∀ k, puts k s.log ++ s.pump.putting k <+:
    arrivals k (s.peer.connection k).rawGuid s.log
  target : ∀ c, s.pump.target = some c →
    ∀ k, s.peer.connections.get? (s.peer.connection c).rawGuid = some k → k = c
  raised : ∀ k l e, l ++ [.raised k e] <+: s.log → returns k l = puts k l

variable {text : SystemAddress → String} {s s' : State}

theorem deliveryInv_init (q : Option Nat) (t₀ : Int) : DeliveryInv (State.init q t₀) := by
  constructor <;> simp [State.init, Peer.init, puts, returns, PumpPc.putting, PumpPc.target,
    arrivals, since, Registry.Published, default]

/-- An event that brings no payload to a mailbox and registers nothing. -/
structure Event.Idle (e : Event) : Prop where
  put : ∀ k, e.putInto k = []
  user : ∀ g, e.userPacket g = []
  registered : ∀ k, e ≠ .registered k

/-- An event that moves no payload, registers nothing and is no exception. -/
structure Event.Silent (e : Event) : Prop extends e.Idle where
  returned : ∀ k, e.returnedFrom k = []
  raised : ∀ k exc, e ≠ .raised k exc

theorem puts_eq_nil (hi : DeliveryInv s) {k : ConnId} (h : ¬ s.registry.Published k) :
    (s.peer.connection k).mailbox.items = [] := by
  have hqueue := hi.queue k
  rw [(hi.unregistered k h).2] at hqueue
  exact (List.append_eq_nil_iff.mp hqueue).2

theorem target_published (hr : RegistryInv s) {c : ConnId} (h : s.pump.target = some c) :
    s.registry.Published c := by
  have hpump := hr.pump
  cases hp : s.pump <;> rw [hp] at h hpump <;> cases h
  · exact hpump
  · exact hpump

theorem DeliveryInv.idle (hi : DeliveryInv s) (hr : RegistryInv s)
    (hlog : s'.log = s.log ∨ ∃ e : Event, e.Idle ∧ s'.log = s.log ++ [e])
    (hqueue : ∀ k, returns k s'.log ++ (s'.peer.connection k).mailbox.items = puts k s.log)
    (hraised : ∀ k l e, l ++ [.raised k e] <+: s'.log → returns k l = puts k l)
    (hpub : ∀ k, s'.registry.Published k ↔ s.registry.Published k)
    (hguid : ∀ k, s.registry.Published k →
      (s'.peer.connection k).rawGuid = (s.peer.connection k).rawGuid)
    (hconn : ∀ g k, s'.peer.connections.get? g = some k → s.peer.connections.get? g = some k)
    (hputting : ∀ k, s'.pump.putting k = s.pump.putting k)
    (htarget : ∀ c, s'.pump.target = some c → s.pump.target = some c)
    (hbring : ∀ g k, s'.peer.connections.get? g = some k → s'.pump ≠ .overflowPop k →
      s.pump ≠ .overflowPop k ∧ s'.pump.bringing g k = s.pump.bringing g k) :
    DeliveryInv s' := by
  have hputs : ∀ k, puts k s'.log = puts k s.log := by
    rcases hlog with h | ⟨e, he, h⟩ <;> intro k
    · rw [h]
    · rw [h, puts_append, he.put, List.append_nil]
  have hmem : ∀ k, .registered k ∈ s'.log ↔ .registered k ∈ s.log := by
    rcases hlog with h | ⟨e, he, h⟩ <;> intro k
    · rw [h]
    · simp [h, (he.registered k).symm]
  have harr : ∀ k g, s.registry.Published k → arrivals k g s'.log = arrivals k g s.log := by
    rcases hlog with h | ⟨e, he, h⟩ <;> intro k g hk
    · rw [h]
    · rw [h, arrivals_append (hi.registered k hk), he.user, List.append_nil]
  constructor
  case unregistered =>
    intro k hk
    rw [hmem, hputs]
    exact hi.unregistered k fun h => hk ((hpub k).mpr h)
  case registered => exact fun k hk => (hmem k).mpr (hi.registered k ((hpub k).mp hk))
  case queue =>
    intro k
    rw [hqueue, hputs]
  case listed =>
    intro g k hg hne
    have hg' := hconn g k hg
    obtain ⟨hne', hb⟩ := hbring g k hg hne
    rw [harr k g (hr.inv.listed_published g k hg'), hputs, hb, hi.listed g k hg' hne']
  case block =>
    intro k
    rw [hputs, hputting]
    by_cases hk : s.registry.Published k
    · rw [harr k _ hk, hguid k hk]
      exact hi.block k
    · have hnil : arrivals k (s.peer.connection k).rawGuid s.log = [] :=
        arrivals_of_not_mem (hi.unregistered k hk).1
      have hblock := hi.block k
      rw [hnil, List.prefix_nil] at hblock
      rw [hblock]
      exact List.nil_prefix
  case target =>
    intro c hc k hk
    have hc' := htarget c hc
    rw [hguid c (target_published hr hc')] at hk
    exact hi.target c hc' k (hconn _ k hk)
  case raised => exact hraised

theorem prefix_emit {k : ConnId} {l : List Event} {e : Event} {exc : ConnectionClosed}
    (he : e ≠ .raised k exc) (h : l ++ [.raised k exc] <+: s.log ++ [e]) :
    l ++ [.raised k exc] <+: s.log := by
  rcases List.prefix_concat_iff.mp h with heq | h
  · exact absurd (List.append_inj' heq rfl).2 (by simpa using he.symm)
  · exact h

theorem DeliveryInv.silent (hi : DeliveryInv s) (hr : RegistryInv s)
    (hlog : s'.log = s.log ∨ ∃ e : Event, e.Silent ∧ s'.log = s.log ++ [e])
    (hpub : ∀ k, s'.registry.Published k ↔ s.registry.Published k)
    (hitems : ∀ k, (s'.peer.connection k).mailbox.items = (s.peer.connection k).mailbox.items)
    (hguid : ∀ k, s.registry.Published k →
      (s'.peer.connection k).rawGuid = (s.peer.connection k).rawGuid)
    (hconn : ∀ g k, s'.peer.connections.get? g = some k → s.peer.connections.get? g = some k)
    (hputting : ∀ k, s'.pump.putting k = s.pump.putting k)
    (htarget : ∀ c, s'.pump.target = some c → s.pump.target = some c)
    (hbring : ∀ g k, s'.peer.connections.get? g = some k → s'.pump ≠ .overflowPop k →
      s.pump ≠ .overflowPop k ∧ s'.pump.bringing g k = s.pump.bringing g k) :
    DeliveryInv s' := by
  refine hi.idle hr (hlog.imp_right fun ⟨e, he, h⟩ => ⟨e, he.toIdle, h⟩) (fun k => ?_)
    (fun k l exc hl => ?_) hpub hguid hconn hputting htarget hbring
  · rcases hlog with h | ⟨e, he, h⟩
    · rw [h, hitems, hi.queue]
    · rw [h, returns_append, he.returned, List.append_nil, hitems, hi.queue]
  · refine hi.raised k l exc ?_
    rcases hlog with h | ⟨e, he, h⟩ <;> rw [h] at hl
    · exact hl
    · exact prefix_emit (he.raised k exc) hl

theorem CallEffect.deliveryInv {i : CallId} {t : Call} (h : CallEffect text i s t s')
    (hi : DeliveryInv s) (hr : RegistryInv s) : DeliveryInv s' := by
  cases h with
  | none | newConnect | popFailed | popAbandoned | newPing | popPing | acceptPop | acceptPut =>
    obtain ⟨h1, h2, h3, h4, h5, h6, h7⟩ := hi
    exact ⟨h1, h2, h3, h4, h5, h6, h7⟩
  | registerConnect | registerPing | cancel | rawClose =>
    exact hi.silent hr (Or.inr ⟨_, ⟨⟨fun _ => rfl, fun _ => rfl, fun _ => by simp⟩, fun _ => rfl,
      fun _ _ => by simp⟩, rfl⟩) (fun _ => Iff.rfl) (fun _ => rfl) (fun _ _ => rfl) (fun _ _ => id)
      (fun _ => rfl) (fun _ => id) fun _ _ _ h => ⟨h, rfl⟩
  | own args c h | mark c h | closeMailbox c h =>
    refine hi.silent hr (Or.inl rfl) (fun _ => Iff.rfl) (fun k => ?_) (fun k _ => ?_)
      (fun _ _ => id)
      (fun _ => rfl) (fun _ => id) fun _ _ _ h => ⟨h, rfl⟩
    all_goals grind
  | unregister c h =>
    refine hi.silent hr (Or.inl rfl) (fun _ => Iff.rfl) (fun k => rfl) (fun k _ => rfl)
      (fun g k hk => ?_) (fun _ => rfl) (fun _ => id) fun _ _ _ h => ⟨h, rfl⟩
    grind
  | beginClose hopen =>
    refine hi.silent hr (Or.inr ⟨_, ⟨⟨fun _ => rfl, fun _ => rfl, fun _ => by simp⟩, fun _ => rfl,
      fun _ _ => by simp⟩, rfl⟩) (fun _ => Iff.rfl) (fun _ => rfl) (fun _ _ => rfl)
      (fun g k hk => ?_) (fun _ => rfl) (fun _ => id) fun _ _ _ h => ⟨h, rfl⟩
    simp at hk

/-- The pump carries no payload. -/
structure PumpPc.Unladen (pc : PumpPc) : Prop where
  putting : ∀ k, pc.putting k = []
  bringing : ∀ g k, pc.bringing g k = []
  target : pc.target = none

theorem PumpPc.DropsIn.putting {p : Peer} {pc : PumpPc} (h : pc.DropsIn text p) (k : ConnId) :
    pc.putting k = [] := by
  cases pc <;> first | rfl | exact h.elim

theorem PumpPc.DropsIn.bringing {p : Peer} {pc : PumpPc} {g : Guid} {k : ConnId}
    (h : pc.DropsIn text p) (hg : p.connections.get? g = some k) : pc.bringing g k = [] := by
  cases pc
  case messageLookup g' d =>
    refine if_neg fun hgg => ?_
    rw [PumpPc.DropsIn, hgg, hg] at h
    cases h
  all_goals first | rfl | exact h.elim

theorem DeliveryInv.unladen (hi : DeliveryInv s) (hr : RegistryInv s) (hu : s.pump.Unladen)
    (hu' : s'.pump.Unladen)
    (hlog : s'.log = s.log ∨ ∃ e : Event, e.Silent ∧ s'.log = s.log ++ [e])
    (hpub : ∀ k, s'.registry.Published k ↔ s.registry.Published k)
    (hitems : ∀ k, (s'.peer.connection k).mailbox.items = (s.peer.connection k).mailbox.items)
    (hguid : ∀ k, s.registry.Published k →
      (s'.peer.connection k).rawGuid = (s.peer.connection k).rawGuid)
    (hconn : ∀ g k, s'.peer.connections.get? g = some k → s.peer.connections.get? g = some k) :
    DeliveryInv s' := by
  refine hi.silent hr hlog hpub hitems hguid hconn (fun k => ?_) (fun c hc => ?_) fun g k _ _ => ?_
  · rw [hu.putting, hu'.putting]
  · rw [hu'.target] at hc
    cases hc
  · refine ⟨fun hp => ?_, by rw [hu.bringing, hu'.bringing]⟩
    have htarget := hu.target
    rw [hp] at htarget
    cases htarget

@[simp] theorem PumpPc.putting_enter (k : ConnId) (cb : Option Callback) :
    (PumpPc.enter cb).putting k = [] := by
  rcases cb with _ | ⟨_ | _⟩ <;> rfl

@[simp] theorem PumpPc.target_enter (cb : Option Callback) : (PumpPc.enter cb).target = none := by
  rcases cb with _ | ⟨_ | _⟩ <;> rfl

/-- A routed packet goes to the lookup exactly if it is a user packet. -/
theorem bringing_route (p : Packet) (g : Guid) (k : ConnId) :
    (PumpPc.enter (route p)).bringing g k = (Event.routed p).userPacket g := by
  by_cases hu : p.isUser = true
  · rw [route_eq_message_iff.mpr ⟨hu, rfl, rfl⟩]
    simp [PumpPc.enter, PumpPc.bringing, Event.userPacket, hu]
  · have hnot : ∀ g d, route p ≠ some (.message g d) := fun g d h =>
      hu (route_eq_message_iff.mp h).1
    have hnil : (Event.routed p).userPacket g = [] := by simp [Event.userPacket, hu]
    rw [hnil]
    rcases hr : route p with _ | cb
    · rfl
    · cases cb with
      | message g d => exact absurd hr (hnot g d)
      | _ => rfl

/-- What an event adds to the arrivals of a Connection that is not being registered. -/
theorem arrivals_emit {k : ConnId} {g : Guid} {e : Event} (he : e ≠ .registered k) :
    arrivals k g (s.log ++ [e]) = arrivals k g s.log ∨
      arrivals k g (s.log ++ [e]) = arrivals k g s.log ++ e.userPacket g := by
  by_cases hmem : .registered k ∈ s.log
  · exact Or.inr (arrivals_append hmem)
  · refine Or.inl ?_
    rw [arrivals_of_not_mem hmem, arrivals_of_not_mem (by simp [hmem, he.symm])]

theorem deliveryInv_route {p : Packet} (hi : DeliveryInv s) (hr : RegistryInv s)
    (h : s.pump = .route p) :
    DeliveryInv ((s.emit (.routed p)).goto (.enter (route p))) := by
  have hpub : ∀ k, ((s.emit (.routed p)).goto (.enter (route p))).registry.Published k ↔
      s.registry.Published k := by
    simp [Registry.Published, h, show (PumpPc.route p).fresh? = none from rfl]
  constructor
  case unregistered =>
    intro k hk
    have hk' := hi.unregistered k (fun hp => hk ((hpub k).mpr hp))
    simpa [puts, Event.putInto] using hk'
  case registered =>
    intro k hk
    simpa using hi.registered k ((hpub k).mp hk)
  case queue =>
    intro k
    simpa [puts, returns, Event.putInto, Event.returnedFrom] using hi.queue k
  case listed =>
    intro g k hg _
    have hk := hi.registered k (hr.inv.listed_published g k hg)
    have hlisted := hi.listed g k hg (by simp [h])
    simp only [h, PumpPc.bringing, List.append_nil] at hlisted
    simp only [State.goto_log, State.emit_log, State.goto_pump, arrivals_append hk, hlisted,
      puts_append, bringing_route, Event.putInto, List.append_nil]
  case block =>
    intro k
    have hblock := hi.block k
    simp only [h, PumpPc.putting, List.append_nil] at hblock
    simp only [State.goto_log, State.emit_log, State.goto_pump, puts_append, Event.putInto,
      PumpPc.putting_enter, List.append_nil]
    rcases arrivals_emit (k := k) (g := (s.peer.connection k).rawGuid)
      (show Event.routed p ≠ .registered k by simp) with he | he
    · exact he ▸ hblock
    · exact he ▸ hblock.trans (List.prefix_append _ _)
  case target =>
    intro c hc
    simp at hc
  case raised =>
    intro k l exc hl
    exact hi.raised k l exc (prefix_emit (by simp) hl)

theorem deliveryInv_register {g : Guid} {c : ConnId} {pc : PumpPc} (hi : DeliveryInv s)
    (hr : RegistryInv s) (hfresh : s.pump.fresh? = some c)
    (hguid : (s.peer.connection c).rawGuid = g) (hu : s.pump.Unladen) (hpc : pc.Unladen)
    (hpc' : pc.fresh? = none) :
    DeliveryInv (((s.set (s.peer.register g c)).emit (.registered c)).goto pc) := by
  have hnew : ¬ s.registry.Published c := fun h => h.2 hfresh
  have hlt := hr.inv.fresh_lt c hfresh
  have hpub : ∀ k, (((s.set (s.peer.register g c)).emit (.registered c)).goto
      pc).registry.Published k ↔ s.registry.Published k ∨ k = c := by
    intro k
    simp only [State.registry_created] at hlt
    simp only [Registry.Published, State.registry_created, State.registry_fresh, State.goto_peer,
      State.emit_peer, State.set_peer, Peer.register_created, State.goto_pump, hpc', hfresh]
    grind
  constructor
  case unregistered =>
    intro k hk
    rw [hpub, not_or] at hk
    have hk' := hi.unregistered k hk.1
    simpa [puts, Event.putInto, hk.2] using hk'
  case registered =>
    intro k hk
    rcases (hpub k).mp hk with hk | rfl
    · simp [hi.registered k hk]
    · simp
  case queue =>
    intro k
    simpa [puts, returns, Event.putInto, Event.returnedFrom] using hi.queue k
  case listed =>
    intro g' k hg _
    simp only [State.goto_log, State.emit_log, State.set_log, State.goto_pump, puts_append,
      Event.putInto, hpc.bringing, List.append_nil]
    simp only [State.goto_peer, State.emit_peer, State.set_peer, Peer.register_connections,
      Dict.get?_set] at hg
    split_ifs at hg with hgg
    · cases hg
      rw [arrivals_registered (hi.unregistered c hnew).1, (hi.unregistered c hnew).2]
    · have hk := hr.inv.listed_published g' k hg
      have hne : k ≠ c := fun h => hnew (h ▸ hk)
      have htarget := hu.target
      have hlisted := hi.listed g' k hg (fun hp => by rw [hp] at htarget; cases htarget)
      rw [arrivals_append (hi.registered k hk), hlisted, hu.bringing]
      simp [Event.userPacket]
  case block =>
    intro k
    have hblock := hi.block k
    simp only [hu.putting, List.append_nil] at hblock
    simp only [State.goto_log, State.emit_log, State.set_log, State.goto_pump, puts_append,
      Event.putInto, hpc.putting, List.append_nil]
    by_cases hk : k = c
    · subst hk
      rw [(hi.unregistered k hnew).2]
      exact List.nil_prefix
    · rcases arrivals_emit (s := s) (g := (s.peer.connection k).rawGuid)
        (show Event.registered c ≠ .registered k by simpa using Ne.symm hk) with he | he
      · exact he ▸ hblock
      · exact he ▸ hblock.trans (List.prefix_append _ _)
  case target =>
    intro k hk
    simp [hpc.target] at hk
  case raised =>
    intro k l exc hl
    exact hi.raised k l exc (prefix_emit (by simp) hl)

theorem deliveryInv_lookup {g : Guid} {d : Bytes} {c : ConnId} (hi : DeliveryInv s)
    (hr : RegistryInv s) (h : s.pump = .messageLookup g d)
    (hget : s.peer.connections.get? g = some c) : DeliveryInv (s.goto (.messagePut c d)) := by
  have hguid : (s.peer.connection c).rawGuid = g := hr.inv.listed_guid g c hget
  have hpub : ∀ k, (s.goto (.messagePut c d)).registry.Published k ↔ s.registry.Published k := by
    simp [Registry.Published, h, PumpPc.fresh?]
  have hlisted : arrivals c g s.log = puts c s.log ++ [d] := by
    simpa [h, PumpPc.bringing] using hi.listed g c hget (by simp [h])
  constructor
  case unregistered => exact fun k hk => hi.unregistered k fun hp => hk ((hpub k).mpr hp)
  case registered => exact fun k hk => hi.registered k ((hpub k).mp hk)
  case queue => exact hi.queue
  case listed =>
    intro g' k hg _
    have hold := hi.listed g' k hg (by simp [h])
    simp only [State.goto_log, State.goto_pump, PumpPc.bringing]
    by_cases hk : c = k
    · subst hk
      have hgg : g' = g := (hr.inv.listed_guid g' c hg).symm.trans hguid
      rw [if_pos rfl, hgg, hlisted]
    · have hgg : g ≠ g' := fun hgg => hk (Option.some.inj (hget.symm.trans (hgg ▸ hg)))
      rw [if_neg hk, hold, h, PumpPc.bringing, if_neg hgg]
  case block =>
    intro k
    simp only [State.goto_log, State.goto_pump, State.goto_peer, PumpPc.putting]
    split_ifs with hk
    · subst hk
      simp only [hguid, hlisted, List.prefix_rfl]
    · simpa [h, PumpPc.putting] using hi.block k
  case target =>
    intro k hk l hl
    cases hk
    rw [State.goto_peer, hguid, hget] at hl
    exact (Option.some.inj hl).symm
  case raised => exact hi.raised

theorem setMailbox_rawGuid (p : Peer) (c k : ConnId) (m : Mailbox) :
    ((p.setMailbox c m).connection k).rawGuid = (p.connection k).rawGuid := by
  grind

theorem deliveryInv_put {c : ConnId} {d : Bytes} (hi : DeliveryInv s) (hr : RegistryInv s)
    (h : s.pump = .messagePut c d) :
    DeliveryInv (((s.set (s.peer.setMailbox c ((s.peer.mailbox c).append d))).emit
      (.put c d)).goto .loop) := by
  have hpumpc : s.registry.Published c := target_published hr (by rw [h]; rfl)
  have hpub : ∀ k, (((s.set (s.peer.setMailbox c ((s.peer.mailbox c).append d))).emit
      (.put c d)).goto .loop).registry.Published k ↔ s.registry.Published k := by
    simp [Registry.Published, h, PumpPc.fresh?]
  constructor
  case unregistered =>
    intro k hk
    have hk' := mt (hpub k).mpr hk
    have hne : c ≠ k := fun hck => hk' (hck ▸ hpumpc)
    simpa [puts, Event.putInto, hne] using hi.unregistered k hk'
  case registered =>
    intro k hk
    simpa using hi.registered k ((hpub k).mp hk)
  case queue =>
    intro k
    have hqueue := hi.queue k
    grind [Event.putInto, Event.returnedFrom]
  case listed =>
    intro g k hg _
    have hg' : s.peer.connections.get? g = some k := hg
    have hold := hi.listed g k hg' (by simp [h])
    have hk := hi.registered k (hr.inv.listed_published g k hg')
    simp only [State.goto_log, State.emit_log, State.set_log, arrivals_append hk, hold, puts_append,
      h, PumpPc.bringing]
    simp [Event.userPacket, Event.putInto]
  case block =>
    intro k
    have hblock := hi.block k
    simp only [State.goto_log, State.emit_log, State.set_log, State.goto_pump, State.goto_peer,
      State.emit_peer, State.set_peer, setMailbox_rawGuid, puts_append]
    simp only [h, PumpPc.putting, List.append_nil] at hblock ⊢
    rcases arrivals_emit (s := s) (k := k) (g := (s.peer.connection k).rawGuid)
      (show Event.put c d ≠ .registered k by simp) with he | he
    · exact he ▸ hblock
    · exact he ▸ hblock.trans (List.prefix_append _ _)
  case target =>
    intro k hk
    cases hk
  case raised =>
    intro k l exc hl
    exact hi.raised k l exc (prefix_emit (by simp) hl)

theorem deliveryInv_reject {c : ConnId} {d : Bytes} (hi : DeliveryInv s) (hr : RegistryInv s)
    (h : s.pump = .messagePut c d) :
    DeliveryInv ((s.emit (.rejected c d)).goto (.overflowPop c)) := by
  have hpub : ∀ k, ((s.emit (.rejected c d)).goto (.overflowPop c)).registry.Published k ↔
      s.registry.Published k := by
    simp [Registry.Published, h, PumpPc.fresh?]
  constructor
  case unregistered =>
    intro k hk
    simpa [puts, Event.putInto] using hi.unregistered k (mt (hpub k).mpr hk)
  case registered =>
    intro k hk
    simpa using hi.registered k ((hpub k).mp hk)
  case queue =>
    intro k
    simpa [puts, returns, Event.putInto, Event.returnedFrom] using hi.queue k
  case listed =>
    intro g k hg hne
    have hold := hi.listed g k hg (by simp [h])
    have hk := hi.registered k (hr.inv.listed_published g k hg)
    have hck : c ≠ k := fun hck => hne (by rw [hck]; rfl)
    simp only [State.goto_log, State.emit_log, arrivals_append hk, hold, puts_append, h,
      PumpPc.bringing, if_neg hck]
    simp [Event.userPacket, Event.putInto]
  case block =>
    intro k
    have hblock := (List.prefix_append _ _).trans (hi.block k)
    simp only [State.goto_log, State.emit_log, State.goto_pump, State.goto_peer, State.emit_peer,
      puts_append, Event.putInto, PumpPc.putting, List.append_nil]
    rcases arrivals_emit (s := s) (k := k) (g := (s.peer.connection k).rawGuid)
      (show Event.rejected c d ≠ .registered k by simp) with he | he
    · exact he ▸ hblock
    · exact he ▸ hblock.trans (List.prefix_append _ _)
  case target =>
    intro k hk
    cases hk
    exact hi.target c (by rw [h]; rfl)
  case raised =>
    intro k l exc hl
    exact hi.raised k l exc (prefix_emit (by simp) hl)

theorem deliveryInv_drop (hi : DeliveryInv s) (hr : RegistryInv s)
    (h : s.pump.DropsIn text s.peer) : DeliveryInv (s.goto .loop) := by
  have hbring : ∀ g k, s.peer.connections.get? g = some k → s.pump.bringing g k = [] :=
    fun g k hg => h.bringing hg
  refine hi.silent hr (Or.inl rfl) (fun k => ?_) (fun _ => rfl) (fun _ _ => rfl) (fun _ _ => id)
    (fun k => ?_) (fun c hc => by cases hc) (fun g k hg _ => ⟨?_, ?_⟩)
  · simp [Registry.Published, h.fresh?, show PumpPc.loop.fresh? = none from rfl]
  · rw [h.putting]
    rfl
  · intro hp
    rw [hp] at h
    exact h
  · rw [hbring g k hg]
    rfl

theorem deliveryInv_construct {a : SystemAddress} {g : Guid} {pc : PumpPc} (hi : DeliveryInv s)
    (hr : RegistryInv s) (hu : s.pump.Unladen) (hfresh : s.pump.fresh? = none) (hpc : pc.Unladen)
    (hpc' : pc.fresh? = some s.peer.created) :
    DeliveryInv ((s.set (s.peer.construct a g)).goto pc) := by
  have hnew : ¬ s.registry.Published s.peer.created := fun hp => Nat.lt_irrefl _ hp.1
  have hitems := puts_eq_nil hi hnew
  refine hi.unladen hr hu hpc (Or.inl rfl) (fun k => ?_) (fun k => ?_) (fun k hk => ?_)
    (fun _ _ => id)
  · simp only [Registry.Published, State.registry_created, State.registry_fresh, hfresh,
      State.goto_peer, State.set_peer, Peer.construct_created, State.goto_pump, hpc']
    grind
  · grind
  · have hlt := hk.1
    grind [State.registry_created]

/-- The entry that `_overflow` pops is that of the Connection that rejected the payload. -/
theorem deliveryInv_overflowPop {c : ConnId} (hi : DeliveryInv s) (hr : RegistryInv s)
    (h : s.pump = .overflowPop c) :
    DeliveryInv ((s.set (s.peer.unregister (s.peer.connection c).rawGuid)).goto
      (.overflowMark c)) := by
  refine hi.silent hr (Or.inl rfl) (fun k => ?_) (fun _ => rfl) (fun _ _ => rfl) (fun g k hg => ?_)
    (fun k => by simp [h, PumpPc.putting]) (fun c hc => by cases hc) (fun g k hg _ => ⟨?_, ?_⟩)
  · simp [Registry.Published, h, PumpPc.fresh?]
  · grind
  · intro hp
    obtain rfl : c = k := by simpa [h] using hp
    simp only [State.goto_peer, State.set_peer, Peer.unregister_connections, Dict.get?_erase] at hg
    split_ifs at hg with hgg
    exact hgg (hr.inv.listed_guid g c hg).symm
  · simp [h, PumpPc.bringing]

theorem deliveryInv_recvItem {c : ConnId} {d : Bytes} {m : Mailbox} (hi : DeliveryInv s)
    (hr : RegistryInv s) (hget : (s.peer.mailbox c).get = .item d m) :
    DeliveryInv ((s.set (s.peer.setMailbox c m)).emit (.returned c d)) := by
  obtain ⟨hitems, -, -⟩ := Mailbox.get_eq_item hget
  refine hi.idle hr (Or.inr ⟨_, ⟨fun _ => rfl, fun _ => rfl, by simp⟩, rfl⟩) (fun k => ?_)
    (fun k l exc hl => hi.raised k l exc (prefix_emit (by simp) hl)) (fun _ => Iff.rfl)
    (fun k _ => setMailbox_rawGuid _ _ _ _) (fun _ _ => id) (fun _ => rfl) (fun _ => id)
    fun _ _ _ h => ⟨h, rfl⟩
  have hqueue := hi.queue k
  grind [Event.returnedFrom]

/-- `get` raises on an empty queue only. -/
theorem deliveryInv_recvRaises {c : ConnId} {exc : ConnectionClosed} (hi : DeliveryInv s)
    (hr : RegistryInv s) (hget : (s.peer.mailbox c).get = .raised exc) :
    DeliveryInv (s.emit (.raised c exc)) := by
  obtain ⟨hitems, -⟩ := Mailbox.get_eq_raised hget
  have hqueue := hi.queue c
  refine hi.idle hr (Or.inr ⟨_, ⟨fun _ => rfl, fun _ => rfl, by simp⟩, rfl⟩) (fun k => ?_)
    (fun k l e hl => ?_) (fun _ => Iff.rfl) (fun k _ => rfl) (fun _ _ => id) (fun _ => rfl)
    (fun _ => id) fun _ _ _ h => ⟨h, rfl⟩
  · have hqueue' := hi.queue k
    grind [Event.returnedFrom]
  · by_cases hlast : Event.raised c exc = .raised k e
    · cases hlast
      rcases List.prefix_concat_iff.mp hl with heq | hl
      · obtain rfl := (List.append_inj' heq rfl).1
        rw [← hqueue, show (s.peer.connection c).mailbox.items = [] from hitems, List.append_nil]
      · exact hi.raised c l exc hl
    · exact hi.raised k l e (prefix_emit hlast hl)

theorem Event.Silent.emitted {e : Event} (he : e.Silent) (hlog : s'.log = s.log ++ [e]) :
    s'.log = s.log ∨ ∃ e : Event, e.Silent ∧ s'.log = s.log ++ [e] :=
  Or.inr ⟨e, he, hlog⟩

theorem ActEffect.deliveryInv {e : State.Act} (h : ActEffect text s e s')
    (hi : DeliveryInv s) (hr : RegistryInv s) : DeliveryInv s' := by
  cases h
  case route p h => exact deliveryInv_route hi hr h
  case drop h => exact deliveryInv_drop hi hr h
  case incomingCreate a g h | succeededCreate i a g h =>
    refine deliveryInv_construct hi hr ?_ (by rw [h]; rfl) ⟨fun _ => rfl, fun _ _ => rfl, rfl⟩ rfl
    constructor <;> simp [h, PumpPc.putting, PumpPc.bringing, PumpPc.target]
  case incomingRegister g c h | succeededRegister i g c h =>
    have hpump := hr.pump
    rw [h] at hpump
    refine deliveryInv_register hi hr (by rw [h]; rfl) hpump ?_
      ⟨fun _ => rfl, fun _ _ => rfl, rfl⟩ rfl
    constructor <;> simp [h, PumpPc.putting, PumpPc.bringing, PumpPc.target]
  case messageLookup g d c h hget => exact deliveryInv_lookup hi hr h hget
  case messagePut c d h hroom => exact deliveryInv_put hi hr h
  case messageReject c d h hfull => exact deliveryInv_reject hi hr h
  case overflowPop c h => exact deliveryInv_overflowPop hi hr h
  case recvItem c d m hpub hget => exact deliveryInv_recvItem hi hr hget
  case recvRaises c exc hpub hget => exact deliveryInv_recvRaises hi hr hget
  -- no payload, no entry and no program counter of the pump changes
  case join | shutdown | sweptConnections | sweptConnects | sweepConnect | sweptPings | tick =>
    exact hi.silent hr (Or.inl rfl) (fun _ => Iff.rfl) (fun _ => rfl) (fun _ _ => rfl)
      (fun _ _ => id)
      (fun _ => rfl) (fun _ => id) fun _ _ _ h => ⟨h, rfl⟩
  case setConnect | sweepPing | putSentinel =>
    exact hi.silent hr
      (Event.Silent.emitted ⟨⟨fun _ => rfl, fun _ => rfl, by simp⟩, fun _ => rfl, by simp⟩ rfl)
      (fun _ => Iff.rfl) (fun _ => rfl) (fun _ _ => rfl) (fun _ _ => id)
      (fun _ => rfl) (fun _ => id) fun _ _ _ h => ⟨h, rfl⟩
  case sweepConnection | closeMailbox =>
    refine hi.silent hr (Or.inl rfl) (fun _ => Iff.rfl) (fun k => ?_) (fun k _ => ?_)
      (fun _ _ => id)
      (fun _ => rfl) (fun _ => id) fun _ _ _ h => ⟨h, rfl⟩
    all_goals grind
  -- the pump moves on with no payload in its hands
  case fail detail h hopen =>
    refine hi.unladen hr ?_ ⟨fun _ => rfl, fun _ _ => rfl, rfl⟩
      (Event.Silent.emitted ⟨⟨fun _ => rfl, fun _ => rfl, by simp⟩, fun _ => rfl, by simp⟩ rfl)
      ?_ (fun _ => rfl) (fun _ _ => rfl) (fun g k hg => by simp at hg)
    · constructor <;> simp [h, PumpPc.putting, PumpPc.bringing, PumpPc.target]
    · simp [h, Registry.Published, PumpPc.fresh?]
  case overflowMark c h | overflowMailbox c h | disconnectedMark c b h |
    disconnectedMailbox c b h =>
    refine hi.unladen hr ⟨?_, ?_, ?_⟩ ⟨fun _ => rfl, fun _ _ => rfl, rfl⟩ (Or.inl rfl) (fun k => ?_)
      (fun k => ?_) (fun k _ => ?_) (fun _ _ => id)
    · simp [h, PumpPc.putting]
    · simp [h, PumpPc.bringing]
    · simp [h, PumpPc.target]
    · simp [Registry.Published, h, PumpPc.fresh?]
    · grind
    · grind
  case disconnectedPop g b c h hget =>
    refine hi.unladen hr ?_ ⟨fun _ => rfl, fun _ _ => rfl, rfl⟩ (Or.inl rfl) ?_ (fun _ => rfl)
      (fun _ _ => rfl) (fun g k hg => by grind)
    · constructor <;> simp [h, PumpPc.putting, PumpPc.bringing, PumpPc.target]
    · simp [h, Registry.Published, PumpPc.fresh?]
  all_goals
    refine hi.unladen hr ?_ ⟨fun _ => rfl, fun _ _ => rfl, rfl⟩ ?_ ?_ (fun _ => rfl)
      (fun _ _ => rfl) (fun _ _ => id)
    · constructor <;> simp [*, PumpPc.putting, PumpPc.bringing, PumpPc.target]
    · first
        | exact Or.inl rfl
        | exact Event.Silent.emitted
            ⟨⟨fun _ => rfl, fun _ => rfl, by simp⟩, fun _ => rfl, by simp⟩ rfl
    · simp [*, Registry.Published, PumpPc.fresh?]

/-! ## Runs -/

theorem reach_deliveryInv {ok : Sync → SyncAction → Prop} {c : Sync} {q : Option Nat} {t₀ : Int}
    (h : Reach (sync text) ok (Sync.init q t₀) c) : DeliveryInv c.shared := by
  refine h.invariant (I := fun c => DeliveryInv c.shared) (deliveryInv_init q t₀) ?_
  intro c a c' hr _ hs hi
  have hreg := (reach_registryInv hr).1
  rcases System.step_cases hs with ⟨e, s, rfl, he, rfl⟩ | ⟨i, x, s, t, rfl, hx, rfl⟩
  · exact (act_effect he).deliveryInv hi hreg
  · exact (callStep_effect hx).deliveryInv hi hreg

/-- **End-to-end delivery.** The payloads put into a mailbox are the first ones among the user
packets of its guid routed since the registration, without a gap; the payloads returned by `recv`,
followed by those still queued, are the payloads put; and whenever a `recv` raised, every payload
put until then had been returned. The block ends with the registration only: while the Connection
has an entry and was not found full, no user packet is missing but the one that the pump brings. -/
theorem delivery {q : Option Nat} {t₀ : Int} {c : Sync}
    (h : Reach (sync text) anyStep (Sync.init q t₀) c) (k : ConnId) :
    puts k c.shared.log <+: arrivals k (c.shared.peer.connection k).rawGuid c.shared.log ∧
    returns k c.shared.log ++ (c.shared.peer.connection k).mailbox.items = puts k c.shared.log ∧
    (∀ l e, l ++ [.raised k e] <+: c.shared.log → returns k l = puts k l) ∧
    ∀ g, c.shared.peer.connections.get? g = some k → c.shared.pump ≠ .overflowPop k →
      arrivals k g c.shared.log = puts k c.shared.log ++ c.shared.pump.bringing g k := by
  have hi := reach_deliveryInv h
  exact ⟨(List.prefix_append _ _).trans (hi.block k), hi.queue k, hi.raised k,
    fun g => hi.listed g k⟩

/-- Two payloads arrive for a Connection with room for one, the reader takes the first, and is then
told of the overflow. -/
theorem delivery_overflow :
    ∃ c, Reach (sync SystemAddress.text) anyStep (Sync.init (some 1) 0) c ∧
      arrivals 0 7 c.shared.log = [[0x86, 1], [0x86, 2]] ∧ returns 0 c.shared.log = [[0x86, 1]] ∧
      puts 0 c.shared.log = [[0x86, 1]] := by
  have h : Reach (sync SystemAddress.text) anyStep (Sync.init (some 1) 0) _ :=
    .of_exec (show (sync SystemAddress.text).exec anyStep
      (routes ⟨⟨"10.0.0.1", 1⟩, 7, [19]⟩ 4 ++ routes ⟨⟨"10.0.0.1", 1⟩, 7, [0x86, 1]⟩ 3 ++
        routes ⟨⟨"10.0.0.1", 1⟩, 7, [0x86, 2]⟩ 8 ++ [.shared (.recv 0), .shared (.recv 0)])
      (Sync.init (some 1) 0) = some _ from rfl)
  exact ⟨_, h, rfl, rfl, (delivery h 0).2.1.symm⟩

end Raknet
