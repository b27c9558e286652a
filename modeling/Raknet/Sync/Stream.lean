import Raknet.Sync.Registry

/-!
# The end of a stream

A `recv` that finds its mailbox empty and a reason stored raises the reason, and iteration over the
Connection ends there. `_Mailbox.put` does not look at the reason, and `message` puts after it has
released the lock under which it looked the Connection up.

**Theorem (`stream_final`).** A reason that a `recv` raised is what every later `recv` raises,
exactly if the pump was not about to put a payload into that mailbox just then. In a run in which
it never is, every raised reason is final.
-/

namespace Raknet

open Interleaving

variable {text : SystemAddress → String} {s s' : State} {k : ConnId} {exc : ConnectionClosed}

/-- The pump has looked `k` up, and its put will be accepted. -/
def State.putting (s : State) (k : ConnId) : Bool :=
  match s.pump with
  | .messagePut c _ => c = k && !(s.peer.mailbox k).full
  | _ => false

/-- The stream of `k` has ended with `exc`, and nobody will put into its mailbox any more. -/
structure State.Over (s : State) (k : ConnId) (exc : ConnectionClosed) : Prop where
  items : (s.peer.mailbox k).items = []
  reason : (s.peer.mailbox k).exc = some exc
  gone : s.registry.Gone k
  idle : s.putting k = false

/-- A `recv` that finds no payload does not find the pump about to put one. -/
def Attentive (c : Sync) : SyncAction → Prop
  | .shared (.recv k) => (c.shared.peer.mailbox k).items = [] → c.shared.putting k = false
  | _ => True

instance (c : Sync) : (a : SyncAction) → Decidable (Attentive c a)
  | .shared (.recv k) => inferInstanceAs
    (Decidable ((c.shared.peer.mailbox k).items = [] → c.shared.putting k = false))
  | .shared .pump | .shared (.received _) | .shared (.routeRaises _) | .shared .closer
  | .shared (.tick _) | .thread _ _ => .isTrue trivial

theorem putting_iff :
    s.putting k = true ↔ ∃ d, s.pump = .messagePut k d ∧ (s.peer.mailbox k).full = false := by
  unfold State.putting
  constructor
  · intro h
    split at h
    · next c d hp =>
      simp only [Bool.and_eq_true, decide_eq_true_eq, Bool.not_eq_true'] at h
      obtain ⟨rfl, hroom⟩ := h
      exact ⟨d, hp, hroom⟩
    · cases h
  · rintro ⟨d, hp, hroom⟩
    simp [hp, hroom]

/-! ## Mailboxes -/

theorem Mailbox.get_of_empty {m : Mailbox} (hitems : m.items = []) (hexc : m.exc = some exc) :
    m.get = .raised exc := by
  simp only [Mailbox.get, hitems, hexc]

theorem Mailbox.full_congr {m m' : Mailbox} (hitems : m'.items = m.items)
    (hmax : m'.maxsize = m.maxsize) : m'.full = m.full := by
  simp only [Mailbox.full, hitems, hmax]

theorem State.Over.get (h : s.Over k exc) : (s.peer.mailbox k).get = .raised exc :=
  Mailbox.get_of_empty h.items h.reason

/-! ## Steps -/

theorem PumpPc.enter_ne_messagePut (cb : Option Callback) (c : ConnId) (d : Bytes) :
    PumpPc.enter cb ≠ .messagePut c d := by
  rcases cb with _ | ⟨_ | _⟩ <;> simp [PumpPc.enter]

theorem State.Over.keep (h : s.Over k exc) (hg : s.registry.Grows s'.registry)
    (hitems : (s'.peer.mailbox k).items = (s.peer.mailbox k).items)
    (hmax : (s'.peer.mailbox k).maxsize = (s.peer.mailbox k).maxsize)
    (hpump : ∀ d, s'.pump = .messagePut k d → s.pump = .messagePut k d) : s'.Over k exc where
  items := hitems.trans h.items
  reason := hg.reason k exc h.gone.1.1 h.reason
  gone := hg.gone k h.gone
  idle := by
    rw [← Bool.not_eq_true, putting_iff]
    rintro ⟨d, hp, hroom⟩
    rw [Mailbox.full_congr hitems hmax] at hroom
    simpa [putting_iff.mpr ⟨d, hpump d hp, hroom⟩] using h.idle

theorem ActEffect.over {e : State.Act} (h : ActEffect text s e s') (hr : RegistryInv s)
    (ho : s.Over k exc) : s'.Over k exc := by
  have hg := (h.registry hr).grows hr.inv
  cases h
  case messageLookup g d c h hget =>
    refine ho.keep hg rfl rfl ?_
    intro d' hp
    obtain rfl : c = k := by cases hp; rfl
    exact absurd ⟨g, hget⟩ ho.gone.2
  case messagePut c d h hroom =>
    have hne : k ≠ c := by
      rintro rfl
      simpa [putting_iff.mpr ⟨d, h, hroom⟩] using ho.idle
    apply ho.keep hg
    · simp [Peer.mailbox, hne]
    · simp [Peer.mailbox, hne]
    · simp
  case recvItem c d m hpub hget =>
    have hne : k ≠ c := by
      rintro rfl
      rw [ho.get] at hget
      cases hget
    apply ho.keep hg
    · simp [Peer.mailbox, hne]
    · simp [Peer.mailbox, hne]
    · exact fun _ => id
  case incomingCreate a g h | succeededCreate i a g h =>
    have hne : k ≠ s.peer.created := Nat.ne_of_lt ho.gone.1.1
    apply ho.keep hg
    · simp [Peer.mailbox, hne]
    · simp [Peer.mailbox, hne]
    · simp
  case route p h =>
    refine ho.keep hg rfl rfl ?_
    intro d hp
    exact absurd hp (PumpPc.enter_ne_messagePut _ _ _)
  case overflowMark c h | overflowMailbox c h | disconnectedMark c b h |
    disconnectedMailbox c b h =>
    apply ho.keep hg
    · by_cases hc : k = c <;> simp [Peer.mailbox, hc]
    · by_cases hc : k = c <;> simp [Peer.mailbox, hc]
    · simp
  case sweepConnection exc' snap c cs h hcons =>
    apply ho.keep hg
    · by_cases hc : k = c <;> simp [Peer.mailbox, hc]
    · by_cases hc : k = c <;> simp [Peer.mailbox, hc]
    · exact fun _ => id
  case closeMailbox exc' c snap h =>
    apply ho.keep hg
    · by_cases hc : k = c <;> simp [Peer.mailbox, hc]
    · by_cases hc : k = c <;> simp [Peer.mailbox, hc]
    · exact fun _ => id
  all_goals
    apply ho.keep hg rfl rfl
    simp

theorem CallEffect.over {i : CallId} {t : Call} (h : CallEffect text i s t s') (hr : RegistryInv s)
    (ht : t.Asserts s.registry) (ho : s.Over k exc) : s'.Over k exc := by
  have hg := (h.registry ht).grows hr.inv
  cases h with
  | own args c h | mark c h | closeMailbox c h =>
    apply ho.keep hg
    · by_cases hc : k = c <;> simp [Peer.mailbox, hc]
    · by_cases hc : k = c <;> simp [Peer.mailbox, hc]
    · exact fun _ => id
  | _ => exact ho.keep hg rfl rfl fun _ => id

/-! ## Runs -/

theorem reach_over {ok ok' : Sync → SyncAction → Prop} {c c' : Sync} {q : Option Nat} {t₀ : Int}
    (h : Reach (sync text) ok (Sync.init q t₀) c) (h' : Reach (sync text) ok' c c')
    (ho : c.shared.Over k exc) : c'.shared.Over k exc := by
  induction h' with
  | start => exact ho
  | step hr _ hs ih =>
    obtain ⟨hreg, hcalls⟩ := reach_registryInv (h.any.trans hr.any)
    rcases System.step_cases hs with ⟨e, s, rfl, he, rfl⟩ | ⟨i, x, s, t, rfl, hx, rfl⟩
    · exact (act_effect he).over hreg ih
    · exact (callStep_effect hx).over hreg (hcalls i) ih

/-- What raises a reason is over, unless the pump is about to put into it. -/
theorem over_of_raised {c : Sync} {q : Option Nat} {t₀ : Int} {ok : Sync → SyncAction → Prop}
    (h : Reach (sync text) ok (Sync.init q t₀) c) (hpub : c.shared.published k = true)
    (hraise : (c.shared.peer.mailbox k).get = .raised exc) (hidle : c.shared.putting k = false) :
    c.shared.Over k exc := by
  obtain ⟨hitems, hexc⟩ := Mailbox.get_eq_raised hraise
  have hinv := (reach_registryInv h).1.inv
  have hp : c.shared.registry.Published k := Registry.published_of_state.mp hpub
  refine ⟨hitems, hexc, ⟨hp, ?_⟩, hidle⟩
  rintro ⟨g, hg⟩
  have hnone : (c.shared.peer.mailbox k).exc = none :=
    hinv.open_reason k hp.1 (hinv.listed_open g k hg)
  rw [hexc] at hnone
  cases hnone

theorem recv_raised {c c' : Sync} (hraise : (c.shared.peer.mailbox k).get = .raised exc)
    (hstep : (sync text).step c (.shared (.recv k)) = some c') :
    c.shared.published k = true ∧ c' = { c with shared := c.shared.emit (.raised k exc) } := by
  obtain ⟨s, hs, rfl⟩ := Option.map_eq_some_iff.mp hstep
  have hs : State.recv c.shared k = some s := hs
  unfold State.recv at hs
  split_ifs at hs with hpub
  rw [hraise] at hs
  cases hs
  exact ⟨hpub, rfl⟩

theorem ActEffect.raised {e : State.Act} (h : ActEffect text s e s')
    (hmem : .raised k exc ∈ s'.log) : .raised k exc ∈ s.log ∨
      e = .recv k ∧ s.published k = true ∧ (s.peer.mailbox k).get = .raised exc := by
  cases h
  case recvRaises c exc' hpub hget =>
    simp only [State.emit_log, List.mem_append, List.mem_singleton, Event.raised.injEq] at hmem
    rcases hmem with hmem | ⟨rfl, rfl⟩
    · exact Or.inl hmem
    · exact Or.inr ⟨rfl, hpub, hget⟩
  all_goals exact Or.inl (by simpa using hmem)

theorem CallEffect.raised {i : CallId} {t : Call} (h : CallEffect text i s t s')
    (hmem : .raised k exc ∈ s'.log) : .raised k exc ∈ s.log := by
  cases h <;> simpa using hmem

/-- In a run in which no put is in flight when a `recv` raises, every raised reason is final. -/
theorem reach_raised {c : Sync} {q : Option Nat} {t₀ : Int}
    (h : Reach (sync text) Attentive (Sync.init q t₀) c) :
    ∀ k exc, .raised k exc ∈ c.shared.log → c.shared.Over k exc := by
  induction h with
  | start =>
    intro k exc hmem
    cases hmem
  | @step c c' a hr hok hs ih =>
    intro k exc hmem
    suffices ho : c.shared.Over k exc from reach_over hr (.of_step hs) ho
    rcases System.step_cases hs with ⟨e, s, rfl, he, rfl⟩ | ⟨i, x, s, t, rfl, hx, rfl⟩
    · rcases (act_effect he).raised hmem with hold | ⟨rfl, hpub, hget⟩
      · exact ih k exc hold
      · exact over_of_raised hr hpub hget (hok (Mailbox.get_eq_raised hget).1)
    · exact ih k exc ((callStep_effect hx).raised hmem)

/-- **The end of a stream.** A `recv` on `k` raises `exc`: then every later `recv` on `k` raises
`exc` too, exactly if the pump was not about to put a payload into the mailbox of `k`. And in every
run in which that is so whenever a `recv` raises, every reason that was raised is final. -/
theorem stream_final {q : Option Nat} {t₀ : Int} :
    (∀ c c' k exc, Reach (sync text) anyStep (Sync.init q t₀) c →
      (c.shared.peer.mailbox k).get = .raised exc →
      (sync text).step c (.shared (.recv k)) = some c' →
      ((∀ c'', Reach (sync text) anyStep c' c'' → (c''.shared.peer.mailbox k).get = .raised exc) ↔
        c.shared.putting k = false)) ∧
    (∀ c k exc, Reach (sync text) Attentive (Sync.init q t₀) c →
      .raised k exc ∈ c.shared.log → (c.shared.peer.mailbox k).get = .raised exc) := by
  refine ⟨?_, fun c k exc h hmem => (reach_raised h k exc hmem).get⟩
  intro c c' k exc h hraise hstep
  obtain ⟨hpub, rfl⟩ := recv_raised hraise hstep
  constructor
  · -- the pump puts next, and the payload is there for the next reader
    intro hfinal
    rw [← Bool.not_eq_true, putting_iff]
    rintro ⟨d, hp, hroom⟩
    have hput :
        (sync text).step { c with shared := c.shared.emit (.raised k exc) } (.shared .pump) =
        some { c with shared := (((c.shared.emit (.raised k exc)).set
          (c.shared.peer.setMailbox k ((c.shared.peer.mailbox k).append d))).emit
            (.put k d)).goto .loop } := by
      simp [sync, System.step, State.act, State.pumpStep, hp, Mailbox.put, hroom]
    have hget := hfinal _ (.of_step hput)
    have hitems : (c.shared.peer.connection k).mailbox.items = [] :=
      (Mailbox.get_eq_raised hraise).1
    simp [Peer.mailbox, hitems, Mailbox.get] at hget
  · intro hidle c'' hreach
    have ho := over_of_raised h hpub hraise hidle
    exact (reach_over (h.any.trans (.single trivial hstep)) hreach
      (reach_over h (.of_step hstep) ho)).get

/-- The user closes a Connection while nothing is on its way, and reads: the reason is final. -/
theorem stream_final_closed :
    ∃ c, Reach (sync SystemAddress.text) anyStep (Sync.init none 0) c ∧
      .raised 0 (.ok "connection closed") ∈ c.shared.log ∧
      (∀ c', Reach (sync SystemAddress.text) anyStep c c' →
        (c'.shared.peer.mailbox 0).get = .raised (.ok "connection closed")) ∧
      (c.shared.peer.mailbox 0).get = .raised (.ok "connection closed") := by
  have h : Reach (sync SystemAddress.text) Attentive (Sync.init none 0) _ :=
    .of_exec (show (sync SystemAddress.text).exec Attentive
      (routes ⟨⟨"10.0.0.1", 1⟩, 7, [19]⟩ 4 ++ .thread 0 (.inl (.close 0 true)) :: steps 0 7)
      (Sync.init none 0) = some _ from rfl)
  have h' := h.trans (.single (fun _ => rfl) (a := .shared (.recv 0)) rfl)
  have hmem : Event.raised 0 (.ok "connection closed") ∈
      [.routed ⟨⟨"10.0.0.1", 1⟩, 7, [19]⟩, .registered 0, .rawClose 7 true,
        .raised 0 (.ok "connection closed")] := by simp
  exact ⟨_, h'.any, hmem,
    (stream_final.1 _ _ 0 _ h.any rfl rfl).mpr rfl, stream_final.2 _ 0 _ h' hmem⟩

/-- The user closes a Connection and reads to the end while the pump holds a payload for it: the
next `recv` returns the payload. -/
theorem stream_reopened :
    ∃ c, Reach (sync SystemAddress.text) anyStep (Sync.init none 0) c ∧
      ∃ l l', c.shared.log = l ++ .raised 0 (.ok "connection closed") :: l' ∧
        .returned 0 [0x86, 1] ∈ l' := by
  have h : Reach (sync SystemAddress.text) anyStep (Sync.init none 0) _ :=
    .of_exec (show (sync SystemAddress.text).exec anyStep
      (routes ⟨⟨"10.0.0.1", 1⟩, 7, [19]⟩ 4 ++ routes ⟨⟨"10.0.0.1", 1⟩, 7, [0x86, 1]⟩ 2 ++
        .thread 0 (.inl (.close 0 true)) :: steps 0 7 ++
        [.shared (.recv 0), .shared .pump, .shared (.recv 0)])
      (Sync.init none 0) = some _ from rfl)
  exact ⟨_, h, [.routed ⟨⟨"10.0.0.1", 1⟩, 7, [19]⟩, .registered 0,
    .routed ⟨⟨"10.0.0.1", 1⟩, 7, [0x86, 1]⟩, .rawClose 7 true],
    [.put 0 [0x86, 1], .returned 0 [0x86, 1]], rfl, by simp⟩

end Raknet
