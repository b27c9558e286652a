import Raknet.Lib.Trace
import Raknet.Sync.Delivery
import Raknet.Sync.Stream

/-!
# The overflow path

A put that finds `max_queue` unread payloads is rejected. The pump then takes the Connection out of
the registry, flags it, calls `raw.close_connection` and closes the mailbox, each a step of its own,
while readers go on.

**Theorem (`overflow_exact`).** As long as nothing but this path unregisters, replaces or closes the
Connection and the Peer stays open: the mailbox never holds more than `max_queue` payloads, the
path is taken at most once, by the first packet that finds it full, and what was accepted before
is all that readers get before the error.
-/

namespace Raknet

open Interleaving

/-- The Connection whose overflow the pump handles. -/
def PumpPc.overflowing : PumpPc → Option ConnId
  | overflowPop c | overflowMark c | overflowCheck c | overflowRaw c | overflowMailbox c => some c
  | _ => none

/-- The step leaves the Peer open. It is one of the overflow path of `k`, or it keeps `k` in the
registry, and its flag and its reason as they are. -/
def Undisturbed (text : SystemAddress → String) (k : ConnId) (c : Sync) (a : SyncAction) : Prop :=
  ∀ c', (sync text).step c a = some c' → c'.shared.peer.closed = false ∧
    (a = .shared .pump ∧ c.shared.pump.overflowing = some k ∨
      (c.shared.registry.Listed k → c'.shared.registry.Listed k) ∧
      (c'.shared.peer.connection k).closed = (c.shared.peer.connection k).closed ∧
      (c'.shared.peer.connection k).mailbox.exc = (c.shared.peer.connection k).mailbox.exc)

/-- No payload for `k` was rejected. -/
def Unrejected (k : ConnId) (log : List Event) : Prop := ∀ d, .rejected k d ∉ log

/-- `ConnectionClosedError("receive queue overflow")`. -/
def overflowError : ConnectionClosed := .error "receive queue overflow"

/-- What the overflow path of `k` records in a step. -/
def overflowed (text : SystemAddress → String) (k : ConnId) : Sync × SyncAction → List Event
  | (c, .shared .pump) =>
    if c.shared.pump.overflowing = some k then
      (c.shared.pumpStep text).elim [] fun s => s.log.drop c.shared.log.length
    else []
  | _ => []

variable {text : SystemAddress → String} {s s' : State} {k : ConnId} {n : Nat}

/-! ## Sizes -/

/-- Every mailbox has the limit `n` and keeps to it. -/
structure Sized (n : Nat) (s : State) : Prop where
  maxQueue : s.peer.maxQueue = some n
  maxsize : ∀ j, j < s.peer.created → (s.peer.connection j).mailbox.maxsize = some n
  size : ∀ j, j < s.peer.created → (s.peer.connection j).mailbox.items.length ≤ n

theorem Mailbox.full_iff {m : Mailbox} (h : m.maxsize = some n) :
    m.full = true ↔ n ≤ m.items.length := by
  simp [Mailbox.full, h]

theorem Sized.keep (hi : Sized n s) (hmax : s'.peer.maxQueue = s.peer.maxQueue)
    (hcreated : s'.peer.created = s.peer.created)
    (hbox : ∀ j, (s'.peer.connection j).mailbox.maxsize = (s.peer.connection j).mailbox.maxsize ∧
      (s'.peer.connection j).mailbox.items = (s.peer.connection j).mailbox.items) :
    Sized n s' where
  maxQueue := hmax.trans hi.maxQueue
  maxsize j hj := (hbox j).1.trans (hi.maxsize j (hcreated ▸ hj))
  size j hj := by
    rw [(hbox j).2]
    exact hi.size j (hcreated ▸ hj)

theorem ActEffect.sized {e : State.Act} (h : ActEffect text s e s') (hr : RegistryInv s)
    (hi : Sized n s) : Sized n s' := by
  have hpump := hr.pump
  cases h
  case incomingCreate a g h | succeededCreate i a g h =>
    refine ⟨hi.maxQueue, fun j hj => ?_, fun j hj => ?_⟩
    all_goals
      by_cases hnew : j = s.peer.created
      · simp [hnew, Connection.new, hi.maxQueue]
      · have hold : j < s.peer.created := by
          have hj : j < s.peer.created + 1 := hj
          omega
        simp [hnew, hi.maxsize j hold, hi.size j hold]
  case messagePut c d h hroom =>
    rw [h] at hpump
    have hmax := hi.maxsize c hpump.1
    have hlt : (s.peer.connection c).mailbox.items.length < n := by
      rw [← Nat.not_le, ← Mailbox.full_iff hmax]
      exact Bool.eq_false_iff.mp hroom
    refine ⟨hi.maxQueue, fun j hj => ?_, fun j hj => ?_⟩
    · by_cases hjc : j = c
      · simpa [hjc, Peer.mailbox] using hmax
      · simpa [hjc] using hi.maxsize j hj
    · by_cases hjc : j = c
      · simp only [State.goto_peer, State.emit_peer, State.set_peer, hjc, Peer.mailbox,
          Peer.setMailbox_connection, Function.update_self, Connection.setMailbox_mailbox,
          Mailbox.append_items, List.length_append, List.length_singleton]
        omega
      · simpa [hjc] using hi.size j hj
  case recvItem c d m hpub hget =>
    obtain ⟨hitems, -, hmax⟩ := Mailbox.get_eq_item hget
    refine ⟨hi.maxQueue, fun j hj => ?_, fun j hj => ?_⟩
    · by_cases hjc : j = c
      · simpa [hjc, hmax, Peer.mailbox] using hi.maxsize c (hjc ▸ hj)
      · simpa [hjc] using hi.maxsize j hj
    · by_cases hjc : j = c
      · have hsize := hi.size c (hjc ▸ hj)
        rw [Peer.mailbox] at hitems
        simp only [hitems, List.length_cons] at hsize
        simp only [State.emit_peer, State.set_peer, hjc, Peer.setMailbox_connection,
          Function.update_self, Connection.setMailbox_mailbox]
        omega
      · simpa [hjc] using hi.size j hj
  case overflowMark c h | overflowMailbox c h | disconnectedMark c b h | disconnectedMailbox c b h |
      sweepConnection exc snap c cs h hcons | closeMailbox exc c snap h =>
    refine hi.keep rfl rfl ?_
    intro j
    by_cases hjc : j = c <;> simp [hjc, Peer.mailbox]
  all_goals exact hi.keep rfl rfl fun _ => ⟨rfl, rfl⟩

theorem CallEffect.sized {i : CallId} {t : Call} (h : CallEffect text i s t s')
    (hi : Sized n s) : Sized n s' := by
  cases h with
  | own args c h | mark c h | closeMailbox c h =>
    refine hi.keep rfl rfl ?_
    intro j
    by_cases hjc : j = c <;> simp [hjc, Peer.mailbox]
  | _ => exact hi.keep rfl rfl fun _ => ⟨rfl, rfl⟩

/-! ## What happens to the packets of `k` -/

/-- The payloads for `k` in a step: none, one that is put, or one that is rejected. -/
inductive Bears (s : State) (k : ConnId) (s' : State) : Prop
  | none (l : List Event) (hlog : s'.log = s.log ++ l)
      (hl : ∀ e ∈ l, ∀ d, e ≠ .put k d ∧ e ≠ .rejected k d)
      (hover : s'.pump.overflowing = some k → s.pump.overflowing = some k)
  | put (d : Bytes) (h : s.pump = .messagePut k d) (hroom : (s.peer.mailbox k).full = false)
      (hlog : s'.log = s.log ++ [.put k d]) (hpump : s'.pump = .loop)
  | reject (d : Bytes) (h : s.pump = .messagePut k d) (hfull : (s.peer.mailbox k).full = true)
      (heq : s' = (s.emit (.rejected k d)).goto (.overflowPop k))

@[simp] theorem PumpPc.overflowing_loop : PumpPc.loop.overflowing = none := rfl

theorem PumpPc.overflowing_enter (cb : Option Callback) :
    (PumpPc.enter cb).overflowing = none := by
  rcases cb with _ | ⟨_ | _⟩ <;> rfl

theorem ActEffect.bears {e : State.Act} (h : ActEffect text s e s') (k : ConnId) :
    Bears s k s' := by
  cases h
  case messagePut c d h hroom =>
    by_cases hck : c = k
    · subst hck
      exact .put d h hroom rfl rfl
    · refine .none [.put c d] rfl ?_ (fun h => by cases h)
      simp [hck]
  case messageReject c d h hfull =>
    by_cases hck : c = k
    · subst hck
      exact .reject d h hfull rfl
    · refine .none [.rejected c d] rfl ?_ fun h => ?_
      · simp [hck]
      · exact absurd (Option.some.inj h) hck
  case route p h =>
    refine .none [.routed p] rfl (by simp) fun h => ?_
    simp [PumpPc.overflowing_enter] at h
  case overflowRaw c h =>
    refine .none _ rfl (by simp) fun hover => ?_
    simpa [h, PumpPc.overflowing] using hover
  case overflowPop c h | overflowMark c h | overflowSkip c h _ | overflowCheck c h _ =>
    refine .none [] (List.append_nil _).symm (by simp) fun hover => ?_
    simpa [h, PumpPc.overflowing] using hover
  all_goals first
    | exact .none [] (List.append_nil _).symm (by simp) fun h => by first | exact h | cases h
    | exact .none _ rfl (by simp) fun h => by first | exact h | cases h

theorem CallEffect.bears {i : CallId} {t : Call} (h : CallEffect text i s t s') (k : ConnId) :
    Bears s k s' := by
  cases h with
  | registerConnect | registerPing | cancel | rawClose | beginClose =>
    exact .none _ rfl (by simp) fun h => h
  | _ => exact .none [] (List.append_nil _).symm (by simp) fun h => h

/-! ## The invariant -/

structure OverflowInv (n : Nat) (k : ConnId) (s : State) : Prop where
  isOpen : s.peer.closed = false
  sized : Sized n s
  put : ∀ l d, l ++ [.put k d] <+: s.log → (puts k l).length < (returns k l).length + n
  reject : ∀ l d, l ++ [.rejected k d] <+: s.log →
    (puts k l).length = (returns k l).length + n ∧
      arrivals k (s.peer.connection k).rawGuid l = puts k l ++ [d] ∧ Unrejected k l ∧
      puts k s.log = puts k l
  before : Unrejected k s.log → s.pump.overflowing ≠ some k ∧ (s.peer.mailbox k).exc = none ∧
    (.registered k ∈ s.log → s.registry.Listed k)
  after : ¬ Unrejected k s.log → (∀ d, s.pump ≠ .messagePut k d) ∧
    (s.pump = .overflowPop k ∨ s.registry.Gone k) ∧
    (s.peer.mailbox k).exc = if s.pump.overflowing = some k then none else some overflowError

theorem overflowInv_init (t₀ : Int) : OverflowInv n k (State.init (some n) t₀) where
  isOpen := rfl
  sized :=
    ⟨rfl, fun j hj => absurd hj (Nat.not_lt_zero j), fun j hj => absurd hj (Nat.not_lt_zero j)⟩
  put l d h := by simp [State.init] at h
  reject l d h := by simp [State.init] at h
  before _ := ⟨by simp [State.init, PumpPc.overflowing], rfl, by simp [State.init]⟩
  after h := by simp [State.init, Unrejected] at h

/-- What the appended events do not contain was there before. -/
theorem prefix_of_not_mem {l₀ log l : List Event} {e : Event} (he : e ∉ l)
    (h : l₀ ++ [e] <+: log ++ l) : l₀ ++ [e] <+: log := by
  rcases List.prefix_or_prefix_of_prefix h (List.prefix_append log l) with h' | h'
  · exact h'
  · rcases List.prefix_concat_iff.mp h' with rfl | ⟨m, rfl⟩
    · exact List.prefix_rfl
    · rw [List.append_assoc, List.prefix_append_right_inj] at h
      exact absurd (h.subset (by simp)) he

theorem unrejected_append {log l : List Event} (hl : ∀ d, Event.rejected k d ∉ l) :
    Unrejected k (log ++ l) ↔ Unrejected k log := by
  simp [Unrejected, hl]

theorem puts_append_of_not_mem {log l : List Event} (hl : ∀ d, Event.put k d ∉ l) :
    puts k (log ++ l) = puts k log := by
  have hnil : l.flatMap (Event.putInto k) = [] := by
    rw [List.flatMap_eq_nil_iff]
    intro e he
    cases e
    case put c d =>
      refine if_neg ?_
      rintro rfl
      exact hl d he
    all_goals rfl
  rw [puts, List.flatMap_append, hnil, List.append_nil]
  rfl

/-- A Connection whose payload was rejected was registered. -/
theorem OverflowInv.registered {l : List Event} {d : Bytes} (hi : OverflowInv n k s)
    (hd : DeliveryInv s) (h : l ++ [.rejected k d] <+: s.log) : s.registry.Published k := by
  by_contra hpub
  have hmem : Event.registered k ∉ l := fun hm =>
    (hd.unregistered k hpub).1 (h.subset (List.mem_append_left _ hm))
  have harr := (hi.reject l d h).2.1
  rw [arrivals_of_not_mem hmem] at harr
  simp at harr

theorem OverflowInv.quiet {l : List Event} (hi : OverflowInv n k s) (hd : DeliveryInv s)
    (hg : s.registry.Grows s'.registry) (hlog : s'.log = s.log ++ l)
    (hl : ∀ e ∈ l, ∀ d, e ≠ .put k d ∧ e ≠ .rejected k d)
    (hopen : s'.peer.closed = false) (hsized : Sized n s')
    (hbefore : Unrejected k s.log → s'.pump.overflowing ≠ some k ∧
      (s'.peer.mailbox k).exc = none ∧ (.registered k ∈ s'.log → s'.registry.Listed k))
    (hafter : ¬ Unrejected k s.log → (∀ d, s'.pump ≠ .messagePut k d) ∧
      (s'.pump = .overflowPop k ∨ s'.registry.Gone k) ∧
      (s'.peer.mailbox k).exc = if s'.pump.overflowing = some k then none else some overflowError) :
    OverflowInv n k s' := by
  have hput : ∀ d, Event.put k d ∉ l := fun d hm => (hl _ hm d).1 rfl
  have hrej : ∀ d, Event.rejected k d ∉ l := fun d hm => (hl _ hm d).2 rfl
  have hiff : Unrejected k s'.log ↔ Unrejected k s.log := by
    rw [hlog]
    exact unrejected_append hrej
  refine ⟨hopen, hsized, fun l₀ d h => ?_, fun l₀ d h => ?_, fun h => hbefore (hiff.mp h),
    fun h => hafter (mt hiff.mpr h)⟩
  · rw [hlog] at h
    exact hi.put l₀ d (prefix_of_not_mem (hput d) h)
  · rw [hlog] at h
    have h := prefix_of_not_mem (hrej d) h
    have hpub := hi.registered hd h
    have hguid : (s'.peer.connection k).rawGuid = (s.peer.connection k).rawGuid := hg.guid k hpub.1
    rw [hguid, hlog, puts_append_of_not_mem hput]
    exact hi.reject l₀ d h

/-! ## Steps -/

/-- While the overflow path runs, only the pump's own steps move the pump. -/
theorem ActEffect.pump_of_overflowing {e : State.Act} (h : ActEffect text s e s') (he : e ≠ .pump)
    (hp : s.pump.overflowing = some k) : s'.pump = s.pump := by
  cases h
  case receivedNothing h | receivedPacket p h | receiveRaises m h | routeRaises m p h =>
    rw [h] at hp
    cases hp
  all_goals first
    | rfl
    | exact absurd rfl he

/-- The pump puts into a Connection that it found registered. -/
theorem ActEffect.listed_of_messagePut {e : State.Act} {d : Bytes} (h : ActEffect text s e s')
    (hp : s'.pump = .messagePut k d) : s.pump = .messagePut k d ∨ s.registry.Listed k := by
  cases h
  case messageLookup g d' c h hget =>
    cases hp
    exact Or.inr ⟨g, hget⟩
  case route p h => exact absurd hp (PumpPc.enter_ne_messagePut _ _ _)
  all_goals first
    | exact Or.inl hp
    | cases hp

theorem ActEffect.listed_of_registered {e : State.Act} (h : ActEffect text s e s')
    (hmem : .registered k ∈ s'.log) : .registered k ∈ s.log ∨ s'.registry.Listed k := by
  cases h
  case incomingRegister g c h | succeededRegister i g c h =>
    simp only [State.goto_log, State.emit_log, State.set_log, List.mem_append, List.mem_singleton,
      Event.registered.injEq] at hmem
    rcases hmem with hmem | rfl
    · exact Or.inl hmem
    · exact Or.inr ⟨g, by simp⟩
  all_goals exact Or.inl (by simpa using hmem)

theorem CallEffect.registered {i : CallId} {t : Call} (h : CallEffect text i s t s')
    (hmem : .registered k ∈ s'.log) : .registered k ∈ s.log := by
  cases h <;> simpa using hmem

theorem OverflowInv.step (hi : OverflowInv n k s) (hr : RegistryInv s) (hd : DeliveryInv s)
    (hb : Bears s k s') (hg : s.registry.Grows s'.registry) (hsized : Sized n s')
    (hopen : s'.peer.closed = false)
    (hlisted : s.registry.Listed k → s'.registry.Listed k)
    (hexc : (s'.peer.mailbox k).exc = (s.peer.mailbox k).exc)
    (hpump : s.pump.overflowing = some k → s'.pump = s.pump)
    (hput : ∀ d, s'.pump = .messagePut k d → s.pump = .messagePut k d ∨ s.registry.Listed k)
    (hregistered : .registered k ∈ s'.log → .registered k ∈ s.log ∨ s'.registry.Listed k) :
    OverflowInv n k s' := by
  have hkeep : Unrejected k s.log → .registered k ∈ s'.log → s'.registry.Listed k := by
    intro hun hmem
    rcases hregistered hmem with hmem | hl
    · exact hlisted ((hi.before hun).2.2 hmem)
    · exact hl
  have hun : ∀ d, s.pump = .messagePut k d → Unrejected k s.log := by
    intro d hp
    by_contra hnot
    exact (hi.after hnot).1 d hp
  cases hb with
  | none l hlog hl hover =>
    refine hi.quiet hd hg hlog hl hopen hsized (fun hun => ?_) (fun hnot => ?_)
    · obtain ⟨hidle, hnone, -⟩ := hi.before hun
      exact ⟨mt hover hidle, hexc.trans hnone, hkeep hun⟩
    · obtain ⟨hno, hgone, hreason⟩ := hi.after hnot
      refine ⟨fun d hp => ?_, ?_, ?_⟩
      · rcases hput d hp with hp | hl
        · exact hno d hp
        · rcases hgone with hpop | hgone
          · rw [hpump (by rw [hpop]; rfl), hpop] at hp
            cases hp
          · exact hgone.2 hl
      · rcases hgone with hpop | hgone
        · exact Or.inl (by rw [hpump (by rw [hpop]; rfl), hpop])
        · exact Or.inr (hg.gone k hgone)
      · rw [hexc, hreason]
        by_cases hk : s.pump.overflowing = some k
        · rw [hpump hk]
        · rw [if_neg hk, if_neg (mt hover hk)]
  | put d h hroom hlog hpump' =>
    have hrej : ∀ d', Event.rejected k d' ∉ [Event.put k d] := by simp
    have hun' : Unrejected k s'.log := by
      rw [hlog]
      exact (unrejected_append hrej).mpr (hun d h)
    refine ⟨hopen, hsized, fun l₀ d' hp => ?_, fun l₀ d' hp => ?_, fun _ => ?_, fun hnot => ?_⟩
    · rw [hlog] at hp
      rcases List.prefix_concat_iff.mp hp with heq | hp
      · obtain rfl := (List.append_inj' heq rfl).1
        have hpub : s.registry.Published k := target_published hr (by rw [h]; rfl)
        have hlt : (s.peer.connection k).mailbox.items.length < n := by
          rw [← Nat.not_le, ← Mailbox.full_iff (hi.sized.maxsize k hpub.1)]
          exact Bool.eq_false_iff.mp hroom
        rw [← hd.queue k, List.length_append]
        exact Nat.add_lt_add_left hlt _
      · exact hi.put l₀ d' hp
    · exact absurd (hp.subset (by simp)) (hun' d')
    · refine ⟨?_, hexc.trans (hi.before (hun d h)).2.1, hkeep (hun d h)⟩
      rw [hpump']
      simp [PumpPc.overflowing]
    · exact absurd hun' hnot
  | reject d h hfull heq =>
    have hun := hun d h
    have hpub : s.registry.Published k := target_published hr (by rw [h]; rfl)
    have hlog : s'.log = s.log ++ [.rejected k d] := by rw [heq]; rfl
    have hrejected : ¬ Unrejected k s'.log := by
      intro hnot
      exact hnot d (by simp [hlog])
    have hputs : puts k s'.log = puts k s.log := by
      rw [hlog]
      exact puts_append_of_not_mem (by simp)
    have hguid : (s'.peer.connection k).rawGuid = (s.peer.connection k).rawGuid := hg.guid k hpub.1
    refine ⟨hopen, hsized, fun l₀ d' hp => ?_, fun l₀ d' hp => ?_, fun hnot => ?_, fun _ => ?_⟩
    · rw [hlog] at hp
      exact hi.put l₀ d' (prefix_of_not_mem (by simp) hp)
    · rw [hlog] at hp
      rcases List.prefix_concat_iff.mp hp with heq' | hp
      · obtain ⟨rfl, hdd⟩ := List.append_inj' heq' rfl
        obtain rfl : d' = d := by simpa using hdd
        obtain ⟨g, hget⟩ := (hi.before hun).2.2 (hd.registered k hpub)
        have hlist := hd.listed g k hget (by simp [h])
        have hgk : (s.peer.connection k).rawGuid = g := hr.inv.listed_guid g k hget
        refine ⟨?_, ?_, hun, hputs⟩
        · have hle := (Mailbox.full_iff (hi.sized.maxsize k hpub.1)).mp hfull
          have hge := hi.sized.size k hpub.1
          have hle : n ≤ (s.peer.connection k).mailbox.items.length := hle
          rw [← hd.queue k, List.length_append]
          omega
        · rw [hguid, hgk, hlist, h]
          simp [PumpPc.bringing]
      · exact absurd (hp.subset (by simp)) (hun d')
    · exact absurd hnot hrejected
    · rw [heq]
      refine ⟨by simp, Or.inl rfl, ?_⟩
      rw [State.goto_pump, PumpPc.overflowing, if_pos rfl]
      exact (hi.before hun).2.1

theorem OverflowInv.path (hi : OverflowInv n k s) (hr : RegistryInv s) (hd : DeliveryInv s)
    (h : ActEffect text s .pump s') (hp : s.pump.overflowing = some k) : OverflowInv n k s' := by
  have hg := (h.registry hr).grows hr.inv
  have hsized := h.sized hr hi.sized
  have hasserts := h.asserts hr
  have hnot : ¬ Unrejected k s.log := fun hun => (hi.before hun).1 hp
  have hreason : (s.peer.mailbox k).exc = none := by
    rw [(hi.after hnot).2.2, if_pos hp]
  have hgone : s.pump ≠ .overflowPop k → s.registry.Gone k := (hi.after hnot).2.1.resolve_left
  cases h
  case overflowPop c h =>
    obtain rfl : c = k := by simpa [h, PumpPc.overflowing] using hp
    refine hi.quiet hd hg (List.append_nil _).symm (by simp) hi.isOpen hsized
      (fun hun => absurd hun hnot) fun _ => ⟨by simp, Or.inr hasserts, ?_⟩
    rw [State.goto_pump, PumpPc.overflowing, if_pos rfl]
    exact hreason
  case overflowMark c h =>
    obtain rfl : c = k := by simpa [h, PumpPc.overflowing] using hp
    refine hi.quiet hd hg (List.append_nil _).symm (by simp) hi.isOpen hsized
      (fun hun => absurd hun hnot) fun _ => ⟨by simp, Or.inr (hg.gone c (hgone (by simp [h]))), ?_⟩
    rw [State.goto_pump, PumpPc.overflowing, if_pos rfl]
    simpa [Peer.mailbox] using hreason
  case overflowSkip c h hclosed =>
    rw [hi.isOpen] at hclosed
    cases hclosed
  case overflowCheck c h _ =>
    obtain rfl : c = k := by simpa [h, PumpPc.overflowing] using hp
    refine hi.quiet hd hg (List.append_nil _).symm (by simp) hi.isOpen hsized
      (fun hun => absurd hun hnot) fun _ => ⟨by simp, Or.inr (hg.gone c (hgone (by simp [h]))), ?_⟩
    rw [State.goto_pump, PumpPc.overflowing, if_pos rfl]
    exact hreason
  case overflowRaw c h =>
    obtain rfl : c = k := by simpa [h, PumpPc.overflowing] using hp
    refine hi.quiet hd hg rfl (by simp) hi.isOpen hsized
      (fun hun => absurd hun hnot) fun _ => ⟨by simp, Or.inr (hg.gone c (hgone (by simp [h]))), ?_⟩
    rw [State.goto_pump, PumpPc.overflowing, if_pos rfl]
    exact hreason
  case overflowMailbox c h =>
    obtain rfl : c = k := by simpa [h, PumpPc.overflowing] using hp
    refine hi.quiet hd hg (List.append_nil _).symm (by simp) hi.isOpen hsized
      (fun hun => absurd hun hnot) fun _ => ⟨by simp, Or.inr (hg.gone c (hgone (by simp [h]))), ?_⟩
    rw [State.goto_pump, PumpPc.overflowing_loop, if_neg (by simp)]
    rw [Peer.mailbox] at hreason
    simp [Peer.mailbox, Mailbox.close, hreason, overflowError]
  case drop h =>
    cases hpc : s.pump <;> rw [hpc] at hp h <;> first | exact h.elim | cases hp
  all_goals simp_all [PumpPc.overflowing]

/-! ## Runs -/

theorem overflowInv_step {c c' : Sync} {a : SyncAction} {t₀ : Int}
    (h : Reach (sync text) (Undisturbed text k) (Sync.init (some n) t₀) c)
    (hok : Undisturbed text k c a) (hs : (sync text).step c a = some c')
    (hi : OverflowInv n k c.shared) : OverflowInv n k c'.shared := by
  obtain ⟨hr, ht⟩ := reach_registryInv h
  have hd := reach_deliveryInv h
  have hg := (step_registry h hs).grows hr.inv
  obtain ⟨hopen, hcase⟩ := hok c' hs
  by_cases hpath : a = .shared .pump ∧ c.shared.pump.overflowing = some k
  · obtain ⟨rfl, hp⟩ := hpath
    obtain ⟨s, hpump, rfl⟩ := Option.map_eq_some_iff.mp hs
    exact hi.path hr hd (pumpStep_effect hpump) hp
  · obtain ⟨hlisted, -, hexc⟩ := hcase.resolve_left hpath
    rcases System.step_cases hs with ⟨e, s, rfl, he, rfl⟩ | ⟨i, x, s, t, rfl, hx, rfl⟩
    · have heff := act_effect he
      refine hi.step hr hd (heff.bears k) hg (heff.sized hr hi.sized) hopen hlisted hexc ?_
        (fun d => heff.listed_of_messagePut) heff.listed_of_registered
      intro hp
      refine heff.pump_of_overflowing ?_ hp
      rintro rfl
      exact hpath ⟨rfl, hp⟩
    · have heff := callStep_effect hx
      have hpump : s.pump = c.shared.pump := by cases heff <;> rfl
      refine hi.step hr hd (heff.bears k) hg (heff.sized hi.sized) hopen hlisted hexc
        (fun _ => hpump) (fun d hp => Or.inl ?_) (fun hmem => Or.inl (heff.registered hmem))
      rw [← hpump]
      exact hp

theorem reach_overflowInv {c : Sync} {t₀ : Int}
    (h : Reach (sync text) (Undisturbed text k) (Sync.init (some n) t₀) c) :
    OverflowInv n k c.shared :=
  h.invariant (I := fun c => OverflowInv n k c.shared) (overflowInv_init t₀)
    fun _ _ _ hr hok hs hi => overflowInv_step hr hok hs hi

/-! ## The call of `raw.close_connection` -/

/-- The overflow path of `k` runs and has not yet called `raw.close_connection`. -/
def PumpPc.Uncalled (k : ConnId) (pc : PumpPc) : Prop :=
  pc.overflowing = some k ∧ pc ≠ .overflowMailbox k

instance (k : ConnId) (pc : PumpPc) : Decidable (pc.Uncalled k) :=
  inferInstanceAs (Decidable (_ ∧ _))

structure CalledInv (text : SystemAddress → String) (k : ConnId) (tr : List (Sync × SyncAction))
    (s : State) : Prop where
  before : Unrejected k s.log → tr.flatMap (overflowed text k) = []
  after : ¬ Unrejected k s.log → tr.flatMap (overflowed text k) =
    if s.pump.Uncalled k then [] else [.rawClose (s.peer.connection k).rawGuid true]

theorem overflowed_other (text : SystemAddress → String) {c : Sync} {a : SyncAction}
    (h : ¬ (a = .shared .pump ∧ c.shared.pump.overflowing = some k)) :
    overflowed text k (c, a) = [] := by
  unfold overflowed
  split
  · next c' heq =>
    cases heq
    exact if_neg fun hp => h ⟨rfl, hp⟩
  · rfl

theorem overflowed_path {c : Sync} (h : c.shared.pump.overflowing = some k)
    (hstep : c.shared.pumpStep text = some s') :
    overflowed text k (c, .shared .pump) = s'.log.drop c.shared.log.length := by
  simp [overflowed, h, hstep]

theorem CalledInv.step {tr : List (Sync × SyncAction)} {x : Sync × SyncAction}
    (hc : CalledInv text k tr s) (hi : OverflowInv n k s) (hr : RegistryInv s)
    (hb : Bears s k s') (hg : s.registry.Grows s'.registry)
    (hpump : s.pump.overflowing = some k → s'.pump = s.pump)
    (hx : overflowed text k x = []) : CalledInv text k (tr ++ [x]) s' := by
  have htr : (tr ++ [x]).flatMap (overflowed text k) = tr.flatMap (overflowed text k) := by
    simp [hx]
  cases hb with
  | none l hlog hl hover =>
    have hiff : Unrejected k s'.log ↔ Unrejected k s.log := by
      rw [hlog]
      exact unrejected_append fun d hm => (hl _ hm d).2 rfl
    refine ⟨fun h => ?_, fun h => ?_⟩
    · rw [htr]
      exact hc.before (hiff.mp h)
    · have hnot := mt hiff.mpr h
      have hpub : s.registry.Published k := by
        rcases (hi.after hnot).2.1 with hp | hgone
        · exact target_published hr (by rw [hp]; rfl)
        · exact hgone.1
      have hguid : (s'.peer.connection k).rawGuid = (s.peer.connection k).rawGuid :=
        hg.guid k hpub.1
      have huncalled : s'.pump.Uncalled k ↔ s.pump.Uncalled k := by
        by_cases hk : s.pump.overflowing = some k
        · rw [hpump hk]
        · exact iff_of_false (fun h => hk (hover h.1)) fun h => hk h.1
      rw [htr, hc.after hnot, hguid]
      simp only [huncalled]
  | put d h hroom hlog hpump' =>
    have hun : Unrejected k s.log := by
      by_contra hnot
      exact (hi.after hnot).1 d h
    have hun' : Unrejected k s'.log := by
      rw [hlog]
      exact (unrejected_append (by simp)).mpr hun
    exact ⟨fun _ => htr.trans (hc.before hun), fun hnot => absurd hun' hnot⟩
  | reject d h hfull heq =>
    have hun : Unrejected k s.log := by
      by_contra hnot
      exact (hi.after hnot).1 d h
    refine ⟨fun hun' => ?_, fun _ => ?_⟩
    · exact absurd (show Event.rejected k d ∈ s'.log by simp [heq]) (hun' d)
    · rw [htr, hc.before hun, heq, if_pos]
      exact ⟨rfl, by simp⟩

/-- The overflow path calls `raw.close_connection` in one of its steps. -/
theorem path_called (hopen : s.peer.closed = false) (hp : s.pump.overflowing = some k)
    (h : ActEffect text s .pump s') :
    ∃ l, s'.log = s.log ++ l ∧ (∀ d, Event.rejected k d ∉ l) ∧
      (s'.peer.connection k).rawGuid = (s.peer.connection k).rawGuid ∧
      (if s.pump.Uncalled k then [] else [.rawClose (s.peer.connection k).rawGuid true]) ++ l =
        if s'.pump.Uncalled k then [] else [.rawClose (s.peer.connection k).rawGuid true] := by
  cases h
  case overflowPop c h =>
    obtain rfl : c = k := by simpa [h, PumpPc.overflowing] using hp
    exact ⟨[], by simp, by simp, rfl, by simp [h, PumpPc.Uncalled, PumpPc.overflowing]⟩
  case overflowMark c h =>
    obtain rfl : c = k := by simpa [h, PumpPc.overflowing] using hp
    exact ⟨[], by simp, by simp, by simp, by simp [h, PumpPc.Uncalled, PumpPc.overflowing]⟩
  case overflowSkip c h hclosed =>
    rw [hopen] at hclosed
    cases hclosed
  case overflowCheck c h _ =>
    obtain rfl : c = k := by simpa [h, PumpPc.overflowing] using hp
    exact ⟨[], by simp, by simp, rfl, by simp [h, PumpPc.Uncalled, PumpPc.overflowing]⟩
  case overflowRaw c h =>
    obtain rfl : c = k := by simpa [h, PumpPc.overflowing] using hp
    exact ⟨_, rfl, by simp, rfl, by simp [h, PumpPc.Uncalled, PumpPc.overflowing]⟩
  case overflowMailbox c h =>
    obtain rfl : c = k := by simpa [h, PumpPc.overflowing] using hp
    exact ⟨[], by simp, by simp, by simp, by simp [h, PumpPc.Uncalled]⟩
  case drop h =>
    cases hpc : s.pump <;> rw [hpc] at hp h <;> first | exact h.elim | cases hp
  all_goals simp_all [PumpPc.overflowing]

theorem CalledInv.path {tr : List (Sync × SyncAction)} {c : Sync}
    (hc : CalledInv text k tr c.shared) (hi : OverflowInv n k c.shared)
    (hp : c.shared.pump.overflowing = some k) (hs : c.shared.pumpStep text = some s') :
    CalledInv text k (tr ++ [(c, .shared .pump)]) s' := by
  have hnot : ¬ Unrejected k c.shared.log := fun hun => (hi.before hun).1 hp
  obtain ⟨l, hlog, hl, hguid, hcall⟩ := path_called hi.isOpen hp (pumpStep_effect hs)
  refine ⟨fun hun => ?_, fun _ => ?_⟩
  · rw [hlog] at hun
    exact absurd ((unrejected_append hl).mp hun) hnot
  · have hx : overflowed text k (c, .shared .pump) = l := by
      rw [overflowed_path hp hs, hlog, List.drop_left]
    rw [List.flatMap_append, hc.after hnot, List.flatMap_singleton, hx, hcall, hguid]

theorem trace_calledInv {c : Sync} {t₀ : Int} {tr : List (Sync × SyncAction)}
    (h : Trace (sync text) (Undisturbed text k) (Sync.init (some n) t₀) tr c) :
    CalledInv text k tr c.shared := by
  refine h.invariant (I := fun tr c => CalledInv text k tr c.shared)
    ⟨fun _ => rfl, fun h => by simp [Sync.init, State.init, Unrejected] at h⟩ ?_
  intro tr c a c' htr hok hs hc
  have hi := reach_overflowInv htr.reach
  have hr := (reach_registryInv htr.reach).1
  have hg := (step_registry htr.reach hs).grows hr.inv
  by_cases hpath : a = .shared .pump ∧ c.shared.pump.overflowing = some k
  · obtain ⟨rfl, hp⟩ := hpath
    obtain ⟨s, hpump, rfl⟩ := Option.map_eq_some_iff.mp hs
    exact hc.path hi hp hpump
  · have hx := overflowed_other text hpath
    rcases System.step_cases hs with ⟨e, s, rfl, he, rfl⟩ | ⟨i, x, s, t, rfl, hcall, rfl⟩
    · refine hc.step hi hr ((act_effect he).bears k) hg (fun hp => ?_) hx
      refine (act_effect he).pump_of_overflowing ?_ hp
      rintro rfl
      exact hpath ⟨rfl, hp⟩
    · have heff := callStep_effect hcall
      refine hc.step hi hr (heff.bears k) hg (fun _ => ?_) hx
      show s.pump = c.shared.pump
      cases heff <;> rfl

/-! ## The other Connections -/

/-- A step of the overflow path of `k` leaves the other Connections as they are. -/
theorem path_frame (hd : DeliveryInv s) (hp : s.pump.overflowing = some k)
    (h : ActEffect text s .pump s') {j : ConnId} (hj : j ≠ k) :
    s'.peer.connection j = s.peer.connection j ∧
      ∀ g, s'.peer.connections.get? g = some j ↔ s.peer.connections.get? g = some j := by
  cases h
  case overflowPop c h =>
    obtain rfl : c = k := by simpa [h, PumpPc.overflowing] using hp
    refine ⟨rfl, fun g => ?_⟩
    simp only [State.goto_peer, State.set_peer, Peer.unregister_connections, Dict.get?_erase]
    split_ifs with hg
    · -- what is stored under the guid is the Connection itself
      refine iff_of_false (by simp) fun hget => hj ?_
      exact hd.target c (by rw [h]; rfl) j (hg ▸ hget)
    · exact Iff.rfl
  case overflowMark c h | overflowMailbox c h =>
    obtain rfl : c = k := by simpa [h, PumpPc.overflowing] using hp
    exact ⟨by simp [hj], fun g => Iff.rfl⟩
  case overflowSkip | overflowCheck | overflowRaw => exact ⟨rfl, fun g => Iff.rfl⟩
  case drop h =>
    cases hpc : s.pump <;> rw [hpc] at hp h <;> first | exact h.elim | cases hp
  all_goals simp_all [PumpPc.overflowing]

/-! ## Overflow -/

/-- What overflow of `k` means, after a run with the steps `tr` that led to `c`. -/
structure OverflowExact (text : SystemAddress → String) (n : Nat) (k : ConnId)
    (tr : List (Sync × SyncAction)) (c : Sync) : Prop where
  size : (c.shared.peer.mailbox k).items.length ≤ n
  /-- A put that is accepted finds less than `n` payloads unread. -/
  accepted : ∀ l d, l ++ [.put k d] <+: c.shared.log →
    (puts k l).length < (returns k l).length + n
  /-- The put that is rejected finds `n` payloads unread, and all packets of the guid before it were
  accepted. Nothing was rejected before and nothing is put afterwards. -/
  rejected : ∀ l d, l ++ [.rejected k d] <+: c.shared.log →
    (puts k l).length = (returns k l).length + n ∧
      arrivals k (c.shared.peer.connection k).rawGuid l = puts k l ++ [d] ∧ Unrejected k l ∧
      puts k c.shared.log = puts k l
  once : ∀ l d l' d', l ++ [.rejected k d] <+: c.shared.log →
    l' ++ [.rejected k d'] <+: c.shared.log → l = l'
  /-- Until a put is rejected, every packet of the guid is put. -/
  unrejected : Unrejected k c.shared.log → .registered k ∈ c.shared.log →
    c.shared.registry.Listed k ∧ arrivals k (c.shared.peer.connection k).rawGuid c.shared.log =
      puts k c.shared.log ++ c.shared.pump.bringing (c.shared.peer.connection k).rawGuid k
  /-- Only a rejected put starts the path. -/
  started : c.shared.pump.overflowing = some k → ¬ Unrejected k c.shared.log
  returned : returns k c.shared.log ++ (c.shared.peer.mailbox k).items = puts k c.shared.log
  /-- Once the path is through and the payloads are read, every `recv` raises. -/
  final : ¬ Unrejected k c.shared.log → c.shared.pump.overflowing ≠ some k →
    (c.shared.peer.mailbox k).items = [] →
    ∀ c', Reach (sync text) anyStep c c' → (c'.shared.peer.mailbox k).get = .raised overflowError
  /-- All that the path records is one call of `raw.close_connection`, for the guid. -/
  called : ¬ Unrejected k c.shared.log → c.shared.pump.overflowing ≠ some k →
    tr.flatMap (overflowed text k) = [.rawClose (c.shared.peer.connection k).rawGuid true]
  uncalled : Unrejected k c.shared.log → tr.flatMap (overflowed text k) = []
  /-- The path's next step leaves every other Connection as it is. -/
  frame : c.shared.pump.overflowing = some k →
    ∀ c', (sync text).step c (.shared .pump) = some c' → ∀ j, j ≠ k →
      c'.shared.peer.connection j = c.shared.peer.connection j ∧
      ∀ g, c'.shared.peer.connections.get? g = some j ↔ c.shared.peer.connections.get? g = some j

/-- **Overflow is exact**, in every run of a Peer with `max_queue` `n` that leaves the Peer open and
in which nothing but the overflow path unregisters, replaces or closes the Connection `k`. -/
theorem overflow_exact {t₀ : Int} {tr : List (Sync × SyncAction)} {c : Sync}
    (h : Trace (sync text) (Undisturbed text k) (Sync.init (some n) t₀) tr c) :
    OverflowExact text n k tr c := by
  have hi := reach_overflowInv h.reach
  have hr := (reach_registryInv h.reach).1
  have hd := reach_deliveryInv h.reach
  have hc := trace_calledInv h
  constructor
  case size =>
    by_cases hpub : c.shared.registry.Published k
    · exact hi.sized.size k hpub.1
    · rw [Peer.mailbox, puts_eq_nil hd hpub]
      exact Nat.zero_le n
  case accepted => exact hi.put
  case rejected => exact hi.reject
  case once =>
    intro l d l' d' hl hl'
    have hle : ∀ {l d l' d'}, l' ++ [.rejected k d'] <+: c.shared.log →
        l ++ [.rejected k d] <+: l' ++ [.rejected k d'] → l = l' := by
      intro l d l' d' hl' hpre
      rcases List.prefix_concat_iff.mp hpre with heq | hpre
      · exact (List.append_inj' heq rfl).1
      · exact absurd (hpre.subset (by simp)) ((hi.reject l' d' hl').2.2.1 d)
    rcases List.prefix_or_prefix_of_prefix hl hl' with hpre | hpre
    · exact hle hl' hpre
    · exact (hle hl hpre).symm
  case unrejected =>
    intro hun hmem
    obtain ⟨hidle, -, hlisted⟩ := hi.before hun
    obtain ⟨g, hg⟩ := hlisted hmem
    have hguid : (c.shared.peer.connection k).rawGuid = g := hr.inv.listed_guid g k hg
    rw [hguid]
    refine ⟨⟨g, hg⟩, hd.listed g k hg ?_⟩
    intro hp
    rw [hp] at hidle
    exact hidle rfl
  case started => exact fun hp hun => (hi.before hun).1 hp
  case returned => exact hd.queue k
  case final =>
    intro hnot hp hitems c' hreach
    obtain ⟨hput, hgone, hexc⟩ := hi.after hnot
    have hover : c.shared.Over k overflowError := by
      refine ⟨hitems, ?_, hgone.resolve_left ?_, ?_⟩
      · rw [hexc, if_neg hp]
      · intro hpop
        rw [hpop] at hp
        exact hp rfl
      · rw [← Bool.not_eq_true, putting_iff]
        rintro ⟨d, hpd, -⟩
        exact hput d hpd
    exact (reach_over h.reach hreach hover).get
  case called =>
    intro hnot hp
    rw [hc.after hnot, if_neg fun h => hp h.1]
  case uncalled => exact hc.before
  case frame =>
    intro hp c' hs j hj
    obtain ⟨s, hpump, rfl⟩ := Option.map_eq_some_iff.mp hs
    exact path_frame hd hp (pumpStep_effect hpump) hj

instance (r : Registry) (k : ConnId) : Decidable (r.Listed k) :=
  decidable_of_iff (k ∈ r.connections.values) Dict.mem_values

/-- What holds of the next configuration, if there is one. -/
def decideNext {p : Sync → Prop} [DecidablePred p] :
    (o : Option Sync) → Decidable (∀ c', o = some c' → p c')
  | none => .isTrue (by simp)
  | some c => decidable_of_iff (p c) (by simp)

instance : (a : SyncAction) → Decidable (a = .shared .pump)
  | .shared .pump => .isTrue rfl
  | .shared (.received _) | .shared (.routeRaises _) | .shared .closer | .shared (.recv _)
  | .shared (.tick _) | .thread _ _ => .isFalse (by simp)

instance (k : ConnId) (c : Sync) (a : SyncAction) : Decidable (Undisturbed text k c a) :=
  decideNext ((sync text).step c a)

/-- Two payloads arrive for a Connection with room for one: the second is rejected, and the reader
gets the first one and then the error. -/
theorem overflow_exact_one :
    ∃ tr c, OverflowExact SystemAddress.text 1 0 tr c ∧
      ¬ Unrejected 0 c.shared.log ∧ returns 0 c.shared.log = [[0x86, 1]] ∧
      tr.flatMap (overflowed SystemAddress.text 0) = [.rawClose 7 true] ∧
      (c.shared.peer.mailbox 0).get = .raised overflowError := by
  have h : Reach (sync SystemAddress.text) (Undisturbed SystemAddress.text 0)
      (Sync.init (some 1) 0) _ :=
    .of_exec (show (sync SystemAddress.text).exec (Undisturbed SystemAddress.text 0)
      (routes ⟨⟨"10.0.0.1", 1⟩, 7, [19]⟩ 4 ++ routes ⟨⟨"10.0.0.1", 1⟩, 7, [0x86, 1]⟩ 3 ++
        routes ⟨⟨"10.0.0.1", 1⟩, 7, [0x86, 2]⟩ 8 ++ [.shared (.recv 0)])
      (Sync.init (some 1) 0) = some _ from rfl)
  obtain ⟨tr, htr⟩ := h.exists_trace
  have hnot : ¬ Unrejected 0 [.routed ⟨⟨"10.0.0.1", 1⟩, 7, [19]⟩, .registered 0,
      .routed ⟨⟨"10.0.0.1", 1⟩, 7, [0x86, 1]⟩, .put 0 [0x86, 1],
      .routed ⟨⟨"10.0.0.1", 1⟩, 7, [0x86, 2]⟩, .rejected 0 [0x86, 2], .rawClose 7 true,
      .returned 0 [0x86, 1]] := fun hun => hun [0x86, 2] (by simp)
  have hexact := overflow_exact htr
  have hidle : (PumpPc.loop).overflowing ≠ some 0 := by simp
  exact ⟨tr, _, hexact, hnot, rfl, hexact.called hnot hidle, hexact.final hnot hidle rfl _ .start⟩

end Raknet
