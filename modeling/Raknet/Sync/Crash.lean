import Raknet.Sync.Delivery
import Raknet.Sync.Sweep

/-!
# A crash of the pump

When `receive` raises, or `route` at its entry, the pump goes to `_fail`, which tears the Peer down
if it wins `_begin_close`. The users' calls go on meanwhile.

**Theorem (`crash_teardown`).** If `_fail` wins, the tables are empty from then on; once it is done,
every Connection and every waiter of that moment has been released, and whoever comes later is
refused. If a `close` won, `_fail` changes nothing.
-/

namespace Raknet

open Interleaving

variable {text : SystemAddress → String} {s s' : State} {detail : String} {snap : Snapshot}
  {k : ConnId}

/-- The reason that the closer stores. -/
def Teardown.reason : Teardown → Option ConnectionClosed
  | shutdown exc _ => some (exc.getD (.ok "peer closed"))
  | sweepConnections exc _ | closeMailbox exc _ _ => some exc
  | _ => none

/-- `_fail` has won `_begin_close`. -/
structure Crashing (detail : String) (snap : Snapshot) (log : List Event) (s : State) : Prop where
  closed : s.peer.closed = true
  stopped : s.pump.stopped = true
  joined : s.teardown.joined = true
  unlisted : ∀ g, s.peer.connections.get? g = none
  reason : ∀ e, s.teardown.reason = some e → e = State.crashed detail
  puts : ∀ k, puts k s.log = puts k log
  swept : Swept snap s

/-! ## Steps -/

theorem CallEffect.crashing {i : CallId} {t : Call} {log : List Event}
    (h : CallEffect text i s t s') (hi : Crashing detail snap log s) (hswept : Swept snap s') :
    Crashing detail snap log s' := by
  obtain ⟨hclosed, hstop, hjoined, hunlisted, hreason, hputs, -⟩ := hi
  cases h with
  | registerConnect args a h hopen | registerPing args a h hopen | beginClose hopen =>
    rw [hclosed] at hopen
    cases hopen
  | unregister c h =>
    exact ⟨hclosed, hstop, hjoined, by simp [hunlisted], hreason, hputs, hswept⟩
  | cancel args a h | rawClose c notify h =>
    refine ⟨hclosed, hstop, hjoined, hunlisted, hreason, fun k => ?_, hswept⟩
    simpa [puts_append, Event.putInto] using hputs k
  | _ => exact ⟨hclosed, hstop, hjoined, hunlisted, hreason, hputs, hswept⟩

theorem ActEffect.crashing {e : State.Act} {log : List Event} (h : ActEffect text s e s')
    (hi : Crashing detail snap log s) (hswept : Swept snap s') : Crashing detail snap log s' := by
  obtain ⟨hclosed, hstop, hjoined, hunlisted, hreason, hputs, -⟩ := hi
  rcases h.of_stopped hstop with ⟨-, rfl⟩ | rfl | ⟨c, rfl⟩ | ⟨d, rfl⟩
  · exact ⟨hclosed, rfl, hjoined, hunlisted, hreason, hputs, hswept⟩
  · cases h with
    | join rest h _ =>
      rw [h] at hjoined
      cases hjoined
    | setConnect i rest h | putSentinel h =>
      refine ⟨hclosed, hstop, rfl, hunlisted, by simp [Teardown.reason], fun k => ?_, hswept⟩
      simpa [puts_append, Event.putInto] using hputs k
    | sweepPing rest i is h hcons =>
      refine ⟨hclosed, hstop, rfl, hunlisted, by simp [Teardown.reason], fun k => ?_, hswept⟩
      simpa [puts_append, Event.putInto] using hputs k
    | _ =>
      refine ⟨hclosed, hstop, rfl, hunlisted, fun e he => ?_, hputs, hswept⟩
      simp_all [Teardown.reason]
  · cases h with
    | recvItem _ d m hpub hget | recvRaises _ exc hpub hget =>
      refine ⟨hclosed, hstop, hjoined, hunlisted, hreason, fun k => ?_, hswept⟩
      simpa [puts_append, Event.putInto] using hputs k
  · cases h
    exact ⟨hclosed, hstop, hjoined, hunlisted, hreason, hputs, hswept⟩

theorem ActEffect.reason_crashing {e : State.Act} {log : List Event} (h : ActEffect text s e s')
    (hi : Crashing detail snap log s) (hnone : s.registry.reason k = none) :
    s'.registry.reason k = none ∨ s'.registry.reason k = some (State.crashed detail) := by
  rw [Registry.reason, State.registry_connection] at hnone
  rcases h.of_stopped hi.stopped with ⟨-, rfl⟩ | rfl | ⟨c, rfl⟩ | ⟨d, rfl⟩
  · exact Or.inl hnone
  · cases h with
    | closeMailbox exc c rest h =>
      have hexc := hi.reason exc (by rw [h]; rfl)
      by_cases hk : k = c
      · subst hk
        exact Or.inr (by simp [Registry.reason, Peer.mailbox, Mailbox.close, hnone, hexc])
      · exact Or.inl (by simpa [Registry.reason, hk] using hnone)
    | sweepConnection exc rest c cs h hcons =>
      refine Or.inl ?_
      by_cases hk : k = c <;> simpa [Registry.reason, hk] using hnone
    | _ => exact Or.inl hnone
  · cases h with
    | recvItem _ d m hpub hget =>
      refine Or.inl ?_
      obtain ⟨-, hexc, -⟩ := Mailbox.get_eq_item hget
      by_cases hk : k = c
      · subst hk
        simpa [Registry.reason, hexc, Peer.mailbox] using hnone
      · simpa [Registry.reason, hk] using hnone
    | recvRaises _ exc hpub hget => exact Or.inl hnone
  · cases h
    exact Or.inl hnone

theorem reason_of_call {i : CallId} {t : Call} (h : CallEffect text i s t s')
    (hnone : s.registry.reason k = none) : s'.registry.reason k = none ∨
      t.closing = some (k, .mailbox) ∧ s'.registry.reason k = some (.ok "connection closed") := by
  rw [Registry.reason, State.registry_connection] at hnone
  cases h with
  | own args c h | mark c h =>
    refine Or.inl ?_
    by_cases hk : k = c <;> simpa [Registry.reason, hk] using hnone
  | closeMailbox c h =>
    by_cases hk : k = c
    · subst hk
      exact Or.inr ⟨h, by simp [Registry.reason, Peer.mailbox, Mailbox.close, hnone]⟩
    · exact Or.inl (by simpa [Registry.reason, hk] using hnone)
  | _ => exact Or.inl hnone

/-! ## Runs -/

/-- Between two configurations, a `Connection.close` stored its reason in `k`, which had none. -/
def ClosedBetween (text : SystemAddress → String) (k : ConnId) (c d : Sync) : Prop :=
  ∃ c₁ c₂ i x, Reach (sync text) anyStep c c₁ ∧ (c₁.thread i).closing = some (k, .mailbox) ∧
    c₁.shared.registry.reason k = none ∧ (sync text).step c₁ (.thread i x) = some c₂ ∧
    Reach (sync text) anyStep c₂ d

theorem ClosedBetween.step {c d d' : Sync} {a : SyncAction} (h : ClosedBetween text k c d)
    (hs : (sync text).step d a = some d') : ClosedBetween text k c d' := by
  obtain ⟨c₁, c₂, i, x, h₁, h₂, h₃, h₄, h₅⟩ := h
  exact ⟨c₁, c₂, i, x, h₁, h₂, h₃, h₄, .step h₅ trivial hs⟩

theorem crashing_begun {c c' : Sync} (hp : c.shared.pump = .fail detail)
    (hopen : c.shared.peer.closed = false) (hs : (sync text).step c (.shared .pump) = some c') :
    c' = { c with shared := (c.shared.beginClose
      (.shutdown (some (State.crashed detail)))).goto .failing } := by
  simpa [sync, System.step, State.act, State.pumpStep, hp, hopen, eq_comm] using hs

/-- The tear-down that `_fail` begins in `c`, in every later configuration `d`. -/
theorem reach_crashing {c c' d : Sync} {q : Option Nat} {t₀ : Int}
    (h : Reach (sync text) anyStep (Sync.init q t₀) c) (hp : c.shared.pump = .fail detail)
    (hopen : c.shared.peer.closed = false) (hs : (sync text).step c (.shared .pump) = some c')
    (hd : Reach (sync text) anyStep c' d) :
    Crashing detail c.shared.peer.snapshot c.shared.log d.shared := by
  have hr := h.trans (.single trivial hs)
  have hreg := (reach_registryInv h).1
  have hgrows := (step_registry h hs).grows hreg.inv
  have hlisted : ∀ k ∈ c.shared.peer.snapshot.connections, k < c.shared.peer.created := by
    intro k hk
    obtain ⟨g, hg⟩ := Dict.mem_values.mp hk
    exact (hreg.inv.listed_published g k hg).1
  have hpend := (reach_pendingInv h).1
  refine hd.invariant
    (I := fun d => Crashing detail c.shared.peer.snapshot c.shared.log d.shared) ?_ ?_
  · rw [crashing_begun hp hopen hs]
    refine ⟨rfl, rfl, rfl, fun g => rfl, fun e he => ?_, fun k => ?_, swept_of_begun rfl rfl rfl⟩
    · exact (Option.some.inj he).symm
    · simp [puts_append, Event.putInto]
  · intro d a d' hcd _ hs' hi
    have hr' := hr.trans hcd
    have hreg' := reach_registryInv hr'
    have hg := (step_registry hr' hs').grows hreg'.1.inv
    have hcreated : ∀ k ∈ c.shared.peer.snapshot.connections, k < d.shared.peer.created := by
      intro k hk
      exact Nat.lt_of_lt_of_le (hlisted k hk) (hgrows.trans (reach_grows hr hcd)).created
    obtain ⟨hgc, hgp⟩ := reach_pendingGrows h ((Reach.of_step hs).trans hcd)
    rcases System.step_cases hs' with ⟨e, s, rfl, he, rfl⟩ | ⟨i, x, s, t, rfl, hx, rfl⟩
    · exact (act_effect he).crashing hi ((act_effect he).swept hi.stopped hg hcreated hi.swept)
    · have hun := (reach_pendingInv hr').2 i
      refine (callStep_effect hx).crashing hi ((callStep_effect hx).swept hi.closed hg hcreated
        (fun _ hcall => hun.connect (by rw [hcall]; rfl))
        (fun _ hcall => hun.ping (by rw [hcall]; rfl)) (fun j hj => ?_) (fun j hj => ?_) hi.swept)
      · obtain ⟨key, hkey⟩ := Dict.mem_values.mp hj
        exact hgc.entered.subset (hpend.connects.listed key j hkey).1
      · obtain ⟨key, hkey⟩ := Dict.mem_values.mp hj
        exact hgp.entered.subset (hpend.pings.listed key j hkey).1

/-- What may be stored as the reason of a Connection that had none when the crash came. -/
theorem reach_crashReason {c c' d : Sync} {q : Option Nat} {t₀ : Int}
    (h : Reach (sync text) anyStep (Sync.init q t₀) c) (hp : c.shared.pump = .fail detail)
    (hopen : c.shared.peer.closed = false) (hs : (sync text).step c (.shared .pump) = some c')
    (hk : k < c'.shared.peer.created) (hnone : c'.shared.registry.reason k = none)
    (hd : Reach (sync text) anyStep c' d) :
    d.shared.registry.reason k = none ∨
    d.shared.registry.reason k = some (State.crashed detail) ∨
    d.shared.registry.reason k = some (.ok "connection closed") ∧ ClosedBetween text k c' d := by
  have hr := h.trans (.single trivial hs)
  induction hd with
  | start => exact Or.inl hnone
  | @step d d' a hcd _ hs' ih =>
    have hr' := hr.trans hcd
    have hg := (step_registry hr' hs').grows (reach_registryInv hr').1.inv
    have hk' := Nat.lt_of_lt_of_le hk (reach_grows hr hcd).created
    rcases ih with hnone | hcrash | ⟨hclosed, hbetween⟩
    · rcases System.step_cases hs' with ⟨e, s, rfl, he, rfl⟩ | ⟨i, x, s, t, rfl, hx, rfl⟩
      · rcases (act_effect he).reason_crashing (reach_crashing h hp hopen hs hcd) hnone with hr | hr
        · exact Or.inl hr
        · exact Or.inr (Or.inl hr)
      · rcases reason_of_call (callStep_effect hx) hnone with hr | ⟨hclosing, hr⟩
        · exact Or.inl hr
        · exact Or.inr (Or.inr ⟨hr, _, _, i, x, hcd, hclosing, hnone, hs', .start⟩)
    · exact Or.inr (Or.inl (hg.reason k _ hk' hcrash))
    · exact Or.inr (Or.inr ⟨hg.reason k _ hk' hclosed, hbetween.step hs'⟩)

/-! ## Later calls -/

/-- A call that began after the crash. If it is a connect, a ping or an accept, it stands before its
test of `_closed`, or has got no further. -/
inductive Call.Refused : Call → Prop
  | idle : Refused .idle
  | connect (args : ConnectArgs) : Refused (.connect args (.start .checkOpen))
  | leave (args : ConnectArgs) : Refused (.connect args (.closePeer peerIsClosed .begin))
  | connectRaised (args : ConnectArgs) : Refused (.connect args (.raised peerIsClosed))
  | ping (args : PingArgs) : Refused (.ping args (.start .checkOpen))
  | pingRaised (args : PingArgs) : Refused (.ping args (.raised peerIsClosed))
  | accept : Refused (.accept .checkOpen)
  | acceptRaised : Refused (.accept (.raised peerIsClosed))
  | close (c : ConnId) (notify : Bool) (pc : ClosePc) : Refused (.close c notify pc)
  | closed (c : ConnId) : Refused (.closed c)
  | closePeer (pc : ClosePeerPc) : Refused (.closePeer pc)
  | closedPeer : Refused .closedPeer

/-- A connect, a ping or an accept. -/
def Call.requests : Call → Bool
  | connect _ _ | ping _ _ | accept _ => true
  | _ => false

/-- The exception that left the call. -/
def Call.error : Call → Option Error
  | connect _ (.raised e) | ping _ (.raised e) | accept (.raised e) => some e
  | _ => none

theorem CallMove.refused {i : CallId} {t t' : Call} (h : CallMove text i s t s' t')
    (hclosed : s.peer.closed = true) (ht : t.Refused) : t'.Refused := by
  cases h with
  | begin start t h =>
    cases start <;> simp only [startCall, Option.some.injEq] at h
    case connect args => exact h ▸ .connect args
    case ping args => exact h ▸ .ping args
    case accept => exact h ▸ .accept
    case close c notify =>
      split_ifs at h
      exact Option.some.inj h ▸ .close c notify .check
    case closePeer => exact h ▸ .closePeer .begin
  | connect args pc pc' s' h =>
    cases ht with
    | connect =>
      cases h with
      | refused =>
        unfold ConnectArgs.leave
        split_ifs
        · exact .leave args
        · exact .connectRaised args
      | checkOpen hopen =>
        rw [hclosed] at hopen
        cases hopen
    | leave =>
      cases h with
      | closeLost => exact .connectRaised args
      | closeBegin e hopen =>
        rw [hclosed] at hopen
        cases hopen
    | connectRaised => cases h
  | ping args pc pc' s' h =>
    cases ht with
    | ping =>
      cases h with
      | refused => exact .pingRaised args
      | checkOpen hopen =>
        rw [hclosed] at hopen
        cases hopen
    | pingRaised => cases h
  | accept pc pc' s' h =>
    cases ht with
    | accept =>
      cases h with
      | refused => exact .acceptRaised
      | checkOpen hopen =>
        rw [hclosed] at hopen
        cases hopen
    | acceptRaised => cases h
  | close c notify pc pc' s' h => exact .close c notify pc'
  | closed c notify pc s' h => exact .closed c
  | closeLost | closeDone => exact .closedPeer
  | closeBegin => exact .closePeer .closing

/-- A refused call that is not over raises within two steps of its own. -/
theorem refused_raises (text : SystemAddress → String) {c : Sync} {i : CallId}
    (hclosed : c.shared.peer.closed = true) (ht : (c.thread i).Refused)
    (hr : (c.thread i).requests = true) :
    ∃ n d, (sync text).exec anyStep (steps i n) c = some d ∧
      (d.thread i).error = some peerIsClosed := by
  generalize hcall : c.thread i = t at ht hr
  cases ht with
  | connect args =>
    cases hone : args.oneShot with
    | false =>
      refine ⟨1, c.move i (c.shared, .connect args (.raised peerIsClosed)), ?_,
        by simp [Call.error]⟩
      simp [steps, System.exec, System.step, anyStep, sync, callStep, connectStep, startStep, hcall,
        hclosed, ConnectArgs.leave, hone]
    | true =>
      refine ⟨2, (c.move i (c.shared, .connect args (.closePeer peerIsClosed .begin))).move i
        (c.shared, .connect args (.raised peerIsClosed)), ?_, by simp [Call.error]⟩
      simp [steps, System.exec, System.step, anyStep, sync, callStep, connectStep, startStep, hcall,
        hclosed, ConnectArgs.leave, hone, closePeerStep]
  | leave args =>
    refine ⟨1, c.move i (c.shared, .connect args (.raised peerIsClosed)), ?_, by simp [Call.error]⟩
    simp [steps, System.exec, System.step, anyStep, sync, callStep, connectStep, hcall, hclosed,
      closePeerStep]
  | ping args =>
    refine ⟨1, c.move i (c.shared, .ping args (.raised peerIsClosed)), ?_, by simp [Call.error]⟩
    simp [steps, System.exec, System.step, anyStep, sync, callStep, pingStep, startPingStep, hcall,
      hclosed]
  | accept =>
    refine ⟨1, c.move i (c.shared, .accept (.raised peerIsClosed)), ?_, by simp [Call.error]⟩
    simp [steps, System.exec, System.step, anyStep, sync, callStep, acceptStep, hcall, hclosed]
  | connectRaised | pingRaised | acceptRaised => exact ⟨0, c, rfl, by rw [hcall]; rfl⟩
  | _ => cases hr

theorem reach_refused {c d : Sync} {i : CallId} (hclosed : c.shared.peer.closed = true)
    (hi : c.thread i = .idle) (h : Reach (sync text) anyStep c d) :
    d.shared.peer.closed = true ∧ (d.thread i).Refused := by
  have hall := h.outline (G := fun s => s.peer.closed = true)
    (L := fun j _ t => j = i → t.Refused) hclosed (fun j hj => hj ▸ hi ▸ .idle) ?_ ?_
  · exact ⟨hall.1, hall.2 i rfl⟩
  · intro c e s _ _ hs hclosed
    refine ⟨?_, fun _ _ => id⟩
    cases act_effect hs <;> first | exact hclosed | rfl
  · intro c j x s t _ _ hs hclosed ht
    refine ⟨?_, fun hj => (callStep_move hs).refused hclosed (ht hj), fun _ _ _ => id⟩
    cases callStep_effect hs <;> first | exact hclosed | rfl

/-! ## The tear-down -/

/-- What holds in `d`, reached after `_fail` won `_begin_close` in `c` and moved on to `c'`. -/
structure TornDown (text : SystemAddress → String) (detail : String) (c c' d : Sync) : Prop where
  connections : ∀ g, d.shared.peer.connections.get? g = none
  pendingConnects : ∀ key, d.shared.peer.pendingConnects.get? key = none
  pendingPings : ∀ key, d.shared.peer.pendingPings.get? key = none
  /-- A Connection that was registered is closed. Its `recv` returns what was queued and then raises
  the crash for ever, unless a `Connection.close` stored its reason first. -/
  closed : d.shared.teardown = .done → ∀ k, c.shared.registry.Listed k →
    (d.shared.peer.connection k).closed = true ∧
    ∃ e, (e = State.crashed detail ∨ e = .ok "connection closed" ∧ ClosedBetween text k c' d) ∧
      ∀ d', Reach (sync text) anyStep d d' →
        returns k d'.shared.log ++ (d'.shared.peer.mailbox k).items =
          returns k c.shared.log ++ (c.shared.peer.mailbox k).items ∧
        ((d'.shared.peer.mailbox k).items = [] → (d'.shared.peer.mailbox k).get = .raised e)
  connects : d.shared.teardown = .done → ∀ key i,
    c.shared.peer.pendingConnects.get? key = some i →
    (d.shared.peer.pendingConnect i).event = true ∧
      (d.shared.peer.pendingConnect i).reason = some .connectionAttemptFailed
  pings : d.shared.teardown = .done → ∀ key i, c.shared.peer.pendingPings.get? key = some i →
    (d.shared.peer.pendingPing i).event = true
  /-- A call that starts later gets no further than its test, and raises instead of blocking. -/
  later : ∀ i, d.thread i = .idle → ∀ d', Reach (sync text) anyStep d d' →
    (d'.thread i).Refused ∧ ((d'.thread i).requests = true →
      ∃ n f, (sync text).exec anyStep (steps i n) d' = some f ∧
        (f.thread i).error = some peerIsClosed)

/-- **A crash of the pump.** The pump is at the head of `_fail`. If a `close` has won
`_begin_close`, `_fail` changes nothing; otherwise it tears the Peer down, whatever the other
threads do meanwhile. -/
theorem crash_teardown {c c' : Sync} {q : Option Nat} {t₀ : Int}
    (h : Reach (sync text) anyStep (Sync.init q t₀) c) (hp : c.shared.pump = .fail detail)
    (hs : (sync text).step c (.shared .pump) = some c') :
    (c.shared.peer.closed = true → c' = { c with shared := c.shared.goto .exited }) ∧
    (c.shared.peer.closed = false → ∀ d, Reach (sync text) anyStep c' d →
      TornDown text detail c c' d) := by
  constructor
  · intro hclosed
    simpa [sync, System.step, State.act, State.pumpStep, hp, hclosed, eq_comm] using hs
  intro hopen d hd
  have hr := h.trans (.single trivial hs)
  have hi := reach_crashing h hp hopen hs hd
  have hsd := reach_shutdownInv (hr.trans hd)
  have hgrows := (step_registry h hs).grows (reach_registryInv h).1.inv
  constructor
  case connections => exact hi.unlisted
  case pendingConnects => exact hsd.connects hi.closed
  case pendingPings => exact hsd.pings hi.closed
  case closed =>
    rintro hdone k ⟨g, hg⟩
    have hinv := (reach_registryInv h).1.inv
    have hk : k < c'.shared.peer.created :=
      Nat.lt_of_lt_of_le (hinv.listed_published g k hg).1 hgrows.created
    have hnone : c'.shared.registry.reason k = none := by
      rw [crashing_begun hp hopen hs]
      exact hinv.open_reason k (hinv.listed_published g k hg).1 (hinv.listed_open g k hg)
    have hreason := (hi.swept.done hdone).1 k (Dict.mem_values.mpr ⟨g, hg⟩)
    have hkd := Nat.lt_of_lt_of_le hk (reach_grows hr hd).created
    refine ⟨?_, ?_⟩
    · by_contra hflag
      exact hreason
        ((reach_registryInv (hr.trans hd)).1.inv.open_reason k hkd (by simpa using hflag))
    · obtain ⟨e, he⟩ := Option.ne_none_iff_exists'.mp hreason
      refine ⟨e, ?_, fun d' hd' => ⟨?_, fun hitems => ?_⟩⟩
      · rcases reach_crashReason h hp hopen hs hk hnone hd with hr | hr | ⟨hr, hbetween⟩
        · exact absurd hr hreason
        · exact Or.inl (Option.some.inj (he.symm.trans hr))
        · exact Or.inr ⟨Option.some.inj (he.symm.trans hr), hbetween⟩
      · have hi' := reach_crashing h hp hopen hs (hd.trans hd')
        have hqueue := (reach_deliveryInv ((hr.trans hd).trans hd')).queue k
        exact hqueue.trans ((hi'.puts k).trans ((reach_deliveryInv h).queue k).symm)
      · have he' := (reach_grows (hr.trans hd) hd').reason k e hkd he
        have he' : (d'.shared.peer.mailbox k).exc = some e := he'
        simp [Mailbox.get, hitems, he']
  case connects =>
    intro hdone key i hget
    exact ((hi.swept.done hdone).2.1 i (Dict.mem_values.mpr ⟨key, hget⟩)).symm
  case pings =>
    intro hdone key i hget
    exact (hi.swept.done hdone).2.2 i (Dict.mem_values.mpr ⟨key, hget⟩)
  case later =>
    intro i hidle d' hd'
    obtain ⟨hclosed, hrefused⟩ := reach_refused hi.closed hidle hd'
    exact ⟨hrefused, refused_raises text hclosed hrefused⟩

/-- The pump crashes while one Connection is registered, a connect and a ping wait: all three are
released. -/
theorem crash_teardown_waiters :
    ∃ c c' d, Reach (sync SystemAddress.text) anyStep (Sync.init none 0) c ∧
      c.thread 0 = .connect ⟨"a", 1, 12, false⟩ (.wait ⟨"10.0.0.1", 1⟩) ∧
      c.thread 1 = .ping ⟨"b", 1⟩ (.wait ⟨"10.0.0.2", 1⟩) ∧
      c.shared.registry.connections.get? 7 = some 0 ∧
      TornDown SystemAddress.text "OSError" c c' d ∧ d.shared.teardown = .done ∧
      (d.shared.peer.mailbox 0).get = .raised (State.crashed "OSError") := by
  have h : Reach (sync SystemAddress.text) anyStep (Sync.init none 0) _ :=
    .of_exec (show (sync SystemAddress.text).exec anyStep
      (routes ⟨⟨"10.0.0.3", 1⟩, 7, [19]⟩ 4 ++
        connects 0 ⟨"a", 1, 12, false⟩ "10.0.0.1" .connectionAttemptStarted ++
        [.thread 1 (.inl (.ping ⟨"b", 1⟩)), .thread 1 (.inr .go),
          .thread 1 (.inr (.resolved (some "10.0.0.2"))), .thread 1 (.inr .go),
          .thread 1 (.inr (.pingResult true))] ++
        [.shared .pump, .shared (.received (.raises "OSError"))])
      (Sync.init none 0) = some _ from rfl)
  exact ⟨_, _, _, h, rfl, rfl, rfl, (crash_teardown h rfl rfl).2 rfl _
    (.of_exec (show (sync SystemAddress.text).exec anyStep (closes 10) _ = some _ from rfl)),
      rfl, rfl⟩

end Raknet
