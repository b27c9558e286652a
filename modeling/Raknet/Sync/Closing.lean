import Raknet.Sync.Registry
import Raknet.Sync.Shutdown

/-!
# The flag and the reason of a Connection

Every operation that removes a Connection sets its flag first and stores the reason later. In
between the Connection is *finishing*: the pump, the closer or a `Connection.close` has flagged
it and still holds it.

**Theorem (`registry_sound`).** Entries of the registry are stored under their own guid, open and
without a reason; what left the registry stays out; a stored reason stays; and when no operation
is half-way, exactly the flagged Connections have a reason.
-/

namespace Raknet

open Interleaving

/-! ## Who is about to store a reason -/

/-- The Connection that the pump has flagged and not yet given a reason. -/
def PumpPc.finishing : PumpPc → Option ConnId
  | overflowCheck c | overflowRaw c | overflowMailbox c | disconnectedMailbox c _ => some c
  | _ => none

/-- `Connection.close` has set the flag and not yet stored its reason. -/
def ClosePc.finishing : ClosePc → Bool
  | checkPeer | raw | mailbox => true
  | _ => false

/-- The Connection that a call has flagged and not yet given a reason. -/
def Call.finishing (t : Call) : Option ConnId :=
  match t.closing with
  | some (c, pc) => if pc.finishing then some c else none
  | none => none

/-- The pump or the closer has flagged the Connection and not yet given it a reason. -/
def State.Finishing (s : State) (c : ConnId) : Prop :=
  s.pump.finishing = some c ∨ s.teardown.inHand = some c

/-- The Connection is flagged only if it has a reason or somebody will store one. -/
def State.Settled (s : State) (c : ConnId) (held : Prop) : Prop :=
  (s.peer.connection c).closed = true →
    (s.peer.connection c).mailbox.exc ≠ none ∨ s.Finishing c ∨ held

variable {text : SystemAddress → String} {s s' : State}

@[simp] theorem PumpPc.finishing_enter (cb : Option Callback) :
    (PumpPc.enter cb).finishing = none := by
  rcases cb with _ | ⟨_ | _⟩ <;> rfl

theorem PumpPc.DropsIn.finishing {p : Peer} {pc : PumpPc} (h : pc.DropsIn text p) :
    pc.finishing = none := by
  cases pc <;> first | rfl | exact h.elim

theorem Mailbox.get_exc {m r : Mailbox} {d : Bytes} (h : m.get = .item d r) : r.exc = m.exc :=
  (Mailbox.get_eq_item h).2.1

theorem ActEffect.settled {e : State.Act} (h : ActEffect text s e s') (hi : ShutdownInv s)
    {c : ConnId} {held : Prop} (hc : s.Settled c held) : s'.Settled c held := by
  have hbegun := hi.begun
  simp only [State.Settled, State.Finishing] at hc ⊢
  cases h
  case drop h =>
    rw [h.finishing] at hc
    simpa [PumpPc.finishing] using hc
  case recvItem k d m hpub hget =>
    have hm := Mailbox.get_exc hget
    grind
  all_goals first
    | simpa [PumpPc.finishing, Teardown.inHand, *] using hc
    | grind -linarith [PumpPc.finishing, Teardown.inHand]

/-- The steps of a call: only a `Connection.close` flags a Connection, which it then holds, and
it stores a reason before it lets go. -/
theorem call_settled {i : CallId} {ch : CallStart ⊕ Choice} {t t' : Call}
    (h : callStep text i ch s t = some (s', t')) (hi : ShutdownInv s) {c : ConnId} {held : Prop}
    (hc : s.Settled c (t.finishing = some c ∨ held)) :
    s'.Settled c (t'.finishing = some c ∨ held) := by
  have hbegun := hi.begun
  simp only [State.Settled, State.Finishing] at hc ⊢
  cases hcl : t.closing with
  | some r =>
    obtain ⟨k, pc⟩ := r
    obtain ⟨notify, pc', hs, ht'⟩ := (callStep_move h).of_closing hcl
    simp only [Call.finishing, hcl, ht'] at hc ⊢
    cases hs <;> grind [ClosePc.finishing, Teardown.inHand]
  | none =>
    have hfin : t.finishing = none := by simp [Call.finishing, hcl]
    simp only [hfin, reduceCtorEq, false_or] at hc
    have he := callStep_effect h
    cases he <;> grind [Teardown.inHand]

/-! ## Runs -/

/-- In every run, a flagged Connection has a reason or somebody will store one. -/
theorem reach_settled {ok : Sync → SyncAction → Prop} {c : Sync}
    {q : Option Nat} {t₀ : Int} (h : Reach (sync text) ok (Sync.init q t₀) c) (k : ConnId) :
    c.shared.Settled k (∃ i, (c.thread i).finishing = some k) := by
  refine h.invariant (I := fun c => c.shared.Settled k (∃ i, (c.thread i).finishing = some k))
    (fun hc => by simp [Sync.init, State.init, Peer.init, default] at hc) ?_
  intro c a c' hr _ hs hi
  have hsd := reach_shutdownInv hr
  rcases System.step_cases hs with ⟨e, s, rfl, he, rfl⟩ | ⟨i, x, s, t, rfl, hx, rfl⟩
  · exact (act_effect he).settled hsd hi
  · -- the other calls keep what they hold
    have hsplit : c.shared.Settled k ((c.thread i).finishing = some k ∨
        ∃ j, j ≠ i ∧ (c.thread j).finishing = some k) := by
      refine fun hc => (hi hc).imp_right (Or.imp_right ?_)
      rintro ⟨j, hj⟩
      by_cases hji : j = i
      · exact Or.inl (hji ▸ hj)
      · exact Or.inr ⟨j, hji, hj⟩
    refine fun hc => (call_settled hx hsd hsplit hc).imp_right (Or.imp_right ?_)
    rintro (hown | ⟨j, hji, hj⟩)
    · exact ⟨i, by simpa using hown⟩
    · exact ⟨j, by rwa [Config.move_thread_of_ne _ _ hji]⟩

/-- No operation on a Connection is half-way. -/
structure Sync.Quiet (c : Sync) : Prop where
  pump : c.shared.pump.idle = true
  closer : c.shared.teardown = .unbegun ∨ c.shared.teardown = .done
  calls : ∀ i, (c.thread i).closing = none

theorem Sync.Quiet.reason {c : Sync} (hq : c.Quiet) {k : ConnId}
    (h : c.shared.Settled k (∃ i, (c.thread i).finishing = some k))
    (hc : (c.shared.peer.connection k).closed = true) : c.shared.registry.reason k ≠ none := by
  rcases h hc with h | (h | h) | ⟨i, h⟩
  · exact h
  · have := hq.pump
    cases hp : c.shared.pump <;> simp_all [PumpPc.idle, PumpPc.finishing]
  · rcases hq.closer with ht | ht <;> simp [ht, Teardown.inHand] at h
  · simp [Call.finishing, hq.calls i] at h

/-- **The registry of a sync Peer.** In every reachable configuration the entries are stored under
their own guid, open and without a reason; a Connection that left the registry stays out of it;
when no operation is half-way exactly the flagged Connections have a reason; and a stored reason
is never replaced. -/
theorem registry_sound {q : Option Nat} {t₀ : Int} {c : Sync}
    (h : Reach (sync text) anyStep (Sync.init q t₀) c) :
    (∀ g k, c.shared.peer.connections.get? g = some k →
      (c.shared.peer.connection k).rawGuid = g ∧ (c.shared.peer.connection k).closed = false ∧
        (c.shared.peer.connection k).mailbox.exc = none) ∧
    (∀ c' c'' k, Reach (sync text) anyStep c c' → Reach (sync text) anyStep c' c'' →
      c.shared.registry.Listed k → ¬ c'.shared.registry.Listed k →
      ¬ c''.shared.registry.Listed k) ∧
    (c.Quiet → ∀ k, k < c.shared.peer.created →
      ((c.shared.peer.connection k).closed = true ↔
        (c.shared.peer.connection k).mailbox.exc ≠ none)) ∧
    (∀ c' k e, Reach (sync text) anyStep c c' → k < c.shared.peer.created →
      (c.shared.peer.connection k).mailbox.exc = some e →
      (c'.shared.peer.connection k).mailbox.exc = some e) := by
  have hinv := (reach_registryInv h).1.inv
  refine ⟨fun g k hg => ?_, fun c' c'' k hc' hc'' hin hout => ?_, fun hq k hk => ⟨?_, fun he => ?_⟩,
    fun c' k e hc' hk he => (reach_grows h hc').reason k e hk he⟩
  · exact ⟨hinv.listed_guid g k hg, hinv.listed_open g k hg,
      hinv.open_reason k (hinv.listed_published g k hg).1 (hinv.listed_open g k hg)⟩
  · obtain ⟨g, hg⟩ := hin
    have hpub := (reach_grows h hc').published k (hinv.listed_published g k hg)
    exact ((reach_grows (h.trans hc') hc'').gone k ⟨hpub, hout⟩).2
  · exact hq.reason (reach_settled h k)
  · by_contra hopen
    exact he (hinv.open_reason k hk (by simpa using hopen))

/-- A client connects and the user closes its Connection. -/
theorem registry_sound_closed :
    ∃ c, Reach (sync SystemAddress.text) anyStep (Sync.init none 0) c ∧
      c.thread 0 = .closed 0 ∧ (c.shared.peer.connection 0).mailbox.exc ≠ none := by
  have h : Reach (sync SystemAddress.text) anyStep (Sync.init none 0) _ :=
    .of_exec (show (sync SystemAddress.text).exec anyStep
      (routes ⟨⟨"10.0.0.1", 1⟩, 7, [19]⟩ 4 ++ .thread 0 (.inl (.close 0 true)) :: steps 0 7)
      (Sync.init none 0) = some _ from rfl)
  refine ⟨_, h, rfl, ((registry_sound h).2.2.1 ⟨rfl, Or.inl rfl, fun i => ?_⟩ 0 (by decide)).mp rfl⟩
  cases i <;> rfl

end Raknet
