import Mathlib.Algebra.Order.BigOperators.Group.Finset
import Raknet.Lib.Marker
import Raknet.Lib.Trace
import Raknet.Sync.Crash
import Raknet.Sync.Registry
import Raknet.Sync.Shutdown

/-!
# The accept queue

The pump puts incoming Connections into the accept queue, `Peer.accept` takes them out. The closer
puts a sentinel behind them, and an acceptor that takes it puts it back before it raises.

**Theorem (`accept_sound`).** Every incoming Connection is handed out at most once, in order of
arrival. Once the closer is done there is one sentinel, behind every Connection, so no acceptor is
left waiting for ever.
-/

namespace Raknet

open Interleaving

/-! ## What happened -/

/-- The remote that a routed packet announces. -/
def Event.incoming : Event → List (SystemAddress × Guid)
  | routed p => if p.hasId .newIncomingConnection then [(p.systemAddress, p.guid)] else []
  | _ => []

/-- The remote whose Connection the pump is about to construct in `incoming_connection`. -/
def PumpPc.announced : PumpPc → List (SystemAddress × Guid)
  | incomingCreate a g => [(a, g)]
  | _ => []

/-- The Connection that the pump has constructed in `incoming_connection` and not yet queued. -/
def PumpPc.accepting : PumpPc → List ConnId
  | incomingRegister _ c | incomingAccept c => [c]
  | _ => []

/-- The Connection that a step constructs in `incoming_connection`. -/
def arrival : Sync × SyncAction → List ConnId
  | (c, .shared .pump) => c.shared.pump.announced.map fun _ => c.shared.peer.created
  | _ => []

/-- What a step of an `accept` takes out of the queue, and which call does. -/
def acceptance : Sync × SyncAction → List (CallId × ConnId)
  | (c, .thread i (.inr .go)) =>
    match c.thread i, c.shared.peer.acceptQueue with
    | .accept .get, some k :: _ => [(i, k)]
    | _, _ => []
  | _ => []

variable {text : SystemAddress → String} {s s' : State} {c c' : Sync} {i : CallId}
  {tr : List (Sync × SyncAction)}

/-! ## The sentinel -/

/-- The accept queue, with the acceptors that hold the sentinel. -/
@[simps] def Sync.acceptQueue (c : Sync) : Marked ConnId CallId where
  queue := c.shared.peer.acceptQueue
  marked := .sentinel ∈ c.shared.log
  held := {i | c.thread i = .accept .putBack}

/-- The sentinel is there when the closer is done. -/
def State.SentinelDone (s : State) : Prop := .sentinel ∈ s.log ↔ s.teardown = .done

theorem ActEffect.sentinelDone {e : State.Act} (h : ActEffect text s e s') (hsd : ShutdownInv s)
    (hi : s.SentinelDone) : s'.SentinelDone := by
  unfold State.SentinelDone at *
  cases h
  case fail detail h hopen => simp [hi, hsd.unbegun hopen]
  case putSentinel h => simp
  all_goals simp_all

theorem CallEffect.sentinelDone {t : Call} (h : CallEffect text i s t s') (hsd : ShutdownInv s)
    (hi : s.SentinelDone) : s'.SentinelDone := by
  unfold State.SentinelDone at *
  cases h with
  | beginClose hopen => simp [hi, hsd.unbegun hopen]
  | _ => simp_all

theorem reach_sentinelDone {ok : Sync → SyncAction → Prop} {q : Option Nat} {t₀ : Int}
    (h : Reach (sync text) ok (Sync.init q t₀) c) : c.shared.SentinelDone := by
  refine h.invariant (I := fun c => c.shared.SentinelDone)
    (by simp [State.SentinelDone, Sync.init, State.init]) ?_
  intro c a c' hr _ hs hi
  have hsd := reach_shutdownInv hr
  rcases System.step_cases hs with ⟨e, s, rfl, he, rfl⟩ | ⟨i, x, s, t, rfl, hx, rfl⟩
  · exact (act_effect he).sentinelDone hsd hi
  · exact (callStep_effect hx).sentinelDone hsd hi

theorem PumpPc.DropsIn.accepting {p : Peer} {pc : PumpPc} (h : pc.DropsIn text p) :
    pc.accepting = [] ∧ pc.announced = [] := by
  cases pc <;> first | exact ⟨rfl, rfl⟩ | exact h.elim

@[simp] theorem PumpPc.accepting_enter (cb : Option Callback) : (enter cb).accepting = [] := by
  rcases cb with _ | ⟨_ | _⟩ <;> rfl

theorem acceptQueue_skip (hqueue : c'.shared.peer.acceptQueue = c.shared.peer.acceptQueue)
    (hlog : .sentinel ∈ c'.shared.log ↔ .sentinel ∈ c.shared.log)
    (hheld : ∀ j, c'.thread j = .accept .putBack ↔ c.thread j = .accept .putBack) :
    Marked.Step c.acceptQueue c'.acceptQueue := by
  have heq : c'.acceptQueue = c.acceptQueue :=
    Marked.ext hqueue (propext hlog) (Set.ext hheld)
  rw [heq]
  exact .skip

theorem ActEffect.acceptQueue {e : State.Act} (h : ActEffect text c.shared e s)
    (hsd : ShutdownInv c.shared) (hdone : c.shared.SentinelDone) :
    Marked.Step c.acceptQueue (Sync.acceptQueue { c with shared := s }) := by
  cases h
  case incomingAccept k h =>
    refine .put k fun hmem => ?_
    have hstop := hsd.joined (by rw [hdone.mp hmem]; rfl)
    rw [h] at hstop
    cases hstop
  case putSentinel h =>
    have hnot : Event.sentinel ∉ c.shared.log := by
      intro hmem
      rw [hdone.mp hmem] at h
      cases h
    have heq : Sync.acceptQueue { c with shared :=
        (((c.shared.set (c.shared.peer.acceptPut none)).emit .sentinel).close .done) } =
        { c.acceptQueue with queue := c.acceptQueue.queue ++ [none], marked := True } :=
      Marked.ext rfl (eq_true (by simp)) rfl
    rw [heq]
    exact .mark hnot
  all_goals exact acceptQueue_skip rfl (by simp) fun _ => Iff.rfl

theorem CallEffect.acceptQueue_same {t : Call} (h : CallEffect text i s t s')
    (ht : ∀ pc, t ≠ .accept pc) :
    s'.peer.acceptQueue = s.peer.acceptQueue ∧ (.sentinel ∈ s'.log ↔ .sentinel ∈ s.log) := by
  cases h with
  | acceptPop h => exact absurd h (ht _)
  | acceptPut h => exact absurd h (ht _)
  | _ => exact ⟨rfl, by simp⟩

/-- A call that has begun as an accept is one until its end, and no other call becomes one. -/
theorem CallMove.accept_iff {t t' : Call} (h : CallMove text i s t s' t') (hidle : t ≠ .idle) :
    (∃ pc, t = .accept pc) ↔ ∃ pc, t' = .accept pc := by
  cases h with
  | begin => exact absurd rfl hidle
  | accept pc pc' => exact iff_of_true ⟨_, rfl⟩ ⟨_, rfl⟩
  | _ => exact iff_of_false (by simp) (by simp)

theorem startCall_accept {start : CallStart} {t : Call} {pc : AcceptPc}
    (h : startCall s start = some t) (ht : t = .accept pc) : pc = .checkOpen := by
  subst ht
  cases start <;> simp only [startCall, Option.some.injEq, reduceCtorEq] at h
  case accept =>
    cases h
    rfl
  case close c notify =>
    split_ifs at h
    cases h

theorem CallMove.acceptQueue {t t' : Call} (h : CallMove text i c.shared t s t')
    (ht : c.thread i = t) : Marked.Step c.acceptQueue (Sync.acceptQueue (c.move i (s, t'))) := by
  have hskip : s.peer.acceptQueue = c.shared.peer.acceptQueue →
      (.sentinel ∈ s.log ↔ .sentinel ∈ c.shared.log) → t ≠ .accept .putBack →
      t' ≠ .accept .putBack → Marked.Step c.acceptQueue (Sync.acceptQueue (c.move i (s, t'))) := by
    intro hqueue hlog hne hne'
    refine acceptQueue_skip hqueue hlog fun j => ?_
    rw [Config.move_thread]
    split_ifs with hj
    · rw [hj, ht]
      exact iff_of_false hne' hne
    · exact Iff.rfl
  have hheld : ∀ j, j ≠ i → ((c.move i (s, t')).thread j = .accept .putBack ↔
      c.thread j = .accept .putBack) := by
    intro j hj
    rw [Config.move_thread_of_ne _ _ hj]
  by_cases hacc : ∃ pc, t = .accept pc
  · cases h with
    | begin => simp at hacc
    | accept pc pc' s' h =>
      cases h with
      | refused | checkOpen | timeout => exact hskip rfl Iff.rfl (by simp) (by simp)
      | get k rest hqueue =>
        have heq : Sync.acceptQueue (c.move i (c.shared.set c.shared.peer.acceptPop,
            .accept (.returned k))) = { c.acceptQueue with queue := rest } := by
          refine Marked.ext (by simp [hqueue]) rfl (Set.ext fun j => ?_)
          by_cases hj : j = i
          · simp [hj, ht]
          · exact hheld j hj
        rw [heq]
        exact .take k rest hqueue
      | getSentinel rest hqueue =>
        have heq : Sync.acceptQueue (c.move i (c.shared.set c.shared.peer.acceptPop,
            .accept .putBack)) =
            { c.acceptQueue with queue := rest, held := insert i c.acceptQueue.held } := by
          refine Marked.ext (by simp [hqueue]) rfl (Set.ext fun j => ?_)
          by_cases hj : j = i
          · simp [hj]
          · simpa [hj] using hheld j hj
        rw [heq]
        exact .takeMarker i rest hqueue
      | putBack =>
        have heq : Sync.acceptQueue (c.move i (c.shared.set (c.shared.peer.acceptPut none),
            .accept (.raised peerIsClosed))) =
            { c.acceptQueue with
              queue := c.acceptQueue.queue ++ [none], held := c.acceptQueue.held \ {i} } := by
          refine Marked.ext rfl rfl (Set.ext fun j => ?_)
          by_cases hj : j = i
          · simp [hj]
          · simpa [hj] using hheld j hj
        rw [heq]
        exact .putBack i ht
    | _ => simp at hacc
  · have hnot : ∀ pc, t ≠ .accept pc := fun pc hpc => hacc ⟨pc, hpc⟩
    obtain ⟨hqueue, hlog⟩ := h.effect.acceptQueue_same hnot
    refine hskip hqueue hlog (hnot _) fun ht' => ?_
    by_cases hidle : t = .idle
    · subst hidle
      cases h with
      | begin start t h =>
        have hpc := startCall_accept h ht'
        cases hpc
    · exact hacc ((h.accept_iff hidle).mpr ⟨_, ht'⟩)

theorem reach_marked {ok : Sync → SyncAction → Prop} {q : Option Nat} {t₀ : Int}
    (h : Reach (sync text) ok (Sync.init q t₀) c) : c.acceptQueue.Inv := by
  refine h.invariant (I := fun c : Sync => c.acceptQueue.Inv) ?_ ?_
  · refine Marked.inv_of_empty rfl (by simp [Sync.init, State.init]) ?_
    ext j
    simp [Sync.init]
  · intro c a c' hr _ hs hi
    rcases System.step_cases hs with ⟨e, s, rfl, he, rfl⟩ | ⟨i, x, s, t, rfl, hx, rfl⟩
    · exact ((act_effect he).acceptQueue (reach_shutdownInv hr) (reach_sentinelDone hr)).inv hi
    · exact ((callStep_move hx).acceptQueue rfl).inv hi

/-! ## The order -/

@[simp] theorem PumpPc.accepting_loop : loop.accepting = [] := rfl
@[simp] theorem PumpPc.announced_loop : loop.announced = [] := rfl
@[simp] theorem PumpPc.accepting_route (p : Packet) : (route p).accepting = [] := rfl
@[simp] theorem PumpPc.announced_route (p : Packet) : (route p).announced = [] := rfl

/-- The remote of a Connection. -/
def State.remote (s : State) (k : ConnId) : SystemAddress × Guid :=
  ((s.peer.connection k).rawAddress, (s.peer.connection k).rawGuid)

theorem announced_enter (p : Packet) :
    (PumpPc.enter (route p)).announced = (Event.routed p).incoming := by
  by_cases hp : p.hasId .newIncomingConnection = true
  · have hr : route p = some (.incomingConnection p.systemAddress p.guid) := by
      obtain ⟨a, g, data⟩ := p
      cases data with
      | nil => simp [Packet.hasId] at hp
      | cons b l =>
        simp only [Packet.hasId, decide_eq_true_eq] at hp
        simp [route, hp, DefaultMessageIDTypes.int]
    simp [hr, PumpPc.enter, PumpPc.announced, Event.incoming, hp]
  · have hnil : (Event.routed p).incoming = [] := by simp [Event.incoming, hp]
    rw [hnil]
    rcases hr : route p with _ | cb
    · rfl
    · rcases route_cases hr with ⟨-, rfl⟩ | ⟨hn, rfl⟩ | ⟨-, rfl⟩ | ⟨r, -, -, rfl⟩ | ⟨-, rfl⟩ |
        ⟨-, rfl⟩ | ⟨-, rfl⟩
      case inr.inl => exact absurd hn hp
      all_goals rfl

/-- What an action of the pump or the closer does to the Connections on their way to the queue. -/
theorem ActEffect.queued {e : State.Act} (h : ActEffect text c.shared e s) :
    s.peer.acceptQueue.filterMap id ++ s.pump.accepting =
      c.shared.peer.acceptQueue.filterMap id ++ c.shared.pump.accepting ++ arrival
        (c, .shared e) := by
  cases h
  case drop h => simp [h.accepting, arrival]
  case route p h => simp [h, arrival]
  all_goals simp [*, arrival, PumpPc.accepting, PumpPc.announced]

/-- What an action of the pump or the closer does to the remotes that were announced. -/
theorem ActEffect.remotes {e : State.Act} (h : ActEffect text c.shared e s) :
    ∃ extra, s.log.flatMap Event.incoming = c.shared.log.flatMap Event.incoming ++ extra ∧
      (arrival (c, .shared e)).map s.remote ++ s.pump.announced =
        c.shared.pump.announced ++ extra := by
  cases h
  case drop h => exact ⟨[], by simp, by simp [h.accepting, arrival]⟩
  case route p h =>
    refine ⟨(Event.routed p).incoming, by simp, ?_⟩
    simp [h, arrival, announced_enter]
  case incomingCreate a g h =>
    exact ⟨[], by simp, by simp [h, arrival, PumpPc.announced, State.remote, Connection.new]⟩
  all_goals exact ⟨[], by simp [Event.incoming], by simp [*, arrival, PumpPc.announced]⟩

/-- What was taken, what is in the queue and what is on its way there. -/
structure AcceptOrder (tr : List (Sync × SyncAction)) (c : Sync) : Prop where
  order : (tr.flatMap acceptance).map Prod.snd ++ c.acceptQueue.items ++ c.shared.pump.accepting =
    tr.flatMap arrival
  remotes : (tr.flatMap arrival).map c.shared.remote ++ c.shared.pump.announced =
    c.shared.log.flatMap Event.incoming
  increasing : (tr.flatMap arrival).Pairwise (· < ·)
  created : ∀ k ∈ tr.flatMap arrival, k < c.shared.peer.created
  returned : ∀ i k, c.thread i = .accept (.returned k) ↔ (i, k) ∈ tr.flatMap acceptance

theorem acceptance_shared (c : Sync) (e : State.Act) : acceptance (c, .shared e) = [] := rfl

theorem remote_grows {k : ConnId} (hg : s.registry.Grows s'.registry) (hk : k < s.peer.created) :
    s'.remote k = s.remote k :=
  Prod.ext (hg.address k hk) (hg.guid k hk)

theorem AcceptOrder.shared {e : State.Act} (hi : AcceptOrder tr c)
    (h : ActEffect text c.shared e s) (hg : c.shared.registry.Grows s.registry) :
    AcceptOrder (tr ++ [(c, .shared e)]) { c with shared := s } := by
  obtain ⟨horder, hremotes, hincreasing, hcreated, hreturned⟩ := hi
  have hacc : (tr ++ [(c, Action.shared e)]).flatMap acceptance = tr.flatMap acceptance := by
    simp [acceptance_shared]
  have harr : (tr ++ [(c, Action.shared e)]).flatMap arrival =
      tr.flatMap arrival ++ arrival (c, .shared e) := by simp
  have hnew : ∀ k ∈ arrival (c, .shared e), k = c.shared.peer.created ∧
      k < s.peer.created := by
    intro k hk
    cases h
    case incomingCreate a g h =>
      obtain rfl : k = c.shared.peer.created := by
        simpa [arrival, h, PumpPc.announced] using hk
      exact ⟨rfl, Nat.lt_succ_self _⟩
    case drop h => simp [arrival, h.accepting] at hk
    all_goals simp [arrival, *, PumpPc.announced] at hk
  constructor
  · rw [hacc, harr, ← horder]
    have hqueued := h.queued
    simp only [Marked.items, Sync.acceptQueue_queue, List.append_assoc] at hqueued ⊢
    rw [hqueued]
  · obtain ⟨extra, hlog, hextra⟩ := h.remotes
    have hmap : (tr.flatMap arrival).map s.remote = (tr.flatMap arrival).map c.shared.remote :=
      List.map_congr_left fun k hk => remote_grows hg (hcreated k hk)
    rw [harr, List.map_append, hmap, List.append_assoc, hextra, hlog, ← hremotes,
      List.append_assoc]
  · rw [harr, List.pairwise_append]
    refine ⟨hincreasing, ?_, fun k hk l hl => ?_⟩
    · unfold arrival
      split
      · next c' heq =>
        cases heq
        cases c.shared.pump <;> simp [PumpPc.announced]
      · exact List.Pairwise.nil
    · rw [(hnew l hl).1]
      exact hcreated k hk
  · rw [harr]
    intro k hk
    rcases List.mem_append.mp hk with hk | hk
    · exact Nat.lt_of_lt_of_le (hcreated k hk) hg.created
    · exact (hnew k hk).2
  · rw [hacc]
    exact hreturned

/-- A step of a call takes a Connection out of the queue, and returns it, or leaves the Connections
there. -/
theorem acceptance_thread {t' : Call} {x : CallStart ⊕ Choice}
    (h : callStep text i x c.shared (c.thread i) = some (s, t')) :
    (∃ k rest, acceptance (c, .thread i x) = [(i, k)] ∧ c.thread i = .accept .get ∧
      c.shared.peer.acceptQueue = some k :: rest ∧ s.peer.acceptQueue = rest ∧
      t' = .accept (.returned k)) ∨
    acceptance (c, .thread i x) = [] ∧
      s.peer.acceptQueue.filterMap id = c.shared.peer.acceptQueue.filterMap id ∧
      (∀ k, c.thread i ≠ .accept (.returned k)) ∧ ∀ k, t' ≠ .accept (.returned k) := by
  by_cases hacc : ∃ pc, c.thread i = .accept pc
  · obtain ⟨pc, hpc⟩ := hacc
    rw [hpc] at h
    rcases x with start | ch
    · cases h
    obtain ⟨⟨s₁, pc'⟩, hs, ht⟩ := Option.map_eq_some_iff.mp h
    cases ht
    cases pc <;> cases ch <;> simp only [acceptStep, reduceCtorEq] at hs
    case checkOpen.go =>
      cases hs
      refine Or.inr ⟨by simp [acceptance, hpc], rfl, by simp [hpc], ?_⟩
      split_ifs <;> simp
    case get.go =>
      split at hs <;> cases hs
      · next k rest hqueue =>
        exact Or.inl
          ⟨k, rest, by simp [acceptance, hpc, hqueue], hpc, hqueue, by simp [hqueue], rfl⟩
      · next rest hqueue =>
        exact Or.inr ⟨by simp [acceptance, hpc, hqueue], by simp [hqueue], by simp [hpc], by simp⟩
    case get.timeout =>
      cases hs
      exact Or.inr ⟨by simp [acceptance], rfl, by simp [hpc], by simp⟩
    case putBack.go =>
      cases hs
      exact Or.inr ⟨by simp [acceptance, hpc], by simp, by simp [hpc], by simp⟩
  · have hnot : ∀ pc, c.thread i ≠ .accept pc := fun pc hpc => hacc ⟨pc, hpc⟩
    have hmove := callStep_move h
    refine Or.inr ⟨?_, by rw [(hmove.effect.acceptQueue_same hnot).1], fun k => hnot _,
      fun k ht' => ?_⟩
    · unfold acceptance
      split
      · next c₁ i₁ heq =>
        cases heq
        split
        · next hpc _ => exact absurd hpc (hnot _)
        · rfl
      · rfl
    · by_cases hidle : c.thread i = .idle
      · rw [hidle] at hmove
        cases hmove with
        | begin start t h =>
          have hpc := startCall_accept h ht'
          cases hpc
      · exact hacc ((hmove.accept_iff hidle).mpr ⟨_, ht'⟩)

/-- Calls announce no remote and leave the pump alone. -/
theorem CallEffect.unannounced {t : Call} (h : CallEffect text i s t s') :
    s'.log.flatMap Event.incoming = s.log.flatMap Event.incoming ∧ s'.pump = s.pump := by
  cases h <;> simp [Event.incoming]

theorem AcceptOrder.thread {t' : Call} {x : CallStart ⊕ Choice} (hi : AcceptOrder tr c)
    (h : callStep text i x c.shared (c.thread i) = some (s, t'))
    (hg : c.shared.registry.Grows s.registry) :
    AcceptOrder (tr ++ [(c, .thread i x)]) (c.move i (s, t')) := by
  obtain ⟨horder, hremotes, hincreasing, hcreated, hreturned⟩ := hi
  obtain ⟨hlog, hpump⟩ := (callStep_effect h).unannounced
  have harr : (tr ++ [(c, Action.thread i x)]).flatMap arrival = tr.flatMap arrival := by
    simp [arrival]
  have hacc : (tr ++ [(c, Action.thread i x)]).flatMap acceptance =
      tr.flatMap acceptance ++ acceptance (c, .thread i x) := by simp
  have hcases := acceptance_thread h
  constructor
  · rw [harr, hacc, Config.move_shared, hpump, ← horder]
    rcases hcases with ⟨k, rest, hk, -, hqueue, hrest, -⟩ | ⟨hk, hitems, -, -⟩
    · simp [hk, Marked.items, hqueue, hrest]
    · simp only [hk, Marked.items, Sync.acceptQueue_queue, Config.move_shared, hitems,
        List.append_nil]
  · have hmap : (tr.flatMap arrival).map s.remote = (tr.flatMap arrival).map c.shared.remote :=
      List.map_congr_left fun k hk => remote_grows hg (hcreated k hk)
    rw [harr, Config.move_shared, hmap, hpump, hlog]
    exact hremotes
  · rw [harr]
    exact hincreasing
  · rw [harr]
    exact fun k hk => Nat.lt_of_lt_of_le (hcreated k hk) hg.created
  · intro j k
    rw [hacc, List.mem_append, ← hreturned, Config.move_thread]
    rcases hcases with ⟨l, rest, hl, hget, -, -, ht⟩ | ⟨hl, -, hold, hnew⟩
    · rw [hl, List.mem_singleton]
      split_ifs with hj
      · subst hj
        simp [ht, hget, eq_comm]
      · simp [hj]
    · rw [hl]
      split_ifs with hj
      · subst hj
        simp [hold, hnew]
      · simp

theorem trace_acceptOrder {q : Option Nat} {t₀ : Int}
    (h : Trace (sync text) anyStep (Sync.init q t₀) tr c) : AcceptOrder tr c := by
  refine h.invariant ?_ ?_
  · constructor <;> simp [Sync.init, State.init, Peer.init, Marked.items, PumpPc.accepting,
      PumpPc.announced]
  · intro tr c a c' htr _ hs hi
    have hg := (step_registry htr.reach hs).grows (reach_registryInv htr.reach).1.inv
    rcases System.step_cases hs with ⟨e, s, rfl, he, rfl⟩ | ⟨i, x, s, t, rfl, hx, rfl⟩
    · exact hi.shared (act_effect he) hg
    · exact hi.thread hx hg

/-- No two accepts return the same Connection. -/
theorem AcceptOrder.distinct (ho : AcceptOrder tr c) {j : CallId} {k : ConnId}
    (hi : c.thread i = .accept (.returned k)) (hj : c.thread j = .accept (.returned k)) :
    i = j := by
  have hnodup : ((tr.flatMap acceptance).map Prod.snd).Nodup := by
    have hall := ho.increasing.imp Nat.ne_of_lt
    rw [← ho.order, List.append_assoc] at hall
    exact (List.nodup_append.mp hall).1
  have hmi := (ho.returned i k).mp hi
  have hmj := (ho.returned j k).mp hj
  exact congrArg Prod.fst (List.inj_on_of_nodup_map hnodup hmi hmj rfl)

/-- What was accepted arrived before everything in the queue. -/
theorem AcceptOrder.below (ho : AcceptOrder tr c) {k k' : ConnId}
    (hi : c.thread i = .accept (.returned k)) (hk : some k' ∈ c.shared.peer.acceptQueue) :
    k < k' := by
  have hall := ho.increasing
  rw [← ho.order, List.append_assoc, List.pairwise_append] at hall
  refine hall.2.2 k (List.mem_map.mpr ⟨(i, k), (ho.returned i k).mp hi, rfl⟩) k' ?_
  exact List.mem_append_left _ (List.mem_filterMap.mpr ⟨some k', hk, rfl⟩)

/-! ## The end of a call -/

/-- How many steps an accept has at most before it. -/
def Call.acceptRank : Call → Nat
  | accept .checkOpen => 3
  | accept .get => 2
  | accept .putBack => 1
  | _ => 0

/-- The step is one of an accept that had begun in `c₀`. -/
def acceptorStep (c₀ : Sync) : Sync × SyncAction → Bool
  | (c, .thread i _) => 0 < (c.thread i).acceptRank && c₀.thread i ≠ .idle
  | _ => false

/-- Every step of an accept brings it closer to its end. -/
theorem CallMove.acceptRank {t t' : Call} (h : CallMove text i s t s' t') (hidle : t ≠ .idle) :
    t'.acceptRank ≤ t.acceptRank ∧ (0 < t.acceptRank → t'.acceptRank < t.acceptRank) := by
  cases h with
  | begin => exact absurd rfl hidle
  | accept pc pc' s' h => cases h <;> simp [Call.acceptRank]
  | _ => exact ⟨Nat.le_refl 0, fun h => absurd h (Nat.lt_irrefl 0)⟩

theorem CallMove.ne_idle {t t' : Call} (h : CallMove text i s t s' t') : t' ≠ .idle := by
  cases h with
  | begin start t h =>
    rintro rfl
    cases start <;> simp [startCall] at h
  | _ => simp

theorem reach_finite {q : Option Nat} {t₀ : Int}
    (h : Reach (sync text) anyStep (Sync.init q t₀) c) : ∃ n, ∀ i, n ≤ i → c.thread i = .idle := by
  induction h with
  | start => exact ⟨0, fun _ _ => rfl⟩
  | step _ _ hs ih =>
    obtain ⟨n, hn⟩ := ih
    rcases System.step_cases hs with ⟨e, s, rfl, -, rfl⟩ | ⟨i, x, s, t, rfl, -, rfl⟩
    · exact ⟨n, hn⟩
    · refine ⟨max n (i + 1), fun j hj => ?_⟩
      rw [Config.move_thread_of_ne]
      · exact hn j (Nat.le_trans (Nat.le_max_left _ _) hj)
      · have hle := Nat.le_trans (Nat.le_max_right n (i + 1)) hj
        omega

/-- The accepts that had begun in `c₀` use up their ranks. -/
theorem trace_acceptRank {c₀ : Sync} {n : Nat} (hn : ∀ i, n ≤ i → c₀.thread i = .idle)
    (h : Trace (sync text) anyStep c₀ tr c) :
    (∀ i, c₀.thread i ≠ .idle → c.thread i ≠ .idle) ∧
    (∑ i ∈ (Finset.range n).filter (fun i => c₀.thread i ≠ .idle), (c.thread i).acceptRank) +
        tr.countP (acceptorStep c₀) ≤
      ∑ i ∈ (Finset.range n).filter (fun i => c₀.thread i ≠ .idle), (c₀.thread i).acceptRank := by
  refine h.invariant (I := fun tr c => (∀ i, c₀.thread i ≠ .idle → Config.thread c i ≠ .idle) ∧
    (∑ i ∈ (Finset.range n).filter (fun i => c₀.thread i ≠ .idle), (Config.thread c i).acceptRank) +
        tr.countP (acceptorStep c₀) ≤
      ∑ i ∈ (Finset.range n).filter (fun i => c₀.thread i ≠ .idle), (c₀.thread i).acceptRank)
    ⟨fun _ => id, Nat.le_refl _⟩ ?_
  intro tr c a c' _ _ hs ⟨hbegun, hle⟩
  rw [List.countP_append, List.countP_singleton]
  rcases System.step_cases hs with ⟨e, s, rfl, -, rfl⟩ | ⟨i, x, s, t, rfl, hx, rfl⟩
  · exact ⟨hbegun, hle⟩
  have hmove := callStep_move hx
  refine ⟨fun j hj => ?_, ?_⟩
  · rw [Config.move_thread]
    split_ifs
    · exact hmove.ne_idle
    · exact hbegun j hj
  · have hrank : ∀ j ∈ (Finset.range n).filter (fun i => c₀.thread i ≠ .idle),
        ((c.move i (s, t)).thread j).acceptRank ≤ (c.thread j).acceptRank := by
      intro j hj
      rw [Config.move_thread]
      split_ifs with hji
      · subst hji
        exact (hmove.acceptRank (hbegun j (Finset.mem_filter.mp hj).2)).1
      · exact Nat.le_refl _
    have hsum := Finset.sum_le_sum hrank
    split_ifs with hstep
    · simp only [acceptorStep, Bool.and_eq_true, decide_eq_true_eq] at hstep
      obtain ⟨hlive, hi⟩ := hstep
      have hmem : i ∈ (Finset.range n).filter (fun i => c₀.thread i ≠ .idle) := by
        refine Finset.mem_filter.mpr ⟨Finset.mem_range.mpr ?_, hi⟩
        by_contra hni
        exact hi (hn i (Nat.le_of_not_lt hni))
      have hlt := Finset.sum_lt_sum hrank ⟨i, hmem, by
        rw [Config.move_thread_self]
        exact (hmove.acceptRank (hbegun i hi)).2 hlive⟩
      omega
    · omega

theorem reach_done {q : Option Nat} {t₀ : Int} (h : Reach (sync text) anyStep (Sync.init q t₀) c)
    (h' : Reach (sync text) anyStep c c') (hdone : c.shared.teardown = .done) :
    c'.shared.teardown = .done := by
  refine h'.invariant (I := fun c => c.shared.teardown = .done) hdone ?_
  intro d a d' hr hok hs hdone
  have hclosed : d.shared.peer.closed = true :=
    (reach_shutdownInv (h.trans hr)).begun.mpr (by simp [hdone])
  rcases System.step_cases hs with ⟨e, s, rfl, he, rfl⟩ | ⟨i, x, s, t, rfl, hx, rfl⟩
  · have heff := act_effect he
    clear he hs hok
    cases heff
    case fail detail hp hopen =>
      rw [hclosed] at hopen
      cases hopen
    all_goals simp_all
  · cases callStep_effect hx with
    | beginClose hopen =>
      rw [hclosed] at hopen
      cases hopen
    | _ => exact hdone

/-- Once the closer is done, an accept that has not ended, or else the one that holds the sentinel,
can take a step. -/
theorem exists_acceptStep {q : Option Nat} {t₀ : Int}
    (h : Reach (sync text) anyStep (Sync.init q t₀) c) (hdone : c.shared.teardown = .done)
    (hi : 0 < (c.thread i).acceptRank) :
    ∃ j c', (j = i ∨ c.thread j = .accept .putBack) ∧
      (sync text).step c (.thread j (.inr .go)) = some c' := by
  have hmarked := reach_marked h
  have hput : c.acceptQueue.marked := (reach_sentinelDone h).mpr hdone
  have hstep : ∀ j pc, c.thread j = .accept pc → (acceptStep c.shared pc .go).isSome →
      ∃ c', (sync text).step c (.thread j (.inr .go)) = some c' := by
    intro j pc hj hsome
    obtain ⟨r, hr⟩ := Option.isSome_iff_exists.mp hsome
    exact ⟨c.move j (r.1, .accept r.2), by simp [sync, System.step, callStep, hj, hr]⟩
  cases hpc : c.thread i with
  | accept pc =>
    cases pc with
    | checkOpen =>
      obtain ⟨c', hc'⟩ := hstep i _ hpc rfl
      exact ⟨i, c', Or.inl rfl, hc'⟩
    | putBack =>
      obtain ⟨c', hc'⟩ := hstep i _ hpc rfl
      exact ⟨i, c', Or.inl rfl, hc'⟩
    | get =>
      cases hqueue : c.shared.peer.acceptQueue with
      | nil =>
        -- somebody else holds the sentinel and will put it back
        obtain ⟨j, hj⟩ := hmarked.exists_held hput hqueue
        have hj : j ∈ c.acceptQueue.held := by simp only [hj, Set.mem_singleton_iff]
        obtain ⟨c', hc'⟩ := hstep j _ hj rfl
        exact ⟨j, c', Or.inr hj, hc'⟩
      | cons x rest =>
        obtain ⟨c', hc'⟩ := hstep i _ hpc (by cases x <;> simp [acceptStep, hqueue])
        exact ⟨i, c', Or.inl rfl, hc'⟩
    | returned | raised => simp [hpc, Call.acceptRank] at hi
  | _ => simp [hpc, Call.acceptRank] at hi

theorem reach_acceptRaised {q : Option Nat} {t₀ : Int}
    (h : Reach (sync text) anyStep (Sync.init q t₀) c) (i : CallId) (e : Error)
    (hi : c.thread i = .accept (.raised e)) :
    e = peerIsClosed ∨ e = .timeout "accept timed out" := by
  refine (h.outline (G := fun _ => True) (L := fun _ _ t => ∀ e, t = .accept (.raised e) →
    e = peerIsClosed ∨ e = .timeout "accept timed out") trivial (fun _ _ h => by cases h) ?_ ?_).2
      i e hi
  · exact fun _ _ _ _ _ _ _ => ⟨trivial, fun _ _ => id⟩
  · intro c j x s t _ _ hs _ ht
    refine ⟨trivial, fun e he => ?_, fun _ _ _ => id⟩
    generalize hcall : c.thread j = call at hs ht
    have hmove := callStep_move hs
    cases hmove with
    | begin start t h =>
      have hpc := startCall_accept h he
      cases hpc
    | accept pc pc' s' h =>
      cases h <;> cases he
      · exact Or.inl rfl
      · exact Or.inr rfl
      · exact Or.inl rfl
    | _ => cases he

/-! ## Accepting -/

/-- What acceptors get, after a run with the steps `tr` that led to `c`. -/
structure AcceptSound (text : SystemAddress → String) (tr : List (Sync × SyncAction)) (c : Sync) :
    Prop where
  /-- The Connections taken, those in the queue and the one the pump is about to put are the
  incoming ones, in order of arrival. -/
  order : (tr.flatMap acceptance).map Prod.snd ++ c.shared.peer.acceptQueue.filterMap id ++
    c.shared.pump.accepting = tr.flatMap arrival
  /-- The incoming Connections are those of the packets that announced one. -/
  remotes : (tr.flatMap arrival).map c.shared.remote ++ c.shared.pump.announced =
    c.shared.log.flatMap Event.incoming
  once : (tr.flatMap arrival).Nodup
  returned : ∀ i k, c.thread i = .accept (.returned k) ↔ (i, k) ∈ tr.flatMap acceptance
  raised : ∀ i e, c.thread i = .accept (.raised e) →
    e = peerIsClosed ∨ e = .timeout "accept timed out"
  /-- Before the closer is done there is no sentinel. -/
  unput : c.shared.teardown ≠ .done →
    none ∉ c.shared.peer.acceptQueue ∧ ∀ i, c.thread i ≠ .accept .putBack
  /-- Afterwards there is one: behind everything in the queue, or in the hands of one acceptor. -/
  sentinel : c.shared.teardown = .done →
    (∃ l : List ConnId, c.shared.peer.acceptQueue = l.map some ++ [none]) ∧
      (∀ i, c.thread i ≠ .accept .putBack) ∨
    c.shared.peer.acceptQueue = [] ∧ ∃ i, ∀ j, c.thread j = .accept .putBack ↔ j = i
  /-- From then on the accepts that have begun take a bounded number of steps in all, and as long as
  one of them has not ended, one of them can take a step. -/
  ends : c.shared.teardown = .done → ∃ n, ∀ tr' d, Trace (sync text) anyStep c tr' d →
    tr'.countP (acceptorStep c) ≤ n ∧
    ∀ i, c.thread i ≠ .idle → 0 < (d.thread i).acceptRank →
      ∃ j d', acceptorStep c (d, .thread j (.inr .go)) = true ∧
        (sync text).step d (.thread j (.inr .go)) = some d'

/-- **Accepting.** Every incoming Connection is handed out at most once, in order of arrival. Once
the closer is done there is one sentinel behind every Connection, and every accept ends. -/
theorem accept_sound {q : Option Nat} {t₀ : Int}
    (h : Trace (sync text) anyStep (Sync.init q t₀) tr c) : AcceptSound text tr c := by
  have hi := trace_acceptOrder h
  have hm := reach_marked h.reach
  have hd := reach_sentinelDone h.reach
  constructor
  case order => exact hi.order
  case remotes => exact hi.remotes
  case once => exact hi.increasing.imp Nat.ne_of_lt
  case returned => exact hi.returned
  case raised => exact reach_acceptRaised h.reach
  case unput =>
    intro hdone
    obtain ⟨⟨l, hl⟩, hheld⟩ := hm.unmarked (mt hd.mp hdone)
    rw [Sync.acceptQueue_queue] at hl
    refine ⟨by simp [hl], fun i hi => ?_⟩
    have hmem : i ∈ c.acceptQueue.held := hi
    rw [hheld] at hmem
    exact hmem
  case sentinel =>
    intro hdone
    rcases hm.marked (hd.mpr hdone) with ⟨⟨l, hl⟩, hheld⟩ | ⟨hnil, i, hheld⟩
    · refine Or.inl ⟨⟨l, hl⟩, fun i hi => ?_⟩
      have hmem : i ∈ c.acceptQueue.held := hi
      rw [hheld] at hmem
      exact hmem
    · refine Or.inr ⟨hnil, i, fun j => ?_⟩
      have hmem : j ∈ c.acceptQueue.held ↔ j = i := by rw [hheld, Set.mem_singleton_iff]
      exact hmem
  case ends =>
    intro hdone
    obtain ⟨n, hn⟩ := reach_finite h.reach
    refine ⟨_, fun tr' d hd' =>
      ⟨Nat.le_trans (Nat.le_add_left _ _) (trace_acceptRank hn hd').2, fun i hbegun hlive => ?_⟩⟩
    obtain ⟨j, d', hj, hs⟩ :=
      exists_acceptStep (h.reach.trans hd'.reach) (reach_done h.reach hd'.reach hdone) hlive
    refine ⟨j, d', ?_, hs⟩
    rcases hj with rfl | hj
    · simp [acceptorStep, hlive, hbegun]
    · -- a call that begins now does not get as far as the queue
      have hclosed : c.shared.peer.closed = true :=
        (reach_shutdownInv h.reach).begun.mpr (by simp [hdone])
      have hbegun' : c.thread j ≠ .idle := by
        intro hidle
        have hrefused := (reach_refused hclosed hidle hd'.reach).2
        rw [hj] at hrefused
        cases hrefused
      simp [acceptorStep, hj, hbegun', Call.acceptRank]

/-- Three calls accept while one client connects, and the Peer is closed: one gets the client, and
the sentinel goes through the hands of another. -/
theorem accept_sound_three :
    ∃ tr c, Trace (sync SystemAddress.text) anyStep (Sync.init none 0) tr c ∧
      AcceptSound SystemAddress.text tr c ∧ c.shared.teardown = .done ∧
      c.thread 0 = .accept (.returned 0) ∧ (0, 0) ∈ tr.flatMap acceptance ∧
      c.thread 1 = .accept .putBack ∧ c.thread 2 = .accept .get := by
  have h : Reach (sync SystemAddress.text) anyStep (Sync.init none 0) _ :=
    .of_exec (show (sync SystemAddress.text).exec anyStep
      ([.thread 0 (.inl .accept), .thread 1 (.inl .accept), .thread 2 (.inl .accept)] ++
        steps 0 1 ++ steps 1 1 ++ steps 2 1 ++ routes ⟨⟨"10.0.0.1", 1⟩, 7, [19]⟩ 4 ++
        .thread 3 (.inl .closePeer) :: steps 3 1 ++ pumps 1 ++ closes 8 ++ steps 0 1 ++ steps 1 1)
      (Sync.init none 0) = some _ from rfl)
  obtain ⟨tr, htr⟩ := h.exists_trace
  have hsound := accept_sound htr
  exact ⟨tr, _, htr, hsound, rfl, rfl, (hsound.returned 0 0).mp rfl, rfl, rfl⟩

end Raknet
