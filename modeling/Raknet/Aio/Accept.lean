import Raknet.Aio.Teardown

/-!
# The accept queue of an asyncio Peer

The pump puts incoming Connections into the accept queue, from its own thread, and tasks take them
out. A task can be cancelled while it waits for one. The accepts alone, without the other tasks,
are accepts of a sync Peer that sometimes end early (`Aio.acceptors`).

**Theorem (`aio_accept_sound`).** Every incoming Connection is handed out at most once, in order of
arrival, and a cancelled accept has taken none. Once the closer is done there is one sentinel,
behind every Connection, and as long as an accept has not ended one of them can go on.
-/

namespace Raknet

open Interleaving

variable {text : SystemAddress → String} {s s' : State} {c c' : Aio} {i : CallId}
  {tr : List (Aio × AioAction)}

/-! ## The tasks that accept -/

/-- The sync call at whose program counter an accept is. -/
def Task.acceptor : Task → Call
  | accept pc => .accept pc
  | _ => .idle

/-- The Peer with its accepts alone. -/
def Aio.acceptors (c : Aio) : Sync := ⟨c.shared, fun i => (c.thread i).acceptor⟩

/-- A step, as one of the accepts alone. -/
def Aio.alone : Aio × AioAction → Sync × SyncAction
  | (c, .shared e) => (c.acceptors, .shared e)
  | (c, .thread i (.inr .go)) => (c.acceptors, .thread i (.inr .go))
  | (c, .thread i _) => (c.acceptors, .thread i (.inr .timeout))

@[simp] theorem Aio.acceptors_shared (c : Aio) : c.acceptors.shared = c.shared := rfl

@[simp] theorem Aio.acceptors_thread (c : Aio) (i : CallId) :
    c.acceptors.thread i = (c.thread i).acceptor := rfl

theorem Task.acceptor_eq {t : Task} {pc : AcceptPc} : t.acceptor = .accept pc ↔ t = .accept pc := by
  cases t <;> simp [Task.acceptor]

theorem Aio.acceptors_move (c : Aio) (i : CallId) (s : State) (t : Task) :
    Aio.acceptors (c.move i (s, t)) = c.acceptors.move i (s, t.acceptor) := by
  refine Config.ext rfl (funext fun j => ?_)
  show ((c.move i (s, t)).thread j).acceptor = _
  rw [Config.move_thread, Config.move_thread]
  split_ifs <;> rfl

/-- A task that neither holds the sentinel nor has a Connection. -/
def Task.Emptyhanded (t : Task) : Prop :=
  t ≠ .accept .putBack ∧ ∀ k, t ≠ .accept (.returned k)

/-- The tasks that accept nothing leave the queue alone. -/
theorem TaskEffect.acceptQueue_same {t : Task} (h : TaskEffect text i s t s')
    (ht : ∀ pc, t ≠ .accept pc) : s'.peer.acceptQueue = s.peer.acceptQueue := by
  cases h with
  | worker s' h =>
    refine (h.acceptQueue_same ?_).1
    unfold Task.workerCall
    split <;> simp
  | task s' h =>
    refine (h.acceptQueue_same ?_).1
    unfold Task.taskCall
    split <;> simp_all
  | cancelClose snap h => rfl

/-- Tasks other than the closer put no sentinel, announce no remote and leave the pump alone. -/
theorem TaskEffect.unannounced {t : Task} (h : TaskEffect text i s t s') :
    (.sentinel ∈ s'.log ↔ .sentinel ∈ s.log) ∧
      s'.log.flatMap Event.incoming = s.log.flatMap Event.incoming ∧ s'.pump = s.pump := by
  cases h with
  | worker s' h | task s' h => exact ⟨by cases h <;> simp, h.unannounced⟩
  | cancelClose snap h => exact ⟨Iff.rfl, rfl, rfl⟩

/-- A step of a task is one of its accept, or changes nothing about the accepts that have something
in their hands. -/
theorem TaskMove.accepting {t t' : Task} {x : CallStart ⊕ TaskChoice}
    (h : TaskMove text i s t x s' t') :
    (∃ pc pc', t = .accept pc ∧ t' = .accept pc' ∧ x = .inr .go ∧
      acceptStep s pc .go = some (s', pc')) ∨
    s'.peer.acceptQueue = s.peer.acceptQueue ∧ t.Emptyhanded ∧ t'.Emptyhanded ∧
      (x = .inr .go → ∀ pc, t ≠ .accept pc) := by
  by_cases hacc : ∃ pc, t = .accept pc
  · cases h with
    | begin => simp at hacc
    | accept pc pc' s' h => exact Or.inl ⟨pc, pc', rfl, rfl, rfl, h⟩
    | cancelAccept => exact Or.inr ⟨rfl, by simp [Task.Emptyhanded],
        by simp [Task.Emptyhanded], by simp⟩
    | _ => simp at hacc
  · have hnot : ∀ pc, t ≠ .accept pc := fun pc hpc => hacc ⟨pc, hpc⟩
    refine Or.inr ⟨h.effect.acceptQueue_same hnot, ⟨hnot _, fun k => hnot _⟩, ?_, fun _ => hnot⟩
    cases h with
    | begin start t h =>
      cases start <;> simp only [startTask] at h
      case close k notify =>
        split_ifs at h
        cases h
        simp [Task.Emptyhanded]
      all_goals
        cases h
        simp [Task.Emptyhanded]
    | accept pc pc' s' h => exact absurd rfl (hnot pc)
    | _ => simp [Task.Emptyhanded]

/-! ## The sentinel -/

theorem reach_aioMarked {ok : Aio → AioAction → Prop} {q : Option Nat} {t₀ : Int}
    (h : Reach (aio text) ok (Aio.init q t₀) c) : c.acceptors.acceptQueue.Inv := by
  refine h.invariant (I := fun c => (Aio.acceptors c).acceptQueue.Inv) ?_ ?_
  · refine Marked.inv_of_empty rfl (by simp [Aio.init, State.init]) ?_
    ext j
    simp [Aio.init, Task.acceptor]
  · intro c a c' hr _ hs hi
    rcases System.step_cases hs with ⟨e, s, rfl, he, rfl⟩ | ⟨i, x, s, t, rfl, hx, rfl⟩
    · have heff : ActEffect text (Aio.acceptors c).shared e s := act_effect he
      exact (heff.acceptQueue (reach_aioShutdown hr).toShutdownInv (reach_aioSentinel hr)).inv hi
    · have hmove := taskStep_move hx
      rw [Aio.acceptors_move]
      rcases hmove.accepting with ⟨pc, pc', ht, rfl, -, hacc⟩ | ⟨hqueue, ht, ht', -⟩
      · have hcall : CallMove text i c.shared (.accept pc) s (.accept pc') :=
          .accept _ _ _ (acceptStep_acceptEffect hacc)
        exact (hcall.acceptQueue (Task.acceptor_eq.mpr ht)).inv hi
      · refine (acceptQueue_skip hqueue hmove.effect.unannounced.1 fun j => ?_).inv hi
        rw [Config.move_thread]
        split_ifs with hj
        · subst hj
          exact iff_of_false (mt Task.acceptor_eq.mp ht'.1) (mt Task.acceptor_eq.mp ht.1)
        · exact Iff.rfl

/-! ## The order -/

/-- The Connection that a step constructs in `incoming_connection`. -/
def Aio.arrival : Aio × AioAction → List ConnId
  | (c, .shared .pump) => c.shared.pump.announced.map fun _ => c.shared.peer.created
  | _ => []

/-- What a step of an `accept` takes out of the queue, and which task does. -/
def Aio.acceptance : Aio × AioAction → List (CallId × ConnId)
  | (c, .thread i (.inr .go)) =>
    match c.thread i, c.shared.peer.acceptQueue with
    | .accept .get, some k :: _ => [(i, k)]
    | _, _ => []
  | _ => []

theorem arrival_alone (x : Aio × AioAction) : arrival (Aio.alone x) = Aio.arrival x := by
  obtain ⟨c, e | ⟨i, _ | _ | _ | _⟩⟩ := x
  · cases e <;> rfl
  all_goals rfl

theorem acceptance_alone (x : Aio × AioAction) :
    acceptance (Aio.alone x) = Aio.acceptance x := by
  obtain ⟨c, e | ⟨i, _ | _ | _ | _⟩⟩ := x
  case thread.inr.go =>
    simp only [Aio.alone, acceptance, Aio.acceptance, Aio.acceptors_thread,
      Aio.acceptors_shared]
    generalize c.shared.peer.acceptQueue = queue
    cases c.thread i with
    | accept pc => rcases queue with _ | ⟨_ | k, rest⟩ <;> cases pc <;> rfl
    | _ => rfl
  all_goals rfl

theorem AcceptOrder.keep {tr : List (Sync × SyncAction)} {c c' : Sync} {x : Sync × SyncAction}
    (hi : AcceptOrder tr c) (harr : arrival x = []) (hacc : acceptance x = [])
    (hqueue : c'.shared.peer.acceptQueue = c.shared.peer.acceptQueue)
    (hpump : c'.shared.pump = c.shared.pump)
    (hlog : c'.shared.log.flatMap Event.incoming = c.shared.log.flatMap Event.incoming)
    (hg : c.shared.registry.Grows c'.shared.registry)
    (hthread : ∀ i k, c'.thread i = .accept (.returned k) ↔ c.thread i = .accept (.returned k)) :
    AcceptOrder (tr ++ [x]) c' := by
  have harr' : (tr ++ [x]).flatMap arrival = tr.flatMap arrival := by simp [harr]
  have hacc' : (tr ++ [x]).flatMap acceptance = tr.flatMap acceptance := by simp [hacc]
  have hmap : (tr.flatMap arrival).map c'.shared.remote =
      (tr.flatMap arrival).map c.shared.remote :=
    List.map_congr_left fun k hk => remote_grows hg (hi.created k hk)
  constructor
  · rw [harr', hacc', hpump, ← hi.order]
    simp only [Marked.items, Sync.acceptQueue_queue, hqueue]
  · rw [harr', hmap, hpump, hlog]
    exact hi.remotes
  · rw [harr']
    exact hi.increasing
  · rw [harr']
    exact fun k hk => Nat.lt_of_lt_of_le (hi.created k hk) hg.created
  · intro i k
    rw [hacc', hthread]
    exact hi.returned i k

/-- The accepts of an asyncio Peer get the Connections in the order of those of a sync Peer. -/
theorem trace_aioAcceptOrder {q : Option Nat} {t₀ : Int}
    (h : Trace (aio text) anyStep (Aio.init q t₀) tr c) :
    AcceptOrder (tr.map Aio.alone) c.acceptors := by
  refine h.invariant (I := fun tr c => AcceptOrder (tr.map Aio.alone) (Aio.acceptors c)) ?_ ?_
  · constructor <;> simp [Aio.init, State.init, Peer.init, Marked.items, PumpPc.accepting,
      PumpPc.announced, Task.acceptor]
  intro tr c a c' htr _ hs hi
  have hg := (step_aioRegistry htr.reach hs).grows (reach_aioRegistry htr.reach).1.inv
  rw [List.map_append, List.map_singleton]
  rcases System.step_cases hs with ⟨e, s, rfl, he, rfl⟩ | ⟨i, x, s, t, rfl, hx, rfl⟩
  · have heff : ActEffect text (Aio.acceptors c).shared e s := act_effect he
    exact hi.shared heff hg
  have hmove := taskStep_move hx
  obtain ⟨-, hlog, hpump⟩ := hmove.effect.unannounced
  rcases hmove.accepting with ⟨pc, pc', ht, rfl, rfl, hacc⟩ | ⟨hqueue, ht, ht', hx⟩
  · rw [Aio.acceptors_move]
    have hcall : callStep text i (.inr .go) (Aio.acceptors c).shared ((Aio.acceptors c).thread i) =
        some (s, .accept pc') := by
      rw [Aio.acceptors_thread, Task.acceptor_eq.mpr ht]
      simp only [callStep, Aio.acceptors_shared, hacc]
      rfl
    exact hi.thread hcall hg
  · refine hi.keep ?_ ?_ hqueue hpump hlog hg fun j k => ?_
    · rw [arrival_alone]
      rfl
    · rw [acceptance_alone]
      unfold Aio.acceptance
      split
      · next heq =>
        cases heq
        split
        · next hpc _ => exact absurd hpc (hx rfl _)
        · rfl
      · rfl
    · show ((c.move i (s, t)).thread j).acceptor = _ ↔ _
      rw [Config.move_thread]
      split_ifs with hj
      · subst hj
        exact iff_of_false (mt Task.acceptor_eq.mp (ht'.2 k)) (mt Task.acceptor_eq.mp (ht.2 k))
      · exact Iff.rfl

/-! ## The end of an accept -/

theorem TaskEffect.closed_kept {t : Task} (h : TaskEffect text i s t s')
    (hclosed : s.peer.closed = true) : s'.peer.closed = true := by
  cases h with
  | worker s' h | task s' h => exact h.closed_kept hclosed
  | cancelClose snap h => exact hclosed

theorem step_aioClosed {a : AioAction} (hs : (aio text).step c a = some c')
    (hclosed : c.shared.peer.closed = true) : c'.shared.peer.closed = true := by
  rcases System.step_cases hs with ⟨e, s, rfl, he, rfl⟩ | ⟨i, x, s, t, rfl, hx, rfl⟩
  · exact (act_effect he).closed_kept hclosed
  · exact (taskStep_move hx).effect.closed_kept hclosed

/-- How an accept ends that does not return and is not cancelled. -/
theorem reach_aioAcceptRaised {ok : Aio → AioAction → Prop} {q : Option Nat} {t₀ : Int}
    (h : Reach (aio text) ok (Aio.init q t₀) c) (i : CallId) (e : Error)
    (hi : c.thread i = .accept (.raised e)) : e = peerIsClosed ∧ c.shared.peer.closed = true := by
  refine h.invariant (I := fun c => ∀ i e, c.thread i = .accept (.raised e) →
    e = peerIsClosed ∧ c.shared.peer.closed = true)
      (fun i e hi => by simp [Aio.init] at hi) ?_ i e hi
  intro c a c' hr _ hs hi j e hj
  have hclosed : c.shared.peer.closed = true → c'.shared.peer.closed = true :=
    fun hclosed => step_aioClosed hs hclosed
  rcases System.step_cases hs with ⟨e', s, rfl, he, rfl⟩ | ⟨i, x, s, t, rfl, hx, rfl⟩
  · exact (hi j e hj).imp_right hclosed
  rw [Config.move_thread] at hj
  split_ifs at hj with hji
  · subst hji hj
    have hmove := taskStep_move hx
    generalize hcall : c.thread j = call at hmove
    cases hmove with
    | begin start t h =>
      cases start <;> simp only [startTask, Option.some.injEq, reduceCtorEq] at h
      case accept => cases h
      case close k notify => split_ifs at h; cases h
    | accept pc pc' s' h =>
      cases acceptStep_acceptEffect h with
      | refused hc => exact ⟨rfl, hc⟩
      | timeout => simp only [acceptStep] at h; split at h <;> simp at h
      | putBack =>
        -- the sentinel was put when the closer was done
        have hheld : j ∈ (Aio.acceptors c).acceptQueue.held := Task.acceptor_eq.mpr hcall
        have hput := (reach_aioMarked hr).marked_of_mem (Or.inr ⟨j, hheld⟩)
        have hdone := (reach_aioSentinel hr).mp hput
        exact ⟨rfl, (reach_aioShutdown hr).begun.mpr (by simp [hdone])⟩
  · exact (hi j e hj).imp_right hclosed

/-- An accept that has not ended. -/
def Task.waits : Task → Bool
  | accept .checkOpen | accept .get | accept .putBack => true
  | _ => false

/-- Once the closer is done, an accept that has not ended, or else the one that holds the sentinel,
can take a step. -/
theorem exists_aioAcceptStep {ok : Aio → AioAction → Prop} {q : Option Nat} {t₀ : Int}
    (h : Reach (aio text) ok (Aio.init q t₀) c) (hdone : c.shared.teardown = .done)
    (hi : (c.thread i).waits = true) :
    ∃ j c', (c.thread j).waits = true ∧ (aio text).step c (.thread j (.inr .go)) = some c' := by
  have hmarked := reach_aioMarked h
  have hput : c.acceptors.acceptQueue.marked := (reach_aioSentinel h).mpr hdone
  have hstep : ∀ j pc, c.thread j = .accept pc → (c.thread j).waits = true →
      (acceptStep c.shared pc .go).isSome → ∃ j c', (c.thread j).waits = true ∧
        (aio text).step c (.thread j (.inr .go)) = some c' := by
    intro j pc hj hwaits hsome
    obtain ⟨r, hr⟩ := Option.isSome_iff_exists.mp hsome
    exact ⟨j, c.move j (r.1, .accept r.2), hwaits, by simp [aio, System.step, taskStep, hj, hr]⟩
  cases hpc : c.thread i with
  | accept pc =>
    cases pc with
    | checkOpen | putBack => exact hstep i _ hpc hi rfl
    | get =>
      cases hqueue : c.shared.peer.acceptQueue with
      | nil =>
        -- somebody else holds the sentinel and will put it back
        obtain ⟨j, hj⟩ := hmarked.exists_held hput hqueue
        have hmem : j ∈ c.acceptors.acceptQueue.held := by simp only [hj, Set.mem_singleton_iff]
        have hj := Task.acceptor_eq.mp hmem
        exact hstep j _ hj (by rw [hj]; rfl) rfl
      | cons x rest => exact hstep i _ hpc hi (by cases x <;> simp [acceptStep, hqueue])
    | returned | raised => simp [hpc, Task.waits] at hi
  | _ => simp [hpc, Task.waits] at hi

/-! ## Accepting -/

/-- What accepts get, after a run with the steps `tr` that led to `c`. -/
structure AioAcceptSound (text : SystemAddress → String) (tr : List (Aio × AioAction)) (c : Aio) :
    Prop where
  /-- The Connections taken, those in the queue and the one the pump is about to put are the
  incoming ones, in order of arrival. -/
  order : (tr.flatMap Aio.acceptance).map Prod.snd ++ c.shared.peer.acceptQueue.filterMap id ++
    c.shared.pump.accepting = tr.flatMap Aio.arrival
  /-- The incoming Connections are those of the packets that announced one. -/
  remotes : (tr.flatMap Aio.arrival).map c.shared.remote ++ c.shared.pump.announced =
    c.shared.log.flatMap Event.incoming
  once : (tr.flatMap Aio.arrival).Nodup
  /-- Who took a Connection returned it: a cancelled accept has taken none. -/
  returned : ∀ i k, c.thread i = .accept (.returned k) ↔ (i, k) ∈ tr.flatMap Aio.acceptance
  raised : ∀ i e, c.thread i = .accept (.raised e) →
    e = peerIsClosed ∧ c.shared.peer.closed = true
  /-- Before the closer is done there is no sentinel. -/
  unput : c.shared.teardown ≠ .done →
    none ∉ c.shared.peer.acceptQueue ∧ ∀ i, c.thread i ≠ .accept .putBack
  /-- Afterwards there is one: behind everything in the queue, or in the hands of one acceptor. -/
  sentinel : c.shared.teardown = .done →
    (∃ l : List ConnId, c.shared.peer.acceptQueue = l.map some ++ [none]) ∧
      (∀ i, c.thread i ≠ .accept .putBack) ∨
    c.shared.peer.acceptQueue = [] ∧ ∃ i, ∀ j, c.thread j = .accept .putBack ↔ j = i
  /-- From then on, as long as an accept has not ended, one of them can go on. -/
  ends : c.shared.teardown = .done → ∀ i, (c.thread i).waits = true →
    ∃ j c', (c.thread j).waits = true ∧ (aio text).step c (.thread j (.inr .go)) = some c'

/-- **Accepting.** Every incoming Connection is handed out at most once, in order of arrival,
however accepts are cancelled. Once the closer is done there is one sentinel behind every
Connection, and accepts can go on until they have all ended. -/
theorem aio_accept_sound {q : Option Nat} {t₀ : Int}
    (h : Trace (aio text) anyStep (Aio.init q t₀) tr c) : AioAcceptSound text tr c := by
  have hi := trace_aioAcceptOrder h
  have hm := reach_aioMarked h.reach
  have hd := reach_aioSentinel h.reach
  have harr : (tr.map Aio.alone).flatMap arrival = tr.flatMap Aio.arrival := by
    rw [List.flatMap_map]
    exact List.flatMap_congr fun x _ => arrival_alone x
  have hacc : (tr.map Aio.alone).flatMap acceptance = tr.flatMap Aio.acceptance := by
    rw [List.flatMap_map]
    exact List.flatMap_congr fun x _ => acceptance_alone x
  constructor
  case order =>
    rw [← hacc, ← harr]
    exact hi.order
  case remotes =>
    rw [← harr]
    exact hi.remotes
  case once =>
    rw [← harr]
    exact hi.increasing.imp Nat.ne_of_lt
  case returned =>
    intro i k
    rw [← hacc, ← hi.returned]
    exact Task.acceptor_eq.symm
  case raised => exact reach_aioAcceptRaised h.reach
  case unput =>
    intro hdone
    have hunmarked : ¬ c.acceptors.acceptQueue.marked := mt hd.mp hdone
    refine ⟨fun hmem => hunmarked (hm.marked_of_mem (Or.inl hmem)), fun i hi => ?_⟩
    exact hunmarked (hm.marked_of_mem (Or.inr ⟨i, Task.acceptor_eq.mpr hi⟩))
  case sentinel =>
    intro hdone
    rcases hm.marked (hd.mpr hdone) with ⟨⟨l, hl⟩, hheld⟩ | ⟨hnil, i, hheld⟩
    · refine Or.inl ⟨⟨l, hl⟩, fun i hi => ?_⟩
      have hmem : i ∈ c.acceptors.acceptQueue.held := Task.acceptor_eq.mpr hi
      rw [hheld] at hmem
      exact hmem
    · refine Or.inr ⟨hnil, i, fun j => ?_⟩
      have hmem : j ∈ c.acceptors.acceptQueue.held ↔ j = i := by
        rw [hheld, Set.mem_singleton_iff]
      exact Task.acceptor_eq.symm.trans hmem
  case ends => exact fun hdone i => exists_aioAcceptStep h.reach hdone

/-- Two tasks accept, the first is cancelled, a client connects, and the Peer is closed. -/
theorem aio_accept_sound_cancelled :
    ∃ tr c, Trace (aio SystemAddress.text) anyStep (Aio.init none 0) tr c ∧
      AioAcceptSound SystemAddress.text tr c ∧ c.shared.teardown = .done ∧
      c.thread 0 = .cancelled ∧ c.thread 1 = .accept (.returned 0) ∧
      (1, 0) ∈ tr.flatMap Aio.acceptance := by
  have h := Reach.of_exec (show (aio SystemAddress.text).exec anyStep
    ([.thread 0 (.inl .accept), .thread 1 (.inl .accept), .thread 0 (.inr .go),
      .thread 1 (.inr .go), .thread 0 (.inr .cancel)] ++
      aioRoutes ⟨⟨"10.0.0.1", 1⟩, 7, [19]⟩ 4 ++
      [.thread 1 (.inr .go), .thread 2 (.inl .closePeer), .thread 2 (.inr .go), .shared .pump] ++
      List.replicate 8 (.shared .closer)) (Aio.init none 0) = some _ from rfl)
  obtain ⟨tr, htr⟩ := h.exists_trace
  have hsound := aio_accept_sound htr
  exact ⟨tr, _, htr, hsound, rfl, rfl, rfl, (hsound.returned 1 0).mp rfl⟩

end Raknet
