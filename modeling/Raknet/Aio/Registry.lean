import Raknet.Aio.Effects
import Raknet.Sync.Registry
import Raknet.Sync.Shutdown

/-!
# The registry of an asyncio Peer

The tasks work on the Connections at the program counters of the sync calls, and their workers do
not touch them. A cancelled `close` leaves its snapshot where it is.

**Theorem (`reach_aioShutdown`, `reach_aioRegistry`, `step_aioRegistry`).** The order of a shutdown
and the assertions on the Connections hold throughout every run of an asyncio Peer, and every step
is a `Registry.Step`.
-/

namespace Raknet

open Interleaving

variable {text : SystemAddress → String} {s s' : State} {i : CallId}

/-! ## The order of a shutdown -/

/-- The order of a shutdown; and the failing pump is the closer of a crash. -/
structure AioShutdown (s : State) : Prop extends ShutdownInv s where
  crash : s.pump = .failing → ∀ snap, s.teardown ≠ .shutdown none snap

theorem aioShutdown_init (q : Option Nat) (t₀ : Int) : AioShutdown (State.init q t₀) :=
  { shutdownInv_init q t₀ with crash := by simp [State.init] }

theorem ActEffect.aioShutdown {e : State.Act} (h : ActEffect text s e s') (hi : AioShutdown s) :
    AioShutdown s' := by
  refine { h.shutdownInv hi.toShutdownInv with crash := fun hp snap ht => ?_ }
  have hcrash := hi.crash
  cases h with
  | route p h => simp at hp
  | fail detail h hopen => cases ht
  | join rest h hpump =>
    rw [State.close_pump, hpump] at hp
    cases hp
  | _ => first
    | exact hcrash hp snap ht
    | cases hp
    | cases ht

theorem CallEffect.aioShutdown {t : Call} (h : CallEffect text i s t s') (hi : AioShutdown s) :
    AioShutdown s' := by
  refine { h.shutdownInv hi.toShutdownInv with crash := fun hp snap ht => ?_ }
  cases h with
  | beginClose hopen => cases ht
  | _ => exact hi.crash hp snap ht

/-- The pump does not fail in the teardown of a `close`. -/
theorem AioShutdown.not_failing (hi : AioShutdown s) {snap : Snapshot}
    (h : s.teardown = .joining snap ∨ s.teardown = .shutdown none snap) : s.pump ≠ .failing := by
  intro hp
  rcases h with h | h
  · have hjoined := hi.failing hp
    simp [h, Teardown.joined] at hjoined
  · exact hi.crash hp snap h

theorem TaskEffect.aioShutdown {t : Task} (h : TaskEffect text i s t s') (hi : AioShutdown s) :
    AioShutdown s' := by
  cases h with
  | worker s' h | task s' h => exact h.aioShutdown hi
  | cancelClose snap h =>
    have hbegun : s.peer.closed = true := hi.begun.mpr (by rcases h with h | h <;> simp [h])
    have hpump := hi.not_failing h
    exact
      { begun := by simp [hbegun]
        connects := hi.connects
        pings := hi.pings
        joined := by simp [Teardown.joined]
        failing := fun hp => absurd hp hpump
        exited := hi.exited
        crash := fun _ _ ht => by cases ht }

theorem reach_aioShutdown {ok : Aio → AioAction → Prop} {c : Aio} {q : Option Nat} {t₀ : Int}
    (h : Reach (aio text) ok (Aio.init q t₀) c) : AioShutdown c.shared := by
  refine h.invariant (I := fun c => AioShutdown c.shared) (aioShutdown_init q t₀) ?_
  intro c a c' _ _ hs hi
  rcases System.step_cases hs with ⟨e, s, rfl, he, rfl⟩ | ⟨i, x, s, t, rfl, hx, rfl⟩
  · exact (act_effect he).aioShutdown hi
  · exact (taskStep_move hx).effect.aioShutdown hi

/-! ## The Connections -/

theorem Task.workerCall_asserts (r : Registry) (t : Task) : t.workerCall.Asserts r := by
  unfold Task.workerCall
  split <;> exact Call.asserts_of_none rfl (by simp)

/-- The coroutine's program counter does not depend on the worker. -/
theorem Task.taskCall_connect (args : ConnectArgs) (w w' : ConnectWorker) (pc : ConnectTask) :
    (Task.connect args w pc).taskCall = (Task.connect args w' pc).taskCall := by
  cases pc <;> rfl

theorem Task.taskCall_ping (args : PingArgs) (w w' : PingWorker) (pc : PingTask) :
    (Task.ping args w pc).taskCall = (Task.ping args w' pc).taskCall := by
  cases pc <;> rfl

theorem TaskEffect.registry {t : Task} (h : TaskEffect text i s t s')
    (ht : t.taskCall.Asserts s.registry) : Registry.Step s.registry s'.registry := by
  cases h with
  | worker s' h => exact h.registry (t.workerCall_asserts _)
  | task s' h => exact h.registry ht
  | cancelClose snap h => exact .skip

theorem TaskEffect.inv {t : Task} (h : TaskEffect text i s t s') (hi : RegistryInv s)
    (ht : t.taskCall.Asserts s.registry) : RegistryInv s' := by
  cases h with
  | worker s' h => exact h.inv hi (t.workerCall_asserts _)
  | task s' h => exact h.inv hi ht
  | cancelClose snap h =>
    refine hi.of_step .skip hi.pump (fun c hc => Or.inl ?_) (fun c hc => by cases hc) fun _ _ =>
      Or.inl
    rcases h with h | h <;> rw [h] <;> exact hc

theorem asserts_exit {r : Registry} (args : ConnectArgs) (w : ConnectWorker) (x : Exit) :
    (Task.connect args w (args.exit x)).taskCall.Asserts r := by
  unfold ConnectArgs.exit
  split_ifs <;> exact Call.asserts_of_none rfl (by simp [Task.taskCall])

theorem asserts_hand {r : Registry} (args : ConnectArgs) (w : ConnectWorker) {c : ConnId}
    (hc : r.Published c) : (Task.connect args w (args.hand c)).taskCall.Asserts r := by
  unfold ConnectArgs.hand
  split_ifs
  · refine ⟨fun d pc h => ?_, fun args' d h => ?_⟩ <;> cases h
    exact hc
  · exact Call.asserts_of_none rfl (by simp [Task.taskCall])

/-- What a `Connection.close` asserts is all that a task that runs it asserts. -/
theorem asserts_closing {r : Registry} {t : Call} {c : ConnId} {pc : ClosePc}
    (h : t.closing = some (c, pc)) (hpc : pc.Asserts r c) : t.Asserts r := by
  refine ⟨fun d q hq => ?_, fun args d hd => ?_⟩
  · rw [h] at hq
    cases hq
    exact hpc
  · rw [hd] at h
    cases h

theorem TaskMove.asserts {t t' : Task} {x : CallStart ⊕ TaskChoice}
    (h : TaskMove text i s t x s' t') (hi : RegistryInv s) (ht : t.taskCall.Asserts s.registry) :
    t'.taskCall.Asserts s'.registry := by
  have hg := (h.effect.registry ht).grows hi.inv
  have hnone : ∀ {u : Task}, u.taskCall = .idle → u.taskCall.Asserts s'.registry := fun hu => by
    rw [hu]
    exact Call.asserts_of_none rfl (by simp)
  cases h with
  | begin start t h =>
    cases start <;> simp only [startTask] at h
    case close c notify =>
      split_ifs at h with hpub
      cases h
      exact asserts_closing rfl (Registry.published_of_state.mp hpub)
    case accept =>
      cases h
      exact Call.asserts_of_none rfl (by simp [Task.taskCall])
    all_goals
      cases h
      exact hnone rfl
  | connect args w w' pc pc' s' ch h =>
    cases h with
    | work q ch s' n pc h =>
      rw [Task.taskCall_connect args _ (.running q) pc]
      exact ht.grows hg
    | raised e | drop | cancelStart w hw | cancel w a | nothing w hconn | reaped w c pc s' h
    | cancelReap w c s' h | failed w e h =>
      exact asserts_exit _ _ _
    | orphan w c hconn => exact asserts_closing rfl (hi.pending i c hconn)
    | reap w c pc pc' s' h =>
      exact asserts_closing rfl (h.asserts hi.inv (ht.closing c pc rfl) hg)
    | finish w c h =>
      refine asserts_hand _ _ (hi.pending i c ?_)
      unfold finishConnect at h
      split at h <;> cases h
      assumption
    | cancelWait w a | abandon w a j hget =>
      exact Call.asserts_of_none rfl (by simp [Task.taskCall])
    | _ => exact hnone rfl
  | ping args w w' pc pc' s' ch h =>
    cases h with
    | work q ch s' n pc h =>
      rw [Task.taskCall_ping args _ (.running q) pc]
      exact ht.grows hg
    | cancelWait w a => exact Call.asserts_of_none rfl (by simp [Task.taskCall])
    | _ => exact hnone rfl
  | accept pc pc' s' h => exact Call.asserts_of_none rfl (by simp [Task.taskCall])
  | close c notify pc pc' s' h =>
    exact asserts_closing rfl (h.asserts hi.inv (ht.closing c pc rfl) hg)
  | _ => exact hnone rfl

theorem reach_aioRegistry {ok : Aio → AioAction → Prop} {c : Aio} {q : Option Nat} {t₀ : Int}
    (h : Reach (aio text) ok (Aio.init q t₀) c) :
    RegistryInv c.shared ∧ ∀ i, (c.thread i).taskCall.Asserts c.shared.registry := by
  refine h.outline (L := fun _ s t => t.taskCall.Asserts s.registry) (registryInv_init q t₀)
    (fun _ => Call.asserts_of_none rfl (by simp [Aio.init, Task.taskCall])) ?_ ?_
  · intro c e s _ _ hs hi
    have hstep := (act_effect hs).registry hi
    exact ⟨(act_effect hs).inv hi, fun _ t ht => ht.grows (hstep.grows hi.inv)⟩
  · intro c i x s t _ _ hs hi ht
    have hmove := taskStep_move hs
    have hstep := hmove.effect.registry ht
    exact ⟨hmove.effect.inv hi ht, hmove.asserts hi ht,
      fun _ _ _ hu => hu.grows (hstep.grows hi.inv)⟩

theorem step_aioRegistry {ok : Aio → AioAction → Prop} {c c' : Aio} {q : Option Nat} {t₀ : Int}
    {a : AioAction} (h : Reach (aio text) ok (Aio.init q t₀) c)
    (hs : (aio text).step c a = some c') :
    Registry.Step c.shared.registry c'.shared.registry := by
  obtain ⟨hi, ht⟩ := reach_aioRegistry h
  rcases System.step_cases hs with ⟨e, s, rfl, he, rfl⟩ | ⟨i, x, s, t, rfl, hx, rfl⟩
  · exact (act_effect he).registry hi
  · exact (taskStep_move hx).effect.registry (ht i)

end Raknet
