import Raknet.Aio.Registry
import Raknet.Sync.Requests

/-!
# Requests of an asyncio Peer

The workers of the tasks register pending objects, each once, and the boards of
`Raknet.Sync.Pending` say the rest. A cancelled `close` keeps what it took from the tables.

**Theorem (`reach_aioPending`, `step_aioPending`).** Both boards keep their invariants throughout
every run of an asyncio Peer, and every step is a step of both boards.
-/

namespace Raknet

open Interleaving Handoff

variable {text : SystemAddress → String} {s s' : State} {i : CallId}

/-! ## Entering the tables -/

/-- The worker has not registered a pending connect, and may still do so. -/
def beforeConnect : ConnectWorker → Bool
  | .queued | .running .checkOpen | .running .checkAttempts | .running .resolve
  | .running (.register _) => true
  | _ => false

/-- The worker has not registered a pending ping, and may still do so. -/
def beforePing : PingWorker → Bool
  | .queued | .running .checkOpen | .running .resolve | .running (.register _) => true
  | _ => false

/-- What a task whose worker has yet to register knows about its pending object. -/
def Task.Unentered (s : State) (i : CallId) : Task → Prop
  | idle => i ∉ s.connects.entered ∧ i ∉ s.pings.entered
  | connect _ w _ => beforeConnect w = true → i ∉ s.connects.entered
  | ping _ w _ => beforePing w = true → i ∉ s.pings.entered
  | _ => True

theorem CloseEffect.entered {c : ConnId} {notify : Bool} {pc : ClosePc} {pc' : Option ClosePc}
    (h : CloseEffect c notify s pc s' pc') :
    s'.connects.entered = s.connects.entered ∧ s'.pings.entered = s.pings.entered := by
  cases h <;> simp [State.connects, State.pings, Event.connectEntered?, Event.pingEntered?]

theorem cancelClose_entered (h : s.cancelClose = some s') :
    s'.connects.entered = s.connects.entered ∧ s'.pings.entered = s.pings.entered := by
  obtain ⟨snap, -, rfl⟩ := cancelClose_eq_some h
  exact ⟨rfl, rfl⟩

theorem startStep_beforeConnect {args : ConnectArgs} {q : StartPc} {ch : Choice}
    {n : Next StartPc (Except Error SystemAddress)}
    (h : startStep text i args s q ch = some (s', n))
    (hb : beforeConnect n.worker = true) :
    beforeConnect (.running q) = true ∧ s'.connects.entered = s.connects.entered := by
  cases q <;> cases ch <;> simp only [startStep, reduceCtorEq] at h
  case checkOpen.go | checkAttempts.go =>
    cases h
    exact ⟨rfl, rfl⟩
  case resolve.resolved ip => cases ip <;> cases h <;> exact ⟨rfl, rfl⟩
  case register.go a => split_ifs at h <;> cases h <;> cases hb
  case rawConnect.connectResult a r =>
    cases h
    split_ifs at hb <;> cases hb
  case rawConnect.connectRaises a message | popFailed.go a r =>
    cases h
    cases hb

theorem startPingStep_beforePing {args : PingArgs} {q : StartPingPc} {ch : Choice}
    {n : Next StartPingPc (Except Error SystemAddress)}
    (h : startPingStep text i args s q ch = some (s', n)) (hb : beforePing n.worker = true) :
    beforePing (.running q) = true ∧ s'.pings.entered = s.pings.entered := by
  cases q <;> cases ch <;> simp only [startPingStep, reduceCtorEq] at h
  case checkOpen.go =>
    cases h
    exact ⟨rfl, rfl⟩
  case resolve.resolved ip => cases ip <;> cases h <;> exact ⟨rfl, rfl⟩
  case register.go a => split_ifs at h <;> cases h <;> cases hb
  case rawPing.pingResult a ok => cases ok <;> cases h <;> cases hb
  case popFailed.go a =>
    cases h
    cases hb

theorem TaskMove.unentered {t t' : Task} {x : CallStart ⊕ TaskChoice}
    (h : TaskMove text i s t x s' t') (ht : t.Unentered s i) : t'.Unentered s' i := by
  cases h with
  | begin start t h =>
    cases start <;> simp only [startTask] at h
    case connect args =>
      cases h
      exact fun _ => ht.1
    case ping args =>
      cases h
      exact fun _ => ht.2
    case close c notify =>
      split_ifs at h
      cases h
      trivial
    all_goals
      cases h
      trivial
  | connect args w w' pc pc' s' ch h =>
    cases h with
    | take => exact fun _ => ht rfl
    | work q ch s' n pc h =>
      intro hb
      obtain ⟨hb', he⟩ := startStep_beforeConnect h hb
      exact he ▸ ht hb'
    | drop => exact fun hb => by cases hb
    | abandon w a j hget => exact ht
    | cancel w a => exact fun hb => by simpa [State.connects, Event.connectEntered?] using ht hb
    | reap w c pc pc' s' h | reaped w c pc s' h => exact fun hb => h.entered.1 ▸ ht hb
    | closeBegin w x hopen =>
      exact fun hb => by simpa [State.connects, Event.connectEntered?] using ht hb
    | cancelReap w c s' h | cancelClosePeer w x s' h =>
      exact fun hb => (cancelClose_entered h).1 ▸ ht hb
    | _ => exact ht
  | ping args w w' pc pc' s' ch h =>
    cases h with
    | take => exact fun _ => ht rfl
    | work q ch s' n pc h =>
      intro hb
      obtain ⟨hb', he⟩ := startPingStep_beforePing h hb
      exact he ▸ ht hb'
    | drop => exact fun hb => by cases hb
    | _ => exact ht
  | _ => trivial

theorem TaskEffect.entered {t : Task} (h : TaskEffect text i s t s') :
    (s'.connects.entered = s.connects.entered ∨ s'.connects.entered = s.connects.entered ++ [i]) ∧
      (s'.pings.entered = s.pings.entered ∨ s'.pings.entered = s.pings.entered ++ [i]) := by
  cases h with
  | worker s' h | task s' h => exact h.entered
  | cancelClose snap h => exact ⟨Or.inl rfl, Or.inl rfl⟩

theorem Task.Unentered.other {t u : Task} {j : CallId} (hu : u.Unentered s j)
    (h : TaskEffect text i s t s') (hj : j ≠ i) : u.Unentered s' j := by
  have hconnect : j ∉ s.connects.entered → j ∉ s'.connects.entered := fun hn => by
    rcases h.entered.1 with he | he <;> simp [he, hn, hj]
  have hping : j ∉ s.pings.entered → j ∉ s'.pings.entered := fun hn => by
    rcases h.entered.2 with he | he <;> simp [he, hn, hj]
  cases u with
  | idle => exact ⟨hconnect hu.1, hping hu.2⟩
  | connect args w pc => exact fun hb => hconnect (hu hb)
  | ping args w pc => exact fun hb => hping (hu hb)
  | _ => trivial

/-! ## The boards, over whole runs -/

theorem Task.workerCall_connect {t : Task} {args : ConnectArgs} {q : StartPc}
    (h : t.workerCall = .connect args (.start q)) : ∃ pc, t = .connect args (.running q) pc := by
  unfold Task.workerCall at h
  split at h <;> cases h
  exact ⟨_, rfl⟩

theorem Task.workerCall_ping {t : Task} {args : PingArgs} {q : StartPingPc}
    (h : t.workerCall = .ping args (.start q)) : ∃ pc, t = .ping args (.running q) pc := by
  unfold Task.workerCall at h
  split at h <;> cases h
  exact ⟨_, rfl⟩

theorem Task.taskCall_ne_start (t : Task) :
    (∀ args q, t.taskCall ≠ .connect args (.start q)) ∧
      ∀ args q, t.taskCall ≠ .ping args (.start q) := by
  unfold Task.taskCall
  split <;> simp

theorem TaskEffect.pending {t : Task} (h : TaskEffect text i s t s') (hi : PendingInv s)
    (ht : t.Unentered s i) (hsd : ShutdownInv s) : PendingStep s s' := by
  cases h with
  | worker s' h =>
    refine ⟨h.connects hi.connects ?_ hsd, h.pings hi.pings ?_ hsd⟩
    · rintro (⟨args, hcall⟩ | ⟨args, a, hcall⟩) <;>
        obtain ⟨pc, rfl⟩ := Task.workerCall_connect hcall <;> exact ht rfl
    · rintro (⟨args, hcall⟩ | ⟨args, a, hcall⟩) <;>
        obtain ⟨pc, rfl⟩ := Task.workerCall_ping hcall <;> exact ht rfl
  | task s' h =>
    obtain ⟨hconnect, hping⟩ := t.taskCall_ne_start
    refine ⟨h.connects hi.connects ?_ hsd, h.pings hi.pings ?_ hsd⟩
    · rintro (⟨args, hcall⟩ | ⟨args, a, hcall⟩) <;> exact absurd hcall (hconnect _ _)
    · rintro (⟨args, hcall⟩ | ⟨args, a, hcall⟩) <;> exact absurd hcall (hping _ _)
  | cancelClose snap h =>
    have hconnects : (s.close (.cancelled snap)).connects = s.connects := by
      rcases h with h | h <;> simp [State.connects, h, Teardown.connects, Teardown.connectInHand]
    have hpings : (s.close (.cancelled snap)).pings = s.pings := by
      rcases h with h | h <;> simp [State.pings, h, Teardown.pings]
    exact ⟨Board.Step.skip.of_eq hconnects, Board.Step.skip.of_eq hpings⟩

theorem reach_aioPending {ok : Aio → AioAction → Prop} {c : Aio} {q : Option Nat} {t₀ : Int}
    (h : Reach (aio text) ok (Aio.init q t₀) c) :
    PendingInv c.shared ∧ ∀ i, (c.thread i).Unentered c.shared i := by
  refine h.outline (L := fun i s t => t.Unentered s i) (pendingInv_init q t₀)
    (fun i => ⟨List.not_mem_nil, List.not_mem_nil⟩) ?_ ?_
  · intro c e s hr _ hs hi
    have heff := act_effect hs
    refine ⟨(heff.pending hi (reach_aioShutdown hr).toShutdownInv).inv hi, fun i t ht => ?_⟩
    cases t with
    | idle | connect args w pc | ping args w pc =>
      simpa only [Task.Unentered, heff.entered.1, heff.entered.2] using ht
    | _ => trivial
  · intro c i x s t hr _ hs hi ht
    have hmove := taskStep_move hs
    exact ⟨(hmove.effect.pending hi ht (reach_aioShutdown hr).toShutdownInv).inv hi,
      hmove.unentered ht, fun j hj u hu => hu.other hmove.effect hj⟩

theorem step_aioPending {ok : Aio → AioAction → Prop} {c c' : Aio} {q : Option Nat} {t₀ : Int}
    {a : AioAction} (h : Reach (aio text) ok (Aio.init q t₀) c)
    (hs : (aio text).step c a = some c') : PendingStep c.shared c'.shared := by
  obtain ⟨hi, ht⟩ := reach_aioPending h
  have hsd := (reach_aioShutdown h).toShutdownInv
  rcases System.step_cases hs with ⟨e, s, rfl, he, rfl⟩ | ⟨i, x, s, t, rfl, hx, rfl⟩
  · exact (act_effect he).pending hi hsd
  · exact (taskStep_move hx).effect.pending hi (ht i) hsd

end Raknet
