import Raknet.Aio.Accept
import Raknet.Sync.Serving

/-!
# `serve_forever` and its handler tasks

`serve_forever` of the asyncio API accepts, creates a task for the Connection and accepts again,
until `accept` raises. The task runs `_run_handler`, which closes the Connection in the end; but a
task that is cancelled before its first step runs nothing at all.

The loops and the handler tasks are clients of the calls of `aio text`. Client `2 * j + 1` is the
`j`th handler task. What a handler does meanwhile it does like any other code of the user, whose
calls are clients of one call each.

**Theorem (`aio_serving_sound`).** No Connection is handed to two handlers; every `serve_forever`
starts its handlers in order of arrival, and ends only with the Peer or by cancellation; and when a
handler task has ended its Connection is closed, unless the task was cancelled before it began.

**Theorem (`aio_serving_complete`).** If only `serve_forever` accepts, every incoming Connection is
on its way to the queue, in the queue, in the hands of a `serve_forever`, or has its handler task.
-/

namespace Raknet

open Interleaving

/-! ## The tasks -/

/-- Where a client is in its own code. -/
inductive TaskPlace
  /-- a call of the user's -/
  | user
  /-- at `connection = await self.accept()` of `serve_forever` -/
  | accepting
  /-- `serve_forever` has returned -/
  | served
  /-- an exception has left `serve_forever` -/
  | failed (x : Exit)
  /-- a handler task, before its first step -/
  | unborn
  /-- in `await handler(connection)` -/
  | handling (k : ConnId)
  /-- at `await connection.close()` of `_run_handler` -/
  | closing (k : ConnId)
  /-- `_run_handler` has ended -/
  | handled (k : ConnId)
  /-- cancelled before its first step -/
  | stillborn (k : ConnId)
deriving DecidableEq, Repr

/-- A step of a client between its calls. -/
inductive Hop
  /-- the user's code calls `serve_forever` -/
  | serve
  /-- `serve_forever` goes on after `await self.accept()` -/
  | next
  /-- a handler task begins to run -/
  | run
  /-- `CancelledError` is thrown into a handler task that has not begun to run -/
  | cancel
  /-- the handler returns, raises or is cancelled -/
  | finish
  /-- `_run_handler` ends after `await connection.close()` -/
  | exit
deriving DecidableEq, Repr

/-- What the code at a place lets its call do. -/
def TaskPlace.allows : TaskPlace → CallStart ⊕ TaskChoice → Bool
  | user, _ => true
  | accepting, .inl .accept | accepting, .inr .go | accepting, .inr .cancel => true
  | closing k, .inl start => start = .close k true
  | closing _, .inr .go | closing _, .inr .cancel => true
  | _, _ => false

/-- A step of client `i` between its calls, the last of which is at `t`. -/
def aioServeStep (i : CallId) :
    Hop → Started → TaskPlace → Task → Option (Started × TaskPlace × Bool)
  | .serve, w, .user, .idle => some (w, .accepting, false)
  | .next, w, .accepting, .accept (.returned k) => some (w ++ [(i, k)], .accepting, true)
  | .next, w, .accepting, .accept (.raised e) =>
    some (w, if e.isRakNetError then .served else .failed (.error e), false)
  | .next, w, .accepting, .cancelled => some (w, .failed .cancelled, false)
  | .run, w, .unborn, _ => (w[i / 2]?).map fun (_, k) => (w, .handling k, false)
  | .cancel, w, .unborn, _ => (w[i / 2]?).map fun (_, k) => (w, .stillborn k, false)
  | .finish, w, .handling k, _ => some (w, .closing k, false)
  | .exit, w, .closing k, .closed _ | .exit, w, .closing k, .cancelled =>
    some (w, .handled k, false)
  | _, _, _, _ => none

/-- The code of the clients. -/
def aioServeProgram : Program Task (CallStart ⊕ TaskChoice) Started TaskPlace Hop where
  allows := TaskPlace.allows
  own := aioServeStep

/-- An asyncio Peer with its users' calls, its `serve_forever` loops and their handler tasks. -/
abbrev AioServing := Config (State × Started) (Client TaskPlace Task)

abbrev AioServingAction := Action State.Act ((CallStart ⊕ TaskChoice) ⊕ Hop)

/-- The pump, the closer, the readers and the tasks of an asyncio Peer. -/
def aioServing (text : SystemAddress → String) :
    System (State × Started) (Client TaskPlace Task) State.Act ((CallStart ⊕ TaskChoice) ⊕ Hop) :=
  (aio text).clients aioServeProgram .idle

/-- An asyncio Peer whose pump was just started. -/
def AioServing.init (maxQueue : Option Nat) (clock : Int) : AioServing :=
  ⟨(.init maxQueue clock, []), fun i => ⟨if i % 2 = 1 then .unborn else .user, [], .idle⟩⟩

/-- The calls of the clients. -/
abbrev AioServing.toAio (c : AioServing) : Aio := c.calls .idle

variable {text : SystemAddress → String} {c c' : AioServing} {q : Option Nat} {t₀ : Int}
  {ok : AioServing → AioServingAction → Prop}

theorem AioServing.init_toAio (q : Option Nat) (t₀ : Int) :
    (AioServing.init q t₀).toAio = Aio.init q t₀ :=
  Config.calls_init _ _ _

theorem reach_aioCalls (h : Reach (aioServing text) ok (AioServing.init q t₀) c) :
    Reach (aio text) anyStep (Aio.init q t₀) c.toAio := by
  have hr := h.calls
  rwa [show (AioServing.init q t₀).calls .idle = Aio.init q t₀ from
    AioServing.init_toAio q t₀] at hr

/-! ## Closed Connections -/

/-- What is left of a `Connection.close` that has ended, or was cancelled. -/
theorem reach_aioRetired {d : Aio} {okA : Aio → AioAction → Prop}
    (h : Reach (aio text) okA (Aio.init q t₀) d) (i : CallId) (k : ConnId)
    (hi : d.thread i = .closed k) : d.shared.registry.Retired k := by
  refine (h.outline (G := fun _ => True) (L := fun _ s t => t = .closed k → s.registry.Retired k)
    trivial (fun _ h => by cases h) ?_ ?_).2 i hi
  · intro c e s hr _ hs _
    have hg :=
      ((act_effect hs).registry (reach_aioRegistry hr).1).grows (reach_aioRegistry hr).1.inv
    exact ⟨trivial, fun _ _ ht hk => hg.retired (ht hk)⟩
  · intro c j x s t hr _ hs _ _
    obtain ⟨hreg, hasserts⟩ := reach_aioRegistry hr
    have hmove := taskStep_move hs
    have hg := (hmove.effect.registry (hasserts j)).grows hreg.inv
    refine ⟨trivial, fun ht => ?_, fun _ _ _ hu hk => hg.retired (hu hk)⟩
    have hmine := hasserts j
    generalize c.thread j = call at hmove hmine
    subst ht
    cases hmove with
    | closed c notify pc s' h => exact h.retired (hmine.closing k pc rfl)
    | begin start t h => cases start <;> simp [startTask] at h

/-! ## What a client's place asserts -/

/-- The Connection that an accept has returned. -/
def Task.accepted? : Task → Option ConnId
  | accept (.returned k) => some k
  | _ => none

theorem Task.eq_of_accepted {t : Task} {k : ConnId} (h : t.accepted? = some k) :
    t = .accept (.returned k) := by
  unfold Task.accepted? at h
  split at h <;> cases h
  rfl

/-- The handler task of client `i` was started for the Connection. -/
def Handles (i : CallId) (w : Started) (k : ConnId) : Prop :=
  i % 2 = 1 ∧ ∃ j, w[i / 2]? = some (j, k)

theorem Handles.grows {i : CallId} {w w' : Started} {k : ConnId} (h : Handles i w k)
    (hw : w <+: w') : Handles i w' k := by
  obtain ⟨hodd, j, hj⟩ := h
  obtain ⟨l, rfl⟩ := hw
  exact ⟨hodd, j, by rw [List.getElem?_append_left (List.getElem?_eq_some_iff.mp hj).1, hj]⟩

/-- What is known of client `i` when its code is at the place and its latest call at `t`. -/
def TaskPlace.Asserts (i : CallId) (s : State × Started) (t : Task) : TaskPlace → Prop
  | user => True
  | accepting => t = .idle ∨ t = .cancelled ∨ ∃ pc, t = .accept pc
  | served => s.1.peer.closed = true
  | failed x => x = .cancelled
  | unborn => i % 2 = 1 ∧ t = .idle
  | handling k => Handles i s.2 k ∧ t = .idle
  | stillborn k => Handles i s.2 k
  | closing k => Handles i s.2 k ∧ (t = .idle ∨ (∃ pc, t = .close k true pc) ∨ t = .closed k ∨
      t = .cancelled ∧ s.1.registry.Retired k)
  | handled k => Handles i s.2 k ∧ s.1.registry.Retired k

theorem TaskPlace.Asserts.grows {i : CallId} {s s' : State × Started} {t : Task} {p : TaskPlace}
    (h : p.Asserts i s t) (hclosed : s.1.peer.closed = true → s'.1.peer.closed = true)
    (hg : s.1.registry.Grows s'.1.registry) (hw : s.2 <+: s'.2) : p.Asserts i s' t := by
  cases p with
  | served => exact hclosed h
  | handling k => exact ⟨h.1.grows hw, h.2⟩
  | stillborn k => exact Handles.grows h hw
  | closing k =>
    exact ⟨h.1.grows hw, h.2.imp_right (Or.imp_right (Or.imp_right (And.imp_right hg.retired)))⟩
  | handled k => exact ⟨h.1.grows hw, hg.retired h.2⟩
  | _ => exact h

theorem TaskPlace.Asserts.step {i n : CallId} {s s' : State × Started} {t t' : Task} {p : TaskPlace}
    {a : CallStart ⊕ TaskChoice} (h : p.Asserts i s t) (hallow : p.allows a = true)
    (hs : taskStep text n a s.1 t = some (s'.1, t')) (hw : s'.2 = s.2)
    (hasserts : t.taskCall.Asserts s.1.registry)
    (hg : s.1.registry.Grows s'.1.registry) : p.Asserts i s' t' := by
  obtain ⟨s', w'⟩ := s'
  simp only at hs hw hg
  subst hw
  have hmove := taskStep_move hs
  cases p with
  | user => trivial
  | accepting =>
    rcases h with rfl | rfl | ⟨pc, rfl⟩
    · cases hmove with
      | begin start t h =>
        cases start <;> simp only [TaskPlace.allows, reduceCtorEq] at hallow
        cases h
        exact Or.inr (Or.inr ⟨_, rfl⟩)
    · cases hmove
    · cases hmove with
      | accept pc pc' s' h => exact Or.inr (Or.inr ⟨_, rfl⟩)
      | cancelAccept => exact Or.inr (Or.inl rfl)
  | closing k =>
    obtain ⟨hhandles, hcall⟩ := h
    refine ⟨hhandles, ?_⟩
    rcases hcall with rfl | ⟨pc, rfl⟩ | rfl | ⟨rfl, -⟩
    · cases hmove with
      | begin start t h =>
        simp only [TaskPlace.allows, decide_eq_true_eq] at hallow
        subst hallow
        simp only [startTask] at h
        split_ifs at h
        cases h
        exact Or.inr (Or.inl ⟨_, rfl⟩)
    · cases hmove with
      | close c notify pc pc' s' h => exact Or.inr (Or.inl ⟨_, rfl⟩)
      | closed c notify pc s' h => exact Or.inr (Or.inr (Or.inl rfl))
      | cancelClose c notify s' h =>
        exact Or.inr (Or.inr (Or.inr ⟨rfl, hg.retired (hasserts.closing k _ rfl)⟩))
    · cases hmove
    · cases hmove
  | served | failed x | unborn | handling k | stillborn k | handled k =>
    rcases a with _ | _ | _ | _ <;> cases hallow

theorem TaskPlace.Asserts.own {i : CallId} {s : State × Started} {t : Task} {p p' : TaskPlace}
    {b : Hop} {w : Started} {more : Bool} (h : p.Asserts i s t)
    (hs : aioServeStep i b s.2 p t = some (w, p', more))
    (hraised : ∀ e, t = .accept (.raised e) → e = peerIsClosed ∧ s.1.peer.closed = true)
    (hretired : ∀ k, t = .closed k → s.1.registry.Retired k) :
    p'.Asserts i (s.1, w) (if more then .idle else t) := by
  unfold aioServeStep at hs
  split at hs
  · cases hs
    exact Or.inl rfl
  · cases hs
    exact Or.inl rfl
  · next e =>
    obtain ⟨rfl, hclosed⟩ := hraised e rfl
    cases hs
    exact hclosed
  · cases hs
    rfl
  · obtain ⟨⟨j, k⟩, hj, hk⟩ := Option.map_eq_some_iff.mp hs
    cases hk
    exact ⟨⟨h.1, j, hj⟩, h.2⟩
  · obtain ⟨⟨j, k⟩, hj, hk⟩ := Option.map_eq_some_iff.mp hs
    cases hk
    exact ⟨h.1, j, hj⟩
  · cases hs
    exact ⟨h.1, Or.inl h.2⟩
  · obtain ⟨hhandles, hcall⟩ := h
    rcases hcall with hcall | ⟨pc, hcall⟩ | hcall | ⟨hcall, -⟩ <;> cases hcall
    cases hs
    exact ⟨hhandles, hretired _ rfl⟩
  · obtain ⟨hhandles, hcall⟩ := h
    rcases hcall with hcall | ⟨pc, hcall⟩ | hcall | ⟨hcall, hret⟩ <;> cases hcall
    cases hs
    exact ⟨hhandles, hret⟩
  · cases hs

/-! ## Over whole runs -/

/-- A Connection that an accept returns was in the queue. -/
theorem taskStep_accepted {i : CallId} {a : CallStart ⊕ TaskChoice} {s s' : State} {t t' : Task}
    {k : ConnId} (hs : taskStep text i a s t = some (s', t')) (hk : t'.accepted? = some k) :
    some k ∈ s.peer.acceptQueue := by
  rcases (taskStep_move hs).accepting with ⟨pc, pc', rfl, rfl, -, hacc⟩ | ⟨-, -, ht', -⟩
  · cases acceptStep_acceptEffect hacc with
    | get k' rest hqueue =>
      cases hk
      simp [hqueue]
    | _ => cases hk
  · exact absurd (Task.eq_of_accepted hk) (ht'.2 k)

theorem AcceptOrder.acceptor {d : Aio} {i : CallId} {k : ConnId}
    (h : (d.thread i).accepted? = some k) :
    d.acceptors.thread i = .accept (.returned k) :=
  Task.acceptor_eq.mpr (Task.eq_of_accepted h)

/-- The accepts take the Connections one by one, in order of arrival. -/
theorem aio_takes (q : Option Nat) (t₀ : Int) :
    (aio text).Takes (Aio.init q t₀) Task.accepted? (· < ·) where
  distinct _ _ _ _ h hn hm := by
    obtain ⟨tr, htr⟩ := h.exists_trace
    exact (trace_aioAcceptOrder htr).distinct (AcceptOrder.acceptor hn) (AcceptOrder.acceptor hm)
  later _ _ _ _ _ _ _ _ h hs hk hm := by
    obtain ⟨tr, htr⟩ := h.exists_trace
    exact (trace_aioAcceptOrder htr).below (AcceptOrder.acceptor hm) (taskStep_accepted hs hk)

theorem aioServeProgram_spawns : aioServeProgram.Spawns Task.accepted? := by
  intro i b w p t w' p' more h
  unfold aioServeProgram aioServeStep at h
  simp only at h
  split at h
  case h_2 k =>
    cases h
    exact Or.inr ⟨k, rfl, rfl, rfl⟩
  case h_5 | h_6 =>
    obtain ⟨⟨j, k⟩, -, hk⟩ := Option.map_eq_some_iff.mp h
    cases hk
    exact Or.inl rfl
  case h_10 => cases h
  all_goals
    cases h
    exact Or.inl rfl

theorem reach_aioSpawned (h : Reach (aioServing text) ok (AioServing.init q t₀) c) :
    Spawned Task.accepted? (· < ·) c := by
  refine h.spawned aioServeProgram_spawns ?_ rfl (spawned_init .idle rfl rfl fun i => ?_)
  · rw [show (AioServing.init q t₀).calls .idle = Aio.init q t₀ from AioServing.init_toAio q t₀]
    exact aio_takes q t₀
  · exact ⟨rfl, rfl⟩

theorem aioCalls_grows (h : Reach (aioServing text) ok (AioServing.init q t₀) c)
    {a : AioServingAction} (hs : (aioServing text).step c a = some c') :
    (c.shared.1.peer.closed = true → c'.shared.1.peer.closed = true) ∧
      c.shared.1.registry.Grows c'.shared.1.registry := by
  have hr := reach_aioCalls h
  rcases clients_step hs with heq | ⟨b, hb⟩
  · have hsame : c'.shared.1 = c.shared.1 := congrArg Config.shared heq
    rw [hsame]
    exact ⟨id, .refl _⟩
  · exact ⟨step_aioClosed hb, (step_aioRegistry hr hb).grows (reach_aioRegistry hr).1.inv⟩

theorem reach_taskPlaces (h : Reach (aioServing text) ok (AioServing.init q t₀) c) (i : CallId) :
    (c.thread i).place.Asserts i c.shared (c.thread i).call := by
  refine h.invariant (I := fun c => ∀ i, (c.thread i).place.Asserts i c.shared (c.thread i).call)
    (fun i => ?_) ?_ i
  · by_cases hodd : i % 2 = 1 <;> simp [AioServing.init, TaskPlace.Asserts, hodd]
  intro c a c' hr _ hs hi j
  obtain ⟨hclosed, hg⟩ := aioCalls_grows hr hs
  have hrs := reach_aioCalls hr
  rcases System.step_cases hs with ⟨e, s, rfl, he, rfl⟩ | ⟨i, x, s, t, rfl, hx, rfl⟩
  · obtain ⟨s₁, -, rfl⟩ := Option.map_eq_some_iff.mp he
    exact (hi j).grows hclosed hg List.prefix_rfl
  by_cases hj : j = i
  · subst hj
    have hmine : (c.calls .idle).thread (Nat.pair j (c.thread j).past.length) =
        (c.thread j).call := by
      rw [Config.calls_thread, Client.nth_call]
    rw [Config.move_thread_self]
    rcases clients_cases hx with
      ⟨a, r, rfl, hallow, hcall, hw, rfl⟩ | ⟨b, w, p, more, rfl, hown, rfl, rfl⟩
    · have hasserts := (reach_aioRegistry hrs).2 (Nat.pair j (c.thread j).past.length)
      rw [hmine] at hasserts
      exact (hi j).step hallow hcall hw hasserts hg
    · have hown' := (hi j).own hown
        (fun e he => reach_aioAcceptRaised hrs _ e (hmine.trans he))
        fun k hk => reach_aioRetired hrs _ k (hmine.trans hk)
      cases more <;> exact hown'
  · rw [Config.move_thread_of_ne _ _ hj]
    rcases clients_cases hx with
      ⟨a, r, rfl, hallow, hcall, hw, rfl⟩ | ⟨b, w, p, more, rfl, hown, rfl, rfl⟩
    · exact (hi j).grows hclosed hg (by rw [Config.move_shared, hw])
    · exact (hi j).grows id (.refl _) (aioServeProgram_spawns.grows hown)

/-! ## Serving -/

/-- Who has the Connections that the tasks accept, and what becomes of them. -/
structure AioServed (c : AioServing) : Prop where
  /-- No Connection is handed to two handlers. -/
  once : (c.shared.2.map Prod.snd).Nodup
  /-- No two accepts return the same Connection, the users' own included. -/
  exclusive : ∀ i n j m k, (c.thread i).nth .idle n = .accept (.returned k) →
    (c.thread j).nth .idle m = .accept (.returned k) → i = j ∧ n = m
  /-- Who starts a handler task has accepted its Connection. -/
  accepted : ∀ i k, (i, k) ∈ c.shared.2 → ∃ n, (c.thread i).nth .idle n = .accept (.returned k)
  /-- A `serve_forever` starts its handler tasks in the order in which their Connections arrived. -/
  order : ∀ i, ((c.shared.2.filter (·.1 = i)).map Prod.snd).Pairwise (· < ·)
  /-- A handler task works on the Connection it was started for. -/
  handler : ∀ i k, (c.thread i).place = .handling k ∨ (c.thread i).place = .closing k ∨
    (c.thread i).place = .handled k ∨ (c.thread i).place = .stillborn k → Handles i c.shared.2 k
  /-- When a handler task has ended that had begun, its Connection is closed and not in the
  registry, wherever the task was cancelled. -/
  handled : ∀ i k, (c.thread i).place = .handled k → (c.shared.1.peer.connection k).closed = true ∧
    ∀ g, c.shared.1.peer.connections.get? g ≠ some k
  /-- `serve_forever` returns only if the Peer is closed, and raises nothing but `CancelledError`.
  -/
  served : ∀ i, (c.thread i).place = .served → c.shared.1.peer.closed = true
  failed : ∀ i x, (c.thread i).place = .failed x → x = .cancelled

/-- **Serving.** However the tasks are cancelled: every Connection has one taker, `serve_forever`
starts its handlers in order of arrival and ends only with the Peer or by cancellation, and a
handler task that has begun leaves its Connection closed. -/
theorem aio_serving_sound (h : Reach (aioServing text) ok (AioServing.init q t₀) c) :
    AioServed c := by
  have hi := reach_aioSpawned h
  have hr := reach_aioCalls h
  have hplace := reach_taskPlaces h
  constructor
  case once => exact hi.once
  case exclusive =>
    intro i n j m k hn hm
    rw [← Config.calls_thread] at hn hm
    exact Nat.pair_eq_pair.mp ((aio_takes q t₀).distinct _ _ _ k hr (by rw [hn]; rfl)
      (by rw [hm]; rfl))
  case accepted =>
    intro i k hk
    obtain ⟨n, -, hn⟩ := hi.exists_call .idle hk
    exact ⟨n, Task.eq_of_accepted hn⟩
  case order => exact hi.order
  case handler =>
    intro i k hk
    have hat := hplace i
    rcases hk with hk | hk | hk | hk <;> rw [hk] at hat
    · exact hat.1
    · exact hat.1
    · exact hat.1
    · exact hat
  case handled =>
    intro i k hk
    have hat := hplace i
    rw [hk] at hat
    exact ⟨hat.2.2, fun g hg => hat.2.1.2 ⟨g, hg⟩⟩
  case served =>
    intro i hserved
    have hat := hplace i
    rwa [hserved] at hat
  case failed =>
    intro i x hfailed
    have hat := hplace i
    rwa [hfailed] at hat

/-- A client serves, and a remote connects. -/
def aioClientServed : List AioServingAction :=
  [.thread 0 (.inr .serve), .thread 0 (.inl (.inl .accept)), .thread 0 (.inl (.inr .go)),
    .shared .pump, .shared (.received (.packet ⟨⟨"10.0.0.1", 1⟩, 7, [19]⟩))] ++
  List.replicate 4 (.shared .pump) ++ [.thread 0 (.inl (.inr .go)), .thread 0 (.inr .next)]

/-- The handler task is cancelled before its first step: nobody closes the Connection. -/
theorem aio_serving_sound_stillborn :
    ∃ c, Reach (aioServing SystemAddress.text) anyStep (AioServing.init none 0) c ∧ AioServed c ∧
      (c.thread 1).place = .stillborn 0 ∧ (c.shared.1.peer.connection 0).closed = false ∧
      c.shared.1.peer.connections.get? 7 = some 0 := by
  have h : Reach (aioServing SystemAddress.text) anyStep (AioServing.init none 0) _ :=
    .of_exec (show (aioServing SystemAddress.text).exec anyStep
      (aioClientServed ++ [.thread 1 (.inr .cancel)]) (AioServing.init none 0) = some _ from rfl)
  exact ⟨_, h, aio_serving_sound h, rfl, rfl, rfl⟩

/-! ## If nobody else accepts -/

/-- The step does not begin an accept of the user's own. -/
def OnlyTasks (c : AioServing) : AioServingAction → Prop
  | .thread i (.inl (.inl .accept)) => (c.thread i).place = .accepting
  | _ => True

instance AioServing.decidableOnlyTasks (c : AioServing) (a : AioServingAction) :
    Decidable (OnlyTasks c a) := by
  rcases a with _ | ⟨i, ((_ | _ | _ | _ | _) | _) | _⟩ <;> simp only [OnlyTasks] <;>
    infer_instance

/-- An accept of the client is that of its `serve_forever`. -/
def AwaitsAccept (t : Client TaskPlace Task) : Prop :=
  ∀ pc, t.call = .accept pc → t.place = .accepting ∨
    t.call.accepted? = none ∧ (t.place = .served ∨ ∃ x, t.place = .failed x)

/-- A call becomes an accept only by beginning as one. -/
theorem taskStep_accept {i : CallId} {a : CallStart ⊕ TaskChoice} {s s' : State} {t : Task}
    {pc : AcceptPc} (hs : taskStep text i a s t = some (s', .accept pc)) :
    a = .inl .accept ∨ ∃ pc', t = .accept pc' := by
  cases taskStep_move hs with
  | begin start t h =>
    cases start <;> simp only [startTask, Option.some.injEq, reduceCtorEq] at h
    case accept => exact Or.inl rfl
    case close k notify =>
      split_ifs at h
      cases h
  | accept pc pc' s' h => exact Or.inr ⟨_, rfl⟩

theorem AwaitsAccept.own {i : CallId} {w w' : Started} {t : Client TaskPlace Task} {b : Hop}
    {p : TaskPlace} (h : AwaitsAccept t)
    (hs : aioServeStep i b w t.place t.call = some (w', p, false)) :
    AwaitsAccept { t with place := p } := by
  intro pc hpc
  have hcall : t.call = .accept pc := hpc
  rcases h pc hcall with hplace | ⟨-, hplace | ⟨x, hplace⟩⟩ <;> rw [hplace, hcall] at hs
  · cases b <;> cases pc <;> cases hs
    refine Or.inr ⟨by rw [hcall]; rfl, ?_⟩
    split_ifs <;> simp
  · cases b <;> cases hs
  · cases b <;> cases hs

theorem reach_awaitsAccept (h : Reach (aioServing text) OnlyTasks (AioServing.init q t₀) c)
    (i : CallId) : AwaitsAccept (c.thread i) := by
  refine h.invariant (I := fun c => ∀ i, AwaitsAccept (c.thread i))
    (fun i pc hpc => by simp [AioServing.init] at hpc) ?_ i
  intro c a c' hr hok hs hi j
  rcases System.step_cases hs with ⟨e, s, rfl, he, rfl⟩ | ⟨i, x, s, t, rfl, hx, rfl⟩
  · exact hi j
  by_cases hj : j = i
  · subst hj
    rw [Config.move_thread_self]
    rcases clients_cases hx with
      ⟨a, r, rfl, hallow, hcall, hw, rfl⟩ | ⟨b, w, p, more, rfl, hown, rfl, rfl⟩
    · intro pc hpc
      obtain rfl : r = .accept pc := hpc
      rcases taskStep_accept hcall with rfl | ⟨pc', hpc'⟩
      · exact Or.inl hok
      · rcases hi j pc' hpc' with hplace | ⟨-, hplace⟩
        · exact Or.inl hplace
        · have hallow : (c.thread j).place.allows a = true := hallow
          rcases hplace with hplace | ⟨x, hplace⟩ <;> rw [hplace] at hallow <;>
            rcases a with _ | _ | _ | _ <;> cases hallow
    · cases more with
      | true => exact fun pc hpc => by cases hpc
      | false => exact (hi j).own hown
  · rw [Config.move_thread_of_ne _ _ hj]
    exact hi j

/-- The Connection that an accept has returned goes to a handler before the next accept. -/
theorem aioServeStep_passes {i : CallId} {b : Hop} {w w' : Started} {p p' : TaskPlace} {t : Task}
    {k : ConnId} (hs : aioServeStep i b w p t = some (w', p', true)) (hk : t.accepted? = some k) :
    (i, k) ∈ w' := by
  obtain rfl := Task.eq_of_accepted hk
  cases b <;> cases p <;> simp only [aioServeStep, reduceCtorEq] at hs
  case next.accepting =>
    cases hs
    simp
  case finish.handling => cases hs
  all_goals
    obtain ⟨⟨j, k'⟩, -, hk'⟩ := Option.map_eq_some_iff.mp hs
    cases hk'

theorem trace_aioArrival {d : Aio} {tr : List (Aio × AioAction)} {i : CallId} {k : ConnId}
    (h : Trace (aio text) anyStep (Aio.init q t₀) tr d) (hi : d.thread i = .accept (.returned k)) :
    k ∈ tr.flatMap Aio.arrival := by
  have hsound := trace_aioAcceptOrder h
  have hmem := (hsound.returned i k).mp (Task.acceptor_eq.mpr hi)
  rw [← List.flatMap_congr fun x _ => arrival_alone x, ← List.flatMap_map, ← hsound.order,
    List.append_assoc]
  exact List.mem_append_left _ (List.mem_map.mpr ⟨_, hmem, rfl⟩)

/-- **If only `serve_forever` accepts, no incoming Connection is lost.** Each is on its way to the
queue, in the queue, in the hands of a `serve_forever`, or its handler task was started. A
`serve_forever` that is cancelled while it waits leaves the queue to the others. -/
theorem aio_serving_complete (h : Reach (aioServing text) OnlyTasks (AioServing.init q t₀) c)
    {tr : List (Aio × AioAction)} (htr : Trace (aio text) anyStep (Aio.init q t₀) tr c.toAio)
    (k : ConnId) (hk : k ∈ tr.flatMap Aio.arrival) :
    (∃ i, (i, k) ∈ c.shared.2) ∨
      (∃ i, (c.thread i).place = .accepting ∧ (c.thread i).call = .accept (.returned k)) ∨
      some k ∈ c.shared.1.peer.acceptQueue ∨ k ∈ c.shared.1.pump.accepting := by
  have ho := trace_aioAcceptOrder htr
  have harr : k ∈ (tr.map Aio.alone).flatMap arrival := by
    rw [List.flatMap_map, List.flatMap_congr fun x _ => arrival_alone x]
    exact hk
  rw [← ho.order, List.mem_append, List.mem_append] at harr
  rcases harr with (hk | hk) | hk
  · obtain ⟨⟨m, k'⟩, hm, rfl⟩ := List.mem_map.mp hk
    have hreturned := Task.acceptor_eq.mp ((ho.returned m k').mpr hm)
    have hnth : (c.thread m.unpair.1).nth .idle m.unpair.2 = .accept (.returned k') := hreturned
    have hpassed := h.passed aioServeProgram_spawns (fun _ => rfl)
      (fun c i b w p k hr hown hk => aioServeStep_passes hown hk) m.unpair.1
    unfold Client.nth at hnth
    split_ifs at hnth with hlt heq
    · refine Or.inl ⟨m.unpair.1, hpassed k' (List.mem_filterMap.mpr
        ⟨.accept (.returned k'), ?_, rfl⟩)⟩
      rw [← hnth]
      exact List.getElem_mem _
    · refine Or.inr (Or.inl ⟨m.unpair.1, ?_, hnth⟩)
      rcases reach_awaitsAccept h m.unpair.1 _ hnth with hplace | ⟨hnone, -⟩
      · exact hplace
      · rw [hnth] at hnone
        cases hnone
  · obtain ⟨x, hx, hxk⟩ := List.mem_filterMap.mp hk
    obtain rfl : x = some k := hxk
    exact Or.inr (Or.inr (Or.inl hx))
  · exact Or.inr (Or.inr (Or.inr hk))

/-- The `serve_forever` is cancelled as it waits for a second Connection, which another one gets. -/
theorem aio_serving_complete_cancelled :
    ∃ c : AioServing, Reach (aioServing SystemAddress.text) OnlyTasks (AioServing.init none 0) c ∧
      (c.thread 0).place = .failed .cancelled ∧ c.shared.2 = [(0, 0), (2, 1)] ∧
      ∀ tr, Trace (aio SystemAddress.text) anyStep (Aio.init none 0) tr c.toAio →
        (∃ i, (i, 1) ∈ c.shared.2) ∨
          (∃ i, (c.thread i).place = .accepting ∧ (c.thread i).call = .accept (.returned 1)) ∨
          some 1 ∈ c.shared.1.peer.acceptQueue ∨ 1 ∈ c.shared.1.pump.accepting := by
  have h : Reach (aioServing SystemAddress.text) OnlyTasks (AioServing.init none 0) _ :=
    .of_exec (show (aioServing SystemAddress.text).exec OnlyTasks (aioClientServed ++
      [.thread 0 (.inl (.inl .accept)), .thread 0 (.inl (.inr .go)),
        .thread 0 (.inl (.inr .cancel)), .thread 0 (.inr .next), .shared .pump,
        .shared (.received (.packet ⟨⟨"10.0.0.2", 1⟩, 8, [19]⟩))] ++
      List.replicate 4 (.shared .pump) ++
      [.thread 2 (.inr .serve), .thread 2 (.inl (.inl .accept)), .thread 2 (.inl (.inr .go)),
        .thread 2 (.inl (.inr .go)), .thread 2 (.inr .next)]) (AioServing.init none 0) =
      some _ from rfl)
  refine ⟨_, h, rfl, rfl, fun tr htr => aio_serving_complete h htr 1 ?_⟩
  exact trace_aioArrival htr ((Config.calls_thread _ 2 0).trans rfl)

end Raknet
