import Raknet.Lib.Spawning
import Raknet.Sync.Accept

/-!
# `serve_forever` and its handler threads

A user's thread makes one call after another. In `serve_forever` it accepts, starts a thread for the
Connection and accepts again, until `accept` raises. A handler thread runs the user's handler, which
makes calls like any other code of the user, and closes its Connection in the end.

The threads are clients of the calls of `sync text`: what was proved of calls that interleave in any
way holds of the calls of these threads. Threads `2 * j` are the user's own, thread `2 * j + 1` is
the `j`th that a `serve_forever` starts.

**Theorem (`serving_sound`).** No Connection is handed to two handlers or to a handler and to an
accept of the user's; every `serve_forever` starts its handlers in order of arrival, and returns
only if the Peer is closed; and when a handler thread has ended its Connection is closed.

**Theorem (`serving_complete`).** If only `serve_forever` accepts, every incoming Connection is on
its way to the queue, in the queue, in the hands of a `serve_forever`, or has its handler thread.
-/

namespace Raknet

open Interleaving

/-! ## The threads -/

/-- Where a thread is in its own code. -/
inductive Place
  /-- in the user's code -/
  | user
  /-- at `connection = self.accept()` of `serve_forever` -/
  | accepting
  /-- `serve_forever` has returned -/
  | served
  /-- an exception has left `serve_forever` -/
  | failed (e : Error)
  /-- a handler thread, before its first step -/
  | unborn
  /-- in `handler(connection)` -/
  | handling (k : ConnId)
  /-- at `connection.close()` of `_run_handler` -/
  | closing (k : ConnId)
  /-- `_run_handler` has ended -/
  | handled (k : ConnId)
deriving DecidableEq, Repr

/-- A step of a thread between its calls. -/
inductive Move
  /-- the user's code makes its next call -/
  | call
  /-- the user's code calls `serve_forever` -/
  | serve
  /-- `serve_forever` goes on after `self.accept()` -/
  | next
  /-- a handler thread that was started begins to run -/
  | run
  /-- the handler returns or raises -/
  | finish
  /-- `_run_handler` ends after `connection.close()` -/
  | exit
deriving DecidableEq, Repr

/-- The exception is a `RakNetError`. -/
def Error.isRakNetError : Error → Bool
  | rakNet _ | connect _ _ _ => true
  | _ => false

/-- No call is under way. -/
def Call.over : Call → Bool
  | idle | closed _ | closedPeer => true
  | connect _ (.returned _) | connect _ (.raised _) => true
  | ping _ (.returned _) | ping _ (.raised _) => true
  | accept (.returned _) | accept (.raised _) => true
  | _ => false

/-- The handler threads started so far: who started each, and for which Connection. -/
abbrev Started := List (CallId × ConnId)

/-- What the code at a place lets its call do. `serve_forever` and `_run_handler` call one thing and
wait without a timeout. -/
def Place.allows : Place → CallStart ⊕ Choice → Bool
  | user, _ | handling _, _ => true
  | accepting, .inl .accept | accepting, .inr .go => true
  | closing k, .inl start => start = .close k true
  | closing _, .inr .go => true
  | _, _ => false

/-- A step of thread `i` between its calls, the last of which is `t`. -/
def serveStep (i : CallId) :
    Move → Started → Place → Call → Option (Started × Place × Bool)
  | .call, w, .user, t => if t.over then some (w, .user, true) else none
  | .call, w, .handling k, t => if t.over then some (w, .handling k, true) else none
  | .call, w, .served, _ => some (w, .user, true)
  | .serve, w, .user, t => if t.over then some (w, .accepting, true) else none
  | .next, w, .accepting, .accept (.returned k) => some (w ++ [(i, k)], .accepting, true)
  | .next, w, .accepting, .accept (.raised e) =>
    some (w, if e.isRakNetError then .served else .failed e, false)
  | .run, w, .unborn, _ => (w[i / 2]?).map fun (_, k) => (w, .handling k, false)
  | .finish, w, .handling k, t => if t.over then some (w, .closing k, true) else none
  | .exit, w, .closing k, .closed _ => some (w, .handled k, false)
  | _, _, _, _ => none

/-- The code of the threads. -/
def serveProgram : Program Call (CallStart ⊕ Choice) Started Place Move where
  allows := Place.allows
  own := serveStep

/-- A Peer with its users' threads, its `serve_forever` loops and their handler threads. -/
abbrev Serving := Config (State × Started) (Client Place Call)

abbrev ServingAction := Action State.Act ((CallStart ⊕ Choice) ⊕ Move)

/-- The pump, the closer, the readers and the threads of a sync Peer. -/
def serving (text : SystemAddress → String) :
    System (State × Started) (Client Place Call) State.Act ((CallStart ⊕ Choice) ⊕ Move) :=
  (sync text).clients serveProgram .idle

/-- A sync Peer whose pump was just started. -/
def Serving.init (maxQueue : Option Nat) (clock : Int) : Serving :=
  ⟨(.init maxQueue clock, []), fun i => ⟨if i % 2 = 1 then .unborn else .user, [], .idle⟩⟩

/-- The calls of the threads. -/
abbrev Serving.toSync (c : Serving) : Sync := c.calls .idle

variable {text : SystemAddress → String} {c c' : Serving} {q : Option Nat} {t₀ : Int}
  {ok : Serving → ServingAction → Prop}

theorem Serving.init_toSync (q : Option Nat) (t₀ : Int) :
    (Serving.init q t₀).toSync = Sync.init q t₀ :=
  Config.calls_init _ _ _

theorem reach_calls (h : Reach (serving text) ok (Serving.init q t₀) c) :
    Reach (sync text) anyStep (Sync.init q t₀) c.toSync := by
  have hr := h.calls
  rwa [show (Serving.init q t₀).calls .idle = Sync.init q t₀ from Serving.init_toSync q t₀] at hr

/-! ## Accepts -/

theorem closed_of_sentinel {d : Sync} (h : Reach (sync text) anyStep (Sync.init q t₀) d)
    (hq : none ∈ d.shared.peer.acceptQueue) : d.shared.peer.closed = true := by
  have hdone := (reach_sentinelDone h).mp ((reach_marked h).marked_of_mem (Or.inl hq))
  exact (reach_shutdownInv h).begun.mpr (by simp [hdone])

/-! ## Closed Connections -/

/-- A Connection whose `close` has returned is flagged and unregistered, for good. -/
theorem reach_retired {d : Sync} {okS : Sync → SyncAction → Prop}
    (h : Reach (sync text) okS (Sync.init q t₀) d) (i : CallId) (k : ConnId)
    (hi : d.thread i = .closed k) : d.shared.registry.Retired k := by
  refine (h.outline (G := fun _ => True) (L := fun _ s t => t = .closed k → s.registry.Retired k)
    trivial (fun _ h => by cases h) ?_ ?_).2 i hi
  · intro c e s hr _ hs _
    have hg :=
      ((act_effect hs).registry (reach_registryInv hr).1).grows (reach_registryInv hr).1.inv
    exact ⟨trivial, fun _ _ ht hk => hg.retired (ht hk)⟩
  · intro c j x s t hr _ hs _ _
    obtain ⟨hreg, hasserts⟩ := reach_registryInv hr
    have hg := ((callStep_effect hs).registry (hasserts j)).grows hreg.inv
    refine ⟨trivial, fun ht => ?_, fun _ _ _ hu hk => hg.retired (hu hk)⟩
    have hmine := hasserts j
    generalize c.thread j = call at hs hmine
    subst ht
    have hmove := callStep_move hs
    cases hmove with
    | closed c notify pc s' h => exact h.retired (hmine.closing k pc rfl)
    | begin start t h =>
      cases start <;> simp [startCall] at h

/-! ## What a thread's place asserts -/

/-- The Connection that an accept has returned. -/
def Call.accepted? : Call → Option ConnId
  | accept (.returned k) => some k
  | _ => none

/-- What is known of thread `i` when its code is at the place and its latest call at `t`. -/
def Place.Asserts (i : CallId) (s : State × Started) (t : Call) : Place → Prop
  | user => True
  | accepting => t = .idle ∨ ∃ pc, t = .accept pc ∧
      (pc = .putBack → s.1.peer.closed = true) ∧
      ∀ e, pc = .raised e → e = peerIsClosed ∧ s.1.peer.closed = true
  | served => s.1.peer.closed = true
  | failed _ => False
  | unborn => i % 2 = 1
  | handling k => i % 2 = 1 ∧ ∃ j, s.2[i / 2]? = some (j, k)
  | closing k => (i % 2 = 1 ∧ ∃ j, s.2[i / 2]? = some (j, k)) ∧
      (t = .idle ∨ (∃ pc, t = .close k true pc) ∨ t = .closed k)
  | handled k => (i % 2 = 1 ∧ ∃ j, s.2[i / 2]? = some (j, k)) ∧ s.1.registry.Retired k

/-- A place says of the thread what it said before, whatever the other threads do. -/
theorem Place.Asserts.grows {i : CallId} {s s' : State × Started} {t : Call} {p : Place}
    (h : p.Asserts i s t) (hclosed : s.1.peer.closed = true → s'.1.peer.closed = true)
    (hg : s.1.registry.Grows s'.1.registry) (hw : s.2 <+: s'.2) : p.Asserts i s' t := by
  have hstarted : ∀ k, (i % 2 = 1 ∧ ∃ j, s.2[i / 2]? = some (j, k)) →
      i % 2 = 1 ∧ ∃ j, s'.2[i / 2]? = some (j, k) := by
    rintro k ⟨hodd, j, hj⟩
    obtain ⟨l, hl⟩ := hw
    rw [← hl]
    exact ⟨hodd, j, by rw [List.getElem?_append_left (List.getElem?_eq_some_iff.mp hj).1, hj]⟩
  cases p with
  | accepting =>
    refine h.imp id fun ⟨pc, hpc, hput, hraised⟩ => ⟨pc, hpc, fun hp => hclosed (hput hp), ?_⟩
    exact fun e he => ⟨(hraised e he).1, hclosed (hraised e he).2⟩
  | served => exact hclosed h
  | handling k => exact hstarted k h
  | closing k => exact ⟨hstarted k h.1, h.2⟩
  | handled k => exact ⟨hstarted k h.1, hg.retired h.2⟩
  | _ => exact h

theorem Place.Asserts.step {i n : CallId} {s s' : State × Started} {t t' : Call} {p : Place}
    {a : CallStart ⊕ Choice} (h : p.Asserts i s t) (hallow : p.allows a = true)
    (hs : callStep text n a s.1 t = some (s'.1, t'))
    (hsentinel : none ∈ s.1.peer.acceptQueue → s.1.peer.closed = true)
    (hclosed : s.1.peer.closed = true → s'.1.peer.closed = true) (hw : s'.2 = s.2) :
    p.Asserts i s' t' := by
  obtain ⟨s', w'⟩ := s'
  simp only at hs hw hclosed
  subst hw
  cases p with
  | user => trivial
  | handling k => exact h
  | accepting =>
    right
    rcases h with rfl | ⟨pc, rfl, hput, -⟩
    · cases a with
      | inl start =>
        cases start <;> simp only [Place.allows, reduceCtorEq] at hallow
        cases hs
        exact ⟨.checkOpen, rfl, by simp, by simp⟩
      | inr ch => cases hs
    · rcases a with start | ch
      · cases hs
      cases ch <;> simp only [Place.allows, reduceCtorEq] at hallow
      obtain ⟨⟨s₁, pc'⟩, hr, hu⟩ := Option.map_eq_some_iff.mp hs
      cases hu
      refine ⟨pc', rfl, ?_⟩
      cases acceptStep_acceptEffect hr with
      | refused hc => exact ⟨by simp, fun e he => by cases he; exact ⟨rfl, hclosed hc⟩⟩
      | checkOpen hopen => exact ⟨by simp, by simp⟩
      | get k rest hqueue => exact ⟨by simp, by simp⟩
      | getSentinel rest hqueue => exact ⟨fun _ => hclosed (hsentinel (by simp [hqueue])), by simp⟩
      | timeout =>
        -- `accept()` waits without a timeout
        simp only [acceptStep] at hr
        split at hr <;> simp at hr
      | putBack => exact ⟨by simp, fun e he => by cases he; exact ⟨rfl, hclosed (hput rfl)⟩⟩
  | closing k =>
    obtain ⟨hstarted, hcall⟩ := h
    refine ⟨hstarted, Or.inr ?_⟩
    rcases hcall with rfl | ⟨pc, rfl⟩ | rfl
    · cases a with
      | inl start =>
        simp only [Place.allows, decide_eq_true_eq] at hallow
        subst hallow
        obtain ⟨u, hu, heq⟩ := Option.map_eq_some_iff.mp hs
        simp only [startCall] at hu
        split_ifs at hu
        cases hu
        cases heq
        exact Or.inl ⟨.check, rfl⟩
      | inr ch => cases hs
    · rcases a with start | ch
      · cases hs
      cases ch <;> simp only [Place.allows, reduceCtorEq] at hallow
      obtain ⟨⟨s₁, m⟩, hr, hu⟩ := Option.map_eq_some_iff.mp hs
      rcases m with pc' | _ <;> cases hu
      · exact Or.inl ⟨pc', rfl⟩
      · exact Or.inr rfl
    · rcases a with start | (_ | _ | _ | _ | _) <;> cases hs
  | served | failed e | unborn | handled k =>
    rcases a with _ | (_ | _ | _ | _ | _) <;> cases hallow

theorem Place.Asserts.own {i : CallId} {s : State × Started} {t : Call} {p p' : Place} {b : Move}
    {w : Started} {more : Bool} (h : p.Asserts i s t)
    (hs : serveStep i b s.2 p t = some (w, p', more))
    (hretired : ∀ k, t = .closed k → s.1.registry.Retired k) :
    p'.Asserts i (s.1, w) (if more then .idle else t) := by
  unfold serveStep at hs
  split at hs
  · split_ifs at hs
    cases hs
    trivial
  · split_ifs at hs
    cases hs
    exact h
  · cases hs
    trivial
  · split_ifs at hs
    cases hs
    exact Or.inl rfl
  · cases hs
    exact Or.inl rfl
  · next e =>
    rcases h with h | ⟨pc, hpc, -, hraised⟩
    · cases h
    · cases hpc
      obtain ⟨rfl, hclosed⟩ := hraised e rfl
      cases hs
      exact hclosed
  · obtain ⟨⟨j, k⟩, hj, hk⟩ := Option.map_eq_some_iff.mp hs
    cases hk
    exact ⟨h, j, hj⟩
  · split_ifs at hs
    cases hs
    exact ⟨h, Or.inl rfl⟩
  · next k k' =>
    obtain ⟨hstarted, hcall⟩ := h
    rcases hcall with hcall | ⟨pc, hcall⟩ | hcall
    · cases hcall
    · cases hcall
    · cases hcall
      cases hs
      exact ⟨hstarted, hretired k rfl⟩
  · cases hs

/-! ## Over whole runs -/

theorem callStep_accepted {i : CallId} {a : CallStart ⊕ Choice} {s s' : State} {t t' : Call}
    {k : ConnId} (hs : callStep text i a s t = some (s', t')) (hk : t'.accepted? = some k) :
    some k ∈ s.peer.acceptQueue := by
  cases callStep_move hs with
  | accept pc pc' s' h =>
    cases h with
    | get k' rest hqueue =>
      cases hk
      simp [hqueue]
    | _ => cases hk
  | begin start t h =>
    cases start <;> simp only [startCall] at h
    case close =>
      split_ifs at h
      cases h
      cases hk
    all_goals
      cases h
      cases hk
  | _ => cases hk

theorem Call.eq_of_accepted {t : Call} {k : ConnId} (h : t.accepted? = some k) :
    t = .accept (.returned k) := by
  unfold Call.accepted? at h
  split at h <;> cases h
  rfl

/-- The accepts take the Connections one by one, in order of arrival. -/
theorem sync_takes (q : Option Nat) (t₀ : Int) :
    (sync text).Takes (Sync.init q t₀) Call.accepted? (· < ·) where
  distinct _ _ _ _ h hn hm := by
    obtain ⟨tr, htr⟩ := h.exists_trace
    exact (trace_acceptOrder htr).distinct (Call.eq_of_accepted hn) (Call.eq_of_accepted hm)
  later _ _ _ _ _ _ _ _ h hs hk hm := by
    obtain ⟨tr, htr⟩ := h.exists_trace
    exact (trace_acceptOrder htr).below (Call.eq_of_accepted hm) (callStep_accepted hs hk)

theorem serveProgram_spawns : serveProgram.Spawns Call.accepted? := by
  intro i b w p t w' p' more h
  unfold serveProgram serveStep at h
  simp only at h
  split at h
  case h_5 k =>
    cases h
    exact Or.inr ⟨k, rfl, rfl, rfl⟩
  case h_7 =>
    obtain ⟨⟨j, k⟩, -, hk⟩ := Option.map_eq_some_iff.mp h
    cases hk
    exact Or.inl rfl
  all_goals
    try split_ifs at h
    all_goals
      cases h
      try exact Or.inl rfl

theorem reach_spawned (h : Reach (serving text) ok (Serving.init q t₀) c) :
    Spawned Call.accepted? (· < ·) c := by
  refine h.spawned serveProgram_spawns ?_ rfl (spawned_init .idle rfl rfl fun i => ?_)
  · rw [show (Serving.init q t₀).calls .idle = Sync.init q t₀ from Serving.init_toSync q t₀]
    exact sync_takes q t₀
  · exact ⟨rfl, rfl⟩

theorem step_closedPeer {d d' : Sync} {b : SyncAction} (hs : (sync text).step d b = some d')
    (hclosed : d.shared.peer.closed = true) : d'.shared.peer.closed = true := by
  rcases System.step_cases hs with ⟨e, s, rfl, he, rfl⟩ | ⟨i, x, s, t, rfl, hx, rfl⟩
  · exact (act_effect he).closed_kept hclosed
  · exact (callStep_effect hx).closed_kept hclosed

theorem calls_grows (h : Reach (serving text) ok (Serving.init q t₀) c)
    {a : ServingAction} (hs : (serving text).step c a = some c') :
    (c.shared.1.peer.closed = true → c'.shared.1.peer.closed = true) ∧
      c.shared.1.registry.Grows c'.shared.1.registry := by
  have hr := reach_calls h
  rcases clients_step hs with heq | ⟨b, hb⟩
  · have hsame : c'.shared.1 = c.shared.1 := congrArg Config.shared heq
    rw [hsame]
    exact ⟨id, .refl _⟩
  · exact ⟨step_closedPeer hb, (step_registry hr hb).grows (reach_registryInv hr).1.inv⟩

theorem reach_places (h : Reach (serving text) ok (Serving.init q t₀) c) (i : CallId) :
    (c.thread i).place.Asserts i c.shared (c.thread i).call := by
  refine h.invariant (I := fun c => ∀ i, (c.thread i).place.Asserts i c.shared (c.thread i).call)
    (fun i => ?_) ?_ i
  · by_cases hodd : i % 2 = 1 <;> simp [Serving.init, Place.Asserts, hodd]
  intro c a c' hr _ hs hi j
  obtain ⟨hclosed, hg⟩ := calls_grows hr hs
  have hrs := reach_calls hr
  rcases System.step_cases hs with ⟨e, s, rfl, he, rfl⟩ | ⟨i, x, s, t, rfl, hx, rfl⟩
  · obtain ⟨s₁, -, rfl⟩ := Option.map_eq_some_iff.mp he
    exact (hi j).grows hclosed hg List.prefix_rfl
  rcases clients_cases hx with
    ⟨a, r, rfl, hallow, hcall, hw, rfl⟩ | ⟨b, w, p, more, rfl, hown, rfl, rfl⟩
  · by_cases hj : j = i
    · subst hj
      rw [Config.move_thread_self]
      exact (hi j).step hallow hcall (closed_of_sentinel hrs) hclosed hw
    · rw [Config.move_thread_of_ne _ _ hj]
      exact (hi j).grows hclosed hg (by rw [Config.move_shared, hw])
  · have hmine : (c.calls .idle).thread (Nat.pair i (c.thread i).past.length) =
        (c.thread i).call := by
      rw [Config.calls_thread, Client.nth_call]
    by_cases hj : j = i
    · subst hj
      rw [Config.move_thread_self]
      have hown' := (hi j).own hown fun k hk => reach_retired hrs _ k (hmine.trans hk)
      cases more <;> exact hown'
    · rw [Config.move_thread_of_ne _ _ hj]
      exact (hi j).grows id (.refl _) (serveProgram_spawns.grows hown)

/-! ## Serving -/

/-- Who has the Connections that the threads accept, and what becomes of them. -/
structure Served (c : Serving) : Prop where
  /-- No Connection is handed to two handlers. -/
  once : (c.shared.2.map Prod.snd).Nodup
  /-- No two accepts return the same Connection, the users' own included. -/
  exclusive : ∀ i n j m k, (c.thread i).nth .idle n = .accept (.returned k) →
    (c.thread j).nth .idle m = .accept (.returned k) → i = j ∧ n = m
  /-- Who starts a handler thread has accepted its Connection. -/
  accepted : ∀ i k, (i, k) ∈ c.shared.2 → ∃ n, (c.thread i).nth .idle n = .accept (.returned k)
  /-- A thread starts its handler threads in the order in which their Connections arrived. -/
  order : ∀ i, ((c.shared.2.filter (·.1 = i)).map Prod.snd).Pairwise (· < ·)
  /-- A handler thread works on the Connection it was started for. -/
  handler : ∀ i k, (c.thread i).place = .handling k ∨ (c.thread i).place = .closing k ∨
    (c.thread i).place = .handled k → i % 2 = 1 ∧ ∃ j, c.shared.2[i / 2]? = some (j, k)
  /-- When a handler thread has ended, its Connection is closed and not in the registry. -/
  handled : ∀ i k, (c.thread i).place = .handled k → (c.shared.1.peer.connection k).closed = true ∧
    ∀ g, c.shared.1.peer.connections.get? g ≠ some k
  /-- `serve_forever` returns only if the Peer is closed, and raises nothing. -/
  served : ∀ i, (c.thread i).place = .served → c.shared.1.peer.closed = true
  unfailing : ∀ i e, (c.thread i).place ≠ .failed e

/-- **Serving.** Whatever the threads do: every Connection has one taker, `serve_forever` starts its
handlers in order of arrival and ends only with the Peer, and a handler leaves its Connection
closed. -/
theorem serving_sound (h : Reach (serving text) ok (Serving.init q t₀) c) : Served c := by
  have hi := reach_spawned h
  have hr := reach_calls h
  have hplace := reach_places h
  constructor
  case once => exact hi.once
  case exclusive =>
    intro i n j m k hn hm
    rw [← Config.calls_thread] at hn hm
    obtain ⟨tr, htr⟩ := hr.exists_trace
    exact Nat.pair_eq_pair.mp ((trace_acceptOrder htr).distinct hn hm)
  case accepted =>
    intro i k hk
    obtain ⟨n, -, hn⟩ := hi.exists_call .idle hk
    exact ⟨n, Call.eq_of_accepted hn⟩
  case order => exact hi.order
  case handler =>
    intro i k hk
    have hat := hplace i
    rcases hk with hk | hk | hk <;> rw [hk] at hat
    · exact hat
    · exact hat.1
    · exact hat.1
  case handled =>
    intro i k hk
    have hat := hplace i
    rw [hk] at hat
    exact ⟨hat.2.2, fun g hg => hat.2.1.2 ⟨g, hg⟩⟩
  case served =>
    intro i hserved
    have hat := hplace i
    rwa [hserved] at hat
  case unfailing =>
    intro i e hfailed
    have hat := hplace i
    rwa [hfailed] at hat

/-- Thread 0 serves, and a client connects. -/
def clientServed : List ServingAction :=
  [.thread 0 (.inr .serve), .thread 0 (.inl (.inl .accept)), .thread 0 (.inl (.inr .go)),
    .shared .pump, .shared (.received (.packet ⟨⟨"10.0.0.1", 1⟩, 7, [19]⟩))] ++
  List.replicate 4 (.shared .pump) ++
  [.thread 0 (.inl (.inr .go)), .thread 0 (.inr .next), .thread 1 (.inr .run)]

/-- The handler returns, its thread closes the Connection, and the Peer is closed. -/
theorem serving_sound_one :
    ∃ c, Reach (serving SystemAddress.text) anyStep (Serving.init none 0) c ∧ Served c ∧
      c.shared.2 = [(0, 0)] ∧ (c.thread 1).place = .handled 0 ∧ (c.thread 0).place = .served := by
  have h : Reach (serving SystemAddress.text) anyStep (Serving.init none 0) _ :=
    .of_exec (show (serving SystemAddress.text).exec anyStep (clientServed ++
      [.thread 1 (.inr .finish), .thread 1 (.inl (.inl (.close 0 true)))] ++
      List.replicate 7 (.thread 1 (.inl (.inr .go))) ++
      [.thread 1 (.inr .exit), .thread 2 (.inl (.inl .closePeer)), .thread 2 (.inl (.inr .go)),
        .thread 0 (.inl (.inl .accept)), .thread 0 (.inl (.inr .go)), .thread 0 (.inr .next)])
      (Serving.init none 0) = some _ from rfl)
  exact ⟨_, h, serving_sound h, rfl, rfl, rfl⟩

/-! ## If nobody else accepts -/

/-- The step does not begin an accept of the user's own. -/
def OnlyServers (c : Serving) : ServingAction → Prop
  | .thread i (.inl (.inl .accept)) => (c.thread i).place = .accepting
  | _ => True

instance Serving.decidableOnlyServers (c : Serving) (a : ServingAction) :
    Decidable (OnlyServers c a) := by
  rcases a with _ | ⟨i, ((_ | _ | _ | _ | _) | _) | _⟩ <;> simp only [OnlyServers] <;>
    infer_instance

/-- An accept of the thread is that of its `serve_forever`. -/
def Attends (t : Client Place Call) : Prop :=
  ∀ pc, t.call = .accept pc → t.place = .accepting ∨
    t.call.accepted? = none ∧ (t.place = .served ∨ ∃ e, t.place = .failed e)

/-- A call becomes an accept only by beginning as one. -/
theorem callStep_accept {i : CallId} {a : CallStart ⊕ Choice} {s s' : State} {t : Call}
    {pc : AcceptPc} (hs : callStep text i a s t = some (s', .accept pc)) :
    a = .inl .accept ∨ ∃ pc', t = .accept pc' := by
  generalize ht' : Call.accept pc = t' at hs
  by_cases hidle : t = .idle
  · subst hidle
    rcases a with start | ch
    · obtain ⟨u, hu, heq⟩ := Option.map_eq_some_iff.mp hs
      cases heq
      cases start <;> simp only [startCall] at hu
      case accept => exact Or.inl rfl
      case close =>
        split_ifs at hu
        cases hu
        cases ht'
      all_goals
        cases hu
        cases ht'
    · cases hs
  · exact Or.inr (((callStep_move hs).accept_iff hidle).mpr ⟨pc, ht'.symm⟩)

/-- The Connection of an accept that has returned goes to a handler before the next call. -/
theorem Attends.passes {i : CallId} {w w' : Started} {t : Client Place Call} {b : Move} {p : Place}
    {k : ConnId} (h : Attends t) (hs : serveStep i b w t.place t.call = some (w', p, true))
    (hk : t.call.accepted? = some k) : (i, k) ∈ w' := by
  have hcall := Call.eq_of_accepted hk
  rcases h _ hcall with hplace | ⟨hnone, -⟩
  · rw [hplace, hcall] at hs
    cases b <;> cases hs
    simp
  · rw [hnone] at hk
    cases hk

theorem Attends.own {i : CallId} {w w' : Started} {t : Client Place Call} {b : Move} {p : Place}
    (h : Attends t) (hs : serveStep i b w t.place t.call = some (w', p, false)) :
    Attends { t with place := p } := by
  intro pc hpc
  have hcall : t.call = .accept pc := hpc
  rcases h pc hcall with hplace | ⟨-, hplace | ⟨e, hplace⟩⟩ <;> rw [hplace, hcall] at hs
  · cases b <;> cases pc <;> cases hs
    refine Or.inr ⟨by rw [hcall]; rfl, ?_⟩
    split_ifs <;> simp
  · cases b <;> cases hs
  · cases b <;> cases hs

theorem reach_attends (h : Reach (serving text) OnlyServers (Serving.init q t₀) c) (i : CallId) :
    Attends (c.thread i) := by
  refine h.invariant (I := fun c => ∀ i, Attends (c.thread i))
    (fun i pc hpc => by simp [Serving.init] at hpc) ?_ i
  intro c a c' hr hok hs hi j
  rcases System.step_cases hs with ⟨e, s, rfl, he, rfl⟩ | ⟨i, x, s, t, rfl, hx, rfl⟩
  · exact hi j
  by_cases hj : j = i
  · subst hj
    rw [Config.move_thread_self]
    rcases clients_cases hx with
      ⟨a, r, rfl, hallow, hcall, hw, rfl⟩ | ⟨b, w, p, more, rfl, hown, rfl, rfl⟩
    · intro pc hpc
      obtain rfl : r = .accept pc := hpc
      rcases callStep_accept hcall with rfl | ⟨pc', hpc'⟩
      · exact Or.inl hok
      · rcases hi j pc' hpc' with hplace | ⟨-, hplace⟩
        · exact Or.inl hplace
        · have hallow : (c.thread j).place.allows a = true := hallow
          rcases hplace with hplace | ⟨e, hplace⟩ <;> rw [hplace] at hallow <;>
            rcases a with _ | (_ | _ | _ | _ | _) <;> cases hallow
    · cases more with
      | true => exact fun pc hpc => by cases hpc
      | false => exact (hi j).own hown
  · rw [Config.move_thread_of_ne _ _ hj]
    exact hi j

/-- **If only `serve_forever` accepts, no incoming Connection is lost.** Each is on its way to the
queue, in the queue, in the hands of a `serve_forever`, or its handler thread was started. -/
theorem serving_complete (h : Reach (serving text) OnlyServers (Serving.init q t₀) c)
    {tr : List (Sync × SyncAction)} (htr : Trace (sync text) anyStep (Sync.init q t₀) tr c.toSync)
    (k : ConnId) (hk : k ∈ tr.flatMap arrival) :
    (∃ i, (i, k) ∈ c.shared.2) ∨
      (∃ i, (c.thread i).place = .accepting ∧ (c.thread i).call = .accept (.returned k)) ∨
      some k ∈ c.shared.1.peer.acceptQueue ∨ k ∈ c.shared.1.pump.accepting := by
  have ho := trace_acceptOrder htr
  rw [← ho.order, List.mem_append, List.mem_append] at hk
  rcases hk with (hk | hk) | hk
  · obtain ⟨⟨m, k'⟩, hm, rfl⟩ := List.mem_map.mp hk
    have hreturned := (ho.returned m k').mpr hm
    have hnth : (c.thread m.unpair.1).nth .idle m.unpair.2 = .accept (.returned k') := hreturned
    have hpassed := h.passed serveProgram_spawns (fun _ => rfl)
      (fun c i b w p k hr hown hk => (reach_attends hr i).passes hown hk) m.unpair.1
    unfold Client.nth at hnth
    split_ifs at hnth with hlt heq
    · refine Or.inl ⟨m.unpair.1, hpassed k' (List.mem_filterMap.mpr
        ⟨.accept (.returned k'), ?_, rfl⟩)⟩
      rw [← hnth]
      exact List.getElem_mem _
    · refine Or.inr (Or.inl ⟨m.unpair.1, ?_, hnth⟩)
      rcases reach_attends h m.unpair.1 _ hnth with hplace | ⟨hnone, -⟩
      · exact hplace
      · rw [hnth] at hnone
        cases hnone
  · obtain ⟨x, hx, hxk⟩ := List.mem_filterMap.mp hk
    obtain rfl : x = some k := hxk
    exact Or.inr (Or.inr (Or.inl hx))
  · exact Or.inr (Or.inr (Or.inr hk))

/-- A second client connects while the handler of the first is at work. -/
theorem serving_complete_two :
    ∃ c : Serving, Reach (serving SystemAddress.text) OnlyServers (Serving.init none 0) c ∧
      c.shared.2 = [(0, 0)] ∧ (c.thread 1).place = .handling 0 ∧
      ∀ tr, Trace (sync SystemAddress.text) anyStep (Sync.init none 0) tr c.toSync →
        (∃ i, (i, 1) ∈ c.shared.2) ∨
          (∃ i, (c.thread i).place = .accepting ∧ (c.thread i).call = .accept (.returned 1)) ∨
          some 1 ∈ c.shared.1.peer.acceptQueue ∨ 1 ∈ c.shared.1.pump.accepting := by
  have h : Reach (serving SystemAddress.text) OnlyServers (Serving.init none 0) _ :=
    .of_exec (show (serving SystemAddress.text).exec OnlyServers (clientServed ++
      [.shared .pump, .shared (.received (.packet ⟨⟨"10.0.0.2", 1⟩, 8, [19]⟩))] ++
      List.replicate 4 (.shared .pump)) (Serving.init none 0) = some _ from rfl)
  refine ⟨_, h, rfl, rfl, fun tr htr => serving_complete h htr 1 ?_⟩
  rw [← (trace_acceptOrder htr).order]
  exact List.mem_append_left _ (List.mem_append_right _ List.mem_cons_self)

end Raknet
