import Raknet.Aio.Requests
import Raknet.Lib.Trace
import Raknet.Sync.Accept
import Raknet.Sync.Sweep

/-!
# Cancelled teardowns of an asyncio Peer

`Peer.close` sets the flag and empties the tables, awaits the end of the pump and the shutdown of
RakNet, and only then releases the Connections and waiters it took. `CancelledError` can reach it at
both awaits; then nobody releases them, and every later `close` finds the flag set.

**Theorem (`teardown_survives`).** In all states of a run in which the Peer is closed and no `close`
or `_fail` is tearing it down, all of the snapshot is released and the sentinel is put, exactly if
no step of the run cancels a `close` that has won `_begin_close`.
-/

namespace Raknet

open Interleaving

variable {text : SystemAddress → String} {s s' : State} {i : CallId}

/-! ## Teardowns -/

/-- The call of `Connection.close` or `Peer.close` is past `_begin_close`, which it won. -/
def ClosePc.closesPeer : ClosePc → Bool
  | peer .closing => true
  | _ => false

/-- The connect is in a `Peer.close`, past `_begin_close`. -/
def ConnectTask.closesPeer : ConnectTask → Bool
  | reap _ pc => pc.closesPeer
  | closePeer _ .closing => true
  | _ => false

/-- The task is in a `Peer.close`, past `_begin_close`. -/
def Task.closesPeer : Task → Bool
  | connect _ _ pc => pc.closesPeer
  | close _ _ pc => pc.closesPeer
  | closePeer .closing => true
  | _ => false

/-- A `close` or a `_fail` that won `_begin_close` is in progress. -/
def Aio.Closing (c : Aio) : Prop :=
  c.shared.pump = .failing ∨ ∃ i, (c.thread i).closesPeer = true

/-- Everybody whom `_begin_close` took out of the tables is released, and the sentinel is put. -/
structure Released (s : State) : Prop where
  connections : ∀ snap, .beganClose snap ∈ s.log →
    ∀ k ∈ snap.connections, (s.peer.connection k).mailbox.exc ≠ none
  connects : ∀ snap, .beganClose snap ∈ s.log →
    ∀ i ∈ snap.pendingConnects, (s.peer.pendingConnect i).event = true
  pings : ∀ snap, .beganClose snap ∈ s.log →
    ∀ i ∈ snap.pendingPings, (s.peer.pendingPing i).event = true
  sentinel : .sentinel ∈ s.log

/-- Nobody is stranded in a closed Peer. -/
def Aio.TornDown (c : Aio) : Prop :=
  c.shared.peer.closed = true → ¬ c.Closing → Released c.shared

/-- The step does not cancel the `close` that tears the Peer down. -/
def Aio.Spares (c : Aio) : AioAction → Prop
  | .thread i (.inr .cancel) => (c.thread i).closesPeer = false
  | _ => True

/-! ## Who tears the Peer down -/

/-- The closer has begun and is not done. -/
def Teardown.running : Teardown → Bool
  | unbegun | done | cancelled _ => false
  | _ => true

/-- What a step does to the teardown, of a task that closes the Peer before it or after it: nothing,
it begins it, it sees that it is done, or it is cancelled. -/
inductive TeardownMove (s s' : State) (cancel : Prop) : Bool → Bool → Prop
  | keep (b : Bool) (hteardown : s'.teardown = s.teardown)
      (hclosed : s'.peer.closed = s.peer.closed) (hpump : s'.pump = s.pump)
      (hcancel : cancel → b = false) : TeardownMove s s' cancel b b
  | begin (hopen : s.peer.closed = false) (hs : s' = s.beginClose .joining) :
      TeardownMove s s' cancel false true
  | done (hs : s' = s) (hdone : s.teardown = .done) (hgo : ¬ cancel) :
      TeardownMove s s' cancel true false
  | cancelled (h : cancel) (hs : s.cancelClose = some s') : TeardownMove s s' cancel true false

@[simp] theorem closesPeer_exit (args : ConnectArgs) (x : Exit) :
    (args.exit x).closesPeer = false := by
  unfold ConnectArgs.exit
  split_ifs <;> rfl

@[simp] theorem closesPeer_hand (args : ConnectArgs) (c : ConnId) :
    (args.hand c).closesPeer = false := by
  unfold ConnectArgs.hand
  split_ifs <;> rfl

theorem TeardownMove.same {p : Prop} {b b' : Bool} (hteardown : s'.teardown = s.teardown)
    (hclosed : s'.peer.closed = s.peer.closed) (hpump : s'.pump = s.pump) (hb : b = b')
    (hcancel : p → b = false) : TeardownMove s s' p b b' :=
  hb ▸ .keep b hteardown hclosed hpump hcancel

/-- An exception that leaves `Peer.connect` leaves no `Peer.close` of it behind. -/
theorem TeardownMove.exit {p : Prop} {b : Bool} (h : TeardownMove s s' p b false)
    (args : ConnectArgs) (w : ConnectWorker) (x : Exit) :
    TeardownMove s s' p b (Task.connect args w (args.exit x)).closesPeer := by
  rw [Task.closesPeer, closesPeer_exit]
  exact h

theorem CloseEffect.teardown {c : ConnId} {notify : Bool} {pc : ClosePc} {pc' : Option ClosePc}
    (h : CloseEffect c notify s pc s' pc') :
    TeardownMove s s' False pc.closesPeer (pc'.elim false ClosePc.closesPeer) := by
  cases h with
  | begin hopen => exact .begin hopen rfl
  | closed hdone => exact .done rfl hdone id
  | _ => exact .same rfl rfl rfl rfl False.elim

theorem TeardownMove.mono {p p' : Prop} {b b' : Bool} (h : TeardownMove s s' p b b')
    (hp : ¬ p) (hp' : ¬ p') : TeardownMove s s' p' b b' := by
  cases h with
  | keep b hteardown hclosed hpump hcancel =>
    exact .keep b hteardown hclosed hpump fun h => absurd h hp'
  | begin hopen hs => exact .begin hopen hs
  | done hs hdone hgo => exact .done hs hdone hp'
  | cancelled h hs => exact absurd h hp

theorem Unmoved.teardownMove {p : Prop} {b : Bool} (h : Unmoved s s') (hcancel : p → b = false) :
    TeardownMove s s' p b b :=
  .keep b h.teardown h.closed h.pump hcancel

theorem acceptStep_teardown {pc pc' : AcceptPc} (h : acceptStep s pc .go = some (s', pc')) :
    s'.teardown = s.teardown ∧ s'.peer.closed = s.peer.closed ∧ s'.pump = s.pump := by
  cases acceptStep_acceptEffect h <;> exact ⟨rfl, rfl, rfl⟩

theorem TaskMove.teardown {t t' : Task} {x : CallStart ⊕ TaskChoice}
    (h : TaskMove text i s t x s' t') :
    TeardownMove s s' (x = .inr .cancel) t.closesPeer t'.closesPeer := by
  cases h with
  | begin start t h =>
    refine .same rfl rfl rfl ?_ (by simp)
    cases start <;> simp only [startTask] at h
    case close c notify =>
      split_ifs at h
      cases h
      rfl
    all_goals
      cases h
      rfl
  | connect args w w' pc pc' s' ch h =>
    cases h with
    | work q ch s' n pc h => exact (startStep_unmoved h).teardownMove (by simp)
    | raised e | drop | cancelStart w hw | nothing w hconn | cancel w a | failed w e h =>
      exact .same rfl rfl rfl (closesPeer_exit _ _).symm fun _ => rfl
    | finish w c h => exact .same rfl rfl rfl (closesPeer_hand _ _).symm fun _ => rfl
    | reap w c pc pc' s' h => exact h.teardown.mono id (by simp)
    | reaped w c pc s' h => exact (h.teardown.mono id (by simp)).exit _ _ _
    | cancelReap w c s' h => exact (TeardownMove.cancelled rfl h).exit _ _ _
    | cancelClosePeer w x s' h => exact .cancelled rfl h
    | closeBegin w x hopen => exact .begin hopen rfl
    | closeDone w x hdone => exact .done rfl hdone (by simp)
    | _ => exact .same rfl rfl rfl rfl fun _ => rfl
  | ping args w w' pc pc' s' ch h =>
    cases h with
    | work q ch s' n pc h => exact (startPingStep_unmoved h).teardownMove (by simp)
    | _ => exact .same rfl rfl rfl rfl fun _ => rfl
  | accept pc pc' s' h =>
    obtain ⟨hteardown, hclosed, hpump⟩ := acceptStep_teardown h
    exact .same hteardown hclosed hpump rfl fun _ => rfl
  | close c notify pc pc' s' h => exact h.teardown.mono id (by simp)
  | closed c notify pc s' h => exact h.teardown.mono id (by simp)
  | closeBegin hopen => exact .begin hopen rfl
  | closeDone hdone => exact .done rfl hdone (by simp)
  | cancelClose c notify s' h => exact .cancelled rfl h
  | cancelClosePeer s' h => exact .cancelled rfl h
  | cancelAccept | closeLost hclosed => exact .same rfl rfl rfl rfl fun _ => rfl

/-- A step of the shared state on the teardown: the crash begins it, or nobody does. -/
theorem ActEffect.teardown {e : State.Act} (h : ActEffect text s e s') :
    s.peer.closed = false ∧ s'.peer.closed = true ∧ s'.pump = .failing ∨
    s'.peer.closed = s.peer.closed ∧ (s'.pump = .failing → s.pump = .failing) ∧
      (s'.teardown.running = true →
        s.teardown.running = true ∧ (s.pump = .failing → s'.pump = .failing)) := by
  cases h with
  | fail detail h hopen => exact Or.inl ⟨hopen, rfl, rfl⟩
  | drop h =>
    have hfailing : s.pump ≠ .failing := fun hp => by simp [hp, PumpPc.DropsIn] at h
    exact Or.inr ⟨rfl, by simp, fun ht => ⟨ht, fun hp => absurd hp hfailing⟩⟩
  | _ =>
    refine Or.inr ⟨rfl, ?_, ?_⟩
    all_goals simp_all [Teardown.running]

/-- One at most tears the Peer down, and until it is done or was cancelled it is there. -/
structure Winner (c : Aio) : Prop where
  one : ∀ i j, (c.thread i).closesPeer = true → (c.thread j).closesPeer = true → i = j
  closed : ∀ i, (c.thread i).closesPeer = true → c.shared.peer.closed = true
  spared : ∀ i, (c.thread i).closesPeer = true → c.shared.pump ≠ .failing
  held : c.shared.teardown.running = true → c.Closing

theorem winner_init (q : Option Nat) (t₀ : Int) : Winner (Aio.init q t₀) := by
  constructor <;> simp [Aio.init, State.init, Task.closesPeer, Teardown.running]

theorem Winner.shared {c : Aio} {e : State.Act} (h : Winner c)
    (heff : ActEffect text c.shared e s) : Winner { c with shared := s } := by
  rcases heff.teardown with ⟨hopen, hclosed, hpump⟩ | ⟨hclosed, hpump, hrunning⟩
  · have hnone : ∀ i, (c.thread i).closesPeer ≠ true := fun i hi => by
      simp [h.closed i hi] at hopen
    exact ⟨h.one, fun _ _ => hclosed, fun i hi => absurd hi (hnone i), fun _ => Or.inl hpump⟩
  · refine ⟨h.one, fun i hi => hclosed.trans (h.closed i hi),
      fun i hi hp => h.spared i hi (hpump hp), fun ht => ?_⟩
    obtain ⟨hs, hfailing⟩ := hrunning ht
    exact (h.held hs).imp_left hfailing

/-- When the task that tears the Peer down lets go, nobody does. -/
theorem Winner.nobody {c : Aio} {t : Task} (h : Winner c) (hb : (c.thread i).closesPeer = true)
    (hb' : t.closesPeer = false) (j : CallId) : ((c.move i (s, t)).thread j).closesPeer ≠ true := by
  intro hj
  by_cases hji : j = i
  · subst hji
    rw [Config.move_thread_self, hb'] at hj
    cases hj
  · rw [Config.move_thread_of_ne _ _ hji] at hj
    exact hji (h.one j i hj hb)

theorem Winner.thread {c : Aio} {t : Task} {x : CallStart ⊕ TaskChoice} (h : Winner c)
    (hmove : TaskMove text i c.shared (c.thread i) x s t) (hsd : AioShutdown c.shared) :
    Winner (c.move i (s, t)) := by
  have hteardown := hmove.teardown
  -- the other tasks are where they were
  have hother : ∀ j, j ≠ i → (c.move i (s, t)).thread j = c.thread j :=
    fun j hj => Config.move_thread_of_ne _ _ hj
  have hself : (c.move i (s, t)).thread i = t := Config.move_thread_self _ _ _
  generalize hb : (c.thread i).closesPeer = b at hteardown
  generalize hb' : t.closesPeer = b' at hteardown
  cases hteardown with
  | keep b hteardown hclosed hpump hcancel =>
    have hsame : ∀ j, ((c.move i (s, t)).thread j).closesPeer = (c.thread j).closesPeer := by
      intro j
      by_cases hj : j = i
      · subst hj
        rw [hself, hb, hb']
      · rw [hother j hj]
    refine ⟨fun j k hj hk => ?_, fun j hj => ?_, fun j hj => ?_, fun ht => ?_⟩
    · rw [hsame] at hj hk
      exact h.one j k hj hk
    · rw [hsame] at hj
      exact hclosed.trans (h.closed j hj)
    · rw [hsame] at hj
      exact fun hp => h.spared j hj (hpump.symm.trans hp)
    · rcases h.held (hteardown ▸ ht) with hp | ⟨j, hj⟩
      · exact Or.inl (hpump.trans hp)
      · exact Or.inr ⟨j, (hsame j).trans hj⟩
  | begin hopen hs =>
    subst hs
    have hnone : ∀ j, (c.thread j).closesPeer ≠ true := fun j hj => by
      simp [h.closed j hj] at hopen
    have hi : ∀ j, ((c.move i (c.shared.beginClose .joining, t)).thread j).closesPeer = true →
        j = i := by
      intro j hj
      by_contra hne
      rw [hother j hne] at hj
      exact hnone j hj
    have hfailing : c.shared.pump ≠ .failing := by
      intro hp
      have hjoined := hsd.failing hp
      rw [hsd.unbegun hopen] at hjoined
      cases hjoined
    exact ⟨fun j k hj hk => (hi j hj).trans (hi k hk).symm, fun _ _ => rfl, fun _ _ => hfailing,
      fun _ => Or.inr ⟨i, by rw [hself, hb']⟩⟩
  | done hs hdone hgo =>
    have hnone := h.nobody (s := s) hb hb'
    refine ⟨fun j k hj => absurd hj (hnone j), fun j hj => absurd hj (hnone j),
      fun j hj => absurd hj (hnone j), fun ht => ?_⟩
    simp [hs, hdone, Teardown.running] at ht
  | cancelled hx hs =>
    have hnone := h.nobody (s := s) hb hb'
    obtain ⟨snap, -, rfl⟩ := cancelClose_eq_some hs
    exact ⟨fun j k hj => absurd hj (hnone j), fun j hj => absurd hj (hnone j),
      fun j hj => absurd hj (hnone j), fun ht => by cases ht⟩

theorem reach_winner {ok : Aio → AioAction → Prop} {c : Aio} {q : Option Nat} {t₀ : Int}
    (h : Reach (aio text) ok (Aio.init q t₀) c) : Winner c := by
  refine h.invariant (I := Winner) (winner_init q t₀) ?_
  intro c a c' hr _ hs hi
  rcases System.step_cases hs with ⟨e, s, rfl, he, rfl⟩ | ⟨i, x, s, t, rfl, hx, rfl⟩
  · exact hi.shared (act_effect he)
  · exact hi.thread (taskStep_move hx) (reach_aioShutdown hr)

theorem reach_aioSentinel {ok : Aio → AioAction → Prop} {c : Aio} {q : Option Nat} {t₀ : Int}
    (h : Reach (aio text) ok (Aio.init q t₀) c) : c.shared.SentinelDone := by
  refine h.invariant (I := fun c => c.shared.SentinelDone)
    (by simp [State.SentinelDone, Aio.init, State.init]) ?_
  intro c a c' hr _ hs hi
  have hsd := (reach_aioShutdown hr).toShutdownInv
  rcases System.step_cases hs with ⟨e, s, rfl, he, rfl⟩ | ⟨i, x, s, t, rfl, hx, rfl⟩
  · exact (act_effect he).sentinelDone hsd hi
  · have heff := (taskStep_move hx).effect
    cases heff with
    | worker s h | task s h => exact h.sentinelDone hsd hi
    | cancelClose snap h =>
      unfold State.SentinelDone at *
      rcases h with h | h <;> simp_all

/-! ## The snapshot of a teardown that nobody cancels -/

/-- What `_begin_close` took is in the hands of the closer, or released. -/
structure Sweeping (s : State) : Prop where
  uncancelled : ∀ snap, s.teardown ≠ .cancelled snap
  closed : ∀ snap, .beganClose snap ∈ s.log → s.peer.closed = true
  joining : ∀ snap, .beganClose snap ∈ s.log → s.teardown = .joining snap ∨ s.teardown.joined = true
  swept : ∀ snap, .beganClose snap ∈ s.log → Swept snap s
  created : ∀ snap, .beganClose snap ∈ s.log → ∀ k ∈ snap.connections, k < s.peer.created
  connects : ∀ snap, .beganClose snap ∈ s.log → ∀ i ∈ snap.pendingConnects, i ∈ s.connects.entered
  pings : ∀ snap, .beganClose snap ∈ s.log → ∀ i ∈ snap.pendingPings, i ∈ s.pings.entered

theorem sweeping_init (q : Option Nat) (t₀ : Int) : Sweeping (State.init q t₀) := by
  constructor <;> simp [State.init]

/-- `_begin_close`, by a closer that has still everything to do. -/
theorem Sweeping.begun (h : Sweeping s) (hopen : s.peer.closed = false) (hr : RegistryInv s)
    (hp : PendingInv s) (hlog : s'.log = s.log ++ [.beganClose s.peer.snapshot])
    (hclosed : s'.peer.closed = true) (hcreated : s'.peer.created = s.peer.created)
    (hteardown : s'.teardown = .joining s.peer.snapshot ∨
      ∃ e, s'.teardown = .shutdown e s.peer.snapshot)
    (hconnects : s'.connects.entered = s.connects.entered)
    (hpings : s'.pings.entered = s.pings.entered) : Sweeping s' := by
  have honly : ∀ snap, .beganClose snap ∈ s'.log → snap = s.peer.snapshot := by
    intro snap hsnap
    rw [hlog, List.mem_append, List.mem_singleton] at hsnap
    rcases hsnap with hsnap | hsnap
    · simp [h.closed snap hsnap] at hopen
    · exact Event.beganClose.inj hsnap
  constructor
  case uncancelled => rcases hteardown with ht | ⟨e, ht⟩ <;> simp [ht]
  case closed => exact fun _ _ => hclosed
  case joining =>
    intro snap hsnap
    rw [honly snap hsnap]
    exact hteardown.imp_right fun ⟨e, ht⟩ => by simp [ht, Teardown.joined]
  case swept =>
    intro snap hsnap
    rw [honly snap hsnap]
    rcases hteardown with ht | ⟨e, ht⟩ <;>
      exact swept_of_begun (by rw [ht]; rfl) (by rw [ht]; rfl) (by rw [ht]; rfl)
  case created =>
    intro snap hsnap k hk
    rw [honly snap hsnap] at hk
    obtain ⟨g, hg⟩ := Dict.mem_values.mp hk
    exact hcreated ▸ (hr.inv.listed_published g k hg).1
  case connects =>
    intro snap hsnap j hj
    rw [honly snap hsnap] at hj
    obtain ⟨key, hkey⟩ := Dict.mem_values.mp hj
    exact hconnects ▸ (hp.connects.listed key j hkey).1
  case pings =>
    intro snap hsnap j hj
    rw [honly snap hsnap] at hj
    obtain ⟨key, hkey⟩ := Dict.mem_values.mp hj
    exact hpings ▸ (hp.pings.listed key j hkey).1

theorem Sweeping.keep (h : Sweeping s)
    (hlog : ∀ snap, .beganClose snap ∈ s'.log → .beganClose snap ∈ s.log)
    (huncancelled : ∀ snap, s'.teardown ≠ .cancelled snap)
    (hclosed : s.peer.closed = true → s'.peer.closed = true)
    (hteardown : ∀ snap, s.teardown = .joining snap ∨ s.teardown.joined = true →
      s'.teardown = .joining snap ∨ s'.teardown.joined = true)
    (hswept : ∀ snap, .beganClose snap ∈ s.log → Swept snap s')
    (hcreated : s.peer.created ≤ s'.peer.created)
    (hconnects : s.connects.entered ⊆ s'.connects.entered)
    (hpings : s.pings.entered ⊆ s'.pings.entered) : Sweeping s' where
  uncancelled := huncancelled
  closed snap hsnap := hclosed (h.closed snap (hlog snap hsnap))
  joining snap hsnap := hteardown snap (h.joining snap (hlog snap hsnap))
  swept snap hsnap := hswept snap (hlog snap hsnap)
  created snap hsnap k hk := Nat.lt_of_lt_of_le (h.created snap (hlog snap hsnap) k hk) hcreated
  connects snap hsnap j hj := hconnects (h.connects snap (hlog snap hsnap) j hj)
  pings snap hsnap j hj := hpings (h.pings snap (hlog snap hsnap) j hj)

/-- While the pump runs its loop, the closer waits. -/
theorem ActEffect.waits {e : State.Act} (h : ActEffect text s e s') (hstop : s.pump.stopped = false)
    (hclosed : s.peer.closed = true) (hjoined : s.teardown.joined = true → s.pump.stopped = true) :
    s'.teardown = s.teardown := by
  have hwaits : s.teardown.joined = false := by
    by_contra hj
    simp [hjoined (by simpa using hj)] at hstop
  cases h with
  | fail detail h hopen => simp [hclosed] at hopen
  | join snap h hpump => simp [hpump, PumpPc.stopped] at hstop
  | shutdown _ _ h | sweptConnections _ _ h | sweepConnection _ _ _ _ h | closeMailbox _ _ _ h
  | sweptConnects _ h | sweepConnect _ _ _ h | setConnect _ _ h | sweptPings _ h
  | sweepPing _ _ _ h | putSentinel h =>
    simp [h, Teardown.joined] at hwaits
  | _ => rfl

theorem ActEffect.sweeping {e : State.Act} (heff : ActEffect text s e s') (h : Sweeping s)
    (hsd : ShutdownInv s) (hr : RegistryInv s) (hp : PendingInv s) : Sweeping s' := by
  have hg := (heff.registry hr).grows hr.inv
  have hentered := heff.entered
  have hswept : ∀ snap, .beganClose snap ∈ s.log → Swept snap s' := by
    intro snap hsnap
    cases hstop : s.pump.stopped with
    | true => exact heff.swept hstop hg (h.created snap hsnap) (h.swept snap hsnap)
    | false =>
      have hjoining := (h.joining snap hsnap).resolve_right fun hj => by
        simp [hsd.joined hj] at hstop
      have ht := (heff.waits hstop (h.closed snap hsnap) hsd.joined).trans hjoining
      exact swept_of_begun (by rw [ht]; rfl) (by rw [ht]; rfl) (by rw [ht]; rfl)
  have hconnects : s.connects.entered ⊆ s'.connects.entered := hentered.1 ▸ List.Subset.refl _
  have hpings : s.pings.entered ⊆ s'.pings.entered := hentered.2 ▸ List.Subset.refl _
  cases heff with
  | fail detail hpump hopen =>
    exact h.begun hopen hr hp rfl rfl rfl (Or.inr ⟨_, rfl⟩) hentered.1 hentered.2
  | join rest ht hpump =>
    exact h.keep (fun _ => id) (by simp) id (fun _ _ => Or.inr rfl) hswept hg.created hconnects
      hpings
  | shutdown exc rest ht =>
    exact h.keep (fun _ => id) (by simp) id (fun _ _ => Or.inr rfl) hswept hg.created hconnects
      hpings
  | _ => 
    refine h.keep (by simp) ?_ id ?_ hswept hg.created hconnects hpings
    · first
      | exact h.uncancelled
      | simp
    · first
      | exact fun _ => id
      | exact fun _ _ => Or.inr rfl

theorem CallEffect.sweeping {t : Call} (heff : CallEffect text i s t s') (h : Sweeping s)
    (hg : s.registry.Grows s'.registry)
    (hconnect : ∀ args, t = .connect args (.start .resolve) → i ∉ s.connects.entered)
    (hping : ∀ args, t = .ping args (.start .resolve) → i ∉ s.pings.entered)
    (hr : RegistryInv s) (hp : PendingInv s) : Sweeping s' := by
  have hswept : ∀ snap, .beganClose snap ∈ s.log → Swept snap s' := fun snap hsnap =>
    heff.swept (h.closed snap hsnap) hg (h.created snap hsnap) hconnect hping
      (h.connects snap hsnap) (h.pings snap hsnap) (h.swept snap hsnap)
  have hconnects : s.connects.entered ⊆ s'.connects.entered := by
    rcases heff.entered.1 with he | he <;> simp [he]
  have hpings : s.pings.entered ⊆ s'.pings.entered := by
    rcases heff.entered.2 with he | he <;> simp [he]
  cases heff with
  | beginClose hopen =>
    exact h.begun hopen hr hp rfl rfl rfl (Or.inl rfl)
      (by simp [State.connects, Event.connectEntered?])
      (by simp [State.pings, Event.pingEntered?])
  | _ =>
    exact h.keep (by simp) h.uncancelled id (fun _ => id) hswept hg.created hconnects hpings

/-- Only the cancellation of the `close` that tears the Peer down abandons the teardown. -/
theorem TaskMove.cancels {t t' : Task} {x : CallStart ⊕ TaskChoice} {snap : Snapshot}
    (h : TaskMove text i s t x (s.close (.cancelled snap)) t')
    (hs : s.teardown = .joining snap ∨ s.teardown = .shutdown none snap) :
    x = .inr .cancel ∧ t.closesPeer = true := by
  have hteardown := h.teardown
  generalize hb : t.closesPeer = b at hteardown
  generalize t'.closesPeer = b' at hteardown
  cases hteardown with
  | keep b ht => rcases hs with hs | hs <;> simp [hs] at ht
  | begin hopen hbegin =>
    have ht := congrArg State.teardown hbegin
    cases ht
  | done hsame hdone hgo => rcases hs with hs | hs <;> simp [hs] at hdone
  | cancelled hx hcancel => exact ⟨hx, rfl⟩

theorem reach_sweeping {c : Aio} {q : Option Nat} {t₀ : Int}
    (h : Reach (aio text) Aio.Spares (Aio.init q t₀) c) : Sweeping c.shared := by
  refine h.invariant (I := fun c => Sweeping c.shared) (sweeping_init q t₀) ?_
  intro c a c' hr hok hs hi
  have hsd := (reach_aioShutdown hr).toShutdownInv
  obtain ⟨hreg, hasserts⟩ := reach_aioRegistry hr
  obtain ⟨hpend, hun⟩ := reach_aioPending hr
  have hg := (step_aioRegistry hr hs).grows hreg.inv
  rcases System.step_cases hs with ⟨e, s, rfl, he, rfl⟩ | ⟨i, x, s, t, rfl, hx, rfl⟩
  · exact (act_effect he).sweeping hi hsd hreg hpend
  · have hmove := taskStep_move hx
    cases hmove.effect with
    | worker s heff =>
      refine heff.sweeping hi hg (fun args hcall => ?_) (fun args hcall => ?_) hreg hpend
      · obtain ⟨pc, ht⟩ := Task.workerCall_connect hcall
        have hu := hun i
        rw [ht] at hu
        exact hu rfl
      · obtain ⟨pc, ht⟩ := Task.workerCall_ping hcall
        have hu := hun i
        rw [ht] at hu
        exact hu rfl
    | task s heff =>
      obtain ⟨hconnect, hping⟩ := (c.thread i).taskCall_ne_start
      exact heff.sweeping hi hg (fun args hcall => absurd hcall (hconnect _ _))
        (fun args hcall => absurd hcall (hping _ _)) hreg hpend
    | cancelClose snap hsnap =>
      obtain ⟨rfl, hcloses⟩ := hmove.cancels hsnap
      rw [Aio.Spares, hcloses] at hok
      cases hok

/-- Whom nobody cancels leaves nobody stranded. -/
theorem reach_tornDown {c : Aio} {q : Option Nat} {t₀ : Int}
    (h : Reach (aio text) Aio.Spares (Aio.init q t₀) c) : c.TornDown := by
  intro hclosed hidle
  have hsweep := reach_sweeping h
  have hdone : c.shared.teardown = .done := by
    have hbegun := (reach_aioShutdown h).begun.mp hclosed
    have hheld := (reach_winner h).held
    have hun := hsweep.uncancelled
    cases ht : c.shared.teardown with
    | unbegun => exact absurd ht hbegun
    | cancelled snap => exact absurd ht (hun snap)
    | done => rfl
    | _ => exact absurd (hheld (by rw [ht]; rfl)) hidle
  exact
    { connections := fun snap hsnap => ((hsweep.swept snap hsnap).done hdone).1
      connects := fun snap hsnap i hi => (((hsweep.swept snap hsnap).done hdone).2.1 i hi).2
      pings := fun snap hsnap => ((hsweep.swept snap hsnap).done hdone).2.2
      sentinel := (reach_aioSentinel h).mpr hdone }

/-- Whoever cancels a teardown leaves it unfinished. -/
theorem spares_of_tornDown {c c' : Aio} {a : AioAction} {q : Option Nat} {t₀ : Int}
    (h : Reach (aio text) anyStep (Aio.init q t₀) c) (hs : (aio text).step c a = some c')
    (htorn : c'.TornDown) : c.Spares a := by
  rcases System.step_cases hs with ⟨e, s, rfl, he, rfl⟩ | ⟨i, x, s, t, rfl, hx, rfl⟩
  · trivial
  · rcases x with start | ch
    · trivial
    cases ch with
    | go | worker => trivial
    | cancel =>
      show (c.thread i).closesPeer = false
      have hteardown := (taskStep_move hx).teardown
      generalize hb : (c.thread i).closesPeer = b at hteardown
      generalize hb' : t.closesPeer = b' at hteardown
      cases hteardown with
      | keep b _ _ _ hcancel => exact hcancel rfl
      | begin hopen hbegin => rfl
      | done hsame hdone hgo => exact absurd rfl hgo
      | cancelled _ hcancel =>
        obtain ⟨snap, hsnap, rfl⟩ := cancelClose_eq_some hcancel
        have hsd := reach_aioShutdown h
        have hclosed : c.shared.peer.closed = true :=
          hsd.begun.mpr (by rcases hsnap with hsnap | hsnap <;> simp [hsnap])
        have hidle : ¬ Aio.Closing (c.move i (c.shared.close (.cancelled snap), t)) := by
          rintro (hp | ⟨j, hj⟩)
          · exact hsd.not_failing hsnap hp
          · exact (reach_winner h).nobody hb hb' j hj
        have hdone := (reach_aioSentinel h).mp (htorn hclosed hidle).sentinel
        rcases hsnap with hsnap | hsnap <;> simp [hsnap] at hdone

/-- **Main theorem.** In all states of a run, whenever the Peer is closed and no `close` or `_fail`
tears it down, the snapshot is released and the sentinel is put, exactly if no step of the run
cancels the `close` that won. -/
theorem teardown_survives {q : Option Nat} {t₀ : Int} {tr : List (Aio × AioAction)} {c : Aio}
    (h : Trace (aio text) anyStep (Aio.init q t₀) tr c) :
    ((∀ x ∈ tr, x.1.TornDown) ∧ c.TornDown) ↔ ∀ x ∈ tr, x.1.Spares x.2 := by
  refine h.holds_iff (P := Aio.TornDown) (Q := Aio.Spares) (fun c hr => ?_) ?_
  · exact reach_tornDown (hr.mono fun _ _ _ hok => hok.2)
  · intro c a c' hr _ hs _ htorn
    exact spares_of_tornDown hr hs htorn

/-- A client connects, call 0 waits in `Peer.connect`, and call 1 begins `Peer.close`. -/
def closeBegun : List AioAction :=
  [.shared .pump, .shared (.received (.packet ⟨⟨"10.0.0.1", 1⟩, 7, [19]⟩))] ++
    List.replicate 4 (.shared .pump) ++
  [.thread 0 (.inl (.connect ⟨"localhost", 19132, 12, false⟩)),
    .thread 0 (.inr (.worker .go)), .thread 0 (.inr (.worker .go)), .thread 0 (.inr (.worker .go)),
    .thread 0 (.inr (.worker (.resolved (some "127.0.0.1")))), .thread 0 (.inr (.worker .go)),
    .thread 0 (.inr (.worker (.connectResult .connectionAttemptStarted))), .thread 0 (.inr .go),
    .thread 1 (.inl .closePeer), .thread 1 (.inr .go)]

/-- Nobody cancels the `close`, and it releases the Connection and the waiter. -/
theorem teardown_survives_one :
    ∃ tr c, Trace (aio SystemAddress.text) anyStep (Aio.init none 0) tr c ∧
      c.thread 1 = .closedPeer ∧ c.shared.peer.closed = true ∧
      (((∀ x ∈ tr, Aio.TornDown x.1) ∧ Aio.TornDown c) ↔ ∀ x ∈ tr, Aio.Spares x.1 x.2) := by
  have hrun : Reach (aio SystemAddress.text) anyStep (Aio.init none 0) _ :=
    .of_exec (show (aio SystemAddress.text).exec anyStep (closeBegun ++ .shared .pump ::
      List.replicate 10 (.shared .closer) ++ [.thread 1 (.inr .go)]) (Aio.init none 0) =
        some _ from rfl)
  obtain ⟨tr, htr⟩ := hrun.exists_trace
  exact ⟨tr, _, htr, rfl, rfl, teardown_survives htr⟩

/-- The `close` is cancelled while it waits for the pump: the Connection's mailbox is never
closed. -/
theorem cancelled_close_strands :
    ¬ ∀ c, Reach (aio SystemAddress.text) anyStep (Aio.init none 0) c → Aio.TornDown c := by
  intro hall
  have hrun : Reach (aio SystemAddress.text) anyStep (Aio.init none 0) _ :=
    .of_exec (show (aio SystemAddress.text).exec anyStep
      (closeBegun ++ [.thread 1 (.inr .cancel)]) (Aio.init none 0) = some _ from rfl)
  have hreleased := hall _ hrun rfl (by
    rintro (hp | ⟨j, hj⟩)
    · cases hp
    · rcases j with _ | _ | j <;> cases hj)
  exact hreleased.connections ⟨[0], [0], []⟩ (by decide) 0 (by decide) rfl

end Raknet
