import Raknet.Entries
import Raknet.Sync.Dialing

/-!
# The Connection of a cancelled connect

A `Peer.connect` of the asyncio API that is cancelled does not wait for a handler that has popped
its pending object: it looks for a Connection once, and `CancelledError` leaves it. A cancelled
await of `_start_connect` does not even look.

**Theorem (`cancelled_connect`).** Once `CancelledError` has left a connect, its worker has ended
and the pump is between two packets, no Connection of the attempt is registered or open, in all
states of a run whose steps are `Heedful`.

**Theorem (`orphanless`).** Once a connect is cancelled no Connection of its attempt is under
construction, registered or open, in all states of a run, exactly if all its steps are `Heedful`: no
acceptance of the attempt is taken up after the call has left, the pump builds nothing for the call
when it looks for a Connection and finds none, and the await of `_start_connect` is not cancelled
while the Connection of the acceptance is under construction, registered or open. In the run no
other call registers under the address meanwhile (`Sole`).
-/

namespace Raknet

open Interleaving Handoff

variable {text : SystemAddress → String} {s s' : State} {i j : CallId}

/-! ## Runs -/

/-- The call for which the pump has popped the pending object and builds a Connection. -/
def PumpPc.builds : PumpPc → Option CallId
  | succeededCreate i _ _ | succeededRegister i _ _ | succeededAssign i _ => some i
  | _ => none

/-- `CancelledError` has left `Peer.connect`. -/
def Task.gone : Task → Bool
  | .connect args _ (.left .cancelled) => !args.oneShot
  | _ => false

/-- No Connection of call `i` is under construction, and the one that was built for it is
unregistered and `_closed`. -/
structure State.Clear (s : State) (i : CallId) : Prop where
  unbuilt : s.pump.builds ≠ some i
  retired : ∀ k, (s.peer.pendingConnect i).connection = some k → s.registry.Retired k

/-- If `CancelledError` has left call `i`, it has left no Connection behind. -/
def Orphanless (i : CallId) (c : Aio) : Prop :=
  (c.thread i).gone = true → c.shared.Clear i

/-- The address under which the worker registers in its next step. -/
def Task.registers : Task → Option SystemAddress
  | .connect _ (.running (.register a)) _ => some a
  | _ => none

/-- No other call registers a pending connect where call `i` has one. -/
def Sole (text : SystemAddress → String) (i : CallId) (c : Aio) : AioAction → Prop
  | .thread j (.inr (.worker .go)) =>
    j ≠ i → ∀ a ∈ (c.thread j).registers, ∀ b ∈ (c.thread i).connectKey, text a ≠ text b
  | _ => True

instance Sole.decidable (c : Aio) (a : AioAction) : Decidable (Sole text i c a) := by
  unfold Sole
  split <;> infer_instance

/-- The step does not leave a Connection of call `i` behind. -/
def Heedful (text : SystemAddress → String) (i : CallId) (c : Aio) : AioAction → Prop
  -- the acceptance is routed after the call has left
  | .shared .pump => ∀ a g, c.shared.pump = .succeededPop a g →
      c.shared.peer.pendingConnects.get? (text a) = some i → (c.thread i).gone = false
  -- at `pending.connection is not None`, while the pump is about to assign it
  | .thread j (.inr .go) => j = i → ∀ args w, c.thread i = .connect args w .look →
      args.oneShot = false → (c.shared.peer.pendingConnect i).connection = none →
      c.shared.pump.builds ≠ some i
  -- in `await asyncio.to_thread(self._start_connect, ..)`
  | .thread j (.inr .cancel) => j = i → ∀ args w, c.thread i = .connect args w .starting →
      args.oneShot = false → c.shared.Clear i
  | _ => True

instance State.Clear.decidable (s : State) (i : CallId) : Decidable (s.Clear i) :=
  decidable_of_iff (s.pump.builds ≠ some i ∧
      ∀ k ∈ (s.peer.pendingConnect i).connection, k < s.peer.created ∧ s.pump.fresh? ≠ some k ∧
        k ∉ s.peer.connections.values ∧ (s.peer.connection k).closed = true)
    ⟨fun h => ⟨h.1, fun k hk => ⟨⟨⟨(h.2 k hk).1, (h.2 k hk).2.1⟩,
        fun hl => (h.2 k hk).2.2.1 (Dict.mem_values.mpr hl)⟩, (h.2 k hk).2.2.2⟩⟩,
      fun h => ⟨h.unbuilt, fun k hk => ⟨(h.retired k hk).1.1.1, (h.retired k hk).1.1.2,
        fun hl => (h.retired k hk).1.2 (Dict.mem_values.mp hl), (h.retired k hk).2⟩⟩⟩

instance Heedful.decidable (c : Aio) (a : AioAction) : Decidable (Heedful text i c a) := by
  unfold Heedful
  split
  · cases c.shared.pump
    case succeededPop a g =>
      exact decidable_of_iff (c.shared.peer.pendingConnects.get? (text a) = some i →
        (c.thread i).gone = false) ⟨fun h _ _ hp => by cases hp; exact h, fun h => h a g rfl⟩
    all_goals exact .isTrue fun _ _ hp => by cases hp
  · cases c.thread i
    case connect args w pc =>
      exact decidable_of_iff (_ = i → pc = .look → args.oneShot = false →
          (c.shared.peer.pendingConnect i).connection = none → c.shared.pump.builds ≠ some i)
        ⟨fun h hj _ _ hp => by cases hp; exact h hj rfl, fun h hj hp => h hj args w (by rw [hp])⟩
    all_goals exact .isTrue fun _ _ _ hp => by cases hp
  · cases c.thread i
    case connect args w pc =>
      exact decidable_of_iff (_ = i → pc = .starting → args.oneShot = false → c.shared.Clear i)
        ⟨fun h hj _ _ hp => by cases hp; exact h hj rfl, fun h hj hp => h hj args w (by rw [hp])⟩
    all_goals exact .isTrue fun _ _ _ hp => by cases hp
  · exact .isTrue trivial

/-! ## What the steps do to the attempt -/

/-- The pending object of call `i` left the table, and no taker has it. -/
def State.Lost (s : State) (i : CallId) : Prop :=
  i ∈ s.connects.entered ∧ ¬ s.connects.Listed i ∧ i ∉ s.connects.taken

theorem State.Lost.grows (h : s.Lost i) (hg : s.connects.Grows s'.connects) : s'.Lost i := by
  obtain ⟨hent, hlist, htaken⟩ := h
  exact ⟨hg.entered.subset hent, hg.left i hent hlist, hg.lost i hent hlist htaken⟩

theorem PumpPc.connectHeld_of_builds {pc : PumpPc} (h : pc.builds = some i) :
    pc.connectHeld = some (i, false) := by
  cases pc <;> cases h <;> rfl

theorem PendingInv.blank_builds (hp : PendingInv s) (h : s.pump.builds = some i) :
    (s.peer.pendingConnect i).connection = none :=
  congrArg Prod.fst (hp.connects.blank_held i (PumpPc.connectHeld_of_builds h))

theorem PendingInv.clear_of_lost (hp : PendingInv s) (h : s.Lost i) : s.Clear i where
  unbuilt hb := h.2.2 (hp.connects.held i false (PumpPc.connectHeld_of_builds hb)).1
  retired _ hk := absurd (hp.taken_of_connection hk) h.2.2

theorem State.Clear.keep (h : s.Clear i)
    (hbuilds : s'.pump.builds = some i → s.pump.builds = some i)
    (hconn : ∀ k, (s'.peer.pendingConnect i).connection = some k →
      (s.peer.pendingConnect i).connection = some k)
    (hg : s.registry.Grows s'.registry) : s'.Clear i where
  unbuilt hb := h.unbuilt (hbuilds hb)
  retired k hk := hg.retired (h.retired k (hconn k hk))

@[simp] theorem PumpPc.builds_enter (cb : Option Callback) : (PumpPc.enter cb).builds = none := by
  rcases cb with _ | ⟨_ | _⟩ <;> rfl

theorem ActEffect.builds {e : State.Act} (h : ActEffect text s e s')
    (hb : s'.pump.builds = some i) : s.pump.builds = some i ∨
      e = .pump ∧ ∃ a g, s.pump = .succeededPop a g ∧
        s.peer.pendingConnects.get? (text a) = some i := by
  cases h
  case succeededPop j a g h hget =>
    cases hb
    exact Or.inr ⟨rfl, a, g, h, hget⟩
  case succeededCreate j a g h =>
    rw [h]
    exact Or.inl hb
  case succeededRegister j g c h =>
    rw [h]
    exact Or.inl hb
  case route p h => simp at hb
  all_goals first | cases hb | exact Or.inl hb

/-- A Connection is assigned to the call that it was built for. -/
theorem ActEffect.connection_new {e : State.Act} (h : ActEffect text s e s') {k : ConnId}
    (hk : (s'.peer.pendingConnect i).connection = some k) :
    (s.peer.pendingConnect i).connection = some k ∨ s.pump.builds = some i := by
  cases h
  case succeededAssign j c h =>
    by_cases hj : i = j
    · right
      rw [h, hj]
      rfl
    · left
      simpa [hj] using hk
  case failedAssign | connectSet | sweepConnect | setConnect => grind
  all_goals exact Or.inl hk

theorem TaskEffect.pump {t : Task} (h : TaskEffect text i s t s') : s'.pump = s.pump := by
  cases h with
  | worker s' h | task s' h => cases h <;> rfl
  | cancelClose snap h => rfl

/-- A call writes no pending object but its own, which it makes anew. -/
theorem CallEffect.connection_old {t : Call} (h : CallEffect text i s t s') :
    s'.peer.pendingConnect = s.peer.pendingConnect ∨
      (∃ args, t = .connect args (.start .resolve)) ∧
        s'.peer.pendingConnect = Function.update s.peer.pendingConnect i .new := by
  cases h with
  | newConnect args h => exact Or.inr ⟨⟨args, h⟩, rfl⟩
  | _ => exact Or.inl rfl

theorem TaskMove.connection_old {t t' : Task} {x : CallStart ⊕ TaskChoice}
    (h : TaskMove text j s t x s' t') {k : ConnId}
    (hk : (s'.peer.pendingConnect i).connection = some k) :
    (s.peer.pendingConnect i).connection = some k := by
  have hcall : ∀ {t : Call} {s'}, CallEffect text j s t s' →
      (s'.peer.pendingConnect i).connection = some k →
      (s.peer.pendingConnect i).connection = some k := by
    intro t s' heff hk
    rcases heff.connection_old with he | ⟨-, he⟩ <;> rw [he] at hk
    · exact hk
    · by_cases hi : i = j
      · simp [hi, PendingConnect.new] at hk
      · rwa [Function.update_of_ne hi] at hk
  cases h.effect with
  | worker s' h | task s' h => exact hcall h hk
  | cancelClose snap h => exact hk

/-- A Connection that was assigned stays so: its call has registered, and makes no new object. -/
theorem TaskMove.connection_kept {t t' : Task} {x : CallStart ⊕ TaskChoice}
    (h : TaskMove text j s t x s' t') (hp : PendingInv s) (ht : t.Unentered s j) {k : ConnId}
    (hk : (s.peer.pendingConnect i).connection = some k) :
    (s'.peer.pendingConnect i).connection = some k := by
  have hent := hp.connects.taken_entered i (hp.taken_of_connection hk)
  have hother : ∀ {t : Call} {s'}, (∀ args, t ≠ .connect args (.start .resolve)) →
      CallEffect text j s t s' → (s'.peer.pendingConnect i).connection = some k := by
    intro t s' hne heff
    rcases heff.connection_old with he | ⟨⟨args, hargs⟩, -⟩
    · rw [he]
      exact hk
    · exact absurd hargs (hne args)
  cases h.effect with
  | worker s' h =>
    rcases h.connection_old with he | ⟨⟨args, hargs⟩, he⟩
    · rw [he]
      exact hk
    · obtain ⟨pc, rfl⟩ := Task.workerCall_connect hargs
      have hij : i ≠ j := fun hij => ht rfl (hij ▸ hent)
      rw [he, Function.update_of_ne hij]
      exact hk
  | task s' h => exact hother (fun args => t.taskCall_ne_start.1 args .resolve) h
  | cancelClose snap h => exact hk

/-- Whose entry is found under a key after a step: an old one, or the one that was just made. -/
theorem TaskMove.entry_new {t t' : Task} {x : CallStart ⊕ TaskChoice}
    (h : TaskMove text j s t x s' t') {key : String} {m : CallId}
    (hm : s'.peer.pendingConnects.get? key = some m) :
    s.peer.pendingConnects.get? key = some m ∨
      m = j ∧ x = .inr (.worker .go) ∧ ∃ a ∈ t.registers, text a = key := by
  by_cases hmj : m = j
  · subst hmj
    cases h with
    | connect args w w' pc pc' s' ch h =>
      cases h with
      | work q ch s' n pc h =>
        cases q <;> cases ch <;> simp only [startStep, reduceCtorEq] at h
        case register.go a =>
          split_ifs at h <;> cases h
          · exact Or.inl hm
          · by_cases hkey : key = text a
            · exact Or.inr ⟨rfl, rfl, a, rfl, hkey.symm⟩
            · left
              simpa [hkey] using hm
        all_goals grind
      | reap w c pc pc' s' h | reaped w c pc s' h => cases h <;> first | exact Or.inl hm | grind
      | cancelReap w c s' h | cancelClosePeer w x s' h =>
        obtain ⟨snap, -, rfl⟩ := cancelClose_eq_some h
        exact Or.inl hm
      | _ => first | exact Or.inl hm | grind
    | ping args w w' pc pc' s' ch h =>
      cases h with
      | work q ch s' n pc h =>
        cases q <;> cases ch <;> simp only [startPingStep, reduceCtorEq] at h
        all_goals grind
      | _ => exact Or.inl hm
    | accept pc pc' s' h => cases acceptStep_acceptEffect h <;> exact Or.inl hm
    | close c notify pc pc' s' h | closed c notify pc s' h =>
      cases h <;> first | exact Or.inl hm | grind
    | cancelClose c notify s' h | cancelClosePeer s' h =>
      obtain ⟨snap, -, rfl⟩ := cancelClose_eq_some h
      exact Or.inl hm
    | _ => first | exact Or.inl hm | grind
  · exact Or.inl ((h.effect.entry_other hmj key).1 hm)

/-- A call that has closed its Connection leaves nothing behind. -/
theorem TaskMove.clear_of_retired {t t' : Task} {x : CallStart ⊕ TaskChoice}
    (h : TaskMove text j s t x s' t') (hp : PendingInv s) {k : ConnId}
    (hk : (s.peer.pendingConnect i).connection = some k) (hr : s'.registry.Retired k) :
    s'.Clear i where
  unbuilt hb := by
    rw [h.effect.pump] at hb
    rw [hp.blank_builds hb] at hk
    cases hk
  retired k' hk' := by
    have hold := h.connection_old hk'
    rw [hk] at hold
    cases hold
    exact hr

/-! ## What a connect knows about its attempt -/

/-- What the task of call `i` knows, its worker being `w`. -/
def ConnectTask.Tends (s : State) (i : CallId) (args : ConnectArgs) (w : ConnectWorker) :
    ConnectTask → Prop
  | wait a | abandon a .pop => w = .done (.ok a)
  | abandon _ .cancel => s.Lost i
  | reap c _ => (s.peer.pendingConnect i).connection = some c
  | closePeer _ _ => args.oneShot = true
  | left .cancelled => args.oneShot = false → s.Clear i
  | _ => True

/-- What call `i` knows about its attempt: the entry under its key, if any, is its own. -/
structure Task.Tends (text : SystemAddress → String) (i : CallId) (s : State) (t : Task) :
    Prop where
  alone : ∀ a, t.connectKey = some a →
    ∀ j, s.peer.pendingConnects.get? (text a) = some j → j = i
  task : ∀ args w pc, t = .connect args w pc → pc.Tends s i args w

theorem tends_of_keyless {args : ConnectArgs} {w : ConnectWorker} {pc : ConnectTask}
    (hkey : (Task.connect args w pc).connectKey = none) (h : pc.Tends s i args w) :
    (Task.connect args w pc).Tends text i s where
  alone a ha := by
    rw [hkey] at ha
    cases ha
  task args' w' pc' ht := by
    cases ht
    exact h

theorem tends_of_ne {t : Task} (h : ∀ args w pc, t ≠ .connect args w pc) : t.Tends text i s where
  alone a ha := by
    cases t with
    | connect args w pc => exact absurd rfl (h args w pc)
    | _ => cases ha
  task args w pc ht := absurd ht (h args w pc)

theorem tends_exit {args : ConnectArgs} {w : ConnectWorker} {x : Exit}
    (h : x = .cancelled → args.oneShot = false → s.Clear i) :
    (Task.connect args w (args.exit x)).Tends text i s := by
  unfold ConnectArgs.exit
  split_ifs with hone
  · exact tends_of_keyless rfl hone
  · refine tends_of_keyless rfl ?_
    cases x with
    | error e => trivial
    | cancelled => exact h rfl

theorem tends_hand (args : ConnectArgs) (w : ConnectWorker) (c : ConnId) :
    (Task.connect args w (args.hand c)).Tends text i s := by
  unfold ConnectArgs.hand
  split_ifs <;> exact tends_of_keyless rfl trivial

theorem tends_left {args : ConnectArgs} {w : ConnectWorker} {x : Exit} (h : args.oneShot = true) :
    (Task.connect args w (.left x)).Tends text i s := by
  refine tends_of_keyless rfl ?_
  cases x with
  | error e => trivial
  | cancelled =>
    intro hone
    rw [h] at hone
    cases hone

/-- What a task knows survives the steps of the others, and those of its own worker. -/
theorem ConnectTask.Tends.keep {args : ConnectArgs} {w : ConnectWorker} {pc : ConnectTask}
    (h : pc.Tends s i args w) (hlost : s.Lost i → s'.Lost i)
    (hconn : ∀ k, (s.peer.pendingConnect i).connection = some k →
      (s'.peer.pendingConnect i).connection = some k)
    (hclear : pc = .left .cancelled → args.oneShot = false → s.Clear i → s'.Clear i) :
    pc.Tends s' i args w := by
  cases pc with
  | abandon a q =>
    cases q with
    | pop => exact h
    | cancel => exact hlost h
  | reap c q => exact hconn c h
  | left x =>
    cases x with
    | error e => trivial
    | cancelled => exact fun hone => hclear rfl hone (h hone)
  | _ => exact h

theorem Task.Tends.keep {t : Task} (h : t.Tends text i s)
    (hentry : ∀ a, t.connectKey = some a → ∀ j, s'.peer.pendingConnects.get? (text a) = some j →
      s.peer.pendingConnects.get? (text a) = some j)
    (hlost : s.Lost i → s'.Lost i)
    (hconn : ∀ k, (s.peer.pendingConnect i).connection = some k →
      (s'.peer.pendingConnect i).connection = some k)
    (hclear : t.gone = true → s.Clear i → s'.Clear i) : t.Tends text i s' where
  alone a ha j hj := h.alone a ha j (hentry a ha j hj)
  task args w pc ht := by
    refine (h.task args w pc ht).keep hlost hconn fun hpc hone => hclear ?_
    rw [ht, hpc]
    simp [Task.gone, hone]

theorem startStep_alone {args : ConnectArgs} {q : StartPc} {ch : Choice}
    {n : Next StartPc (Except Error SystemAddress)}
    (h : startStep text i args s q ch = some (s', n))
    (ha : ∀ a, q.key = some a → ∀ j, s.peer.pendingConnects.get? (text a) = some j → j = i)
    (a : SystemAddress) (hn : n.worker.connectKey = some a) (j : CallId)
    (hj : s'.peer.pendingConnects.get? (text a) = some j) : j = i := by
  cases q <;> cases ch <;> simp only [startStep, reduceCtorEq] at h
  case checkOpen.go =>
    cases h
    split_ifs at hn <;> cases hn
  case checkAttempts.go =>
    cases h
    split_ifs at hn <;> cases hn
  case resolve.resolved ip => cases ip <;> cases h <;> cases hn
  case register.go b =>
    split_ifs at h <;> cases h <;> cases hn
    simpa using hj.symm
  case rawConnect.connectResult b r =>
    cases h
    split_ifs at hn <;> cases hn <;> exact ha _ rfl j hj
  case rawConnect.connectRaises b message | popFailed.go b r =>
    cases h
    cases hn

/-- A step of call `i` that does not give up an attempt which still goes on. -/
structure TaskChoice.Minds (s : State) (i : CallId) (args : ConnectArgs) (pc : ConnectTask)
    (ch : TaskChoice) : Prop where
  look : ch = .go → pc = .look → args.oneShot = false →
    (s.peer.pendingConnect i).connection = none → s.pump.builds ≠ some i
  cancel : ch = .cancel → pc = .starting → args.oneShot = false → s.Clear i

theorem ConnectTaskEffect.tends {args : ConnectArgs} {w w' : ConnectWorker} {pc pc' : ConnectTask}
    {ch : TaskChoice} (h : ConnectTaskEffect text i args s w pc ch s' w' pc') (hp : PendingInv s)
    (hi : RegistryInv s) (hasserts : (Task.connect args w pc).taskCall.Asserts s.registry)
    (hent : (Task.connect args w pc).Unentered s i) (hgrows : s.connects.Grows s'.connects)
    (hminds : ch.Minds s i args pc) (ht : (Task.connect args w pc).Tends text i s) :
    (Task.connect args w' pc').Tends text i s' := by
  have hmove := TaskMove.connect args w w' pc pc' s' ch h
  have hreg := (hmove.effect.registry hasserts).grows hi.inv
  have hpc := ht.task args w pc rfl
  cases h with
  | take => exact tends_of_keyless rfl trivial
  | work q ch s' n pc h =>
    constructor
    · intro a ha
      cases pc with
      | starting => exact startStep_alone h ht.alone a ha
      | wait b => cases hpc
      | abandon b q =>
        cases q with
        | pop => cases hpc
        | cancel => cases ha
      | _ => cases ha
    · intro args' w' pc' he
      cases he
      have hkeep : pc.Tends s' i args (.running q) := hpc.keep (fun hl => hl.grows hgrows)
        (fun k hk => hmove.connection_kept hp hent hk)
        fun _ _ hclear => hclear.keep (by rw [hmove.effect.pump]; exact id)
          (fun k hk => hmove.connection_old hk) hreg
      cases pc with
      | wait b => cases hpc
      | abandon b q =>
        cases q with
        | pop => cases hpc
        | cancel => exact hkeep
      | left x => cases x <;> exact hkeep
      | _ => exact hkeep
  | started a =>
    refine ⟨ht.alone, fun args' w' pc' he => ?_⟩
    cases he
    rfl
  | raised e => exact tends_exit fun hx => by cases hx
  | drop => exact tends_exit fun _ => hminds.cancel rfl rfl
  | cancelStart w hw => exact tends_exit fun _ => hminds.cancel rfl rfl
  | woken w a hevent => exact tends_of_keyless rfl trivial
  | cancelWait w a =>
    refine ⟨ht.alone, fun args' w' pc' he => ?_⟩
    cases he
    exact hpc
  | late w a hget => exact tends_of_keyless rfl trivial
  | abandon w a j hget =>
    obtain rfl : w = .done (.ok a) := hpc
    obtain rfl := ht.alone a rfl j hget
    obtain ⟨hentered, huntaken⟩ := hp.connects.listed _ _ hget
    refine tends_of_keyless rfl ⟨hentered, ?_, huntaken⟩
    rintro ⟨k, hk⟩
    have hk' : (s.peer.pendingConnects.erase (text a)).get? k = some j := hk
    rw [Dict.get?_erase] at hk'
    split_ifs at hk' with hne
    exact hne (hp.connects.table_inj _ _ _ hk' hget)
  | cancel w a =>
    refine tends_exit fun _ _ => (hp.clear_of_lost hpc).keep id (fun k hk => hk) hreg
  | nothing w hnone =>
    refine tends_exit fun _ hone => ⟨hminds.look rfl rfl hone hnone, fun k hk => ?_⟩
    rw [hnone] at hk
    cases hk
  | orphan w c hconn => exact tends_of_keyless rfl hconn
  | reap w c pc pc' s' h => exact tends_of_keyless rfl (hmove.connection_kept hp hent hpc)
  | reaped w c pc s' h =>
    exact tends_exit fun _ _ =>
      hmove.clear_of_retired hp hpc (h.retired (hasserts.closing c pc rfl))
  | cancelReap w c s' h =>
    exact tends_exit fun _ _ =>
      hmove.clear_of_retired hp hpc (hreg.retired (hasserts.closing c _ rfl))
  | finish w c h => exact tends_hand args w c
  | failed w e h => exact tends_exit fun hx => by cases hx
  | closeLost w x hclosed | closeDone w x hdone | cancelClosePeer w x s' h =>
    exact tends_left hpc
  | closeBegin w x hopen => exact tends_of_keyless rfl hpc
  | own w c => exact tends_of_keyless rfl trivial

/-! ## Whole runs -/

theorem Heedful.minds {c : Aio} {args : ConnectArgs} {w : ConnectWorker} {pc : ConnectTask}
    {ch : TaskChoice} (h : Heedful text i c (.thread i (.inr ch)))
    (hi : c.thread i = .connect args w pc) : ch.Minds c.shared i args pc where
  look hch hpc hone hnone := by
    subst hch hpc
    exact h rfl args w hi hone hnone
  cancel hch hpc hone := by
    subst hch hpc
    exact h rfl args w hi hone

/-- A step of a run keeps what call `i` knows. -/
theorem step_tends {ok : Aio → AioAction → Prop} {q : Option Nat} {t₀ : Int} {c c' : Aio}
    {a : AioAction} (h : Reach (aio text) ok (Aio.init q t₀) c) (hsole : Sole text i c a)
    (hheed : Heedful text i c a) (hs : (aio text).step c a = some c')
    (ht : (c.thread i).Tends text i c.shared) : (c'.thread i).Tends text i c'.shared := by
  obtain ⟨hp, hent⟩ := reach_aioPending h
  obtain ⟨hi, hasserts⟩ := reach_aioRegistry h
  have hgrows := ((step_aioPending h hs).grows hp).1
  have hreg := (step_aioRegistry h hs).grows hi.inv
  have hlost : c.shared.Lost i → c'.shared.Lost i := fun hl => hl.grows hgrows
  rcases System.step_cases hs with ⟨e, s, rfl, he, rfl⟩ | ⟨j, x, s, t, rfl, hx, rfl⟩
  · have heff := act_effect he
    refine ht.keep (fun _ _ _ => heff.entry_old) hlost (fun k hk => heff.connection_kept hp hk) ?_
    intro hgone hclear
    refine hclear.keep (fun hb => ?_) (fun k hk => ?_) hreg
    · rcases heff.builds hb with hb | ⟨rfl, a, g, hpc, hget⟩
      · exact hb
      · have hnot := hheed a g hpc hget
        rw [hgone] at hnot
        cases hnot
    · exact (heff.connection_new hk).resolve_right hclear.unbuilt
  · have hmove := taskStep_move hx
    by_cases hj : j = i
    · subst hj
      rw [Config.move_thread_self]
      generalize hti : c.thread j = u at hmove ht
      cases hmove with
      | connect args w w' pc pc' s' ch h =>
        exact h.tends hp hi (hti ▸ hasserts j) (hti ▸ hent j) hgrows (hheed.minds hti) ht
      | begin start t h =>
        cases start <;> simp only [startTask] at h
        case connect args =>
          cases h
          exact tends_of_keyless rfl trivial
        case close k notify =>
          split_ifs at h
          cases h
          exact tends_of_ne (by simp)
        all_goals
          cases h
          exact tends_of_ne (by simp)
      | _ => exact tends_of_ne (by simp)
    · rw [Config.move_thread_of_ne _ _ (Ne.symm hj)]
      refine ht.keep (fun b hb m hm => ?_) hlost
        (fun k hk => hmove.connection_kept hp (hent j) hk) ?_
      · rcases hmove.entry_new hm with hold | ⟨rfl, rfl, a, ha, hab⟩
        · exact hold
        · exact absurd hab (hsole hj a ha b hb)
      · intro _ hclear
        have hpump : s.pump = c.shared.pump := hmove.effect.pump
        exact hclear.keep (fun hb => hpump ▸ hb) (fun k hk => hmove.connection_old hk) hreg

/-- In a run whose steps all are heedful, a call knows what it should. -/
theorem reach_tends {q : Option Nat} {t₀ : Int} {c : Aio}
    (h : Reach (aio text) (fun c a => Sole text i c a ∧ Heedful text i c a) (Aio.init q t₀) c) :
    (c.thread i).Tends text i c.shared := by
  refine h.invariant (I := fun c => (c.thread i).Tends text i c.shared)
    (tends_of_ne fun args w pc => by simp [Aio.init]) ?_
  intro c a c' hr hok hs ht
  exact step_tends hr hok.1 hok.2 hs ht

theorem Task.Tends.clear {t : Task} (h : t.Tends text i s) (hgone : t.gone = true) : s.Clear i := by
  unfold Task.gone at hgone
  split at hgone
  · next args w => exact h.task args w _ rfl (by simpa using hgone)
  · cases hgone

/-! ## At rest -/

/-- `CancelledError` has left call `i`, its worker is over, and the pump is between two
packets. -/
structure Rests (i : CallId) (c : Aio) : Prop where
  gone : (c.thread i).gone = true
  worker : (c.thread i).workerOver = true
  pump : c.shared.pump.idle = true

/-- At rest no Connection that was built for call `i` is registered or open. -/
def Reaped (i : CallId) (c : Aio) : Prop :=
  Rests i c → ∀ k, (c.shared.peer.pendingConnect i).connection = some k →
    c.shared.registry.Retired k

/-- A cancelled connect leaves no Connection behind in a run in which no step gives up an attempt
that still goes on. -/
theorem cancelled_connect {q : Option Nat} {t₀ : Int} {c : Aio}
    (h : Reach (aio text) (fun c a => Sole text i c a ∧ Heedful text i c a) (Aio.init q t₀) c) :
    Reaped i c :=
  fun hrests => ((reach_tends h).clear hrests.gone).retired

/-- Two calls connect. The cancellation of one comes when its event is set and its task not yet
resumed. The call finds the Connection and closes it. -/
theorem cancelled_connect_late :
    ∃ c, Reach (aio SystemAddress.text)
        (fun c a => Sole SystemAddress.text 0 c a ∧ Heedful SystemAddress.text 0 c a)
        (Aio.init none 0) c ∧ Rests 0 c ∧
      (c.shared.peer.pendingConnect 0).connection = some 0 ∧ c.shared.registry.Retired 0 := by
  have hr := Reach.of_exec (show (aio SystemAddress.text).exec
    (fun c a => Sole SystemAddress.text 0 c a ∧ Heedful SystemAddress.text 0 c a)
    (aioConnects 0 ⟨"h", 1, 12, false⟩ "10.0.0.1" ++
      aioConnects 1 ⟨"b", 1, 12, false⟩ "10.0.0.2" ++
      aioRoutes ⟨⟨"10.0.0.1", 1⟩, 7, [16]⟩ 6 ++
      .thread 0 (.inr .cancel) :: List.replicate 9 (.thread 0 (.inr .go))) (Aio.init none 0) =
      some _ from rfl)
  exact ⟨_, hr, ⟨rfl, rfl, rfl⟩, rfl, cancelled_connect hr ⟨rfl, rfl, rfl⟩ 0 rfl⟩

/-- The connect is cancelled while its worker resolves the host. The worker goes on, RakNet
connects, and the pump builds and registers a Connection that nobody will close. -/
theorem cancelled_connect_orphans :
    ∃ c, Reach (aio SystemAddress.text) (Sole SystemAddress.text 0) (Aio.init none 0) c ∧
      Rests 0 c ∧ (c.shared.peer.pendingConnect 0).connection = some 0 ∧
      c.shared.peer.connections.get? 7 = some 0 ∧ (c.shared.peer.connection 0).closed = false ∧
      ¬ Reaped 0 c := by
  have hr := Reach.of_exec (show (aio SystemAddress.text).exec (Sole SystemAddress.text 0)
    (.thread 0 (.inl (.connect ⟨"h", 1, 12, false⟩)) ::
      List.replicate 3 (.thread 0 (.inr (.worker .go))) ++
      [.thread 0 (.inr .cancel), .thread 0 (.inr (.worker (.resolved (some "10.0.0.1")))),
        .thread 0 (.inr (.worker .go)),
        .thread 0 (.inr (.worker (.connectResult .connectionAttemptStarted)))] ++
      aioRoutes ⟨⟨"10.0.0.1", 1⟩, 7, [16]⟩ 6) (Aio.init none 0) = some _ from rfl)
  refine ⟨_, hr, ⟨rfl, rfl, rfl⟩, rfl, rfl, rfl, fun hreaped => ?_⟩
  exact absurd (hreaped ⟨rfl, rfl, rfl⟩ 0 rfl).2 (by decide)

/-! ## In every state -/

/-- A step that does give up such an attempt leaves a Connection behind at once. -/
theorem heedful_of_orphanless {c c' : Aio} {a : AioAction} (hs : (aio text).step c a = some c')
    (hc' : Orphanless i c') : Heedful text i c a := by
  unfold Heedful
  split
  · intro a g hpc hget
    by_contra hgone
    have hpump : c.shared.pumpStep text =
        some (((c.shared.set (c.shared.peer.popConnect (text a))).emit (.connectPopped i)).goto
          (.succeededCreate i a g)) := by
      simp only [State.pumpStep, hpc, hget]
    obtain ⟨s, he, rfl⟩ := Option.map_eq_some_iff.mp hs
    rw [show s = _ from Option.some.inj (he.symm.trans hpump)] at hc'
    exact (hc' (by simpa using hgone)).unbuilt rfl
  · next j =>
    intro hj args w hpc hone hnone
    subst hj
    obtain ⟨⟨s, t⟩, ht, rfl⟩ := Option.map_eq_some_iff.mp hs
    have hstep : taskStep text j (.inr .go) c.shared (c.thread j) =
        some (c.shared, .connect args w (.left .cancelled)) := by
      simp [taskStep, hpc, connectTaskStep, hnone, ConnectArgs.exit, hone]
    cases Option.some.inj (ht.symm.trans hstep)
    exact (hc' (by simp [Task.gone, hone])).unbuilt
  · next j =>
    intro hj args w hpc hone
    subst hj
    obtain ⟨⟨s, t⟩, ht, rfl⟩ := Option.map_eq_some_iff.mp hs
    have hstep : ∃ w', taskStep text j (.inr .cancel) c.shared (c.thread j) =
        some (c.shared, .connect args w' (.left .cancelled)) := by
      rw [hpc]
      cases w <;> simp [taskStep, connectTaskStep, ConnectArgs.exit, hone]
    obtain ⟨w', hw'⟩ := hstep
    cases Option.some.inj (ht.symm.trans hw')
    exact hc' (by simp [Task.gone, hone])
  · trivial

/-- Once a connect is cancelled no Connection of its attempt is under construction, registered or
open, exactly if no step gives up an attempt that still goes on. -/
theorem orphanless {q : Option Nat} {t₀ : Int} {tr : List (Aio × AioAction)} {c : Aio}
    (h : Trace (aio text) (Sole text i) (Aio.init q t₀) tr c) :
    ((∀ x ∈ tr, Orphanless i x.1) ∧ Orphanless i c) ↔ ∀ x ∈ tr, Heedful text i x.1 x.2 := by
  refine h.holds_iff ?_ ?_
  · intro c hr
    exact (reach_tends hr).clear
  · intro c a c' _ _ hs _ hc'
    exact heedful_of_orphanless hs hc'

/-- The connect is cancelled after the pump has popped its pending object, finds no Connection yet,
and leaves; then the pump builds one that nobody will close. -/
theorem orphanless_early :
    ∃ tr c, Trace (aio SystemAddress.text) (Sole SystemAddress.text 0) (Aio.init none 0) tr c ∧
      c.thread 0 =
        .connect ⟨"h", 1, 12, false⟩ (.done (.ok ⟨"10.0.0.1", 1⟩)) (.left .cancelled) ∧
      c.shared.peer.connections.get? 7 = some 0 ∧ (c.shared.peer.connection 0).closed = false ∧
      ¬ ∀ x ∈ tr, Heedful SystemAddress.text 0 x.1 x.2 := by
  have hr := Reach.of_exec (show (aio SystemAddress.text).exec (Sole SystemAddress.text 0)
    (aioConnects 0 ⟨"h", 1, 12, false⟩ "10.0.0.1" ++ aioRoutes ⟨⟨"10.0.0.1", 1⟩, 7, [16]⟩ 2 ++
      [.thread 0 (.inr .cancel), .thread 0 (.inr .go), .thread 0 (.inr .go)] ++
      List.replicate 4 (.shared .pump)) (Aio.init none 0) =
      some _ from rfl)
  obtain ⟨tr, htr⟩ := hr.exists_trace
  refine ⟨tr, _, htr, rfl, rfl, rfl, fun hheed => ?_⟩
  have hclear := ((orphanless htr).mpr hheed).2 rfl
  exact absurd (hclear.retired 0 rfl).2 (by decide)

end Raknet
