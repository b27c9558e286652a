import Raknet.Aio.Mirror
import Raknet.Aio.Requests
import Raknet.Pings
import Raknet.Sync.Origin

/-!
# Whose entries the pending tables hold

A call that registers a pending object stays responsible for its entry: it pops the entry itself, or
it goes on when somebody else has popped it. Only when `raw.connect` raises does nobody pop it. So
the tables hold no other entry of a call that has ended. In asyncio the worker registers, and the
task takes over when it is told the key. A task that is cancelled while `_start_connect` or
`_start_ping` is under way, or has just returned, never learns the key.

**Theorem (`entries_live`).** In a sync Peer every entry belongs to a call that is in flight under
its key, or to a connect out of which the exception of `raw.connect` comes.

**Theorem (`aio_entries_live`).** In an asyncio Peer every other entry belongs to a call that was
cancelled before it took over from its worker.
-/

namespace Raknet

open Interleaving Handoff

variable {text : SystemAddress → String} {s s' : State} {i j : CallId}

/-! ## Entries of one call -/

section

variable {table : Dict String CallId} {key : Option SystemAddress} {a : SystemAddress}

/-- The entries of call `i` are under the key, if it has one. -/
def Owns (text : SystemAddress → String) (table : Dict String CallId) (i : CallId)
    (key : Option SystemAddress) : Prop :=
  ∀ k, table.get? k = some i → ∃ a, key = some a ∧ text a = k

theorem Owns.mono {table' : Dict String CallId} (h : Owns text table i key)
    (hold : ∀ k, table'.get? k = some i → table.get? k = some i) : Owns text table' i key :=
  fun k hk => h k (hold k hk)

theorem Owns.unlisted (h : ∀ k, table.get? k ≠ some i) : Owns text table i key :=
  fun k hk => absurd hk (h k)

theorem Owns.weaken (h : Owns text table i none) : Owns text table i key := by
  intro k hk
  obtain ⟨a, ha, -⟩ := h k hk
  cases ha

theorem Owns.absent (h : Owns text table i (some a)) (hget : table.get? (text a) ≠ some i) :
    Owns text table i key := by
  refine Owns.unlisted fun k hk => ?_
  obtain ⟨b, hb, rfl⟩ := h k hk
  cases hb
  exact hget hk

theorem Owns.enter (h : Owns text table i none) : Owns text (table.set (text a) i) i (some a) := by
  intro k hk
  by_cases hka : k = text a
  · exact ⟨a, rfl, hka.symm⟩
  · rw [Dict.get?_set, if_neg hka] at hk
    obtain ⟨b, hb, -⟩ := h k hk
    cases hb

theorem Owns.pop (h : Owns text table i (some a)) : Owns text (table.erase (text a)) i key := by
  refine Owns.absent (a := a) (h.mono fun k hk => ?_) (by simp)
  rw [Dict.get?_erase] at hk
  split_ifs at hk
  exact hk

end

/-! ## What the steps do to the entries -/

theorem ActEffect.pingEntry_old {e : State.Act} (h : ActEffect text s e s') {k : String}
    (hk : s'.peer.pendingPings.get? k = some j) : s.peer.pendingPings.get? k = some j := by
  cases h <;> first | exact hk | grind

theorem CallEffect.entry_other {t : Call} (h : CallEffect text i s t s') (hj : j ≠ i) (k : String) :
    (s'.peer.pendingConnects.get? k = some j → s.peer.pendingConnects.get? k = some j) ∧
      (s'.peer.pendingPings.get? k = some j → s.peer.pendingPings.get? k = some j) := by
  cases h <;> constructor <;> intro hk <;> first | exact hk | grind

/-- The address under which `_start_connect` has registered. -/
def StartPc.key : StartPc → Option SystemAddress
  | rawConnect a | popFailed a _ => some a
  | _ => none

/-- The address under which a connect has registered, once the function has returned. -/
def Worker.connectKey : ConnectWorker → Option SystemAddress
  | .running q => q.key
  | .done (.ok a) => some a
  | _ => none

/-- `raw.connect` has raised. -/
def Worker.RawRaised : ConnectWorker → Prop
  | .done (.error e) => e.isRaw = true
  | _ => False

theorem startStep_owns {args : ConnectArgs} {q : StartPc} {ch : Choice}
    {n : Next StartPc (Except Error SystemAddress)}
    (h : startStep text i args s q ch = some (s', n))
    (ho : Owns text s.peer.pendingConnects i q.key) :
    (¬ Worker.RawRaised n.worker → Owns text s'.peer.pendingConnects i n.worker.connectKey) ∧
      s'.peer.pendingPings = s.peer.pendingPings := by
  cases q <;> cases ch <;> simp only [startStep, reduceCtorEq] at h
  case checkOpen.go | checkAttempts.go =>
    cases h
    exact ⟨fun _ => ho.weaken, rfl⟩
  case resolve.resolved ip => cases ip <;> cases h <;> exact ⟨fun _ => ho.weaken, rfl⟩
  case register.go a =>
    split_ifs at h <;> cases h
    · exact ⟨fun _ => ho, rfl⟩
    · exact ⟨fun _ => ho.enter, rfl⟩
  case rawConnect.connectResult a r =>
    cases h
    split_ifs <;> exact ⟨fun _ => ho, rfl⟩
  case rawConnect.connectRaises a message =>
    cases h
    exact ⟨fun hno => absurd rfl hno, rfl⟩
  case popFailed.go a r =>
    cases h
    exact ⟨fun _ => ho.pop, rfl⟩

theorem startPingStep_owns {args : PingArgs} {q : StartPingPc} {ch : Choice}
    {n : Next StartPingPc (Except Error SystemAddress)}
    (h : startPingStep text i args s q ch = some (s', n))
    (ho : Owns text s.peer.pendingPings i q.key) :
    Owns text s'.peer.pendingPings i n.worker.pingKey ∧
      s'.peer.pendingConnects = s.peer.pendingConnects := by
  cases q <;> cases ch <;> simp only [startPingStep, reduceCtorEq] at h
  case checkOpen.go =>
    cases h
    exact ⟨ho.weaken, rfl⟩
  case resolve.resolved ip => cases ip <;> cases h <;> exact ⟨ho.weaken, rfl⟩
  case register.go a =>
    split_ifs at h <;> cases h
    · exact ⟨ho, rfl⟩
    · exact ⟨ho.enter, rfl⟩
  case rawPing.pingResult a ok =>
    cases h
    split_ifs <;> exact ⟨ho, rfl⟩
  case popFailed.go a =>
    cases h
    exact ⟨ho.pop, rfl⟩

theorem PendingInv.connect_unlisted (hp : PendingInv s)
    (hevent : (s.peer.pendingConnect i).event = true) (k : String) :
    s.peer.pendingConnects.get? k ≠ some i := by
  intro hk
  have hres : i ∈ s.connects.resolved := (hp.connects.mem_resolved i).mpr hevent
  exact (hp.connects.listed k i hk).2 (hp.connects.resolved_taken i hres)

theorem PendingInv.ping_unlisted (hp : PendingInv s)
    (hevent : (s.peer.pendingPing i).event = true) (k : String) :
    s.peer.pendingPings.get? k ≠ some i := by
  intro hk
  have hres : i ∈ s.pings.resolved := (hp.pings.mem_resolved i).mpr hevent
  exact (hp.pings.listed k i hk).2 (hp.pings.resolved_taken i hres)

/-! ## The sync calls -/

/-- The address under which a call has registered a connect that it waits for. -/
def Call.connectKey : Call → Option SystemAddress
  | .connect _ (.start q) => q.key
  | .connect _ (.wait a) | .connect _ (.abandon a .pop) => some a
  | _ => none

/-- The exception of `raw.connect` has left `_start_connect`. -/
def Call.RawRaised : Call → Prop
  | .connect _ (.closePeer e _) | .connect _ (.raised e) => e.isRaw = true
  | _ => False

/-- The entries of call `i` in both tables are under its keys, those of a connect unless
`raw.connect` has raised. -/
structure Keyed (text : SystemAddress → String) (i : CallId) (s : State) (rawRaised : Prop)
    (connectKey pingKey : Option SystemAddress) : Prop where
  connects : ¬ rawRaised → Owns text s.peer.pendingConnects i connectKey
  pings : Owns text s.peer.pendingPings i pingKey

section

variable {ck pk : Option SystemAddress} {r r' : Prop}

theorem Keyed.mono (h : Keyed text i s r ck pk)
    (hold : ∀ k,
      (s'.peer.pendingConnects.get? k = some i → s.peer.pendingConnects.get? k = some i) ∧
        (s'.peer.pendingPings.get? k = some i → s.peer.pendingPings.get? k = some i)) :
    Keyed text i s' r ck pk :=
  ⟨fun hr => (h.connects hr).mono fun k => (hold k).1, h.pings.mono fun k => (hold k).2⟩

theorem keyed_init (q : Option Nat) (t₀ : Int) : Keyed text i (State.init q t₀) r none none :=
  ⟨fun _ => .unlisted fun k => by simp [State.init, Peer.init],
    .unlisted fun k => by simp [State.init, Peer.init]⟩

theorem Keyed.weaken (h : Keyed text i s r none none) (hr : r → r') : Keyed text i s r' ck pk :=
  ⟨fun hr' => (h.connects (mt hr hr')).weaken, h.pings.weaken⟩

theorem ActEffect.keyed {e : State.Act} (h : ActEffect text s e s') (hk : Keyed text i s r ck pk) :
    Keyed text i s' r ck pk :=
  hk.mono fun _ => ⟨h.entry_old, h.pingEntry_old⟩

theorem CloseEffect.keyed {c : ConnId} {notify : Bool} {pc : ClosePc} {pc' : Option ClosePc}
    (h : CloseEffect c notify s pc s' pc') (hk : Keyed text i s r ck pk) :
    Keyed text i s' r ck pk := by
  refine hk.mono fun k => ?_
  cases h <;> constructor <;> intro hget <;> first | exact hget | grind

end

@[simp] theorem rawRaised_leave (args : ConnectArgs) (e : Error) :
    (Call.connect args (args.leave e)).RawRaised ↔ e.isRaw = true := by
  unfold ConnectArgs.leave
  split_ifs <;> rfl

theorem ConnectEffect.keyed {args : ConnectArgs} {pc pc' : ConnectPc}
    (h : ConnectEffect text i args s pc s' pc') (hp : PendingInv s)
    (hk : Keyed text i s (Call.connect args pc).RawRaised (Call.connect args pc).connectKey none) :
    Keyed text i s' (Call.connect args pc').RawRaised (Call.connect args pc').connectKey none := by
  cases h with
  | register a hopen => exact ⟨fun _ => (hk.connects id).enter, hk.pings⟩
  | started a | rawRefused a r hr | timeout a => exact hk
  | rawRaised a message =>
    exact ⟨fun hno => absurd ((rawRaised_leave args _).mpr rfl) hno, hk.pings⟩
  | popFailed a r | abandon a j hget => exact ⟨fun _ => (hk.connects id).pop, hk.pings⟩
  | woken a hevent => exact ⟨fun _ => .unlisted (hp.connect_unlisted hevent), hk.pings⟩
  | late a hget => exact ⟨fun _ => (hk.connects id).absent (by simp [hget]), hk.pings⟩
  | reap c pc pc' s' h | reaped c pc s' h => exact (h.keyed hk).weaken False.elim
  | closeBegin e hopen => exact Keyed.weaken (hk.mono fun k => by simp) id
  | closeLost e hclosed | closeDone e hdone => exact hk
  | _ => exact Keyed.weaken (hk.mono fun _ => ⟨id, id⟩) False.elim

theorem PingEffect.keyed {args : PingArgs} {pc pc' : PingPc}
    (h : PingEffect text i args s pc s' pc') (hp : PendingInv s)
    (hk : Keyed text i s False none (Call.ping args pc).pingKey) :
    Keyed text i s' False none (Call.ping args pc').pingKey := by
  cases h with
  | register a hopen => exact ⟨hk.connects, hk.pings.enter⟩
  | started a | rawFailed a | timeout a => exact hk
  | popFailed a m | popTimedOut a m => exact ⟨hk.connects, hk.pings.pop⟩
  | woken a hevent => exact ⟨hk.connects, .unlisted (hp.ping_unlisted hevent)⟩
  | _ => exact Keyed.weaken (hk.mono fun _ => ⟨id, id⟩) id

theorem CallMove.keyed {t t' : Call} (h : CallMove text i s t s' t') (hp : PendingInv s)
    (hk : Keyed text i s t.RawRaised t.connectKey t.pingKey) :
    Keyed text i s' t'.RawRaised t'.connectKey t'.pingKey := by
  cases h with
  | connect args pc pc' s' h => exact h.keyed hp hk
  | ping args pc pc' s' h => exact h.keyed hp hk
  | accept pc pc' s' h => exact hk.mono fun k => by cases h <;> simp
  | close c notify pc pc' s' h | closed c notify pc s' h => exact h.keyed hk
  | closeBegin hopen => exact hk.mono fun k => by simp
  | begin start t h => exact hk.weaken False.elim
  | closeLost | closeDone => exact hk

/-- Every entry belongs to a call that is still in flight: it is on its way from registering to
being told the outcome, under that key, or about to pop the entry. Only a connect out of which the
exception of `raw.connect` comes leaves its entry behind. -/
theorem entries_live {ok : Sync → SyncAction → Prop} {q : Option Nat} {t₀ : Int} {c : Sync}
    (h : Reach (sync text) ok (Sync.init q t₀) c) :
    (∀ k i, c.shared.peer.pendingConnects.get? k = some i →
      (∃ a, (c.thread i).connectKey = some a ∧ text a = k) ∨ (c.thread i).RawRaised) ∧
    ∀ k i, c.shared.peer.pendingPings.get? k = some i →
      ∃ a, (c.thread i).pingKey = some a ∧ text a = k := by
  have hkeyed : ∀ i, Keyed text i c.shared (c.thread i).RawRaised (c.thread i).connectKey
      (c.thread i).pingKey := by
    refine (h.outline (G := fun _ => True)
      (L := fun i s t => Keyed text i s t.RawRaised t.connectKey t.pingKey) trivial
      (fun _ => keyed_init q t₀) ?_ ?_).2
    · intro c e s _ _ hs _
      exact ⟨trivial, fun i t ht => (act_effect hs).keyed ht⟩
    · intro c i x s t hr _ hs _ ht
      have hmove := callStep_move hs
      exact ⟨trivial, hmove.keyed (reach_pendingInv hr).1 ht,
        fun j hj u hu => hu.mono fun k => hmove.effect.entry_other hj k⟩
  refine ⟨fun k i hk => ?_, fun k i => (hkeyed i).pings k⟩
  by_cases hraised : (c.thread i).RawRaised
  · exact Or.inr hraised
  · exact Or.inl ((hkeyed i).connects hraised k hk)

/-- One connect waits. Out of another, whose number of attempts `raw.connect` does not take, comes a
`TypeError`, and its entry stays. -/
theorem entries_live_waiting :
    ∃ c, Reach (sync SystemAddress.text) anyStep (Sync.init none 0) c ∧
      c.shared.peer.pendingConnects.get? "10.0.0.1|1" = some 0 ∧
      ((∃ a, (c.thread 0).connectKey = some a ∧ a.text = "10.0.0.1|1") ∨
        (c.thread 0).RawRaised) ∧
      c.thread 1 = .connect ⟨"b", 2, 4294967296, false⟩ (.raised (.raw "incompatible arguments")) ∧
      c.shared.peer.pendingConnects.get? "10.0.0.2|2" = some 1 := by
  have hr := Reach.of_exec (show (sync SystemAddress.text).exec anyStep
    (connects 0 ⟨"a", 1, 12, false⟩ "10.0.0.1" .connectionAttemptStarted ++
      .thread 1 (.inl (.connect ⟨"b", 2, 4294967296, false⟩)) :: steps 1 2 ++
      [.thread 1 (.inr (.resolved (some "10.0.0.2"))), .thread 1 (.inr .go),
        .thread 1 (.inr (.connectRaises "incompatible arguments"))]) (Sync.init none 0) =
      some _ from rfl)
  exact ⟨_, hr, rfl, (entries_live hr).1 _ _ rfl, rfl, rfl⟩

/-! ## The asyncio tasks -/

/-- The address under which a call has registered a connect that it waits for. A worker whose call
was cancelled is nobody's connect. -/
def Task.connectKey : Task → Option SystemAddress
  | .connect _ w .starting | .connect _ w (.wait _) | .connect _ w (.abandon _ .pop) => w.connectKey
  | _ => none

/-- A `CancelledError` reaches the task while the worker is at `_start_connect` or `_start_ping`, or
has just returned from it. -/
def Task.Disowns (t : Task) : CallStart ⊕ TaskChoice → Prop
  | .inr .cancel =>
    match t with
    | .connect _ w .starting => w.settled = false
    | .ping _ w .starting => w.settled = false
    | _ => False
  | _ => False

/-- While a worker is at work its task awaits it, and a task that waits for its event waits at the
address that the worker has returned. -/
def Task.Attended : Task → Prop
  | .connect _ w pc =>
    match pc with
    | .starting => True
    | .wait a | .abandon a _ => w = .done (.ok a)
    | _ => ∀ q, w ≠ .running q
  | .ping _ w pc =>
    match pc with
    | .starting => True
    | .wait a | .popCancelled a => w = .done (.ok a)
    | _ => ∀ q, w ≠ .running q
  | _ => True

theorem attended_exit (args : ConnectArgs) {w : ConnectWorker} (x : Exit)
    (hw : ∀ q, w ≠ .running q) : (Task.connect args w (args.exit x)).Attended := by
  unfold ConnectArgs.exit
  split_ifs <;> exact hw

theorem attended_hand (args : ConnectArgs) {w : ConnectWorker} (c : ConnId)
    (hw : ∀ q, w ≠ .running q) : (Task.connect args w (args.hand c)).Attended := by
  unfold ConnectArgs.hand
  split_ifs <;> exact hw

theorem Worker.not_running_of_done {π ρ : Type} {w : Worker π ρ} {r : ρ} (h : w = .done r) (q : π) :
    w ≠ .running q := by
  simp [h]

theorem Worker.not_running_of_settled {π ρ : Type} {w : Worker π (Except Error ρ)}
    (h : w.settled = true) (q : π) : w ≠ .running q := by
  rintro rfl
  cases h

theorem TaskMove.attended {t t' : Task} {x : CallStart ⊕ TaskChoice}
    (h : TaskMove text i s t x s' t') (hx : ¬ t.Disowns x) (ht : t.Attended) : t'.Attended := by
  cases h with
  | begin start t h =>
    cases start <;> simp only [startTask] at h
    case close =>
      split_ifs at h
      cases h
      trivial
    all_goals
      cases h
      trivial
  | connect args w w' pc pc' s' ch h =>
    cases h with
    | take => trivial
    | work q ch s' n pc h => cases pc <;> simp_all [Task.Attended]
    | started a => rfl
    | raised e => exact attended_exit args _ (by simp)
    | drop => exact attended_exit args _ (by simp)
    | cancelStart w hw =>
      have hsettled : w.settled = true := by simpa [Task.Disowns] using hx
      exact attended_exit args _ (Worker.not_running_of_settled hsettled)
    | woken w a hevent => exact Worker.not_running_of_done ht
    | cancelWait w a | abandon w a j hget => exact ht
    | late w a hget => exact Worker.not_running_of_done ht
    | cancel w a => exact attended_exit args _ (Worker.not_running_of_done ht)
    | nothing w hnone => exact attended_exit args _ ht
    | orphan w c hconn | reap w c pc pc' s' h => exact ht
    | reaped w c pc s' h | cancelReap w c s' h => exact attended_exit args _ ht
    | finish w c h => exact attended_hand args c ht
    | failed w e h => exact attended_exit args _ ht
    | closeLost w x hclosed | closeBegin w x hopen | closeDone w x hdone | own w c => exact ht
    | cancelClosePeer w x s' h => exact ht
  | ping args w w' pc pc' s' ch h =>
    cases h with
    | take => trivial
    | work q ch s' n pc h => cases pc <;> simp_all [Task.Attended]
    | started a => rfl
    | raised e => exact fun q => by simp
    | drop => exact fun q => by simp
    | cancelStart w hw => exact Worker.not_running_of_settled (by simpa [Task.Disowns] using hx)
    | woken w a hevent | popCancelled w a => exact Worker.not_running_of_done ht
    | cancelWait w a => exact ht
    | failed w hnone => exact ht
    | finish w pong hpong => exact ht
  | _ => trivial

/-- `raw.connect` has raised in the worker of the task. -/
def Task.RawRaised : Task → Prop
  | .connect _ w _ => w.RawRaised
  | _ => False

theorem cancelClose_keyed {r : Prop} {ck pk : Option SystemAddress} (h : s.cancelClose = some s')
    (hk : Keyed text i s r ck pk) : Keyed text i s' r ck pk := by
  obtain ⟨snap, -, rfl⟩ := cancelClose_eq_some h
  exact hk.mono fun _ => ⟨id, id⟩

theorem keyed_exit (args : ConnectArgs) (w : ConnectWorker) (x : Exit)
    (hk : Keyed text i s w.RawRaised none none) :
    Keyed text i s w.RawRaised (Task.connect args w (args.exit x)).connectKey none := by
  unfold ConnectArgs.exit
  split_ifs <;> exact hk

theorem keyed_hand (args : ConnectArgs) (w : ConnectWorker) (c : ConnId)
    (hk : Keyed text i s w.RawRaised none none) :
    Keyed text i s w.RawRaised (Task.connect args w (args.hand c)).connectKey none := by
  unfold ConnectArgs.hand
  split_ifs <;> exact hk

theorem ConnectTaskEffect.keyed {args : ConnectArgs} {w w' : ConnectWorker} {pc pc' : ConnectTask}
    {ch : TaskChoice} (h : ConnectTaskEffect text i args s w pc ch s' w' pc') (hp : PendingInv s)
    (hx : ¬ (Task.connect args w pc).Disowns (.inr ch)) (ht : (Task.connect args w pc).Attended)
    (hk : Keyed text i s w.RawRaised (Task.connect args w pc).connectKey none) :
    Keyed text i s' w'.RawRaised (Task.connect args w' pc').connectKey none := by
  cases h with
  | take => exact hk
  | work q ch s' n pc h =>
    cases pc with
    | starting =>
      obtain ⟨hconnects, hpings⟩ := startStep_owns h (hk.connects id)
      exact ⟨hconnects, hpings ▸ hk.pings⟩
    | _ => simp [Task.Attended] at ht
  | started a => exact hk
  | raised e => exact keyed_exit _ _ _ hk
  | drop => exact keyed_exit _ _ _ hk
  | cancelStart w hw =>
    have hsettled : w.settled = true := by simpa [Task.Disowns] using hx
    rcases Worker.eq_of_settled hsettled with rfl | ⟨e, rfl⟩
    · exact absurd rfl hw
    · exact keyed_exit _ _ _ hk
  | woken w a hevent => exact ⟨fun _ => .unlisted (hp.connect_unlisted hevent), hk.pings⟩
  | cancelWait w a => exact hk
  | late w a hget =>
    obtain rfl : w = .done (.ok a) := ht
    exact ⟨fun _ => (hk.connects id).absent (by simp [hget]), hk.pings⟩
  | abandon w a j hget =>
    obtain rfl : w = .done (.ok a) := ht
    exact ⟨fun _ => (hk.connects id).pop, hk.pings⟩
  | cancel w a => exact keyed_exit _ _ _ (hk.mono fun _ => ⟨id, id⟩)
  | nothing w hnone => exact keyed_exit _ _ _ hk
  | orphan w c hconn => exact hk
  | reap w c pc pc' s' h => exact h.keyed hk
  | reaped w c pc s' h => exact keyed_exit _ _ _ (h.keyed hk)
  | cancelReap w c s' h => exact keyed_exit _ _ _ (cancelClose_keyed h hk)
  | finish w c h => exact keyed_hand _ _ _ hk
  | failed w e h => exact keyed_exit _ _ _ hk
  | closeLost w x hclosed | closeDone w x hdone => exact hk
  | closeBegin w x hopen => exact hk.mono fun k => by simp
  | cancelClosePeer w x s' h => exact cancelClose_keyed h hk
  | own w c => exact hk.mono fun _ => ⟨id, id⟩

theorem PingTaskEffect.keyed {args : PingArgs} {w w' : PingWorker} {pc pc' : PingTask}
    {ch : TaskChoice} (h : PingTaskEffect text i args s w pc ch s' w' pc') (hp : PendingInv s)
    (hx : ¬ (Task.ping args w pc).Disowns (.inr ch)) (ht : (Task.ping args w pc).Attended)
    (hk : Keyed text i s False none (Task.ping args w pc).pingKey) :
    Keyed text i s' False none (Task.ping args w' pc').pingKey := by
  cases h with
  | take => exact hk
  | work q ch s' n pc h =>
    cases pc with
    | starting =>
      obtain ⟨hpings, hconnects⟩ := startPingStep_owns h hk.pings
      exact ⟨hconnects ▸ hk.connects, hpings⟩
    | _ => simp [Task.Attended] at ht
  | started a | raised e | drop | cancelWait w a => exact hk
  | cancelStart w hw =>
    have hsettled : w.settled = true := by simpa [Task.Disowns] using hx
    rcases Worker.eq_of_settled hsettled with rfl | ⟨e, rfl⟩
    · exact absurd rfl hw
    · exact hk
  | woken w a hevent => exact ⟨hk.connects, .unlisted (hp.ping_unlisted hevent)⟩
  | popCancelled w a =>
    obtain rfl : w = .done (.ok a) := ht
    exact ⟨hk.connects, hk.pings.pop⟩
  | failed w hnone | finish w pong hpong => exact hk

theorem TaskMove.keyed {t t' : Task} {x : CallStart ⊕ TaskChoice}
    (h : TaskMove text i s t x s' t') (hp : PendingInv s) (hx : ¬ t.Disowns x) (ht : t.Attended)
    (hk : Keyed text i s t.RawRaised t.connectKey t.pingKey) :
    Keyed text i s' t'.RawRaised t'.connectKey t'.pingKey := by
  cases h with
  | begin start t h =>
    cases start <;> simp only [startTask] at h
    case close =>
      split_ifs at h
      cases h
      exact hk
    all_goals
      cases h
      exact hk
  | connect args w w' pc pc' s' ch h => exact h.keyed hp hx ht hk
  | ping args w w' pc pc' s' ch h => exact h.keyed hp hx ht hk
  | accept pc pc' s' h =>
    have heff := acceptStep_acceptEffect h
    exact hk.mono fun k => by cases heff <;> simp
  | close c notify pc pc' s' h | closed c notify pc s' h => exact h.keyed hk
  | cancelClose c notify s' h | cancelClosePeer s' h => exact cancelClose_keyed h hk
  | closeBegin hopen => exact hk.mono fun k => by simp
  | cancelAccept | closeLost | closeDone => exact hk

theorem TaskEffect.entry_other {t : Task} (h : TaskEffect text i s t s') (hj : j ≠ i) (k : String) :
    (s'.peer.pendingConnects.get? k = some j → s.peer.pendingConnects.get? k = some j) ∧
      (s'.peer.pendingPings.get? k = some j → s.peer.pendingPings.get? k = some j) := by
  cases h with
  | worker s' h | task s' h => exact h.entry_other hj k
  | cancelClose snap h => exact ⟨id, id⟩

/-- The step cancels call `i` before the call has taken over from its worker. -/
def Disowning (i : CallId) (x : Aio × AioAction) : Prop :=
  ∃ y, x.2 = .thread i y ∧ (x.1.thread i).Disowns y

/-- Every entry belongs to a call that is still in flight under that key, or to one that was
cancelled before it took over from its worker, or to a connect in whose worker `raw.connect` has
raised. -/
theorem aio_entries_live {ok : Aio → AioAction → Prop} {q : Option Nat} {t₀ : Int}
    {tr : List (Aio × AioAction)} {c : Aio} (h : Trace (aio text) ok (Aio.init q t₀) tr c) :
    (∀ k i, c.shared.peer.pendingConnects.get? k = some i →
      (∃ a, (c.thread i).connectKey = some a ∧ text a = k) ∨ (c.thread i).RawRaised ∨
        ∃ x ∈ tr, Disowning i x) ∧
    ∀ k i, c.shared.peer.pendingPings.get? k = some i →
      (∃ a, (c.thread i).pingKey = some a ∧ text a = k) ∨ ∃ x ∈ tr, Disowning i x := by
  have hkeyed : ∀ i, (∃ x ∈ tr, Disowning i x) ∨ ((c.thread i).Attended ∧
      Keyed text i c.shared (c.thread i).RawRaised (c.thread i).connectKey
        (c.thread i).pingKey) := by
    refine h.invariant (I := fun tr c => ∀ i, (∃ x ∈ tr, Disowning i x) ∨
      ((c.thread i).Attended ∧
        Keyed text i c.shared (c.thread i).RawRaised (c.thread i).connectKey
          (c.thread i).pingKey))
      (fun i => Or.inr ⟨trivial, keyed_init q t₀⟩) ?_
    intro tr c a c' htr _ hs hi j
    rcases hi j with ⟨x, hx, hdis⟩ | ⟨hatt, hkey⟩
    · exact Or.inl ⟨x, List.mem_append_left _ hx, hdis⟩
    by_cases hdis : Disowning j (c, a)
    · exact Or.inl ⟨_, by simp, hdis⟩
    right
    rcases System.step_cases hs with ⟨e, s, rfl, he, rfl⟩ | ⟨i, x, s, t, rfl, hx, rfl⟩
    · exact ⟨hatt, (act_effect he).keyed hkey⟩
    · have hmove := taskStep_move hx
      by_cases hj : j = i
      · subst hj
        have hno : ¬ (c.thread j).Disowns x := fun hd => hdis ⟨x, rfl, hd⟩
        rw [Config.move_thread_self]
        exact ⟨hmove.attended hno hatt,
          hmove.keyed (reach_aioPending htr.reach).1 hno hatt hkey⟩
      · rw [Config.move_thread_of_ne _ _ hj]
        exact ⟨hatt, hkey.mono fun k => hmove.effect.entry_other hj k⟩
  constructor
  · intro k i hk
    rcases hkeyed i with hdis | ⟨-, hkey⟩
    · exact Or.inr (Or.inr hdis)
    by_cases hraised : (c.thread i).RawRaised
    · exact Or.inr (Or.inl hraised)
    · exact Or.inl (hkey.connects hraised k hk)
  · intro k i hk
    exact (hkeyed i).symm.imp (fun h => h.2.pings k hk) id

/-- The connect is cancelled before `_start_connect` registers, and nobody takes the entry out. -/
theorem aio_entries_live_disowned :
    ∃ tr c, Trace (aio SystemAddress.text) anyStep (Aio.init none 0) tr c ∧
      c.thread 0 = .connect ⟨"h", 1, 12, false⟩ (.done (.ok ⟨"10.0.0.1", 1⟩)) (.left .cancelled) ∧
      c.shared.peer.pendingConnects.get? "10.0.0.1|1" = some 0 ∧
      ((∃ a, (c.thread 0).connectKey = some a ∧ a.text = "10.0.0.1|1") ∨
        (c.thread 0).RawRaised ∨ ∃ x ∈ tr, Disowning 0 x) := by
  have hr := Reach.of_exec (show (aio SystemAddress.text).exec anyStep
    [.thread 0 (.inl (.connect ⟨"h", 1, 12, false⟩)), .thread 0 (.inr (.worker .go)),
      .thread 0 (.inr (.worker .go)), .thread 0 (.inr .cancel), .thread 0 (.inr (.worker .go)),
      .thread 0 (.inr (.worker (.resolved (some "10.0.0.1")))), .thread 0 (.inr (.worker .go)),
      .thread 0 (.inr (.worker (.connectResult .connectionAttemptStarted)))] (Aio.init none 0) =
      some _ from rfl)
  obtain ⟨tr, htr⟩ := hr.exists_trace
  exact ⟨tr, _, htr, rfl, rfl, (aio_entries_live htr).1 _ _ rfl⟩

end Raknet
