import Raknet.Aio.Effects
import Raknet.Effects.Shared
import Raknet.Lib.Trace

/-!
# Concurrent pings

`_start_ping` stores its pending object under the address, whoever is there already, and a call
whose `raw.ping` fails, that times out or that is cancelled pops the address, whoever is there. The
sync and the asyncio Peer do this alike, so what is said here is said of any system of calls over
the shared state (`PingSystem`).

**Theorem (`pings_undisturbed`).** While the Peer is open, the pending object of every ping that
still waits is in the table under its address, throughout a run exactly if whoever registers or pops
under an address in that run does so while no other ping waits there.
-/

namespace Raknet

open Interleaving

/-! ## Calls that ping -/

/-- What a step of call `i` does to the pending pings. `key` is the address under which it has
registered a ping that it waits for, before and after, and `touch` the address whose entry the
step replaces or pops. -/
structure PingMove (text : SystemAddress → String) (i : CallId)
    (touch key : Option SystemAddress) (s s' : State) (key' : Option SystemAddress) : Prop where
  closed : s.peer.closed = true → s'.peer.closed = true
  begun : s'.teardown ≠ .unbegun → s.teardown ≠ .unbegun ∨ s'.peer.closed = true
  pump : s'.pump = s.pump
  popped : ∀ j, .pingPopped j ∈ s'.log ↔ .pingPopped j ∈ s.log
  event : ∀ j, (s'.peer.pendingPing j).event = true → (s.peer.pendingPing j).event = true
  table : s'.peer.closed = true ∨
    touch = none ∧ s'.peer.pendingPings = s.peer.pendingPings ∧ (key' = key ∨ key' = none) ∨
    ∃ a, touch = some a ∧
      (s'.peer.pendingPings = s.peer.pendingPings.set (text a) i ∧ (key' = some a ∨ key' = none) ∨
        s'.peer.pendingPings = s.peer.pendingPings.erase (text a) ∧ key' = none)

/-- A system of calls over the shared state of a Peer. -/
structure PingSystem (text : SystemAddress → String) (τ α : Type) where
  system : System State τ State.Act α
  shared : system.shared = State.act text
  key : τ → Option SystemAddress
  touch : τ → α → Option SystemAddress
  /-- The call is at `_finish_ping`. -/
  finishing : τ → Bool
  move : ∀ i x s t s' t', system.thread i x s t = some (s', t') →
    PingMove text i (touch t x) (key t) s s' (key t')
  finish : ∀ i x s t s' t', system.thread i x s t = some (s', t') → finishing t' = true →
    finishing t = true ∨ (s.peer.pendingPing i).event = true

variable {text : SystemAddress → String} {τ α : Type} {s s' : State}

namespace PingSystem

variable (P : PingSystem text τ α) {c c₀ c' : Config State τ} {a : Action State.Act α}

/-- The ping of every call that waits for its pong is in the table, unless a pong took it. -/
def Present (c : Config State τ) : Prop :=
  ∀ i a, P.key (c.thread i) = some a → .pingPopped i ∉ c.shared.log →
    c.shared.peer.pendingPings.get? (text a) = some i

/-- Who registers or pops under an address is alone there: every other call that registered a ping
under it has ended or was taken by a pong. -/
def Considerate (c : Config State τ) : Action State.Act α → Prop
  | .thread i x => ∀ a, P.touch (c.thread i) x = some a → ∀ j, j ≠ i →
    ∀ b, P.key (c.thread j) = some b → text b = text a → .pingPopped j ∈ c.shared.log
  | .shared _ => True

end PingSystem

/-! ## The pump -/

/-- While the Peer is open, an entry leaves the table by a pong only. -/
theorem ActEffect.present {e : State.Act} (h : ActEffect text s e s')
    (hopen : s'.peer.closed = false) {k : String} {j : CallId}
    (hget : s.peer.pendingPings.get? k = some j) (hpop : .pingPopped j ∉ s'.log) :
    s'.peer.pendingPings.get? k = some j := by
  cases h
  case pongPop i a g d h hget' =>
    have hne : k ≠ text a := by
      rintro rfl
      rw [hget] at hget'
      cases hget'
      exact hpop (by simp)
    simpa [hne] using hget
  case fail => cases hopen
  all_goals exact hget

theorem ActEffect.popped {e : State.Act} (h : ActEffect text s e s') {j : CallId}
    (hpop : .pingPopped j ∈ s.log) : .pingPopped j ∈ s'.log := by
  cases h <;> simp [hpop]

theorem ActEffect.closed {e : State.Act} (h : ActEffect text s e s')
    (hclosed : s.peer.closed = true) : s'.peer.closed = true := by
  cases h <;> simp [hclosed]

/-- What the pump holds was popped, and what is resolved was popped, while the Peer is open. -/
structure PongInv (s : State) : Prop where
  held : ∀ i, (∃ a g d, s.pump = .pongAssign i a g d) ∨ s.pump = .pingSet i →
    .pingPopped i ∈ s.log
  event : ∀ i, (s.peer.pendingPing i).event = true →
    .pingPopped i ∈ s.log ∨ s.peer.closed = true
  begun : s.teardown ≠ .unbegun → s.peer.closed = true

theorem PumpPc.enter_ne_pong (cb : Option Callback) (i : CallId) :
    ¬ ((∃ a g d, PumpPc.enter cb = .pongAssign i a g d) ∨ PumpPc.enter cb = .pingSet i) := by
  rcases cb with _ | ⟨_ | _⟩ <;> simp [PumpPc.enter]

theorem pongInv_init (q : Option Nat) (t₀ : Int) : PongInv (State.init q t₀) := by
  constructor <;> simp [State.init, Peer.init, PendingPing.new]

theorem PongInv.keep (hi : PongInv s)
    (hpopped : ∀ j, .pingPopped j ∈ s.log → .pingPopped j ∈ s'.log)
    (hclosed : s.peer.closed = true → s'.peer.closed = true)
    (hheld : ∀ i, (∃ a g d, s'.pump = .pongAssign i a g d) ∨ s'.pump = .pingSet i →
      .pingPopped i ∈ s'.log)
    (hevent : ∀ i, (s'.peer.pendingPing i).event = true → (s.peer.pendingPing i).event = true)
    (hbegun : s'.teardown ≠ .unbegun → s'.peer.closed = true) : PongInv s' :=
  ⟨hheld, fun i hi' => (hi.event i (hevent i hi')).imp (hpopped i) hclosed, hbegun⟩

theorem ActEffect.pongInv {e : State.Act} (h : ActEffect text s e s') (hi : PongInv s) :
    PongInv s' := by
  have hpopped : ∀ j, .pingPopped j ∈ s.log → .pingPopped j ∈ s'.log := fun j => h.popped
  have hclosed := h.closed
  have hkeep : ∀ i, (∃ a g d, s.pump = .pongAssign i a g d) ∨ s.pump = .pingSet i →
      .pingPopped i ∈ s'.log := fun i hp => hpopped i (hi.held i hp)
  cases h
  case pongPop i a g d h hget =>
    refine hi.keep hpopped hclosed (fun j hj => ?_) (fun _ => id) hi.begun
    obtain rfl : i = j := by simpa using hj
    simp
  case pongAssign i a g d h =>
    refine hi.keep hpopped hclosed (fun j hj => ?_) (fun j hj => ?_) hi.begun
    · obtain rfl : i = j := by simpa using hj
      exact hkeep i (Or.inl ⟨a, g, d, h⟩)
    · by_cases hji : j = i
      · subst hji
        simpa using hj
      · simpa [hji] using hj
  case pingSet i h =>
    refine ⟨fun j hj => by simp at hj, fun j hj => ?_, hi.begun⟩
    by_cases hji : j = i
    · subst hji
      exact Or.inl (hkeep j (Or.inr h))
    · exact (hi.event j (by simpa [hji] using hj)).imp (hpopped j) id
  case sweepPing rest i is h hcons =>
    have hbegun : s.peer.closed = true := hi.begun (by simp [h])
    exact ⟨hkeep, fun _ _ => Or.inr hbegun, fun _ => hbegun⟩
  case route p h =>
    exact hi.keep hpopped hclosed (fun j hj => absurd hj (PumpPc.enter_ne_pong _ _)) (fun _ => id)
      hi.begun
  case fail => exact ⟨by simp, fun _ _ => Or.inr rfl, fun _ => rfl⟩
  case join h _ | shutdown h | sweptConnections h _ | sweepConnection h _ | closeMailbox h |
      sweptConnects h _ | sweepConnect h _ | setConnect h | sweptPings h _ | putSentinel h =>
    exact hi.keep hpopped hclosed hkeep (fun _ => id) fun _ => hi.begun (by simp [h])
  case recvItem | recvRaises | tick => exact hi.keep hpopped hclosed hkeep (fun _ => id) hi.begun
  all_goals exact hi.keep hpopped hclosed (fun j hj => by simp at hj) (fun _ => id) hi.begun

theorem PingMove.pongInv {i : CallId} {touch key key' : Option SystemAddress}
    (h : PingMove text i touch key s s' key') (hi : PongInv s) : PongInv s' := by
  refine hi.keep (fun j => (h.popped j).mpr) h.closed (fun j hj => ?_) h.event fun hb => ?_
  · rw [h.pump] at hj
    exact (h.popped j).mpr (hi.held j hj)
  · exact (h.begun hb).elim (fun hb => h.closed (hi.begun hb)) id

/-! ## Runs -/

namespace PingSystem

variable (P : PingSystem text τ α) {c c₀ c' : Config State τ} {a : Action State.Act α}

theorem step_closed (hs : P.system.step c a = some c') (hclosed : c.shared.peer.closed = true) :
    c'.shared.peer.closed = true := by
  rcases System.step_cases hs with ⟨e, s, rfl, he, rfl⟩ | ⟨i, x, s, t, rfl, hx, rfl⟩
  · rw [P.shared] at he
    exact (act_effect he).closed hclosed
  · exact (P.move i x _ _ _ _ hx).closed hclosed

/-- A considerate step, and no other, keeps every waiting ping in the table. -/
theorem present_step (hs : P.system.step c a = some c') (hopen : c'.shared.peer.closed = false)
    (hi : P.Present c) : P.Present c' ↔ P.Considerate c a := by
  rcases System.step_cases hs with ⟨e, s, rfl, he, rfl⟩ | ⟨i, x, s, t, rfl, hx, rfl⟩
  · rw [P.shared] at he
    have heff := act_effect he
    refine iff_of_true (fun i a hkey hpop => ?_) trivial
    exact heff.present hopen (hi i a hkey fun h => hpop (heff.popped h)) hpop
  have hmove := P.move i x _ _ _ _ hx
  have hold : ∀ j a, j ≠ i → P.key (c.thread j) = some a → .pingPopped j ∉ s.log →
      c.shared.peer.pendingPings.get? (text a) = some j :=
    fun j a _ hkey hpop => hi j a hkey fun h => hpop ((hmove.popped j).mpr h)
  rcases hmove.table with hclosed | ⟨htouch, htable, hkey⟩ | ⟨a, htouch, hcase⟩
  · have hopen : s.peer.closed = false := hopen
    rw [hopen] at hclosed
    cases hclosed
  · -- the step leaves the table alone
    refine iff_of_true (fun j b hb hpop => ?_) fun a ha => by simp [htouch] at ha
    rw [Config.move_shared, htable]
    by_cases hj : j = i
    · subst hj
      rw [Config.move_thread_self] at hb
      rcases hkey with hkey | hkey
      · exact hi j b (hkey ▸ hb) fun h => hpop ((hmove.popped j).mpr h)
      · rw [hkey] at hb
        cases hb
    · rw [Config.move_thread_of_ne _ _ hj] at hb
      exact hold j b hj hb hpop
  have htouched : ∀ j, j ≠ i → s.peer.pendingPings.get? (text a) ≠ some j := by
    intro j hj
    rcases hcase with ⟨htable, -⟩ | ⟨htable, -⟩ <;> rw [htable] <;> simp [Ne.symm hj]
  have hothers : ∀ k, k ≠ text a → s.peer.pendingPings.get? k =
      c.shared.peer.pendingPings.get? k := by
    intro k hk
    rcases hcase with ⟨htable, -⟩ | ⟨htable, -⟩ <;> rw [htable] <;> simp [hk]
  constructor
  · intro hpresent a' ha' j hj b hb hab
    obtain rfl : a = a' := Option.some.inj (htouch.symm.trans ha')
    by_contra hpop
    refine htouched j hj ?_
    have hkey : P.key ((c.move i (s, t)).thread j) = some b := by
      rw [Config.move_thread_of_ne _ _ hj]
      exact hb
    have hpresent := hpresent j b hkey fun h => hpop ((hmove.popped j).mp h)
    rwa [hab] at hpresent
  · intro hcons j b hb hpop
    rw [Config.move_shared]
    by_cases hj : j = i
    · subst hj
      rw [Config.move_thread_self] at hb
      rcases hcase with ⟨htable, hkey | hkey⟩ | ⟨-, hkey⟩
      · obtain rfl : a = b := Option.some.inj (hkey.symm.trans hb)
        simp [htable]
      · rw [hkey] at hb
        cases hb
      · rw [hkey] at hb
        cases hb
    · rw [Config.move_thread_of_ne _ _ hj] at hb
      have hget := hold j b hj hb hpop
      rw [hothers]
      · exact hget
      · intro hab
        exact hpop ((hmove.popped j).mpr (hcons a htouch j hj b hb hab))

/-- While the Peer is open, every waiting ping is in the table, throughout a run, exactly if every
step of the run is considerate. -/
theorem present_iff {tr : List (Config State τ × Action State.Act α)}
    (h₀ : ∀ i, P.key (c₀.thread i) = none) (h : Trace P.system anyStep c₀ tr c)
    (hopen : c.shared.peer.closed = false) :
    ((∀ x ∈ tr, P.Present x.1) ∧ P.Present c) ↔ ∀ x ∈ tr, P.Considerate x.1 x.2 := by
  induction h with
  | start =>
    refine iff_of_true ⟨by simp, fun i a hkey => ?_⟩ (by simp)
    rw [h₀ i] at hkey
    cases hkey
  | @step tr c c' a _ _ hs ih =>
    have hopen' : c.shared.peer.closed = false := by
      by_contra hclosed
      simp [P.step_closed hs (by simpa using hclosed)] at hopen
    have ih := ih hopen'
    simp only [List.mem_append, List.mem_singleton, or_imp, forall_and, forall_eq]
    constructor
    · rintro ⟨⟨hall, hpresent⟩, hnext⟩
      exact ⟨ih.mp ⟨hall, hpresent⟩, (P.present_step hs hopen hpresent).mp hnext⟩
    · rintro ⟨hall, hcons⟩
      obtain ⟨hall, hpresent⟩ := ih.mpr hall
      exact ⟨⟨hall, hpresent⟩, (P.present_step hs hopen hpresent).mpr hcons⟩

/-- Who is past its wait while the Peer is open was served by a pong. -/
theorem finishing_popped {q : Option Nat} {t₀ : Int} (h₀ : c₀.shared = State.init q t₀)
    (hidle : ∀ i, P.finishing (c₀.thread i) = false) (h : Reach P.system anyStep c₀ c) (i : CallId)
    (hi : P.finishing (c.thread i) = true) :
    .pingPopped i ∈ c.shared.log ∨ c.shared.peer.closed = true := by
  refine ((h.outline (G := PongInv) (L := fun i s t => P.finishing t = true →
    .pingPopped i ∈ s.log ∨ s.peer.closed = true) (h₀ ▸ pongInv_init q t₀)
    (fun i hi => by simp [hidle i] at hi) ?_ ?_).2 i) hi
  · intro c e s _ _ he hp
    rw [P.shared] at he
    have heff := act_effect he
    exact ⟨heff.pongInv hp, fun j t ht hf => (ht hf).imp heff.popped heff.closed⟩
  · intro c j x s t _ _ hx hp ht
    have hmove := P.move j x _ _ _ _ hx
    refine ⟨hmove.pongInv hp, fun hf => ?_, fun k _ u hu hf =>
      (hu hf).imp (hmove.popped k).mpr hmove.closed⟩
    rcases P.finish j x _ _ _ _ hx hf with hf | hevent
    · exact (ht hf).imp (hmove.popped j).mpr hmove.closed
    · exact (hp.event j hevent).imp (hmove.popped j).mpr hmove.closed

end PingSystem

/-! ## The sync and the asyncio calls -/

/-- The address under which `_start_ping` has registered the call's ping. -/
def StartPingPc.key : StartPingPc → Option SystemAddress
  | .rawPing a | .popFailed a => some a
  | _ => none

/-- The address whose entry the next step of `_start_ping` replaces or pops. -/
def StartPingPc.touch : StartPingPc → Option SystemAddress
  | .register a | .popFailed a => some a
  | _ => none

/-- The address under which a call has registered a ping that it waits for. -/
def Call.pingKey : Call → Option SystemAddress
  | .ping _ (.start q) => q.key
  | .ping _ (.wait a) | .ping _ (.popTimedOut a) => some a
  | _ => none

/-- The address whose entry the call's next step replaces or pops. -/
def Call.pingTouch : Call → Option SystemAddress
  | .ping _ (.start q) => q.touch
  | .ping _ (.popTimedOut a) => some a
  | _ => none

/-- The call is at `_finish_ping`. -/
def Call.pingFinishing : Call → Bool
  | .ping _ .finish => true
  | _ => false

/-- The address under which the worker has registered the call's ping. -/
def Worker.pingKey : PingWorker → Option SystemAddress
  | .running q => q.key
  | .done (.ok a) => some a
  | _ => none

/-- The address under which a call has registered a ping that it waits for. A worker whose call was
cancelled is nobody's ping. -/
def Task.pingKey : Task → Option SystemAddress
  | .ping _ w .starting | .ping _ w (.wait _) | .ping _ w (.popCancelled _) => w.pingKey
  | _ => none

/-- The address whose entry the worker's next step replaces or pops. -/
def Worker.pingTouch : PingWorker → Option SystemAddress
  | .running q => q.touch
  | _ => none

/-- The address whose entry the coroutine's next step pops. -/
def PingTask.pingTouch : PingTask → Option SystemAddress
  | .popCancelled a => some a
  | _ => none

/-- The address whose entry the step of the call replaces or pops. -/
def Task.pingTouch : Task → CallStart ⊕ TaskChoice → Option SystemAddress
  | .ping _ w _, .inr (.worker _) => w.pingTouch
  | .ping _ _ pc, .inr .go => pc.pingTouch
  | _, _ => none

/-- The call is at `_finish_ping`. -/
def Task.pingFinishing : Task → Bool
  | .ping _ _ .finish => true
  | _ => false

section

variable {i : CallId} {touch key key' : Option SystemAddress}

theorem PingMove.quiet (hclosed : s'.peer.closed = s.peer.closed)
    (hbegun : s'.teardown = s.teardown)
    (hpump : s'.pump = s.pump) (hlog : ∀ j, .pingPopped j ∈ s'.log ↔ .pingPopped j ∈ s.log)
    (hevent : ∀ j, (s'.peer.pendingPing j).event = true → (s.peer.pendingPing j).event = true)
    (htable : s'.peer.pendingPings = s.peer.pendingPings) (hkey : key' = key ∨ key' = none) :
    PingMove text i none key s s' key' where
  closed h := hclosed.trans h
  begun h := Or.inl (hbegun ▸ h)
  pump := hpump
  popped := hlog
  event := hevent
  table := Or.inr (Or.inl ⟨rfl, htable, hkey⟩)

theorem PingMove.stay (hkey : key' = key ∨ key' = none) : PingMove text i none key s s key' :=
  .quiet rfl rfl rfl (fun _ => Iff.rfl) (fun _ => id) rfl hkey

theorem PingMove.shut (hclosed : s.peer.closed = true) : PingMove text i touch key s s key' where
  closed := id
  begun := Or.inl
  pump := rfl
  popped _ := Iff.rfl
  event _ := id
  table := Or.inl hclosed

theorem PingMove.ended (h : PingMove text i touch key s s' key') (k : Option SystemAddress) :
    PingMove text i touch k s s' none :=
  { h with
    table := h.table.imp id (Or.imp (fun ⟨ht, he, _⟩ => ⟨ht, he, Or.inr rfl⟩) fun ⟨a, ha, hcase⟩ =>
      ⟨a, ha, hcase.imp (fun ⟨he, _⟩ => ⟨he, Or.inr rfl⟩) fun ⟨he, _⟩ => ⟨he, rfl⟩⟩) }

theorem PingMove.pop (a : SystemAddress) :
    PingMove text i (some a) key s (s.set (s.peer.popPing (text a))) none where
  closed := id
  begun := Or.inl
  pump := rfl
  popped _ := Iff.rfl
  event _ := id
  table := Or.inr (Or.inr ⟨a, rfl, Or.inr ⟨rfl, rfl⟩⟩)

theorem PingMove.register (a : SystemAddress) :
    PingMove text i (some a) key s
      ((s.set (s.peer.registerPing (text a) i)).emit (.pingEntered i)) (some a) where
  closed := id
  begun := Or.inl
  pump := rfl
  popped _ := by simp
  event _ := id
  table := Or.inr (Or.inr ⟨a, rfl, Or.inl ⟨rfl, Or.inl rfl⟩⟩)

theorem PingMove.beginClose : PingMove text i none key s (s.beginClose .joining) key' where
  closed _ := rfl
  begun _ := Or.inr rfl
  pump := rfl
  popped _ := by simp
  event _ := id
  table := Or.inl rfl

/-- What a step of `_start_ping` does, and where the call is registered then. -/
theorem startPingStep_pingMove {args : PingArgs} {q : StartPingPc} {ch : Choice}
    {n : Next StartPingPc (Except Error SystemAddress)}
    (h : startPingStep text i args s q ch = some (s', n)) :
    PingMove text i q.touch q.key s s' n.worker.pingKey := by
  cases q <;> cases ch <;> simp only [startPingStep, reduceCtorEq] at h
  case checkOpen.go =>
    split_ifs at h <;> cases h <;> exact .stay (Or.inl rfl)
  case resolve.resolved ip =>
    cases ip <;> cases h
    · exact .stay (Or.inl rfl)
    · refine .quiet rfl rfl rfl (fun _ => Iff.rfl) (fun j hj => ?_) rfl (Or.inl rfl)
      by_cases hji : j = i
      · subst hji
        simp [PendingPing.new] at hj
      · simpa [hji] using hj
  case register.go a =>
    split_ifs at h with hclosed <;> cases h
    · exact .shut hclosed
    · exact .register a
  case rawPing.pingResult a ok =>
    cases ok <;> cases h <;> exact .stay (Or.inl rfl)
  case popFailed.go a =>
    cases h
    exact .pop a

/-- Nothing registers or pops a ping but a ping. -/
theorem PingMove.of_other {t : Call} (h : CallEffect text i s t s')
    (ht : ∀ args pc, t ≠ .ping args pc) : PingMove text i none key s s' none := by
  cases h with
  | newPing args h => exact absurd h (ht _ _)
  | registerPing args a h hopen => exact absurd h (ht _ _)
  | popPing args a h => exact absurd h (not_or.mpr ⟨ht _ _, ht _ _⟩)
  | beginClose hopen => exact .beginClose
  | registerConnect args a h hopen =>
    exact .quiet rfl rfl rfl (fun _ => by simp) (fun _ => id) rfl (Or.inr rfl)
  | cancel args a h => exact .quiet rfl rfl rfl (fun _ => by simp) (fun _ => id) rfl (Or.inr rfl)
  | rawClose c notify h =>
    exact .quiet rfl rfl rfl (fun _ => by simp) (fun _ => id) rfl (Or.inr rfl)
  | _ => exact .quiet rfl rfl rfl (fun _ => Iff.rfl) (fun _ => id) rfl (Or.inr rfl)

theorem pingStep_pingMove {args : PingArgs} {pc pc' : PingPc} {ch : Choice}
    (h : pingStep text i args s pc ch = some (s', pc')) :
    PingMove text i (Call.ping args pc).pingTouch (Call.ping args pc).pingKey s s'
      (Call.ping args pc').pingKey := by
  cases pc with
  | start q =>
    obtain ⟨⟨s₁, n⟩, hs, hn⟩ := Option.map_eq_some_iff.mp h
    have hmove := startPingStep_pingMove hs
    rcases n with q' | _ | _ <;> cases hn <;> exact hmove
  | popTimedOut a =>
    cases pingStep_pingEffect h
    exact .pop a
  | wait a => cases pingStep_pingEffect h <;> exact .stay (by simp [Call.pingKey])
  | finish =>
    cases pingStep_pingEffect h
    refine .stay (Or.inl ?_)
    unfold finishPing
    split <;> rfl
  | returned pong | raised e => cases pingStep_pingEffect h

theorem callStep_pingMove {t t' : Call} {x : CallStart ⊕ Choice}
    (h : callStep text i x s t = some (s', t')) :
    PingMove text i t.pingTouch t.pingKey s s' t'.pingKey := by
  have heff := callStep_effect h
  cases t with
  | ping args pc =>
    rcases x with start | ch <;> simp only [callStep, reduceCtorEq] at h
    obtain ⟨⟨s₁, pc'⟩, hr, hu⟩ := Option.map_eq_some_iff.mp h
    cases hu
    exact pingStep_pingMove hr
  | idle =>
    cases callStep_move h with
    | begin start t h =>
      have hkey : t'.pingKey = none := by
        cases start <;> simp only [startCall] at h
        case close =>
          split_ifs at h
          cases h
          rfl
        all_goals
          cases h
          rfl
      exact .stay (Or.inr hkey)
  | _ =>
    have hmove : PingMove text i none none s s' none := .of_other heff (by simp)
    cases callStep_move h <;> exact hmove

theorem pingTaskStep_pingMove {args : PingArgs} {w w' : PingWorker} {pc pc' : PingTask}
    {ch : TaskChoice} (h : pingTaskStep text i args s w pc ch = some (s', w', pc')) :
    PingMove text i ((Task.ping args w pc).pingTouch (.inr ch)) (Task.ping args w pc).pingKey s s'
      (Task.ping args w' pc').pingKey := by
  cases pingTaskStep_effect h with
  | take => exact .stay (Or.inl rfl)
  | work q ch s' n pc hstep =>
    have hmove := startPingStep_pingMove hstep
    cases pc with
    | starting | wait a | popCancelled a => exact hmove
    | finish | returned pong | left x => exact hmove.ended none
  | started a => exact .stay (Or.inl rfl)
  | raised e | drop | cancelStart w hw => exact .stay (Or.inr rfl)
  | woken w a hevent => exact .stay (Or.inr rfl)
  | cancelWait w a => exact .stay (Or.inl rfl)
  | popCancelled w a => exact .pop a
  | failed w hnone | finish w pong hpong => exact .stay (Or.inl rfl)

theorem Task.calls_ne_ping {t : Task} (ht : ∀ args w pc, t ≠ .ping args w pc) (args : PingArgs)
    (pc : PingPc) : t.workerCall ≠ .ping args pc ∧ t.taskCall ≠ .ping args pc := by
  constructor
  · unfold Task.workerCall
    split <;> simp
    exact absurd rfl (ht _ _ _)
  · unfold Task.taskCall
    split <;> simp
    exact absurd rfl (ht _ _ _)

theorem PingMove.of_task {t : Task} (h : TaskEffect text i s t s')
    (ht : ∀ args w pc, t ≠ .ping args w pc) : PingMove text i none key s s' none := by
  cases h with
  | worker s' h => exact .of_other h fun args pc => (Task.calls_ne_ping ht args pc).1
  | task s' h => exact .of_other h fun args pc => (Task.calls_ne_ping ht args pc).2
  | cancelClose snap h =>
    exact {
      closed := id
      begun := fun _ => Or.inl (by rcases h with h | h <;> simp [h])
      pump := rfl
      popped := fun _ => Iff.rfl
      event := fun _ => id
      table := Or.inr (Or.inl ⟨rfl, rfl, Or.inr rfl⟩) }

theorem taskStep_pingMove {t t' : Task} {x : CallStart ⊕ TaskChoice}
    (h : taskStep text i x s t = some (s', t')) :
    PingMove text i (t.pingTouch x) t.pingKey s s' t'.pingKey := by
  have hmove := taskStep_move h
  cases t with
  | ping args w pc =>
    rcases x with start | ch <;> simp only [taskStep, reduceCtorEq] at h
    obtain ⟨⟨s₁, w', pc'⟩, hr, hu⟩ := Option.map_eq_some_iff.mp h
    cases hu
    exact pingTaskStep_pingMove hr
  | idle =>
    cases hmove with
    | begin start t h =>
      have hkey : t'.pingKey = none := by
        cases start <;> simp only [startTask] at h
        case close =>
          split_ifs at h
          cases h
          rfl
        all_goals
          cases h
          rfl
      exact .stay (Or.inr hkey)
  | _ =>
    have hother : PingMove text i none none s s' none := .of_task hmove.effect (by simp)
    cases hmove <;> exact hother

end

/-- The pings of a sync Peer. -/
def syncPings (text : SystemAddress → String) : PingSystem text Call (CallStart ⊕ Choice) where
  system := sync text
  shared := rfl
  key := Call.pingKey
  touch t _ := t.pingTouch
  finishing := Call.pingFinishing
  move _ _ _ _ _ _ h := callStep_pingMove h
  finish i x s t s' t' h hf := by
    replace h := callStep_move h
    cases h with
    | begin start t h => cases start <;> simp only [startCall] at h <;> grind [Call.pingFinishing]
    | ping args pc pc' s' h =>
      cases h with
      | woken a hevent => exact Or.inr hevent
      | finish => exact Or.inl rfl
      | _ => cases hf
    | _ => cases hf

/-- The pings of an asyncio Peer. -/
def aioPings (text : SystemAddress → String) : PingSystem text Task (CallStart ⊕ TaskChoice) where
  system := aio text
  shared := rfl
  key := Task.pingKey
  touch := Task.pingTouch
  finishing := Task.pingFinishing
  move _ _ _ _ _ _ h := taskStep_pingMove h
  finish i x s t s' t' h hf := by
    replace h := taskStep_move h
    cases h with
    | begin start t h => cases start <;> simp only [startTask] at h <;> grind [Task.pingFinishing]
    | ping args w w' pc pc' s' ch h =>
      cases h with
      | woken w a hevent => exact Or.inr hevent
      | work q ch s' n pc h => exact Or.inl (by cases pc <;> first | rfl | cases hf)
      | _ => cases hf
    | _ => cases hf

/-! ## Undisturbed pings -/

/-- **Main theorem.** Sync or asyncio, while the Peer is open: every ping that has registered, was
not taken by a pong and has not ended is in the table under its address, throughout a run, exactly
if whoever registers or pops under an address is alone there; and who is past its wait was taken. -/
theorem pings_undisturbed (text : SystemAddress → String) (q : Option Nat) (t₀ : Int) :
    (∀ tr c, Trace (sync text) anyStep (Sync.init q t₀) tr c → c.shared.peer.closed = false →
      (((∀ x ∈ tr, (syncPings text).Present x.1) ∧ (syncPings text).Present c) ↔
        ∀ x ∈ tr, (syncPings text).Considerate x.1 x.2) ∧
      ∀ i, (c.thread i).pingFinishing = true → .pingPopped i ∈ c.shared.log) ∧
    (∀ tr c, Trace (aio text) anyStep (Aio.init q t₀) tr c → c.shared.peer.closed = false →
      (((∀ x ∈ tr, (aioPings text).Present x.1) ∧ (aioPings text).Present c) ↔
        ∀ x ∈ tr, (aioPings text).Considerate x.1 x.2) ∧
      ∀ i, (c.thread i).pingFinishing = true → .pingPopped i ∈ c.shared.log) := by
  constructor
  · intro tr c h hopen
    refine ⟨(syncPings text).present_iff (fun _ => rfl) h hopen, fun i hi => ?_⟩
    have := (syncPings text).finishing_popped rfl (fun _ => rfl) h.reach i hi
    simpa [hopen] using this
  · intro tr c h hopen
    refine ⟨(aioPings text).present_iff (fun _ => rfl) h hopen, fun i hi => ?_⟩
    have := (aioPings text).finishing_popped rfl (fun _ => rfl) h.reach i hi
    simpa [hopen] using this

/-- A call `Peer.ping`, up to its wait. -/
def waitingPing (i : CallId) : List SyncAction :=
  [.thread i (.inl (.ping ⟨"localhost", 19132⟩)), .thread i (.inr .go),
    .thread i (.inr (.resolved (some "127.0.0.1"))), .thread i (.inr .go),
    .thread i (.inr (.pingResult true))]

/-- A call `ping` of an asyncio Peer, up to its wait. -/
def waitingPingTask (i : CallId) : List AioAction :=
  [.thread i (.inl (.ping ⟨"localhost", 19132⟩)), .thread i (.inr (.worker .go)),
    .thread i (.inr (.worker .go)), .thread i (.inr (.worker (.resolved (some "127.0.0.1")))),
    .thread i (.inr (.worker .go)), .thread i (.inr (.worker (.pingResult true))),
    .thread i (.inr .go)]

/-- A call `Peer.ping` that times out. -/
def timedOutPing (i : CallId) : List SyncAction :=
  [.thread i (.inl (.ping ⟨"b", 1⟩)), .thread i (.inr .go),
    .thread i (.inr (.resolved (some "10.0.0.2"))), .thread i (.inr .go),
    .thread i (.inr (.pingResult true)), .thread i (.inr .timeout), .thread i (.inr .go)]

/-- A call `ping` of an asyncio Peer that is cancelled while it waits. -/
def cancelledPing (i : CallId) : List AioAction :=
  [.thread i (.inl (.ping ⟨"b", 1⟩)), .thread i (.inr (.worker .go)),
    .thread i (.inr (.worker .go)), .thread i (.inr (.worker (.resolved (some "10.0.0.2")))),
    .thread i (.inr (.worker .go)), .thread i (.inr (.worker (.pingResult true))),
    .thread i (.inr .go), .thread i (.inr .cancel), .thread i (.inr .go)]

/-- A ping is at `_finish_ping`, while another one has timed out or was cancelled and the pump is
about to look for it: on a sync and on an asyncio Peer. -/
theorem pings_undisturbed_answered :
    (∃ tr c, Trace (sync SystemAddress.text) anyStep (Sync.init none 0) tr c ∧
      c.thread 0 = .ping ⟨"localhost", 19132⟩ .finish ∧
      c.thread 1 = .ping ⟨"b", 1⟩ (.raised (.timeout "ping to b:1 timed out")) ∧
      c.shared.pump = .pongPop ⟨"10.0.0.2", 1⟩ 8 [2] ∧ .pingPopped 0 ∈ c.shared.log ∧
      (((∀ x ∈ tr, (syncPings SystemAddress.text).Present x.1) ∧
        (syncPings SystemAddress.text).Present c) ↔
          ∀ x ∈ tr, (syncPings SystemAddress.text).Considerate x.1 x.2)) ∧
    ∃ tr c, Trace (aio SystemAddress.text) anyStep (Aio.init none 0) tr c ∧
      c.thread 0 = .ping ⟨"localhost", 19132⟩ (.done (.ok ⟨"127.0.0.1", 19132⟩)) .finish ∧
      c.thread 1 = .ping ⟨"b", 1⟩ (.done (.ok ⟨"10.0.0.2", 1⟩)) (.left .cancelled) ∧
      c.shared.pump = .pongPop ⟨"10.0.0.2", 1⟩ 8 [2] ∧ .pingPopped 0 ∈ c.shared.log ∧
      (((∀ x ∈ tr, (aioPings SystemAddress.text).Present x.1) ∧
        (aioPings SystemAddress.text).Present c) ↔
          ∀ x ∈ tr, (aioPings SystemAddress.text).Considerate x.1 x.2) := by
  have hsync : Reach (sync SystemAddress.text) anyStep (Sync.init none 0) _ :=
    .of_exec (show (sync SystemAddress.text).exec anyStep
      (waitingPing 0 ++ timedOutPing 1 ++
        routes ⟨⟨"127.0.0.1", 19132⟩, 7, [28, 0, 0, 0, 0, 1]⟩ 4 ++ steps 0 1 ++
        routes ⟨⟨"10.0.0.2", 1⟩, 8, [28, 0, 0, 0, 0, 2]⟩ 1) (Sync.init none 0) = some _ from rfl)
  have haio : Reach (aio SystemAddress.text) anyStep (Aio.init none 0) _ :=
    .of_exec (show (aio SystemAddress.text).exec anyStep
      (waitingPingTask 0 ++ cancelledPing 1 ++
        aioRoutes ⟨⟨"127.0.0.1", 19132⟩, 7, [28, 0, 0, 0, 0, 1]⟩ 4 ++ [.thread 0 (.inr .go)] ++
        aioRoutes ⟨⟨"10.0.0.2", 1⟩, 8, [28, 0, 0, 0, 0, 2]⟩ 1) (Aio.init none 0) =
      some _ from rfl)
  obtain ⟨tr, htr⟩ := hsync.exists_trace
  obtain ⟨tr', htr'⟩ := haio.exists_trace
  obtain ⟨hiff, hpopped⟩ := (pings_undisturbed _ none 0).1 tr _ htr rfl
  obtain ⟨hiff', hpopped'⟩ := (pings_undisturbed _ none 0).2 tr' _ htr' rfl
  exact ⟨⟨tr, _, htr, rfl, by decide, rfl, hpopped 0 rfl, hiff⟩,
    tr', _, htr', rfl, rfl, rfl, hpopped' 0 rfl, hiff'⟩

/-- Two calls ping one address and the second times out: the first still waits, and no pong finds
it. -/
theorem pings_disturbed :
    ¬ ∀ c, Reach (sync SystemAddress.text) anyStep (Sync.init none 0) c →
      c.shared.peer.closed = false → (syncPings SystemAddress.text).Present c := by
  intro hall
  have hrun : Reach (sync SystemAddress.text) anyStep (Sync.init none 0) _ :=
    .of_exec (show (sync SystemAddress.text).exec anyStep (waitingPing 0 ++ waitingPing 1 ++
      [.thread 1 (.inr .timeout), .thread 1 (.inr .go)]) (Sync.init none 0) = some _ from rfl)
  have hpresent := hall _ hrun rfl 0 ⟨"127.0.0.1", 19132⟩ rfl (by decide)
  cases hpresent

end Raknet
