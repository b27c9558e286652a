import Raknet.Aio.Accept
import Raknet.Aio.Flow
import Raknet.Aio.Soundness
import Raknet.Lib.Simulation

/-!
# An asyncio Peer with its mailboxes

`aio text` reads a mailbox as a `_Mailbox`. Here every Connection has its `_AsyncMailbox`: the pump
is in `put` for three steps, in which tasks may close the Connection, the event loop runs the
callbacks when it likes, and any number of tasks are in `Connection.recv`. The `_Mailbox`es that are
still in the state decide nothing. They keep the payloads that were put and not returned.

**Theorem (`mailed_refines`).** Every run is a run of `aio text`, in which a `recv` takes effect
when it returns.
-/

namespace Raknet

open Interleaving

/-! ## Closing a mailbox -/

/-- The mailbox that the pump is about to close, and the reason. -/
def PumpPc.closes : PumpPc → Option (ConnId × ConnectionClosed)
  | overflowMailbox c => some (c, .error "receive queue overflow")
  | disconnectedMailbox c b => some (c, State.remoteReason b)
  | _ => none

/-- The mailbox that the closer is about to close, and the reason. -/
def Teardown.closes : Teardown → Option (ConnId × ConnectionClosed)
  | closeMailbox exc c _ => some (c, exc)
  | _ => none

/-- The mailbox that an action on the shared state closes, and the reason. -/
def State.closes (s : State) : State.Act → Option (ConnId × ConnectionClosed)
  | .pump => s.pump.closes
  | .closer => s.teardown.closes
  | _ => none

/-- The mailbox that a task closes in its step, and the reason. -/
def Task.closes : Task → CallStart ⊕ TaskChoice → Option (ConnId × ConnectionClosed)
  | close c _ .mailbox, .inr .go | connect _ _ (.reap c .mailbox), .inr .go =>
    some (c, .ok "connection closed")
  | _, _ => none

/-! ## Steps -/

/-- An asyncio Peer and the mailboxes of its Connections. -/
structure Mailed where
  state : State
  mails : ConnId → MailState

/-- A call of a user's task. -/
inductive MailTask
  | call (t : Task)
  /-- `Connection.recv` -/
  | recv (k : ConnId) (g : GetTask)

/-- What a call does next. -/
inductive MailChoice
  | call (x : CallStart ⊕ TaskChoice)
  /-- the user calls `Connection.recv` -/
  | recv (k : ConnId)
  | get (ch : GetChoice)

namespace Mailed

/-- Write a mailbox. -/
@[simps] def write (l : Mailed) (k : ConnId) (m : MailState) : Mailed :=
  { l with mails := Function.update l.mails k m }

/-- Call `close` of a mailbox. -/
def close (l : Mailed) : Option (ConnId × ConnectionClosed) → Mailed
  | some (k, exc) => l.write k ((l.mails k).close exc)
  | none => l

/-- A `recv` has returned the oldest payload. -/
def take (l : Mailed) (k : ConnId) (d : Bytes) : Mailed :=
  let box := l.state.peer.mailbox k
  let state := l.state.set (l.state.peer.setMailbox k { box with items := box.items.tail })
  { l with state := state.emit (.returned k d) }

/-- The next step of the pump in `connection._mailbox.put(data)`. -/
def put (l : Mailed) (k : ConnId) (d : Bytes) : Option Mailed :=
  match (l.mails k).pump with
  | .idle => ((l.mails k).act (.put d)).map fun m =>
    if (l.mails k).mailbox.full then
      { l.write k m with state := (l.state.emit (.rejected k d)).goto (.overflowPop k) }
    else
      l.write k m
  | .count _ => ((l.mails k).act .pump).map (l.write k)
  | .schedule _ => ((l.mails k).act .pump).map fun m =>
    let box := (l.state.peer.mailbox k).append d
    let state := l.state.set (l.state.peer.setMailbox k box)
    { l.write k m with state := (state.emit (.put k d)).goto .loop }

/-- Actions that no call performs. -/
inductive Act
  | peer (e : State.Act)
  /-- the event loop runs a callback of a mailbox -/
  | callback (k : ConnId)

section

variable (text : SystemAddress → String)

/-- One such action. -/
def act : Act → Mailed → Option Mailed
  | .peer e, l =>
    match e, l.state.pump with
    | .pump, .messagePut k d => l.put k d
    | .recv _, _ => none
    | e, _ => (l.state.act text e).map fun s => { l with state := s }.close (l.state.closes e)
  | .callback k, l => ((l.mails k).act .callback).map (l.write k)

/-- One step of call `i`. -/
def taskStep (i : CallId) : MailChoice → Mailed → MailTask → Option (Mailed × MailTask)
  | .call x, l, .call t => (Raknet.taskStep text i x l.state t).map fun (s, t') =>
    ({ l with state := s }.close (t.closes x), .call t')
  | .recv k, l, .call .idle => if l.state.published k then some (l, .recv k .check) else none
  | .get ch, l, .recv k g => (getStep ch (l.mails k) g).map fun (m, g') =>
    (match g' with
      | .returned d => (l.write k m).take k d
      | _ => l.write k m, .recv k g')
  | _, _, _ => none

end

end Mailed

/-- A configuration of an asyncio Peer with its mailboxes. -/
abbrev AioMailed := Config Mailed MailTask

/-- The pump, the closer, the event loop and the users' tasks of an asyncio Peer. -/
def mailed (text : SystemAddress → String) : System Mailed MailTask Mailed.Act MailChoice where
  shared := Mailed.act text
  thread := Mailed.taskStep text

/-- An asyncio Peer whose pump was just started. -/
def AioMailed.init (maxQueue : Option Nat) (clock : Int) : AioMailed :=
  ⟨⟨.init maxQueue clock, fun _ => ⟨.new maxQueue, .idle, none, []⟩⟩, fun _ => .call .idle⟩

/-- The call that is no `recv`. -/
def MailTask.task : MailTask → Task
  | call t => t
  | recv _ _ => .idle

/-- The Peer as `aio text` has it. -/
def AioMailed.toAio (c : AioMailed) : Aio := ⟨c.shared.state, fun i => (c.thread i).task⟩

/-- The program counter of a `recv` on `k`, if it is one. -/
def MailTask.on (k : ConnId) : MailTask → GetTask
  | recv k' g => if k' = k then g else .check
  | call _ => .check

/-- The mailbox of `k` with its `recv`s. -/
def AioMailed.mail (c : AioMailed) (k : ConnId) : Mail :=
  ⟨c.shared.mails k, fun i => (c.thread i).on k⟩

/-! ## Schedules -/

/-- The pump receives a packet and takes `n` steps with it. -/
def mailRoutes (p : Packet) (n : Nat) : List (Action Mailed.Act MailChoice) :=
  .shared (.peer .pump) :: .shared (.peer (.received (.packet p))) ::
    List.replicate n (.shared (.peer .pump))

/-- Call `i` is a `Connection.close` of `k`, up to the mailbox. -/
def mailCloses (i : CallId) (k : ConnId) : List (Action Mailed.Act MailChoice) :=
  .thread i (.call (.inl (.close k true))) :: List.replicate 6 (.thread i (.call (.inr .go)))

/-- Call `i` is a `recv` on `k` and takes `n` steps. -/
def mailReceives (i : CallId) (k : ConnId) (n : Nat) : List (Action Mailed.Act MailChoice) :=
  .thread i (.recv k) :: List.replicate n (.thread i (.get .go))

/-! ## What becomes of the `_Mailbox`es -/

variable {text : SystemAddress → String} {s s' : State} {k : ConnId} {i : CallId}

/-- The `_Mailbox` of `k` after a mailbox was closed. -/
def Mailbox.after (b : Mailbox) (k : ConnId) : Option (ConnId × ConnectionClosed) → Mailbox
  | some (c, exc) => if c = k then b.close exc else b
  | none => b

@[simp] theorem Mailbox.after_none (b : Mailbox) : b.after k none = b := rfl

@[simp] theorem Mailbox.after_maxsize (b : Mailbox) (x : Option (ConnId × ConnectionClosed)) :
    (b.after k x).maxsize = b.maxsize := by
  unfold Mailbox.after
  split
  · split_ifs <;> rfl
  · rfl

theorem Mailbox.after_full (b : Mailbox) (x : Option (ConnId × ConnectionClosed)) :
    (b.after k x).full = b.full := by
  unfold Mailbox.after
  split
  · split_ifs <;> rfl
  · rfl

theorem closeMailbox_after (p : Peer) (c : ConnId) (exc : ConnectionClosed) :
    (p.closeMailbox c exc).mailbox k = (p.mailbox k).after k (some (c, exc)) := by
  by_cases h : c = k
  · subst h
    simp [Mailbox.after, Peer.mailbox]
  · simp [Mailbox.after, Peer.mailbox, h, Ne.symm h]

/-- What an action does to the `_Mailbox`es that is neither a `put` nor a `recv`. -/
theorem ActEffect.boxes {e : State.Act} (h : ActEffect text s e s')
    (hput : ∀ c d, e = .pump → s.pump ≠ .messagePut c d) (hrecv : ∀ c, e ≠ .recv c) :
    (s'.peer.mailbox k = (s.peer.mailbox k).after k (s.closes e) ∧
        s'.peer.created = s.peer.created) ∨
      s.closes e = none ∧ s'.peer.created = s.peer.created + 1 ∧
        s'.peer.mailbox k =
          if k = s.peer.created then ⟨[], none, s.peer.maxQueue⟩ else s.peer.mailbox k := by
  have hkeep : s.closes e = none → s'.peer.mailbox k = s.peer.mailbox k →
      s'.peer.mailbox k = (s.peer.mailbox k).after k (s.closes e) := by
    intro hnone hbox
    rw [hnone, hbox]
    rfl
  cases h
  case messagePut c d h hroom | messageReject c d h hfull => exact absurd h (hput c d rfl)
  case recvItem c d m hpub hget | recvRaises c exc hpub hget => exact absurd rfl (hrecv c)
  case overflowMailbox c h | disconnectedMailbox c b h | closeMailbox exc c snap h =>
    refine Or.inl ⟨?_, rfl⟩
    simp only [State.closes, h, PumpPc.closes, Teardown.closes]
    exact closeMailbox_after _ _ _
  case incomingCreate a g h | succeededCreate i a g h =>
    refine Or.inr ⟨by simp [State.closes, h, PumpPc.closes], rfl, ?_⟩
    simp only [State.goto_peer, State.set_peer, Peer.mailbox, Peer.construct_connection_apply]
    split_ifs <;> rfl
  case drop h =>
    refine Or.inl ⟨hkeep ?_ rfl, rfl⟩
    show s.pump.closes = none
    cases hp : s.pump <;> rw [hp] at h <;> first | rfl | cases h
  case overflowMark c h | disconnectedMark c b h | sweepConnection exc snap c cs h hcons =>
    refine Or.inl ⟨hkeep (by simp [State.closes, h, PumpPc.closes, Teardown.closes]) ?_, rfl⟩
    by_cases hk : k = c <;> simp [Peer.mailbox, hk]
  all_goals
    refine Or.inl ⟨hkeep ?_ rfl, rfl⟩
    first
      | rfl
      | simp [State.closes, PumpPc.closes, Teardown.closes, *]

theorem ActEffect.maxQueue {e : State.Act} (h : ActEffect text s e s') :
    s'.peer.maxQueue = s.peer.maxQueue := by
  cases h <;> rfl

theorem CallEffect.created {t : Call} (h : CallEffect text i s t s') :
    s'.peer.created = s.peer.created ∧ s'.peer.maxQueue = s.peer.maxQueue := by
  cases h <;> exact ⟨rfl, rfl⟩

/-- Only a step at `mailbox` of a `Connection.close` touches them. -/
theorem CallEffect.boxes {t : Call} (h : CallEffect text i s t s')
    (ht : ∀ c, t.closing ≠ some (c, .mailbox)) : s'.peer.mailbox k = s.peer.mailbox k := by
  cases h
  case closeMailbox c h => exact absurd h (ht c)
  case mark c h | own args c h => by_cases hk : k = c <;> simp [Peer.mailbox, hk]
  all_goals rfl

theorem CloseEffect.boxes {c : ConnId} {notify : Bool} {pc' : Option ClosePc}
    (h : CloseEffect c notify s .mailbox s' pc') :
    s'.peer.mailbox k = (s.peer.mailbox k).after k (some (c, .ok "connection closed")) := by
  cases h
  exact closeMailbox_after _ _ _

theorem Task.closes_of_closing {t : Task} {c : ConnId}
    (h : t.taskCall.closing = some (c, .mailbox)) :
    t.closes (.inr .go) = some (c, .ok "connection closed") := by
  cases t with
  | connect args w pc => cases pc <;> cases h; rfl
  | ping args w pc => cases pc <;> cases h
  | close c' notify pc => cases h; rfl
  | _ => cases h

theorem TaskMove.boxes_kept {t t' : Task} {x : CallStart ⊕ TaskChoice}
    (h : TaskMove text i s t x s' t') (hx : t.closes x = none) :
    s'.peer.mailbox k = s.peer.mailbox k := by
  by_cases hclosing : ∃ c, t.taskCall.closing = some (c, .mailbox)
  · -- only a worker can move, and it is not in a `close`
    obtain ⟨c, hc⟩ := hclosing
    have hgo : x ≠ .inr .go := by
      rintro rfl
      rw [Task.closes_of_closing hc] at hx
      cases hx
    cases h with
    | connect args w w' pc pc' s' ch h =>
      cases h with
      | work q ch s' n pc h =>
        have heff := (CallMove.connect args _ _ _ (startStep_connectEffect h)).effect
        exact heff.boxes (by simp [Call.closing])
      | _ => first | exact absurd rfl hgo | cases hc
    | ping args w w' pc pc' s' ch h => cases pc <;> cases hc
    | close | closed => exact absurd rfl hgo
    | _ => cases hc
  · cases h.effect with
    | worker s' h => exact h.boxes (by simp [Task.workerCall_closing])
    | task s' h => exact h.boxes (not_exists.mp hclosing)
    | cancelClose snap h => rfl

theorem TaskMove.boxes {t t' : Task} {x : CallStart ⊕ TaskChoice}
    (h : TaskMove text i s t x s' t') :
    s'.peer.mailbox k = (s.peer.mailbox k).after k (t.closes x) := by
  cases hx : t.closes x with
  | none => exact h.boxes_kept hx
  | some r =>
    unfold Task.closes at hx
    split at hx <;> cases hx
    · cases h with
      | close c notify pc pc' s' h => exact h.boxes
      | closed c notify pc s' h => exact h.boxes
    · cases h with
      | connect args w w' pc pc' s' ch h =>
        cases h with
        | reap w c pc pc' s' h => exact h.boxes
        | reaped w c pc s' h => exact h.boxes

theorem TaskEffect.created {t : Task} (h : TaskEffect text i s t s') :
    s'.peer.created = s.peer.created ∧ s'.peer.maxQueue = s.peer.maxQueue := by
  cases h with
  | worker s' h | task s' h => exact h.created
  | cancelClose snap h => exact ⟨rfl, rfl⟩

/-! ## Connections that are not constructed yet -/

theorem Registry.write_uncreated {r : Registry} {c : ConnId} {x : Connection} (hc : c < r.created)
    (hk : r.created ≤ k) : (r.write c x).connection k = r.connection k :=
  Function.update_of_ne (Nat.ne_of_gt (Nat.lt_of_lt_of_le hc hk)) _ _

theorem Registry.Step.uncreated {r r' : Registry} (h : r.Step r')
    (hold : ∀ k, r.created ≤ k → r.connection k = default) :
    ∀ k, r'.created ≤ k → r'.connection k = default := by
  intro k hk
  cases h
  case construct q a g hfresh =>
    have hlt : r.created < k := hk
    exact (Function.update_of_ne (Nat.ne_of_gt hlt) _ _).trans (hold k hlt.le)
  case mark c hgone => exact (Registry.write_uncreated hgone.1.1 hk).trans (hold k hk)
  case own c hpub => exact (Registry.write_uncreated hpub.1 hk).trans (hold k hk)
  case deliver c m hpub hexc => exact (Registry.write_uncreated hpub.1 hk).trans (hold k hk)
  case close c e hretired => exact (Registry.write_uncreated hretired.1.1.1 hk).trans (hold k hk)
  all_goals exact hold k hk

theorem reach_aioUncreated {ok : Aio → AioAction → Prop} {q : Option Nat} {t₀ : Int} {c : Aio}
    (h : Reach (aio text) ok (Aio.init q t₀) c) :
    ∀ k, c.shared.peer.created ≤ k → c.shared.peer.connection k = default := by
  refine h.invariant (I := fun c => ∀ k, c.shared.registry.created ≤ k →
    c.shared.registry.connection k = default) (fun _ _ => rfl) ?_
  intro c a c' hr _ hs hi
  exact (step_aioRegistry hr hs).uncreated hi

/-! ## The transitions -/

/-- What an action does, and from which program counters. -/
inductive Mailed.Move (text : SystemAddress → String) (l : Mailed) : Mailed.Act → Mailed → Prop
  | peer (e : State.Act) (s : State) (hput : ∀ k d, e = .pump → l.state.pump ≠ .messagePut k d)
      (hrecv : ∀ k, e ≠ .recv k) (h : l.state.act text e = some s) :
      Move text l (.peer e) ({ l with state := s }.close (l.state.closes e))
  | reject (k : ConnId) (d : Bytes) (hpump : l.state.pump = .messagePut k d)
      (hidle : (l.mails k).pump = .idle) (hfull : (l.mails k).mailbox.full = true) :
      Move text l (.peer .pump) { l.write k ((l.mails k).emit (.put d false)) with
        state := (l.state.emit (.rejected k d)).goto (.overflowPop k) }
  | room (k : ConnId) (d : Bytes) (hpump : l.state.pump = .messagePut k d)
      (hidle : (l.mails k).pump = .idle) (hroom : (l.mails k).mailbox.full = false) :
      Move text l (.peer .pump) (l.write k ((l.mails k).goto (.count d)))
  | count (k : ConnId) (d d' : Bytes) (hpump : l.state.pump = .messagePut k d)
      (hcount : (l.mails k).pump = .count d') :
      Move text l (.peer .pump) (l.write k ((((l.mails k).set (l.mails k).mailbox.countUp).emit
        (.put d' true)).goto (.schedule d')))
  | schedule (k : ConnId) (d d' : Bytes) (hpump : l.state.pump = .messagePut k d)
      (hschedule : (l.mails k).pump = .schedule d') :
      Move text l (.peer .pump)
        { l.write k
            (((l.mails k).set ((l.mails k).mailbox.callSoon (.putNowait d'))).goto .idle) with
          state := ((l.state.set
            (l.state.peer.setMailbox k ((l.state.peer.mailbox k).append d))).emit
              (.put k d)).goto .loop }
  | callback (k : ConnId) (x : AsyncMailbox) (hrun : (l.mails k).mailbox.runScheduled = some x) :
      Move text l (.callback k) (l.write k ((l.mails k).set x))

variable {l l' : Mailed}

theorem Mailed.put_move {d : Bytes} (hpump : l.state.pump = .messagePut k d)
    (h : l.put k d = some l') : l.Move text (.peer .pump) l' := by
  unfold Mailed.put at h
  split at h
  · next hidle =>
    simp only [MailState.act, hidle, Option.map_some, Option.some.injEq] at h
    split_ifs at h with hfull <;> subst h
    · exact .reject k d hpump hidle hfull
    · exact .room k d hpump hidle (by simpa using hfull)
  · next d' hcount =>
    simp only [MailState.act, hcount, Option.map_some, Option.some.injEq] at h
    subst h
    exact .count k d d' hpump hcount
  · next d' hschedule =>
    simp only [MailState.act, hschedule, Option.map_some, Option.some.injEq] at h
    subst h
    exact .schedule k d d' hpump hschedule

theorem Mailed.act_move {e : Mailed.Act} (h : l.act text e = some l') : l.Move text e l' := by
  cases e with
  | peer e =>
    simp only [Mailed.act] at h
    split at h
    · next k d hpump => exact Mailed.put_move hpump h
    · cases h
    · next hrecv hput =>
      obtain ⟨s, hs, rfl⟩ := Option.map_eq_some_iff.mp h
      exact .peer _ s hput hrecv hs
  | callback k =>
    obtain ⟨m, hm, rfl⟩ := Option.map_eq_some_iff.mp h
    simp only [MailState.act] at hm
    split_ifs at hm
    obtain ⟨x, hx, rfl⟩ := Option.map_eq_some_iff.mp hm
    exact .callback k x hx

/-- What a step of a call does. -/
inductive MailTask.Move (text : SystemAddress → String) (i : CallId) (l : Mailed) :
    MailTask → Mailed → MailTask → Prop
  | call (t t' : Task) (x : CallStart ⊕ TaskChoice) (s : State)
      (h : Raknet.taskStep text i x l.state t = some (s, t')) :
      Move text i l (.call t) ({ l with state := s }.close (t.closes x)) (.call t')
  | recv (k : ConnId) (hpub : l.state.published k = true) :
      Move text i l (.call .idle) l (.recv k .check)
  | get (k : ConnId) (g g' : GetTask) (ch : GetChoice) (m : MailState)
      (h : getStep ch (l.mails k) g = some (m, g')) (hret : ∀ d, g' ≠ .returned d) :
      Move text i l (.recv k g) (l.write k m) (.recv k g')
  | returned (k : ConnId) (g : GetTask) (ch : GetChoice) (m : MailState) (d : Bytes)
      (h : getStep ch (l.mails k) g = some (m, .returned d)) :
      Move text i l (.recv k g) ((l.write k m).take k d) (.recv k (.returned d))

theorem Mailed.taskStep_move {x : MailChoice} {t t' : MailTask}
    (h : l.taskStep text i x t = some (l', t')) : t.Move text i l l' t' := by
  unfold Mailed.taskStep at h
  split at h
  · next x t =>
    obtain ⟨⟨s, u⟩, hs, hu⟩ := Option.map_eq_some_iff.mp h
    cases hu
    exact .call t u x s hs
  · next k =>
    split_ifs at h with hpub
    cases h
    exact .recv k hpub
  · next ch k g =>
    obtain ⟨⟨m, g'⟩, hg, hu⟩ := Option.map_eq_some_iff.mp h
    cases g' with
    | returned d =>
      cases hu
      exact .returned k g ch m d hg
    | _ =>
      cases hu
      exact .get k g _ ch m hg (by simp)
  · cases h

/-! ## What the mailboxes hold -/

/-- The mailbox of `k` after a mailbox was closed. -/
def MailState.after (m : MailState) (k : ConnId) : Option (ConnId × ConnectionClosed) → MailState
  | some (c, exc) => if c = k then m.close exc else m
  | none => m

@[simp] theorem Mailed.close_state (l : Mailed) (x : Option (ConnId × ConnectionClosed)) :
    (l.close x).state = l.state := by
  cases x <;> rfl

@[simp] theorem Mailed.close_mails (l : Mailed) (x : Option (ConnId × ConnectionClosed)) :
    (l.close x).mails k = (l.mails k).after k x := by
  cases x with
  | none => rfl
  | some r =>
    obtain ⟨c, exc⟩ := r
    by_cases h : c = k
    · subst h
      simp [Mailed.close, MailState.after]
    · simp [Mailed.close, MailState.after, h, Ne.symm h]

theorem MailState.after_kept (m : MailState) (x : Option (ConnId × ConnectionClosed)) :
    (m.after k x).pump = m.pump ∧ (m.after k x).taken = m.taken ∧
      (m.after k x).mailbox.maxsize = m.mailbox.maxsize := by
  unfold MailState.after
  split
  · split_ifs <;> exact ⟨rfl, rfl, rfl⟩
  · exact ⟨rfl, rfl, rfl⟩

theorem MailState.Flow.after {b : Mailbox} {m : MailState} (h : m.Flow b)
    (x : Option (ConnId × ConnectionClosed)) : (m.after k x).Flow (b.after k x) := by
  unfold MailState.after Mailbox.after
  split
  · split_ifs
    · exact h.close
    · exact h
  · exact h

/-- The mailbox of `k` has what its `_Mailbox` has. -/
structure Mailed.Holds (l : Mailed) (k : ConnId) : Prop where
  flow : (l.mails k).Flow (l.state.peer.mailbox k)
  maxsize : (l.mails k).mailbox.maxsize = l.state.peer.maxQueue
  sized : k < l.state.peer.created → (l.state.peer.mailbox k).maxsize = l.state.peer.maxQueue
  putting : (l.mails k).pump ≠ .idle → ∃ d, l.state.pump = .messagePut k d ∧
    ((l.mails k).pump = .count d ∨ (l.mails k).pump = .schedule d) ∧
      (l.state.peer.mailbox k).full = false

theorem ActEffect.pump_kept {e : State.Act} {d : Bytes} (h : ActEffect text s e s')
    (hpump : s.pump = .messagePut k d) (he : e ≠ .pump) : s'.pump = s.pump := by
  cases h <;> simp_all

theorem Mailed.Holds.peer {e : State.Act} (h : l.Holds k) (hs : ActEffect text l.state e s)
    (hput : ∀ c d, e = .pump → l.state.pump ≠ .messagePut c d) (hrecv : ∀ c, e ≠ .recv c)
    (hr : RegistryInv l.state)
    (hnew : ∀ c, l.state.peer.created ≤ c → l.state.peer.connection c = default) :
    ({ l with state := s }.close (l.state.closes e)).Holds k := by
  have hmax := hs.maxQueue
  obtain ⟨hpc, -, hsize⟩ := (l.mails k).after_kept (k := k) (l.state.closes e)
  have hputting : ((l.mails k).after k (l.state.closes e)).pump ≠ .idle →
      k < l.state.peer.created ∧ ∃ d, s.pump = .messagePut k d ∧
        ((l.mails k).pump = .count d ∨ (l.mails k).pump = .schedule d) ∧
          (l.state.peer.mailbox k).full = false := by
    intro hne
    rw [hpc] at hne
    obtain ⟨d, hpump, hcases, hroom⟩ := h.putting hne
    have hpub := target_published hr (c := k) (by rw [hpump]; rfl)
    exact ⟨hpub.1, d, (hs.pump_kept hpump fun he => hput k d he hpump).trans hpump, hcases, hroom⟩
  rcases hs.boxes (k := k) hput hrecv with ⟨hbox, hcreated⟩ | ⟨hnone, hcreated, hbox⟩
  · constructor
    case flow =>
      rw [Mailed.close_mails, Mailed.close_state, hbox]
      exact h.flow.after _
    case maxsize =>
      rw [Mailed.close_mails, Mailed.close_state]
      exact (hsize.trans h.maxsize).trans hmax.symm
    case sized =>
      rw [Mailed.close_state, hbox, hcreated, Mailbox.after_maxsize, hmax]
      exact h.sized
    case putting =>
      rw [Mailed.close_mails, Mailed.close_state, hbox, Mailbox.after_full, hpc]
      rw [hpc] at hputting
      exact fun hne => (hputting hne).2
  · constructor
    case flow =>
      rw [Mailed.close_mails, Mailed.close_state, hnone, hbox]
      split_ifs with hk
      · -- nothing was put into it before its construction
        have hold : l.state.peer.mailbox k = ⟨[], none, none⟩ := by
          rw [Peer.mailbox, hnew k hk.ge]
          rfl
        have hflow := h.flow
        rw [hold] at hflow
        exact hflow.congr rfl rfl
      · exact h.flow
    case maxsize =>
      rw [Mailed.close_mails, Mailed.close_state]
      exact (hsize.trans h.maxsize).trans hmax.symm
    case sized =>
      rw [Mailed.close_state, hbox, hcreated, hmax]
      intro hlt
      split_ifs with hk
      · rfl
      · exact h.sized (Nat.lt_of_le_of_ne (Nat.lt_succ_iff.mp hlt) hk)
    case putting =>
      rw [Mailed.close_mails, Mailed.close_state, hpc]
      rw [hpc] at hputting
      intro hne
      obtain ⟨hlt, hold⟩ := hputting hne
      rwa [hbox, if_neg (Nat.ne_of_lt hlt)]

theorem Mailed.Holds.task {t t' : Task} {x : CallStart ⊕ TaskChoice} (h : l.Holds k)
    (hs : TaskMove text i l.state t x s t') :
    ({ l with state := s }.close (t.closes x)).Holds k := by
  obtain ⟨hcreated, hmax⟩ := hs.effect.created
  have hpump := hs.effect.unannounced.2.2
  obtain ⟨hpc, -, hsize⟩ := (l.mails k).after_kept (k := k) (t.closes x)
  constructor
  case flow =>
    rw [Mailed.close_mails, Mailed.close_state, hs.boxes]
    exact h.flow.after _
  case maxsize =>
    rw [Mailed.close_mails, Mailed.close_state]
    exact (hsize.trans h.maxsize).trans hmax.symm
  case sized =>
    rw [Mailed.close_state, hs.boxes, hcreated, Mailbox.after_maxsize, hmax]
    exact h.sized
  case putting =>
    rw [Mailed.close_mails, Mailed.close_state, hs.boxes, Mailbox.after_full, hpc, hpump]
    exact h.putting

theorem Mailed.Holds.other (h : l.Holds k) (hmails : l'.mails k = l.mails k)
    (hbox : l'.state.peer.mailbox k = l.state.peer.mailbox k)
    (hcreated : l'.state.peer.created = l.state.peer.created)
    (hmax : l'.state.peer.maxQueue = l.state.peer.maxQueue)
    (hpump : (l.mails k).pump ≠ .idle → l'.state.pump = l.state.pump) : l'.Holds k := by
  refine ⟨?_, ?_, ?_, fun hne => ?_⟩
  · rw [hmails, hbox]
    exact h.flow
  · rw [hmails, hmax]
    exact h.maxsize
  · rw [hbox, hcreated, hmax]
    exact h.sized
  · rw [hmails] at hne ⊢
    rw [hbox, hpump hne]
    exact h.putting hne

theorem Mailed.write_mails_of_ne {c : ConnId} (m : MailState) (h : k ≠ c) :
    (l.write c m).mails k = l.mails k :=
  Function.update_of_ne h _ _

theorem Mailed.Holds.write {m : MailState} {s : State} (h : l.Holds k)
    (hflow : m.Flow (s.peer.mailbox k)) (hmax : m.mailbox.maxsize = (l.mails k).mailbox.maxsize)
    (hsize : (s.peer.mailbox k).maxsize = (l.state.peer.mailbox k).maxsize)
    (hcreated : s.peer.created = l.state.peer.created)
    (hqueue : s.peer.maxQueue = l.state.peer.maxQueue)
    (hputting : m.pump ≠ .idle → ∃ d, s.pump = .messagePut k d ∧
      (m.pump = .count d ∨ m.pump = .schedule d) ∧ (s.peer.mailbox k).full = false) :
    Mailed.Holds { l.write k m with state := s } k := by
  have hself : ({ l.write k m with state := s } : Mailed).mails k = m := Function.update_self _ _ _
  refine ⟨?_, ?_, ?_, ?_⟩
  · rw [hself]
    exact hflow
  · rw [hself, hmax, h.maxsize, hqueue]
  · rw [hsize, hcreated, hqueue]
    exact h.sized
  · rw [hself]
    exact hputting

/-- The pump is in `put` of one mailbox only. -/
theorem Mailed.Holds.elsewhere {c : ConnId} {d : Bytes} (h : l.Holds k)
    (hpump : l.state.pump = .messagePut c d) (hk : k ≠ c) : (l.mails k).pump = .idle := by
  by_contra hne
  obtain ⟨d', hpump', -⟩ := h.putting hne
  rw [hpump] at hpump'
  cases hpump'
  exact hk rfl

/-- The pump decides as it would with the `_Mailbox`. -/
theorem Mailed.Holds.full {d : Bytes} (h : l.Holds k) (hr : RegistryInv l.state)
    (hpump : l.state.pump = .messagePut k d) (hidle : (l.mails k).pump = .idle) :
    (l.mails k).mailbox.full = (l.state.peer.mailbox k).full := by
  have hpub := target_published hr (c := k) (by rw [hpump]; rfl)
  exact h.flow.full (h.maxsize.trans (h.sized hpub.1).symm) hidle

theorem Mailed.Move.holds {e : Mailed.Act} (h : l.Move text e l') (hi : ∀ k, l.Holds k)
    (hr : RegistryInv l.state)
    (hnew : ∀ c, l.state.peer.created ≤ c → l.state.peer.connection c = default) (k : ConnId) :
    l'.Holds k := by
  have hk := hi k
  cases h with
  | peer e s hput hrecv h => exact hk.peer (act_effect h) hput hrecv hr hnew
  | reject c d hpump hidle hfull =>
    by_cases hkc : k = c
    · subst hkc
      exact hk.write (hk.flow.emit _) rfl rfl rfl rfl fun hne => absurd hidle hne
    · exact hk.other (Mailed.write_mails_of_ne _ hkc) rfl rfl rfl
        fun hne => absurd (hk.elsewhere hpump hkc) hne
  | room c d hpump hidle hroom =>
    by_cases hkc : k = c
    · subst hkc
      rw [hk.full hr hpump hidle] at hroom
      exact hk.write (hk.flow.put hidle) rfl rfl rfl rfl fun _ => ⟨d, hpump, Or.inl rfl, hroom⟩
    · exact hk.other (Mailed.write_mails_of_ne _ hkc) rfl rfl rfl fun _ => rfl
  | count c d d' hpump hcount =>
    by_cases hkc : k = c
    · subst hkc
      obtain ⟨d₁, hpump₁, hcases, hroom⟩ := hk.putting (by simp [hcount])
      have hd : d' = d₁ := by simpa [hcount] using hcases
      subst hd
      exact hk.write (hk.flow.count hcount) rfl rfl rfl rfl fun _ => ⟨d', hpump₁, Or.inr rfl, hroom⟩
    · exact hk.other (Mailed.write_mails_of_ne _ hkc) rfl rfl rfl fun _ => rfl
  | schedule c d d' hpump hschedule =>
    by_cases hkc : k = c
    · subst hkc
      obtain ⟨d₁, hpump₁, hcases, hroom⟩ := hk.putting (by simp [hschedule])
      have hd : d' = d₁ := by simpa [hschedule] using hcases
      subst hd
      have hd : d = d' := by simpa [hpump] using hpump₁
      subst hd
      have hflow := hk.flow.schedule hschedule
      refine hk.write ?_ rfl ?_ rfl rfl fun hne => absurd rfl hne
      · simpa [Peer.mailbox] using hflow
      · simp [Peer.mailbox]
    · refine hk.other (Mailed.write_mails_of_ne _ hkc) ?_ rfl rfl
        fun hne => absurd (hk.elsewhere hpump hkc) hne
      simp [Peer.mailbox, hkc]
  | callback c x hrun =>
    by_cases hkc : k = c
    · subst hkc
      exact hk.write (hk.flow.callback hrun) (runScheduled_maxsize hrun) rfl rfl rfl hk.putting
    · exact hk.other (Mailed.write_mails_of_ne _ hkc) rfl rfl rfl fun _ => rfl

theorem MailTask.Move.holds {t t' : MailTask} (h : t.Move text i l l' t') (hi : ∀ k, l.Holds k)
    (hcount : ∀ k d, t.on k = .count d → (l.mails k).taken = some d) (k : ConnId) : l'.Holds k := by
  have hk := hi k
  cases h with
  | call t t' x s h => exact hk.task (Raknet.taskStep_move h)
  | recv c hpub => exact hk
  | get c g g' ch m h hret =>
    by_cases hkc : k = c
    · subst hkc
      obtain ⟨hpc, hmax⟩ := (MailState.getStep_move h).kept
      rcases hk.flow.get (fun d hd => hcount k d (by simp [MailTask.on, hd])) h with
        ⟨-, hflow⟩ | ⟨d, hd, -⟩
      · exact hk.write hflow hmax rfl rfl rfl (by rw [hpc]; exact hk.putting)
      · exact absurd hd (hret d)
    · exact hk.other (Mailed.write_mails_of_ne _ hkc) rfl rfl rfl fun _ => rfl
  | returned c g ch m d h =>
    by_cases hkc : k = c
    · subst hkc
      obtain ⟨hpc, hmax⟩ := (MailState.getStep_move h).kept
      rcases hk.flow.get (fun d hd => hcount k d (by simp [MailTask.on, hd])) h with
        ⟨hret, -⟩ | ⟨d', hd', hitems, hflow⟩
      · exact absurd rfl (hret d)
      · refine hk.write ?_ hmax ?_ rfl rfl fun hne => ?_
        · simpa [Peer.mailbox] using hflow
        · simp [Peer.mailbox]
        · rw [hpc] at hne ⊢
          obtain ⟨d₁, hpump, hcases, hroom⟩ := hk.putting hne
          refine ⟨d₁, hpump, hcases, ?_⟩
          have htail : (l.state.peer.mailbox k).items.tail.length ≤
              (l.state.peer.mailbox k).items.length := by simp
          simpa [Peer.mailbox] using Mailbox.full_of_shorter hroom htail
    · refine hk.other (Mailed.write_mails_of_ne _ hkc) ?_ rfl rfl fun _ => rfl
      simp [Mailed.take, Peer.mailbox, hkc]

/-! ## The refinement -/

/-- An action is one of `aio text`, or changes nothing there. -/
theorem Mailed.Move.refines {e : Mailed.Act} (h : l.Move text e l') (hi : ∀ k, l.Holds k)
    (hr : RegistryInv l.state) :
    l'.state = l.state ∨ ∃ e', l.state.act text e' = some l'.state := by
  cases h with
  | peer e s hput hrecv h => exact Or.inr ⟨e, by rw [Mailed.close_state]; exact h⟩
  | reject k d hpump hidle hfull =>
    rw [(hi k).full hr hpump hidle] at hfull
    refine Or.inr ⟨.pump, ?_⟩
    simp only [State.act, State.pumpStep, hpump, Mailbox.put, hfull, if_true]
  | room k d hpump hidle hroom => exact Or.inl rfl
  | count k d d' hpump hcount => exact Or.inl rfl
  | schedule k d d' hpump hschedule =>
    obtain ⟨d₁, -, -, hroom⟩ := (hi k).putting (by simp [hschedule])
    refine Or.inr ⟨.pump, ?_⟩
    simp only [State.act, State.pumpStep, hpump, Mailbox.put, hroom, Bool.false_eq_true, if_false]
  | callback k x hrun => exact Or.inl rfl

/-- A step of a call is one of `aio text`, or a `recv` there, or changes nothing. -/
theorem MailTask.Move.refines {t t' : MailTask} (h : t.Move text i l l' t') (hi : ∀ k, l.Holds k)
    (hcount : ∀ k d, t.on k = .count d → (l.mails k).taken = some d)
    (hpub : ∀ k g, t = .recv k g → l.state.published k = true) :
    (∃ x, Raknet.taskStep text i x l.state t.task = some (l'.state, t'.task)) ∨
      t'.task = t.task ∧ (l'.state = l.state ∨ ∃ e, l.state.act text e = some l'.state) := by
  cases h with
  | call t t' x s h => exact Or.inl ⟨x, by rw [Mailed.close_state]; exact h⟩
  | recv k hpub => exact Or.inr ⟨rfl, Or.inl rfl⟩
  | get k g g' ch m h hret => exact Or.inr ⟨rfl, Or.inl rfl⟩
  | returned k g ch m d h =>
    rcases (hi k).flow.get (fun d hd => hcount k d (by simp [MailTask.on, hd])) h with
      ⟨hret, -⟩ | ⟨d', hd', hitems, -⟩
    · exact absurd rfl (hret d)
    · cases hd'
      refine Or.inr ⟨rfl, Or.inr ⟨.recv k, ?_⟩⟩
      have hget : (l.state.peer.mailbox k).get =
          .item d { l.state.peer.mailbox k with items := (l.state.peer.mailbox k).items.tail } := by
        unfold Mailbox.get
        rw [hitems]
        rfl
      simp only [State.act, State.recv, hpub k g rfl, if_true, hget]
      rfl

theorem Mailed.Move.taken {e : Mailed.Act} (h : l.Move text e l') (k : ConnId) :
    (l'.mails k).taken = (l.mails k).taken := by
  have hwrite : ∀ c m, m.taken = (l.mails c).taken →
      ((l.write c m).mails k).taken = (l.mails k).taken := by
    intro c m hm
    by_cases hk : k = c
    · subst hk
      simpa using hm
    · rw [Mailed.write_mails_of_ne _ hk]
  cases h with
  | peer e s hput hrecv h =>
    rw [Mailed.close_mails]
    exact ((l.mails k).after_kept _).2.1
  | _ => exact hwrite _ _ rfl

/-- What holds of the mailboxes and their `recv`s throughout every run. -/
structure MailedInv (c : AioMailed) : Prop where
  holds : ∀ k, c.shared.Holds k
  counting : ∀ k, Counting (c.mail k)
  published : ∀ i k g, c.thread i = .recv k g → c.shared.state.registry.Published k

theorem mailedInv_init (q : Option Nat) (t₀ : Int) : MailedInv (AioMailed.init q t₀) := by
  constructor
  · intro k
    refine ⟨?_, rfl, fun hk => absurd hk (Nat.not_lt_zero k), fun hne => absurd rfl hne⟩
    exact (MailState.flow_init q).congr rfl rfl
  · intro k
    constructor <;> simp [AioMailed.mail, AioMailed.init, MailTask.on]
  · intro i k g h
    cases h

variable {c c' : AioMailed}

theorem AioMailed.toAio_move (c : AioMailed) (i : CallId) (l : Mailed) (t : MailTask) :
    AioMailed.toAio (c.move i (l, t)) = c.toAio.move i (l.state, t.task) := by
  refine Config.ext rfl (funext fun j => ?_)
  show ((c.move i (l, t)).thread j).task = _
  rw [Config.move_thread, Config.move_thread]
  split_ifs <;> rfl

theorem AioMailed.mail_move (c : AioMailed) (i : CallId) (l : Mailed) (t : MailTask) (k : ConnId) :
    AioMailed.mail (c.move i (l, t)) k = (c.mail k).move i (l.mails k, t.on k) := by
  refine Config.ext rfl (funext fun j => ?_)
  show ((c.move i (l, t)).thread j).on k = _
  rw [Config.move_thread, Config.move_thread]
  split_ifs <;> rfl

theorem Counting.skip {m : Mail} {s : MailState} {g : GetTask} (hi : Counting m)
    (htaken : s.taken = m.shared.taken) (hg : g = m.thread i) : Counting (m.move i (s, g)) := by
  have heq : m.move i (s, g) = { m with shared := s } := by
    rw [hg]
    refine Config.ext rfl (funext fun j => ?_)
    rw [Config.move_thread]
    split_ifs with hj
    · rw [hj]
    · rfl
  rw [heq]
  exact hi.act htaken

theorem Counting.recv {m : Mail} {k₁ : ConnId} {g g' : GetTask} {ch : GetChoice} {m' : MailState}
    (hi : Counting m) (hm : m.shared = l.mails k) (ht : m.thread i = (MailTask.recv k₁ g).on k)
    (h : getStep ch (l.mails k₁) g = some (m', g')) :
    Counting (m.move i ((l.write k₁ m').mails k, (MailTask.recv k₁ g').on k)) := by
  by_cases hk : k = k₁
  · subst hk
    have hstep : getStep ch m.shared (m.thread i) = some (m', g') := by
      rw [hm, ht]
      simpa [MailTask.on] using h
    simpa [MailTask.on] using hi.get hstep
  · refine hi.skip ?_ ?_
    · rw [Mailed.write_mails_of_ne _ hk, hm]
    · rw [ht]
      simp [MailTask.on, Ne.symm hk]

theorem MailTask.Move.counting {t t' : MailTask} (h : t.Move text i l l' t') {m : Mail}
    (hi : Counting m) (hm : m.shared = l.mails k) (ht : m.thread i = t.on k) :
    Counting (m.move i (l'.mails k, t'.on k)) := by
  cases h with
  | call t t' x s h =>
    refine hi.skip ?_ ht.symm
    rw [Mailed.close_mails, hm]
    exact ((l.mails k).after_kept _).2.1
  | recv k₁ hpub =>
    refine hi.skip (by rw [hm]) ?_
    rw [ht]
    by_cases hk : k₁ = k <;> simp [MailTask.on, hk]
  | get k₁ g g' ch m' h hret => exact hi.recv hm ht h
  | returned k₁ g ch m' d h => exact hi.recv hm ht h

theorem MailTask.Move.published {t t' : MailTask} (h : t.Move text i l l' t')
    (hi : ∀ k g, t = .recv k g → l.state.registry.Published k) :
    ∀ k g, t' = .recv k g → l.state.registry.Published k := by
  intro k g hg
  cases h with
  | call t t' x s h => cases hg
  | recv k hpub =>
    cases hg
    exact Registry.published_of_state.mp hpub
  | get k g g' ch m h hret =>
    cases hg
    exact hi k g rfl
  | returned k g ch m d h =>
    cases hg
    exact hi k g rfl

/-- A step keeps what is known of the mailboxes, and is one of `aio text` or nothing. -/
theorem step_mailed {q : Option Nat} {t₀ : Int} {a : Action Mailed.Act MailChoice}
    (hs : (mailed text).step c a = some c') (hi : MailedInv c)
    (haio : Reach (aio text) anyStep (Aio.init q t₀) c.toAio) :
    MailedInv c' ∧ (c'.toAio = c.toAio ∨ ∃ b, (aio text).step c.toAio b = some c'.toAio) := by
  have hreg := (reach_aioRegistry haio).1
  have hpublished : ∀ d : Aio, (d = c.toAio ∨ ∃ b, (aio text).step c.toAio b = some d) →
      ∀ k, c.shared.state.registry.Published k → d.shared.registry.Published k := by
    rintro d (rfl | ⟨b, hb⟩) k hk
    · exact hk
    · exact ((step_aioRegistry haio hb).grows hreg.inv).published k hk
  rcases System.step_cases hs with ⟨e, l, rfl, he, rfl⟩ | ⟨i, x, l, t, rfl, hx, rfl⟩
  · have hmove := Mailed.act_move he
    have hstep : AioMailed.toAio { c with shared := l } = c.toAio ∨
        ∃ b, (aio text).step c.toAio b = some (AioMailed.toAio { c with shared := l }) := by
      rcases hmove.refines hi.holds hreg with hstate | ⟨e', he'⟩
      · exact Or.inl (Config.ext hstate rfl)
      · exact Or.inr ⟨.shared e', Option.map_eq_some_iff.mpr ⟨l.state, he', rfl⟩⟩
    refine ⟨⟨hmove.holds hi.holds hreg (reach_aioUncreated haio), fun k => ?_, fun i k g hg => ?_⟩,
      hstep⟩
    · exact (hi.counting k).act (hmove.taken k)
    · exact hpublished _ hstep k (hi.published i k g hg)
  · have hmove := Mailed.taskStep_move hx
    have hcount : ∀ k d, (c.thread i).on k = .count d → (c.shared.mails k).taken = some d :=
      fun k d hd => (hi.counting k).taken i d hd
    have hstep : AioMailed.toAio (c.move i (l, t)) = c.toAio ∨
        ∃ b, (aio text).step c.toAio b = some (AioMailed.toAio (c.move i (l, t))) := by
      rw [AioMailed.toAio_move]
      have hpub : ∀ k g, c.thread i = .recv k g → c.shared.state.published k = true :=
        fun k g hg => Registry.published_of_state.mpr (hi.published i k g hg)
      rcases hmove.refines hi.holds hcount hpub with ⟨y, hy⟩ | ⟨htask, hstate | ⟨e, he⟩⟩
      · exact Or.inr ⟨.thread i y, Option.map_eq_some_iff.mpr ⟨_, hy, rfl⟩⟩
      · left
        rw [hstate, htask]
        exact Config.move_eq_self _ i
      · refine Or.inr ⟨.shared e, Option.map_eq_some_iff.mpr ⟨l.state, he, ?_⟩⟩
        rw [htask]
        exact (c.toAio.move_thread_same i l.state).symm
    refine ⟨⟨hmove.holds hi.holds hcount, fun k => ?_, fun j k g hg => ?_⟩, hstep⟩
    · rw [AioMailed.mail_move]
      exact hmove.counting (hi.counting k) rfl rfl
    · refine hpublished _ hstep k ?_
      rw [Config.move_thread] at hg
      split_ifs at hg with hj
      · exact hmove.published (hi.published i) k g hg
      · exact hi.published j k g hg

theorem reach_mailed {ok : AioMailed → Action Mailed.Act MailChoice → Prop} {q : Option Nat}
    {t₀ : Int} (h : Reach (mailed text) ok (AioMailed.init q t₀) c) :
    MailedInv c ∧ Reach (aio text) anyStep (Aio.init q t₀) c.toAio := by
  refine h.invariant (I := fun c => MailedInv c ∧ Reach (aio text) anyStep (Aio.init q t₀)
    (AioMailed.toAio c)) ⟨mailedInv_init q t₀, .start⟩ ?_
  rintro c a c' - - hs ⟨hi, haio⟩
  obtain ⟨hi', heq | ⟨b, hb⟩⟩ := step_mailed hs hi haio
  · rw [heq]
    exact ⟨hi', haio⟩
  · exact ⟨hi', .step haio trivial hb⟩

/-- **The refinement.** Every run of an asyncio Peer with its mailboxes is a run of one whose
Connections have `_Mailbox`es: a `recv` that returns is one step of it, and one that raises or is
cancelled is none. A mailbox holds the payloads and the reason of its `_Mailbox`, however `put`,
`close`, the callbacks and the `recv`s interleave. -/
theorem mailed_refines {q : Option Nat} {t₀ : Int}
    (h : Reach (mailed text) anyStep (AioMailed.init q t₀) c) :
    Reach (aio text) anyStep (Aio.init q t₀) c.toAio ∧
      ∀ k, (c.shared.mails k).pending = (c.shared.state.peer.mailbox k).items ∧
        (c.shared.mails k).mailbox.reason = (c.shared.state.peer.mailbox k).exc := by
  obtain ⟨hi, haio⟩ := reach_mailed h
  exact ⟨haio, fun k => ⟨(hi.holds k).flow.items.symm, (hi.holds k).flow.reason.symm⟩⟩

/-- A task closes a Connection while the pump is in `put`: the end marker overtakes the payload. -/
theorem mailed_refines_overtaken :
    ∃ c, Reach (mailed SystemAddress.text) anyStep (AioMailed.init (some 1) 0) c ∧
      (c.shared.mails 0).mailbox.queue = [.closed, .payload [0x86, 1]] ∧
      Reach (aio SystemAddress.text) anyStep (Aio.init (some 1) 0) (AioMailed.toAio c) ∧
      (c.shared.state.peer.mailbox 0).items = [[0x86, 1]] := by
  have h : Reach (mailed SystemAddress.text) anyStep (AioMailed.init (some 1) 0) _ :=
    .of_exec (show (mailed SystemAddress.text).exec anyStep
      (mailRoutes ⟨⟨"10.0.0.1", 1⟩, 7, [19]⟩ 4 ++ mailRoutes ⟨⟨"10.0.0.1", 1⟩, 7, [0x86, 1]⟩ 4 ++
        mailCloses 1 0 ++ .shared (.peer .pump) :: List.replicate 2 (.shared (.callback 0)))
      (AioMailed.init (some 1) 0) = some _ from rfl)
  exact ⟨_, h, rfl, (mailed_refines h).1, ((mailed_refines h).2 0).1.symm⟩

end Raknet
