import Raknet.Lib.Replay
import Raknet.Peer

/-!
# The asyncio mailbox

`_AsyncMailbox` keeps its payloads in a queue of the event loop. The pump counts a payload and
schedules its `put_nowait`; `close` schedules a callback that stores the reason and puts an end
marker, which `get` puts back when it takes it.

The event loop runs one callback or task at a time, and what it schedules first it runs first. A
`get` that found a payload has left the queue and not the loop until it has counted the payload
down: `taken` is what such a `get` holds. That a `get` takes an item, once there is one, is a step
of its own here; it may be cancelled until then.

**Theorem (`mailbox_refines`).** What the puts, the closes and the completed gets of an asyncio
mailbox do, in order, a `_Mailbox` can do.
-/

namespace Raknet

open Interleaving

/-! ## The mailbox -/

/-- What is in the queue. -/
inductive MailItem
  | payload (data : Bytes)
  /-- `_CLOSED` -/
  | closed
deriving DecidableEq, Repr

/-- What `call_soon_threadsafe` schedules. -/
inductive Scheduled
  /-- `self._queue.put_nowait(item)` -/
  | putNowait (data : Bytes)
  /-- `_close()` -/
  | close (exc : ConnectionClosed)
deriving DecidableEq, Repr

/-- `_AsyncMailbox`, with the callbacks it has on the event loop, oldest first. -/
structure AsyncMailbox where
  queue : List MailItem
  exc : Option ConnectionClosed
  drained : Bool
  maxsize : Option Nat
  size : Int
  scheduled : List Scheduled
deriving DecidableEq, Repr

namespace AsyncMailbox

/-- `_AsyncMailbox.__init__`. -/
def new (maxsize : Option Nat) : AsyncMailbox := ⟨[], none, false, maxsize, 0, []⟩

/-- `self._maxsize is not None and self._size >= self._maxsize`. -/
def full (m : AsyncMailbox) : Bool :=
  match m.maxsize with
  | none => false
  | some n => m.size ≥ n

/-- `self._size += 1`. -/
@[simps] def countUp (m : AsyncMailbox) : AsyncMailbox := { m with size := m.size + 1 }

/-- `self._size -= 1`. -/
@[simps] def countDown (m : AsyncMailbox) : AsyncMailbox := { m with size := m.size - 1 }

/-- `self._loop.call_soon_threadsafe(callback)`, while the loop is open. -/
@[simps] def callSoon (m : AsyncMailbox) (callback : Scheduled) : AsyncMailbox :=
  { m with scheduled := m.scheduled ++ [callback] }

/-- `self._queue.put_nowait(item)`. -/
@[simps] def putNowait (m : AsyncMailbox) (item : MailItem) : AsyncMailbox :=
  { m with queue := m.queue ++ [item] }

/-- `_close()`: the first reason stays, and puts the end marker. -/
def closeNow (m : AsyncMailbox) (exc : ConnectionClosed) : AsyncMailbox :=
  if m.exc = none then { m with exc := some exc }.putNowait .closed else m

/-- The event loop runs the oldest callback. -/
def runScheduled (m : AsyncMailbox) : Option AsyncMailbox :=
  match m.scheduled with
  | [] => none
  | .putNowait data :: rest => some ({ m with scheduled := rest }.putNowait (.payload data))
  | .close exc :: rest => some ({ m with scheduled := rest }.closeNow exc)

/-- `get` took the end marker: `self._drained = True` and `self._queue.put_nowait(_CLOSED)`. -/
@[simps!] def drain (m : AsyncMailbox) : AsyncMailbox :=
  { m with drained := true }.putNowait .closed

end AsyncMailbox

/-! ## The pump and the event loop -/

/-- What a mailbox does, in order. -/
inductive MailEvent
  /-- a `put` was decided: it counted the payload, or will return `False` -/
  | put (data : Bytes) (accepted : Bool)
  /-- a `close` returned -/
  | close (exc : ConnectionClosed)
  /-- a `get` returned -/
  | got (data : Bytes)
  /-- a `get` raised `self._exc` -/
  | raised (exc : Option ConnectionClosed)
deriving DecidableEq, Repr

/-- The pump's program counter inside `put`. -/
inductive PutPc
  | idle
  /-- at `self._size += 1` -/
  | count (data : Bytes)
  /-- at `self._loop.call_soon_threadsafe(..)` -/
  | schedule (data : Bytes)
deriving DecidableEq, Repr

/-- The mailbox, the pump that fills it, and the payload that the running `get` has taken. -/
structure MailState where
  mailbox : AsyncMailbox
  pump : PutPc
  taken : Option Bytes
  log : List MailEvent

namespace MailState

/-- Record an event. -/
@[simps] def emit (s : MailState) (e : MailEvent) : MailState := { s with log := s.log ++ [e] }

/-- Write the mailbox. -/
@[simps] def set (s : MailState) (m : AsyncMailbox) : MailState := { s with mailbox := m }

/-- Move the pump. -/
@[simps] def goto (s : MailState) (pc : PutPc) : MailState := { s with pump := pc }

/-- What the pump and the event loop do to a mailbox. -/
inductive Act
  /-- the pump enters `put` -/
  | put (data : Bytes)
  /-- the pump's next step in `put` -/
  | pump
  /-- the pump calls `close` -/
  | close (exc : ConnectionClosed)
  /-- the event loop runs a callback -/
  | callback
deriving DecidableEq, Repr

/-- One action of the pump or the event loop. -/
def act (e : Act) (s : MailState) : Option MailState :=
  match e, s.pump with
  | .put d, .idle =>
    some (if s.mailbox.full then s.emit (.put d false) else s.goto (.count d))
  | .pump, .count d =>
    some (((s.set s.mailbox.countUp).emit (.put d true)).goto (.schedule d))
  | .pump, .schedule d => some ((s.set (s.mailbox.callSoon (.putNowait d))).goto .idle)
  | .close exc, .idle => some ((s.set (s.mailbox.callSoon (.close exc))).emit (.close exc))
  | .callback, _ => if s.taken = none then s.mailbox.runScheduled.map s.set else none
  | _, _ => none

end MailState

/-- The program counter of a task in `get`. -/
inductive GetTask
  /-- at `if self._drained` -/
  | check
  /-- in `await self._queue.get()` -/
  | wait
  /-- at `self._size -= 1` -/
  | count (data : Bytes)
  | returned (data : Bytes)
  | raised (exc : Option ConnectionClosed)
  /-- `CancelledError` has left `get` -/
  | cancelled
deriving DecidableEq, Repr

/-- What a task does next. -/
inductive GetChoice
  | go
  /-- `CancelledError` is thrown into it -/
  | cancel
deriving DecidableEq, Repr

/-- A step of a task in `get`. No task runs while another has the event loop. -/
def getStep (ch : GetChoice) (s : MailState) (t : GetTask) : Option (MailState × GetTask) :=
  match t, ch, s.taken with
  | .check, .go, none =>
    some (if s.mailbox.drained then (s.emit (.raised s.mailbox.exc), .raised s.mailbox.exc)
      else (s, .wait))
  | .wait, .go, none =>
    match s.mailbox.queue with
    | [] => none
    | .payload d :: rest =>
      some ({ s with mailbox := { s.mailbox with queue := rest }, taken := some d }, .count d)
    | .closed :: rest =>
      some ((s.set { s.mailbox with queue := rest }.drain).emit (.raised s.mailbox.exc),
        .raised s.mailbox.exc)
  | .wait, .cancel, none => some (s, .cancelled)
  | .count d, .go, some _ =>
    some ({ (s.set s.mailbox.countDown).emit (.got d) with taken := none }, .returned d)
  | _, _, _ => none

/-- A configuration of a mailbox and its gets. -/
abbrev Mail := Config MailState GetTask

/-- A mailbox, the pump and the event loop, and any number of tasks that call `get`. -/
def mail : System MailState GetTask MailState.Act GetChoice where
  shared := MailState.act
  thread _ := getStep

/-- A mailbox after its construction. -/
def Mail.init (maxsize : Option Nat) : Mail := ⟨⟨.new maxsize, .idle, none, []⟩, fun _ => .check⟩

/-- The pump calls no `put` after the first `close`. -/
def noLatePut (c : Mail) : Action MailState.Act GetChoice → Prop
  | .shared (.put _) => ∀ exc, .close exc ∉ c.shared.log
  | _ => True

/-! ## Histories of a `_Mailbox` -/

/-- What an event does to a `_Mailbox` that can show it. -/
def Mailbox.play (m : Mailbox) : MailEvent → Option Mailbox
  | .put d accepted => if (m.put d).1 = accepted then some (m.put d).2 else none
  | .close exc => some (m.close exc)
  | .got d =>
    match m.get with
    | .item d' rest => if d' = d then some rest else none
    | _ => none
  | .raised exc =>
    match m.get with
    | .raised exc' => if exc = some exc' then some m else none
    | _ => none

/-- The payload of an accepted `put`. -/
@[simp] def MailEvent.accepted? : MailEvent → Option Bytes
  | put d true => some d
  | put _ false | close _ | got _ | raised _ => none

/-- The payload that a `get` returned. -/
@[simp] def MailEvent.got? : MailEvent → Option Bytes
  | got d => some d
  | put _ _ | close _ | raised _ => none

/-- The reason of a `close`. -/
@[simp] def MailEvent.reason? : MailEvent → Option ConnectionClosed
  | close exc => some exc
  | put _ _ | got _ | raised _ => none

theorem forall_reason?_eq_none {l : List MailEvent} :
    (∀ e ∈ l, e.reason? = none) ↔ ∀ exc, .close exc ∉ l := by
  constructor
  · intro h exc hmem
    cases h _ hmem
  · intro h e hmem
    cases e with
    | close exc => exact absurd hmem (h exc)
    | _ => rfl

instance (c : Mail) (a : Action MailState.Act GetChoice) : Decidable (noLatePut c a) :=
  match a with
  | .shared (.put _) =>
    decidable_of_iff (∀ e ∈ c.shared.log, e.reason? = none) forall_reason?_eq_none
  | .shared .pump | .shared (.close _) | .shared .callback | .thread _ _ => .isTrue trivial

section

variable {m m' : Mailbox} {d : Bytes} {q : Option Nat} {l : List MailEvent}

theorem play_put {accepted : Bool} (h : m.play (.put d accepted) = some m') :
    accepted = !m.full ∧ m' = if m.full then m else m.append d := by
  simp only [Mailbox.play, Mailbox.put] at h
  split_ifs at h with hfull hb hb <;> cases h <;> simp_all

theorem play_got (h : m.play (.got d) = some m') :
    m.items = d :: m'.items ∧ m'.exc = m.exc ∧ m'.maxsize = m.maxsize := by
  simp only [Mailbox.play] at h
  split at h
  · next d' rest hget =>
    split_ifs at h with hd
    cases h
    subst hd
    exact Mailbox.get_eq_item hget
  · cases h

theorem play_raised {exc : Option ConnectionClosed} (h : m.play (.raised exc) = some m') :
    m' = m ∧ m.items = [] ∧ m.exc = exc ∧ exc ≠ none := by
  simp only [Mailbox.play] at h
  split at h
  · next exc' hget =>
    split_ifs at h with hexc
    cases h
    subst hexc
    obtain ⟨hitems, hexc⟩ := Mailbox.get_eq_raised hget
    exact ⟨rfl, hitems, hexc, by simp⟩
  · cases h

theorem Mailbox.full_of_shorter {items : List Bytes} (h : m.full = false)
    (hle : items.length ≤ m.items.length) : ({ m with items := items } : Mailbox).full = false := by
  unfold Mailbox.full at h ⊢
  cases hmax : m.maxsize with
  | none => rfl
  | some n =>
    simp only [hmax, ge_iff_le, decide_eq_false_iff_not, Nat.not_le] at h ⊢
    omega

/-- What a history says of the mailbox after it. -/
structure Mailbox.After (q : Option Nat) (l : List MailEvent) (m : Mailbox) : Prop where
  order : l.filterMap MailEvent.accepted? = l.filterMap MailEvent.got? ++ m.items
  reason : m.exc = (l.filterMap MailEvent.reason?).head?
  maxsize : m.maxsize = q
  bound : ∀ n, q = some n → m.items.length ≤ n

theorem replay_after (h : replay Mailbox.play ⟨[], none, q⟩ l = some m) : Mailbox.After q l m := by
  refine replay_invariant h ⟨rfl, rfl, rfl, by simp⟩ ?_
  intro l m e m' _ hplay hi
  cases e with
  | put d accepted =>
    obtain ⟨rfl, rfl⟩ := play_put hplay
    cases hfull : m.full
    · refine ⟨by simp [hi.order], by simp [hi.reason], hi.maxsize, fun n hn => ?_⟩
      have hlt : m.items.length < n := by
        simpa [Mailbox.full, hi.maxsize, hn] using hfull
      simpa using Nat.succ_le_of_lt hlt
    · exact ⟨by simp [List.filterMap_cons, hi.order], by simp [hi.reason], hi.maxsize, hi.bound⟩
  | close exc =>
    cases hplay
    exact ⟨by simp [List.filterMap_cons, hi.order], by simp [Mailbox.close, hi.reason], hi.maxsize,
      hi.bound⟩
  | got d =>
    obtain ⟨hitems, hexc, hmax⟩ := play_got hplay
    refine ⟨by simp [hi.order, hitems], by simp [hexc, hi.reason], hmax.trans hi.maxsize, ?_⟩
    intro n hn
    have hle := hi.bound n hn
    rw [hitems, List.length_cons] at hle
    omega
  | raised exc =>
    obtain ⟨rfl, -⟩ := play_raised hplay
    exact ⟨by simp [List.filterMap_cons, hi.order], by simp [hi.reason], hi.maxsize, hi.bound⟩

end

/-! ## The simulation -/

/-- What the pump has counted and not scheduled yet. -/
@[simp] def PutPc.counted : PutPc → List Bytes
  | .schedule d => [d]
  | .idle | .count _ => []

/-- The queue and the callbacks, by how far the first `close` has come: its argument, and the
payloads in the queue and in the callbacks. -/
inductive AsyncMailbox.Shape (x : AsyncMailbox) (pump : PutPc) (taken : Option Bytes) :
    Option ConnectionClosed → List Bytes → Prop
  /-- no `close` yet -/
  | opened (q p : List Bytes) (hqueue : x.queue = q.map .payload)
      (hscheduled : x.scheduled = p.map .putNowait) (hexc : x.exc = none)
      (hdrained : x.drained = false) : Shape x pump taken none (q ++ p)
  /-- its callback waits behind the payloads -/
  | closing (q p : List Bytes) (e : ConnectionClosed) (es : List ConnectionClosed)
      (hqueue : x.queue = q.map .payload)
      (hscheduled : x.scheduled = p.map .putNowait ++ (e :: es).map .close)
      (hexc : x.exc = none) (hdrained : x.drained = false) (hpump : pump = .idle) :
      Shape x pump taken (some e) (q ++ p)
  /-- the end marker is behind the payloads -/
  | closed (q : List Bytes) (e : ConnectionClosed) (es : List ConnectionClosed)
      (hqueue : x.queue = q.map .payload ++ [.closed]) (hscheduled : x.scheduled = es.map .close)
      (hexc : x.exc = some e) (hdrained : x.drained = true → q = [] ∧ taken = none)
      (hpump : pump = .idle) : Shape x pump taken (some e) q

/-- The `_Mailbox` that an asyncio mailbox stands for. -/
structure MailState.Sim (m : Mailbox) (s : MailState) : Prop where
  items : ∃ l, s.mailbox.Shape s.pump s.taken m.exc l ∧
    m.items = s.taken.toList ++ l ++ s.pump.counted
  size : s.mailbox.size = m.items.length
  maxsize : s.mailbox.maxsize = m.maxsize
  room : ∀ d, s.pump = .count d → m.full = false
  reason : m.exc ≠ none → ∃ exc, .close exc ∈ s.log

section

variable {x : AsyncMailbox} {pump : PutPc} {taken : Option Bytes} {r : Option ConnectionClosed}
  {l : List Bytes} {rest : List MailItem} {d : Bytes}

namespace AsyncMailbox

/-- Once a `close` was called, no `put` is under way. -/
theorem Shape.opened_of_ne_idle (h : x.Shape pump taken r l) (hpump : pump ≠ .idle) :
    ∃ q p, r = none ∧ l = q ++ p ∧ x.queue = q.map .payload ∧ x.scheduled = p.map .putNowait ∧
      x.exc = none ∧ x.drained = false := by
  cases h with
  | opened q p hqueue hscheduled hexc hdrained =>
    exact ⟨q, p, rfl, rfl, hqueue, hscheduled, hexc, hdrained⟩
  | closing q p e es hqueue hscheduled hexc hdrained hidle => exact absurd hidle hpump
  | closed _ e es hqueue hscheduled hexc hdrained hidle => exact absurd hidle hpump

/-- Before the first `close` it does not matter where the pump is. -/
theorem Shape.move (h : x.Shape pump taken none l) (pump' : PutPc) :
    x.Shape pump' taken none l := by
  cases h with
  | opened q p hqueue hscheduled hexc hdrained => exact .opened q p hqueue hscheduled hexc hdrained

theorem Shape.close (h : x.Shape .idle taken r l) (exc : ConnectionClosed) :
    (x.callSoon (.close exc)).Shape .idle taken (r.or (some exc)) l := by
  cases h with
  | opened q p hqueue hscheduled hexc hdrained =>
    exact .closing q p exc [] hqueue (by simp [hscheduled]) hexc hdrained rfl
  | closing q p e es hqueue hscheduled hexc hdrained hidle =>
    exact .closing q p e (es ++ [exc]) hqueue (by simp [hscheduled]) hexc hdrained rfl
  | closed _ e es hqueue hscheduled hexc hdrained hidle =>
    exact .closed l e (es ++ [exc]) hqueue (by simp [hscheduled]) hexc hdrained rfl

theorem Shape.runScheduled {x' : AsyncMailbox} (h : x.Shape pump taken r l)
    (hrun : x.runScheduled = some x') :
    x'.Shape pump taken r l ∧ x'.size = x.size ∧ x'.maxsize = x.maxsize := by
  cases h with
  | opened q p hqueue hscheduled hexc hdrained =>
    cases p with
    | nil => simp [AsyncMailbox.runScheduled, hscheduled] at hrun
    | cons d p =>
      simp only [AsyncMailbox.runScheduled, hscheduled, List.map_cons, Option.some.injEq] at hrun
      subst hrun
      refine ⟨?_, rfl, rfl⟩
      rw [List.append_cons q d p]
      exact .opened (q ++ [d]) p (by simp [hqueue]) rfl hexc hdrained
  | closing q p e es hqueue hscheduled hexc hdrained hidle =>
    cases p with
    | nil =>
      -- the callback of the first close
      simp only [AsyncMailbox.runScheduled, hscheduled, List.map_nil, List.nil_append,
        List.map_cons, Option.some.injEq, closeNow, hexc, if_true] at hrun
      subst hrun
      refine ⟨?_, rfl, rfl⟩
      rw [List.append_nil]
      exact .closed q e es (by simp [hqueue]) rfl rfl (by simp [hdrained]) hidle
    | cons d p =>
      simp only [AsyncMailbox.runScheduled, hscheduled, List.map_cons, List.cons_append,
        Option.some.injEq] at hrun
      subst hrun
      refine ⟨?_, rfl, rfl⟩
      rw [List.append_cons q d p]
      exact .closing (q ++ [d]) p e es (by simp [hqueue]) rfl hexc hdrained hidle
  | closed _ e es hqueue hscheduled hexc hdrained hidle =>
    cases es with
    | nil => simp [AsyncMailbox.runScheduled, hscheduled] at hrun
    | cons e' es =>
      simp only [AsyncMailbox.runScheduled, hscheduled, List.map_cons, Option.some.injEq, closeNow,
        hexc, reduceCtorEq, if_false] at hrun
      subst hrun
      exact ⟨.closed l e es hqueue rfl rfl hdrained hidle, rfl, rfl⟩

/-- With the end marker at its head, the queue holds nothing else. -/
theorem Shape.of_closed_head (h : x.Shape pump none r l) (hqueue : x.queue = .closed :: rest) :
    ∃ e, r = some e ∧ l = [] ∧ x.exc = some e ∧ pump = .idle ∧
      ({ x with queue := rest }.drain).Shape pump none r l := by
  cases h with
  | opened q p hq =>
    rw [hq] at hqueue
    cases q <;> simp at hqueue
  | closing q p e es hq =>
    rw [hq] at hqueue
    cases q <;> simp at hqueue
  | closed _ e es hq hscheduled hexc hdrained hidle =>
    rw [hq] at hqueue
    cases l with
    | nil =>
      obtain rfl : [] = rest := by simpa using hqueue
      exact ⟨e, rfl, rfl, hexc, hidle,
        .closed [] e es rfl hscheduled hexc (fun _ => ⟨rfl, rfl⟩) hidle⟩
    | cons d l => simp at hqueue

theorem Shape.of_drained (h : x.Shape pump taken r l) (hdrained : x.drained = true) :
    ∃ e, r = some e ∧ l = [] ∧ x.queue = [.closed] ∧ x.exc = some e ∧ taken = none ∧
      pump = .idle := by
  cases h with
  | opened q p _ _ _ hd => simp [hd] at hdrained
  | closing q p e es _ _ _ hd => simp [hd] at hdrained
  | closed _ e es hq _ hexc hd hidle =>
    obtain ⟨rfl, htaken⟩ := hd hdrained
    exact ⟨e, rfl, rfl, by simpa using hq, hexc, htaken, hidle⟩

theorem Shape.take (h : x.Shape pump none r l) (hqueue : x.queue = .payload d :: rest) :
    ∃ l', l = d :: l' ∧ { x with queue := rest }.Shape pump (some d) r l' := by
  cases h with
  | opened q p hq hscheduled hexc hdrained =>
    rw [hq] at hqueue
    cases q with
    | nil => simp at hqueue
    | cons d' q =>
      simp only [List.map_cons, List.cons.injEq, MailItem.payload.injEq] at hqueue
      obtain ⟨rfl, rfl⟩ := hqueue
      exact ⟨q ++ p, rfl, .opened q p rfl hscheduled hexc hdrained⟩
  | closing q p e es hq hscheduled hexc hdrained hidle =>
    rw [hq] at hqueue
    cases q with
    | nil => simp at hqueue
    | cons d' q =>
      simp only [List.map_cons, List.cons.injEq, MailItem.payload.injEq] at hqueue
      obtain ⟨rfl, rfl⟩ := hqueue
      exact ⟨q ++ p, rfl, .closing q p e es rfl hscheduled hexc hdrained hidle⟩
  | closed _ e es hq hscheduled hexc hdrained hidle =>
    rw [hq] at hqueue
    cases l with
    | nil => simp at hqueue
    | cons d' l =>
      simp only [List.map_cons, List.cons_append, List.cons.injEq, MailItem.payload.injEq] at hqueue
      obtain ⟨rfl, rfl⟩ := hqueue
      refine ⟨l, rfl, .closed l e es rfl hscheduled hexc (fun hd => ?_) hidle⟩
      cases (hdrained hd).1

/-- A payload that was taken before the end marker is counted down. -/
theorem Shape.countDown (h : x.Shape pump (some d) r l) : x.countDown.Shape pump none r l := by
  cases h with
  | opened q p hq hscheduled hexc hdrained => exact .opened q p hq hscheduled hexc hdrained
  | closing q p e es hq hscheduled hexc hdrained hidle =>
    exact .closing q p e es hq hscheduled hexc hdrained hidle
  | closed _ e es hq hscheduled hexc hdrained hidle =>
    exact .closed l e es hq hscheduled hexc (fun hd => ⟨(hdrained hd).1, rfl⟩) hidle

end AsyncMailbox

end

namespace MailState

variable {m : Mailbox} {s s' : MailState}

theorem Sim.full (h : Sim m s) : s.mailbox.full = m.full := by
  unfold AsyncMailbox.full Mailbox.full
  rw [h.maxsize]
  cases m.maxsize with
  | none => rfl
  | some n => simp [h.size]

/-- What a step shows of the mailbox: nothing, or one event that a `_Mailbox` can show. -/
def Shows (m : Mailbox) (s s' : MailState) : Prop :=
  s'.log = s.log ∧ Sim m s' ∨
    ∃ e m', s'.log = s.log ++ [e] ∧ m.play e = some m' ∧ Sim m' s'

theorem Sim.put {d : Bytes} (h : Sim m s) (hpump : s.pump = .idle)
    (hopen : ∀ exc, .close exc ∉ s.log) :
    Shows m s (if s.mailbox.full then s.emit (.put d false) else s.goto (.count d)) := by
  have hexc : m.exc = none := by
    by_contra hexc
    obtain ⟨exc, hmem⟩ := h.reason hexc
    exact hopen exc hmem
  obtain ⟨l, hshape, hitems⟩ := h.items
  rw [h.full]
  cases hfull : m.full
  · rw [hexc] at hshape
    refine Or.inl ⟨rfl, ⟨l, ?_, by simpa [hpump] using hitems⟩, h.size, h.maxsize,
      fun _ _ => hfull, h.reason⟩
    rw [hexc]
    exact hshape.move _
  · exact Or.inr ⟨.put d false, m, rfl, by simp [Mailbox.play, Mailbox.put, hfull],
      ⟨l, hshape, hitems⟩, h.size, h.maxsize, h.room, fun hne => absurd hexc hne⟩

theorem Sim.count {d : Bytes} (h : Sim m s) (hpump : s.pump = .count d) :
    Shows m s (((s.set s.mailbox.countUp).emit (.put d true)).goto (.schedule d)) := by
  obtain ⟨l, hshape, hitems⟩ := h.items
  obtain ⟨q, p, hr, rfl, hqueue, hscheduled, hexc, hdrained⟩ :=
    hshape.opened_of_ne_idle (by simp [hpump])
  have hroom := h.room d hpump
  refine Or.inr ⟨.put d true, m.append d, rfl, by simp [Mailbox.play, Mailbox.put, hroom], ?_⟩
  refine ⟨⟨q ++ p, ?_, ?_⟩, by simp [h.size], h.maxsize, by simp, fun hne => absurd hr hne⟩
  · rw [Mailbox.append_exc, hr]
    exact .opened q p hqueue hscheduled hexc hdrained
  · simp [hitems, hpump]

theorem Sim.schedule {d : Bytes} (h : Sim m s) (hpump : s.pump = .schedule d) :
    Shows m s ((s.set (s.mailbox.callSoon (.putNowait d))).goto .idle) := by
  obtain ⟨l, hshape, hitems⟩ := h.items
  obtain ⟨q, p, hr, rfl, hqueue, hscheduled, hexc, hdrained⟩ :=
    hshape.opened_of_ne_idle (by simp [hpump])
  refine Or.inl ⟨rfl, ⟨q ++ (p ++ [d]), ?_, ?_⟩, h.size, h.maxsize, by simp, h.reason⟩
  · rw [hr]
    exact .opened q (p ++ [d]) hqueue (by simp [hscheduled]) hexc hdrained
  · simp [hitems, hpump]

theorem Sim.close {exc : ConnectionClosed} (h : Sim m s) (hpump : s.pump = .idle) :
    Shows m s ((s.set (s.mailbox.callSoon (.close exc))).emit (.close exc)) := by
  obtain ⟨l, hshape, hitems⟩ := h.items
  refine Or.inr ⟨.close exc, m.close exc, rfl, rfl, ⟨l, ?_, hitems⟩, h.size, h.maxsize, h.room,
    fun _ => ⟨exc, by simp⟩⟩
  rw [hpump] at hshape
  show AsyncMailbox.Shape _ s.pump s.taken _ l
  rw [hpump]
  exact hshape.close exc

theorem Sim.callback {x : AsyncMailbox} (h : Sim m s) (hrun : s.mailbox.runScheduled = some x) :
    Shows m s (s.set x) := by
  obtain ⟨l, hshape, hitems⟩ := h.items
  obtain ⟨hshape', hsize, hmax⟩ := hshape.runScheduled hrun
  exact Or.inl ⟨rfl, ⟨l, hshape', hitems⟩, hsize.trans h.size, hmax.trans h.maxsize, h.room,
    h.reason⟩

theorem Sim.act {e : Act} (h : Sim m s) (hs : s.act e = some s')
    (hopen : ∀ d, e = .put d → ∀ exc, .close exc ∉ s.log) : Shows m s s' := by
  unfold MailState.act at hs
  split at hs
  · next d hpump =>
    cases hs
    exact h.put hpump (hopen d rfl)
  · next d hpump =>
    cases hs
    exact h.count hpump
  · next d hpump =>
    cases hs
    exact h.schedule hpump
  · next exc hpump =>
    cases hs
    exact h.close hpump
  · split_ifs at hs
    obtain ⟨x, hrun, rfl⟩ := Option.map_eq_some_iff.mp hs
    exact h.callback hrun
  · cases hs

/-- A get raises: nothing is left, and the reason is the first one. -/
theorem Sim.raise {e : ConnectionClosed} {x : AsyncMailbox} (h : Sim m s) (hempty : m.items = [])
    (hexc : m.exc = some e) (hx : s.mailbox.exc = some e)
    (hshape : x.Shape s.pump s.taken m.exc [])
    (hitems : m.items = s.taken.toList ++ [] ++ s.pump.counted)
    (hsize : x.size = s.mailbox.size) (hmax : x.maxsize = s.mailbox.maxsize) :
    Shows m s ((s.set x).emit (.raised s.mailbox.exc)) := by
  refine Or.inr ⟨.raised s.mailbox.exc, m, rfl, ?_, ⟨[], hshape, hitems⟩, hsize.trans h.size,
    hmax.trans h.maxsize, h.room, fun hne => (h.reason hne).imp fun _ hmem => by simp [hmem]⟩
  obtain ⟨items, exc, maxsize⟩ := m
  cases hempty
  cases hexc
  simp [Mailbox.play, Mailbox.get, hx]

theorem Sim.get {ch : GetChoice} {t t' : GetTask} (h : Sim m s)
    (hcount : ∀ d, t = .count d → s.taken = some d) (hs : getStep ch s t = some (s', t')) :
    Shows m s s' := by
  obtain ⟨l, hshape, hitems⟩ := h.items
  unfold getStep at hs
  split at hs
  · split_ifs at hs with hdrained <;> cases hs
    · obtain ⟨e, hexc, rfl, -, hx, htaken, hidle⟩ := hshape.of_drained hdrained
      exact h.raise (by simp [hitems, htaken, hidle]) hexc hx hshape hitems rfl rfl
    · exact Or.inl ⟨rfl, h⟩
  · next htaken =>
    rw [htaken] at hshape hitems
    split at hs
    · cases hs
    · next d rest hqueue =>
      cases hs
      obtain ⟨l, rfl, hshape'⟩ := hshape.take hqueue
      exact Or.inl ⟨rfl, ⟨l, hshape', by simpa using hitems⟩, h.size, h.maxsize, h.room, h.reason⟩
    · next rest hqueue =>
      cases hs
      obtain ⟨e, hexc, rfl, hx, hidle, hshape'⟩ := hshape.of_closed_head hqueue
      exact h.raise (by simp [hitems, hidle]) hexc hx (by rw [htaken]; exact hshape')
        (by rw [htaken]; exact hitems) rfl rfl
  · cases hs
    exact Or.inl ⟨rfl, h⟩
  · next d d' htaken =>
    cases hs
    have hd : d = d' := by simpa [htaken, eq_comm] using hcount d rfl
    subst hd
    rw [htaken] at hshape hitems
    have hcons : m.items = d :: (l ++ s.pump.counted) := by simpa using hitems
    refine Or.inr
      ⟨.got d, { m with items := l ++ s.pump.counted }, rfl, ?_, ⟨l, hshape.countDown, rfl⟩,
      ?_, h.maxsize, fun d' hd' => ?_, fun hne => (h.reason hne).imp fun _ hmem => by simp [hmem]⟩
    · simp [Mailbox.play, Mailbox.get, hcons]
    · show s.mailbox.size - 1 = ((l ++ s.pump.counted).length : Int)
      rw [h.size, hcons, List.length_cons]
      omega
    · exact Mailbox.full_of_shorter (h.room d' hd') (by simp [hcons])
  · cases hs

end MailState

/-! ## Runs -/

/-- A `get` between the queue and the counter has the event loop for itself. -/
structure Counting (c : Mail) : Prop where
  taken : ∀ i d, c.thread i = .count d → c.shared.taken = some d
  single : ∀ i j d d', c.thread i = .count d → c.thread j = .count d' → i = j

theorem act_taken {e : MailState.Act} {s s' : MailState} (h : s.act e = some s') :
    s'.taken = s.taken := by
  unfold MailState.act at h
  split at h
  · cases h
    split_ifs <;> rfl
  · cases h
    rfl
  · cases h
    rfl
  · cases h
    rfl
  · split_ifs at h
    obtain ⟨x, -, rfl⟩ := Option.map_eq_some_iff.mp h
    rfl
  · cases h

/-- What a step of a `get` does to the event loop. -/
theorem getStep_taken {ch : GetChoice} {s s' : MailState} {t t' : GetTask}
    (h : getStep ch s t = some (s', t')) :
    s.taken = none ∧ (s'.taken = none ∧ (∀ d, t' ≠ .count d) ∨
        ∃ d, t' = .count d ∧ s'.taken = some d) ∨
      (∃ d, t = .count d) ∧ s'.taken = none ∧ ∀ d, t' ≠ .count d := by
  unfold getStep at h
  split at h
  · next htaken =>
    split_ifs at h <;> cases h <;> exact Or.inl ⟨htaken, Or.inl ⟨htaken, by simp⟩⟩
  · next htaken =>
    split at h
    · cases h
    · next d rest hqueue =>
      cases h
      exact Or.inl ⟨htaken, Or.inr ⟨d, rfl, rfl⟩⟩
    · cases h
      exact Or.inl ⟨htaken, Or.inl ⟨htaken, by simp⟩⟩
  · next htaken =>
    cases h
    exact Or.inl ⟨htaken, Or.inl ⟨htaken, by simp⟩⟩
  · next d _ _ =>
    cases h
    exact Or.inr ⟨⟨_, rfl⟩, rfl, by simp⟩
  · cases h

theorem Counting.act {c : Mail} {s : MailState} (hi : Counting c)
    (htaken : s.taken = c.shared.taken) : Counting { c with shared := s } :=
  ⟨fun i d hid => htaken.trans (hi.taken i d hid), hi.single⟩

theorem Counting.get {c : Mail} {i : ℕ} {x : GetChoice} {s : MailState} {t : GetTask}
    (hi : Counting c) (hx : getStep x c.shared (c.thread i) = some (s, t)) :
    Counting (c.move i (s, t)) := by
  have hnone : c.shared.taken = none → ∀ j d, c.thread j ≠ .count d := by
    intro hnone j d hj
    simp [hi.taken j d hj] at hnone
  have hothers : ∀ j d, j ≠ i → (c.move i (s, t)).thread j = .count d → c.thread j = .count d := by
    intro j d hj hjd
    rwa [Config.move_thread_of_ne _ _ hj] at hjd
  have hleft : ∀ j d, j ≠ i → (c.move i (s, t)).thread j ≠ .count d := by
    intro j d hj hjd
    have hjd := hothers j d hj hjd
    rcases getStep_taken hx with ⟨htaken, -⟩ | ⟨⟨d', hd'⟩, -⟩
    · exact hnone htaken j d hjd
    · exact hj (hi.single j i d d' hjd hd')
  constructor
  · intro j d hjd
    by_cases hj : j = i
    · subst hj
      rw [Config.move_thread_self] at hjd
      rcases getStep_taken hx with ⟨-, ⟨-, ht⟩ | ⟨d', ht, htaken⟩⟩ | ⟨-, -, ht⟩
      · exact absurd hjd (ht d)
      · rw [ht] at hjd
        cases hjd
        exact htaken
      · exact absurd hjd (ht d)
    · exact absurd hjd (hleft j d hj)
  · intro j k d d' hj hk
    by_cases hji : j = i
    · by_cases hki : k = i
      · exact hji.trans hki.symm
      · exact absurd hk (hleft k d' hki)
    · exact absurd hj (hleft j d hji)

theorem counting {ok : Mail → Action MailState.Act GetChoice → Prop} {q : Option Nat} {c : Mail}
    (h : Reach mail ok (Mail.init q) c) : Counting c := by
  refine h.invariant ⟨by simp [Mail.init], by simp [Mail.init]⟩ ?_
  intro c a c' _ _ hs hi
  rcases System.step_cases hs with ⟨e, s, rfl, he, rfl⟩ | ⟨i, x, s, t, rfl, hx, rfl⟩
  · exact hi.act (act_taken he)
  · exact hi.get hx

/-- Every run of the asyncio mailbox is a history of a `_Mailbox`. -/
theorem mail_replays {q : Option Nat} {c : Mail} (h : Reach mail noLatePut (Mail.init q) c) :
    ∃ m, replay Mailbox.play ⟨[], none, q⟩ c.shared.log = some m ∧ c.shared.Sim m := by
  refine Reach.replays (fun c => c.shared.log) (R := fun m c => c.shared.Sim m) h rfl ?_ ?_
  · exact ⟨⟨[], .opened [] [] rfl rfl rfl rfl, rfl⟩, rfl, rfl, by simp [Mail.init], by simp⟩
  · intro c a c' m hr hok hs hi
    have hcount := counting hr
    rcases System.step_cases hs with ⟨e, s, rfl, he, rfl⟩ | ⟨i, x, s, t, rfl, hx, rfl⟩
    · refine hi.act he fun d hd => ?_
      subst hd
      exact hok
    · exact hi.get (hcount.taken i) hx

/-! ## The refinement -/

/-- The payloads that `put` accepted. -/
def accepted (l : List MailEvent) : List Bytes := l.filterMap MailEvent.accepted?

/-- The payloads that `get` returned. -/
def gotten (l : List MailEvent) : List Bytes := l.filterMap MailEvent.got?

/-- The reason of the first `close`. -/
def firstReason (l : List MailEvent) : Option ConnectionClosed :=
  (l.filterMap MailEvent.reason?).head?

section

variable {q : Option Nat} {l l' : List MailEvent} {m : Mailbox}

theorem accepted_append : accepted (l ++ l') = accepted l ++ accepted l' := List.filterMap_append

/-- A `_Mailbox` rejects exactly when `maxsize` payloads are accepted and unread. -/
theorem replay_rejects {d : Bytes} {ok : Bool}
    (h : replay Mailbox.play ⟨[], none, q⟩ (l ++ .put d ok :: l') = some m) :
    ok = false ↔ ∃ n, q = some n ∧ (accepted l).length = (gotten l).length + n := by
  obtain ⟨m₁, h₁, h⟩ := replay_append.mp h
  rw [replay_cons] at h
  obtain ⟨m₂, hplay, -⟩ := Option.bind_eq_some_iff.mp h
  obtain ⟨rfl, -⟩ := play_put hplay
  have hafter := replay_after h₁
  have hlength : (accepted l).length = (gotten l).length + m₁.items.length := by
    rw [accepted, hafter.order, List.length_append]
    rfl
  have hmax := hafter.maxsize
  cases q with
  | none => simp [Mailbox.full, hmax]
  | some n =>
    have hbound := hafter.bound n rfl
    simp only [Mailbox.full, hmax, Bool.not_eq_eq_eq_not, Bool.not_false, decide_eq_true_eq,
      Option.some.injEq]
    constructor
    · intro hle
      exact ⟨n, rfl, by omega⟩
    · rintro ⟨_, rfl, heq⟩
      omega

/-- A `_Mailbox` with a reason and no payload only raises, unless a `put` comes. -/
theorem replay_drained {m' : Mailbox} {e : ConnectionClosed}
    (h : replay Mailbox.play m l = some m') (hitems : m.items = []) (hexc : m.exc = some e)
    (hput : ∀ d ok, .put d ok ∉ l) : gotten l = [] ∧ ∀ x, .raised x ∈ l → x = some e := by
  induction l generalizing m with
  | nil => exact ⟨rfl, by simp⟩
  | cons ev l ih =>
    rw [replay_cons] at h
    obtain ⟨m₁, hplay, hl⟩ := Option.bind_eq_some_iff.mp h
    have hput' : ∀ d ok, .put d ok ∉ l := fun d ok hmem => hput d ok (List.mem_cons_of_mem _ hmem)
    cases ev with
    | put d ok => exact absurd List.mem_cons_self (hput d ok)
    | close exc =>
      cases hplay
      obtain ⟨hgot, hraised⟩ := ih hl hitems (Mailbox.close_exc_of_some hexc) hput'
      exact ⟨hgot, fun x hx => hraised x (by simpa using hx)⟩
    | got d =>
      have hcons := (play_got hplay).1
      rw [hitems] at hcons
      cases hcons
    | raised exc =>
      obtain ⟨rfl, -, hexc', -⟩ := play_raised hplay
      obtain ⟨hgot, hraised⟩ := ih hl hitems hexc hput'
      refine ⟨hgot, fun x hx => ?_⟩
      rcases List.mem_cons.mp hx with hx | hx
      · cases hx
        exact hexc'.symm.trans hexc
      · exact hraised x hx

theorem replay_raise {x : Option ConnectionClosed}
    (h : replay Mailbox.play ⟨[], none, q⟩ (l ++ .raised x :: l') = some m)
    (hput : ∀ exc, .close exc ∈ l → ∀ d ok, .put d ok ∉ l') :
    gotten l = accepted (l ++ .raised x :: l') ∧ x ≠ none ∧ x = firstReason l ∧ gotten l' = [] ∧
      ∀ y, .raised y ∈ l' → y = x := by
  obtain ⟨m₁, h₁, h⟩ := replay_append.mp h
  rw [replay_cons] at h
  obtain ⟨m₂, hplay, h₂⟩ := Option.bind_eq_some_iff.mp h
  obtain ⟨rfl, hitems, hexc, hne⟩ := play_raised hplay
  obtain ⟨e, rfl⟩ := Option.ne_none_iff_exists'.mp hne
  have hafter := replay_after h₁
  have hreason : some e = firstReason l := hexc.symm.trans hafter.reason
  have hput' : ∀ d ok, .put d ok ∉ l' := by
    obtain ⟨ev, hmem, hev⟩ := List.mem_filterMap.mp (List.mem_of_mem_head? hreason.symm)
    cases ev <;> simp at hev
    subst hev
    exact hput _ hmem
  obtain ⟨hgot, hraised⟩ := replay_drained h₂ hitems hexc hput'
  have haccepted : accepted (.raised (some e) :: l') = [] := by
    refine List.filterMap_eq_nil_iff.mpr fun ev hmem => ?_
    cases ev with
    | put d ok => exact absurd (by simpa using hmem) (hput' d ok)
    | _ => rfl
  refine ⟨?_, hne, hreason, hgot, hraised⟩
  rw [accepted_append, haccepted, accepted, hafter.order, hitems]
  simp [gotten]

theorem replay_raised_exc {x : Option ConnectionClosed}
    (h : replay Mailbox.play ⟨[], none, q⟩ (l ++ .raised x :: l') = some m) : m.exc = x := by
  obtain ⟨m₁, h₁, h⟩ := replay_append.mp h
  rw [replay_cons] at h
  obtain ⟨m₂, hplay, h₂⟩ := Option.bind_eq_some_iff.mp h
  obtain ⟨rfl, -, hexc, hne⟩ := play_raised hplay
  obtain ⟨e, rfl⟩ := Option.ne_none_iff_exists'.mp hne
  refine replay_invariant (I := fun _ m => m.exc = some e) h₂ hexc ?_
  intro l m ev m' _ hplay hi
  cases ev with
  | put d ok =>
    obtain ⟨-, rfl⟩ := play_put hplay
    split_ifs <;> exact hi
  | close exc =>
    cases hplay
    exact Mailbox.close_exc_of_some hi
  | got d => exact (play_got hplay).2.1.trans hi
  | raised x => exact (play_raised hplay).1 ▸ hi

end

theorem closeNow_drained (x : AsyncMailbox) (exc : ConnectionClosed) :
    (x.closeNow exc).drained = x.drained := by
  unfold AsyncMailbox.closeNow
  split_ifs <;> rfl

theorem runScheduled_drained {x x' : AsyncMailbox} (h : x.runScheduled = some x') :
    x'.drained = x.drained := by
  unfold AsyncMailbox.runScheduled at h
  split at h <;> cases h
  · rfl
  · exact closeNow_drained _ _

/-- What the log says of the order of the pump's calls. -/
structure MailState.Tidy (s : MailState) : Prop where
  order : s.log.Pairwise fun x y => (∃ exc, x = .close exc) → ∀ d ok, y ≠ .put d ok
  opened : s.pump ≠ .idle → ∀ exc, .close exc ∉ s.log
  drained : ∀ x, .raised x ∈ s.log → s.mailbox.drained = true

theorem MailState.Tidy.emit {s : MailState} {e : MailEvent} (h : s.Tidy)
    (hopened : s.pump ≠ .idle → ∀ exc, e ≠ .close exc)
    (hput : ∀ d ok, e = .put d ok → ∀ exc, .close exc ∉ s.log)
    (hraised : ∀ x, e = .raised x → s.mailbox.drained = true) : (s.emit e).Tidy where
  order := by
    refine List.pairwise_append.mpr ⟨h.order, by simp, ?_⟩
    rintro _ hx y hy ⟨exc, rfl⟩ d ok rfl
    exact hput d ok (List.mem_singleton.mp hy).symm exc hx
  opened hpump exc hmem := by
    rcases List.mem_append.mp hmem with hmem | hmem
    · exact h.opened hpump exc hmem
    · exact hopened hpump exc (List.mem_singleton.mp hmem).symm
  drained x hmem := by
    rcases List.mem_append.mp hmem with hmem | hmem
    · exact h.drained x hmem
    · exact hraised x (List.mem_singleton.mp hmem).symm

theorem MailState.Tidy.act {s s' : MailState} {e : MailState.Act} (hi : s.Tidy)
    (h : s.act e = some s') (hopen : ∀ d, e = .put d → ∀ exc, .close exc ∉ s.log) : s'.Tidy := by
  unfold MailState.act at h
  split at h
  · next d hpump =>
    have hnone := hopen d rfl
    cases h
    split_ifs
    · exact hi.emit (by simp [hpump]) (fun _ _ _ => hnone) (by simp)
    · exact ⟨hi.order, fun _ => hnone, hi.drained⟩
  · next d hpump =>
    have hnone := hi.opened (by simp [hpump])
    cases h
    have hemit := hi.emit (e := .put d true) (by simp) (fun _ _ _ => hnone) (by simp)
    exact ⟨hemit.order, fun _ => hemit.opened (by simp [hpump]), hemit.drained⟩
  · cases h
    exact ⟨hi.order, by simp, hi.drained⟩
  · next exc hpump =>
    cases h
    have hset : (s.set (s.mailbox.callSoon (.close exc))).Tidy := ⟨hi.order, hi.opened, hi.drained⟩
    exact hset.emit (by simp [hpump]) (by simp) (by simp)
  · split_ifs at h
    obtain ⟨x, hrun, rfl⟩ := Option.map_eq_some_iff.mp h
    exact ⟨hi.order, hi.opened, fun y hy => (runScheduled_drained hrun).trans (hi.drained y hy)⟩
  · cases h

theorem MailState.Tidy.get {s s' : MailState} {ch : GetChoice} {t t' : GetTask} (hi : s.Tidy)
    (h : getStep ch s t = some (s', t')) : s'.Tidy := by
  unfold getStep at h
  split at h
  · split_ifs at h with hdrained <;> cases h
    · exact hi.emit (by simp) (by simp) (fun _ _ => hdrained)
    · exact hi
  · split at h
    · cases h
    · cases h
      exact ⟨hi.order, hi.opened, hi.drained⟩
    · next rest hqueue =>
      cases h
      have hset : (s.set { s.mailbox with queue := rest }.drain).Tidy :=
        ⟨hi.order, hi.opened, fun _ _ => rfl⟩
      exact hset.emit (by simp) (by simp) (fun _ _ => rfl)
  · cases h
    exact hi
  · next d _ _ =>
    cases h
    have hset : (s.set s.mailbox.countDown).Tidy := ⟨hi.order, hi.opened, hi.drained⟩
    have hemit := hset.emit (e := .got d) (by simp) (by simp) (by simp)
    exact ⟨hemit.order, hemit.opened, hemit.drained⟩
  · cases h

theorem tidy {q : Option Nat} {c : Mail} (h : Reach mail noLatePut (Mail.init q) c) :
    c.shared.Tidy := by
  refine h.invariant (I := fun c => c.shared.Tidy)
    ⟨.nil, by simp [Mail.init], by simp [Mail.init]⟩ ?_
  intro c a c' _ hok hs hi
  rcases System.step_cases hs with ⟨e, s, rfl, he, rfl⟩ | ⟨i, x, s, t, rfl, hx, rfl⟩
  · refine hi.act he fun d hd => ?_
    subst hd
    exact hok
  · exact hi.get hx

/-- A `get` of a drained mailbox raises at once, wherever it is. -/
theorem getStep_drained {s : MailState} {t : GetTask} (hdrained : s.mailbox.drained = true)
    (htaken : s.taken = none) (hqueue : s.mailbox.queue = [.closed])
    (ht : t = .check ∨ t = .wait) :
    ∃ s', getStep .go s t = some (s', .raised s.mailbox.exc) := by
  rcases ht with rfl | rfl
  · exact ⟨s.emit (.raised s.mailbox.exc), by simp only [getStep, htaken, hdrained, if_true]⟩
  · exact ⟨(s.set { s.mailbox with queue := [] }.drain).emit (.raised s.mailbox.exc),
      by simp only [getStep, htaken, hqueue]⟩

/-- **Main theorem.** For every `maxsize` and every run in which no `put` follows the first `close`:
what the puts, the closes and the completed gets did, in order, is a history of a `_Mailbox`. So the
payloads come once and in order; `put` rejects exactly when `maxsize` payloads are accepted and
unread; a `get` raises only when nothing is left to come, and the first reason; and from then on
every `get` raises it, at once. -/
theorem mailbox_refines (q : Option Nat) (c : Mail) (h : Reach mail noLatePut (Mail.init q) c) :
    (∃ m, replay Mailbox.play ⟨[], none, q⟩ c.shared.log = some m) ∧
      gotten c.shared.log <+: accepted c.shared.log ∧
      (∀ l d ok l', c.shared.log = l ++ .put d ok :: l' →
        (ok = false ↔ ∃ n, q = some n ∧ (accepted l).length = (gotten l).length + n)) ∧
      (∀ l x l', c.shared.log = l ++ .raised x :: l' →
        gotten l = accepted c.shared.log ∧ x ≠ none ∧ x = firstReason l ∧ gotten l' = [] ∧
          ∀ y, .raised y ∈ l' → y = x) ∧
      ∀ x, .raised x ∈ c.shared.log → ∀ i, c.thread i = .check ∨ c.thread i = .wait →
        ∃ c', mail.step c (.thread i .go) = some c' ∧ c'.thread i = .raised x := by
  obtain ⟨m, hm, hsim⟩ := mail_replays h
  have htidy := tidy h
  have hraise : ∀ l x l', c.shared.log = l ++ .raised x :: l' →
      gotten l = accepted c.shared.log ∧ x ≠ none ∧ x = firstReason l ∧ gotten l' = [] ∧
        ∀ y, .raised y ∈ l' → y = x := by
    intro l x l' hl
    have horder := htidy.order
    rw [hl] at hm horder ⊢
    refine replay_raise hm fun exc hmem d ok hput => ?_
    exact (List.pairwise_append.mp horder).2.2 _ hmem _ (List.mem_cons_of_mem _ hput) ⟨exc, rfl⟩
      d ok rfl
  refine ⟨⟨m, hm⟩, ⟨m.items, (replay_after hm).order.symm⟩, fun l d ok l' hl => ?_, hraise, ?_⟩
  · rw [hl] at hm
    exact replay_rejects hm
  · intro x hx i hi
    obtain ⟨l, hshape, -⟩ := hsim.items
    have hdrained := htidy.drained x hx
    obtain ⟨e, hexc, -, hqueue, hexc', htaken, -⟩ := hshape.of_drained hdrained
    -- the reason that was raised is the one that is still there
    have hsame : x = some e := by
      obtain ⟨l₁, l₂, hl⟩ := List.append_of_mem hx
      rw [hl] at hm
      exact replay_raised_exc hm ▸ hexc
    obtain ⟨s', hget⟩ := getStep_drained hdrained htaken hqueue hi
    refine ⟨c.move i (s', .raised c.shared.mailbox.exc), ?_, ?_⟩
    · exact Option.map_eq_some_iff.mpr ⟨_, hget, rfl⟩
    · rw [Config.move_thread_self, hexc', hsame]

/-- With room for one payload: it is read, the second is rejected, the mailbox is closed with an
error, and two gets raise it, one of them after the end marker went round. -/
theorem mailbox_refines_one :
    ∃ c, Reach mail noLatePut (Mail.init (some 1)) c ∧
      c.shared.log = [.put [1] true, .put [2] false, .close (.error "connection lost"), .got [1],
        .raised (some (.error "connection lost")), .raised (some (.error "connection lost"))] ∧
      gotten c.shared.log <+: accepted c.shared.log ∧
      ∀ i, c.thread i = .check ∨ c.thread i = .wait →
        ∃ c', mail.step c (.thread i .go) = some c' ∧
          c'.thread i = .raised (some (.error "connection lost")) := by
  have hrun : Reach mail noLatePut (Mail.init (some 1)) _ :=
    .of_exec (show mail.exec noLatePut [.shared (.put [1]), .shared .pump, .shared .pump,
      .shared (.put [2]), .thread 0 .go, .shared (.close (.error "connection lost")),
      .shared .callback, .thread 0 .go, .thread 0 .go, .shared .callback, .thread 1 .go,
      .thread 1 .go, .thread 2 .go] (Mail.init (some 1)) = some _ from rfl)
  have hrefines := mailbox_refines (some 1) _ hrun
  exact ⟨_, hrun, rfl, hrefines.2.1, hrefines.2.2.2.2 _ (by decide)⟩

end Raknet
