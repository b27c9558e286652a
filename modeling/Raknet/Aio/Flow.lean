import Raknet.Aio.Mailbox
import Raknet.Lib.Barrier

/-!
# What an asyncio mailbox holds

`Connection.close` may schedule its callback while the pump is inside `put`, and then the end marker
stands ahead of a payload. So in general an asyncio mailbox raises earlier than a `_Mailbox` would.
What it holds is nevertheless what a `_Mailbox` holds after the same calls, as `Flow` says.

**Theorem (`Flow.get`).** A `get` that returns takes the oldest payload, and one that raises raises
the first reason.

**Theorem (`Ahead.get`).** A payload that was put ahead of the first `close` is returned before any
`get` raises.
-/

namespace Raknet

open Interleaving Barrier

/-! ## The line -/

/-- The payload of an item; the end marker has none. -/
def MailItem.content : MailItem → Option Bytes
  | payload d => some d
  | closed => none

/-- The payload of a callback; that of `close` has none. -/
def Scheduled.content : Scheduled → Option Bytes
  | putNowait d => some d
  | close _ => none

/-- The reason of a callback of `close`. -/
def Scheduled.reason? : Scheduled → Option ConnectionClosed
  | putNowait _ => none
  | close exc => some exc

/-- What waits in the queue and in the callbacks. -/
def AsyncMailbox.line (m : AsyncMailbox) : List (Option Bytes) :=
  m.queue.map MailItem.content ++ m.scheduled.map Scheduled.content

/-- The reason that the mailbox has, or will have once its callbacks have run. -/
def AsyncMailbox.reason (m : AsyncMailbox) : Option ConnectionClosed :=
  m.exc.or (m.scheduled.filterMap Scheduled.reason?).head?

/-- The payloads that no `get` has returned. -/
def MailState.pending (s : MailState) : List Bytes := s.taken.toList ++ s.mailbox.line.reduceOption

/-- The payloads that come before any `get` raises. -/
def MailState.leading (s : MailState) : List Bytes := s.taken.toList ++ ahead s.mailbox.line

/-- `close` schedules its callback. -/
def MailState.close (s : MailState) (exc : ConnectionClosed) : MailState :=
  (s.set (s.mailbox.callSoon (.close exc))).emit (.close exc)

section

variable {m : AsyncMailbox} {d : Bytes} {exc : ConnectionClosed}

@[simp] theorem line_countUp : m.countUp.line = m.line := rfl

@[simp] theorem line_countDown : m.countDown.line = m.line := rfl

@[simp] theorem line_callSoon {x : Scheduled} : (m.callSoon x).line = m.line ++ [x.content] := by
  simp [AsyncMailbox.line]

@[simp] theorem reason_callSoon_put : (m.callSoon (.putNowait d)).reason = m.reason := by
  simp [AsyncMailbox.reason, Scheduled.reason?]

@[simp] theorem reason_callSoon_close :
    (m.callSoon (.close exc)).reason = m.reason.or (some exc) := by
  cases hexc : m.exc <;> cases hl : m.scheduled.filterMap Scheduled.reason? <;>
    simp [AsyncMailbox.reason, Scheduled.reason?, hexc, hl]

/-- An end marker is in the line before there is a reason to raise. -/
theorem none_not_mem_line (hmarker : .closed ∈ m.queue ↔ m.exc ≠ none) (h : m.reason = none) :
    none ∉ m.line := by
  obtain ⟨hexc, hscheduled⟩ := Option.or_eq_none_iff.mp h
  rw [AsyncMailbox.line, List.mem_append, List.mem_map, List.mem_map, not_or]
  constructor
  · rintro ⟨x, hx, hcontent⟩
    cases x with
    | payload d => cases hcontent
    | closed => exact hmarker.mp hx hexc
  · rintro ⟨x, hx, hcontent⟩
    cases x with
    | putNowait d => cases hcontent
    | close exc =>
      rw [List.head?_eq_none_iff, List.filterMap_eq_nil_iff] at hscheduled
      cases hscheduled _ hx

end

/-- What a callback does to the line: nothing, or it takes the content of a later `close` away. -/
theorem runScheduled_line {m x : AsyncMailbox} (hrun : m.runScheduled = some x) :
    x.line = m.line ∨
      ∃ l l', m.line = l ++ none :: l' ∧ x.line = l ++ l' := by
  unfold AsyncMailbox.runScheduled at hrun
  split at hrun
  · cases hrun
  · next d rest hscheduled =>
    cases hrun
    left
    simp [AsyncMailbox.line, hscheduled, MailItem.content, Scheduled.content]
  · next exc rest hscheduled =>
    cases hrun
    unfold AsyncMailbox.closeNow
    split_ifs
    · left
      simp [AsyncMailbox.line, hscheduled, MailItem.content, Scheduled.content]
    · right
      refine ⟨m.queue.map MailItem.content, rest.map Scheduled.content, ?_, rfl⟩
      simp [AsyncMailbox.line, hscheduled, Scheduled.content]

theorem runScheduled_reason {m x : AsyncMailbox} (hrun : m.runScheduled = some x) :
    x.reason = m.reason ∧ x.size = m.size := by
  unfold AsyncMailbox.runScheduled at hrun
  split at hrun
  · cases hrun
  · next d rest hscheduled =>
    cases hrun
    simp [AsyncMailbox.reason, hscheduled, Scheduled.reason?, List.findSome?_cons]
  · next exc rest hscheduled =>
    cases hrun
    unfold AsyncMailbox.closeNow
    split_ifs with hexc
    · simp only at hexc
      simp [AsyncMailbox.reason, hscheduled, Scheduled.reason?, hexc]
    · obtain ⟨e, he⟩ := Option.ne_none_iff_exists'.mp hexc
      simp only at he
      simp [AsyncMailbox.reason, he]

theorem runScheduled_marker {m x : AsyncMailbox} (hrun : m.runScheduled = some x)
    (hmarker : .closed ∈ m.queue ↔ m.exc ≠ none) :
    (.closed ∈ x.queue ↔ x.exc ≠ none) ∧ (m.exc ≠ none → x.exc ≠ none) := by
  unfold AsyncMailbox.runScheduled at hrun
  split at hrun
  · cases hrun
  · cases hrun
    simpa using hmarker
  · cases hrun
    unfold AsyncMailbox.closeNow
    split_ifs with hexc
    · simp
    · exact ⟨hmarker, id⟩

theorem runScheduled_maxsize {m x : AsyncMailbox} (hrun : m.runScheduled = some x) :
    x.maxsize = m.maxsize := by
  unfold AsyncMailbox.runScheduled AsyncMailbox.closeNow at hrun
  split at hrun
  · cases hrun
  · cases hrun
    rfl
  · cases hrun
    split_ifs <;> rfl

/-! ## The `_Mailbox` with the same payloads -/

/-- The asyncio mailbox has the payloads and the reason of a `_Mailbox`. -/
structure MailState.Flow (b : Mailbox) (s : MailState) : Prop where
  items : b.items = s.pending
  reason : b.exc = s.mailbox.reason
  size : s.mailbox.size = (s.pending.length : Int) + s.pump.counted.length
  marker : .closed ∈ s.mailbox.queue ↔ s.mailbox.exc ≠ none
  drained : s.mailbox.drained = true → s.mailbox.exc ≠ none

namespace MailState

variable {b : Mailbox} {s s' : MailState} {d : Bytes} {exc : ConnectionClosed}

theorem flow_init (maxsize : Option Nat) :
    Flow ⟨[], none, maxsize⟩ ⟨.new maxsize, .idle, none, []⟩ := by
  constructor <;> simp [pending, AsyncMailbox.new, AsyncMailbox.line, AsyncMailbox.reason,
    PutPc.counted]

theorem Flow.congr {b' : Mailbox} (h : Flow b s) (hitems : b'.items = b.items)
    (hexc : b'.exc = b.exc) : Flow b' s :=
  ⟨hitems.trans h.items, hexc.trans h.reason, h.size, h.marker, h.drained⟩

theorem Flow.emit (h : Flow b s) (e : MailEvent) : Flow b (s.emit e) :=
  ⟨h.items, h.reason, h.size, h.marker, h.drained⟩

/-- `put` finds the counter as a `_Mailbox` finds its payloads. -/
theorem Flow.full (h : Flow b s) (hmax : s.mailbox.maxsize = b.maxsize) (hpump : s.pump = .idle) :
    s.mailbox.full = b.full := by
  have hsize := h.size
  rw [hpump, ← h.items] at hsize
  unfold AsyncMailbox.full Mailbox.full
  rw [hmax]
  cases b.maxsize with
  | none => rfl
  | some n => simp [hsize, PutPc.counted]

theorem Flow.put (h : Flow b s) (hpump : s.pump = .idle) : Flow b (s.goto (.count d)) := by
  refine ⟨h.items, h.reason, ?_, h.marker, h.drained⟩
  have hsize := h.size
  rw [hpump] at hsize
  exact hsize

theorem Flow.count (h : Flow b s) (hpump : s.pump = .count d) :
    Flow b (((s.set s.mailbox.countUp).emit (.put d true)).goto (.schedule d)) := by
  refine ⟨h.items, h.reason, ?_, h.marker, h.drained⟩
  have hsize := h.size
  rw [hpump] at hsize
  show s.mailbox.size + 1 = _
  rw [hsize]
  simp [PutPc.counted, pending]

theorem Flow.schedule (h : Flow b s) (hpump : s.pump = .schedule d) :
    Flow (b.append d) ((s.set (s.mailbox.callSoon (.putNowait d))).goto .idle) := by
  constructor
  case items => simp [pending, h.items, Scheduled.content, List.reduceOption_append]
  case reason => simp [h.reason]
  case size =>
    have hsize := h.size
    rw [hpump] at hsize
    simp [pending, hsize, Scheduled.content, List.reduceOption_append, PutPc.counted]
    omega
  case marker => exact h.marker
  case drained => exact h.drained

theorem Flow.close (h : Flow b s) : Flow (b.close exc) (s.close exc) := by
  constructor
  case items =>
    simp [MailState.close, pending, h.items, Scheduled.content, List.reduceOption_append]
  case reason => simp [MailState.close, Mailbox.close, h.reason]
  case size =>
    simpa [MailState.close, pending, Scheduled.content, List.reduceOption_append] using h.size
  case marker => exact h.marker
  case drained => exact h.drained

theorem Flow.callback {x : AsyncMailbox} (h : Flow b s) (hrun : s.mailbox.runScheduled = some x) :
    Flow b (s.set x) := by
  obtain ⟨hreason, hsize⟩ := runScheduled_reason hrun
  obtain ⟨hmarker, hexc⟩ := runScheduled_marker hrun h.marker
  have hpending : (s.set x).pending = s.pending := by
    rcases runScheduled_line hrun with hline | ⟨l, l', hline, hline'⟩
    · simp [pending, hline]
    · simp only [pending, set_mailbox, set_taken, hline, hline', reduceOption_remove]
  constructor
  case items => rw [hpending, h.items]
  case reason => exact h.reason.trans hreason.symm
  case size =>
    rw [hpending]
    exact hsize.trans h.size
  case marker => exact hmarker
  case drained =>
    exact fun hdrained => hexc (h.drained ((runScheduled_drained hrun).symm.trans hdrained))

theorem Flow.raised (h : Flow b s) (hexc : s.mailbox.exc ≠ none) :
    b.exc = s.mailbox.exc := by
  obtain ⟨e, he⟩ := Option.ne_none_iff_exists'.mp hexc
  rw [h.reason, AsyncMailbox.reason, he]
  rfl

/-- What a step of a `get` does to the line and what it shows. -/
inductive GetMove (s : MailState) : GetTask → MailState → GetTask → Prop
  | look (htaken : s.taken = none) : GetMove s .check s .wait
  | drained (htaken : s.taken = none) (h : s.mailbox.drained = true) :
      GetMove s .check (s.emit (.raised s.mailbox.exc)) (.raised s.mailbox.exc)
  | take (d : Bytes) (rest : List MailItem) (htaken : s.taken = none)
      (hqueue : s.mailbox.queue = .payload d :: rest) :
      GetMove s .wait { s with mailbox := { s.mailbox with queue := rest }, taken := some d }
        (.count d)
  | drain (rest : List MailItem) (htaken : s.taken = none)
      (hqueue : s.mailbox.queue = .closed :: rest) :
      GetMove s .wait ((s.set { s.mailbox with queue := rest }.drain).emit (.raised s.mailbox.exc))
        (.raised s.mailbox.exc)
  | cancel (htaken : s.taken = none) : GetMove s .wait s .cancelled
  | count (d d' : Bytes) (htaken : s.taken = some d') :
      GetMove s (.count d) { (s.set s.mailbox.countDown).emit (.got d) with taken := none }
        (.returned d)

theorem GetMove.kept {t t' : GetTask} (h : GetMove s t s' t') :
    s'.pump = s.pump ∧ s'.mailbox.maxsize = s.mailbox.maxsize := by
  cases h <;> exact ⟨rfl, rfl⟩

theorem getStep_move {ch : GetChoice} {t t' : GetTask} (h : getStep ch s t = some (s', t')) :
    GetMove s t s' t' := by
  unfold getStep at h
  split at h
  · next htaken =>
    split_ifs at h with hdrained <;> cases h
    · exact .drained htaken hdrained
    · exact .look htaken
  · next htaken =>
    split at h
    · cases h
    · next d rest hqueue =>
      cases h
      exact .take d rest htaken hqueue
    · next rest hqueue =>
      cases h
      exact .drain rest htaken hqueue
  · next htaken =>
    cases h
    exact .cancel htaken
  · next d d' htaken =>
    cases h
    exact .count d d' htaken
  · cases h

theorem Flow.get {ch : GetChoice} {t t' : GetTask} (h : Flow b s)
    (hcount : ∀ d, t = .count d → s.taken = some d) (hs : getStep ch s t = some (s', t')) :
    (∀ d, t' ≠ .returned d) ∧ Flow b s' ∨
      ∃ d, t' = .returned d ∧ b.items = d :: b.items.tail ∧
        Flow { b with items := b.items.tail } s' := by
  cases getStep_move hs with
  | look htaken | cancel htaken => exact Or.inl ⟨by simp, h⟩
  | drained htaken hdrained =>
    exact Or.inl ⟨by simp, h.items, h.reason, h.size, h.marker, h.drained⟩
  | take d rest htaken hqueue =>
    have hpending : s.pending = d :: (rest.map MailItem.content ++
        s.mailbox.scheduled.map Scheduled.content).reduceOption := by
      simp [pending, AsyncMailbox.line, htaken, hqueue, MailItem.content]
    refine Or.inl ⟨by simp, h.items.trans hpending, h.reason, ?_, ?_, h.drained⟩
    · exact h.size.trans (by rw [hpending]; rfl)
    · have hmarker := h.marker
      simpa [hqueue] using hmarker
  | drain rest htaken hqueue =>
    have hexc : s.mailbox.exc ≠ none := h.marker.mp (by simp [hqueue])
    refine Or.inl ⟨by simp, ?_, h.reason, ?_, ?_, fun _ => hexc⟩
    · rw [h.items]
      simp [pending, AsyncMailbox.line, hqueue, htaken, MailItem.content, List.reduceOption_append]
    · have hsize := h.size
      simpa [pending, AsyncMailbox.line, hqueue, htaken, MailItem.content,
        List.reduceOption_append] using hsize
    · simpa using hexc
  | count d d' htaken =>
    have htaken := hcount d rfl
    have hpending : b.items = d :: s.mailbox.line.reduceOption := by
      rw [h.items, pending, htaken]
      rfl
    have hsize := h.size
    rw [← h.items, hpending, List.length_cons] at hsize
    refine Or.inr ⟨d, rfl, by rw [hpending]; rfl, ?_, h.reason, ?_, h.marker, h.drained⟩
    · rw [hpending]
      rfl
    · show s.mailbox.size - 1 = ((s.mailbox.line.reduceOption.length : Nat) : Int) +
        (s.pump.counted.length : Int)
      rw [hsize]
      omega

theorem Flow.get_raised {ch : GetChoice} {t : GetTask} {x : Option ConnectionClosed} (h : Flow b s)
    (hs : getStep ch s t = some (s', .raised x)) : x ≠ none ∧ b.exc = x := by
  cases getStep_move hs with
  | drained htaken hdrained =>
    have hexc := h.drained hdrained
    exact ⟨hexc, h.raised hexc⟩
  | drain rest htaken hqueue =>
    have hexc : s.mailbox.exc ≠ none := h.marker.mp (by simp [hqueue])
    exact ⟨hexc, h.raised hexc⟩

/-- Once the callbacks have run there is something in the queue for the next `get`. -/
theorem Flow.ready (h : Flow b s) (hrun : s.mailbox.scheduled = []) (htaken : s.taken = none)
    (hsome : s.pending ≠ [] ∨ s.mailbox.reason ≠ none) : s.mailbox.queue ≠ [] := by
  intro hqueue
  rcases hsome with hpending | hreason
  · exact hpending (by simp [pending, AsyncMailbox.line, htaken, hqueue, hrun])
  · have hexc : s.mailbox.exc ≠ none := by simpa [AsyncMailbox.reason, hrun] using hreason
    have hmem := h.marker.mpr hexc
    rw [hqueue] at hmem
    cases hmem

/-- Who holds the event loop after a step of a `get` is the one that took the step. -/
theorem GetMove.holder {t t' : GetTask} (h : GetMove s t s' t') (htaken : s'.taken = some d) :
    t' = .count d := by
  cases h with
  | take d' rest hnone hqueue =>
    cases htaken
    rfl
  | look hnone | drained hnone hdrained | drain rest hnone hqueue | cancel hnone =>
    exact absurd (hnone.symm.trans htaken) (by simp)
  | count d' d'' hsome => cases htaken

/-! ## Ahead of the end marker -/

/-- The payloads `l` are returned before any `get` raises, when `got` have been returned. -/
structure Ahead (l got : List Bytes) (s : MailState) : Prop where
  leads : l <+: got ++ s.leading
  drained : s.mailbox.drained = true → l <+: got

variable {l got : List Bytes}

/-- Before the first `close` that holds of everything that was put. -/
theorem Flow.ahead (h : Flow b s) (hexc : b.exc = none) (got : List Bytes) :
    Ahead (got ++ b.items) got s := by
  have hreason := h.reason.symm.trans hexc
  constructor
  · have hline := ahead_eq_reduceOption (none_not_mem_line h.marker hreason)
    have heq : s.leading = b.items := by
      rw [h.items, pending, leading, hline]
    exact heq ▸ List.prefix_rfl
  · intro hdrained
    exact absurd (Option.or_eq_none_iff.mp hreason).1 (h.drained hdrained)

theorem Ahead.keep (h : Ahead l got s) (hlead : s.leading <+: s'.leading)
    (hdrained : s'.mailbox.drained = true → s.mailbox.drained = true) : Ahead l got s' :=
  ⟨h.leads.trans ((List.prefix_append_right_inj got).mpr hlead), fun hd => h.drained (hdrained hd)⟩

theorem Ahead.schedule (h : Ahead l got s) (x : Scheduled) (pc : PutPc) :
    Ahead l got ((s.set (s.mailbox.callSoon x)).goto pc) := by
  refine h.keep ?_ id
  simp only [leading, goto_mailbox, set_mailbox, goto_taken, set_taken, line_callSoon]
  exact (List.prefix_append_right_inj _).mpr (ahead_append _ _)

theorem Ahead.close (h : Ahead l got s) : Ahead l got (s.close exc) := by
  refine h.keep ?_ id
  simp only [leading, MailState.close, emit_mailbox, set_mailbox, emit_taken, set_taken,
    line_callSoon]
  exact (List.prefix_append_right_inj _).mpr (ahead_append _ _)

theorem Ahead.callback {x : AsyncMailbox} (h : Ahead l got s)
    (hrun : s.mailbox.runScheduled = some x) : Ahead l got (s.set x) := by
  refine h.keep ((List.prefix_append_right_inj _).mpr ?_)
    fun hdrained => (runScheduled_drained hrun).symm.trans hdrained
  rcases runScheduled_line hrun with hline | ⟨l₁, l₂, hline, hline'⟩
  · have heq : ahead (s.set x).mailbox.line = ahead s.mailbox.line := by
      rw [set_mailbox, hline]
    exact heq ▸ List.prefix_rfl
  · rw [set_mailbox, hline, hline']
    exact ahead_remove l₁ l₂

/-- When a `get` raises they have been returned. -/
theorem Ahead.get {ch : GetChoice} {t t' : GetTask} (h : Ahead l got s)
    (hcount : ∀ d, t = .count d → s.taken = some d) (hs : getStep ch s t = some (s', t')) :
    (∀ d, t' ≠ .returned d) ∧ Ahead l got s' ∧ (∀ x, t' = .raised x → l <+: got) ∨
      ∃ d, t' = .returned d ∧ Ahead l (got ++ [d]) s' := by
  cases getStep_move hs with
  | look htaken | cancel htaken => exact Or.inl ⟨by simp, h, by simp⟩
  | drained htaken hdrained =>
    exact Or.inl ⟨by simp, ⟨h.leads, h.drained⟩, fun _ _ => h.drained hdrained⟩
  | take d rest htaken hqueue =>
    have hlead : s.leading = d :: ahead (rest.map MailItem.content ++
        s.mailbox.scheduled.map Scheduled.content) := by
      simp [leading, AsyncMailbox.line, htaken, hqueue, MailItem.content]
    refine Or.inl ⟨by simp, ⟨?_, h.drained⟩, by simp⟩
    have hleads := h.leads
    rw [hlead] at hleads
    exact hleads
  | drain rest htaken hqueue =>
    have hlead : s.leading = [] := by
      simp [leading, AsyncMailbox.line, htaken, hqueue, MailItem.content]
    have hall : l <+: got := by simpa [hlead] using h.leads
    exact Or.inl ⟨by simp, ⟨hall.trans (List.prefix_append _ _), fun _ => hall⟩, fun _ _ => hall⟩
  | count d d' htaken =>
    have htaken := hcount d rfl
    refine Or.inr ⟨d, rfl, ?_, fun hdrained => (h.drained hdrained).trans (List.prefix_append _ _)⟩
    have hleads := h.leads
    rw [leading, htaken] at hleads
    simpa [leading] using hleads

end MailState

end Raknet
