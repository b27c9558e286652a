import Raknet.Aio.Mailed
import Raknet.Sync.Delivery

/-!
# End-to-end delivery on an asyncio Peer

From the packet to the `recv` a payload now goes through the event loop as well.

**Theorem (`aio_delivery`).** What a mailbox took in is the first user packets of its guid since the
registration, all of them while it is registered; the `recv`s return it in that order, and what they
have not returned is in the mailbox. A `recv` raises the first reason, and only when everything that
was put before the first `close` has been returned; what the pump puts while somebody closes the
Connection may be lost. And while there is a payload or a reason, some callback or some `recv` can
go on.
-/

namespace Raknet

open Interleaving

variable {text : SystemAddress → String} {s s' : State} {k : ConnId} {i : CallId}
  {l l' : Mailed} {c c' : AioMailed}

/-! ## The log -/

theorem TaskEffect.deliveryInv {t : Task} (h : TaskEffect text i s t s') (hi : DeliveryInv s)
    (hr : RegistryInv s) : DeliveryInv s' := by
  cases h with
  | worker s' h | task s' h => exact h.deliveryInv hi hr
  | cancelClose snap h =>
    obtain ⟨h1, h2, h3, h4, h5, h6, h7⟩ := hi
    exact ⟨h1, h2, h3, h4, h5, h6, h7⟩

theorem reach_aioDelivery {ok : Aio → AioAction → Prop} {q : Option Nat} {t₀ : Int} {c : Aio}
    (h : Reach (aio text) ok (Aio.init q t₀) c) : DeliveryInv c.shared := by
  refine h.invariant (I := fun c => DeliveryInv c.shared) (deliveryInv_init q t₀) ?_
  intro c a c' hr _ hs hi
  have hreg := (reach_aioRegistry hr).1
  rcases System.step_cases hs with ⟨e, s, rfl, he, rfl⟩ | ⟨i, x, s, t, rfl, hx, rfl⟩
  · exact (act_effect he).deliveryInv hi hreg
  · exact (taskStep_move hx).effect.deliveryInv hi hreg

theorem ActEffect.returns {e : State.Act} (h : ActEffect text s e s') (hrecv : ∀ c, e ≠ .recv c) :
    returns k s'.log = returns k s.log := by
  cases h
  case recvItem c d m hpub hget | recvRaises c exc hpub hget => exact absurd rfl (hrecv c)
  all_goals simp [Raknet.returns, Event.returnedFrom]

theorem TaskEffect.returns {t : Task} (h : TaskEffect text i s t s') :
    returns k s'.log = returns k s.log := by
  cases h with
  | worker s' h | task s' h => cases h <;> simp [Raknet.returns, Event.returnedFrom]
  | cancelClose snap h => rfl

/-! ## Ahead of a close -/

theorem MailState.Ahead.after {m : MailState} {p got : List Bytes} (h : m.Ahead p got)
    (x : Option (ConnId × ConnectionClosed)) : (m.after k x).Ahead p got := by
  unfold MailState.after
  split
  · split_ifs
    · exact h.close
    · exact h
  · exact h

theorem Mailed.Move.returns {e : Mailed.Act} (h : l.Move text e l') :
    returns k l'.state.log = returns k l.state.log := by
  cases h with
  | peer e s hput hrecv h =>
    rw [Mailed.close_state]
    exact (act_effect h).returns hrecv
  | reject c d hpump hidle hfull => simp [Raknet.returns, Event.returnedFrom]
  | schedule c d d' hpump hschedule => simp [Raknet.returns, Event.returnedFrom]
  | _ => rfl

theorem Mailed.Move.ahead {e : Mailed.Act} {p : List Bytes} (h : l.Move text e l')
    (ha : (l.mails k).Ahead p (Raknet.returns k l.state.log)) :
    (l'.mails k).Ahead p (Raknet.returns k l'.state.log) := by
  rw [h.returns]
  have hwrite : ∀ c m, (k = c → m.Ahead p (Raknet.returns k l.state.log)) →
      ((l.write c m).mails k).Ahead p (Raknet.returns k l.state.log) := by
    intro c m hm
    by_cases hk : k = c
    · subst hk
      simpa using hm rfl
    · rw [Mailed.write_mails_of_ne _ hk]
      exact ha
  cases h with
  | peer e s hput hrecv h =>
    rw [Mailed.close_mails]
    exact ha.after _
  | reject c d hpump hidle hfull =>
    refine hwrite c _ ?_
    rintro rfl
    exact ha.keep List.prefix_rfl id
  | room c d hpump hidle hroom =>
    refine hwrite c _ ?_
    rintro rfl
    exact ha.keep List.prefix_rfl id
  | count c d d' hpump hcount =>
    refine hwrite c _ ?_
    rintro rfl
    exact ha.keep List.prefix_rfl id
  | schedule c d d' hpump hschedule =>
    refine hwrite c _ ?_
    rintro rfl
    exact ha.schedule _ _
  | callback c x hrun =>
    refine hwrite c _ ?_
    rintro rfl
    exact ha.callback hrun

/-- A `recv` takes them before it raises. -/
theorem MailTask.Move.ahead {t t' : MailTask} {p : List Bytes} (h : t.Move text i l l' t')
    (hcount : ∀ d, t.on k = .count d → (l.mails k).taken = some d)
    (ha : (l.mails k).Ahead p (returns k l.state.log)) :
    (l'.mails k).Ahead p (returns k l'.state.log) ∧
      returns k l.state.log <+: returns k l'.state.log ∧
        ∀ x, t' = .recv k (.raised x) → p <+: returns k l'.state.log := by
  cases h with
  | call t t' x s h =>
    rw [Mailed.close_mails, Mailed.close_state, (Raknet.taskStep_move h).effect.returns]
    exact ⟨ha.after _, List.prefix_rfl, by simp⟩
  | recv c hpub => exact ⟨ha, List.prefix_rfl, by simp⟩
  | get c g g' ch m h hret =>
    by_cases hk : k = c
    · subst hk
      rcases ha.get (fun d hd => hcount d (by simp [MailTask.on, hd])) h with
        ⟨-, ha', hraised⟩ | ⟨d, hd, -⟩
      · refine ⟨by simpa using ha', List.prefix_rfl, fun x hx => hraised x ?_⟩
        cases hx
        rfl
      · exact absurd hd (hret d)
    · rw [Mailed.write_mails_of_ne _ hk]
      refine ⟨ha, List.prefix_rfl, fun x hx => ?_⟩
      cases hx
      exact absurd rfl hk
  | returned c g ch m d h =>
    by_cases hk : k = c
    · subst hk
      rcases ha.get (fun d hd => hcount d (by simp [MailTask.on, hd])) h with
        ⟨hret, -⟩ | ⟨d', hd', ha'⟩
      · exact absurd rfl (hret d)
      · cases hd'
        simpa [Mailed.take, returns_append, Event.returnedFrom] using ha'
    · have hkeep : returns k ((l.write c m).take c d).state.log = returns k l.state.log := by
        simp [Mailed.take, returns_append, Event.returnedFrom, Ne.symm hk]
      rw [hkeep]
      refine ⟨?_, List.prefix_rfl, by simp⟩
      show ((l.write c m).mails k).Ahead p _
      rw [Mailed.write_mails_of_ne _ hk]
      exact ha

/-- The payloads `p` come before a `recv` on `k` raises. -/
structure AheadInv (c : AioMailed) (k : ConnId) (p : List Bytes) : Prop where
  ahead : (c.shared.mails k).Ahead p (returns k c.shared.state.log)
  raised : ∀ i x, c.thread i = .recv k (.raised x) → p <+: returns k c.shared.state.log

theorem AheadInv.step {p : List Bytes} {a : Action Mailed.Act MailChoice} (hi : AheadInv c k p)
    (hm : MailedInv c) (hs : (mailed text).step c a = some c') : AheadInv c' k p := by
  rcases System.step_cases hs with ⟨e, l, rfl, he, rfl⟩ | ⟨i, x, l, t, rfl, hx, rfl⟩
  · have hmove := Mailed.act_move he
    refine ⟨hmove.ahead hi.ahead, fun i x hraised => ?_⟩
    show p <+: returns k l.state.log
    rw [hmove.returns]
    exact hi.raised i x hraised
  · have hmove := Mailed.taskStep_move hx
    obtain ⟨hahead, hgrows, hlast⟩ :=
      hmove.ahead (fun d hd => (hm.counting k).taken i d hd) hi.ahead
    refine ⟨hahead, fun j x hraised => ?_⟩
    rw [Config.move_thread] at hraised
    split_ifs at hraised with hj
    · exact hlast x hraised
    · exact (hi.raised j x hraised).trans hgrows

/-! ## The bound -/

theorem Mailbox.after_items (b : Mailbox) (x : Option (ConnId × ConnectionClosed)) :
    (b.after k x).items = b.items := by
  unfold Mailbox.after
  split
  · split_ifs <;> rfl
  · rfl

theorem Mailed.Move.bounded {e : Mailed.Act} {n : Nat} (h : l.Move text e l') (hk : l.Holds k)
    (hr : RegistryInv l.state) (hmax : l.state.peer.maxQueue = some n)
    (hle : (l.state.peer.mailbox k).items.length ≤ n) :
    (l'.state.peer.mailbox k).items.length ≤ n := by
  cases h with
  | peer e s hput hrecv h =>
    rw [Mailed.close_state]
    rcases (act_effect h).boxes (k := k) hput hrecv with ⟨hbox, -⟩ | ⟨-, -, hbox⟩
    · rw [hbox, Mailbox.after_items]
      exact hle
    · rw [hbox]
      split_ifs
      · exact Nat.zero_le n
      · exact hle
  | schedule c d d' hpump hschedule =>
    by_cases hkc : k = c
    · subst hkc
      have hpub := target_published hr (c := k) (by rw [hpump]; rfl)
      obtain ⟨d₁, -, -, hroom⟩ := hk.putting (by simp [hschedule])
      have hlt : (l.state.peer.mailbox k).items.length < n := by
        simpa [Mailbox.full, (hk.sized hpub.1).trans hmax] using hroom
      simpa [Peer.mailbox] using Nat.succ_le_of_lt hlt
    · simpa [Peer.mailbox, hkc] using hle
  | _ => exact hle

theorem MailTask.Move.bounded {t t' : MailTask} {n : Nat} (h : t.Move text i l l' t')
    (hle : (l.state.peer.mailbox k).items.length ≤ n) :
    (l'.state.peer.mailbox k).items.length ≤ n := by
  cases h with
  | call t t' x s h =>
    rw [Mailed.close_state, (Raknet.taskStep_move h).boxes, Mailbox.after_items]
    exact hle
  | returned c g ch m d h =>
    by_cases hkc : k = c
    · subst hkc
      have htail : (l.state.peer.mailbox k).items.tail.length ≤
          (l.state.peer.mailbox k).items.length := by simp
      simpa [Mailed.take, Peer.mailbox] using htail.trans hle
    · simpa [Mailed.take, Peer.mailbox, hkc] using hle
  | _ => exact hle

theorem reach_aioMaxQueue {ok : Aio → AioAction → Prop} {q : Option Nat} {t₀ : Int} {c : Aio}
    (h : Reach (aio text) ok (Aio.init q t₀) c) : c.shared.peer.maxQueue = q := by
  refine h.invariant (I := fun c => c.shared.peer.maxQueue = q) rfl ?_
  intro c a c' _ _ hs hi
  rcases System.step_cases hs with ⟨e, s, rfl, he, rfl⟩ | ⟨i, x, s, t, rfl, hx, rfl⟩
  · exact (act_effect he).maxQueue.trans hi
  · exact (taskStep_move hx).effect.created.2.trans hi

/-! ## The reason -/

theorem MailTask.Move.raised {t t' : MailTask} {exc : Option ConnectionClosed}
    (h : t.Move text i l l' t') (hk : l.Holds k) (ht : t' = .recv k (.raised exc)) :
    (∃ g, t = .recv k g) ∧ exc ≠ none ∧ l.state.registry.reason k = exc := by
  cases h with
  | call t t' x s h => cases ht
  | recv c hpub => cases ht
  | get c g g' ch m h hret =>
    cases ht
    exact ⟨⟨g, rfl⟩, hk.flow.get_raised h⟩
  | returned c g ch m d h => cases ht

theorem grows_mailed {q : Option Nat} {t₀ : Int} {a : Action Mailed.Act MailChoice}
    (h : Reach (mailed text) anyStep (AioMailed.init q t₀) c)
    (hs : (mailed text).step c a = some c') :
    Registry.Grows c.shared.state.registry c'.shared.state.registry := by
  obtain ⟨hi, haio⟩ := reach_mailed h
  obtain ⟨-, heq | ⟨b, hb⟩⟩ := step_mailed hs hi haio
  · have hstate : c'.shared.state = c.shared.state := congrArg Config.shared heq
    rw [hstate]
    exact .refl _
  · exact (step_aioRegistry haio hb).grows (reach_aioRegistry haio).1.inv

/-- A `recv` that has a payload in its hands has the event loop. -/
theorem MailTask.Move.holder {t t' : MailTask} {d : Bytes} (h : t.Move text i l l' t')
    (htaken : (l'.mails k).taken = some d) :
    t' = .recv k (.count d) ∨ (l.mails k).taken = some d ∧ ∀ g, t ≠ .recv k g := by
  cases h with
  | call t t' x s h =>
    rw [Mailed.close_mails, ((l.mails k).after_kept _).2.1] at htaken
    exact Or.inr ⟨htaken, by simp⟩
  | recv c hpub => exact Or.inr ⟨htaken, by simp⟩
  | get c g g' ch m h hret =>
    by_cases hk : k = c
    · subst hk
      rw [Mailed.write_mails, Function.update_self] at htaken
      rw [(MailState.getStep_move h).holder htaken]
      exact Or.inl rfl
    · rw [Mailed.write_mails_of_ne _ hk] at htaken
      exact Or.inr ⟨htaken, by simp [Ne.symm hk]⟩
  | returned c g ch m d' h =>
    by_cases hk : k = c
    · subst hk
      change (Function.update l.mails k m k).taken = some d at htaken
      rw [Function.update_self] at htaken
      have hcount := (MailState.getStep_move h).holder htaken
      cases hcount
    · change ((l.write c m).mails k).taken = some d at htaken
      rw [Mailed.write_mails_of_ne _ hk] at htaken
      exact Or.inr ⟨htaken, by simp [Ne.symm hk]⟩

/-- What holds of the Connection `k` throughout every run. -/
structure AioDeliveryInv (q : Option Nat) (c : AioMailed) (k : ConnId) : Prop where
  bounded : ∀ n, q = some n → (c.shared.state.peer.mailbox k).items.length ≤ n
  raised : ∀ i exc, c.thread i = .recv k (.raised exc) →
    exc ≠ none ∧ c.shared.state.registry.reason k = exc
  holder : ∀ d, (c.shared.mails k).taken = some d → ∃ i, c.thread i = .recv k (.count d)

theorem reach_aioDeliveryInv {q : Option Nat} {t₀ : Int}
    (h : Reach (mailed text) anyStep (AioMailed.init q t₀) c) (k : ConnId) :
    AioDeliveryInv q c k := by
  refine h.invariant (I := fun c => AioDeliveryInv q c k) ?_ ?_
  · exact ⟨fun n _ => Nat.zero_le n, by simp [AioMailed.init], by simp [AioMailed.init]⟩
  intro c a c' hr _ hs hi
  obtain ⟨hm, haio⟩ := reach_mailed hr
  have hgrows := grows_mailed hr hs
  have hkeep : ∀ i g exc, c.thread i = .recv k g → exc ≠ none →
      c.shared.state.registry.reason k = exc → c'.shared.state.registry.reason k = exc := by
    intro i g exc hg hne hreason
    obtain ⟨e, rfl⟩ := Option.ne_none_iff_exists'.mp hne
    exact hgrows.reason k e (hm.published i k g hg).1 hreason
  have hreg := (reach_aioRegistry haio).1
  have hmax := reach_aioMaxQueue haio
  rcases System.step_cases hs with ⟨e, l, rfl, he, rfl⟩ | ⟨i, x, l, t, rfl, hx, rfl⟩
  · have hmove := Mailed.act_move he
    refine ⟨fun n hn => hmove.bounded (hm.holds k) hreg (hmax.trans hn) (hi.bounded n hn),
      fun i exc hraised => ?_, fun d hd => hi.holder d ((hmove.taken k).symm.trans hd)⟩
    obtain ⟨hne, hreason⟩ := hi.raised i exc hraised
    exact ⟨hne, hkeep i _ exc hraised hne hreason⟩
  · have hmove := Mailed.taskStep_move hx
    refine ⟨fun n hn => hmove.bounded (hi.bounded n hn), fun j exc hraised => ?_, fun d hd => ?_⟩
    · rw [Config.move_thread] at hraised
      split_ifs at hraised with hj
      · obtain ⟨⟨g, hg⟩, hne, hreason⟩ := hmove.raised (hm.holds k) hraised
        exact ⟨hne, hkeep i g exc hg hne hreason⟩
      · obtain ⟨hne, hreason⟩ := hi.raised j exc hraised
        exact ⟨hne, hkeep j _ exc hraised hne hreason⟩
    · rcases hmove.holder hd with ht | ⟨htaken, hother⟩
      · exact ⟨i, by simp [ht]⟩
      · obtain ⟨j, hj⟩ := hi.holder d htaken
        have hji : j ≠ i := by
          rintro rfl
          exact hother _ hj
        exact ⟨j, by rw [Config.move_thread_of_ne _ _ hji]; exact hj⟩

/-! ## Runs -/

/-- What the tasks see of the Connection `k`. -/
structure AioDelivered (text : SystemAddress → String) (q : Option Nat) (c : AioMailed)
    (k : ConnId) : Prop where
  block : puts k c.shared.state.log <+:
    arrivals k (c.shared.state.peer.connection k).rawGuid c.shared.state.log
  listed : ∀ g, c.shared.state.peer.connections.get? g = some k →
    c.shared.state.pump ≠ .overflowPop k →
      arrivals k g c.shared.state.log =
        puts k c.shared.state.log ++ c.shared.state.pump.bringing g k
  queue : returns k c.shared.state.log ++ (c.shared.mails k).pending = puts k c.shared.state.log
  bounded : ∀ n, q = some n → (c.shared.mails k).pending.length ≤ n
  raised : ∀ i exc, c.thread i = .recv k (.raised exc) →
    exc ≠ none ∧ (c.shared.mails k).mailbox.reason = exc
  woken : ∀ i, c.thread i = .recv k .wait →
    (c.shared.mails k).pending ≠ [] ∨ (c.shared.mails k).mailbox.reason ≠ none →
      (c.shared.mails k).mailbox.scheduled ≠ [] ∨ (∃ j d, c.thread j = .recv k (.count d)) ∨
        ∃ c', (mailed text).step c (.thread i (.get .go)) = some c'

theorem getStep_wait {s : MailState} (htaken : s.taken = none) (hqueue : s.mailbox.queue ≠ []) :
    ∃ r, getStep .go s .wait = some r := by
  simp only [getStep, htaken]
  cases hq : s.mailbox.queue with
  | nil => exact absurd hq hqueue
  | cons x rest => cases x <;> exact ⟨_, rfl⟩

theorem recv_step {i : CallId} {g : GetTask} {ch : GetChoice} {r : MailState × GetTask}
    (hg : c.thread i = .recv k g) (hr : getStep ch (c.shared.mails k) g = some r) :
    ∃ c', (mailed text).step c (.thread i (.get ch)) = some c' := by
  simp [System.step, mailed, Mailed.taskStep, hg, hr]

theorem reach_aioDelivered {q : Option Nat} {t₀ : Int}
    (h : Reach (mailed text) anyStep (AioMailed.init q t₀) c) (k : ConnId) :
    AioDelivered text q c k := by
  obtain ⟨hm, haio⟩ := reach_mailed h
  have hflow := (hm.holds k).flow
  have hdelivery := reach_aioDelivery haio
  have hi := reach_aioDeliveryInv h k
  constructor
  case block => exact (List.prefix_append _ _).trans (hdelivery.block k)
  case listed => exact fun g => hdelivery.listed g k
  case queue =>
    rw [← hflow.items]
    exact hdelivery.queue k
  case bounded =>
    rw [← hflow.items]
    exact hi.bounded
  case raised =>
    intro i exc hraised
    obtain ⟨hne, hreason⟩ := hi.raised i exc hraised
    exact ⟨hne, hflow.reason.symm.trans hreason⟩
  case woken =>
    intro i hwait hsome
    by_cases hrun : (c.shared.mails k).mailbox.scheduled = []
    · right
      cases htaken : (c.shared.mails k).taken with
      | some d =>
        obtain ⟨j, hj⟩ := hi.holder d htaken
        exact Or.inl ⟨j, d, hj⟩
      | none =>
        obtain ⟨r, hr⟩ := getStep_wait htaken (hflow.ready hrun htaken hsome)
        exact Or.inr (recv_step hwait hr)
    · exact Or.inl hrun

/-- **End-to-end delivery on asyncio.** What was put into a mailbox are the first user packets of
its guid since the registration, and all of them as long as it has an entry and was not found full;
the `recv`s return it in order, and the rest is in the mailbox, which never holds more than its
bound; a `recv` that raises raises the first reason; a waiting `recv` can go on, or a callback or
another `recv` can, as long as there is a payload or a reason. And a `recv` raises only when
everything that was put ahead of the first `close` has been returned. -/
theorem aio_delivery {q : Option Nat} {t₀ : Int} {c₀ : AioMailed}
    (h₀ : Reach (mailed text) anyStep (AioMailed.init q t₀) c₀)
    (h : Reach (mailed text) anyStep c₀ c) (k : ConnId) :
    AioDelivered text q c k ∧
      ((c₀.shared.mails k).mailbox.reason = none → ∀ i exc, c.thread i = .recv k (.raised exc) →
        puts k c₀.shared.state.log <+: returns k c.shared.state.log) := by
  refine ⟨reach_aioDelivered (h₀.trans h) k, fun hopen => ?_⟩
  have hm := (reach_mailed h₀).1
  have hflow := (hm.holds k).flow
  have hdelivered := reach_aioDelivered h₀ k
  have hstart : AheadInv c₀ k (puts k c₀.shared.state.log) := by
    refine ⟨?_, fun i exc hraised => ?_⟩
    · rw [← hdelivered.queue, ← hflow.items]
      exact hflow.ahead (hflow.reason.trans hopen) _
    · obtain ⟨hne, hreason⟩ := hdelivered.raised i exc hraised
      exact absurd (hreason.symm.trans hopen) hne
  refine (h.invariant (I := fun c => AheadInv c k (puts k c₀.shared.state.log)) hstart ?_).raised
  intro c a c' hr _ hs hi
  exact hi.step (reach_mailed (h₀.trans hr)).1 hs

/-- A task closes the Connection while the pump is in `put`: the first payload is returned before a
`recv` raises, the second is never returned. -/
theorem aio_delivery_late :
    ∃ c₀ c, Reach (mailed SystemAddress.text) anyStep (AioMailed.init none 0) c₀ ∧
      Reach (mailed SystemAddress.text) anyStep c₀ c ∧
      puts 0 c₀.shared.state.log = [[0x86, 1]] ∧
      puts 0 c.shared.state.log = [[0x86, 1], [0x86, 2]] ∧
      c.thread 3 = .recv 0 (.raised (some (.ok "connection closed"))) ∧
      [[0x86, 1]] <+: returns 0 c.shared.state.log ∧ (c.shared.mails 0).pending = [[0x86, 2]] := by
  have h₀ : Reach (mailed SystemAddress.text) anyStep (AioMailed.init none 0) _ :=
    .of_exec (show (mailed SystemAddress.text).exec anyStep
      (mailRoutes ⟨⟨"10.0.0.1", 1⟩, 7, [19]⟩ 4 ++ mailRoutes ⟨⟨"10.0.0.1", 1⟩, 7, [0x86, 1]⟩ 5)
      (AioMailed.init none 0) = some _ from rfl)
  have hlate : ∀ {d c}, Reach (mailed SystemAddress.text) anyStep (AioMailed.init none 0) d →
      (mailed SystemAddress.text).exec anyStep
        (mailRoutes ⟨⟨"10.0.0.1", 1⟩, 7, [0x86, 2]⟩ 4 ++ mailCloses 1 0 ++
          .shared (.peer .pump) :: List.replicate 3 (.shared (.callback 0)) ++
          mailReceives 2 0 3 ++ mailReceives 3 0 2) d = some c →
      Reach (mailed SystemAddress.text) anyStep d c := fun _ => .of_exec
  have h := hlate h₀ rfl
  exact ⟨_, _, h₀, h, rfl, rfl, rfl, (aio_delivery h₀ h 0).2 rfl 3 _ rfl, rfl⟩

end Raknet
