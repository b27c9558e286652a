import Raknet.Lib.Clients
import Raknet.Sync.OneShot
import Raknet.Sync.Stuck
import Raknet.Termination

/-!
# `ping`

The one-shot `ping` makes one `Peer.ping` on a private Peer and closes the Peer in any case, before
it returns the pong or lets the exception through. It is a client of the calls of `sync text` that
makes two calls, and there is no other. The Peer accepts no incoming connections.

**Theorem (`ping_sound`).** When `ping` has ended it has ended as its `Peer.ping` did, and a pong
that it returns is the one the pump assigned. The Peer is closed, its tables are empty and it never
had a Connection; the closer is done, or the pump's `_fail` is closing. Until `ping` has ended, it,
the pump or the closer can take a step, unless its `Peer.ping` waits for its event.
-/

namespace Raknet

open Interleaving DefaultMessageIDTypes

/-! ## The calls of `ping` -/

/-- Where the code of `ping` is. -/
inductive PingPlace
  /-- there is no such thread -/
  | absent
  /-- in `peer.ping(address, timeout=timeout)` -/
  | ping
  /-- in `peer.close(0)`, after `peer.ping` came out so -/
  | close (o : Except Error Pong)
  /-- returned, or left by the exception -/
  | ended (o : Except Error Pong)
deriving DecidableEq, Repr

/-- How a `Peer.ping` came out. -/
def Call.pinged : Call → Option (Except Error Pong)
  | ping _ (.returned pong) => some (.ok pong)
  | ping _ (.raised e) => some (.error e)
  | _ => none

/-- What `ping` lets its call do at a place. -/
def PingPlace.allows (args : PingArgs) : PingPlace → CallStart ⊕ Choice → Bool
  | ping, .inl start => start = .ping args
  | ping, .inr _ => true
  | close _, .inl start => start = .closePeer
  | close _, .inr ch => ch = .go
  | _, _ => false

/-- The steps of `ping` between its calls. -/
def pingOnceStep : ℕ → Unit → Unit → PingPlace → Call → Option (Unit × PingPlace × Bool)
  | _, _, _, .ping, t => t.pinged.map fun o => ((), .close o, true)
  | _, _, _, .close o, .closedPeer => some ((), .ended o, false)
  | _, _, _, _, _ => none

/-- The code of `ping`. -/
def pingProgram (args : PingArgs) : Program Call (CallStart ⊕ Choice) Unit PingPlace Unit where
  allows := PingPlace.allows args
  own := pingOnceStep

/-- A `ping` and its private Peer. -/
abbrev PingOnce := Config (State × Unit) (Client PingPlace Call)

abbrev PingOnceAction := Action State.Act ((CallStart ⊕ Choice) ⊕ Unit)

/-- The pump and the closer of the private Peer, and `ping`. -/
def pingOnce (text : SystemAddress → String) (args : PingArgs) :
    System (State × Unit) (Client PingPlace Call) State.Act ((CallStart ⊕ Choice) ⊕ Unit) :=
  (sync text).clients (pingProgram args) .idle

/-- A `ping` whose Peer was just built. -/
def PingOnce.init (maxQueue : Option Nat) (clock : Int) : PingOnce :=
  ⟨(.init maxQueue clock, ()), fun i => ⟨if i = 0 then .ping else .absent, [], .idle⟩⟩

/-- RakNet reports no incoming connection. -/
def Unvisited (_ : PingOnce) : PingOnceAction → Prop
  | .shared (.received (.packet p)) => p.hasId newIncomingConnection = false
  | _ => True

instance Unvisited.decidable (c : PingOnce) (a : PingOnceAction) : Decidable (Unvisited c a) := by
  unfold Unvisited
  split <;> infer_instance

variable {text : SystemAddress → String} {args : PingArgs} {c c' : PingOnce} {q : Option Nat}
  {t₀ : Int} {s s' : State}

theorem PingOnce.init_calls (q : Option Nat) (t₀ : Int) :
    (PingOnce.init q t₀).calls .idle = Sync.init q t₀ :=
  Config.calls_init _ _ _

theorem reach_pingCalls {ok : PingOnce → PingOnceAction → Prop}
    (h : Reach (pingOnce text args) ok (PingOnce.init q t₀) c) :
    Reach (sync text) anyStep (Sync.init q t₀) (c.calls .idle) := by
  have hr := h.calls
  rwa [PingOnce.init_calls] at hr

/-! ## The private Peer -/

/-- The Peer has no Connection, and the pump makes none. -/
structure State.Lone (s : State) : Prop where
  incoming : s.pump.incoming = false
  building : s.pump.building = false
  table : ∀ k, s.peer.pendingConnects.get? k = none
  created : s.peer.created = 0
  connections : ∀ g, s.peer.connections.get? g = none

theorem lone_init (q : Option Nat) (t₀ : Int) : (State.init q t₀).Lone := by
  constructor <;> intros <;> rfl

theorem ActEffect.lone {e : State.Act} (h : ActEffect text s e s') (hi : s.Lone)
    (hpacket : ∀ p, e = .received (.packet p) → p.hasId newIncomingConnection = false) :
    s'.Lone := by
  have hincoming := h.incoming hi.incoming hpacket
  obtain ⟨hin, hbuild, htable, hcreated, hconns⟩ := hi
  cases h
  case drop h => exact ⟨hincoming, rfl, htable, hcreated, hconns⟩
  case route p h => exact ⟨hincoming, by simp, htable, hcreated, hconns⟩
  case incomingCreate h =>
    rw [h] at hin
    cases hin
  case succeededCreate h =>
    rw [h] at hbuild
    cases hbuild
  all_goals
    refine ⟨hincoming, ?_, ?_, ?_, ?_⟩ <;> grind -linarith [PumpPc.building, PumpPc.incoming]

theorem PingEffect.lone {i : CallId} {pc pc' : PingPc} (h : PingEffect text i args s pc s' pc')
    (hi : s.Lone) : s'.Lone := by
  cases h <;> exact ⟨hi.incoming, hi.building, hi.table, hi.created, hi.connections⟩

theorem State.Lone.beginClose (hi : s.Lone) : (s.beginClose .joining).Lone :=
  ⟨hi.incoming, hi.building, by simp, hi.created, by simp⟩

/-! ## The two calls -/

/-- The closer of a closed Peer is done, or the failing pump runs it. -/
def State.Handled (s : State) : Prop :=
  s.peer.closed = true → s.pump = .failing ∨ s.teardown = .done

/-- What the latest call of `ping` asserts. Until `ping` closes the Peer, only the failing pump
does. -/
def PingPlace.Asserts (args : PingArgs) (s : State) (past : List Call) (t : Call) :
    PingPlace → Prop
  | absent => False
  | ping => past = [] ∧ (t = .idle ∨ ∃ pc, t = .ping args pc) ∧ s.Handled
  | close o => (∃ u, past = [u] ∧ u.pinged = some o) ∧
      ((t = .idle ∨ t = .closePeer .begin) ∧ s.Handled ∨
        t = .closePeer .closing ∧ s.peer.closed = true ∨
        t = .closedPeer ∧ s.peer.closed = true ∧ s.Handled)
  | ended o => (∃ u, past = [u] ∧ u.pinged = some o) ∧ s.peer.closed = true ∧ s.Handled

/-- What holds of a `ping` and its Peer. -/
structure PingOnce.Inv (args : PingArgs) (c : PingOnce) : Prop where
  lone : c.shared.1.Lone
  absent : ∀ i, i ≠ 0 → (c.thread i).place = .absent
  place : (c.thread 0).place.Asserts args c.shared.1 (c.thread 0).past (c.thread 0).call

theorem PingPlace.Asserts.keep {past : List Call} {t : Call} {p : PingPlace}
    (h : p.Asserts args s past t) (hclosed : s.peer.closed = true → s'.peer.closed = true)
    (hhandled : s.Handled → s'.Handled) : p.Asserts args s' past t := by
  cases p with
  | absent => exact h
  | ping => exact ⟨h.1, h.2.1, hhandled h.2.2⟩
  | close o =>
    refine ⟨h.1, h.2.imp ?_ (Or.imp ?_ ?_)⟩
    · exact And.imp_right hhandled
    · exact And.imp_right hclosed
    · exact And.imp_right (And.imp hclosed hhandled)
  | ended o => exact ⟨h.1, hclosed h.2.1, hhandled h.2.2⟩

theorem PingEffect.handled {i : CallId} {pc pc' : PingPc} (h : PingEffect text i args s pc s' pc')
    (hi : s.Handled) : s'.Handled := by
  cases h <;> exact hi

/-- A step of the latest call. -/
theorem PingPlace.Asserts.step {n : CallId} {past : List Call} {t t' : Call} {p : PingPlace}
    {a : CallStart ⊕ Choice} (h : p.Asserts args s past t) (hallow : p.allows args a = true)
    (hs : callStep text n a s t = some (s', t')) (hlone : s.Lone) :
    p.Asserts args s' past t' ∧ s'.Lone := by
  cases p with
  | absent => exact h.elim
  | ended o => cases a <;> cases hallow
  | ping =>
    obtain ⟨hpast, hcall, hhandled⟩ := h
    rcases hcall with rfl | ⟨pc, rfl⟩
    · cases a with
      | inl start =>
        obtain rfl : start = .ping args := of_decide_eq_true hallow
        cases hs
        exact ⟨⟨hpast, Or.inr ⟨_, rfl⟩, hhandled⟩, hlone⟩
      | inr ch => cases hs
    · cases callStep_move hs with
      | ping args pc pc' s' h =>
        exact ⟨⟨hpast, Or.inr ⟨_, rfl⟩, h.handled hhandled⟩, h.lone hlone⟩
  | close o =>
    obtain ⟨hpast, ⟨rfl | rfl, hhandled⟩ | ⟨rfl, hclosed⟩ | ⟨rfl, -⟩⟩ := h
    · cases a with
      | inl start =>
        obtain rfl : start = .closePeer := of_decide_eq_true hallow
        cases hs
        exact ⟨⟨hpast, Or.inl ⟨Or.inr rfl, hhandled⟩⟩, hlone⟩
      | inr ch => cases hs
    · cases callStep_move hs with
      | closeLost hclosed =>
        exact ⟨⟨hpast, Or.inr (Or.inr ⟨rfl, hclosed, hhandled⟩)⟩, hlone⟩
      | closeBegin hopen =>
        exact ⟨⟨hpast, Or.inr (Or.inl ⟨rfl, rfl⟩)⟩, hlone.beginClose⟩
    · cases callStep_move hs with
      | closeDone hdone =>
        exact ⟨⟨hpast, Or.inr (Or.inr ⟨rfl, hclosed, fun _ => Or.inr hdone⟩)⟩, hlone⟩
    · cases callStep_move hs

/-- A step of `ping` itself. -/
theorem PingPlace.Asserts.own {i : ℕ} {past : List Call} {t : Call} {p p' : PingPlace} {more : Bool}
    (h : p.Asserts args s past t) (hs : pingOnceStep i () () p t = some ((), p', more)) :
    p'.Asserts args s (if more then past ++ [t] else past) (if more then .idle else t) := by
  unfold pingOnceStep at hs
  split at hs
  · obtain ⟨o, ho, heq⟩ := Option.map_eq_some_iff.mp hs
    cases heq
    obtain ⟨rfl, -, hhandled⟩ := h
    exact ⟨⟨_, rfl, ho⟩, Or.inl ⟨Or.inl rfl, hhandled⟩⟩
  · next o =>
    cases hs
    obtain ⟨hpast, ⟨h | h, -⟩ | ⟨h, -⟩ | ⟨-, hclosed, hhandled⟩⟩ := h
    · cases h
    · cases h
    · cases h
    · exact ⟨hpast, hclosed, hhandled⟩
  · cases hs

theorem reach_pingInv (h : Reach (pingOnce text args) Unvisited (PingOnce.init q t₀) c) :
    c.Inv args := by
  refine h.invariant ⟨lone_init q t₀, fun i hi => by simp [PingOnce.init, hi],
    ⟨rfl, Or.inl rfl, fun hclosed => by cases hclosed⟩⟩ ?_
  intro c a c' hr hok hs hi
  have hsd := reach_shutdownInv (reach_pingCalls hr)
  rcases System.step_cases hs with ⟨e, s, rfl, he, rfl⟩ | ⟨i, x, s, t, rfl, hx, rfl⟩
  · obtain ⟨s, hact, rfl⟩ := Option.map_eq_some_iff.mp he
    have heff := act_effect hact
    refine ⟨heff.lone hi.lone ?_, hi.absent, hi.place.keep heff.closed_kept ?_⟩
    · rintro p rfl
      exact hok
    · exact fun hhandled => heff.failingOrDone hsd hhandled
  · by_cases h0 : i = 0
    · subst h0
      rcases clients_cases hx with
        ⟨a, r, rfl, hallow, hcall, -, rfl⟩ | ⟨b, w, p, more, rfl, hown, rfl, rfl⟩
      · obtain ⟨hplace, hlone⟩ := hi.place.step hallow hcall hi.lone
        refine ⟨hlone, fun j hj => ?_, ?_⟩
        · rw [Config.move_thread_of_ne _ _ hj]
          exact hi.absent j hj
        · rw [Config.move_thread_self]
          exact hplace
      · refine ⟨hi.lone, fun j hj => ?_, ?_⟩
        · rw [Config.move_thread_of_ne _ _ hj]
          exact hi.absent j hj
        · rw [Config.move_thread_self]
          have hplace := hi.place.own hown
          cases more <;> exact hplace
    · have habsent := hi.absent i h0
      rcases clients_cases hx with
        ⟨a, r, rfl, hallow, -, -, -⟩ | ⟨b, w, p, more, rfl, hown, -, -⟩
      · rw [habsent] at hallow
        cases a <;> cases hallow
      · rw [habsent] at hown
        cases hown

/-! ## Whole runs -/

theorem Call.eq_of_pinged {t : Call} {pong : Pong} (h : t.pinged = some (.ok pong)) :
    ∃ args, t = .ping args (.returned pong) := by
  unfold Call.pinged at h
  split at h <;> cases h
  exact ⟨_, rfl⟩

theorem PingPlace.Asserts.closed {past : List Call} {t : Call} {p : PingPlace}
    (h : p.Asserts args s past t) (ht : t = .closePeer .closing) : s.peer.closed = true := by
  cases p with
  | absent => exact h.elim
  | ping =>
    obtain ⟨-, hcall | ⟨pc, hcall⟩, -⟩ := h <;> rw [ht] at hcall <;> cases hcall
  | close o =>
    obtain ⟨-, ⟨hcall | hcall, -⟩ | ⟨-, hclosed⟩ | ⟨-, hclosed, -⟩⟩ := h
    · rw [ht] at hcall
      cases hcall
    · rw [ht] at hcall
      cases hcall
    · exact hclosed
    · exact hclosed
  | ended o => exact h.2.1

/-- Only the `Peer.ping` waits. -/
theorem PingPlace.Asserts.waits {past : List Call} {t : Call} {p : PingPlace}
    (h : p.Asserts args s past t) (hp : ∀ o, p ≠ .ended o)
    (hwaits : t.Waits s (Nat.pair 0 past.length)) :
    ∃ a, t = .ping args (.wait a) ∧ (s.peer.pendingPing 0).event = false := by
  cases p with
  | absent => exact h.elim
  | ended o => exact absurd rfl (hp o)
  | ping =>
    obtain ⟨rfl, rfl | ⟨pc, rfl⟩, -⟩ := h
    · exact hwaits.elim
    · cases pc with
      | wait a => exact ⟨a, rfl, hwaits⟩
      | _ => exact hwaits.elim
  | close o =>
    obtain ⟨-, ⟨rfl | rfl, -⟩ | ⟨rfl, -⟩ | ⟨rfl, -⟩⟩ := h <;> exact hwaits.elim

variable (text) in
/-- The latest call can take a step, or `ping` itself, unless the call waits. -/
theorem PingPlace.Asserts.enabled {past : List Call} {t : Call} {p : PingPlace} {n : CallId}
    (h : p.Asserts args s past t) (hended : ∀ o, p ≠ .ended o) (hwaits : ¬ t.Waits s n)
    (hclosing : t = .closePeer .closing → s.teardown = .done) :
    (∃ a r, a ≠ .inr .timeout ∧ p.allows args a = true ∧ callStep text n a s t = some r) ∨
      ∃ r, pingOnceStep 0 () () p t = some r := by
  cases p with
  | absent => exact h.elim
  | ended o => exact absurd rfl (hended o)
  | ping =>
    obtain ⟨-, rfl | ⟨pc, rfl⟩, -⟩ := h
    · exact Or.inl ⟨.inl (.ping args), _, by simp, by simp [PingPlace.allows], rfl⟩
    · by_cases hlive : 0 < pc.rank
      · obtain ⟨ch, r, hch, hr⟩ := exists_pingStep text args hlive hwaits
        exact Or.inl ⟨.inr ch, _, by simpa using hch, rfl, by simp [callStep, hr]; rfl⟩
      · right
        cases pc with
        | returned pong | raised e => exact ⟨_, rfl⟩
        | start q => cases q <;> simp [PingPc.rank] at hlive
        | _ => simp [PingPc.rank] at hlive
  | close o =>
    obtain ⟨-, ⟨rfl | rfl, -⟩ | ⟨rfl, -⟩ | ⟨rfl, -⟩⟩ := h
    · exact Or.inl ⟨.inl .closePeer, _, by simp, by simp [PingPlace.allows], rfl⟩
    · left
      by_cases hclosed : s.peer.closed = true
      · exact ⟨.inr .go, _, by simp, rfl, by simp [callStep, closePeerStep, hclosed]; rfl⟩
      · exact ⟨.inr .go, _, by simp, rfl, by simp [callStep, closePeerStep, hclosed]; rfl⟩
    · have hdone := hclosing rfl
      exact Or.inl ⟨.inr .go, _, by simp, rfl, by simp [callStep, closePeerStep, hdone]; rfl⟩
    · exact Or.inr ⟨_, rfl⟩

/-- Until `ping` has ended, it, the pump or the closer can take a step, unless its `Peer.ping`
waits. -/
theorem ping_enabled (h : Reach (pingOnce text args) Unvisited (PingOnce.init q t₀) c)
    (hended : ∀ o, (c.thread 0).place ≠ .ended o)
    (hwaits : ¬ (c.thread 0).call.Waits c.shared.1 (Nat.pair 0 (c.thread 0).past.length)) :
    (∃ x c', x ≠ .inl (.inr .timeout) ∧
      (pingOnce text args).step c (.thread 0 x) = some c') ∨
    ∃ e c', e.works = true ∧ (pingOnce text args).step c (.shared e) = some c' := by
  have hplace := (reach_pingInv h).place
  have hr := reach_pingCalls h
  by_cases hwork : (c.thread 0).call = .closePeer .closing ∧ c.shared.1.teardown ≠ .done
  · obtain ⟨hclosing, hdone⟩ := hwork
    obtain ⟨e, s, hworks, hs⟩ := exists_work text (reach_shutdownInv hr) (hplace.closed hclosing)
      (reach_uncancelled hr) hdone
    obtain ⟨c', hc'⟩ : ∃ c', (pingOnce text args).step c (.shared e) = some c' := clients_shared hs
    exact Or.inr ⟨e, c', hworks, hc'⟩
  · left
    have hclosing : (c.thread 0).call = .closePeer .closing → c.shared.1.teardown = .done := by
      intro hc
      by_contra hdone
      exact hwork ⟨hc, hdone⟩
    rcases hplace.enabled text hended hwaits hclosing with ⟨a, r, ha, hallow, hs⟩ | ⟨r, hown⟩
    · obtain ⟨c', hc'⟩ : ∃ c', (pingOnce text args).step c (.thread 0 (.inl a)) = some c' :=
        clients_call hallow hs
      exact ⟨.inl a, c', by simpa using ha, hc'⟩
    · obtain ⟨c', hc'⟩ : ∃ c', (pingOnce text args).step c (.thread 0 (.inr ())) = some c' :=
        clients_own hown
      exact ⟨.inr (), c', by simp, hc'⟩

/-- **The one-shot `ping`.** When it has ended it has ended as its `Peer.ping` did, with the pong
that the pump assigned; the Peer is closed, its tables are empty and it never had a Connection; and
the closer is done, or the pump's `_fail` is closing. Before that it, the pump or the closer can
take a step, unless its `Peer.ping` waits for its event. -/
theorem ping_sound (h : Reach (pingOnce text args) Unvisited (PingOnce.init q t₀) c) :
    (∀ o, (c.thread 0).place = .ended o →
      ((c.calls .idle).thread 0).pinged = some o ∧
      (∀ pong, o = .ok pong → (c.shared.1.peer.pendingPing 0).pong = some pong) ∧
      c.shared.1.peer.closed = true ∧ c.shared.1.peer.created = 0 ∧
      (∀ g, c.shared.1.peer.connections.get? g = none) ∧
      (∀ k, c.shared.1.peer.pendingConnects.get? k = none) ∧
      (∀ k, c.shared.1.peer.pendingPings.get? k = none) ∧
      (c.shared.1.pump = .failing ∨ c.shared.1.teardown = .done)) ∧
    ((∃ o, (c.thread 0).place = .ended o) ∨
      (∃ a, (c.thread 0).call = .ping args (.wait a) ∧
        (c.shared.1.peer.pendingPing 0).event = false) ∨
      (∃ x c', x ≠ .inl (.inr .timeout) ∧
        (pingOnce text args).step c (.thread 0 x) = some c') ∨
      ∃ e c', e.works = true ∧ (pingOnce text args).step c (.shared e) = some c') := by
  obtain ⟨hlone, -, hplace⟩ := reach_pingInv h
  have hr := reach_pingCalls h
  have hsd := reach_shutdownInv hr
  constructor
  · intro o ho
    rw [ho] at hplace
    obtain ⟨⟨u, hpast, hu⟩, hclosed, hhandled⟩ := hplace
    have hcall : (c.calls .idle).thread 0 = u := by
      show (c.thread 0).nth .idle 0 = u
      simp [Client.nth, hpast]
    refine ⟨hcall ▸ hu, fun pong hpong => ?_, hclosed, hlone.created, hlone.connections,
      hsd.connects hclosed, hsd.pings hclosed, hhandled hclosed⟩
    subst hpong
    obtain ⟨args', rfl⟩ := Call.eq_of_pinged hu
    have hholds := (reach_holds hr).2 0
    rw [hcall] at hholds
    exact hholds.2
  · by_cases hended : ∃ o, (c.thread 0).place = .ended o
    · exact Or.inl hended
    have hnot : ∀ o, (c.thread 0).place ≠ .ended o := fun o ho => hended ⟨o, ho⟩
    by_cases hwaits : (c.thread 0).call.Waits c.shared.1 (Nat.pair 0 (c.thread 0).past.length)
    · exact Or.inr (Or.inl (hplace.waits hnot hwaits))
    · exact Or.inr (Or.inr (ping_enabled h hnot hwaits))

/-- The ping is answered, and `ping` closes its Peer. -/
theorem ping_sound_answered :
    ∃ c, Reach (pingOnce SystemAddress.text ⟨"h", 1⟩) Unvisited (PingOnce.init none 0) c ∧
      (c.thread 0).place = .ended (.ok ⟨⟨"10.0.0.1", 1⟩, 7, [2], 3⟩) ∧
      c.shared.1.peer.closed = true ∧ c.shared.1.teardown = .done := by
  have hr := Reach.of_exec (show (pingOnce SystemAddress.text ⟨"h", 1⟩).exec Unvisited
    ([.thread 0 (.inl (.inl (.ping ⟨"h", 1⟩))), .thread 0 (.inl (.inr .go)),
      .thread 0 (.inl (.inr (.resolved (some "10.0.0.1")))), .thread 0 (.inl (.inr .go)),
      .thread 0 (.inl (.inr (.pingResult true))), .shared (.tick 3), .shared .pump,
      .shared (.received (.packet ⟨⟨"10.0.0.1", 1⟩, 7, [28, 0, 0, 0, 0, 2]⟩))] ++
      List.replicate 4 (.shared .pump) ++ List.replicate 2 (.thread 0 (.inl (.inr .go))) ++
      [.thread 0 (.inr ()), .thread 0 (.inl (.inl .closePeer)), .thread 0 (.inl (.inr .go)),
        .shared .pump] ++
      List.replicate 6 (.shared .closer) ++ [.thread 0 (.inl (.inr .go)), .thread 0 (.inr ())])
    (PingOnce.init none 0) = some _ from rfl)
  obtain ⟨-, -, hclosed, -⟩ := (ping_sound hr).1 _ rfl
  exact ⟨_, hr, rfl, hclosed, rfl⟩

end Raknet
