import Raknet.Lib.Custody
import Raknet.Sync.Dialing

/-!
# A sync Peer on its transport

RakNet as the Peer sees it: connection attempts in progress, live guids with their addresses, and
the FIFO of packets that `raw.receive` reads. An attempt may at any moment turn into a live guid or
fail, and a live guid may be lost or disconnected, each with its packet. `raw.connect` starts an
attempt, `raw.cancel_connection_attempt` removes it while it is in progress, and
`raw.close_connection` removes the guid. The Peer accepts no incoming connections.

`linked text` is the system of `Raknet.Calls` with this transport below it: the pump receives what
the FIFO holds, and the calls of the binding, which the history records, take effect on it.

**Theorem (`reach_sync`).** A run on the transport is a run of the sync Peer.
-/

namespace Raknet

open Interleaving DefaultMessageIDTypes

/-! ## The transport -/

/-- What RakNet says with a packet about an attempt or a guid. -/
def Packet.report (p : Packet) : Option (Custody.Report SystemAddress Guid) :=
  if p.hasId connectionRequestAccepted then some (.accepted p.systemAddress p.guid)
  else if connectFailures.any p.hasId then some (.failed p.systemAddress)
  else if p.hasId disconnectionNotification || p.hasId connectionLost then some (.ended p.guid)
  else none

/-- The state of RakNet. -/
structure Net where
  attempts : List SystemAddress
  live : Dict Guid SystemAddress
  fifo : List Packet

namespace Net

/-- Nothing was started. -/
def init : Net := ⟨[], .empty, []⟩

/-- The attempt is no longer in progress. -/
def settle (n : Net) (a : SystemAddress) : Net := { n with attempts := n.attempts.filter (· ≠ a) }

/-- A guid is live at the address. -/
def connected (n : Net) (a : SystemAddress) : Bool := a ∈ n.live.values

/-- RakNet does what the packet reports, and queues it. -/
def report (n : Net) (p : Packet) : Option Net :=
  if p.hasId newIncomingConnection then none
  else match p.report with
    | some (.accepted a g) =>
      if a ∈ n.attempts ∧ n.live.get? g = none then
        some { n.settle a with live := n.live.set g a, fifo := n.fifo ++ [p] }
      else none
    | some (.failed a) =>
      if a ∈ n.attempts then some { n.settle a with fifo := n.fifo ++ [p] } else none
    | some (.ended g) =>
      if n.live.get? g = none then none
      else some { n with live := n.live.erase g, fifo := n.fifo ++ [p] }
    | none => some { n with fifo := n.fifo ++ [p] }

/-- `raw.connect` answers `r`. -/
def connect (n : Net) (a : SystemAddress) : ConnectionAttemptResult → Option Net
  | .connectionAttemptStarted =>
    if a ∈ n.attempts ∨ n.connected a then none else some { n with attempts := a :: n.attempts }
  | .alreadyConnectedToEndpoint => if n.connected a then some n else none
  | .connectionAttemptAlreadyInProgress => if a ∈ n.attempts then some n else none
  | _ => some n

/-- `raw.close_connection` and `raw.cancel_connection_attempt`. -/
def hear (n : Net) : Event → Net
  | .rawClose g _ => { n with live := n.live.erase g }
  | .rawCancel a => n.settle a
  | _ => n

/-- The calls of the binding that a step of the Peer adds to its history take effect. -/
def follow (n : Net) (s s' : State) : Net := (s'.log.drop s.log.length).foldl hear n

/-- What an action of the Peer takes out of the FIFO. -/
def receive (n : Net) : State.Act → Option Net
  | .received .nothing => if n.fifo = [] then some n else none
  | .received (.packet p) =>
    match n.fifo with
    | [] => none
    | q :: rest => if q = p then some { n with fifo := rest } else none
  | _ => some n

/-- The answer that a step of a call brings. -/
def answer (n : Net) : CallStart ⊕ Choice → Call → Option Net
  | .inr (.connectResult r), .connect _ (.start (.rawConnect a)) => n.connect a r
  | _, _ => some n

end Net

/-! ## The system -/

/-- The shared state of a Peer's threads, and its transport. -/
structure Linked where
  state : State
  net : Net

namespace Linked

/-- Who moves besides the calls: the threads of the Peer, or the transport, which queues a
packet. -/
inductive Act
  | own (e : State.Act)
  | report (p : Packet)
deriving DecidableEq, Repr

section

variable (text : SystemAddress → String)

/-- One action on the shared state and the transport. -/
def act : Act → Linked → Option Linked
  | .own e, l =>
    (l.net.receive e).bind fun n => (State.act text e l.state).map fun s =>
      ⟨s, n.follow l.state s⟩
  | .report p, l => (l.net.report p).map fun n => ⟨l.state, n⟩

/-- One step of call `i`. -/
def callStep (i : CallId) (x : CallStart ⊕ Choice) (l : Linked) (t : Call) :
    Option (Linked × Call) :=
  (l.net.answer x t).bind fun n => (Raknet.callStep text i x l.state t).map fun (s, t') =>
    (⟨s, n.follow l.state s⟩, t')

end

/-- A Peer whose pump was just started, and a transport that has done nothing. -/
def init (maxQueue : Option Nat) (clock : Int) : Config Linked Call :=
  ⟨⟨.init maxQueue clock, .init⟩, fun _ => .idle⟩

end Linked

/-- A sync Peer on its transport. -/
def linked (text : SystemAddress → String) :
    System Linked Call Linked.Act (CallStart ⊕ Choice) where
  shared := Linked.act text
  thread := Linked.callStep text

/-- The Peer without its transport. -/
def Linked.sync (c : Config Linked Call) : Sync := ⟨c.shared.state, c.thread⟩

/-- Calls connect to pairwise distinct addresses. -/
def Distinct (c : Config Linked Call) : Action Linked.Act (CallStart ⊕ Choice) → Prop
  | .thread i _ => ¬ (c.thread i).Redials c.shared.state
  | .shared _ => True

/-- A call that timed out and took its entry back cancels the attempt before it turns into a live
guid. -/
def InTime (c : Config Linked Call) : Action Linked.Act (CallStart ⊕ Choice) → Prop
  | .thread i _ =>
    match c.thread i with
    | .connect _ (.abandon a .cancel) => c.shared.net.connected a = false
    | _ => True
  | .shared _ => True

/-- Calls connect to pairwise distinct addresses, and cancel in time. -/
def Careful (c : Config Linked Call) (a : Action Linked.Act (CallStart ⊕ Choice)) : Prop :=
  Distinct c a ∧ InTime c a

instance (c : Config Linked Call) (a : Action Linked.Act (CallStart ⊕ Choice)) :
    Decidable (Distinct c a) := by
  unfold Distinct
  split <;> infer_instance

instance (c : Config Linked Call) (a : Action Linked.Act (CallStart ⊕ Choice)) :
    Decidable (InTime c a) := by
  unfold InTime
  split
  · split <;> infer_instance
  · infer_instance

instance (c : Config Linked Call) (a : Action Linked.Act (CallStart ⊕ Choice)) :
    Decidable (Careful c a) :=
  inferInstanceAs (Decidable (_ ∧ _))

variable {text : SystemAddress → String} {n n' : Net} {s s' : State}

/-! ## Steps -/

theorem Linked.act_cases {l l' : Linked} {e : Linked.Act} (h : Linked.act text e l = some l') :
    (∃ p n, e = .report p ∧ l.net.report p = some n ∧ l' = ⟨l.state, n⟩) ∨
      ∃ b n s, e = .own b ∧ l.net.receive b = some n ∧ State.act text b l.state = some s ∧
        l' = ⟨s, n.follow l.state s⟩ := by
  cases e with
  | report p =>
    obtain ⟨n, hn, rfl⟩ := Option.map_eq_some_iff.mp h
    exact Or.inl ⟨p, n, rfl, hn, rfl⟩
  | own b =>
    obtain ⟨n, hn, h⟩ := Option.bind_eq_some_iff.mp h
    obtain ⟨s, hs, rfl⟩ := Option.map_eq_some_iff.mp h
    exact Or.inr ⟨b, n, s, rfl, hn, hs, rfl⟩

theorem Linked.callStep_cases {l l' : Linked} {i : CallId} {x : CallStart ⊕ Choice} {t t' : Call}
    (h : Linked.callStep text i x l t = some (l', t')) :
    ∃ n s, l.net.answer x t = some n ∧ Raknet.callStep text i x l.state t = some (s, t') ∧
      l' = ⟨s, n.follow l.state s⟩ := by
  obtain ⟨n, hn, h⟩ := Option.bind_eq_some_iff.mp h
  obtain ⟨⟨s, u⟩, hs, hu⟩ := Option.map_eq_some_iff.mp h
  cases hu
  exact ⟨n, s, hn, hs, rfl⟩

theorem follow_eq (h : s'.log = s.log) : n.follow s s' = n := by
  simp [Net.follow, h]

theorem follow_emit {e : Event} (h : s'.log = s.log ++ [e]) : n.follow s s' = n.hear e := by
  simp [Net.follow, h]

theorem follow_idle {e : Event} (h : s'.log = s.log ++ [e]) (he : n.hear e = n) :
    n.follow s s' = n :=
  (follow_emit h).trans he

/-- The FIFO holds no report of an incoming connection. -/
def Net.Outgoing (n : Net) : Prop := ∀ p ∈ n.fifo, p.hasId newIncomingConnection = false

theorem outgoing_follow (h : n.Outgoing) : (n.follow s s').Outgoing := by
  unfold Net.follow
  generalize s'.log.drop s.log.length = l
  induction l generalizing n with
  | nil => exact h
  | cons e l ih => exact ih (by cases e <;> exact h)

theorem Net.report_outgoing {p : Packet} (h : n.report p = some n') (hn : n.Outgoing) :
    n'.Outgoing := by
  unfold Net.report at h
  split_ifs at h with hin
  have hnew : ∀ q ∈ n.fifo ++ [p], q.hasId newIncomingConnection = false := by
    intro q hq
    rcases List.mem_append.mp hq with hq | hq
    · exact hn q hq
    · rw [List.mem_singleton.mp hq]
      simpa using hin
  split at h <;> try split_ifs at h
  all_goals
    cases h
    exact hnew

theorem Net.receive_cases {e : State.Act} (h : n.receive e = some n') :
    n' = n ∧ (∀ p, e ≠ .received (.packet p)) ∨
      ∃ p, e = .received (.packet p) ∧ n = { n' with fifo := p :: n'.fifo } := by
  cases e with
  | received r =>
    cases r with
    | nothing =>
      simp only [Net.receive] at h
      split_ifs at h
      cases h
      exact Or.inl ⟨rfl, by simp⟩
    | packet p =>
      simp only [Net.receive] at h
      split at h
      · cases h
      · next q rest hfifo =>
        split_ifs at h with hq
        cases h
        exact Or.inr ⟨p, rfl, by rw [← hq, ← hfifo]⟩
    | raises d =>
      cases h
      exact Or.inl ⟨rfl, by simp⟩
  | _ =>
    cases h
    exact Or.inl ⟨rfl, by simp⟩

theorem Net.connect_cases {a : SystemAddress} {r : ConnectionAttemptResult}
    (h : n.connect a r = some n') :
    r = .connectionAttemptStarted ∧ a ∉ n.attempts ∧ n' = { n with attempts := a :: n.attempts } ∨
      r ≠ .connectionAttemptStarted ∧ n' = n := by
  cases r with
  | connectionAttemptStarted =>
    simp only [Net.connect] at h
    split_ifs at h with hfree
    cases h
    exact Or.inl ⟨rfl, fun ha => hfree (Or.inl ha), rfl⟩
  | alreadyConnectedToEndpoint | connectionAttemptAlreadyInProgress =>
    simp only [Net.connect] at h
    split_ifs at h
    cases h
    exact Or.inr ⟨by simp, rfl⟩
  | _ =>
    cases h
    exact Or.inr ⟨by simp, rfl⟩

/-- The answer matters to `raw.connect` alone. -/
theorem Net.answer_cases {x : CallStart ⊕ Choice} {t : Call} (h : n.answer x t = some n') :
    n' = n ∨ ∃ args a, x = .inr (.connectResult .connectionAttemptStarted) ∧
      t = .connect args (.start (.rawConnect a)) ∧ n' = { n with attempts := a :: n.attempts } := by
  unfold Net.answer at h
  split at h
  · next r args a =>
    rcases Net.connect_cases h with ⟨rfl, -, rfl⟩ | ⟨-, rfl⟩
    · exact Or.inr ⟨args, a, rfl, rfl, rfl⟩
    · exact Or.inl rfl
  · cases h
    exact Or.inl rfl

theorem Net.answer_outgoing {x : CallStart ⊕ Choice} {t : Call} (h : n.answer x t = some n')
    (hn : n.Outgoing) : n'.Outgoing := by
  rcases Net.answer_cases h with rfl | ⟨args, a, -, -, rfl⟩ <;> exact hn

/-! ## Runs -/

theorem reach_outgoing {ok : Config Linked Call → Action Linked.Act (CallStart ⊕ Choice) → Prop}
    {c : Config Linked Call} {q : Option Nat} {t₀ : Int}
    (h : Reach (linked text) ok (Linked.init q t₀) c) : c.shared.net.Outgoing := by
  refine h.invariant (I := fun c => c.shared.net.Outgoing) (fun p hp => by cases hp) ?_
  intro c a c' _ _ hs hi
  rcases System.step_cases hs with ⟨e, l, rfl, he, rfl⟩ | ⟨i, x, l, t, rfl, hx, rfl⟩
  · rcases Linked.act_cases he with ⟨p, n, rfl, hn, rfl⟩ | ⟨b, n, s, rfl, hn, -, rfl⟩
    · exact Net.report_outgoing hn hi
    · refine outgoing_follow ?_
      rcases Net.receive_cases hn with ⟨rfl, -⟩ | ⟨p, -, hfifo⟩
      · exact hi
      · rw [hfifo] at hi
        exact fun r hr => hi r (List.mem_cons_of_mem _ hr)
  · obtain ⟨n, s, hn, -, rfl⟩ := Linked.callStep_cases hx
    exact outgoing_follow (Net.answer_outgoing hn hi)

/-- A run on the transport is a run of the Peer, to which no incoming connection is reported. -/
theorem reach_sync {ok : Config Linked Call → Action Linked.Act (CallStart ⊕ Choice) → Prop}
    (hok : ∀ c a, ok c a → Distinct c a) {c : Config Linked Call} {q : Option Nat} {t₀ : Int}
    (h : Reach (linked text) ok (Linked.init q t₀) c) :
    Reach (sync text) Dialing (Sync.init q t₀) (Linked.sync c) := by
  refine h.map Linked.sync ?_
  intro c a c' hr ha hs
  rcases System.step_cases hs with ⟨e, l, rfl, he, rfl⟩ | ⟨i, x, l, t, rfl, hx, rfl⟩
  · rcases Linked.act_cases he with ⟨p, n, rfl, hn, rfl⟩ | ⟨b, n, s, rfl, hn, hb, rfl⟩
    · exact Or.inl rfl
    · refine Or.inr ⟨.shared b, ?_, by simp [System.step, sync, Linked.sync, hb]⟩
      rcases Net.receive_cases hn with ⟨rfl, hne⟩ | ⟨p, rfl, hfifo⟩
      · unfold Dialing
        split
        · next p heq =>
          cases heq
          exact absurd rfl (hne p)
        · next heq => cases heq
        · trivial
      · exact reach_outgoing hr p (by simp [hfifo])
  · obtain ⟨n, s, hn, hcall, rfl⟩ := Linked.callStep_cases hx
    refine Or.inr ⟨.thread i x, hok _ _ ha, ?_⟩
    simp [System.step, sync, Linked.sync, hcall, Config.move]

end Raknet
