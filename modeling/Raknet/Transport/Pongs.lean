import Raknet.Effects.Calls
import Raknet.Effects.Shared
import Raknet.Lib.Trace

/-!
# A sync Peer's pings on the network

The network carries the requests that `raw.ping` sends, once for each call that it answers with
true, and may answer each request at most once, after any delay, with an `ID_UNCONNECTED_PONG` from
the address that was pinged. The pong carries the request's send time in its bytes 1 to 4. All
other packets arrive as they like.

`Pongs` remembers, beside the packets, which request a pong answers. For every pong that the pump
credits to a call it records the answered request and when the packet was routed.

**Theorem (`pong_stems`).** A Pong that a call returns answers a request that was sent to the
call's address key. If the request is the call's own, the round trip is no shorter than the true
one; and it is the call's own, unless the request of another call to that key was underway while
the call's entry was in the table.
-/

namespace Raknet

open Interleaving DefaultMessageIDTypes

/-! ## The network -/

/-- A ping request: who sent it, where to and when. -/
structure Request where
  call : CallId
  address : SystemAddress
  sent : Int
deriving DecidableEq, Repr

/-- The four bytes in which a pong carries the send time. -/
def echo (t : Int) : Bytes :=
  [.ofInt (t / 0x1000000), .ofInt (t / 0x10000), .ofInt (t / 0x100), .ofInt t]

/-- The answer to a request. -/
def Request.pong (r : Request) (g : Guid) (payload : Bytes) : Packet :=
  ⟨r.address, g, .ofNat unconnectedPong.int :: echo r.sent ++ payload⟩

/-- What the network remembers of a Pong that was credited to a call. -/
structure Credit where
  call : CallId
  pong : Pong
  /-- the answered request -/
  request : Request
  /-- when the answer was routed -/
  routed : Int
deriving DecidableEq, Repr

/-- The requests underway and the packets that `raw.receive` has still to return, with the request
that each answers; and what the network remembers. -/
structure Pongs where
  unanswered : List Request
  fifo : List (Packet × Option Request)
  /-- the request that the packet in the pump's hands answers -/
  routing : Option Request
  /-- when that packet was routed -/
  routedAt : Int
  /-- every request there was -/
  sent : List Request
  /-- the address under which each call registered -/
  entered : List (CallId × SystemAddress)
  credits : List Credit

namespace Pongs

/-- Nothing was sent. -/
def init : Pongs := ⟨[], [], none, 0, [], [], []⟩

/-- `raw.ping` sends the request of call `i`. -/
def send (n : Pongs) (r : Request) : Pongs :=
  { n with unanswered := r :: n.unanswered, sent := r :: n.sent }

/-- The network answers a request. -/
def answer (n : Pongs) (r : Request) (g : Guid) (payload : Bytes) : Option Pongs :=
  if r ∈ n.unanswered then
    some
      { n with unanswered := n.unanswered.erase r, fifo := n.fifo ++ [(r.pong g payload, some r)] }
  else none

/-- Another packet arrives. -/
def report (n : Pongs) (p : Packet) : Option Pongs :=
  if p.hasId unconnectedPong then none else some { n with fifo := n.fifo ++ [(p, none)] }

/-- What an action of the Peer takes from the network. -/
def receive (n : Pongs) : State.Act → Option Pongs
  | .received .nothing => if n.fifo = [] then some n else none
  | .received (.packet p) =>
    match n.fifo with
    | [] => none
    | (q, r) :: rest => if q = p then some { n with fifo := rest, routing := r } else none
  | _ => some n

/-- Remember what a step of the pump did with a pong. -/
def note (n : Pongs) (s s' : State) : State.Act → Pongs
  | .pump =>
    match s.pump with
    | .route _ => { n with routedAt := s.clock }
    | .pongAssign i _ _ _ =>
      match n.routing, (s'.peer.pendingPing i).pong with
      | some r, some pong => { n with credits := ⟨i, pong, r, n.routedAt⟩ :: n.credits }
      | _, _ => n
    | _ => n
  | _ => n

/-- Call `i` has sent its request. -/
def hasSent (n : Pongs) (i : CallId) : Bool := n.sent.any (·.call = i)

/-- What a step of call `i` does to the network. `raw.ping` returns whether it sent. -/
def call (n : Pongs) (i : CallId) (s : State) : CallStart ⊕ Choice → Call → Option Pongs
  | .inr (.pingResult ok), .ping _ (.start (.rawPing _)) =>
    if ok = n.hasSent i then some n else none
  | .inr .go, .ping _ (.start (.register a)) =>
    some (if s.peer.closed then n else { n with entered := (i, a) :: n.entered })
  | _, _ => some n

end Pongs

/-! ## The system -/

/-- The shared state of a Peer's threads, and the network. -/
structure Pinged where
  state : State
  net : Pongs

namespace Pinged

/-- Who moves besides the calls: the threads of the Peer, or the network. -/
inductive Act
  | own (e : State.Act)
  | answer (r : Request) (g : Guid) (payload : Bytes)
  | report (p : Packet)
deriving DecidableEq, Repr

/-- What a call does: a step of its own, or `raw.ping` sends its request. -/
inductive Step
  | own (x : CallStart ⊕ Choice)
  | send
deriving DecidableEq, Repr

section

variable (text : SystemAddress → String)

/-- One action on the shared state and the network. -/
def act : Act → Pinged → Option Pinged
  | .own e, l =>
    (l.net.receive e).bind fun n => (State.act text e l.state).map fun s =>
      ⟨s, n.note l.state s e⟩
  | .answer r g payload, l => (l.net.answer r g payload).map fun n => ⟨l.state, n⟩
  | .report p, l => (l.net.report p).map fun n => ⟨l.state, n⟩

/-- One step of call `i`. -/
def callStep (i : CallId) (x : Step) (l : Pinged) (t : Call) : Option (Pinged × Call) :=
  match x, t with
  | .own x, t =>
    (l.net.call i l.state x t).bind fun n => (Raknet.callStep text i x l.state t).map fun (s, t') =>
      (⟨s, n⟩, t')
  | .send, .ping _ (.start (.rawPing a)) =>
    if l.net.hasSent i then none else some (⟨l.state, l.net.send ⟨i, a, l.state.clock⟩⟩, t)
  | .send, _ => none

/-- The request is on its way, or its answer is, or the pump has it in hand and no callback has
looked for an entry yet. -/
def Underway (l : Pinged) (r : Request) : Prop :=
  r ∈ l.net.unanswered ∨ (∃ p, (p, some r) ∈ l.net.fifo) ∨
    l.net.routing = some r ∧
      ((∃ p, l.state.pump = .route p) ∨ ∃ a g d, l.state.pump = .pongPop a g d)

/-- While the entry of call `i` is in the table, no other call's request to its key is underway. -/
def Alone (l : Pinged) (i : CallId) : Prop :=
  ∀ k, l.state.peer.pendingPings.get? k = some i → ∀ r, l.Underway r → text r.address = k →
    r.call = i

/-- The requests underway. -/
def requests (l : Pinged) : List Request :=
  l.net.unanswered ++ l.net.fifo.filterMap Prod.snd ++
    match l.state.pump with
    | .route _ | .pongPop _ _ _ => l.net.routing.toList
    | _ => []

theorem mem_requests {l : Pinged} {r : Request} : r ∈ l.requests ↔ l.Underway r := by
  simp only [requests, Underway, List.mem_append, List.mem_filterMap, Prod.exists, exists_eq_right,
    or_assoc]
  cases l.state.pump <;> simp

instance Alone.decidable (l : Pinged) (i : CallId) : Decidable (l.Alone text i) :=
  decidable_of_iff
    (∀ r ∈ l.requests, l.state.peer.pendingPings.get? (text r.address) = some i → r.call = i)
    ⟨fun h _ hk r hr hrk => h r (mem_requests.mpr hr) (hrk ▸ hk),
      fun h r hr hk => h _ hk r (mem_requests.mp hr) rfl⟩

end

/-- A Peer whose pump was just started, and a network without requests. -/
def init (maxQueue : Option Nat) (clock : Int) : Config Pinged Call :=
  ⟨⟨.init maxQueue clock, .init⟩, fun _ => .idle⟩

end Pinged

/-- A sync Peer on the network. -/
def pinged (text : SystemAddress → String) : System Pinged Call Pinged.Act Pinged.Step where
  shared := Pinged.act text
  thread := Pinged.callStep text

variable {text : SystemAddress → String} {s s' : State} {n n' : Pongs} {l l' : Pinged}

/-! ## Steps -/

theorem Pongs.receive_cases {e : State.Act} (h : n.receive e = some n') :
    n' = n ∧ (∀ p, e ≠ .received (.packet p)) ∨
      ∃ p r, e = .received (.packet p) ∧ n.fifo = (p, r) :: n'.fifo ∧
        n' = { n with fifo := n'.fifo, routing := r } := by
  cases e with
  | received x =>
    cases x with
    | nothing =>
      simp only [Pongs.receive] at h
      split_ifs at h
      cases h
      exact Or.inl ⟨rfl, by simp⟩
    | packet p =>
      simp only [Pongs.receive] at h
      split at h
      · cases h
      · next q r rest hfifo =>
        split_ifs at h with hq
        cases h
        exact Or.inr ⟨p, r, rfl, by rw [← hq, ← hfifo], rfl⟩
    | raises d =>
      cases h
      exact Or.inl ⟨rfl, by simp⟩
  | _ =>
    cases h
    exact Or.inl ⟨rfl, by simp⟩

/-- The pump holds no pong that was not credited yet. -/
def PumpPc.pongless : PumpPc → Bool
  | .route _ | .pongPop _ _ _ | .pongAssign _ _ _ _ => false
  | _ => true

theorem PumpPc.enter_pong {cb : Option Callback} {a : SystemAddress} {g : Guid} {d : Bytes}
    (h : PumpPc.enter cb = .pongPop a g d) : cb = some (.pong a g d) := by
  rcases cb with _ | ⟨_ | _⟩ <;> simp_all [PumpPc.enter]

theorem PumpPc.enter_cases (cb : Option Callback) :
    (∃ a g d, PumpPc.enter cb = .pongPop a g d) ∨ (PumpPc.enter cb).pongless = true := by
  rcases cb with _ | ⟨_ | _⟩ <;> simp [PumpPc.enter, PumpPc.pongless]

theorem ActEffect.pongs {e : State.Act} (h : ActEffect text s e s') :
    s'.pump = s.pump ∧ e ≠ .pump ∧ (∀ x, e ≠ .received x) ∨
      (∃ p, e = .received (.packet p) ∧ s'.pump = .route p) ∨
      (∃ p, e = .pump ∧ s.pump = .route p ∧ s'.pump = .enter (Raknet.route p)) ∨
      (∃ i a g d, e = .pump ∧ s.pump = .pongPop a g d ∧
        s.peer.pendingPings.get? (text a) = some i ∧ s'.pump = .pongAssign i a g d) ∨
      s'.pump.pongless = true := by
  cases h
  case receivedPacket p h => exact Or.inr (Or.inl ⟨p, rfl, rfl⟩)
  case route p h => exact Or.inr (Or.inr (Or.inl ⟨p, rfl, h, rfl⟩))
  case pongPop i a g d h hget =>
    exact Or.inr (Or.inr (Or.inr (Or.inl ⟨i, a, g, d, rfl, h, hget, rfl⟩)))
  case tick | recvItem | recvRaises => exact Or.inl ⟨rfl, by simp, by simp⟩
  all_goals first
    | exact Or.inr (Or.inr (Or.inr (Or.inr rfl)))
    | exact Or.inl ⟨rfl, by simp, by simp⟩

/-- What a shared action leaves of the pings, except for the pong it may assign. -/
structure PingFrame (s s' : State) : Prop where
  table : ∀ k i, s'.peer.pendingPings.get? k = some i → s.peer.pendingPings.get? k = some i
  started : ∀ i, (s'.peer.pendingPing i).started = (s.peer.pendingPing i).started
  clock : s.clock ≤ s'.clock

theorem PingFrame.refl : PingFrame s s := ⟨fun _ _ => id, fun _ => rfl, Int.le_refl _⟩

theorem ActEffect.pingFrame {e : State.Act} (h : ActEffect text s e s') : PingFrame s s' := by
  cases h
  case pongPop i a g d h hget =>
    refine ⟨fun k j hj => ?_, fun _ => rfl, Int.le_refl _⟩
    by_cases hk : k = text a
    · simp [hk] at hj
    · simpa [hk] using hj
  case pongAssign i a g d h =>
    refine ⟨fun _ _ => id, fun j => ?_, Int.le_refl _⟩
    by_cases hj : j = i
    · subst hj
      simp
    · simp [hj]
  case pingSet i h =>
    refine ⟨fun _ _ => id, fun j => ?_, Int.le_refl _⟩
    by_cases hj : j = i
    · subst hj
      simp
    · simp [hj]
  case sweepPing snap i is h hcons =>
    refine ⟨fun _ _ => id, fun j => ?_, Int.le_refl _⟩
    by_cases hj : j = i
    · subst hj
      simp
    · simp [hj]
  case fail detail h hopen => exact ⟨fun _ _ hj => by simp at hj, fun _ => rfl, Int.le_refl _⟩
  case tick d =>
    exact ⟨fun _ _ => id, fun _ => rfl, Int.le_add_of_nonneg_right (Int.natCast_nonneg d)⟩
  all_goals exact ⟨fun _ _ => id, fun _ => rfl, Int.le_refl _⟩

theorem ActEffect.pong {e : State.Act} (h : ActEffect text s e s') {i : CallId} {pong : Pong}
    (hpong : (s'.peer.pendingPing i).pong = some pong) :
    (s.peer.pendingPing i).pong = some pong ∨ ∃ a g d, e = .pump ∧ s.pump = .pongAssign i a g d ∧
      pong = ⟨a, g, d, s.clock - (s.peer.pendingPing i).started⟩ := by
  cases h
  case pongAssign j a g d h =>
    by_cases hj : i = j
    · subst hj
      refine Or.inr ⟨a, g, d, rfl, h, ?_⟩
      simpa [eq_comm] using hpong
    · exact Or.inl (by simpa [hj] using hpong)
  case pingSet j h =>
    by_cases hj : i = j
    · subst hj
      exact Or.inl (by simpa using hpong)
    · exact Or.inl (by simpa [hj] using hpong)
  case sweepPing snap j is h hcons =>
    by_cases hj : i = j
    · subst hj
      exact Or.inl (by simpa using hpong)
    · exact Or.inl (by simpa [hj] using hpong)
  all_goals exact Or.inl hpong

theorem Pongs.note_cases (n : Pongs) (s s' : State) (e : State.Act) :
    n.note s s' e = n ∨
      (e = .pump ∧ (∃ p, s.pump = .route p) ∧ n.note s s' e = { n with routedAt := s.clock }) ∨
      ∃ i a g d r pong, e = .pump ∧ s.pump = .pongAssign i a g d ∧ n.routing = some r ∧
        (s'.peer.pendingPing i).pong = some pong ∧
        n.note s s' e = { n with credits := ⟨i, pong, r, n.routedAt⟩ :: n.credits } := by
  cases e with
  | pump =>
    unfold Pongs.note
    dsimp only
    split
    · next p hpump => exact Or.inr (Or.inl ⟨rfl, ⟨p, hpump⟩, rfl⟩)
    · next i a g d hpump =>
      split
      · next r pong hrouting hpong =>
        exact Or.inr (Or.inr ⟨i, a, g, d, r, pong, rfl, hpump, hrouting, hpong, rfl⟩)
      · exact Or.inl rfl
    · exact Or.inl rfl
  | _ => exact Or.inl rfl

/-- Only a call that registers tells the network anything. -/
theorem Pongs.call_cases {i : CallId} {x : CallStart ⊕ Choice} {t t' : Call}
    (h : n.call i s x t = some n') (hs : callStep text i x s t = some (s', t')) :
    n' = n ∧ (∀ args a, t = .ping args (.start (.register a)) → s.peer.closed = true) ∨
      ∃ args a, t = .ping args (.start (.register a)) ∧ s.peer.closed = false ∧
        n' = { n with entered := (i, a) :: n.entered } := by
  unfold Pongs.call at h
  split at h
  · split_ifs at h
    cases h
    exact Or.inl ⟨rfl, by simp⟩
  · next args a =>
    cases hclosed : s.peer.closed
    · rw [hclosed, if_neg Bool.false_ne_true] at h
      exact Or.inr ⟨args, a, rfl, rfl, (Option.some.inj h).symm⟩
    · rw [hclosed, if_pos rfl] at h
      exact Or.inl ⟨(Option.some.inj h).symm, fun _ _ _ => rfl⟩
  · next hreg =>
    cases h
    refine Or.inl ⟨rfl, fun args a ht => ?_⟩
    subst ht
    rcases x with x | x
    · simp [callStep] at hs
    · cases x <;> simp [callStep, pingStep, startPingStep] at hs
      exact absurd rfl (hreg _ _ rfl)

/-! ## What the network remembers -/

/-- What the network remembers only grows. -/
structure Pongs.Grows (n n' : Pongs) : Prop where
  sent : n.sent ⊆ n'.sent
  entered : n.entered ⊆ n'.entered
  credits : n.credits ⊆ n'.credits

theorem Pongs.Grows.refl : n.Grows n := ⟨fun _ => id, fun _ => id, fun _ => id⟩

/-- A pong for call `i` answers request `r`: `alone i` says that the key of call `i` was its own. -/
structure Stems (text : SystemAddress → String) (alone : CallId → Prop) (n : Pongs) (i : CallId)
    (r : Request) : Prop where
  sent : r ∈ n.sent
  key : ∃ a, (i, a) ∈ n.entered ∧ text a = text r.address
  own : alone i → r.call = i

/-- What the packet in the pump's hands answers. -/
def PumpPc.Answers (text : SystemAddress → String) (alone : CallId → Prop) (n : Pongs)
    (clock : Int) : PumpPc → Prop
  | .route p => p.hasId unconnectedPong = true →
    ∃ r, n.routing = some r ∧ r ∈ n.sent ∧ r.address = p.systemAddress
  | .pongPop a _ _ => ∃ r, n.routing = some r ∧ r ∈ n.sent ∧ r.address = a ∧ n.routedAt ≤ clock
  | .pongAssign i _ _ _ => ∃ r, n.routing = some r ∧ Stems text alone n i r ∧ n.routedAt ≤ clock
  | _ => True

/-- What the network remembers is true. -/
structure Book (text : SystemAddress → String) (alone : CallId → Prop) (l : Pinged) : Prop where
  unanswered : l.net.unanswered ⊆ l.net.sent
  tagged : ∀ p r, (p, some r) ∈ l.net.fifo → r ∈ l.net.sent ∧ r.address = p.systemAddress
  untagged : ∀ p, (p, none) ∈ l.net.fifo → p.hasId unconnectedPong = false
  pump : l.state.pump.Answers text alone l.net l.state.clock
  table : ∀ k i, l.state.peer.pendingPings.get? k = some i → ∃ a, (i, a) ∈ l.net.entered ∧
    text a = k
  started : ∀ r ∈ l.net.sent, (l.state.peer.pendingPing r.call).started ≤ r.sent
  pong : ∀ i pong, (l.state.peer.pendingPing i).pong = some pong →
    ∃ k ∈ l.net.credits, k.call = i ∧ k.pong = pong
  credits : ∀ k ∈ l.net.credits, Stems text alone l.net k.call k.request ∧
    (k.request.call = k.call → k.routed - k.request.sent ≤ k.pong.roundTripTime)

variable {alone alone' : CallId → Prop}

theorem Stems.grows {i : CallId} {r : Request} (h : Stems text alone n i r) (hn : n.Grows n')
    (halone : ∀ i, alone' i → alone i) : Stems text alone' n' i r where
  sent := hn.sent h.sent
  key := h.key.imp fun _ ⟨ha, hkey⟩ => ⟨hn.entered ha, hkey⟩
  own hi := h.own (halone i hi)

theorem PumpPc.Answers.grows {clock clock' : Int} {pc : PumpPc}
    (h : pc.Answers text alone n clock) (hn : n.Grows n') (halone : ∀ i, alone' i → alone i)
    (hrouting : n'.routing = n.routing) (hrouted : n'.routedAt = n.routedAt)
    (hclock : clock ≤ clock') : pc.Answers text alone' n' clock' := by
  cases pc with
  | route p =>
    intro hp
    obtain ⟨r, hr, hsent, haddress⟩ := h hp
    exact ⟨r, hrouting.trans hr, hn.sent hsent, haddress⟩
  | pongPop a g d =>
    obtain ⟨r, hr, hsent, haddress, hat⟩ := h
    exact ⟨r, hrouting.trans hr, hn.sent hsent, haddress, hrouted ▸ Int.le_trans hat hclock⟩
  | pongAssign i a g d =>
    obtain ⟨r, hr, hstems, hat⟩ := h
    exact ⟨r, hrouting.trans hr, hstems.grows hn halone, hrouted ▸ Int.le_trans hat hclock⟩
  | _ => trivial

theorem PumpPc.answers_of_pongless {clock : Int} {pc : PumpPc} (h : pc.pongless = true) :
    pc.Answers text alone n clock := by
  cases pc <;> trivial

theorem route_pong {p : Packet} {a : SystemAddress} {g : Guid} {d : Bytes}
    (h : route p = some (.pong a g d)) : p.hasId unconnectedPong = true ∧ p.systemAddress = a := by
  rcases route_cases h with ⟨-, h⟩ | ⟨-, h⟩ | ⟨-, h⟩ | ⟨r, -, -, h⟩ | ⟨-, h⟩ | ⟨-, h⟩ | ⟨hid, h⟩ <;>
    cases h
  exact ⟨hid, rfl⟩

/-! ## What the Peer does -/

/-- The pump takes one step with a pong in its hands, or without. -/
theorem Book.answers {e : State.Act} (h : Book text alone l) (hs : ActEffect text l.state e s')
    (hne : ∀ p, e ≠ .received (.packet p)) (halone : ∀ i, alone' i → alone i ∧ l.Alone text i) :
    s'.pump.Answers text alone' (l.net.note l.state s' e) s'.clock := by
  have hclock := hs.pingFrame.clock
  have hpump := h.pump
  rcases hs.pongs with ⟨hsame, he, -⟩ | ⟨p, rfl, -⟩ | ⟨p, rfl, hroute, henter⟩ |
    ⟨i, a, g, d, rfl, hpop, hget, hassign⟩ | hpongless
  · rcases Pongs.note_cases l.net l.state s' e with hnote | ⟨rfl, -⟩ | ⟨i, a, g, d, r, pong, rfl, -⟩
    · rw [hnote, hsame]
      exact hpump.grows .refl (fun i hi => (halone i hi).1) rfl rfl hclock
    · exact absurd rfl he
    · exact absurd rfl he
  · exact absurd rfl (hne p)
  · rw [henter]
    rcases PumpPc.enter_cases (Raknet.route p) with ⟨a, g, d, hpong⟩ | hpongless
    · obtain ⟨hid, rfl⟩ := route_pong (PumpPc.enter_pong hpong)
      rw [hroute] at hpump
      obtain ⟨r, hr, hsent, haddress⟩ := hpump hid
      rw [hpong]
      simp only [Pongs.note, hroute]
      exact ⟨r, hr, hsent, haddress, hclock⟩
    · exact PumpPc.answers_of_pongless hpongless
  · rw [hpop] at hpump
    obtain ⟨r, hr, hsent, rfl, hat⟩ := hpump
    rw [hassign]
    simp only [Pongs.note, hpop]
    refine ⟨r, hr, ⟨hsent, h.table _ i hget, fun hi => ?_⟩, Int.le_trans hat hclock⟩
    exact (halone i hi).2 _ hget r (Or.inr (Or.inr ⟨hr, Or.inr ⟨r.address, g, d, hpop⟩⟩)) rfl
  · exact PumpPc.answers_of_pongless hpongless

/-- The pongs that a step of the Peer's threads leaves were credited, and rightly. -/
theorem Book.credited {e : State.Act} (h : Book text alone l) (hs : ActEffect text l.state e s')
    (hweak : ∀ i, alone' i → alone i) :
    l.net.Grows (l.net.note l.state s' e) ∧
      (∀ i pong, (s'.peer.pendingPing i).pong = some pong →
        ∃ k ∈ (l.net.note l.state s' e).credits, k.call = i ∧ k.pong = pong) ∧
      ∀ k ∈ (l.net.note l.state s' e).credits,
        Stems text alone' (l.net.note l.state s' e) k.call k.request ∧
          (k.request.call = k.call → k.routed - k.request.sent ≤ k.pong.roundTripTime) := by
  have hold : ∀ k ∈ l.net.credits, Stems text alone' l.net k.call k.request ∧
      (k.request.call = k.call → k.routed - k.request.sent ≤ k.pong.roundTripTime) :=
    fun k hk => ⟨(h.credits k hk).1.grows .refl hweak, (h.credits k hk).2⟩
  -- without a pong in hand the pump assigns none
  have hkept : (∀ i a g d, e = .pump → l.state.pump ≠ .pongAssign i a g d) → ∀ i pong,
      (s'.peer.pendingPing i).pong = some pong → ∃ k ∈ l.net.credits, k.call = i ∧
        k.pong = pong := by
    intro hne i pong hpong
    rcases hs.pong hpong with hpong | ⟨a, g, d, he, hpump, -⟩
    · exact h.pong i pong hpong
    · exact absurd hpump (hne i a g d he)
  by_cases hassign : ∃ i a g d, e = .pump ∧ l.state.pump = .pongAssign i a g d
  · obtain ⟨i, a, g, d, rfl, hpump⟩ := hassign
    have hanswers := h.pump
    rw [hpump] at hanswers
    obtain ⟨r, hr, hstems, hat⟩ := hanswers
    have hassigned : (s'.peer.pendingPing i).pong =
        some ⟨a, g, d, l.state.clock - (l.state.peer.pendingPing i).started⟩ := by
      cases hs <;> simp_all [PumpPc.DropsIn]
    have hnote : l.net.note l.state s' .pump = { l.net with
        credits := ⟨i, ⟨a, g, d, l.state.clock - (l.state.peer.pendingPing i).started⟩, r,
          l.net.routedAt⟩ :: l.net.credits } := by
      simp only [Pongs.note, hpump, hr, hassigned]
    have hgrows : l.net.Grows (l.net.note l.state s' .pump) := by
      rw [hnote]
      exact ⟨fun _ => id, fun _ => id, List.subset_cons_self _ _⟩
    refine ⟨hgrows, fun j pong hpong => ?_, fun k hk => ?_⟩
    · rcases hs.pong hpong with hpong | ⟨a', g', d', -, hpump', rfl⟩
      · obtain ⟨k, hk, hcall, hkpong⟩ := h.pong j pong hpong
        exact ⟨k, hgrows.credits hk, hcall, hkpong⟩
      · rw [hpump] at hpump'
        cases hpump'
        rw [hnote]
        exact ⟨_, List.mem_cons_self, rfl, rfl⟩
    · rw [hnote] at hk
      rcases List.mem_cons.mp hk with rfl | hk
      · refine ⟨hstems.grows hgrows hweak, fun hown => ?_⟩
        have hown : r.call = i := hown
        have hstarted := h.started r hstems.sent
        rw [hown] at hstarted
        show l.net.routedAt - r.sent ≤ l.state.clock - (l.state.peer.pendingPing i).started
        omega
      · exact ⟨(hold k hk).1.grows hgrows fun _ => id, (hold k hk).2⟩
  · have hne : ∀ i a g d, e = .pump → l.state.pump ≠ .pongAssign i a g d :=
      fun i a g d he hpump => hassign ⟨i, a, g, d, he, hpump⟩
    rcases Pongs.note_cases l.net l.state s' e with hnote | ⟨-, -, hnote⟩ |
      ⟨i, a, g, d, r, pong, he, hpump, -⟩
    · rw [hnote]
      exact ⟨.refl, hkept hne, hold⟩
    · rw [hnote]
      exact ⟨⟨fun _ => id, fun _ => id, fun _ => id⟩, hkept hne, fun k hk =>
        ⟨(hold k hk).1.grows ⟨fun _ => id, fun _ => id, fun _ => id⟩ fun _ => id, (hold k hk).2⟩⟩
    · exact absurd hpump (hne i a g d he)

theorem Pongs.note_same (n : Pongs) (s s' : State) (e : State.Act) :
    (n.note s s' e).unanswered = n.unanswered ∧ (n.note s s' e).fifo = n.fifo ∧
      (n.note s s' e).sent = n.sent ∧ (n.note s s' e).entered = n.entered := by
  rcases Pongs.note_cases n s s' e with hnote | ⟨-, -, hnote⟩ |
      ⟨_, _, _, _, _, _, -, -, -, -, hnote⟩ <;>
    rw [hnote] <;> exact ⟨rfl, rfl, rfl, rfl⟩

theorem Book.own {e : State.Act} (h : Book text alone l) (hn : l.net.receive e = some n)
    (hs : State.act text e l.state = some s')
    (halone : ∀ i, alone' i → alone i ∧ l.Alone text i) :
    Book text alone' ⟨s', n.note l.state s' e⟩ ∧ l.net.Grows (n.note l.state s' e) ∧
      (n.note l.state s' e).sent = l.net.sent := by
  have heff := act_effect hs
  have hframe := heff.pingFrame
  have hweak : ∀ i, alone' i → alone i := fun i hi => (halone i hi).1
  obtain ⟨hun', hfifo', hsent', hentered'⟩ := Pongs.note_same n l.state s' e
  rcases Pongs.receive_cases hn with ⟨rfl, hne⟩ | ⟨p, r, rfl, hfifo, hn'⟩
  · obtain ⟨hgrows, hpong, hcredits⟩ := h.credited heff hweak
    refine ⟨⟨?_, ?_, ?_, h.answers heff hne halone, ?_, ?_, hpong, hcredits⟩, hgrows, hsent'⟩
    · exact fun r hr => hsent' ▸ h.unanswered (hun' ▸ hr)
    · exact fun p r hp => hsent' ▸ h.tagged p r (hfifo' ▸ hp)
    · exact fun p hp => h.untagged p (hfifo' ▸ hp)
    · exact fun k i hk => hentered' ▸ h.table k i (hframe.table k i hk)
    · exact fun r hr => hframe.started r.call ▸ h.started r (hsent' ▸ hr)
  -- a packet is received
  have hhead : (p, r) ∈ l.net.fifo := by simp [hfifo]
  have htail : n.fifo ⊆ l.net.fifo := by
    rw [hfifo]
    exact List.subset_cons_self _ _
  have hgrows : l.net.Grows n := by
    rw [hn']
    exact ⟨fun _ => id, fun _ => id, fun _ => id⟩
  have hsent : n.sent = l.net.sent := by rw [hn']
  have hpong : ∀ i pong, (s'.peer.pendingPing i).pong = some pong →
      ∃ k ∈ n.credits, k.call = i ∧ k.pong = pong := by
    intro i pong hpong
    rcases heff.pong hpong with hpong | ⟨a, g, d, he, -⟩
    · obtain ⟨k, hk, hcall⟩ := h.pong i pong hpong
      exact ⟨k, hgrows.credits hk, hcall⟩
    · cases he
  refine ⟨⟨?_, ?_, ?_, ?_, ?_, ?_, hpong, ?_⟩, hgrows, hsent⟩
  · show n.unanswered ⊆ n.sent
    rw [hn']
    exact h.unanswered
  · exact fun q r' hq => hsent ▸ h.tagged q r' (htail hq)
  · exact fun q hq => h.untagged q (htail hq)
  · show s'.pump.Answers text alone' n s'.clock
    cases heff
    intro hid
    rw [hn']
    cases r with
    | none => simp [h.untagged p hhead] at hid
    | some r => exact ⟨r, rfl, h.tagged p r hhead⟩
  · intro k i hk
    obtain ⟨a, ha, hkey⟩ := h.table k i (hframe.table k i hk)
    exact ⟨a, hgrows.entered ha, hkey⟩
  · exact fun r hr => hframe.started r.call ▸ h.started r (hsent ▸ hr)
  · intro k hk
    have hk : k ∈ l.net.credits := by
      rw [hn'] at hk
      exact hk
    exact ⟨(h.credits k hk).1.grows hgrows hweak, (h.credits k hk).2⟩

theorem Book.arrive (h : Book text alone l) (hweak : ∀ i, alone' i → alone i)
    (hn : (∃ r g payload, l.net.answer r g payload = some n) ∨ ∃ p, l.net.report p = some n) :
    Book text alone' ⟨l.state, n⟩ ∧ l.net.Grows n ∧ n.sent = l.net.sent := by
  have hsame : l.net.Grows n ∧ n.sent = l.net.sent ∧ n.entered = l.net.entered ∧
      n.credits = l.net.credits ∧ n.routing = l.net.routing ∧ n.routedAt = l.net.routedAt ∧
      n.unanswered ⊆ l.net.unanswered ∧ ∃ p r, n.fifo = l.net.fifo ++ [(p, r)] ∧
        (∀ r', r = some r' → r' ∈ l.net.sent ∧ r'.address = p.systemAddress) ∧
        (r = none → p.hasId unconnectedPong = false) := by
    rcases hn with ⟨r, g, payload, hn⟩ | ⟨p, hn⟩
    · unfold Pongs.answer at hn
      split_ifs at hn with hmem
      cases hn
      refine ⟨⟨fun _ => id, fun _ => id, fun _ => id⟩, rfl, rfl, rfl, rfl, rfl,
        List.erase_subset, _, some r, rfl, ?_, by simp⟩
      intro r' hr'
      cases hr'
      exact ⟨h.unanswered hmem, rfl⟩
    · unfold Pongs.report at hn
      split_ifs at hn with hid
      cases hn
      exact ⟨⟨fun _ => id, fun _ => id, fun _ => id⟩, rfl, rfl, rfl, rfl, rfl, fun _ => id,
        p, none, rfl, by simp, fun _ => by simpa using hid⟩
  obtain ⟨hgrows, hsent, hentered, hcredits, hrouting, hrouted, hun, p, r, hfifo, htag, huntag⟩ :=
    hsame
  refine ⟨⟨?_, ?_, ?_, ?_, ?_, ?_, ?_, ?_⟩, hgrows, hsent⟩
  · exact fun r hr => hgrows.sent (h.unanswered (hun hr))
  · intro q r' hq
    simp only [hfifo, List.mem_append, List.mem_singleton, Prod.mk.injEq] at hq
    rcases hq with hq | ⟨rfl, hr⟩
    · exact hsent ▸ h.tagged q r' hq
    · exact hsent ▸ htag r' hr.symm
  · intro q hq
    simp only [hfifo, List.mem_append, List.mem_singleton, Prod.mk.injEq] at hq
    rcases hq with hq | ⟨rfl, hr⟩
    · exact h.untagged q hq
    · exact huntag hr.symm
  · exact h.pump.grows hgrows hweak hrouting hrouted (Int.le_refl _)
  · exact hentered ▸ h.table
  · exact hsent ▸ h.started
  · exact hcredits ▸ h.pong
  · exact fun k hk => ⟨(h.credits k (hcredits ▸ hk)).1.grows hgrows hweak,
      (h.credits k (hcredits ▸ hk)).2⟩

/-! ## What the calls do -/

/-- The call has not reached `raw.ping` yet. -/
def Call.unsent : Call → Bool
  | .idle | .ping _ (.start .checkOpen) | .ping _ (.start .resolve) => true
  | _ => false

theorem CallEffect.pings_of {i : CallId} {t : Call} (h : CallEffect text i s t s') :
    s'.pump = s.pump ∧ s'.clock = s.clock ∧
      (∀ k j, s'.peer.pendingPings.get? k = some j → s.peer.pendingPings.get? k = some j ∨
        ∃ args a, t = .ping args (.start (.register a)) ∧ s.peer.closed = false ∧ j = i ∧
          k = text a) ∧
      ∀ j, s'.peer.pendingPing j = s.peer.pendingPing j ∨
        j = i ∧ t.unsent = true ∧ s'.peer.pendingPing j = .new s.clock := by
  cases h with
  | newPing args h =>
    refine ⟨rfl, rfl, fun _ _ => Or.inl, fun j => ?_⟩
    by_cases hj : j = i
    · subst hj
      exact Or.inr ⟨rfl, by rw [h]; rfl, by simp⟩
    · exact Or.inl (by simp [hj])
  | registerPing args a h hopen =>
    refine ⟨rfl, rfl, fun k j hj => ?_, fun _ => Or.inl rfl⟩
    by_cases hk : k = text a
    · subst hk
      exact Or.inr ⟨args, a, h, hopen, by simpa [eq_comm] using hj, rfl⟩
    · exact Or.inl (by simpa [hk] using hj)
  | popPing args a h =>
    refine ⟨rfl, rfl, fun k j hj => Or.inl ?_, fun _ => Or.inl rfl⟩
    by_cases hk : k = text a
    · simp [hk] at hj
    · simpa [hk] using hj
  | beginClose hopen => exact ⟨rfl, rfl, fun _ _ hj => by simp at hj, fun _ => Or.inl rfl⟩
  | _ => exact ⟨rfl, rfl, fun _ _ => Or.inl, fun _ => Or.inl rfl⟩

theorem Book.call {i : CallId} {x : CallStart ⊕ Choice} {t t' : Call} (h : Book text alone l)
    (hn : l.net.call i l.state x t = some n) (hs : callStep text i x l.state t = some (s', t'))
    (hunsent : t.unsent = true → ∀ r ∈ l.net.sent, r.call ≠ i)
    (hweak : ∀ i, alone' i → alone i) :
    Book text alone' ⟨s', n⟩ ∧ l.net.Grows n ∧ n.sent = l.net.sent := by
  obtain ⟨hpump, hclock, htable, hpings⟩ := (callStep_effect hs).pings_of
  have hnet : l.net.Grows n ∧ n = { l.net with entered := n.entered } ∧
      ∀ args a, t = .ping args (.start (.register a)) → l.state.peer.closed = false →
        (i, a) ∈ n.entered := by
    rcases Pongs.call_cases hn hs with ⟨rfl, hclosed⟩ | ⟨args, a, rfl, -, rfl⟩
    · exact ⟨.refl, rfl, fun args a ht hopen => by simp [hclosed args a ht] at hopen⟩
    · refine ⟨⟨fun _ => id, List.subset_cons_self _ _, fun _ => id⟩, rfl, fun args' a' ht _ => ?_⟩
      cases ht
      exact List.mem_cons_self
  obtain ⟨hgrows, hsame, hentered⟩ := hnet
  rw [hsame] at hgrows ⊢
  refine ⟨⟨h.unanswered, h.tagged, h.untagged, ?_, ?_, ?_, ?_, ?_⟩, hgrows, rfl⟩
  · show s'.pump.Answers text alone' _ s'.clock
    rw [hpump, hclock]
    exact h.pump.grows hgrows hweak rfl rfl (Int.le_refl _)
  · intro k j hk
    rcases htable k j hk with hk | ⟨args, a, ht, hopen, rfl, rfl⟩
    · obtain ⟨a, ha, hkey⟩ := h.table k j hk
      exact ⟨a, hgrows.entered ha, hkey⟩
    · exact ⟨a, hentered args a ht hopen, rfl⟩
  · intro r hr
    show (s'.peer.pendingPing r.call).started ≤ r.sent
    rcases hpings r.call with hsame | ⟨hcall, hun, -⟩
    · rw [hsame]
      exact h.started r hr
    · exact absurd hcall (hunsent hun r hr)
  · intro j pong hpong
    rcases hpings j with hsame | ⟨-, -, hnew⟩
    · exact h.pong j pong (hsame ▸ hpong)
    · have hpong : (s'.peer.pendingPing j).pong = some pong := hpong
      rw [hnew] at hpong
      cases hpong
  · exact fun k hk => ⟨(h.credits k hk).1.grows hgrows hweak, (h.credits k hk).2⟩

/-- What is known at the program counter of call `i`. -/
structure Dated (l : Pinged) (i : CallId) (t : Call) : Prop where
  unsent : t.unsent = true → ∀ r ∈ l.net.sent, r.call ≠ i
  started : ∀ args a, t = .ping args (.start (.register a)) ∨ t = .ping args (.start (.rawPing a)) →
    (l.state.peer.pendingPing i).started ≤ l.state.clock
  returned : ∀ args pong, t = .ping args (.returned pong) →
    ∃ k ∈ l.net.credits, k.call = i ∧ k.pong = pong

/-- What is known of a call stays known while others move. -/
theorem Dated.grows {i : CallId} {t : Call} (h : Dated l i t) (hn : l.net.Grows l'.net)
    (hsent : ∀ r ∈ l'.net.sent, r ∈ l.net.sent ∨ r.call ≠ i)
    (hstarted : (l'.state.peer.pendingPing i).started = (l.state.peer.pendingPing i).started)
    (hclock : l.state.clock ≤ l'.state.clock) : Dated l' i t where
  unsent ht r hr := (hsent r hr).elim (h.unsent ht r) id
  started args a ht := hstarted ▸ Int.le_trans (h.started args a ht) hclock
  returned args pong ht := (h.returned args pong ht).imp fun _ ⟨hk, hcall⟩ => ⟨hn.credits hk, hcall⟩

theorem Dated.move {i : CallId} {t t' : Call} (h : Dated l i t)
    (hm : CallMove text i l.state t s' t')
    (hsent : n.sent = l.net.sent) (hbook : Book text alone ⟨s', n⟩) :
    Dated ⟨s', n⟩ i t' := by
  have hclock := hm.effect.pings_of.2.1
  cases hm with
  | begin start t hstart =>
    refine ⟨fun _ r hr => h.unsent rfl r (hsent ▸ hr), fun args a ht => ?_, fun args pong ht => ?_⟩
    · rcases ht with rfl | rfl <;> cases start <;> simp [startCall] at hstart
    · subst ht
      cases start <;> simp [startCall] at hstart
  | ping args pc pc' s' hp =>
    cases hp with
    | checkOpen hopen =>
      exact ⟨fun _ r hr => h.unsent rfl r (hsent ▸ hr), by simp, by simp⟩
    | resolve ip =>
      refine ⟨fun ht => by simp [Call.unsent] at ht, fun _ _ _ => ?_, by simp⟩
      simp [PendingPing.new]
    | register a hopen =>
      exact ⟨fun ht => by simp [Call.unsent] at ht,
        fun _ _ _ => h.started args a (Or.inl rfl), by simp⟩
    | finish =>
      refine ⟨fun ht => ?_, fun args a ht => ?_, fun args' pong ht => ?_⟩
      · unfold finishPing at ht
        split at ht <;> simp [Call.unsent] at ht
      · unfold finishPing at ht
        split at ht <;> simp at ht
      · unfold finishPing at ht
        split at ht
        · cases ht
        · next pong' hpong =>
          cases ht
          exact hbook.pong i _ hpong
    | _ => exact ⟨fun ht => by simp [Call.unsent] at ht, by simp, by simp⟩
  | _ => exact ⟨fun ht => by simp [Call.unsent] at ht, by simp, by simp⟩

/-! ## Runs -/

/-- Throughout the run, no other call's request to the key of call `i` is underway while the entry
of call `i` is in the table. -/
def AloneIn (text : SystemAddress → String)
    (tr : List (Config Pinged Call × Action Pinged.Act Pinged.Step))
    (i : CallId) : Prop :=
  ∀ x ∈ tr, x.1.shared.Alone text i

theorem book_init {q : Option Nat} {t₀ : Int} : Book text alone (Pinged.init q t₀).shared where
  unanswered := fun _ => id
  tagged := by simp [Pinged.init, Pongs.init]
  untagged := by simp [Pinged.init, Pongs.init]
  pump := trivial
  table := by simp [Pinged.init, State.init, Peer.init]
  started := by simp [Pinged.init, Pongs.init]
  pong := by simp [Pinged.init, State.init, Peer.init, PendingPing.new]
  credits := by simp [Pinged.init, Pongs.init]

theorem Pinged.callStep_cases {i : CallId} {x : Pinged.Step} {t t' : Call}
    (h : Pinged.callStep text i x l t = some (l', t')) :
    (∃ y n s, x = .own y ∧ l.net.call i l.state y t = some n ∧
        Raknet.callStep text i y l.state t = some (s, t') ∧ l' = ⟨s, n⟩) ∨
      ∃ args a, x = .send ∧ t = .ping args (.start (.rawPing a)) ∧ t' = t ∧
        l' = ⟨l.state, l.net.send ⟨i, a, l.state.clock⟩⟩ := by
  cases x with
  | own y =>
    obtain ⟨n, hn, h⟩ := Option.bind_eq_some_iff.mp h
    obtain ⟨⟨s, u⟩, hs, hu⟩ := Option.map_eq_some_iff.mp h
    cases hu
    exact Or.inl ⟨y, n, s, rfl, hn, hs, rfl⟩
  | send =>
    unfold Pinged.callStep at h
    split at h
    · next heq => cases heq
    · next args a _ =>
      split_ifs at h
      cases h
      exact Or.inr ⟨args, a, rfl, rfl, rfl, rfl⟩
    · cases h

theorem Book.send {i : CallId} {a : SystemAddress} (h : Book text alone l)
    (hstarted : (l.state.peer.pendingPing i).started ≤ l.state.clock)
    (hweak : ∀ i, alone' i → alone i) :
    Book text alone' ⟨l.state, l.net.send ⟨i, a, l.state.clock⟩⟩ ∧
      l.net.Grows (l.net.send ⟨i, a, l.state.clock⟩) := by
  have hgrows : l.net.Grows (l.net.send ⟨i, a, l.state.clock⟩) :=
    ⟨List.subset_cons_self _ _, fun _ => id, fun _ => id⟩
  refine
    ⟨⟨List.cons_subset_cons _ h.unanswered, fun p r hp => ?_, h.untagged, ?_, h.table, ?_, h.pong,
    fun k hk => ?_⟩, hgrows⟩
  · exact ⟨hgrows.sent (h.tagged p r hp).1, (h.tagged p r hp).2⟩
  · exact h.pump.grows hgrows hweak rfl rfl (Int.le_refl _)
  · intro r hr
    rcases List.mem_cons.mp hr with rfl | hr
    · exact hstarted
    · exact h.started r hr
  · exact ⟨(h.credits k hk).1.grows hgrows hweak, (h.credits k hk).2⟩

theorem trace_book {q : Option Nat} {t₀ : Int}
    {tr : List (Config Pinged Call × Action Pinged.Act Pinged.Step)} {c : Config Pinged Call}
    (h : Trace (pinged text) anyStep (Pinged.init q t₀) tr c) :
    Book text (AloneIn text tr) c.shared ∧ ∀ i, Dated c.shared i (c.thread i) := by
  refine h.invariant (I := fun tr c => Book text (AloneIn text tr) c.shared ∧
    ∀ i, Dated c.shared i (c.thread i)) ⟨book_init, fun i => ⟨?_, ?_, ?_⟩⟩ ?_
  · simp [Pinged.init, Pongs.init]
  · simp [Pinged.init]
  · simp [Pinged.init]
  · rintro tr c a c' _ _ hs ⟨hbook, hdated⟩
    have halone : ∀ i, AloneIn text (tr ++ [(c, a)]) i → AloneIn text tr i ∧
        c.shared.Alone text i :=
      fun i hi => ⟨fun x hx => hi x (List.mem_append_left _ hx),
        hi (c, a) (List.mem_append_right _ (List.mem_singleton_self _))⟩
    have hweak : ∀ i, AloneIn text (tr ++ [(c, a)]) i → AloneIn text tr i := fun i hi =>
        (halone i hi).1
    rcases System.step_cases hs with ⟨e, l, rfl, he, rfl⟩ | ⟨i, x, l, t, rfl, hx, rfl⟩
    · cases e with
      | own e =>
        obtain ⟨n, hn, he⟩ := Option.bind_eq_some_iff.mp he
        obtain ⟨s, hact, rfl⟩ := Option.map_eq_some_iff.mp he
        obtain ⟨hbook', hgrows, hsent⟩ := hbook.own hn hact halone
        have hframe := (act_effect hact).pingFrame
        exact ⟨hbook', fun i => (hdated i).grows hgrows (fun r hr => Or.inl (hsent ▸ hr))
          (hframe.started i) hframe.clock⟩
      | answer r g payload =>
        obtain ⟨n, hn, rfl⟩ := Option.map_eq_some_iff.mp he
        obtain ⟨hbook', hgrows, hsent⟩ := hbook.arrive hweak (Or.inl ⟨r, g, payload, hn⟩)
        exact ⟨hbook', fun i => (hdated i).grows hgrows (fun r hr => Or.inl (hsent ▸ hr)) rfl
          (Int.le_refl _)⟩
      | report p =>
        obtain ⟨n, hn, rfl⟩ := Option.map_eq_some_iff.mp he
        obtain ⟨hbook', hgrows, hsent⟩ := hbook.arrive hweak (Or.inr ⟨p, hn⟩)
        exact ⟨hbook', fun i => (hdated i).grows hgrows (fun r hr => Or.inl (hsent ▸ hr)) rfl
          (Int.le_refl _)⟩
    · rcases Pinged.callStep_cases hx with ⟨y, n, s, rfl, hn, hcall, rfl⟩ |
        ⟨args, a, rfl, ht, rfl, rfl⟩
      · obtain ⟨hbook', hgrows, hsent⟩ := hbook.call hn hcall (hdated i).unsent hweak
        have hpings := (callStep_effect hcall).pings_of
        refine ⟨hbook', fun j => ?_⟩
        by_cases hj : j = i
        · subst hj
          rw [Config.move_thread_self]
          exact (hdated j).move (callStep_move hcall) hsent hbook'
        · rw [Config.move_thread_of_ne _ _ hj]
          refine (hdated j).grows hgrows (fun r hr => Or.inl (hsent ▸ hr)) ?_
            (Int.le_of_eq hpings.2.1.symm)
          rcases hpings.2.2.2 j with hsame | ⟨hji, -⟩
          · exact congrArg PendingPing.started hsame
          · exact absurd hji hj
      · obtain ⟨hbook', hgrows⟩ :=
          hbook.send (a := a) ((hdated i).started args a (Or.inr ht)) hweak
        refine ⟨hbook', fun j => ?_⟩
        by_cases hj : j = i
        · subst hj
          rw [Config.move_thread_self, ht]
          exact ⟨by simp [Call.unsent], fun _ _ _ => (hdated j).started args a (Or.inr ht), by simp⟩
        · rw [Config.move_thread_of_ne _ _ hj]
          refine (hdated j).grows hgrows (fun r hr => ?_) rfl (Int.le_refl _)
          rcases List.mem_cons.mp hr with rfl | hr
          · exact Or.inr (Ne.symm hj)
          · exact Or.inl hr

/-- **Main theorem.** A Pong that a call returns was credited to it when the answer to some request
was routed. The request was sent, to an address with the key under which the call registered. If the
call sent it itself, the round trip is no shorter than the true time between the request and the
routing of its answer. And the call sent it itself, if no other call's request to its key was
underway while its entry was in the table. -/
theorem pong_stems (text : SystemAddress → String) (q : Option Nat) (t₀ : Int)
    (tr : List (Config Pinged Call × Action Pinged.Act Pinged.Step)) (c : Config Pinged Call)
    (h : Trace (pinged text) anyStep (Pinged.init q t₀) tr c) (i : CallId) (args : PingArgs)
    (pong : Pong) (hreturned : c.thread i = .ping args (.returned pong)) :
    ∃ k ∈ c.shared.net.credits, k.call = i ∧ k.pong = pong ∧ k.request ∈ c.shared.net.sent ∧
      (∃ a, (i, a) ∈ c.shared.net.entered ∧ text a = text k.request.address) ∧
      (k.request.call = i → k.routed - k.request.sent ≤ pong.roundTripTime) ∧
      (AloneIn text tr i → k.request.call = i) := by
  obtain ⟨hbook, hdated⟩ := trace_book h
  obtain ⟨k, hk, rfl, rfl⟩ := (hdated i).returned args pong hreturned
  obtain ⟨hstems, hround⟩ := hbook.credits k hk
  exact ⟨k, hk, rfl, rfl, hstems.sent, hstems.key, hround, hstems.own⟩

/-- A call `Peer.ping`, up to its wait. -/
def pingWaits (i : CallId) : List (Action Pinged.Act Pinged.Step) :=
  [.thread i (.own (.inl (.ping ⟨"localhost", 19132⟩))), .thread i (.own (.inr .go)),
    .thread i (.own (.inr (.resolved (some "127.0.0.1")))), .thread i (.own (.inr .go)),
    .thread i .send, .thread i (.own (.inr (.pingResult true)))]

/-- The request of call `i` is answered, and the pump routes the answer, until call `j` returns. -/
def pongReturns (i j : CallId) (sent : Int) : List (Action Pinged.Act Pinged.Step) :=
  let r : Request := ⟨i, ⟨"127.0.0.1", 19132⟩, sent⟩
  [.shared (.answer r 7 [1]), .shared (.own .pump),
    .shared (.own (.received (.packet (r.pong 7 [1])))), .shared (.own .pump), .shared (.own .pump),
    .shared (.own .pump), .shared (.own .pump), .thread j (.own (.inr .go)),
    .thread j (.own (.inr .go))]

/-- Two calls ping two addresses, and one times out before its answer comes. The other is answered
after three seconds, by the answer to its own request. -/
theorem pong_stems_own :
    ∃ tr c, Trace (pinged SystemAddress.text) anyStep (Pinged.init none 0) tr c ∧
      c.thread 0 = .ping ⟨"localhost", 19132⟩ (.returned ⟨⟨"127.0.0.1", 19132⟩, 7, [1], 3⟩) ∧
      c.thread 1 = .ping ⟨"b", 1⟩ (.raised (.timeout "ping to b:1 timed out")) ∧
      ∃ k ∈ c.shared.net.credits, k.call = 0 ∧ k.request.call = 0 ∧
        k.routed - k.request.sent ≤ 3 := by
  have hrun : Reach (pinged SystemAddress.text)
      (fun c _ => c.shared.Alone SystemAddress.text 0) (Pinged.init none 0) _ :=
    .of_exec (show (pinged SystemAddress.text).exec
      (fun c _ => c.shared.Alone SystemAddress.text 0)
      (pingWaits 0 ++
        [.thread 1 (.own (.inl (.ping ⟨"b", 1⟩))), .thread 1 (.own (.inr .go)),
          .thread 1 (.own (.inr (.resolved (some "10.0.0.2")))), .thread 1 (.own (.inr .go)),
          .thread 1 .send, .thread 1 (.own (.inr (.pingResult true))), .shared (.own (.tick 3)),
          .thread 1 (.own (.inr .timeout)), .thread 1 (.own (.inr .go)),
          .shared (.answer ⟨1, ⟨"10.0.0.2", 1⟩, 0⟩ 8 [2]), .shared (.own .pump),
          .shared (.own (.received (.packet (Request.pong ⟨1, ⟨"10.0.0.2", 1⟩, 0⟩ 8 [2])))),
          .shared (.own .pump), .shared (.own .pump)] ++
        pongReturns 0 0 0) (Pinged.init none 0) = some _ from rfl)
  obtain ⟨tr, htr⟩ := hrun.exists_trace
  have halone : AloneIn SystemAddress.text tr 0 :=
    htr.forall_of_step (P := fun _ => True) (fun _ _ _ _ hok _ _ _ => hok) (fun _ _ => trivial)
      trivial
  have hany : Trace (pinged SystemAddress.text) anyStep (Pinged.init none 0) tr _ :=
    htr.mono fun _ _ _ => trivial
  obtain ⟨k, hk, hcall, -, -, -, hround, hown⟩ :=
    pong_stems SystemAddress.text none 0 tr _ hany 0 ⟨"localhost", 19132⟩ _ rfl
  exact ⟨tr, _, hany, rfl, by decide, k, hk, hcall, hown halone, hround (hown halone)⟩

/-- A ping times out after five seconds. A second ping to the same address is answered, a second
later, by the answer to the first: it returns a round trip of one second for a pong that took
six. -/
theorem pong_late :
    ¬ ∀ tr c, Trace (pinged SystemAddress.text) anyStep (Pinged.init none 0) tr c →
      ∀ i args pong, c.thread i = .ping args (.returned pong) →
        ∃ k ∈ c.shared.net.credits, k.call = i ∧ k.pong = pong ∧ k.request.call = i ∧
          k.routed - k.request.sent ≤ pong.roundTripTime := by
  intro hall
  have hrun : Reach (pinged SystemAddress.text) anyStep (Pinged.init none 0) _ :=
    .of_exec (show (pinged SystemAddress.text).exec anyStep
      (pingWaits 0 ++ [.shared (.own (.tick 5)), .thread 0 (.own (.inr .timeout)),
        .thread 0 (.own (.inr .go))] ++ pingWaits 1 ++ .shared
          (.own (.tick 1)) :: pongReturns 0 1 0)
      (Pinged.init none 0) = some _ from rfl)
  obtain ⟨tr, htr⟩ := hrun.exists_trace
  obtain ⟨k, hk, -, -, hown, -⟩ :=
    hall tr _ htr 1 ⟨"localhost", 19132⟩ ⟨⟨"127.0.0.1", 19132⟩, 7, [1], 1⟩ rfl
  obtain rfl : k = ⟨1, ⟨⟨"127.0.0.1", 19132⟩, 7, [1], 1⟩, ⟨0, ⟨"127.0.0.1", 19132⟩, 0⟩, 6⟩ :=
    List.mem_singleton.mp hk
  cases hown

end Raknet
