import Raknet.Remote
import Raknet.Sync.Requests

/-!
# Remote peers do not interfere with one another

A `Session` runs packets and calls on Connections one after the other. A Connection is named by its
guid and its place among the Connections of that guid, since other remotes' Connections must not
count. The operations are those of `Raknet.Sink`, which `pump_routed`, `recv_alone` and
`close_alone` connect to the steps of the pump and of the calls.

**Theorem (`isolation`).** Two runs from one Peer that agree on what concerns a guid `g` and an
address `a` agree on the Connections of `g`, the results of the calls on them, and the resolution of
the connect and the ping pending under `a`.
-/

namespace Raknet

open Interleaving Projection

/-! ## Runs -/

/-- A packet that the pump routes, or a call on the `n`-th Connection of a guid. -/
inductive Item
  | packet (p : Packet)
  | recv (g : Guid) (n : Nat)
  | close (g : Guid) (n : Nat) (notify : Bool)
deriving DecidableEq, Repr

/-- A Peer, and the results of the calls so far. -/
structure Session where
  peer : Peer
  results : List (Guid × Nat × Peer.Recv)

/-- One item, at a time. The pump routes nothing once the Peer is closed, and a call needs its
Connection. -/
def Session.step (text : SystemAddress → String) (s : Session) (x : Item × Int) : Session :=
  match x.1 with
  | .packet p => if s.peer.closed then s else { s with peer := s.peer.routed text x.2 p }
  | .recv g n =>
    match (s.peer.named g)[n]? with
    | none => s
    | some c => ⟨(s.peer.recv c).2, s.results ++ [(g, n, (s.peer.recv c).1)]⟩
  | .close g n _ =>
    match (s.peer.named g)[n]? with
    | none => s
    | some c => { s with peer := s.peer.connectionClose c }

/-- A run from a Peer. -/
def Peer.run (text : SystemAddress → String) (p : Peer) (l : List (Item × Int)) : Session :=
  l.foldl (Session.step text) ⟨p, []⟩

/-- The item carries `g` or `a`. -/
def Item.concerns (g : Guid) (a : SystemAddress) : Item → Bool
  | packet p => p.guid = g || p.systemAddress = a
  | recv h _ | close h _ _ => h = g

/-- The item carries `g` together with `a` or neither. -/
def Item.Paired (g : Guid) (a : SystemAddress) : Item → Prop
  | packet p => p.guid = g ↔ p.systemAddress = a
  | _ => True

instance Item.Paired.decidable (g : Guid) (a : SystemAddress) (x : Item) :
    Decidable (x.Paired g a) := by
  unfold Item.Paired
  split <;> infer_instance

/-- The item closes no Connection of another guid that owns the Peer. -/
def Item.Spares (p : Peer) (g : Guid) : Item → Prop
  | close h n _ => h ≠ g → ∀ c ∈ (p.named h)[n]?, (p.connection c).ownsPeer = false
  | _ => True

instance Item.Spares.decidable (p : Peer) (g : Guid) : (x : Item) → Decidable (x.Spares p g)
  | .close h n _ =>
    inferInstanceAs (Decidable (h ≠ g → ∀ c ∈ (p.named h)[n]?, (p.connection c).ownsPeer = false))
  | .packet _ | .recv _ _ => .isTrue trivial

/-! ## What the remote sees of a run -/

/-- What concerns the remote, and the results of the calls on its Connections. -/
def Session.remote (g : Guid) (key : String) (i j : Option CallId) (s : Session) :
    Remote × List (Nat × Peer.Recv) :=
  (s.peer.remote g key i j, (s.results.filter (·.1 = g)).map (·.2))

/-- One item, seen by the remote it concerns. -/
def Remote.step (v : Remote × List (Nat × Peer.Recv)) : Item → Remote × List (Nat × Peer.Recv)
  | .packet p => if v.1.closed then v else (v.1.routed p, v.2)
  | .recv _ n =>
    ((v.1.recv n).2, v.2 ++ (v.1.recv n).1.toList.map fun r => (n, r))
  | .close _ n _ => (v.1.connectionClose n, v.2)

variable {text : SystemAddress → String} {g : Guid} {a : SystemAddress} {key : String}
  {i j : Option CallId} {s : Session} {p₀ p : Peer}

/-! ## Nothing but the items changes the tables -/

theorem fits_build (hf : p.Fits p₀ g key i j) (b : SystemAddress) (h : Guid) :
    ((p.construct b h).register h p.created).Fits p₀ g key i j := by
  have hlt : ∀ {c}, c < p.created → c ≠ p.created := Nat.ne_of_lt
  refine hf.of_step ⟨Nat.le_succ _, fun c hc => ?_, fun c hle hc => ?_⟩ (fun h' c hc => ?_)
    (fun m c hc => Or.inl hc) (fun k m hk => hk) (fun k m hk => hk)
  · simp [Function.update_of_ne (hlt hc)]
  · obtain rfl : c = p.created := Nat.le_antisymm (Nat.le_of_lt_succ hc) hle
    simp [Connection.new]
  · simp only [Peer.register_connections, Dict.get?_set] at hc
    split_ifs at hc with hh
    · cases hc
      exact Or.inr ⟨Nat.lt_succ_self _, by simp [hh]⟩
    · exact Or.inl hc

theorem fits_popConnect (hf : p.Fits p₀ g key i j) (k : String) :
    (p.popConnect k).Fits p₀ g key i j :=
  hf.of_step (Peer.extends_of_eq rfl fun _ => ⟨rfl, rfl⟩) (fun _ _ hc => Or.inl hc)
    (fun _ _ hc => Or.inl hc)
    (fun k m hk => by grind) (fun _ _ hk => hk)

theorem fits_popPing (hf : p.Fits p₀ g key i j) (k : String) : (p.popPing k).Fits p₀ g key i j :=
  hf.of_step (Peer.extends_of_eq rfl fun _ => ⟨rfl, rfl⟩) (fun _ _ hc => Or.inl hc)
    (fun _ _ hc => Or.inl hc)
    (fun _ _ hk => hk) (fun k m hk => by grind)

theorem fits_setPendingConnect (hf : p.Fits p₀ g key i j) (m : CallId) (x : PendingConnect)
    (hx : ∀ c, x.connection = some c → c < p.created) :
    (p.setPendingConnect m x).Fits p₀ g key i j :=
  hf.of_step (Peer.extends_of_eq rfl fun _ => ⟨rfl, rfl⟩) (fun _ _ hc => Or.inl hc)
    (fun l c hc => by grind)
    (fun _ _ hk => hk) (fun _ _ hk => hk)

theorem fits_setPendingPing (hf : p.Fits p₀ g key i j) (m : CallId) (x : PendingPing) :
    (p.setPendingPing m x).Fits p₀ g key i j :=
  hf.of_step (Peer.extends_of_eq rfl fun _ => ⟨rfl, rfl⟩) (fun _ _ hc => Or.inl hc)
    (fun _ _ hc => Or.inl hc)
    (fun _ _ hk => hk) (fun _ _ hk => hk)

theorem fits_retire (hf : p.Fits p₀ g key i j) (h : Guid) (c : ConnId) (exc : ConnectionClosed) :
    (((p.unregister h).markClosed c).closeMailbox c exc).Fits p₀ g key i j := by
  refine hf.of_step (Peer.extends_of_eq rfl fun k => ?_) ?_ ?_ ?_ ?_ <;> grind

theorem fits_setMailbox (hf : p.Fits p₀ g key i j) (c : ConnId) (m : Mailbox) :
    (p.setMailbox c m).Fits p₀ g key i j := by
  refine hf.of_step (Peer.extends_of_eq rfl fun k => ?_) ?_ ?_ ?_ ?_ <;> grind

theorem fits_close (hf : p.Fits p₀ g key i j) : p.close.Fits p₀ g key i j := by
  cases hopen : p.closed with
  | true => simpa [Peer.close, hopen] using hf
  | false =>
    rw [Peer.close_eq hopen]
    refine hf.of_step (Peer.extends_of_eq rfl fun c => ?_) (by simp) (fun m c hc => Or.inl ?_)
      (by simp) (by simp)
    · dsimp only
      split_ifs <;> exact ⟨rfl, rfl⟩
    · dsimp only at hc
      split_ifs at hc <;> exact hc

theorem fits_connectionClose (hf : p.Fits p₀ g key i j) (c : ConnId) :
    (p.connectionClose c).Fits p₀ g key i j := by
  have hone :
      (if (p.connection c).closed = true then p else p.closeConnection c).Fits p₀ g key i j := by
    split_ifs
    · exact hf
    · exact fits_retire hf _ c _
  simp only [Peer.connectionClose]
  generalize (if (p.connection c).closed = true then p else p.closeConnection c) = p' at hone ⊢
  split_ifs
  · exact fits_close hone
  · exact hone

theorem fits_recv (hf : p.Fits p₀ g key i j) (c : ConnId) : (p.recv c).2.Fits p₀ g key i j := by
  unfold Peer.recv
  split
  · exact fits_setMailbox hf c _
  · exact hf
  · exact hf

theorem fits_callback (hf : p.Fits p₀ g key i j) (now : Int) (cb : Callback) :
    (p.callback text now cb).Fits p₀ g key i j := by
  cases cb with
  | incomingConnection b h =>
    have hb := fits_build hf b h
    exact ⟨⟨hb.entry, hb.assigned, hb.connects, hb.pings⟩, hb.connect, hb.ping,
      ⟨hb.from_start.created, hb.from_start.old, hb.from_start.new⟩⟩
  | connectSucceeded b h =>
    simp only [Peer.callback, Peer.connectSucceeded]
    split
    · exact hf
    · have hb := fits_build (fits_popConnect hf (text b)) b h
      refine fits_setPendingConnect (fits_setPendingConnect hb _ _ ?_) _ _ ?_
      · rintro c ⟨⟩
        exact Nat.lt_succ_self _
      · intro c hc
        simp at hc
        rw [← hc]
        exact Nat.lt_succ_self _
  | connectFailed b r =>
    simp only [Peer.callback, Peer.connectFailed]
    split
    · exact hf
    · refine fits_setPendingConnect (fits_setPendingConnect (fits_popConnect hf _) _ _ ?_) _ _ ?_
      · exact fun c hc => hf.assigned _ c hc
      · intro c hc
        simp at hc
        exact hf.assigned _ c hc
  | message h d =>
    simp only [Peer.callback, Peer.message]
    split
    · exact hf
    · split
      · exact fits_setMailbox hf _ _
      · exact fits_retire hf _ _ _
  | disconnected h b =>
    simp only [Peer.callback, Peer.disconnected]
    split
    · exact hf
    · exact fits_retire hf _ _ _
  | pong b h d =>
    simp only [Peer.callback, Peer.pong]
    split
    · exact hf
    · exact fits_setPendingPing (fits_setPendingPing (fits_popPing hf _) _ _) _ _

/-! ## The remote's part is a machine of its own -/

theorem remote_routed {p : Peer} (hf : p.Fits p₀ g (text a) i j) (hinj : Function.Injective text)
    {packet : Packet} (hpair : packet.guid = g ↔ packet.systemAddress = a) (now : Int) :
    (p.routed text now packet).remote g (text a) i j =
      if packet.guid = g then (p.remote g (text a) i j).routed packet
      else p.remote g (text a) i j := by
  have hkey : text packet.systemAddress = text a ↔ packet.guid = g :=
    hinj.eq_iff.trans hpair.symm
  simp only [Peer.routed, Remote.routed]
  rcases hr : route packet with _ | cb
  · simp
  · rcases route_cases hr with ⟨-, rfl⟩ | ⟨-, rfl⟩ | ⟨-, rfl⟩ | ⟨r, -, -, rfl⟩ | ⟨-, rfl⟩ |
      ⟨-, rfl⟩ |
      ⟨-, rfl⟩
    · exact Peer.remote_message hf _
    · exact Peer.remote_incomingConnection hf
    · exact Peer.remote_connectSucceeded hf hkey
    · simp only [Peer.callback, Peer.remote_connectFailed hf, hkey, Remote.callback]
    · exact Peer.remote_disconnected hf _
    · exact Peer.remote_disconnected hf _
    · exact Peer.remote_pong hf hkey _ _

theorem remote_unnamed {p : Peer} {n : Nat} (h : (p.named g)[n]? = none) :
    (p.remote g key i j).connections[n]? = none := by
  simp [Peer.remote, h]

/-- **The remote's part of a Peer is a machine of its own.** -/
theorem session_projects (hinj : Function.Injective text) (p₀ : Peer) (g : Guid)
    (a : SystemAddress) (i j : Option CallId) :
    Projects (Session.step text) (fun s => s.peer.Fits p₀ g (text a) i j)
      (fun x => x.1.Paired g a ∧ x.1.Spares p₀ g)
      (Session.remote g (text a) i j) (fun x => x.1.concerns g a) Prod.fst Remote.step := by
  constructor
  case keeps =>
    rintro s ⟨x, now⟩ hf -
    cases x with
    | packet p =>
      simp only [Session.step]
      split_ifs
      · exact hf
      · rw [Peer.routed]
        split
        · exact hf
        · exact fits_callback hf now _
    | recv h n =>
      simp only [Session.step]
      split
      · exact hf
      · exact fits_recv hf _
    | close h n notify =>
      simp only [Session.step]
      split
      · exact hf
      · exact fits_connectionClose hf _
  case moves =>
    rintro s ⟨x, now⟩ hf ⟨hpair, hspares⟩ hc
    cases x with
    | packet p =>
      have hg : p.guid = g := by
        simp only [Item.concerns, Bool.or_eq_true, decide_eq_true_eq] at hc
        exact hc.elim id hpair.mpr
      have hclosed : (s.peer.remote g (text a) i j).closed = s.peer.closed := rfl
      simp only [Session.step, Remote.step, Session.remote, hclosed]
      split_ifs
      · rfl
      · rw [remote_routed hf hinj hpair, if_pos hg]
    | recv h n =>
      obtain rfl : h = g := by simpa [Item.concerns] using hc
      simp only [Session.step, Remote.step, Session.remote]
      cases hn : (s.peer.named h)[n]? with
      | none => simp [Remote.recv, remote_unnamed hn]
      | some c =>
        obtain ⟨rfl, hlt, hguid⟩ := Peer.remote_named hn
        simp [Peer.remote_recv hlt hguid]
    | close h n notify =>
      obtain rfl : h = g := by simpa [Item.concerns] using hc
      simp only [Session.step, Remote.step, Session.remote]
      cases hn : (s.peer.named h)[n]? with
      | none => simp [Remote.connectionClose, remote_unnamed hn]
      | some c =>
        obtain ⟨rfl, hlt, hguid⟩ := Peer.remote_named hn
        rw [Peer.remote_connectionClose hf hlt fun hne => absurd hguid hne, if_pos hguid]
  case stays =>
    rintro s ⟨x, now⟩ hf ⟨hpair, hspares⟩ hc
    cases x with
    | packet p =>
      have hg : p.guid ≠ g := by
        simp only [Item.concerns, Bool.or_eq_false_iff, decide_eq_false_iff_not] at hc
        exact hc.1
      simp only [Session.step, Session.remote]
      split_ifs
      · rfl
      · rw [remote_routed hf hinj hpair, if_neg hg]
    | recv h n =>
      have hg : h ≠ g := by simpa [Item.concerns] using hc
      simp only [Session.step, Session.remote]
      cases hn : (s.peer.named h)[n]? with
      | none => rfl
      | some c =>
        obtain ⟨-, hlt, hguid⟩ := Peer.remote_named hn
        simp [Peer.remote_recv_other hlt (hguid.trans_ne hg), hg]
    | close h n notify =>
      have hg : h ≠ g := by simpa [Item.concerns] using hc
      simp only [Session.step, Session.remote]
      cases hn : (s.peer.named h)[n]? with
      | none => rfl
      | some c =>
        obtain ⟨-, hlt, hguid⟩ := Peer.remote_named hn
        rw [Peer.remote_connectionClose hf hlt fun _ => hf.from_start.not_owner hn (hspares hg),
          if_neg (hguid.trans_ne hg)]

/-! ## Isolation -/

/-- The Connections ever created for `g`, in order. -/
def Session.connections (s : Session) (g : Guid) : List Connection :=
  (s.peer.named g).map s.peer.connection

/-- The results of the calls on the Connections of `g`, in order. -/
def Session.resultsOf (s : Session) (g : Guid) : List (Nat × Peer.Recv) :=
  (s.results.filter (·.1 = g)).map (·.2)

/-- How the pending connect of call `i` is resolved. -/
def Session.resolution (s : Session) (i : CallId) : Resolution :=
  ((s.peer.pendingConnect i).event, (s.peer.pendingConnect i).connection.map s.peer.name,
    (s.peer.pendingConnect i).reason)

/-- How the pending ping of call `j` is resolved, apart from the measured time. -/
def Session.pingResolution (s : Session) (j : CallId) : PingResolution :=
  ((s.peer.pendingPing j).event,
    (s.peer.pendingPing j).pong.map fun pong => (pong.address, pong.guid, pong.data))

/-- **Remote peers do not interfere with one another.** Two runs from one Peer that agree on the
items that concern `g` and `a`, whatever the other items and the times are, agree on all that
concerns `g` and `a`. No item closes a Connection of another guid that owns the Peer: that closes
the Peer. -/
theorem isolation (hinj : Function.Injective text) {g : Guid} {a : SystemAddress} {p : Peer}
    (hw : p.WellFormed) {l l' : List (Item × Int)}
    (hl : ∀ x ∈ l, x.1.Paired g a ∧ x.1.Spares p g)
    (hl' : ∀ x ∈ l', x.1.Paired g a ∧ x.1.Spares p g)
    (hagree : (l.filter fun x => x.1.concerns g a).map Prod.fst =
      (l'.filter fun x => x.1.concerns g a).map Prod.fst) :
    (p.run text l).connections g = (p.run text l').connections g ∧
    (p.run text l).resultsOf g = (p.run text l').resultsOf g ∧
    (∀ i, p.pendingConnects.get? (text a) = some i →
      (p.run text l).resolution i = (p.run text l').resolution i) ∧
    (∀ j, p.pendingPings.get? (text a) = some j →
      (p.run text l).pingResolution j = (p.run text l').pingResolution j) := by
  have hf :
      p.Fits p g (text a) (p.pendingConnects.get? (text a)) (p.pendingPings.get? (text a)) := by
    refine ⟨hw, fun k m hk => ⟨?_, fun hm => hw.connects k _ m hk hm⟩,
      fun k m hk => ⟨?_, fun hm => hw.pings k _ m hk hm⟩, .refl p⟩ <;>
    · rintro rfl
      exact hk
  have heq := (session_projects hinj p g a _ _).noninterference (s := ⟨p, []⟩) hf hl hl' hagree
  have hremote := congrArg Prod.fst heq
  refine ⟨congrArg Remote.connections hremote, congrArg Prod.snd heq, fun i hi => ?_,
    fun j hj => ?_⟩
  · have hconnect := congrArg Remote.connect hremote
    simp only [Session.remote, Peer.remote, hi, Option.map_some, Option.some.injEq] at hconnect
    exact hconnect
  · have hping := congrArg Remote.ping hremote
    simp only [Session.remote, Peer.remote, hj, Option.map_some, Option.some.injEq] at hping
    exact hping

theorem reach_wellFormed {ok : Sync → SyncAction → Prop} {c : Sync} {q : Option Nat} {t₀ : Int}
    (h : Reach (sync text) ok (Sync.init q t₀) c) : c.shared.peer.WellFormed := by
  have hr := (reach_registryInv h).1
  have hp := (reach_pendingInv h).1
  exact ⟨fun g k hk => ⟨(hr.inv.listed_published g k hk).1, hr.inv.listed_guid g k hk⟩,
    fun i k hk => (hr.pending i k hk).1, hp.connects.table_inj, hp.pings.table_inj⟩

/-- The address of the remote in the examples. -/
def home : SystemAddress := ⟨"10.0.0.1", 1⟩

/-- A Peer with room for one payload per Connection that is connecting to `home`. -/
def connectingPeer : Peer := (Peer.init (some 1)).registerConnect (SystemAddress.text home) 0

/-- The remote accepts, sends a payload, and the payload is received. -/
def quietRun : List (Item × Int) :=
  [(.packet ⟨home, 7, [16]⟩, 0), (.packet ⟨home, 7, [134, 1]⟩, 0), (.recv 7 0, 0)]

/-- The same, while another remote connects and floods its own mailbox. -/
def floodedRun : List (Item × Int) :=
  [(.packet ⟨⟨"10.0.0.2", 2⟩, 8, [19]⟩, 0), (.packet ⟨home, 7, [16]⟩, 1),
    (.packet ⟨⟨"10.0.0.2", 2⟩, 8, [134]⟩, 2), (.packet ⟨⟨"10.0.0.2", 2⟩, 8, [134]⟩, 3),
    (.packet ⟨home, 7, [134, 1]⟩, 4), (.close 8 0 true, 5), (.recv 7 0, 6)]

/-- The flood of the other remote does not show. -/
theorem isolation_flooded :
    (connectingPeer.run SystemAddress.text floodedRun).connections 7 =
      (connectingPeer.run SystemAddress.text quietRun).connections 7 := by
  refine (isolation text_injective (a := home) ?_ ?_ ?_ ?_).1
  · refine ⟨?_, ?_, ?_, ?_⟩
    · simp [connectingPeer, Peer.init]
    · simp [connectingPeer, Peer.init, PendingConnect.new]
    · intro k k' i hk hk'
      simp only [connectingPeer, Peer.init, Peer.registerConnect_pendingConnects, Dict.get?_set,
        Dict.get?_empty] at hk hk'
      split_ifs at hk with h
      split_ifs at hk' with h'
      exact h.trans h'.symm
    · simp [connectingPeer, Peer.init]
  · decide
  · decide
  · decide

end Raknet
