import Raknet.Lib.Projection
import Raknet.Sink

/-!
# What one remote peer sees

`Peer.remote` is the part of a Peer that concerns one guid and one address: the Connections ever
created for the guid, in order, which of them is registered, and the pending connect and the pending
ping under the address. `Remote` has the operations of the Peer on this part alone.
-/

namespace Raknet

/-! ## Names -/

/-- The Connections created for `g`, in order. -/
def Peer.named (p : Peer) (g : Guid) : List ConnId :=
  (List.range p.created).filter fun c => (p.connection c).rawGuid = g

/-- The guid of a Connection, and how many were created for it before. -/
def Peer.name (p : Peer) (c : ConnId) : Guid × Nat :=
  ((p.connection c).rawGuid, (p.named (p.connection c).rawGuid).idxOf c)

/-! ## The part of one remote -/

/-- How a pending connect is resolved: the event, the Connection's name and the reason. -/
abbrev Resolution := Bool × Option (Guid × Nat) × Option DefaultMessageIDTypes

/-- How a pending ping is resolved: the event, and the pong apart from its measured time. -/
abbrev PingResolution := Bool × Option (SystemAddress × Guid × Bytes)

/-- What concerns one guid and one address. -/
@[ext] structure Remote where
  closed : Bool
  maxQueue : Option Nat
  connections : List Connection
  /-- the registered Connection -/
  entry : Option Nat
  /-- a connect is pending under the address -/
  connecting : Bool
  connect : Option Resolution
  /-- a ping is pending under the address -/
  pinging : Bool
  ping : Option PingResolution

/-- What concerns the guid `g` and the key of an address, with the calls `i` and `j` that were
pending under the key at first. -/
def Peer.remote (p : Peer) (g : Guid) (key : String) (i j : Option CallId) : Remote where
  closed := p.closed
  maxQueue := p.maxQueue
  connections := (p.named g).map p.connection
  entry := (p.connections.get? g).map (p.named g).idxOf
  connecting := (p.pendingConnects.get? key).isSome
  connect := i.map fun i =>
    ((p.pendingConnect i).event, (p.pendingConnect i).connection.map p.name,
      (p.pendingConnect i).reason)
  pinging := (p.pendingPings.get? key).isSome
  ping := j.map fun j =>
    ((p.pendingPing j).event,
      (p.pendingPing j).pong.map fun pong => (pong.address, pong.guid, pong.data))

namespace Remote

variable (v : Remote)

/-- A Connection is created and registered. -/
def build (a : SystemAddress) (g : Guid) : Remote :=
  { v with
    connections := v.connections ++ [.new v.maxQueue a g]
    entry := some v.connections.length }

/-- A mailbox changes. -/
def setMailbox (n : Nat) (m : Mailbox) : Remote :=
  { v with connections := v.connections.modify n (·.setMailbox m) }

/-- The entry is removed and a Connection closed. -/
def retire (n : Nat) (exc : ConnectionClosed) : Remote :=
  { v with
    entry := none
    connections := v.connections.modify n fun c =>
      c.markClosed.setMailbox (c.mailbox.close exc) }

/-- The pending connect is resolved. -/
def settle (f : Resolution → Resolution) : Remote :=
  { v with connecting := false, connect := v.connect.map f }

def incomingConnection (a : SystemAddress) (g : Guid) : Remote := v.build a g

def connectSucceeded (a : SystemAddress) (g : Guid) : Remote :=
  if v.connecting then
    (v.build a g).settle fun o => (true, some (g, v.connections.length), o.2.2)
  else v

def connectFailed (reason : DefaultMessageIDTypes) : Remote :=
  if v.connecting then v.settle fun o => (true, o.2.1, some reason) else v

def message (data : Bytes) : Remote :=
  match v.entry with
  | none => v
  | some n =>
    match v.connections[n]? with
    | none => v
    | some c =>
      match c.mailbox.put data with
      | (true, m) => v.setMailbox n m
      | (false, _) => v.retire n (.error "receive queue overflow")

def disconnected (graceful : Bool) : Remote :=
  match v.entry with
  | none => v
  | some n => v.retire n (State.remoteReason graceful)

def pong (a : SystemAddress) (g : Guid) (data : Bytes) : Remote :=
  if v.pinging then
    { v with pinging := false, ping := v.ping.map fun _ => (true, some (a, g, data)) }
  else v

def callback : Callback → Remote
  | .incomingConnection a g => v.incomingConnection a g
  | .connectSucceeded a g => v.connectSucceeded a g
  | .connectFailed _ r => v.connectFailed r
  | .message _ d => v.message d
  | .disconnected _ b => v.disconnected b
  | .pong a g d => v.pong a g d

def routed (p : Packet) : Remote :=
  match route p with
  | none => v
  | some cb => v.callback cb

def recv (n : Nat) : Option Peer.Recv × Remote :=
  match v.connections[n]? with
  | none => (none, v)
  | some c =>
    match c.mailbox.get with
    | .item d m => (some (.returned d), v.setMailbox n m)
    | .raised exc => (some (.raised exc), v)
    | .blocked => (some .timedOut, v)

/-- `Peer.close`. -/
def close : Remote :=
  if v.closed then v
  else
    { v with
      closed := true
      connections :=
        match v.entry with
        | none => v.connections
        | some n => v.connections.modify n fun c =>
          c.markClosed.setMailbox (c.mailbox.close (.ok "peer closed"))
      entry := none
      connecting := false
      connect :=
        if v.connecting then
          v.connect.map fun o => (true, o.2.1, some .connectionAttemptFailed)
        else v.connect
      pinging := false
      ping := if v.pinging then v.ping.map fun o => (true, o.2) else v.ping }

/-- `Connection.close`. -/
def connectionClose (n : Nat) : Remote :=
  match v.connections[n]? with
  | none => v
  | some c =>
    let v := if c.closed then v else v.retire n (.ok "connection closed")
    if c.ownsPeer then v.close else v

end Remote

/-! ## Well-formed Peers -/

/-- Entries are Connections under their own guid, no pending object has two keys, and what a pending
connect was given exists. -/
structure Peer.WellFormed (p : Peer) : Prop where
  entry : ∀ g c, p.connections.get? g = some c → c < p.created ∧ (p.connection c).rawGuid = g
  assigned : ∀ i c, (p.pendingConnect i).connection = some c → c < p.created
  connects : ∀ k k' i, p.pendingConnects.get? k = some i → p.pendingConnects.get? k' = some i →
    k = k'
  pings : ∀ k k' i, p.pendingPings.get? k = some i → p.pendingPings.get? k' = some i → k = k'

namespace Peer

variable {p₀ p p' : Peer} {g h : Guid} {key : String} {i j : Option CallId} {c : ConnId}

/-! ## Names do not change -/

theorem mem_named : c ∈ p.named g ↔ c < p.created ∧ (p.connection c).rawGuid = g := by
  simp [named]

theorem named_nodup : (p.named g).Nodup := List.nodup_range.filter _

theorem remote_named {n : Nat} (h : (p.named g)[n]? = some c) :
    (p.named g).idxOf c = n ∧ c < p.created ∧ (p.connection c).rawGuid = g := by
  obtain ⟨hn, rfl⟩ := List.getElem?_eq_some_iff.mp h
  exact ⟨named_nodup.idxOf_getElem n hn, mem_named.mp (List.getElem_mem hn)⟩

theorem named_congr {p q : Peer} (hcreated : q.created = p.created)
    (hguid : ∀ c, (q.connection c).rawGuid = (p.connection c).rawGuid) :
    q.named = p.named ∧ q.name = p.name := by
  have hnamed : q.named = p.named := by
    funext g
    simp only [named, hcreated, hguid]
  exact ⟨hnamed, funext fun c => by simp only [name, hnamed, hguid]⟩

@[simp] theorem named_popConnect (k : String) : (p.popConnect k).named = p.named :=
  (named_congr rfl fun _ => rfl).1

@[simp] theorem name_popConnect (k : String) : (p.popConnect k).name = p.name :=
  (named_congr rfl fun _ => rfl).2

@[simp] theorem name_setPendingConnect (m : CallId) (x : PendingConnect) :
    (p.setPendingConnect m x).name = p.name :=
  (named_congr rfl fun _ => rfl).2

@[simp] theorem name_register (c : ConnId) : (p.register h c).name = p.name :=
  (named_congr rfl fun _ => rfl).2

theorem named_construct (a : SystemAddress) :
    (p.construct a h).named g = p.named g ++ if h = g then [p.created] else [] := by
  have hold :
      ((List.range p.created).filter fun c => ((p.construct a h).connection c).rawGuid = g) =
      p.named g := by
    refine List.filter_congr fun c hc => ?_
    have hne : c ≠ p.created := Nat.ne_of_lt (List.mem_range.mp hc)
    simp [Function.update_of_ne hne]
  rw [named, construct_created, List.range_succ, List.filter_append, hold]
  congr 1
  split_ifs with hg <;> simp [hg]

theorem name_construct (a : SystemAddress) (hc : c < p.created) :
    (p.construct a h).name c = p.name c := by
  have hguid : ((p.construct a h).connection c).rawGuid = (p.connection c).rawGuid := by
    simp [Function.update_of_ne (Nat.ne_of_lt hc)]
  rw [name, name, hguid, named_construct, List.idxOf_append_of_mem (mem_named.mpr ⟨hc, rfl⟩)]

/-! ## Single writes, seen by the remote -/

/-- Writing one Connection changes one place of the list. -/
theorem map_update {l : List ConnId} (hl : l.Nodup) (f : ConnId → Connection)
    (u : Connection → Connection) :
    l.map (Function.update f c (u (f c))) =
      if c ∈ l then (l.map f).modify (l.idxOf c) u else l.map f := by
  induction l with
  | nil => rfl
  | cons k l ih =>
    obtain ⟨hk, hl⟩ := List.nodup_cons.mp hl
    rw [List.map_cons, ih hl]
    by_cases hkc : k = c
    · subst hkc
      simp [hk]
    · have hck : c ≠ k := fun h => hkc h.symm
      simp only [Function.update_of_ne hkc, List.mem_cons, hck, false_or, List.idxOf_cons_ne _ hkc]
      split_ifs <;> simp

/-- Change one Connection. -/
def change (p : Peer) (c : ConnId) (u : Connection → Connection) : Peer :=
  { p with connection := Function.update p.connection c (u (p.connection c)) }

/-- Changing a Connection of another guid does not show, and one of the remote's shows at its place
in the list. -/
theorem remote_change (u : Connection → Connection) (hu : ∀ x, (u x).rawGuid = x.rawGuid)
    (hc : c < p.created) :
    (p.change c u).remote g key i j =
      if (p.connection c).rawGuid = g then
        { p.remote g key i j with
          connections := (p.remote g key i j).connections.modify ((p.named g).idxOf c) u }
      else p.remote g key i j := by
  obtain ⟨hnamed, hname⟩ := named_congr (p := p) (q := p.change c u) rfl
    (fun k => by by_cases hk : k = c <;> simp [change, hk, hu])
  simp only [remote, hnamed, hname]
  simp only [change, map_update named_nodup, mem_named, hc, true_and]
  split_ifs <;> rfl

theorem remote_unregister : (p.unregister h).remote g key i j =
    if h = g then { p.remote g key i j with entry := none } else p.remote g key i j := by
  split_ifs with hg
  · subst hg
    simp only [remote, unregister, Dict.get?_erase, if_pos]
    rfl
  · simp only [remote, unregister, Dict.get?_erase, if_neg (Ne.symm hg)]
    rfl

theorem remote_setMailbox (hc : c < p.created) (m : Mailbox) :
    (p.setMailbox c m).remote g key i j =
      if (p.connection c).rawGuid = g then
        (p.remote g key i j).setMailbox ((p.named g).idxOf c) m
      else p.remote g key i j :=
  remote_change (·.setMailbox m) (fun _ => rfl) hc

theorem remote_retire (hc : c < p.created) (hguid : (p.connection c).rawGuid = h)
    (exc : ConnectionClosed) :
    (((p.unregister h).markClosed c).closeMailbox c exc).remote g key i j =
      if h = g then (p.remote g key i j).retire ((p.named g).idxOf c) exc
      else p.remote g key i j := by
  have hone : ((p.unregister h).markClosed c).closeMailbox c exc =
      (p.unregister h).change c fun x => x.markClosed.setMailbox (x.mailbox.close exc) := by
    simp [closeMailbox, setMailbox, markClosed, mailbox, change]
  have hguid' : ((p.unregister h).connection c).rawGuid = h := hguid
  have hc' : c < (p.unregister h).created := hc
  rw [hone, remote_change (fun x => x.markClosed.setMailbox (x.mailbox.close exc))
    (fun _ => rfl) hc', remote_unregister, hguid']
  split_ifs <;> rfl

theorem remote_popConnect (k : String) : (p.popConnect k).remote g key i j =
    if k = key then { p.remote g key i j with connecting := false } else p.remote g key i j := by
  obtain ⟨hnamed, hname⟩ := named_congr (p := p) (q := p.popConnect k) rfl fun _ => rfl
  by_cases hk : k = key
  · subst hk
    simp [remote, hnamed, hname]
  · simp [remote, hnamed, hname, hk, Ne.symm hk]

theorem remote_popPing (k : String) : (p.popPing k).remote g key i j =
    if k = key then { p.remote g key i j with pinging := false } else p.remote g key i j := by
  obtain ⟨hnamed, hname⟩ := named_congr (p := p) (q := p.popPing k) rfl fun _ => rfl
  by_cases hk : k = key
  · subst hk
    simp [remote, hnamed, hname]
  · simp [remote, hnamed, hname, hk, Ne.symm hk]

theorem remote_setPendingConnect (m : CallId) (x : PendingConnect) :
    (p.setPendingConnect m x).remote g key i j =
      if i = some m then
        { p.remote g key i j with connect := some (x.event, x.connection.map p.name, x.reason) }
      else p.remote g key i j := by
  obtain ⟨hnamed, hname⟩ := named_congr (p := p) (q := p.setPendingConnect m x) rfl fun _ => rfl
  cases i with
  | none => simp [remote, hnamed]
  | some l => by_cases hl : l = m <;> simp [remote, hnamed, hname, hl]

theorem remote_setPendingPing (m : CallId) (x : PendingPing) :
    (p.setPendingPing m x).remote g key i j =
      if j = some m then
        { p.remote g key i j with
          ping := some (x.event, x.pong.map fun pong => (pong.address, pong.guid, pong.data)) }
      else p.remote g key i j := by
  obtain ⟨hnamed, hname⟩ := named_congr (p := p) (q := p.setPendingPing m x) rfl fun _ => rfl
  cases j with
  | none => simp [remote, hnamed, hname]
  | some l => by_cases hl : l = m <;> simp [remote, hnamed, hname, hl]

theorem remote_build (hw : p.WellFormed) (a : SystemAddress) :
    ((p.construct a h).register h p.created).remote g key i j =
      if h = g then (p.remote g key i j).build a h else p.remote g key i j := by
  obtain ⟨hnamed, hname⟩ := named_congr (p := p.construct a h)
    (q := (p.construct a h).register h p.created) rfl fun _ => rfl
  have hold : ((p.named g).map (Function.update p.connection p.created (.new p.maxQueue a h))) =
      (p.named g).map p.connection :=
    List.map_congr_left fun c hc =>
      Function.update_of_ne (Nat.ne_of_lt (mem_named.mp hc).1) _ _
  have hassigned : ∀ m, ((p.pendingConnect m).connection.map (p.construct a h).name) =
      (p.pendingConnect m).connection.map p.name := fun m =>
    Option.map_congr fun c hc => name_construct a (hw.assigned m c hc)
  have hnew : p.created ∉ p.named g := fun hc => Nat.lt_irrefl _ (mem_named.mp hc).1
  by_cases hg : h = g
  · subst hg
    simp [remote, hnamed, hname, named_construct, hold, hassigned, Remote.build,
      List.idxOf_append_of_notMem hnew]
  · simp [remote, hnamed, hname, named_construct, hold, hassigned, hg, Ne.symm hg]

theorem name_created (a : SystemAddress) :
    (p.construct a h).name p.created = (h, (p.named h).length) := by
  have hnew : p.created ∉ p.named h := fun hc => Nat.lt_irrefl _ (mem_named.mp hc).1
  simp [name, named_construct, List.idxOf_append_of_notMem hnew]

theorem remote_getElem? (hc : c < p.created) (hguid : (p.connection c).rawGuid = g) :
    (p.remote g key i j).connections[(p.named g).idxOf c]? = some (p.connection c) := by
  simp only [remote, List.getElem?_map]
  rw [List.getElem?_idxOf (mem_named.mpr ⟨hc, hguid⟩)]
  rfl

/-! ## The callbacks, seen by the remote -/

/-- Connections are only ever added, and none that is added owns the Peer. -/
structure Extends (p₀ p : Peer) : Prop where
  created : p₀.created ≤ p.created
  old : ∀ c, c < p₀.created → (p.connection c).rawGuid = (p₀.connection c).rawGuid ∧
    (p.connection c).ownsPeer = (p₀.connection c).ownsPeer
  new : ∀ c, p₀.created ≤ c → c < p.created → (p.connection c).ownsPeer = false

theorem Extends.refl (p : Peer) : p.Extends p :=
  ⟨Nat.le_refl _, fun _ _ => ⟨rfl, rfl⟩, fun _ hle hlt => absurd hlt (Nat.not_lt_of_le hle)⟩

theorem Extends.trans (h : p₀.Extends p) (h' : p.Extends p') : p₀.Extends p' where
  created := Nat.le_trans h.created h'.created
  old c hc := by
    obtain ⟨hguid, howner⟩ := h.old c hc
    obtain ⟨hguid', howner'⟩ := h'.old c (Nat.lt_of_lt_of_le hc h.created)
    exact ⟨hguid'.trans hguid, howner'.trans howner⟩
  new c hle hlt := by
    by_cases hc : c < p.created
    · exact (h'.old c hc).2.trans (h.new c hle hc)
    · exact h'.new c (Nat.le_of_not_lt hc) hlt

/-- A name stays with its Connection. -/
theorem Extends.named (h : p₀.Extends p) : p₀.named g <+: p.named g := by
  obtain ⟨d, hd⟩ := Nat.exists_eq_add_of_le h.created
  have hold : (List.range p₀.created).filter (fun c => (p.connection c).rawGuid = g) = p₀.named g :=
    List.filter_congr fun c hc => by rw [(h.old c (List.mem_range.mp hc)).1]
  rw [← hold, Peer.named, hd, List.range_add, List.filter_append]
  exact List.prefix_append _ _

/-- What is closed under a name that was not an owner's is no owner. -/
theorem Extends.not_owner {n : Nat} (h : p₀.Extends p) (hn : (p.named g)[n]? = some c)
    (hown : ∀ c, (p₀.named g)[n]? = some c → (p₀.connection c).ownsPeer = false) :
    (p.connection c).ownsPeer = false := by
  obtain ⟨rfl, hlt, hguid⟩ := remote_named hn
  by_cases hc : c < p₀.created
  · have hmem : c ∈ p₀.named g := mem_named.mpr ⟨hc, (h.old c hc).1.symm.trans hguid⟩
    obtain ⟨l, hl⟩ := h.named (g := g)
    rw [← hl, List.idxOf_append_of_mem hmem] at hown
    exact (h.old c hc).2.trans (hown c (List.getElem?_idxOf hmem))
  · exact h.new c (Nat.le_of_not_lt hc) hlt

/-- The Peer came from `p₀`, and the calls `i` and `j` are those pending under the key. -/
structure Fits (p p₀ : Peer) (g : Guid) (key : String) (i j : Option CallId) : Prop extends
    WellFormed p where
  connect : ∀ k m, p.pendingConnects.get? k = some m → (k = key ↔ i = some m)
  ping : ∀ k m, p.pendingPings.get? k = some m → (k = key ↔ j = some m)
  from_start : p₀.Extends p

variable {text : SystemAddress → String} {b : SystemAddress}

theorem remote_incomingConnection (hf : p.Fits p₀ g key i j) :
    (p.incomingConnection b h).remote g key i j =
      if h = g then (p.remote g key i j).incomingConnection b h else p.remote g key i j :=
  remote_build hf.toWellFormed b

theorem remote_message (hf : p.Fits p₀ g key i j) (d : Bytes) :
    (p.message h d).remote g key i j =
      if h = g then (p.remote g key i j).message d else p.remote g key i j := by
  cases hget : p.connections.get? h with
  | none =>
    simp only [message, hget]
    split_ifs with hg
    · subst hg
      simp [Remote.message, remote, hget]
    · rfl
  | some c =>
    obtain ⟨hc, hguid⟩ := hf.entry h c hget
    have hput : (p.message h d).remote g key i j = if h = g then
        match (p.mailbox c).put d with
        | (true, m) => (p.remote g key i j).setMailbox ((p.named g).idxOf c) m
        | (false, _) =>
          (p.remote g key i j).retire ((p.named g).idxOf c) (.error "receive queue overflow")
        else p.remote g key i j := by
      simp only [message, hget]
      rcases (p.mailbox c).put d with ⟨_ | _, m⟩
      · simp only [overflow, hguid]
        exact remote_retire hc hguid _
      · simp only [remote_setMailbox hc, hguid]
    rw [hput]
    split_ifs with hg
    · subst hg
      have hentry : (p.remote h key i j).entry = some ((p.named h).idxOf c) := by
        simp [remote, hget]
      simp only [Remote.message, hentry, remote_getElem? hc hguid]
      rfl
    · rfl

theorem remote_disconnected (hf : p.Fits p₀ g key i j) (graceful : Bool) :
    (p.disconnected h graceful).remote g key i j =
      if h = g then (p.remote g key i j).disconnected graceful else p.remote g key i j := by
  cases hget : p.connections.get? h with
  | none =>
    simp only [disconnected, hget]
    split_ifs with hg
    · subst hg
      simp [Remote.disconnected, remote, hget]
    · rfl
  | some c =>
    obtain ⟨hc, hguid⟩ := hf.entry h c hget
    simp only [disconnected, hget, remote_retire hc hguid]
    split_ifs with hg
    · subst hg
      have hentry : (p.remote h key i j).entry = some ((p.named h).idxOf c) := by
        simp [remote, hget]
      simp only [Remote.disconnected, hentry]
    · rfl

/-- A pending connect is in the table under the key exactly if it is the remote's. -/
theorem remote_connecting (hf : p.Fits p₀ g key i j) {k : String} {m : CallId}
    (hget : p.pendingConnects.get? k = some m) :
    (k = key → (p.remote g key i j).connecting = true ∧ i = some m) ∧ (k ≠ key → i ≠ some m) := by
  refine ⟨?_, fun hk hi => hk ((hf.connect k m hget).mpr hi)⟩
  rintro rfl
  exact ⟨by simp [remote, hget], (hf.connect k m hget).mp rfl⟩

theorem remote_connectSucceeded (hf : p.Fits p₀ g key i j) (hkey : text b = key ↔ h = g) :
    (p.connectSucceeded text b h).remote g key i j =
      if h = g then (p.remote g key i j).connectSucceeded b h else p.remote g key i j := by
  cases hget : p.pendingConnects.get? (text b) with
  | none =>
    simp only [connectSucceeded, hget]
    split_ifs with hg
    · have hc : (p.remote g key i j).connecting = false := by
        simp [remote, ← hkey.mpr hg, hget]
      simp [Remote.connectSucceeded, hc]
    · rfl
  | some m =>
    obtain ⟨hyes, hno⟩ := remote_connecting hf hget
    have hw : (p.popConnect (text b)).WellFormed := by
      obtain ⟨h1, h2, h3, h4⟩ := hf.toWellFormed
      exact ⟨h1, h2, by grind, h4⟩
    have hbuild := @remote_build _ g h key i j hw b
    simp only [popConnect_created, remote_popConnect] at hbuild
    have hname := name_created (p := p.popConnect (text b)) (h := h) b
    simp only [popConnect_created, named_popConnect] at hname
    by_cases hg : h = g
    · subst hg
      obtain ⟨hc, rfl⟩ := hyes (hkey.mpr rfl)
      simp [connectSucceeded, hget, setConnectEvent, assignConnection, remote_setPendingConnect,
        hbuild, Remote.connectSucceeded, hc, Remote.settle, Remote.build, hname, hkey]
      simp [remote]
    · have hi := hno fun hk => hg (hkey.mp hk)
      simp [connectSucceeded, hget, setConnectEvent, assignConnection, remote_setPendingConnect,
        hbuild, hi, hg, hkey]

theorem remote_connectFailed (hf : p.Fits p₀ g key i j) (reason : DefaultMessageIDTypes) :
    (p.connectFailed text b reason).remote g key i j =
      if text b = key then (p.remote g key i j).connectFailed reason else p.remote g key i j := by
  cases hget : p.pendingConnects.get? (text b) with
  | none =>
    simp only [connectFailed, hget]
    split_ifs with hk
    · have hc : (p.remote g key i j).connecting = false := by
        simp [remote, ← hk, hget]
      simp [Remote.connectFailed, hc]
    · rfl
  | some m =>
    obtain ⟨hyes, hno⟩ := remote_connecting hf hget
    by_cases hk : text b = key
    · subst hk
      obtain ⟨hc, rfl⟩ := hyes rfl
      simp [connectFailed, hget, setConnectEvent, assignReason, remote_setPendingConnect,
        remote_popConnect, Remote.connectFailed, hc, Remote.settle]
      simp [remote]
    · simp [connectFailed, hget, setConnectEvent, assignReason, remote_setPendingConnect,
        remote_popConnect, hno hk, hk]

theorem remote_pong (hf : p.Fits p₀ g key i j) (hkey : text b = key ↔ h = g) (d : Bytes)
    (now : Int) :
    (p.pong text b h d now).remote g key i j =
      if h = g then (p.remote g key i j).pong b h d else p.remote g key i j := by
  cases hget : p.pendingPings.get? (text b) with
  | none =>
    simp only [pong, hget]
    split_ifs with hg
    · have hc : (p.remote g key i j).pinging = false := by
        simp [remote, ← hkey.mpr hg, hget]
      simp [Remote.pong, hc]
    · rfl
  | some m =>
    have hm := hf.ping (text b) m hget
    by_cases hg : h = g
    · obtain rfl := hkey.mpr hg
      obtain rfl := hm.mp rfl
      have hp : (p.remote g (text b) i (some m)).pinging = true := by simp [remote, hget]
      simp [pong, hget, setPingEvent, assignPong, remote_setPendingPing, remote_popPing, hg,
        Remote.pong, hp]
      simp [remote]
    · have hj : j ≠ some m := fun hj => hg (hkey.mp (hm.mpr hj))
      simp [pong, hget, setPingEvent, assignPong, remote_setPendingPing, remote_popPing, hj, hg,
        hkey]

/-! ## Closing, seen by the remote -/

theorem mailbox_close_close (m : Mailbox) (exc : ConnectionClosed) :
    (m.close exc).close exc = m.close exc := by
  obtain ⟨items, e, maxsize⟩ := m
  cases e <;> rfl

theorem foldl_closeMailbox (l : List ConnId) (p : Peer) (exc : ConnectionClosed) :
    l.foldl (fun p c => (p.markClosed c).closeMailbox c exc) p =
      { p with connection := fun c =>
          if c ∈ l then (p.connection c).markClosed.setMailbox ((p.connection c).mailbox.close exc)
          else p.connection c } := by
  induction l generalizing p with
  | nil => simp
  | cons k l ih =>
    rw [List.foldl_cons, ih]
    simp only [closeMailbox, setMailbox, markClosed, mailbox]
    congr 1
    funext c
    by_cases hc : c = k <;> by_cases hl : c ∈ l <;>
      simp [hc, hl, Connection.markClosed, Connection.setMailbox, mailbox_close_close]

theorem foldl_connects (l : List CallId) (p : Peer) (r : DefaultMessageIDTypes) :
    l.foldl (fun p m => (p.assignReason m r).setConnectEvent m) p =
      { p with pendingConnect := fun m =>
          if m ∈ l then { p.pendingConnect m with event := true, reason := some r }
          else p.pendingConnect m } := by
  induction l generalizing p with
  | nil => simp
  | cons k l ih =>
    rw [List.foldl_cons, ih]
    simp only [assignReason, setConnectEvent, setPendingConnect]
    congr 1
    funext m
    by_cases hm : m = k <;> by_cases hl : m ∈ l <;> simp [hm, hl]

theorem foldl_pings (l : List CallId) (p : Peer) :
    l.foldl (fun p m => p.setPingEvent m) p =
      { p with pendingPing := fun m =>
          if m ∈ l then { p.pendingPing m with event := true } else p.pendingPing m } := by
  induction l generalizing p with
  | nil => simp
  | cons k l ih =>
    rw [List.foldl_cons, ih]
    simp only [setPingEvent, setPendingPing]
    congr 1
    funext m
    by_cases hm : m = k <;> by_cases hl : m ∈ l <;> simp [hm, hl]

theorem close_eq (hopen : p.closed = false) : p.close =
    { p.beginClose with
      acceptQueue := p.acceptQueue ++ [none]
      connection := fun c =>
        if c ∈ p.connections.values then
          (p.connection c).markClosed.setMailbox
            ((p.connection c).mailbox.close (.ok "peer closed"))
        else p.connection c
      pendingConnect := fun m =>
        if m ∈ p.pendingConnects.values then
          { p.pendingConnect m with event := true, reason := some .connectionAttemptFailed }
        else p.pendingConnect m
      pendingPing := fun m =>
        if m ∈ p.pendingPings.values then { p.pendingPing m with event := true }
        else p.pendingPing m } := by
  simp only [close, hopen, finishClose, foldl_closeMailbox, foldl_connects, foldl_pings]
  rfl

/-- A call that is pending under the key alone is in the table if something is under the key. -/
theorem mem_values_of_key {d : Dict String CallId}
    (hd : ∀ k m, d.get? k = some m → (k = key ↔ i = some m)) {m : CallId} (hm : i = some m) :
    m ∈ d.values ↔ (d.get? key).isSome = true := by
  rw [Dict.mem_values, Option.isSome_iff_exists]
  constructor
  · rintro ⟨k, hk⟩
    obtain rfl := (hd k m hk).mpr hm
    exact ⟨m, hk⟩
  · rintro ⟨m', hm'⟩
    obtain rfl : m' = m := Option.some.inj (((hd key m' hm').mp rfl).symm.trans hm)
    exact ⟨key, hm'⟩

theorem remote_close (hf : p.Fits p₀ g key i j) :
    p.close.remote g key i j = (p.remote g key i j).close := by
  cases hopen : p.closed with
  | true =>
    have hc : (p.remote g key i j).closed = true := hopen
    simp [close, Remote.close, hopen, hc]
  | false =>
    have hc : (p.remote g key i j).closed = false := hopen
    obtain ⟨hnamed, hname⟩ := named_congr (p := p) (q := p.close) (by rw [close_eq hopen]; rfl)
      (fun c => by rw [close_eq hopen]; dsimp only; split_ifs <;> rfl)
    -- the snapshot has the remote's entries, and no other of its guid and its calls
    have hentry : ∀ c ∈ p.named g, c ∈ p.connections.values ↔ p.connections.get? g = some c := by
      intro c hc
      rw [Dict.mem_values]
      refine ⟨?_, fun hg => ⟨g, hg⟩⟩
      rintro ⟨h, hh⟩
      rwa [← (mem_named.mp hc).2, (hf.entry h c hh).2]
    have hconnect := fun m => mem_values_of_key (m := m) hf.connect
    have hping := fun m => mem_values_of_key (m := m) hf.ping
    rw [Remote.close, if_neg (by simp [hc])]
    ext1
    case closed => rw [remote, close_eq hopen]; rfl
    case maxQueue => rw [remote, close_eq hopen]; rfl
    case connections =>
      simp only [remote, hnamed]
      rw [close_eq hopen]
      cases hget : p.connections.get? g with
      | none =>
        exact List.map_congr_left fun c hc => if_neg fun hv => by simp [hget, hentry c hc] at hv
      | some c =>
        have hmem : c ∈ p.named g := mem_named.mpr (hf.entry g c hget)
        have hmap := map_update (l := p.named g) (c := c) named_nodup p.connection fun x =>
          x.markClosed.setMailbox (x.mailbox.close (.ok "peer closed"))
        rw [if_pos hmem] at hmap
        simp only [Option.map_some, ← hmap]
        refine List.map_congr_left fun d hd => ?_
        simp only [hentry d hd, hget, Option.some.injEq]
        by_cases hdc : c = d
        · subst hdc
          simp
        · simp [hdc, Function.update_of_ne (Ne.symm hdc)]
    case entry => rw [remote, close_eq hopen]; rfl
    case connecting => rw [remote, close_eq hopen]; rfl
    case connect =>
      simp only [remote, hname]
      rw [close_eq hopen]
      cases i with
      | none => exact (ite_self none).symm
      | some m => by_cases hm : (p.pendingConnects.get? key).isSome <;> simp [hconnect m rfl, hm]
    case pinging => rw [remote, close_eq hopen]; rfl
    case ping =>
      simp only [remote]
      rw [close_eq hopen]
      cases j with
      | none => exact (ite_self none).symm
      | some m => by_cases hm : (p.pendingPings.get? key).isSome <;> simp [hping m rfl, hm]

/-! ## Calls on a Connection, seen by the remote -/

theorem Fits.of_step (hf : p.Fits p₀ g key i j) (hext : p.Extends p')
    (hentry : ∀ h c, p'.connections.get? h = some c →
      p.connections.get? h = some c ∨ c < p'.created ∧ (p'.connection c).rawGuid = h)
    (hassigned : ∀ m c, (p'.pendingConnect m).connection = some c →
      (p.pendingConnect m).connection = some c ∨ c < p'.created)
    (hconnects : ∀ k m, p'.pendingConnects.get? k = some m → p.pendingConnects.get? k = some m)
    (hpings : ∀ k m, p'.pendingPings.get? k = some m → p.pendingPings.get? k = some m) :
    p'.Fits p₀ g key i j where
  entry h c hc := by
    rcases hentry h c hc with hc | hc
    · obtain ⟨hlt, hguid⟩ := hf.entry h c hc
      exact ⟨Nat.lt_of_lt_of_le hlt hext.created, (hext.old c hlt).1.trans hguid⟩
    · exact hc
  assigned m c hc := by
    rcases hassigned m c hc with hc | hc
    · exact Nat.lt_of_lt_of_le (hf.assigned m c hc) hext.created
    · exact hc
  connects k k' m hk hk' := hf.connects k k' m (hconnects k m hk) (hconnects k' m hk')
  pings k k' m hk hk' := hf.pings k k' m (hpings k m hk) (hpings k' m hk')
  connect k m hk := hf.connect k m (hconnects k m hk)
  ping k m hk := hf.ping k m (hpings k m hk)
  from_start := hf.from_start.trans hext

theorem extends_of_eq (hcreated : p'.created = p.created)
    (hold : ∀ c, (p'.connection c).rawGuid = (p.connection c).rawGuid ∧
      (p'.connection c).ownsPeer = (p.connection c).ownsPeer) : p.Extends p' :=
  ⟨Nat.le_of_eq hcreated.symm, fun c _ => hold c,
    fun _ hle hlt => absurd hlt (Nat.not_lt_of_le (hcreated ▸ hle))⟩

theorem fits_closeConnection (hf : p.Fits p₀ g key i j) :
    (p.closeConnection c).Fits p₀ g key i j := by
  refine hf.of_step (extends_of_eq rfl fun k => ?_) ?_ ?_ ?_ ?_ <;> simp only [closeConnection] <;>
    grind

theorem remote_recv (hc : c < p.created) (hguid : (p.connection c).rawGuid = g) :
    (p.remote g key i j).recv ((p.named g).idxOf c) =
      (some (p.recv c).1, (p.recv c).2.remote g key i j) := by
  simp only [Remote.recv, remote_getElem? hc hguid, recv, mailbox]
  cases (p.connection c).mailbox.get with
  | item d m => simp only [remote_setMailbox hc, hguid, if_pos]
  | raised exc => rfl
  | blocked => rfl

theorem remote_recv_other (hc : c < p.created) (hguid : (p.connection c).rawGuid ≠ g) :
    (p.recv c).2.remote g key i j = p.remote g key i j := by
  simp only [recv]
  cases (p.mailbox c).get with
  | item d m => simp only [remote_setMailbox hc, if_neg hguid]
  | raised exc => rfl
  | blocked => rfl

theorem remote_closeConnection (hc : c < p.created) :
    (p.closeConnection c).remote g key i j =
      if (p.connection c).rawGuid = g then
        (p.remote g key i j).retire ((p.named g).idxOf c) (.ok "connection closed")
      else p.remote g key i j :=
  remote_retire hc rfl _

theorem closeConnection_ownsPeer :
    ((p.closeConnection c).connection c).ownsPeer = (p.connection c).ownsPeer := by
  simp [closeConnection]

theorem remote_connectionClose (hf : p.Fits p₀ g key i j) (hc : c < p.created)
    (hown : (p.connection c).rawGuid ≠ g → (p.connection c).ownsPeer = false) :
    (p.connectionClose c).remote g key i j =
      if (p.connection c).rawGuid = g then
        (p.remote g key i j).connectionClose ((p.named g).idxOf c)
      else p.remote g key i j := by
  by_cases hguid : (p.connection c).rawGuid = g
  · simp only [connectionClose, Remote.connectionClose, remote_getElem? hc hguid, hguid, if_pos]
    cases (p.connection c).closed
    · simp only [Bool.false_eq_true, if_false, closeConnection_ownsPeer]
      split_ifs
      · rw [remote_close (fits_closeConnection hf), remote_closeConnection hc, if_pos hguid]
      · rw [remote_closeConnection hc, if_pos hguid]
    · simp only [if_true]
      split_ifs
      · exact remote_close hf
      · rfl
  · simp only [connectionClose, if_neg hguid]
    cases (p.connection c).closed
    · simp only [Bool.false_eq_true, if_false, closeConnection_ownsPeer, hown hguid]
      rw [remote_closeConnection hc, if_neg hguid]
    · simp only [if_true, hown hguid, Bool.false_eq_true, if_false]

end Peer

end Raknet
