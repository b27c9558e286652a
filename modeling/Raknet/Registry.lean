import Raknet.Pump

/-!
# The life of a Connection

An abstract machine for what the threads of a Peer do to its Connections, whoever does it. A
Connection is constructed (*fresh*, only the pump knows it), entered into the registry, taken
out of it (*gone*), flagged `_closed` (*retired*), and its mailbox is given a reason. The rules
of `Registry.Step` carry the order: a flag is only set on what is gone, a reason only stored in
what is retired.

**Theorem (`Step.inv`, `Step.grows`).** Along every step the entries stay well formed, and
a Connection only moves forward in its life: nothing gone comes back, no reason is replaced.
-/

namespace Raknet

/-- The registry, the Connections constructed so far, and the one the pump is about to
register. -/
structure Registry where
  created : Nat
  connections : Dict Guid ConnId
  connection : ConnId → Connection
  fresh : Option ConnId

/-- The registry in a state. -/
@[simps] def State.registry (s : State) : Registry where
  created := s.peer.created
  connections := s.peer.connections
  connection := s.peer.connection
  fresh := s.pump.fresh?

namespace Registry

/-- Handed out to users. -/
def Published (r : Registry) (c : ConnId) : Prop := c < r.created ∧ r.fresh ≠ some c

/-- An entry of the registry. -/
def Listed (r : Registry) (c : ConnId) : Prop := ∃ g, r.connections.get? g = some c

/-- Handed out, and no longer in the registry. -/
def Gone (r : Registry) (c : ConnId) : Prop := r.Published c ∧ ¬ r.Listed c

/-- Gone, with `_closed` set. -/
def Retired (r : Registry) (c : ConnId) : Prop := r.Gone c ∧ (r.connection c).closed = true

/-- The reason stored in the mailbox. -/
def reason (r : Registry) (c : ConnId) : Option ConnectionClosed := (r.connection c).mailbox.exc

theorem published_of_state {s : State} {c : ConnId} : s.published c ↔ s.registry.Published c := by
  simp [State.published, Published]

/-! ## Steps -/

/-- Write a Connection object. -/
@[simps -fullyApplied] def write (r : Registry) (c : ConnId) (x : Connection) : Registry :=
  { r with connection := Function.update r.connection c x }

/-- What one step of any thread may do to the Connections. -/
inductive Step (r : Registry) : Registry → Prop
  | skip : Step r r
  | construct (q : Option Nat) (a : SystemAddress) (g : Guid) (hfresh : r.fresh = none) :
      Step r { r.write r.created (.new q a g) with
        created := r.created + 1, fresh := some r.created }
  | register (g : Guid) (c : ConnId) (hfresh : r.fresh = some c)
      (hguid : (r.connection c).rawGuid = g) :
      Step r { r with connections := r.connections.set g c, fresh := none }
  | unregister (g : Guid) : Step r { r with connections := r.connections.erase g }
  | clear : Step r { r with connections := .empty }
  | mark (c : ConnId) (hgone : r.Gone c) : Step r (r.write c (r.connection c).markClosed)
  | own (c : ConnId) (hpub : r.Published c) : Step r (r.write c (r.connection c).own)
  | deliver (c : ConnId) (m : Mailbox) (hpub : r.Published c) (hexc : m.exc = r.reason c) :
      Step r (r.write c ((r.connection c).setMailbox m))
  | close (c : ConnId) (e : ConnectionClosed) (hretired : r.Retired c) :
      Step r (r.write c ((r.connection c).setMailbox ((r.connection c).mailbox.close e)))

/-- Well-formed entries: handed out, stored under their own guid, open and without a reason. -/
structure Inv (r : Registry) : Prop where
  fresh_lt : ∀ c, r.fresh = some c → c < r.created
  fresh_unlisted : ∀ c, r.fresh = some c → ¬ r.Listed c
  fresh_open : ∀ c, r.fresh = some c → (r.connection c).closed = false
  listed_published : ∀ g c, r.connections.get? g = some c → r.Published c
  listed_guid : ∀ g c, r.connections.get? g = some c → (r.connection c).rawGuid = g
  listed_open : ∀ g c, r.connections.get? g = some c → (r.connection c).closed = false
  open_reason : ∀ c, c < r.created → (r.connection c).closed = false → r.reason c = none

/-- What the past of a Connection leaves behind, in every later registry. -/
structure Grows (r r' : Registry) : Prop where
  created : r.created ≤ r'.created
  published : ∀ c, r.Published c → r'.Published c
  gone : ∀ c, r.Gone c → r'.Gone c
  closed : ∀ c, c < r.created → (r.connection c).closed = true → (r'.connection c).closed = true
  guid : ∀ c, c < r.created → (r'.connection c).rawGuid = (r.connection c).rawGuid
  address : ∀ c, c < r.created → (r'.connection c).rawAddress = (r.connection c).rawAddress
  owned : ∀ c, c < r.created → (r.connection c).ownsPeer = true → (r'.connection c).ownsPeer = true
  reason : ∀ c e, c < r.created → r.reason c = some e → r'.reason c = some e

theorem Grows.retired {r r' : Registry} (h : Grows r r') {c : ConnId} (hc : r.Retired c) :
    r'.Retired c :=
  ⟨h.gone c hc.1, h.closed c hc.1.1.1 hc.2⟩

theorem Grows.refl (r : Registry) : Grows r r := by
  constructor <;> simp

theorem Grows.trans {r r' r'' : Registry} (h : Grows r r') (h' : Grows r' r'') : Grows r r'' where
  created := Nat.le_trans h.created h'.created
  published c hc := h'.published c (h.published c hc)
  gone c hc := h'.gone c (h.gone c hc)
  closed c hlt hc := h'.closed c (Nat.lt_of_lt_of_le hlt h.created) (h.closed c hlt hc)
  guid c hlt := (h'.guid c (Nat.lt_of_lt_of_le hlt h.created)).trans (h.guid c hlt)
  address c hlt := (h'.address c (Nat.lt_of_lt_of_le hlt h.created)).trans (h.address c hlt)
  owned c hlt hc := h'.owned c (Nat.lt_of_lt_of_le hlt h.created) (h.owned c hlt hc)
  reason c e hlt he := h'.reason c e (Nat.lt_of_lt_of_le hlt h.created) (h.reason c e hlt he)

theorem grows_write {r : Registry} {c : ConnId} {x : Connection}
    (hclosed : (r.connection c).closed = true → x.closed = true)
    (hguid : x.rawGuid = (r.connection c).rawGuid)
    (haddress : x.rawAddress = (r.connection c).rawAddress)
    (hown : (r.connection c).ownsPeer = true → x.ownsPeer = true)
    (hreason : ∀ e, r.reason c = some e → x.mailbox.exc = some e) : Grows r (r.write c x) := by
  constructor
  case created => exact Nat.le_refl _
  case published => exact fun _ h => h
  case gone => exact fun _ h => h
  all_goals
    simp only [write_connection, Registry.reason, Function.update_apply] at *
    grind

theorem Step.grows {r r' : Registry} (h : Step r r') (hi : r.Inv) : Grows r r' := by
  cases h with
  | skip => exact .refl r
  | construct q a g hfresh =>
    constructor <;> simp only [Published, Gone, Listed, Registry.reason, write] <;> grind
  | register g c hfresh hguid =>
    have hun := hi.fresh_unlisted c hfresh
    constructor <;> simp only [Published, Gone, Listed, Registry.reason, Dict.get?_set] <;> grind
  | unregister g =>
    constructor <;> simp only [Published, Gone, Listed, Registry.reason, Dict.get?_erase] <;> grind
  | clear => constructor <;> simp +contextual [Published, Gone, Listed, Registry.reason]
  | mark c hgone => exact grows_write (fun _ => rfl) rfl rfl id fun _ => id
  | own c hpub => exact grows_write id rfl rfl (fun _ => rfl) fun _ => id
  | deliver c m hpub hexc => exact grows_write id rfl rfl id fun e he => hexc.trans he
  | close c e hretired =>
    exact grows_write id rfl rfl id fun e' he => Mailbox.close_exc_of_some he

/-- Writing a handed-out Connection that is no entry, or whose entry stays open. -/
theorem inv_write {r : Registry} {c : ConnId} {x : Connection} (hi : r.Inv)
    (hpub : r.Published c) (hguid : x.rawGuid = (r.connection c).rawGuid)
    (hopen : r.Listed c → x.closed = (r.connection c).closed)
    (hreason : x.closed = false → x.mailbox.exc = none) : (r.write c x).Inv := by
  obtain ⟨h1, h2, h3, h4, h5, h6, h7⟩ := hi
  constructor
  case fresh_lt => exact h1
  case fresh_unlisted => exact h2
  case listed_published => exact h4
  all_goals
    simp only [write, Published, Listed, Registry.reason, Function.update_apply] at *
    grind

theorem Step.inv {r r' : Registry} (h : Step r r') (hi : r.Inv) : r'.Inv := by
  cases h with
  | skip => exact hi
  | construct q a g hfresh =>
    obtain ⟨h1, h2, h3, h4, h5, h6, h7⟩ := hi
    constructor <;> simp only [Published, Listed, Registry.reason, write] at * <;>
      grind [Connection.new_closed, Connection.new_exc]
  | register g c hfresh hguid =>
    obtain ⟨h1, h2, h3, h4, h5, h6, h7⟩ := hi
    constructor <;> simp only [Published, Listed, Registry.reason, Dict.get?_set] at * <;> grind
  | unregister g =>
    obtain ⟨h1, h2, h3, h4, h5, h6, h7⟩ := hi
    constructor <;> simp only [Published, Listed, Registry.reason, Dict.get?_erase] at * <;> grind
  | clear =>
    obtain ⟨h1, h2, h3, h4, h5, h6, h7⟩ := hi
    constructor <;> simp_all [Published, Listed, Registry.reason]
  | mark c hgone =>
    exact inv_write hi hgone.1 rfl (fun h => absurd h hgone.2) fun h => by simp at h
  | own c hpub => exact inv_write hi hpub rfl (fun _ => rfl) (hi.open_reason c hpub.1)
  | deliver c m hpub hexc =>
    exact inv_write hi hpub rfl (fun _ => rfl) fun h => hexc.trans (hi.open_reason c hpub.1 h)
  | close c e hretired =>
    exact inv_write hi hretired.1.1 rfl (fun _ => rfl) fun h => by simp [hretired.2] at h

end Registry

end Raknet
