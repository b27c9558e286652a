import Mathlib.Data.List.Basic

/-!
# Packets and the router

`Router.route` demultiplexes a raw packet into one sink callback by its first byte: user ids
from `ID_USER_PACKET_ENUM` up are messages, the other ids the sink cares about are listed, and
empty packets and unknown ids are dropped. The numbers are the positions of the ids in RakNet's
enumeration, which the binding lists in order.

**Theorem (`route_cases`).** A callback carries the address, the guid and the bytes of the packet it
was made from and nothing of another.
-/

namespace Raknet

/-- The `g` of a `RakNetGUID`. -/
abbrev Guid := UInt64

/-- A packet's payload, the id byte included. -/
abbrev Bytes := List UInt8

/-- A `raw.SystemAddress`: a numeric address and a port. -/
structure SystemAddress where
  ip : String
  port : Nat
deriving DecidableEq, Repr

/-- The members of `DefaultMessageIDTypes` that the router and the Peer name. -/
inductive DefaultMessageIDTypes
  | connectionRequestAccepted
  | connectionAttemptFailed
  | alreadyConnected
  | newIncomingConnection
  | noFreeIncomingConnections
  | disconnectionNotification
  | connectionLost
  | connectionBanned
  | invalidPassword
  | incompatibleProtocolVersion
  | ipRecentlyConnected
  | unconnectedPong
  | userPacketEnum
deriving DecidableEq, Repr

namespace DefaultMessageIDTypes

/-- `int(mid)`. -/
def int : DefaultMessageIDTypes → Nat
  | connectionRequestAccepted => 16
  | connectionAttemptFailed => 17
  | alreadyConnected => 18
  | newIncomingConnection => 19
  | noFreeIncomingConnections => 20
  | disconnectionNotification => 21
  | connectionLost => 22
  | connectionBanned => 23
  | invalidPassword => 24
  | incompatibleProtocolVersion => 25
  | ipRecentlyConnected => 26
  | unconnectedPong => 28
  | userPacketEnum => 0x86

/-- The member's name, as error messages print it. -/
def name : DefaultMessageIDTypes → String
  | connectionRequestAccepted => "ID_CONNECTION_REQUEST_ACCEPTED"
  | connectionAttemptFailed => "ID_CONNECTION_ATTEMPT_FAILED"
  | alreadyConnected => "ID_ALREADY_CONNECTED"
  | newIncomingConnection => "ID_NEW_INCOMING_CONNECTION"
  | noFreeIncomingConnections => "ID_NO_FREE_INCOMING_CONNECTIONS"
  | disconnectionNotification => "ID_DISCONNECTION_NOTIFICATION"
  | connectionLost => "ID_CONNECTION_LOST"
  | connectionBanned => "ID_CONNECTION_BANNED"
  | invalidPassword => "ID_INVALID_PASSWORD"
  | incompatibleProtocolVersion => "ID_INCOMPATIBLE_PROTOCOL_VERSION"
  | ipRecentlyConnected => "ID_IP_RECENTLY_CONNECTED"
  | unconnectedPong => "ID_UNCONNECTED_PONG"
  | userPacketEnum => "ID_USER_PACKET_ENUM"

end DefaultMessageIDTypes

open DefaultMessageIDTypes

/-- `CONNECT_FAILURES`, as members. -/
def connectFailures : List DefaultMessageIDTypes :=
  [connectionAttemptFailed, alreadyConnected, noFreeIncomingConnections, connectionBanned,
    invalidPassword, incompatibleProtocolVersion, ipRecentlyConnected]

/-- A `raw.Packet`, as far as the router reads it. -/
structure Packet where
  systemAddress : SystemAddress
  guid : Guid
  data : Bytes
deriving DecidableEq, Repr

/-- A call of a `Sink` callback. -/
inductive Callback
  | incomingConnection (address : SystemAddress) (guid : Guid)
  | connectSucceeded (address : SystemAddress) (guid : Guid)
  | connectFailed (address : SystemAddress) (reason : DefaultMessageIDTypes)
  | message (guid : Guid) (data : Bytes)
  | disconnected (guid : Guid) (graceful : Bool)
  | pong (address : SystemAddress) (guid : Guid) (data : Bytes)
deriving DecidableEq, Repr

/-- `Router.route`: the callback a packet is turned into, if any. -/
def route (packet : Packet) : Option Callback :=
  match packet.data with
  | [] => none
  | b :: _ =>
    let mid := b.toNat
    if mid ≥ userPacketEnum.int then
      some (.message packet.guid packet.data)
    else if mid = newIncomingConnection.int then
      some (.incomingConnection packet.systemAddress packet.guid)
    else if mid = connectionRequestAccepted.int then
      some (.connectSucceeded packet.systemAddress packet.guid)
    else if let some reason := connectFailures.find? (·.int = mid) then
      some (.connectFailed packet.systemAddress reason)
    else if mid = disconnectionNotification.int then
      some (.disconnected packet.guid true)
    else if mid = connectionLost.int then
      some (.disconnected packet.guid false)
    else if mid = unconnectedPong.int then
      some (.pong packet.systemAddress packet.guid (packet.data.drop 5))
    else
      none

/-! ## What a callback carries -/

/-- A packet whose first byte is a user id. -/
def Packet.isUser (p : Packet) : Bool :=
  match p.data with
  | [] => false
  | b :: _ => b.toNat ≥ userPacketEnum.int

/-- The packet's first byte is the id `mid`. -/
def Packet.hasId (p : Packet) (mid : DefaultMessageIDTypes) : Bool :=
  match p.data with
  | [] => false
  | b :: _ => b.toNat = mid.int

/-- Every callback is one of six, made from the packet's own address, guid and bytes. -/
theorem route_cases {p : Packet} {cb : Callback} (h : route p = some cb) :
    (p.isUser ∧ cb = .message p.guid p.data) ∨
    (p.hasId newIncomingConnection ∧ cb = .incomingConnection p.systemAddress p.guid) ∨
    (p.hasId connectionRequestAccepted ∧ cb = .connectSucceeded p.systemAddress p.guid) ∨
    (∃ r ∈ connectFailures, p.hasId r ∧ cb = .connectFailed p.systemAddress r) ∨
    (p.hasId disconnectionNotification ∧ cb = .disconnected p.guid true) ∨
    (p.hasId connectionLost ∧ cb = .disconnected p.guid false) ∨
    (p.hasId unconnectedPong ∧ cb = .pong p.systemAddress p.guid (p.data.drop 5)) := by
  obtain ⟨a, g, data⟩ := p
  cases data with
  | nil => simp [route] at h
  | cons b l =>
    simp only [route, Packet.isUser, Packet.hasId] at h ⊢
    by_cases hu : b.toNat ≥ userPacketEnum.int
    · rw [if_pos hu] at h
      exact Or.inl ⟨by simpa using hu, (Option.some.inj h).symm⟩
    rw [if_neg hu] at h
    by_cases hi : b.toNat = newIncomingConnection.int
    · rw [if_pos hi] at h
      exact Or.inr (Or.inl ⟨by simpa using hi, (Option.some.inj h).symm⟩)
    rw [if_neg hi] at h
    by_cases ha : b.toNat = connectionRequestAccepted.int
    · rw [if_pos ha] at h
      exact Or.inr (Or.inr (Or.inl ⟨by simpa using ha, (Option.some.inj h).symm⟩))
    rw [if_neg ha] at h
    cases hf : connectFailures.find? (·.int = b.toNat) with
    | some r =>
      have hr := List.find?_some hf
      simp only [hf, Option.some.injEq] at h
      exact Or.inr (Or.inr (Or.inr (Or.inl
        ⟨r, List.mem_of_find?_eq_some hf, by simpa [eq_comm] using hr, h.symm⟩)))
    | none =>
      simp only [hf] at h
      split_ifs at h <;> simp_all

/-- User packets, and only they, become messages, with their bytes unchanged. -/
theorem route_eq_message_iff {p : Packet} {g : Guid} {d : Bytes} :
    route p = some (.message g d) ↔ p.isUser ∧ p.guid = g ∧ p.data = d := by
  constructor
  · intro h
    rcases route_cases h with ⟨hu, h⟩ | ⟨-, h⟩ | ⟨-, h⟩ | ⟨r, -, -, h⟩ | ⟨-, h⟩ | ⟨-, h⟩ |
        ⟨-, h⟩ <;>
      cases h
    exact ⟨hu, rfl, rfl⟩
  · rintro ⟨hu, rfl, rfl⟩
    obtain ⟨a, g, data⟩ := p
    cases data with
    | nil => simp [Packet.isUser] at hu
    | cons b l =>
      simp only [Packet.isUser, decide_eq_true_eq] at hu
      simp [route, hu]

end Raknet
