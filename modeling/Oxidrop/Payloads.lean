import Oxidrop.Lib.Serde
import Oxidrop.Xdp

/-!
# Keys and entries in request bodies

The data plane builds the key of a flow with a constructor that zeroes the
padding. The control plane decodes it from JSON, and there the padding is a
field like the others. The two agree on a tuple exactly when the body gives no
padding other than zero.
-/
namespace Oxidrop

open Serde

/-! ## The decoders -/

def decodeAction (j : Json) : Option Action :=
  match unitVariant j with
  | some "Allow" => some .allow
  | some "Deny" => some .deny
  | _ => none

def decodeAllowListState (j : Json) : Option AllowListState := do
  guard (j.isStruct 2)
  let action ← required decodeAction ⟨"action", 0⟩ j
  let lastSeen ← required u64 ⟨"last_seen", 1⟩ j
  return ⟨action, lastSeen⟩

def decodeTokenBucketState (j : Json) : Option TokenBucketState := do
  guard (j.isStruct 2)
  let tokens ← required u64 ⟨"tokens", 0⟩ j
  let lastUpdate ← required u64 ⟨"last_update", 1⟩ j
  return ⟨tokens, lastUpdate⟩

def decodeIpv4Packet (j : Json) : Option Ipv4Packet := do
  guard (j.isStruct 7)
  let sourceAddr ← required u32 ⟨"source_addr", 0⟩ j
  let destinationAddr ← required u32 ⟨"destination_addr", 1⟩ j
  let sourcePort ← required u16 ⟨"source_port", 2⟩ j
  let destinationPort ← required u16 ⟨"destination_port", 3⟩ j
  let protocol ← required u8 ⟨"protocol", 4⟩ j
  let pad ← defaulted u8 ⟨"_pad", 5⟩ 0 j
  let pad2 ← defaulted u16 ⟨"_pad2", 6⟩ 0 j
  return ⟨sourceAddr, destinationAddr, sourcePort, destinationPort, protocol, pad, pad2⟩

/-- `[u32; 4]`. -/
def decodeWords : Json → Option Words
  | .arr [a, b, c, d] => do
    let first ← u32 a
    let second ← u32 b
    let third ← u32 c
    let fourth ← u32 d
    return ⟨first, second, third, fourth⟩
  | _ => none

/-- `[u8; 3]`. -/
def decodePad : Json → Option (UInt8 × UInt8 × UInt8)
  | .arr [a, b, c] => do
    let first ← u8 a
    let second ← u8 b
    let third ← u8 c
    return (first, second, third)
  | _ => none

def decodeIpv6Packet (j : Json) : Option Ipv6Packet := do
  guard (j.isStruct 6)
  let sourceAddr ← required decodeWords ⟨"source_addr", 0⟩ j
  let destinationAddr ← required decodeWords ⟨"destination_addr", 1⟩ j
  let sourcePort ← required u16 ⟨"source_port", 2⟩ j
  let destinationPort ← required u16 ⟨"destination_port", 3⟩ j
  let protocol ← required u8 ⟨"protocol", 4⟩ j
  let pad ← defaulted decodePad ⟨"_pad", 5⟩ (0, 0, 0) j
  return ⟨sourceAddr, destinationAddr, sourcePort, destinationPort, protocol, pad⟩

/-- The body of a POST: a key and what to store under it. -/
structure Update (κ ν : Type) where
  key : κ
  state : ν

def decodeUpdate {κ ν : Type} (decodeKey : Json → Option κ) (decodeState : Json → Option ν)
    (j : Json) : Option (Update κ ν) := do
  guard (j.isStruct 2)
  let key ← required decodeKey ⟨"key", 0⟩ j
  let state ← required decodeState ⟨"state", 1⟩ j
  return ⟨key, state⟩

theorem decodeUpdate_eq_some {κ ν : Type} {decodeKey : Json → Option κ}
    {decodeState : Json → Option ν} {j : Json} {payload : Update κ ν}
    (h : decodeUpdate decodeKey decodeState j = some payload) :
    required decodeKey ⟨"key", 0⟩ j = some payload.key ∧
      required decodeState ⟨"state", 1⟩ j = some payload.state := by
  simp only [decodeUpdate, Option.bind_eq_bind, Option.bind_eq_some_iff, Option.pure_def,
    Option.some.injEq] at h
  obtain ⟨-, -, key, hkey, state, hstate, rfl⟩ := h
  exact ⟨hkey, hstate⟩

abbrev AllowListV4Update := Update Ipv4Packet AllowListState
abbrev AllowListV6Update := Update Ipv6Packet AllowListState
abbrev PacketCountV4Update := Update Ipv4Packet TokenBucketState
abbrev PacketCountV6Update := Update Ipv6Packet TokenBucketState

def decodeAllowListV4Update : Json → Option AllowListV4Update :=
  decodeUpdate decodeIpv4Packet decodeAllowListState

def decodeAllowListV6Update : Json → Option AllowListV6Update :=
  decodeUpdate decodeIpv6Packet decodeAllowListState

def decodePacketCountV4Update : Json → Option PacketCountV4Update :=
  decodeUpdate decodeIpv4Packet decodeTokenBucketState

def decodePacketCountV6Update : Json → Option PacketCountV6Update :=
  decodeUpdate decodeIpv6Packet decodeTokenBucketState

/-! ## Tuples -/

structure FiveTuple (α : Type) where
  sourceAddr : α
  destinationAddr : α
  sourcePort : UInt16
  destinationPort : UInt16
  protocol : UInt8
  deriving DecidableEq, Repr

def FiveTuple.toIpv4Packet (t : FiveTuple UInt32) : Ipv4Packet :=
  .new t.sourceAddr t.destinationAddr t.sourcePort t.destinationPort t.protocol

def FiveTuple.toIpv6Packet (t : FiveTuple Words) : Ipv6Packet :=
  .new t.sourceAddr t.destinationAddr t.sourcePort t.destinationPort t.protocol

/-- The parsed tuple of a packet, in the order that its direction asks for. -/
def Headers.fiveTuple {n : Nat} {α : Type} (direction : TraficDirection) (h : Headers n α) :
    FiveTuple α :=
  h.flowKey FiveTuple.mk direction

theorem Headers.flowKey_v4 (direction : TraficDirection) (h : Headers 4 UInt32) :
    h.flowKey Ipv4Packet.new direction = (h.fiveTuple direction).toIpv4Packet := by
  cases direction <;> rfl

theorem Headers.flowKey_v6 (direction : TraficDirection) (h : Headers 16 Words) :
    h.flowKey Ipv6Packet.new direction = (h.fiveTuple direction).toIpv6Packet := by
  cases direction <;> rfl

/-- The ports and the protocol in the body are those of the tuple. -/
structure SpellsPorts {α : Type} (j : Json) (t : FiveTuple α) : Prop where
  sourcePort : j.values ⟨"source_port", 2⟩ = [.int t.sourcePort.toNat]
  destinationPort : j.values ⟨"destination_port", 3⟩ = [.int t.destinationPort.toNat]
  protocol : j.values ⟨"protocol", 4⟩ = [.int t.protocol.toNat]

structure SpellsV4 (j : Json) (t : FiveTuple UInt32) : Prop extends SpellsPorts j t where
  sourceAddr : j.values ⟨"source_addr", 0⟩ = [.int t.sourceAddr.toNat]
  destinationAddr : j.values ⟨"destination_addr", 1⟩ = [.int t.destinationAddr.toNat]

/-- An IPv6 address as four numbers. -/
def Words.json (w : Words) : Json :=
  .arr [.int w.first.toNat, .int w.second.toNat, .int w.third.toNat, .int w.fourth.toNat]

structure SpellsV6 (j : Json) (t : FiveTuple Words) : Prop extends SpellsPorts j t where
  sourceAddr : j.values ⟨"source_addr", 0⟩ = [t.sourceAddr.json]
  destinationAddr : j.values ⟨"destination_addr", 1⟩ = [t.destinationAddr.json]

/-- No padding in the body, or zero. -/
def UnpaddedV4 (j : Json) : Prop :=
  (∀ v ∈ j.values ⟨"_pad", 5⟩, v = .int 0) ∧ ∀ v ∈ j.values ⟨"_pad2", 6⟩, v = .int 0

def UnpaddedV6 (j : Json) : Prop :=
  ∀ v ∈ j.values ⟨"_pad", 5⟩, v = .arr [.int 0, .int 0, .int 0]

/-! ## Bodies and keys -/

@[simp] theorem decodeWords_json (w : Words) : decodeWords w.json = some w := by
  simp [decodeWords, Words.json]

theorem decodePad_eq_zero_iff {j : Json} :
    decodePad j = some (0, 0, 0) ↔ j = .arr [.int 0, .int 0, .int 0] := by
  constructor
  · intro h
    unfold decodePad at h
    split at h
    · simp only [Option.bind_eq_bind, Option.bind_eq_some_iff, u8_eq_some_iff, Option.pure_def,
        Option.some.injEq, Prod.mk.injEq] at h
      obtain ⟨a, rfl, b, rfl, c, rfl, rfl, rfl, rfl⟩ := h
      rfl
    · cases h
  · rintro rfl
    decide

/-- A body that spells a tuple decodes into the key of the data plane exactly if
it is not padded. -/
theorem decodeIpv4Packet_spells {j : Json} {key : Ipv4Packet} {t : FiveTuple UInt32}
    (h : decodeIpv4Packet j = some key) (ht : SpellsV4 j t) :
    key = t.toIpv4Packet ↔ UnpaddedV4 j := by
  simp only [decodeIpv4Packet, required_of_values ht.sourceAddr,
    required_of_values ht.destinationAddr, required_of_values ht.sourcePort,
    required_of_values ht.destinationPort, required_of_values ht.protocol, u32_int, u16_int,
    u8_int, Option.bind_eq_bind, Option.bind_some] at h
  simp only [Option.bind_eq_some_iff, Option.pure_def, Option.some.injEq] at h
  obtain ⟨-, -, pad, hpad, pad2, hpad2, rfl⟩ := h
  have hzero := defaulted_eq_iff hpad
  have hzero2 := defaulted_eq_iff hpad2
  simp only [u8_eq_some_iff, u16_eq_some_iff] at hzero hzero2
  simp only [FiveTuple.toIpv4Packet, Ipv4Packet.new, Ipv4Packet.mk.injEq, true_and, hzero, hzero2,
    UnpaddedV4]
  rfl

theorem decodeIpv6Packet_spells {j : Json} {key : Ipv6Packet} {t : FiveTuple Words}
    (h : decodeIpv6Packet j = some key) (ht : SpellsV6 j t) :
    key = t.toIpv6Packet ↔ UnpaddedV6 j := by
  simp only [decodeIpv6Packet, required_of_values ht.sourceAddr,
    required_of_values ht.destinationAddr, required_of_values ht.sourcePort,
    required_of_values ht.destinationPort, required_of_values ht.protocol, decodeWords_json,
    u16_int, u8_int, Option.bind_eq_bind, Option.bind_some] at h
  simp only [Option.bind_eq_some_iff, Option.pure_def, Option.some.injEq] at h
  obtain ⟨-, -, pad, hpad, rfl⟩ := h
  have hzero := defaulted_eq_iff hpad
  simp only [decodePad_eq_zero_iff] at hzero
  simp only [FiveTuple.toIpv6Packet, Ipv6Packet.new, Ipv6Packet.mk.injEq, true_and, hzero,
    UnpaddedV6]

end Oxidrop
