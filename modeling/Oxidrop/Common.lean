import Mathlib.Algebra.Group.Nat.Defs
import Mathlib.Data.List.Basic
import Mathlib.Logic.Function.Basic

/-!
# Types shared by the data plane and the control plane

Kernel maps are partial functions, and a subnet trie is keyed by a prefix
length and the big-endian address bytes. Machine words keep their width, so
arithmetic on them wraps as the release build of the source does.
-/
namespace Oxidrop

inductive Action where
  | allow | deny
  deriving DecidableEq, Repr

structure AllowListState where
  action : Action
  lastSeen : UInt64
  deriving DecidableEq, Repr

inductive TraficDirection where
  | incoming | outgoing
  deriving DecidableEq, Repr

structure TokenBucketState where
  tokens : UInt64
  lastUpdate : UInt64
  deriving DecidableEq, Repr

inductive FirewallError where
  | outOfBounds | unsupportedProtocol | rateLimited | deniedByPolicy
  deriving DecidableEq, Repr

/-- The `bitflags` set of protocols that may pass. -/
structure ActivaterEtherTypes where
  bits : UInt16
  deriving DecidableEq, Repr

namespace ActivaterEtherTypes

def LOOP : ActivaterEtherTypes := ⟨1⟩
def IPV4 : ActivaterEtherTypes := ⟨2⟩
def ARP : ActivaterEtherTypes := ⟨4⟩
def IEEE8021Q : ActivaterEtherTypes := ⟨8⟩
def IPV6 : ActivaterEtherTypes := ⟨16⟩
def IEEE8021AD : ActivaterEtherTypes := ⟨32⟩
def empty : ActivaterEtherTypes := ⟨0⟩

def union (a b : ActivaterEtherTypes) : ActivaterEtherTypes := ⟨a.bits ||| b.bits⟩

/-- Every flag of `b` is set in `a`. -/
def contains (a b : ActivaterEtherTypes) : Bool := a.bits &&& b.bits == b.bits

/-- Unknown bits are refused. -/
def fromBits (bits : UInt16) : Option ActivaterEtherTypes :=
  if bits &&& 0x3f == bits then some ⟨bits⟩ else none

@[simp] theorem contains_empty (a : ActivaterEtherTypes) : a.contains empty = true := by
  simp [contains, empty]

end ActivaterEtherTypes

/-- The EtherType variants the source names. `other` stands for every variant
that the header library knows beyond them. -/
inductive EtherType where
  | loop | ipv4 | arp | ieee8021q | ipv6 | ieee8021ad
  | other (code : UInt16)
  deriving DecidableEq, Repr

/-- `From<EtherType> for ActivaterEtherTypes`. -/
def EtherType.toActivaterEtherTypes : EtherType → ActivaterEtherTypes
  | .loop => .LOOP
  | .ipv4 => .IPV4
  | .arp => .ARP
  | .ieee8021q => .IEEE8021Q
  | .ipv6 => .IPV6
  | .ieee8021ad => .IEEE8021AD
  | .other _ => .empty

structure RateProfile where
  rateShift : UInt64
  burst : UInt64
  deriving DecidableEq, Repr

structure FirewallConfig where
  tcpProfile : RateProfile
  udpProfile : RateProfile
  icmpProfile : RateProfile
  defaultProfile : RateProfile
  protocolAllowed : ActivaterEtherTypes
  ddosActivated : Bool
  subnetActivated : Bool
  incomingEthernetAdapter : Option UInt32
  outputEthernetAdapter : Option UInt32
  deriving DecidableEq, Repr

/-- `FirewallConfig::default()`, and `DEFAULT_CONFIG` of the data plane. -/
def defaultConfig : FirewallConfig where
  tcpProfile := ⟨20, 1000⟩
  udpProfile := ⟨19, 2000⟩
  icmpProfile := ⟨26, 10⟩
  defaultProfile := ⟨23, 100⟩
  protocolAllowed := ActivaterEtherTypes.IPV4.union .IPV6
  ddosActivated := true
  subnetActivated := true
  incomingEthernetAdapter := none
  outputEthernetAdapter := none

/-! ## Bytes and words -/

/-- `u16::from_be_bytes`. -/
def be16 (a b : UInt8) : UInt16 := UInt16.ofNat (a.toNat * 2 ^ 8 + b.toNat)

/-- `u32::from_be_bytes`. -/
def be32 (a b c d : UInt8) : UInt32 :=
  UInt32.ofNat (a.toNat * 2 ^ 24 + b.toNat * 2 ^ 16 + c.toNat * 2 ^ 8 + d.toNat)

/-- `u32::to_be_bytes`. -/
def toBeBytes (w : UInt32) : List UInt8 :=
  [UInt8.ofNat (w.toNat / 2 ^ 24), UInt8.ofNat (w.toNat / 2 ^ 16),
    UInt8.ofNat (w.toNat / 2 ^ 8), UInt8.ofNat w.toNat]

theorem be32_toNat (a b c d : UInt8) :
    (be32 a b c d).toNat = a.toNat * 2 ^ 24 + b.toNat * 2 ^ 16 + c.toNat * 2 ^ 8 + d.toNat := by
  have ha := a.toNat_lt
  have hb := b.toNat_lt
  have hc := c.toNat_lt
  have hd := d.toNat_lt
  rw [be32, UInt32.toNat_ofNat']
  omega

theorem toBeBytes_be32 (a b c d : UInt8) : toBeBytes (be32 a b c d) = [a, b, c, d] := by
  have ha := a.toNat_lt
  have hb := b.toNat_lt
  have hc := c.toNat_lt
  have hd := d.toNat_lt
  simp only [toBeBytes, be32_toNat, List.cons.injEq, and_true]
  refine ⟨?_, ?_, ?_, ?_⟩ <;> apply UInt8.toNat_inj.mp <;> rw [UInt8.toNat_ofNat'] <;> omega

/-- The two conversions are inverse to each other. -/
theorem be32_toBeBytes (w : UInt32) :
    be32 (UInt8.ofNat (w.toNat / 2 ^ 24)) (UInt8.ofNat (w.toNat / 2 ^ 16))
      (UInt8.ofNat (w.toNat / 2 ^ 8)) (UInt8.ofNat w.toNat) = w := by
  have hw := w.toNat_lt
  apply UInt32.toNat_inj.mp
  simp only [be32_toNat, UInt8.toNat_ofNat']
  omega

/-- The address `[u32; 4]` of an IPv6 key. -/
structure Words where
  first : UInt32
  second : UInt32
  third : UInt32
  fourth : UInt32
  deriving DecidableEq, Repr

def ipv6NetworkBytes (network : Words) : List UInt8 :=
  toBeBytes network.first ++ toBeBytes network.second ++
    toBeBytes network.third ++ toBeBytes network.fourth

/-! ## Flow keys -/

structure Ipv4Packet where
  sourceAddr : UInt32
  destinationAddr : UInt32
  sourcePort : UInt16
  destinationPort : UInt16
  protocol : UInt8
  pad : UInt8
  pad2 : UInt16
  deriving DecidableEq, Repr

/-- `Ipv4Packet::new` zeroes the padding. -/
def Ipv4Packet.new (sourceAddr destinationAddr : UInt32) (sourcePort destinationPort : UInt16)
    (protocol : UInt8) : Ipv4Packet :=
  ⟨sourceAddr, destinationAddr, sourcePort, destinationPort, protocol, 0, 0⟩

structure Ipv6Packet where
  sourceAddr : Words
  destinationAddr : Words
  sourcePort : UInt16
  destinationPort : UInt16
  protocol : UInt8
  pad : UInt8 × UInt8 × UInt8
  deriving DecidableEq, Repr

/-- `Ipv6Packet::new` zeroes the padding. -/
def Ipv6Packet.new (sourceAddr destinationAddr : Words) (sourcePort destinationPort : UInt16)
    (protocol : UInt8) : Ipv6Packet :=
  ⟨sourceAddr, destinationAddr, sourcePort, destinationPort, protocol, 0, 0, 0⟩

end Oxidrop
