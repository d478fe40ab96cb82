import Mathlib.Tactic.IntervalCases
import Oxidrop.Common

/-!
# Reading the headers of a frame

The header structs and their accessors belong to the `network-types` crate.
`NetworkTypes` takes each accessor the data plane calls as a parameter, on the
raw bytes of the struct it is called on. Everything the data plane does with
what they return is written out.
-/
namespace Oxidrop

/-- An IP protocol, by its number on the wire. -/
structure IpProto where
  val : UInt8
  deriving DecidableEq, Repr

namespace IpProto

def HopOpt : IpProto := ⟨0⟩
def Icmp : IpProto := ⟨1⟩
def Tcp : IpProto := ⟨6⟩
def Udp : IpProto := ⟨17⟩
def Ipv6Route : IpProto := ⟨43⟩
def Ipv6Frag : IpProto := ⟨44⟩
def Ah : IpProto := ⟨51⟩
def Ipv6Icmp : IpProto := ⟨58⟩
def Ipv6Opts : IpProto := ⟨60⟩

end IpProto

structure NetworkTypes where
  etherType : List UInt8 → Option EtherType
  ipv4SrcAddr : List UInt8 → Vector UInt8 4
  ipv4DstAddr : List UInt8 → Vector UInt8 4
  ipv4Proto : List UInt8 → Option IpProto
  ipv4Ihl : List UInt8 → UInt8
  ipv6SrcAddr : List UInt8 → Vector UInt8 16
  ipv6DstAddr : List UInt8 → Vector UInt8 16
  ipv6NextHdr : List UInt8 → Option IpProto
  fromU8 : UInt8 → Option IpProto
  tcpSource : List UInt8 → UInt8 × UInt8
  tcpDest : List UInt8 → UInt8 × UInt8
  tcpFin : List UInt8 → UInt16
  tcpRst : List UInt8 → UInt16
  udpSrcPort : List UInt8 → UInt16
  udpDstPort : List UInt8 → UInt16

def EthHdr.LEN : Nat := 14
def Ipv4Hdr.LEN : Nat := 20
def Ipv6Hdr.LEN : Nat := 40
def TcpHdr.LEN : Nat := 20
def UdpHdr.LEN : Nat := 8

/-- `ptr_at`: the bytes behind the pointer, if they all lie inside the frame. -/
def ptrAt (data : List UInt8) (offset len : Nat) : Option (List UInt8) :=
  if data.length < offset + len then none else some ((data.drop offset).take len)

/-- `.map_err(|_| FirewallError::OutOfBounds)?`. -/
def orOutOfBounds {α : Type} : Option α → Except FirewallError α
  | some a => .ok a
  | none => .error .outOfBounds

/-- `as_chunks::<4>`. -/
def asChunks4 : List UInt8 → List (UInt8 × UInt8 × UInt8 × UInt8) × List UInt8
  | a :: b :: c :: d :: rest => ((a, b, c, d) :: (asChunks4 rest).1, (asChunks4 rest).2)
  | rest => ([], rest)

def ipv6Words (octets : Vector UInt8 16) : Except FirewallError Words :=
  match asChunks4 octets.toList with
  | ([(a₁, b₁, c₁, d₁), (a₂, b₂, c₂, d₂), (a₃, b₃, c₃, d₃), (a₄, b₄, c₄, d₄)], remainder) =>
    if remainder.isEmpty then
      .ok ⟨be32 a₁ b₁ c₁ d₁, be32 a₂ b₂ c₂ d₂, be32 a₃ b₃ c₃ d₃, be32 a₄ b₄ c₄ d₄⟩
    else .error .outOfBounds
  | _ => .error .outOfBounds

/-- What the parsing half of an address family's arm reads: the addresses as
octets and in the form of the flow key, the protocol, the ports, and whether a
FIN or RST asks for the flow to be removed. -/
structure Headers (n : Nat) (α : Type) where
  sourceOctets : Vector UInt8 n
  destOctets : Vector UInt8 n
  sourceAddr : α
  destAddr : α
  protocol : IpProto
  sourcePort : UInt16
  destPort : UInt16
  removeFromHashmap : Bool

/-- The transport header at `offset`: ports and the FIN or RST test. Protocols
other than TCP and UDP have no ports. -/
def readPorts (nt : NetworkTypes) (data : List UInt8) (offset : Nat) (isTcp isUdp : Bool) :
    Except FirewallError (UInt16 × UInt16 × Bool) :=
  if isTcp then do
    let tcphdr ← orOutOfBounds (ptrAt data offset TcpHdr.LEN)
    let isFin := nt.tcpFin tcphdr != 0
    let isRst := nt.tcpRst tcphdr != 0
    return (be16 (nt.tcpSource tcphdr).1 (nt.tcpSource tcphdr).2,
      be16 (nt.tcpDest tcphdr).1 (nt.tcpDest tcphdr).2, isRst || isFin)
  else if isUdp then do
    let udphdr ← orOutOfBounds (ptrAt data offset UdpHdr.LEN)
    return (nt.udpSrcPort udphdr, nt.udpDstPort udphdr, false)
  else .ok (0, 0, false)

def octetsToU32 (octets : Vector UInt8 4) : UInt32 :=
  be32 octets[0] octets[1] octets[2] octets[3]

/-- The parsing half of the IPv4 arm. -/
def parseIpv4 (nt : NetworkTypes) (data : List UInt8) :
    Except FirewallError (Headers 4 UInt32) := do
  let ipv4hdr ← orOutOfBounds (ptrAt data EthHdr.LEN Ipv4Hdr.LEN)
  let sourceAddr := nt.ipv4SrcAddr ipv4hdr
  let destAddr := nt.ipv4DstAddr ipv4hdr
  let protocol ← orOutOfBounds (nt.ipv4Proto ipv4hdr)
  let ipHeaderLen := (nt.ipv4Ihl ipv4hdr).toNat
  let ports ← readPorts nt data (EthHdr.LEN + ipHeaderLen) (protocol == .Tcp) (protocol == .Udp)
  return ⟨sourceAddr, destAddr, octetsToU32 sourceAddr, octetsToU32 destAddr, protocol,
    ports.1, ports.2.1, ports.2.2⟩

/-- Where the walk over the extension headers ends. -/
structure Walk where
  currentOffset : Nat
  nextProto : IpProto
  foundL4 : Bool
  deriving DecidableEq, Repr

/-- One extension header: its next-header and length bytes. A number that the
header library does not know ends the walk where it stands. -/
def extHeader (nt : NetworkTypes) (data : List UInt8) (offset : Nat) :
    Except FirewallError (Option IpProto × UInt8) := do
  let extHdr ← orOutOfBounds (ptrAt data offset 2)
  return (nt.fromU8 (extHdr.getD 0 0), extHdr.getD 1 0)

/-- The bounded loop of the IPv6 arm, with the iterations that are left. -/
def walkHeaders (nt : NetworkTypes) (data : List UInt8) :
    Nat → Nat → IpProto → Except FirewallError Walk
  | 0, currentOffset, nextProto => .ok ⟨currentOffset, nextProto, false⟩
  | n + 1, currentOffset, nextProto =>
    if nextProto = .Tcp ∨ nextProto = .Udp ∨ nextProto = .Ipv6Icmp then
      .ok ⟨currentOffset, nextProto, true⟩
    else if nextProto = .HopOpt ∨ nextProto = .Ipv6Route ∨ nextProto = .Ipv6Opts then
      match extHeader nt data currentOffset with
      | .error e => .error e
      | .ok (none, _) => .ok ⟨currentOffset, nextProto, false⟩
      | .ok (some parsed, extLen) =>
        walkHeaders nt data n (currentOffset + (extLen.toNat + 1) * 8) parsed
    else if nextProto = .Ipv6Frag then
      match extHeader nt data currentOffset with
      | .error e => .error e
      | .ok (none, _) => .ok ⟨currentOffset, nextProto, false⟩
      | .ok (some parsed, _) => walkHeaders nt data n (currentOffset + 8) parsed
    else if nextProto = .Ah then
      match extHeader nt data currentOffset with
      | .error e => .error e
      | .ok (none, _) => .ok ⟨currentOffset, nextProto, false⟩
      | .ok (some parsed, extLen) =>
        walkHeaders nt data n (currentOffset + (extLen.toNat + 2) * 4) parsed
    else .ok ⟨currentOffset, nextProto, false⟩

/-- The parsing half of the IPv6 arm. -/
def parseIpv6 (nt : NetworkTypes) (data : List UInt8) :
    Except FirewallError (Headers 16 Words) := do
  let ipv6hdr ← orOutOfBounds (ptrAt data EthHdr.LEN Ipv6Hdr.LEN)
  let srcOctets := nt.ipv6SrcAddr ipv6hdr
  let dstOctets := nt.ipv6DstAddr ipv6hdr
  let srcArray ← ipv6Words srcOctets
  let dstArray ← ipv6Words dstOctets
  let protocolFirst ← orOutOfBounds (nt.ipv6NextHdr ipv6hdr)
  let walk ← walkHeaders nt data 6 (EthHdr.LEN + Ipv6Hdr.LEN) protocolFirst
  let ports ← readPorts nt data walk.currentOffset
    (walk.foundL4 && walk.nextProto == .Tcp) (walk.foundL4 && walk.nextProto == .Udp)
  return ⟨srcOctets, dstOctets, srcArray, dstArray, walk.nextProto,
    ports.1, ports.2.1, ports.2.2⟩

/-! ## What the parsers return -/

theorem asChunks4_append (octets : List UInt8) :
    (asChunks4 octets).1.flatMap (fun chunk => [chunk.1, chunk.2.1, chunk.2.2.1, chunk.2.2.2]) ++
      (asChunks4 octets).2 = octets := by
  fun_induction asChunks4 octets with
  | case1 a b c d rest ih => simp [ih]
  | case2 rest h => simp

/-- The four words of an address carry its sixteen octets. -/
theorem ipv6Words_bytes {octets : Vector UInt8 16} {words : Words}
    (h : ipv6Words octets = .ok words) : ipv6NetworkBytes words = octets.toList := by
  have happ := asChunks4_append octets.toList
  unfold ipv6Words at h
  split at h
  · rename_i a₁ b₁ c₁ d₁ a₂ b₂ c₂ d₂ a₃ b₃ c₃ d₃ a₄ b₄ c₄ d₄ remainder hchunks
    rw [hchunks] at happ
    split at h
    · rename_i hempty
      cases h
      rw [← happ, List.isEmpty_iff.mp hempty]
      simp [ipv6NetworkBytes, toBeBytes_be32]
    · simp at h
  · simp at h

theorem octetsToU32_bytes (octets : Vector UInt8 4) :
    toBeBytes (octetsToU32 octets) = octets.toList := by
  rw [octetsToU32, toBeBytes_be32]
  apply List.ext_getElem
  · simp
  · intro i h _
    simp only [List.length_cons, List.length_nil] at h
    interval_cases i <;> simp

/-- A pointer is good exactly if the bytes behind it lie inside the frame. -/
theorem ptrAt_eq_some_iff {data header : List UInt8} {offset len : Nat} :
    ptrAt data offset len = some header ↔
      offset + len ≤ data.length ∧ header = (data.drop offset).take len := by
  unfold ptrAt
  by_cases h : data.length < offset + len
  · simp only [h, if_true, reduceCtorEq, false_iff]
    rintro ⟨hle, -⟩
    omega
  · simp only [h, if_false, Option.some.injEq]
    exact ⟨fun heq => ⟨by omega, heq.symm⟩, fun heq => heq.2.symm⟩

@[simp] theorem orOutOfBounds_eq_ok {α : Type} {x : Option α} {a : α} :
    orOutOfBounds x = .ok a ↔ x = some a := by
  cases x <;> simp [orOutOfBounds]

theorem except_bind_eq_ok {ε α β : Type} {x : Except ε α} {f : α → Except ε β} {b : β} :
    (x >>= f) = .ok b ↔ ∃ a, x = .ok a ∧ f a = .ok b := by
  cases x <;> simp [bind, Except.bind]

/-- Sixteen octets are four words. -/
theorem ipv6Words_ok (octets : Vector UInt8 16) : ∃ words, ipv6Words octets = .ok words := by
  have hlen : octets.toList.length = 16 := by simp
  unfold ipv6Words
  match octets.toList, hlen with
  | [a₁, b₁, c₁, d₁, a₂, b₂, c₂, d₂, a₃, b₃, c₃, d₃, a₄, b₄, c₄, d₄], _ =>
    exact ⟨⟨be32 a₁ b₁ c₁ d₁, be32 a₂ b₂ c₂ d₂, be32 a₃ b₃ c₃ d₃, be32 a₄ b₄ c₄ d₄⟩, rfl⟩

/-- What the IPv4 arm has read when it gets past the headers. -/
theorem parseIpv4_eq_ok_iff {nt : NetworkTypes} {data : List UInt8} {h : Headers 4 UInt32} :
    parseIpv4 nt data = .ok h ↔
      ∃ ipv4hdr protocol ports, ptrAt data EthHdr.LEN Ipv4Hdr.LEN = some ipv4hdr ∧
        nt.ipv4Proto ipv4hdr = some protocol ∧
        readPorts nt data (EthHdr.LEN + (nt.ipv4Ihl ipv4hdr).toNat) (protocol == .Tcp)
          (protocol == .Udp) = .ok ports ∧
        h = ⟨nt.ipv4SrcAddr ipv4hdr, nt.ipv4DstAddr ipv4hdr, octetsToU32 (nt.ipv4SrcAddr ipv4hdr),
          octetsToU32 (nt.ipv4DstAddr ipv4hdr), protocol, ports.1, ports.2.1, ports.2.2⟩ := by
  simp only [parseIpv4, except_bind_eq_ok, orOutOfBounds_eq_ok, pure, Except.pure,
    Except.ok.injEq]
  constructor
  · rintro ⟨ipv4hdr, hptr, protocol, hproto, ports, hports, rfl⟩
    exact ⟨ipv4hdr, protocol, ports, hptr, hproto, hports, rfl⟩
  · rintro ⟨ipv4hdr, protocol, ports, hptr, hproto, hports, rfl⟩
    exact ⟨ipv4hdr, hptr, protocol, hproto, ports, hports, rfl⟩

/-- What the IPv6 arm has read when it gets past the headers. -/
theorem parseIpv6_eq_ok_iff {nt : NetworkTypes} {data : List UInt8} {h : Headers 16 Words} :
    parseIpv6 nt data = .ok h ↔
      ∃ ipv6hdr srcArray dstArray protocolFirst walk ports,
        ptrAt data EthHdr.LEN Ipv6Hdr.LEN = some ipv6hdr ∧
        ipv6Words (nt.ipv6SrcAddr ipv6hdr) = .ok srcArray ∧
        ipv6Words (nt.ipv6DstAddr ipv6hdr) = .ok dstArray ∧
        nt.ipv6NextHdr ipv6hdr = some protocolFirst ∧
        walkHeaders nt data 6 (EthHdr.LEN + Ipv6Hdr.LEN) protocolFirst = .ok walk ∧
        readPorts nt data walk.currentOffset (walk.foundL4 && walk.nextProto == .Tcp)
          (walk.foundL4 && walk.nextProto == .Udp) = .ok ports ∧
        h = ⟨nt.ipv6SrcAddr ipv6hdr, nt.ipv6DstAddr ipv6hdr, srcArray, dstArray, walk.nextProto,
          ports.1, ports.2.1, ports.2.2⟩ := by
  simp only [parseIpv6, except_bind_eq_ok, orOutOfBounds_eq_ok, pure, Except.pure,
    Except.ok.injEq]
  constructor
  · rintro ⟨ipv6hdr, hptr, src, hsrc, dst, hdst, protocolFirst, hfirst, walk, hwalk, ports,
      hports, rfl⟩
    exact ⟨ipv6hdr, src, dst, protocolFirst, walk, ports, hptr, hsrc, hdst, hfirst, hwalk,
      hports, rfl⟩
  · rintro ⟨ipv6hdr, src, dst, protocolFirst, walk, ports, hptr, hsrc, hdst, hfirst, hwalk,
      hports, rfl⟩
    exact ⟨ipv6hdr, hptr, src, hsrc, dst, hdst, protocolFirst, hfirst, walk, hwalk, ports,
      hports, rfl⟩

/-- The ports and the removal flag by protocol. -/
theorem readPorts_eq_ok_iff {nt : NetworkTypes} {data : List UInt8} {offset : Nat}
    {isTcp isUdp : Bool} {r : UInt16 × UInt16 × Bool} :
    readPorts nt data offset isTcp isUdp = .ok r ↔
      (isTcp = true ∧ ∃ tcphdr, ptrAt data offset TcpHdr.LEN = some tcphdr ∧
        r = (be16 (nt.tcpSource tcphdr).1 (nt.tcpSource tcphdr).2,
          be16 (nt.tcpDest tcphdr).1 (nt.tcpDest tcphdr).2,
          nt.tcpRst tcphdr != 0 || nt.tcpFin tcphdr != 0)) ∨
      (isTcp = false ∧ isUdp = true ∧ ∃ udphdr, ptrAt data offset UdpHdr.LEN = some udphdr ∧
        r = (nt.udpSrcPort udphdr, nt.udpDstPort udphdr, false)) ∨
      (isTcp = false ∧ isUdp = false ∧ r = (0, 0, false)) := by
  have hswap : ∀ x : UInt16 × UInt16 × Bool, x = r ↔ r = x := fun x => eq_comm
  unfold readPorts
  cases isTcp <;> cases isUdp <;>
    simp only [Bool.false_eq_true, if_true, if_false, except_bind_eq_ok, orOutOfBounds_eq_ok,
      pure, Except.pure, Except.ok.injEq, hswap, true_and, false_and, or_false, false_or,
      reduceCtorEq]

/-! ### The only error -/

@[simp] theorem orOutOfBounds_eq_error {α : Type} {x : Option α} {e : FirewallError} :
    orOutOfBounds x = .error e ↔ x = none ∧ e = .outOfBounds := by
  cases x <;> simp [orOutOfBounds, eq_comm]

theorem except_bind_eq_error {ε α β : Type} {x : Except ε α} {f : α → Except ε β} {e : ε} :
    (x >>= f) = .error e ↔ x = .error e ∨ ∃ a, x = .ok a ∧ f a = .error e := by
  cases x <;> simp [bind, Except.bind]

theorem readPorts_error {nt : NetworkTypes} {data : List UInt8} {offset : Nat}
    {isTcp isUdp : Bool} {e : FirewallError} (h : readPorts nt data offset isTcp isUdp = .error e) :
    e = .outOfBounds := by
  unfold readPorts at h
  cases isTcp <;> cases isUdp <;>
    simp_all [except_bind_eq_error, pure, Except.pure]

theorem extHeader_error {nt : NetworkTypes} {data : List UInt8} {offset : Nat} {e : FirewallError}
    (h : extHeader nt data offset = .error e) : e = .outOfBounds := by
  simp only [extHeader, except_bind_eq_error, orOutOfBounds_eq_error, pure, Except.pure,
    reduceCtorEq, and_false, exists_false, or_false] at h
  exact h.2

theorem walkHeaders_error {nt : NetworkTypes} {data : List UInt8} {n offset : Nat} {p : IpProto}
    {e : FirewallError} (h : walkHeaders nt data n offset p = .error e) : e = .outOfBounds := by
  induction n generalizing offset p with
  | zero => cases h
  | succ n ih =>
    rw [walkHeaders] at h
    cases hx : extHeader nt data offset with
    | error e' =>
      rw [hx] at h
      have he' := extHeader_error hx
      split_ifs at h <;> cases h <;> exact he'
    | ok a =>
      rw [hx] at h
      obtain ⟨parsed, extLen⟩ := a
      cases parsed with
      | none => split_ifs at h
      | some parsed => split_ifs at h <;> exact ih h

theorem parseIpv6_error {nt : NetworkTypes} {data : List UInt8} {e : FirewallError}
    (h : parseIpv6 nt data = .error e) : e = .outOfBounds := by
  simp only [parseIpv6, except_bind_eq_error, orOutOfBounds_eq_error, orOutOfBounds_eq_ok, pure,
    Except.pure, reduceCtorEq, and_false, exists_false, or_false] at h
  obtain ⟨-, he⟩ | ⟨ipv6hdr, -, h⟩ := h
  · exact he
  obtain ⟨src, hsrc⟩ := ipv6Words_ok (nt.ipv6SrcAddr ipv6hdr)
  obtain ⟨dst, hdst⟩ := ipv6Words_ok (nt.ipv6DstAddr ipv6hdr)
  rw [hsrc, hdst] at h
  simp only [reduceCtorEq, Except.ok.injEq, exists_eq_left', false_or] at h
  obtain ⟨-, he⟩ | ⟨first, -, h⟩ := h
  · exact he
  obtain hwalk | ⟨walk, -, hports⟩ := h
  · exact walkHeaders_error hwalk
  · exact readPorts_error hports

/-- The addresses in key form carry the octets that the subnet check reads. -/
def Headers.Agree {n : Nat} {α : Type} (bytes : α → List UInt8) (h : Headers n α) : Prop :=
  bytes h.sourceAddr = h.sourceOctets.toList ∧ bytes h.destAddr = h.destOctets.toList

theorem parseIpv4_agree {nt : NetworkTypes} {data : List UInt8} {h : Headers 4 UInt32}
    (hp : parseIpv4 nt data = .ok h) : h.Agree toBeBytes := by
  obtain ⟨ipv4hdr, protocol, ports, -, -, -, rfl⟩ := parseIpv4_eq_ok_iff.mp hp
  exact ⟨octetsToU32_bytes _, octetsToU32_bytes _⟩

theorem parseIpv6_agree {nt : NetworkTypes} {data : List UInt8} {h : Headers 16 Words}
    (hp : parseIpv6 nt data = .ok h) : h.Agree ipv6NetworkBytes := by
  obtain ⟨ipv6hdr, src, dst, first, walk, ports, -, hsrc, hdst, -, -, -, rfl⟩ :=
    parseIpv6_eq_ok_iff.mp hp
  exact ⟨ipv6Words_bytes hsrc, ipv6Words_bytes hdst⟩

/-! ## Concrete frames -/

def octetsAt (n : Nat) (header : List UInt8) (offset : Nat) : Vector UInt8 n :=
  Vector.ofFn (fun i => header.getD (offset + i) 0)

def knownEtherType (code : UInt16) : Option EtherType :=
  if code = 0x0060 then some .loop
  else if code = 0x0800 then some .ipv4
  else if code = 0x0806 then some .arp
  else if code = 0x8100 then some .ieee8021q
  else if code = 0x86DD then some .ipv6
  else if code = 0x88A8 then some .ieee8021ad
  else if code = 0x8906 then some (.other 0x8906)
  else none

def assignedProto (v : UInt8) : Option IpProto :=
  if v.toNat ≤ 142 then some ⟨v⟩ else none

/-- The wire layouts of the RFCs, to evaluate the model on concrete frames. -/
def rfcTypes : NetworkTypes where
  etherType h := knownEtherType (be16 (h.getD 12 0) (h.getD 13 0))
  ipv4SrcAddr h := octetsAt 4 h 12
  ipv4DstAddr h := octetsAt 4 h 16
  ipv4Proto h := assignedProto (h.getD 9 0)
  ipv4Ihl h := (h.getD 0 0 &&& 0x0f) * 4
  ipv6SrcAddr h := octetsAt 16 h 8
  ipv6DstAddr h := octetsAt 16 h 24
  ipv6NextHdr h := assignedProto (h.getD 6 0)
  fromU8 := assignedProto
  tcpSource h := (h.getD 0 0, h.getD 1 0)
  tcpDest h := (h.getD 2 0, h.getD 3 0)
  tcpFin h := (h.getD 13 0 &&& 1).toUInt16
  tcpRst h := (h.getD 13 0 >>> 2 &&& 1).toUInt16
  udpSrcPort h := be16 (h.getD 0 0) (h.getD 1 0)
  udpDstPort h := be16 (h.getD 2 0) (h.getD 3 0)

def ipv4Frame (proto : UInt8) (source dest transport : List UInt8) : List UInt8 :=
  List.replicate 12 0 ++ [0x08, 0x00] ++
    [0x45, 0, 0, 0, 0, 0, 0, 0, 64, proto, 0, 0] ++ source ++ dest ++ transport

def ipv6Frame (nextHdr : UInt8) (source dest transport : List UInt8) : List UInt8 :=
  List.replicate 12 0 ++ [0x86, 0xDD] ++
    [0x60, 0, 0, 0, 0, 0, nextHdr, 64] ++ source ++ dest ++ transport

/-- A TCP header without options. Bit 0 of the flags is FIN, bit 2 is RST. -/
def tcpHeader (sourcePort destPort flags : UInt8) : List UInt8 :=
  [0, sourcePort, 0, destPort, 0, 0, 0, 0, 0, 0, 0, 0, 0x50, flags, 0, 0, 0, 0, 0, 0]

end Oxidrop
