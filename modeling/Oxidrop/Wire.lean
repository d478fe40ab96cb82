import Oxidrop.Flow

/-!
# Frames as the RFCs read them

What the header library promises, and the fields of a frame by their positions
on the wire. The extension headers of an IPv6 frame are a chain without bound.
The parsers of the data plane are connected to this reading here.
-/
namespace Oxidrop

/-! ## The header library -/

/-- The documented behaviour of the accessors: each reads its field at the place
where the RFCs put it, in network byte order. -/
structure NetworkTypes.Lawful (nt : NetworkTypes) : Prop where
  etherTypeIpv4 : ∀ h, nt.etherType h = some .ipv4 ↔ be16 (h.getD 12 0) (h.getD 13 0) = 0x0800
  etherTypeIpv6 : ∀ h, nt.etherType h = some .ipv6 ↔ be16 (h.getD 12 0) (h.getD 13 0) = 0x86DD
  ipv4SrcAddr : ∀ h, nt.ipv4SrcAddr h = octetsAt 4 h 12
  ipv4DstAddr : ∀ h, nt.ipv4DstAddr h = octetsAt 4 h 16
  ipv4Proto : ∀ h, nt.ipv4Proto h = nt.fromU8 (h.getD 9 0)
  ipv4Ihl : ∀ h, nt.ipv4Ihl h = (h.getD 0 0 &&& 0x0f) * 4
  ipv6SrcAddr : ∀ h, nt.ipv6SrcAddr h = octetsAt 16 h 8
  ipv6DstAddr : ∀ h, nt.ipv6DstAddr h = octetsAt 16 h 24
  ipv6NextHdr : ∀ h, nt.ipv6NextHdr h = nt.fromU8 (h.getD 6 0)
  fromU8_eq : ∀ v p, nt.fromU8 v = some p → p = ⟨v⟩
  fromU8_known : ∀ v ∈ ([0, 6, 17, 43, 44, 51, 58, 60] : List UInt8), nt.fromU8 v = some ⟨v⟩
  tcpSource : ∀ h, nt.tcpSource h = (h.getD 0 0, h.getD 1 0)
  tcpDest : ∀ h, nt.tcpDest h = (h.getD 2 0, h.getD 3 0)
  tcpFin : ∀ h, nt.tcpFin h = 0 ↔ h.getD 13 0 &&& 0x01 = 0
  tcpRst : ∀ h, nt.tcpRst h = 0 ↔ h.getD 13 0 &&& 0x04 = 0
  udpSrcPort : ∀ h, nt.udpSrcPort h = be16 (h.getD 0 0) (h.getD 1 0)
  udpDstPort : ∀ h, nt.udpDstPort h = be16 (h.getD 2 0) (h.getD 3 0)

theorem forall_uint8 {P : UInt8 → Prop} (h : ∀ i : Fin 256, P (UInt8.ofFin i)) (b : UInt8) :
    P b := by
  have hb := h b.toFin
  rwa [UInt8.ofFin_toFin] at hb

theorem rfcTypes_lawful : rfcTypes.Lawful where
  etherTypeIpv4 h := by
    generalize hc : be16 (h.getD 12 0) (h.getD 13 0) = code
    simp only [rfcTypes, hc, knownEtherType]
    split_ifs <;> simp_all
  etherTypeIpv6 h := by
    generalize hc : be16 (h.getD 12 0) (h.getD 13 0) = code
    simp only [rfcTypes, hc, knownEtherType]
    split_ifs <;> simp_all
  ipv4SrcAddr _ := rfl
  ipv4DstAddr _ := rfl
  ipv4Proto _ := rfl
  ipv4Ihl _ := rfl
  ipv6SrcAddr _ := rfl
  ipv6DstAddr _ := rfl
  ipv6NextHdr _ := rfl
  fromU8_eq v p h := by
    simp only [rfcTypes, assignedProto] at h
    split_ifs at h
    exact (Option.some.inj h).symm
  fromU8_known := by decide +kernel
  tcpSource _ := rfl
  tcpDest _ := rfl
  tcpFin h := by
    exact forall_uint8 (P := fun b => (b &&& 1).toUInt16 = 0 ↔ b &&& 1 = 0)
      (by decide +kernel) (h.getD 13 0)
  tcpRst h := by
    exact forall_uint8 (P := fun b => (b >>> 2 &&& 1).toUInt16 = 0 ↔ b &&& 4 = 0)
      (by decide +kernel) (h.getD 13 0)
  udpSrcPort _ := rfl
  udpDstPort _ := rfl

/-! ## Fields by position -/

section Fields

variable {data header : List UInt8} {offset len : Nat}

theorem getD_ptrAt (h : ptrAt data offset len = some header) {i : Nat} (hi : i < len) :
    header.getD i 0 = data.getD (offset + i) 0 := by
  obtain ⟨hle, rfl⟩ := ptrAt_eq_some_iff.mp h
  simp [List.getD_eq_getElem?_getD, hi]

theorem octetsAt_ptrAt (h : ptrAt data offset len = some header) {n i : Nat} (hi : i + n ≤ len) :
    octetsAt n header i = octetsAt n data (offset + i) := by
  apply Vector.ext
  intro j hj
  simp only [octetsAt, Vector.getElem_ofFn]
  rw [getD_ptrAt h (by omega), Nat.add_assoc]

end Fields

/-- The transport header of a TCP or UDP packet lies inside the frame. -/
def TransportInside (data : List UInt8) (offset : Nat) (protocol : UInt8) : Prop :=
  (protocol = 6 → offset + 20 ≤ data.length) ∧ (protocol = 17 → offset + 8 ≤ data.length)

instance (data : List UInt8) (offset : Nat) (protocol : UInt8) :
    Decidable (TransportInside data offset protocol) :=
  inferInstanceAs (Decidable (_ ∧ _))

/-- The two port fields of the transport header; other protocols have none. -/
def portsAt (data : List UInt8) (offset : Nat) (protocol : UInt8) : UInt16 × UInt16 :=
  if protocol = 6 ∨ protocol = 17 then
    (be16 (data.getD offset 0) (data.getD (offset + 1) 0),
      be16 (data.getD (offset + 2) 0) (data.getD (offset + 3) 0))
  else (0, 0)

/-- The header is a TCP header with FIN or RST set. -/
def finRstAt (data : List UInt8) (offset : Nat) (protocol : UInt8) : Bool :=
  protocol = 6 ∧ data.getD (offset + 13) 0 &&& 0x05 ≠ 0

theorem and_five_eq_zero (b : UInt8) : b &&& 0x05 = 0 ↔ b &&& 0x04 = 0 ∧ b &&& 0x01 = 0 :=
  forall_uint8 (P := fun b => b &&& 0x05 = 0 ↔ b &&& 0x04 = 0 ∧ b &&& 0x01 = 0)
    (by decide +kernel) b

/-- A pointer is good if the frame is long enough, and then its fields are known. -/
theorem exists_ptrAt {data : List UInt8} {offset len : Nat} {P : List UInt8 → Prop} {Q : Prop}
    (h : ∀ header, ptrAt data offset len = some header → (P header ↔ Q)) :
    (∃ header, ptrAt data offset len = some header ∧ P header) ↔
      offset + len ≤ data.length ∧ Q := by
  constructor
  · rintro ⟨header, hp, hP⟩
    exact ⟨(ptrAt_eq_some_iff.mp hp).1, (h header hp).mp hP⟩
  · rintro ⟨hle, hQ⟩
    have hp := ptrAt_eq_some_iff.mpr ⟨hle, rfl⟩
    exact ⟨_, hp, (h _ hp).mpr hQ⟩

/-- The transport header is read where it stands. -/
theorem readPorts_wire {nt : NetworkTypes} (hnt : nt.Lawful) {data : List UInt8} {offset : Nat}
    {protocol : IpProto} {r : UInt16 × UInt16 × Bool} :
    readPorts nt data offset (protocol == .Tcp) (protocol == .Udp) = .ok r ↔
      TransportInside data offset protocol.val ∧
        r = ((portsAt data offset protocol.val).1, (portsAt data offset protocol.val).2,
          finRstAt data offset protocol.val) := by
  obtain ⟨v⟩ := protocol
  rw [readPorts_eq_ok_iff]
  by_cases htcp : v = 6
  · subst htcp
    have hother : ((⟨6⟩ : IpProto) == .Tcp) = true := rfl
    have hinside : TransportInside data offset 6 ↔ offset + 20 ≤ data.length := by
      simp [TransportInside]
    simp only [hother, true_and, false_and, or_false, Bool.true_eq_false, hinside]
    refine exists_ptrAt fun tcphdr hp => ?_
    have hflags : (nt.tcpRst tcphdr != 0 || nt.tcpFin tcphdr != 0) = finRstAt data offset 6 := by
      rw [Bool.eq_iff_iff]
      simp only [finRstAt, Bool.or_eq_true, bne_iff_ne, ne_eq, hnt.tcpRst, hnt.tcpFin,
        getD_ptrAt hp (show 13 < TcpHdr.LEN by decide), and_five_eq_zero, decide_eq_true_eq,
        true_and]
      tauto
    rw [hflags, hnt.tcpSource, hnt.tcpDest]
    simp only [getD_ptrAt hp (show 0 < TcpHdr.LEN by decide),
      getD_ptrAt hp (show 1 < TcpHdr.LEN by decide),
      getD_ptrAt hp (show 2 < TcpHdr.LEN by decide),
      getD_ptrAt hp (show 3 < TcpHdr.LEN by decide)]
    rfl
  · have hnot : ((⟨v⟩ : IpProto) == .Tcp) = false := by simpa [IpProto.Tcp] using htcp
    have hflags : finRstAt data offset v = false := by simp [finRstAt, htcp]
    simp only [hnot, Bool.false_eq_true, false_and, true_and, false_or, hflags]
    by_cases hudp : v = 17
    · subst hudp
      have hother : ((⟨17⟩ : IpProto) == .Udp) = true := rfl
      have hinside : TransportInside data offset 17 ↔ offset + 8 ≤ data.length := by
        simp [TransportInside]
      simp only [hother, true_and, false_and, or_false, Bool.true_eq_false, hinside]
      refine exists_ptrAt fun udphdr hp => ?_
      rw [hnt.udpSrcPort, hnt.udpDstPort]
      simp only [getD_ptrAt hp (show 0 < UdpHdr.LEN by decide),
        getD_ptrAt hp (show 1 < UdpHdr.LEN by decide),
        getD_ptrAt hp (show 2 < UdpHdr.LEN by decide),
        getD_ptrAt hp (show 3 < UdpHdr.LEN by decide)]
      rfl
    · have hnot' : ((⟨v⟩ : IpProto) == .Udp) = false := by simpa [IpProto.Udp] using hudp
      simp [hnot', htcp, hudp, portsAt, TransportInside]

/-- The length of the IPv4 header. -/
def ihlOf (data : List UInt8) : Nat := (data.getD 14 0 &&& 0x0f).toNat * 4

theorem toNat_ihl (b : UInt8) : ((b &&& 0x0f) * 4).toNat = (b &&& 0x0f).toNat * 4 :=
  forall_uint8 (P := fun b => ((b &&& 0x0f) * 4).toNat = (b &&& 0x0f).toNat * 4)
    (by decide +kernel) b

/-- The headers of an IPv4 frame, read by position. -/
def ipv4Headers (data : List UInt8) : Headers 4 UInt32 where
  sourceOctets := octetsAt 4 data 26
  destOctets := octetsAt 4 data 30
  sourceAddr := octetsToU32 (octetsAt 4 data 26)
  destAddr := octetsToU32 (octetsAt 4 data 30)
  protocol := ⟨data.getD 23 0⟩
  sourcePort := (portsAt data (14 + ihlOf data) (data.getD 23 0)).1
  destPort := (portsAt data (14 + ihlOf data) (data.getD 23 0)).2
  removeFromHashmap := finRstAt data (14 + ihlOf data) (data.getD 23 0)

theorem parseIpv4_wire {nt : NetworkTypes} (hnt : nt.Lawful) {data : List UInt8}
    {h : Headers 4 UInt32} :
    parseIpv4 nt data = .ok h ↔
      34 ≤ data.length ∧ nt.fromU8 (data.getD 23 0) = some ⟨data.getD 23 0⟩ ∧
        TransportInside data (14 + ihlOf data) (data.getD 23 0) ∧ h = ipv4Headers data := by
  have hfields : ∀ ipv4hdr, ptrAt data EthHdr.LEN Ipv4Hdr.LEN = some ipv4hdr →
      nt.ipv4SrcAddr ipv4hdr = octetsAt 4 data 26 ∧ nt.ipv4DstAddr ipv4hdr = octetsAt 4 data 30 ∧
      nt.ipv4Proto ipv4hdr = nt.fromU8 (data.getD 23 0) ∧
      EthHdr.LEN + (nt.ipv4Ihl ipv4hdr).toNat = 14 + ihlOf data := by
    intro ipv4hdr hp
    rw [hnt.ipv4SrcAddr, hnt.ipv4DstAddr, hnt.ipv4Proto, hnt.ipv4Ihl, toNat_ihl,
      octetsAt_ptrAt hp (by decide), octetsAt_ptrAt hp (by decide), getD_ptrAt hp (by decide),
      getD_ptrAt hp (by decide)]
    exact ⟨rfl, rfl, rfl, rfl⟩
  rw [parseIpv4_eq_ok_iff]
  constructor
  · rintro ⟨ipv4hdr, protocol, ports, hp, hproto, hports, rfl⟩
    obtain ⟨hs, hd, hpr, hoff⟩ := hfields ipv4hdr hp
    rw [hpr] at hproto
    have heq := hnt.fromU8_eq _ _ hproto
    rw [hoff, readPorts_wire hnt, heq] at hports
    obtain ⟨hin, rfl⟩ := hports
    refine ⟨(ptrAt_eq_some_iff.mp hp).1, by rw [hproto, heq], hin, ?_⟩
    rw [hs, hd, heq]
    rfl
  · rintro ⟨hlen, hproto, hin, rfl⟩
    have hp : ptrAt data EthHdr.LEN Ipv4Hdr.LEN = some _ := ptrAt_eq_some_iff.mpr ⟨hlen, rfl⟩
    obtain ⟨hs, hd, hpr, hoff⟩ := hfields _ hp
    refine ⟨_, ⟨data.getD 23 0⟩, ((ipv4Headers data).sourcePort, (ipv4Headers data).destPort,
      (ipv4Headers data).removeFromHashmap), hp, by rw [hpr, hproto], ?_, ?_⟩
    · rw [hoff]
      exact (readPorts_wire hnt).mpr ⟨hin, rfl⟩
    · simp only [hs, hd, ipv4Headers]

/-- The four words of an address. -/
def octetsToWords (octets : Vector UInt8 16) : Words :=
  ⟨be32 octets[0] octets[1] octets[2] octets[3], be32 octets[4] octets[5] octets[6] octets[7],
    be32 octets[8] octets[9] octets[10] octets[11],
    be32 octets[12] octets[13] octets[14] octets[15]⟩

theorem ipv6Words_eq (octets : Vector UInt8 16) :
    ipv6Words octets = .ok (octetsToWords octets) := by
  have hlist : octets.toList = [octets[0], octets[1], octets[2], octets[3], octets[4], octets[5],
      octets[6], octets[7], octets[8], octets[9], octets[10], octets[11], octets[12],
      octets[13], octets[14], octets[15]] := by
    apply List.ext_getElem
    · simp
    · intro i hi _
      simp only [Vector.length_toList] at hi
      interval_cases i <;> simp
  unfold ipv6Words
  rw [hlist]
  rfl

/-! ## Extension headers -/

/-- Hop-by-hop, routing, fragment, authentication and destination options. -/
def IsExtension (type : UInt8) : Prop :=
  type = 0 ∨ type = 43 ∨ type = 44 ∨ type = 51 ∨ type = 60

instance (type : UInt8) : Decidable (IsExtension type) := inferInstanceAs (Decidable (_ ∨ _))

/-- TCP, UDP and ICMPv6, where the walk of the data plane stops. -/
def IsTransport (type : UInt8) : Prop := type = 6 ∨ type = 17 ∨ type = 58

instance (type : UInt8) : Decidable (IsTransport type) := inferInstanceAs (Decidable (_ ∨ _))

theorem IsTransport.not_extension {type : UInt8} (h : IsTransport type) : ¬ IsExtension type := by
  rcases h with rfl | rfl | rfl <;> decide

/-- The length of the extension header at `offset`. Fragment headers have a
fixed length, authentication headers count in words of four octets. -/
def extensionLen (data : List UInt8) (offset : Nat) (type : UInt8) : Nat :=
  if type = 44 then 8
  else if type = 51 then ((data.getD (offset + 1) 0).toNat + 2) * 4
  else ((data.getD (offset + 1) 0).toNat + 1) * 8

/-- The lengths of the extension headers `types` from `offset` on. -/
def headerLengths (data : List UInt8) : Nat → List UInt8 → List Nat
  | _, [] => []
  | offset, type :: types =>
    extensionLen data offset type ::
      headerLengths data (offset + extensionLen data offset type) types

/-- From the header of type `type` at `offset`, the extension headers `types`
lead to the header of type `type'` at `offset'`. -/
inductive Chain (data : List UInt8) : Nat → UInt8 → List UInt8 → Nat → UInt8 → Prop where
  | done (offset : Nat) (type : UInt8) : Chain data offset type [] offset type
  | next {offset offset' : Nat} {type type' : UInt8} {types : List UInt8} :
    IsExtension type → offset + 2 ≤ data.length →
    Chain data (offset + extensionLen data offset type) (data.getD offset 0) types offset' type' →
    Chain data offset type (type :: types) offset' type'

section Chain

variable {data : List UInt8} {offset o₁ o₂ : Nat} {type t₁ t₂ : UInt8} {xs ys : List UInt8}

theorem chain_nil : Chain data offset type [] o₁ t₁ ↔ o₁ = offset ∧ t₁ = type := by
  constructor
  · intro h
    cases h
    exact ⟨rfl, rfl⟩
  · rintro ⟨rfl, rfl⟩
    exact .done _ _

theorem chain_cons {x : UInt8} :
    Chain data offset type (x :: xs) o₁ t₁ ↔
      x = type ∧ IsExtension type ∧ offset + 2 ≤ data.length ∧
        Chain data (offset + extensionLen data offset type) (data.getD offset 0) xs o₁ t₁ := by
  constructor
  · intro h
    cases h with
    | next hext hlen htail => exact ⟨rfl, hext, hlen, htail⟩
  · rintro ⟨rfl, hext, hlen, htail⟩
    exact .next hext hlen htail

theorem chain_append :
    Chain data offset type (xs ++ ys) o₂ t₂ ↔
      ∃ o₁ t₁, Chain data offset type xs o₁ t₁ ∧ Chain data o₁ t₁ ys o₂ t₂ := by
  induction xs generalizing offset type with
  | nil => simp [chain_nil]
  | cons x xs ih =>
    simp only [List.cons_append, chain_cons, ih]
    constructor
    · rintro ⟨hx, hext, hlen, o₁, t₁, h₁, h₂⟩
      exact ⟨o₁, t₁, ⟨hx, hext, hlen, h₁⟩, h₂⟩
    · rintro ⟨o₁, t₁, ⟨hx, hext, hlen, h₁⟩, h₂⟩
      exact ⟨hx, hext, hlen, o₁, t₁, h₁, h₂⟩

/-- A walk passes extension headers only. -/
theorem Chain.extension (h : Chain data offset type xs o₁ t₁) : ∀ x ∈ xs, IsExtension x := by
  induction h with
  | done => simp
  | next hext hle htail ih =>
    intro x hx
    rcases List.mem_cons.mp hx with rfl | hx
    · exact hext
    · exact ih x hx

/-- Two walks as long as each other meet the same headers. -/
theorem Chain.unique_of_length (h₁ : Chain data offset type xs o₁ t₁)
    (h₂ : Chain data offset type ys o₂ t₂) (hlen : xs.length = ys.length) :
    xs = ys ∧ o₁ = o₂ ∧ t₁ = t₂ := by
  induction h₁ generalizing ys with
  | done offset type =>
    obtain rfl := List.length_eq_zero_iff.mp hlen.symm
    obtain ⟨rfl, rfl⟩ := chain_nil.mp h₂
    exact ⟨rfl, rfl, rfl⟩
  | next hext hle htail ih =>
    cases ys with
    | nil => simp at hlen
    | cons y ys =>
      obtain ⟨rfl, -, -, h⟩ := chain_cons.mp h₂
      obtain ⟨rfl, rfl, rfl⟩ := ih h (by simpa using hlen)
      exact ⟨rfl, rfl, rfl⟩

/-- The walk to the end of the extension headers is unique. -/
theorem Chain.unique (h₁ : Chain data offset type xs o₁ t₁) (h₂ : Chain data offset type ys o₂ t₂)
    (hn₁ : ¬ IsExtension t₁) (hn₂ : ¬ IsExtension t₂) : xs = ys ∧ o₁ = o₂ ∧ t₁ = t₂ := by
  induction h₁ generalizing ys with
  | done offset type =>
    cases ys with
    | nil => exact h₂.unique_of_length (.done _ _) rfl |>.imp Eq.symm (And.imp Eq.symm Eq.symm)
    | cons y ys => exact absurd (chain_cons.mp h₂).2.1 hn₁
  | next hext hle htail ih =>
    cases ys with
    | nil =>
      obtain ⟨rfl, rfl⟩ := chain_nil.mp h₂
      exact absurd hext hn₂
    | cons y ys =>
      obtain ⟨rfl, -, -, h⟩ := chain_cons.mp h₂
      obtain ⟨rfl, rfl, rfl⟩ := ih h hn₁
      exact ⟨rfl, rfl, rfl⟩

/-- A walk that goes on beyond another has it as its beginning. -/
theorem Chain.extend (h₁ : Chain data offset type xs o₁ t₁) (h₂ : Chain data offset type ys o₂ t₂)
    (hn : ¬ IsExtension t₂) : ∃ zs, ys = xs ++ zs ∧ Chain data o₁ t₁ zs o₂ t₂ := by
  induction h₁ generalizing ys with
  | done offset type => exact ⟨ys, rfl, h₂⟩
  | next hext hle htail ih =>
    cases ys with
    | nil =>
      obtain ⟨rfl, rfl⟩ := chain_nil.mp h₂
      exact absurd hext hn
    | cons y ys =>
      obtain ⟨rfl, -, -, h⟩ := chain_cons.mp h₂
      obtain ⟨zs, rfl, hzs⟩ := ih h
      exact ⟨zs, rfl, hzs⟩

theorem extensionLen_pos (data : List UInt8) (offset : Nat) (type : UInt8) :
    8 ≤ extensionLen data offset type := by
  unfold extensionLen
  split_ifs <;> omega

/-- A walk ends where the lengths of its headers add up to. -/
theorem Chain.offset_eq (h : Chain data offset type xs o₁ t₁) :
    o₁ = offset + (headerLengths data offset xs).sum := by
  induction h with
  | done => rfl
  | next hext hle htail ih => rw [ih, headerLengths, List.sum_cons, Nat.add_assoc]

theorem Chain.le (h : Chain data offset type xs o₁ t₁) : offset ≤ o₁ := by
  induction h with
  | done => exact le_refl _
  | @next offset offset' type type' types hext hle htail ih =>
    have := extensionLen_pos data offset type
    omega

/-- A walk reads nothing from its end on. -/
theorem Chain.congr {data' : List UInt8} (h : Chain data offset type xs o₁ t₁)
    (hlen : data'.length = data.length)
    (hsame : ∀ i < o₁, data'.getD i 0 = data.getD i 0) : Chain data' offset type xs o₁ t₁ := by
  induction h with
  | done offset type => exact .done _ _
  | @next offset offset' type type' types hext hle htail ih =>
    have hlong := htail.le
    have hpos := extensionLen_pos data offset type
    have h₀ := hsame offset (by omega)
    have h₁ := hsame (offset + 1) (by omega)
    refine .next hext (by omega) ?_
    have hext : extensionLen data' offset type = extensionLen data offset type := by
      simp only [extensionLen, h₁]
    rw [hext, h₀]
    exact ih hsame

/-- A walk through a part of the frame is a walk through the octets that stand
there. -/
theorem Chain.transfer {octets : List UInt8} {start o : Nat}
    (h : Chain data o type xs o₁ t₁) (hoff : o = start + offset)
    (hlen : data.length ≤ start + octets.length)
    (hsame : ∀ i, start + i < data.length → data.getD (start + i) 0 = octets.getD i 0) :
    ∃ o', o₁ = start + o' ∧ Chain octets offset type xs o' t₁ := by
  induction h generalizing offset with
  | done o type => exact ⟨offset, hoff, .done _ _⟩
  | @next o o₁ type t₁ types hext hle htail ih =>
    subst hoff
    have h₀ := hsame offset (by omega)
    have h₁ := hsame (offset + 1) (by omega)
    have hext' : extensionLen data (start + offset) type = extensionLen octets offset type := by
      simp only [extensionLen, Nat.add_assoc, h₁]
    obtain ⟨o', rfl, hchain⟩ := ih (by rw [hext', Nat.add_assoc])
    refine ⟨o', rfl, .next hext (by omega) ?_⟩
    rwa [← h₀]

end Chain

theorem extHeader_eq (nt : NetworkTypes) (data : List UInt8) (offset : Nat) :
    extHeader nt data offset =
      if offset + 2 ≤ data.length then
        .ok (nt.fromU8 (data.getD offset 0), data.getD (offset + 1) 0)
      else .error .outOfBounds := by
  unfold extHeader
  by_cases h : offset + 2 ≤ data.length
  · have hp : ptrAt data offset 2 = some _ := ptrAt_eq_some_iff.mpr ⟨h, rfl⟩
    rw [if_pos h, ← Nat.add_zero offset, ← getD_ptrAt hp (show 0 < 2 by decide), Nat.add_zero,
      ← getD_ptrAt hp (show 1 < 2 by decide), hp]
    rfl
  · have hp : ptrAt data offset 2 = none := by
      unfold ptrAt
      rw [if_pos (by omega)]
    rw [if_neg h, hp]
    rfl

/-- At an extension header the data plane skips to the next header, if it knows
its number. -/
theorem walkHeaders_extension {nt : NetworkTypes} (hnt : nt.Lawful) {data : List UInt8}
    {offset : Nat} {type : UInt8} (n : Nat) (h : IsExtension type) :
    walkHeaders nt data (n + 1) offset ⟨type⟩ =
      if offset + 2 ≤ data.length then
        match nt.fromU8 (data.getD offset 0) with
        | none => .ok ⟨offset, ⟨type⟩, false⟩
        | some _ => walkHeaders nt data n (offset + extensionLen data offset type)
            ⟨data.getD offset 0⟩
      else .error .outOfBounds := by
  rw [walkHeaders, extHeader_eq]
  by_cases hle : offset + 2 ≤ data.length
  · simp only [if_pos hle]
    cases hf : nt.fromU8 (data.getD offset 0) with
    | none => rcases h with rfl | rfl | rfl | rfl | rfl <;> rfl
    | some parsed =>
      obtain rfl := hnt.fromU8_eq _ _ hf
      rcases h with rfl | rfl | rfl | rfl | rfl <;> rfl
  · simp only [if_neg hle]
    rcases h with rfl | rfl | rfl | rfl | rfl <;> rfl

theorem walkHeaders_transport {nt : NetworkTypes} {data : List UInt8} {offset : Nat}
    {type : UInt8} (n : Nat) (h : IsTransport type) :
    walkHeaders nt data (n + 1) offset ⟨type⟩ = .ok ⟨offset, ⟨type⟩, true⟩ := by
  have htransport : (⟨type⟩ : IpProto) = .Tcp ∨ (⟨type⟩ : IpProto) = .Udp ∨
      (⟨type⟩ : IpProto) = .Ipv6Icmp := by
    simpa [IsTransport, IpProto.Tcp, IpProto.Udp, IpProto.Ipv6Icmp] using h
  rw [walkHeaders, if_pos htransport]

/-- At any other header the data plane stops without a transport header. -/
theorem walkHeaders_other {nt : NetworkTypes} {data : List UInt8} {offset : Nat}
    {type : UInt8} (n : Nat) (ht : ¬ IsTransport type) (he : ¬ IsExtension type) :
    walkHeaders nt data n offset ⟨type⟩ = .ok ⟨offset, ⟨type⟩, false⟩ := by
  cases n with
  | zero => rfl
  | succ n =>
    simp only [IsTransport, IsExtension, not_or] at ht he
    simp [walkHeaders, IpProto.Tcp, IpProto.Udp, IpProto.Ipv6Icmp, IpProto.HopOpt,
      IpProto.Ipv6Route, IpProto.Ipv6Opts, IpProto.Ipv6Frag, IpProto.Ah, ht, he]

section Walk

variable {nt : NetworkTypes} {data : List UInt8} {offset o : Nat} {type t : UInt8}
  {xs : List UInt8}

theorem NetworkTypes.Lawful.extension_known (hnt : nt.Lawful) (h : IsExtension t) :
    nt.fromU8 t = some ⟨t⟩ := by
  apply hnt.fromU8_known
  rcases h with rfl | rfl | rfl | rfl | rfl <;> decide

theorem NetworkTypes.Lawful.transport_known (hnt : nt.Lawful) (h : IsTransport t) :
    nt.fromU8 t = some ⟨t⟩ := by
  apply hnt.fromU8_known
  rcases h with rfl | rfl | rfl <;> decide

/-- A chain to a known header starts at a known one. -/
theorem NetworkTypes.Lawful.chain_known (hnt : nt.Lawful) (h : Chain data offset type xs o t)
    (hknown : nt.fromU8 t = some ⟨t⟩) : nt.fromU8 type = some ⟨type⟩ := by
  cases h with
  | done => exact hknown
  | next hext => exact hnt.extension_known hext

/-- The data plane follows a chain whose last header it knows. -/
theorem walkHeaders_chain (hnt : nt.Lawful) (h : Chain data offset type xs o t)
    (hknown : nt.fromU8 t = some ⟨t⟩) {n : Nat} (hn : xs.length ≤ n) :
    walkHeaders nt data n offset ⟨type⟩ = walkHeaders nt data (n - xs.length) o ⟨t⟩ := by
  induction h generalizing n with
  | done offset type => rfl
  | @next offset offset' type type' types hext hle htail ih =>
    obtain ⟨n, rfl⟩ : ∃ n', n = n' + 1 := ⟨n - 1, by simp at hn; omega⟩
    rw [walkHeaders_extension hnt n hext, if_pos hle, hnt.chain_known htail hknown]
    simp only
    rw [ih hknown (by simpa using hn), List.length_cons, Nat.add_sub_add_right]

/-- Where the walk of the data plane ends: at the end of a chain no longer than
its bound, and with a transport header exactly if the bound was not used up. -/
theorem walkHeaders_ok (hnt : nt.Lawful) {n : Nat} {walk : Walk}
    (h : walkHeaders nt data n offset ⟨type⟩ = .ok walk) :
    ∃ types, Chain data offset type types walk.currentOffset walk.nextProto.val ∧
      types.length ≤ n ∧
      (walk.foundL4 = true ↔ types.length < n ∧ IsTransport walk.nextProto.val) := by
  induction n generalizing offset type with
  | zero =>
    obtain rfl := Except.ok.inj h
    exact ⟨[], .done _ _, le_refl 0, by simp⟩
  | succ n ih =>
    by_cases ht : IsTransport type
    · rw [walkHeaders_transport n ht] at h
      obtain rfl := Except.ok.inj h
      exact ⟨[], .done _ _, by simp, by simp [ht]⟩
    · by_cases he : IsExtension type
      · rw [walkHeaders_extension hnt n he] at h
        split_ifs at h with hle
        cases hf : nt.fromU8 (data.getD offset 0) with
        | none =>
          rw [hf] at h
          obtain rfl := Except.ok.inj h
          exact ⟨[], .done _ _, by simp, by simp [ht]⟩
        | some p =>
          rw [hf] at h
          obtain ⟨types, hchain, hlen, hfound⟩ := ih h
          refine ⟨type :: types, .next he hle hchain, by simpa using hlen, ?_⟩
          rw [hfound, List.length_cons, Nat.add_lt_add_iff_right]
      · rw [walkHeaders_other (n + 1) ht he] at h
        obtain rfl := Except.ok.inj h
        exact ⟨[], .done _ _, by simp, by simp [ht]⟩

/-- A walk of the data plane that follows some octets of the frame passes their
whole chain, if its bound allows. -/
theorem chain_of_walkHeaders (hnt : nt.Lawful) {octets : List UInt8} {start : Nat}
    (h : Chain octets offset type xs o t) (hknown : nt.fromU8 t = some ⟨t⟩)
    (hsame : ∀ i, start + i < data.length → data.getD (start + i) 0 = octets.getD i 0)
    {n : Nat} (hn : xs.length ≤ n) {walk : Walk}
    (hwalk : walkHeaders nt data n (start + offset) ⟨type⟩ = .ok walk) :
    Chain data (start + offset) type xs (start + o) t := by
  induction h generalizing n with
  | done offset type => exact .done _ _
  | @next offset offset' type type' types hext hle htail ih =>
    obtain ⟨n, rfl⟩ : ∃ n', n = n' + 1 := ⟨n - 1, by simp at hn; omega⟩
    rw [walkHeaders_extension hnt n hext] at hwalk
    split_ifs at hwalk with hin
    have h₀ := hsame offset (by omega)
    have h₁ := hsame (offset + 1) (by omega)
    have hext' : extensionLen data (start + offset) type = extensionLen octets offset type := by
      simp only [extensionLen, Nat.add_assoc, h₁]
    rw [h₀, hnt.chain_known htail hknown, hext', Nat.add_assoc] at hwalk
    refine .next hext hin ?_
    rw [h₀, hext', Nat.add_assoc]
    exact ih hknown (by simpa using hn) hwalk

end Walk

/-- The headers of an IPv6 frame whose walk has ended, the addresses read by
position. Without a transport header there are no ports. -/
def ipv6Headers (data : List UInt8) (walk : Walk) : Headers 16 Words where
  sourceOctets := octetsAt 16 data 22
  destOctets := octetsAt 16 data 38
  sourceAddr := octetsToWords (octetsAt 16 data 22)
  destAddr := octetsToWords (octetsAt 16 data 38)
  protocol := walk.nextProto
  sourcePort :=
    if walk.foundL4 then (portsAt data walk.currentOffset walk.nextProto.val).1 else 0
  destPort :=
    if walk.foundL4 then (portsAt data walk.currentOffset walk.nextProto.val).2 else 0
  removeFromHashmap := walk.foundL4 && finRstAt data walk.currentOffset walk.nextProto.val

theorem parseIpv6_wire {nt : NetworkTypes} (hnt : nt.Lawful) {data : List UInt8}
    {h : Headers 16 Words} :
    parseIpv6 nt data = .ok h ↔
      54 ≤ data.length ∧ nt.fromU8 (data.getD 20 0) = some ⟨data.getD 20 0⟩ ∧
        ∃ walk, walkHeaders nt data 6 54 ⟨data.getD 20 0⟩ = .ok walk ∧
          (walk.foundL4 = true →
            TransportInside data walk.currentOffset walk.nextProto.val) ∧
          h = ipv6Headers data walk := by
  have hfields : ∀ ipv6hdr, ptrAt data EthHdr.LEN Ipv6Hdr.LEN = some ipv6hdr →
      nt.ipv6SrcAddr ipv6hdr = octetsAt 16 data 22 ∧
      nt.ipv6DstAddr ipv6hdr = octetsAt 16 data 38 ∧
      nt.ipv6NextHdr ipv6hdr = nt.fromU8 (data.getD 20 0) := by
    intro ipv6hdr hp
    rw [hnt.ipv6SrcAddr, hnt.ipv6DstAddr, hnt.ipv6NextHdr, octetsAt_ptrAt hp (by decide),
      octetsAt_ptrAt hp (by decide), getD_ptrAt hp (by decide)]
    exact ⟨rfl, rfl, rfl⟩
  have hports : ∀ (walk : Walk) (r : UInt16 × UInt16 × Bool),
      readPorts nt data walk.currentOffset (walk.foundL4 && walk.nextProto == .Tcp)
          (walk.foundL4 && walk.nextProto == .Udp) = .ok r ↔
        (walk.foundL4 = true → TransportInside data walk.currentOffset walk.nextProto.val) ∧
          r = ((ipv6Headers data walk).sourcePort, (ipv6Headers data walk).destPort,
            (ipv6Headers data walk).removeFromHashmap) := by
    rintro ⟨offset, protocol, found⟩ r
    cases found with
    | true =>
      simp only [Bool.true_and, readPorts_wire hnt, true_implies]
      rfl
    | false => simp [readPorts_eq_ok_iff, ipv6Headers]
  rw [parseIpv6_eq_ok_iff]
  constructor
  · rintro ⟨ipv6hdr, src, dst, first, walk, ports, hp, hsrc, hdst, hfirst, hwalk, hr, rfl⟩
    obtain ⟨hs, hd, hn⟩ := hfields ipv6hdr hp
    rw [hn] at hfirst
    have heq := hnt.fromU8_eq _ _ hfirst
    rw [hs, ipv6Words_eq] at hsrc
    rw [hd, ipv6Words_eq] at hdst
    have hsrc := Except.ok.inj hsrc
    have hdst := Except.ok.inj hdst
    obtain ⟨hin, rfl⟩ := (hports walk ports).mp hr
    rw [heq] at hfirst hwalk
    refine ⟨(ptrAt_eq_some_iff.mp hp).1, hfirst, walk, hwalk, hin, ?_⟩
    simp only [hs, hd, ← hsrc, ← hdst, ipv6Headers]
  · rintro ⟨hlen, hfirst, walk, hwalk, hin, rfl⟩
    have hp : ptrAt data EthHdr.LEN Ipv6Hdr.LEN = some _ := ptrAt_eq_some_iff.mpr ⟨hlen, rfl⟩
    obtain ⟨hs, hd, hn⟩ := hfields _ hp
    refine ⟨_, octetsToWords (octetsAt 16 data 22), octetsToWords (octetsAt 16 data 38),
      ⟨data.getD 20 0⟩, walk, ((ipv6Headers data walk).sourcePort,
        (ipv6Headers data walk).destPort, (ipv6Headers data walk).removeFromHashmap), hp, ?_, ?_,
      by rw [hn, hfirst], hwalk, (hports walk _).mpr ⟨hin, rfl⟩, ?_⟩
    · rw [hs, ipv6Words_eq]
    · rw [hd, ipv6Words_eq]
    · simp only [hs, hd, ipv6Headers]

/-! ## Connections on the wire -/

/-- The five fields that name a connection, as one packet of it carries them. -/
structure Connection (n : Nat) where
  source : Vector UInt8 n
  dest : Vector UInt8 n
  protocol : UInt8
  sourcePort : UInt16
  destPort : UInt16
  deriving DecidableEq, Repr

namespace Connection

variable {n : Nat} {α κ : Type}

def reverse (c : Connection n) : Connection n :=
  ⟨c.dest, c.source, c.protocol, c.destPort, c.sourcePort⟩

/-- The connection as the inside host names it. -/
def fromInside (direction : TraficDirection) (c : Connection n) : Connection n :=
  match direction with
  | .incoming => c.reverse
  | .outgoing => c

/-- The headers that a parser should find. -/
def headers (toAddr : Vector UInt8 n → α) (c : Connection n) (finRst : Bool) : Headers n α :=
  ⟨c.source, c.dest, toAddr c.source, toAddr c.dest, ⟨c.protocol⟩, c.sourcePort, c.destPort,
    finRst⟩

/-- The flow key of the connection, named from the inside. -/
def key (toAddr : Vector UInt8 n → α) (new : α → α → UInt16 → UInt16 → UInt8 → κ)
    (c : Connection n) : κ :=
  new (toAddr c.source) (toAddr c.dest) c.sourcePort c.destPort c.protocol

theorem flowKey_headers (toAddr : Vector UInt8 n → α)
    (new : α → α → UInt16 → UInt16 → UInt8 → κ) (c : Connection n) (finRst : Bool)
    (direction : TraficDirection) :
    (c.headers toAddr finRst).flowKey new direction = (c.fromInside direction).key toAddr new := by
  cases direction <;> rfl

end Connection

/-- The connection of `udpRequest`. -/
def udpConnection : Connection 4 := ⟨#v[10, 0, 0, 1], #v[203, 0, 113, 9], 17, 53, 80⟩

/-- The frame is a whole IPv4 packet of connection `c`. -/
structure Ipv4Carries (data : List UInt8) (c : Connection 4) : Prop where
  etherType : be16 (data.getD 12 0) (data.getD 13 0) = 0x0800
  version : data.getD 14 0 >>> 4 = 4
  ihl : 20 ≤ ihlOf data
  header : 14 + ihlOf data ≤ data.length
  source : c.source = octetsAt 4 data 26
  dest : c.dest = octetsAt 4 data 30
  protocol : c.protocol = data.getD 23 0
  whole : be16 (data.getD 20 0) (data.getD 21 0) &&& 0x3fff = 0
  inside : TransportInside data (14 + ihlOf data) c.protocol
  ports : (c.sourcePort, c.destPort) = portsAt data (14 + ihlOf data) c.protocol

/-- The frame is an IPv6 packet of connection `c`, whose transport header stands
at `offset` behind the extension headers `types`. -/
structure Ipv6Carries (data : List UInt8) (types : List UInt8) (offset : Nat)
    (c : Connection 16) : Prop where
  etherType : be16 (data.getD 12 0) (data.getD 13 0) = 0x86DD
  header : 54 ≤ data.length
  source : c.source = octetsAt 16 data 22
  dest : c.dest = octetsAt 16 data 38
  chain : Chain data 54 (data.getD 20 0) types offset c.protocol
  transport : IsTransport c.protocol
  inside : TransportInside data offset c.protocol
  ports : (c.sourcePort, c.destPort) = portsAt data offset c.protocol

theorem frameType_ipv4 {nt : NetworkTypes} (hnt : nt.Lawful) {ctx : XdpContext} :
    frameType nt ctx = some .ipv4 ↔
      14 ≤ ctx.data.length ∧ be16 (ctx.data.getD 12 0) (ctx.data.getD 13 0) = 0x0800 := by
  have hfield : ∀ ethhdr, ptrAt ctx.data 0 EthHdr.LEN = some ethhdr →
      (nt.etherType ethhdr = some .ipv4 ↔
        be16 (ctx.data.getD 12 0) (ctx.data.getD 13 0) = 0x0800) := by
    intro ethhdr hp
    rw [hnt.etherTypeIpv4, getD_ptrAt hp (by decide), getD_ptrAt hp (by decide), Nat.zero_add,
      Nat.zero_add]
  have h := exists_ptrAt hfield
  rwa [Nat.zero_add, ← Option.bind_eq_some_iff] at h

theorem frameType_ipv6 {nt : NetworkTypes} (hnt : nt.Lawful) {ctx : XdpContext} :
    frameType nt ctx = some .ipv6 ↔
      14 ≤ ctx.data.length ∧ be16 (ctx.data.getD 12 0) (ctx.data.getD 13 0) = 0x86DD := by
  have hfield : ∀ ethhdr, ptrAt ctx.data 0 EthHdr.LEN = some ethhdr →
      (nt.etherType ethhdr = some .ipv6 ↔
        be16 (ctx.data.getD 12 0) (ctx.data.getD 13 0) = 0x86DD) := by
    intro ethhdr hp
    rw [hnt.etherTypeIpv6, getD_ptrAt hp (by decide), getD_ptrAt hp (by decide), Nat.zero_add,
      Nat.zero_add]
  have h := exists_ptrAt hfield
  rwa [Nat.zero_add, ← Option.bind_eq_some_iff] at h

/-- An IPv4 packet of a known protocol is read as it is. -/
theorem Ipv4Carries.parse {nt : NetworkTypes} (hnt : nt.Lawful) {data : List UInt8}
    {c : Connection 4} (h : Ipv4Carries data c)
    (hknown : nt.fromU8 c.protocol = some ⟨c.protocol⟩) :
    parseIpv4 nt data =
      .ok (c.headers octetsToU32 (finRstAt data (14 + ihlOf data) c.protocol)) := by
  have hlen := h.header
  have hihl := h.ihl
  have hports := h.ports
  have hinside := h.inside
  rw [h.protocol] at hknown hports hinside
  refine (parseIpv4_wire hnt).mpr ⟨by omega, hknown, hinside, ?_⟩
  simp only [Connection.headers, ipv4Headers, ← h.source, ← h.dest, h.protocol, ← hports]

/-- What the data plane makes of a connection behind a chain of extension headers.
At its bound of six headers it gives up the ports, and beyond the bound it takes
the type of the seventh header for the protocol. -/
def Connection.behind {n : Nat} (types : List UInt8) (c : Connection n) : Connection n :=
  if types.length < 6 then c
  else ⟨c.source, c.dest, types.getD 6 c.protocol, 0, 0⟩

/-- The connection of an IPv6 frame with its transport header at `offset`. -/
def ipv6Connection (data : List UInt8) (offset : Nat) (protocol : UInt8) : Connection 16 :=
  ⟨octetsAt 16 data 22, octetsAt 16 data 38, protocol, (portsAt data offset protocol).1,
    (portsAt data offset protocol).2⟩

theorem Ipv6Carries.eq {data types : List UInt8} {offset : Nat} {c : Connection 16}
    (h : Ipv6Carries data types offset c) : c = ipv6Connection data offset c.protocol := by
  simp only [ipv6Connection, ← h.source, ← h.dest, ← h.ports]

/-- Behind a chain of any length, an IPv6 packet is read as this connection. The
frame must reach to the transport header only where that is read. -/
theorem parseIpv6_chain {nt : NetworkTypes} (hnt : nt.Lawful) {data types : List UInt8}
    {offset : Nat} {protocol : UInt8} (hheader : 54 ≤ data.length)
    (hchain : Chain data 54 (data.getD 20 0) types offset protocol) (ht : IsTransport protocol)
    (hinside : types.length < 6 → TransportInside data offset protocol) :
    parseIpv6 nt data =
      .ok (((ipv6Connection data offset protocol).behind types).headers octetsToWords
        (types.length < 6 && finRstAt data offset protocol)) := by
  have hknown := hnt.transport_known ht
  rw [parseIpv6_wire hnt]
  refine ⟨hheader, hnt.chain_known hchain hknown, ?_⟩
  by_cases hlen : types.length < 6
  · obtain ⟨n, hn⟩ : ∃ n, 6 - types.length = n + 1 := ⟨5 - types.length, by omega⟩
    refine ⟨⟨offset, ⟨protocol⟩, true⟩, ?_, fun _ => hinside hlen, ?_⟩
    · rw [walkHeaders_chain hnt hchain hknown hlen.le, hn, walkHeaders_transport n ht]
    · simp only [Connection.behind, hlen, Connection.headers, ipv6Headers, ipv6Connection,
        if_true, Bool.true_and, decide_true]
  · obtain ⟨o, hwalk⟩ : ∃ o, walkHeaders nt data 6 54 ⟨data.getD 20 0⟩ =
        .ok ⟨o, ⟨types.getD 6 protocol⟩, false⟩ := by
      rw [← List.take_append_drop 6 types, chain_append] at hchain
      obtain ⟨o, t, hbefore, hafter⟩ := hchain
      have hlength : (types.take 6).length = 6 := by simp; omega
      have hseventh : types.getD 6 protocol = t ∧ nt.fromU8 t = some ⟨t⟩ := by
        rw [List.getD_eq_getElem?_getD, ← List.head?_drop]
        cases hdrop : types.drop 6 with
        | nil =>
          rw [hdrop, chain_nil] at hafter
          rw [← hafter.2]
          exact ⟨rfl, hknown⟩
        | cons x rest =>
          rw [hdrop, chain_cons] at hafter
          exact ⟨hafter.1, hnt.extension_known hafter.2.1⟩
      refine ⟨o, ?_⟩
      rw [walkHeaders_chain hnt hbefore hseventh.2 hlength.le, hlength, hseventh.1]
      rfl
    refine ⟨_, hwalk, by simp, ?_⟩
    simp only [Connection.behind, hlen, Connection.headers, ipv6Headers, ipv6Connection,
      if_false, Bool.false_eq_true, Bool.false_and, decide_false]

theorem Ipv6Carries.parse {nt : NetworkTypes} (hnt : nt.Lawful) {data types : List UInt8}
    {offset : Nat} {c : Connection 16} (h : Ipv6Carries data types offset c) :
    parseIpv6 nt data =
      .ok ((c.behind types).headers octetsToWords
        (types.length < 6 && finRstAt data offset c.protocol)) := by
  have hp := parseIpv6_chain hnt h.header h.chain h.transport (fun _ => h.inside)
  rwa [← h.eq] at hp

/-- An IPv6 frame that gets past the headers, with the chain that its walk took. -/
theorem parseIpv6_walk {nt : NetworkTypes} (hnt : nt.Lawful) {data : List UInt8}
    {h : Headers 16 Words} (hp : parseIpv6 nt data = .ok h) :
    54 ≤ data.length ∧ ∃ types offset, Chain data 54 (data.getD 20 0) types offset h.protocol.val ∧
      types.length ≤ 6 ∧
      (types.length < 6 → IsTransport h.protocol.val →
        TransportInside data offset h.protocol.val) := by
  obtain ⟨hheader, hfirst, walk, hwalk, hinside, rfl⟩ := (parseIpv6_wire hnt).mp hp
  obtain ⟨types, hchain, hlen, hfound⟩ := walkHeaders_ok hnt hwalk
  exact ⟨hheader, types, _, hchain, hlen, fun hlt ht => hinside (hfound.mpr ⟨hlt, ht⟩)⟩

/-- What gets past the headers has its transport header inside the frame, if the
walk reaches that within its bound. -/
theorem inside_of_parseIpv6 {nt : NetworkTypes} (hnt : nt.Lawful) {data types : List UInt8}
    {offset : Nat} {protocol : UInt8} {h : Headers 16 Words} (hp : parseIpv6 nt data = .ok h)
    (hchain : Chain data 54 (data.getD 20 0) types offset protocol) (ht : IsTransport protocol)
    (hlen : types.length < 6) : TransportInside data offset protocol := by
  obtain ⟨-, -, walk, hwalk, hinside, -⟩ := (parseIpv6_wire hnt).mp hp
  obtain ⟨n, hn⟩ : ∃ n, 6 - types.length = n + 1 := ⟨5 - types.length, by omega⟩
  rw [walkHeaders_chain hnt hchain (hnt.transport_known ht) hlen.le, hn,
    walkHeaders_transport n ht] at hwalk
  obtain rfl := Except.ok.inj hwalk
  exact hinside rfl

end Oxidrop
