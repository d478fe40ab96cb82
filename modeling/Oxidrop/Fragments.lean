import Oxidrop.Chains

/-!
# Fragments

The data plane parses every fragment like a whole packet: it never consults the
fragment offset. A first fragment has its transport header where the parser
looks for it, a later one has payload there.
-/
namespace Oxidrop.Fragments

open Chains

/-- A TCP or UDP datagram before it is cut. Its octets start with a header of type
`first`; the transport header stands behind the extension headers `types`. -/
structure Whole (n : Nat) where
  connection : Connection n
  octets : List UInt8
  first : UInt8
  types : List UInt8
  position : Nat
  hasPorts : HasPorts connection.protocol
  chain : Chain octets 0 first types position connection.protocol
  inside : TransportInside octets position connection.protocol
  ports : (connection.sourcePort, connection.destPort) =
    portsAt octets position connection.protocol

/-- From `start` on, the frame has `len` of the octets, beginning `8 * offset`
octets into them. Only the last piece may end between two units of eight. -/
structure Piece (data octets : List UInt8) (start offset len : Nat) : Prop where
  nonempty : 0 < len
  cut : 8 * offset + len = octets.length ∨ (8 * offset + len < octets.length ∧ 8 ∣ len)
  inside : start + len ≤ data.length
  payload : ∀ i < len, data.getD (start + i) 0 = octets.getD (8 * offset + i) 0

/-- The frame is an IPv4 fragment of `w`. -/
structure Ipv4Fragment (data : List UInt8) (w : Whole 4) (offset len : Nat) : Prop where
  etherType : be16 (data.getD 12 0) (data.getD 13 0) = 0x0800
  version : data.getD 14 0 >>> 4 = 4
  ihl : 20 ≤ ihlOf data
  source : w.connection.source = octetsAt 4 data 26
  dest : w.connection.dest = octetsAt 4 data 30
  protocol : w.connection.protocol = data.getD 23 0
  plain : w.types = []
  offsetField : (be16 (data.getD 20 0) (data.getD 21 0) &&& 0x1fff).toNat = offset
  moreField : be16 (data.getD 20 0) (data.getD 21 0) &&& 0x2000 = 0 ↔
    8 * offset + len = w.octets.length
  piece : Piece data w.octets (14 + ihlOf data) offset len

/-- The frame is an IPv6 fragment of `w`, with the extension headers `before` and
then the Fragment header at `position`. Such a frame is longer than the shortest
Ethernet frame and ends with the fragment. -/
structure Ipv6Fragment (data : List UInt8) (w : Whole 16) (before : List UInt8)
    (position offset len : Nat) : Prop where
  etherType : be16 (data.getD 12 0) (data.getD 13 0) = 0x86DD
  header : 54 ≤ data.length
  source : w.connection.source = octetsAt 16 data 22
  dest : w.connection.dest = octetsAt 16 data 38
  chain : Chain data 54 (data.getD 20 0) before position 44
  single : 44 ∉ before ∧ 44 ∉ w.types
  next : data.getD position 0 = w.first
  offsetField :
    (be16 (data.getD (position + 2) 0) (data.getD (position + 3) 0) >>> 3).toNat = offset
  moreField : be16 (data.getD (position + 2) 0) (data.getD (position + 3) 0) &&& 1 = 0 ↔
    8 * offset + len = w.octets.length
  piece : Piece data w.octets (position + 8) offset len
  length : data.length = position + 8 + len

/-- Nothing that the data plane makes of the frame depends on the `len` octets
from `start` on. -/
def Unread (nt : NetworkTypes) (p : Policy) (ctx : XdpContext) (start len : Nat) : Prop :=
  ∀ data', data'.length = ctx.data.length →
    (∀ i, i < start ∨ start + len ≤ i → data'.getD i 0 = ctx.data.getD i 0) →
    inspect nt p { ctx with data := data' } = inspect nt p ctx

/-- The fragment gets the flow key of its datagram, and a fragment other than the
first gets it without a look at its payload. -/
def FragmentFaithful (nt : NetworkTypes) (p : Policy) (ctx : XdpContext) (key : FlowKey)
    (offset start len : Nat) : Prop :=
  flowKeyOf nt p ctx = some key ∧ (offset ≠ 0 → Unread nt p ctx start len)

def Whole.keyV4 (direction : TraficDirection) (w : Whole 4) : FlowKey :=
  .v4 ((w.connection.fromInside direction).key octetsToU32 Ipv4Packet.new)

def Whole.keyV6 (direction : TraficDirection) (w : Whole 16) : FlowKey :=
  .v6 ((w.connection.fromInside direction).key octetsToWords Ipv6Packet.new)

theorem portsAt_congr {data data' : List UInt8} {offset offset' : Nat} {protocol : UInt8}
    (h : ∀ i < 4, data.getD (offset + i) 0 = data'.getD (offset' + i) 0) :
    portsAt data offset protocol = portsAt data' offset' protocol := by
  have h₀ := h 0 (by omega)
  have h₁ := h 1 (by omega)
  have h₂ := h 2 (by omega)
  have h₃ := h 3 (by omega)
  simp only [Nat.add_zero] at h₀
  simp only [portsAt, h₀, h₁, h₂, h₃]

theorem be16_injective {a b c d : UInt8} (h : be16 a b = be16 c d) : a = c ∧ b = d := by
  have ha := a.toNat_lt
  have hb := b.toNat_lt
  have hc := c.toNat_lt
  have hd := d.toNat_lt
  have hn := congrArg UInt16.toNat h
  simp only [be16, UInt16.toNat_ofNat'] at hn
  constructor <;> apply UInt8.toNat_inj.mp <;> omega

theorem getD_set {data : List UInt8} {j : Nat} (hlt : j < data.length) (x : UInt8) (i : Nat) :
    (data.set j x).getD i 0 = if i = j then x else data.getD i 0 := by
  simp only [List.getD_eq_getElem?_getD, List.getElem?_set]
  by_cases h : j = i
  · subst h
    simp [hlt]
  · simp [h, Ne.symm h]

/-- Changing the octet at `start` changes the source port that is read there. -/
theorem portsAt_set_ne {data : List UInt8} {start : Nat} {protocol : UInt8}
    (hports : HasPorts protocol) (hlt : start < data.length) :
    (portsAt (data.set start (data.getD start 0 + 1)) start protocol).1 ≠
      (portsAt data start protocol).1 := by
  intro h
  have hp : protocol = 6 ∨ protocol = 17 := hports
  simp only [portsAt, if_pos hp] at h
  have hne := (be16_injective h).1
  rw [getD_set hlt, if_pos rfl] at hne
  simp at hne

/-- A first piece reaches over the port fields. -/
theorem Piece.first {data octets : List UInt8} {start len : Nat} {protocol : UInt8}
    (h : Piece data octets start 0 len) (hports : HasPorts protocol)
    (hinside : TransportInside octets 0 protocol) : 8 ≤ len := by
  have hpos := h.nonempty
  have hlong : 8 ≤ octets.length := by
    rcases hports with rfl | rfl
    · have := hinside.1 rfl
      omega
    · have := hinside.2 rfl
      omega
  rcases h.cut with hcut | ⟨-, hdvd⟩
  · omega
  · exact Nat.le_of_dvd hpos hdvd

/-- One flow key, seen from one side, has one source port and one protocol. -/
theorem flowKey_fields {n : Nat} {α κ : Type} {new : α → α → UInt16 → UInt16 → UInt8 → κ}
    (hnew : Admission.KeyInjective new) {h h' : Headers n α} {direction : TraficDirection}
    (heq : h.flowKey new direction = h'.flowKey new direction) :
    h.sourcePort = h'.sourcePort ∧ h.protocol.val = h'.protocol.val := by
  cases direction with
  | incoming =>
    obtain ⟨-, -, -, hsp, hpr⟩ := hnew _ _ _ _ _ _ _ _ _ _ heq
    exact ⟨hsp, hpr⟩
  | outgoing =>
    obtain ⟨-, -, hsp, -, hpr⟩ := hnew _ _ _ _ _ _ _ _ _ _ heq
    exact ⟨hsp, hpr⟩

section V4

variable {nt : NetworkTypes} {m : Maps} {ctx : XdpContext} {w : Whole 4} {offset len : Nat}

theorem Ipv4Fragment.frameType_eq (hnt : nt.Lawful) (h : Ipv4Fragment ctx.data w offset len) :
    frameType nt ctx = some .ipv4 := by
  have hihl := h.ihl
  have hinside := h.piece.inside
  exact (frameType_ipv4 hnt).mpr ⟨by omega, h.etherType⟩

/-- Changing the octet behind the IPv4 header changes nothing but the ports. -/
theorem parseIpv4_set {data : List UInt8} {x : UInt8} (hnt : nt.Lawful)
    (hihl : 20 ≤ ihlOf data) (hlt : 14 + ihlOf data < data.length) {hd : Headers 4 UInt32}
    (hp : parseIpv4 nt data = .ok hd) :
    parseIpv4 nt (data.set (14 + ihlOf data) x) =
      .ok (ipv4Headers (data.set (14 + ihlOf data) x)) ∧
      ihlOf (data.set (14 + ihlOf data) x) = ihlOf data ∧
      (data.set (14 + ihlOf data) x).getD 23 0 = data.getD 23 0 := by
  obtain ⟨hlen, hknown, hinside, -⟩ := (parseIpv4_wire hnt).mp hp
  have hget : ∀ i, i ≠ 14 + ihlOf data →
      (data.set (14 + ihlOf data) x).getD i 0 = data.getD i 0 := by
    intro i hi
    rw [getD_set hlt, if_neg hi]
  have hihl' : ihlOf (data.set (14 + ihlOf data) x) = ihlOf data := by
    rw [ihlOf, hget 14 (by omega)]
    rfl
  have hproto := hget 23 (by omega)
  refine ⟨(parseIpv4_wire hnt).mpr ⟨by simpa using hlen, ?_, ?_, rfl⟩, hihl', hproto⟩
  · rw [hproto, hknown]
  · rw [hproto, hihl']
    simpa [TransportInside] using hinside

/-- The octet where a later fragment starts is read as a port. -/
theorem Ipv4Fragment.read (hnt : nt.Lawful) (h : Ipv4Fragment ctx.data w offset len)
    (hf : forwarded (xdpFirewall nt ctx m).1 = true) :
    ¬ Unread nt m.toPolicy ctx (14 + ihlOf ctx.data) len := by
  intro hunread
  have ht := h.frameType_eq hnt
  obtain ⟨q, hi⟩ := inspect_of_forwarded (.inl ht) hf
  obtain ⟨hallowed, hd, hp⟩ := inspect_ipv4 ht hi
  have hihl := h.ihl
  have hpos := h.piece.nonempty
  have hinside := h.piece.inside
  have hlt : 14 + ihlOf ctx.data < ctx.data.length := by omega
  let data' := ctx.data.set (14 + ihlOf ctx.data) (ctx.data.getD (14 + ihlOf ctx.data) 0 + 1)
  have hget : ∀ i, i ≠ 14 + ihlOf ctx.data → data'.getD i 0 = ctx.data.getD i 0 := by
    intro i hi
    rw [getD_set hlt, if_neg hi]
  have hsame := hunread data' (by simp [data']) (fun i hi => hget i (by omega))
  obtain ⟨hp', hihl', hproto⟩ := parseIpv4_set
    (x := ctx.data.getD (14 + ihlOf ctx.data) 0 + 1) hnt hihl hlt hp
  have ht' : frameType nt { ctx with data := data' } = some .ipv4 := by
    refine (frameType_ipv4 hnt).mpr ⟨by simp [data']; omega, ?_⟩
    rw [hget 12 (by omega), hget 13 (by omega)]
    exact h.etherType
  rw [inspect_parseIpv4 ht' hallowed hp', inspect_parseIpv4 ht hallowed hp] at hsame
  have hkey := congrArg FlowPacket.key (Sum.inr.inj hsame)
  have hport := (flowKey_fields Admission.ipv4Packet_injective (FlowKey.v4.inj hkey)).1
  obtain ⟨-, -, -, rfl⟩ := (parseIpv4_wire hnt).mp hp
  simp only [ipv4Headers, hihl', hproto] at hport
  exact portsAt_set_ne (h.protocol ▸ w.hasPorts) hlt hport

/-- The first fragment gets the key of its datagram. -/
theorem Ipv4Fragment.key_first (hnt : nt.Lawful) (h : Ipv4Fragment ctx.data w 0 len)
    (hf : forwarded (xdpFirewall nt ctx m).1 = true) :
    flowKeyOf nt m.toPolicy ctx = some (w.keyV4 (m.direction ctx)) := by
  have ht := h.frameType_eq hnt
  obtain ⟨q, hi⟩ := inspect_of_forwarded (.inl ht) hf
  obtain ⟨hallowed, hd, hp⟩ := inspect_ipv4 ht hi
  obtain ⟨-, -, -, rfl⟩ := (parseIpv4_wire hnt).mp hp
  have hposition : w.position = 0 := by
    have hchain := w.chain
    rw [h.plain, chain_nil] at hchain
    exact hchain.1
  have hlen := h.piece.first w.hasPorts (hposition ▸ w.inside)
  have hports : portsAt ctx.data (14 + ihlOf ctx.data) w.connection.protocol =
      (w.connection.sourcePort, w.connection.destPort) := by
    rw [w.ports, hposition]
    refine portsAt_congr fun i hi => ?_
    rw [h.piece.payload i (by omega)]
  have hheaders : ipv4Headers ctx.data = w.connection.headers octetsToU32
      (finRstAt ctx.data (14 + ihlOf ctx.data) w.connection.protocol) := by
    simp only [ipv4Headers, Connection.headers, h.source, h.dest, ← h.protocol, hports]
  rw [flowKeyOf_of_inr (inspect_parseIpv4 ht hallowed hp), hheaders]
  exact congrArg (fun key => some (FlowKey.v4 key)) (Connection.flowKey_headers _ _ _ _ _)

end V4

/-! ## IPv6 -/

theorem octetsAt_congr {n offset : Nat} {data data' : List UInt8}
    (h : ∀ i < n, data.getD (offset + i) 0 = data'.getD (offset + i) 0) :
    octetsAt n data offset = octetsAt n data' offset := by
  apply Vector.ext
  intro i hi
  simpa only [octetsAt, Vector.getElem_ofFn] using h i hi

section V6

variable {nt : NetworkTypes} {m : Maps} {ctx : XdpContext} {w : Whole 16}
  {before : List UInt8} {position offset len : Nat}

theorem Ipv6Fragment.frameType_eq (hnt : nt.Lawful)
    (h : Ipv6Fragment ctx.data w before position offset len) :
    frameType nt ctx = some .ipv6 := by
  have hheader := h.header
  exact (frameType_ipv6 hnt).mpr ⟨by omega, h.etherType⟩

/-- The headers of the frame lead over the Fragment header to the fragment. -/
theorem Ipv6Fragment.chain_fragment {data : List UInt8}
    (h : Ipv6Fragment data w before position offset len) :
    Chain data 54 (data.getD 20 0) (before ++ [44]) (position + 8) w.first := by
  have hlength := h.length
  refine chain_append.mpr ⟨position, 44, h.chain, .next (by decide) (by omega) ?_⟩
  rw [h.next]
  exact .done _ _

/-- So they do in every frame that differs in the payload alone. -/
theorem Ipv6Fragment.chain_congr {data data' : List UInt8}
    (h : Ipv6Fragment data w before position offset len) (hlen : data'.length = data.length)
    (hsame : ∀ i < position + 8, data'.getD i 0 = data.getD i 0) :
    Chain data' 54 (data'.getD 20 0) (before ++ [44]) (position + 8) w.first ∧
      be16 (data'.getD 12 0) (data'.getD 13 0) = 0x86DD ∧
      (∀ o protocol, ipv6Connection data' o protocol =
        ⟨w.connection.source, w.connection.dest, protocol, (portsAt data' o protocol).1,
          (portsAt data' o protocol).2⟩) := by
  have hposition := h.chain.le
  refine ⟨?_, ?_, ?_⟩
  · rw [hsame 20 (by omega)]
    exact h.chain_fragment.congr hlen hsame
  · rw [hsame 12 (by omega), hsame 13 (by omega), h.etherType]
  · intro o protocol
    simp only [ipv6Connection, h.source, h.dest]
    have hsource : octetsAt 16 data' 22 = octetsAt 16 data 22 :=
      octetsAt_congr fun i hi => hsame (22 + i) (by omega)
    have hdest : octetsAt 16 data' 38 = octetsAt 16 data 38 :=
      octetsAt_congr fun i hi => hsame (38 + i) (by omega)
    rw [hsource, hdest]

theorem Whole.first_known {n : Nat} (hnt : nt.Lawful) (w : Whole n) :
    nt.fromU8 w.first = some ⟨w.first⟩ :=
  hnt.chain_known w.chain (hnt.transport_known w.hasPorts.transport)

/-- A frame whose key carries the protocol of the datagram has been walked to a
transport header. -/
theorem Ipv6Fragment.walked (hnt : nt.Lawful)
    (h : Ipv6Fragment ctx.data w before position offset len) {hd : Headers 16 Words}
    (hp : parseIpv6 nt ctx.data = .ok hd) (hproto : hd.protocol.val = w.connection.protocol) :
    ∃ zs o, Chain ctx.data (position + 8) w.first zs o w.connection.protocol ∧
      before.length + 1 + zs.length ≤ 6 := by
  obtain ⟨-, types, o, hchain, hlen, -⟩ := parseIpv6_walk hnt hp
  rw [hproto] at hchain
  obtain ⟨zs, rfl, hzs⟩ := h.chain_fragment.extend hchain w.hasPorts.transport.not_extension
  simp only [List.length_append, List.length_singleton] at hlen
  exact ⟨zs, o, hzs, hlen⟩

/-- The key of the datagram carries its protocol. -/
theorem Whole.protocol_of_key (w : Whole 16) (ht : frameType nt ctx = some .ipv6)
    {hd : Headers 16 Words}
    (hp : parseIpv6 nt ctx.data = .ok hd)
    (hkey : flowKeyOf nt m.toPolicy ctx = some (w.keyV6 (m.direction ctx))) :
    hd.flowKey Ipv6Packet.new (m.direction ctx) =
        (w.connection.fromInside (m.direction ctx)).key octetsToWords Ipv6Packet.new ∧
      hd.protocol.val = w.connection.protocol := by
  rw [flowKeyOf_of_inr (inspect_parseIpv6 ht hp)] at hkey
  have hkey := FlowKey.v6.inj (Option.some.inj hkey)
  refine ⟨hkey, ?_⟩
  have hheaders : hd.flowKey Ipv6Packet.new (m.direction ctx) =
      (w.connection.headers octetsToWords false).flowKey Ipv6Packet.new (m.direction ctx) := by
    rw [Connection.flowKey_headers]
    exact hkey
  exact (flowKey_fields Admission.ipv6Packet_injective hheaders).2

/-- A first fragment carries the first octets of the datagram up to its end. -/
theorem Ipv6Fragment.payload_first {data : List UInt8}
    (h : Ipv6Fragment data w before position 0 len) (i : Nat)
    (hi : position + 8 + i < data.length) :
    data.getD (position + 8 + i) 0 = w.octets.getD i 0 := by
  have hlength := h.length
  rw [h.piece.payload i (by omega), Nat.mul_zero, Nat.zero_add]

/-- In a first fragment that is not refused, the walk within its bound is the walk
of the datagram. -/
theorem Ipv6Fragment.chain_first (hnt : nt.Lawful)
    (h : Ipv6Fragment ctx.data w before position 0 len) {hd : Headers 16 Words}
    (hp : parseIpv6 nt ctx.data = .ok hd) (hlen : before.length + 1 + w.types.length ≤ 6) :
    Chain ctx.data 54 (ctx.data.getD 20 0) (before ++ [44] ++ w.types)
      (position + 8 + w.position) w.connection.protocol := by
  obtain ⟨-, -, walk, hwalk, -, -⟩ := (parseIpv6_wire hnt).mp hp
  rw [walkHeaders_chain hnt h.chain_fragment (w.first_known hnt) (by simp; omega)] at hwalk
  refine chain_append.mpr ⟨_, _, h.chain_fragment, ?_⟩
  exact chain_of_walkHeaders hnt w.chain (hnt.transport_known w.hasPorts.transport)
    h.payload_first (by simp; omega) hwalk

/-- The connection of the frame is that of the datagram, as far as the ports agree. -/
theorem Ipv6Fragment.connection_eq {data : List UInt8}
    (h : Ipv6Fragment data w before position offset len) {o : Nat}
    (hports : portsAt data o w.connection.protocol =
      (w.connection.sourcePort, w.connection.destPort)) :
    ipv6Connection data o w.connection.protocol = w.connection := by
  simp only [ipv6Connection, ← h.source, ← h.dest, hports]

/-- The condition under which a fragment gets the key of its datagram without a
look at its payload: it is the first and has its transport header behind at most
five extension headers, or there are exactly six, the ports are zero, and the
walk does not read a later fragment. -/
def Harmless (w : Whole 16) (before : List UInt8) (offset : Nat) : Prop :=
  (offset = 0 ∧ before.length + 1 + w.types.length < 6) ∨
    (before.length + 1 + w.types.length = 6 ∧
      (w.connection.sourcePort, w.connection.destPort) = (0, 0) ∧ (offset = 0 ∨ w.types = []))

theorem flowKeyOf_headers (ht : frameType nt ctx = some .ipv6) {c : Connection 16} {finRst : Bool}
    (hp : parseIpv6 nt ctx.data = .ok (c.headers octetsToWords finRst)) (hc : c = w.connection) :
    flowKeyOf nt m.toPolicy ctx = some (w.keyV6 (m.direction ctx)) := by
  rw [flowKeyOf_of_inr (inspect_parseIpv6 ht hp), hc]
  exact congrArg (fun key => some (FlowKey.v6 key)) (Connection.flowKey_headers _ _ _ _ _)

/-- Behind six extension headers the data plane reads no ports, so the key is that
of a datagram without ports. -/
theorem Ipv6Fragment.ports_zero (hnt : nt.Lawful)
    (h : Ipv6Fragment ctx.data w before position offset len) {hd : Headers 16 Words}
    (hp : parseIpv6 nt ctx.data = .ok hd)
    (hkey : hd.flowKey Ipv6Packet.new (m.direction ctx) =
      (w.connection.fromInside (m.direction ctx)).key octetsToWords Ipv6Packet.new)
    {types : List UInt8} {o : Nat}
    (hchain : Chain ctx.data 54 (ctx.data.getD 20 0) types o w.connection.protocol)
    (hsix : types.length = 6) : (w.connection.sourcePort, w.connection.destPort) = (0, 0) := by
  have hp' := parseIpv6_chain hnt h.header hchain w.hasPorts.transport (fun hlt => by omega)
  rw [behind_six hsix] at hp'
  obtain rfl := Except.ok.inj (hp.symm.trans hp')
  rw [Connection.flowKey_headers] at hkey
  have hconn := fromInside_injective _ (key_injective hkey)
  rw [← hconn]

/-- A first fragment that is not refused gets the key of its datagram exactly if
it is harmless. -/
theorem Ipv6Fragment.key_first_iff (hnt : nt.Lawful)
    (h : Ipv6Fragment ctx.data w before position 0 len) {hd : Headers 16 Words}
    (hp : parseIpv6 nt ctx.data = .ok hd) :
    flowKeyOf nt m.toPolicy ctx = some (w.keyV6 (m.direction ctx)) ↔ Harmless w before 0 := by
  have ht := h.frameType_eq hnt
  have htransport := w.hasPorts.transport
  have hlength := h.length
  constructor
  · intro hkey
    obtain ⟨hsame, hproto⟩ := w.protocol_of_key ht hp hkey
    obtain ⟨zs, o, hzs, hlen⟩ := h.walked hnt hp hproto
    have hlong : ctx.data.length ≤ position + 8 + w.octets.length := by
      have := h.piece.cut
      omega
    have hoctets : ∃ o', o = position + 8 + o' ∧
        Chain w.octets 0 w.first zs o' w.connection.protocol :=
      hzs.transfer (Nat.add_zero _).symm hlong h.payload_first
    obtain ⟨o', -, hoctets⟩ := hoctets
    obtain ⟨rfl, -, -⟩ := hoctets.unique w.chain htransport.not_extension
      htransport.not_extension
    by_cases hsix : before.length + 1 + w.types.length = 6
    · have hchain := h.chain_first hnt hp hlen
      exact .inr ⟨hsix, h.ports_zero hnt hp hsame hchain (by simp; omega), .inl rfl⟩
    · exact .inl ⟨rfl, by omega⟩
  · intro hharmless
    have hlen : before.length + 1 + w.types.length ≤ 6 := by
      rcases hharmless with ⟨-, hlt⟩ | ⟨hsix, -⟩ <;> omega
    have hchain := h.chain_first hnt hp hlen
    have hp' := parseIpv6_chain hnt h.header hchain htransport
      (inside_of_parseIpv6 hnt hp hchain htransport)
    refine flowKeyOf_headers ht hp' ?_
    rcases hharmless with ⟨-, hlt⟩ | ⟨hsix, hzero, -⟩
    · have hshort : (before ++ [44] ++ w.types).length < 6 := by
        simp
        omega
      have hinside := inside_of_parseIpv6 hnt hp hchain htransport hshort
      rw [Connection.behind, if_pos hshort]
      apply h.connection_eq
      rw [w.ports]
      refine portsAt_congr fun i hi => ?_
      rw [Nat.add_assoc]
      apply h.payload_first
      rcases w.hasPorts with hproto | hproto
      · have := hinside.1 hproto
        omega
      · have := hinside.2 hproto
        omega
    · rw [behind_six (by simp; omega)]
      obtain ⟨hsp, hdp⟩ := Prod.mk.inj hzero
      simp only [ipv6Connection, ← h.source, ← h.dest]
      exact (congrArg₂ (Connection.mk _ _ _) hsp hdp).symm

/-- The frame with the first octet of the fragment replaced. -/
theorem Ipv6Fragment.set {data : List UInt8}
    (h : Ipv6Fragment data w before position offset len) (x : UInt8) :
    (data.set (position + 8) x).length = data.length ∧
      ∀ i, (data.set (position + 8) x).getD i 0 =
        if i = position + 8 then x else data.getD i 0 := by
  have hlength := h.length
  have hpos := h.piece.nonempty
  exact ⟨by simp, getD_set (by omega) x⟩

/-- An unread fragment may have its first octet replaced: the frame keeps its flow
key. -/
theorem Ipv6Fragment.key_set (hnt : nt.Lawful)
    (h : Ipv6Fragment ctx.data w before position offset len)
    (hunread : Unread nt m.toPolicy ctx (position + 8) len) {x : UInt8} {hd hd' : Headers 16 Words}
    (hp : parseIpv6 nt ctx.data = .ok hd)
    (hp' : parseIpv6 nt (ctx.data.set (position + 8) x) = .ok hd') :
    hd'.flowKey Ipv6Packet.new (m.direction ctx) = hd.flowKey Ipv6Packet.new (m.direction ctx) := by
  obtain ⟨hlen, hget⟩ := h.set x
  have hpos := h.piece.nonempty
  have hheader := h.header
  have hcongr := h.chain_congr hlen (fun i hi => by rw [hget, if_neg (by omega)])
  have ht : frameType nt { ctx with data := ctx.data.set (position + 8) x } = some .ipv6 :=
    (frameType_ipv6 hnt).mpr ⟨by simp; omega, hcongr.2.1⟩
  have hsame := hunread (ctx.data.set (position + 8) x) hlen
    (fun i hi => by rw [hget, if_neg (by omega)])
  rw [inspect_parseIpv6 ht hp', inspect_parseIpv6 (h.frameType_eq hnt) hp] at hsame
  exact FlowKey.v6.inj (congrArg FlowPacket.key (Sum.inr.inj hsame))

/-- Where the transport header would stand, the fragment is read as ports. -/
theorem Ipv6Fragment.read_port (hnt : nt.Lawful)
    (h : Ipv6Fragment ctx.data w before position offset len) {hd : Headers 16 Words}
    (hp : parseIpv6 nt ctx.data = .ok hd) (hfirst : w.first = w.connection.protocol)
    (hlen : before.length + 1 < 6) : ¬ Unread nt m.toPolicy ctx (position + 8) len := by
  intro hunread
  let x := ctx.data.getD (position + 8) 0 + 1
  have hset := h.set x
  have hlength := h.length
  have hpos := h.piece.nonempty
  have htransport := w.hasPorts.transport
  have hcongr := h.chain_congr hset.1 (fun i hi => by rw [hset.2, if_neg (by omega)])
  have hshort : (before ++ [44]).length < 6 := by simpa using hlen
  have hchain := h.chain_fragment
  have hchain' := hcongr.1
  rw [hfirst] at hchain hchain'
  have hinside := inside_of_parseIpv6 hnt hp hchain htransport hshort
  have hp₁ := parseIpv6_chain hnt h.header hchain htransport (fun _ => hinside)
  have hp₂ := parseIpv6_chain hnt (by rw [hset.1]; exact h.header) hchain' htransport
    (fun _ => by simpa [TransportInside, hset.1] using hinside)
  have hkey := h.key_set hnt hunread hp₁ hp₂
  have hport := (flowKey_fields Admission.ipv6Packet_injective hkey).1
  simp only [Connection.headers, Connection.behind, if_pos hshort, ipv6Connection] at hport
  exact portsAt_set_ne w.hasPorts (by omega) hport

/-- Where an extension header would stand, the fragment is read as one. -/
theorem Ipv6Fragment.read_header (hnt : nt.Lawful)
    (h : Ipv6Fragment ctx.data w before position offset len) {hd : Headers 16 Words}
    (hp : parseIpv6 nt ctx.data = .ok hd) (hproto : hd.protocol.val = w.connection.protocol)
    (hfirst : IsExtension w.first) (hin : position + 8 + 2 ≤ ctx.data.length)
    (hlen : before.length + 2 ≤ 6) : ¬ Unread nt m.toPolicy ctx (position + 8) len := by
  intro hunread
  have hset := h.set 58
  have hcongr := h.chain_congr hset.1 (fun i hi => by rw [hset.2, if_neg (by omega)])
  have hchain : Chain (ctx.data.set (position + 8) 58) 54
      ((ctx.data.set (position + 8) 58).getD 20 0) (before ++ [44] ++ [w.first])
      (position + 8 + extensionLen (ctx.data.set (position + 8) 58) (position + 8) w.first)
      58 := by
    refine chain_append.mpr ⟨_, _, hcongr.1, .next hfirst (by rw [hset.1]; exact hin) ?_⟩
    rw [hset.2, if_pos rfl]
    exact .done _ _
  have hp' := parseIpv6_chain hnt (by rw [hset.1]; exact h.header) hchain (.inr (.inr rfl))
    (fun _ => by simp [TransportInside])
  have hkey := h.key_set hnt hunread hp hp'
  have hseen := (flowKey_fields Admission.ipv6Packet_injective hkey).2
  have hicmp : ∀ c : Connection 16, c.protocol = 58 →
      (c.behind (before ++ [44] ++ [w.first])).protocol = 58 := by
    intro c hc
    by_cases hshort : (before ++ [44] ++ [w.first]).length < 6
    · rw [Connection.behind, if_pos hshort, hc]
    · simp only [List.length_append, List.length_singleton] at hshort
      rw [behind_six (by simp; omega), hc]
  have hfifty : (58 : UInt8) = w.connection.protocol := by
    rw [← hproto, ← hseen]
    exact (hicmp _ rfl).symm
  rcases w.hasPorts with hports | hports
  · rw [hports] at hfifty
    exact absurd hfifty (by decide)
  · rw [hports] at hfifty
    exact absurd hfifty (by decide)

/-- Behind six extension headers a datagram without ports has its key before the
fragment is looked at. -/
theorem Ipv6Fragment.key_unread (hnt : nt.Lawful)
    (h : Ipv6Fragment ctx.data w before position offset len)
    (hfirst : w.first = w.connection.protocol) (hsix : (before ++ [44]).length = 6)
    (hzero : (w.connection.sourcePort, w.connection.destPort) = (0, 0)) :
    flowKeyOf nt m.toPolicy ctx = some (w.keyV6 (m.direction ctx)) ∧
      Unread nt m.toPolicy ctx (position + 8) len := by
  have ht := h.frameType_eq hnt
  have hheader := h.header
  obtain ⟨hsp, hdp⟩ := Prod.mk.inj hzero
  have hparse : ∀ data', data'.length = ctx.data.length →
      (∀ i < position + 8, data'.getD i 0 = ctx.data.getD i 0) →
      parseIpv6 nt data' = .ok (w.connection.headers octetsToWords false) := by
    intro data' hlen' hsame
    obtain ⟨hchain, -, hconn⟩ := h.chain_congr hlen' hsame
    rw [hfirst] at hchain
    have hp' := parseIpv6_chain hnt (by rw [hlen']; exact h.header) hchain w.hasPorts.transport
      (fun hlt => by omega)
    rw [behind_six hsix, hconn] at hp'
    rw [hp']
    simp [Connection.headers, hsix, hsp, hdp]
  have hp₁ := hparse ctx.data rfl (fun i _ => rfl)
  refine ⟨flowKeyOf_headers ht hp₁ rfl, ?_⟩
  intro data' hlen' hsame
  have hbelow : ∀ i < position + 8, data'.getD i 0 = ctx.data.getD i 0 :=
    fun i hi => hsame i (.inl hi)
  have ht' : frameType nt { ctx with data := data' } = some .ipv6 :=
    (frameType_ipv6 hnt).mpr ⟨by simp only; omega, (h.chain_congr hlen' hbelow).2.1⟩
  rw [inspect_parseIpv6 ht' (hparse data' hlen' hbelow), inspect_parseIpv6 ht hp₁]
  rfl

/-- A later fragment that is not refused gets the key of its datagram without a
look at its payload exactly if it is harmless. -/
theorem Ipv6Fragment.later_iff (hnt : nt.Lawful)
    (h : Ipv6Fragment ctx.data w before position offset len) (hoffset : offset ≠ 0)
    {hd : Headers 16 Words} (hp : parseIpv6 nt ctx.data = .ok hd) :
    (flowKeyOf nt m.toPolicy ctx = some (w.keyV6 (m.direction ctx)) ∧
        Unread nt m.toPolicy ctx (position + 8) len) ↔ Harmless w before offset := by
  have ht := h.frameType_eq hnt
  have htransport := w.hasPorts.transport
  constructor
  · rintro ⟨hkey, hunread⟩
    obtain ⟨hsame, hproto⟩ := w.protocol_of_key ht hp hkey
    obtain ⟨zs, o, hzs, hlen⟩ := h.walked hnt hp hproto
    cases zs with
    | nil =>
      obtain ⟨-, hfirst⟩ := chain_nil.mp hzs
      have htypes : w.types = [] := by
        have hchain := w.chain
        rw [← hfirst] at hchain
        exact (hchain.unique (.done _ _) htransport.not_extension htransport.not_extension).1
      have hsix : before.length + 1 = 6 := by
        by_contra hne
        exact h.read_port hnt hp hfirst.symm (by simp at hlen; omega) hunread
      have hchain := h.chain_fragment
      rw [← hfirst] at hchain
      have hzero := h.ports_zero hnt hp hsame hchain (by simpa using hsix)
      exact .inr ⟨by simp [htypes, hsix], hzero, .inr htypes⟩
    | cons z zs =>
      obtain ⟨-, hext, hin, -⟩ := chain_cons.mp hzs
      exact absurd hunread (h.read_header hnt hp hproto hext hin (by simp at hlen; omega))
  · rintro (⟨hzero, -⟩ | ⟨hsix, hzero, hpiece⟩)
    · exact absurd hzero hoffset
    · have htypes : w.types = [] := hpiece.resolve_left hoffset
      have hfirst : w.first = w.connection.protocol := by
        have hchain := w.chain
        rw [htypes, chain_nil] at hchain
        exact hchain.2.symm
      have hbound : (before ++ [44]).length = 6 := by simpa [htypes] using hsix
      exact h.key_unread hnt hfirst hbound hzero

end V6

/-- A forwarded IPv4 fragment belongs to its datagram exactly if it is the first,
a forwarded IPv6 fragment exactly if it is harmless. -/
theorem fragments_faithful_iff (nt : NetworkTypes) (hnt : nt.Lawful) (m : Maps)
    (ctx : XdpContext) (hf : forwarded (xdpFirewall nt ctx m).1 = true) :
    (∀ w offset len, Ipv4Fragment ctx.data w offset len →
      (FragmentFaithful nt m.toPolicy ctx (w.keyV4 (m.direction ctx)) offset
        (14 + ihlOf ctx.data) len ↔ offset = 0)) ∧
    (∀ w before position offset len, Ipv6Fragment ctx.data w before position offset len →
      (FragmentFaithful nt m.toPolicy ctx (w.keyV6 (m.direction ctx)) offset (position + 8) len ↔
        Harmless w before offset)) := by
  constructor
  · intro w offset len h
    constructor
    · rintro ⟨-, hunread⟩
      by_contra hoffset
      exact h.read hnt hf (hunread hoffset)
    · rintro rfl
      exact ⟨h.key_first hnt hf, fun hne => absurd rfl hne⟩
  · intro w before position offset len h
    have ht := h.frameType_eq hnt
    obtain ⟨q, hi⟩ := inspect_of_forwarded (.inr ht) hf
    obtain ⟨hd, hp⟩ := inspect_ipv6 ht hi
    by_cases hoffset : offset = 0
    · subst hoffset
      rw [← h.key_first_iff hnt hp]
      exact ⟨fun hfaithful => hfaithful.1, fun hkey => ⟨hkey, fun hne => absurd rfl hne⟩⟩
    · rw [← h.later_iff hnt hoffset hp]
      exact ⟨fun hfaithful => ⟨hfaithful.1, hfaithful.2 hoffset⟩,
        fun hboth => ⟨hboth.1, fun _ => hboth.2⟩⟩

/-- A UDP datagram from port 53 to port 80, whose second half looks like a header
with the ports 99 and 22. -/
def udpWhole : Whole 4 where
  connection := udpConnection
  octets := [0, 53, 0, 80, 0, 16, 0, 0, 0, 99, 0, 22, 0, 0, 0, 0]
  first := 17
  types := []
  position := 0
  hasPorts := .inr rfl
  chain := .done 0 17
  inside := by decide
  ports := by decide

/-- One half of the datagram on the wire, with its fragment field. -/
def udpFragment (high low : UInt8) (payload : List UInt8) : XdpContext :=
  ⟨List.replicate 12 0 ++ [0x08, 0x00] ++
    [0x45, 0, 0, 28, 0, 0, high, low, 64, 17, 0, 0] ++
      insideHost ++ outsideHost ++ payload, 3, 1, 1⟩

def firstHalf : XdpContext := udpFragment 0x20 0 [0, 53, 0, 80, 0, 16, 0, 0]
def secondHalf : XdpContext := udpFragment 0 1 [0, 99, 0, 22, 0, 0, 0, 0]

theorem firstHalf_fragment : Ipv4Fragment firstHalf.data udpWhole 0 8 where
  etherType := by decide
  version := by decide
  ihl := by decide
  source := by decide
  dest := by decide
  protocol := by decide
  plain := rfl
  offsetField := by decide
  moreField := by decide
  piece := ⟨by decide, by decide, by decide, by decide⟩

theorem secondHalf_fragment : Ipv4Fragment secondHalf.data udpWhole 1 8 where
  etherType := by decide
  version := by decide
  ihl := by decide
  source := by decide
  dest := by decide
  protocol := by decide
  plain := rfl
  offsetField := by decide
  moreField := by decide
  piece := ⟨by decide, by decide, by decide, by decide⟩

/-- The first half gets the key of the datagram. -/
theorem fragments_faithful_first :
    FragmentFaithful rfcTypes (freshMaps openConfig).toPolicy firstHalf
      (udpWhole.keyV4 .outgoing) 0 34 8 :=
  ((fragments_faithful_iff rfcTypes rfcTypes_lawful (freshMaps openConfig) firstHalf
    (by decide)).1 udpWhole 0 8 firstHalf_fragment).mpr rfl

/-- The second half is forwarded under the ports in its payload. -/
theorem fragments_not_faithful :
    Ipv4Fragment secondHalf.data udpWhole 1 8 ∧
      forwarded (xdpFirewall rfcTypes secondHalf (freshMaps openConfig)).1 = true ∧
      ¬ FragmentFaithful rfcTypes (freshMaps openConfig).toPolicy secondHalf
        (udpWhole.keyV4 .outgoing) 1 34 8 := by
  refine ⟨secondHalf_fragment, by decide, ?_⟩
  rintro ⟨hkey, -⟩
  exact absurd hkey (by decide)

end Oxidrop.Fragments
