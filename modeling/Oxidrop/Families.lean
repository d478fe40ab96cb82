import Oxidrop.Flow
import Oxidrop.Lib.Run

/-!
# One policy for two address families

The two arms of the data plane run in lockstep on corresponding frames. The one
step they do not share is the choice of the rate profile: ICMP has a profile of
its own and ICMPv6 does not, so the lockstep needs that no ICMP frame reaches
the bucket under two different profiles.
-/
namespace Oxidrop.Families

open Run

variable {nt : NetworkTypes} {ι : UInt32 → Words}

/-! ## Corresponding frames and states -/

inductive ProtoPair : IpProto → IpProto → Prop
  | tcp : ProtoPair .Tcp .Tcp
  | udp : ProtoPair .Udp .Udp
  | icmp : ProtoPair .Icmp .Ipv6Icmp

/-- The embedding `ι` takes the one address to the other. -/
def SameAddress (ι : UInt32 → Words) (v4 : Vector UInt8 4) (v6 : Vector UInt8 16) : Prop :=
  ipv6Words v6 = .ok (ι (octetsToU32 v4))

/-- The frame is an Ethernet header, a network header of `len` bytes, and the
transport bytes. -/
def Layout (data : List UInt8) (len : Nat) (header transport : List UInt8) : Prop :=
  header.length = len ∧
    ∃ eth, eth.length = EthHdr.LEN ∧ data = eth ++ (header ++ transport)

/-- An IPv4 frame without options and an IPv6 frame without extension headers,
with the parts that they are made of. -/
structure Corresponding (nt : NetworkTypes) (ι : UInt32 → Words) (c₄ c₆ : XdpContext)
    (header₄ header₆ transport : List UInt8) (proto₄ proto₆ : IpProto) : Prop where
  type₄ : frameType nt c₄ = some .ipv4
  type₆ : frameType nt c₆ = some .ipv6
  layout₄ : Layout c₄.data Ipv4Hdr.LEN header₄ transport
  layout₆ : Layout c₆.data Ipv6Hdr.LEN header₆ transport
  ihl : (nt.ipv4Ihl header₄).toNat = Ipv4Hdr.LEN
  protocol₄ : nt.ipv4Proto header₄ = some proto₄
  protocol₆ : nt.ipv6NextHdr header₆ = some proto₆
  pair : ProtoPair proto₄ proto₆
  source : SameAddress ι (nt.ipv4SrcAddr header₄) (nt.ipv6SrcAddr header₆)
  dest : SameAddress ι (nt.ipv4DstAddr header₄) (nt.ipv6DstAddr header₆)
  ingress : c₄.ingressIfindex = c₆.ingressIfindex
  ktimeFlow : c₄.ktimeFlow = c₆.ktimeFlow
  ktimeBucket : c₄.ktimeBucket = c₆.ktimeBucket

def CorrFrames (nt : NetworkTypes) (ι : UInt32 → Words) (c₄ c₆ : XdpContext) : Prop :=
  ∃ header₄ header₆ transport proto₄ proto₆,
    Corresponding nt ι c₄ c₆ header₄ header₆ transport proto₄ proto₆

/-- The IPv4 half of `m` and the IPv6 half of `m'` agree along the embedding. -/
structure CorrState (ι : UInt32 → Words) (m m' : Maps) : Prop where
  config : m.config = m'.config
  subnet : ∀ v4 v6, SameAddress ι v4 v6 →
    (m.subnetMatchingV4.get ⟨32, v4.toList⟩ = some .allow ↔
      m'.subnetMatchingV6.get ⟨128, v6.toList⟩ = some .allow)
  cells : ∀ s d sp dp pr pr', ProtoPair pr pr' →
    m.cell (.v4 (.new s d sp dp pr.val)) = m'.cell (.v6 (.new (ι s) (ι d) sp dp pr'.val))

/-! ## Parsing -/

theorem ptrAt_append (front data : List UInt8) (len : Nat) :
    ptrAt (front ++ data) front.length len = ptrAt data 0 len := by
  simp [ptrAt]

theorem ptrAt_header {data header transport : List UInt8} {len : Nat}
    (h : Layout data len header transport) : ptrAt data EthHdr.LEN len = some header := by
  obtain ⟨rfl, eth, heth, rfl⟩ := h
  rw [← heth, ptrAt_append]
  simp [ptrAt]

theorem ptrAt_transport {data header transport : List UInt8} {len : Nat}
    (h : Layout data len header transport) (n : Nat) :
    ptrAt data (EthHdr.LEN + len) n = ptrAt transport 0 n := by
  obtain ⟨rfl, eth, heth, rfl⟩ := h
  rw [← heth, ← List.length_append, ← List.append_assoc, ptrAt_append]

theorem readPorts_transport {data header transport : List UInt8} {len : Nat}
    (h : Layout data len header transport) (isTcp isUdp : Bool) :
    readPorts nt data (EthHdr.LEN + len) isTcp isUdp = readPorts nt transport 0 isTcp isUdp := by
  simp only [readPorts, ptrAt_transport h]

/-- Both parsers read their ports from the transport bytes. -/
theorem parse_corresponding {c₄ c₆ : XdpContext} {header₄ header₆ transport : List UInt8}
    {proto₄ proto₆ : IpProto}
    (h : Corresponding nt ι c₄ c₆ header₄ header₆ transport proto₄ proto₆) :
    ∃ ports : Except FirewallError (UInt16 × UInt16 × Bool),
      ports = readPorts nt transport 0 (proto₄ == .Tcp) (proto₄ == .Udp) ∧
      parseIpv4 nt c₄.data = ports.map (fun x =>
        ⟨nt.ipv4SrcAddr header₄, nt.ipv4DstAddr header₄, octetsToU32 (nt.ipv4SrcAddr header₄),
          octetsToU32 (nt.ipv4DstAddr header₄), proto₄, x.1, x.2.1, x.2.2⟩) ∧
      parseIpv6 nt c₆.data = ports.map (fun x =>
        ⟨nt.ipv6SrcAddr header₆, nt.ipv6DstAddr header₆, ι (octetsToU32 (nt.ipv4SrcAddr header₄)),
          ι (octetsToU32 (nt.ipv4DstAddr header₄)), proto₆, x.1, x.2.1, x.2.2⟩) := by
  refine ⟨_, rfl, ?_, ?_⟩
  · simp only [parseIpv4, ptrAt_header h.layout₄, h.protocol₄, h.ihl, orOutOfBounds, bind,
      Except.bind, readPorts_transport h.layout₄]
    cases readPorts nt transport 0 (proto₄ == .Tcp) (proto₄ == .Udp) <;> rfl
  · have hwalk : walkHeaders nt c₆.data 6 (EthHdr.LEN + Ipv6Hdr.LEN) proto₆ =
        .ok ⟨EthHdr.LEN + Ipv6Hdr.LEN, proto₆, true⟩ := by
      cases h.pair <;> rfl
    have htcp : (proto₆ == .Tcp) = (proto₄ == .Tcp) := by cases h.pair <;> rfl
    have hudp : (proto₆ == .Udp) = (proto₄ == .Udp) := by cases h.pair <;> rfl
    have hsource := h.source
    have hdest := h.dest
    unfold SameAddress at hsource hdest
    simp only [parseIpv6, ptrAt_header h.layout₆, h.protocol₆, orOutOfBounds, bind, Except.bind,
      hsource, hdest, hwalk, Bool.true_and, htcp, hudp, readPorts_transport h.layout₆]
    cases readPorts nt transport 0 (proto₄ == .Tcp) (proto₄ == .Udp) <;> rfl

/-! ## One step -/

theorem ProtoPair.val_iff {pr pr' ps ps' : IpProto} (h : ProtoPair pr pr')
    (h' : ProtoPair ps ps') : pr.val = ps.val ↔ pr'.val = ps'.val := by
  cases h <;> cases h' <;> decide

/-- Corresponding writes keep corresponding states. -/
theorem CorrState.setCell {m m' : Maps} (hι : Function.Injective ι) (hm : CorrState ι m m')
    (s d : UInt32) (sp dp : UInt16) {pr pr' : IpProto} (hp : ProtoPair pr pr') (c : Cell) :
    CorrState ι (m.setCell (.v4 (.new s d sp dp pr.val)) c)
      (m'.setCell (.v6 (.new (ι s) (ι d) sp dp pr'.val)) c) where
  config := hm.config
  subnet := hm.subnet
  cells := by
    intro s' d' sp' dp' ps ps' hp'
    have hkey : FlowKey.v4 (.new s' d' sp' dp' ps.val) = .v4 (.new s d sp dp pr.val) ↔
        FlowKey.v6 (.new (ι s') (ι d') sp' dp' ps'.val) =
          .v6 (.new (ι s) (ι d) sp dp pr'.val) := by
      simp [Ipv4Packet.new, Ipv6Packet.new, hι.eq_iff, hp'.val_iff hp]
    rw [Maps.cell_setCell, Maps.cell_setCell]
    by_cases heq : FlowKey.v4 (.new s' d' sp' dp' ps.val) = .v4 (.new s d sp dp pr.val)
    · rw [heq, hkey.mp heq, Function.update_self, Function.update_self]
    · rw [Function.update_of_ne heq, Function.update_of_ne (mt hkey.mpr heq)]
      exact hm.cells s' d' sp' dp' ps ps' hp'

/-- Packets that differ in their keys only move a cell alike, and their
profiles do not matter unless they reach the bucket. -/
theorem cellStep_alike {config : FirewallConfig} {q q' : FlowPacket} (c : Cell)
    (hadm : q.admitted = q'.admitted) (hdir : q.direction = q'.direction)
    (hrem : q.remove = q'.remove) (hflow : q.ktimeFlow = q'.ktimeFlow)
    (hbucket : q.ktimeBucket = q'.ktimeBucket)
    (hprofile : q.profile = q'.profile ∨ config.ddosActivated = false ∨ q.admitted = false ∨
      (q.remove = false ∧ q.direction = .incoming ∧ c.allows = false)) :
    cellStep config q c = cellStep config q' c := by
  rcases hprofile with hp | hd | ha | ⟨hr, hi, hc⟩
  · simp only [cellStep, bucketStep, fetchBucket, hadm, hdir, hrem, hflow, hbucket, hp]
  · simp only [cellStep, bucketStep, hadm, hdir, hrem, hflow, hd, Bool.false_eq_true, if_false]
  · rw [cellStep_not_admitted c ha, cellStep_not_admitted c (hadm ▸ ha)]
  · rw [cellStep_no_state hr hi hc, cellStep_no_state (hrem ▸ hr) (hdir ▸ hi) hc]

/-- With rate limiting on, an ICMP packet that reaches the bucket finds the two
profiles equal. -/
def PolicedAlike (nt : NetworkTypes) (m : Maps) (ctx : XdpContext) : Prop :=
  ∀ q, inspect nt m.toPolicy ctx = .inr q → q.key.protocol = IpProto.Icmp.val →
    m.configuration.ddosActivated = true →
    m.configuration.icmpProfile = m.configuration.defaultProfile ∨ q.admitted = false ∨
      (q.direction = .incoming ∧ (m.cell q.key).allows = false)

/-- What is not ICMP has one profile in both families. -/
theorem policedAlike_of_protocol {ctx : XdpContext} (protocol : UInt8)
    (htype : frameType nt ctx = some .ipv4)
    (hparse : (parseIpv4 nt ctx.data).map (fun h => h.protocol.val) = .ok protocol)
    (hicmp : protocol ≠ IpProto.Icmp.val) (m : Maps) : PolicedAlike nt m ctx := by
  intro q hi hq
  rcases inspect_inr hi with ⟨-, -, hv⟩ | ⟨htype', -⟩
  · obtain ⟨h, hp, rfl⟩ := inspectV4_inr hv
    have hprotocol : h.protocol.val = protocol := by
      rw [hp] at hparse
      exact Except.ok.inj hparse
    refine absurd ?_ hicmp
    rw [← hprotocol, ← hq]
    cases m.toPolicy.direction ctx <;> rfl
  · cases htype.symm.trans htype'

/-- The two flow packets of corresponding frames. -/
structure SamePacket (ι : UInt32 → Words) (config : FirewallConfig) (q q' : FlowPacket) : Prop where
  key : ∃ s d sp dp pr pr', ProtoPair pr pr' ∧ q.key = .v4 (.new s d sp dp pr.val) ∧
    q'.key = .v6 (.new (ι s) (ι d) sp dp pr'.val) ∧ q.profile = activeProfile config pr ∧
    q'.profile = activeProfile config pr' ∧ (pr = .Icmp → q.remove = false)
  admitted : q.admitted = q'.admitted
  direction : q.direction = q'.direction
  remove : q.remove = q'.remove
  ktimeFlow : q.ktimeFlow = q'.ktimeFlow
  ktimeBucket : q.ktimeBucket = q'.ktimeBucket

/-- Corresponding frames are refused alike before their flow, or become packets
that differ only in the key and the profile. -/
theorem inspect_corresponding {m m' : Maps} {c₄ c₆ : XdpContext}
    (hen : m.configuration.protocolAllowed.contains .IPV4 = true) (hm : CorrState ι m m')
    (hc : CorrFrames nt ι c₄ c₆) :
    (∃ e, inspect nt m.toPolicy c₄ = .inl (.error e) ∧
      inspect nt m'.toPolicy c₆ = .inl (.error e)) ∨
    (∃ q q', inspect nt m.toPolicy c₄ = .inr q ∧ inspect nt m'.toPolicy c₆ = .inr q' ∧
      SamePacket ι m.configuration q q') := by
  obtain ⟨header₄, header₆, transport, proto₄, proto₆, h⟩ := hc
  obtain ⟨ports, hports, hparse₄, hparse₆⟩ := parse_corresponding h
  have hconfig : m'.configuration = m.configuration := by
    simp only [Policy.configuration, hm.config]
  have hdirection : m'.direction c₆ = m.direction c₄ := by
    simp only [Policy.direction, hconfig, h.ingress]
  rw [inspect_of_type h.type₄, inspect_of_type h.type₆]
  simp only [hen, if_true, inspectV4, inspectV6, hparse₄, hparse₆, hconfig, hdirection]
  cases ports with
  | error e => exact .inl ⟨e, rfl, rfl⟩
  | ok x =>
    refine .inr ⟨_, _, rfl, rfl, ?_⟩
    have hremove : proto₄ = .Icmp → x.2.2 = false := by
      rintro rfl
      have hnone : Except.ok x = (.ok (0, 0, false) : Except FirewallError _) := hports
      cases hnone
      rfl
    have hsubnet : ∀ v4 v6, SameAddress ι v4 v6 →
        subnetAdmits m.configuration (m.subnetMatchingV4.get ⟨32, v4.toList⟩) =
          subnetAdmits m.configuration (m'.subnetMatchingV6.get ⟨128, v6.toList⟩) := by
      intro v4 v6 hv
      rw [Bool.eq_iff_iff]
      simp [subnetAdmits, hm.subnet v4 v6 hv]
    constructor
    · cases m.direction c₄
      · exact ⟨_, _, _, _, proto₄, proto₆, h.pair, rfl, rfl, rfl, rfl, hremove⟩
      · exact ⟨_, _, _, _, proto₄, proto₆, h.pair, rfl, rfl, rfl, rfl, hremove⟩
    · cases m.direction c₄
      · exact hsubnet _ _ h.source
      · exact hsubnet _ _ h.dest
    · rfl
    · rfl
    · exact h.ktimeFlow
    · exact h.ktimeBucket

theorem step_alike {m m' : Maps} {c₄ c₆ : XdpContext} (hι : Function.Injective ι)
    (hen : m.configuration.protocolAllowed.contains .IPV4 = true) (hm : CorrState ι m m')
    (hc : CorrFrames nt ι c₄ c₆) (hp : PolicedAlike nt m c₄) :
    (xdpFirewall nt c₄ m).1 = (xdpFirewall nt c₆ m').1 ∧
      CorrState ι (xdpFirewall nt c₄ m).2 (xdpFirewall nt c₆ m').2 := by
  rcases inspect_corresponding hen hm hc with ⟨e, hi, hi'⟩ | ⟨q, q', hi, hi', hq⟩
  · rw [xdpFirewall_inl hi, xdpFirewall_inl hi']
    exact ⟨rfl, hm⟩
  · obtain ⟨s, d, sp, dp, pr, pr', hpair, hk, hk', hprof, hprof', hremove⟩ := hq.key
    have hconfig : m'.configuration = m.configuration := by
      simp only [Policy.configuration, hm.config]
    have hcell : m'.cell q'.key = m.cell q.key := by
      rw [hk, hk', hm.cells s d sp dp pr pr' hpair]
    have hprofile : q.profile = q'.profile ∨ m.configuration.ddosActivated = false ∨
        q.admitted = false ∨
        (q.remove = false ∧ q.direction = .incoming ∧ (m.cell q.key).allows = false) := by
      cases hpair with
      | tcp => exact .inl (hprof.trans hprof'.symm)
      | udp => exact .inl (hprof.trans hprof'.symm)
      | icmp =>
        cases hddos : m.configuration.ddosActivated with
        | false => exact .inr (.inl rfl)
        | true =>
          rcases hp q hi (by rw [hk]; rfl) hddos with hpr | ha | hin
          · exact .inl (hprof.trans (hpr.trans hprof'.symm))
          · exact .inr (.inr (.inl ha))
          · exact .inr (.inr (.inr ⟨hremove rfl, hin⟩))
    have hstep : cellStep m.configuration q (m.cell q.key) =
        cellStep m'.configuration q' (m'.cell q'.key) := by
      rw [hconfig, hcell]
      exact cellStep_alike _ hq.admitted hq.direction hq.remove hq.ktimeFlow hq.ktimeBucket hprofile
    rw [xdpFirewall_inr hi, xdpFirewall_inr hi', ← hstep, hk, hk']
    exact ⟨rfl, hm.setCell hι s d sp dp hpair _⟩

/-! ## Runs -/

/-- The two runs answer alike and end in corresponding states. -/
def Alike (nt : NetworkTypes) (ι : UInt32 → Words) (m m' : Maps)
    (es : List (XdpContext × XdpContext)) : Prop :=
  outputs (xdpFirewall nt) m (es.map Prod.fst) = outputs (xdpFirewall nt) m' (es.map Prod.snd) ∧
    CorrState ι (run (xdpFirewall nt) m (es.map Prod.fst))
      (run (xdpFirewall nt) m' (es.map Prod.snd))

/-- Corresponding runs from corresponding states stay in lockstep, as long as
every step polices ICMP and ICMPv6 alike. -/
theorem families_alike (nt : NetworkTypes) (ι : UInt32 → Words) (hι : Function.Injective ι)
    (m m' : Maps) (es : List (XdpContext × XdpContext))
    (hen : m.configuration.protocolAllowed.contains .IPV4 = true) (hm : CorrState ι m m')
    (hes : ∀ p ∈ es, CorrFrames nt ι p.1 p.2)
    (hp : Always (fun p : XdpContext × XdpContext => xdpFirewall nt p.1)
      (fun s p => PolicedAlike nt s p.1) m es) :
    Alike nt ι m m' es := by
  have hboth := (always_and m es).mpr ⟨always_of_forall m es hes, hp⟩
  have hstep : ∀ s t e f,
      (CorrState ι s t ∧ s.configuration.protocolAllowed.contains .IPV4 = true) →
      (CorrFrames nt ι e f ∧ PolicedAlike nt s e) →
      (xdpFirewall nt e s).1 = (xdpFirewall nt f t).1 ∧
        CorrState ι (xdpFirewall nt e s).2 (xdpFirewall nt f t).2 ∧
        (xdpFirewall nt e s).2.configuration.protocolAllowed.contains .IPV4 = true := by
    rintro s t e f ⟨hst, hens⟩ ⟨hc, hpe⟩
    obtain ⟨hout, hnext⟩ := step_alike hι hens hst hc hpe
    refine ⟨hout, hnext, ?_⟩
    simpa only [Policy.configuration, xdpFirewall_toPolicy] using hens
  have hrun := simulation
    (R := fun s t => CorrState ι s t ∧ s.configuration.protocolAllowed.contains .IPV4 = true)
    (E := fun s e f => CorrFrames nt ι e f ∧ PolicedAlike nt s e) hstep m m' es ⟨hm, hen⟩ hboth
  exact ⟨hrun.1, hrun.2.1⟩

/-- The IPv4-mapped addresses. -/
def mapped (w : UInt32) : Words := ⟨0, 0, 0xFFFF, w⟩

theorem mapped_injective : Function.Injective mapped := by
  intro v w h
  exact congrArg Words.fourth h

def mappedHost (host : List UInt8) : List UInt8 := List.replicate 10 0 ++ [0xFF, 0xFF] ++ host

/-- An echo request from the inside. -/
def echo : XdpContext := ⟨ipv4Frame 1 insideHost outsideHost [8, 0, 0, 0], 3, 1, 1⟩

def echoV6 : XdpContext :=
  ⟨ipv6Frame 58 (mappedHost insideHost) (mappedHost outsideHost) [8, 0, 0, 0], 3, 1, 1⟩

/-- `openConfig` with rate limiting on. -/
def limitedConfig : FirewallConfig := { openConfig with ddosActivated := true }

theorem corrState_fresh (config : FirewallConfig) :
    CorrState mapped (freshMaps config) (freshMaps config) where
  config := rfl
  subnet := by
    intro v4 v6 _
    have h₄ : (freshMaps config).subnetMatchingV4.get ⟨32, v4.toList⟩ = none :=
      (PrefixMap.lookup_eq_none_iff _ _ _).mpr (fun _ _ => rfl)
    have h₆ : (freshMaps config).subnetMatchingV6.get ⟨128, v6.toList⟩ = none :=
      (PrefixMap.lookup_eq_none_iff _ _ _).mpr (fun _ _ => rfl)
    simp [h₄, h₆]
  cells := by simp

theorem layout_slices {data : List UInt8} {len : Nat} (h : EthHdr.LEN + len ≤ data.length) :
    Layout data len ((data.drop EthHdr.LEN).take len) (data.drop (EthHdr.LEN + len)) := by
  refine ⟨?_, data.take EthHdr.LEN, ?_, ?_⟩
  · rw [List.length_take, List.length_drop]
    omega
  · rw [List.length_take]
    omega
  · rw [← List.drop_drop, List.take_append_drop, List.take_append_drop]

/-- The header behind the Ethernet header. -/
def networkHeader (ctx : XdpContext) (len : Nat) : List UInt8 :=
  (ctx.data.drop EthHdr.LEN).take len

/-- What has to be looked up in the bytes of two frames that correspond. -/
theorem corrFrames_of_bytes {c₄ c₆ : XdpContext} {proto₄ proto₆ : IpProto}
    (pair : ProtoPair proto₄ proto₆)
    (h : frameType rfcTypes c₄ = some .ipv4 ∧ frameType rfcTypes c₆ = some .ipv6 ∧
      EthHdr.LEN + Ipv4Hdr.LEN ≤ c₄.data.length ∧ EthHdr.LEN + Ipv6Hdr.LEN ≤ c₆.data.length ∧
      c₄.data.drop (EthHdr.LEN + Ipv4Hdr.LEN) = c₆.data.drop (EthHdr.LEN + Ipv6Hdr.LEN) ∧
      (rfcTypes.ipv4Ihl (networkHeader c₄ Ipv4Hdr.LEN)).toNat = Ipv4Hdr.LEN ∧
      rfcTypes.ipv4Proto (networkHeader c₄ Ipv4Hdr.LEN) = some proto₄ ∧
      rfcTypes.ipv6NextHdr (networkHeader c₆ Ipv6Hdr.LEN) = some proto₆ ∧
      ipv6Words (rfcTypes.ipv6SrcAddr (networkHeader c₆ Ipv6Hdr.LEN)) =
        .ok (mapped (octetsToU32 (rfcTypes.ipv4SrcAddr (networkHeader c₄ Ipv4Hdr.LEN)))) ∧
      ipv6Words (rfcTypes.ipv6DstAddr (networkHeader c₆ Ipv6Hdr.LEN)) =
        .ok (mapped (octetsToU32 (rfcTypes.ipv4DstAddr (networkHeader c₄ Ipv4Hdr.LEN)))) ∧
      c₄.ingressIfindex = c₆.ingressIfindex ∧ c₄.ktimeFlow = c₆.ktimeFlow ∧
      c₄.ktimeBucket = c₆.ktimeBucket) : CorrFrames rfcTypes mapped c₄ c₆ := by
  obtain ⟨type₄, type₆, length₄, length₆, transport, ihl, protocol₄, protocol₆, source, dest,
    ingress, ktimeFlow, ktimeBucket⟩ := h
  have layout₆ := layout_slices length₆
  rw [← transport] at layout₆
  exact ⟨networkHeader c₄ Ipv4Hdr.LEN, networkHeader c₆ Ipv6Hdr.LEN, _, proto₄, proto₆,
    { type₄, type₆, layout₄ := layout_slices length₄, layout₆, ihl, protocol₄, protocol₆, pair,
      source, dest, ingress, ktimeFlow, ktimeBucket }⟩

theorem corrFrames_echo : CorrFrames rfcTypes mapped echo echoV6 :=
  corrFrames_of_bytes .icmp (by decide)

/-- A packet in both families. -/
def both (proto : UInt8) (source dest transport : List UInt8) (ingressIfindex : UInt32)
    (now : UInt64) : XdpContext × XdpContext :=
  (⟨ipv4Frame proto source dest transport, ingressIfindex, now, now⟩,
    ⟨ipv6Frame proto (mappedHost source) (mappedHost dest) transport, ingressIfindex, now, now⟩)

/-- A handshake over TCP, and a request and its reply over UDP in between. -/
def twoFlows : List (XdpContext × XdpContext) :=
  [both 6 insideHost outsideHost (tcpHeader 44 80 2) 3 1,
    both 17 insideHost outsideHost [0, 53, 0, 80, 0, 0, 0, 0] 3 2,
    both 6 outsideHost insideHost (tcpHeader 80 44 0x12) 2 3,
    both 17 outsideHost insideHost [0, 80, 0, 53, 0, 0, 0, 0] 2 4,
    both 6 insideHost outsideHost (tcpHeader 44 80 0x10) 3 5]

theorem corrFrames_twoFlows : ∀ p ∈ twoFlows, CorrFrames rfcTypes mapped p.1 p.2 := by
  intro p hp
  simp only [twoFlows, List.mem_cons, List.not_mem_nil, or_false] at hp
  rcases hp with rfl | rfl | rfl | rfl | rfl
  · exact corrFrames_of_bytes .tcp (by decide)
  · exact corrFrames_of_bytes .udp (by decide)
  · exact corrFrames_of_bytes .tcp (by decide)
  · exact corrFrames_of_bytes .udp (by decide)
  · exact corrFrames_of_bytes .tcp (by decide)

/-- With rate limiting on, TCP and UDP are policed alike. -/
theorem families_alike_twoFlows :
    Alike rfcTypes mapped (freshMaps limitedConfig) (freshMaps limitedConfig) twoFlows := by
  refine families_alike rfcTypes mapped mapped_injective _ _ _ (by decide)
    (corrState_fresh limitedConfig) corrFrames_twoFlows ?_
  rw [always_iff]
  intro pre p post hcut
  have hp : p ∈ twoFlows := by rw [hcut]; simp
  simp only [twoFlows, List.mem_cons, List.not_mem_nil, or_false] at hp
  rcases hp with rfl | rfl | rfl | rfl | rfl
  · exact policedAlike_of_protocol 6 (by decide) (by decide) (by decide) _
  · exact policedAlike_of_protocol 17 (by decide) (by decide) (by decide) _
  · exact policedAlike_of_protocol 6 (by decide) (by decide) (by decide) _
  · exact policedAlike_of_protocol 17 (by decide) (by decide) (by decide) _
  · exact policedAlike_of_protocol 6 (by decide) (by decide) (by decide) _

/-- With rate limiting the one leaves a bucket of 9 tokens and the other one of
99. -/
theorem families_differ :
    CorrState mapped (freshMaps limitedConfig) (freshMaps limitedConfig) ∧
      CorrFrames rfcTypes mapped echo echoV6 ∧
      ¬ Alike rfcTypes mapped (freshMaps limitedConfig) (freshMaps limitedConfig)
        [(echo, echoV6)] := by
  refine ⟨corrState_fresh limitedConfig, corrFrames_echo, ?_⟩
  intro h
  exact absurd (h.2.cells 0x0A000001 0xCB007109 0 0 .Icmp .Ipv6Icmp .icmp) (by decide)

end Oxidrop.Families
