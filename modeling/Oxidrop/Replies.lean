import Oxidrop.Events
import Oxidrop.Wire

/-!
# Replies are admitted

A packet from the inside and the packet that answers it are parsed at different
offsets and keyed through different direction arms. They meet at one flow, and
the entry that the first one leaves lets the second one through.
-/
namespace Oxidrop.Replies

open Run

/-- What a packet carries, in either address family. -/
inductive Datagram where
  | v4 (c : Connection 4)
  | v6 (c : Connection 16)

/-- Source and destination exchanged. -/
def Datagram.reverse : Datagram → Datagram
  | .v4 c => .v4 c.reverse
  | .v6 c => .v6 c.reverse

/-- The frame is an unfragmented packet of `d` without FIN and RST: an IPv4 packet
with any options, or an IPv6 packet with at most five extension headers. -/
inductive Carries (data : List UInt8) : Datagram → Prop where
  | v4 {c : Connection 4} : Ipv4Carries data c →
    finRstAt data (14 + ihlOf data) c.protocol = false → Carries data (.v4 c)
  | v6 {c : Connection 16} {types : List UInt8} {offset : Nat} :
    Ipv6Carries data types offset c → types.length ≤ 5 → 44 ∉ types →
    finRstAt data offset c.protocol = false → Carries data (.v6 c)

/-- The key under which the subnet rules are asked about a frame. -/
def subnetKeyOf (nt : NetworkTypes) (p : Policy) (ctx : XdpContext) : Option Key :=
  match frameType nt ctx with
  | some .ipv4 =>
    match parseIpv4 nt ctx.data with
    | .ok h => some ⟨32, (h.externalOctets (p.direction ctx)).toList⟩
    | .error _ => none
  | some .ipv6 =>
    match parseIpv6 nt ctx.data with
    | .ok h => some ⟨128, (h.externalOctets (p.direction ctx)).toList⟩
    | .error _ => none
  | _ => none

/-- The frame is decided from the flow-table entry and the bucket at `k`, and
these two are all that it writes. -/
def UsesKey (nt : NetworkTypes) (p : Policy) (k : FlowKey) (ctx : XdpContext) : Prop :=
  ∃ q : FlowPacket, q.key = k ∧ ∀ m : Maps, m.toPolicy = p →
    xdpFirewall nt ctx m =
      ((cellStep m.configuration q (m.cell k)).1,
        m.setCell k (cellStep m.configuration q (m.cell k)).2)

theorem usesKey_of_inspect {nt : NetworkTypes} {p : Policy} {ctx : XdpContext} {q : FlowPacket}
    (h : inspect nt p ctx = .inr q) : UsesKey nt p q.key ctx := by
  refine ⟨q, rfl, ?_⟩
  rintro m rfl
  exact xdpFirewall_inr h

/-- The flow of a datagram that travels in the given direction. -/
def Datagram.key (direction : TraficDirection) : Datagram → FlowKey
  | .v4 c => .v4 ((c.fromInside direction).key octetsToU32 Ipv4Packet.new)
  | .v6 c => .v6 ((c.fromInside direction).key octetsToWords Ipv6Packet.new)

/-- The reply from the outside belongs to the flow of the request. -/
theorem Datagram.key_reverse (d : Datagram) : d.reverse.key .incoming = d.key .outgoing := by
  cases d <;> rfl

/-- The number of the protocol is known to the header library, and the family is
switched on. -/
def Accepted (nt : NetworkTypes) (p : Policy) : Datagram → Prop
  | .v4 c => nt.fromU8 c.protocol = some ⟨c.protocol⟩ ∧
      p.configuration.protocolAllowed.contains .IPV4 = true
  | .v6 _ => True

theorem accepted_reverse {nt : NetworkTypes} {p : Policy} {d : Datagram} :
    Accepted nt p d.reverse ↔ Accepted nt p d := by
  cases d <;> rfl

theorem subnetKeyOf_of_inspect {nt : NetworkTypes} {p : Policy} {ctx : XdpContext}
    {q : FlowPacket} (h : inspect nt p ctx = .inr q) :
    subnetKeyOf nt p ctx = some q.key.subnetKey := by
  unfold subnetKeyOf
  rcases inspect_inr h with ⟨ht, -, hq⟩ | ⟨ht, hq⟩
  · obtain ⟨hd, hp, rfl⟩ := inspectV4_inr hq
    simp only [ht, hp, externalOctets_v4 (parseIpv4_agree hp)]
    rfl
  · obtain ⟨hd, hp, rfl⟩ := inspectV6_inr hq
    simp only [ht, hp, externalOctets_v6 (parseIpv6_agree hp)]
    rfl

/-- A packet of a datagram is a packet of its flow. -/
theorem Carries.inspect {nt : NetworkTypes} (hnt : nt.Lawful) {p : Policy} {ctx : XdpContext}
    {d : Datagram} (h : Carries ctx.data d) (ha : Accepted nt p d) :
    ∃ q, Oxidrop.inspect nt p ctx = .inr q ∧ q.key = d.key (p.direction ctx) ∧
      q.remove = false := by
  cases h with
  | @v4 c hc hplain =>
    have ht : frameType nt ctx = some .ipv4 :=
      (frameType_ipv4 hnt).mpr ⟨by have := hc.header; omega, hc.etherType⟩
    refine ⟨_, inspect_parseIpv4 ht ha.2 (hc.parse hnt ha.1), ?_, hplain⟩
    exact congrArg FlowKey.v4 (c.flowKey_headers _ _ _ _)
  | @v6 c types offset hc hlen hfrag hplain =>
    have ht : frameType nt ctx = some .ipv6 :=
      (frameType_ipv6 hnt).mpr ⟨by have := hc.header; omega, hc.etherType⟩
    have hbehind : c.behind types = c := if_pos (by omega)
    refine ⟨_, inspect_parseIpv6 ht (hc.parse hnt), ?_, ?_⟩
    · rw [hbehind]
      exact congrArg FlowKey.v6 (c.flowKey_headers _ _ _ _)
    · simp [flowPacket, Connection.headers, hplain]

/-- What is forwarded was accepted. -/
theorem Carries.accepted {nt : NetworkTypes} (hnt : nt.Lawful) {m : Maps} {ctx : XdpContext}
    {d : Datagram} (h : Carries ctx.data d)
    (hf : forwarded (xdpFirewall nt ctx m).1 = true) : Accepted nt m.toPolicy d := by
  cases h with
  | @v4 c hc hplain =>
    have ht : frameType nt ctx = some .ipv4 :=
      (frameType_ipv4 hnt).mpr ⟨by have := hc.header; omega, hc.etherType⟩
    obtain ⟨q, hi⟩ := inspect_of_forwarded (.inl ht) hf
    obtain ⟨hallowed, hd, hp⟩ := inspect_ipv4 ht hi
    refine ⟨?_, hallowed⟩
    rw [hc.protocol]
    exact ((parseIpv4_wire hnt).mp hp).2.1
  | v6 => trivial

/-- The reply to a forwarded request has its flow key, bucket and subnet key, and
the flow table lets it through. -/
theorem reply_admitted (nt : NetworkTypes) (hnt : nt.Lawful) (m : Maps)
    (request reply : XdpContext) (between : List XdpContext) (d : Datagram)
    (hadapters : m.configuration.incomingEthernetAdapter ≠ m.configuration.outputEthernetAdapter)
    (hout : m.configuration.outputEthernetAdapter = some request.ingressIfindex)
    (hin : m.configuration.incomingEthernetAdapter = some reply.ingressIfindex)
    (hrequest : Carries request.data d) (hreply : Carries reply.data d.reverse)
    (hforwarded : forwarded (xdpFirewall nt request m).1 = true)
    (hdeny : ∀ k, flowKeyOf nt m.toPolicy request = some k → (m.cell k).denies = false)
    (hother : ∀ ctx ∈ between,
      flowKeyOf nt m.toPolicy ctx ≠ flowKeyOf nt m.toPolicy request) :
    ∃ k, flowKeyOf nt m.toPolicy request = some k ∧ flowKeyOf nt m.toPolicy reply = some k ∧
      UsesKey nt m.toPolicy k request ∧ UsesKey nt m.toPolicy k reply ∧
      subnetKeyOf nt m.toPolicy request = some k.subnetKey ∧
      subnetKeyOf nt m.toPolicy reply = some k.subnetKey ∧
      Admitted (xdpFirewall nt reply
        (run (handle nt) m ((request :: between).map .packet))).1 := by
  have hdirOut : m.direction request = .outgoing := by
    simp [Policy.direction, trafficDirection, hout, hout ▸ hadapters]
  have hdirIn : m.direction reply = .incoming := by
    simp [Policy.direction, trafficDirection, hin]
  have haccepted := hrequest.accepted hnt hforwarded
  obtain ⟨q, hi, hk, hr⟩ := hrequest.inspect hnt haccepted
  obtain ⟨q', hi', hk', hr'⟩ := hreply.inspect hnt (accepted_reverse.mpr haccepted)
  have hkey : q'.key = q.key := by rw [hk', hk, hdirIn, hdirOut, Datagram.key_reverse]
  have hflow := flowKeyOf_of_inr hi
  refine ⟨q.key, hflow, by rw [flowKeyOf_of_inr hi', hkey], usesKey_of_inspect hi,
    hkey ▸ usesKey_of_inspect hi', subnetKeyOf_of_inspect hi,
    hkey ▸ subnetKeyOf_of_inspect hi', ?_⟩
  rw [xdpFirewall_inr hi, cellStep_forwarded_iff] at hforwarded
  have hadmits : q.admitted = true := hforwarded.1
  have hd : q.direction = .outgoing := by rw [(inspect_fields hi).1, hdirOut]
  have hbetween : between.filterMap (packetOf nt m.toPolicy q.key) = [] := by
    rw [List.filterMap_eq_nil_iff]
    intro ctx hctx
    apply packetOf_eq_none
    intro q'' hi'' hk''
    apply hother ctx hctx
    rw [hflow, flowKeyOf_of_inr hi'', hk'']
  have hcell : ((run (handle nt) m ((request :: between).map .packet)).cell q.key).allows =
      true := by
    rw [run_packets_cell, List.filterMap_cons, packetOf_eq_some_iff.mpr ⟨hi, rfl⟩, hbetween]
    exact (cellStep_allows_iff _ q _).mpr (.inl ⟨hadmits, hr, hd, hdeny q.key hflow⟩)
  have hpolicy := run_toPolicy nt m _ (keepsPolicy_packets (request :: between))
  have hi'' : Oxidrop.inspect nt
      (run (handle nt) m ((request :: between).map .packet)).toPolicy reply = .inr q' := by
    rw [hpolicy, hi']
  rw [xdpFirewall_inr hi'', cellStep_admitted_iff, hkey]
  refine ⟨?_, .inr (.inr hcell)⟩
  rw [inspect_admitted hi', hkey, ← inspect_admitted hi, hadmits]

theorem udpRequest_carries : Carries udpRequest.data (.v4 udpConnection) :=
  .v4 ⟨by decide, by decide, by decide, by decide, by decide, by decide, by decide, by decide,
    by decide, by decide⟩ (by decide)

theorem udpReply_carries : Carries udpReply.data (.v4 udpConnection.reverse) :=
  .v4 ⟨by decide, by decide, by decide, by decide, by decide, by decide, by decide, by decide,
    by decide, by decide⟩ (by decide)

/-- A reply with a packet of another flow in between. -/
theorem reply_admitted_udp :
    Admitted (xdpFirewall rfcTypes udpReply (run (handle rfcTypes) (freshMaps openConfig)
      ([udpRequest, tcpRequest].map .packet))).1 := by
  obtain ⟨k, -, -, -, -, -, -, hadmitted⟩ := reply_admitted rfcTypes rfcTypes_lawful
    (freshMaps openConfig) udpRequest udpReply [tcpRequest] (.v4 udpConnection) (by decide) rfl rfl
    udpRequest_carries udpReply_carries (by decide) (by intro k _; simp [Cell.denies])
    (by decide)
  exact hadmitted

end Oxidrop.Replies
