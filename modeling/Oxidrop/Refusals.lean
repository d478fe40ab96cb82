import Oxidrop.Chains

/-!
# Frames that are refused

A frame that is refused leaves no trace in the maps, unless it ran out of tokens;
any other frame touches at most the cell of its own flow. What an IPv4 frame is
refused for is its length: neither its version nor the least header length is
looked at.
-/
namespace Oxidrop.Refusals

open Chains

variable {nt : NetworkTypes} {ctx : XdpContext} {m : Maps}

/-! ## What a frame may change -/

/-- The verdicts that leave the maps alone. -/
def IsRefusal (verdict : Verdict) : Prop :=
  verdict = .error .outOfBounds ∨ verdict = .error .unsupportedProtocol ∨
    verdict = .error .deniedByPolicy

theorem not_refusal_of_admitted {verdict : Verdict} (h : Admitted verdict) :
    ¬ IsRefusal verdict := by
  rintro (rfl | rfl | rfl) <;> rcases h with h | h <;> cases h

/-- The frame changes nothing that the data plane only reads, and no cell but
that of its own flow. -/
def OwnFlowOnly (nt : NetworkTypes) (ctx : XdpContext) (m : Maps) : Prop :=
  (xdpFirewall nt ctx m).2.toPolicy = m.toPolicy ∧
    ∀ k, flowKeyOf nt m.toPolicy ctx ≠ some k →
      (xdpFirewall nt ctx m).2.cell k = m.cell k

theorem cellStep_refusal {config : FirewallConfig} {q : FlowPacket} {c : Cell}
    (h : IsRefusal (cellStep config q c).1) : (cellStep config q c).2 = c := by
  rcases cellStep_cases config q c with
    ⟨-, hstep⟩ | ⟨-, -, hstep⟩ | ⟨-, -, -, -, hstep⟩ | ⟨-, -, -, hstep⟩
  · rw [hstep]
  · rw [hstep] at h
    exact absurd h (not_refusal_of_admitted (.inl (forwarded_redirectOrPass config q.direction)))
  · rw [hstep]
  · rw [hstep] at h
    exact absurd h (not_refusal_of_admitted (bucketStep_admitted config q c.bucket))

theorem refusal_unchanged (h : IsRefusal (xdpFirewall nt ctx m).1) :
    (xdpFirewall nt ctx m).2 = m := by
  cases hi : inspect nt m.toPolicy ctx with
  | inl verdict => rw [xdpFirewall_inl hi]
  | inr q =>
    rw [xdpFirewall_inr hi] at h ⊢
    rw [cellStep_refusal h, Maps.setCell_cell]

theorem ownFlowOnly (nt : NetworkTypes) (ctx : XdpContext) (m : Maps) : OwnFlowOnly nt ctx m := by
  refine ⟨xdpFirewall_toPolicy nt ctx m, fun k hk => ?_⟩
  rcases xdpFirewall_cell nt ctx m k with ⟨q, hi, hq, -⟩ | ⟨-, hcell⟩
  · rw [flowKeyOf_of_inr hi, hq] at hk
    exact absurd rfl hk
  · exact hcell

/-- A refused frame leaves the maps as they are, and every frame leaves all but the
cell of its own flow as it is. -/
theorem refused_intact (nt : NetworkTypes) (ctx : XdpContext) (m : Maps) :
    (IsRefusal (xdpFirewall nt ctx m).1 → (xdpFirewall nt ctx m).2 = m) ∧
      OwnFlowOnly nt ctx m :=
  ⟨refusal_unchanged, ownFlowOnly nt ctx m⟩

/-! ## IPv4 headers -/

/-- Version 4, a header length of at least five words, and the whole header inside
the frame. -/
structure WellFormed (data : List UInt8) : Prop where
  version : data.getD 14 0 >>> 4 = 4
  ihl : 20 ≤ ihlOf data
  inside : 14 + ihlOf data ≤ data.length

/-- What the data plane asks of an IPv4 header: its fixed part lies inside the
frame, and so does the TCP or UDP header where the header length puts it. -/
def Readable (data : List UInt8) : Prop :=
  34 ≤ data.length ∧ TransportInside data (14 + ihlOf data) (data.getD 23 0)

/-- The frame is not forwarded and leaves no trace. -/
def Dropped (nt : NetworkTypes) (ctx : XdpContext) (m : Maps) : Prop :=
  forwarded (xdpFirewall nt ctx m).1 = false ∧ (xdpFirewall nt ctx m).2 = m

/-- A frame whose IPv4 header is not well formed is dropped. -/
def MalformedDropped (nt : NetworkTypes) (ctx : XdpContext) (m : Maps) : Prop :=
  ¬ WellFormed ctx.data → Dropped nt ctx m

/-- The connection that an IPv4 frame names, with the ports `4 * IHL` octets behind
the Ethernet header. -/
def ipv4Connection (data : List UInt8) : Connection 4 :=
  ⟨octetsAt 4 data 26, octetsAt 4 data 30, data.getD 23 0,
    (portsAt data (14 + ihlOf data) (data.getD 23 0)).1,
    (portsAt data (14 + ihlOf data) (data.getD 23 0)).2⟩

/-- The flow key and the test for FIN and RST are read there. In a well-formed frame
that is behind the IPv4 header. -/
def ReadsBehindHeader (nt : NetworkTypes) (ctx : XdpContext) (m : Maps) : Prop :=
  ∀ q, inspect nt m.toPolicy ctx = .inr q →
    q.key = .v4 (((ipv4Connection ctx.data).fromInside q.direction).key octetsToU32
      Ipv4Packet.new) ∧
    q.remove = finRstAt ctx.data (14 + ihlOf ctx.data) (ctx.data.getD 23 0)

theorem dropped_of_unreadable (hnt : nt.Lawful) (ht : frameType nt ctx = some .ipv4)
    (h : ¬ Readable ctx.data) : Dropped nt ctx m := by
  cases hi : inspect nt m.toPolicy ctx with
  | inl verdict =>
    obtain ⟨e, rfl⟩ := inspect_inl (.inl ht) hi
    rw [Dropped, xdpFirewall_inl hi]
    exact ⟨rfl, rfl⟩
  | inr q =>
    obtain ⟨-, hd, hp⟩ := inspect_ipv4 ht hi
    obtain ⟨hlen, -, hinside, -⟩ := (parseIpv4_wire hnt).mp hp
    exact absurd ⟨hlen, hinside⟩ h

theorem readsBehindHeader (hnt : nt.Lawful) (ht : frameType nt ctx = some .ipv4) :
    ReadsBehindHeader nt ctx m := by
  intro q hi
  obtain ⟨hc, hd, hp⟩ := inspect_ipv4 ht hi
  obtain ⟨-, -, -, rfl⟩ := (parseIpv4_wire hnt).mp hp
  rw [inspect_parseIpv4 ht hc hp] at hi
  obtain rfl := Sum.inr.inj hi
  have hkey := Connection.flowKey_headers octetsToU32 Ipv4Packet.new (ipv4Connection ctx.data)
    (finRstAt ctx.data (14 + ihlOf ctx.data) (ctx.data.getD 23 0)) (m.direction ctx)
  exact ⟨congrArg FlowKey.v4 hkey, rfl⟩

/-- A header that reaches beyond the frame makes a TCP or UDP frame unreadable. -/
theorem not_readable_of_outside {data : List UInt8} (hports : HasPorts (data.getD 23 0))
    (h : data.length < 14 + ihlOf data) : ¬ Readable data := by
  rintro ⟨-, htcp, hudp⟩
  rcases hports with hproto | hproto
  · have := htcp hproto
    omega
  · have := hudp hproto
    omega

/-- An IPv4 frame whose headers do not lie inside it is dropped, in particular a TCP
or UDP frame whose header length reaches beyond it; and ports and flags are read
behind the header length alone. -/
theorem unreadable_dropped (nt : NetworkTypes) (hnt : nt.Lawful) (ctx : XdpContext) (m : Maps)
    (ht : frameType nt ctx = some .ipv4) :
    (¬ Readable ctx.data → Dropped nt ctx m) ∧
      (HasPorts (ctx.data.getD 23 0) → ctx.data.length < 14 + ihlOf ctx.data →
        Dropped nt ctx m) ∧
      ReadsBehindHeader nt ctx m :=
  ⟨dropped_of_unreadable hnt ht,
    fun hports h => dropped_of_unreadable hnt ht (not_readable_of_outside hports h),
    readsBehindHeader hnt ht⟩

/-- A UDP datagram that ends after its ports. -/
def cutRequest : XdpContext :=
  ⟨ipv4Frame 17 insideHost outsideHost [0, 53, 0, 80], 3, 1, 1⟩

theorem unreadable_dropped_cut : Dropped rfcTypes cutRequest (freshMaps openConfig) :=
  (unreadable_dropped rfcTypes rfcTypes_lawful cutRequest (freshMaps openConfig) (by decide)).1
    (by unfold Readable TransportInside; decide +kernel)

/-- The frame of `udpRequest` with another first octet and protocol in its header. -/
def udpHeaded (first protocol : UInt8) : XdpContext :=
  { udpRequest with data := (udpRequest.data.set 14 first).set 23 protocol }

/-- A wrong version, a header of no length, and an ICMP packet whose header reaches
beyond the frame are all forwarded. -/
theorem malformed_forwarded :
    ¬ MalformedDropped rfcTypes (udpHeaded 0x65 17) (freshMaps openConfig) ∧
      ¬ MalformedDropped rfcTypes (udpHeaded 0x40 17) (freshMaps openConfig) ∧
      ¬ MalformedDropped rfcTypes (udpHeaded 0x4f 1) (freshMaps openConfig) := by
  refine ⟨fun h => ?_, fun h => ?_, fun h => ?_⟩
  · exact absurd (h (fun hw => absurd hw.version (by decide))).1 (by decide)
  · exact absurd (h (fun hw => absurd hw.ihl (by decide))).1 (by decide)
  · exact absurd (h (fun hw => absurd hw.inside (by decide))).1 (by decide)

end Oxidrop.Refusals
