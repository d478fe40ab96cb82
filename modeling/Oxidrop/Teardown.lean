import Oxidrop.Events
import Oxidrop.Lib.Latch

/-!
# Opening and closing TCP connections

The flow table has no TCP states. Any admitted packet from the inside opens the
flow, and any admitted FIN or RST closes it. Whether a flow is open is therefore
a latch over the run, and the two questions of this module, whether a closed
connection leaves a hole and whether a half-closed one still works, are answered
by the order of its segments.
-/
namespace Oxidrop.Teardown

open Run

/-! ## The latch -/

/-- The event is an admitted packet of flow `k` from the inside, without FIN and
RST, that meets no Deny, or a write of an Allow from outside the data plane. -/
def Opens (nt : NetworkTypes) (k : FlowKey) (m : Maps) : Event → Prop
  | .packet ctx => ∃ q, inspect nt m.toPolicy ctx = .inr q ∧ q.key = k ∧ q.admitted = true ∧
      q.remove = false ∧ q.direction = .outgoing ∧ (m.cell k).denies = false
  | .setEntry key entry => key = k ∧ entry.any (fun state => state.action = .allow) = true
  | _ => False

/-- The event is an admitted FIN or RST of flow `k`, or it takes the entry of `k`
out of the flow table. -/
def Closes (nt : NetworkTypes) (k : FlowKey) (m : Maps) : Event → Prop
  | .packet ctx => ∃ q, inspect nt m.toPolicy ctx = .inr q ∧ q.key = k ∧ q.admitted = true ∧
      q.remove = true
  | .cleanup now keysV4 keysV6 =>
      Yields keysV4 keysV6 k ∧ (m.cell k).entry.any (expired now) = true
  | .setEntry key _ => key = k
  | _ => False

/-- The flow has been opened and not closed since. -/
def Opened (nt : NetworkTypes) (k : FlowKey) (m : Maps) (es : List Event) : Prop :=
  Since (handle nt) (Opens nt k) (Closes nt k) m es

/-- One event sets the latch, resets it, or leaves it alone. -/
theorem allows_step (nt : NetworkTypes) (k : FlowKey) (m : Maps) (e : Event) :
    ((handle nt e m).2.cell k).allows = true ↔
      Opens nt k m e ∨ ((m.cell k).allows = true ∧ ¬ Closes nt k m e) := by
  cases e with
  | packet ctx =>
    rcases xdpFirewall_cell nt ctx m k with ⟨q, hi, hk, -, hcell⟩ | ⟨hnone, hcell⟩
    · simp only [handle, hcell, cellStep_allows_iff, Opens, Closes]
      simp [hi, hk]
    · have hopens : ¬ Opens nt k m (.packet ctx) := by
        rintro ⟨q, hi, hk, -⟩
        exact hnone q hi hk
      have hcloses : ¬ Closes nt k m (.packet ctx) := by
        rintro ⟨q, hi, hk, -⟩
        exact hnone q hi hk
      simp [handle, hcell, hopens, hcloses]
  | cleanup now keysV4 keysV6 =>
    rcases cleanupConnections_cell now keysV4 keysV6 m k with ⟨hy, hx, hcell⟩ | ⟨hn, hcell⟩
    · simp [handle, hcell, Opens, Closes, hy, hx, Cell.allows]
    · simp only [handle, hcell, Opens, Closes, hn, false_or, not_false_eq_true, and_true]
  | setEntry key entry =>
    by_cases hk : key = k
    · subst hk
      simp [handle, Opens, Closes, Cell.allows]
    · simp [handle, Opens, Closes, hk, Maps.cell_setCell_of_ne m _ (Ne.symm hk)]
  | setBucket key bucket =>
    have hallows : ((m.setCell key { m.cell key with bucket := bucket }).cell k).allows =
        (m.cell k).allows := by
      by_cases hk : k = key
      · subst hk
        simp [Cell.allows]
      · rw [Maps.cell_setCell_of_ne m _ hk]
    simp [handle, Opens, Closes, hallows]
  | setPolicy policy =>
    have hcell : (handle nt (.setPolicy policy) m).2.cell k = m.cell k := by cases k <;> rfl
    simp [hcell, Opens, Closes]

/-- A flow that starts closed is open after a run exactly if the run opened it
and has not closed it since. -/
theorem allows_iff_opened (nt : NetworkTypes) {k : FlowKey} {m : Maps} (es : List Event)
    (hm : (m.cell k).allows = false) :
    ((run (handle nt) m es).cell k).allows = true ↔ Opened nt k m es :=
  latch_iff_of_not (b := fun s : Maps => (s.cell k).allows = true) (C := fun _ _ => True)
    (fun s e _ => allows_step nt k s e) (by simp [hm]) es
    (always_of_forall m es (fun _ _ => trivial))

/-! ## Segments -/

/-- What a connection sees of a TCP segment: its direction and its flags. -/
structure Segment where
  direction : TraficDirection
  fin : Bool
  syn : Bool
  rst : Bool
  ack : Bool
  deriving DecidableEq, Repr

/-- Where the parsing half of a family's arm looks for the transport header. -/
def transportOffset (nt : NetworkTypes) (k : FlowKey) (data : List UInt8) : Nat :=
  match k with
  | .v4 _ =>
    EthHdr.LEN + (nt.ipv4Ihl ((data.drop EthHdr.LEN).take Ipv4Hdr.LEN)).toNat
  | .v6 _ =>
    match nt.ipv6NextHdr ((data.drop EthHdr.LEN).take Ipv6Hdr.LEN) with
    | none => EthHdr.LEN + Ipv6Hdr.LEN
    | some protocolFirst =>
      match walkHeaders nt data 6 (EthHdr.LEN + Ipv6Hdr.LEN) protocolFirst with
      | .error _ => EthHdr.LEN + Ipv6Hdr.LEN
      | .ok walk => walk.currentOffset

/-- The flags of a TCP header. SYN and ACK, which the data plane never reads, are
bits 1 and 4 of its fourteenth byte. -/
def Segment.ofHeader (nt : NetworkTypes) (direction : TraficDirection) (tcphdr : List UInt8) :
    Segment where
  direction := direction
  fin := nt.tcpFin tcphdr != 0
  syn := tcphdr.getD 13 0 &&& 0x02 != 0
  rst := nt.tcpRst tcphdr != 0
  ack := tcphdr.getD 13 0 &&& 0x10 != 0

/-- The segment that an event brings to flow `k`. -/
def segmentOf (nt : NetworkTypes) (p : Policy) (k : FlowKey) : Event → Option Segment
  | .packet ctx =>
    (packetOf nt p k ctx).map (fun q => .ofHeader nt q.direction
      ((ctx.data.drop (transportOffset nt k ctx.data)).take TcpHdr.LEN))
  | _ => none

/-- The segments of flow `k` in a run, each seen under the policy of its time. -/
def segments (nt : NetworkTypes) (k : FlowKey) : Maps → List Event → List Segment
  | _, [] => []
  | m, e :: es => (segmentOf nt m.toPolicy k e).toList ++ segments nt k (handle nt e m).2 es

/-- Under a fixed policy the segments are those of the single events. -/
theorem segments_eq {nt : NetworkTypes} {k : FlowKey} {m : Maps} {es : List Event}
    (h : ∀ e ∈ es, e.KeepsPolicy) :
    segments nt k m es = es.filterMap (segmentOf nt m.toPolicy k) := by
  induction es generalizing m with
  | nil => rfl
  | cons e es ih =>
    rw [segments, ih (fun f hf => h f (by simp [hf])), handle_toPolicy nt e m (h e (by simp))]
    cases hs : segmentOf nt m.toPolicy k e with
    | none => simp [hs]
    | some s => simp [hs]

/-- The removal flag comes from a FIN or RST of the header at the offset. -/
theorem readPorts_remove {nt : NetworkTypes} {data : List UInt8} {offset : Nat}
    {isTcp isUdp : Bool} {r : UInt16 × UInt16 × Bool}
    (h : readPorts nt data offset isTcp isUdp = .ok r)
    (hfin : nt.tcpFin ((data.drop offset).take TcpHdr.LEN) = 0)
    (hrst : nt.tcpRst ((data.drop offset).take TcpHdr.LEN) = 0) : r.2.2 = false := by
  rcases readPorts_eq_ok_iff.mp h with
    ⟨-, tcphdr, hp, rfl⟩ | ⟨-, -, udphdr, -, rfl⟩ | ⟨-, -, rfl⟩
  · rw [(ptrAt_eq_some_iff.mp hp).2]
    simp [hfin, hrst]
  · rfl
  · rfl

/-- A segment that brings no FIN and no RST does not ask for removal. -/
theorem segmentOf_eq_some {nt : NetworkTypes} {p : Policy} {k : FlowKey} {ctx : XdpContext}
    {s : Segment} (h : segmentOf nt p k (.packet ctx) = some s) :
    ∃ q, inspect nt p ctx = .inr q ∧ q.key = k ∧ s.direction = q.direction ∧
      (s.fin = false → s.rst = false → q.remove = false) := by
  obtain ⟨q, hq, hs⟩ := Option.map_eq_some_iff.mp h
  obtain ⟨hi, hk⟩ := packetOf_eq_some_iff.mp hq
  refine ⟨q, hi, hk, by rw [← hs]; rfl, ?_⟩
  rw [← hs]
  intro hfin hrst
  simp only [Segment.ofHeader, bne_eq_false_iff_eq] at hfin hrst
  rcases inspect_inr hi with ⟨-, -, hv⟩ | ⟨-, hv⟩
  · obtain ⟨hd, hp, hqd⟩ := inspectV4_inr hv
    obtain ⟨ipv4hdr, protocol, ports, hptr, -, hports, hhd⟩ := parseIpv4_eq_ok_iff.mp hp
    subst hqd hk
    simp only [flowPacket, transportOffset, ← (ptrAt_eq_some_iff.mp hptr).2] at hfin hrst
    rw [hhd]
    exact readPorts_remove hports hfin hrst
  · obtain ⟨hd, hp, hqd⟩ := inspectV6_inr hv
    obtain ⟨ipv6hdr, src, dst, first, walk, ports, hptr, -, -, hfirst, hwalk, hports, hhd⟩ :=
      parseIpv6_eq_ok_iff.mp hp
    subst hqd hk
    simp only [flowPacket, transportOffset, ← (ptrAt_eq_some_iff.mp hptr).2, hfirst, hwalk]
      at hfin hrst
    rw [hhd]
    exact readPorts_remove hports hfin hrst

/-! ## Closed connections -/

def opposite : TraficDirection → TraficDirection
  | .incoming => .outgoing
  | .outgoing => .incoming

/-- Neither FIN nor RST. -/
def Segment.plain (s : Segment) : Bool := !s.fin && !s.rst

/-- A SYN of the inside host that may open a connection. -/
def Segment.opening (s : Segment) : Bool := s.direction = .outgoing && s.syn && s.plain

/-- A FIN of side `d`. -/
def Segment.finOf (d : TraficDirection) (s : Segment) : Bool := s.direction = d && s.fin

/-- A plain ACK by which the other side may answer a FIN of side `d`. -/
def Segment.acksFinOf (d : TraficDirection) (s : Segment) : Bool :=
  s.direction = opposite d && s.ack && !s.syn && s.plain

/-- Side `d` sends one FIN, and a later plain ACK of the other side answers it. -/
def FinAcked (d : TraficDirection) (segs : List Segment) : Prop :=
  segs.countP (Segment.finOf d) = 1 ∧
    ∃ s ∈ segs.dropWhile (fun s => !s.finOf d), s.acksFinOf d = true

instance (d : TraficDirection) (segs : List Segment) : Decidable (FinAcked d segs) :=
  inferInstanceAs (Decidable (_ ∧ _))

/-- The last segment completes the close by a FIN from each side. -/
def ClosedByFins (segs : List Segment) : Prop :=
  (∀ s ∈ segs, s.rst = false) ∧ FinAcked .incoming segs ∧ FinAcked .outgoing segs ∧
    ¬ (FinAcked .incoming segs.dropLast ∧ FinAcked .outgoing segs.dropLast)

instance (segs : List Segment) : Decidable (ClosedByFins segs) :=
  inferInstanceAs (Decidable (_ ∧ _))

/-- The last segment is the first RST, and side `d` sent it. -/
def ClosedByRst (d : TraficDirection) (segs : List Segment) : Prop :=
  ∃ before rst, segs = before ++ [rst] ∧ rst.direction = d ∧ rst.rst = true ∧
    ∀ s ∈ before, s.rst = false

/-- An inside host opens a connection of flow `k`, the last segment of `pre`
closes it, and the run goes on with `post`. -/
structure ClosedRun (nt : NetworkTypes) (k : FlowKey) (m : Maps) (pre post : List Event) :
    Prop where
  tcp : k.protocol = IpProto.Tcp.val
  fresh : (m.cell k).entry = none
  closed : ∃ before syn conn, segments nt k m pre = before ++ syn :: conn ∧ syn.opening = true ∧
    (ClosedByFins conn ∨
      ∃ d, ClosedByRst d conn ∧
        ∀ s ∈ segments nt k (run (handle nt) m pre) post, s.direction ≠ opposite d)
  noSyn : ∀ s ∈ segments nt k (run (handle nt) m pre) post,
    ¬ (s.direction = .outgoing ∧ s.syn = true)

/-- The packet brings an inbound segment without FIN and RST to flow `k`. -/
def Inbound (nt : NetworkTypes) (k : FlowKey) (m : Maps) (ctx : XdpContext) : Prop :=
  ∃ s, segmentOf nt m.toPolicy k (.packet ctx) = some s ∧ s.direction = .incoming ∧
    s.plain = true

/-- After `pre` the flow has no Allow entry, and its inbound segments in `post`
are denied. -/
def NoPinhole (nt : NetworkTypes) (k : FlowKey) (m : Maps) (pre post : List Event) : Prop :=
  ((run (handle nt) m pre).cell k).allows = false ∧
    ∀ during ctx rest, post = during ++ .packet ctx :: rest →
      Inbound nt k (run (handle nt) m (pre ++ during)) ctx →
      (xdpFirewall nt ctx (run (handle nt) m (pre ++ during))).1 = .error .deniedByPolicy

/-- No packet from the inside reopens the flow after the last FIN or RST: not
before the end of `pre`, and not before an inbound segment in `post` that the
subnet check lets through. -/
def StaysClosed (nt : NetworkTypes) (k : FlowKey) (m : Maps) (pre post : List Event) : Prop :=
  ¬ Opened nt k m pre ∧
    ∀ during ctx rest, post = during ++ .packet ctx :: rest →
      Inbound nt k (run (handle nt) m (pre ++ during)) ctx →
      (run (handle nt) m (pre ++ during)).admits k = true → ¬ Opened nt k m (pre ++ during)

/-- An inbound segment as the data plane sees it. -/
theorem Inbound.packet {nt : NetworkTypes} {k : FlowKey} {m : Maps} {ctx : XdpContext}
    (h : Inbound nt k m ctx) :
    ∃ q, inspect nt m.toPolicy ctx = .inr q ∧ q.key = k ∧ q.remove = false ∧
      q.direction = .incoming := by
  obtain ⟨s, hs, hdir, hplain⟩ := h
  obtain ⟨q, hi, hk, hq, hremove⟩ := segmentOf_eq_some hs
  simp only [Segment.plain, Bool.and_eq_true, Bool.not_eq_true'] at hplain
  exact ⟨q, hi, hk, hremove hplain.1 hplain.2, by rw [← hq, hdir]⟩

/-- An inbound segment is denied by the subnet check or for want of an Allow. -/
theorem inbound_denied_iff {nt : NetworkTypes} {k : FlowKey} {m : Maps} {ctx : XdpContext}
    (h : Inbound nt k m ctx) :
    (xdpFirewall nt ctx m).1 = .error .deniedByPolicy ↔
      (m.admits k = true → (m.cell k).allows = false) := by
  obtain ⟨q, hi, rfl, hr, hd⟩ := h.packet
  rw [xdpFirewall_inr hi, cellStep_denied_iff, ← inspect_admitted hi]
  simp [hr, hd]

theorem inbound_admitted_iff {nt : NetworkTypes} {k : FlowKey} {m : Maps} {ctx : XdpContext}
    (h : Inbound nt k m ctx) :
    Admitted (xdpFirewall nt ctx m).1 ↔ m.admits k = true ∧ (m.cell k).allows = true := by
  obtain ⟨q, hi, rfl, hr, hd⟩ := h.packet
  rw [xdpFirewall_inr hi, cellStep_admitted_iff, ← inspect_admitted hi]
  simp [hr, hd]

/-- A closed connection leaves no pinhole exactly when nothing reopens it. -/
theorem no_pinhole_iff (nt : NetworkTypes) (k : FlowKey) (m : Maps) (pre post : List Event)
    (h : ClosedRun nt k m pre post) :
    NoPinhole nt k m pre post ↔ StaysClosed nt k m pre post := by
  have hm : (m.cell k).allows = false := by simp [Cell.allows, h.fresh]
  have hopened : ∀ es, ((run (handle nt) m es).cell k).allows = false ↔ ¬ Opened nt k m es := by
    intro es
    rw [← allows_iff_opened nt es hm, Bool.not_eq_true]
  have hlater : ∀ during ctx, Inbound nt k (run (handle nt) m (pre ++ during)) ctx →
      ((xdpFirewall nt ctx (run (handle nt) m (pre ++ during))).1 = .error .deniedByPolicy ↔
        ((run (handle nt) m (pre ++ during)).admits k = true →
          ¬ Opened nt k m (pre ++ during))) := by
    intro during ctx hin
    rw [inbound_denied_iff hin, hopened]
  constructor
  · rintro ⟨hend, hdenied⟩
    refine ⟨(hopened pre).mp hend, ?_⟩
    intro during ctx rest hpost hin
    exact (hlater during ctx hin).mp (hdenied during ctx rest hpost hin)
  · rintro ⟨hend, hclosed⟩
    refine ⟨(hopened pre).mpr hend, ?_⟩
    intro during ctx rest hpost hin
    exact (hlater during ctx hin).mpr (hclosed during ctx rest hpost hin)

/-- A segment of the connection 10.0.0.1:44 to 203.0.113.9:80. -/
def segmentOut (flags : UInt8) : XdpContext :=
  ⟨ipv4Frame 6 insideHost outsideHost (tcpHeader 44 80 flags), 3, 1, 1⟩

def segmentIn (flags : UInt8) : XdpContext :=
  ⟨ipv4Frame 6 outsideHost insideHost (tcpHeader 80 44 flags), 2, 1, 1⟩

def connection : FlowKey := .v4 (.new 0x0A000001 0xCB007109 44 80 6)

/-- The outside closes first. -/
def closedFromOutside : List XdpContext :=
  [segmentOut 0x02, segmentIn 0x12, segmentOut 0x10,
    segmentIn 0x11, segmentOut 0x10, segmentOut 0x11, segmentIn 0x10]

/-- The inside closes first. -/
def closedFromInside : List XdpContext :=
  [segmentOut 0x02, segmentIn 0x12, segmentOut 0x10,
    segmentOut 0x11, segmentIn 0x10, segmentIn 0x11, segmentOut 0x10]

def syn : Segment := ⟨.outgoing, false, true, false, false⟩
def synAck : Segment := ⟨.incoming, false, true, false, true⟩
def plainAck (d : TraficDirection) : Segment := ⟨d, false, false, false, true⟩
def finAck (d : TraficDirection) : Segment := ⟨d, true, false, false, true⟩

theorem closedFromOutside_run :
    ClosedRun rfcTypes connection (freshMaps openConfig) (closedFromOutside.map .packet)
      ([segmentIn 0x10].map .packet) where
  tcp := rfl
  fresh := rfl
  closed := by
    refine ⟨[], syn, [synAck, plainAck .outgoing, finAck .incoming, plainAck .outgoing,
      finAck .outgoing, plainAck .incoming], ?_, ?_, .inl ?_⟩
    · rw [segments_eq (keepsPolicy_packets _)]
      decide
    · decide
    · decide
  noSyn := by
    rw [segments_eq (keepsPolicy_packets _),
      run_toPolicy _ _ _ (keepsPolicy_packets closedFromOutside)]
    decide

theorem closedFromInside_run :
    ClosedRun rfcTypes connection (freshMaps openConfig) (closedFromInside.map .packet) [] where
  tcp := rfl
  fresh := rfl
  closed := by
    refine ⟨[], syn, [synAck, plainAck .outgoing, finAck .outgoing, plainAck .incoming,
      finAck .incoming, plainAck .outgoing], ?_, ?_, .inl ?_⟩
    · rw [segments_eq (keepsPolicy_packets _)]
      decide
    · decide
    · decide
  noSyn := by simp [segments]

/-- With the inside host's FIN last, the connection is gone and a late segment
of the outside is denied. -/
theorem no_pinhole_closed_from_outside :
    NoPinhole rfcTypes connection (freshMaps openConfig) (closedFromOutside.map .packet)
      ([segmentIn 0x10].map .packet) := by
  have hclosed : ¬ Opened rfcTypes connection (freshMaps openConfig)
      (closedFromOutside.map .packet) := by
    rw [← allows_iff_opened rfcTypes _ (by decide), run_packets_cell]
    decide
  refine (no_pinhole_iff rfcTypes connection (freshMaps openConfig) _ _
    closedFromOutside_run).mpr ⟨hclosed, ?_⟩
  intro during ctx rest hpost hin hadmits
  cases during with
  | nil => rwa [List.append_nil]
  | cons e during =>
    have hlen := congrArg List.length hpost
    simp at hlen

/-- With the outside host's FIN last, the acknowledgement by the inside opens
the flow again. -/
theorem pinhole_closed_from_inside :
    ClosedRun rfcTypes connection (freshMaps openConfig) (closedFromInside.map .packet) [] ∧
      ¬ NoPinhole rfcTypes connection (freshMaps openConfig) (closedFromInside.map .packet)
        [] := by
  refine ⟨closedFromInside_run, ?_⟩
  rintro ⟨hend, -⟩
  rw [run_packets_cell] at hend
  exact absurd hend (by decide)

/-! ## Half-closed connections -/

/-- A SYN of the inside host is forwarded. -/
def ForwardedSyn (nt : NetworkTypes) (k : FlowKey) (m : Maps) (ctx : XdpContext) : Prop :=
  (∃ s, segmentOf nt m.toPolicy k (.packet ctx) = some s ∧ s.opening = true) ∧
    forwarded (xdpFirewall nt ctx m).1 = true

/-- Connections survive the FIN of one side: after a forwarded SYN and a run of
packets without RST and with the FINs of at most one side, inbound segments are
admitted. -/
def KeepsHalfClosed (nt : NetworkTypes) (k : FlowKey) : Prop :=
  ∀ m syn frames ctx, ForwardedSyn nt k m syn → m.admits k = true →
    (∀ s ∈ segments nt k m ((syn :: frames).map .packet), s.rst = false) →
    (∃ d, ∀ s ∈ segments nt k m ((syn :: frames).map .packet), s.finOf d = false) →
    Inbound nt k (run (handle nt) m ((syn :: frames).map .packet)) ctx →
    Admitted (xdpFirewall nt ctx (run (handle nt) m ((syn :: frames).map .packet))).1

theorem opens_of_forwardedSyn {nt : NetworkTypes} {k : FlowKey} {m : Maps} {ctx : XdpContext}
    (h : ForwardedSyn nt k m ctx) :
    m.admits k = true ∧ ((m.cell k).denies = false → Opens nt k m (.packet ctx)) := by
  obtain ⟨⟨s, hs, hopening⟩, hf⟩ := h
  obtain ⟨q, hi, rfl, hq, hremove⟩ := segmentOf_eq_some hs
  simp only [Segment.opening, Segment.plain, Bool.and_eq_true, decide_eq_true_eq,
    Bool.not_eq_true'] at hopening
  obtain ⟨⟨hdir, -⟩, hfin, hrst⟩ := hopening
  rw [xdpFirewall_inr hi, cellStep_forwarded_iff] at hf
  refine ⟨by rw [← inspect_admitted hi, hf.1], fun hdeny => ?_⟩
  exact ⟨q, hi, rfl, hf.1, hremove hfin hrst, by rw [← hq, hdir], hdeny⟩

/-- After a forwarded SYN, whatever the flow was before, it is open exactly if
it has been opened and not closed since. -/
theorem allows_iff_opened_of_syn {nt : NetworkTypes} {k : FlowKey} {m : Maps}
    {syn : XdpContext} (h : ForwardedSyn nt k m syn) (es : List Event) :
    ((run (handle nt) m (.packet syn :: es)).cell k).allows = true ↔
      Opened nt k m (.packet syn :: es) := by
  rw [latch_iff (b := fun s : Maps => (s.cell k).allows = true) (C := fun _ _ => True)
    (fun s e _ => allows_step nt k s e) m _ (always_of_forall m _ (fun _ _ => trivial))]
  refine ⟨?_, .inl⟩
  rintro (hopened | ⟨hm, halways⟩)
  · exact hopened
  · have hdeny : (m.cell k).denies = false := by
      by_contra hd
      simp [Cell.denies_not_allows (by simpa using hd)] at hm
    exact ⟨[], .packet syn, es, rfl, (opens_of_forwardedSyn h).2 hdeny, halways.2⟩

/-- An inbound segment of a connection whose SYN was forwarded is admitted
exactly if the inside has sent a segment that met no Deny since the last FIN or
RST of either side; otherwise it is denied. -/
theorem established_iff (nt : NetworkTypes) (k : FlowKey) (m : Maps) (syn : XdpContext)
    (frames : List XdpContext) (ctx : XdpContext) (hsyn : ForwardedSyn nt k m syn)
    (hin : Inbound nt k (run (handle nt) m ((syn :: frames).map .packet)) ctx) :
    (Admitted (xdpFirewall nt ctx (run (handle nt) m ((syn :: frames).map .packet))).1 ↔
      Opened nt k m ((syn :: frames).map .packet)) ∧
    ((xdpFirewall nt ctx (run (handle nt) m ((syn :: frames).map .packet))).1 =
        .error .deniedByPolicy ↔
      ¬ Opened nt k m ((syn :: frames).map .packet)) := by
  generalize hm' : run (handle nt) m ((syn :: frames).map .packet) = m' at hin
  have hallows : (m'.cell k).allows = true ↔ Opened nt k m ((syn :: frames).map .packet) := by
    rw [← hm']
    exact allows_iff_opened_of_syn hsyn (frames.map .packet)
  have hadmits : m'.admits k = true := by
    rw [← hm', run_toPolicy nt m _ (keepsPolicy_packets (syn :: frames))]
    exact (opens_of_forwardedSyn hsyn).1
  rw [← hallows, inbound_admitted_iff hin, inbound_denied_iff hin]
  simp [hadmits]

/-- As long as neither side has sent a FIN or RST, a connection that was not
denied at its SYN admits inbound segments. -/
theorem opened_until_fin {nt : NetworkTypes} {k : FlowKey} {m : Maps} {syn : XdpContext}
    {frames : List XdpContext} (hsyn : ForwardedSyn nt k m syn)
    (hdeny : (m.cell k).denies = false)
    (hes : ∀ ctx ∈ frames, ∀ q, inspect nt m.toPolicy ctx = .inr q → q.key = k →
      q.remove = false) :
    Opened nt k m ((syn :: frames).map .packet) := by
  refine ⟨[], .packet syn, frames.map .packet, rfl, (opens_of_forwardedSyn hsyn).2 hdeny, ?_⟩
  rw [always_iff]
  rintro pre e post hcut
  obtain ⟨frames₁, rest, rfl, hpre, hrest⟩ := List.map_eq_append_iff.mp hcut
  obtain ⟨ctx, frames₂, rfl, rfl, -⟩ := List.map_eq_cons_iff.mp hrest
  rintro ⟨q, hi, hk, -, hr⟩
  rw [← run_append, ← hpre, run_toPolicy _ _ _
    (by simpa using keepsPolicy_packets (syn :: frames₁))] at hi
  simp [hes ctx (by simp) q hi hk] at hr

theorem segmentOut_forwarded :
    ForwardedSyn rfcTypes connection (freshMaps openConfig) (segmentOut 0x02) :=
  ⟨⟨syn, by decide, rfl⟩, by decide⟩

theorem segmentIn_inbound (frames : List XdpContext) :
    Inbound rfcTypes connection (run (handle rfcTypes) (freshMaps openConfig)
      (frames.map .packet)) (segmentIn 0x10) := by
  refine ⟨plainAck .incoming, ?_, rfl, rfl⟩
  rw [run_toPolicy _ _ _ (keepsPolicy_packets frames)]
  decide

/-- The handshake, and a segment of the outside. -/
theorem established_handshake :
    Admitted (xdpFirewall rfcTypes (segmentIn 0x10) (run (handle rfcTypes)
      (freshMaps openConfig)
      ([segmentOut 0x02, segmentIn 0x12, segmentOut 0x10].map .packet))).1 := by
  refine (established_iff rfcTypes connection (freshMaps openConfig) (segmentOut 0x02)
    [segmentIn 0x12, segmentOut 0x10] (segmentIn 0x10) segmentOut_forwarded
    (segmentIn_inbound [segmentOut 0x02, segmentIn 0x12, segmentOut 0x10])).1.mpr ?_
  refine opened_until_fin segmentOut_forwarded (by decide) fun ctx hctx q hi _ => ?_
  simp only [List.mem_cons, List.not_mem_nil, or_false] at hctx
  rcases hctx with rfl | rfl
  · exact keeps_flow (by decide) hi
  · exact keeps_flow (by decide) hi

/-- The rest of a connection up to the FIN of the inside host. -/
def halfClosed : List XdpContext := [segmentIn 0x12, segmentOut 0x10, segmentOut 0x11]

/-- The outside is still open, but its acknowledgement of the FIN is denied. -/
theorem half_closed_denied : ¬ KeepsHalfClosed rfcTypes connection := by
  intro h
  have hin := segmentIn_inbound (segmentOut 0x02 :: halfClosed)
  have hadm := h (freshMaps openConfig) (segmentOut 0x02) halfClosed (segmentIn 0x10)
    segmentOut_forwarded (by decide)
    (by rw [segments_eq (keepsPolicy_packets _)]; decide)
    ⟨.incoming, by rw [segments_eq (keepsPolicy_packets _)]; decide⟩ hin
  refine admitted_not_denied hadm ((inbound_denied_iff hin).mpr fun _ => ?_)
  rw [run_packets_cell]
  decide

end Oxidrop.Teardown
