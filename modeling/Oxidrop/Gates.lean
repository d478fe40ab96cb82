import Oxidrop.Flow

/-!
# The gates before the flow table

A frame first meets the EtherType gate and then, if it is an IP frame and the
subnet check is on, the subnet gate. The subnet gate holds at every exit of the
data plane. The EtherType gate has two holes, the variants without a flag and
the IPv6 arm without a guard; `gate_holds_iff` says what passes through them.
-/
namespace Oxidrop.Gates

/-- The frame gets an error and leaves no trace. -/
def Refused (nt : NetworkTypes) (m : Maps) (ctx : XdpContext) : Prop :=
  ∃ e, xdpFirewall nt ctx m = (.error e, m)

/-! ## The subnet gate -/

/-- The longest rule that covers the external address of the frame exists and carries Allow.
The external address is the source of what comes in, and the destination of what goes out. -/
def ExternalAllowed (nt : NetworkTypes) (m : Maps) (ctx : XdpContext) : Prop :=
  (frameType nt ctx = some .ipv4 ∧ ∃ h, parseIpv4 nt ctx.data = .ok h ∧
    PrefixMap.Longest m.subnetMatchingV4
      (addressBits
        (if m.direction ctx = .incoming then h.sourceOctets else h.destOctets).toList) 32 .allow) ∨
  (frameType nt ctx = some .ipv6 ∧ ∃ h, parseIpv6 nt ctx.data = .ok h ∧
    PrefixMap.Longest m.subnetMatchingV6
      (addressBits
        (if m.direction ctx = .incoming then h.sourceOctets else h.destOctets).toList) 128 .allow)

theorem externalOctets_eq {n : Nat} {α : Type} (direction : TraficDirection) (h : Headers n α) :
    h.externalOctets direction =
      if direction = .incoming then h.sourceOctets else h.destOctets := by
  cases direction <;> rfl

/-- A lookup of full length is the longest match. -/
theorem get_eq_some_iff (t : LpmTrie Action) (n : UInt32) (bytes : List UInt8) (action : Action) :
    t.get ⟨n, bytes⟩ = some action ↔
      PrefixMap.Longest t (addressBits bytes) n.toNat action :=
  PrefixMap.lookup_eq_some_iff t (addressBits bytes) n.toNat action

theorem admitted_iff {config : FirewallConfig} {ctx : XdpContext} {direction : TraficDirection}
    {subnet : Option Action} {key : FlowKey} {protocol : IpProto} {remove : Bool}
    (hs : config.subnetActivated = true) :
    (flowPacket config ctx direction subnet key protocol remove).admitted = true ↔
      subnet = some .allow := by
  simp [flowPacket, subnetAdmits, hs]

/-- With the subnet check on, a packet is let through to its flow exactly when
its external address is allowed. -/
theorem admitted_iff_external {nt : NetworkTypes} {m : Maps} {ctx : XdpContext} {q : FlowPacket}
    (hs : m.configuration.subnetActivated = true) (hi : inspect nt m.toPolicy ctx = .inr q) :
    q.admitted = true ↔ ExternalAllowed nt m ctx := by
  rcases inspect_inr hi with ⟨ht, -, hv⟩ | ⟨ht, hv⟩
  · obtain ⟨h, hp, rfl⟩ := inspectV4_inr hv
    rw [admitted_iff hs, get_eq_some_iff, externalOctets_eq]
    simp only [ExternalAllowed, ht, hp]
    simp
  · obtain ⟨h, hp, rfl⟩ := inspectV6_inr hv
    rw [admitted_iff hs, get_eq_some_iff, externalOctets_eq]
    simp only [ExternalAllowed, ht, hp]
    simp

/-- With the subnet check on, a frame that is forwarded has an allowed external
address, and a frame without one is refused and changes nothing. -/
theorem subnet_dominates (nt : NetworkTypes) (m : Maps) (ctx : XdpContext)
    (hs : m.configuration.subnetActivated = true) (hip : IsIp nt ctx) :
    (forwarded (xdpFirewall nt ctx m).1 = true → ExternalAllowed nt m ctx) ∧
      (¬ ExternalAllowed nt m ctx → Refused nt m ctx) := by
  cases hi : inspect nt m.toPolicy ctx with
  | inl verdict =>
    obtain ⟨e, rfl⟩ := inspect_inl hip hi
    refine ⟨fun hf => ?_, fun _ => ⟨e, xdpFirewall_inl hi⟩⟩
    simp [xdpFirewall_inl hi] at hf
  | inr q =>
    have hadm := admitted_iff_external hs hi
    constructor
    · intro hf
      rw [xdpFirewall_inr hi, cellStep_forwarded_iff] at hf
      exact hadm.mp hf.1
    · intro hn
      have ha : q.admitted = false := by simpa using mt hadm.mp hn
      refine ⟨.deniedByPolicy, ?_⟩
      rw [xdpFirewall_inr hi, cellStep_not_admitted _ ha, Maps.setCell_cell]

/-- `openConfig` with the subnet check on. -/
def subnetConfig : FirewallConfig := { openConfig with subnetActivated := true }

/-- 203.0.0.0/8 is allowed, in it 203.0.113.0/24 is denied, and in that one host is allowed. -/
def nestedMaps : Maps :=
  { freshMaps subnetConfig with
    subnetMatchingV4 := .ofRows (fun rule : Key × Action => rule.1.cut) Prod.snd
      [(⟨8, [203, 0, 0, 0]⟩, .allow), (⟨24, [203, 0, 113, 0]⟩, .deny),
        (⟨32, outsideHost⟩, .allow)] (by decide) }

/-- A request to another host of the denied network. -/
def udpDenied : XdpContext :=
  ⟨ipv4Frame 17 insideHost [203, 0, 113, 8] [0, 53, 0, 80, 0, 0, 0, 0], 3, 1, 1⟩

/-- Each of the two requests meets its longest rule. -/
theorem subnet_dominates_requests :
    ExternalAllowed rfcTypes nestedMaps udpRequest ∧ Refused rfcTypes nestedMaps udpDenied := by
  refine ⟨(subnet_dominates rfcTypes nestedMaps udpRequest rfl (.inl (by decide))).1 (by decide),
    (subnet_dominates rfcTypes nestedMaps udpDenied rfl (.inl (by decide))).2 ?_⟩
  rintro (⟨-, h, hparse, hlongest⟩ | ⟨htype, -⟩)
  · have hheaders : (parseIpv4 rfcTypes udpDenied.data).map (fun h => h.destOctets.toList) =
        .ok [203, 0, 113, 8] := by decide
    rw [hparse] at hheaders
    have hdest : h.destOctets.toList = [203, 0, 113, 8] := Except.ok.inj hheaders
    have hout : ¬ nestedMaps.direction udpDenied = .incoming := by decide
    rw [if_neg hout, hdest] at hlongest
    have hget := (get_eq_some_iff nestedMaps.subnetMatchingV4 32 _ _).mpr hlongest
    exact absurd hget (by decide)
  · exact absurd htype (by decide)

/-! ## The EtherType gate -/

/-- The configuration sets the flag of the EtherType, and there is one. -/
def Enabled (config : FirewallConfig) (t : EtherType) : Prop :=
  t.toActivaterEtherTypes ≠ .empty ∧
    config.protocolAllowed.contains t.toActivaterEtherTypes = true

/-- What the gate is for: unless the frame is of an enabled type or ARP, it is
refused. -/
def GateHolds (nt : NetworkTypes) (m : Maps) (ctx : XdpContext) : Prop :=
  (∀ t, frameType nt ctx = some t → t ≠ .arp ∧ ¬ Enabled m.configuration t) → Refused nt m ctx

/-- The packet runs dry at the very instant of the last packet of its flow, so
that not even a time stamp moves. -/
def Drained (config : FirewallConfig) (q : FlowPacket) (c : Cell) : Prop :=
  config.ddosActivated = true ∧ (∃ state, c.entry = some state ∧ state.lastSeen = q.ktimeFlow) ∧
    ∃ b, c.bucket = some b ∧ b.tokens = 0 ∧
      saturatingSub q.ktimeBucket b.lastUpdate >>> q.profile.rateShift = 0

/-- The packet is refused by its flow without a trace. -/
def Quiet (config : FirewallConfig) (q : FlowPacket) (c : Cell) : Prop :=
  q.admitted = false ∨
    (q.remove = false ∧ ((q.direction = .incoming ∧ c.allows = false) ∨ Drained config q c))

theorem evaluateBucket_quiet_iff (b : TokenBucketState) (profile : RateProfile) (now : UInt64) :
    (∃ e, evaluateBucket b profile now = (.error e, b)) ↔
      b.tokens = 0 ∧ saturatingSub now b.lastUpdate >>> profile.rateShift = 0 := by
  have hnow : 0 < saturatingSub now b.lastUpdate >>> profile.rateShift → b.lastUpdate ≠ now := by
    intro hg he
    rw [he] at hg
    simp [saturatingSub] at hg
  constructor
  · rintro ⟨e, he⟩
    unfold evaluateBucket at he
    by_cases hg : 0 < saturatingSub now b.lastUpdate >>> profile.rateShift
    · simp only [hg, if_true] at he
      split at he
      · cases he
      · have := congrArg (fun r => r.2.lastUpdate) he
        exact absurd this.symm (hnow hg)
    · simp only [hg, if_false] at he
      split at he
      · cases he
      · rename_i ht
        rw [UInt64.pos_iff_ne_zero, not_not] at hg ht
        exact ⟨ht, hg⟩
  · rintro ⟨ht, hg⟩
    exact ⟨.rateLimited, by simp [evaluateBucket, ht, hg]⟩

theorem bucketStep_quiet_iff (config : FirewallConfig) (q : FlowPacket)
    (b : Option TokenBucketState) :
    (∃ e, bucketStep config q b = (.error e, b)) ↔
      config.ddosActivated = true ∧ ∃ old, b = some old ∧ old.tokens = 0 ∧
        saturatingSub q.ktimeBucket old.lastUpdate >>> q.profile.rateShift = 0 := by
  unfold bucketStep
  cases config.ddosActivated with
  | false => simp
  | true =>
    cases b with
    | none =>
      cases hr : evaluateBucket (fetchBucket q none) q.profile q.ktimeBucket with
      | mk verdict b' => cases verdict <;> simp
    | some old =>
      have hquiet := evaluateBucket_quiet_iff old q.profile q.ktimeBucket
      have hfetch : fetchBucket q (some old) = old := rfl
      rw [hfetch]
      cases hr : evaluateBucket old q.profile q.ktimeBucket with
      | mk verdict b' =>
        rw [hr] at hquiet
        cases verdict with
        | ok action => simpa using hquiet
        | error e => simpa using hquiet

theorem cellStep_quiet_iff (config : FirewallConfig) (q : FlowPacket) (c : Cell) :
    (∃ e, cellStep config q c = (.error e, c)) ↔ Quiet config q c := by
  rcases cellStep_cases config q c with
    ⟨ha, hstep⟩ | ⟨ha, hr, hstep⟩ | ⟨ha, hr, hd, hc, hstep⟩ | ⟨ha, hr, hd, hstep⟩
  · simp [hstep, Quiet, ha]
  · simp [hstep, Quiet, ha, hr]
  · simp [hstep, Quiet, hr, hd, hc]
  · obtain ⟨entry, bucket⟩ := c
    have hquiet := bucketStep_quiet_iff config q bucket
    have hpass : ¬ (q.direction = .incoming ∧ (Cell.mk entry bucket).allows = false) := by
      rintro ⟨hin, hno⟩
      simp [hin, hno] at hd
    have hentry : some (refresh q.ktimeFlow entry) = entry ↔
        ∃ state, entry = some state ∧ state.lastSeen = q.ktimeFlow := by
      cases entry with
      | none => simp
      | some state =>
        obtain ⟨action, lastSeen⟩ := state
        simp [refresh, eq_comm]
    rw [hstep]
    simp only [Quiet, ha, hr, hpass, Drained, Prod.mk.injEq, Cell.mk.injEq, hentry]
    simp only [Bool.true_eq_false, false_or, true_and]
    constructor
    · rintro ⟨e, he, hstate, hb⟩
      obtain ⟨hddos, hold⟩ := hquiet.mp ⟨e, Prod.ext he hb⟩
      exact ⟨hddos, hstate, hold⟩
    · rintro ⟨hddos, hstate, hold⟩
      obtain ⟨e, he⟩ := hquiet.mpr ⟨hddos, hold⟩
      exact ⟨e, congrArg Prod.fst he, hstate, congrArg Prod.snd he⟩

theorem refused_inr_iff {nt : NetworkTypes} {m : Maps} {ctx : XdpContext} {q : FlowPacket}
    (hi : inspect nt m.toPolicy ctx = .inr q) :
    Refused nt m ctx ↔ Quiet m.configuration q (m.cell q.key) := by
  rw [← cellStep_quiet_iff]
  simp only [Refused, xdpFirewall_inr hi, Prod.mk.injEq]
  constructor
  · rintro ⟨e, he, hm⟩
    have hcell := congrArg (fun s => Maps.cell s q.key) hm
    simp only [Maps.cell_setCell_self] at hcell
    exact ⟨e, Prod.ext he hcell⟩
  · rintro ⟨e, he⟩
    rw [he]
    exact ⟨e, rfl, Maps.setCell_cell m q.key⟩

theorem refused_inl {nt : NetworkTypes} {m : Maps} {ctx : XdpContext} {e : FirewallError}
    (hi : inspect nt m.toPolicy ctx = .inl (.error e)) : Refused nt m ctx :=
  ⟨e, xdpFirewall_inl hi⟩

/-- The arms after ARP refuse a type exactly when it is not contained in the
flag set, which a type without a flag always is. -/
theorem refused_otherArm_iff {nt : NetworkTypes} {m : Maps} {ctx : XdpContext} {x : EtherType}
    (hi : inspect nt m.toPolicy ctx = .inl (otherArm m.configuration x))
    (hn : ¬ Enabled m.configuration x) :
    Refused nt m ctx ↔ x.toActivaterEtherTypes ≠ .empty := by
  simp only [Refused, xdpFirewall_inl hi, otherArm]
  by_cases hf : x.toActivaterEtherTypes = .empty
  · simp [hf]
  · have hc : m.configuration.protocolAllowed.contains x.toActivaterEtherTypes = false := by
      simpa [Enabled, hf] using hn
    simp [hf, hc]

theorem refused_ipv6_iff {nt : NetworkTypes} {m : Maps} {ctx : XdpContext}
    (ht : frameType nt ctx = some .ipv6) :
    Refused nt m ctx ↔ ∀ q, inspectV6 nt m.toPolicy ctx = .inr q →
      Quiet m.configuration q (m.cell q.key) := by
  have hi := inspect_of_type (p := m.toPolicy) ht
  cases hv : inspectV6 nt m.toPolicy ctx with
  | inl verdict =>
    obtain ⟨e, rfl⟩ := inspectV6_inl hv
    simp [refused_inl (hi.trans hv)]
  | inr q =>
    rw [refused_inr_iff (hi.trans hv)]
    simp

/-- The gate holds for a frame exactly when, whenever its type is not enabled,
the type has a flag, and an IPv6 frame is refused for another reason. -/
theorem gate_holds_iff (nt : NetworkTypes) (m : Maps) (ctx : XdpContext) :
    GateHolds nt m ctx ↔
      ∀ t, frameType nt ctx = some t → t ≠ .arp → ¬ Enabled m.configuration t →
        t.toActivaterEtherTypes ≠ .empty ∧
          (t = .ipv6 → ∀ q, inspectV6 nt m.toPolicy ctx = .inr q →
            Quiet m.configuration q (m.cell q.key)) := by
  cases ht : frameType nt ctx with
  | none =>
    obtain ⟨e, he⟩ := inspect_of_no_type (p := m.toPolicy) ht
    simp [GateHolds, refused_inl he]
  | some t =>
    have hgate : GateHolds nt m ctx ↔
        (t ≠ .arp → ¬ Enabled m.configuration t → Refused nt m ctx) := by
      simp [GateHolds, ht]
    have hi := inspect_of_type (p := m.toPolicy) ht
    rw [hgate]
    simp only [Option.some.injEq, forall_eq']
    refine forall_congr' fun harp => forall_congr' fun hn => ?_
    cases t with
    | ipv4 =>
      have hc : m.configuration.protocolAllowed.contains .IPV4 = false := by
        simpa [Enabled, EtherType.toActivaterEtherTypes, ActivaterEtherTypes.IPV4,
          ActivaterEtherTypes.empty] using hn
      have hrefused : Refused nt m ctx := refused_inl (e := .unsupportedProtocol) (by simp [hi, hc])
      simp [hrefused, EtherType.toActivaterEtherTypes, ActivaterEtherTypes.IPV4,
        ActivaterEtherTypes.empty]
    | ipv6 =>
      rw [refused_ipv6_iff ht]
      simp [EtherType.toActivaterEtherTypes, ActivaterEtherTypes.IPV6, ActivaterEtherTypes.empty]
    | arp => exact absurd rfl harp
    | _ =>
      rw [refused_otherArm_iff hi hn]
      simp

/-- An FCoE frame, of a type that the header library knows and the flag set
does not. -/
def fcoeFrame : XdpContext := ⟨List.replicate 12 0 ++ [0x89, 0x06, 0, 0], 2, 0, 0⟩

/-- `openConfig` with no protocol enabled. -/
def closedConfig : FirewallConfig := { openConfig with protocolAllowed := .empty }

/-- The FCoE frame passes a configuration that enables nothing. -/
theorem gate_fails : ¬ GateHolds rfcTypes (freshMaps closedConfig) fcoeFrame := by
  intro h
  have ht : frameType rfcTypes fcoeFrame = some (.other 0x8906) := by decide
  obtain ⟨e, he⟩ := h (fun t h' => by
    cases ht.symm.trans h'
    exact ⟨by decide, fun hen => hen.1 rfl⟩)
  have hf : forwarded (xdpFirewall rfcTypes fcoeFrame (freshMaps closedConfig)).1 = true := by
    decide
  rw [he] at hf
  cases hf

end Oxidrop.Gates
