import Oxidrop.Events

/-!
# Who may pass: unsolicited traffic and denied flows

Two properties of whole runs. Inbound traffic passes only as an answer, and a
Deny of the administrator stays in force. The data plane breaks both in known
places, and the two main theorems say where: a run has the property exactly
when each of its events meets a condition on the state before it.
-/
namespace Oxidrop.Admission

open Run

/-! ## Frames that answer each other -/

section Mirror

variable {n : Nat} {α κ : Type}

/-- The same connection, seen from the other end. -/
def Mirror (inc out : Headers n α) : Prop :=
  out.sourceOctets = inc.destOctets ∧ out.destOctets = inc.sourceOctets ∧
    out.sourcePort = inc.destPort ∧ out.destPort = inc.sourcePort ∧ out.protocol = inc.protocol

/-- The key constructor forgets none of its arguments. -/
def KeyInjective (new : α → α → UInt16 → UInt16 → UInt8 → κ) : Prop :=
  ∀ s d s' d' sp dp sp' dp' pr pr', new s d sp dp pr = new s' d' sp' dp' pr' →
    s = s' ∧ d = d' ∧ sp = sp' ∧ dp = dp' ∧ pr = pr'

theorem ipv4Packet_injective : KeyInjective Ipv4Packet.new := by
  intro s d s' d' sp dp sp' dp' pr pr' h
  simpa [Ipv4Packet.new] using h

theorem ipv6Packet_injective : KeyInjective Ipv6Packet.new := by
  intro s d s' d' sp dp sp' dp' pr pr' h
  simpa [Ipv6Packet.new] using h

/-- An incoming and an outgoing packet of one flow key mirror each other. -/
theorem mirror_of_flowKey {new : α → α → UInt16 → UInt16 → UInt8 → κ} {bytes : α → List UInt8}
    {inc out : Headers n α} (hnew : KeyInjective new) (hi : inc.Agree bytes)
    (ho : out.Agree bytes) (h : inc.flowKey new .incoming = out.flowKey new .outgoing) :
    Mirror inc out := by
  obtain ⟨hs, hd, hsp, hdp, hpr⟩ := hnew _ _ _ _ _ _ _ _ _ _ h
  refine ⟨?_, ?_, hsp.symm, hdp.symm, ?_⟩
  · apply Vector.toList_inj.mp
    rw [← ho.1, ← hi.2, hs]
  · apply Vector.toList_inj.mp
    rw [← ho.2, ← hi.1, hd]
  · cases hout : out.protocol
    cases hinc : inc.protocol
    rw [hout, hinc] at hpr
    exact congrArg IpProto.mk hpr.symm

end Mirror

/-- The two frames are of one address family and their headers mirror each
other. -/
def Mirrored (nt : NetworkTypes) (inc out : XdpContext) : Prop :=
  (frameType nt inc = some .ipv4 ∧ frameType nt out = some .ipv4 ∧
    ∃ h h', parseIpv4 nt inc.data = .ok h ∧ parseIpv4 nt out.data = .ok h' ∧ Mirror h h') ∨
  (frameType nt inc = some .ipv6 ∧ frameType nt out = some .ipv6 ∧
    ∃ h h', parseIpv6 nt inc.data = .ok h ∧ parseIpv6 nt out.data = .ok h' ∧ Mirror h h')

theorem mirrored_of_key {nt : NetworkTypes} {p : Policy} {inc out : XdpContext} {k : FlowKey}
    (hi : flowKeyOf nt p inc = some k) (hid : p.direction inc = .incoming)
    (ho : flowKeyOf nt p out = some k) (hod : p.direction out = .outgoing) :
    Mirrored nt inc out := by
  obtain ⟨q, hq, hqk⟩ := flowKeyOf_eq_some hi
  obtain ⟨q', hq', hqk'⟩ := flowKeyOf_eq_some ho
  rcases inspect_inr hq with ⟨ht, -, hv⟩ | ⟨ht, hv⟩ <;>
    rcases inspect_inr hq' with ⟨ht', -, hv'⟩ | ⟨ht', hv'⟩
  · obtain ⟨h, hp, rfl⟩ := inspectV4_inr hv
    obtain ⟨h', hp', rfl⟩ := inspectV4_inr hv'
    rw [hid] at hqk
    rw [hod, ← hqk] at hqk'
    have hkey : h.flowKey Ipv4Packet.new .incoming = h'.flowKey Ipv4Packet.new .outgoing :=
      FlowKey.v4.inj hqk'.symm
    exact .inl ⟨ht, ht', h, h', hp, hp',
      mirror_of_flowKey ipv4Packet_injective (parseIpv4_agree hp) (parseIpv4_agree hp') hkey⟩
  · obtain ⟨h, hp, rfl⟩ := inspectV4_inr hv
    obtain ⟨h', hp', rfl⟩ := inspectV6_inr hv'
    simp [flowPacket, ← hqk] at hqk'
  · obtain ⟨h, hp, rfl⟩ := inspectV6_inr hv
    obtain ⟨h', hp', rfl⟩ := inspectV4_inr hv'
    simp [flowPacket, ← hqk] at hqk'
  · obtain ⟨h, hp, rfl⟩ := inspectV6_inr hv
    obtain ⟨h', hp', rfl⟩ := inspectV6_inr hv'
    rw [hid] at hqk
    rw [hod, ← hqk] at hqk'
    have hkey : h.flowKey Ipv6Packet.new .incoming = h'.flowKey Ipv6Packet.new .outgoing :=
      FlowKey.v6.inj hqk'.symm
    exact .inr ⟨ht, ht', h, h', hp, hp',
      mirror_of_flowKey ipv6Packet_injective (parseIpv6_agree hp) (parseIpv6_agree hp') hkey⟩

/-! ## Unsolicited traffic -/

/-- The event inserts no flow-table entry from outside the data plane and leaves
the read-only maps alone. -/
def Passive : Event → Prop
  | .setEntry _ (some _) => False
  | .setPolicy _ => False
  | _ => True

theorem Passive.keepsPolicy {e : Event} (h : Passive e) : e.KeepsPolicy := by
  cases e with
  | setPolicy policy => exact h.elim
  | _ => trivial

/-- An inbound IP packet that is forwarded answers an earlier outbound packet,
and none is forwarded whose flow is not in the table as Allow. -/
def NoUnsolicited (nt : NetworkTypes) (m : Maps) (es : List Event) : Prop :=
  ∀ pre ctx post, es = pre ++ .packet ctx :: post → IsIp nt ctx → m.direction ctx = .incoming →
    (forwarded (xdpFirewall nt ctx (run (handle nt) m pre)).1 = true →
      ∃ ctx', .packet ctx' ∈ pre ∧ m.direction ctx' = .outgoing ∧ Mirrored nt ctx ctx') ∧
    (∀ k, flowKeyOf nt m.toPolicy ctx = some k →
      ((run (handle nt) m pre).cell k).allows = false →
      forwarded (xdpFirewall nt ctx (run (handle nt) m pre)).1 = false)

/-- An inbound FIN or RST that the subnet check lets through finds its flow in
the table as Allow. -/
def TeardownKnown (nt : NetworkTypes) (m : Maps) (e : Event) : Prop :=
  ∀ ctx q, e = .packet ctx → inspect nt m.toPolicy ctx = .inr q → q.direction = .incoming →
    q.admitted = true → q.remove = true → (m.cell q.key).allows = true

/-- Every flow that may pass was opened from the inside. -/
def Earned (nt : NetworkTypes) (p : Policy) (pre : List Event) (m : Maps) : Prop :=
  m.toPolicy = p ∧ ∀ k, (m.cell k).allows = true →
    ∃ ctx, .packet ctx ∈ pre ∧ p.direction ctx = .outgoing ∧ flowKeyOf nt p ctx = some k

theorem earned_step {nt : NetworkTypes} {p : Policy} {pre : List Event} {m : Maps} {e : Event}
    (h : Earned nt p pre m) (he : Passive e) :
    Earned nt p (pre ++ [e]) (handle nt e m).2 := by
  obtain ⟨hp, hearned⟩ := h
  refine ⟨by rw [handle_toPolicy nt e m he.keepsPolicy, hp], ?_⟩
  intro k hk
  have hold : (m.cell k).allows = true → ∃ ctx, .packet ctx ∈ pre ++ [e] ∧
      p.direction ctx = .outgoing ∧ flowKeyOf nt p ctx = some k := by
    intro hallow
    obtain ⟨ctx, hmem, hrest⟩ := hearned k hallow
    exact ⟨ctx, by simp [hmem], hrest⟩
  rcases handle_cell_cases nt e m k with
    ⟨ctx, q, rfl, hi, hq, hcell⟩ | ⟨now, ks, ks', rfl, -, -, hcell⟩ | ⟨entry, rfl, hcell⟩ |
    ⟨bucket, rfl, hcell⟩ | hcell
  · rw [hcell] at hk
    rcases cellStep_allows hk with hallow | hout
    · exact hold hallow
    · rw [hp] at hi
      refine ⟨ctx, by simp, ?_, by rw [flowKeyOf_of_inr hi, hq]⟩
      rw [← (inspect_fields hi).1, hout]
  · rw [hcell] at hk
    simp [Cell.allows] at hk
  · cases entry with
    | none =>
      rw [hcell] at hk
      simp [Cell.allows] at hk
    | some state => exact he.elim
  · rw [hcell] at hk
    exact hold hk
  · rw [hcell] at hk
    exact hold hk

theorem earned_run (nt : NetworkTypes) (m : Maps) (es : List Event)
    (hempty : ∀ k, (m.cell k).entry = none) (hes : ∀ e ∈ es, Passive e) :
    Earned nt m.toPolicy es (run (handle nt) m es) := by
  refine history (I := Earned nt m.toPolicy) (C := fun _ e => Passive e) ⟨rfl, ?_⟩ ?_ es
    (always_of_forall m es hes)
  · intro k hk
    simp [Cell.allows, hempty] at hk
  · intro pre t e h he
    exact earned_step h he

/-- An inbound IP packet passes only through a cell that allows it, unless it
asks for the removal of its flow. -/
theorem incoming_forwarded {nt : NetworkTypes} {ctx : XdpContext} {m : Maps} (hip : IsIp nt ctx)
    (hd : m.direction ctx = .incoming)
    (hf : forwarded (xdpFirewall nt ctx m).1 = true) :
    ∃ q, inspect nt m.toPolicy ctx = .inr q ∧ q.direction = .incoming ∧
      q.admitted = true ∧ (q.remove = true ∨ (m.cell q.key).allows = true) := by
  obtain ⟨q, hi⟩ := inspect_of_forwarded hip hf
  rw [xdpFirewall_inr hi, cellStep_forwarded_iff] at hf
  have hq : q.direction = .incoming := by rw [(inspect_fields hi).1, hd]
  refine ⟨q, hi, hq, hf.1, ?_⟩
  rcases hf.2 with hr | ⟨hc, -⟩
  · exact .inl hr
  · exact .inr (by simpa [hq] using hc)

/-- A run from an empty flow table forwards no unsolicited traffic, exactly
when every inbound FIN or RST finds its flow open. -/
theorem no_unsolicited_iff (nt : NetworkTypes) (m : Maps) (es : List Event)
    (hempty : ∀ k, (m.cell k).entry = none) (hes : ∀ e ∈ es, Passive e) :
    NoUnsolicited nt m es ↔ Always (handle nt) (TeardownKnown nt) m es := by
  rw [always_iff]
  have hpolicy : ∀ pre post, es = pre ++ post →
      Earned nt m.toPolicy pre (run (handle nt) m pre) := by
    intro pre post he
    exact earned_run nt m pre hempty (fun e hmem => hes e (by simp [he, hmem]))
  constructor
  · intro h pre e post he ctx q hctx hi hd ha hr
    subst hctx
    have hp := (hpolicy pre _ he).1
    rw [hp] at hi
    have hip : IsIp nt ctx := by
      rcases inspect_inr hi with ⟨ht, -⟩ | ⟨ht, -⟩
      · exact .inl ht
      · exact .inr ht
    have hdir : m.direction ctx = .incoming := by rw [← (inspect_fields hi).1, hd]
    by_contra hc
    have hnot := (h pre ctx post he hip hdir).2 q.key (flowKeyOf_of_inr hi) (by simpa using hc)
    rw [xdpFirewall_inr (by rw [hp, hi]), cellStep_remove _ ha hr] at hnot
    simp at hnot
  · intro h pre ctx post he hip hd
    have hearned := hpolicy pre _ he
    have hallow : forwarded (xdpFirewall nt ctx (run (handle nt) m pre)).1 = true →
        ∃ k, flowKeyOf nt m.toPolicy ctx = some k ∧
          ((run (handle nt) m pre).cell k).allows = true := by
      intro hf
      obtain ⟨q, hi, hq, ha, hc⟩ :=
        incoming_forwarded hip (by rw [hearned.1, hd]) hf
      refine ⟨q.key, by rw [← hearned.1, flowKeyOf_of_inr hi], ?_⟩
      rcases hc with hr | hc
      · exact h pre (.packet ctx) post he ctx q rfl hi hq ha hr
      · exact hc
    constructor
    · intro hf
      obtain ⟨k, hk, hc⟩ := hallow hf
      obtain ⟨ctx', hmem, hout, hk'⟩ := hearned.2 k hc
      exact ⟨ctx', hmem, hout, mirrored_of_key hk hd hk' hout⟩
    · intro k hk hc
      by_contra hf
      obtain ⟨j, hj, hallows⟩ := hallow (by simpa using hf)
      rw [hk] at hj
      cases hj
      simp [hc] at hallows

/-- A FIN from the outside for a connection that nobody opened. -/
def strayFin : XdpContext := ⟨ipv4Frame 6 outsideHost insideHost (tcpHeader 80 44 1), 2, 1, 1⟩

/-- A request and its reply are a run without unsolicited traffic. -/
theorem no_unsolicited_reply :
    NoUnsolicited rfcTypes (freshMaps openConfig) [.packet udpRequest, .packet udpReply] := by
  refine (no_unsolicited_iff rfcTypes (freshMaps openConfig) _ (by simp) ?_).mpr ?_
  · intro e he
    rcases List.mem_cons.mp he with rfl | he
    · trivial
    · rw [List.mem_singleton.mp he]
      trivial
  · refine ⟨?_, ?_, trivial⟩ <;> intro ctx q he hi _ _ hr <;> cases he
    all_goals exact absurd hr (by rw [keeps_flow (by decide) hi]; decide)

/-- The stray FIN is forwarded to the inside. -/
theorem no_unsolicited_fails :
    ¬ NoUnsolicited rfcTypes (freshMaps openConfig) [.packet strayFin] := by
  intro h
  obtain ⟨ctx, hmem, -⟩ := (h [] strayFin [] rfl (.inl (by decide)) (by decide)).1 (by decide)
  simp at hmem

/-! ## Denied flows -/

/-- The event is no write to the entry or the bucket of flow `k` from outside
the data plane. -/
def Spares (k : FlowKey) : Event → Prop
  | .setEntry key _ => key ≠ k
  | .setBucket key _ => key ≠ k
  | _ => True

/-- The event forwards no packet of flow `k`. -/
def Blocks (nt : NetworkTypes) (k : FlowKey) (m : Maps) (e : Event) : Prop :=
  ∀ ctx, e = .packet ctx → flowKeyOf nt m.toPolicy ctx = some k →
    forwarded (xdpFirewall nt ctx m).1 = false

/-- No packet of flow `k` is forwarded during the run, and at its end the flow
is still denied. -/
def DenyDurable (nt : NetworkTypes) (k : FlowKey) (m : Maps) (es : List Event) : Prop :=
  Always (handle nt) (Blocks nt k) m es ∧ ((run (handle nt) m es).cell k).denies = true

/-- The event leaves a Deny of flow `k` in force. A packet that the subnet check
lets through must carry no FIN or RST, and one from the inside must run out of
tokens; a cleanup must not find the entry idle. -/
def Respects (nt : NetworkTypes) (k : FlowKey) (m : Maps) : Event → Prop
  | .packet ctx => ∀ q, inspect nt m.toPolicy ctx = .inr q → q.key = k → q.admitted = true →
      q.remove = false ∧
        (q.direction = .outgoing → OutOfTokens m.configuration q (m.cell k).bucket)
  | .cleanup now keysV4 keysV6 =>
      ¬ (Yields keysV4 keysV6 k ∧ (m.cell k).entry.any (expired now) = true)
  | _ => True

/-- Nothing but the administrator denies a flow. -/
theorem denies_of_step {nt : NetworkTypes} {k : FlowKey} {m : Maps} {e : Event}
    (he : Spares k e) (h : ((handle nt e m).2.cell k).denies = true) :
    (m.cell k).denies = true := by
  rcases handle_cell_cases nt e m k with
    ⟨ctx, q, rfl, -, -, hcell⟩ | ⟨now, ks, ks', rfl, -, -, hcell⟩ | ⟨entry, rfl, -⟩ |
    ⟨bucket, rfl, -⟩ | hcell
  · rw [hcell, cellStep_denies_iff] at h
    exact h.1
  · rw [hcell] at h
    simp [Cell.denies] at h
  · exact absurd rfl he
  · exact absurd rfl he
  · rwa [hcell] at h

theorem denies_of_run {nt : NetworkTypes} {k : FlowKey} {m : Maps} {es : List Event}
    (hes : ∀ e ∈ es, Spares k e) (h : ((run (handle nt) m es).cell k).denies = true) :
    (m.cell k).denies = true := by
  induction es generalizing m with
  | nil => exact h
  | cons e es ih =>
    have htail := ih (fun f hf => hes f (by simp [hf])) h
    exact denies_of_step (hes e (by simp)) htail

/-- A packet of a denied flow leaves the Deny in force exactly under the
condition on its flags and its tokens. -/
theorem cellStep_respects_iff (config : FirewallConfig) (q : FlowPacket) {c : Cell}
    (hdeny : c.denies = true) :
    (forwarded (cellStep config q c).1 = false ∧ (cellStep config q c).2.denies = true) ↔
      (q.admitted = true → q.remove = false ∧
        (q.direction = .outgoing → OutOfTokens config q c.bucket)) := by
  have hallow := Cell.denies_not_allows hdeny
  rw [← Bool.not_eq_true, cellStep_forwarded_iff, cellStep_denies_iff]
  cases q.admitted <;> cases q.remove <;> cases q.direction <;> simp [hdeny, hallow]

/-- One event of a run, seen from a denied flow. -/
theorem respects_step_iff (nt : NetworkTypes) {k : FlowKey} {m : Maps} {e : Event}
    (hdeny : (m.cell k).denies = true) (he : Spares k e) :
    (Blocks nt k m e ∧ ((handle nt e m).2.cell k).denies = true) ↔ Respects nt k m e := by
  cases e with
  | packet ctx =>
    rcases xdpFirewall_cell nt ctx m k with ⟨q, hi, hk, hverdict, hcell⟩ | ⟨hnone, hcell⟩
    · have hrespects := cellStep_respects_iff m.configuration q hdeny
      simp only [Blocks, Respects, hi, handle, hcell]
      simpa [flowKeyOf_of_inr hi, hverdict, hk] using hrespects
    · have hkey : flowKeyOf nt m.toPolicy ctx ≠ some k := by
        intro hkey
        obtain ⟨q, hi, hk⟩ := flowKeyOf_eq_some hkey
        exact hnone q hi hk
      have hrespects : Respects nt k m (.packet ctx) :=
        fun q hi hk => absurd hk (hnone q hi)
      simp [Blocks, hrespects, handle, hcell, hdeny, hkey]
  | cleanup now keysV4 keysV6 =>
    have hblocks : Blocks nt k m (.cleanup now keysV4 keysV6) := by
      intro ctx h
      cases h
    have hstep : (handle nt (.cleanup now keysV4 keysV6) m).2 =
        cleanupConnections now keysV4 keysV6 m := rfl
    rw [hstep]
    rcases cleanupConnections_cell now keysV4 keysV6 m k with ⟨hy, hx, hcell⟩ | ⟨hn, hcell⟩
    · simp [Respects, hcell, hy, hx, Cell.denies]
    · simp only [Respects, hcell, hdeny, hblocks, hn, not_false_eq_true, and_self]
  | setEntry key entry =>
    have hcell : (handle nt (.setEntry key entry) m).2.cell k = m.cell k :=
      Maps.cell_setCell_of_ne m _ (Ne.symm he)
    simp [Blocks, Respects, hcell, hdeny]
  | setBucket key bucket =>
    have hcell : (handle nt (.setBucket key bucket) m).2.cell k = m.cell k :=
      Maps.cell_setCell_of_ne m _ (Ne.symm he)
    simp [Blocks, Respects, hcell, hdeny]
  | setPolicy policy =>
    have hcell : (handle nt (.setPolicy policy) m).2.cell k = m.cell k := by cases k <;> rfl
    simp [Blocks, Respects, hcell, hdeny]

/-- A Deny stays in force through a run, exactly when each event of the run
respects it. -/
theorem deny_durable_iff (nt : NetworkTypes) (k : FlowKey) (m : Maps) (es : List Event)
    (hdeny : (m.cell k).denies = true) (hes : ∀ e ∈ es, Spares k e) :
    DenyDurable nt k m es ↔ Always (handle nt) (Respects nt k) m es := by
  induction es generalizing m with
  | nil => simp [DenyDurable, hdeny]
  | cons e es ih =>
    have hrest : ∀ f ∈ es, Spares k f := fun f hf => hes f (by simp [hf])
    have hstep := respects_step_iff nt hdeny (hes e (by simp))
    constructor
    · rintro ⟨⟨hblocks, halways⟩, hend⟩
      have hnext : ((handle nt e m).2.cell k).denies = true := denies_of_run hrest hend
      exact ⟨hstep.mp ⟨hblocks, hnext⟩, (ih _ hnext hrest).mp ⟨halways, hend⟩⟩
    · rintro ⟨hrespects, halways⟩
      obtain ⟨hblocks, hnext⟩ := hstep.mpr hrespects
      obtain ⟨hall, hend⟩ := (ih _ hnext hrest).mpr halways
      exact ⟨⟨hblocks, hall⟩, hend⟩

/-- The flow of `udpRequest`. -/
def requestFlow : FlowKey := .v4 (.new 0x0A000001 0xCB007109 53 80 17)

/-- The maps after the administrator has denied `requestFlow`. -/
def deniedMaps : Maps :=
  (freshMaps openConfig).setCell requestFlow ⟨some ⟨.deny, 0⟩, none⟩

/-- A Deny holds against a reply from the outside and an early cleanup. -/
theorem deny_durable_reply :
    DenyDurable rfcTypes requestFlow deniedMaps
      [.packet udpReply, .cleanup 5 [.new 0x0A000001 0xCB007109 53 80 17] []] := by
  refine (deny_durable_iff rfcTypes requestFlow deniedMaps _ (by decide) ?_).mpr ?_
  · intro e he
    rcases List.mem_cons.mp he with rfl | he
    · trivial
    · rw [List.mem_singleton.mp he]
      trivial
  · refine ⟨?_, ?_, trivial⟩
    · intro q hi _ _
      have hout : (inspect rfcTypes deniedMaps.toPolicy udpReply).getRight?.all
          (fun q => q.remove = false ∧ q.direction = .incoming) = true := by decide
      rw [hi] at hout
      simp only [Sum.getRight?_inr, Option.all_some, decide_eq_true_eq] at hout
      exact ⟨hout.1, fun h => by simp [hout.2] at h⟩
    · rintro ⟨-, hx⟩
      exact absurd hx (by decide)

/-- A packet from the inside is forwarded although its flow is denied. -/
theorem deny_durable_fails :
    ¬ DenyDurable rfcTypes requestFlow deniedMaps [.packet udpRequest] := by
  intro h
  exact absurd (h.1.1 udpRequest rfl (by decide)) (by decide)

end Oxidrop.Admission
