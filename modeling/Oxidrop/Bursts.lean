import Oxidrop.Config
import Oxidrop.RateLimit

/-!
# Lowering a burst

An accepted update is what its protocol is metered by from then on. A bucket that
was filled under a larger burst loses its excess at the next refill and not
before, so a flow may still spend it within the period.
-/
namespace Oxidrop.Bursts

open Run RateLimit
open TokenBucket (Bucket Step granted window_le)

/-- The profile that the patch sets for a protocol. -/
def profileFor (patch : ConfigPatch) (protocol : IpProto) : Option RateProfile :=
  if protocol = .Tcp then patch.tcpProfile
  else if protocol = .Udp then patch.udpProfile
  else if protocol = .Icmp then patch.icmpProfile
  else patch.defaultProfile

theorem activeProfile_apply (patch : ConfigPatch) (cfg : FirewallConfig) (protocol : IpProto) :
    activeProfile (patch.apply cfg) protocol =
      (profileFor patch protocol).getD (activeProfile cfg protocol) := by
  unfold activeProfile profileFor ConfigPatch.apply
  split
  · rfl
  · split
    · rfl
    · split <;> rfl

theorem profileFor_mem {patch : ConfigPatch} {protocol : IpProto} {profile : RateProfile}
    (h : profileFor patch protocol = some profile) : profile ∈ patch.profiles := by
  rw [mem_profiles_iff]
  unfold profileFor at h
  split at h
  · exact .inl h
  · split at h
    · exact .inr (.inl h)
    · split at h
      · exact .inr (.inr (.inl h))
      · exact .inr (.inr (.inr h))

/-- After an accepted update the packets of the protocol meet the new profile, and
its shift is a shift of a 64-bit word. -/
theorem updated_profile {session : Option CallerContext} {patch : ConfigPatch}
    {o : AttachOutcomes} {faults : ConfigFaults} {s : ConfigState} {m : Maps} {protocol : IpProto}
    {profile : RateProfile} (hok : (updateConfig session patch o faults s).1.status = .OK)
    (hm : m.config = (updateConfig session patch o faults s).2.config)
    (hset : profileFor patch protocol = some profile) :
    activeProfile m.configuration protocol = profile ∧ profile.rateShift.toNat ≤ 63 := by
  rcases updateConfig_cases session patch o faults s with
    ⟨hno, -⟩ | ⟨old, -, hvalid, hnew | ⟨hno, -⟩⟩
  · exact absurd hok hno
  · rw [hnew] at hm
    have hconfig : m.configuration = patch.apply old := by simp [Policy.configuration, hm]
    refine ⟨?_, ?_⟩
    · rw [hconfig, activeProfile_apply, hset]
      rfl
    · exact UInt64.le_iff_toNat_le.mp ((validate_ok_iff patch).mp hvalid _ (profileFor_mem hset))
  · exact absurd hok hno

/-- A packet of flow `k` that gets as far as its bucket finds no more than the burst
in it, or comes late enough to refill it. -/
def NoExcess (nt : NetworkTypes) (k : FlowKey) (m : Maps) (e : Event) : Prop :=
  ∀ ctx q b, e = .packet ctx → inspect nt m.toPolicy ctx = .inr q → q.key = k →
    Evaluates m.configuration q (m.cell k) → (m.cell k).bucket = some b →
    b.tokens ≤ q.profile.burst ∨
      b.lastUpdate.toNat + 2 ^ q.profile.rateShift.toNat ≤ q.ktimeBucket.toNat

/-- The bucket as if it had been clamped when the burst was lowered. -/
def toClamped (profile : RateProfile) (b : TokenBucketState) : Bucket :=
  (toBucket b).clamp profile.burst.toNat

/-- Where nothing of the excess is spent, every packet of the flow is a step of the
clamped bucket. -/
theorem steps_clamped {nt : NetworkTypes} {k : FlowKey} {m : Maps} {e : Event}
    {profile : RateProfile} (hprofile : activeProfile m.configuration ⟨k.protocol⟩ = profile)
    (hddos : m.configuration.ddosActivated = true) (hs : profile.rateShift.toNat ≤ 63)
    (hkeep : NoTeardown nt k m e) (hexcess : NoExcess nt k m e) :
    Steps nt k profile (toClamped profile) m e := by
  intro x hx
  rcases bucket_observed hprofile hddos hs hkeep hx with
    hrefused | ⟨ctx, q, he, hi, hq, hev, hqp, htime, b', hb', hstep⟩
  · exact .inl hrefused
  · refine .inr ⟨b', hb', ?_⟩
    have hfound := hexcess ctx q
    rw [hqp, htime] at hfound
    cases hb : (m.cell k).bucket with
    | none =>
      -- a new bucket is just full
      have hfull : Bucket.clamp profile.burst.toNat ⟨profile.burst.toNat, x.1⟩ =
          ⟨profile.burst.toNat, x.1⟩ := Bucket.clamp_of_le (le_refl _)
      rw [hb] at hstep
      have hclamp := hstep.clamp (.inl (le_refl _))
      simp only [Option.map_none, Option.getD_none, hfull] at hclamp ⊢
      exact hclamp
    | some b =>
      rw [hb] at hstep
      refine hstep.clamp ?_
      rcases hfound b he hi hq hev hb with hle | hold
      · exact .inl (UInt64.le_iff_toNat_le.mp hle)
      · refine .inr (Nat.div_pos ?_ (period_pos profile))
        simp only [Option.map_some, Option.getD_some, toBucket, period]
        omega

/-- After an accepted update every window of a flow obeys the new profile, provided
that its packets spend no excess of an older burst. -/
theorem lowered_burst (nt : NetworkTypes) (session : Option CallerContext) (patch : ConfigPatch)
    (o : AttachOutcomes) (faults : ConfigFaults) (s : ConfigState) (m : Maps) (k : FlowKey)
    (profile : RateProfile) (es : List Event)
    (hok : (updateConfig session patch o faults s).1.status = .OK)
    (hm : m.config = (updateConfig session patch o faults s).2.config)
    (hset : profileFor patch ⟨k.protocol⟩ = some profile)
    (hddos : m.configuration.ddosActivated = true)
    (hes : ∀ e ∈ es, LeavesRate k m.config e) (htime : Timed es)
    (hno : Always (handle nt) (NoTeardown nt k) m es)
    (hexcess : Always (handle nt) (NoExcess nt k) m es) :
    RateBounded nt k profile.burst.toNat profile.rateShift.toNat m es := by
  obtain ⟨hprofile, hs⟩ := updated_profile hok hm hset
  have htrace := trace_of_steps (f := toClamped profile) (fun t e hsame h =>
    steps_clamped (by rw [hsame, hprofile]) (by rw [hsame, hddos]) hs h.1 h.2) hes
    ((always_and _ _).mpr ⟨hno, hexcess⟩)
  intro a T
  have hbound := window_le (period_pos profile) a (a + T) (by
    intro b hb
    obtain ⟨old, -, rfl⟩ := Option.map_eq_some_iff.mp hb
    exact Nat.min_le_right _ _) (flowTrace_ordered htime) htrace
  rwa [Nat.add_sub_cancel_left] at hbound

theorem noExcess_packet {nt : NetworkTypes} {k : FlowKey} {m : Maps} {ctx : XdpContext}
    {b : TokenBucketState} (hb : (m.cell k).bucket = some b)
    (h : b.tokens ≤ (activeProfile m.configuration ⟨k.protocol⟩).burst ∨
      b.lastUpdate.toNat + 2 ^ (activeProfile m.configuration ⟨k.protocol⟩).rateShift.toNat ≤
        ctx.ktimeBucket.toNat) : NoExcess nt k m (.packet ctx) := by
  intro ctx' q b' he hi hq _ hb'
  cases he
  cases hb.symm.trans hb'
  obtain ⟨-, -, htime, hprofile⟩ := inspect_fields hi
  rwa [htime, hprofile, hq]

/-- Two adapters and the default rates. -/
def meteredConfig : FirewallConfig := { openConfig with ddosActivated := true }

def lowerPatch : ConfigPatch := { udpProfile := some ⟨19, 1⟩ }

/-- The answer to the patch, and the state after it. -/
def lowering : Response × ConfigState :=
  updateConfig (some .root) lowerPatch noAttach .never ⟨some meteredConfig, none, none⟩

/-- The maps after one packet of the flow and the patch. -/
def loweredMaps : Maps :=
  { (xdpFirewall rfcTypes udpRequest (freshMaps meteredConfig)).2 with
    config := lowering.2.config }

/-- The packet of the flow that comes one period later. -/
def udpLater : XdpContext := { udpRequest with ktimeFlow := 0x80001, ktimeBucket := 0x80001 }

/-- A packet that comes one period later finds the bucket clamped. -/
theorem lowered_burst_later :
    RateBounded rfcTypes udpFlow 1 19 loweredMaps [.packet udpLater, .packet udpLater] := by
  have hkeep : ∀ s : Maps, s.toPolicy = loweredMaps.toPolicy →
      NoTeardown rfcTypes udpFlow s (.packet udpLater) := by
    intro s hs ctx q he hi _ _
    cases he
    rw [hs] at hi
    exact keeps_flow (by decide) hi
  refine lowered_burst rfcTypes (some .root) lowerPatch noAttach .never
    ⟨some meteredConfig, none, none⟩ loweredMaps udpFlow ⟨19, 1⟩ _ (by decide) rfl rfl rfl ?_
    (by simp [Timed, packetTime]) ?_ ?_
  · intro e he
    simp only [List.mem_cons, List.not_mem_nil, or_false, or_self] at he
    rw [he]
    trivial
  · exact ⟨hkeep _ rfl, hkeep _ (by simp [handle]), trivial⟩
  · refine ⟨noExcess_packet (b := ⟨1999, 1⟩) (by decide +kernel) (by decide +kernel),
      noExcess_packet (b := ⟨0, 0x80001⟩) (by decide +kernel) (by decide +kernel), trivial⟩

/-- Within the period three packets at one instant spend the old burst. -/
theorem lowered_burst_exceeded :
    lowering.1.status = .OK ∧ loweredMaps.configuration.ddosActivated = true ∧
      ¬ RateBounded rfcTypes udpFlow 1 19 loweredMaps
        [.packet udpRequest, .packet udpRequest, .packet udpRequest] := by
  refine ⟨by decide, rfl, fun h => ?_⟩
  exact absurd (h 1 0) (by decide +kernel)

end Oxidrop.Bursts
