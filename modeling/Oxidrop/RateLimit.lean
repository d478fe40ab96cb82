import Oxidrop.Events
import Oxidrop.Lib.TokenBucket

/-!
# Rate limiting

`evaluateBucket` is a token bucket whose refill may lose tokens to wrapping. A
flow none of whose packets takes the removal path is therefore bounded in every
window by its burst, one stale period, and the periods of the window.
-/
namespace Oxidrop.RateLimit

open Run
open TokenBucket (Bucket Step Trace granted Ordered window_le)

/-! ## Machine words -/

theorem toNat_min (a b : UInt64) : (min a b).toNat = min a.toNat b.toNat := by
  change (if a ≤ b then a else b).toNat = _
  by_cases h : a ≤ b
  · rw [if_pos h, Nat.min_eq_left (UInt64.le_iff_toNat_le.mp h)]
  · have hba : b.toNat ≤ a.toNat := by
      have := mt UInt64.le_iff_toNat_le.mpr h
      omega
    rw [if_neg h, Nat.min_eq_right hba]

theorem toNat_saturatingSub (a b : UInt64) :
    (saturatingSub a b).toNat = a.toNat - b.toNat := by
  unfold saturatingSub
  by_cases h : b ≤ a
  · rw [if_pos h, UInt64.toNat_sub_of_le a b h]
  · have := mt UInt64.le_iff_toNat_le.mpr h
    rw [if_neg h, UInt64.toNat_zero]
    omega

theorem toNat_add_le (a b : UInt64) : (a + b).toNat ≤ a.toNat + b.toNat := by
  rw [UInt64.toNat_add]
  exact Nat.mod_le _ _

/-! ## The bucket of the source -/

def period (profile : RateProfile) : Nat := 2 ^ profile.rateShift.toNat

theorem period_pos (profile : RateProfile) : 0 < period profile := Nat.two_pow_pos _

def toBucket (b : TokenBucketState) : Bucket := ⟨b.tokens.toNat, b.lastUpdate.toNat⟩

/-- The generated tokens are the whole periods since the last refill. -/
theorem toNat_generated {profile : RateProfile} (hs : profile.rateShift.toNat ≤ 63)
    (now last : UInt64) :
    (saturatingSub now last >>> profile.rateShift).toNat =
      (now.toNat - last.toNat) / period profile := by
  rw [UInt64.toNat_shiftRight, toNat_saturatingSub, Nat.mod_eq_of_lt (by omega),
    Nat.shiftRight_eq_div_pow, period]

/-- A refill exceeds no limit that the tokens and the burst obey. -/
theorem available_le {b : TokenBucketState} {profile : RateProfile} {limit : Nat} (now : UInt64)
    (hb : b.tokens.toNat ≤ limit) (hburst : profile.burst.toNat ≤ limit) :
    (available b profile now).toNat ≤ limit := by
  unfold available
  simp only
  split
  · rw [toNat_min]
    exact (Nat.min_le_right _ _).trans hburst
  · exact hb

/-- What the evaluation leaves in the bucket. -/
theorem evaluateBucket_snd (b : TokenBucketState) (profile : RateProfile) (now : UInt64) :
    (evaluateBucket b profile now).2.tokens.toNat +
        (forwarded (evaluateBucket b profile now).1).toNat = (available b profile now).toNat ∧
      (evaluateBucket b profile now).2.lastUpdate =
        if 0 < saturatingSub now b.lastUpdate >>> profile.rateShift then now
        else b.lastUpdate := by
  have hspend : ∀ w : UInt64, 0 < w → (w - 1).toNat + 1 = w.toNat := by
    intro w hw
    have hle : 1 ≤ w.toNat := UInt64.lt_iff_toNat_lt.mp hw
    rw [UInt64.toNat_sub_of_le w 1 (UInt64.le_iff_toNat_le.mpr hle), UInt64.toNat_one]
    omega
  have hzero : ∀ w : UInt64, ¬ 0 < w → w.toNat + 0 = w.toNat := fun w _ => rfl
  unfold evaluateBucket available
  by_cases hg : 0 < saturatingSub now b.lastUpdate >>> profile.rateShift
  · simp only [hg, if_true]
    split
    · exact ⟨hspend _ ‹_›, rfl⟩
    · exact ⟨hzero _ ‹_›, rfl⟩
  · simp only [hg, if_false]
    split
    · exact ⟨hspend _ ‹_›, rfl⟩
    · exact ⟨hzero _ ‹_›, rfl⟩

theorem evaluateBucket_tokens_le {b : TokenBucketState} {profile : RateProfile} {limit : Nat}
    (now : UInt64) (hb : b.tokens.toNat ≤ limit) (hburst : profile.burst.toNat ≤ limit) :
    (evaluateBucket b profile now).2.tokens.toNat ≤ limit := by
  have htokens := (evaluateBucket_snd b profile now).1
  have hav := available_le now hb hburst
  omega

/-- The evaluation refines the token bucket. -/
theorem evaluateBucket_step {profile : RateProfile} (hs : profile.rateShift.toNat ≤ 63)
    (b : TokenBucketState) (now : UInt64) :
    Step (period profile) profile.burst.toNat (toBucket b) now.toNat
      (forwarded (evaluateBucket b profile now).1)
      (toBucket (evaluateBucket b profile now).2) := by
  obtain ⟨htokens, hlast⟩ := evaluateBucket_snd b profile now
  have hgen := toNat_generated hs now b.lastUpdate
  have hpos : 0 < saturatingSub now b.lastUpdate >>> profile.rateShift ↔
      0 < (now.toNat - b.lastUpdate.toNat) / period profile := by
    rw [← hgen]
    exact UInt64.lt_iff_toNat_lt
  constructor
  · intro h
    have hn : ¬ 0 < saturatingSub now b.lastUpdate >>> profile.rateShift := by
      rw [hpos]
      simp only [toBucket] at h
      omega
    have hav : available b profile now = b.tokens := by simp only [available, hn, if_false]
    rw [hav] at htokens
    rw [if_neg hn] at hlast
    exact ⟨htokens, congrArg UInt64.toNat hlast⟩
  · intro h
    have hy : 0 < saturatingSub now b.lastUpdate >>> profile.rateShift := hpos.mpr h
    have hav : (available b profile now).toNat ≤
        min (b.tokens.toNat + (now.toNat - b.lastUpdate.toNat) / period profile)
          profile.burst.toNat := by
      simp only [available, hy, if_true]
      rw [toNat_min, ← hgen]
      exact min_le_min_right _ (toNat_add_le _ _)
    rw [if_pos hy] at hlast
    refine ⟨?_, congrArg UInt64.toNat hlast⟩
    simp only [toBucket]
    omega

/-- The bucket stage is a step of the bucket that the packet finds. -/
theorem bucketStep_step {config : FirewallConfig} {q : FlowPacket}
    (hddos : config.ddosActivated = true) (hs : q.profile.rateShift.toNat ≤ 63)
    (b : Option TokenBucketState) :
    ∃ b', (bucketStep config q b).2 = some b' ∧
      Step (period q.profile) q.profile.burst.toNat
        ((b.map toBucket).getD ⟨q.profile.burst.toNat, q.ktimeBucket.toNat⟩) q.ktimeBucket.toNat
        (forwarded (bucketStep config q b).1) (toBucket b') := by
  have hfetch : (b.map toBucket).getD ⟨q.profile.burst.toNat, q.ktimeBucket.toNat⟩ =
      toBucket (fetchBucket q b) := by
    cases b <;> rfl
  have hstep := evaluateBucket_step hs (fetchBucket q b) q.ktimeBucket
  rw [hfetch]
  unfold bucketStep
  rw [if_pos hddos]
  cases hr : evaluateBucket (fetchBucket q b) q.profile q.ktimeBucket with
  | mk verdict b' =>
    rw [hr] at hstep
    cases verdict with
    | ok action =>
      refine ⟨b', rfl, ?_⟩
      rw [forwarded_redirectOrPass]
      have hfst := evaluateBucket_fst (fetchBucket q b) q.profile q.ktimeBucket
      rw [hr] at hfst
      split at hfst
      · cases hfst
        exact hstep
      · cases hfst
    | error e => exact ⟨b', rfl, hstep⟩

/-- The bucket stage fills no bucket above the burst. -/
theorem bucketStep_filled {config : FirewallConfig} {q : FlowPacket}
    {b : Option TokenBucketState} {b' : TokenBucketState}
    (h : ∀ old, b = some old → old.tokens.toNat ≤ q.profile.burst.toNat)
    (hb : (bucketStep config q b).2 = some b') : b'.tokens.toNat ≤ q.profile.burst.toNat := by
  have hfetch : (fetchBucket q b).tokens.toNat ≤ q.profile.burst.toNat := by
    cases b with
    | none => exact le_refl _
    | some old => exact h old rfl
  have hav := available_le q.ktimeBucket hfetch (le_refl _)
  have htokens := (evaluateBucket_snd (fetchBucket q b) q.profile q.ktimeBucket).1
  unfold bucketStep at hb
  split at hb
  · cases hr : evaluateBucket (fetchBucket q b) q.profile q.ktimeBucket with
    | mk verdict b'' =>
      simp only [hr] at hb htokens
      cases verdict <;> cases hb <;> omega
  · exact h b' hb

/-! ## Flows in a run -/

/-- The event neither writes the bucket of flow `k` from outside the data plane
nor changes the read-only maps. -/
def LeavesBucket (k : FlowKey) : Event → Prop
  | .setBucket key _ => key ≠ k
  | .setPolicy _ => False
  | _ => True

theorem LeavesBucket.keepsPolicy {k : FlowKey} {e : Event} (h : LeavesBucket k e) :
    e.KeepsPolicy := by
  cases e with
  | setPolicy policy => exact h.elim
  | _ => trivial

/-- The event neither writes the bucket of flow `k` from outside the data plane
nor changes the configuration. The subnet tables may change. -/
def LeavesRate (k : FlowKey) (config : Option FirewallConfig) : Event → Prop
  | .setBucket key _ => key ≠ k
  | .setPolicy policy => policy.config = config
  | _ => True

theorem LeavesBucket.leavesRate {k : FlowKey} {e : Event} (config : Option FirewallConfig)
    (h : LeavesBucket k e) : LeavesRate k config e := by
  cases e with
  | setPolicy policy => exact h.elim
  | _ => exact h

theorem handle_config {nt : NetworkTypes} {k : FlowKey} {m : Maps} {e : Event}
    (h : LeavesRate k m.config e) : (handle nt e m).2.config = m.config := by
  cases e with
  | setPolicy policy => exact h
  | _ => exact congrArg Policy.config (handle_toPolicy nt _ m (by trivial))

/-- The time and the fate of a packet of flow `k`. -/
def observe (nt : NetworkTypes) (k : FlowKey) (m : Maps) : Event → Option (Nat × Bool)
  | .packet ctx =>
    if flowKeyOf nt m.toPolicy ctx = some k then
      some (ctx.ktimeBucket.toNat, forwarded (xdpFirewall nt ctx m).1)
    else none
  | _ => none

def flowTrace (nt : NetworkTypes) (k : FlowKey) : Maps → List Event → List (Nat × Bool)
  | _, [] => []
  | m, e :: es => (observe nt k m e).toList ++ flowTrace nt k (handle nt e m).2 es

def packetTime : Event → Option Nat
  | .packet ctx => some ctx.ktimeBucket.toNat
  | _ => none

/-- Packets come with nondecreasing clock values. -/
def Timed (es : List Event) : Prop := (es.filterMap packetTime).Pairwise (· ≤ ·)

theorem flowTrace_times (nt : NetworkTypes) (k : FlowKey) (m : Maps) (es : List Event) :
    ((flowTrace nt k m es).map Prod.fst).Sublist (es.filterMap packetTime) := by
  induction es generalizing m with
  | nil => exact List.Sublist.refl _
  | cons e es ih =>
    have htail := ih (handle nt e m).2
    cases e with
    | packet ctx =>
      simp only [flowTrace, observe, List.filterMap_cons, packetTime]
      split
      · simpa using htail
      · exact htail.cons _
    | _ => exact htail

theorem flowTrace_ordered {nt : NetworkTypes} {k : FlowKey} {m : Maps} {es : List Event}
    (h : Timed es) : Ordered (flowTrace nt k m es) :=
  List.pairwise_map.mp (h.sublist (flowTrace_times nt k m es))

/-- No packet of flow `k` that the subnet check lets through carries a FIN or
RST. -/
def NoTeardown (nt : NetworkTypes) (k : FlowKey) (m : Maps) (e : Event) : Prop :=
  ∀ ctx q, e = .packet ctx → inspect nt m.toPolicy ctx = .inr q → q.key = k →
    q.admitted = true → q.remove = false

/-- An event that is no packet of flow `k` leaves the bucket of `k` alone. -/
theorem bucket_unobserved {nt : NetworkTypes} {k : FlowKey} {m : Maps} {e : Event}
    (he : LeavesRate k m.config e) (ho : observe nt k m e = none) :
    ((handle nt e m).2.cell k).bucket = (m.cell k).bucket := by
  rcases handle_cell_cases nt e m k with
    ⟨ctx, q, rfl, hi, hq, -⟩ | ⟨now, ks, ks', rfl, -, -, hcell⟩ | ⟨entry, rfl, hcell⟩ |
    ⟨bucket, rfl, -⟩ | hcell
  · simp [observe, flowKeyOf_of_inr hi, hq] at ho
  · rw [hcell]
  · rw [hcell]
  · exact absurd rfl he
  · rw [hcell]

theorem observe_eq_some {nt : NetworkTypes} {k : FlowKey} {m : Maps} {e : Event}
    {x : Nat × Bool} (h : observe nt k m e = some x) :
    ∃ ctx q, e = .packet ctx ∧ inspect nt m.toPolicy ctx = .inr q ∧ q.key = k ∧
      x = (q.ktimeBucket.toNat, forwarded (cellStep m.configuration q (m.cell k)).1) ∧
      (handle nt e m).2.cell k = (cellStep m.configuration q (m.cell k)).2 := by
  cases e with
  | packet ctx =>
    simp only [observe] at h
    split at h
    · obtain ⟨q, hi, rfl⟩ := flowKeyOf_eq_some ‹_›
      refine ⟨ctx, q, rfl, hi, rfl, ?_, ?_⟩
      · rw [xdpFirewall_inr hi] at h
        rw [(inspect_fields hi).2.2.1]
        exact (Option.some.inj h).symm
      · simp only [handle, xdpFirewall_inr hi, Maps.cell_setCell_self]
    · cases h
  | _ => cases h

/-- The packet gets as far as the evaluation of its bucket. -/
structure Evaluates (config : FirewallConfig) (q : FlowPacket) (c : Cell) : Prop where
  admitted : q.admitted = true
  kept : q.remove = false
  tracked : q.direction = .outgoing ∨ c.allows = true
  limited : config.ddosActivated = true

/-- A packet of the flow without FIN and RST is refused before the bucket or is
a step of the bucket. -/
theorem bucket_observed {nt : NetworkTypes} {k : FlowKey} {m : Maps} {e : Event}
    {x : Nat × Bool} {profile : RateProfile}
    (hprofile : activeProfile m.configuration ⟨k.protocol⟩ = profile)
    (hddos : m.configuration.ddosActivated = true) (hs : profile.rateShift.toNat ≤ 63)
    (hno : NoTeardown nt k m e) (ho : observe nt k m e = some x) :
    (x.2 = false ∧ (handle nt e m).2.cell k = m.cell k) ∨
    (∃ ctx q, e = .packet ctx ∧ inspect nt m.toPolicy ctx = .inr q ∧ q.key = k ∧
      Evaluates m.configuration q (m.cell k) ∧ q.profile = profile ∧ q.ktimeBucket.toNat = x.1 ∧
      ∃ b', ((handle nt e m).2.cell k).bucket = some b' ∧
        Step (period profile) profile.burst.toNat
          (((m.cell k).bucket.map toBucket).getD ⟨profile.burst.toNat, x.1⟩) x.1 x.2
          (toBucket b')) := by
  obtain ⟨ctx, q, rfl, hi, hq, rfl, hcell⟩ := observe_eq_some ho
  have hqp : q.profile = profile := by
    rw [← hprofile, (inspect_fields hi).2.2.2, hq]
  rw [hcell]
  rcases cellStep_cases m.configuration q (m.cell k) with
    ⟨ha, hstep⟩ | ⟨ha, hr, hstep⟩ | ⟨ha, hr, hd, hc, hstep⟩ | ⟨ha, hr, hd, hstep⟩
  · exact .inl (by simp [hstep])
  · simp [hno ctx q rfl hi hq ha] at hr
  · exact .inl (by simp [hstep])
  · rw [hstep]
    obtain ⟨b', hb, hok⟩ := bucketStep_step hddos (by rw [hqp]; exact hs) (m.cell k).bucket
    rw [hqp] at hok
    exact .inr ⟨ctx, q, rfl, hi, hq, ⟨ha, hr, hd, hddos⟩, hqp, rfl, b', hb, hok⟩

/-- The packet of flow `k`, if the event is one, is refused without touching the
bucket, or is a step of the bucket as `f` reads it. -/
def Steps (nt : NetworkTypes) (k : FlowKey) (profile : RateProfile)
    (f : TokenBucketState → Bucket) (m : Maps) (e : Event) : Prop :=
  ∀ x, observe nt k m e = some x →
    (x.2 = false ∧ (handle nt e m).2.cell k = m.cell k) ∨
    ∃ b', ((handle nt e m).2.cell k).bucket = some b' ∧
      Step (period profile) profile.burst.toNat
        (((m.cell k).bucket.map f).getD ⟨profile.burst.toNat, x.1⟩) x.1 x.2 (f b')

/-- Packets that are steps under the configuration make a trace. -/
theorem trace_of_steps {nt : NetworkTypes} {k : FlowKey} {m : Maps} {es : List Event}
    {profile : RateProfile} {f : TokenBucketState → Bucket} {D : Maps → Event → Prop}
    (hstep : ∀ s e, s.configuration = m.configuration → D s e → Steps nt k profile f s e)
    (hes : ∀ e ∈ es, LeavesRate k m.config e) (hD : Always (handle nt) D m es) :
    Trace (period profile) profile.burst.toNat ((m.cell k).bucket.map f)
      (flowTrace nt k m es) (((run (handle nt) m es).cell k).bucket.map f) := by
  induction es generalizing m with
  | nil => exact .nil _
  | cons e es ih =>
    have he := hes e (by simp)
    have hconfig : (handle nt e m).2.config = m.config := handle_config he
    have hrest : ∀ e' ∈ es, LeavesRate k (handle nt e m).2.config e' := by
      intro e' he'
      rw [hconfig]
      exact hes e' (by simp [he'])
    have hsame : (handle nt e m).2.configuration = m.configuration := by
      simp only [Policy.configuration, hconfig]
    have htail := ih (fun s e' hs => hstep s e' (hs.trans hsame)) hrest hD.2
    simp only [flowTrace, run_cons]
    cases ho : observe nt k m e with
    | none =>
      rw [bucket_unobserved he ho] at htail
      exact htail
    | some x =>
      obtain ⟨t, ok⟩ := x
      rcases hstep m e rfl hD.1 _ ho with ⟨hok, hcell⟩ | ⟨b', hb, hbucket⟩
      · simp only at hok
        subst hok
        rw [hcell] at htail
        exact .refused htail
      · rw [hb] at htail
        exact .cons hbucket htail

/-- A run's packets of flow `k` are a trace of its bucket. -/
theorem flow_is_trace {nt : NetworkTypes} {k : FlowKey} {m : Maps} {es : List Event}
    {profile : RateProfile} (hprofile : activeProfile m.configuration ⟨k.protocol⟩ = profile)
    (hddos : m.configuration.ddosActivated = true) (hs : profile.rateShift.toNat ≤ 63)
    (hes : ∀ e ∈ es, LeavesRate k m.config e)
    (hno : Always (handle nt) (NoTeardown nt k) m es) :
    Trace (period profile) profile.burst.toNat ((m.cell k).bucket.map toBucket)
      (flowTrace nt k m es) (((run (handle nt) m es).cell k).bucket.map toBucket) := by
  refine trace_of_steps (fun s e hsame hkeep x hx => ?_) hes hno
  rw [← hsame] at hprofile hddos
  rcases bucket_observed hprofile hddos hs hkeep hx with
    hrefused | ⟨_, _, _, _, _, _, _, _, hstep⟩
  · exact .inl hrefused
  · exact .inr hstep

/-! ## The bound -/

/-- In every window of length `T` the flow gets at most `B + 1` packets and one
for each period of `2 ^ s`. -/
def RateBounded (nt : NetworkTypes) (k : FlowKey) (B s : Nat) (m : Maps) (es : List Event) :
    Prop :=
  ∀ a T, granted a (a + T) (flowTrace nt k m es) ≤ B + 1 + T / 2 ^ s

/-- The bucket of flow `k`, if it has one, holds no more than the burst. -/
def Filled (k : FlowKey) (burst : UInt64) (m : Maps) : Prop :=
  ∀ b, (m.cell k).bucket = some b → b.tokens.toNat ≤ burst.toNat

/-- Under a fixed policy no event overfills the bucket of a flow. -/
theorem filled_step {nt : NetworkTypes} {k : FlowKey} {m : Maps} {e : Event} {burst : UInt64}
    (hburst : (activeProfile m.configuration ⟨k.protocol⟩).burst = burst)
    (he : LeavesBucket k e) (h : Filled k burst m) : Filled k burst (handle nt e m).2 := by
  cases ho : observe nt k m e with
  | none =>
    intro b hb
    rw [bucket_unobserved (he.leavesRate _) ho] at hb
    exact h b hb
  | some x =>
    obtain ⟨ctx, q, rfl, hi, hq, -, hcell⟩ := observe_eq_some ho
    have hqb : q.profile.burst = burst := by
      rw [← hburst, (inspect_fields hi).2.2.2, hq]
    intro b hb
    rw [hcell] at hb
    rcases cellStep_cases m.configuration q (m.cell k) with
      ⟨ha, hstep⟩ | ⟨ha, hr, hstep⟩ | ⟨ha, hr, hd, hc, hstep⟩ | ⟨ha, hr, hd, hstep⟩
    · exact h b (by rwa [hstep] at hb)
    · simp [hstep] at hb
    · exact h b (by rwa [hstep] at hb)
    · rw [hstep] at hb
      rw [← hqb]
      exact bucketStep_filled (fun old hold => by rw [hqb]; exact h old hold) hb

/-- In a run that leaves the policy and the flow's bucket to the data plane the
bucket never holds more than the burst. -/
theorem filled_run {nt : NetworkTypes} {k : FlowKey} {m : Maps} {es : List Event}
    {burst : UInt64} (hburst : (activeProfile m.configuration ⟨k.protocol⟩).burst = burst)
    (hes : ∀ e ∈ es, LeavesBucket k e) (h : Filled k burst m) :
    Filled k burst (run (handle nt) m es) := by
  refine (invariant (I := fun s => s.toPolicy = m.toPolicy ∧ Filled k burst s)
    (C := fun _ e => LeavesBucket k e) ?_ m es ⟨rfl, h⟩ (always_of_forall m es hes)).2
  rintro s e ⟨hs, hf⟩ he
  exact ⟨by rw [handle_toPolicy nt e s he.keepsPolicy, hs], filled_step (by rw [hs, hburst]) he hf⟩

/-- A TCP flow whose packets carry no FIN or RST stays within its rate, from
every state whose bucket is within the burst. -/
theorem tcp_rate_bounded (nt : NetworkTypes) (k : FlowKey) (m : Maps) (es : List Event)
    (htcp : k.protocol = IpProto.Tcp.val) (hddos : m.configuration.ddosActivated = true)
    (hs : m.configuration.tcpProfile.rateShift.toNat ≤ 63)
    (hes : ∀ e ∈ es, LeavesBucket k e) (htime : Timed es)
    (hfull : Filled k m.configuration.tcpProfile.burst m)
    (hno : Always (handle nt) (NoTeardown nt k) m es) :
    RateBounded nt k m.configuration.tcpProfile.burst.toNat
      m.configuration.tcpProfile.rateShift.toNat m es := by
  intro a T
  have hprofile : activeProfile m.configuration ⟨k.protocol⟩ = m.configuration.tcpProfile := by
    rw [htcp]
    rfl
  have htrace := flow_is_trace hprofile hddos hs (fun e he => (hes e he).leavesRate _) hno
  have hbound := window_le (period_pos _) a (a + T) (by
    intro b hb
    obtain ⟨old, hold, rfl⟩ := Option.map_eq_some_iff.mp hb
    exact hfull old hold) (flowTrace_ordered htime) htrace
  rwa [Nat.add_sub_cancel_left] at hbound

/-- Two adapters and a TCP burst of one packet. -/
def strictConfig : FirewallConfig :=
  { openConfig with ddosActivated := true, tcpProfile := ⟨20, 1⟩ }

def tcpFlow : FlowKey := .v4 (.new 0x0A000001 0xCB007109 44 80 6)

def udpFlow : FlowKey := .v4 (.new 0x0A000001 0xCB007109 53 80 17)

/-- A FIN of the flow of `tcpRequest`. -/
def tcpFin : XdpContext := ⟨ipv4Frame 6 insideHost outsideHost (tcpHeader 44 80 1), 3, 1, 1⟩

/-- The flow has spent its bucket. -/
def spentMaps : Maps := run (handle rfcTypes) (freshMaps strictConfig) [.packet tcpRequest]

theorem filled_spentMaps : Filled tcpFlow strictConfig.tcpProfile.burst spentMaps := by
  refine filled_run rfl (fun e he => ?_) fun b hb => by simp at hb
  rw [List.mem_singleton.mp he]
  trivial

theorem tcp_rate_bounded_requests :
    RateBounded rfcTypes tcpFlow 1 20 spentMaps
      [.packet tcpRequest, .packet tcpRequest, .packet tcpRequest] := by
  have hpolicy : spentMaps.toPolicy = (freshMaps strictConfig).toPolicy := by
    simp [spentMaps, handle]
  refine tcp_rate_bounded rfcTypes tcpFlow spentMaps _ rfl rfl (by decide) ?_
    (by simp [Timed, packetTime]) filled_spentMaps ?_
  · intro e he
    simp only [List.mem_cons, List.not_mem_nil, or_false, or_self] at he
    rw [he]
    trivial
  · have hkeep : ∀ s : Maps, s.toPolicy = spentMaps.toPolicy →
        NoTeardown rfcTypes tcpFlow s (.packet tcpRequest) := by
      intro s hs ctx q he hi _ _
      cases he
      rw [hs, hpolicy] at hi
      exact keeps_flow (by decide) hi
    exact ⟨hkeep _ rfl, hkeep _ (by simp [handle]), hkeep _ (by simp [handle]), trivial⟩

/-- Three FINs at one instant pass a bucket of one token. -/
theorem tcp_rate_exceeded :
    ¬ RateBounded rfcTypes tcpFlow 1 20 (freshMaps strictConfig)
      [.packet tcpFin, .packet tcpFin, .packet tcpFin] := by
  intro h
  exact absurd (h 1 0) (by decide)

end Oxidrop.RateLimit
