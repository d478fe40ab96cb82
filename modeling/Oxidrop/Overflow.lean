import Oxidrop.Operation

/-!
# Overflow of the refill

The evaluation adds the generated tokens to the stored ones without a check. The
stored ones are bounded by the bursts and by what requests store, the generated ones
by the clock and the shift. Both bounds can be met by one packet, so every run fits
exactly when the bounds together do.
-/
namespace Oxidrop.Overflow

open Run RateLimit Metering Management Operation Serde

/-- Bounds on what comes from outside: on bursts and stored tokens, on shifts from
below, and on the clock. -/
structure Limits where
  tokens : UInt64
  rateShift : Fin 64
  clock : UInt64

namespace Limits

variable (l : Limits)

def Fits : Prop := l.tokens.toNat + l.clock.toNat / 2 ^ l.rateShift.val < 2 ^ 64

structure Allows (profile : RateProfile) : Prop where
  burst : profile.burst.toNat ≤ l.tokens.toNat
  rateShift : l.rateShift.val ≤ profile.rateShift.toNat

def Within : Occurrence → Prop
  | .packet ctx => ctx.ktimeBucket.toNat ≤ l.clock.toNat
  | .updateConfig _ patch _ _ => ∀ profile ∈ patch.profiles, l.Allows profile
  | .flowRequest r => ∀ b, r.asks = some (.bucket (some b)) → b.tokens.toNat ≤ l.tokens.toNat
  | _ => True

end Limits

/-! ## The property -/

/-- The packet of an event that evaluates its bucket. -/
def Evaluated (nt : NetworkTypes) (s : FirewallState) (e : Occurrence) (q : FlowPacket) : Prop :=
  ∃ ctx, e = .packet ctx ∧ inspect nt s.maps.toPolicy ctx = .inr q ∧
    Evaluates s.maps.configuration q (s.maps.cell q.key)

def ShiftSafe (nt : NetworkTypes) (s : FirewallState) (e : Occurrence) : Prop :=
  ∀ q, Evaluated nt s e q → q.profile.rateShift < 64

def SumSafe (nt : NetworkTypes) (s : FirewallState) (e : Occurrence) : Prop :=
  ∀ q, Evaluated nt s e q →
    NoOverflow q.profile (fetchBucket q (s.maps.cell q.key).bucket) q.ktimeBucket

/-- The program has just started, from whatever the database holds. -/
def Started (s : FirewallState) : Prop :=
  ∃ opt o faults rowsV4 rowsV6 row, startup opt o faults rowsV4 rowsV6 row = some s

def clockOf : Occurrence → Option Nat
  | .packet ctx => some ctx.ktimeBucket.toNat
  | _ => none

/-- The clock does not go back. -/
def Timed (es : List Occurrence) : Prop := (es.filterMap clockOf).Pairwise (· ≤ ·)

/-- A request is accepted with 200. -/
def Served (s : FirewallState) : Occurrence → Prop
  | .updateConfig session patch outcomes faults =>
    (updateConfig session patch outcomes faults (configState s)).1.status = .OK
  | .flowRequest r => Accepted (serve r s.maps)
  | _ => True

/-! ## The invariant -/

/-- The profiles and the buckets are within the limits, and every shift is one of a
64-bit word. -/
structure Bounded (l : Limits) (s : FirewallState) : Prop where
  shifts : ∀ profile ∈ s.maps.configuration.profiles, profile.rateShift ≤ 63
  profiles : ∀ profile ∈ s.maps.configuration.profiles, l.Allows profile
  buckets : ∀ k b, (s.maps.cell k).bucket = some b → b.tokens.toNat ≤ l.tokens.toNat

theorem activeProfile_mem (config : FirewallConfig) (protocol : IpProto) :
    activeProfile config protocol ∈ config.profiles := by
  unfold activeProfile FirewallConfig.profiles
  split
  · simp
  · split
    · simp
    · split <;> simp

section Step

variable {l : Limits} {nt : NetworkTypes} {s : FirewallState} {e : Occurrence}

theorem Evaluated.profile_mem {q : FlowPacket} (h : Evaluated nt s e q) :
    q.profile ∈ s.maps.configuration.profiles := by
  obtain ⟨ctx, -, hi, -⟩ := h
  rw [(inspect_fields hi).2.2.2]
  exact activeProfile_mem _ _

/-- A packet finds a bucket within the limits, also if it makes one. -/
theorem Bounded.fetch (hs : Bounded l s) {q : FlowPacket} (h : Evaluated nt s e q) :
    (fetchBucket q (s.maps.cell q.key).bucket).tokens.toNat ≤ l.tokens.toNat := by
  cases hb : (s.maps.cell q.key).bucket with
  | none => exact (hs.profiles _ h.profile_mem).burst
  | some b => exact hs.buckets q.key b hb

theorem bounded_started (hs : Started s)
    (hprofiles : ∀ profile ∈ s.maps.configuration.profiles, l.Allows profile) : Bounded l s := by
  obtain ⟨opt, o, faults, rowsV4, rowsV6, row, hstart⟩ := hs
  obtain ⟨hcells, persisted, hload, hconfig⟩ := startup_eq_some hstart
  have hconfiguration : s.maps.configuration = startConfig opt persisted := by
    simp only [Policy.configuration, hconfig, Option.getD_some]
  refine ⟨?_, hprofiles, ?_⟩
  · rw [hconfiguration]
    exact startConfig_rateShift_le hload
  · intro k b hb
    rw [hcells k] at hb
    cases hb

/-- An update within the limits leaves the profiles within the limits. -/
theorem Bounded.configuration_step (hs : Bounded l s) (he : l.Within e) :
    ∀ profile ∈ (operate nt e s).2.maps.configuration.profiles,
      profile.rateShift ≤ 63 ∧ l.Allows profile := by
  rcases operate_config nt e s with
    heq | ⟨session, patch, outcomes, faults, old, rfl, hold, hvalid, hnew⟩
  · have hsame : (operate nt e s).2.maps.configuration = s.maps.configuration := by
      simp only [Policy.configuration, heq]
    rw [hsame]
    exact fun profile hp => ⟨hs.shifts profile hp, hs.profiles profile hp⟩
  · have hbefore : s.maps.configuration = old := by simp [Policy.configuration, hold]
    have hprofiles : (operate nt (.updateConfig session patch outcomes faults)
        s).2.maps.configuration.profiles = (patch.apply old).profiles := by
      rcases hnew with hnew | hnew
      · simp only [Policy.configuration, hnew, Option.getD_some]
      · simp only [Policy.configuration, hnew, Option.getD_some, profiles_clearAdapters]
    rw [hprofiles]
    intro profile hp
    rcases mem_profiles_apply hp with hmem | hmem
    · rw [← hbefore] at hmem
      exact ⟨hs.shifts profile hmem, hs.profiles profile hmem⟩
    · exact ⟨(validate_ok_iff patch).mp hvalid profile hmem, he profile hmem⟩

theorem Bounded.bucket_step (hs : Bounded l s) (he : l.Within e) (k : FlowKey)
    (b : TokenBucketState) (hb : ((operate nt e s).2.maps.cell k).bucket = some b) :
    b.tokens.toNat ≤ l.tokens.toNat := by
  rcases operate_bucket nt e s k with
    heq | heq | ⟨r, b', rfl, hasks, heq⟩ | ⟨ctx, q, rfl, hi, rfl, hev, heq⟩
  · rw [heq] at hb
    exact hs.buckets k b hb
  · rw [heq] at hb
    cases hb
  · cases heq.symm.trans hb
    exact he _ hasks
  · cases heq.symm.trans hb
    have hq : Evaluated nt s (.packet ctx) q := ⟨ctx, rfl, hi, hev⟩
    exact evaluateBucket_tokens_le q.ktimeBucket (hs.fetch hq)
      (hs.profiles _ hq.profile_mem).burst

theorem Bounded.step (hs : Bounded l s) (he : l.Within e) : Bounded l (operate nt e s).2 :=
  ⟨fun profile hp => (hs.configuration_step he profile hp).1,
    fun profile hp => (hs.configuration_step he profile hp).2, hs.bucket_step he⟩

theorem Bounded.shiftSafe (hs : Bounded l s) : ShiftSafe nt s e := by
  intro q hq
  have hle := UInt64.le_iff_toNat_le.mp (hs.shifts _ hq.profile_mem)
  exact UInt64.lt_iff_toNat_lt.mpr (Nat.lt_succ_of_le hle)

/-- Within limits that fit together no sum overflows. -/
theorem Bounded.sumSafe (hl : l.Fits) (hs : Bounded l s) (he : l.Within e) : SumSafe nt s e := by
  intro q hq
  have hfetch := hs.fetch hq
  have hshift := UInt64.le_iff_toNat_le.mp (hs.shifts _ hq.profile_mem)
  have hleast := (hs.profiles _ hq.profile_mem).rateShift
  obtain ⟨ctx, rfl, hi, -⟩ := hq
  have hclock : q.ktimeBucket.toNat ≤ l.clock.toNat := by
    rw [(inspect_fields hi).2.2.1]
    exact he
  have hgen : (q.ktimeBucket.toNat - (fetchBucket q (s.maps.cell q.key).bucket).lastUpdate.toNat) /
      2 ^ q.profile.rateShift.toNat ≤ l.clock.toNat / 2 ^ l.rateShift.val :=
    Nat.div_le_div (by omega) (Nat.pow_le_pow_right (by decide) hleast) (by positivity)
  unfold NoOverflow
  rw [toNat_generated hshift, period]
  unfold Limits.Fits at hl
  omega

end Step

/-! ## A run at its limits -/

/-- Two adapters and one profile for every protocol. -/
def uniformConfig (profile : RateProfile) : FirewallConfig :=
  { openConfig with
    ddosActivated := true
    tcpProfile := profile
    udpProfile := profile
    icmpProfile := profile
    defaultProfile := profile }

/-- The state after a start from the saved configuration. -/
def uniformState (profile : RateProfile) : FirewallState where
  maps := freshMaps (uniformConfig profile)
  row := (firewallConfigRow (uniformConfig profile)).toOption
  ebpf := (EbpfProgramm.new.reboot noAttach (uniformConfig profile)).2

def keyJson (t : FiveTuple UInt32) : Json :=
  .obj [("source_addr", .int t.sourceAddr.toNat),
    ("destination_addr", .int t.destinationAddr.toNat),
    ("source_port", .int t.sourcePort.toNat),
    ("destination_port", .int t.destinationPort.toNat), ("protocol", .int t.protocol.toNat)]

def bucketJson (b : TokenBucketState) : Json :=
  .obj [("tokens", .int b.tokens.toNat), ("last_update", .int b.lastUpdate.toNat)]

/-- A POST of a bucket. -/
def storeBucket (t : FiveTuple UInt32) (b : TokenBucketState) : FlowRequest where
  method := .POST
  table := .packetCounts
  family := .v4
  session := some .root
  contentType := .json
  body := some (.obj [("key", keyJson t), ("state", bucketJson b)])
  insertFails := false
  yieldedV4 := []
  yieldedV6 := []

/-- The tuple of `udpRequest`. -/
def udpTuple : FiveTuple UInt32 := ⟨0x0A000001, 0xCB007109, 53, 80, 17⟩

def udpAt (now : UInt64) : XdpContext := { udpRequest with ktimeFlow := now, ktimeBucket := now }

/-- The bucket is stored, and then a packet comes. -/
def overrun (b : TokenBucketState) (now : UInt64) : List Occurrence :=
  [.flowRequest (storeBucket udpTuple b), .packet (udpAt now)]

theorem uniform_started {profile : RateProfile} (hs : profile.rateShift.toNat ≤ 63)
    (hb : profile.burst.toNat ≤ I64_MAX) : Started (uniformState profile) := by
  have hshift : profile.rateShift.toNat ≤ I64_MAX := hs.trans (by decide)
  have hfits : FitsSqlite (uniformConfig profile) :=
    ⟨⟨hshift, hb⟩, ⟨hshift, hb⟩, ⟨hshift, hb⟩, ⟨hshift, hb⟩⟩
  obtain ⟨row, hrow⟩ := (firewallConfigRow_ok_iff _).mpr hfits
  refine ⟨⟨none, none⟩, noAttach, .never, [], [], some row, ?_⟩
  have hle : ∀ profile' ∈ (uniformConfig profile).profiles, profile'.rateShift ≤ 63 := by
    intro profile' hp
    simp only [uniformConfig, FirewallConfig.profiles, List.mem_cons, List.not_mem_nil, or_false,
      or_self] at hp
    rw [hp]
    exact UInt64.le_iff_toNat_le.mpr hs
  have hbits : ActivaterEtherTypes.fromBits (uniformConfig profile).protocolAllowed.bits =
      some (uniformConfig profile).protocolAllowed := by
    change ActivaterEtherTypes.fromBits 18 = some ⟨18⟩
    decide
  rw [startup_saved ⟨none, none⟩ noAttach hrow hle hbits]
  simp only [uniformState, hrow, Except.toOption]

theorem keyJson_decode (t : FiveTuple UInt32) :
    decodeIpv4Packet (keyJson t) = some t.toIpv4Packet := by
  have hsource : required u32 ⟨"source_addr", 0⟩ (keyJson t) = some t.sourceAddr :=
    (required_of_values rfl).trans (u32_int _)
  have hdestination : required u32 ⟨"destination_addr", 1⟩ (keyJson t) = some t.destinationAddr :=
    (required_of_values rfl).trans (u32_int _)
  have hsport : required u16 ⟨"source_port", 2⟩ (keyJson t) = some t.sourcePort :=
    (required_of_values rfl).trans (u16_int _)
  have hdport : required u16 ⟨"destination_port", 3⟩ (keyJson t) = some t.destinationPort :=
    (required_of_values rfl).trans (u16_int _)
  have hprotocol : required u8 ⟨"protocol", 4⟩ (keyJson t) = some t.protocol :=
    (required_of_values rfl).trans (u8_int _)
  have hpad : defaulted u8 ⟨"_pad", 5⟩ 0 (keyJson t) = some 0 := rfl
  have hpad2 : defaulted u16 ⟨"_pad2", 6⟩ 0 (keyJson t) = some 0 := rfl
  have hstruct : (keyJson t).isStruct 7 = true := rfl
  simp [decodeIpv4Packet, hsource, hdestination, hsport, hdport, hprotocol, hpad, hpad2, hstruct,
    FiveTuple.toIpv4Packet, Ipv4Packet.new]

theorem bucketJson_decode (b : TokenBucketState) :
    decodeTokenBucketState (bucketJson b) = some b := by
  have htokens : required u64 ⟨"tokens", 0⟩ (bucketJson b) = some b.tokens :=
    (required_of_values rfl).trans (u64_int _)
  have hlast : required u64 ⟨"last_update", 1⟩ (bucketJson b) = some b.lastUpdate :=
    (required_of_values rfl).trans (u64_int _)
  have hstruct : (bucketJson b).isStruct 2 = true := rfl
  simp [decodeTokenBucketState, htokens, hlast, hstruct]

section Stored

variable (t : FiveTuple UInt32) (b : TokenBucketState)

theorem required_bucket :
    required decodeTokenBucketState ⟨"state", 1⟩
      (.obj [("key", keyJson t), ("state", bucketJson b)]) = some b :=
  (required_of_values rfl).trans (bucketJson_decode b)

theorem storeBucket_decode :
    decodePacketCountV4Update (.obj [("key", keyJson t), ("state", bucketJson b)]) =
      some ⟨t.toIpv4Packet, b⟩ := by
  have hkey : required decodeIpv4Packet ⟨"key", 0⟩
      (.obj [("key", keyJson t), ("state", bucketJson b)]) = some t.toIpv4Packet :=
    (required_of_values rfl).trans (keyJson_decode t)
  simp [decodePacketCountV4Update, decodeUpdate, hkey, required_bucket, Json.isStruct]

theorem storeBucket_body :
    (storeBucket t b).body = some (.obj [("key", keyJson t), ("state", bucketJson b)]) := rfl

theorem storeBucket_asks : (storeBucket t b).asks = some (.bucket (some b)) := by
  have hasks : (storeBucket t b).asks = ((storeBucket t b).body.bind
      (required decodeTokenBucketState ⟨"state", 1⟩)).map fun s => .bucket (some s) := rfl
  rw [hasks, storeBucket_body, Option.bind_some, required_bucket, Option.map_some]

/-- The request is accepted, and the flow has the bucket. -/
theorem storeBucket_served (m : Maps) :
    Accepted (serve (storeBucket t b) m) ∧
      ((serve (storeBucket t b) m).2.cell (.v4 t.toIpv4Packet)).bucket = some b := by
  have hserve : serve (storeBucket t b) m =
      answer (extractJson decodePacketCountV4Update .json (storeBucket t b).body)
        (modifyPacketCountsV4 (some .root) false) m := rfl
  have hmay : CallerContext.root.may .MODIFY = true := by decide
  rw [hserve, storeBucket_body, extractJson, Option.bind_some, storeBucket_decode]
  simp [answer, Accepted, modifyPacketCountsV4, modifyMap, withPermission, hmay, packetCountsV4,
    Maps.cell, FlowMaps.cell, LruHashMap.insert]

end Stored

/-- The packet of `udpAt`, as its flow sees it. -/
def udpPacket (profile : RateProfile) (now : UInt64) : FlowPacket :=
  ⟨udpFlow, .outgoing, true, profile, false, now, now⟩

theorem udpAt_inspect (profile : RateProfile) (now : UInt64) :
    inspect rfcTypes (freshMaps (uniformConfig profile)).toPolicy (udpAt now) =
      .inr (udpPacket profile now) := by
  have hread : (parseIpv4 rfcTypes (udpAt now).data).map
      (fun h => (h.flowKey Ipv4Packet.new .outgoing, h.protocol, h.removeFromHashmap)) =
        .ok (udpTuple.toIpv4Packet, .Udp, false) := by
    change (parseIpv4 rfcTypes udpRequest.data).map _ = _
    decide +kernel
  have htype : frameType rfcTypes (udpAt now) = some .ipv4 := by
    change frameType rfcTypes udpRequest = _
    decide
  cases hp : parseIpv4 rfcTypes (udpAt now).data with
  | error e => simp [hp, Except.map] at hread
  | ok hd =>
    simp only [hp, Except.map, Except.ok.injEq, Prod.mk.injEq] at hread
    obtain ⟨hkey, hprotocol, hremove⟩ := hread
    have hdirection : (freshMaps (uniformConfig profile)).direction (udpAt now) = .outgoing := rfl
    have hallowed : (freshMaps (uniformConfig profile)).configuration.protocolAllowed.contains
        .IPV4 = true := by
      change ActivaterEtherTypes.contains ⟨18⟩ .IPV4 = true
      decide
    rw [inspect_parseIpv4 htype hallowed hp, hdirection, hkey, hprotocol, hremove]
    rfl

theorem udpAt_evaluated {profile : RateProfile} {s : FirewallState} (now : UInt64)
    (hs : s.maps.toPolicy = (freshMaps (uniformConfig profile)).toPolicy) :
    Evaluated rfcTypes s (.packet (udpAt now)) (udpPacket profile now) := by
  refine ⟨udpAt now, rfl, by rw [hs, udpAt_inspect], rfl, rfl, .inl rfl, ?_⟩
  rw [hs]
  rfl

/-- The packet evaluates the bucket that has been stored. -/
theorem overrun_unsafe {profile : RateProfile} {b : TokenBucketState} {now : UInt64}
    (h : ¬ NoOverflow profile b now) :
    ¬ Always (operate rfcTypes) (SumSafe rfcTypes) (uniformState profile) (overrun b now) := by
  rintro ⟨-, hsafe, -⟩
  have hmaps := operate_flowRequest rfcTypes (storeBucket udpTuple b) (uniformState profile)
  generalize hnext : (operate rfcTypes (.flowRequest (storeBucket udpTuple b))
    (uniformState profile)).2 = next at hsafe hmaps
  have hpolicy : next.maps.toPolicy = (freshMaps (uniformConfig profile)).toPolicy := by
    rw [hmaps, serve_toPolicy]
    rfl
  have hbucket : (next.maps.cell udpFlow).bucket = some b := by
    rw [hmaps]
    exact (storeBucket_served udpTuple b _).2
  have hsum := hsafe _ (udpAt_evaluated now hpolicy)
  simp only [udpPacket, hbucket] at hsum
  exact h hsum

theorem overrun_timed (b : TokenBucketState) (now : UInt64) : Timed (overrun b now) := by
  simp [Timed, overrun, List.filterMap_cons, clockOf]

theorem overrun_served (profile : RateProfile) (b : TokenBucketState) (now : UInt64) :
    Always (operate rfcTypes) Served (uniformState profile) (overrun b now) :=
  ⟨(storeBucket_served udpTuple b _).1, trivial, trivial⟩

theorem overrun_within {l : Limits} {b : TokenBucketState} {now : UInt64}
    (hb : b.tokens.toNat ≤ l.tokens.toNat) (hnow : now.toNat ≤ l.clock.toNat) :
    ∀ e ∈ overrun b now, l.Within e := by
  intro e he
  simp only [overrun, List.mem_cons, List.not_mem_nil, or_false] at he
  rcases he with rfl | rfl
  · intro b' hasks
    rw [storeBucket_asks] at hasks
    cases hasks
    exact hb
  · exact hnow

/-! ## The bound -/

/-- Limits that exclude nothing. -/
def Limits.loosest : Limits := ⟨0xFFFFFFFFFFFFFFFF, 0, 0xFFFFFFFFFFFFFFFF⟩

theorem allows_loosest (profile : RateProfile) : Limits.loosest.Allows profile :=
  ⟨Nat.le_of_lt_succ profile.burst.toNat_lt, Nat.zero_le _⟩

theorem within_loosest (e : Occurrence) : Limits.loosest.Within e := by
  cases e with
  | packet ctx => exact Nat.le_of_lt_succ ctx.ktimeBucket.toNat_lt
  | updateConfig session patch outcomes faults => exact fun profile _ => allows_loosest profile
  | flowRequest r => exact fun b _ => Nat.le_of_lt_succ b.tokens.toNat_lt
  | cleanup => trivial
  | evict => trivial

/-- The profile with the fastest refill within the limits. -/
def Limits.fastest (l : Limits) : RateProfile := ⟨UInt64.ofNat l.rateShift.val, 0⟩

theorem fastest_rateShift (l : Limits) : l.fastest.rateShift.toNat = l.rateShift.val :=
  UInt64.toNat_ofNat_of_lt' (l.rateShift.isLt.trans (by decide))

theorem fastest_le (l : Limits) : l.fastest.rateShift.toNat ≤ 63 := by
  have := l.rateShift.isLt
  rw [fastest_rateShift]
  omega

theorem allows_fastest (l : Limits) : l.Allows l.fastest :=
  ⟨Nat.zero_le _, Nat.le_of_eq (fastest_rateShift l).symm⟩

/-- The limits fit together if the most tokens and the most refill do. -/
theorem noOverflow_iff_fits (l : Limits) :
    NoOverflow l.fastest ⟨l.tokens, 0⟩ l.clock ↔ l.Fits := by
  have hgen := toNat_generated (fastest_le l) l.clock 0
  simp only [period, fastest_rateShift, UInt64.toNat_zero, Nat.sub_zero] at hgen
  unfold NoOverflow Limits.Fits
  rw [hgen]

/-- In every run from a start the shift of an evaluated bucket is one of a 64-bit word.
Within limits the sum of its tokens and its refill is one too, in every run, exactly
if the limits fit together. -/
theorem bucket_arithmetic (l : Limits) :
    (∀ nt s es, Started s → Always (operate nt) (ShiftSafe nt) s es) ∧
    ((∀ nt s es, Started s → (∀ profile ∈ s.maps.configuration.profiles, l.Allows profile) →
      (∀ e ∈ es, l.Within e) → Timed es → Always (operate nt) Served s es →
      Always (operate nt) (SumSafe nt) s es) ↔ l.Fits) := by
  refine ⟨fun nt s es hs => ?_, fun hall => ?_, fun hfits nt s es hs hprofiles hes _ _ => ?_⟩
  · refine always_of_invariant (I := Bounded Limits.loosest) (C := fun _ _ => True) ?_ s es
      (bounded_started hs fun profile _ => allows_loosest profile)
      (always_of_forall s es fun _ _ => trivial)
    exact fun t e ht _ => ⟨ht.shiftSafe, ht.step (within_loosest e)⟩
  · by_contra hnot
    have hallows : ∀ profile ∈ (uniformState l.fastest).maps.configuration.profiles,
        l.Allows profile := by
      intro profile hp
      have hsame : profile = l.fastest := by
        simpa [uniformState, Policy.configuration, freshMaps, FirewallConfig.profiles,
          uniformConfig] using hp
      rw [hsame]
      exact allows_fastest l
    have hsafe := hall rfcTypes _ _ (uniform_started (fastest_le l) (Nat.zero_le _)) hallows
      (overrun_within (le_refl _) (le_refl _)) (overrun_timed ⟨l.tokens, 0⟩ l.clock)
      (overrun_served _ _ _)
    exact overrun_unsafe (mt (noOverflow_iff_fits l).mp hnot) hsafe
  · refine always_of_invariant (I := Bounded l) (C := fun _ e => l.Within e) ?_ s es
      (bounded_started hs hprofiles) (always_of_forall s es hes)
    exact fun t e ht he => ⟨ht.sumSafe hfits he, ht.step he⟩

/-- A bucket that is stored with all the tokens there are overflows at the first refill,
under the default profile for UDP. -/
theorem bucket_arithmetic_overflow :
    Started (uniformState ⟨19, 2000⟩) ∧
      Timed (overrun ⟨0xFFFFFFFFFFFFFFFF, 0⟩ 0x80000) ∧
      Always (operate rfcTypes) Served (uniformState ⟨19, 2000⟩)
        (overrun ⟨0xFFFFFFFFFFFFFFFF, 0⟩ 0x80000) ∧
      ¬ Always (operate rfcTypes) (SumSafe rfcTypes) (uniformState ⟨19, 2000⟩)
        (overrun ⟨0xFFFFFFFFFFFFFFFF, 0⟩ 0x80000) := by
  refine ⟨uniform_started (by decide) (by decide), overrun_timed _ _, overrun_served _ _ _,
    overrun_unsafe ?_⟩
  unfold NoOverflow
  decide +kernel

end Oxidrop.Overflow
