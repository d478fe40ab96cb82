import Oxidrop.RateLimit

/-!
# The bucket of one flow

`evaluateBucket` iterated over the packets of a flow, each on the bucket that the
one before has written back. The bucket starts full at its creation. It grants
no more than it earns, and it starves no flow.
-/
namespace Oxidrop.Metering

open Run RateLimit
open TokenBucket (Bucket Trace PromptTrace Prompt granted granted_le granted_all window_le Ordered)

/-- A packet at time `now` on the bucket of its flow. -/
def meter (profile : RateProfile) : Machine UInt64 TokenBucketState Verdict :=
  fun now bucket => evaluateBucket bucket profile now

/-- The `unwrap_or` of a flow without a bucket. -/
def created (profile : RateProfile) (t₀ : UInt64) : TokenBucketState := ⟨profile.burst, t₀⟩

/-- The bucket stage is a step of the meter, written back. -/
theorem bucketStep_meter {config : FirewallConfig} (hddos : config.ddosActivated = true)
    (p : FlowPacket) (b : Option TokenBucketState) :
    forwarded (bucketStep config p b).1 =
        forwarded (meter p.profile p.ktimeBucket (fetchBucket p b)).1 ∧
      (bucketStep config p b).2 = some (meter p.profile p.ktimeBucket (fetchBucket p b)).2 := by
  have hfst := evaluateBucket_fst (fetchBucket p b) p.profile p.ktimeBucket
  unfold bucketStep meter
  rw [if_pos hddos]
  cases hr : evaluateBucket (fetchBucket p b) p.profile p.ktimeBucket with
  | mk verdict b' =>
    rw [hr] at hfst
    cases verdict with
    | ok action =>
      split at hfst
      · cases hfst
        exact ⟨forwarded_redirectOrPass config p.direction, rfl⟩
      · cases hfst
    | error e => exact ⟨rfl, rfl⟩

/-- A packet evaluates its bucket and writes it back, or leaves it alone, or removes
it with its flow. -/
theorem cellStep_bucket (config : FirewallConfig) (q : FlowPacket) (c : Cell) :
    (Evaluates config q c ∧ (cellStep config q c).2.bucket =
      some (meter q.profile q.ktimeBucket (fetchBucket q c.bucket)).2) ∨
    (¬ Evaluates config q c ∧
      ((cellStep config q c).2.bucket = c.bucket ∨ (cellStep config q c).2.bucket = none)) := by
  rcases cellStep_cases config q c with
    ⟨ha, hstep⟩ | ⟨ha, hr, hstep⟩ | ⟨ha, hr, hd, hc, hstep⟩ | ⟨ha, hr, hd, hstep⟩
  · exact .inr ⟨fun h => by simp [h.admitted] at ha, .inl (by rw [hstep])⟩
  · exact .inr ⟨fun h => by simp [h.kept] at hr, .inr (by rw [hstep])⟩
  · refine .inr ⟨fun h => ?_, .inl (by rw [hstep])⟩
    rcases h.tracked with hout | hallow
    · simp [hd] at hout
    · simp [hc] at hallow
  · rw [hstep]
    by_cases hl : config.ddosActivated = true
    · exact .inl ⟨⟨ha, hr, hd, hl⟩, (bucketStep_meter hl q c.bucket).2⟩
    · exact .inr ⟨fun h => hl h.limited, .inl (by simp [bucketStep, hl])⟩

section Fates

variable {profile : RateProfile} {b : TokenBucketState} {t₀ : UInt64} {ts : List UInt64}

/-- The packets with their times and whether they were granted. -/
def fates (profile : RateProfile) : TokenBucketState → List UInt64 → List (Nat × Bool)
  | _, [] => []
  | b, t :: ts =>
    (t.toNat, forwarded (meter profile t b).1) :: fates profile (meter profile t b).2 ts

theorem fates_append (profile : RateProfile) (b : TokenBucketState) (xs ys : List UInt64) :
    fates profile b (xs ++ ys) =
      fates profile b xs ++ fates profile (run (meter profile) b xs) ys := by
  induction xs generalizing b with
  | nil => rfl
  | cons x xs ih => simp only [List.cons_append, fates, run_cons, ih]

theorem fates_times (profile : RateProfile) (b : TokenBucketState) (ts : List UInt64) :
    (fates profile b ts).map Prod.fst = ts.map UInt64.toNat := by
  induction ts generalizing b with
  | nil => rfl
  | cons t ts ih => simp only [fates, List.map_cons, ih]

theorem fates_length (b : TokenBucketState) (ts : List UInt64) :
    (fates profile b ts).length = ts.length := by
  have h := congrArg List.length (fates_times profile b ts)
  simpa using h

theorem fates_between (b : TokenBucketState) (ts : List UInt64) {i j : Nat} (hij : i ≤ j)
    (hj : j ≤ ts.length) :
    ((fates profile b ts).take j).drop i =
      fates profile (run (meter profile) b (ts.take i)) ((ts.take j).drop i) := by
  have hi : (ts.take j).take i = ts.take i := by rw [List.take_take, Nat.min_eq_left hij]
  have hsplit := fates_append profile b ((ts.take j).take i) ((ts.take j).drop i)
  have hwhole := fates_append profile b (ts.take j) (ts.drop j)
  have hlen : (fates profile b (ts.take j)).length = j := by simp [fates_length, hj]
  have hlen' : (fates profile b (ts.take i)).length = i := by simp [fates_length]; omega
  rw [List.take_append_drop] at hwhole
  rw [List.take_append_drop, hi] at hsplit
  rw [hwhole, List.take_left' hlen, hsplit, List.drop_left' hlen']

theorem fates_ordered (b : TokenBucketState) (h : ts.Pairwise (· ≤ ·)) :
    Ordered (fates profile b ts) := by
  have htimes : ((fates profile b ts).map Prod.fst).Pairwise (· ≤ ·) := by
    rw [fates_times, List.pairwise_map]
    exact h.imp fun hle => UInt64.le_iff_toNat_le.mp hle
  exact List.pairwise_map.mp htimes

theorem fates_trace (hs : profile.rateShift.toNat ≤ 63) (b : TokenBucketState) (ts : List UInt64) :
    Trace (period profile) profile.burst.toNat (some (toBucket b)) (fates profile b ts)
      (some (toBucket (run (meter profile) b ts))) := by
  induction ts generalizing b with
  | nil => exact .nil _
  | cons t ts ih => exact .cons (evaluateBucket_step hs b t) (ih (meter profile t b).2)

end Fates

/-! ## Nothing beyond the rate -/

/-- The bucket after `k` packets. -/
def bucketAfter (profile : RateProfile) (t₀ : UInt64) (ts : List UInt64) (k : Nat) :
    TokenBucketState :=
  run (meter profile) (created profile t₀) (ts.take k)

/-- The time of packet `k`, and of the creation for `k = 0`. -/
def timeOf (t₀ : UInt64) (ts : List UInt64) (k : Nat) : Nat := ((t₀ :: ts).getD k 0).toNat

/-- How many of the packets from `i + 1` to `j` are granted. -/
def grantedBetween (profile : RateProfile) (t₀ : UInt64) (ts : List UInt64) (i j : Nat) : Nat :=
  (((fates profile (created profile t₀) ts).take j).drop i).countP Prod.snd

section Times

variable {profile : RateProfile} {t₀ : UInt64} {ts : List UInt64}

theorem timeOf_mono (h : (t₀ :: ts).Pairwise (· ≤ ·)) {i j : Nat} (hij : i ≤ j)
    (hj : j ≤ ts.length) : timeOf t₀ ts i ≤ timeOf t₀ ts j := by
  rcases Nat.eq_or_lt_of_le hij with rfl | hlt
  · exact le_refl _
  · have hi' : i < (t₀ :: ts).length := by simp; omega
    have hj' : j < (t₀ :: ts).length := by simp; omega
    have hle := List.pairwise_iff_getElem.mp h i j hi' hj' hlt
    simp only [timeOf, List.getD_eq_getElem?_getD, List.getElem?_eq_getElem hi',
      List.getElem?_eq_getElem hj', Option.getD_some]
    exact UInt64.le_iff_toNat_le.mp hle

theorem timeOf_succ (t₀ : UInt64) {k : Nat} (hk : k < ts.length) :
    timeOf t₀ ts (k + 1) = ts[k].toNat := by
  simp [timeOf, hk]

theorem fates_within (b : TokenBucketState) (h : (t₀ :: ts).Pairwise (· ≤ ·)) {i j : Nat}
    (hj : j ≤ ts.length) :
    ∀ p ∈ fates profile b ((ts.take j).drop i), timeOf t₀ ts i ≤ p.1 ∧ p.1 ≤ timeOf t₀ ts j := by
  intro p hp
  have hmem := List.mem_map_of_mem (f := Prod.fst) hp
  rw [fates_times] at hmem
  obtain ⟨t, ht, htp⟩ := List.mem_map.mp hmem
  obtain ⟨n, hn, rfl⟩ := List.getElem_of_mem ht
  simp only [List.length_drop, List.length_take] at hn
  have hget : ((ts.take j).drop i)[n] = ts[i + n] := by simp
  rw [hget, ← timeOf_succ t₀] at htp
  rw [← htp]
  exact ⟨timeOf_mono h (by omega) (by omega), timeOf_mono h (by omega) hj⟩

/-- The bucket never exceeds its burst and is never newer than its packets. -/
theorem bucketAfter_bounded (hs : profile.rateShift.toNat ≤ 63)
    (h : (t₀ :: ts).Pairwise (· ≤ ·)) {k : Nat} (hk : k ≤ ts.length) :
    (bucketAfter profile t₀ ts k).tokens.toNat ≤ profile.burst.toNat ∧
      (bucketAfter profile t₀ ts k).lastUpdate.toNat ≤ timeOf t₀ ts k := by
  induction k with
  | zero => exact ⟨le_refl _, le_refl _⟩
  | succ k ih =>
    obtain ⟨htokens, hlast⟩ := ih (by omega)
    have hstep : bucketAfter profile t₀ ts (k + 1) =
        (evaluateBucket (bucketAfter profile t₀ ts k) profile ts[k]).2 := by
      simp only [bucketAfter, List.take_add_one, List.getElem?_eq_getElem hk, run_append]
      rfl
    rw [hstep]
    have hbucket := evaluateBucket_step hs (bucketAfter profile t₀ ts k) ts[k]
    refine ⟨hbucket.tokens_le htokens, ?_⟩
    have hmono := timeOf_mono h (Nat.le_add_right k 1) hk
    have htime := timeOf_succ t₀ hk
    rw [(evaluateBucket_snd _ profile ts[k]).2]
    split <;> omega

theorem grantedBetween_eq (h : (t₀ :: ts).Pairwise (· ≤ ·)) {i j : Nat} (hij : i ≤ j)
    (hj : j ≤ ts.length) :
    grantedBetween profile t₀ ts i j =
      granted (timeOf t₀ ts i) (timeOf t₀ ts j)
        (fates profile (bucketAfter profile t₀ ts i) ((ts.take j).drop i)) := by
  rw [granted_all (fates_within _ h hj), grantedBetween, fates_between _ _ hij hj]
  rfl

theorem ordered_between (b : TokenBucketState) (h : (t₀ :: ts).Pairwise (· ≤ ·)) (i j : Nat) :
    Ordered (fates profile b ((ts.take j).drop i)) :=
  fates_ordered b (((List.pairwise_cons.mp h).2.sublist (List.take_sublist j ts)).sublist
    (List.drop_sublist i _))

end Times

/-- A bucket that is created at `t₀` stays within its burst, and grants in every
window its burst, one packet more and one for each period, and from its creation on
not even the one packet more. -/
theorem meter_bounded (profile : RateProfile) (t₀ : UInt64) (ts : List UInt64)
    (hs : profile.rateShift.toNat ≤ 63) (htime : (t₀ :: ts).Pairwise (· ≤ ·)) :
    (∀ k ≤ ts.length, (bucketAfter profile t₀ ts k).tokens ≤ profile.burst ∧
      (bucketAfter profile t₀ ts k).lastUpdate.toNat ≤ timeOf t₀ ts k) ∧
    (∀ i j, i < j → j ≤ ts.length → grantedBetween profile t₀ ts i j ≤
      profile.burst.toNat + 1 +
        (timeOf t₀ ts j - timeOf t₀ ts i) / 2 ^ profile.rateShift.toNat) ∧
    (∀ j ≤ ts.length, grantedBetween profile t₀ ts 0 j ≤
      profile.burst.toNat + (timeOf t₀ ts j - t₀.toNat) / 2 ^ profile.rateShift.toNat) := by
  refine ⟨fun k hk => ?_, fun i j hij hj => ?_, fun j hj => ?_⟩
  · obtain ⟨htokens, hlast⟩ := bucketAfter_bounded hs htime hk
    exact ⟨UInt64.le_iff_toNat_le.mpr htokens, hlast⟩
  · rw [grantedBetween_eq htime hij.le hj]
    refine window_le (period_pos profile) _ _ ?_ (ordered_between _ htime i j)
      (fates_trace hs _ _)
    intro b hb
    cases hb
    exact (bucketAfter_bounded hs htime (by omega)).1
  · rw [grantedBetween_eq htime (Nat.zero_le j) hj]
    exact granted_le _ _ (ordered_between _ htime 0 j) (fates_trace hs _ _)

theorem meter_bounded_burst :
    grantedBetween ⟨1, 2⟩ 0 [0, 0, 0, 2] 1 4 ≤ 2 + 1 + (2 - 0) / 2 ^ 1 :=
  (meter_bounded ⟨1, 2⟩ 0 [0, 0, 0, 2] (by decide) (by decide)).2.1 1 4 (by decide) (by decide)

/-! ## No starvation -/

/-- Tokens and refill fit into the counter. -/
def NoOverflow (profile : RateProfile) (b : TokenBucketState) (now : UInt64) : Prop :=
  b.tokens.toNat + (saturatingSub now b.lastUpdate >>> profile.rateShift).toNat < 2 ^ 64

section Prompt

variable {profile : RateProfile}

/-- Without overflow the evaluation grants what a packet is entitled to. -/
theorem evaluateBucket_prompt (hs : profile.rateShift.toNat ≤ 63) (hburst : 0 < profile.burst)
    {b : TokenBucketState} {now : UInt64} (hno : NoOverflow profile b now) :
    Prompt (period profile) (toBucket b) now.toNat (forwarded (evaluateBucket b profile now).1)
      (toBucket (evaluateBucket b profile now).2) := by
  have hgen := toNat_generated hs now b.lastUpdate
  have hburst := UInt64.lt_iff_toNat_lt.mp hburst
  have hlast := (evaluateBucket_snd b profile now).2
  have hpos : 0 < saturatingSub now b.lastUpdate >>> profile.rateShift ↔
      0 < (now.toNat - b.lastUpdate.toNat) / period profile := by
    rw [← hgen]
    exact UInt64.lt_iff_toNat_lt
  -- a packet with a token or a whole period finds a token
  have hok : 0 < b.tokens.toNat ∨ 0 < (now.toNat - b.lastUpdate.toNat) / period profile →
      forwarded (evaluateBucket b profile now).1 = true := by
    intro h
    have hav : 0 < available b profile now := by
      rw [UInt64.lt_iff_toNat_lt, available]
      by_cases hg : 0 < saturatingSub now b.lastUpdate >>> profile.rateShift
      · have hg' := UInt64.lt_iff_toNat_lt.mp hg
        rw [if_pos hg, toNat_min, UInt64.toNat_add, Nat.mod_eq_of_lt hno]
        simp only [UInt64.toNat_zero] at hburst hg' ⊢
        omega
      · rw [if_neg hg]
        exact h.resolve_right (fun h' => hg (hpos.mpr h'))
    rw [evaluateBucket_fst, if_pos hav]
    rfl
  constructor
  · exact fun h => hok (.inl h)
  · intro h
    have hn : ¬ 0 < saturatingSub now b.lastUpdate >>> profile.rateShift := by
      rw [hpos]
      simp only [toBucket] at h
      omega
    rw [if_neg hn] at hlast
    exact congrArg UInt64.toNat hlast
  · intro h
    rw [if_pos (hpos.mpr h)] at hlast
    exact ⟨hok (.inr h), congrArg UInt64.toNat hlast⟩

theorem fates_prompt (hs : profile.rateShift.toNat ≤ 63) (hburst : 0 < profile.burst)
    {b : TokenBucketState} {ts : List UInt64}
    (hno : Always (meter profile) (NoOverflow profile) b ts) :
    PromptTrace (period profile) (toBucket b) (fates profile b ts) := by
  induction ts generalizing b with
  | nil => exact .nil _
  | cons t ts ih => exact .cons (evaluateBucket_prompt hs hburst hno.1) (ih hno.2)

end Prompt

/-- The packets come densely enough between `a` and `e`: one in every part of
length `g`. -/
def Dense (ts : List UInt64) (a e g : Nat) : Prop :=
  ∀ x, a ≤ x → x + g ≤ e → ∃ t ∈ ts, x ≤ t.toNat ∧ t.toNat ≤ x + g

/-- No flow starves: a packet of it is granted in every interval that is longer than
a period and where packets come densely enough, and so is every packet that comes a
period after the one before it. -/
theorem meter_fair (profile : RateProfile) (t₀ : UInt64) (ts : List UInt64)
    (hs : profile.rateShift.toNat ≤ 63) (hburst : 0 < profile.burst)
    (htime : (t₀ :: ts).Pairwise (· ≤ ·))
    (hno : Always (meter profile) (NoOverflow profile) (created profile t₀) ts) :
    (∀ a e g, a + 2 ^ profile.rateShift.toNat + g ≤ e → Dense ts a e g →
      ∃ p ∈ fates profile (created profile t₀) ts, a ≤ p.1 ∧ p.1 ≤ e ∧ p.2 = true) ∧
    (∀ pre t u post, ts = pre ++ t :: u :: post →
      t.toNat + 2 ^ profile.rateShift.toNat ≤ u.toNat →
      forwarded (meter profile u (run (meter profile) (created profile t₀) (pre ++ [t]))).1 =
        true) := by
  have hprompt := fates_prompt hs hburst hno
  have hpos : 0 < 2 ^ profile.rateShift.toNat := period_pos profile
  constructor
  · intro a e g hae hdense
    obtain ⟨t, ht, hlow, hhigh⟩ := hdense (e - g) (by omega) (by omega)
    have hmem : t.toNat ∈ (fates profile (created profile t₀) ts).map Prod.fst := by
      rw [fates_times]
      exact List.mem_map_of_mem ht
    obtain ⟨q, hq, hqt⟩ := List.mem_map.mp hmem
    refine hprompt.exists_granted (period_pos profile)
      (fates_ordered _ (List.pairwise_cons.mp htime).2) ?_ ?_ hq ?_ ?_
    · intro p hp
      have hfirst := List.mem_map_of_mem (f := Prod.fst) hp
      rw [fates_times] at hfirst
      obtain ⟨t', ht', htp⟩ := List.mem_map.mp hfirst
      rw [← htp]
      exact UInt64.le_iff_toNat_le.mp ((List.pairwise_cons.mp htime).1 t' ht')
    · exact .inr (UInt64.lt_iff_toNat_lt.mp hburst)
    · rw [hqt, period]
      omega
    · omega
  · intro pre t u post hts hgap
    have hcut : ts = (pre ++ [t]) ++ u :: post := by simp [hts]
    have hfree := (always_iff _ _).mp hno (pre ++ [t]) u post hcut
    have hk : pre.length + 1 ≤ ts.length := by simp [hts]
    have hlast := (bucketAfter_bounded hs htime hk).2
    have hbefore : ts.take (pre.length + 1) = pre ++ [t] := by
      rw [hcut, List.take_left' (by simp)]
    have htime : timeOf t₀ ts (pre.length + 1) = t.toNat := by
      rw [timeOf_succ _ hk]
      simp [hts]
    rw [bucketAfter, hbefore, htime] at hlast
    refine ((evaluateBucket_prompt hs hburst hfree).refilled ?_).1
    exact Nat.div_pos (by simp only [toBucket, period]; omega) hpos

/-- A burst of one packet and a period of two: four packets at once, then one each
period. -/
theorem meter_fair_slow :
    ∃ p ∈ fates ⟨1, 1⟩ (created ⟨1, 1⟩ 5) [5, 5, 5, 5, 7, 9], 6 ≤ p.1 ∧ p.1 ≤ 10 ∧ p.2 = true := by
  refine (meter_fair ⟨1, 1⟩ 5 [5, 5, 5, 5, 7, 9] (by decide) (by decide) (by decide) ?_).1 6 10 2
    (by decide) ?_
  · simp only [always_cons, always_nil, and_true]
    unfold NoOverflow
    decide +kernel
  · intro x hlow hhigh
    have hx : x = 6 ∨ x = 7 ∨ x = 8 := by omega
    rcases hx with rfl | rfl | rfl
    · exact ⟨7, by decide⟩
    · exact ⟨7, by decide⟩
    · exact ⟨9, by decide⟩

end Oxidrop.Metering
