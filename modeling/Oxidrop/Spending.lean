import Oxidrop.RateLimit

/-!
# Buckets across CPUs

A packet copies the bucket of its flow out of the map, computes, and writes the
result back. Any number of packets of one flow may stand between their two map
operations. A step of this module's machine is one map operation.
-/
namespace Oxidrop.Spending

open Run
open RateLimit (period period_pos toBucket evaluateBucket_step evaluateBucket_snd)
open TokenBucket (Account granted granted_nil granted_cons_until)

/-- A packet between its lookup and its insert. -/
structure Fetch where
  now : UInt64
  found : Option TokenBucketState
  deriving DecidableEq, Repr

/-- The bucket that the packet computes with. -/
def Fetch.bucket (profile : RateProfile) (p : Fetch) : TokenBucketState :=
  p.found.getD ⟨profile.burst, p.now⟩

structure Meter where
  bucket : Option TokenBucketState
  flight : List Fetch
  deriving DecidableEq, Repr

/-- No packet has come yet. -/
def Meter.init : Meter := ⟨none, []⟩

inductive Step where
  | lookup (now : UInt64)
  | insert (i : Nat)
  deriving DecidableEq, Repr

/-- One map operation. The answer to an insert is the time of its packet and
whether the packet is forwarded. -/
def step (profile : RateProfile) : Machine Step Meter (Option (Nat × Bool))
  | .lookup now, s => (none, { s with flight := s.flight ++ [⟨now, s.bucket⟩] })
  | .insert i, s =>
    match s.flight[i]? with
    | some p =>
      let result := evaluateBucket (p.bucket profile) profile p.now
      (some (p.now.toNat, forwarded result.1), ⟨some result.2, s.flight.eraseIdx i⟩)
    | none => (none, s)

/-- The packets of a run in the order of their inserts. -/
def packets (profile : RateProfile) (s : Meter) (es : List Step) : List (Nat × Bool) :=
  (outputs (step profile) s es).filterMap id

/-- What an insert leaves: the bucket that its packet has computed. -/
def inserted (profile : RateProfile) (s : Meter) (i : Nat) (p : Fetch) : Meter :=
  ⟨some (evaluateBucket (p.bucket profile) profile p.now).2, s.flight.eraseIdx i⟩

theorem step_insert (profile : RateProfile) {s : Meter} {i : Nat} {p : Fetch}
    (hi : s.flight[i]? = some p) :
    step profile (.insert i) s =
      (some (p.now.toNat, forwarded (evaluateBucket (p.bucket profile) profile p.now).1),
        inserted profile s i p) := by
  simp only [step, hi, inserted]

theorem step_insert_none (profile : RateProfile) {s : Meter} {i : Nat}
    (hi : s.flight[i]? = none) : step profile (.insert i) s = (none, s) := by
  simp only [step, hi]

@[simp] theorem packets_nil (profile : RateProfile) (s : Meter) : packets profile s [] = [] := rfl

theorem packets_lookup (profile : RateProfile) (s : Meter) (now : UInt64) (es : List Step) :
    packets profile s (.lookup now :: es) =
      packets profile (step profile (.lookup now) s).2 es := rfl

theorem packets_insert {profile : RateProfile} {s : Meter} {i : Nat} {p : Fetch}
    (hi : s.flight[i]? = some p) (es : List Step) :
    packets profile s (.insert i :: es) =
      (p.now.toNat, forwarded (evaluateBucket (p.bucket profile) profile p.now).1) ::
        packets profile (inserted profile s i p) es := by
  simp [packets, step_insert profile hi]

theorem packets_insert_none {profile : RateProfile} {s : Meter} {i : Nat}
    (hi : s.flight[i]? = none) (es : List Step) :
    packets profile s (.insert i :: es) = packets profile s es := by
  simp [packets, step_insert_none profile hi]

/-- Two steps in a row are the bucket stage. -/
theorem bucketStep_alone {config : FirewallConfig} (hddos : config.ddosActivated = true)
    (q : FlowPacket) (b : Option TokenBucketState) :
    run (step q.profile) ⟨b, []⟩ [.lookup q.ktimeBucket, .insert 0] =
        ⟨(bucketStep config q b).2, []⟩ ∧
      packets q.profile ⟨b, []⟩ [.lookup q.ktimeBucket, .insert 0] =
        [(q.ktimeBucket.toNat, forwarded (bucketStep config q b).1)] := by
  have hfetch : Fetch.bucket q.profile ⟨q.ktimeBucket, b⟩ = fetchBucket q b := rfl
  have hfst := evaluateBucket_fst (fetchBucket q b) q.profile q.ktimeBucket
  simp only [packets, run_cons, run_nil, outputs_cons, outputs_nil, step, List.nil_append,
    List.getElem?_cons_zero, List.eraseIdx_cons_zero, hfetch, bucketStep, hddos, if_true]
  cases hr : evaluateBucket (fetchBucket q b) q.profile q.ktimeBucket with
  | mk verdict b' =>
    rw [hr] at hfst
    cases verdict with
    | ok action =>
      split at hfst
      · cases hfst
        refine ⟨rfl, ?_⟩
        rw [forwarded_redirectOrPass]
        rfl
      · cases hfst
    | error e => simp [forwarded]

/-- A packet that is not interrupted between its two steps does what the data
plane does. -/
theorem packet_alone {nt : NetworkTypes} {m : Maps} {ctx : XdpContext} {q : FlowPacket}
    (hi : inspect nt m.toPolicy ctx = .inr q) (hddos : m.configuration.ddosActivated = true)
    (ha : q.admitted = true) (hr : q.remove = false)
    (hd : q.direction = .outgoing ∨ (m.cell q.key).allows = true) :
    run (step q.profile) ⟨(m.cell q.key).bucket, []⟩ [.lookup q.ktimeBucket, .insert 0] =
        ⟨((xdpFirewall nt ctx m).2.cell q.key).bucket, []⟩ ∧
      packets q.profile ⟨(m.cell q.key).bucket, []⟩ [.lookup q.ktimeBucket, .insert 0] =
        [(q.ktimeBucket.toNat, forwarded (xdpFirewall nt ctx m).1)] := by
  rw [xdpFirewall_inr hi, cellStep_tracked ha hr hd, Maps.cell_setCell_self]
  exact bucketStep_alone hddos q (m.cell q.key).bucket

/-! ## What is spent -/

def lookupTime : Step → Option Nat
  | .lookup now => some now.toNat
  | .insert _ => none

/-- The packets read the clock in the order of their lookups. -/
def Timed (es : List Step) : Prop := (es.filterMap lookupTime).Pairwise (· ≤ ·)

/-- From the packet that creates the bucket on, no token is spent twice: up to
every time `t` the flow gets at most its burst and one packet for each period. -/
def SpendsOnce (profile : RateProfile) (es : List Step) : Prop :=
  ∀ t₀ ok rest, packets profile .init es = (t₀, ok) :: rest →
    ∀ t, granted t₀ t (packets profile .init es) ≤
      profile.burst.toNat + (t - t₀) / 2 ^ profile.rateShift.toNat

/-- An insert overwrites the bucket that its packet has read, and no other. -/
def Current (s : Meter) : Step → Prop
  | .lookup _ => True
  | .insert i => ∀ p, s.flight[i]? = some p → p.found = s.bucket

/-- No refill is later than the clock, and no packet has read a later refill
than its own time. -/
structure Clocked (clock : Nat) (s : Meter) : Prop where
  last_le : ∀ b, s.bucket = some b → b.lastUpdate.toNat ≤ clock
  now_le : ∀ p ∈ s.flight, p.now.toNat ≤ clock
  found_le : ∀ p ∈ s.flight, ∀ b, p.found = some b → b.lastUpdate.toNat ≤ p.now.toNat

theorem clocked_init (clock : Nat) : Clocked clock .init := by
  constructor <;> simp [Meter.init]

theorem Clocked.bucket_le {profile : RateProfile} {clock : Nat} {s : Meter}
    (h : Clocked clock s) {p : Fetch} (hp : p ∈ s.flight) :
    (p.bucket profile).lastUpdate.toNat ≤ p.now.toNat := by
  cases hf : p.found with
  | none => simp [Fetch.bucket, hf]
  | some b => simpa [Fetch.bucket, hf] using h.found_le p hp b hf

/-- A lookup moves the clock. -/
theorem Clocked.lookup {profile : RateProfile} {clock : Nat} {s : Meter} {now : UInt64}
    (h : Clocked clock s) (hnow : clock ≤ now.toNat) :
    Clocked now.toNat (step profile (.lookup now) s).2 := by
  refine ⟨fun b hb => (h.last_le b hb).trans hnow, fun p hp => ?_, fun p hp b hb => ?_⟩
  · rcases List.mem_append.mp hp with hp | hp
    · exact (h.now_le p hp).trans hnow
    · obtain rfl := List.mem_singleton.mp hp
      exact le_refl _
  · rcases List.mem_append.mp hp with hp | hp
    · exact h.found_le p hp b hb
    · obtain rfl := List.mem_singleton.mp hp
      exact (h.last_le b hb).trans hnow

/-- An insert leaves the clock where it is. -/
theorem Clocked.inserted {profile : RateProfile} {clock : Nat} {s : Meter} {i : Nat} {p : Fetch}
    (h : Clocked clock s) (hi : s.flight[i]? = some p) :
    Clocked clock (Spending.inserted profile s i p) := by
  have hp : p ∈ s.flight := List.mem_of_getElem? hi
  have hkeep : ∀ p' ∈ s.flight.eraseIdx i, p' ∈ s.flight := fun p' hp' =>
    List.mem_of_mem_eraseIdx hp'
  refine ⟨fun b hb => ?_, fun p' hp' => h.now_le p' (hkeep p' hp'),
    fun p' hp' => h.found_le p' (hkeep p' hp')⟩
  cases hb
  rw [(evaluateBucket_snd (p.bucket profile) profile p.now).2]
  split
  · exact h.now_le p hp
  · exact (h.bucket_le hp).trans (h.now_le p hp)

/-- What one insert takes from the account of the bucket that it has read. -/
theorem account_inserted {profile : RateProfile} (hs : profile.rateShift.toNat ≤ 63)
    {clock due t n : Nat} {s : Meter} {i : Nat} {p : Fetch} (hclock : Clocked clock s)
    (hi : s.flight[i]? = some p)
    (hacc : Account (period profile) due t n (toBucket (p.bucket profile))) :
    Account (period profile) due t
      (n + if p.now.toNat ≤ t then
        (forwarded (evaluateBucket (p.bucket profile) profile p.now).1).toNat else 0)
      (toBucket (evaluateBucket (p.bucket profile) profile p.now).2) :=
  (evaluateBucket_step hs (p.bucket profile) p.now).account
    (hclock.bucket_le (List.mem_of_getElem? hi)) hacc

/-- From a bucket with an account on, a run whose inserts are all current grants
no more than is due. -/
theorem granted_le_due {profile : RateProfile} (hs : profile.rateShift.toNat ≤ 63)
    {es : List Step} {s : Meter} {b : TokenBucketState} {clock due t n : Nat}
    (hb : s.bucket = some b) (hclock : Clocked clock s)
    (hacc : Account (period profile) due t n (toBucket b))
    (htime : (clock :: es.filterMap lookupTime).Pairwise (· ≤ ·))
    (h : Always (step profile) Current s es) (t₀ : Nat) :
    n + granted t₀ t (packets profile s es) ≤ due := by
  induction es generalizing s b clock n with
  | nil => simpa using hacc.spent
  | cons e es ih =>
    obtain ⟨hcurrent, hrest⟩ := h
    cases e with
    | lookup now =>
      obtain ⟨hle, htail⟩ := List.pairwise_cons.mp htime
      rw [packets_lookup]
      exact ih hb (hclock.lookup (hle now.toNat (by simp [lookupTime]))) hacc htail hrest
    | insert i =>
      cases hi : s.flight[i]? with
      | none =>
        rw [step_insert_none profile hi] at hrest
        rw [packets_insert_none hi]
        exact ih hb hclock hacc htime hrest
      | some p =>
        have hfound : p.bucket profile = b := by
          simp [Fetch.bucket, hcurrent p hi, hb]
        rw [step_insert profile hi] at hrest
        rw [packets_insert hi]
        have htail := ih rfl (hclock.inserted hi)
          (account_inserted hs hclock hi (by rw [hfound]; exact hacc)) htime hrest
        have hcons := granted_cons_until t₀ t p.now.toNat
          (forwarded (evaluateBucket (p.bucket profile) profile p.now).1)
          (packets profile (inserted profile s i p) es)
        omega

/-- The packet that creates the bucket opens its account. -/
theorem granted_le_created {profile : RateProfile} (hs : profile.rateShift.toNat ≤ 63)
    {es : List Step} {s : Meter} {clock t₀ : Nat} {ok : Bool} {rest : List (Nat × Bool)}
    (hb : s.bucket = none) (hclock : Clocked clock s)
    (htime : (clock :: es.filterMap lookupTime).Pairwise (· ≤ ·))
    (h : Always (step profile) Current s es) (hfirst : packets profile s es = (t₀, ok) :: rest)
    (t : Nat) :
    granted t₀ t (packets profile s es) ≤
      profile.burst.toNat + (t - t₀) / period profile := by
  induction es generalizing s clock with
  | nil => simp at hfirst
  | cons e es ih =>
    obtain ⟨hcurrent, hrest⟩ := h
    cases e with
    | lookup now =>
      obtain ⟨hle, htail⟩ := List.pairwise_cons.mp htime
      exact ih hb (hclock.lookup (hle now.toNat (by simp [lookupTime]))) htail hrest hfirst
    | insert i =>
      cases hi : s.flight[i]? with
      | none =>
        rw [step_insert_none profile hi] at hrest
        rw [packets_insert_none hi] at hfirst ⊢
        exact ih hb hclock htime hrest hfirst
      | some p =>
        -- this packet finds no bucket, and makes one that is full at its own time
        have hfull : p.bucket profile = ⟨profile.burst, p.now⟩ := by
          simp [Fetch.bucket, hcurrent p hi, hb]
        rw [step_insert profile hi] at hrest
        rw [packets_insert hi] at hfirst ⊢
        obtain ⟨hhead, -⟩ := List.cons.inj hfirst
        obtain rfl : p.now.toNat = t₀ := congrArg Prod.fst hhead
        have hopened : Account (period profile)
            (profile.burst.toNat + (t - p.now.toNat) / period profile) t 0
            (toBucket (p.bucket profile)) := by
          rw [hfull]
          exact Account.opened _ _ _ _
        have htail : (clock :: es.filterMap lookupTime).Pairwise (· ≤ ·) := htime
        have hdue := granted_le_due hs rfl (hclock.inserted hi)
          (account_inserted hs hclock hi hopened) htail hrest p.now.toNat
        have hcons := granted_cons_until p.now.toNat t p.now.toNat
          (forwarded (evaluateBucket (p.bucket profile) profile p.now).1)
          (packets profile (inserted profile s i p) es)
        omega

/-- In every interleaving whose inserts are all current no token is spent twice. -/
theorem spends_once (profile : RateProfile) (es : List Step)
    (hs : profile.rateShift.toNat ≤ 63) (htime : Timed es)
    (h : Always (step profile) Current .init es) : SpendsOnce profile es := by
  intro t₀ ok rest hfirst t
  exact granted_le_created hs rfl (clocked_init 0) (List.pairwise_cons.mpr ⟨by simp, htime⟩) h
    hfirst t

/-- A bucket of one token. -/
def single : RateProfile := ⟨20, 1⟩

/-- Two packets meet in an empty bucket. -/
theorem spends_once_refused :
    SpendsOnce single [.lookup 1, .insert 0, .lookup 2, .lookup 3, .insert 1, .insert 0] := by
  refine spends_once single _ (by decide) (by unfold Timed; decide)
    ⟨trivial, ?_, trivial, trivial, ?_, ?_, trivial⟩ <;>
  · intro p hp
    revert p
    decide

/-- Two packets read the map before either of them writes it. -/
theorem token_spent_twice :
    ¬ SpendsOnce single [.lookup 1, .lookup 1, .insert 0, .insert 0] := by
  intro h
  exact absurd (h 1 true [(1, true)] (by decide) 1) (by decide)

end Oxidrop.Spending
