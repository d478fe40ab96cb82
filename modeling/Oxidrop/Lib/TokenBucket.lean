import Mathlib.Order.Lattice

/-!
# Token buckets

A bucket holds tokens and remembers when it was last refilled. A packet at time
`t` first turns the whole periods since the last refill into tokens, clamped to
the burst, and then spends one token if there is one. `Step` bounds what such a
packet can do from above, so that it also covers an implementation whose refill
loses tokens. The two counting bounds hold for every trace.
-/
namespace TokenBucket

structure Bucket where
  tokens : Nat
  last : Nat
  deriving DecidableEq, Repr

/-- One packet: the bucket before it, its time, whether it was granted, the
bucket after it. -/
structure Step (period burst : Nat) (b : Bucket) (t : Nat) (ok : Bool) (b' : Bucket) : Prop where
  kept : (t - b.last) / period = 0 → b'.tokens + ok.toNat = b.tokens ∧ b'.last = b.last
  refilled : 0 < (t - b.last) / period →
    b'.tokens + ok.toNat ≤ min (b.tokens + (t - b.last) / period) burst ∧ b'.last = t

variable {period burst : Nat}

theorem Step.tokens_le {b b' : Bucket} {t : Nat} {ok : Bool}
    (h : Step period burst b t ok b') (hb : b.tokens ≤ burst) : b'.tokens ≤ burst := by
  rcases Nat.eq_zero_or_pos ((t - b.last) / period) with hg | hg
  · have := (h.kept hg).1
    omega
  · have := (h.refilled hg).1
    omega

/-- The bucket without what it holds above the burst. -/
def Bucket.clamp (burst : Nat) (b : Bucket) : Bucket := ⟨min b.tokens burst, b.last⟩

theorem Bucket.clamp_of_le {b : Bucket} (h : b.tokens ≤ burst) : b.clamp burst = b := by
  simp only [clamp, Nat.min_eq_left h]

/-- A packet that finds no excess, or clamps it by a refill, gets nothing of it. -/
theorem Step.clamp {b b' : Bucket} {t : Nat} {ok : Bool} (h : Step period burst b t ok b')
    (hb : b.tokens ≤ burst ∨ 0 < (t - b.last) / period) :
    Step period burst (b.clamp burst) t ok (b'.clamp burst) := by
  have hafter : b'.tokens ≤ burst := by
    rcases hb with hle | hg
    · exact h.tokens_le hle
    · have := (h.refilled hg).1
      omega
  rw [Bucket.clamp_of_le hafter]
  constructor
  · intro hg
    have hle : b.tokens ≤ burst := hb.resolve_right (Nat.not_lt.mpr (Nat.le_of_eq hg))
    rw [Bucket.clamp_of_le hle]
    exact h.kept hg
  · intro hg
    obtain ⟨htokens, hlast⟩ := h.refilled hg
    refine ⟨?_, hlast⟩
    simp only [Bucket.clamp] at hg ⊢
    omega

/-- A step pays for its grant out of the tokens and the elapsed periods. -/
theorem Step.balance {b b' : Bucket} {t : Nat} {ok : Bool}
    (h : Step period burst b t ok b') {e : Nat} (ht : t ≤ e) :
    ok.toNat + (b'.tokens + (e - b'.last) / period) ≤ b.tokens + (e - b.last) / period := by
  rcases Nat.eq_zero_or_pos ((t - b.last) / period) with hg | hg
  · obtain ⟨htok, hlast⟩ := h.kept hg
    rw [hlast]
    omega
  · obtain ⟨htok, hlast⟩ := h.refilled hg
    have hlt : b.last ≤ t := by
      by_contra hc
      rw [show t - b.last = 0 by omega, Nat.zero_div] at hg
      omega
    have hdiv : (t - b.last) / period + (e - t) / period ≤ (e - b.last) / period := by
      have := Nat.div_add_div_le_add_div (x := t - b.last) (y := e - t) (z := period)
      rwa [show t - b.last + (e - t) = e - b.last by omega] at this
    rw [hlast]
    omega

/-- The account of a bucket at time `e`: `n` packets are granted of `due`, and
what the bucket still holds or earns is within the rest. -/
structure Account (period due e n : Nat) (b : Bucket) : Prop where
  spent : n ≤ due
  held : b.last ≤ e → n + (b.tokens + (e - b.last) / period) ≤ due

/-- A bucket that is full at its first packet. -/
theorem Account.opened (period burst e t : Nat) :
    Account period (burst + (e - t) / period) e 0 ⟨burst, t⟩ :=
  ⟨Nat.zero_le _, fun _ => by simp⟩

/-- A packet that is no older than the last refill keeps the account. -/
theorem Step.account {due e n : Nat} {b b' : Bucket} {t : Nat} {ok : Bool}
    (h : Step period burst b t ok b') (ht : b.last ≤ t) (ha : Account period due e n b) :
    Account period due e (n + if t ≤ e then ok.toNat else 0) b' := by
  by_cases hte : t ≤ e
  · have hheld := ha.held (by omega)
    have hbal := h.balance hte
    have hpaid : ok.toNat ≤ b.tokens + (e - b.last) / period :=
      (Nat.le_add_right _ _).trans hbal
    rw [if_pos hte]
    exact ⟨by omega, fun _ => by omega⟩
  · rw [if_neg hte]
    refine ⟨ha.spent, fun hlast => ?_⟩
    -- the packet is later than `e`, so a refill would be later too
    rcases Nat.eq_zero_or_pos ((t - b.last) / period) with hg | hg
    · obtain ⟨htok, hsame⟩ := h.kept hg
      rw [hsame] at hlast ⊢
      have hheld := ha.held hlast
      omega
    · have := (h.refilled hg).2
      omega

/-- Packets in order, with their times and answers. A packet that is refused
elsewhere leaves the bucket alone; every other packet is a step of it. A bucket
that does not exist yet is made full at the time of its first packet. -/
inductive Trace (period burst : Nat) : Option Bucket → List (Nat × Bool) → Option Bucket → Prop
  | nil (o : Option Bucket) : Trace period burst o [] o
  | refused {o o' : Option Bucket} {t : Nat} {l : List (Nat × Bool)}
      (tail : Trace period burst o l o') : Trace period burst o ((t, false) :: l) o'
  | cons {o o' : Option Bucket} {b' : Bucket} {t : Nat} {ok : Bool} {l : List (Nat × Bool)}
      (h : Step period burst (o.getD ⟨burst, t⟩) t ok b')
      (tail : Trace period burst (some b') l o') :
      Trace period burst o ((t, ok) :: l) o'

/-- Granted packets with a time in the closed window from `a` to `e`. -/
def granted (a e : Nat) : List (Nat × Bool) → Nat
  | [] => 0
  | (t, ok) :: l => (if ok = true ∧ a ≤ t ∧ t ≤ e then 1 else 0) + granted a e l

@[simp] theorem granted_nil (a e : Nat) : granted a e [] = 0 := rfl

theorem granted_cons_le (a e t : Nat) (ok : Bool) (l : List (Nat × Bool)) :
    granted a e ((t, ok) :: l) ≤ ok.toNat + granted a e l := by
  rw [granted]
  split
  · simp_all
  · omega

theorem granted_cons_until (a e t : Nat) (ok : Bool) (l : List (Nat × Bool)) :
    granted a e ((t, ok) :: l) ≤ (if t ≤ e then ok.toNat else 0) + granted a e l := by
  by_cases hte : t ≤ e
  · rw [if_pos hte]
    exact granted_cons_le a e t ok l
  · rw [granted, if_neg (fun hc => hte hc.2.2), if_neg hte]

theorem granted_cons_outside {a e t : Nat} (ok : Bool) (l : List (Nat × Bool))
    (h : ¬ (a ≤ t ∧ t ≤ e)) : granted a e ((t, ok) :: l) = granted a e l := by
  rw [granted, if_neg (fun hc => h hc.2), Nat.zero_add]

@[simp] theorem granted_cons_false (a e t : Nat) (l : List (Nat × Bool)) :
    granted a e ((t, false) :: l) = granted a e l := by
  simp [granted]

theorem granted_eq_zero {a e : Nat} {l : List (Nat × Bool)} (h : ∀ p ∈ l, e < p.1) :
    granted a e l = 0 := by
  induction l with
  | nil => rfl
  | cons p l ih =>
    have hp := h p (by simp)
    rw [granted_cons_outside _ _ (by omega)]
    exact ih (fun q hq => h q (by simp [hq]))

/-- In a window that has all the packets, the granted ones are counted. -/
theorem granted_all {a e : Nat} {l : List (Nat × Bool)} (h : ∀ p ∈ l, a ≤ p.1 ∧ p.1 ≤ e) :
    granted a e l = l.countP Prod.snd := by
  induction l with
  | nil => rfl
  | cons p l ih =>
    obtain ⟨t, ok⟩ := p
    have hp := h (t, ok) (by simp)
    have hrest := ih (fun q hq => h q (by simp [hq]))
    cases ok with
    | true => simp [granted, hp, hrest, Nat.add_comm]
    | false => simp [hrest]

/-- Packet times in the order of their arrival. -/
def Ordered (l : List (Nat × Bool)) : Prop := l.Pairwise (fun p q => p.1 ≤ q.1)

/-- Up to time `e` an existing bucket grants no more than its tokens and the
periods since its last refill. -/
theorem granted_le {b : Bucket} {o' : Option Bucket} {l : List (Nat × Bool)} (a e : Nat)
    (hl : Ordered l) (h : Trace period burst (some b) l o') :
    granted a e l ≤ b.tokens + (e - b.last) / period := by
  induction l generalizing b with
  | nil => simp
  | cons p l ih =>
    obtain ⟨t, ok⟩ := p
    have hl := List.pairwise_cons.mp hl
    cases h with
    | refused htail =>
      rw [granted_cons_false]
      exact ih hl.2 htail
    | @cons _ _ b' _ _ _ hstep htail =>
      rcases Nat.lt_or_ge e t with het | het
      · have hzero : granted a e l = 0 :=
          granted_eq_zero (fun p hp => lt_of_lt_of_le het (hl.1 p hp))
        rw [granted_cons_outside _ _ (by omega), hzero]
        exact Nat.zero_le _
      · have hrest := ih hl.2 htail
        have hbal := hstep.balance het
        have hcons := granted_cons_le a e t ok l
        simp only [Option.getD_some] at hbal
        omega

/-- In every window a bucket that never exceeds its burst grants at most one
packet more than the burst and the periods of the window. -/
theorem window_le {o o' : Option Bucket} {l : List (Nat × Bool)} (hp : 0 < period) (a e : Nat)
    (ho : ∀ b, o = some b → b.tokens ≤ burst) (hl : Ordered l) (h : Trace period burst o l o') :
    granted a e l ≤ burst + 1 + (e - a) / period := by
  induction l generalizing o with
  | nil => simp
  | cons p l ih =>
    obtain ⟨t, ok⟩ := p
    have hl := List.pairwise_cons.mp hl
    cases h with
    | refused htail =>
      rw [granted_cons_false]
      exact ih ho hl.2 htail
    | @cons _ _ b' _ _ _ hstep htail =>
      have hfull : (o.getD ⟨burst, t⟩).tokens ≤ burst := by
        cases o with
        | none => exact le_refl _
        | some b => exact ho b rfl
      by_cases hwin : a ≤ t ∧ t ≤ e
      · -- the first packet inside the window: from here on count against the tokens
        have htok := granted_le a e hl.2 htail
        have hcons := granted_cons_le a e t ok l
        have hdiv : (e - t) / period ≤ (e - a) / period := Nat.div_le_div_right (by omega)
        rcases Nat.eq_zero_or_pos ((t - (o.getD ⟨burst, t⟩).last) / period) with hg | hg
        · obtain ⟨htokens, hlast⟩ := hstep.kept hg
          have hlt : t - (o.getD ⟨burst, t⟩).last < period := by
            rcases Nat.div_eq_zero_iff.mp hg with hz | hz
            · omega
            · exact hz
          have hstale : (e - b'.last) / period ≤ (e - t) / period + 1 := by
            rw [hlast, ← Nat.add_div_right (e - t) hp]
            exact Nat.div_le_div_right (by omega)
          omega
        · obtain ⟨htokens, hlast⟩ := hstep.refilled hg
          have hcap := (Nat.le_min.mp htokens).2
          rw [hlast] at htok
          omega
      · rw [granted_cons_outside _ _ hwin]
        refine ih ?_ hl.2 htail
        intro b hb
        cases hb
        exact hstep.tokens_le hfull

/-! ## Promptness -/

/-- What a packet is at least entitled to: a token that is there, and every whole
period since the last refill. -/
structure Prompt (period : Nat) (b : Bucket) (t : Nat) (ok : Bool) (b' : Bucket) : Prop where
  spends : 0 < b.tokens → ok = true
  kept : (t - b.last) / period = 0 → b'.last = b.last
  refilled : 0 < (t - b.last) / period → ok = true ∧ b'.last = t

inductive PromptTrace (period : Nat) : Bucket → List (Nat × Bool) → Prop
  | nil (b : Bucket) : PromptTrace period b []
  | cons {b b' : Bucket} {t : Nat} {ok : Bool} {l : List (Nat × Bool)}
      (h : Prompt period b t ok b') (tail : PromptTrace period b' l) :
      PromptTrace period b ((t, ok) :: l)

/-- The last refill is one of the packets, or older than all of them. -/
theorem Prompt.last_cases {b b' : Bucket} {t : Nat} {ok : Bool} (h : Prompt period b t ok b') :
    b'.last = b.last ∨ b'.last = t := by
  rcases Nat.eq_zero_or_pos ((t - b.last) / period) with hg | hg
  · exact .inl (h.kept hg)
  · exact .inr (h.refilled hg).2

/-- A packet that comes a period after `a` or later is granted, unless another one has
been granted since `a`. -/
theorem PromptTrace.exists_granted {b : Bucket} {l : List (Nat × Bool)} {q : Nat × Bool} {a e : Nat}
    (hperiod : 0 < period) (h : PromptTrace period b l) (hl : Ordered l)
    (hlast : ∀ p ∈ l, b.last ≤ p.1) (hb : b.last ≤ a ∨ 0 < b.tokens) (hq : q ∈ l)
    (haq : a + period ≤ q.1) (hqe : q.1 ≤ e) : ∃ p ∈ l, a ≤ p.1 ∧ p.1 ≤ e ∧ p.2 = true := by
  induction h with
  | nil => cases hq
  | @cons b b' t ok l hstep htail ih =>
    have hl := List.pairwise_cons.mp hl
    have hbt := hlast (t, ok) (by simp)
    have htq : t ≤ q.1 := by
      rcases List.mem_cons.mp hq with rfl | hq
      · exact le_refl _
      · exact hl.1 q hq
    have hlast' : ∀ p ∈ l, b'.last ≤ p.1 := by
      intro p hp
      rcases hstep.last_cases with heq | heq
      · rw [heq]
        exact hlast p (by simp [hp])
      · rw [heq]
        exact hl.1 p hp
    -- without a grant since `a` there has been no refill since `a` either
    have hrest : b'.last ≤ a → q ∈ l → ∃ p ∈ (t, ok) :: l, a ≤ p.1 ∧ p.1 ≤ e ∧ p.2 = true := by
      intro hold hq
      obtain ⟨p, hp, hwin⟩ := ih hl.2 hlast' (.inl hold) hq
      exact ⟨p, by simp [hp], hwin⟩
    rcases Nat.lt_or_ge t a with hta | hat
    · refine hrest ?_ (List.mem_of_ne_of_mem ?_ hq)
      · rcases hstep.last_cases with heq | heq <;> omega
      · rintro rfl
        simp only at haq
        omega
    · cases ok with
      | true => exact ⟨(t, true), by simp, hat, htq.trans hqe, rfl⟩
      | false =>
        have hnone : (t - b.last) / period = 0 := by
          by_contra hg
          cases (hstep.refilled (Nat.pos_of_ne_zero hg)).1
        have hempty : ¬ 0 < b.tokens := fun hpos => by cases hstep.spends hpos
        have hba : b.last ≤ a := hb.resolve_right hempty
        refine hrest ((hstep.kept hnone).symm ▸ hba) (List.mem_of_ne_of_mem ?_ hq)
        rintro rfl
        have hlong : period ≤ t - b.last := by
          simp only at haq
          omega
        exact absurd (Nat.div_pos hlong hperiod) (by omega)

end TokenBucket
