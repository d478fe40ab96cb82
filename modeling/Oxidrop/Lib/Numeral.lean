import Mathlib.Data.Nat.Digits.Lemmas

/-!
# Numerals

Texts are lists of UTF-16 code units. A numeral in a radix up to 36 is read digit by
digit, in either case, and written without leading zeros in lower case.
-/
namespace Numeral

abbrev Text := List UInt16

/-- The code unit of a character that has only one. -/
def unit (c : Char) : UInt16 := UInt16.ofNat c.toNat

/-- A literal of such characters. -/
def text (s : String) : Text := s.toList.map unit

/-! ## Digits -/

def digitValue (c : UInt16) : Option Nat :=
  let n := c.toNat
  if 48 ≤ n ∧ n ≤ 57 then some (n - 48)
  else if 65 ≤ n ∧ n ≤ 90 then some (n - 55)
  else if 97 ≤ n ∧ n ≤ 122 then some (n - 87)
  else none

def isDigit (radix : Nat) (c : UInt16) : Bool := (digitValue c).any (· < radix)

/-- The number that a text of digits stands for. -/
def value (radix : Nat) (s : Text) : Nat :=
  s.foldl (fun n c => n * radix + (digitValue c).getD 0) 0

def digitUnit (d : Nat) : UInt16 := UInt16.ofNat (if d < 10 then 48 + d else 87 + d)

/-- The shortest numeral of a number. -/
def numeral (radix n : Nat) : Text :=
  if n = 0 then [digitUnit 0] else (radix.digits n).reverse.map digitUnit

section Values

variable {radix n : Nat} {s : Text} {c : UInt16}

@[simp] theorem value_nil (radix : Nat) : value radix [] = 0 := rfl

theorem value_concat (radix : Nat) (s : Text) (c : UInt16) :
    value radix (s ++ [c]) = value radix s * radix + (digitValue c).getD 0 := by
  simp [value, List.foldl_append]

theorem digit_lt (h : isDigit radix c = true) : (digitValue c).getD 0 < radix := by
  unfold isDigit at h
  cases hd : digitValue c with
  | none => simp [hd] at h
  | some d => simpa [hd] using h

/-- A numeral of `k` digits is less than the `k`-th power of the radix. -/
theorem value_lt (h : ∀ c ∈ s, isDigit radix c = true) : value radix s < radix ^ s.length := by
  induction s using List.reverseRecOn with
  | nil => simp
  | append_singleton s c ih =>
    have hs := ih fun d hd => h d (List.mem_append_left _ hd)
    have hc := digit_lt (h c (by simp))
    rw [value_concat, List.length_append, List.length_singleton, pow_succ]
    calc value radix s * radix + (digitValue c).getD 0
        < value radix s * radix + radix := Nat.add_lt_add_left hc _
      _ = (value radix s + 1) * radix := by ring
      _ ≤ radix ^ s.length * radix := Nat.mul_le_mul_right radix hs

theorem digitValue_digitUnit {d : Nat} (h : d < 36) : digitValue (digitUnit d) = some d := by
  have hall : ∀ d < 36, digitValue (digitUnit d) = some d := by decide
  exact hall d h

theorem isDigit_digitUnit {d : Nat} (hd : d < radix) (hradix : radix ≤ 36) :
    isDigit radix (digitUnit d) = true := by
  rw [isDigit, digitValue_digitUnit (hd.trans_le hradix)]
  simpa using hd

theorem numeral_ne_nil (radix n : Nat) : numeral radix n ≠ [] := by
  unfold numeral
  split
  · simp
  · simpa [Nat.digits_ne_nil_iff_ne_zero] using ‹n ≠ 0›

theorem numeral_digit (hradix : 1 < radix) (hc : c ∈ numeral radix n) :
    ∃ d < radix, digitUnit d = c := by
  unfold numeral at hc
  split at hc
  · exact ⟨0, by omega, (List.mem_singleton.mp hc).symm⟩
  · obtain ⟨d, hd, rfl⟩ := List.mem_map.mp hc
    exact ⟨d, Nat.digits_lt_base hradix (List.mem_reverse.mp hd), rfl⟩

theorem isDigit_numeral (hradix : 1 < radix) (hmost : radix ≤ 36) :
    ∀ c ∈ numeral radix n, isDigit radix c = true := by
  intro c hc
  obtain ⟨d, hd, rfl⟩ := numeral_digit hradix hc
  exact isDigit_digitUnit hd hmost

theorem value_digits (hradix : 1 < radix) (hmost : radix ≤ 36) (n : Nat) :
    value radix ((radix.digits n).reverse.map digitUnit) = n := by
  induction n using Nat.strong_induction_on with
  | h n ih =>
    rcases Nat.eq_zero_or_pos n with rfl | hn
    · simp
    · have hlt : n % radix < 36 := (Nat.mod_lt n (by omega)).trans_le hmost
      rw [Nat.digits_def' hradix hn, List.reverse_cons, List.map_append, List.map_singleton,
        value_concat, ih (n / radix) (Nat.div_lt_self hn hradix), digitValue_digitUnit hlt,
        Option.getD_some, mul_comm]
      exact Nat.div_add_mod n radix

/-- Reading a numeral gives its number. -/
theorem value_numeral (hradix : 1 < radix) (hmost : radix ≤ 36) (n : Nat) :
    value radix (numeral radix n) = n := by
  unfold numeral
  split
  · rename_i hn
    simp [hn, value, digitValue_digitUnit (show 0 < 36 by decide)]
  · exact value_digits hradix hmost n

theorem length_numeral_le {k : Nat} (hradix : 1 < radix) (hk : 0 < k) (h : n < radix ^ k) :
    (numeral radix n).length ≤ k := by
  unfold numeral
  split
  · exact hk
  · rw [List.length_map, List.length_reverse, Nat.digits_length_le_iff hradix]
    exact h

/-- Only the numeral of zero begins with a zero. -/
theorem head_numeral (hradix : 1 < radix) (hmost : radix ≤ 36) (hn : n ≠ 0) :
    (numeral radix n).head? ≠ some (digitUnit 0) := by
  have hne : radix.digits n ≠ [] := Nat.digits_ne_nil_iff_ne_zero.mpr hn
  rw [numeral, if_neg hn, List.head?_map, List.head?_reverse, List.getLast?_eq_some_getLast hne]
  intro h
  have hlast := Nat.getLast_digit_ne_zero radix hn
  have hlt := Nat.digits_lt_base hradix (List.getLast_mem hne)
  have hsame := congrArg digitValue (Option.some.inj h)
  rw [digitValue_digitUnit (hlt.trans_le hmost), digitValue_digitUnit (by omega)] at hsame
  exact hlast (Option.some.inj hsame)

theorem value_eq_ofDigits (radix : Nat) (s : Text) :
    value radix s = Nat.ofDigits radix (s.map fun c => (digitValue c).getD 0).reverse := by
  induction s using List.reverseRecOn with
  | nil => rfl
  | append_singleton s c ih =>
    rw [value_concat, ih, List.map_append, List.reverse_append, List.map_singleton,
      List.reverse_singleton, List.singleton_append, Nat.ofDigits_cons]
    simp [mul_comm, add_comm]

/-- A text of lower-case digits without leading zeros is the numeral of its value. -/
theorem eq_numeral (hradix : 1 < radix) (hmost : radix ≤ 36)
    (hdigits : ∀ c ∈ s, ∃ d < radix, digitUnit d = c)
    (hshort : s = [digitUnit 0] ∨ ∃ c, s.head? = some c ∧ c ≠ digitUnit 0) :
    s = numeral radix (value radix s) := by
  rcases hshort with rfl | ⟨c, hhead, hc⟩
  · simp [numeral, value, digitValue_digitUnit (show 0 < 36 by decide)]
  · obtain ⟨t, rfl⟩ : ∃ t, s = c :: t := by
      cases s with
      | nil => cases hhead
      | cons d t => exact ⟨t, by rw [Option.some.inj hhead]⟩
    have hunit : ∀ d ∈ c :: t, digitUnit ((digitValue d).getD 0) = d := by
      intro d hd
      obtain ⟨n, hn, rfl⟩ := hdigits d hd
      rw [digitValue_digitUnit (hn.trans_le hmost), Option.getD_some]
    have hlast : (digitValue c).getD 0 ≠ 0 := by
      intro hzero
      have hsame := hunit c List.mem_cons_self
      rw [hzero] at hsame
      exact hc hsame.symm
    have hdigits' : radix.digits (value radix (c :: t)) =
        ((c :: t).map fun c => (digitValue c).getD 0).reverse := by
      rw [value_eq_ofDigits]
      refine Nat.digits_ofDigits radix hradix _ (fun d hd => ?_) (fun hne => ?_)
      · obtain ⟨e, he, rfl⟩ := List.mem_map.mp (List.mem_reverse.mp hd)
        obtain ⟨n, hn, rfl⟩ := hdigits e he
        rwa [digitValue_digitUnit (hn.trans_le hmost)]
      · simpa [List.getLast_reverse] using hlast
    have hne : value radix (c :: t) ≠ 0 := by
      intro hzero
      rw [hzero, Nat.digits_zero] at hdigits'
      simp at hdigits'
    rw [numeral, if_neg hne, hdigits', List.reverse_reverse, List.map_map]
    refine (List.map_id _).symm.trans (List.map_congr_left fun d hd => ?_)
    exact (hunit d hd).symm

end Values

end Numeral
