import Oxidrop.Lib.Numeral
import Mathlib.Data.Int.Log
import Mathlib.Data.List.DropRight
import Mathlib.Data.Rat.Floor

/-!
# Numbers of JavaScript

A number is a rational of binary64, an infinity or not a number; negative zero
counts as zero. A conversion from a text takes the exact value and rounds it to the
nearest number, ties to even. Texts convert through `Number`, which reads the whole
text, and through `Number.parseInt`, which reads a prefix.
-/
namespace JavaScript

open Numeral

inductive Number where
  | nan
  | infinity (negative : Bool)
  | finite (q : ℚ)
  deriving DecidableEq, Repr

def roundTiesToEven (q : ℚ) : ℤ :=
  if q - ⌊q⌋ < 1 / 2 then ⌊q⌋
  else if 1 / 2 < q - ⌊q⌋ then ⌊q⌋ + 1
  else if ⌊q⌋ % 2 = 0 then ⌊q⌋
  else ⌊q⌋ + 1

/-- The distance of neighbouring numbers near `q`. -/
def ulp (q : ℚ) : ℚ := 2 ^ (max (Int.log 2 |q|) (-1022) - 52)

def binary64 (q : ℚ) : Number :=
  let r := roundTiesToEven (q / ulp q) * ulp q
  if 2 ^ 1024 ≤ |r| then .infinity (q < 0) else .finite r

/-! ## Tests -/

/-- `Number.isInteger`. -/
def Number.isInteger : Number → Bool
  | .finite q => q.isInt
  | _ => false

/-- `x < bound`. -/
def Number.lt (bound : ℚ) : Number → Bool
  | .finite q => q < bound
  | .infinity negative => negative
  | .nan => false

/-- `x > bound`. -/
def Number.gt (bound : ℚ) : Number → Bool
  | .finite q => bound < q
  | .infinity negative => !negative
  | .nan => false

/-- `!Number.isInteger(x) || x < 0 || x > most`. -/
def Number.outside (most : Nat) (x : Number) : Bool :=
  !x.isInteger || x.lt 0 || x.gt most

/-- The value of a number that is known to be a natural one. -/
def Number.toNat : Number → Nat
  | .finite q => q.num.toNat
  | _ => 0

/-- `x >>> 0`. -/
def Number.toUint32 : Number → UInt32
  | .finite q => UInt32.ofInt (if q < 0 then ⌈q⌉ else ⌊q⌋)
  | _ => 0

/-! ## Conversions -/

/-- White space and line terminators. -/
def isWhiteSpace (c : UInt16) : Bool :=
  [0x9, 0xa, 0xb, 0xc, 0xd, 0x20, 0xa0, 0x1680, 0x2028, 0x2029, 0x202f, 0x205f, 0x3000,
    0xfeff].contains c || (0x2000 ≤ c && c ≤ 0x200a)

/-- A sign may come first; `true` stands for minus. -/
def splitSign : Text → Bool × Text
  | [] => (false, [])
  | c :: s =>
    if c = unit '-' then (true, s) else if c = unit '+' then (false, s) else (false, c :: s)

/-- `0x` and `0X` are passed over. -/
def stripPrefix : Text → Text
  | c :: d :: s => if c = unit '0' ∧ (d = unit 'x' ∨ d = unit 'X') then s else c :: d :: s
  | s => s

/-- `Number.parseInt`, for a radix from 2 to 36. -/
def parseInt (s : Text) (radix : Nat) : Number :=
  let (negative, s) := splitSign (s.dropWhile isWhiteSpace)
  let s := if radix = 16 then stripPrefix s else s
  let digits := s.takeWhile (isDigit radix)
  if digits = [] then .nan
  else binary64 (if negative then -value radix digits else value radix digits)

/-- The radix and the digits of a literal such as `0x1f`. -/
def nonDecimal : Text → Option (Nat × Text)
  | c :: d :: s =>
    if c = unit '0' then
      if d = unit 'x' ∨ d = unit 'X' then some (16, s)
      else if d = unit 'o' ∨ d = unit 'O' then some (8, s)
      else if d = unit 'b' ∨ d = unit 'B' then some (2, s)
      else none
    else none
  | _ => none

/-- What follows the digits of a decimal literal, to its end. -/
def exponentPart : Text → Option ℤ
  | [] => some 0
  | c :: s =>
    let (negative, digits) := splitSign s
    if (c = unit 'e' ∨ c = unit 'E') ∧ digits ≠ [] ∧ digits.all (isDigit 10) then
      some (if negative then -value 10 digits else value 10 digits)
    else none

def splitFraction : Text → Text × Text
  | [] => ([], [])
  | c :: s =>
    if c = unit '.' then (s.takeWhile (isDigit 10), s.dropWhile (isDigit 10)) else ([], c :: s)

def unsignedDecimal (s : Text) : Option ℚ :=
  let whole := s.takeWhile (isDigit 10)
  let (fraction, rest) := splitFraction (s.dropWhile (isDigit 10))
  if whole ++ fraction = [] then none
  else (exponentPart rest).map fun (e : ℤ) =>
    (value 10 (whole ++ fraction) : ℚ) * 10 ^ (e - (fraction.length : ℤ))

/-- `Number` of a text. -/
def ofText (s : Text) : Number :=
  let t := (s.dropWhile isWhiteSpace).rdropWhile isWhiteSpace
  if t = [] then .finite 0
  else
    match nonDecimal t with
    | some (radix, digits) =>
      if digits ≠ [] ∧ digits.all (isDigit radix) then binary64 (value radix digits) else .nan
    | none =>
      let (negative, t) := splitSign t
      if t = text "Infinity" then .infinity negative
      else
        match unsignedDecimal t with
        | none => .nan
        | some q => binary64 (if negative then -q else q)

/-! ## Small natural numbers -/

theorem roundTiesToEven_intCast (z : ℤ) : roundTiesToEven z = z := by
  simp [roundTiesToEven]

theorem div_ulp_natCast {n : Nat} (h : n < 2 ^ 53) : ∃ z : ℤ, (n : ℚ) / ulp n = z := by
  have hlog : Nat.log 2 n ≤ 52 := by
    rcases Nat.eq_zero_or_pos n with rfl | hn
    · simp
    · exact Nat.lt_succ_iff.mp (Nat.log_lt_of_lt_pow hn.ne' h)
  have hexponent : max (Int.log 2 |(n : ℚ)|) (-1022) - 52 = -((52 - Nat.log 2 n : ℕ) : ℤ) := by
    rw [Nat.abs_cast, Int.log_natCast]
    omega
  refine ⟨n * 2 ^ (52 - Nat.log 2 n), ?_⟩
  rw [ulp, hexponent, zpow_neg, zpow_natCast, div_inv_eq_mul]
  push_cast
  rfl

/-- Rounding keeps every natural number below 2^53. -/
theorem binary64_natCast {n : Nat} (h : n < 2 ^ 53) : binary64 n = .finite n := by
  obtain ⟨z, hz⟩ := div_ulp_natCast h
  have hulp : ulp n ≠ 0 := zpow_ne_zero _ two_ne_zero
  have hround : (roundTiesToEven ((n : ℚ) / ulp n) : ℚ) * ulp n = n := by
    rw [hz, roundTiesToEven_intCast, ← hz, div_mul_cancel₀ _ hulp]
  have hsmall : ¬ (2 ^ 1024 : ℚ) ≤ |(n : ℚ)| := by
    rw [Nat.abs_cast, not_le]
    calc (n : ℚ) < 2 ^ 53 := by exact_mod_cast h
      _ ≤ 2 ^ 1024 := pow_le_pow_right₀ one_le_two (by decide)
  simp only [binary64, hround, hsmall, if_false]

theorem outside_eq_false_iff {most : Nat} {x : Number} :
    x.outside most = false ↔ ∃ n : Nat, n ≤ most ∧ x = .finite n := by
  cases x with
  | nan => simp [Number.outside, Number.isInteger]
  | infinity negative => simp [Number.outside, Number.isInteger]
  | finite q =>
    simp only [Number.outside, Number.isInteger, Number.lt, Number.gt, Bool.or_eq_false_iff,
      Bool.not_eq_false', decide_eq_false_iff_not, not_lt, Number.finite.injEq]
    constructor
    · rintro ⟨⟨hint, hpos⟩, hmost⟩
      have hnum : (q.num.toNat : ℤ) = q.num := Int.toNat_of_nonneg (Rat.num_nonneg.mpr hpos)
      have hq : q = q.num.toNat := by
        conv_lhs => rw [Rat.eq_num_of_isInt hint, ← hnum]
        rfl
      rw [hq] at hmost
      exact ⟨q.num.toNat, by exact_mod_cast hmost, hq⟩
    · rintro ⟨n, hn, rfl⟩
      exact ⟨⟨rfl, Nat.cast_nonneg n⟩, by exact_mod_cast hn⟩

/-! ## Rounding to a range of integers -/

theorem floor_le_roundTiesToEven (q : ℚ) : ⌊q⌋ ≤ roundTiesToEven q := by
  unfold roundTiesToEven
  split
  · exact le_refl _
  · split
    · omega
    · split <;> omega

theorem roundTiesToEven_le (q : ℚ) : roundTiesToEven q ≤ ⌊q⌋ + 1 := by
  unfold roundTiesToEven
  split
  · omega
  · split
    · omega
    · split <;> omega

/-- A number has 53 significant bits. -/
theorem le_div_ulp {n : Nat} (hn : 0 < n) : (2 ^ 52 : ℚ) ≤ n / ulp n := by
  have hlog : (2 : ℚ) ^ Int.log 2 (n : ℚ) ≤ n :=
    Int.zpow_log_le_self one_lt_two (Nat.cast_pos.mpr hn)
  have hexponent : max (Int.log 2 |(n : ℚ)|) (-1022) = Int.log 2 (n : ℚ) := by
    rw [Nat.abs_cast, Int.log_natCast]
    omega
  rw [ulp, hexponent, le_div_iff₀ (zpow_pos two_pos _), ← zpow_natCast, ← zpow_add₀ two_ne_zero]
  simpa using hlog

theorem ulp_pos (q : ℚ) : 0 < ulp q := zpow_pos two_pos _

theorem one_le_ulp {n : Nat} (h : 2 ^ 53 ≤ n) : 1 ≤ ulp n := by
  have hlog : 53 ≤ Nat.log 2 n := Nat.le_log_of_pow_le one_lt_two h
  rw [ulp, Nat.abs_cast, Int.log_natCast]
  exact one_le_zpow₀ one_le_two (by omega)

theorem binary64_large_outside {n most : Nat} (h : 2 ^ 53 ≤ n) (hmost : most < 2 ^ 52) :
    (binary64 n).outside most = true := by
  have hround : (2 ^ 52 : ℤ) ≤ roundTiesToEven ((n : ℚ) / ulp n) :=
    (Int.le_floor.mpr (by exact_mod_cast le_div_ulp (by omega))).trans (floor_le_roundTiesToEven _)
  have hbig : (most : ℚ) < roundTiesToEven ((n : ℚ) / ulp n) * ulp n := by
    calc (most : ℚ) < 2 ^ 52 := by exact_mod_cast hmost
      _ ≤ roundTiesToEven ((n : ℚ) / ulp n) := by exact_mod_cast hround
      _ ≤ roundTiesToEven ((n : ℚ) / ulp n) * ulp n :=
        le_mul_of_one_le_right (by exact_mod_cast (show (0 : ℤ) ≤ _ by omega)) (one_le_ulp h)
  unfold binary64
  simp only
  split
  · simp [Number.outside, Number.isInteger]
  · simp [Number.outside, Number.gt, hbig]

theorem binary64_neg_outside {n most : Nat} (hn : 0 < n) :
    (binary64 (-n)).outside most = true := by
  have hulp : ulp (-(n : ℚ)) = ulp n := by rw [ulp, ulp, abs_neg]
  have hround : roundTiesToEven (-(n : ℚ) / ulp n) < 0 := by
    have hdiv : -(n : ℚ) / ulp n < ((-1 : ℤ) : ℚ) := by
      have hle := le_div_ulp hn
      rw [neg_div]
      push_cast
      linarith
    have hfloor := Int.floor_lt.mpr hdiv
    have hle := roundTiesToEven_le (-(n : ℚ) / ulp n)
    omega
  have hneg : (roundTiesToEven (-(n : ℚ) / ulp n) : ℚ) * ulp n < 0 :=
    mul_neg_of_neg_of_pos (by exact_mod_cast hround) (ulp_pos _)
  unfold binary64
  simp only [hulp]
  split
  · simp [Number.outside, Number.isInteger]
  · simp [Number.outside, Number.lt, hneg]

/-- Rounding moves no integer into a range of small natural numbers. -/
theorem binary64_intCast_outside {z : ℤ} {most : Nat} (hmost : most < 2 ^ 52) :
    (binary64 z).outside most = false ↔ 0 ≤ z ∧ z ≤ most := by
  obtain ⟨n, rfl | rfl⟩ := z.eq_nat_or_neg
  · rw [Int.cast_natCast]
    rcases Nat.lt_or_ge n (2 ^ 53) with hlt | hge
    · rw [binary64_natCast hlt, outside_eq_false_iff]
      constructor
      · rintro ⟨m, hm, heq⟩
        have hnm : n = m := by exact_mod_cast Number.finite.inj heq
        omega
      · exact fun h => ⟨n, by omega, rfl⟩
    · rw [binary64_large_outside hge hmost]
      simp only [Bool.true_eq_false, false_iff]
      omega
  · rw [Int.cast_neg, Int.cast_natCast]
    rcases Nat.eq_zero_or_pos n with rfl | hn
    · rw [Nat.cast_zero, neg_zero, ← Nat.cast_zero, binary64_natCast (by decide),
        outside_eq_false_iff]
      exact ⟨fun _ => by simp, fun _ => ⟨0, Nat.zero_le _, rfl⟩⟩
    · rw [binary64_neg_outside hn]
      simp only [Bool.true_eq_false, false_iff]
      omega

@[simp] theorem toNat_natCast (n : Nat) : (Number.finite n).toNat = n := by
  simp [Number.toNat]

theorem toUint32_toNat (w : UInt32) : (Number.finite w.toNat).toUint32 = w := by
  have hpos : ¬ (w.toNat : ℚ) < 0 := not_lt.mpr (Nat.cast_nonneg _)
  have hlt := w.toNat_lt
  rw [Number.toUint32, if_neg hpos, Int.floor_natCast, UInt32.ofInt,
    Int.emod_eq_of_lt (Int.natCast_nonneg _) (by omega), Int.toNat_natCast, UInt32.ofNat_toNat]

end JavaScript
