import Oxidrop.Lib.JavaScript

/-!
# Texts that `Number.parseInt` converts

In radix 16 the conversion reads the digits behind white space, a sign and a prefix, and
ignores what follows them. So it gives a number exactly for the texts of this form.
-/
namespace JavaScript

open Numeral

section Digits

variable {radix : Nat} {s : Text} {c : UInt16}

/-- Digits are ASCII letters and decimal digits, so a test of them is a finite one. -/
theorem of_isDigit {P : UInt16 → Prop}
    (hall : ∀ n < 123, isDigit radix (UInt16.ofNat n) = true → P (UInt16.ofNat n))
    (h : isDigit radix c = true) : P c := by
  have hlt : c.toNat < 123 := by
    unfold isDigit digitValue at h
    simp only at h
    split at h
    · omega
    · split at h
      · omega
      · split at h
        · omega
        · simp at h
  have hc : UInt16.ofNat c.toNat = c := UInt16.ofNat_toNat
  have hP := hall c.toNat hlt (by rwa [hc])
  rwa [hc] at hP

theorem takeWhile_digits {t : Text} (h : ∀ c ∈ s, isDigit radix c = true)
    (ht : ∀ c ∈ t.head?, isDigit radix c = false) :
    (s ++ t).takeWhile (isDigit radix) = s := by
  rw [List.takeWhile_append_of_pos h]
  cases t with
  | nil => simp
  | cons c t => simp [ht c rfl]

/-! ## Signs -/

def signs : List Text := [[], text "-", text "+"]

theorem sign_cases {sign : Text} (h : sign ∈ signs) :
    sign = [] ∨ sign = text "-" ∨ sign = text "+" := by
  simpa [signs] using h

/-- A sign is split off what does not begin with another one. -/
theorem splitSign_sign {sign t : Text} (hsign : sign ∈ signs)
    (ht : ∀ c ∈ t.head?, c ≠ unit '-' ∧ c ≠ unit '+') :
    splitSign (sign ++ t) = (decide (sign = text "-"), t) := by
  rcases sign_cases hsign with rfl | rfl | rfl
  · cases t with
    | nil => rfl
    | cons c t =>
      obtain ⟨hminus, hplus⟩ := ht c rfl
      rw [List.nil_append, splitSign, if_neg hminus, if_neg hplus]
      rfl
  · rfl
  · rfl

theorem exists_sign (s : Text) : ∃ sign ∈ signs,
    sign ++ (splitSign s).2 = s ∧ (splitSign s).1 = decide (sign = text "-") := by
  cases s with
  | nil => exact ⟨[], by simp [signs], rfl, rfl⟩
  | cons c s =>
    rw [splitSign]
    split
    · rename_i hminus
      exact ⟨text "-", by simp [signs], by rw [hminus]; rfl, rfl⟩
    · split
      · rename_i hplus
        exact ⟨text "+", by simp [signs], by rw [hplus]; rfl, rfl⟩
      · exact ⟨[], by simp [signs], rfl, rfl⟩

/-! ## Hexadecimal literals -/

/-- White space, a sign, a prefix, digits, and a rest that is ignored. Without a prefix
the digits are not the beginning of one. -/
structure HexLiteral where
  space : Text
  sign : Text
  pre : Text
  digits : Text
  rest : Text
  space_white : ∀ c ∈ space, isWhiteSpace c = true
  sign_mem : sign ∈ signs
  pre_mem : pre ∈ [[], text "0x", text "0X"]
  digits_ne : digits ≠ []
  digits_hex : ∀ c ∈ digits, isDigit 16 c = true
  rest_stray : ∀ c ∈ rest.head?, isDigit 16 c = false
  plain : pre = [] → digits = text "0" → ∀ c ∈ rest.head?, c ≠ unit 'x' ∧ c ≠ unit 'X'

/-- The text without white space and sign. -/
def HexLiteral.body (l : HexLiteral) : Text := l.pre ++ (l.digits ++ l.rest)

def HexLiteral.toText (l : HexLiteral) : Text := l.space ++ (l.sign ++ l.body)

def HexLiteral.toInt (l : HexLiteral) : ℤ :=
  if l.sign = text "-" then -value 16 l.digits else value 16 l.digits

theorem HexLiteral.pre_cases (l : HexLiteral) :
    l.pre = [] ∨ l.pre = text "0x" ∨ l.pre = text "0X" := by
  simpa using l.pre_mem

/-- A hexadecimal digit is no white space, sign or `x`. -/
def PlainHex (c : UInt16) : Bool :=
  !isWhiteSpace c && c != unit '-' && c != unit '+' && c != unit 'x' && c != unit 'X'

theorem plainHex (h : isDigit 16 c = true) : PlainHex c = true :=
  of_isDigit (P := fun c => PlainHex c = true) (by decide) h

theorem HexLiteral.body_cons (l : HexLiteral) :
    ∃ c t, l.body = c :: t ∧ isDigit 16 c = true := by
  obtain ⟨c, t, ht⟩ := List.exists_cons_of_ne_nil l.digits_ne
  rcases l.pre_cases with hpre | hpre | hpre
  · refine ⟨c, t ++ l.rest, by rw [body, hpre, ht]; rfl, l.digits_hex c ?_⟩
    rw [ht]
    exact List.mem_cons_self
  · exact ⟨unit '0', unit 'x' :: (l.digits ++ l.rest), by rw [body, hpre]; rfl, by decide⟩
  · exact ⟨unit '0', unit 'X' :: (l.digits ++ l.rest), by rw [body, hpre]; rfl, by decide⟩

theorem HexLiteral.dropWhile_toText (l : HexLiteral) :
    l.toText.dropWhile isWhiteSpace = l.sign ++ l.body := by
  rw [toText, List.dropWhile_append_of_pos l.space_white]
  obtain ⟨c, t, hbody, hc⟩ := l.body_cons
  have hplain := plainHex hc
  simp only [PlainHex, Bool.and_eq_true, Bool.not_eq_true'] at hplain
  have hminus : isWhiteSpace (unit '-') = false := by decide
  have hplus : isWhiteSpace (unit '+') = false := by decide
  rcases sign_cases l.sign_mem with hsign | hsign | hsign
  · simp [hsign, hbody, hplain]
  · have htext : text "-" = [unit '-'] := by decide
    simp [hsign, htext, hminus]
  · have htext : text "+" = [unit '+'] := by decide
    simp [hsign, htext, hplus]

theorem HexLiteral.splitSign_body (l : HexLiteral) :
    splitSign (l.sign ++ l.body) = (decide (l.sign = text "-"), l.body) := by
  refine splitSign_sign l.sign_mem fun d hd => ?_
  obtain ⟨c, t, hbody, hc⟩ := l.body_cons
  rw [hbody] at hd
  obtain rfl : c = d := Option.some.inj hd
  have hplain := plainHex hc
  simp only [PlainHex, Bool.and_eq_true, bne_iff_ne, ne_eq] at hplain
  exact ⟨hplain.1.1.1.2, hplain.1.1.2⟩

theorem HexLiteral.stripPrefix_body (l : HexLiteral) :
    stripPrefix l.body = l.digits ++ l.rest := by
  rcases l.pre_cases with hpre | hpre | hpre
  · obtain ⟨c, t, ht⟩ := List.exists_cons_of_ne_nil l.digits_ne
    have hdigits := l.digits_hex
    have hplain := l.plain hpre
    rw [body, hpre, List.nil_append]
    rw [ht] at hdigits hplain ⊢
    cases t with
    | nil =>
      -- the digit is the only one, so no `x` follows if it is a zero
      cases hrest : l.rest with
      | nil => rfl
      | cons d u =>
        rw [hrest] at hplain
        have hx : ¬ (c = unit '0' ∧ (d = unit 'x' ∨ d = unit 'X')) := by
          rintro ⟨rfl, hd⟩
          exact hd.elim (hplain rfl d rfl).1 (hplain rfl d rfl).2
        rw [List.singleton_append, stripPrefix, if_neg hx]
    | cons d t =>
      have hd := plainHex (hdigits d (by simp))
      simp only [PlainHex, Bool.and_eq_true, bne_iff_ne, ne_eq] at hd
      rw [List.cons_append, List.cons_append, stripPrefix,
        if_neg fun h => h.2.elim hd.1.2 hd.2]
  · rw [body, hpre]
    rfl
  · rw [body, hpre]
    rfl

/-- The conversion reads the sign and the digits. -/
theorem parseInt_toText (l : HexLiteral) : parseInt l.toText 16 = binary64 l.toInt := by
  have hdigits := takeWhile_digits l.digits_hex l.rest_stray
  simp only [parseInt, l.dropWhile_toText, l.splitSign_body, if_true, l.stripPrefix_body, hdigits,
    l.digits_ne, if_false, decide_eq_true_eq, HexLiteral.toInt]
  split <;> simp

/-- A text of digits is a literal of them. -/
theorem exists_digits (hs : s ≠ []) (h : ∀ c ∈ s, isDigit 16 c = true) :
    ∃ l : HexLiteral, l.toText = s ∧ l.toInt = value 16 s := by
  refine ⟨⟨[], [], [], s, [], by simp, by simp [signs], by simp, hs, h, by simp, by simp⟩, ?_, ?_⟩
  · simp [HexLiteral.toText, HexLiteral.body]
  · have hsign : ([] : Text) ≠ text "-" := by decide
    rw [HexLiteral.toInt, if_neg hsign]

theorem parseInt_digits (hs : s ≠ []) (h : ∀ c ∈ s, isDigit 16 c = true)
    (hlt : value 16 s < 2 ^ 53) : parseInt s 16 = .finite (value 16 s) := by
  obtain ⟨l, rfl, hl⟩ := exists_digits hs h
  rw [parseInt_toText, hl, Int.cast_natCast, binary64_natCast hlt]

theorem stripPrefix_append (s : Text) :
    ∃ pre ∈ [[], text "0x", text "0X"], pre ++ stripPrefix s = s := by
  unfold stripPrefix
  split
  · split
    · rename_i hmarked
      rcases hmarked with ⟨rfl, rfl | rfl⟩
      · exact ⟨text "0x", by simp, rfl⟩
      · exact ⟨text "0X", by simp, rfl⟩
    · exact ⟨[], by simp, rfl⟩
  · exact ⟨[], by simp, rfl⟩

/-- A prefix that is there is passed over. -/
theorem ne_of_stripPrefix {t : Text} (h : stripPrefix (unit '0' :: c :: t) = unit '0' :: c :: t) :
    c ≠ unit 'x' ∧ c ≠ unit 'X' := by
  rw [← not_or]
  intro hc
  rw [stripPrefix, if_pos ⟨rfl, hc⟩] at h
  have hlength := congrArg List.length h
  simp only [List.length_cons] at hlength
  omega

/-- Every text that is converted to a number is a literal. -/
theorem exists_literal (h : parseInt s 16 ≠ .nan) : ∃ l : HexLiteral, l.toText = s := by
  obtain ⟨sign, hsign, hsplit, -⟩ := exists_sign (s.dropWhile isWhiteSpace)
  obtain ⟨pre, hpre, hstrip⟩ := stripPrefix_append (splitSign (s.dropWhile isWhiteSpace)).2
  generalize hbody : stripPrefix (splitSign (s.dropWhile isWhiteSpace)).2 = body at hstrip
  have hcut := List.takeWhile_append_dropWhile (p := isDigit 16) (l := body)
  have hdigits : body.takeWhile (isDigit 16) ≠ [] := by
    intro hnone
    apply h
    simp only [parseInt, if_true, hbody, hnone]
  have htext : s.takeWhile isWhiteSpace ++ (sign ++ (pre ++
      (body.takeWhile (isDigit 16) ++ body.dropWhile (isDigit 16)))) = s := by
    rw [hcut, hstrip, hsplit, List.takeWhile_append_dropWhile]
  refine ⟨⟨_, sign, pre, _, _, fun c => List.mem_takeWhile_imp, hsign, hpre, hdigits,
    fun c => List.mem_takeWhile_imp, fun c hc => ?_, fun hnone hzero c hc => ?_⟩, htext⟩
  · have hhead := List.head?_dropWhile_not (isDigit 16) body
    rw [hc] at hhead
    simpa using hhead
  · -- after a zero, an `x` would have been passed over
    rw [hnone, List.nil_append] at hstrip
    rw [← hstrip] at hbody
    obtain ⟨t, ht⟩ := List.head?_eq_some_iff.mp hc
    rw [hzero, ht] at hcut
    rw [← hcut] at hbody
    exact ne_of_stripPrefix hbody

/-- The texts that are converted to a small natural number. -/
theorem parseInt_outside_iff {most : Nat} (hmost : most < 2 ^ 52) :
    (parseInt s 16).outside most = false ↔
      ∃ l : HexLiteral, l.toText = s ∧ 0 ≤ l.toInt ∧ l.toInt ≤ most := by
  constructor
  · intro h
    have hne : parseInt s 16 ≠ .nan := by
      intro hnan
      rw [hnan] at h
      cases h
    obtain ⟨l, rfl⟩ := exists_literal hne
    rw [parseInt_toText, binary64_intCast_outside hmost] at h
    exact ⟨l, rfl, h⟩
  · rintro ⟨l, rfl, h⟩
    rwa [parseInt_toText, binary64_intCast_outside hmost]

end Digits

end JavaScript
