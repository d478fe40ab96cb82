import Oxidrop.Lib.Literal

/-!
# Texts that `Number` converts

`Number` reads a whole text: between white space nothing at all, digits behind a
prefix, or a decimal with a sign, a point and an exponent. The grammar gives the exact
value, which the conversion rounds.
-/
namespace JavaScript

open Numeral

/-! ## The grammar -/

/-- What follows the digits of a decimal. -/
inductive Exponent : Text → ℤ → Prop
  | absent : Exponent [] 0
  | present (c : UInt16) (sign digits : Text) (hc : c = unit 'e' ∨ c = unit 'E')
    (hsign : sign ∈ signs) (hne : digits ≠ []) (hdigits : ∀ d ∈ digits, isDigit 10 d = true) :
    Exponent (c :: (sign ++ digits))
      (if sign = text "-" then -(value 10 digits : ℤ) else value 10 digits)

/-- A decimal without sign. -/
inductive Unsigned : Text → ℚ → Prop
  | whole (digits rest : Text) (e : ℤ) (hne : digits ≠ [])
    (hdigits : ∀ d ∈ digits, isDigit 10 d = true) (hrest : Exponent rest e) :
    Unsigned (digits ++ rest) (value 10 digits * 10 ^ e)
  | point (whole fraction rest : Text) (e : ℤ) (hne : whole ++ fraction ≠ [])
    (hwhole : ∀ d ∈ whole, isDigit 10 d = true) (hfraction : ∀ d ∈ fraction, isDigit 10 d = true)
    (hrest : Exponent rest e) :
    Unsigned (whole ++ unit '.' :: (fraction ++ rest))
      (value 10 (whole ++ fraction) * 10 ^ (e - (fraction.length : ℤ)))

/-- The letters behind the zero of another radix. -/
def radixes : List (Nat × UInt16) :=
  [(16, unit 'x'), (16, unit 'X'), (8, unit 'o'), (8, unit 'O'), (2, unit 'b'), (2, unit 'B')]

/-- A text that is converted, without the white space around it, and its exact value. -/
inductive Literal : Text → ℚ → Prop
  | empty : Literal [] 0
  | prefixed (radix : Nat) (c : UInt16) (digits : Text) (hradix : (radix, c) ∈ radixes)
    (hne : digits ≠ []) (hdigits : ∀ d ∈ digits, isDigit radix d = true) :
    Literal (unit '0' :: c :: digits) (value radix digits)
  | decimal (sign s : Text) (q : ℚ) (hsign : sign ∈ signs) (h : Unsigned s q) :
    Literal (sign ++ s) (if sign = text "-" then -q else q)

section Parts

variable {s t rest digits : Text} {c : UInt16} {e : ℤ} {q : ℚ} {radix : Nat}

/-! ## Characters of decimals -/

/-- No white space and no letter of another literal. -/
def PlainDecimal (c : UInt16) : Bool :=
  !isWhiteSpace c && !(text "xXoObBI").contains c

theorem ne_of_plain (h : PlainDecimal c = true) {d : UInt16} (hd : d ∈ text "xXoObBI") :
    c ≠ d := by
  rintro rfl
  simp only [PlainDecimal, Bool.and_eq_true, Bool.not_eq_true'] at h
  rw [List.contains_iff_mem.mpr hd] at h
  exact absurd h.2 (by decide)

theorem space_of_plain (h : PlainDecimal c = true) : isWhiteSpace c = false := by
  simp only [PlainDecimal, Bool.and_eq_true, Bool.not_eq_true'] at h
  exact h.1

theorem plainDecimal (h : isDigit 10 c = true) : PlainDecimal c = true :=
  of_isDigit (P := fun c => PlainDecimal c = true) (by decide) h

/-- A decimal digit is no sign, point or letter. -/
theorem ne_of_decimal (h : isDigit 10 c = true) {d : UInt16} (hd : d ∈ text "-+.eE") : c ≠ d := by
  have hall : (text "-+.eE").all (fun d => !isDigit 10 d) = true := by decide
  have hdigit := List.all_eq_true.mp hall d hd
  rintro rfl
  rw [h] at hdigit
  cases hdigit

theorem plainDecimal_sign {sign : Text} (hsign : sign ∈ signs) (hc : c ∈ sign) :
    PlainDecimal c = true := by
  rcases sign_cases hsign with rfl | rfl | rfl
  · cases hc
  · obtain rfl := List.mem_singleton.mp hc
    decide
  · obtain rfl := List.mem_singleton.mp hc
    decide

theorem Exponent.plain (h : Exponent s e) : ∀ c ∈ s, PlainDecimal c = true := by
  intro c hmem
  cases h with
  | absent => cases hmem
  | present d sign digits hd hsign hne hdigits =>
    rcases List.mem_cons.mp hmem with rfl | hmem
    · rcases hd with rfl | rfl <;> decide
    · rcases List.mem_append.mp hmem with hmem | hmem
      · exact plainDecimal_sign hsign hmem
      · exact plainDecimal (hdigits c hmem)

theorem Unsigned.plain (h : Unsigned s q) : ∀ c ∈ s, PlainDecimal c = true := by
  intro c hmem
  cases h with
  | whole digits rest e hne hdigits hrest =>
    rcases List.mem_append.mp hmem with hmem | hmem
    · exact plainDecimal (hdigits c hmem)
    · exact hrest.plain c hmem
  | point whole fraction rest e hne hwhole hfraction hrest =>
    rcases List.mem_append.mp hmem with hmem | hmem
    · exact plainDecimal (hwhole c hmem)
    · rcases List.mem_cons.mp hmem with rfl | hmem
      · decide
      · rcases List.mem_append.mp hmem with hmem | hmem
        · exact plainDecimal (hfraction c hmem)
        · exact hrest.plain c hmem

/-- A decimal begins with a digit or with the point. -/
theorem Unsigned.head (h : Unsigned s q) :
    ∃ c t, s = c :: t ∧ (isDigit 10 c = true ∨ c = unit '.') := by
  cases h with
  | whole digits rest e hne hdigits hrest =>
    obtain ⟨c, t, rfl⟩ := List.exists_cons_of_ne_nil hne
    exact ⟨c, t ++ rest, rfl, .inl (hdigits c List.mem_cons_self)⟩
  | point whole fraction rest e hne hwhole hfraction hrest =>
    cases whole with
    | nil => exact ⟨unit '.', fraction ++ rest, rfl, .inr rfl⟩
    | cons c t => exact ⟨c, _, rfl, .inl (hwhole c List.mem_cons_self)⟩

theorem Exponent.head (h : Exponent s e) : ∀ c ∈ s.head?, c = unit 'e' ∨ c = unit 'E' := by
  intro c hc
  cases h with
  | absent => cases hc
  | present d sign digits hd =>
    obtain rfl : d = c := Option.some.inj hc
    exact hd

/-- An exponent begins with no digit, and not with the point. -/
theorem Exponent.head_stray (h : Exponent s e) :
    ∀ c ∈ s.head?, isDigit 10 c = false ∧ c ≠ unit '.' := by
  intro c hc
  rcases h.head c hc with rfl | rfl <;> decide

/-! ## Reading the parts -/

/-- Digits, or digits behind a sign, are split at the sign. -/
theorem splitSign_digits {sign : Text} (hsign : sign ∈ signs)
    (hdigits : ∀ d ∈ digits, isDigit 10 d = true) :
    splitSign (sign ++ digits) = (decide (sign = text "-"), digits) := by
  refine splitSign_sign hsign fun c hc => ?_
  have hdigit := hdigits c (List.mem_of_mem_head? hc)
  exact ⟨ne_of_decimal hdigit (by decide), ne_of_decimal hdigit (by decide)⟩

theorem exponentPart_eq_some_iff : exponentPart s = some e ↔ Exponent s e := by
  constructor
  · intro h
    cases s with
    | nil =>
      cases h
      exact .absent
    | cons c s =>
      obtain ⟨sign, hsign, hs, hnegative⟩ := exists_sign s
      simp only [exponentPart, hnegative, decide_eq_true_eq] at h
      split at h
      · rename_i hcond
        obtain rfl := Option.some.inj h
        have hpresent := Exponent.present c sign _ hcond.1 hsign hcond.2.1
          (List.all_eq_true.mp hcond.2.2)
        rwa [hs] at hpresent
      · cases h
  · intro h
    cases h with
    | absent => rfl
    | present c sign digits hc hsign hne hdigits =>
      have hall : digits.all (isDigit 10) = true := List.all_eq_true.mpr hdigits
      simp [exponentPart, splitSign_digits hsign hdigits, hc, hne, hall]

theorem splitFraction_point (s : Text) :
    splitFraction (unit '.' :: s) = (s.takeWhile (isDigit 10), s.dropWhile (isDigit 10)) := rfl

theorem splitFraction_of_ne (h : ∀ c ∈ s.head?, c ≠ unit '.') : splitFraction s = ([], s) := by
  cases s with
  | nil => rfl
  | cons c s => rw [splitFraction, if_neg (h c rfl)]

/-- Digits are cut off what begins with none. -/
theorem dropWhile_digits (h : ∀ c ∈ s, isDigit radix c = true)
    (ht : ∀ c ∈ t.head?, isDigit radix c = false) : (s ++ t).dropWhile (isDigit radix) = t := by
  rw [List.dropWhile_append_of_pos h]
  cases t with
  | nil => rfl
  | cons c t => rw [List.dropWhile_cons_of_neg (by simp [ht c rfl])]

theorem unsignedDecimal_eq_some (h : Unsigned s q) : unsignedDecimal s = some q := by
  cases h with
  | whole digits rest e hne hdigits hrest =>
    have hstray : ∀ c ∈ rest.head?, isDigit 10 c = false := fun c hc => (hrest.head_stray c hc).1
    have hsplit := splitFraction_of_ne fun c hc => (hrest.head_stray c hc).2
    simp [unsignedDecimal, takeWhile_digits hdigits hstray, dropWhile_digits hdigits hstray,
      hsplit, hne, exponentPart_eq_some_iff.mpr hrest]
  | point whole fraction rest e hne hwhole hfraction hrest =>
    have hpoint : ∀ c ∈ (unit '.' :: (fraction ++ rest)).head?, isDigit 10 c = false := by
      intro c hc
      obtain rfl := Option.some.inj hc
      decide
    have hstray : ∀ c ∈ rest.head?, isDigit 10 c = false := fun c hc => (hrest.head_stray c hc).1
    simp only [unsignedDecimal, takeWhile_digits hwhole hpoint, dropWhile_digits hwhole hpoint,
      splitFraction_point, takeWhile_digits hfraction hstray, dropWhile_digits hfraction hstray,
      if_neg hne, exponentPart_eq_some_iff.mpr hrest, Option.map_some]

theorem unsigned_of_unsignedDecimal (h : unsignedDecimal s = some q) : Unsigned s q := by
  have hwhole : ∀ d ∈ s.takeWhile (isDigit 10), isDigit 10 d = true :=
    fun d => List.mem_takeWhile_imp
  have hcut := List.takeWhile_append_dropWhile (p := isDigit 10) (l := s)
  simp only [unsignedDecimal] at h
  generalize s.takeWhile (isDigit 10) = whole, s.dropWhile (isDigit 10) = tail at *
  rw [← hcut]
  by_cases hpoint : ∃ u, tail = unit '.' :: u
  · obtain ⟨u, rfl⟩ := hpoint
    rw [splitFraction_point] at h
    simp only at h
    split at h
    · cases h
    · rename_i hne
      obtain ⟨e, he, rfl⟩ := Option.map_eq_some_iff.mp h
      have hdecimal := Unsigned.point whole _ _ e hne hwhole (fun d => List.mem_takeWhile_imp)
        (exponentPart_eq_some_iff.mp he)
      rwa [List.takeWhile_append_dropWhile] at hdecimal
  · have hnone : splitFraction tail = ([], tail) := by
      refine splitFraction_of_ne fun c hc => ?_
      rintro rfl
      exact hpoint (List.head?_eq_some_iff.mp hc)
    rw [hnone] at h
    simp only [List.append_nil] at h
    split at h
    · cases h
    · rename_i hne
      obtain ⟨e, he, rfl⟩ := Option.map_eq_some_iff.mp h
      have hdecimal := Unsigned.whole whole tail e hne hwhole (exponentPart_eq_some_iff.mp he)
      simpa using hdecimal

theorem unsignedDecimal_eq_some_iff : unsignedDecimal s = some q ↔ Unsigned s q :=
  ⟨unsigned_of_unsignedDecimal, unsignedDecimal_eq_some⟩

theorem nonDecimal_eq_some_iff :
    nonDecimal s = some (radix, digits) ↔
      ∃ c, (radix, c) ∈ radixes ∧ s = unit '0' :: c :: digits := by
  constructor
  · intro h
    unfold nonDecimal at h
    split at h
    · rename_i c d s
      split_ifs at h with hzero hx ho hb
      · cases h
        exact ⟨d, by rcases hx with rfl | rfl <;> simp [radixes], by rw [hzero]⟩
      · cases h
        exact ⟨d, by rcases ho with rfl | rfl <;> simp [radixes], by rw [hzero]⟩
      · cases h
        exact ⟨d, by rcases hb with rfl | rfl <;> simp [radixes], by rw [hzero]⟩
    · cases h
  · rintro ⟨c, hradix, rfl⟩
    simp only [radixes, List.mem_cons, Prod.mk.injEq, List.not_mem_nil, or_false] at hradix
    rcases hradix with ⟨rfl, rfl⟩ | ⟨rfl, rfl⟩ | ⟨rfl, rfl⟩ | ⟨rfl, rfl⟩ | ⟨rfl, rfl⟩ | ⟨rfl, rfl⟩
    all_goals rfl

theorem mem_radixes (h : (radix, c) ∈ radixes) : radix ≤ 36 ∧ c ∈ text "xXoObBI" := by
  have hall : radixes.all (fun r => r.1 ≤ 36 && (text "xXoObBI").contains r.2) = true := by decide
  have hmem := List.all_eq_true.mp hall _ h
  simpa using hmem

/-! ## Decimals are no other literals -/

section Unsigned

variable {sign : Text}

theorem Unsigned.plain_sign (h : Unsigned s q) (hsign : sign ∈ signs) :
    ∀ c ∈ sign ++ s, PlainDecimal c = true := by
  intro c hc
  rcases List.mem_append.mp hc with hc | hc
  · exact plainDecimal_sign hsign hc
  · exact h.plain c hc

theorem Unsigned.nonDecimal_eq_none (h : Unsigned s q) (hsign : sign ∈ signs) :
    nonDecimal (sign ++ s) = none := by
  cases hliteral : nonDecimal (sign ++ s) with
  | none => rfl
  | some literal =>
    obtain ⟨c, hradix, heq⟩ := nonDecimal_eq_some_iff.mp hliteral
    have hplain := h.plain_sign hsign c (by rw [heq]; simp)
    exact absurd rfl (ne_of_plain hplain (mem_radixes hradix).2)

theorem Unsigned.ne_infinity (h : Unsigned s q) : s ≠ text "Infinity" := by
  rintro rfl
  have hplain := h.plain (unit 'I') (by decide)
  exact absurd rfl (ne_of_plain hplain (by decide))

theorem Unsigned.splitSign_eq (h : Unsigned s q) (hsign : sign ∈ signs) :
    splitSign (sign ++ s) = (decide (sign = text "-"), s) := by
  refine splitSign_sign hsign fun d hd => ?_
  obtain ⟨c, t, rfl, hc⟩ := h.head
  obtain rfl : c = d := Option.some.inj hd
  rcases hc with hc | rfl
  · exact ⟨ne_of_decimal hc (by decide), ne_of_decimal hc (by decide)⟩
  · decide

theorem Unsigned.ne_nil (h : Unsigned s q) : sign ++ s ≠ [] := by
  obtain ⟨c, t, rfl, -⟩ := h.head
  simp

end Unsigned

/-! ## The whole text -/

theorem isDigit_mono {radix' : Nat} (hle : radix ≤ radix') (h : isDigit radix c = true) :
    isDigit radix' c = true := by
  unfold isDigit at h ⊢
  cases hd : digitValue c with
  | none => simp [hd] at h
  | some d =>
    rw [hd] at h
    simp only [Option.any_some, decide_eq_true_eq] at h ⊢
    omega

theorem space_of_digit (hradix : radix ≤ 36) (h : isDigit radix c = true) :
    isWhiteSpace c = false :=
  of_isDigit (P := fun c => isWhiteSpace c = false) (by decide) (isDigit_mono hradix h)

theorem Literal.space_free (h : Literal t q) : ∀ c ∈ t, isWhiteSpace c = false := by
  intro d hd
  cases h with
  | empty => cases hd
  | prefixed radix c digits hradix hne hdigits =>
    obtain ⟨hmost, hc⟩ := mem_radixes hradix
    have hletters : (text "xXoObBI").all (fun c => !isWhiteSpace c) = true := by decide
    rcases List.mem_cons.mp hd with rfl | hd
    · decide
    · rcases List.mem_cons.mp hd with rfl | hd
      · simpa using List.all_eq_true.mp hletters d hc
      · exact space_of_digit hmost (hdigits d hd)
  | decimal sign s q hsign h => exact space_of_plain (h.plain_sign hsign d hd)

theorem dropWhile_space_free (ht : ∀ c ∈ t, isWhiteSpace c = false) :
    t.dropWhile isWhiteSpace = t := by
  cases t with
  | nil => rfl
  | cons c t => exact List.dropWhile_cons_of_neg (by simp [ht c List.mem_cons_self])

/-- The white space around a text without any is trimmed. -/
theorem trim_eq {left right : Text} (hleft : ∀ c ∈ left, isWhiteSpace c = true)
    (hright : ∀ c ∈ right, isWhiteSpace c = true) (ht : ∀ c ∈ t, isWhiteSpace c = false) :
    ((left ++ (t ++ right)).dropWhile isWhiteSpace).rdropWhile isWhiteSpace = t := by
  rw [List.dropWhile_append_of_pos hleft]
  cases t with
  | nil => rw [List.nil_append, List.dropWhile_eq_nil_iff.mpr hright, List.rdropWhile_nil]
  | cons c t =>
    have hc : isWhiteSpace c = false := ht c List.mem_cons_self
    have hreverse : ∀ d ∈ (c :: t).reverse, isWhiteSpace d = false :=
      fun d hd => ht d (List.mem_reverse.mp hd)
    rw [List.cons_append, List.dropWhile_cons_of_neg (by simp [hc]), ← List.cons_append,
      List.rdropWhile, List.reverse_append,
      List.dropWhile_append_of_pos fun d hd => hright d (List.mem_reverse.mp hd),
      dropWhile_space_free hreverse, List.reverse_reverse]

/-- The text is a literal between white space. -/
def IsNumeric (s : Text) (q : ℚ) : Prop :=
  ∃ left t right, (∀ c ∈ left, isWhiteSpace c = true) ∧ (∀ c ∈ right, isWhiteSpace c = true) ∧
    s = left ++ (t ++ right) ∧ Literal t q

/-- The conversion rounds the exact value. -/
theorem ofText_numeric (h : IsNumeric s q) : ofText s = binary64 q := by
  obtain ⟨left, t, right, hleft, hright, rfl, hliteral⟩ := h
  have htrim := trim_eq hleft hright hliteral.space_free
  cases hliteral with
  | empty =>
    simp only [ofText, htrim, if_true]
    exact (binary64_natCast (n := 0) (by decide)).symm
  | prefixed radix c digits hradix hne hdigits =>
    have hsome : nonDecimal (unit '0' :: c :: digits) = some (radix, digits) :=
      nonDecimal_eq_some_iff.mpr ⟨c, hradix, rfl⟩
    have hall : digits.all (isDigit radix) = true := List.all_eq_true.mpr hdigits
    simp only [ofText, htrim, reduceCtorEq, if_false, hsome, hall, hne, ne_eq, not_false_eq_true,
      and_self, if_true]
  | decimal sign s q hsign hunsigned =>
    simp only [ofText, htrim, if_neg hunsigned.ne_nil, hunsigned.nonDecimal_eq_none hsign,
      hunsigned.splitSign_eq hsign, if_neg hunsigned.ne_infinity,
      unsignedDecimal_eq_some_iff.mpr hunsigned, decide_eq_true_eq]

theorem exists_trim (s : Text) : ∃ left right,
    (∀ c ∈ left, isWhiteSpace c = true) ∧ (∀ c ∈ right, isWhiteSpace c = true) ∧
      s = left ++ ((s.dropWhile isWhiteSpace).rdropWhile isWhiteSpace ++ right) := by
  refine ⟨s.takeWhile isWhiteSpace, (s.dropWhile isWhiteSpace).rtakeWhile isWhiteSpace,
    fun c => List.mem_takeWhile_imp, fun c hc => ?_, ?_⟩
  · rw [List.rtakeWhile, List.mem_reverse] at hc
    exact List.mem_takeWhile_imp hc
  · rw [List.rdropWhile, List.rtakeWhile, ← List.reverse_append, List.takeWhile_append_dropWhile,
      List.reverse_reverse, List.takeWhile_append_dropWhile]

/-- A text that is no literal converts to no finite number. -/
theorem ofText_cases (s : Text) :
    ofText s = .nan ∨ (∃ negative, ofText s = .infinity negative) ∨ ∃ q, IsNumeric s q := by
  obtain ⟨left, right, hleft, hright, hs⟩ := exists_trim s
  have hnumeric : ∀ q, Literal ((s.dropWhile isWhiteSpace).rdropWhile isWhiteSpace) q →
      IsNumeric s q := fun q h => ⟨left, _, right, hleft, hright, hs, h⟩
  simp only [ofText]
  generalize (s.dropWhile isWhiteSpace).rdropWhile isWhiteSpace = t at hnumeric ⊢
  by_cases ht : t = []
  · rw [ht] at hnumeric
    exact .inr (.inr ⟨0, hnumeric 0 .empty⟩)
  · rw [if_neg ht]
    cases hliteral : nonDecimal t with
    | some literal =>
      obtain ⟨c, hradix, rfl⟩ := nonDecimal_eq_some_iff.mp hliteral
      simp only
      split
      · rename_i hdigits
        exact .inr (.inr ⟨_, hnumeric _
          (.prefixed _ c _ hradix hdigits.1 (List.all_eq_true.mp hdigits.2))⟩)
      · exact .inl rfl
    | none =>
      obtain ⟨sign, hsign, hsplit, -⟩ := exists_sign t
      simp only
      split
      · exact .inr (.inl ⟨_, rfl⟩)
      · cases hunsigned : unsignedDecimal (splitSign t).2 with
        | none => exact .inl rfl
        | some q =>
          have hdecimal := Literal.decimal sign _ q hsign
            (unsignedDecimal_eq_some_iff.mp hunsigned)
          rw [hsplit] at hdecimal
          exact .inr (.inr ⟨_, hnumeric _ hdecimal⟩)

/-- The texts that are converted to a small natural number. -/
theorem ofText_outside_iff {most : Nat} :
    (ofText s).outside most = false ↔
      ∃ q n, IsNumeric s q ∧ n ≤ most ∧ binary64 q = .finite (n : ℕ) := by
  constructor
  · intro h
    obtain ⟨n, hn, heq⟩ := outside_eq_false_iff.mp h
    rcases ofText_cases s with hnan | ⟨negative, hinfinity⟩ | ⟨q, hq⟩
    · rw [hnan] at heq
      cases heq
    · rw [hinfinity] at heq
      cases heq
    · rw [ofText_numeric hq] at heq
      exact ⟨q, n, hq, hn, heq⟩
  · rintro ⟨q, n, hq, hn, heq⟩
    exact outside_eq_false_iff.mpr ⟨n, hn, by rw [ofText_numeric hq, heq]⟩

/-- Decimal digits alone stand for their number. -/
theorem isNumeric_digits (hs : s ≠ []) (h : ∀ c ∈ s, isDigit 10 c = true) :
    IsNumeric s (value 10 s) := by
  have hunsigned : Unsigned s (value 10 s) := by
    have hwhole := Unsigned.whole s [] 0 hs h .absent
    simpa using hwhole
  have hsign : ([] : Text) ≠ text "-" := by decide
  have hdecimal := Literal.decimal [] s _ (by simp [signs]) hunsigned
  rw [if_neg hsign] at hdecimal
  exact ⟨[], s, [], by simp, by simp, by simp, hdecimal⟩

theorem ofText_digits (hs : s ≠ []) (h : ∀ c ∈ s, isDigit 10 c = true)
    (hlt : value 10 s < 2 ^ 53) : ofText s = .finite (value 10 s) := by
  rw [ofText_numeric (isNumeric_digits hs h), binary64_natCast hlt]

end Parts

end JavaScript
