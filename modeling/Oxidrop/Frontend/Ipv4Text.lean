import Oxidrop.Frontend.Addresses
import Oxidrop.Lib.NumberText

/-!
# IPv4 addresses as text

Each octet goes through `Number`, which converts more than decimal digits: an empty
octet counts as zero, and white space, signs, exponents and other radices are accepted.
-/
namespace Oxidrop.Frontend.Ipv4Text

open Numeral JavaScript Split

/-- One to three decimal digits. -/
structure ShortDecimal (o : Text) : Prop where
  nonempty : o ≠ []
  short : o.length ≤ 3
  digits : ∀ c ∈ o, isDigit 10 c = true

/-- Four decimal numbers of at most three digits and at most 255, separated by dots, most
significant first. -/
structure DottedQuad (s : Text) (n : Nat) : Prop where
  octets : ∃ a b c d : Text, s = join "." [a, b, c, d] ∧
    (∀ o ∈ [a, b, c, d], ShortDecimal o ∧ value 10 o ≤ 255) ∧
    n = value 10 a * 2 ^ 24 + value 10 b * 2 ^ 16 + value 10 c * 2 ^ 8 + value 10 d

/-- Between white space the text is empty, or a numeral in some radix or a decimal, and its
value is rounded to an octet. -/
def Reads (o : Text) : Prop := ∃ q n, IsNumeric o q ∧ n ≤ 255 ∧ binary64 q = .finite (n : ℕ)

/-- Four texts that are read as octets, although one of them is not one to three decimal
digits. -/
structure Mistyped (s : Text) : Prop where
  four : (split (text ".") s).length = 4
  reads : ∀ o ∈ split (text ".") s, Reads o
  loose : ∃ o ∈ split (text ".") s, ¬ ShortDecimal o

def networkOf (octets : List Nat) : Nat :=
  octets.foldl (fun network octet => network * 256 + octet) 0

section Parse

variable {s o : Text} {n : Nat}

/-- These are the texts that `Number` turns into octets. -/
theorem reads_iff_ofText : Reads o ↔ (ofText o).outside 255 = false := ofText_outside_iff.symm

theorem ShortDecimal.ofText_eq (h : ShortDecimal o) : ofText o = .finite (value 10 o) := by
  refine ofText_digits h.nonempty h.digits ?_
  calc value 10 o < 10 ^ o.length := value_lt h.digits
    _ ≤ 10 ^ 3 := Nat.pow_le_pow_right (by decide) h.short
    _ ≤ 2 ^ 53 := by decide

theorem ShortDecimal.reads_iff (h : ShortDecimal o) : Reads o ↔ value 10 o ≤ 255 := by
  rw [reads_iff_ofText, outside_eq_false_iff, h.ofText_eq]
  constructor
  · rintro ⟨n, hn, heq⟩
    have hvalue := congrArg Number.toNat heq
    rw [toNat_natCast, toNat_natCast] at hvalue
    omega
  · exact fun hle => ⟨_, hle, rfl⟩

theorem ShortDecimal.dot_notMem (h : ShortDecimal o) : unit '.' ∉ o := by
  intro hmem
  have hdigit := h.digits _ hmem
  exact absurd hdigit (by decide)

/-- The parser accepts four octets that are read. -/
theorem parseIpv4_eq_some_iff :
    parseIpv4 s = some n ↔ (split (text ".") s).length = 4 ∧
      (∀ o ∈ split (text ".") s, Reads o) ∧
      n = networkOf ((split (text ".") s).map fun o => (ofText o).toNat) := by
  unfold parseIpv4 networkOf
  generalize split (text ".") s = octets
  have hreads : (octets.map ofText).any (Number.outside 255) = false ↔
      ∀ o ∈ octets, Reads o := by
    rw [List.any_eq_false]
    simp [reads_iff_ofText]
  simp only [List.foldl_map]
  split
  · rename_i hfour
    exact ⟨fun h => (by cases h), fun h => absurd h.1 hfour⟩
  · rename_i hfour
    split
    · rename_i hany
      refine ⟨fun h => (by cases h), fun h => ?_⟩
      rw [hreads.mpr h.2.1] at hany
      cases hany
    · rename_i hany
      rw [Bool.not_eq_true] at hany
      rw [Option.some.injEq]
      exact ⟨fun h => ⟨not_not.mp hfour, hreads.mp hany, h.symm⟩, fun h => h.2.2.symm⟩

theorem split_quad {a b c d : Text} (h : ∀ o ∈ [a, b, c, d], ShortDecimal o) :
    split (text ".") (join "." [a, b, c, d]) = [a, b, c, d] := by
  have hdot : text "." = [unit '.'] := by decide
  rw [join, hdot, split_singleton]
  exact List.splitOn_intercalate _ (fun o ho => (h o ho).dot_notMem) (by simp)

theorem networkOf_four (a b c d : Nat) :
    networkOf [a, b, c, d] = a * 2 ^ 24 + b * 2 ^ 16 + c * 2 ^ 8 + d := by
  simp only [networkOf, List.foldl_cons, List.foldl_nil]
  ring

/-- The quads among the texts of four octets. -/
theorem dottedQuad_iff :
    DottedQuad s n ↔ (split (text ".") s).length = 4 ∧
      (∀ o ∈ split (text ".") s, ShortDecimal o ∧ value 10 o ≤ 255) ∧
      n = networkOf ((split (text ".") s).map (value 10)) := by
  constructor
  · rintro ⟨a, b, c, d, rfl, hoctets, rfl⟩
    rw [split_quad fun o ho => (hoctets o ho).1]
    exact ⟨rfl, hoctets, (networkOf_four _ _ _ _).symm⟩
  · rintro ⟨hfour, hoctets, hn⟩
    have hs := intercalate_split (show text "." ≠ [] by decide) s
    match hp : split (text ".") s, hfour with
    | [a, b, c, d], _ =>
      rw [hp] at hoctets hn hs
      exact ⟨a, b, c, d, hs.symm, hoctets, hn.trans (networkOf_four _ _ _ _)⟩

/-- Every quad is read as its network. -/
theorem DottedQuad.accepted (h : DottedQuad s n) : parseIpv4 s = some n := by
  obtain ⟨hfour, hoctets, hn⟩ := dottedQuad_iff.mp h
  refine parseIpv4_eq_some_iff.mpr ⟨hfour, fun o ho => ?_, ?_⟩
  · exact (hoctets o ho).1.reads_iff.mpr (hoctets o ho).2
  · rw [hn]
    refine congrArg networkOf (List.map_congr_left fun o ho => ?_)
    rw [(hoctets o ho).1.ofText_eq, toNat_natCast]

theorem numeral_octet {v : Nat} (hv : v ≤ 255) :
    ShortDecimal (numeral 10 v) ∧ value 10 (numeral 10 v) = v :=
  ⟨⟨numeral_ne_nil 10 v, length_numeral_le (by decide) (by decide) (by omega),
    isDigit_numeral (by decide) (by decide)⟩, value_numeral (by decide) (by decide) v⟩

end Parse

/-! ## There and back -/

theorem and_255 (n : UInt32) : (n &&& 255).toNat = n.toNat % 256 := by
  rw [UInt32.toNat_and]
  exact Nat.and_two_pow_sub_one_eq_mod n.toNat 8

/-- The octets that are written are the bytes of the network. -/
theorem octets_toNat (n : UInt32) :
    [n >>> 24, (n >>> 16) &&& 255, (n >>> 8) &&& 255, n &&& 255].map UInt32.toNat =
      [n.toNat / 2 ^ 24, n.toNat / 2 ^ 16 % 256, n.toNat / 2 ^ 8 % 256, n.toNat % 256] := by
  have hshift : 24 % 32 = 24 ∧ 16 % 32 = 16 ∧ 8 % 32 = 8 := by decide
  simp only [List.map_cons, List.map_nil, and_255, UInt32.toNat_shiftRight, UInt32.reduceToNat,
    Nat.shiftRight_eq_div_pow, hshift]

/-- What is written is a quad of the network. -/
theorem formatIpv4_quad (n : UInt32) : DottedQuad (formatIpv4 n) n.toNat := by
  have hoctets := congrArg (List.map (numeral 10)) (octets_toNat n)
  rw [List.map_map] at hoctets
  have hformat : formatIpv4 n = join "." ([n.toNat / 2 ^ 24, n.toNat / 2 ^ 16 % 256,
      n.toNat / 2 ^ 8 % 256, n.toNat % 256].map (numeral 10)) :=
    congrArg (join ".") hoctets
  have hlt := n.toNat_lt
  have hfirst := numeral_octet (v := n.toNat / 2 ^ 24) (by omega)
  have hsecond := numeral_octet (v := n.toNat / 2 ^ 16 % 256) (by omega)
  have hthird := numeral_octet (v := n.toNat / 2 ^ 8 % 256) (by omega)
  have hfourth := numeral_octet (v := n.toNat % 256) (by omega)
  refine ⟨_, _, _, _, hformat, fun o ho => ?_, ?_⟩
  · simp only [List.mem_cons, List.not_mem_nil, or_false] at ho
    rcases ho with rfl | rfl | rfl | rfl
    · exact ⟨hfirst.1, by omega⟩
    · exact ⟨hsecond.1, by omega⟩
    · exact ⟨hthird.1, by omega⟩
    · exact ⟨hfourth.1, by omega⟩
  · rw [hfirst.2, hsecond.2, hthird.2, hfourth.2]
    omega

/-- Both formatters write a network alike. -/
theorem ipv4_eq (n : UInt32) : ipv4 (.number (.finite n.toNat)) = formatIpv4 n := by
  have hfirst : ((n >>> 24) &&& 255).toNat = (n >>> 24).toNat := by
    have hlt := n.toNat_lt
    have hshift : (n >>> 24).toNat = n.toNat / 2 ^ 24 := by
      rw [UInt32.toNat_shiftRight, Nat.shiftRight_eq_div_pow]
      rfl
    rw [and_255, hshift]
    omega
  have hlast : n >>> 0 = n := UInt32.toNat_inj.mp (by simp)
  simp only [ipv4, formatIpv4, toUint32_toNat, List.map_cons, List.map_nil, hfirst, hlast]

/-- The parser reads a text as the network of a quad, and rejects it if it is none, exactly
if the text is not mistyped; and every network that is written is read again. -/
theorem parseIpv4_exact_iff (s : Text) :
    ((∀ n, parseIpv4 s = some n ↔ DottedQuad s n) ↔ ¬ Mistyped s) ∧
      ∀ n : UInt32, parseIpv4 (formatIpv4 n) = some n.toNat := by
  refine ⟨⟨fun h hmistyped => ?_, fun h n => ⟨fun haccepted => ?_, DottedQuad.accepted⟩⟩,
    fun n => (formatIpv4_quad n).accepted⟩
  · obtain ⟨hfour, hreads, o, ho, hloose⟩ := hmistyped
    have hquad := (h _).mp (parseIpv4_eq_some_iff.mpr ⟨hfour, hreads, rfl⟩)
    exact hloose ((dottedQuad_iff.mp hquad).2.1 o ho).1
  · obtain ⟨hfour, hreads, hn⟩ := parseIpv4_eq_some_iff.mp haccepted
    have hshort : ∀ o ∈ split (text ".") s, ShortDecimal o := by
      intro o ho
      by_contra hloose
      exact h ⟨hfour, hreads, o, ho, hloose⟩
    refine dottedQuad_iff.mpr
      ⟨hfour, fun o ho => ⟨hshort o ho, (hshort o ho).reads_iff.mp (hreads o ho)⟩, ?_⟩
    rw [hn]
    refine congrArg networkOf (List.map_congr_left fun o ho => ?_)
    rw [(hshort o ho).ofText_eq, toNat_natCast]

/-- An empty last octet counts as zero. -/
theorem parseIpv4_mistyped :
    parseIpv4 (text "1.2.3.") = some 0x01020300 ∧ ∀ n, ¬ DottedQuad (text "1.2.3.") n := by
  have hsplit : split (text ".") (text "1.2.3.") = [text "1", text "2", text "3", []] := by decide
  constructor
  · have hone : ofText (text "1") = .finite (1 : ℕ) :=
      ofText_digits (by decide) (List.all_eq_true.mp (by decide)) (by decide)
    have htwo : ofText (text "2") = .finite (2 : ℕ) :=
      ofText_digits (by decide) (List.all_eq_true.mp (by decide)) (by decide)
    have hthree : ofText (text "3") = .finite (3 : ℕ) :=
      ofText_digits (by decide) (List.all_eq_true.mp (by decide)) (by decide)
    have hempty : ofText [] = .finite (0 : ℕ) := rfl
    refine parseIpv4_eq_some_iff.mpr ⟨by decide, fun o ho => ?_, ?_⟩
    · rw [reads_iff_ofText, outside_eq_false_iff]
      rw [hsplit] at ho
      simp only [List.mem_cons, List.not_mem_nil, or_false] at ho
      rcases ho with rfl | rfl | rfl | rfl
      · exact ⟨1, by decide, hone⟩
      · exact ⟨2, by decide, htwo⟩
      · exact ⟨3, by decide, hthree⟩
      · exact ⟨0, by decide, hempty⟩
    · rw [hsplit]
      simp only [List.map_cons, List.map_nil, hone, htwo, hthree, hempty, toNat_natCast]
      decide
  · intro n hquad
    have hlast := (dottedQuad_iff.mp hquad).2.1 [] (by rw [hsplit]; simp)
    exact hlast.1.nonempty rfl

end Oxidrop.Frontend.Ipv4Text
