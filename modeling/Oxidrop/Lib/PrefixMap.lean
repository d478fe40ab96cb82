import Mathlib.Data.List.Basic
import Mathlib.Logic.Function.Basic
import Mathlib.Order.Lattice

/-!
# Longest-prefix matching

A table maps prefixes, finite words over any alphabet, to values. A lookup of a
word tries its prefixes from the longest admitted one down to the empty one.
Two words name the same entry exactly when they are the same word, so a caller
that cuts an address to its prefix length gets aliasing for free.
-/
namespace PrefixMap

variable {σ α : Type*}

abbrev Table (σ α : Type*) := List σ → Option α

/-- The value of the longest stored prefix of `a` with at most `n` symbols. -/
def lookup (t : Table σ α) (a : List σ) : Nat → Option α
  | 0 => t []
  | n + 1 =>
    match t (a.take (n + 1)) with
    | some v => some v
    | none => lookup t a n

/-- The lookup that ignores the entry at the whole word `p` itself. -/
def lookupBelow (t : Table σ α) (p : List σ) : Option α :=
  match p.length with
  | 0 => none
  | n + 1 => lookup t p n

/-- What a lookup is for: `v` sits at a stored prefix of `a`, and no longer
admitted prefix of `a` is stored. -/
def Longest (t : Table σ α) (a : List σ) (n : Nat) (v : α) : Prop :=
  ∃ l ≤ n, t (a.take l) = some v ∧ ∀ l', l < l' → l' ≤ n → t (a.take l') = none

theorem lookup_eq_none_iff (t : Table σ α) (a : List σ) (n : Nat) :
    lookup t a n = none ↔ ∀ l ≤ n, t (a.take l) = none := by
  induction n with
  | zero => simp [lookup]
  | succ n ih =>
    rw [lookup]
    cases ht : t (a.take (n + 1)) with
    | some v =>
      simp only [reduceCtorEq, false_iff]
      intro h
      have := h (n + 1) (le_refl _)
      simp [ht] at this
    | none =>
      simp only [ih]
      constructor
      · intro h l hl
        rcases Nat.lt_or_ge n l with hn | hn
        · have : l = n + 1 := by omega
          rw [this, ht]
        · exact h l hn
      · intro h l hl
        exact h l (by omega)

theorem lookup_eq_some_iff (t : Table σ α) (a : List σ) (n : Nat) (v : α) :
    lookup t a n = some v ↔ Longest t a n v := by
  induction n with
  | zero =>
    constructor
    · intro h
      exact ⟨0, le_refl _, by simpa [lookup] using h, by omega⟩
    · rintro ⟨l, hl, hv, -⟩
      have : l = 0 := by omega
      simpa [lookup, this] using hv
  | succ n ih =>
    rw [lookup]
    cases ht : t (a.take (n + 1)) with
    | some w =>
      constructor
      · intro h
        exact ⟨n + 1, le_refl _, ht.trans h, by omega⟩
      · rintro ⟨l, hl, hv, hmax⟩
        rcases Nat.lt_or_ge l (n + 1) with hn | hn
        · have := hmax (n + 1) hn (le_refl _)
          simp [ht] at this
        · have : l = n + 1 := by omega
          rw [← ht, ← this, hv]
    | none =>
      simp only [ih]
      constructor
      · rintro ⟨l, hl, hv, hmax⟩
        refine ⟨l, by omega, hv, ?_⟩
        intro l' hl' hn'
        rcases Nat.lt_or_ge n l' with hn | hn
        · have : l' = n + 1 := by omega
          rw [this, ht]
        · exact hmax l' hl' hn
      · rintro ⟨l, hl, hv, hmax⟩
        have hne : l ≠ n + 1 := by
          intro he
          rw [he, ht] at hv
          cases hv
        exact ⟨l, by omega, hv, fun l' hl' hn' => hmax l' hl' (by omega)⟩

theorem lookup_congr {t t' : Table σ α} {a a' : List σ} (n : Nat)
    (h : ∀ l ≤ n, t (a.take l) = t' (a'.take l)) : lookup t a n = lookup t' a' n := by
  induction n with
  | zero => simpa [lookup] using h 0 (le_refl _)
  | succ n ih =>
    rw [lookup, lookup, h (n + 1) (le_refl _), ih (fun l hl => h l (by omega))]

/-- A lookup at the word `p` sees the entry at `p`, or else what lies below. -/
theorem lookup_self (t : Table σ α) (p : List σ) :
    lookup t p p.length = (t p).or (lookupBelow t p) := by
  cases hp : p.length with
  | zero =>
    have : p = [] := List.length_eq_zero_iff.mp hp
    subst this
    simp [lookup, lookupBelow]
  | succ n =>
    have htake : p.take (n + 1) = p := by rw [← hp, List.take_length]
    rw [lookup, htake]
    simp only [lookupBelow, hp]
    cases t p <;> rfl

section Update

variable [DecidableEq σ]

theorem lookupBelow_update (t : Table σ α) (p : List σ) (x : Option α) :
    lookupBelow (Function.update t p x) p = lookupBelow t p := by
  unfold lookupBelow
  cases hp : p.length with
  | zero => rfl
  | succ n =>
    apply lookup_congr
    intro l hl
    have hne : p.take l ≠ p := by
      intro he
      have := congrArg List.length he
      simp only [List.length_take] at this
      omega
    rw [Function.update_of_ne hne]

theorem lookup_update_self (t : Table σ α) (p : List σ) (x : Option α) :
    lookup (Function.update t p x) p p.length = x.or (lookupBelow t p) := by
  rw [lookup_self, lookupBelow_update, Function.update_self]

/-- A change at one prefix shows at that prefix, or it shows nowhere. -/
theorem lookup_update_iff (t : Table σ α) (p : List σ) (x : Option α) :
    (∀ a n, n ≤ a.length → lookup (Function.update t p x) a n = lookup t a n) ↔
      x.or (lookupBelow t p) = (t p).or (lookupBelow t p) := by
  constructor
  · intro h
    have := h p p.length (le_refl _)
    rwa [lookup_update_self, lookup_self] at this
  · intro h a n hn
    by_cases hp : p.length ≤ n ∧ a.take p.length = p
    · -- below the changed prefix both lookups meet the same entries
      obtain ⟨hle, htake⟩ := hp
      have hat : lookup (Function.update t p x) a p.length = lookup t a p.length := by
        have htt : ∀ l ≤ p.length, a.take l = p.take l := by
          intro l hl
          rw [← htake, List.take_take, min_eq_left hl]
        have hcut : ∀ u : Table σ α, lookup u a p.length = lookup u p p.length :=
          fun u => lookup_congr p.length (fun l hl => congrArg u (htt l hl))
        rw [hcut, hcut, lookup_update_self, lookup_self, h]
      obtain ⟨d, rfl⟩ := Nat.exists_eq_add_of_le hle
      induction d with
      | zero => exact hat
      | succ d ih =>
        have hne : a.take (p.length + (d + 1)) ≠ p := by
          intro he
          have := congrArg List.length he
          simp only [List.length_take] at this
          omega
        have ih := ih (by omega) (by omega)
        rw [show p.length + (d + 1) = (p.length + d) + 1 from rfl] at *
        rw [lookup, lookup, Function.update_of_ne hne, ih]
    · apply lookup_congr
      intro l hl
      have hne : a.take l ≠ p := by
        intro he
        apply hp
        have hlen := congrArg List.length he
        simp only [List.length_take] at hlen
        have : l = p.length := by omega
        exact ⟨by omega, by rw [← this, he]⟩
      rw [Function.update_of_ne hne]

end Update

end PrefixMap
