import Mathlib.Algebra.Group.Int.Defs
import Mathlib.Algebra.Group.Nat.Defs
import Mathlib.Data.List.Basic

/-!
# Decoding JSON into structs

A struct is decoded from an object or from an array. Members of an object that
the struct does not know are ignored, and a known one may come once. A field
with a default may be absent. An array gives the fields in their order and may
stop before fields with defaults.
-/
namespace Serde

/-- `float` is every number with a fraction or an exponent, or beyond 64 bits. -/
inductive Json where
  | null
  | bool (value : Bool)
  | int (value : Int)
  | float
  | str (value : String)
  | arr (elements : List Json)
  | obj (members : List (String × Json))

/-- A field of a struct, by name and by position. -/
structure Field where
  name : String
  index : Nat

/-- The values that are given for a field. -/
def Json.values (f : Field) : Json → List Json
  | .obj members => (members.filter (fun m => m.1 = f.name)).map Prod.snd
  | .arr elements => elements[f.index]?.toList
  | _ => []

/-- The value can stand for a struct with so many fields. -/
def Json.isStruct (fields : Nat) : Json → Bool
  | .obj _ => true
  | .arr elements => elements.length ≤ fields
  | _ => false

section Fields

variable {α : Type} (decode : Json → Option α) (f : Field) {j : Json} {a d : α}

def required (j : Json) : Option α :=
  match j.values f with
  | [v] => decode v
  | _ => none

def defaulted (d : α) (j : Json) : Option α :=
  match j.values f with
  | [] => some d
  | [v] => decode v
  | _ => none

variable {decode f}

theorem required_of_values {v : Json} (h : j.values f = [v]) : required decode f j = decode v := by
  simp [required, h]

theorem defaulted_of_values {v : Json} (h : j.values f = [v]) :
    defaulted decode f d j = decode v := by
  simp [defaulted, h]

theorem required_eq_some_iff :
    required decode f j = some a ↔ ∃ v, j.values f = [v] ∧ decode v = some a := by
  unfold required
  split
  · simp_all
  · rename_i hmany
    simp only [reduceCtorEq, false_iff, not_exists, not_and]
    intro v hv
    exact absurd hv (hmany v)

theorem defaulted_cases (h : defaulted decode f d j = some a) :
    (j.values f = [] ∧ a = d) ∨ ∃ v, j.values f = [v] ∧ decode v = some a := by
  unfold defaulted at h
  split at h
  · exact .inl ⟨‹_›, (Option.some.inj h).symm⟩
  · exact .inr ⟨_, ‹_›, h⟩
  · cases h

/-- A field has its default exactly if nothing else is given for it. -/
theorem defaulted_eq_iff (h : defaulted decode f d j = some a) :
    a = d ↔ ∀ v ∈ j.values f, decode v = some d := by
  rcases defaulted_cases h with ⟨hnone, rfl⟩ | ⟨v, hv, hdecode⟩
  · simp [hnone]
  · simp [hv, hdecode]

end Fields

/-! ## Numbers and variants -/

def uint (width : Nat) : Json → Option Nat
  | .int n => if 0 ≤ n ∧ n < 2 ^ width then some n.toNat else none
  | _ => none

theorem uint_eq_some_iff {width : Nat} {j : Json} {n : Nat} :
    uint width j = some n ↔ j = .int n ∧ n < 2 ^ width := by
  cases j with
  | int i =>
    simp only [uint, Json.int.injEq]
    split
    · rename_i hi
      have hcast : ((2 ^ width : Nat) : Int) = 2 ^ width := by norm_cast
      simp only [Option.some.injEq]
      omega
    · rename_i hi
      have hcast : ((2 ^ width : Nat) : Int) = 2 ^ width := by norm_cast
      simp only [reduceCtorEq, false_iff, not_and]
      rintro rfl
      omega
  | _ => simp [uint]

def u8 (j : Json) : Option UInt8 := (uint 8 j).map UInt8.ofNat
def u16 (j : Json) : Option UInt16 := (uint 16 j).map UInt16.ofNat
def u32 (j : Json) : Option UInt32 := (uint 32 j).map UInt32.ofNat
def u64 (j : Json) : Option UInt64 := (uint 64 j).map UInt64.ofNat

/-- A machine word is decoded from its own number only. -/
theorem word_eq_some_iff {α : Type} {width : Nat} {ofNat : Nat → α} {toNat : α → Nat}
    (hword : ∀ n < 2 ^ width, toNat (ofNat n) = n)
    (hnat : ∀ a, toNat a < 2 ^ width ∧ ofNat (toNat a) = a) {j : Json} {a : α} :
    (uint width j).map ofNat = some a ↔ j = .int (toNat a) := by
  constructor
  · intro h
    obtain ⟨n, hn, rfl⟩ := Option.map_eq_some_iff.mp h
    obtain ⟨rfl, hlt⟩ := uint_eq_some_iff.mp hn
    rw [hword n hlt]
  · intro h
    exact Option.map_eq_some_iff.mpr ⟨toNat a, uint_eq_some_iff.mpr ⟨h, (hnat a).1⟩, (hnat a).2⟩

@[simp] theorem u8_eq_some_iff {j : Json} {a : UInt8} : u8 j = some a ↔ j = .int a.toNat :=
  word_eq_some_iff (fun _ h => UInt8.toNat_ofNat_of_lt' h) fun a => ⟨a.toNat_lt, UInt8.ofNat_toNat⟩

@[simp] theorem u16_eq_some_iff {j : Json} {a : UInt16} : u16 j = some a ↔ j = .int a.toNat :=
  word_eq_some_iff (fun _ h => UInt16.toNat_ofNat_of_lt' h)
    fun a => ⟨a.toNat_lt, UInt16.ofNat_toNat⟩

@[simp] theorem u32_eq_some_iff {j : Json} {a : UInt32} : u32 j = some a ↔ j = .int a.toNat :=
  word_eq_some_iff (fun _ h => UInt32.toNat_ofNat_of_lt' h)
    fun a => ⟨a.toNat_lt, UInt32.ofNat_toNat⟩

@[simp] theorem u64_eq_some_iff {j : Json} {a : UInt64} : u64 j = some a ↔ j = .int a.toNat :=
  word_eq_some_iff (fun _ h => UInt64.toNat_ofNat_of_lt' h)
    fun a => ⟨a.toNat_lt, UInt64.ofNat_toNat⟩

@[simp] theorem u8_int (a : UInt8) : u8 (.int a.toNat) = some a := u8_eq_some_iff.mpr rfl
@[simp] theorem u16_int (a : UInt16) : u16 (.int a.toNat) = some a := u16_eq_some_iff.mpr rfl
@[simp] theorem u32_int (a : UInt32) : u32 (.int a.toNat) = some a := u32_eq_some_iff.mpr rfl
@[simp] theorem u64_int (a : UInt64) : u64 (.int a.toNat) = some a := u64_eq_some_iff.mpr rfl

/-! ## Values that may be missing -/

def boolean : Json → Option Bool
  | .bool value => some value
  | _ => none

/-- `Option<T>`. -/
def nullable {α : Type} (decode : Json → Option α) : Json → Option (Option α)
  | .null => some none
  | j => (decode j).map some

/-- An `Option` as it is written. -/
def Json.ofOption {α : Type} (encode : α → Json) : Option α → Json
  | none => .null
  | some a => encode a

theorem nullable_of_decode {α : Type} {decode : Json → Option α} {j : Json} {a : α}
    (hj : j ≠ .null) (h : decode j = some a) : nullable decode j = some (some a) := by
  cases j with
  | null => exact absurd rfl hj
  | _ => simp [nullable, h]

theorem nullable_ofOption {α : Type} {decode : Json → Option α} {encode : α → Json}
    (hnull : ∀ a, encode a ≠ .null) (h : ∀ a, decode (encode a) = some a) (a : Option α) :
    nullable decode (Json.ofOption encode a) = some a := by
  cases a with
  | none => rfl
  | some a => exact nullable_of_decode (hnull a) (h a)

/-! ## Variants -/

/-- The name of a variant without content. -/
def unitVariant : Json → Option String
  | .str name => some name
  | .obj [(name, .null)] => some name
  | _ => none

end Serde
