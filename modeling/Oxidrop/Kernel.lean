import Oxidrop.Common
import Oxidrop.Lib.BoundedMap
import Oxidrop.Lib.PrefixMap

/-!
# Kernel maps

`LruHashMap` is a finite map below its capacity: an eviction is a separate
event of a run. `LpmTrie` compares two keys by their prefix length and the
first that many bits of their bytes, most significant bit first, and refuses a
new entry when it is full.
-/
namespace Oxidrop

variable {κ ν : Type} [DecidableEq κ]

abbrev LruHashMap (κ ν : Type) := κ → Option ν

def LruHashMap.insert (m : LruHashMap κ ν) (k : κ) (v : ν) : LruHashMap κ ν :=
  Function.update m k (some v)

def LruHashMap.remove (m : LruHashMap κ ν) (k : κ) : LruHashMap κ ν :=
  Function.update m k none

/-- The bits of a byte, most significant first. -/
def byteBits (b : UInt8) : List Bool :=
  [b.toNat.testBit 7, b.toNat.testBit 6, b.toNat.testBit 5, b.toNat.testBit 4,
    b.toNat.testBit 3, b.toNat.testBit 2, b.toNat.testBit 1, b.toNat.testBit 0]

def addressBits (bytes : List UInt8) : List Bool := bytes.flatMap byteBits

theorem addressBits_length (bytes : List UInt8) :
    (addressBits bytes).length = 8 * bytes.length := by
  induction bytes with
  | nil => rfl
  | cons b bytes ih =>
    have hb : (byteBits b).length = 8 := rfl
    have hc : addressBits (b :: bytes) = byteBits b ++ addressBits bytes := rfl
    simp only [hc, List.length_append, hb, ih, List.length_cons]
    omega

/-- `lpm_trie::Key`. -/
structure Key where
  prefixLen : UInt32
  data : List UInt8
  deriving DecidableEq, Repr

/-- The entry a key names. -/
def Key.cut (key : Key) : List Bool := (addressBits key.data).take key.prefixLen.toNat

/-- Both tries are made by `LpmTrie::with_max_entries(2048, BPF_F_NO_PREALLOC)`. -/
abbrev maxEntries : Nat := 2048

abbrev LpmTrie (ν : Type) := BoundedMap maxEntries (List Bool) ν

def LpmTrie.empty : LpmTrie ν := BoundedMap.empty

def LpmTrie.get (t : LpmTrie ν) (key : Key) : Option ν :=
  PrefixMap.lookup t.entry (addressBits key.data) key.prefixLen.toNat

def LpmTrie.insert (t : LpmTrie ν) (key : Key) (v : ν) : Option (LpmTrie ν) :=
  BoundedMap.insert t key.cut v

def LpmTrie.remove (t : LpmTrie ν) (key : Key) : LpmTrie ν := BoundedMap.remove t key.cut

@[simp] theorem LpmTrie.entry_empty : (LpmTrie.empty : LpmTrie ν).entry = fun _ => none := rfl

@[simp] theorem LpmTrie.entry_remove (t : LpmTrie ν) (key : Key) :
    (t.remove key).entry = Function.update t.entry key.cut none := rfl

/-- The trie has the entry of the key already, or is not full. -/
def LpmTrie.HasRoom (t : LpmTrie ν) (key : Key) : Prop :=
  t key.cut = none → t.keys.card < maxEntries

theorem LpmTrie.insert_eq_none_iff {t : LpmTrie ν} {key : Key} {v : ν} :
    t.insert key v = none ↔ ¬ t.HasRoom key := by
  have hle := t.card_le
  rw [LpmTrie.insert, BoundedMap.insert_eq_none_iff, HasRoom, Classical.not_imp]
  exact and_congr_right fun _ => by omega

theorem LpmTrie.entry_of_insert {t t' : LpmTrie ν} {key : Key} {v : ν}
    (h : t.insert key v = some t') : t'.entry = Function.update t.entry key.cut (some v) :=
  BoundedMap.entry_of_insert h

/-- The prefix length of a key lies within its bytes. -/
def Key.Valid (key : Key) : Prop := key.prefixLen.toNat ≤ (addressBits key.data).length

theorem Key.cut_length {key : Key} (h : key.Valid) : key.cut.length = key.prefixLen.toNat := by
  rw [Key.cut, List.length_take, Nat.min_eq_left h]

/-- A lookup sees the entry of its own key, or else what the shorter prefixes
say. -/
theorem LpmTrie.get_eq (t : LpmTrie ν) {key : Key} (h : key.Valid) :
    t.get key = (t key.cut).or (PrefixMap.lookupBelow t.entry key.cut) := by
  rw [← PrefixMap.lookup_self, Key.cut_length h, LpmTrie.get]
  apply PrefixMap.lookup_congr
  intro l hl
  rw [Key.cut, List.take_take, Nat.min_eq_left hl]

/-- Two tries that no lookup tells apart. -/
def SameLookups (t t' : LpmTrie ν) : Prop := ∀ key : Key, key.Valid → t'.get key = t.get key

@[simp] theorem sameLookups_refl (t : LpmTrie ν) : SameLookups t t := fun _ _ => rfl

/-- Overwriting one entry goes unnoticed exactly when the lookup of its own key
does not notice. -/
theorem sameLookups_update_iff {t t' : LpmTrie ν} {key : Key} (h : key.Valid) {x : Option ν}
    (ht' : t'.entry = Function.update t.entry key.cut x) :
    SameLookups t t' ↔ x.or (PrefixMap.lookupBelow t.entry key.cut) = t.get key := by
  rw [LpmTrie.get_eq t h]
  constructor
  · intro hs
    have hkey := hs key h
    rwa [LpmTrie.get_eq t' h, LpmTrie.get_eq t h, ht', PrefixMap.lookupBelow_update,
      Function.update_self] at hkey
  · intro heq k hk
    rw [LpmTrie.get, LpmTrie.get, ht']
    exact (PrefixMap.lookup_update_iff t.entry key.cut x).mpr heq _ _ hk

end Oxidrop
