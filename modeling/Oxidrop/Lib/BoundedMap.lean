import Mathlib.Data.Finset.Card
import Oxidrop.Lib.Replay

/-!
# Maps of bounded size

A map with room for a number of entries. A new key is refused when the map is full; a key
that the map has is always overwritten.
-/

/-- Maps with at most `n` entries. -/
structure BoundedMap (n : Nat) (κ ν : Type*) where
  entry : κ → Option ν
  keys : Finset κ
  mem_keys : ∀ k, k ∈ keys ↔ entry k ≠ none
  card_le : keys.card ≤ n

namespace BoundedMap

variable {n : Nat} {κ ν : Type*}

instance : CoeFun (BoundedMap n κ ν) fun _ => κ → Option ν := ⟨entry⟩

/-- The entries determine the keys. -/
theorem ext {m m' : BoundedMap n κ ν} (h : m.entry = m'.entry) : m = m' := by
  obtain ⟨entry, keys, hkeys, hcard⟩ := m
  obtain ⟨entry', keys', hkeys', hcard'⟩ := m'
  obtain rfl : entry = entry' := h
  obtain rfl : keys = keys' := Finset.ext fun k => (hkeys k).trans (hkeys' k).symm
  rfl

def empty : BoundedMap n κ ν := ⟨fun _ => none, ∅, by simp, by simp⟩

@[simp] theorem entry_empty : (empty : BoundedMap n κ ν).entry = fun _ => none := rfl

variable [DecidableEq κ]

/-- The map, unless it is full and does not have the key. -/
def insert (m : BoundedMap n κ ν) (k : κ) (v : ν) : Option (BoundedMap n κ ν) :=
  if h : (Insert.insert k m.keys).card ≤ n then
    some {
      entry := Function.update m.entry k (some v)
      keys := Insert.insert k m.keys
      mem_keys := fun j => by
        by_cases hj : j = k
        · simp [hj]
        · simp [hj, m.mem_keys]
      card_le := h }
  else none

def remove (m : BoundedMap n κ ν) (k : κ) : BoundedMap n κ ν where
  entry := Function.update m.entry k none
  keys := m.keys.erase k
  mem_keys j := by
    by_cases hj : j = k
    · simp [hj]
    · simp [hj, m.mem_keys]
  card_le := (Finset.card_erase_le).trans m.card_le

@[simp] theorem entry_remove (m : BoundedMap n κ ν) (k : κ) :
    (m.remove k).entry = Function.update m.entry k none := rfl

theorem insert_eq_some_iff {m m' : BoundedMap n κ ν} {k : κ} {v : ν} :
    m.insert k v = some m' ↔
      (Insert.insert k m.keys).card ≤ n ∧ m'.entry = Function.update m.entry k (some v) := by
  unfold insert
  split
  · rename_i h
    rw [Option.some_inj]
    constructor
    · rintro rfl
      exact ⟨h, rfl⟩
    · rintro ⟨-, hentry⟩
      exact ext hentry.symm
  · rename_i h
    simp [h]

theorem entry_of_insert {m m' : BoundedMap n κ ν} {k : κ} {v : ν} (h : m.insert k v = some m') :
    m'.entry = Function.update m.entry k (some v) := (insert_eq_some_iff.mp h).2

/-- Only a full map refuses, and only a key that it does not have. -/
theorem insert_eq_none_iff {m : BoundedMap n κ ν} {k : κ} {v : ν} :
    m.insert k v = none ↔ m.entry k = none ∧ m.keys.card = n := by
  have hmem := m.mem_keys k
  have hle := m.card_le
  unfold insert
  split
  · rename_i h
    simp only [reduceCtorEq, false_iff, not_and]
    intro hnone hfull
    rw [Finset.card_insert_of_notMem (by simp [hmem, hnone])] at h
    omega
  · rename_i h
    simp only [true_iff]
    by_cases hk : k ∈ m.keys
    · rw [Finset.insert_eq_self.mpr hk] at h
      exact absurd hle h
    · rw [Finset.card_insert_of_notMem hk] at h
      exact ⟨by simpa [hmem] using hk, by omega⟩

/-! ## Filling a map -/

section Fill

open Replay

variable {ρ : Type*} (cls : ρ → κ) (val : ρ → ν)

/-- Insert the rows in the order of the list. -/
def fill (rows : List ρ) : Option (BoundedMap n κ ν) :=
  rows.foldlM (fun m r => m.insert (cls r) (val r)) empty

theorem fill_concat (rows : List ρ) (r : ρ) :
    (fill cls val (rows ++ [r]) : Option (BoundedMap n κ ν)) =
      (fill cls val rows).bind fun m => m.insert (cls r) (val r) := by
  simp [fill, List.foldlM_append]

/-- The map that the rows make, if there is room for their classes. -/
def ofRows (rows : List ρ) (h : (rows.map cls).toFinset.card ≤ n) : BoundedMap n κ ν where
  entry := replay cls val rows
  keys := (rows.map cls).toFinset
  mem_keys k := by simp [replay_eq_none_iff]
  card_le := h

/-- The rows go in exactly if there is room for their classes. -/
theorem fill_eq_some_iff {rows : List ρ} {m : BoundedMap n κ ν} :
    fill cls val rows = some m ↔
      (rows.map cls).toFinset.card ≤ n ∧ m.entry = replay cls val rows := by
  induction rows using List.reverseRecOn generalizing m with
  | nil =>
    constructor
    · intro h
      cases h
      exact ⟨by simp, rfl⟩
    · rintro ⟨-, hentry⟩
      exact congrArg some (ext hentry.symm)
  | append_singleton rows r ih =>
    have hclasses : ((rows ++ [r]).map cls).toFinset =
        Insert.insert (cls r) (rows.map cls).toFinset := by
      ext k
      simp
    rw [fill_concat, Option.bind_eq_some_iff, replay_concat, hclasses]
    constructor
    · rintro ⟨m', hfill, hinsert⟩
      obtain ⟨hle, hentry⟩ := ih.mp hfill
      obtain rfl : m' = ofRows cls val rows hle := ext hentry
      exact insert_eq_some_iff.mp hinsert
    · rintro ⟨hroom, hm⟩
      have hle : (rows.map cls).toFinset.card ≤ n :=
        (Finset.card_le_card (Finset.subset_insert _ _)).trans hroom
      exact ⟨ofRows cls val rows hle, ih.mpr ⟨hle, rfl⟩, insert_eq_some_iff.mpr ⟨hroom, hm⟩⟩

/-- The keys of a map that the rows make are their classes. -/
theorem card_of_entry {rows : List ρ} {m : BoundedMap n κ ν} (h : m.entry = replay cls val rows) :
    (rows.map cls).toFinset.card ≤ n := by
  have hkeys : m.keys = (rows.map cls).toFinset := by
    ext k
    simp [m.mem_keys, h, replay_eq_none_iff]
  exact hkeys ▸ m.card_le

end Fill

end BoundedMap
