import Mathlib.Data.List.Sort

/-!
# Keeping the greatest rows of a list

A cut removes the rows up to the key at a given place of the descending order. If
the keys are distinct, it removes exactly the rows that have so many greater ones,
and nothing if the list is not long enough.
-/
namespace Newest

variable {ρ κ : Type*} [LinearOrder κ] (key : ρ → κ)

/-- The key at place `k` of the descending order, counted from zero. -/
def cutoff (k : Nat) (t : List ρ) : Option κ := ((t.map key).insertionSort (· ≥ ·))[k]?

/-- The rows above the cut-off. -/
def keep (k : Nat) (t : List ρ) : List ρ :=
  match cutoff key k t with
  | none => t
  | some c => t.filter (fun r => ¬ key r ≤ c)

/-- How many rows have a greater key. -/
def above (x : κ) (t : List ρ) : Nat := t.countP (fun r => x < key r)

/-! ## Descending lists -/

section Descending

variable {s : List κ}

theorem countP_lt_getElem (hs : s.Pairwise (· > ·)) {j : Nat} (hj : j < s.length) :
    s.countP (fun x => s[j] < x) = j := by
  induction s generalizing j with
  | nil => simp at hj
  | cons x s ih =>
    obtain ⟨hhead, htail⟩ := List.pairwise_cons.mp hs
    cases j with
    | zero =>
      rw [List.countP_eq_zero]
      intro y hy
      simp only [List.getElem_cons_zero, decide_eq_true_eq, not_lt]
      rcases List.mem_cons.mp hy with rfl | hy
      · exact le_refl _
      · exact le_of_lt (hhead y hy)
    | succ j =>
      have hj' : j < s.length := by simpa using hj
      have hgt : s[j] < x := hhead _ (List.getElem_mem hj')
      simp [hgt, ih htail hj']

theorem getElem_le_getElem_iff (hs : s.Pairwise (· > ·)) {i j : Nat} (hi : i < s.length)
    (hj : j < s.length) : s[i] ≤ s[j] ↔ j ≤ i := by
  have hlt : ∀ {a b : Nat} (ha : a < s.length) (hb : b < s.length), a < b → s[b] < s[a] :=
    fun ha hb hab => List.pairwise_iff_getElem.mp hs _ _ ha hb hab
  constructor
  · intro hle
    by_contra hij
    exact absurd hle (not_le.mpr (hlt hi hj (not_le.mp hij)))
  · intro hji
    rcases Nat.eq_or_lt_of_le hji with rfl | hji
    · exact le_refl _
    · exact le_of_lt (hlt hj hi hji)

end Descending

/-! ## The cut -/

section Cut

variable {key} {k : Nat} {t : List ρ}

theorem descending (ht : (t.map key).Nodup) :
    ((t.map key).insertionSort (· ≥ ·)).Pairwise (· > ·) := by
  have hperm := List.perm_insertionSort (· ≥ ·) (t.map key)
  have hsorted := List.pairwise_insertionSort (· ≥ ·) (t.map key)
  exact hsorted.imp₂ (fun _ _ hge hne => lt_of_le_of_ne hge hne.symm) (hperm.nodup_iff.mpr ht)

theorem above_eq (x : κ) :
    above key x t = ((t.map key).insertionSort (· ≥ ·)).countP (fun y => x < y) := by
  rw [(List.perm_insertionSort (· ≥ ·) (t.map key)).countP_eq, List.countP_map]
  rfl

/-- The key at place `k` has `k` greater ones. -/
theorem above_cutoff (ht : (t.map key).Nodup) {c : κ} (hc : cutoff key k t = some c) :
    above key c t = k := by
  obtain ⟨hk, rfl⟩ := List.getElem?_eq_some_iff.mp hc
  rw [above_eq, countP_lt_getElem (descending ht)]

theorem cutoff_eq_none_iff : cutoff key k t = none ↔ t.length ≤ k := by
  rw [cutoff, List.getElem?_eq_none_iff, List.length_insertionSort, List.length_map]

theorem mem_keep_some {c : κ} (hc : cutoff key k t = some c) {r : ρ} :
    r ∈ keep key k t ↔ r ∈ t ∧ c < key r := by
  simp [keep, hc]

/-- A row is kept exactly if there are fewer than `k` greater ones. -/
theorem mem_keep_iff (ht : (t.map key).Nodup) {r : ρ} :
    r ∈ keep key k t ↔ r ∈ t ∧ above key (key r) t < k := by
  cases hc : cutoff key k t with
  | none =>
    have hlen := cutoff_eq_none_iff.mp hc
    have hshort : r ∈ t → above key (key r) t < k := by
      intro hr
      have hne : above key (key r) t ≠ t.length := by
        rw [above, ne_eq, List.countP_eq_length]
        exact fun hall => absurd (hall r hr) (by simp)
      exact (lt_of_le_of_ne List.countP_le_length hne).trans_le hlen
    simp only [keep, hc]
    exact ⟨fun hr => ⟨hr, hshort hr⟩, fun h => h.1⟩
  | some c =>
    rw [mem_keep_some hc]
    refine and_congr_right fun hr => ?_
    obtain ⟨hk, rfl⟩ := List.getElem?_eq_some_iff.mp hc
    have hmem : key r ∈ (t.map key).insertionSort (· ≥ ·) :=
      (List.perm_insertionSort (· ≥ ·) (t.map key)).mem_iff.mpr (List.mem_map_of_mem hr)
    obtain ⟨i, hi, hkey⟩ := List.getElem_of_mem hmem
    rw [above_eq, ← hkey, countP_lt_getElem (descending ht) hi, ← not_le,
      getElem_le_getElem_iff (descending ht) hi hk, not_le]

theorem keep_length (ht : (t.map key).Nodup) : (keep key k t).length = min t.length k := by
  cases hc : cutoff key k t with
  | none => simp [keep, hc, cutoff_eq_none_iff.mp hc]
  | some c =>
    have hk : k ≤ t.length := by
      obtain ⟨hk, -⟩ := List.getElem?_eq_some_iff.mp hc
      rw [List.length_insertionSort, List.length_map] at hk
      exact hk.le
    have habove : (keep key k t).length = above key c t := by
      simp only [keep, hc, above, ← List.countP_eq_length_filter, not_le]
    rw [habove, above_cutoff ht hc, Nat.min_eq_right hk]

/-- Every row that is kept is greater than every row that is removed. -/
theorem lt_of_removed {r r' : ρ} (hr : r ∈ t) (hremoved : r ∉ keep key k t)
    (hr' : r' ∈ keep key k t) : key r < key r' := by
  cases hc : cutoff key k t with
  | none => exact absurd (by simpa [keep, hc] using hr) hremoved
  | some c =>
    have hle : key r ≤ c := by
      by_contra hlt
      exact hremoved ((mem_keep_some hc).mpr ⟨hr, not_le.mp hlt⟩)
    exact hle.trans_lt ((mem_keep_some hc).mp hr').2

theorem keep_sublist (k : Nat) (t : List ρ) : (keep key k t).Sublist t := by
  unfold keep
  cases cutoff key k t with
  | none => exact List.Sublist.refl t
  | some c => exact List.filter_sublist

/-- A cut that keeps at least one row leaves one as great as any. -/
theorem exists_keep_ge (ht : (t.map key).Nodup) (hk : 0 < k) {r : ρ} (hr : r ∈ t) :
    ∃ r' ∈ keep key k t, key r ≤ key r' := by
  by_cases hkept : r ∈ keep key k t
  · exact ⟨r, hkept, le_refl _⟩
  · have hpos : 0 < (keep key k t).length := by
      rw [keep_length ht]
      exact Nat.lt_min.mpr ⟨List.length_pos_of_mem hr, hk⟩
    obtain ⟨r', hr'⟩ := List.exists_mem_of_length_pos hpos
    exact ⟨r', hr', (lt_of_removed hr hkept hr').le⟩

end Cut

/-! ## Ascending lists -/

section Ascending

variable {key} {t : List ρ}

/-- A filter that passes everything behind what it passes leaves the end of the list. -/
theorem filter_suffix {p : ρ → Bool} (ht : t.Pairwise fun a b => p a → p b) :
    t.filter p <:+ t := by
  induction t with
  | nil => exact List.suffix_refl _
  | cons r t ih =>
    obtain ⟨hhead, htail⟩ := List.pairwise_cons.mp ht
    cases hr : p r with
    | true =>
      have hall : (r :: t).filter p = r :: t := List.filter_eq_self.mpr fun r' hr' => by
        rcases List.mem_cons.mp hr' with rfl | hr'
        · exact hr
        · exact hhead r' hr' hr
      exact hall.symm ▸ List.suffix_refl _
    | false =>
      rw [List.filter_cons_of_neg (by simp [hr])]
      exact (ih htail).trans (List.suffix_cons r t)

/-- If rows are appended in the order of their keys, a cut leaves the end of the list. -/
theorem keep_suffix (k : Nat) (ht : (t.map key).Pairwise (· < ·)) : keep key k t <:+ t := by
  unfold keep
  cases cutoff key k t with
  | none => exact List.suffix_refl t
  | some c =>
    refine filter_suffix ((List.pairwise_map.mp ht).imp fun {a b} hlt => ?_)
    simp only [decide_eq_true_eq, not_le]
    exact fun hc => hc.trans hlt

end Ascending

end Newest
