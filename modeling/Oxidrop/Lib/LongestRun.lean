import Mathlib.Data.List.Basic
import Mathlib.Order.Nat

/-!
# Longest runs

A run is a stretch of a list whose elements all satisfy a test. A scan from the left
keeps the first longest of the runs that begin before its position: it passes over an
element that fails the test, and over a whole run at once.
-/
namespace LongestRun

variable {α : Type*} {p : α → Bool} {xs : List α} {i n start length : Nat}

/-- Nothing outside the list satisfies the test. -/
def IsRun (p : α → Bool) (xs : List α) (start length : Nat) : Prop :=
  ∀ i, start ≤ i → i < start + length → (xs[i]?).any p = true

structure FirstLongest (p : α → Bool) (xs : List α) (start length : Nat) : Prop where
  isRun : IsRun p xs start length
  longest : ∀ s l, IsRun p xs s l → l ≤ length
  first : ∀ s, IsRun p xs s length → start ≤ s

theorem FirstLongest.unique {s l : Nat} (h : FirstLongest p xs start length)
    (h' : FirstLongest p xs s l) : s = start ∧ l = length := by
  have hlength : l = length := (h.longest s l h'.isRun).antisymm (h'.longest start length h.isRun)
  subst hlength
  exact ⟨(h'.first start h.isRun).antisymm (h.first s h'.isRun), rfl⟩

/-- A run ends where an element fails the test. -/
theorem IsRun.le_of_fails {s l : Nat} (h : IsRun p xs s l) (hi : (xs[i]?).any p = false)
    (hs : s ≤ i) : s + l ≤ i := by
  by_contra hlt
  rw [h i hs (by omega)] at hi
  cases hi

theorem IsRun.length_le (h : IsRun p xs start length) (hpos : 0 < length) :
    start + length ≤ xs.length := by
  by_contra hlt
  have hlast := h (start + length - 1) (by omega) (by omega)
  rw [List.getElem?_eq_none (by omega)] at hlast
  cases hlast

/-- The elements of a run. -/
theorem IsRun.forall_mem (h : IsRun p xs start length) :
    ∀ x ∈ (xs.drop start).take length, p x = true := by
  intro x hx
  obtain ⟨j, hj, rfl⟩ := List.mem_iff_getElem.mp hx
  rw [List.length_take, List.length_drop] at hj
  have hany := h (start + j) (by omega) (by omega)
  rw [List.getElem?_eq_getElem (by omega)] at hany
  simpa using hany

/-- A run behind a prefix. -/
theorem IsRun.append {pre : List α} (h : ∀ j < n, (xs[j]?).any p = true) :
    IsRun p (pre ++ xs) pre.length n := by
  intro i hi hlt
  rw [List.getElem?_append_right hi]
  exact h (i - pre.length) (by omega)

theorem isRun_map {β : Type*} {f : β → α} {ys : List β} :
    IsRun p (ys.map f) start length ↔ IsRun (p ∘ f) ys start length := by
  unfold IsRun
  simp only [List.getElem?_map, Option.any_map]
  rfl

theorem firstLongest_map {β : Type*} {f : β → α} {ys : List β} :
    FirstLongest p (ys.map f) start length ↔ FirstLongest (p ∘ f) ys start length :=
  ⟨fun h => ⟨isRun_map.mp h.isRun, fun s l hrun => h.longest s l (isRun_map.mpr hrun),
      fun s hrun => h.first s (isRun_map.mpr hrun)⟩,
    fun h => ⟨isRun_map.mpr h.isRun, fun s l hrun => h.longest s l (isRun_map.mp hrun),
      fun s hrun => h.first s (isRun_map.mp hrun)⟩⟩

/-! ## Scanning -/

/-- What a scan knows at a position. -/
structure Scanned (p : α → Bool) (xs : List α) (i start length : Nat) : Prop where
  isRun : 0 < length → IsRun p xs start length ∧ start < i
  longest : ∀ s l, IsRun p xs s l → s < i → l ≤ length
  first : 0 < length → ∀ s, IsRun p xs s length → s < i → start ≤ s

theorem Scanned.init (p : α → Bool) (xs : List α) (start : Nat) : Scanned p xs 0 start 0 :=
  ⟨fun h => absurd h (Nat.lt_irrefl 0), fun _ _ _ h => absurd h (Nat.not_lt_zero _),
    fun h => absurd h (Nat.lt_irrefl 0)⟩

/-- An element that fails the test begins no run. -/
theorem Scanned.skip (h : Scanned p xs i start length) (hi : (xs[i]?).any p = false) :
    Scanned p xs (i + 1) start length := by
  have hnone : ∀ s l, IsRun p xs s l → s < i + 1 → s < i ∨ l = 0 := by
    intro s l hrun hs
    rcases Nat.lt_succ_iff_lt_or_eq.mp hs with hlt | rfl
    · exact .inl hlt
    · have hle := hrun.le_of_fails hi (le_refl s)
      exact .inr (by omega)
  refine ⟨fun hpos => ⟨(h.isRun hpos).1, (h.isRun hpos).2.trans (Nat.lt_succ_self i)⟩,
    fun s l hrun hs => ?_, fun hpos s hrun hs => ?_⟩
  · rcases hnone s l hrun hs with hlt | rfl
    · exact h.longest s l hrun hlt
    · exact Nat.zero_le _
  · rcases hnone s length hrun hs with hlt | hzero
    · exact h.first hpos s hrun hlt
    · omega

/-- A run that begins inside another one is no longer. -/
theorem IsRun.le_of_inside {s l : Nat} (hrun : IsRun p xs s l) (hend : (xs[i + n]?).any p = false)
    (hs : s < i + n) (hi : i ≤ s) : l ≤ n := by
  have hle := hrun.le_of_fails hend hs.le
  omega

/-- A run that is longer than all before becomes the best. -/
theorem Scanned.replace (h : Scanned p xs i start length) (hrun : IsRun p xs i n)
    (hend : (xs[i + n]?).any p = false) (hlt : length < n) : Scanned p xs (i + n) i n := by
  refine ⟨fun _ => ⟨hrun, by omega⟩, fun s l hs hlt' => ?_, fun _ s hs hlt' => ?_⟩
  · rcases Nat.lt_or_ge s i with hbefore | hinside
    · exact (h.longest s l hs hbefore).trans hlt.le
    · exact hs.le_of_inside hend hlt' hinside
  · by_contra hbefore
    have hle := h.longest s n hs (by omega)
    omega

/-- Any other run leaves the best one. -/
theorem Scanned.keep (h : Scanned p xs i start length) (hn : 0 < n)
    (hend : (xs[i + n]?).any p = false) (hle : n ≤ length) :
    Scanned p xs (i + n) start length := by
  have hpos : 0 < length := by omega
  refine ⟨fun _ => ⟨(h.isRun hpos).1, by have := (h.isRun hpos).2; omega⟩,
    fun s l hs hlt => ?_, fun _ s hs hlt => ?_⟩
  · rcases Nat.lt_or_ge s i with hbefore | hinside
    · exact h.longest s l hs hbefore
    · exact (hs.le_of_inside hend hlt hinside).trans hle
  · rcases Nat.lt_or_ge s i with hbefore | hinside
    · exact h.first hpos s hs hbefore
    · exact (h.isRun hpos).2.le.trans hinside

/-- Every run that is not empty begins before the end. -/
theorem Scanned.bounds (h : Scanned p xs xs.length start length) {s l : Nat}
    (hrun : IsRun p xs s l) : l ≤ length := by
  rcases Nat.eq_zero_or_pos l with rfl | hpos
  · exact Nat.zero_le _
  · have hle := hrun.length_le hpos
    exact h.longest s l hrun (by omega)

theorem Scanned.firstLongest (h : Scanned p xs xs.length start length) (hpos : 0 < length) :
    FirstLongest p xs start length := by
  refine ⟨(h.isRun hpos).1, fun s l hrun => h.bounds hrun, fun s hrun => ?_⟩
  have hle := hrun.length_le hpos
  exact h.first hpos s hrun (by omega)

end LongestRun
