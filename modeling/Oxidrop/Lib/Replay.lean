import Mathlib.Data.List.Induction
import Mathlib.Data.List.Sort
import Mathlib.Logic.Function.Basic

/-!
# Rebuilding a table from sorted rows

Rows are stored under an exact key, and written one after another, in a sorted
order, into a table that only distinguishes classes of keys. The last row of a
class wins. The two update rules say when storing or deleting one row changes
the rebuilt table as one write or one removal would.
-/
namespace Replay

variable {ρ ι κ ν : Type*} [DecidableEq κ]

/-- Write the rows in the order of the list. -/
def replay (cls : ρ → κ) (val : ρ → ν) (rows : List ρ) : κ → Option ν :=
  rows.foldl (fun t r => Function.update t (cls r) (some (val r))) (fun _ => none)

variable (cls : ρ → κ) (val : ρ → ν)

@[simp] theorem replay_nil : replay cls val [] = fun _ => none := rfl

theorem replay_concat (rows : List ρ) (r : ρ) :
    replay cls val (rows ++ [r]) =
      Function.update (replay cls val rows) (cls r) (some (val r)) := by
  simp [replay]

theorem replay_eq_none_iff (rows : List ρ) (c : κ) :
    replay cls val rows c = none ↔ ∀ r ∈ rows, cls r ≠ c := by
  induction rows using List.reverseRecOn with
  | nil => simp
  | append_singleton rows r ih =>
    rw [replay_concat]
    by_cases hc : c = cls r
    · subst hc
      simp
    · simp [Function.update_of_ne hc, ih, or_imp, forall_and, Ne.symm hc]

variable (le : ρ → ρ → Prop)

/-- `v` is the value of the greatest row of class `c`. -/
def Wins (rows : List ρ) (c : κ) (v : ν) : Prop :=
  ∃ r ∈ rows, cls r = c ∧ val r = v ∧ ∀ r' ∈ rows, cls r' = c → le r' r

/-- Rows that compare both ways are the same row. -/
def Antisymm (rows : List ρ) : Prop :=
  ∀ r ∈ rows, ∀ r' ∈ rows, le r r' → le r' r → r = r'

/-- In a sorted list the last row of a class is its greatest. -/
theorem replay_eq_some_iff (hrefl : ∀ r, le r r) (rows : List ρ) (hs : rows.Pairwise le)
    (ha : Antisymm le rows) (c : κ) (v : ν) :
    replay cls val rows c = some v ↔ Wins cls val le rows c v := by
  induction rows using List.reverseRecOn with
  | nil => simp [Wins]
  | append_singleton rows r ih =>
    rw [List.pairwise_append] at hs
    obtain ⟨hs, -, hlast⟩ := hs
    have hlast : ∀ r' ∈ rows, le r' r := fun r' hr' => hlast r' hr' r (by simp)
    have ha' : Antisymm le rows := fun x hx y hy => ha x (by simp [hx]) y (by simp [hy])
    rw [replay_concat]
    by_cases hc : c = cls r
    · subst hc
      simp only [Function.update_self, Option.some.injEq]
      constructor
      · intro hv
        refine ⟨r, by simp, rfl, hv, ?_⟩
        intro r' hr' _
        rcases List.mem_append.mp hr' with h | h
        · exact hlast r' h
        · rw [List.mem_singleton.mp h]
          exact hrefl r
      · rintro ⟨w, hw, -, hv, hmax⟩
        have hwr : le w r := by
          rcases List.mem_append.mp hw with h | h
          · exact hlast w h
          · rw [List.mem_singleton.mp h]
            exact hrefl r
        rw [ha r (by simp) w hw (hmax r (by simp) rfl) hwr]
        exact hv
    · rw [Function.update_of_ne hc, ih hs ha']
      constructor
      · rintro ⟨w, hw, hwc, hv, hmax⟩
        refine ⟨w, by simp [hw], hwc, hv, ?_⟩
        intro r' hr' hr'c
        rcases List.mem_append.mp hr' with h | h
        · exact hmax r' h hr'c
        · rw [List.mem_singleton.mp h] at hr'c
          exact absurd hr'c.symm hc
      · rintro ⟨w, hw, hwc, hv, hmax⟩
        have hmem : w ∈ rows := by
          rcases List.mem_append.mp hw with h | h
          · exact h
          · rw [List.mem_singleton.mp h] at hwc
            exact absurd hwc.symm hc
        exact ⟨w, hmem, hwc, hv, fun r' hr' => hmax r' (by simp [hr'])⟩

variable [DecidableRel le]

/-- Sort the rows, then write them. -/
def rebuild (rows : List ρ) : κ → Option ν := replay cls val (rows.insertionSort le)

theorem rebuild_eq_none_iff (rows : List ρ) (c : κ) :
    rebuild cls val le rows c = none ↔ ∀ r ∈ rows, cls r ≠ c := by
  simp [rebuild, replay_eq_none_iff, (List.perm_insertionSort le rows).mem_iff]

section Order

variable [Std.Total le] [IsTrans ρ le]

theorem rebuild_eq_some_iff (rows : List ρ) (ha : Antisymm le rows) (c : κ) (v : ν) :
    rebuild cls val le rows c = some v ↔ Wins cls val le rows c v := by
  have hmem : ∀ r, r ∈ rows.insertionSort le ↔ r ∈ rows :=
    fun r => (List.perm_insertionSort le rows).mem_iff
  have hrefl : ∀ r, le r r := fun r => (Std.Total.total r r).elim id id
  rw [rebuild, replay_eq_some_iff cls val le hrefl _ (List.pairwise_insertionSort le rows)
    (fun r hr r' hr' => ha r ((hmem r).mp hr) r' ((hmem r').mp hr'))]
  simp only [Wins, hmem]

/-- Tables with the same members in every other class agree there. -/
theorem rebuild_congr {rows rows' : List ρ} (ha : Antisymm le rows) (ha' : Antisymm le rows')
    {c : κ} (h : ∀ r, cls r = c → (r ∈ rows' ↔ r ∈ rows)) :
    rebuild cls val le rows' c = rebuild cls val le rows c := by
  apply Option.ext
  intro v
  rw [rebuild_eq_some_iff cls val le rows' ha', rebuild_eq_some_iff cls val le rows ha]
  constructor
  · rintro ⟨w, hw, hwc, hv, hmax⟩
    exact ⟨w, (h w hwc).mp hw, hwc, hv, fun r hr hrc => hmax r ((h r hrc).mpr hr) hrc⟩
  · rintro ⟨w, hw, hwc, hv, hmax⟩
    exact ⟨w, (h w hwc).mpr hw, hwc, hv, fun r hr hrc => hmax r ((h r hrc).mp hr) hrc⟩

/-- Storing `r` acts as one write of its class, exactly when the greatest row
of the class then carries its value. -/
theorem rebuild_store_iff {rows rows' : List ρ} {r : ρ} (ha : Antisymm le rows)
    (ha' : Antisymm le rows')
    (hmem : ∀ r', cls r' ≠ cls r → (r' ∈ rows' ↔ r' ∈ rows)) :
    rebuild cls val le rows' =
        Function.update (rebuild cls val le rows) (cls r) (some (val r)) ↔
      Wins cls val le rows' (cls r) (val r) := by
  rw [← rebuild_eq_some_iff cls val le rows' ha']
  constructor
  · intro h
    rw [h, Function.update_self]
  · intro h
    funext c
    by_cases hc : c = cls r
    · rw [hc, h, Function.update_self]
    · rw [Function.update_of_ne hc]
      exact rebuild_congr cls val le ha ha' (fun r' hr' => hmem r' (by rw [hr']; exact hc))

/-- Removing rows acts as one removal of the class, exactly when no row of the
class is left. -/
theorem rebuild_remove_iff {rows rows' : List ρ} {c : κ} (ha : Antisymm le rows)
    (ha' : Antisymm le rows') (hmem : ∀ r', cls r' ≠ c → (r' ∈ rows' ↔ r' ∈ rows)) :
    rebuild cls val le rows' = Function.update (rebuild cls val le rows) c none ↔
      ∀ r' ∈ rows', cls r' ≠ c := by
  rw [← rebuild_eq_none_iff cls val le rows' c]
  constructor
  · intro h
    rw [h, Function.update_self]
  · intro h
    funext d
    by_cases hd : d = c
    · rw [hd, h, Function.update_self]
    · rw [Function.update_of_ne hd]
      exact rebuild_congr cls val le ha ha' (fun r' hr' => hmem r' (by rw [hr']; exact hd))

/-- A stored row wins when every greater row of its class carries its value. -/
theorem wins_of_greater {rows : List ρ} {r : ρ} (ha : Antisymm le rows) (hr : r ∈ rows) :
    Wins cls val le rows (cls r) (val r) ↔
      ∀ w ∈ rows, cls w = cls r → (∀ r' ∈ rows, cls r' = cls r → le r' w) → val w = val r := by
  constructor
  · rintro ⟨w, hw, hwc, hv, hmax⟩ w' hw' hwc' hmax'
    rw [ha w' hw' w hw (hmax w' hw' hwc') (hmax' w hw hwc)]
    exact hv
  · intro h
    cases hres : rebuild cls val le rows (cls r) with
    | none => exact absurd rfl ((rebuild_eq_none_iff cls val le rows (cls r)).mp hres r hr)
    | some v =>
      obtain ⟨w, hw, hwc, hv, hmax⟩ := (rebuild_eq_some_iff cls val le rows ha (cls r) v).mp hres
      exact ⟨w, hw, hwc, h w hw hwc hmax, hmax⟩

end Order

end Replay
