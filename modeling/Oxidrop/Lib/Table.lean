import Mathlib.Data.List.Nodup
import Mathlib.Order.Defs.LinearOrder
import Mathlib.Algebra.Order.Group.Int

/-!
# Tables with constraints

A table is a list of rows. A schema has a test that every written row must pass
and a column without duplicates. A statement that would break either changes
nothing. A row without an id of its own gets the one after the greatest.
-/
namespace Table

variable {ρ ρ' κ : Type*}

inductive Violation where
  | check | unique
  deriving DecidableEq, Repr

structure Schema (ρ κ : Type*) where
  checks : ρ → Bool
  key : ρ → κ

def insert [DecidableEq κ] (S : Schema ρ κ) (row : ρ) (t : List ρ) :
    Except Violation (List ρ) :=
  if S.checks row then
    if S.key row ∈ t.map S.key then .error .unique else .ok (t ++ [row])
  else .error .check

/-- The rows after `f` has been applied where `p` holds. -/
def rewrite (p : ρ → Bool) (f : ρ → ρ) (t : List ρ) : List ρ :=
  t.map (fun r => if p r then f r else r)

/-- The answer counts the rows that are affected. -/
def updateWhere [DecidableEq κ] (S : Schema ρ κ) (p : ρ → Bool) (f : ρ → ρ) (t : List ρ) :
    Except Violation (Nat × List ρ) :=
  if (t.filter p).all (fun r => S.checks (f r)) then
    if ((rewrite p f t).map S.key).Nodup then .ok (t.countP p, rewrite p f t)
    else .error .unique
  else .error .check

def deleteWhere (p : ρ → Bool) (t : List ρ) : Nat × List ρ :=
  (t.countP p, t.filter (fun r => !p r))

def nextId (id : ρ → Int) (t : List ρ) : Int :=
  match (t.map id).max? with
  | none => 1
  | some m => m + 1

/-! ## What the statements do -/

section Statements

variable [DecidableEq κ] {S : Schema ρ κ} {p : ρ → Bool} {f : ρ → ρ} {t t' : List ρ} {row : ρ}

theorem insert_eq_ok_iff :
    insert S row t = .ok t' ↔
      S.checks row = true ∧ S.key row ∉ t.map S.key ∧ t' = t ++ [row] := by
  unfold insert
  by_cases hc : S.checks row = true
  · by_cases hk : S.key row ∈ t.map S.key
    · simp only [hc, if_true, hk, reduceCtorEq, not_true_eq_false, false_and, and_false]
    · simp only [hc, if_true, hk, if_false, Except.ok.injEq, not_false_eq_true, true_and]
      exact eq_comm
  · simp [hc]

theorem updateWhere_eq_ok_iff {n : Nat} :
    updateWhere S p f t = .ok (n, t') ↔
      (∀ r ∈ t, p r = true → S.checks (f r) = true) ∧ ((rewrite p f t).map S.key).Nodup ∧
        n = t.countP p ∧ t' = rewrite p f t := by
  unfold updateWhere
  have hall : ((t.filter p).all (fun r => S.checks (f r)) = true) ↔
      ∀ r ∈ t, p r = true → S.checks (f r) = true := by
    simp only [List.all_eq_true, List.mem_filter, and_imp]
  by_cases hc : ∀ r ∈ t, p r = true → S.checks (f r) = true
  · by_cases hk : ((rewrite p f t).map S.key).Nodup
    · simp only [hall.mpr hc, if_true, hk, Except.ok.injEq, Prod.mk.injEq]
      exact ⟨fun h => ⟨hc, trivial, h.1.symm, h.2.symm⟩, fun h => ⟨h.2.2.1.symm, h.2.2.2.symm⟩⟩
    · simp [hall.mpr hc, hk]
  · simp [mt hall.mp hc, hc]

theorem mem_rewrite {r : ρ} (h : r ∈ rewrite p f t) :
    (r ∈ t ∧ p r = false) ∨ ∃ r₀ ∈ t, p r₀ = true ∧ r = f r₀ := by
  obtain ⟨r₀, hr₀, rfl⟩ := List.mem_map.mp h
  cases hp : p r₀ with
  | true => exact .inr ⟨r₀, hr₀, hp, by simp⟩
  | false => exact .inl ⟨by simpa using hr₀, by simpa using hp⟩

/-- What holds of every row, updated or not, holds after the update. -/
theorem forall_rewrite {P : ρ → Prop} (hold : ∀ r ∈ t, P r) (hnew : ∀ r ∈ t, P (f r)) :
    ∀ r ∈ rewrite p f t, P r := by
  intro r hr
  rcases mem_rewrite hr with ⟨hr, -⟩ | ⟨r₀, hr₀, -, rfl⟩
  · exact hold r hr
  · exact hnew r₀ hr₀

/-- A column that `f` leaves alone is the same after the update. -/
theorem map_rewrite {β : Type*} {g : ρ → β} (h : ∀ r ∈ t, p r = true → g (f r) = g r) :
    (rewrite p f t).map g = t.map g := by
  rw [rewrite, List.map_map]
  refine List.map_congr_left fun r hr => ?_
  cases hp : p r with
  | true => simpa [hp] using h r hr hp
  | false => simp [hp]

theorem rewrite_of_none (h : t.countP p = 0) : rewrite p f t = t := by
  rw [List.countP_eq_zero] at h
  rw [rewrite]
  refine (List.map_congr_left fun r hr => ?_).trans (List.map_id t)
  simp [h r hr]

@[simp] theorem rewrite_eq_nil : rewrite p f t = [] ↔ t = [] := by simp [rewrite]

/-- At most one row has a given value in a column without duplicates. -/
theorem countP_le_one {β : Type*} [DecidableEq β] {g : ρ → β} (h : (t.map g).Nodup) (x : β) :
    t.countP (fun r => g r = x) ≤ 1 := by
  have hcount : t.countP (fun r => g r = x) = (t.map g).count x := by
    rw [List.count, List.countP_map]
    exact List.countP_congr fun r _ => by simp
  rw [hcount]
  exact List.nodup_iff_count_le_one.mp h x

end Statements

/-- The next id is new. -/
theorem nextId_fresh (id : ρ → Int) (t : List ρ) : nextId id t ∉ t.map id := by
  intro hmem
  unfold nextId at hmem
  cases hm : (t.map id).max? with
  | none =>
    rw [List.max?_eq_none_iff.mp hm] at hmem
    cases hmem
  | some m =>
    simp only [hm] at hmem
    have hle := (List.max?_eq_some_iff.mp hm).2 _ hmem
    omega

theorem nodup_append_fresh {β : Type*} {xs : List β} {x : β} (h : xs.Nodup) (hx : x ∉ xs) :
    (xs ++ [x]).Nodup := by
  rw [List.nodup_append]
  exact ⟨h, by simp, fun y hy z hz => by
    obtain rfl := List.mem_singleton.mp hz
    exact fun heq => hx (heq ▸ hy)⟩

/-! ## Tables seen through a map of their rows -/

section Image

variable {S : Schema ρ κ} {S' : Schema ρ' κ} {φ : ρ → ρ'}

/-- The map keeps what the schema looks at. -/
structure Schema.Through (S : Schema ρ κ) (S' : Schema ρ' κ) (φ : ρ → ρ') : Prop where
  checks : ∀ r, S'.checks (φ r) = S.checks r
  key : ∀ r, S'.key (φ r) = S.key r

theorem Schema.Through.keys (h : S.Through S' φ) (t : List ρ) :
    (t.map φ).map S'.key = t.map S.key := by
  rw [List.map_map]
  exact List.map_congr_left fun r _ => h.key r

theorem insert_map [DecidableEq κ] (h : S.Through S' φ) (row : ρ) (t : List ρ) :
    insert S' (φ row) (t.map φ) = (insert S row t).map (List.map φ) := by
  unfold insert
  rw [h.checks, h.key, h.keys]
  split
  · split
    · rfl
    · simp [Except.map]
  · rfl

theorem rewrite_map {p : ρ → Bool} {p' : ρ' → Bool} {f : ρ → ρ} {f' : ρ' → ρ'}
    (hp : ∀ r, p' (φ r) = p r) (hf : ∀ r, f' (φ r) = φ (f r)) (t : List ρ) :
    rewrite p' f' (t.map φ) = (rewrite p f t).map φ := by
  rw [rewrite, rewrite, List.map_map, List.map_map]
  refine List.map_congr_left fun r _ => ?_
  cases h : p r <;> simp [hp, hf, h]

theorem countP_map {p : ρ → Bool} {p' : ρ' → Bool} (hp : ∀ r, p' (φ r) = p r) (t : List ρ) :
    (t.map φ).countP p' = t.countP p := by
  rw [List.countP_map]
  exact List.countP_congr fun r _ => by simp [hp]

theorem updateWhere_map [DecidableEq κ] (h : S.Through S' φ) {p : ρ → Bool} {p' : ρ' → Bool}
    {f : ρ → ρ} {f' : ρ' → ρ'} (hp : ∀ r, p' (φ r) = p r) (hf : ∀ r, f' (φ r) = φ (f r))
    (t : List ρ) :
    updateWhere S' p' f' (t.map φ) =
      (updateWhere S p f t).map (fun a => (a.1, a.2.map φ)) := by
  have hall : ((t.map φ).filter p').all (fun r => S'.checks (f' r)) =
      (t.filter p).all (fun r => S.checks (f r)) := by
    rw [Bool.eq_iff_iff]
    simp [List.all_eq_true, hp, hf, h.checks]
  unfold updateWhere
  rw [hall, rewrite_map hp hf, h.keys, countP_map hp]
  split
  · split <;> rfl
  · rfl

theorem deleteWhere_map {p : ρ → Bool} {p' : ρ' → Bool} (hp : ∀ r, p' (φ r) = p r)
    (t : List ρ) :
    deleteWhere p' (t.map φ) = ((deleteWhere p t).1, (deleteWhere p t).2.map φ) := by
  unfold deleteWhere
  rw [countP_map hp, List.filter_map]
  have hnot : (fun r => !p' r) ∘ φ = fun r => !p r := by
    funext r
    simp [hp]
  rw [hnot]

end Image

end Table
