import Mathlib.Data.List.Infix

/-!
# Splitting at a separator

A list is cut at every occurrence of a separator, from the left and without overlaps.
Joining the parts again gives the list, and a part in which the separator does not
begin is found again.
-/
namespace Split

variable {α : Type*} [DecidableEq α] {sep s a b : List α} {c : α}

/-- The first elements are passed over, as the rest of a separator. -/
def splitFrom (sep : List α) : Nat → List α → List (List α)
  | _, [] => [[]]
  | skip + 1, _ :: s => splitFrom sep skip s
  | 0, c :: s =>
    if sep.isPrefixOf (c :: s) then [] :: splitFrom sep (sep.length - 1) s
    else (splitFrom sep 0 s).modifyHead (c :: ·)

/-- The separator is not empty. -/
def split (sep s : List α) : List (List α) := splitFrom sep 0 s

@[simp] theorem split_nil (sep : List α) : split sep [] = [[]] := rfl

theorem splitFrom_ne_nil (sep s : List α) (skip : Nat) : splitFrom sep skip s ≠ [] := by
  induction s generalizing skip with
  | nil => cases skip <;> simp [splitFrom]
  | cons c s ih =>
    cases skip with
    | succ skip => exact ih skip
    | zero =>
      rw [splitFrom]
      split
      · simp
      · simpa using ih 0

theorem split_ne_nil (sep s : List α) : split sep s ≠ [] := splitFrom_ne_nil sep s 0

theorem splitFrom_append (sep a b : List α) : splitFrom sep a.length (a ++ b) = split sep b := by
  induction a with
  | nil => rfl
  | cons c a ih => exact ih

theorem split_cons_of_apart (h : ¬ sep <+: c :: s) :
    split sep (c :: s) = (split sep s).modifyHead (c :: ·) := by
  rw [split, splitFrom, if_neg (by simpa using h)]
  rfl

theorem split_sep_append (hsep : sep ≠ []) (b : List α) :
    split sep (sep ++ b) = [] :: split sep b := by
  obtain ⟨d, sep', rfl⟩ := List.exists_cons_of_ne_nil hsep
  rw [split, List.cons_append, splitFrom, if_pos (by simp), List.length_cons,
    Nat.add_sub_cancel, splitFrom_append]

/-- The separator first occurs behind `a`. -/
theorem split_append (hsep : sep ≠ []) (h : ¬ sep <:+: a ++ sep.dropLast) :
    split sep (a ++ (sep ++ b)) = a :: split sep b := by
  induction a with
  | nil => exact split_sep_append hsep b
  | cons c a ih =>
    have hrest : ¬ sep <:+: a ++ sep.dropLast := fun hinside =>
      h (hinside.trans (List.suffix_cons c _).isInfix)
    have hfirst : ¬ sep <+: c :: (a ++ (sep ++ b)) := by
      intro hstarts
      have hcut : c :: (a ++ (sep ++ b)) =
          (c :: a ++ sep.dropLast) ++ (sep.getLast hsep :: b) := by
        conv_lhs => rw [← List.dropLast_append_getLast hsep]
        simp
      rw [hcut] at hstarts
      refine h (List.prefix_of_prefix_length_le hstarts (List.prefix_append _ _) ?_).isInfix
      have hpos := List.length_pos_of_ne_nil hsep
      simp only [List.cons_append, List.length_cons, List.length_append, List.length_dropLast]
      omega
    rw [List.cons_append, split_cons_of_apart hfirst, ih hrest]
    rfl

theorem split_of_not_infix (h : ¬ sep <:+: s) : split sep s = [s] := by
  induction s with
  | nil => rfl
  | cons c s ih =>
    rw [split_cons_of_apart fun hstarts => h hstarts.isInfix,
      ih fun hinside => h (hinside.trans (List.suffix_cons c s).isInfix)]
    rfl

omit [DecidableEq α] in
theorem intercalate_modifyHead {parts : List (List α)} (h : parts ≠ []) (sep : List α) (c : α) :
    sep.intercalate (parts.modifyHead (c :: ·)) = c :: sep.intercalate parts := by
  obtain ⟨p, parts, rfl⟩ := List.exists_cons_of_ne_nil h
  cases parts with
  | nil => simp
  | cons q parts => simp

theorem intercalate_splitFrom (hsep : sep ≠ []) (s : List α) (skip : Nat) :
    sep.intercalate (splitFrom sep skip s) = s.drop skip := by
  induction s generalizing skip with
  | nil => simp [splitFrom]
  | cons c s ih =>
    cases skip with
    | succ skip => exact ih skip
    | zero =>
      rw [splitFrom]
      split
      · rename_i hstarts
        obtain ⟨t, ht⟩ := List.isPrefixOf_iff_prefix.mp hstarts
        obtain ⟨q, parts, hparts⟩ :=
          List.exists_cons_of_ne_nil (splitFrom_ne_nil sep s (sep.length - 1))
        have hrest := ih (sep.length - 1)
        rw [hparts] at hrest ⊢
        rw [List.intercalate_cons_cons, hrest, List.nil_append, List.drop_zero]
        obtain ⟨d, sep, rfl⟩ := List.exists_cons_of_ne_nil hsep
        obtain ⟨rfl, rfl⟩ := List.cons.inj ht
        simp
      · rw [intercalate_modifyHead (splitFrom_ne_nil sep s 0), ih 0]
        rfl

/-- Joining undoes splitting. -/
theorem intercalate_split (hsep : sep ≠ []) (s : List α) :
    sep.intercalate (split sep s) = s :=
  intercalate_splitFrom hsep s 0

/-- A separator of one element. -/
theorem split_singleton (c : α) (s : List α) : split [c] s = s.splitOn c := by
  induction s with
  | nil => simp
  | cons d s ih =>
    rw [List.splitOn_cons_eq_if_modifyHead, ← ih]
    by_cases hd : d = c
    · subst hd
      rw [if_pos (by simp)]
      exact split_sep_append (by simp) s
    · rw [if_neg (by simpa using hd)]
      exact split_cons_of_apart fun hstarts => hd (List.cons_prefix_cons.mp hstarts).1.symm

/-! ## A doubled element -/

omit [DecidableEq α] in
theorem not_infix_append (hc : c ∉ a) (h : ¬ [c, c] <:+: s) : ¬ [c, c] <:+: a ++ s := by
  induction a with
  | nil => exact h
  | cons d a ih =>
    rw [List.cons_append, List.infix_cons_iff]
    rintro (hstarts | hinside)
    · exact hc (by rw [(List.cons_prefix_cons.mp hstarts).1]; exact List.mem_cons_self)
    · exact ih (fun hmem => hc (List.mem_cons_of_mem d hmem)) hinside

omit [DecidableEq α] in
theorem intercalate_cons_eq (sep p : List α) (parts : List (List α)) :
    ∃ t, sep.intercalate (p :: parts) = p ++ t := by
  cases parts with
  | nil => exact ⟨[], by simp⟩
  | cons q parts => exact ⟨sep ++ sep.intercalate (q :: parts), by simp⟩

omit [DecidableEq α] in
/-- An element stands alone between the parts it separates if none of them is empty. -/
theorem not_infix_intercalate {parts : List (List α)} (hparts : ∀ p ∈ parts, p ≠ [] ∧ c ∉ p)
    (h : ¬ [c, c] <:+: s) : ¬ [c, c] <:+: [c].intercalate parts ++ s := by
  induction parts with
  | nil => simpa using h
  | cons p parts ih =>
    have hp := hparts p List.mem_cons_self
    have hrest := ih fun q hq => hparts q (List.mem_cons_of_mem p hq)
    cases parts with
    | nil => simpa using not_infix_append hp.2 h
    | cons q parts =>
      rw [List.intercalate_cons_cons, List.append_assoc, List.append_assoc]
      refine not_infix_append hp.2 ?_
      rw [List.singleton_append, List.infix_cons_iff]
      rintro (hstarts | hinside)
      · have hq := hparts q (List.mem_cons_of_mem p List.mem_cons_self)
        obtain ⟨d, q', rfl⟩ := List.exists_cons_of_ne_nil hq.1
        obtain ⟨t, ht⟩ := intercalate_cons_eq [c] (d :: q') parts
        rw [ht] at hstarts
        obtain ⟨rfl, -⟩ := List.cons_prefix_cons.mp (List.cons_prefix_cons.mp hstarts).2
        exact hq.2 List.mem_cons_self
      · exact hrest hinside

end Split
