import Oxidrop.Frontend.Addresses
import Oxidrop.Lib.Literal

/-!
# IPv6 addresses as text

What the formatters write is the form with the first longest run of zero groups left
out. What the parser reads is more than addresses: `Number.parseInt` takes the part
of a group that it understands, and a double colon may stand for no group at all.
-/
namespace Oxidrop.Frontend.Ipv6Text

open Numeral JavaScript Split LongestRun

/-! ## Zero groups -/

section Zeros

variable {groups rest : List Text} {group : Text}

theorem zeros_le (groups : List Text) : zeros groups ≤ groups.length := by
  induction groups with
  | nil => exact le_refl _
  | cons group groups ih =>
    rw [zeros, List.length_cons]
    split
    · omega
    · omega

theorem isZero_of_lt_zeros {j : Nat} (h : j < zeros groups) :
    (groups[j]?).any isZero = true := by
  induction groups generalizing j with
  | nil => exact absurd h (Nat.not_lt_zero j)
  | cons group groups ih =>
    rw [zeros] at h
    split at h
    · rename_i hzero
      cases j with
      | zero => simpa using hzero
      | succ j => exact ih (Nat.lt_of_succ_lt_succ h)
    · exact absurd h (Nat.not_lt_zero j)

theorem fails_at_zeros (groups : List Text) : (groups[zeros groups]?).any isZero = false := by
  induction groups with
  | nil => rfl
  | cons group groups ih =>
    rw [zeros]
    split
    · simpa using ih
    · rename_i hzero
      simpa using hzero

/-- The zero groups that come next are a run, and no group after them belongs to it. -/
theorem isRun_zeros (pre groups : List Text) :
    IsRun isZero (pre ++ groups) pre.length (zeros groups) ∧
      ((pre ++ groups)[pre.length + zeros groups]?).any isZero = false := by
  refine ⟨.append fun j hj => isZero_of_lt_zeros hj, ?_⟩
  rw [List.getElem?_append_right (Nat.le_add_right _ _), Nat.add_sub_cancel_left]
  exact fails_at_zeros groups

/-- The loop keeps the first longest of the runs that it has passed. -/
theorem scan_scanned (pre rest : List Text) (skip : Nat) (best : Best) (hskip : skip ≤ rest.length)
    (h : Scanned isZero (pre ++ rest) (pre.length + skip) best.bestStart.toNat best.bestLength) :
    Scanned isZero (pre ++ rest) (pre ++ rest).length
      (scan skip rest pre.length best).bestStart.toNat
      (scan skip rest pre.length best).bestLength := by
  induction rest generalizing pre skip best with
  | nil =>
    obtain rfl : skip = 0 := by simpa using hskip
    simpa [scan] using h
  | cons group rest ih =>
    have hpre : (pre ++ [group]).length = pre.length + 1 := by simp
    have happend : pre ++ group :: rest = (pre ++ [group]) ++ rest := by simp
    cases skip with
    | succ skip =>
      rw [happend] at h ⊢
      rw [scan, ← hpre]
      refine ih (pre ++ [group]) skip best (Nat.le_of_succ_le_succ hskip) ?_
      rwa [hpre, Nat.add_right_comm]
    | zero =>
      rw [Nat.add_zero] at h
      rw [scan]
      split
      · rename_i hzero
        have hlength : zeros (group :: rest) = zeros rest + 1 := by rw [zeros, if_pos hzero]
        obtain ⟨hrun, hend⟩ := isRun_zeros pre (group :: rest)
        rw [hlength] at hrun hend
        have hnext : pre.length + (zeros rest + 1) = (pre ++ [group]).length + zeros rest := by
          omega
        rw [happend] at h hrun hend ⊢
        rw [← hpre]
        refine ih (pre ++ [group]) (zeros rest) _ (zeros_le rest) ?_
        rw [← hnext]
        split
        · exact h.replace hrun hend ‹_›
        · exact h.keep (Nat.succ_pos _) hend (not_lt.mp ‹_›)
      · rename_i hzero
        have hfails : ((pre ++ group :: rest)[pre.length]?).any isZero = false := by
          simpa using hzero
        rw [happend] at h hfails ⊢
        rw [← hpre]
        refine ih (pre ++ [group]) 0 best (Nat.zero_le _) ?_
        rw [Nat.add_zero, hpre]
        exact h.skip hfails

/-- The first longest run of zero groups is left out if it has two groups or more. -/
theorem compress_cases (groups : List Text) :
    (∃ start length, 2 ≤ length ∧ FirstLongest isZero groups start length ∧
      compress groups = join ":" (groups.take start) ++ text "::" ++
        join ":" (groups.drop (start + length))) ∨
    ((∀ start length, IsRun isZero groups start length → length < 2) ∧
      compress groups = join ":" groups) := by
  have hscan := scan_scanned [] groups 0 ⟨-1, 0⟩ (Nat.zero_le _) (Scanned.init isZero groups _)
  rw [List.nil_append, List.length_nil] at hscan
  unfold compress
  simp only
  split
  · rename_i hshort
    exact .inr ⟨fun start length hrun => (hscan.bounds hrun).trans_lt hshort, rfl⟩
  · rename_i hlong
    exact .inl ⟨_, _, not_lt.mp hlong, hscan.firstLongest (by omega), rfl⟩

end Zeros

/-! ## What the formatters write -/

/-- A group in lower-case hexadecimal without leading zeros. -/
structure ShortHex (v : Nat) (g : Text) : Prop where
  stands : value 16 g = v
  lower : ∀ c ∈ g, c ∈ text "0123456789abcdef"
  short : g = text "0" ∨ ∃ c, g.head? = some c ∧ c ≠ unit '0'

/-- The groups of the words. -/
def groupValues (network : List Nat) : List Nat :=
  network.flatMap fun word => [word / 0x10000, word % 0x10000]

/-- Every group is written, except those of the first longest run of zeros if it has two
or more. -/
inductive Canonical (values : List Nat) : Text → Prop
  | full (groups : List Text) (hgroups : List.Forall₂ ShortHex values groups)
    (hnone : ∀ start length, IsRun (· == 0) values start length → length < 2) :
    Canonical values (join ":" groups)
  | compressed (left right : List Text) (start length : Nat) (htwo : 2 ≤ length)
    (hrun : FirstLongest (· == 0) values start length)
    (hleft : List.Forall₂ ShortHex (values.take start) left)
    (hright : List.Forall₂ ShortHex (values.drop (start + length)) right) :
    Canonical values (join ":" left ++ text "::" ++ join ":" right)

section Format

variable {v : Nat} {values : List Nat}

theorem numeral_shortHex (v : Nat) : ShortHex v (numeral 16 v) := by
  refine ⟨value_numeral (by decide) (by decide) v, fun c hc => ?_, ?_⟩
  · have hall : ∀ d < 16, digitUnit d ∈ text "0123456789abcdef" := by decide
    rcases numeral_digit (by decide) hc with ⟨d, hd, rfl⟩
    exact hall d hd
  · rcases Nat.eq_zero_or_pos v with rfl | hv
    · exact .inl rfl
    · obtain ⟨c, t, ht⟩ := List.exists_cons_of_ne_nil (numeral_ne_nil 16 v)
      have hhead : (numeral 16 v).head? ≠ some (unit '0') :=
        head_numeral (by decide) (by decide) hv.ne'
      rw [ht] at hhead ⊢
      exact .inr ⟨c, rfl, fun hc => hhead (congrArg some hc)⟩

theorem ShortHex.eq_numeral {g : Text} (h : ShortHex v g) : g = numeral 16 v := by
  have hdigits : text "0123456789abcdef" = (List.range 16).map digitUnit := by decide
  have hlower : ∀ c ∈ g, ∃ d < 16, digitUnit d = c := by
    intro c hc
    have hmem := h.lower c hc
    rw [hdigits] at hmem
    obtain ⟨d, hd, rfl⟩ := List.mem_map.mp hmem
    exact ⟨d, List.mem_range.mp hd, rfl⟩
  rw [← h.stands]
  exact Numeral.eq_numeral (by decide) (by decide) hlower h.short

theorem isZero_numeral (v : Nat) : isZero (numeral 16 v) = (v == 0) := by
  rcases Nat.eq_zero_or_pos v with rfl | hv
  · rfl
  · have hne : numeral 16 v ≠ text "0" := by
      intro h
      have hvalue : value 16 (numeral 16 v) = v := value_numeral (by decide) (by decide) v
      rw [h] at hvalue
      have hzero : value 16 (text "0") = 0 := by decide
      omega
    simp [isZero, hne, hv.ne']

theorem isZero_comp_numeral : isZero ∘ numeral 16 = (· == 0) := funext isZero_numeral

theorem forall₂_shortHex_iff {groups : List Text} :
    List.Forall₂ ShortHex values groups ↔ groups = values.map (numeral 16) := by
  constructor
  · intro h
    induction h with
    | nil => rfl
    | cons hg _ ih => rw [List.map_cons, hg.eq_numeral, ih]
  · rintro rfl
    exact List.forall₂_map_right_iff.mpr (List.forall₂_same.mpr fun v _ => numeral_shortHex v)

theorem compress_canonical (values : List Nat) :
    Canonical values (compress (values.map (numeral 16))) := by
  rcases compress_cases (values.map (numeral 16)) with
    ⟨start, length, htwo, hrun, heq⟩ | ⟨hnone, heq⟩
  · rw [heq, ← List.map_take, ← List.map_drop]
    rw [firstLongest_map, isZero_comp_numeral] at hrun
    exact .compressed _ _ start length htwo hrun (forall₂_shortHex_iff.mpr rfl)
      (forall₂_shortHex_iff.mpr rfl)
  · rw [heq]
    refine .full _ (forall₂_shortHex_iff.mpr rfl) fun start length h => hnone start length ?_
    rwa [isRun_map, isZero_comp_numeral]

/-- The groups have one canonical form. -/
theorem canonical_unique {s t : Text} (hs : Canonical values s) (ht : Canonical values t) :
    s = t := by
  cases hs with
  | full groups hgroups hnone =>
    cases ht with
    | full groups' hgroups' =>
      rw [forall₂_shortHex_iff.mp hgroups, forall₂_shortHex_iff.mp hgroups']
    | compressed left right start length htwo hrun =>
      exact absurd htwo (not_le.mpr (hnone start length hrun.isRun))
  | compressed left right start length htwo hrun hleft hright =>
    cases ht with
    | full groups hgroups hnone => exact absurd htwo (not_le.mpr (hnone start length hrun.isRun))
    | compressed left' right' start' length' htwo' hrun' hleft' hright' =>
      obtain ⟨rfl, rfl⟩ := hrun.unique hrun'
      rw [forall₂_shortHex_iff.mp hleft, forall₂_shortHex_iff.mp hright,
        forall₂_shortHex_iff.mp hleft', forall₂_shortHex_iff.mp hright']

theorem canonical_iff {s : Text} :
    Canonical values s ↔ s = compress (values.map (numeral 16)) :=
  ⟨fun h => canonical_unique h (compress_canonical values),
    fun h => h ▸ compress_canonical values⟩

end Format

/-! ## What the parser reads -/

/-- One to four hexadecimal digits. -/
structure HexGroup (g : Text) : Prop where
  nonempty : g ≠ []
  short : g.length ≤ 4
  digits : ∀ c ∈ g, isDigit 16 c = true

instance (g : Text) : Decidable (HexGroup g) :=
  decidable_of_iff (g ≠ [] ∧ g.length ≤ 4 ∧ g.all (isDigit 16) = true)
    ⟨fun h => ⟨h.1, h.2.1, List.all_eq_true.mp h.2.2⟩,
      fun h => ⟨h.nonempty, h.short, List.all_eq_true.mpr h.digits⟩⟩

/-- The text is an address of these words: eight groups, or fewer with a double colon for
the zero groups that are missing, of which there is at least one. -/
inductive Denotes (s : Text) : List Nat → Prop
  | full (groups : List Text) (hgroups : ∀ g ∈ groups, HexGroup g) (height : groups.length = 8)
    (hs : s = join ":" groups) : Denotes s (words (groups.map (value 16)))
  | compressed (left right : List Text) (hleft : ∀ g ∈ left, HexGroup g)
    (hright : ∀ g ∈ right, HexGroup g) (hseven : left.length + right.length ≤ 7)
    (hs : s = join ":" left ++ text "::" ++ join ":" right) :
    Denotes s (words (left.map (value 16) ++
      List.replicate (8 - left.length - right.length) 0 ++ right.map (value 16)))

/-- The groups are as many as the double colon allows. -/
structure Fits (s : Text) : Prop where
  parts : (split (text "::") s).length ≤ 2
  atMost : (leftGroups s).length + (rightGroups s).length ≤ 8
  all : (split (text "::") s).length = 1 →
    (leftGroups s).length + (rightGroups s).length = 8

/-- The group has the digits of a 16-bit number, perhaps between white space, a sign and
`0x` and a rest that is ignored. -/
def Reads (g : Text) : Prop := ∃ l : HexLiteral, l.toText = g ∧ 0 ≤ l.toInt ∧ l.toInt ≤ 0xffff

def groupValue (g : Text) : Nat := (parseInt g 16).toNat

section Parse

variable {s g : Text} {groups left right : List Text} {w : List Nat}

/-- These are the groups that `Number.parseInt` turns into 16-bit numbers. -/
theorem reads_iff : Reads g ↔ (parseInt g 16).outside 0xffff = false :=
  (parseInt_outside_iff (by decide)).symm

theorem HexGroup.value_lt (h : HexGroup g) : value 16 g < 0x10000 := by
  have hlt := Numeral.value_lt h.digits
  exact hlt.trans_le (Nat.pow_le_pow_right (by decide) h.short)

theorem HexGroup.parseInt_eq (h : HexGroup g) : parseInt g 16 = .finite (value 16 g) :=
  parseInt_digits h.nonempty h.digits (h.value_lt.trans (by decide))

theorem HexGroup.reads (h : HexGroup g) : Reads g :=
  reads_iff.mpr <| outside_eq_false_iff.mpr
    ⟨value 16 g, Nat.le_of_lt_succ h.value_lt, h.parseInt_eq⟩

theorem HexGroup.groupValue_eq (h : HexGroup g) : groupValue g = value 16 g := by
  rw [groupValue, h.parseInt_eq, toNat_natCast]

theorem HexGroup.colon_notMem (h : HexGroup g) : unit ':' ∉ g := by
  intro hmem
  have hdigit := h.digits _ hmem
  exact absurd hdigit (by decide)

/-! ### Groups -/

theorem join_groupsOf (part : Text) : join ":" (groupsOf part) = part := by
  unfold groupsOf
  split
  · rename_i hpart
    rw [hpart]
    rfl
  · exact intercalate_split (by decide) part

theorem groupsOf_join (h : ∀ g ∈ groups, HexGroup g) : groupsOf (join ":" groups) = groups := by
  cases groups with
  | nil => rfl
  | cons g groups =>
    obtain ⟨t, ht⟩ := intercalate_cons_eq (text ":") g groups
    have hne : join ":" (g :: groups) ≠ [] := by
      rw [join, ht]
      exact List.append_ne_nil_of_left_ne_nil (h g List.mem_cons_self).nonempty t
    have hcolon : text ":" = [unit ':'] := by decide
    rw [groupsOf, if_neg hne, join, hcolon, split_singleton]
    exact List.splitOn_intercalate _ (fun g hg => (h g hg).colon_notMem) (by simp)

/-- No double colon arises where groups are joined. -/
theorem not_infix_join (h : ∀ g ∈ groups, HexGroup g) {t : Text} (ht : ¬ text "::" <:+: t) :
    ¬ text "::" <:+: join ":" groups ++ t := by
  have hcolon : text ":" = [unit ':'] := by decide
  have hcolons : text "::" = [unit ':', unit ':'] := by decide
  rw [hcolons] at ht ⊢
  rw [join, hcolon]
  exact not_infix_intercalate (fun g hg => ⟨(h g hg).nonempty, (h g hg).colon_notMem⟩) ht

theorem split_join (h : ∀ g ∈ groups, HexGroup g) :
    split (text "::") (join ":" groups) = [join ":" groups] := by
  have hnone := not_infix_join h (t := []) (by decide)
  rw [List.append_nil] at hnone
  exact split_of_not_infix hnone

theorem split_compressed (hleft : ∀ g ∈ left, HexGroup g) (hright : ∀ g ∈ right, HexGroup g) :
    split (text "::") (join ":" left ++ text "::" ++ join ":" right) =
      [join ":" left, join ":" right] := by
  rw [List.append_assoc, split_append (by decide) (not_infix_join hleft (by decide)),
    split_join hright]

theorem groups_full (h : ∀ g ∈ groups, HexGroup g) :
    leftGroups (join ":" groups) = groups ∧ rightGroups (join ":" groups) = [] := by
  rw [leftGroups, rightGroups, split_join h]
  exact ⟨groupsOf_join h, rfl⟩

theorem groups_compressed (hleft : ∀ g ∈ left, HexGroup g) (hright : ∀ g ∈ right, HexGroup g) :
    leftGroups (join ":" left ++ text "::" ++ join ":" right) = left ∧
      rightGroups (join ":" left ++ text "::" ++ join ":" right) = right := by
  rw [leftGroups, rightGroups, split_compressed hleft hright]
  exact ⟨groupsOf_join hleft, groupsOf_join hright⟩

/-! ### The parser -/

theorem zero_hexGroup : HexGroup (text "0") := by decide

/-- The values of all eight groups. -/
def valuesOf (s : Text) : List Nat :=
  (leftGroups s).map groupValue ++
    List.replicate (8 - (leftGroups s).length - (rightGroups s).length) 0 ++
      (rightGroups s).map groupValue

theorem map_groupValue (n : Nat) :
    ((left ++ List.replicate n (text "0") ++ right).map (parseInt · 16)).map Number.toNat =
      left.map groupValue ++ List.replicate n 0 ++ right.map groupValue := by
  have hzero : (parseInt (text "0") 16).toNat = 0 := by
    rw [zero_hexGroup.parseInt_eq, toNat_natCast]
    decide
  rw [List.map_map, List.map_append, List.map_append, List.map_replicate, Function.comp_apply,
    hzero]
  rfl

theorem any_outside_eq_false_iff (left right : List Text) (n : Nat) :
    ((left ++ List.replicate n (text "0") ++ right).map (parseInt · 16)).any
        (Number.outside 0xffff) = false ↔ ∀ g ∈ left ++ right, Reads g := by
  rw [List.any_eq_false]
  simp only [List.mem_map, List.mem_append, List.mem_replicate, forall_exists_index, and_imp,
    forall_apply_eq_imp_iff₂, Bool.not_eq_true, ← reads_iff]
  constructor
  · exact fun h g hg => h g (hg.elim (fun hl => .inl (.inl hl)) .inr)
  · rintro h g ((hl | ⟨-, rfl⟩) | hr)
    · exact h g (.inl hl)
    · exact zero_hexGroup.reads
    · exact h g (.inr hr)

/-- The parser accepts the groups that fit and that are read. -/
theorem parseIpv6_eq_some_iff :
    parseIpv6 s = some w ↔
      Fits s ∧ (∀ g ∈ leftGroups s ++ rightGroups s, Reads g) ∧ w = words (valuesOf s) := by
  unfold parseIpv6 valuesOf
  simp only
  generalize hL : leftGroups s = left, hR : rightGroups s = right
  have hmissing : (8 - (left.length : Int) - right.length).toNat =
      8 - left.length - right.length := by omega
  rw [hmissing, map_groupValue]
  have hread := any_outside_eq_false_iff left right (8 - left.length - right.length)
  split
  · rename_i hparts
    exact ⟨fun h => (by cases h), fun h => absurd h.1.parts (not_le.mpr hparts)⟩
  · rename_i hparts
    split
    · rename_i hcount
      refine ⟨fun h => (by cases h), fun h => ?_⟩
      have hmost := h.1.atMost
      have hall := h.1.all
      rw [hL, hR] at hmost hall
      omega
    · rename_i hcount
      have hfits : Fits s := by
        refine ⟨not_lt.mp hparts, ?_, fun hone => ?_⟩
        · rw [hL, hR]
          omega
        · rw [hL, hR]
          omega
      split
      · rename_i hbad
        refine ⟨fun h => (by cases h), fun h => ?_⟩
        rcases hbad with hlength | hany
        · simp only [List.length_map, List.length_append, List.length_replicate] at hlength
          omega
        · rw [hread.mpr h.2.1] at hany
          cases hany
      · rename_i hgood
        rw [not_or, Bool.not_eq_true] at hgood
        rw [Option.some.injEq]
        exact ⟨fun h => ⟨hfits, hread.mp hgood.2, h.symm⟩, fun h => h.2.2.symm⟩

/-! ### Addresses among the texts that are read -/

/-- The groups fit, each has one to four hexadecimal digits, and a double colon stands for
a group. -/
structure Strict (s : Text) : Prop where
  fits : Fits s
  hex : ∀ g ∈ leftGroups s ++ rightGroups s, HexGroup g
  gap : (split (text "::") s).length = 2 → (leftGroups s).length + (rightGroups s).length ≤ 7

theorem valuesOf_eq (h : ∀ g ∈ leftGroups s ++ rightGroups s, HexGroup g) :
    valuesOf s = (leftGroups s).map (value 16) ++
      List.replicate (8 - (leftGroups s).length - (rightGroups s).length) 0 ++
        (rightGroups s).map (value 16) := by
  have hvalue : ∀ g ∈ leftGroups s ++ rightGroups s, groupValue g = value 16 g :=
    fun g hg => (h g hg).groupValue_eq
  rw [valuesOf, List.map_congr_left fun g hg => hvalue g (List.mem_append_left _ hg),
    List.map_congr_left fun g hg => hvalue g (List.mem_append_right _ hg)]

theorem Strict.denotes (h : Strict s) : Denotes s (words (valuesOf s)) := by
  have hleft : ∀ g ∈ leftGroups s, HexGroup g := fun g hg => h.hex g (List.mem_append_left _ hg)
  have hright : ∀ g ∈ rightGroups s, HexGroup g := fun g hg => h.hex g (List.mem_append_right _ hg)
  have hs := intercalate_split (show text "::" ≠ [] by decide) s
  have hparts := h.fits.parts
  have hall := h.fits.all
  have hgap := h.gap
  rw [valuesOf_eq h.hex]
  cases hp : split (text "::") s with
  | nil => exact absurd hp (split_ne_nil _ s)
  | cons p parts =>
    have hjoin : join ":" (leftGroups s) = p := by rw [leftGroups, hp]; exact join_groupsOf p
    rw [hp] at hs hparts hall hgap
    cases parts with
    | nil =>
      have hnone : rightGroups s = [] := by rw [rightGroups, hp]; rfl
      have height := hall rfl
      rw [hnone, List.length_nil, Nat.add_zero] at height
      have hfull := Denotes.full (s := s) (leftGroups s) hleft height (by rw [hjoin, ← hs]; simp)
      simpa [hnone, height] using hfull
    | cons q parts =>
      obtain rfl : parts = [] := by
        rw [List.length_cons, List.length_cons] at hparts
        exact List.length_eq_zero_iff.mp (by omega)
      have hjoin' : join ":" (rightGroups s) = q := by rw [rightGroups, hp]; exact join_groupsOf q
      refine .compressed _ _ hleft hright (hgap rfl) ?_
      rw [hjoin, hjoin', ← hs]
      simp

theorem Denotes.strict (h : Denotes s w) : Strict s ∧ w = words (valuesOf s) := by
  cases h with
  | full groups hgroups height hs =>
    obtain ⟨hl, hr⟩ := groups_full hgroups
    have hp := split_join hgroups
    rw [← hs] at hl hr hp
    have hhex : ∀ g ∈ leftGroups s ++ rightGroups s, HexGroup g := by
      rw [hl, hr, List.append_nil]
      exact hgroups
    refine ⟨⟨⟨?_, ?_, fun _ => ?_⟩, hhex, fun htwo => ?_⟩, ?_⟩
    · rw [hp]
      exact one_le_two
    · rw [hl, hr, height]
      exact le_refl _
    · rw [hl, hr, height]
      rfl
    · rw [hp] at htwo
      cases htwo
    · rw [valuesOf_eq hhex, hl, hr, height]
      simp
  | compressed left right hleft hright hseven hs =>
    obtain ⟨hl, hr⟩ := groups_compressed hleft hright
    have hp := split_compressed hleft hright
    rw [← hs] at hl hr hp
    have hhex : ∀ g ∈ leftGroups s ++ rightGroups s, HexGroup g := by
      rw [hl, hr]
      exact fun g hg => (List.mem_append.mp hg).elim (hleft g) (hright g)
    refine ⟨⟨⟨?_, ?_, fun hone => ?_⟩, hhex, fun _ => ?_⟩, ?_⟩
    · rw [hp]
      exact le_refl _
    · rw [hl, hr]
      omega
    · rw [hp] at hone
      cases hone
    · rwa [hl, hr]
    · rw [valuesOf_eq hhex, hl, hr]

theorem denotes_iff : Denotes s w ↔ Strict s ∧ w = words (valuesOf s) :=
  ⟨Denotes.strict, fun h => h.2 ▸ h.1.denotes⟩

/-- Every address is read as what it denotes. -/
theorem Denotes.accepted (h : Denotes s w) : parseIpv6 s = some w := by
  obtain ⟨hstrict, hw⟩ := h.strict
  exact parseIpv6_eq_some_iff.mpr ⟨hstrict.fits, fun g hg => (hstrict.hex g hg).reads, hw⟩

/-- Groups that fit and that are read, although one of them is not one to four hexadecimal
digits or the double colon stands for no group. -/
structure Mistyped (s : Text) : Prop where
  fits : Fits s
  reads : ∀ g ∈ leftGroups s ++ rightGroups s, Reads g
  loose : (∃ g ∈ leftGroups s ++ rightGroups s, ¬ HexGroup g) ∨
    ((split (text "::") s).length = 2 ∧ (leftGroups s).length + (rightGroups s).length = 8)

/-- The parser reads a text as the address that it denotes, and rejects it if it denotes
none, exactly if the text is not mistyped. -/
theorem parseIpv6_exact_iff (s : Text) :
    (∀ w, parseIpv6 s = some w ↔ Denotes s w) ↔ ¬ Mistyped s := by
  constructor
  · intro h hmistyped
    have haccepted := parseIpv6_eq_some_iff.mpr ⟨hmistyped.fits, hmistyped.reads, rfl⟩
    obtain ⟨hstrict, -⟩ := ((h _).mp haccepted).strict
    rcases hmistyped.loose with ⟨g, hg, hloose⟩ | ⟨htwo, height⟩
    · exact hloose (hstrict.hex g hg)
    · have hseven := hstrict.gap htwo
      omega
  · refine fun h w => ⟨fun haccepted => ?_, Denotes.accepted⟩
    obtain ⟨hfits, hreads, hw⟩ := parseIpv6_eq_some_iff.mp haccepted
    refine denotes_iff.mpr ⟨⟨hfits, fun g hg => ?_, fun htwo => ?_⟩, hw⟩
    · by_contra hloose
      exact h ⟨hfits, hreads, .inl ⟨g, hg, hloose⟩⟩
    · by_contra hmany
      have hmost := hfits.atMost
      exact h ⟨hfits, hreads, .inr ⟨htwo, by omega⟩⟩

end Parse

/-- A digit and a letter that is none. -/
def oneG : HexLiteral where
  space := []
  sign := []
  pre := []
  digits := text "1"
  rest := text "g"
  space_white := by simp
  sign_mem := by simp [signs]
  pre_mem := by simp
  digits_ne := by decide
  digits_hex := List.all_eq_true.mp (by decide)
  rest_stray := fun c hc => by
    obtain rfl : unit 'g' = c := Option.some.inj hc
    decide
  plain := fun _ hzero => absurd hzero (by decide)

theorem parseInt_oneG : parseInt (text "1g") 16 = .finite (1 : ℕ) := by
  have htext : oneG.toText = text "1g" := by decide
  have hint : oneG.toInt = (1 : ℕ) := by decide
  rw [← htext, parseInt_toText, hint, Int.cast_natCast, binary64_natCast (by decide)]

/-- A group with a letter that is no digit, and a double colon between eight groups. -/
theorem parseIpv6_mistyped :
    (parseIpv6 (text "1::1g") = some [0x10000, 0, 0, 1] ∧
        ∀ w, ¬ Denotes (text "1::1g") w) ∧
      (parseIpv6 (text "1:2:3:4::5:6:7:8") = some [0x10002, 0x30004, 0x50006, 0x70008] ∧
        ∀ w, ¬ Denotes (text "1:2:3:4::5:6:7:8") w) := by
  refine ⟨⟨?_, fun w hdenotes => ?_⟩, ?_, fun w hdenotes => ?_⟩
  · have hgroup : HexGroup (text "1") := by decide
    have hone : parseInt (text "1") 16 = .finite (1 : ℕ) := hgroup.parseInt_eq
    have hmixed : parseInt (text "1g") 16 = .finite (1 : ℕ) := parseInt_oneG
    have hleft : leftGroups (text "1::1g") = [text "1"] := by decide
    have hright : rightGroups (text "1::1g") = [text "1g"] := by decide
    refine parseIpv6_eq_some_iff.mpr ⟨⟨by decide, by decide, by decide⟩, ?_, ?_⟩
    · rw [hleft, hright]
      intro g hg
      rcases List.mem_pair.mp hg with rfl | rfl
      · exact reads_iff.mpr (outside_eq_false_iff.mpr ⟨1, by decide, hone⟩)
      · exact reads_iff.mpr (outside_eq_false_iff.mpr ⟨1, by decide, hmixed⟩)
    · rw [valuesOf, hleft, hright]
      simp only [List.map_singleton, groupValue, hone, hmixed, toNat_natCast]
      decide
  · have hg := hdenotes.strict.1.hex (text "1g") (by decide)
    exact absurd (hg.digits (unit 'g') (by decide)) (by decide)
  · have hhex : ∀ g ∈ leftGroups (text "1:2:3:4::5:6:7:8") ++
        rightGroups (text "1:2:3:4::5:6:7:8"), HexGroup g := by decide
    refine parseIpv6_eq_some_iff.mpr
      ⟨⟨by decide, by decide, by decide⟩, fun g hg => (hhex g hg).reads, ?_⟩
    rw [valuesOf_eq hhex]
    decide
  · exact absurd (hdenotes.strict.1.gap (by decide)) (by decide)

/-! ## There and back -/

section RoundTrip

variable {v : Nat} {values : List Nat}

theorem numeral_hexGroup (hv : v < 0x10000) : HexGroup (numeral 16 v) :=
  ⟨numeral_ne_nil 16 v, length_numeral_le (by decide) (by decide) hv,
    isDigit_numeral (by decide) (by decide)⟩

theorem map_value_numeral (values : List Nat) :
    (values.map (numeral 16)).map (value 16) = values := by
  rw [List.map_map]
  refine (List.map_congr_left fun v _ => ?_).trans (List.map_id values)
  exact value_numeral (by decide) (by decide) v

/-- A run of zeros in the middle of a list. -/
theorem take_replicate_drop {start length : Nat} (h : IsRun (· == 0) values start length)
    (hpos : 0 < length) :
    values.take start ++ List.replicate length 0 ++ values.drop (start + length) = values := by
  have hmiddle : (values.drop start).take length = List.replicate length 0 := by
    rw [List.eq_replicate_iff, List.length_take, List.length_drop]
    have hle := h.length_le hpos
    exact ⟨by omega, fun x hx => by simpa using h.forall_mem x hx⟩
  rw [← hmiddle, ← List.drop_drop, List.append_assoc, List.take_append_drop,
    List.take_append_drop]

/-- The canonical form of eight groups denotes them. -/
theorem Canonical.denotes {s : Text} (hs : Canonical values s) (height : values.length = 8)
    (hsmall : ∀ v ∈ values, v < 0x10000) : Denotes s (words values) := by
  have hgroups : ∀ vs : List Nat, vs ⊆ values → ∀ g ∈ vs.map (numeral 16), HexGroup g := by
    intro vs hvs g hg
    obtain ⟨v, hv, rfl⟩ := List.mem_map.mp hg
    exact numeral_hexGroup (hsmall v (hvs hv))
  cases hs with
  | full groups hshort hnone =>
    obtain rfl := forall₂_shortHex_iff.mp hshort
    have hfull := Denotes.full (values.map (numeral 16)) (hgroups values (List.Subset.refl _))
      (by rw [List.length_map, height]) rfl
    rwa [map_value_numeral] at hfull
  | compressed left right start length htwo hrun hleft hright =>
    obtain rfl := forall₂_shortHex_iff.mp hleft
    obtain rfl := forall₂_shortHex_iff.mp hright
    have hle := hrun.isRun.length_le (by omega)
    have hmissing : 8 - ((values.take start).map (numeral 16)).length -
        ((values.drop (start + length)).map (numeral 16)).length = length := by
      simp only [List.length_map, List.length_take, List.length_drop]
      omega
    have hseven : ((values.take start).map (numeral 16)).length +
        ((values.drop (start + length)).map (numeral 16)).length ≤ 7 := by
      simp only [List.length_map, List.length_take, List.length_drop]
      omega
    have hcompressed := Denotes.compressed _ _ (hgroups _ (List.take_subset _ _))
      (hgroups _ (List.drop_subset _ _)) hseven rfl
    rwa [map_value_numeral, map_value_numeral, hmissing,
      take_replicate_drop hrun.isRun (by omega)] at hcompressed

theorem words_groupValues (a b c d : Nat) : words (groupValues [a, b, c, d]) = [a, b, c, d] := by
  have hword : ∀ w : Nat, w / 0x10000 * 0x10000 + w % 0x10000 = w := fun w =>
    Nat.div_add_mod' w 0x10000
  simp [words, groupValues, hword]

/-- Both formatters cut a word into the same halves. -/
theorem halves_toNat (w : UInt32) :
    (halves w).map UInt32.toNat = [w.toNat / 0x10000, w.toNat % 0x10000] := by
  have hlow : ∀ n : Nat, n &&& 0xffff = n % 0x10000 := fun n => Nat.and_two_pow_sub_one_eq_mod n 16
  have hpow : 2 ^ (16 % 32) = 0x10000 := by decide
  have hlt := w.toNat_lt
  simp only [halves, List.map_cons, List.map_nil, UInt32.toNat_and, UInt32.toNat_shiftRight,
    UInt32.reduceToNat, hlow, Nat.shiftRight_eq_div_pow, hpow, List.cons.injEq, and_true]
  omega

/-- Every list of groups that are halves of words is written alike. -/
theorem map_numeral_halves (ws : List UInt32) :
    (ws.flatMap halves).map (fun group => numeral 16 group.toNat) =
      (groupValues (ws.map UInt32.toNat)).map (numeral 16) := by
  induction ws with
  | nil => rfl
  | cons w ws ih =>
    have hw := congrArg (List.map (numeral 16)) (halves_toNat w)
    rw [List.map_map] at hw
    have hgroups : groupValues ((w :: ws).map UInt32.toNat) =
        [w.toNat / 0x10000, w.toNat % 0x10000] ++ groupValues (ws.map UInt32.toNat) := rfl
    rw [List.flatMap_cons, List.map_append, ih, hgroups, List.map_append, ← hw]
    rfl

end RoundTrip

/-- The words as the numbers of a response. -/
def valueOf (ws : List UInt32) : Value := .array (ws.map fun w => .number (.finite w.toNat))

theorem ipv6_valueOf {ws : List UInt32} (h : ws.length = 4) :
    ipv6 (valueOf ws) = formatIpv6 (ws.map UInt32.toNat) := by
  have hwords : (ws.map fun w => Value.number (.finite w.toNat)).flatMap
      (fun word => halves word.toWord) = ws.flatMap halves := by
    rw [List.flatMap_map]
    exact List.flatMap_congr fun w _ => congrArg halves (toUint32_toNat w)
  rw [valueOf, ipv6, List.length_map, if_neg (by simpa using h), hwords]
  exact congrArg compress (map_numeral_halves ws)

/-- Four words as the network of a rule. -/
def networkOf (a b c d : UInt32) : List Nat := [a, b, c, d].map UInt32.toNat

/-- Writing four words and reading them again gives the words. What is written is their one
canonical form, and the formatter of the allow lists writes the same. -/
theorem ipv6_round_trip (a b c d : UInt32) :
    parseIpv6 (formatIpv6 (networkOf a b c d)) = some (networkOf a b c d) ∧
      (∀ s, Canonical (groupValues (networkOf a b c d)) s ↔
        s = formatIpv6 (networkOf a b c d)) ∧
      ipv6 (valueOf [a, b, c, d]) = formatIpv6 (networkOf a b c d) := by
  have hcanonical : Canonical (groupValues (networkOf a b c d)) (formatIpv6 (networkOf a b c d)) :=
    compress_canonical _
  have hsmall : ∀ v ∈ groupValues (networkOf a b c d), v < 0x10000 := by
    intro v hv
    obtain ⟨word, hword, hv⟩ := List.mem_flatMap.mp hv
    obtain ⟨w, -, rfl⟩ := List.mem_map.mp hword
    have hlt := w.toNat_lt
    rcases List.mem_pair.mp hv with rfl | rfl
    · omega
    · exact Nat.mod_lt _ (by decide)
  refine ⟨?_, fun s => canonical_iff, ipv6_valueOf rfl⟩
  have hsame : words (groupValues (networkOf a b c d)) = networkOf a b c d := words_groupValues ..
  have haccepted := (hcanonical.denotes rfl hsmall).accepted
  rwa [hsame] at haccepted

end Oxidrop.Frontend.Ipv6Text
