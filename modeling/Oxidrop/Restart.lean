import Mathlib.Data.List.Pairwise
import Oxidrop.Lib.Replay
import Oxidrop.Subnet

/-!
# The subnet policy across a restart

A restart rebuilds each trie from its table. The table keeps rules apart that
the trie takes for one, so the rebuilt trie carries the rule with the greatest
network among the aliases, and the live one the rule that was written last. The
invariant `Synced` says that they agree, and the two step lemmas say exactly
which requests keep it.
-/
namespace Oxidrop

open Run Replay

namespace SubnetFamily

variable {ν κ : Type} (f : SubnetFamily ν κ)

/-- What the proofs need to know about a family. -/
structure Lawful : Prop where
  bits : ∀ n, (addressBits (f.keyBytes n)).length = f.maxPrefix.toNat
  decode : ∀ n, f.decode (f.column n) = .ok n
  collate : ∀ n n', f.collate (f.column n) = f.collate (f.column n') → n = n'

/-- The place of a network in the order of its column. -/
def rank (rule : SubnetMatchUpdate ν) : List Int := f.collate (f.column rule.network)

def ruleLe (r r' : SubnetMatchUpdate ν) : Prop := f.rowLe (f.row r) (f.row r')

instance : DecidableRel f.ruleLe := fun _ _ => inferInstanceAs (Decidable (f.rowLe _ _))

instance : Std.Total f.ruleLe := ⟨fun _ _ => le_total _ _⟩

instance : IsTrans (SubnetMatchUpdate ν) f.ruleLe := ⟨fun _ _ _ => le_trans⟩

def SameKey (r r' : SubnetMatchUpdate ν) : Prop :=
  r.network = r'.network ∧ r.prefixLen = r'.prefixLen

variable {f}

/-! ## Rows and rules -/

theorem decodeRow_row (hf : f.Lawful) (rule : SubnetMatchUpdate ν) :
    f.decodeRow (f.row rule) = .ok rule := by
  obtain ⟨network, prefixLen, action⟩ := rule
  simp only [decodeRow, row, hf.decode, u32TryFrom_toNat, orInternal]
  cases action <;> rfl

theorem row_injective (hf : f.Lawful) : Function.Injective f.row := by
  intro r r' h
  have hr := decodeRow_row hf r
  rw [h, decodeRow_row hf r'] at hr
  exact (Except.ok.inj hr).symm

theorem row_key_iff (hf : f.Lawful) (r r' : SubnetMatchUpdate ν) :
    ((f.row r).network = (f.row r').network ∧ (f.row r).prefixLen = (f.row r').prefixLen) ↔
      SameKey r r' := by
  constructor
  · rintro ⟨hn, hp⟩
    refine ⟨hf.collate _ _ (congrArg f.collate hn), ?_⟩
    exact UInt32.toNat_inj.mp (Int.ofNat.inj hp)
  · rintro ⟨hn, hp⟩
    simp [row, hn, hp]

/-- Rules whose entries are the same have the same prefix length. -/
theorem prefixLen_of_entry (hf : f.Lawful) {r r' : SubnetMatchUpdate ν}
    (hr : r.prefixLen ≤ f.maxPrefix) (hr' : r'.prefixLen ≤ f.maxPrefix)
    (h : f.entry r = f.entry r') : r.prefixLen = r'.prefixLen := by
  have hvalid : ∀ x : SubnetMatchUpdate ν, x.prefixLen ≤ f.maxPrefix → (f.key x).Valid := by
    intro x hx
    exact (UInt32.le_iff_toNat_le.mp hx).trans_eq (hf.bits x.network).symm
  have hlen := congrArg List.length h
  rw [entry, entry, Key.cut_length (hvalid r hr), Key.cut_length (hvalid r' hr')] at hlen
  exact UInt32.toNat_inj.mp hlen

theorem entry_of_sameKey {r r' : SubnetMatchUpdate ν} (h : SameKey r r') :
    f.entry r = f.entry r' := by
  simp [entry, key, h.1, h.2]

theorem ruleLe_iff {r r' : SubnetMatchUpdate ν} (h : r.prefixLen = r'.prefixLen) :
    f.ruleLe r r' ↔ f.rank r ≤ f.rank r' := by
  simp [ruleLe, rowLe, row, rank, h, Prod.Lex.toLex_le_toLex]

/-! ## What the statements do to the rules -/

/-- No two rules share network and prefix length. -/
def DistinctKeys (rules : List (SubnetMatchUpdate ν)) : Prop :=
  rules.Pairwise (fun r r' => ¬ SameKey r r')

instance : Std.Symm (fun r r' : SubnetMatchUpdate ν => ¬ SameKey r r') :=
  ⟨fun _ _ h hs => h ⟨hs.1.symm, hs.2.symm⟩⟩

theorem DistinctKeys.eq {rules : List (SubnetMatchUpdate ν)} (h : DistinctKeys rules)
    {r r' : SubnetMatchUpdate ν} (hr : r ∈ rules) (hr' : r' ∈ rules) (hs : SameKey r r') :
    r = r' := by
  by_contra hne
  exact h.forall hr hr' hne hs

theorem antisymm_ruleLe (hf : f.Lawful) {rules : List (SubnetMatchUpdate ν)}
    (h : DistinctKeys rules) : Antisymm f.ruleLe rules := by
  intro r hr r' hr' hle hle'
  have heq := le_antisymm hle hle'
  simp only [row, EmbeddingLike.apply_eq_iff_eq, Prod.mk.injEq] at heq
  have hlen : r.prefixLen.toNat = r'.prefixLen.toNat := by omega
  exact h.eq hr hr' ⟨hf.collate _ _ heq.2, UInt32.toNat_inj.mp hlen⟩

/-- An upsert replaces the rule of its key. -/
theorem upsertRow_spec [DecidableEq κ] (hf : f.Lawful) (rule : SubnetMatchUpdate ν)
    {rules : List (SubnetMatchUpdate ν)} (h : DistinctKeys rules) :
    ∃ rules', upsertRow (f.row rule) (rules.map f.row) = rules'.map f.row ∧
      DistinctKeys rules' ∧
      ∀ x, x ∈ rules' ↔ x = rule ∨ (x ∈ rules ∧ ¬ SameKey x rule) := by
  induction rules with
  | nil => exact ⟨[rule], rfl, List.pairwise_singleton _ _, by simp⟩
  | cons r rules ih =>
    obtain ⟨hhead, htail⟩ := List.pairwise_cons.mp h
    simp only [List.map_cons, upsertRow]
    by_cases hk : SameKey r rule
    · have hsame : ∀ x, SameKey x rule ↔ SameKey x r := by
        intro x
        exact ⟨fun hx => ⟨hx.1.trans hk.1.symm, hx.2.trans hk.2.symm⟩,
          fun hx => ⟨hx.1.trans hk.1, hx.2.trans hk.2⟩⟩
      refine ⟨rule :: rules, ?_, ?_, ?_⟩
      · rw [if_pos ((row_key_iff hf r rule).mpr hk)]
        simp [row, hk.1, hk.2]
      · refine List.pairwise_cons.mpr ⟨fun x hx hs => ?_, htail⟩
        exact hhead x hx ⟨hk.1.trans hs.1, hk.2.trans hs.2⟩
      · intro x
        have hx : x ∈ rules → ¬ SameKey x rule := by
          intro hmem hs
          have hxr := (hsame x).mp hs
          exact hhead x hmem ⟨hxr.1.symm, hxr.2.symm⟩
        have hr : ∀ y, y = r → SameKey y rule := by
          rintro y rfl
          exact hk
        simp only [List.mem_cons]
        grind
    · obtain ⟨rules', hrows, hdistinct, hmem⟩ := ih htail
      refine ⟨r :: rules', ?_, ?_, ?_⟩
      · rw [if_neg (mt (row_key_iff hf r rule).mp hk), hrows, List.map_cons]
      · refine List.pairwise_cons.mpr ⟨fun x hx => ?_, hdistinct⟩
        rcases (hmem x).mp hx with rfl | ⟨hx, -⟩
        · exact hk
        · exact hhead x hx
      · intro x
        have hr : x = r → ¬ SameKey x rule := by
          rintro rfl
          exact hk
        simp only [List.mem_cons, hmem]
        grind

/-- A deletion drops the rule of its key. -/
theorem deleteRow_spec [DecidableEq κ] (hf : f.Lawful) (rule : SubnetMatchUpdate ν)
    {rules : List (SubnetMatchUpdate ν)} (h : DistinctKeys rules) :
    ∃ rules', deleteRow (f.column rule.network) rule.prefixLen.toNat (rules.map f.row) =
        rules'.map f.row ∧
      DistinctKeys rules' ∧ ∀ x, x ∈ rules' ↔ x ∈ rules ∧ ¬ SameKey x rule := by
  classical
  refine ⟨rules.filter (fun x => ¬ SameKey x rule), ?_, h.filter _, by simp⟩
  rw [deleteRow, List.filter_map]
  congr 1
  apply List.filter_congr
  intro x _
  have hkey := row_key_iff hf x rule
  simp only [row] at hkey
  simp only [Function.comp_apply, row, hkey]

/-! ## The invariant -/

/-- The table holds these rules. -/
structure Holds (f : SubnetFamily ν κ) (s : SubnetStore κ)
    (rules : List (SubnetMatchUpdate ν)) : Prop where
  rows : s.rows = rules.map f.row
  keys : DistinctKeys rules
  range : ∀ r ∈ rules, r.prefixLen ≤ f.maxPrefix

/-- The entries of the trie that a restart builds from the rules. -/
def rebuilt (f : SubnetFamily ν κ) (rules : List (SubnetMatchUpdate ν)) :
    PrefixMap.Table Bool Action :=
  rebuild f.entry SubnetMatchUpdate.action f.ruleLe rules

/-- There is room in a trie for the prefixes of the rules. -/
def Fits (f : SubnetFamily ν κ) (rules : List (SubnetMatchUpdate ν)) : Prop :=
  (rules.map f.entry).toFinset.card ≤ maxEntries

/-- The live trie is the one that a restart builds. -/
def Synced (f : SubnetFamily ν κ) (s : SubnetStore κ) : Prop :=
  ∃ rules, Holds f s rules ∧ s.trie.entry = rebuilt f rules

theorem mapM_decodeRow (hf : f.Lawful) (rules : List (SubnetMatchUpdate ν)) :
    (rules.map f.row).mapM f.decodeRow = .ok rules := by
  induction rules with
  | nil => rfl
  | cons r rules ih =>
    rw [List.map_cons, List.mapM_cons, decodeRow_row hf, ih]
    rfl

theorem listSubnet_eq (hf : f.Lawful) {s : SubnetStore κ} {rules : List (SubnetMatchUpdate ν)}
    (h : Holds f s rules) : f.listSubnet s.rows = .ok (rules.insertionSort f.ruleLe) := by
  rw [listSubnet, h.rows,
    ← List.map_insertionSort f.ruleLe f.rowLe f.row rules (fun _ _ _ _ => Iff.rfl),
    mapM_decodeRow hf]

theorem fits_perm {rules rules' : List (SubnetMatchUpdate ν)} (h : rules.Perm rules') :
    f.Fits rules ↔ f.Fits rules' := by
  rw [Fits, Fits, List.toFinset_eq_of_perm _ _ (h.map f.entry)]

/-- The loop of `main` gets to its end exactly if there is room for the prefixes. -/
theorem restore_eq_some_iff {rules : List (SubnetMatchUpdate ν)} {t : LpmTrie Action} :
    f.restore rules = some t ↔
      f.Fits rules ∧ t.entry = replay f.entry SubnetMatchUpdate.action rules :=
  BoundedMap.fill_eq_some_iff f.entry SubnetMatchUpdate.action

theorem restore_of_fits {rules : List (SubnetMatchUpdate ν)} (h : f.Fits rules) :
    ∃ t, f.restore rules = some t :=
  ⟨.ofRows f.entry SubnetMatchUpdate.action rules h, restore_eq_some_iff.mpr ⟨h, rfl⟩⟩

theorem restart_eq_ok_iff (hf : f.Lawful) {s : SubnetStore κ} {rules : List (SubnetMatchUpdate ν)}
    (h : Holds f s rules) {t : LpmTrie Action} :
    f.restart s.rows = .ok t ↔ f.Fits rules ∧ t.entry = rebuilt f rules := by
  rw [fits_perm (List.perm_insertionSort f.ruleLe rules).symm, rebuilt, rebuild,
    ← restore_eq_some_iff, restart, listSubnet_eq hf h]
  cases hrestore : f.restore (rules.insertionSort f.ruleLe) <;> simp [hrestore]

/-- What a live trie has had room for fits into the next one. -/
theorem restart_synced (hf : f.Lawful) {s : SubnetStore κ} {rules : List (SubnetMatchUpdate ν)}
    (h : Holds f s rules) (htrie : s.trie.entry = rebuilt f rules) :
    f.restart s.rows = .ok s.trie := by
  refine (restart_eq_ok_iff hf h).mpr ⟨?_, htrie⟩
  rw [fits_perm (List.perm_insertionSort f.ruleLe rules).symm]
  exact BoundedMap.card_of_entry f.entry SubnetMatchUpdate.action htrie

/-! ## Which requests keep the invariant -/

/-- The greatest stored alias of the rule, if its network is greater than the
rule's own, carries the rule's action. -/
def PostAligned (f : SubnetFamily ν κ) (s : SubnetStore κ) (rule : SubnetMatchUpdate ν) : Prop :=
  ∀ w, f.row w ∈ s.rows → f.entry w = f.entry rule → f.rank rule < f.rank w →
    (∀ x, f.row x ∈ s.rows → f.entry x = f.entry rule → f.rank x ≤ f.rank w) →
    w.action = rule.action

/-- No alias of the rule with another network is stored. -/
def DeleteAligned (f : SubnetFamily ν κ) (s : SubnetStore κ) (rule : SubnetMatchUpdate ν) : Prop :=
  ∀ w, f.row w ∈ s.rows → f.entry w = f.entry rule → w.network = rule.network

theorem mem_rows_iff (hf : f.Lawful) {s : SubnetStore κ} {rules : List (SubnetMatchUpdate ν)}
    (hrows : s.rows = rules.map f.row) (w : SubnetMatchUpdate ν) :
    f.row w ∈ s.rows ↔ w ∈ rules := by
  rw [hrows, List.mem_map_of_injective (row_injective hf)]

/-- The rules of a table decide whether a request is aligned. -/
theorem postAligned_of_rows (hf : f.Lawful) {s : SubnetStore κ} {rule : SubnetMatchUpdate ν}
    (rules : List (SubnetMatchUpdate ν)) (hrows : s.rows = rules.map f.row)
    (h : ∀ w ∈ rules, f.entry w = f.entry rule → f.rank rule < f.rank w →
      w.action = rule.action) : PostAligned f s rule := by
  intro w hw hentry hrank _
  exact h w ((mem_rows_iff hf hrows w).mp hw) hentry hrank

theorem deleteAligned_of_rows (hf : f.Lawful) {s : SubnetStore κ} {rule : SubnetMatchUpdate ν}
    (rules : List (SubnetMatchUpdate ν)) (hrows : s.rows = rules.map f.row)
    (h : ∀ w ∈ rules, f.entry w = f.entry rule → w.network = rule.network) :
    DeleteAligned f s rule := by
  intro w hw hentry
  exact h w ((mem_rows_iff hf hrows w).mp hw) hentry

theorem synced_iff (hf : f.Lawful) {s : SubnetStore κ} {rules : List (SubnetMatchUpdate ν)}
    (h : Holds f s rules) : Synced f s ↔ s.trie.entry = rebuilt f rules := by
  constructor
  · rintro ⟨rules', h', htrie⟩
    have hsame : rules' = rules :=
      List.map_injective_iff.mpr (row_injective hf) (h'.rows.symm.trans h.rows)
    rw [htrie, hsame]
  · intro htrie
    exact ⟨rules, h, htrie⟩

/-- After an upsert the rule wins its entry exactly under `PostAligned`. -/
theorem wins_post_iff (hf : f.Lawful) {s : SubnetStore κ}
    {rules rules' : List (SubnetMatchUpdate ν)} {rule : SubnetMatchUpdate ν}
    (h : Holds f s rules) (hr : rule.prefixLen ≤ f.maxPrefix) (hkeys : DistinctKeys rules')
    (hmem : ∀ x, x ∈ rules' ↔ x = rule ∨ (x ∈ rules ∧ ¬ SameKey x rule)) :
    Wins f.entry SubnetMatchUpdate.action f.ruleLe rules' (f.entry rule) rule.action ↔
      PostAligned f s rule := by
  have hrange : ∀ x ∈ rules', x.prefixLen ≤ f.maxPrefix := by
    intro x hx
    rcases (hmem x).mp hx with rfl | ⟨hx, -⟩
    · exact hr
    · exact h.range x hx
  have hlen : ∀ x ∈ rules', f.entry x = f.entry rule → x.prefixLen = rule.prefixLen :=
    fun x hx he => prefixLen_of_entry hf (hrange x hx) hr he
  have hle : ∀ x ∈ rules', ∀ y ∈ rules', f.entry x = f.entry rule → f.entry y = f.entry rule →
      (f.ruleLe x y ↔ f.rank x ≤ f.rank y) :=
    fun x hx y hy hxe hye => ruleLe_iff ((hlen x hx hxe).trans (hlen y hy hye).symm)
  have hrule : rule ∈ rules' := (hmem rule).mpr (.inl rfl)
  have hold : ∀ x ∈ rules, x ∈ rules' ∨ f.rank x = f.rank rule := by
    intro x hx
    by_cases hs : SameKey x rule
    · exact .inr (by rw [rank, rank, hs.1])
    · exact .inl ((hmem x).mpr (.inr ⟨hx, hs⟩))
  rw [wins_of_greater f.entry SubnetMatchUpdate.action f.ruleLe (antisymm_ruleLe hf hkeys) hrule]
  simp only [PostAligned, mem_rows_iff hf h.rows]
  constructor
  · intro hwins w hw hwe hlt hmax
    have hw' : w ∈ rules' := (hold w hw).resolve_right (ne_of_gt hlt)
    refine hwins w hw' hwe ?_
    intro x hx hxe
    rw [hle x hx w hw' hxe hwe]
    rcases (hmem x).mp hx with rfl | ⟨hx, -⟩
    · exact le_of_lt hlt
    · exact hmax x hx hxe
  · intro haligned w hw hwe hmax
    rcases (hmem w).mp hw with rfl | ⟨hwold, hns⟩
    · rfl
    · have hge : f.rank rule ≤ f.rank w := (hle rule hrule w hw rfl hwe).mp (hmax rule hrule rfl)
      have hne : f.rank rule ≠ f.rank w := by
        intro heq
        exact hns ⟨hf.collate _ _ heq.symm, hlen w hw hwe⟩
      refine haligned w hwold hwe (lt_of_le_of_ne hge hne) ?_
      intro x hx hxe
      rcases hold x hx with hx' | heq
      · exact (hle x hx' w hw hxe hwe).mp (hmax x hx' hxe)
      · rw [heq]
        exact hge

theorem post_synced_iff [DecidableEq κ] (hf : f.Lawful) {s : SubnetStore κ}
    {rule : SubnetMatchUpdate ν} (h : Synced f s) (hr : rule.prefixLen ≤ f.maxPrefix)
    {t : LpmTrie Action} (ht : s.trie.insert (f.key rule) rule.action = some t) :
    Synced f ⟨t, upsertRow (f.row rule) s.rows⟩ ↔ PostAligned f s rule := by
  obtain ⟨rules, hholds, htrie⟩ := h
  obtain ⟨rules', hrows, hkeys, hmem⟩ := upsertRow_spec hf rule hholds.keys
  have hholds' : Holds f ⟨t, upsertRow (f.row rule) s.rows⟩ rules' := by
    refine ⟨by rw [hholds.rows, hrows], hkeys, ?_⟩
    intro x hx
    rcases (hmem x).mp hx with rfl | ⟨hx, -⟩
    · exact hr
    · exact hholds.range x hx
  have hother : ∀ x, f.entry x ≠ f.entry rule → (x ∈ rules' ↔ x ∈ rules) := by
    intro x hx
    rw [hmem]
    constructor
    · rintro (rfl | ⟨hx', -⟩)
      · exact absurd rfl hx
      · exact hx'
    · intro hx'
      exact .inr ⟨hx', fun hs => hx (entry_of_sameKey hs)⟩
  rw [synced_iff hf hholds', ← wins_post_iff hf hholds hr hkeys hmem,
    ← rebuild_store_iff f.entry SubnetMatchUpdate.action f.ruleLe
      (antisymm_ruleLe hf hholds.keys) (antisymm_ruleLe hf hkeys) hother,
    LpmTrie.entry_of_insert ht, htrie]
  exact eq_comm

theorem delete_synced_iff [DecidableEq κ] (hf : f.Lawful) {s : SubnetStore κ}
    {rule : SubnetMatchUpdate ν} (h : Synced f s) (hr : rule.prefixLen ≤ f.maxPrefix) :
    Synced f ⟨s.trie.remove (f.key rule),
        deleteRow (f.column rule.network) rule.prefixLen.toNat s.rows⟩ ↔
      DeleteAligned f s rule := by
  obtain ⟨rules, hholds, htrie⟩ := h
  obtain ⟨rules', hrows, hkeys, hmem⟩ := deleteRow_spec hf rule hholds.keys
  have hholds' : Holds f ⟨s.trie.remove (f.key rule),
      deleteRow (f.column rule.network) rule.prefixLen.toNat s.rows⟩ rules' :=
    ⟨by rw [hholds.rows, hrows], hkeys, fun x hx => hholds.range x ((hmem x).mp hx).1⟩
  have hother : ∀ x, f.entry x ≠ f.entry rule → (x ∈ rules' ↔ x ∈ rules) := by
    intro x hx
    rw [hmem]
    exact ⟨fun hx' => hx'.1, fun hx' => ⟨hx', fun hs => hx (entry_of_sameKey hs)⟩⟩
  have hcond : (∀ x ∈ rules', f.entry x ≠ f.entry rule) ↔ DeleteAligned f s rule := by
    simp only [DeleteAligned, mem_rows_iff hf hholds.rows]
    constructor
    · intro hnone w hw hwe
      by_contra hne
      exact hnone w ((hmem w).mpr ⟨hw, fun hs => hne hs.1⟩) hwe
    · intro haligned x hx hxe
      obtain ⟨hxold, hns⟩ := (hmem x).mp hx
      exact hns ⟨haligned x hxold hxe,
        prefixLen_of_entry hf (hholds.range x hxold) hr hxe⟩
  rw [synced_iff hf hholds', ← hcond,
    ← rebuild_remove_iff f.entry SubnetMatchUpdate.action f.ruleLe
      (antisymm_ruleLe hf hholds.keys) (antisymm_ruleLe hf hkeys) hother,
    LpmTrie.entry_remove, htrie]
  exact eq_comm

/-- What a POST that is answered 200 has done. -/
theorem modify_ok [DecidableEq κ] {session : Option CallerContext} {faults : SubnetFaults}
    {payload : SubnetMatchUpdate ν} {s : SubnetStore κ}
    (h : (f.modifySubnetMatching session faults payload s).1.status = .OK) :
    payload.prefixLen ≤ f.maxPrefix ∧
      ∃ t, s.trie.insert (f.key payload) payload.action = some t ∧
        (f.modifySubnetMatching session faults payload s).2 =
          ⟨t, upsertRow (f.row payload) s.rows⟩ := by
  unfold modifySubnetMatching at h ⊢
  rcases withPermission_cases session .MODIFY _ s with ⟨-, heq⟩ | ⟨caller, -, hmay, heq⟩
  · rw [heq] at h
    simp at h
  · rw [heq] at h ⊢
    by_cases hlen : f.maxPrefix < payload.prefixLen
    · simp [hlen] at h
    · cases hmap : faults.map with
      | true => simp [hlen, insertMatching, hmap] at h
      | false =>
        cases hinsert : s.trie.insert (f.key payload) payload.action <;>
          cases hstat : faults.statement <;>
          simp [hlen, insertMatching, hmap, hinsert, hstat, saveSubnet, hmay] at h ⊢
        exact UInt32.not_lt.mp hlen

/-- What a DELETE that is answered 200 has done. -/
theorem remove_ok [DecidableEq κ] {session : Option CallerContext} {faults : SubnetFaults}
    {payload : SubnetMatchUpdate ν} {s : SubnetStore κ}
    (h : (f.removeSubnetMatching session faults payload s).1.status = .OK) :
    payload.prefixLen ≤ f.maxPrefix ∧
      (f.removeSubnetMatching session faults payload s).2 =
        ⟨s.trie.remove (f.key payload),
          deleteRow (f.column payload.network) payload.prefixLen.toNat s.rows⟩ := by
  unfold removeSubnetMatching at h ⊢
  rcases withPermission_cases session .DELETE _ s with ⟨-, heq⟩ | ⟨caller, -, hmay, heq⟩
  · rw [heq] at h
    simp at h
  · rw [heq] at h ⊢
    by_cases hlen : f.maxPrefix < payload.prefixLen
    · simp [hlen] at h
    · by_cases hentry : s.trie (f.entry payload) = none
      · simp [hlen, hentry] at h
      · cases hmap : faults.map <;> cases hstat : faults.statement <;>
          simp [hlen, hentry, hmap, hstat, deleteSubnet, hmay] at h ⊢
        exact UInt32.not_lt.mp hlen

end SubnetFamily

/-! ## Runs -/

open SubnetFamily

theorem subnetFamilyV4_lawful : subnetFamilyV4.Lawful where
  bits network := by
    rw [addressBits_length]
    rfl
  decode network := by
    change orInternal _ (u32TryFrom (network.toNat : Int)) = _
    rw [u32TryFrom_toNat]
    rfl
  collate n n' h := by
    have hn : (n.toNat : Int) = n'.toNat := by simpa [subnetFamilyV4] using h
    exact UInt32.toNat_inj.mp (by omega)

theorem decodeNetworkV6_bytes (network : Words) :
    decodeNetworkV6 (ipv6NetworkBytes network) = .ok network := by
  simp only [ipv6NetworkBytes, toBeBytes, List.cons_append, List.nil_append, decodeNetworkV6,
    be32_toBeBytes]

theorem subnetFamilyV6_lawful : subnetFamilyV6.Lawful where
  bits network := by
    rw [addressBits_length]
    rfl
  decode := decodeNetworkV6_bytes
  collate n n' h := by
    have hinj : Function.Injective (fun b : UInt8 => (b.toNat : Int)) := by
      intro b b' hb
      have hn : (b.toNat : Int) = b'.toNat := hb
      exact UInt8.toNat_inj.mp (by omega)
    have hbytes : ipv6NetworkBytes n = ipv6NetworkBytes n' := List.map_injective_iff.mpr hinj h
    have hdecode := decodeNetworkV6_bytes n
    rw [hbytes, decodeNetworkV6_bytes] at hdecode
    exact (Except.ok.inj hdecode).symm

/-- The verdicts of the live trie are those of the trie after a restart. -/
def Survives {ν κ : Type} (f : SubnetFamily ν κ) (s : SubnetStore κ) : Prop :=
  ∃ t, f.restart s.rows = .ok t ∧ ∀ key, t.get key = s.trie.get key

/-- The request keeps its entry in agreement with the stored aliases. -/
def Aligned (s : SubnetState) (call : SubnetCall) : Prop :=
  match call.request with
  | .modifyV4 payload => PostAligned subnetFamilyV4 s.v4 payload
  | .removeV4 payload => DeleteAligned subnetFamilyV4 s.v4 payload
  | .modifyV6 payload => PostAligned subnetFamilyV6 s.v6 payload
  | .removeV6 payload => DeleteAligned subnetFamilyV6 s.v6 payload

theorem survives_of_synced {ν κ : Type} {f : SubnetFamily ν κ} (hf : f.Lawful)
    {s : SubnetStore κ} (h : Synced f s) : Survives f s := by
  obtain ⟨rules, hholds, htrie⟩ := h
  exact ⟨s.trie, restart_synced hf hholds htrie, fun _ => rfl⟩

/-- Both tries are the ones that a restart builds. -/
def BothSynced (s : SubnetState) : Prop :=
  Synced subnetFamilyV4 s.v4 ∧ Synced subnetFamilyV6 s.v6

theorem synced_empty {ν κ : Type} (f : SubnetFamily ν κ) :
    Synced f ⟨.empty, []⟩ :=
  ⟨[], ⟨rfl, List.Pairwise.nil, by simp⟩, rfl⟩

/-- An answered request keeps the invariant exactly when it is aligned. -/
theorem bothSynced_step_iff {s : SubnetState} {call : SubnetCall} (h : BothSynced s)
    (hok : (subnetHandler call s).1.status = .OK) :
    BothSynced (subnetHandler call s).2 ↔ Aligned s call := by
  obtain ⟨session, faults, request⟩ := call
  cases request with
  | modifyV4 payload =>
    obtain ⟨hlen, t, hinsert, hstep⟩ := modify_ok hok
    change _ ↔ PostAligned subnetFamilyV4 s.v4 payload
    rw [← post_synced_iff subnetFamilyV4_lawful h.1 hlen hinsert, ← hstep]
    exact and_iff_left h.2
  | removeV4 payload =>
    obtain ⟨hlen, hstep⟩ := remove_ok hok
    change _ ↔ DeleteAligned subnetFamilyV4 s.v4 payload
    rw [← delete_synced_iff subnetFamilyV4_lawful h.1 hlen, ← hstep]
    exact and_iff_left h.2
  | modifyV6 payload =>
    obtain ⟨hlen, t, hinsert, hstep⟩ := modify_ok hok
    change _ ↔ PostAligned subnetFamilyV6 s.v6 payload
    rw [← post_synced_iff subnetFamilyV6_lawful h.2 hlen hinsert, ← hstep]
    exact and_iff_right h.1
  | removeV6 payload =>
    obtain ⟨hlen, hstep⟩ := remove_ok hok
    change _ ↔ DeleteAligned subnetFamilyV6 s.v6 payload
    rw [← delete_synced_iff subnetFamilyV6_lawful h.2 hlen, ← hstep]
    exact and_iff_right h.1

/-- After any run of answered and aligned requests both policies survive a
restart. -/
theorem subnet_survives (calls : List SubnetCall)
    (hok : ∀ r ∈ outputs subnetHandler emptySubnets calls, r.status = .OK)
    (haligned : Always subnetHandler Aligned emptySubnets calls) :
    Survives subnetFamilyV4 (run subnetHandler emptySubnets calls).v4 ∧
      Survives subnetFamilyV6 (run subnetHandler emptySubnets calls).v6 := by
  have hboth := (always_and emptySubnets calls).mpr
    ⟨always_of_outputs emptySubnets calls hok, haligned⟩
  have hend : BothSynced (run subnetHandler emptySubnets calls) := by
    refine invariant ?_ emptySubnets calls ⟨synced_empty _, synced_empty _⟩ hboth
    rintro s call hs ⟨hstatus, hcall⟩
    exact (bothSynced_step_iff hs hstatus).mpr hcall
  exact ⟨survives_of_synced subnetFamilyV4_lawful hend.1,
    survives_of_synced subnetFamilyV6_lawful hend.2⟩

/-- 10.0.0.5/8, which the trie takes for 10.0.0.0/8. -/
def tenAlias : SubnetMatchUpdate UInt32 := ⟨0x0A000005, 8, .allow⟩

def tenDenied : SubnetMatchUpdate UInt32 := ⟨0x0A000000, 8, .deny⟩

def tenMiddle : SubnetMatchUpdate UInt32 := ⟨0x0A000003, 8, .allow⟩

def eleven : SubnetMatchUpdate UInt32 := ⟨0x0B000000, 8, .deny⟩

/-- Of three aliases the greatest is not written last, but the last one takes its action. A
rule beside them comes and goes. -/
def aliasHistory : List SubnetCall :=
  [tenDenied, tenAlias, tenMiddle, eleven].map
      (fun rule => (SubnetRequest.modifyV4 rule).byRoot) ++
    [(SubnetRequest.removeV4 eleven).byRoot]

theorem subnet_survives_aliases :
    Survives subnetFamilyV4 (run subnetHandler emptySubnets aliasHistory).v4 := by
  have hf := subnetFamilyV4_lawful
  refine (subnet_survives aliasHistory (by decide) ⟨?_, ?_, ?_, ?_, ?_, trivial⟩).1
  · exact postAligned_of_rows hf [] rfl (by decide)
  · exact postAligned_of_rows hf [tenDenied] rfl (by decide)
  · exact postAligned_of_rows hf [tenDenied, tenAlias] rfl (by decide)
  · exact postAligned_of_rows hf [tenDenied, tenAlias, tenMiddle] rfl (by decide)
  · exact deleteAligned_of_rows hf [tenDenied, tenAlias, tenMiddle, eleven] rfl (by decide)

/-- A Deny over an alias that was allowed is lost at the restart. -/
theorem subnet_forgets :
    (∀ r ∈ outputs subnetHandler emptySubnets
      [(SubnetRequest.modifyV4 tenAlias).byRoot, (SubnetRequest.modifyV4 tenDenied).byRoot],
        r.status = .OK) ∧
    ¬ Survives subnetFamilyV4 (run subnetHandler emptySubnets
      [(SubnetRequest.modifyV4 tenAlias).byRoot,
        (SubnetRequest.modifyV4 tenDenied).byRoot]).v4 := by
  refine ⟨by decide, ?_⟩
  rintro ⟨t, hrestart, hsame⟩
  have hrebuilt : (subnetFamilyV4.restart (run subnetHandler emptySubnets
      [(SubnetRequest.modifyV4 tenAlias).byRoot,
        (SubnetRequest.modifyV4 tenDenied).byRoot]).v4.rows).map
          (fun u => u.get ⟨32, [10, 0, 0, 1]⟩) = .ok (some .allow) := by decide
  rw [hrestart] at hrebuilt
  have hget : t.get ⟨32, [10, 0, 0, 1]⟩ = some .allow := Except.ok.inj hrebuilt
  rw [hsame] at hget
  exact absurd hget (by decide)

end Oxidrop
