import Oxidrop.Headers
import Oxidrop.Restart

/-!
# The IPv6 subnet table

The network of a rule is written as a blob when it is saved or deleted, read from
the blob when it is listed, written again as the key of the trie, and read again
by the data plane. All of these agree, so the table is a finite map from the pairs
of network and prefix length that were last saved.
-/
namespace Oxidrop.SubnetTable

open Run SubnetFamily

/-! ## Conversions -/

/-- `network.into_iter().flat_map(u32::to_be_bytes)` of a save and of a delete. -/
def networkBlob (network : Words) : List UInt8 :=
  [network.first, network.second, network.third, network.fourth].flatMap toBeBytes

/-- The words that the loop of `list_subnet_v6` overwrites, and zero for the rest. -/
def wordsOfChunks (chunks : List (UInt8 × UInt8 × UInt8 × UInt8)) : Words :=
  let word := fun i : Nat =>
    match chunks[i]? with
    | some (a, b, c, d) => be32 a b c d
    | none => 0
  ⟨word 0, word 1, word 2, word 3⟩

def decodeBlob (network : List UInt8) : Except UserError Words :=
  if network.length ≠ 16 then .error (.internal "invalid IPv6 subnet network")
  else .ok (wordsOfChunks (asChunks4 network).1)

/-- The family with the conversions of its table as the statements make them. -/
def subnetTableV6 : SubnetFamily Words (List UInt8) :=
  { subnetFamilyV6 with column := networkBlob, decode := decodeBlob }

theorem networkBlob_eq (network : Words) : networkBlob network = ipv6NetworkBytes network := by
  simp [networkBlob, ipv6NetworkBytes]

theorem decodeBlob_eq (network : List UInt8) : decodeBlob network = decodeNetworkV6 network := by
  unfold decodeBlob
  split
  · rename_i hlen
    unfold decodeNetworkV6
    split
    · exact absurd rfl hlen
    · rfl
  · rename_i hlen
    match network, not_not.mp hlen with
    | [_, _, _, _, _, _, _, _, _, _, _, _, _, _, _, _], _ => rfl

theorem subnetTableV6_eq : subnetTableV6 = subnetFamilyV6 := by
  have hcolumn : networkBlob = ipv6NetworkBytes := funext networkBlob_eq
  have hdecode : decodeBlob = decodeNetworkV6 := funext decodeBlob_eq
  rw [subnetTableV6, hcolumn, hdecode]
  rfl

/-- The data plane reads the words of a network from the bytes of its key. -/
theorem ipv6Words_key {network : Words} {octets : Vector UInt8 16}
    (h : octets.toList = ipv6NetworkBytes network) : ipv6Words octets = .ok network := by
  obtain ⟨words, hwords⟩ := ipv6Words_ok octets
  have hbytes := (ipv6Words_bytes hwords).trans h
  have hdecode := decodeNetworkV6_bytes words
  rw [hbytes, decodeNetworkV6_bytes] at hdecode
  rw [hwords, Except.ok.inj hdecode]

/-! ## Calls -/

inductive TableCall (ν : Type) where
  | save (caller : CallerContext) (rule : SubnetMatchUpdate ν)
  | delete (caller : CallerContext) (network : ν) (prefixLen : UInt32)

section Calls

variable {ν κ : Type} [DecidableEq κ] (f : SubnetFamily ν κ)

def handle : Machine (TableCall ν) (List (SubnetRow κ)) (Except UserError Unit)
  | .save caller rule => f.saveSubnet false caller rule
  | .delete caller network prefixLen => f.deleteSubnet false caller network prefixLen

/-- The caller may make the call, and the prefix length is one of the family. -/
def Permitted : TableCall ν → Prop
  | .save caller rule => caller.may .MODIFY = true ∧ rule.prefixLen ≤ f.maxPrefix
  | .delete caller _ prefixLen => caller.may .DELETE = true ∧ prefixLen ≤ f.maxPrefix

def TableCall.Names (network : ν) (prefixLen : UInt32) : TableCall ν → Prop
  | .save _ rule => rule.network = network ∧ rule.prefixLen = prefixLen
  | .delete _ network' prefixLen' => network' = network ∧ prefixLen' = prefixLen

/-- The last call for the network and prefix length of the rule saved the rule. -/
def LastSaved (calls : List (TableCall ν)) (rule : SubnetMatchUpdate ν) : Prop :=
  ∃ pre caller post, calls = pre ++ .save caller rule :: post ∧
    ∀ c ∈ post, ¬ c.Names rule.network rule.prefixLen

variable {f}

theorem lastSaved_nil (rule : SubnetMatchUpdate ν) : ¬ LastSaved [] rule := by
  rintro ⟨pre, caller, post, h, -⟩
  simp at h

/-- A call either saves the rule, or it keeps what it does not name. -/
theorem lastSaved_concat {calls : List (TableCall ν)} {c : TableCall ν}
    {rule : SubnetMatchUpdate ν} :
    LastSaved (calls ++ [c]) rule ↔
      (∃ caller, c = .save caller rule) ∨
        (LastSaved calls rule ∧ ¬ c.Names rule.network rule.prefixLen) := by
  constructor
  · rintro ⟨pre, caller, post, hcut, hpost⟩
    rcases List.eq_nil_or_concat post with rfl | ⟨post, last, rfl⟩
    · obtain ⟨-, hlast⟩ := List.append_inj' hcut rfl
      exact .inl ⟨caller, List.singleton_inj.mp hlast⟩
    · rw [List.concat_eq_append, ← List.cons_append, ← List.append_assoc] at hcut
      obtain ⟨hinit, hlast⟩ := List.append_inj' hcut rfl
      rw [List.singleton_inj.mp hlast]
      refine .inr ⟨⟨pre, caller, post, hinit, fun d hd => hpost d (by simp [hd])⟩, ?_⟩
      exact hpost last (by simp)
  · rintro (⟨caller, rfl⟩ | ⟨⟨pre, caller, post, rfl, hpost⟩, hc⟩)
    · exact ⟨calls, caller, [], rfl, by simp⟩
    · refine ⟨pre, caller, post ++ [c], by simp, fun d hd => ?_⟩
      rcases List.mem_append.mp hd with hd | hd
      · exact hpost d hd
      · rwa [List.mem_singleton.mp hd]

/-- The rules of the table are those that were last saved. -/
structure Reflects (f : SubnetFamily ν κ) (calls : List (TableCall ν)) (rows : List (SubnetRow κ))
    (rules : List (SubnetMatchUpdate ν)) : Prop where
  rows : rows = rules.map f.row
  keys : DistinctKeys rules
  mem : ∀ rule, rule ∈ rules ↔ LastSaved calls rule

theorem names_iff {c : TableCall ν} {x y : SubnetMatchUpdate ν}
    (hc : ∀ network prefixLen, c.Names network prefixLen ↔
      x.network = network ∧ x.prefixLen = prefixLen) :
    ¬ c.Names y.network y.prefixLen ↔ ¬ SameKey y x := by
  rw [hc, SameKey, eq_comm, @eq_comm _ y.prefixLen]

theorem reflects_step (hf : f.Lawful) {calls : List (TableCall ν)} {rows : List (SubnetRow κ)}
    {rules : List (SubnetMatchUpdate ν)} (h : Reflects f calls rows rules) {c : TableCall ν}
    (hc : Permitted f c) :
    ∃ rules', Reflects f (calls ++ [c]) (handle f c rows).2 rules' := by
  cases c with
  | save caller rule =>
    obtain ⟨hmay, hlen⟩ := hc
    obtain ⟨rules', hrows, hkeys, hmem⟩ := upsertRow_spec hf rule h.keys
    refine ⟨rules', ?_, hkeys, fun x => ?_⟩
    · simp only [handle, saveSubnet, hmay, if_true, Bool.false_eq_true, false_or,
        UInt32.not_lt.mpr hlen, if_false]
      rw [h.rows, hrows]
    · have hsave : (∃ caller', TableCall.save caller rule = .save caller' x) ↔ x = rule := by
        constructor
        · rintro ⟨_, heq⟩
          cases heq
          rfl
        · rintro rfl
          exact ⟨caller, rfl⟩
      rw [hmem, lastSaved_concat, h.mem, hsave, names_iff fun _ _ => Iff.rfl]
  | delete caller network prefixLen =>
    obtain ⟨rules', hrows, hkeys, hmem⟩ := deleteRow_spec hf ⟨network, prefixLen, .allow⟩ h.keys
    refine ⟨rules', ?_, hkeys, fun x => ?_⟩
    · simp only [handle, deleteSubnet, hc.1, if_true, Bool.false_eq_true, if_false]
      rw [h.rows, hrows]
    · have hsave : ¬ ∃ caller', TableCall.delete caller network prefixLen = .save caller' x := by
        rintro ⟨_, heq⟩
        cases heq
      rw [hmem, lastSaved_concat, h.mem, or_iff_right hsave,
        names_iff (x := ⟨network, prefixLen, .allow⟩) fun _ _ => Iff.rfl]

/-- After every sequence of calls the rules are those that were last saved. -/
theorem reflects_run (hf : f.Lawful) (calls : List (TableCall ν))
    (hcalls : ∀ c ∈ calls, Permitted f c) :
    ∃ rules, Reflects f calls (run (handle f) [] calls) rules := by
  refine history (C := fun _ c => Permitted f c)
    (I := fun calls rows => ∃ rules, Reflects f calls rows rules) ?_ ?_ calls
    (always_of_forall _ calls hcalls)
  · exact ⟨[], rfl, List.Pairwise.nil, fun rule => by simp [lastSaved_nil]⟩
  · rintro pre rows c ⟨rules, h⟩ hc
    exact reflects_step hf h hc

end Calls

/-! ## Listing -/

/-- Longer prefixes come first, and then smaller networks. -/
def Before (r r' : SubnetMatchUpdate Words) : Prop :=
  r'.prefixLen < r.prefixLen ∨
    (r.prefixLen = r'.prefixLen ∧ ipv6NetworkBytes r.network < ipv6NetworkBytes r'.network)

/-- A map that reflects the order of the elements reflects that of the lists. -/
theorem lt_of_map_lt {α β : Type} [LT α] [LT β] {g : α → β} (hlt : ∀ a b, g a < g b → a < b)
    (hinj : Function.Injective g) {xs ys : List α} (h : xs.map g < ys.map g) : xs < ys := by
  induction xs generalizing ys with
  | nil =>
    cases ys with
    | nil => exact absurd h (List.not_lt_nil _)
    | cons y ys => exact List.nil_lt_cons y ys
  | cons x xs ih =>
    cases ys with
    | nil => exact absurd h (List.not_lt_nil _)
    | cons y ys =>
      rcases List.cons_lt_cons_iff.mp h with hhead | ⟨hhead, htail⟩
      · exact List.cons_lt_cons_iff.mpr (.inl (hlt x y hhead))
      · exact List.cons_lt_cons_iff.mpr (.inr ⟨hinj hhead, ih htail⟩)

theorem bytes_lt_of_collate {xs ys : List UInt8}
    (h : subnetFamilyV6.collate xs < subnetFamilyV6.collate ys) : xs < ys := by
  refine lt_of_map_lt (fun a b hab => ?_) (fun a b hab => ?_) h
  · exact UInt8.lt_iff_toNat_lt.mpr (Int.ofNat_lt.mp hab)
  · exact UInt8.toNat_inj.mp (Int.ofNat.inj hab)

theorem before_of_ruleLe {r r' : SubnetMatchUpdate Words} (hle : subnetFamilyV6.ruleLe r r')
    (hkey : ¬ SameKey r r') : Before r r' := by
  have hle' :
      toLex (-(r.prefixLen.toNat : Int), subnetFamilyV6.collate (ipv6NetworkBytes r.network)) ≤
        toLex (-(r'.prefixLen.toNat : Int),
          subnetFamilyV6.collate (ipv6NetworkBytes r'.network)) := hle
  rcases Prod.Lex.toLex_le_toLex.mp hle' with hlt | ⟨heq, hnet⟩
  · refine .inl (UInt32.lt_iff_toNat_lt.mpr ?_)
    simp only at hlt
    omega
  · have hlen : r.prefixLen = r'.prefixLen := UInt32.toNat_inj.mp (by simp only at heq; omega)
    refine .inr ⟨hlen, bytes_lt_of_collate (lt_of_le_of_ne hnet fun hsame => hkey ⟨?_, hlen⟩)⟩
    exact subnetFamilyV6_lawful.collate _ _ hsame

/-- What `list_subnet_v6` returns after the calls. -/
structure Listed (calls : List (TableCall Words)) (rows : List (SubnetRow (List UInt8)))
    (rules : List (SubnetMatchUpdate Words)) : Prop where
  listed : subnetTableV6.listSubnet rows = .ok rules
  mem : ∀ rule, rule ∈ rules ↔ LastSaved calls rule
  once : rules.Pairwise (fun r r' => ¬ SameKey r r')
  ordered : rules.Pairwise Before
  stored : ∀ rule ∈ rules, ∃ row ∈ rows, subnetTableV6.decodeRow row = .ok rule ∧
    row.network = subnetTableV6.keyBytes rule.network
  read : ∀ rule ∈ rules, ∀ octets : Vector UInt8 16,
    octets.toList = subnetTableV6.keyBytes rule.network → ipv6Words octets = .ok rule.network

/-- The table lists the rules that were last saved, each once and in order, and the
data plane reads the networks that were saved. -/
theorem subnet_table_v6 (calls : List (TableCall Words))
    (hcalls : ∀ c ∈ calls, Permitted subnetTableV6 c) :
    ∃ rules, Listed calls (run (handle subnetTableV6) [] calls) rules := by
  rw [subnetTableV6_eq] at hcalls ⊢
  obtain ⟨rules, hrows, hkeys, hmem⟩ := reflects_run subnetFamilyV6_lawful calls hcalls
  generalize run (handle subnetFamilyV6) [] calls = rows at hrows
  have hrange : ∀ rule ∈ rules, rule.prefixLen ≤ subnetFamilyV6.maxPrefix := by
    intro rule hrule
    obtain ⟨pre, caller, post, rfl, -⟩ := (hmem rule).mp hrule
    exact (hcalls (.save caller rule) (by simp)).2
  have hholds : Holds subnetFamilyV6 ⟨.empty, rows⟩ rules := ⟨hrows, hkeys, hrange⟩
  have hperm := List.perm_insertionSort subnetFamilyV6.ruleLe rules
  have honce : (rules.insertionSort subnetFamilyV6.ruleLe).Pairwise
      (fun r r' => ¬ SameKey r r') :=
    (hperm.pairwise_iff fun h hs => h ⟨hs.1.symm, hs.2.symm⟩).mpr hkeys
  refine ⟨rules.insertionSort subnetFamilyV6.ruleLe, ?_⟩
  refine ⟨by rw [subnetTableV6_eq]; exact listSubnet_eq subnetFamilyV6_lawful hholds,
    fun rule => (hperm.mem_iff).trans (hmem rule), honce, ?_, ?_, ?_⟩
  · exact (List.pairwise_insertionSort subnetFamilyV6.ruleLe rules).imp₂
      (fun _ _ hle hkey => before_of_ruleLe hle hkey) honce
  · intro rule hrule
    refine ⟨subnetFamilyV6.row rule, ?_, ?_, rfl⟩
    · rw [hrows]
      exact List.mem_map_of_mem (hperm.mem_iff.mp hrule)
    · rw [subnetTableV6_eq]
      exact decodeRow_row subnetFamilyV6_lawful rule
  · exact fun rule _ octets hoctets => ipv6Words_key hoctets

/-- 2001:db8::/32. -/
def docAllowed : SubnetMatchUpdate Words := ⟨⟨0x20010db8, 0, 0, 0⟩, 32, .allow⟩

/-- A rule that is saved twice and one that is deleted. -/
theorem subnet_table_v6_twice :
    ∃ rules, Listed [.save .root docAllowed, .save .root { docAllowed with prefixLen := 48 },
      .save .root { docAllowed with action := .deny },
      .delete .root docAllowed.network 48] (run (handle subnetTableV6) []
        [.save .root docAllowed, .save .root { docAllowed with prefixLen := 48 },
          .save .root { docAllowed with action := .deny },
          .delete .root docAllowed.network 48]) rules := by
  refine subnet_table_v6 _ fun c hc => ?_
  simp only [List.mem_cons, List.not_mem_nil, or_false] at hc
  rcases hc with rfl | rfl | rfl | rfl <;> exact ⟨by decide, by decide⟩

end Oxidrop.SubnetTable
