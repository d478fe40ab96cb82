import Oxidrop.Subnet

/-!
# Subnet requests that fail

A request writes the trie first and the table second. When the table fails, a
POST takes its trie entry out again and a DELETE does nothing, so a failed
request is without effect exactly when its trie entry was not needed.
-/
namespace Oxidrop

namespace SubnetFamily

variable {ν κ : Type} (f : SubnetFamily ν κ)

/-- Every prefix length that the handlers accept lies within the key bytes. -/
def Bounded : Prop := ∀ n, f.maxPrefix.toNat ≤ (addressBits (f.keyBytes n)).length

theorem key_valid {f : SubnetFamily ν κ} (hf : f.Bounded) {rule : SubnetMatchUpdate ν}
    (h : rule.prefixLen ≤ f.maxPrefix) : (f.key rule).Valid :=
  Nat.le_trans (UInt32.le_iff_toNat_le.mp h) (hf rule.network)

/-- A failed request changes no lookup and no row. -/
def AtomicOnFailure (s : SubnetStore κ) (answer : Response × SubnetStore κ) : Prop :=
  answer.1.status ≠ .OK → SameLookups s.trie answer.2.trie ∧ answer.2.rows = s.rows

/-- If the table fails after the trie was written, then taking the entry out
restores the lookups, or, where that fails too, the entry said nothing new. -/
def ModifyRecoverable (session : Option CallerContext) (faults : SubnetFaults)
    (payload : SubnetMatchUpdate ν) (s : SubnetStore κ) : Prop :=
  Authorized session .MODIFY → payload.prefixLen ≤ f.maxPrefix → faults.map = false →
    s.trie.HasRoom (f.key payload) → faults.statement = true →
    s.trie.get (f.key payload) =
      if faults.undo then some payload.action
      else PrefixMap.lookupBelow s.trie.entry (f.entry payload)

/-- If the table fails after the trie entry was removed, then the shorter
prefixes say what the entry said. -/
def RemoveRecoverable (session : Option CallerContext) (faults : SubnetFaults)
    (payload : SubnetMatchUpdate ν) (s : SubnetStore κ) : Prop :=
  Authorized session .DELETE → payload.prefixLen ≤ f.maxPrefix → faults.map = false →
    s.trie (f.entry payload) ≠ none → faults.statement = true →
    s.trie.get (f.key payload) = PrefixMap.lookupBelow s.trie.entry (f.entry payload)

variable {f}

theorem atomic_of_unchanged {s : SubnetStore κ} (r : Response) : AtomicOnFailure s (r, s) :=
  fun _ => ⟨sameLookups_refl s.trie, rfl⟩

/-- A failed write of the entry `x` is atomic exactly when no lookup notices. -/
theorem atomic_failed_iff {s : SubnetStore κ} {rule : SubnetMatchUpdate ν} (hf : f.Bounded)
    (h : rule.prefixLen ≤ f.maxPrefix) {t : LpmTrie Action} {x : Option Action}
    (ht : t.entry = Function.update s.trie.entry (f.entry rule) x) :
    AtomicOnFailure s (StatusCode.INTERNAL_SERVER_ERROR.intoResponse, ⟨t, s.rows⟩) ↔
      s.trie.get (f.key rule) = x.or (PrefixMap.lookupBelow s.trie.entry (f.entry rule)) := by
  have hsame := sameLookups_update_iff (key_valid hf h) ht
  simp only [AtomicOnFailure, intoResponse_status, and_true]
  rw [eq_comm, entry, ← hsame]
  simp

/-- A request without the permission, or with a prefix that is too long, changes nothing. -/
theorem atomic_request_iff {session : Option CallerContext} {permission : ActionPermissions}
    {payload : SubnetMatchUpdate ν} {s : SubnetStore κ} {bad : Response}
    {write : CallerContext → SubnetStore κ → Response × SubnetStore κ} {P : Prop}
    (hwrite : ∀ caller, caller.may permission = true → payload.prefixLen ≤ f.maxPrefix →
      (AtomicOnFailure s (write caller s) ↔ P)) :
    AtomicOnFailure s (withPermission session permission
        (fun caller s => if f.maxPrefix < payload.prefixLen then (bad, s) else write caller s) s) ↔
      (Authorized session permission → payload.prefixLen ≤ f.maxPrefix → P) := by
  rcases withPermission_cases session permission _ s with ⟨hno, heq⟩ | ⟨caller, hsome, hmay, heq⟩
  · rw [heq]
    simp [hno, atomic_of_unchanged]
  · rw [heq]
    have hauth : Authorized session permission := ⟨caller, hsome, hmay⟩
    by_cases hlen : f.maxPrefix < payload.prefixLen
    · simp [hlen, UInt32.not_le.mpr hlen, atomic_of_unchanged]
    · have hle : payload.prefixLen ≤ f.maxPrefix := UInt32.not_lt.mp hlen
      simp [hlen, hauth, hle, hwrite caller hmay hle]

theorem modify_atomic_iff [DecidableEq κ] (hf : f.Bounded) (session : Option CallerContext)
    (faults : SubnetFaults) (payload : SubnetMatchUpdate ν) (s : SubnetStore κ) :
    AtomicOnFailure s (f.modifySubnetMatching session faults payload s) ↔
      f.ModifyRecoverable session faults payload s := by
  refine atomic_request_iff fun caller hmay hle => ?_
  have hlen : ¬ f.maxPrefix < payload.prefixLen := UInt32.not_lt.mpr hle
  cases hmap : faults.map with
  | true => simp [insertMatching, hmap, atomic_of_unchanged]
  | false =>
    cases hinsert : s.trie.insert (f.key payload) payload.action with
    | none =>
      have hroom := LpmTrie.insert_eq_none_iff.mp hinsert
      simp [insertMatching, hmap, hinsert, hroom, atomic_of_unchanged]
    | some map =>
      have hroom : s.trie.HasRoom (f.key payload) := by
        by_contra hfull
        rw [LpmTrie.insert_eq_none_iff.mpr hfull] at hinsert
        cases hinsert
      have hentry := LpmTrie.entry_of_insert hinsert
      cases hstat : faults.statement with
      | false => simp [insertMatching, hmap, hinsert, hlen, saveSubnet, hmay, AtomicOnFailure]
      | true =>
        cases hundo : faults.undo with
        | true =>
          have h := atomic_failed_iff hf hle hentry
          simpa [insertMatching, hmap, hinsert, hroom, saveSubnet, hmay, entry] using h
        | false =>
          have hremoved : (map.remove (f.key payload)).entry =
              Function.update s.trie.entry (f.entry payload) none := by
            rw [LpmTrie.entry_remove, hentry, Function.update_idem]
            rfl
          have h := atomic_failed_iff hf hle hremoved
          simpa [insertMatching, hmap, hinsert, hroom, saveSubnet, hmay, entry] using h

theorem remove_atomic_iff [DecidableEq κ] (hf : f.Bounded) (session : Option CallerContext)
    (faults : SubnetFaults) (payload : SubnetMatchUpdate ν) (s : SubnetStore κ) :
    AtomicOnFailure s (f.removeSubnetMatching session faults payload s) ↔
      f.RemoveRecoverable session faults payload s := by
  refine atomic_request_iff fun caller hmay hle => ?_
  cases hmap : faults.map with
  | true => simp [atomic_of_unchanged]
  | false =>
    by_cases hentry : s.trie (f.entry payload) = none
    · simp [hentry, atomic_of_unchanged]
    · cases hstat : faults.statement with
      | false => simp [hentry, deleteSubnet, hmay, AtomicOnFailure]
      | true =>
        have h := atomic_failed_iff hf hle (s.trie.entry_remove (f.key payload))
        simp only [entry] at hentry
        simpa [hentry, deleteSubnet, hmay, entry] using h

end SubnetFamily

theorem subnetFamilyV4_bounded : subnetFamilyV4.Bounded := by
  intro network
  rw [addressBits_length]
  exact Nat.le_refl 32

theorem subnetFamilyV6_bounded : subnetFamilyV6.Bounded := by
  intro network
  rw [addressBits_length]
  exact Nat.le_refl 128

/-- A failed call leaves every lookup of both tries and every row of both
tables as it was. -/
def SubnetAtomic (call : SubnetCall) (s : SubnetState) : Prop :=
  (subnetHandler call s).1.status ≠ .OK →
    SameLookups s.v4.trie (subnetHandler call s).2.v4.trie ∧
    SameLookups s.v6.trie (subnetHandler call s).2.v6.trie ∧
    (subnetHandler call s).2.v4.rows = s.v4.rows ∧ (subnetHandler call s).2.v6.rows = s.v6.rows

def Recoverable (s : SubnetState) : SubnetCall → Prop
  | ⟨session, faults, .modifyV4 payload⟩ =>
    subnetFamilyV4.ModifyRecoverable session faults payload s.v4
  | ⟨session, faults, .removeV4 payload⟩ =>
    subnetFamilyV4.RemoveRecoverable session faults payload s.v4
  | ⟨session, faults, .modifyV6 payload⟩ =>
    subnetFamilyV6.ModifyRecoverable session faults payload s.v6
  | ⟨session, faults, .removeV6 payload⟩ =>
    subnetFamilyV6.RemoveRecoverable session faults payload s.v6

/-- A subnet call is atomic on failure exactly when, should the table fail, its
trie entry was not needed. -/
theorem subnet_atomic_iff (call : SubnetCall) (s : SubnetState) :
    SubnetAtomic call s ↔ Recoverable s call := by
  obtain ⟨session, faults, request⟩ := call
  cases request with
  | modifyV4 payload =>
    simp only [Recoverable]
    rw [← SubnetFamily.modify_atomic_iff subnetFamilyV4_bounded]
    simp [SubnetAtomic, subnetHandler, modifySubnetMatchingV4, SubnetFamily.AtomicOnFailure]
  | removeV4 payload =>
    simp only [Recoverable]
    rw [← SubnetFamily.remove_atomic_iff subnetFamilyV4_bounded]
    simp [SubnetAtomic, subnetHandler, removeSubnetMatchingV4, SubnetFamily.AtomicOnFailure]
  | modifyV6 payload =>
    simp only [Recoverable]
    rw [← SubnetFamily.modify_atomic_iff subnetFamilyV6_bounded]
    simp [SubnetAtomic, subnetHandler, modifySubnetMatchingV6, SubnetFamily.AtomicOnFailure]
  | removeV6 payload =>
    simp only [Recoverable]
    rw [← SubnetFamily.remove_atomic_iff subnetFamilyV6_bounded]
    simp [SubnetAtomic, subnetHandler, removeSubnetMatchingV6, SubnetFamily.AtomicOnFailure]

/-- The network 10.0.0.0/8. -/
def tenSlashEight (action : Action) : SubnetMatchUpdate UInt32 := ⟨0x0A000000, 8, action⟩

/-- The state after 10.0.0.0/8 has been allowed. -/
def tenAllowed : SubnetState :=
  (subnetHandler (SubnetRequest.modifyV4 (tenSlashEight .allow)).byRoot emptySubnets).2

/-- A Deny for 10.0.0.0/8 whose statement fails takes the Allow away. -/
theorem subnet_atomic_fails :
    ¬ SubnetAtomic ⟨some .root, ⟨false, true, false⟩, .modifyV4 (tenSlashEight .deny)⟩
      tenAllowed := by
  intro h
  have hlookup := (h (by decide)).1 ⟨32, [10, 0, 0, 1]⟩ (by unfold Key.Valid; decide)
  exact absurd hlookup (by decide)

end Oxidrop
