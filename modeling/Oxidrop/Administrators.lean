import Oxidrop.Users

/-!
# The default administrator

The startup bootstrap leaves a user in the table. Every later call keeps one,
except a deletion of the last user: the table is then empty, and only another
bootstrap would fill it.
-/
namespace Oxidrop.Administrators

open Run Table

variable {H : Type}

/-- The account that the bootstrap creates. -/
structure IsDefaultAdmin (lib : PasswordLib H) (row : UsersRow H) : Prop where
  username : row.username = DEFAULT_ADMIN_USERNAME
  role : row.role = .admin
  permissions : row.actionPermissions = ActionPermissions.all.bits
  active : row.isActive = 1
  mustBeChanged : row.passwordMustBeChanged = 1
  hash : ∃ salt, lib.hashPasswordWithSalt DEFAULT_ADMIN_PASSWORD salt = .ok row.passwordHash

/-- A deletion that takes effect names the only user. -/
def RemovesLast (t : Users H) (c : UserCall) : Prop :=
  ∃ username caller, c.request = .deleteUser username caller ∧ caller.may .DELETE = true ∧
    c.env.changeFails = false ∧ t ≠ [] ∧ ∀ r ∈ t, r.username = username

/-- The table has a row after the call, and after the deletion of the last user
it has the default administrator. -/
def Populated (lib : PasswordLib H) (t : Users H) (c : UserCall) : Prop :=
  (handleUser lib c t).2 ≠ [] ∧
    (RemovesLast t c → ∃ row ∈ (handleUser lib c t).2, IsDefaultAdmin lib row)

/-- Nothing fails when the default administrator is inserted. -/
def CanBootstrap (lib : PasswordLib H) (env : UserEnv) : Prop :=
  env.queryFails = false ∧ env.changeFails = false ∧
    ∃ hash, lib.hashPasswordWithSalt DEFAULT_ADMIN_PASSWORD env.salt = .ok hash

theorem removesLast_empties {lib : PasswordLib H} {t : Users H} {c : UserCall}
    (h : RemovesLast t c) : (handleUser lib c t).2 = [] := by
  obtain ⟨username, caller, hc, hmay, hcalm, hne, hall⟩ := h
  have hgone : t.filter (fun r => !decide (r.username = username)) = [] := by
    rw [List.filter_eq_nil_iff]
    intro r hr
    simp [hall r hr]
  have hcount : t.countP (fun r => decide (r.username = username)) ≠ 0 := by
    obtain ⟨r, hr⟩ := List.exists_mem_of_ne_nil t hne
    rw [ne_eq, List.countP_eq_zero]
    exact fun hnone => hnone r hr (by simp [hall r hr])
  simp [handleUser, hc, deleteUser, hmay, execute, hcalm, deleteWhere, hcount, hgone]

/-- Only the deletion of the last user empties the table. -/
theorem removesLast_of_empty {lib : PasswordLib H} {t : Users H} {c : UserCall} (ht : t ≠ [])
    (h : (handleUser lib c t).2 = []) : RemovesLast t c := by
  have heffect := handleUser_effect lib c t
  generalize (handleUser lib c t).1 = answer at heffect
  rw [h] at heffect
  generalize hafter : ([] : Users H) = t' at heffect
  cases heffect with
  | none => exact absurd hafter.symm ht
  | created row => simp at hafter
  | bootstrapped row => cases hafter
  | deleted hc hmay hcalm =>
    refine ⟨_, _, hc, hmay, hcalm, ht, fun r hr => ?_⟩
    have hgone := List.filter_eq_nil_iff.mp hafter.symm r hr
    simpa using hgone
  | modified => exact absurd (rewrite_eq_nil.mp hafter.symm) ht
  | passwordChanged => exact absurd (rewrite_eq_nil.mp hafter.symm) ht
  | renamed => exact absurd (rewrite_eq_nil.mp hafter.symm) ht
  | loggedIn => exact absurd (rewrite_eq_nil.mp hafter.symm) ht

theorem populated_iff (lib : PasswordLib H) {t : Users H} (ht : t ≠ []) (c : UserCall) :
    Populated lib t c ↔ ¬ RemovesLast t c := by
  constructor
  · rintro ⟨hne, -⟩ hlast
    exact hne (removesLast_empties hlast)
  · intro hlast
    exact ⟨fun h => hlast (removesLast_of_empty ht h), fun h => absurd h hlast⟩

/-- The bootstrap leaves a row exactly if there is one, or if it can insert one. -/
theorem bootstrap_ne_nil_iff (lib : PasswordLib H) (env : UserEnv) (t : Users H) :
    (bootstrapDefaultAdmin lib env t).2 ≠ [] ↔ t ≠ [] ∨ CanBootstrap lib env := by
  unfold bootstrapDefaultAdmin CanBootstrap
  cases t with
  | cons r t => cases env.queryFails <;> simp
  | nil =>
    cases env.queryFails with
    | true => simp
    | false =>
      cases hh : lib.hashPasswordWithSalt DEFAULT_ADMIN_PASSWORD env.salt with
      | error message =>
        simp [createDefaultAdmin, internalInsertUser, hashPassword, hh]
      | ok hash =>
        cases hf : env.changeFails with
        | true => simp [createDefaultAdmin, internalInsertUser, hashPassword, hh, execute, hf]
        | false =>
          simp [createDefaultAdmin, internalInsertUser, hashPassword, hh, execute, hf,
            Table.insert, usersSchema, UsersRow.checks, ActionPermissions.all, Except.map]

/-- What the bootstrap inserts into an empty table is the default administrator. -/
theorem bootstrap_isDefaultAdmin (lib : PasswordLib H) (env : UserEnv)
    (h : CanBootstrap lib env) :
    ∃ row, (bootstrapDefaultAdmin lib env []).2 = [row] ∧ IsDefaultAdmin lib row := by
  have hne := (bootstrap_ne_nil_iff lib env []).mpr (.inr h)
  have heffect : Effect lib ⟨.bootstrapDefaultAdmin, env⟩ [] (bootstrapDefaultAdmin lib env []).1
      (bootstrapDefaultAdmin lib env []).2 := bootstrapDefaultAdmin_effect rfl
  generalize (bootstrapDefaultAdmin lib env []).1 = answer at heffect
  generalize hafter : (bootstrapDefaultAdmin lib env []).2 = t' at hne heffect
  cases heffect with
  | none => exact absurd rfl hne
  | created row hc => cases hc
  | bootstrapped row hc ht hadmin hflag hrow =>
    exact ⟨row, rfl, hadmin.1, hadmin.2.1, hadmin.2.2, hrow.active, hflag, _, hrow.hash⟩
  | deleted hc => cases hc
  | modified passwordHash hc => cases hc
  | passwordChanged passwordHash hc => cases hc
  | renamed hc => cases hc
  | loggedIn id hc => cases hc

/-- From the startup bootstrap on the table always has a row, and the default
administrator replaces the last user, exactly if the bootstrap finds or can
insert a row and no call deletes the last one. -/
theorem never_empty_iff (lib : PasswordLib H) (t : Users H) (env : UserEnv)
    (calls : List UserCall) :
    ((bootstrapDefaultAdmin lib env t).2 ≠ [] ∧
      Always (handleUser lib) (Populated lib) (bootstrapDefaultAdmin lib env t).2 calls) ↔
    ((t ≠ [] ∨ CanBootstrap lib env) ∧
      Always (handleUser lib) (fun t c => ¬ RemovesLast t c)
        (bootstrapDefaultAdmin lib env t).2 calls) := by
  rw [← bootstrap_ne_nil_iff]
  refine and_congr_right fun hne => ?_
  exact always_congr (fun t c ht => populated_iff lib ht c) (fun t c _ h => h.1) _ calls hne

/-- Hashing that keeps the password, to evaluate the model. -/
def plainLib : PasswordLib String where
  toLowercase := String.toLower
  hashPasswordWithSalt password _ := .ok password
  verifyPassword hash password := some (hash == password)

def deleteAdmin : UserCall := ⟨.deleteUser "admin" .root, .calm⟩

/-- The administrator deletes itself after the first start. -/
theorem last_user_gone :
    ¬ ((bootstrapDefaultAdmin plainLib .calm []).2 ≠ [] ∧
      Always (handleUser plainLib) (Populated plainLib)
        (bootstrapDefaultAdmin plainLib .calm []).2 [deleteAdmin]) := by
  rintro ⟨-, ⟨hne, -⟩, -⟩
  exact hne (by decide)

end Oxidrop.Administrators
