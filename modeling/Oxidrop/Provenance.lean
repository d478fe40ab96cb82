import Oxidrop.Users

/-!
# Where a password comes from

Every hash that a call computes is marked with that call. The marks run along
with the table and change nothing: without them the run is that of the calls.
They tell for each row which call wrote its current hash.
-/
namespace Oxidrop.Provenance

open Run Table

variable {H H' : Type}

/-! ## Marked hashes -/

def mapHash (f : H' → H) (r : UsersRow H') : UsersRow H :=
  ⟨r.id, r.username, f r.passwordHash, r.role, r.actionPermissions, r.passwordMustBeChanged,
    r.isActive, r.lastLoginAt⟩

/-- The hashes of one library are those of another, seen through a map. -/
structure Along (f : H' → H) (lib' : PasswordLib H') (lib : PasswordLib H) : Prop where
  toLowercase : lib.toLowercase = lib'.toLowercase
  hash : ∀ password salt,
    lib.hashPasswordWithSalt password salt = (lib'.hashPasswordWithSalt password salt).map f
  verify : ∀ hash password, lib.verifyPassword (f hash) password = lib'.verifyPassword hash password

def tagged (lib : PasswordLib H) (c : UserCall) : PasswordLib (H × UserCall) where
  toLowercase := lib.toLowercase
  hashPasswordWithSalt password salt :=
    (lib.hashPasswordWithSalt password salt).map (fun hash => (hash, c))
  verifyPassword hash password := lib.verifyPassword hash.1 password

theorem tagged_along (lib : PasswordLib H) (c : UserCall) :
    Along Prod.fst (tagged lib c) lib where
  toLowercase := rfl
  hash password salt := by
    simp only [tagged]
    cases lib.hashPasswordWithSalt password salt <;> rfl
  verify _ _ := rfl

section Along

variable {f : H' → H} {lib' : PasswordLib H'} {lib : PasswordLib H} {env : UserEnv}

theorem schema_through (f : H' → H) :
    (usersSchema H').Through (usersSchema H) (mapHash f) where
  checks _ := rfl
  key _ := rfl

theorem execute_map {α : Type} (env : UserEnv) {t : Users H'}
    {statement : Users H → Except Violation (α × Users H)}
    {statement' : Users H' → Except Violation (α × Users H')}
    (h : statement (t.map (mapHash f)) =
      (statement' t).map (fun a => (a.1, a.2.map (mapHash f)))) :
    execute env (t.map (mapHash f)) statement =
      ((execute env t statement').1, (execute env t statement').2.map (mapHash f)) := by
  unfold execute
  rw [h]
  cases env.changeFails with
  | true => rfl
  | false =>
    cases statement' t with
    | error v => cases v <;> rfl
    | ok a => rfl

/-- The row may depend on the table, as its id does. -/
theorem execute_insert_map (env : UserEnv) {t : Users H'} (row : Users H → UsersRow H)
    (row' : Users H' → UsersRow H') (h : row (t.map (mapHash f)) = mapHash f (row' t)) :
    execute env (t.map (mapHash f))
        (fun t => (insert (usersSchema H) (row t) t).map (fun t => ((), t))) =
      ((execute env t (fun t => (insert (usersSchema H') (row' t) t).map (fun t => ((), t)))).1,
        (execute env t (fun t => (insert (usersSchema H') (row' t) t).map
          (fun t => ((), t)))).2.map (mapHash f)) := by
  refine execute_map env ?_
  rw [h, insert_map (schema_through f)]
  cases insert (usersSchema H') (row' t) t <;> rfl

theorem execute_update_map (env : UserEnv) {p : UsersRow H → Bool} {g : UsersRow H → UsersRow H}
    (p' : UsersRow H' → Bool) (g' : UsersRow H' → UsersRow H')
    (hp : ∀ r, p (mapHash f r) = p' r) (hg : ∀ r, g (mapHash f r) = mapHash f (g' r))
    (t : Users H') :
    execute env (t.map (mapHash f)) (updateWhere (usersSchema H) p g) =
      ((execute env t (updateWhere (usersSchema H') p' g')).1,
        (execute env t (updateWhere (usersSchema H') p' g')).2.map (mapHash f)) :=
  execute_map env (updateWhere_map (schema_through f) hp hg t)

theorem execute_delete_map (env : UserEnv) {p : UsersRow H → Bool} (p' : UsersRow H' → Bool)
    (hp : ∀ r, p (mapHash f r) = p' r) (t : Users H') :
    execute env (t.map (mapHash f)) (fun t => .ok (deleteWhere p t)) =
      ((execute env t (fun t => .ok (deleteWhere p' t))).1,
        (execute env t (fun t => .ok (deleteWhere p' t))).2.map (mapHash f)) :=
  execute_map env (congrArg Except.ok (deleteWhere_map hp t))

theorem hashPassword_map (h : Along f lib' lib) (env : UserEnv) (password : String) :
    hashPassword lib env password = (hashPassword lib' env password).map f := by
  unfold hashPassword
  rw [h.hash]
  cases lib'.hashPasswordWithSalt password env.salt <;> rfl

theorem validatePassword_map (h : Along f lib' lib) (password : String) :
    validatePassword lib password = validatePassword lib' password := by
  unfold validatePassword
  rw [h.toLowercase]

theorem nextId_map (t : Users H') :
    nextId UsersRow.id (t.map (mapHash f)) = nextId UsersRow.id t := by
  unfold nextId
  rw [List.map_map]
  rfl

theorem internalInsertUser_map (h : Along f lib' lib) (username password : String)
    (role : RolesUser) (permissions : ActionPermissions) (mustChangePw : Int) (ignore : Bool)
    (t : Users H') :
    internalInsertUser lib env username password role permissions mustChangePw ignore
        (t.map (mapHash f)) =
      ((internalInsertUser lib' env username password role permissions mustChangePw ignore t).1,
        (internalInsertUser lib' env username password role permissions mustChangePw ignore
          t).2.map (mapHash f)) := by
  unfold internalInsertUser
  rw [validatePassword_map h]
  cases (if ignore then Except.ok () else validatePassword lib' password) with
  | error e => rfl
  | ok u =>
    rw [hashPassword_map h]
    cases hashPassword lib' env password with
    | error e => rfl
    | ok hash =>
      have hrow : (⟨nextId UsersRow.id (t.map (mapHash f)), username, f hash, role,
            permissions.bits, mustChangePw, 1, none⟩ : UsersRow H) =
          mapHash f ⟨nextId UsersRow.id t, username, hash, role, permissions.bits,
            mustChangePw, 1, none⟩ := by
        rw [nextId_map]
        rfl
      have hexec := execute_insert_map env
        (fun t => ⟨nextId UsersRow.id t, username, f hash, role, permissions.bits,
          mustChangePw, 1, none⟩)
        (fun t => ⟨nextId UsersRow.id t, username, hash, role, permissions.bits,
          mustChangePw, 1, none⟩) hrow
      dsimp only [Except.map] at hexec ⊢
      rw [hexec]
      generalize execute env t _ = result
      obtain ⟨answer, t'⟩ := result
      cases answer with
      | ok u => rfl
      | error e => cases e <;> rfl

theorem createUser_map (h : Along f lib' lib) (caller : CallerContext)
    (username password : String) (role : RolesUser) (permissions : ActionPermissions)
    (mustBeChanged : Bool) (t : Users H') :
    createUser lib env caller username password role permissions mustBeChanged
        (t.map (mapHash f)) =
      ((createUser lib' env caller username password role permissions mustBeChanged t).1,
        (createUser lib' env caller username password role permissions mustBeChanged
          t).2.map (mapHash f)) := by
  unfold createUser
  split
  · exact internalInsertUser_map h ..
  · rfl

theorem bootstrapDefaultAdmin_map (h : Along f lib' lib) (t : Users H') :
    bootstrapDefaultAdmin lib env (t.map (mapHash f)) =
      ((bootstrapDefaultAdmin lib' env t).1,
        (bootstrapDefaultAdmin lib' env t).2.map (mapHash f)) := by
  unfold bootstrapDefaultAdmin createDefaultAdmin
  rw [List.length_map, internalInsertUser_map h]
  split
  · rfl
  · split
    · generalize internalInsertUser lib' env _ _ _ _ _ _ t = result
      obtain ⟨answer, t'⟩ := result
      cases answer with
      | ok u => rfl
      | error e => cases e <;> rfl
    · rfl

theorem deleteUser_map (username : String) (caller : CallerContext) (t : Users H') :
    deleteUser env username caller (t.map (mapHash f)) =
      ((deleteUser env username caller t).1,
        (deleteUser env username caller t).2.map (mapHash f)) := by
  unfold deleteUser
  rw [execute_delete_map env (fun r => r.username = username) (fun r => rfl)]
  split
  · generalize execute env t _ = result
    obtain ⟨answer, t'⟩ := result
    cases answer with
    | error e => rfl
    | ok n =>
      simp only
      split <;> rfl
  · rfl

theorem newPasswordHash_map (h : Along f lib' lib) (password : Option String) :
    newPasswordHash lib env password = (newPasswordHash lib' env password).map (Option.map f) := by
  cases password with
  | none => rfl
  | some password =>
    simp only [newPasswordHash, validatePassword_map h, hashPassword_map h]
    cases validatePassword lib' password with
    | error e => rfl
    | ok u => cases hashPassword lib' env password <;> rfl

theorem modify_map (role : RolesUser) (permissions : ActionPermissions) (isActive : Int)
    (hash : Option H') (r : UsersRow H') :
    (mapHash f r).modify role permissions isActive (hash.map f) =
      mapHash f (r.modify role permissions isActive hash) := by
  cases hash <;> rfl

theorem modifyUser_map (h : Along f lib' lib) (caller : CallerContext) (target : String)
    (role : RolesUser) (permissions : ActionPermissions) (isActive : Int)
    (password : Option String) (t : Users H') :
    modifyUser lib env caller target role permissions isActive password (t.map (mapHash f)) =
      ((modifyUser lib' env caller target role permissions isActive password t).1,
        (modifyUser lib' env caller target role permissions isActive password
          t).2.map (mapHash f)) := by
  unfold modifyUser
  rw [newPasswordHash_map h]
  split
  · cases newPasswordHash lib' env password with
    | error e => rfl
    | ok hash =>
      simp only [Except.map]
      rw [execute_update_map env (fun r => r.username = target)
        (.modify role permissions isActive hash) (fun r => rfl)
        (modify_map role permissions isActive hash)]
      generalize execute env t _ = result
      obtain ⟨answer, t'⟩ := result
      cases answer with
      | error e => rfl
      | ok n =>
        simp only
        split <;> rfl
  · rfl

theorem changePassword_map (h : Along f lib' lib) (userId : Int) (password : String)
    (t : Users H') :
    changePassword lib env userId password (t.map (mapHash f)) =
      ((changePassword lib' env userId password t).1,
        (changePassword lib' env userId password t).2.map (mapHash f)) := by
  unfold changePassword
  rw [validatePassword_map h, hashPassword_map h]
  cases validatePassword lib' password with
  | error e => rfl
  | ok u =>
    cases hashPassword lib' env password with
    | error e => rfl
    | ok hash =>
      simp only [Except.map]
      rw [execute_update_map env (fun r => r.id = userId)
        (fun r => { r with passwordHash := hash, passwordMustBeChanged := 0 })
        (fun r => rfl) (fun r => rfl)]
      generalize execute env t _ = result
      obtain ⟨answer, t'⟩ := result
      cases answer with
      | error e => rfl
      | ok n =>
        simp only
        split <;> rfl

theorem changeUsername_map (caller : CallerContext) (current new : String) (t : Users H') :
    changeUsername env caller current new (t.map (mapHash f)) =
      ((changeUsername env caller current new t).1,
        (changeUsername env caller current new t).2.map (mapHash f)) := by
  unfold changeUsername
  rw [execute_update_map env (fun r => r.username = current)
    (fun r => { r with username := new }) (fun r => rfl) (fun r => rfl)]
  split
  · generalize execute env t _ = result
    obtain ⟨answer, t'⟩ := result
    cases answer with
    | ok n =>
      simp only
      split <;> rfl
    | error e => cases e <;> rfl
  · rfl

theorem authenticate_map (h : Along f lib' lib) (username password : String) (t : Users H') :
    ((authenticate lib env username password (t.map (mapHash f))).1.map (fun _ => ()),
      (authenticate lib env username password (t.map (mapHash f))).2) =
      ((authenticate lib' env username password t).1.map (fun _ => ()),
        (authenticate lib' env username password t).2.map (mapHash f)) := by
  unfold authenticate
  rw [List.find?_map]
  split
  · rfl
  · have hfind : (fun r => decide (r.username = username)) ∘ mapHash f =
        fun r => decide (r.username = username) := rfl
    rw [hfind]
    cases t.find? (fun r => decide (r.username = username)) with
    | none => rfl
    | some user =>
      simp only [Option.map_some]
      by_cases hactive : user.isActive = 0
      · simp only [mapHash, hactive, if_true]
        rfl
      · simp only [mapHash, hactive, if_false, h.verify]
        cases lib'.verifyPassword user.passwordHash password with
        | none => rfl
        | some verified =>
          cases verified with
          | false => rfl
          | true =>
            simp only
            rw [execute_update_map env (fun r => r.id = user.id)
              (fun r => { r with lastLoginAt := some env.now }) (fun r => rfl) (fun r => rfl)]
            generalize execute env t _ = result
            obtain ⟨answer, t'⟩ := result
            cases answer <;> rfl

/-- Every call treats marked hashes as it treats the hashes without their marks. -/
theorem handleUser_map (h : Along f lib' lib) (c : UserCall) (t : Users H') :
    handleUser lib c (t.map (mapHash f)) =
      ((handleUser lib' c t).1, (handleUser lib' c t).2.map (mapHash f)) := by
  unfold handleUser
  cases c.request with
  | bootstrapDefaultAdmin => exact bootstrapDefaultAdmin_map h t
  | createUser => exact createUser_map h ..
  | deleteUser => exact deleteUser_map ..
  | modifyUser => exact modifyUser_map h ..
  | changePassword => exact changePassword_map h ..
  | changeUsername => exact changeUsername_map ..
  | authenticate => exact authenticate_map h ..

end Along

/-- The calls, each on hashes that carry its mark. -/
def traced (lib : PasswordLib H) :
    Machine UserCall (Users (H × UserCall)) (Except UserError Unit) :=
  fun c => handleUser (tagged lib c) c

/-- The marks change neither the answers nor the table. -/
theorem traced_erased (lib : PasswordLib H) (t : Users (H × UserCall)) (calls : List UserCall) :
    outputs (traced lib) t calls = outputs (handleUser lib) (t.map (mapHash Prod.fst)) calls ∧
      (run (traced lib) t calls).map (mapHash Prod.fst) =
        run (handleUser lib) (t.map (mapHash Prod.fst)) calls := by
  induction calls generalizing t with
  | nil => exact ⟨rfl, rfl⟩
  | cons c calls ih =>
    have hstep := handleUser_map (tagged_along lib c) c t
    simp only [outputs_cons, run_cons, hstep]
    exact ⟨congrArg _ (ih _).1, (ih _).2⟩

/-! ## The flag and the mark -/

/-- The password of the call is its user's choice. -/
def Chosen (c : UserCall) : Prop :=
  match c.request with
  | .changePassword .. => True
  | .createUser _ _ _ _ _ mustBeChanged => mustBeChanged = false
  | _ => False

/-- The flag is clear exactly if the mark is a call that clears it. -/
def Matches (calls : List UserCall) (t : Users (H × UserCall)) : Prop :=
  ∀ r ∈ t, (r.passwordMustBeChanged = 0 ↔ Chosen r.passwordHash.2) ∧ r.passwordHash.2 ∈ calls

theorem tagged_hash {lib : PasswordLib H} {c : UserCall} {password : String} {salt : Salt}
    {hash : H × UserCall} (h : (tagged lib c).hashPasswordWithSalt password salt = .ok hash) :
    hash.2 = c ∧ lib.hashPasswordWithSalt password salt = .ok hash.1 := by
  simp only [tagged] at h
  cases hh : lib.hashPasswordWithSalt password salt with
  | error message => simp [hh, Except.map] at h
  | ok hash' =>
    simp only [hh, Except.map, Except.ok.injEq] at h
    subst h
    exact ⟨rfl, rfl⟩

theorem newPasswordHash_tagged {lib : PasswordLib H} {c : UserCall} {env : UserEnv}
    {password : Option String} {hash : H × UserCall}
    (h : newPasswordHash (tagged lib c) env password = .ok (some hash)) : hash.2 = c := by
  obtain ⟨_, -, -, hhash⟩ := newPasswordHash_eq_some h
  exact (tagged_hash hhash).1

theorem matches_append {calls : List UserCall} {t : Users (H × UserCall)}
    {row : UsersRow (H × UserCall)} (ht : Matches calls t) (hrow : Matches calls [row]) :
    Matches calls (t ++ [row]) := by
  intro r hr
  rcases List.mem_append.mp hr with hr | hr
  · exact ht r hr
  · exact hrow r hr

theorem matches_rewrite {calls : List UserCall} {t : Users (H × UserCall)}
    {p : UsersRow (H × UserCall) → Bool} {g : UsersRow (H × UserCall) → UsersRow (H × UserCall)}
    (ht : Matches calls t) (hg : ∀ r ∈ t, Matches calls [g r]) :
    Matches calls (rewrite p g t) :=
  forall_rewrite ht fun r hr => hg r hr _ (List.mem_singleton_self _)

theorem matches_singleton {calls : List UserCall} {row : UsersRow (H × UserCall)} :
    Matches calls [row] ↔
      (row.passwordMustBeChanged = 0 ↔ Chosen row.passwordHash.2) ∧ row.passwordHash.2 ∈ calls := by
  simp [Matches]

theorem matches_step (lib : PasswordLib H) {pre : List UserCall} {t : Users (H × UserCall)}
    (c : UserCall) (h : Matches pre t) : Matches (pre ++ [c]) (traced lib c t).2 := by
  have ht : Matches (pre ++ [c]) t := fun r hr =>
    ⟨(h r hr).1, List.mem_append_left _ (h r hr).2⟩
  have hmem : c ∈ pre ++ [c] := by simp
  have heffect := handleUser_effect (tagged lib c) c t
  change Effect (tagged lib c) c t (traced lib c t).1 (traced lib c t).2 at heffect
  generalize (traced lib c t).1 = answer, (traced lib c t).2 = t' at heffect
  cases heffect with
  | none => exact ht
  | @created caller password mustBeChanged row hc hflag hrow =>
    refine matches_append ht (matches_singleton.mpr ?_)
    rw [(tagged_hash hrow.hash).1, hflag, Chosen, hc]
    cases mustBeChanged <;> simp [hmem]
  | bootstrapped row hc ht hadmin hflag hrow =>
    refine matches_singleton.mpr ?_
    rw [(tagged_hash hrow.hash).1, hflag, Chosen, hc]
    simp [hmem]
  | deleted hc hmay hcalm => exact fun r hr => ht r (List.mem_of_mem_filter hr)
  | @modified caller target role permissions isActive password hash hc hhash =>
    refine matches_rewrite ht fun r hr => matches_singleton.mpr ?_
    cases hash with
    | none => exact ht r hr
    | some hash =>
      simp only [UsersRow.modify, Option.getD_some, newPasswordHash_tagged hhash, Chosen, hc]
      simp [hmem]
  | passwordChanged hash hc hhash =>
    refine matches_rewrite ht fun r hr => matches_singleton.mpr ?_
    simp only [(tagged_hash (hashPassword_eq_ok hhash)).1, Chosen, hc]
    simp [hmem]
  | renamed hc => exact matches_rewrite ht fun r hr => matches_singleton.mpr (ht r hr)
  | loggedIn id hc => exact matches_rewrite ht fun r hr => matches_singleton.mpr (ht r hr)

theorem matches_run (lib : PasswordLib H) (calls : List UserCall) :
    Matches calls (run (traced lib) [] calls) :=
  history (C := fun _ _ => True) (I := Matches) (fun r hr => absurd hr (by simp))
    (fun pre t c h _ => matches_step lib c h) calls (always_of_forall _ _ (fun _ _ => trivial))

/-! ## Calls that keep the passwords -/

/-- The hash and the flag of every row. -/
def secrets (t : Users H) : List (Int × H × Int) :=
  t.map (fun r => (r.id, r.passwordHash, r.passwordMustBeChanged))

/-- Calls that set no password. -/
def Quiet (c : UserCall) : Prop :=
  match c.request with
  | .modifyUser _ _ _ _ _ none => True
  | .changeUsername .. => True
  | .authenticate .. => True
  | _ => False

/-- A call that fails or sets no password keeps the hash and the flag of every row. -/
def KeepsSecrets (lib : PasswordLib H) (t : Users H) (c : UserCall) : Prop :=
  ((∃ e, (handleUser lib c t).1 = .error e) ∨ Quiet c) →
    secrets (handleUser lib c t).2 = secrets t

theorem nodup_ids_step (lib : PasswordLib H) (t : Users H) (c : UserCall)
    (ht : (t.map UsersRow.id).Nodup) : ((handleUser lib c t).2.map UsersRow.id).Nodup := by
  have heffect := handleUser_effect lib c t
  generalize (handleUser lib c t).1 = answer, (handleUser lib c t).2 = t' at heffect
  cases heffect with
  | none => exact ht
  | created row hc hflag hrow =>
    rw [List.map_append]
    refine nodup_append_fresh ht ?_
    rw [hrow.id]
    exact nextId_fresh UsersRow.id t
  | bootstrapped row => simp
  | deleted hc hmay hcalm => exact ht.sublist (List.filter_sublist.map _)
  | modified | passwordChanged | renamed | loggedIn =>
    rw [map_rewrite]
    · exact ht
    · exact fun r _ _ => rfl

theorem keepsSecrets_of_nodup (lib : PasswordLib H) {t : Users H} (c : UserCall)
    (ht : (t.map UsersRow.id).Nodup) : KeepsSecrets lib t c := by
  intro h
  have heffect := handleUser_effect lib c t
  generalize (handleUser lib c t).1 = answer, (handleUser lib c t).2 = t' at h heffect
  cases heffect with
  | none => rfl
  | created row hc => simp [Quiet, hc] at h
  | bootstrapped row hc => simp [Quiet, hc] at h
  | deleted hc => simp [Quiet, hc] at h
  | @modified caller target role permissions isActive password hash hc hhash =>
    cases password with
    | none =>
      obtain rfl : none = hash := by simpa [newPasswordHash] using hhash
      exact map_rewrite (fun r _ _ => rfl)
    | some password => simp [Quiet, hc] at h
  | passwordChanged hash hc hhash answer hanswer =>
    have hone := countP_le_one ht
    rcases hanswer with rfl | hmany
    · simp [Quiet, hc] at h
    · exact absurd hmany (not_lt.mpr (hone _))
  | renamed hc => exact map_rewrite (fun r _ _ => rfl)
  | loggedIn id hc => exact map_rewrite (fun r _ _ => rfl)

/-- After every sequence of calls the flag of a row is clear exactly if its hash is
marked with a call that clears it; the marks change neither the answers nor the
table, and no call that fails or sets no password changes a hash or a flag. -/
theorem flag_matches_origin (lib : PasswordLib H) (calls : List UserCall) :
    Matches calls (run (traced lib) [] calls) ∧
      outputs (traced lib) [] calls = outputs (handleUser lib) [] calls ∧
      (run (traced lib) [] calls).map (mapHash Prod.fst) = run (handleUser lib) [] calls ∧
      Always (handleUser lib) (KeepsSecrets lib) [] calls := by
  obtain ⟨houtputs, hrun⟩ := traced_erased lib [] calls
  refine ⟨matches_run lib calls, houtputs, hrun, ?_⟩
  exact always_of_invariant (C := fun _ _ => True) (I := fun t => (t.map UsersRow.id).Nodup)
    (fun t c ht _ => ⟨keepsSecrets_of_nodup lib c ht, nodup_ids_step lib t c ht⟩) [] calls (by simp)
    (always_of_forall _ _ (fun _ _ => trivial))

end Oxidrop.Provenance
