import Oxidrop.Api
import Oxidrop.Lib.Run
import Oxidrop.Lib.Table

/-!
# User accounts

The users table and the calls that read and change it. Hashes and the lower
case of a string come from libraries, so `PasswordLib` takes them as parameters
and the type of a hash is arbitrary. What a call meets in its environment (the
salt it draws, the clock, statements that fail) is an input.
-/
namespace Oxidrop

open Run Table

abbrev Salt := List UInt8

/-- `verifyPassword` has no answer on a text that is not a hash. -/
structure PasswordLib (H : Type) where
  toLowercase : String → String
  hashPasswordWithSalt : String → Salt → Except String H
  verifyPassword : H → String → Option Bool

/-- A row of the table `users`. -/
structure UsersRow (H : Type) where
  id : Int
  username : String
  passwordHash : H
  role : RolesUser
  actionPermissions : UInt8
  passwordMustBeChanged : Int
  isActive : Int
  lastLoginAt : Option Int
  deriving DecidableEq, Repr

abbrev Users (H : Type) := List (UsersRow H)

/-- The CHECK constraints; `role` has no other values. -/
def UsersRow.checks {H : Type} (r : UsersRow H) : Bool :=
  r.actionPermissions ≤ 7 && (r.passwordMustBeChanged == 0 || r.passwordMustBeChanged == 1) &&
    (r.isActive == 0 || r.isActive == 1)

def usersSchema (H : Type) : Schema (UsersRow H) String := ⟨UsersRow.checks, UsersRow.username⟩

/-- What a call meets in its environment. A call makes at most one query and then
at most one change. -/
structure UserEnv where
  salt : Salt
  now : Int
  queryFails : Bool
  changeFails : Bool
  deriving DecidableEq, Repr

def UserEnv.calm : UserEnv := ⟨[], 0, false, false⟩

/-- A change of the table that may fail for reasons of its own. -/
def execute {H α : Type} (env : UserEnv) (t : Users H)
    (statement : Users H → Except Violation (α × Users H)) : Except SqlxError α × Users H :=
  if env.changeFails then (.error .statement, t)
  else
    match statement t with
    | .error .check => (.error .statement, t)
    | .error .unique => (.error .uniqueViolation, t)
    | .ok (a, t) => (.ok a, t)

/-! ## The calls -/

def DEFAULT_ADMIN_USERNAME : String := "admin"
def DEFAULT_ADMIN_PASSWORD : String := "password"

/-- `ActionPermissions::all()`. -/
def ActionPermissions.all : ActionPermissions := ⟨7⟩

def blacklist : List String :=
  ["password123", "password1234", "admin1234", "admin12345", "qwertyuiop", "letmein123!",
    "Winter2024!"]

section Calls

variable {H : Type} (lib : PasswordLib H) (env : UserEnv)

/-- Lengths are counted in bytes. -/
def validatePassword (password : String) : Except UserError Unit :=
  if password.utf8ByteSize < 12 then
    .error (.weakPassword "Password must be at least 12 characters long.")
  else if 120 < password.utf8ByteSize then
    .error (.weakPassword "Password must not be longer than 120 characters.")
  else if blacklist.contains (lib.toLowercase password) then
    .error (.weakPassword "Password is too common or easily guessable.")
  else .ok ()

/-- `.map_err(|e| UserError::Internal(e.to_string()))`. -/
def hashPassword (password : String) : Except UserError H :=
  match lib.hashPasswordWithSalt password env.salt with
  | .error message => .error (.internal message)
  | .ok hash => .ok hash

def internalInsertUser (username password : String) (role : RolesUser)
    (actionPermissions : ActionPermissions) (mustChangePw : Int) (ignorePasswordCheck : Bool)
    (t : Users H) : Except UserError Unit × Users H :=
  match if ignorePasswordCheck then .ok () else validatePassword lib password with
  | .error e => (.error e, t)
  | .ok _ =>
    match hashPassword lib env password with
    | .error e => (.error e, t)
    | .ok passwordHash =>
      match execute env t fun t =>
          (insert (usersSchema H)
            ⟨nextId UsersRow.id t, username, passwordHash, role, actionPermissions.bits,
              mustChangePw, 1, none⟩ t).map (fun t => ((), t)) with
      | (.ok _, t) => (.ok (), t)
      | (.error .uniqueViolation, t) => (.error (.userExists username), t)
      | (.error e, t) => (.error (.database e), t)

def createUser (caller : CallerContext) (targetUsername targetPassword : String)
    (targetRole : RolesUser) (targetPermissions : ActionPermissions)
    (passwordMustBeChanged : Bool) (t : Users H) : Except UserError Unit × Users H :=
  if caller.may .CREATE then
    internalInsertUser lib env targetUsername targetPassword targetRole targetPermissions
      (if passwordMustBeChanged then 1 else 0) false t
  else (.error .lackingPermission, t)

/-- The log entries that come first are kept elsewhere, and their failure is only
warned about. -/
def createDefaultAdmin (t : Users H) : Except UserError Unit × Users H :=
  match internalInsertUser lib env DEFAULT_ADMIN_USERNAME DEFAULT_ADMIN_PASSWORD .admin
      .all 1 true t with
  | (.ok _, t) => (.ok (), t)
  | (.error (.userExists _), t) => (.ok (), t)
  | (.error e, t) => (.error e, t)

def bootstrapDefaultAdmin (t : Users H) : Except UserError Unit × Users H :=
  if env.queryFails then (.error (.database .statement), t)
  else if t.length = 0 then createDefaultAdmin lib env t
  else (.ok (), t)

def deleteUser (username : String) (caller : CallerContext) (t : Users H) :
    Except UserError Unit × Users H :=
  if caller.may .DELETE then
    match execute env t fun t => .ok (deleteWhere (fun r => r.username = username) t) with
    | (.error e, t) => (.error (.database e), t)
    | (.ok rowsAffected, t) =>
      if rowsAffected = 0 then (.error (.notFound username), t) else (.ok (), t)
  else (.error .lackingPermission, t)

/-- `COALESCE(?, password_hash)` and the `CASE` beside it. -/
def UsersRow.modify (newRole : RolesUser) (newPermissions : ActionPermissions) (isActive : Int)
    (passwordHash : Option H) (r : UsersRow H) : UsersRow H :=
  { r with
    role := newRole
    actionPermissions := newPermissions.bits
    isActive := isActive
    passwordHash := passwordHash.getD r.passwordHash
    passwordMustBeChanged := if passwordHash.isNone then r.passwordMustBeChanged else 1 }

/-- The hash of a new password, if there is one. -/
def newPasswordHash (newPassword : Option String) : Except UserError (Option H) :=
  match newPassword with
  | none => .ok none
  | some password =>
    match validatePassword lib password with
    | .error e => .error e
    | .ok _ => (hashPassword lib env password).map some

def modifyUser (caller : CallerContext) (targetUsername : String) (newRole : RolesUser)
    (newPermissions : ActionPermissions) (isActive : Int) (newPassword : Option String)
    (t : Users H) : Except UserError Unit × Users H :=
  if caller.may .MODIFY then
    match newPasswordHash lib env newPassword with
    | .error e => (.error e, t)
    | .ok passwordHash =>
      match execute env t (updateWhere (usersSchema H) (fun r => r.username = targetUsername)
          (.modify newRole newPermissions isActive passwordHash)) with
      | (.error e, t) => (.error (.database e), t)
      | (.ok rowsAffected, t) =>
        if rowsAffected = 0 then (.error (.notFound targetUsername), t) else (.ok (), t)
  else (.error .lackingPermission, t)

def changePassword (userId : Int) (password : String) (t : Users H) :
    Except UserError Unit × Users H :=
  match validatePassword lib password with
  | .error e => (.error e, t)
  | .ok _ =>
    match hashPassword lib env password with
    | .error e => (.error e, t)
    | .ok passwordHash =>
      match execute env t (updateWhere (usersSchema H) (fun r => r.id = userId)
          (fun r => { r with passwordHash := passwordHash, passwordMustBeChanged := 0 })) with
      | (.error e, t) => (.error (.database e), t)
      | (.ok rowsAffected, t) =>
        if rowsAffected ≠ 1 then (.error (.notFound (toString userId)), t) else (.ok (), t)

def changeUsername (caller : CallerContext) (currentUsername newUsername : String)
    (t : Users H) : Except UserError Unit × Users H :=
  if caller.may .MODIFY then
    match execute env t (updateWhere (usersSchema H) (fun r => r.username = currentUsername)
        (fun r => { r with username := newUsername })) with
    | (.ok rowsAffected, t) =>
      if rowsAffected = 0 then (.error (.notFound currentUsername), t) else (.ok (), t)
    | (.error .uniqueViolation, t) => (.error (.userExists newUsername), t)
    | (.error e, t) => (.error (.database e), t)
  else (.error .lackingPermission, t)

structure AppUser (H : Type) where
  id : Int
  username : String
  role : RolesUser
  permissions : ActionPermissions
  passwordHash : H
  passwordMustBeChanged : Bool
  deriving DecidableEq, Repr

/-- `ActionPermissions::from_bits_truncate`. -/
def ActionPermissions.fromBitsTruncate (bits : UInt8) : ActionPermissions := ⟨bits &&& 7⟩

def UsersRow.toAppUser (r : UsersRow H) : AppUser H where
  id := r.id
  username := r.username
  role := r.role
  permissions := .fromBitsTruncate r.actionPermissions
  passwordHash := r.passwordHash
  passwordMustBeChanged := r.passwordMustBeChanged != 0

def authenticate (username password : String) (t : Users H) :
    Except UserError (Option (AppUser H)) × Users H :=
  if env.queryFails then (.error (.database .statement), t)
  else
    match t.find? (fun r => r.username = username) with
    | none => (.error .invalidCredentials, t)
    | some user =>
      if user.isActive = 0 then (.error .invalidCredentials, t)
      else
        match lib.verifyPassword user.passwordHash password with
        | none => (.error (.internal "Invalid hash stored in DB"), t)
        | some false => (.error .invalidCredentials, t)
        | some true =>
          match execute env t (updateWhere (usersSchema H) (fun r => r.id = user.id)
              (fun r => { r with lastLoginAt := some env.now })) with
          | (.error e, t) => (.error (.database e), t)
          | (.ok _, t) => (.ok (some user.toAppUser), t)

end Calls

/-! ## What a call does to the table -/

inductive UserRequest where
  | bootstrapDefaultAdmin
  | createUser (caller : CallerContext) (targetUsername targetPassword : String)
    (targetRole : RolesUser) (targetPermissions : ActionPermissions)
    (passwordMustBeChanged : Bool)
  | deleteUser (username : String) (caller : CallerContext)
  | modifyUser (caller : CallerContext) (targetUsername : String) (newRole : RolesUser)
    (newPermissions : ActionPermissions) (isActive : Int) (newPassword : Option String)
  | changePassword (userId : Int) (password : String)
  | changeUsername (caller : CallerContext) (currentUsername newUsername : String)
  | authenticate (username password : String)
  deriving DecidableEq, Repr

structure UserCall where
  request : UserRequest
  env : UserEnv
  deriving DecidableEq, Repr

/-- One call. The user that `authenticate` returns is left out of the answer. -/
def handleUser {H : Type} (lib : PasswordLib H) :
    Machine UserCall (Users H) (Except UserError Unit) := fun c t =>
  match c.request with
  | .bootstrapDefaultAdmin => bootstrapDefaultAdmin lib c.env t
  | .createUser caller username password role permissions mustBeChanged =>
    createUser lib c.env caller username password role permissions mustBeChanged t
  | .deleteUser username caller => deleteUser c.env username caller t
  | .modifyUser caller target role permissions isActive password =>
    modifyUser lib c.env caller target role permissions isActive password t
  | .changePassword userId password => changePassword lib c.env userId password t
  | .changeUsername caller current new => changeUsername c.env caller current new t
  | .authenticate username password =>
    ((authenticate lib c.env username password t).1.map (fun _ => ()),
      (authenticate lib c.env username password t).2)

section Effects

variable {H : Type} {lib : PasswordLib H} {env : UserEnv} {t : Users H}

/-- The row that a call inserts, new in its id and its username. -/
structure Inserts (lib : PasswordLib H) (env : UserEnv) (t : Users H) (password : String)
    (row : UsersRow H) : Prop where
  id : row.id = nextId UsersRow.id t
  hash : lib.hashPasswordWithSalt password env.salt = .ok row.passwordHash
  active : row.isActive = 1
  checks : row.checks = true
  fresh : row.username ∉ t.map UsersRow.username

/-- Everything that a call can do to the table, with its answer. -/
inductive Effect (lib : PasswordLib H) (c : UserCall) (t : Users H) :
    Except UserError Unit → Users H → Prop
  | none (answer : Except UserError Unit) : Effect lib c t answer t
  | created {caller : CallerContext} {password : String} {mustBeChanged : Bool}
    (row : UsersRow H)
    (hc : c.request = .createUser caller row.username password row.role
      ⟨row.actionPermissions⟩ mustBeChanged)
    (hflag : row.passwordMustBeChanged = if mustBeChanged then 1 else 0)
    (hrow : Inserts lib c.env t password row) : Effect lib c t (.ok ()) (t ++ [row])
  | bootstrapped (row : UsersRow H) (hc : c.request = .bootstrapDefaultAdmin) (ht : t = [])
    (hadmin : row.username = DEFAULT_ADMIN_USERNAME ∧ row.role = .admin ∧
      row.actionPermissions = ActionPermissions.all.bits)
    (hflag : row.passwordMustBeChanged = 1)
    (hrow : Inserts lib c.env t DEFAULT_ADMIN_PASSWORD row) : Effect lib c t (.ok ()) [row]
  | deleted {username : String} {caller : CallerContext}
    (hc : c.request = .deleteUser username caller) (hmay : caller.may .DELETE = true)
    (hcalm : c.env.changeFails = false) :
    Effect lib c t (.ok ()) (t.filter (fun r => r.username ≠ username))
  | modified {caller : CallerContext} {target : String} {role : RolesUser}
    {permissions : ActionPermissions} {isActive : Int} {password : Option String}
    (passwordHash : Option H)
    (hc : c.request = .modifyUser caller target role permissions isActive password)
    (hhash : newPasswordHash lib c.env password = .ok passwordHash) :
    Effect lib c t (.ok ()) (rewrite (fun r => r.username = target)
      (.modify role permissions isActive passwordHash) t)
  | passwordChanged {userId : Int} {password : String} (passwordHash : H)
    (hc : c.request = .changePassword userId password)
    (hhash : hashPassword lib c.env password = .ok passwordHash)
    (answer : Except UserError Unit)
    (hanswer : answer = .ok () ∨ 1 < t.countP (fun r => r.id = userId)) :
    Effect lib c t answer (rewrite (fun r => r.id = userId)
      (fun r => { r with passwordHash := passwordHash, passwordMustBeChanged := 0 }) t)
  | renamed {caller : CallerContext} {current new : String}
    (hc : c.request = .changeUsername caller current new)
    (hkeys : ((rewrite (fun r => r.username = current)
      (fun r => { r with username := new }) t).map UsersRow.username).Nodup) :
    Effect lib c t (.ok ()) (rewrite (fun r => r.username = current)
      (fun r => { r with username := new }) t)
  | loggedIn {username password : String} (id : Int)
    (hc : c.request = .authenticate username password) :
    Effect lib c t (.ok ()) (rewrite (fun r => r.id = id)
      (fun r => { r with lastLoginAt := some c.env.now }) t)

/-- A change fails and leaves the table alone, or it takes effect. -/
theorem execute_cases {α : Type} (env : UserEnv) (t : Users H)
    (statement : Users H → Except Violation (α × Users H)) :
    (∃ e, execute env t statement = (.error e, t)) ∨
      (∃ a t', execute env t statement = (.ok a, t') ∧ env.changeFails = false ∧
        statement t = .ok (a, t')) := by
  unfold execute
  cases hf : env.changeFails with
  | true => exact .inl ⟨.statement, rfl⟩
  | false =>
    cases hs : statement t with
    | error v => cases v <;> exact .inl ⟨_, rfl⟩
    | ok a => exact .inr ⟨a.1, a.2, rfl, rfl, rfl⟩

theorem hashPassword_eq_ok {password : String} {hash : H}
    (h : hashPassword lib env password = .ok hash) :
    lib.hashPasswordWithSalt password env.salt = .ok hash := by
  unfold hashPassword at h
  cases hh : lib.hashPasswordWithSalt password env.salt with
  | error message => simp [hh] at h
  | ok hash' => simpa [hh] using h

/-- The hash of a new password is that of a password that has been validated. -/
theorem newPasswordHash_eq_some {newPassword : Option String} {hash : H}
    (h : newPasswordHash lib env newPassword = .ok (some hash)) :
    ∃ password, newPassword = some password ∧ validatePassword lib password = .ok () ∧
      lib.hashPasswordWithSalt password env.salt = .ok hash := by
  cases newPassword with
  | none => simp [newPasswordHash] at h
  | some password =>
    simp only [newPasswordHash] at h
    cases hv : validatePassword lib password with
    | error e => simp [hv] at h
    | ok u =>
      cases hh : hashPassword lib env password with
      | error e => simp [hv, hh, Except.map] at h
      | ok hash' =>
        simp only [hv, hh, Except.map, Except.ok.injEq, Option.some.injEq] at h
        subst h
        exact ⟨password, rfl, hv, hashPassword_eq_ok hh⟩

/-- An insertion is refused, or its row is new. -/
theorem internalInsertUser_cases (lib : PasswordLib H) (env : UserEnv) (t : Users H)
    (username password : String) (role : RolesUser)
    (permissions : ActionPermissions) (mustChangePw : Int) (ignore : Bool) :
    (∃ e, internalInsertUser lib env username password role permissions mustChangePw ignore t =
      (.error e, t)) ∨
    (∃ row, internalInsertUser lib env username password role permissions mustChangePw ignore t =
        (.ok (), t ++ [row]) ∧
      row.username = username ∧ row.role = role ∧ row.actionPermissions = permissions.bits ∧
      row.passwordMustBeChanged = mustChangePw ∧ Inserts lib env t password row) := by
  unfold internalInsertUser
  cases hv : (if ignore then Except.ok () else validatePassword lib password) with
  | error e => exact .inl ⟨e, rfl⟩
  | ok u =>
    cases hh : hashPassword lib env password with
    | error e => exact .inl ⟨e, rfl⟩
    | ok hash =>
      simp only
      rcases execute_cases env t (fun t => (insert (usersSchema H)
          ⟨nextId UsersRow.id t, username, hash, role, permissions.bits, mustChangePw, 1, none⟩
          t).map (fun t => ((), t))) with ⟨e, he⟩ | ⟨a, t', he, -, hs⟩
      · rw [he]
        cases e <;> exact .inl ⟨_, rfl⟩
      · rw [he]
        cases hi : insert (usersSchema H)
            ⟨nextId UsersRow.id t, username, hash, role, permissions.bits, mustChangePw, 1, none⟩
            t with
        | error v => simp [hi, Except.map] at hs
        | ok t'' =>
          simp only [hi, Except.map, Except.ok.injEq, Prod.mk.injEq, true_and] at hs
          subst hs
          obtain ⟨hchecks, hfresh, rfl⟩ := insert_eq_ok_iff.mp hi
          exact .inr ⟨_, rfl, rfl, rfl, rfl, rfl, rfl, hashPassword_eq_ok hh, rfl, hchecks, hfresh⟩

theorem createUser_effect {caller : CallerContext} {username password : String}
    {role : RolesUser} {permissions : ActionPermissions} {mustBeChanged : Bool} {c : UserCall}
    (hc : c.request = .createUser caller username password role permissions mustBeChanged) :
    Effect lib c t
      (createUser lib c.env caller username password role permissions mustBeChanged t).1
      (createUser lib c.env caller username password role permissions mustBeChanged t).2 := by
  unfold createUser
  by_cases hmay : caller.may .CREATE = true
  · simp only [hmay, if_true]
    rcases internalInsertUser_cases lib c.env t username password role
        permissions (if mustBeChanged then 1 else 0) false with ⟨e, he⟩ | ⟨row, he, hrow⟩
    · rw [he]
      exact .none _
    · rw [he]
      obtain ⟨rfl, rfl, hperm, hflag, hins⟩ := hrow
      have hperm' : permissions = ⟨row.actionPermissions⟩ := by rw [hperm]
      exact .created row (by rw [hc, hperm']) hflag hins
  · simp only [hmay]
    exact .none _

theorem bootstrapDefaultAdmin_effect {c : UserCall} (hc : c.request = .bootstrapDefaultAdmin) :
    Effect lib c t (bootstrapDefaultAdmin lib c.env t).1
      (bootstrapDefaultAdmin lib c.env t).2 := by
  unfold bootstrapDefaultAdmin createDefaultAdmin
  cases c.env.queryFails with
  | true => exact .none _
  | false =>
    cases t with
    | cons r t => exact .none _
    | nil =>
      simp only [Bool.false_eq_true, if_false, List.length_nil, if_true]
      rcases internalInsertUser_cases lib c.env []
          DEFAULT_ADMIN_USERNAME DEFAULT_ADMIN_PASSWORD .admin .all 1 true with
        ⟨e, he⟩ | ⟨row, he, hname, hrole, hperm, hflag, hins⟩
      · rw [he]
        cases e <;> exact .none _
      · rw [he]
        exact .bootstrapped row hc rfl ⟨hname, hrole, hperm⟩ hflag hins

theorem deleteUser_effect {username : String} {caller : CallerContext} {c : UserCall}
    (hc : c.request = .deleteUser username caller) :
    Effect lib c t (deleteUser c.env username caller t).1
      (deleteUser c.env username caller t).2 := by
  unfold deleteUser
  by_cases hmay : caller.may .DELETE = true
  · simp only [hmay, if_true]
    rcases execute_cases c.env t (fun t => .ok (deleteWhere (fun r => r.username = username) t))
      with ⟨e, he⟩ | ⟨n, t', he, hcalm, hs⟩
    · rw [he]
      exact .none _
    · rw [he]
      obtain ⟨rfl, rfl⟩ := Prod.mk.inj (Except.ok.inj hs)
      by_cases hn : t.countP (fun r => r.username = username) = 0
      · have hkeep : t.filter (fun r => !decide (r.username = username)) = t := by
          rw [List.filter_eq_self]
          intro r hr
          simpa using List.countP_eq_zero.mp hn r hr
        simp only [hn, if_true, hkeep]
        exact .none _
      · simp only [hn, if_false]
        have hdeleted : Effect lib c t (.ok ()) (t.filter (fun r => r.username ≠ username)) :=
          .deleted hc hmay hcalm
        simpa using hdeleted
  · simp only [hmay]
    exact .none _

theorem modifyUser_effect {caller : CallerContext} {target : String} {role : RolesUser}
    {permissions : ActionPermissions} {isActive : Int} {password : Option String} {c : UserCall}
    (hc : c.request = .modifyUser caller target role permissions isActive password) :
    Effect lib c t
      (modifyUser lib c.env caller target role permissions isActive password t).1
      (modifyUser lib c.env caller target role permissions isActive password t).2 := by
  unfold modifyUser
  by_cases hmay : caller.may .MODIFY = true
  · simp only [hmay, if_true]
    cases hh : newPasswordHash lib c.env password with
    | error e => exact .none _
    | ok passwordHash =>
      simp only
      rcases execute_cases c.env t (updateWhere (usersSchema H)
          (fun r => decide (r.username = target)) (.modify role permissions isActive passwordHash))
        with ⟨e, he⟩ | ⟨n, t', he, -, hs⟩
      · rw [he]
        exact .none _
      · rw [he]
        obtain ⟨-, -, rfl, rfl⟩ := updateWhere_eq_ok_iff.mp hs
        by_cases hn : t.countP (fun r => decide (r.username = target)) = 0
        · simp only [hn, if_true, rewrite_of_none hn]
          exact .none _
        · simp only [hn, if_false]
          exact .modified passwordHash hc hh
  · simp only [hmay]
    exact .none _

theorem changePassword_effect {userId : Int} {password : String} {c : UserCall}
    (hc : c.request = .changePassword userId password) :
    Effect lib c t (changePassword lib c.env userId password t).1
      (changePassword lib c.env userId password t).2 := by
  unfold changePassword
  cases validatePassword lib password with
  | error e => exact .none _
  | ok u =>
    cases hh : hashPassword lib c.env password with
    | error e => exact .none _
    | ok passwordHash =>
      simp only
      rcases execute_cases c.env t (updateWhere (usersSchema H)
          (fun r => decide (r.id = userId))
          (fun r => { r with passwordHash := passwordHash, passwordMustBeChanged := 0 }))
        with ⟨e, he⟩ | ⟨n, t', he, -, hs⟩
      · rw [he]
        exact .none _
      · rw [he]
        obtain ⟨-, -, rfl, rfl⟩ := updateWhere_eq_ok_iff.mp hs
        by_cases hn : t.countP (fun r => decide (r.id = userId)) = 1
        · simp only [hn, ne_eq, not_true_eq_false, if_false]
          exact .passwordChanged passwordHash hc hh _ (.inl rfl)
        · simp only [ne_eq, hn, not_false_eq_true, if_true]
          by_cases hzero : t.countP (fun r => decide (r.id = userId)) = 0
          · rw [rewrite_of_none hzero]
            exact .none _
          · exact .passwordChanged passwordHash hc hh _ (.inr (by omega))

theorem changeUsername_effect {caller : CallerContext} {current new : String} {c : UserCall}
    (hc : c.request = .changeUsername caller current new) :
    Effect lib c t (changeUsername c.env caller current new t).1
      (changeUsername c.env caller current new t).2 := by
  unfold changeUsername
  by_cases hmay : caller.may .MODIFY = true
  · simp only [hmay, if_true]
    rcases execute_cases c.env t (updateWhere (usersSchema H)
        (fun r => decide (r.username = current)) (fun r => { r with username := new }))
      with ⟨e, he⟩ | ⟨n, t', he, -, hs⟩
    · rw [he]
      cases e <;> exact .none _
    · rw [he]
      obtain ⟨-, hkeys, rfl, rfl⟩ := updateWhere_eq_ok_iff.mp hs
      by_cases hn : t.countP (fun r => decide (r.username = current)) = 0
      · simp only [hn, if_true, rewrite_of_none hn]
        exact .none _
      · simp only [hn, if_false]
        exact .renamed hc hkeys
  · simp only [hmay]
    exact .none _

theorem authenticate_effect {username password : String} {c : UserCall}
    (hc : c.request = .authenticate username password) :
    Effect lib c t ((authenticate lib c.env username password t).1.map (fun _ => ()))
      (authenticate lib c.env username password t).2 := by
  unfold authenticate
  cases c.env.queryFails with
  | true => exact .none _
  | false =>
    cases t.find? (fun r => decide (r.username = username)) with
    | none => exact .none _
    | some user =>
      simp only [Bool.false_eq_true, if_false]
      by_cases hactive : user.isActive = 0
      · simp only [hactive, if_true]
        exact .none _
      · simp only [hactive, if_false]
        cases lib.verifyPassword user.passwordHash password with
        | none => exact .none _
        | some verified =>
          cases verified with
          | false => exact .none _
          | true =>
            simp only
            rcases execute_cases c.env t (updateWhere (usersSchema H)
                (fun r => decide (r.id = user.id))
                (fun r => { r with lastLoginAt := some c.env.now }))
              with ⟨e, he⟩ | ⟨n, t', he, -, hs⟩
            · rw [he]
              exact .none _
            · rw [he]
              obtain ⟨-, -, rfl, rfl⟩ := updateWhere_eq_ok_iff.mp hs
              exact .loggedIn user.id hc

/-- Every call has one of the effects. -/
theorem handleUser_effect (lib : PasswordLib H) (c : UserCall) (t : Users H) :
    Effect lib c t (handleUser lib c t).1 (handleUser lib c t).2 := by
  unfold handleUser
  cases hc : c.request with
  | bootstrapDefaultAdmin => exact bootstrapDefaultAdmin_effect hc
  | createUser => exact createUser_effect hc
  | deleteUser => exact deleteUser_effect hc
  | modifyUser => exact modifyUser_effect hc
  | changePassword => exact changePassword_effect hc
  | changeUsername => exact changeUsername_effect hc
  | authenticate => exact authenticate_effect hc

end Effects

end Oxidrop
