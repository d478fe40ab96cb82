import Oxidrop.Users

/-!
# Sessions

The session layer is a library. It keeps for each client the user that has logged in
and the hash of that moment, and before each request it looks the user up again. What
is relied on is that it never invents a session, and that it hands a user on only if
the hash is still the one of the login.
-/
namespace Oxidrop

open Table

variable {H S K : Type}

structure SessionData (H : Type) where
  userId : Int
  authHash : H
  deriving DecidableEq, Repr

/-- `AuthUser::session_auth_hash`. -/
def AppUser.sessionAuthHash (user : AppUser H) : H := user.passwordHash

def AppUser.sessionData (user : AppUser H) : SessionData H := ⟨user.id, user.sessionAuthHash⟩

abbrev UserLookup (H : Type) := Int → Except UserError (Option (AppUser H))

/-- The state `S` of the store may decide which of the operations fail. -/
structure SessionLib (H S K : Type) where
  data : S → K → Option (SessionData H)
  load : UserLookup H → K → S → Except UserError (Option (AppUser H)) × S
  login : AppUser H → K → S → Except String Unit × S
  logout : K → S → Except String Unit × S
  expire : K → S → S

/-- Sessions may end, and no other thing happens to them. -/
def SessionLib.OnlyEnds (lib : SessionLib H S K) (s s' : S) : Prop :=
  ∀ k, lib.data s' k = lib.data s k ∨ lib.data s' k = none

/-- What the library documents. -/
structure SessionLib.Lawful (lib : SessionLib H S K) : Prop where
  load_ends : ∀ getUser k s, lib.OnlyEnds s (lib.load getUser k s).2
  load_user : ∀ getUser k s user, (lib.load getUser k s).1 = .ok (some user) →
    ∃ d, lib.data s k = some d ∧ getUser d.userId = .ok (some user) ∧
      user.sessionAuthHash = d.authHash
  login_data : ∀ user k s k', lib.data (lib.login user k s).2 k' = lib.data s k' ∨
    lib.data (lib.login user k s).2 k' = none ∨
      (k' = k ∧ lib.data (lib.login user k s).2 k' = some user.sessionData)
  logout_ends : ∀ k s, lib.OnlyEnds s (lib.logout k s).2
  logout_done : ∀ k s, (lib.logout k s).1 = .ok () → lib.data (lib.logout k s).2 k = none
  expire_ends : ∀ k s, lib.OnlyEnds s (lib.expire k s)

/-- `Database::get_user`. -/
def getUser (queryFails : Bool) (t : Users H) : UserLookup H := fun userId =>
  if queryFails then .error (.database .statement)
  else .ok ((t.find? fun r => r.id = userId ∧ r.isActive = 1).map UsersRow.toAppUser)

theorem getUser_eq_some {queryFails : Bool} {t : Users H} {userId : Int} {user : AppUser H}
    (h : getUser queryFails t userId = .ok (some user)) :
    ∃ r ∈ t, r.id = userId ∧ r.isActive = 1 ∧ r.toAppUser = user := by
  unfold getUser at h
  split at h
  · cases h
  · obtain ⟨r, hr, huser⟩ := Option.map_eq_some_iff.mp (Except.ok.inj h)
    have hp := List.find?_some hr
    simp only [decide_eq_true_eq] at hp
    exact ⟨r, List.mem_of_find?_eq_some hr, hp.1, hp.2, huser⟩

@[simp] theorem toAppUser_id (r : UsersRow H) : r.toAppUser.id = r.id := rfl
@[simp] theorem toAppUser_role (r : UsersRow H) : r.toAppUser.role = r.role := rfl
@[simp] theorem toAppUser_passwordHash (r : UsersRow H) :
    r.toAppUser.passwordHash = r.passwordHash := rfl
@[simp] theorem toAppUser_sessionData (r : UsersRow H) :
    r.toAppUser.sessionData = ⟨r.id, r.passwordHash⟩ := rfl

/-- The session acts for an active row with the id and the hash of its login. -/
structure ActsFor (lib : SessionLib H S K) (sessions : S) (k : K) (r : UsersRow H) : Prop where
  data : lib.data sessions k = some ⟨r.id, r.passwordHash⟩
  active : r.isActive = 1

/-- A request acts for the account of its session, as the table has it now. -/
theorem SessionLib.Lawful.load_account {lib : SessionLib H S K} (hlib : lib.Lawful)
    {queryFails : Bool} {t : Users H} {k : K} {s : S} {user : AppUser H}
    (h : (lib.load (getUser queryFails t) k s).1 = .ok (some user)) :
    ∃ r ∈ t, ActsFor lib s k r ∧ r.toAppUser = user := by
  obtain ⟨d, hd, hget, hhash⟩ := hlib.load_user _ k s user h
  obtain ⟨r, hr, hid, hactive, rfl⟩ := getUser_eq_some hget
  refine ⟨r, hr, ⟨?_, hactive⟩, rfl⟩
  rw [hd, hid]
  exact congrArg some (congrArg (SessionData.mk d.userId) hhash.symm)

/-- A store that holds its sessions in a list and never fails. -/
def listSessions [DecidableEq H] [DecidableEq K] :
    SessionLib H (List (K × SessionData H)) K where
  data s k := s.lookup k
  load getUser k s :=
    match s.lookup k with
    | none => (.ok none, s)
    | some d =>
      match getUser d.userId with
      | .error e => (.error e, s)
      | .ok none => (.ok none, s)
      | .ok (some user) =>
        if user.sessionAuthHash = d.authHash then (.ok (some user), s)
        else (.ok none, s.filter fun x => x.1 ≠ k)
  login user k s := (.ok (), (k, user.sessionData) :: s)
  logout k s := (.ok (), s.filter fun x => x.1 ≠ k)
  expire k s := s.filter fun x => x.1 ≠ k

theorem lookup_filter_ne [DecidableEq K] (s : List (K × SessionData H)) (k k' : K) :
    (s.filter fun x => x.1 ≠ k).lookup k' = if k' = k then none else s.lookup k' := by
  induction s with
  | nil => simp
  | cons x s ih =>
    obtain ⟨j, d⟩ := x
    by_cases hjk : j = k
    · subst hjk
      by_cases hk : k' = j
      · simpa [hk] using ih
      · have hbeq : (k' == j) = false := by simpa using hk
        simpa [hk, List.lookup_cons, hbeq] using ih
    · by_cases hk : k' = j
      · subst hk
        simp [hjk]
      · have hbeq : (k' == j) = false := by simpa using hk
        simpa [hjk, List.lookup_cons, hbeq] using ih

theorem listSessions_ends [DecidableEq H] [DecidableEq K] (s : List (K × SessionData H)) (k : K) :
    (listSessions (H := H) (K := K)).OnlyEnds s (s.filter fun x => x.1 ≠ k) := by
  intro k'
  have h := lookup_filter_ne s k k'
  by_cases hk : k' = k
  · exact .inr (by simpa [hk, listSessions] using h)
  · exact .inl (by simpa [hk, listSessions] using h)

theorem listSessions_lawful [DecidableEq H] [DecidableEq K] :
    (listSessions (H := H) (K := K)).Lawful where
  load_ends getUser k s := by
    simp only [listSessions]
    split
    · exact fun _ => .inl rfl
    · split
      · exact fun _ => .inl rfl
      · exact fun _ => .inl rfl
      · split
        · exact fun _ => .inl rfl
        · exact listSessions_ends s k
  load_user getUser k s user h := by
    simp only [listSessions] at h
    split at h
    · cases h
    · rename_i d hd
      split at h
      · cases h
      · cases h
      · rename_i found hget
        split at h
        · rename_i hhash
          cases h
          exact ⟨d, hd, hget, hhash⟩
        · cases h
  login_data user k s k' := by
    by_cases hk : k' = k
    · subst hk
      exact .inr (.inr ⟨rfl, by simp [listSessions]⟩)
    · have hbeq : (k' == k) = false := by simpa using hk
      exact .inl (by simp [listSessions, List.lookup_cons, hbeq])
  logout_ends k s := listSessions_ends s k
  logout_done k s _ := by
    have h := lookup_filter_ne s k k
    simpa [listSessions] using h
  expire_ends k s := listSessions_ends s k

/-- Hashes that keep the password and its salt. -/
def saltedLib : PasswordLib (String × Salt) where
  toLowercase s := String.ofList (s.toList.map Char.toLower)
  hashPasswordWithSalt password salt := .ok (password, salt)
  verifyPassword hash password := some (hash.1 == password)

end Oxidrop
