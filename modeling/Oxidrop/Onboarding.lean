import Oxidrop.Passwords
import Oxidrop.Revocation

/-!
# The first password change

A fresh installation has one account, whose password everybody knows. It is worth a
login and a password change, and nothing else: whoever passes the layers of a restricted
endpoint has an account whose password has been set in the run and has passed the checks.
-/
namespace Oxidrop.Server

open Run Table Routing Management Operation Passwords

variable {H S K : Type}

/-! ## Passwords that calls set -/

/-- Every row without the flag has an id and a hash with `P`. -/
def Unflagged (P : Int → H → Prop) (t : Users H) : Prop :=
  ∀ r ∈ t, r.passwordMustBeChanged = 0 → P r.id r.passwordHash

section Calls

variable {pw : PasswordLib H} {c : UserCall} {t : Users H} {P : Int → H → Prop}

/-- A call that sets a password keeps `P`, if the rows that get its hash have it. -/
theorem unflagged_set (h : Unflagged P t)
    (hnew : ∀ r ∈ (handleUser pw c t).2, ∀ password, newPassword c.request = some password →
      pw.hashPasswordWithSalt password c.env.salt = .ok r.passwordHash → P r.id r.passwordHash) :
    Unflagged P (handleUser pw c t).2 := by
  have heffect := handleUser_effect pw c t
  generalize (handleUser pw c t).1 = answer, (handleUser pw c t).2 = t' at heffect hnew ⊢
  cases heffect with
  | none => exact h
  | created row hc hflag hrow =>
    intro r hr hzero
    rcases List.mem_append.mp hr with hmem | hmem
    · exact h r hmem hzero
    · obtain rfl := List.mem_singleton.mp hmem
      exact hnew _ hr _ (by rw [hc]; rfl) hrow.hash
  | bootstrapped row hc ht hadmin hflag hrow =>
    intro r hr hzero
    obtain rfl := List.mem_singleton.mp hr
    rw [hflag] at hzero
    cases hzero
  | deleted => exact fun r hr => h r (List.mem_of_mem_filter hr)
  | modified hash hc hhash =>
    intro r hr hzero
    rcases mem_rewrite hr with ⟨hr, -⟩ | ⟨r₀, hr₀, -, rfl⟩
    · exact h r hr hzero
    · cases hash with
      | none => exact h r₀ hr₀ hzero
      | some hash => cases hzero
  | passwordChanged hash hc hhash =>
    intro r hr hzero
    rcases mem_rewrite hr with ⟨hmem, -⟩ | ⟨r₀, hr₀, -, rfl⟩
    · exact h r hmem hzero
    · exact hnew _ hr _ (by rw [hc]; rfl) (hashPassword_eq_ok hhash)
  | renamed => exact forall_rewrite h fun r hr => h r hr
  | loggedIn => exact forall_rewrite h fun r hr => h r hr

/-- A call whose password the checks reject changes nothing. -/
theorem unflagged_step (h : Unflagged P t)
    (hnew : ∀ r ∈ (handleUser pw c t).2, ∀ password, newPassword c.request = some password →
      Accepted pw password → pw.hashPasswordWithSalt password c.env.salt = .ok r.passwordHash →
      P r.id r.passwordHash) :
    Unflagged P (handleUser pw c t).2 := by
  by_cases hinvalid : ∃ password, newPassword c.request = some password ∧ ¬ Accepted pw password
  · obtain ⟨password, hc, hrejected⟩ := hinvalid
    rcases validatePassword_cases pw password with ⟨haccepted, -⟩ | ⟨-, message, he⟩
    · exact absurd haccepted hrejected
    · rw [handleUser_invalid hc he]
      exact h
  · refine unflagged_set h fun r hr password hc => hnew r hr password hc ?_
    by_contra hrejected
    exact hinvalid ⟨password, hc, hrejected⟩

end Calls

/-! ## Passwords that are set in a run -/

section Runs

variable (pw : PasswordLib H) (lib : SessionLib H S K) (nt : NetworkTypes)
  (s₀ : ServerState H S K)

/-- The event is the call of a request that sets an accepted password, and the row has its
hash afterwards. -/
def Setting (s : ServerState H S K) (e : ServerEvent K) (id : Int) (hash : H) : Prop :=
  ∃ n env f request password, e = .proceed n env ∧ s.inFlight[n]? = some f ∧
    f.stage = .handler ∧ f.Calls request ∧ newPassword request = some password ∧
    Accepted pw password ∧ pw.hashPasswordWithSalt password env.user.salt = .ok hash ∧
    ∃ r ∈ (server pw lib nt e s).2.users, r.id = id ∧ r.passwordHash = hash

/-- An earlier event has set the password of the account. -/
def SetInRun (es : List (ServerEvent K)) (id : Int) (hash : H) : Prop :=
  ∃ earlier e later, es = earlier ++ e :: later ∧
    Setting pw lib nt (run (server pw lib nt) s₀ earlier) e id hash

variable {pw lib nt s₀}

theorem SetInRun.later {es : List (ServerEvent K)} {id : Int} {hash : H}
    (h : SetInRun pw lib nt s₀ es id hash) (more : List (ServerEvent K)) :
    SetInRun pw lib nt s₀ (es ++ more) id hash := by
  obtain ⟨earlier, e, later, rfl, hset⟩ := h
  exact ⟨earlier, e, later ++ more, by simp, hset⟩

theorem unflagged_run (h₀ : ∀ r ∈ s₀.users, r.passwordMustBeChanged ≠ 0)
    (es : List (ServerEvent K)) :
    Unflagged (SetInRun pw lib nt s₀ es) (run (server pw lib nt) s₀ es).users := by
  induction es using List.reverseRecOn with
  | nil => exact fun r hr hzero => absurd hzero (h₀ r hr)
  | append_singleton es e ih =>
    have hold : Unflagged (SetInRun pw lib nt s₀ (es ++ [e]))
        (run (server pw lib nt) s₀ es).users := fun r hr hzero => (ih r hr hzero).later [e]
    rw [run_concat]
    rcases users_step e (run (server pw lib nt) s₀ es) with heq |
      ⟨n, env, f, request, rfl, hf, hstage, hcalls, heq⟩
    · rwa [heq]
    · rw [heq]
      refine unflagged_step hold fun r hr password hc haccepted hhash => ?_
      exact ⟨es, _, [], rfl, n, env, f, request, password, rfl, hf, hstage, hcalls, hc,
        haccepted, hhash, r, heq ▸ hr, rfl, rfl⟩

end Runs

/-- In a run in which every account first has a password to change, every request for a
restricted endpoint that passes its layers acts for an account whose password has been set
by an earlier request of the run and has passed the checks. -/
theorem restricted_after_change (pw : PasswordLib H) (lib : SessionLib H S K)
    (nt : NetworkTypes) (hlib : lib.Lawful) (s₀ : ServerState H S K)
    (hflags : ∀ r ∈ s₀.users, r.passwordMustBeChanged ≠ 0) (h₀ : s₀.inFlight = [])
    (es : List (ServerEvent K)) (f : Flight H K)
    (hf : f ∈ (run (server pw lib nt) s₀ es).inFlight)
    (hrestricted : .requireCompletedPasswordChange ∈ f.endpoint.layers) :
    ∃ user, f.user = some user ∧ SetInRun pw lib nt s₀ es user.id user.passwordHash := by
  have hadmitted : Admitted pw lib nt s₀ es f := admitted_run hlib h₀ es f hf
  have hlayers : f.endpoint.layers = [.loginRequired, .requireCompletedPasswordChange] := by
    generalize f.endpoint = endpoint at hrestricted ⊢
    cases endpoint <;> first | rfl | simp [Endpoint.layers] at hrestricted
  obtain ⟨user, huser, hflag⟩ := restricted_passes hlayers hadmitted.layers
  obtain ⟨earlier, method, path, queryFails, later, rfl, r, hr, -, rfl⟩ := hadmitted.user user huser
  have hzero : r.passwordMustBeChanged = 0 := by
    simpa [UsersRow.toAppUser] using hflag
  exact ⟨_, huser, (unflagged_run hflags earlier r hr hzero).later _⟩

theorem restricted_after_change_onboarding :
    SetInRun saltedLib listSessions rfcTypes freshServer secondAccount 1 (goodPassword, [1]) := by
  have h := restricted_after_change saltedLib listSessions rfcTypes listSessions_lawful freshServer
    (by decide +kernel) rfl secondAccount
    ⟨0, .createUser, .createUser "viewer" "twelve drummers drumming" .viewer .NONE true,
      some onboardedAdmin.toAppUser, .handler⟩ ?_ (by decide)
  · obtain ⟨user, huser, hset⟩ := h
    cases huser
    exact hset
  · exact List.mem_of_getElem? (i := 0) rfl

end Oxidrop.Server
