import Oxidrop.Credentials
import Oxidrop.Provenance

/-!
# Revoked sessions

A session is worth as much as its row. When the account is deleted, or its password is
set by somebody else, the sessions that were opened before are dead, and no request finds
a user through them again. Ids are given anew after a deletion, so it is the hash that
keeps an old session from a new account.
-/
namespace Oxidrop.Server

open Run Table Routing Management Operation

variable {H S K : Type}

/-! ## Dead sessions -/

/-- No row has both the id and the hash of the session. -/
def Dead (t : Users H) (d : SessionData H) : Prop :=
  ∀ r ∈ t, r.id = d.userId → r.passwordHash ≠ d.authHash

/-- No password has this hash under the salt that is drawn. -/
def Fresh (pw : PasswordLib H) (env : UserEnv) (hash : H) : Prop :=
  ∀ password, pw.hashPasswordWithSalt password env.salt ≠ .ok hash

/-- The calls that end the sessions of a row when they succeed. -/
def Revokes (request : UserRequest) (r : UsersRow H) : Prop :=
  match request with
  | .deleteUser username _ => username = r.username
  | .modifyUser _ targetUsername _ _ _ password =>
    targetUsername = r.username ∧ password.isSome = true
  | .changePassword userId _ => userId = r.id
  | _ => False

section Calls

variable {pw : PasswordLib H} {c : UserCall} {t : Users H} {d : SessionData H}

theorem newPasswordHash_fresh (hfresh : Fresh pw c.env d.authHash) {password : Option String}
    {hash : Option H} (h : newPasswordHash pw c.env password = .ok hash) (old : H)
    (hold : old ≠ d.authHash) : hash.getD old ≠ d.authHash := by
  cases hash with
  | none => exact hold
  | some hash =>
    obtain ⟨p, -, -, hhash⟩ := newPasswordHash_eq_some h
    rintro rfl
    exact hfresh p hhash

/-- A password that is given is hashed. -/
theorem newPasswordHash_isSome {env : UserEnv} {password : String} {hash : Option H}
    (h : newPasswordHash pw env (some password) = .ok hash) : ∃ hash', hash = some hash' := by
  simp only [newPasswordHash] at h
  cases hv : validatePassword pw password with
  | error e => simp [hv] at h
  | ok u =>
    cases hh : hashPassword pw env password with
    | error e => simp [hv, hh, Except.map] at h
    | ok hash' =>
      simp only [hv, hh, Except.map, Except.ok.injEq] at h
      exact ⟨hash', h.symm⟩

/-- A dead session stays dead as long as its hash is not computed anew. -/
theorem dead_step (hfresh : Fresh pw c.env d.authHash) (h : Dead t d) :
    Dead (handleUser pw c t).2 d := by
  have heffect := handleUser_effect pw c t
  generalize (handleUser pw c t).1 = answer, (handleUser pw c t).2 = t' at heffect
  cases heffect with
  | none => exact h
  | created row hc hflag hrow =>
    intro r hr hid
    rcases List.mem_append.mp hr with hr | hr
    · exact h r hr hid
    · obtain rfl := List.mem_singleton.mp hr
      exact fun heq => hfresh _ (heq ▸ hrow.hash)
  | bootstrapped row hc ht hadmin hflag hrow =>
    intro r hr hid
    obtain rfl := List.mem_singleton.mp hr
    exact fun heq => hfresh _ (heq ▸ hrow.hash)
  | deleted => exact fun r hr => h r (List.mem_of_mem_filter hr)
  | modified hash hc hhash =>
    intro r hr hid
    rcases mem_rewrite hr with ⟨hr, -⟩ | ⟨r₀, hr₀, -, rfl⟩
    · exact h r hr hid
    · exact newPasswordHash_fresh hfresh hhash _ (h r₀ hr₀ hid)
  | passwordChanged hash hc hhash =>
    intro r hr hid
    rcases mem_rewrite hr with ⟨hr, -⟩ | ⟨r₀, hr₀, -, rfl⟩
    · exact h r hr hid
    · rintro rfl
      exact hfresh _ (hashPassword_eq_ok hhash)
  | renamed => exact forall_rewrite h fun r hr => h r hr
  | loggedIn => exact forall_rewrite h fun r hr => h r hr

theorem deleteUser_ok {env : UserEnv} {username : String} {caller : CallerContext}
    (h : (deleteUser env username caller t).1 = .ok ()) :
    (deleteUser env username caller t).2 = t.filter (fun r => r.username ≠ username) := by
  unfold deleteUser at h ⊢
  split at h
  · rename_i hmay
    simp only [hmay, if_true]
    rcases execute_cases env t (fun t => .ok (deleteWhere (fun r => r.username = username) t))
      with ⟨e, he⟩ | ⟨n, t', he, -, hs⟩
    · simp [he] at h
    · cases hs
      simp only [he] at h ⊢
      split <;> simp
  · cases h

theorem modifyUser_ok {env : UserEnv} {caller : CallerContext} {targetUsername : String}
    {role : RolesUser} {permissions : ActionPermissions} {isActive : Int}
    {password : Option String}
    (h : (modifyUser pw env caller targetUsername role permissions isActive password t).1 =
      .ok ()) :
    ∃ hash, newPasswordHash pw env password = .ok hash ∧
      (modifyUser pw env caller targetUsername role permissions isActive password t).2 =
        rewrite (fun r => r.username = targetUsername)
          (.modify role permissions isActive hash) t := by
  unfold modifyUser at h ⊢
  split at h
  · rename_i hmay
    simp only [hmay, if_true]
    cases hh : newPasswordHash pw env password with
    | error e => simp [hh] at h
    | ok hash =>
      simp only [hh] at h ⊢
      rcases execute_cases env t (updateWhere (usersSchema H)
          (fun r => decide (r.username = targetUsername))
          (.modify role permissions isActive hash)) with ⟨e, he⟩ | ⟨n, t', he, -, hs⟩
      · simp [he] at h
      · obtain ⟨-, -, -, rfl⟩ := updateWhere_eq_ok_iff.mp hs
        simp only [he] at h ⊢
        split <;> exact ⟨hash, rfl, rfl⟩
  · cases h

/-- A password change leaves the table alone, or it stores a password that has been
validated. -/
theorem changePassword_cases (pw : PasswordLib H) (env : UserEnv) (userId : Int)
    (password : String) (t : Users H) :
    ((∃ e, (changePassword pw env userId password t).1 = .error e) ∧
      (changePassword pw env userId password t).2 = t) ∨
    ∃ hash, validatePassword pw password = .ok () ∧ hashPassword pw env password = .ok hash ∧
      (changePassword pw env userId password t).2 =
        rewrite (fun r => r.id = userId)
          (fun r => { r with passwordHash := hash, passwordMustBeChanged := 0 }) t := by
  unfold changePassword
  cases hv : validatePassword pw password with
  | error e => exact .inl ⟨⟨e, rfl⟩, rfl⟩
  | ok u =>
    cases hh : hashPassword pw env password with
    | error e => exact .inl ⟨⟨e, rfl⟩, rfl⟩
    | ok hash =>
      simp only
      rcases execute_cases env t (updateWhere (usersSchema H) (fun r => decide (r.id = userId))
          (fun r => { r with passwordHash := hash, passwordMustBeChanged := 0 }))
        with ⟨e, he⟩ | ⟨n, t', he, -, hs⟩
      · rw [he]
        exact .inl ⟨⟨_, rfl⟩, rfl⟩
      · obtain ⟨-, -, -, rfl⟩ := updateWhere_eq_ok_iff.mp hs
        rw [he]
        refine .inr ⟨hash, trivial, rfl, ?_⟩
        simp only
        split <;> rfl

/-- A row that is rewritten with a fresh hash has another one than before. -/
theorem rewritten_ne {p : UsersRow H → Bool} {f : UsersRow H → UsersRow H} {r x : UsersRow H}
    (hx : x ∈ rewrite p f t) (hids : (t.map UsersRow.id).Nodup) (hr : r ∈ t) (hp : p r = true)
    (hid : ∀ y, (f y).id = y.id) (hf : (f r).passwordHash ≠ r.passwordHash) (hxid : x.id = r.id) :
    x.passwordHash ≠ r.passwordHash := by
  have hsame : ∀ r₀ ∈ t, r₀.id = r.id → r₀ = r := fun r₀ hr₀ hid =>
    List.inj_on_of_nodup_map hids hr₀ hr hid
  rcases mem_rewrite hx with ⟨hxt, hnot⟩ | ⟨r₀, hr₀, -, rfl⟩
  · rw [hsame x hxt hxid, hp] at hnot
    cases hnot
  · rwa [hsame r₀ hr₀ ((hid r₀).symm.trans hxid)]

/-- A deletion or a new password kills the sessions of its row. -/
theorem revokes_dead (hids : (t.map UsersRow.id).Nodup) {r : UsersRow H} (hr : r ∈ t)
    (hfresh : Fresh pw c.env r.passwordHash) (hrevokes : Revokes c.request r)
    (hok : (handleUser pw c t).1 = .ok ()) :
    Dead (handleUser pw c t).2 ⟨r.id, r.passwordHash⟩ := by
  obtain ⟨request, env⟩ := c
  intro x hx hid
  cases request with
  | bootstrapDefaultAdmin => exact hrevokes.elim
  | createUser => exact hrevokes.elim
  | changeUsername => exact hrevokes.elim
  | authenticate => exact hrevokes.elim
  | deleteUser username caller =>
    simp only [handleUser] at hok hx
    rw [deleteUser_ok hok] at hx
    obtain ⟨hxt, hkept⟩ := List.mem_filter.mp hx
    obtain rfl := List.inj_on_of_nodup_map hids hxt hr hid
    simp [show username = x.username from hrevokes] at hkept
  | modifyUser caller targetUsername role permissions isActive password =>
    obtain ⟨htarget, hsome⟩ := hrevokes
    obtain ⟨password, rfl⟩ := Option.isSome_iff_exists.mp hsome
    obtain ⟨hash, hhash, hafter⟩ := modifyUser_ok hok
    simp only [handleUser] at hx
    rw [hafter] at hx
    refine rewritten_ne hx hids hr ?_ (fun _ => rfl) ?_ hid
    · simp [htarget]
    · obtain ⟨hash, rfl⟩ := newPasswordHash_isSome hhash
      obtain ⟨p, -, -, hp⟩ := newPasswordHash_eq_some hhash
      rintro rfl
      exact hfresh p hp
  | changePassword userId password =>
    simp only [handleUser] at hok hx
    rcases changePassword_cases pw env userId password t with
      ⟨⟨e, he⟩, -⟩ | ⟨hash, -, hhash, hafter⟩
    · rw [he] at hok
      cases hok
    rw [hafter] at hx
    refine rewritten_ne hx hids hr ?_ (fun _ => rfl) ?_ hid
    · simp [show userId = r.id from hrevokes]
    · rintro rfl
      exact hfresh password (hashPassword_eq_ok hhash)

end Calls

/-! ## What an event does to the accounts -/

/-- The request makes this call of the database. -/
inductive Flight.Calls (f : Flight H K) : UserRequest → Prop
  | login {username password : String} (hendpoint : f.endpoint = .login)
    (hpayload : f.payload = .credentials username password) :
    f.Calls (.authenticate username password)
  | changePassword {user : AppUser H} {password : String} (hendpoint : f.endpoint = .changePassword)
    (hpayload : f.payload = .changePassword password) (huser : f.user = some user) :
    f.Calls (.changePassword user.id password)
  | users {caller : CallerContext} {request : UserRequest} (hcaller : f.caller = some caller)
    (hrequest : f.userRequest caller = some request) : f.Calls request

section Steps

variable {pw : PasswordLib H} {lib : SessionLib H S K} {nt : NetworkTypes}

/-- The table changes by the calls that requests make, one at a time. -/
theorem users_step (e : ServerEvent K) (s : ServerState H S K) :
    (server pw lib nt e s).2.users = s.users ∨
      ∃ n env f request, e = .proceed n env ∧ s.inFlight[n]? = some f ∧ f.stage = .handler ∧
        f.Calls request ∧
        (server pw lib nt e s).2.users = (handleUser pw ⟨request, env.user⟩ s.users).2 := by
  cases e with
  | arrive client method path payload queryFails => exact .inl (by rw [server, arrive_eq])
  | expire client => exact .inl rfl
  | background b => exact .inl rfl
  | proceed n env =>
    rcases proceed_cases pw lib n env s with heq | ⟨f, outcome, s₁, hf, heffect, heq⟩
    · exact .inl (by rw [server, heq])
    · simp only [server, heq, land_users]
      cases heffect with
      | authenticates user hstage hendpoint hpayload hauth =>
        exact .inr ⟨n, env, f, _, rfl, hf, hstage, .login hendpoint hpayload, rfl⟩
      | changesPassword outcome hstage hendpoint hpayload huser houtcome =>
        exact .inr ⟨n, env, f, _, rfl, hf, hstage, .changePassword hendpoint hpayload huser, rfl⟩
      | callsUsers answer hstage hauth hcaller hrequest =>
        exact .inr ⟨n, env, f, _, rfl, hf, hstage, .users hcaller hrequest, rfl⟩
      | reads => exact .inl rfl
      | reloads => exact .inl rfl
      | signsIn => exact .inl rfl
      | logsOut => exact .inl rfl
      | changesFirewall => exact .inl rfl

theorem nodup_ids_run (s₀ : ServerState H S K) (h₀ : (s₀.users.map UsersRow.id).Nodup)
    (es : List (ServerEvent K)) :
    ((run (server pw lib nt) s₀ es).users.map UsersRow.id).Nodup := by
  induction es using List.reverseRecOn with
  | nil => exact h₀
  | append_singleton es e ih =>
    rw [run_concat]
    rcases users_step e (run (server pw lib nt) s₀ es) with heq |
      ⟨n, env, f, request, -, -, -, -, heq⟩
    · rwa [heq]
    · rw [heq]
      exact Provenance.nodup_ids_step pw _ _ ih

/-- Only a login and a password change have a second stage. -/
theorem stages_run (s₀ : ServerState H S K) (h₀ : s₀.inFlight = []) (es : List (ServerEvent K)) :
    ∀ f ∈ (run (server pw lib nt) s₀ es).inFlight,
      f.stage = .handler ∨ f.endpoint = .login ∨ f.endpoint = .changePassword := by
  induction es using List.reverseRecOn with
  | nil => simp [h₀]
  | append_singleton es e ih =>
    intro f hf
    rw [run_concat] at hf
    rcases inFlight_step e _ hf with hmem | ⟨_, _, _, _, _, -, x, user, -, -, -, rfl⟩ |
      ⟨n, env, g, stage, s₁, rfl, hg, heffect, rfl⟩
    · exact ih f hmem
    · exact .inl rfl
    · cases heffect with
      | authenticates user hstage hendpoint => exact .inr (.inl hendpoint)
      | changesPassword outcome hstage hendpoint => exact .inr (.inr hendpoint)
      | reloads fresh hstage =>
        rcases ih g (List.mem_of_getElem? hg) with hhandler | hendpoint
        · rw [hstage] at hhandler
          cases hhandler
        · exact .inr hendpoint

end Steps

/-! ## Revocation -/

/-- The event is a deletion or a new password for the row, and the database accepts it. -/
def Revoking (pw : PasswordLib H) (s : ServerState H S K) (e : ServerEvent K)
    (r : UsersRow H) : Prop :=
  ∃ n env f request, e = .proceed n env ∧ s.inFlight[n]? = some f ∧ f.stage = .handler ∧
    f.Calls request ∧ Revokes request r ∧ (handleUser pw ⟨request, env.user⟩ s.users).1 = .ok ()

/-- No salt that the event draws leads to the hash. -/
def DrawsFresh (pw : PasswordLib H) (hash : H) : ServerEvent K → Prop
  | .proceed _ env => Fresh pw env.user hash
  | _ => True

/-- The client asks for a login. -/
def AsksLogin (k : K) : ServerEvent K → Prop
  | .arrive client method path _ _ =>
    client = k ∧ (dispatch combinedRouter method.handled path).map Route.endpoint = some .login
  | _ => False

section Revocation

variable {pw : PasswordLib H} {lib : SessionLib H S K} {nt : NetworkTypes}

theorem withCaller_users {caller : CallerContext} {done : Nat}
    {call : CallerContext → Users H → Except UserError Unit × Users H} (s : ServerState H S K) :
    (withCaller (some caller) done call s).2.users = (call caller s.users).2 := by
  unfold withCaller
  cases hcall : call caller s.users with
  | mk result users => cases result <;> simp only [hcall]

/-- The handler of a request makes its call. -/
theorem calls_users {f : Flight H K} {request : UserRequest} {env : HandlerEnv}
    {s : ServerState H S K} (hstage : f.stage = .handler) (hcalls : f.Calls request) :
    (stepFlight pw lib env f s).2.users = (handleUser pw ⟨request, env.user⟩ s.users).2 := by
  obtain ⟨client, endpoint, payload, user, stage⟩ := f
  dsimp only at hstage
  subst hstage
  cases hcalls with
  | @login username password hendpoint hpayload =>
    dsimp only at hendpoint hpayload
    subst hendpoint hpayload
    simp only [stepFlight, handle, login, handleUser]
    cases hcall : authenticate pw env.user username password s.users with
    | mk result users =>
      cases result with
      | error e => rfl
      | ok found => cases found <;> rfl
  | @changePassword u password hendpoint hpayload huser =>
    dsimp only at hendpoint hpayload huser
    subst hendpoint hpayload huser
    simp only [stepFlight, handle, changePasswordEndpoint, handleUser]
    cases hcall : Oxidrop.changePassword pw env.user u.id password s.users with
    | mk result users => cases result <;> rfl
  | users hcaller hrequest =>
    cases endpoint <;> cases payload <;> cases hrequest
    all_goals
      simp only [stepFlight, handle, createUserEndpoint, modifyUserEndpoint, renameUserEndpoint,
        deleteUserEndpoint, hcaller, withCaller_users]
      rfl

theorem revoking_dead {s : ServerState H S K} (hids : (s.users.map UsersRow.id).Nodup)
    {e : ServerEvent K} {r : UsersRow H} (hr : r ∈ s.users) (hrevoking : Revoking pw s e r)
    (hfresh : DrawsFresh pw r.passwordHash e) :
    Dead (server pw lib nt e s).2.users ⟨r.id, r.passwordHash⟩ := by
  obtain ⟨n, env, f, request, rfl, hf, hstage, hcalls, hrevokes, hok⟩ := hrevoking
  have husers : (server pw lib nt (.proceed n env) s).2.users =
      (handleUser pw ⟨request, env.user⟩ s.users).2 := by
    have hcalled : (stepFlight pw lib env f s).2.users =
        (handleUser pw ⟨request, env.user⟩ s.users).2 := calls_users hstage hcalls
    rw [← hcalled]
    simp only [server, proceed, hf]
    cases hstep : stepFlight pw lib env f s with
    | mk outcome s₁ => cases outcome <;> rfl
  rw [husers]
  exact revokes_dead hids hr hfresh hrevokes hok

/-- The session of the client is dead or gone, and no request of it in flight can open
another. -/
structure Shut (lib : SessionLib H S K) (k : K) (d : SessionData H) (s : ServerState H S K) :
    Prop where
  data : lib.data s.sessions k = some d ∨ lib.data s.sessions k = none
  dead : Dead s.users d
  inFlight : ∀ f ∈ s.inFlight, f.client = k →
    f.stage = .handler ∧ f.endpoint ≠ .login ∧ f.endpoint ≠ .changePassword

/-- No request of the client finds a user. -/
theorem Shut.nobody (hlib : lib.Lawful) {k : K} {d : SessionData H} {s : ServerState H S K}
    (h : Shut lib k d s) (queryFails : Bool) (user : AppUser H) :
    (lib.load (getUser queryFails s.users) k s.sessions).1 ≠ .ok (some user) := by
  intro hload
  obtain ⟨r, hr, haccount, -⟩ := hlib.load_account hload
  rcases h.data with hd | hnone
  · obtain rfl := Option.some.inj (hd.symm.trans haccount.data)
    exact h.dead r hr rfl rfl
  · cases hnone.symm.trans haccount.data

theorem Shut.step (hlib : lib.Lawful) {k : K} {d : SessionData H} {s : ServerState H S K}
    (h : Shut lib k d s) {e : ServerEvent K} (hfresh : DrawsFresh pw d.authHash e)
    (hlogin : ¬ AsksLogin k e) : Shut lib k d (server pw lib nt e s).2 := by
  refine ⟨?_, ?_, fun g hg hk => ?_⟩
  · rcases data_step hlib e s k with heq | hnone | ⟨n, env, f, user, -, hf, rfl, hstage, -⟩
    · rw [heq]
      exact h.data
    · exact .inr hnone
    · have hhandler := (h.inFlight f (List.mem_of_getElem? hf) rfl).1
      rw [hstage] at hhandler
      cases hhandler
  · rcases users_step e s with heq | ⟨n, env, f, request, rfl, -, -, -, heq⟩
    · rw [heq]
      exact h.dead
    · rw [heq]
      exact dead_step hfresh h.dead
  · rcases inFlight_step e s hg with hmem | ⟨client, method, path, payload, queryFails, rfl, x,
      user, hdispatch, hload, hlayers, rfl⟩ | ⟨n, env, f, stage, s₁, rfl, hf, heffect, rfl⟩
    · exact h.inFlight g hmem hk
    · dsimp only at hk ⊢
      subst hk
      refine ⟨rfl, fun hx => hlogin ⟨rfl, by rw [hdispatch, Option.map_some, hx]⟩, fun hx => ?_⟩
      rw [hx] at hlayers
      obtain ⟨u, rfl⟩ := loginRequired_passes (refusal_cons hlayers).1
      exact h.nobody hlib queryFails u hload
    · obtain ⟨hhandler, hlog, hchange⟩ := h.inFlight f (List.mem_of_getElem? hf) hk
      cases heffect with
      | authenticates user hstage hendpoint => exact absurd hendpoint hlog
      | changesPassword outcome hstage hendpoint => exact absurd hendpoint hchange
      | reloads fresh hstage =>
        rw [hstage] at hhandler
        cases hhandler

theorem Shut.after (hlib : lib.Lawful) {k : K} {d : SessionData H} {s : ServerState H S K}
    (h : Shut lib k d s) (es : List (ServerEvent K))
    (hfresh : ∀ e ∈ es, DrawsFresh pw d.authHash e) (hlogin : ∀ e ∈ es, ¬ AsksLogin k e) :
    Shut lib k d (run (server pw lib nt) s es) := by
  refine invariant (C := fun _ e => DrawsFresh pw d.authHash e ∧ ¬ AsksLogin k e)
    (fun s e h he => h.step hlib he.1 he.2) s es h ?_
  exact always_of_forall s es fun e he => ⟨hfresh e he, hlogin e he⟩

/-- A revocation shuts the other sessions of its row. -/
theorem shut_of_revoking (hlib : lib.Lawful) {s₀ : ServerState H S K} (h₀ : s₀.inFlight = [])
    (hids : (s₀.users.map UsersRow.id).Nodup) {pre : List (ServerEvent K)} {e : ServerEvent K}
    {k : K} {r : UsersRow H} (hr : r ∈ (run (server pw lib nt) s₀ pre).users)
    (hk : lib.data (run (server pw lib nt) s₀ pre).sessions k = some ⟨r.id, r.passwordHash⟩)
    (hrevoking : Revoking pw (run (server pw lib nt) s₀ pre) e r)
    (hother : ∀ f ∈ (run (server pw lib nt) s₀ pre).inFlight, f.client = k →
      f.endpoint ≠ .login ∧ f.endpoint ≠ .changePassword)
    (hfresh : DrawsFresh pw r.passwordHash e) :
    Shut lib k ⟨r.id, r.passwordHash⟩ (run (server pw lib nt) s₀ (pre ++ [e])) := by
  have hstages : ∀ f ∈ (run (server pw lib nt) s₀ pre).inFlight,
      f.stage = .handler ∨ f.endpoint = .login ∨ f.endpoint = .changePassword :=
    stages_run s₀ h₀ pre
  have hdead : Dead (server pw lib nt e (run (server pw lib nt) s₀ pre)).2.users
      ⟨r.id, r.passwordHash⟩ := revoking_dead (nodup_ids_run s₀ hids pre) hr hrevoking hfresh
  rw [run_concat]
  generalize run (server pw lib nt) s₀ pre = s at *
  have hhandler : ∀ f ∈ s.inFlight, f.client = k → f.stage = .handler := by
    intro f hf hfk
    obtain ⟨hlog, hchange⟩ := hother f hf hfk
    exact (hstages f hf).resolve_right (by simp [hlog, hchange])
  refine ⟨?_, hdead, fun g hg hgk => ?_⟩
  · rcases data_step hlib e s k with heq | hnone | ⟨n, env, f, user, -, hf, rfl, hstage, -⟩
    · exact .inl (heq.trans hk)
    · exact .inr hnone
    · have hcontra := hhandler f (List.mem_of_getElem? hf) rfl
      rw [hstage] at hcontra
      cases hcontra
  · obtain ⟨m, env', f', request, rfl, -⟩ := hrevoking
    rcases inFlight_step _ s hg with hmem | ⟨_, _, _, _, _, hcontra, -⟩ |
      ⟨n, env, f, stage, s₁, -, hf, heffect, rfl⟩
    · exact ⟨hhandler g hmem hgk, hother g hmem hgk⟩
    · cases hcontra
    · have hmem := List.mem_of_getElem? hf
      obtain ⟨hlog, hchange⟩ := hother f hmem hgk
      cases heffect with
      | authenticates user hstage hendpoint => exact absurd hendpoint hlog
      | changesPassword outcome hstage hendpoint => exact absurd hendpoint hchange
      | reloads fresh hstage =>
        have hcontra := hhandler f hmem hgk
        rw [hstage] at hcontra
        cases hcontra

end Revocation

/-- The session layer finds no user for a request of the client. -/
def FindsNobody (lib : SessionLib H S K) (k : K) (s : ServerState H S K) : Prop :=
  ∀ queryFails user, (lib.load (getUser queryFails s.users) k s.sessions).1 ≠ .ok (some user)

/-- When the row of a session is deleted or gets a new password, by a request that is not
the client's own password change, no later request of the client finds a user, unless the
client logs in again. No salt that is drawn meanwhile leads to the old hash. -/
theorem revoked_finds_nobody (pw : PasswordLib H) (lib : SessionLib H S K) (nt : NetworkTypes)
    (hlib : lib.Lawful) (s₀ : ServerState H S K) (h₀ : s₀.inFlight = [])
    (hids : (s₀.users.map UsersRow.id).Nodup) (pre : List (ServerEvent K)) (e : ServerEvent K)
    (k : K) (r : UsersRow H) (hr : r ∈ (run (server pw lib nt) s₀ pre).users)
    (hk : lib.data (run (server pw lib nt) s₀ pre).sessions k = some ⟨r.id, r.passwordHash⟩)
    (hrevoking : Revoking pw (run (server pw lib nt) s₀ pre) e r)
    (hother : ∀ f ∈ (run (server pw lib nt) s₀ pre).inFlight, f.client = k →
      f.endpoint ≠ .login ∧ f.endpoint ≠ .changePassword)
    (post : List (ServerEvent K)) (hfresh : ∀ x ∈ e :: post, DrawsFresh pw r.passwordHash x)
    (hlogin : ∀ x ∈ post, ¬ AsksLogin k x) :
    FindsNobody lib k (run (server pw lib nt) s₀ (pre ++ e :: post)) := by
  have hshut := shut_of_revoking hlib h₀ hids hr hk hrevoking hother (hfresh e (by simp))
  rw [show pre ++ e :: post = (pre ++ [e]) ++ post by simp, run_append]
  exact (hshut.after hlib post (fun x hx => hfresh x (by simp [hx])) hlogin).nobody hlib

/-- Two clients are logged in as the first administrator, and one sets a password. -/
def twoLogins : List (ServerEvent Nat) :=
  firstLogin 0 ++ firstLogin 1 ++
    [.arrive 0 .POST "/api/v1/change_password" (.changePassword goodPassword) false]

/-- The row of the first administrator before that. -/
def defaultAdminRow : UsersRow (String × Salt) :=
  ⟨1, DEFAULT_ADMIN_USERNAME, (DEFAULT_ADMIN_PASSWORD, []), .admin, 7, 1, 1, some 0⟩

theorem revoked_finds_nobody_twoLogins :
    FindsNobody listSessions 1 (run (server saltedLib listSessions rfcTypes) freshServer
      (twoLogins ++ .proceed 0 (calmEnv [1]) ::
        [.proceed 0 (calmEnv [1]), .proceed 0 (calmEnv [1])])) := by
  have hsalt : ∀ password : String, saltedLib.hashPasswordWithSalt password [1] ≠
      .ok (DEFAULT_ADMIN_PASSWORD, []) := by
    intro password h
    cases h
  refine revoked_finds_nobody saltedLib listSessions rfcTypes listSessions_lawful freshServer rfl
    (by decide +kernel) twoLogins _ 1 defaultAdminRow (by decide +kernel) (by decide +kernel) ?_
    (by decide +kernel) _ ?_ ?_
  · exact ⟨0, calmEnv [1], _, .changePassword 1 goodPassword, rfl, rfl, rfl,
      @Flight.Calls.changePassword _ _ _ defaultAdminRow.toAppUser goodPassword rfl rfl rfl, rfl,
      by decide +kernel⟩
  · simpa [DrawsFresh, Fresh, calmEnv, defaultAdminRow] using hsalt
  · simp [AsksLogin]

end Oxidrop.Server
