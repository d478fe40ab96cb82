import Oxidrop.Mediation

/-!
# Every session rests on a password

A session is opened with the hash of a row, and only a login or a password change opens
one. So whoever has a session for an account has sent a password that the hash of the
account verifies. The exception is a race: a password change reads its row again, and
another change may have come first.
-/
namespace Oxidrop.Server

open Run Table Routing Management Operation

variable {H S K : Type}

/-! ## What a step does to sessions and flights -/

section Steps

variable {pw : PasswordLib H} {lib : SessionLib H S K} {nt : NetworkTypes}

theorem StepEffect.data (hlib : lib.Lawful) {env : HandlerEnv} {f : Flight H K}
    {s s' : ServerState H S K} {outcome : Outcome H} (h : StepEffect pw lib env f s outcome s')
    (k : K) : lib.data s'.sessions k = lib.data s.sessions k ∨ lib.data s'.sessions k = none ∨
      (k = f.client ∧ ∃ user, f.stage = .signIn user ∧
        lib.data s'.sessions k = some user.sessionData) := by
  cases h with
  | signsIn user answer hstage =>
    rcases hlib.login_data user f.client s.sessions k with heq | hnone | ⟨hk, hdata⟩
    · exact .inl heq
    · exact .inr (.inl hnone)
    · exact .inr (.inr ⟨hk, user, hstage, hdata⟩)
  | logsOut => exact (hlib.logout_ends f.client s.sessions k).imp_right .inl
  | reads => exact .inl rfl
  | authenticates => exact .inl rfl
  | changesPassword => exact .inl rfl
  | reloads => exact .inl rfl
  | callsUsers => exact .inl rfl
  | changesFirewall => exact .inl rfl

@[simp] theorem land_sessions (outcome : Outcome H) (n : Nat) (f : Flight H K)
    (s : ServerState H S K) : (outcome.land n f s).sessions = s.sessions := by
  cases outcome <;> rfl

@[simp] theorem land_users (outcome : Outcome H) (n : Nat) (f : Flight H K)
    (s : ServerState H S K) : (outcome.land n f s).users = s.users := by
  cases outcome <;> rfl

/-- Only a request that asks for it opens a session. -/
theorem data_step (hlib : lib.Lawful) (e : ServerEvent K) (s : ServerState H S K) (k : K) :
    lib.data (server pw lib nt e s).2.sessions k = lib.data s.sessions k ∨
      lib.data (server pw lib nt e s).2.sessions k = none ∨
      ∃ n env f user, e = .proceed n env ∧ s.inFlight[n]? = some f ∧ k = f.client ∧
        f.stage = .signIn user ∧
        lib.data (server pw lib nt e s).2.sessions k = some user.sessionData := by
  cases e with
  | arrive client method path payload queryFails =>
    rw [server, arrive_eq]
    exact (hlib.load_ends (getUser queryFails s.users) client s.sessions k).imp_right .inl
  | proceed n env =>
    rcases proceed_cases pw lib n env s with heq | ⟨f, outcome, s₁, hf, heffect, heq⟩
    · exact .inl (by rw [server, heq])
    · simp only [server, heq, land_sessions]
      rcases heffect.data hlib k with hsame | hnone | ⟨hk, user, hstage, hdata⟩
      · exact .inl hsame
      · exact .inr (.inl hnone)
      · exact .inr (.inr ⟨n, env, f, user, rfl, hf, hk, hstage, hdata⟩)
  | expire client => exact (hlib.expire_ends client s.sessions k).imp_right .inl
  | background b => exact .inl rfl

end Steps

/-- A successful authentication has verified the password against the hash of the user. -/
theorem authenticate_verified {pw : PasswordLib H} {env : UserEnv} {username password : String}
    {t : Users H} {user : AppUser H}
    (h : (authenticate pw env username password t).1 = .ok (some user)) :
    pw.verifyPassword user.passwordHash password = some true := by
  unfold authenticate at h
  split at h
  · cases h
  · split at h
    · cases h
    · rename_i r hr
      split at h
      · cases h
      · split at h
        · cases h
        · cases h
        · rename_i hverified
          split at h
          · cases h
          · cases h
            exact hverified

/-! ## What a session rests on -/

/-- The password that a request brings along. -/
def Payload.secret : Payload → Option String
  | .credentials _ password => some password
  | .changePassword password => some password
  | _ => Option.none

/-- The client has sent the password. -/
def Sent (es : List (ServerEvent K)) (k : K) (password : String) : Prop :=
  ∃ method path payload queryFails,
    .arrive k method path payload queryFails ∈ es ∧ payload.secret = some password

section Runs

variable (pw : PasswordLib H) (lib : SessionLib H S K) (nt : NetworkTypes)
  (s₀ : ServerState H S K)

/-- A password change of the client has read its row again, and found a hash that does
not verify the password that it has set. -/
def Overtaken (es : List (ServerEvent K)) (k : K) (hash : H) : Prop :=
  ∃ earlier n env later f user password,
    es = earlier ++ .proceed n env :: later ∧
      (run (server pw lib nt) s₀ earlier).inFlight[n]? = some f ∧ f.client = k ∧
      f.stage = .reload ∧ f.payload = .changePassword password ∧ f.user = some user ∧
      (∃ r ∈ (run (server pw lib nt) s₀ earlier).users, r.id = user.id ∧
        r.passwordHash = hash) ∧
      pw.verifyPassword hash password ≠ some true

def RestsOnPassword (es : List (ServerEvent K)) (k : K) (hash : H) : Prop :=
  (∃ password, Sent es k password ∧ pw.verifyPassword hash password = some true) ∨
    Overtaken pw lib nt s₀ es k hash

/-- What holds of sessions and flights after the events `es`. -/
structure Rests (es : List (ServerEvent K)) (s : ServerState H S K) : Prop where
  sessions : ∀ k d, lib.data s.sessions k = some d →
    RestsOnPassword pw lib nt s₀ es k d.authHash
  sent : ∀ f ∈ s.inFlight, ∃ method path queryFails,
    .arrive f.client method path f.payload queryFails ∈ es
  signIn : ∀ f ∈ s.inFlight, ∀ user, f.stage = .signIn user →
    RestsOnPassword pw lib nt s₀ es f.client user.passwordHash
  reload : ∀ f ∈ s.inFlight, f.stage = .reload →
    ∃ password, f.payload = .changePassword password

variable {pw lib nt s₀}

theorem RestsOnPassword.later {es : List (ServerEvent K)} {k : K} {hash : H}
    (h : RestsOnPassword pw lib nt s₀ es k hash) (e : ServerEvent K) :
    RestsOnPassword pw lib nt s₀ (es ++ [e]) k hash := by
  rcases h with ⟨password, ⟨method, path, payload, queryFails, hmem, hsecret⟩, hverify⟩ |
    ⟨earlier, n, env, later, f, user, password, rfl, hrest⟩
  · exact .inl ⟨password, ⟨method, path, payload, queryFails, by simp [hmem], hsecret⟩, hverify⟩
  · exact .inr ⟨earlier, n, env, later ++ [e], f, user, password, by simp, hrest⟩

/-- A user that a handler is about to log in has a hash that a sent password opens. -/
theorem Rests.nextStage {es : List (ServerEvent K)} {n : Nat} {env : HandlerEnv}
    {f : Flight H K} {user : AppUser H} {s₁ : ServerState H S K}
    (h : Rests pw lib nt s₀ es (run (server pw lib nt) s₀ es))
    (hf : (run (server pw lib nt) s₀ es).inFlight[n]? = some f)
    (heffect : StepEffect pw lib env f (run (server pw lib nt) s₀ es) (.continues (.signIn user))
      s₁) : RestsOnPassword pw lib nt s₀ (es ++ [.proceed n env]) f.client user.passwordHash := by
  have hmem := List.mem_of_getElem? hf
  obtain ⟨method, path, queryFails, hsent⟩ := h.sent f hmem
  have hsent' : ∀ password, f.payload.secret = some password →
      Sent (es ++ [.proceed n env]) f.client password :=
    fun password hp => ⟨method, path, f.payload, queryFails, by simp [hsent], hp⟩
  cases heffect with
  | authenticates user hstage hendpoint hpayload hauth =>
    exact .inl ⟨_, hsent' _ (by rw [hpayload]; rfl), authenticate_verified hauth⟩
  | changesPassword outcome hstage hendpoint hpayload huser houtcome =>
    rcases houtcome with ⟨heq, -⟩ | ⟨e, heq⟩ <;> cases heq
  | reloads fresh hstage huser hget =>
    obtain ⟨password, hpayload⟩ := h.reload f hmem hstage
    obtain ⟨r, hr, hid, -, rfl⟩ := getUser_eq_some hget
    by_cases hverify : pw.verifyPassword r.passwordHash password = some true
    · exact .inl ⟨password, hsent' _ (by rw [hpayload]; rfl), hverify⟩
    · exact .inr ⟨es, n, env, [], f, _, password, rfl, hf, rfl, hstage, hpayload, huser,
        ⟨r, hr, hid, rfl⟩, hverify⟩

theorem rests_step (hlib : lib.Lawful) {es : List (ServerEvent K)} (e : ServerEvent K)
    (h : Rests pw lib nt s₀ es (run (server pw lib nt) s₀ es)) :
    Rests pw lib nt s₀ (es ++ [e]) (run (server pw lib nt) s₀ (es ++ [e])) := by
  rw [run_concat]
  refine ⟨fun k d hd => ?_, fun f hf => ?_, fun f hf user hstage => ?_, fun f hf hstage => ?_⟩
  · rcases data_step hlib e (run (server pw lib nt) s₀ es) k with heq | hnone |
      ⟨n, env, f, user, rfl, hf, rfl, hstage, hdata⟩
    · exact (h.sessions k d (heq ▸ hd)).later e
    · rw [hnone] at hd
      cases hd
    · rw [hdata] at hd
      cases hd
      exact (h.signIn f (List.mem_of_getElem? hf) user hstage).later _
  · rcases inFlight_step e _ hf with hmem | ⟨client, method, path, payload, queryFails, rfl, x,
      user, -, -, -, rfl⟩ | ⟨n, env, g, stage, s₁, rfl, hg, -, rfl⟩
    · obtain ⟨method, path, queryFails, hsent⟩ := h.sent f hmem
      exact ⟨method, path, queryFails, by simp [hsent]⟩
    · exact ⟨method, path, queryFails, by simp⟩
    · obtain ⟨method, path, queryFails, hsent⟩ := h.sent g (List.mem_of_getElem? hg)
      exact ⟨method, path, queryFails, by simp [hsent]⟩
  · rcases inFlight_step e _ hf with hmem | ⟨client, method, path, payload, queryFails, rfl, x,
      _, -, -, -, rfl⟩ | ⟨n, env, g, stage, s₁, rfl, hg, heffect, rfl⟩
    · exact (h.signIn f hmem user hstage).later e
    · cases hstage
    · cases hstage
      have hnext := h.nextStage hg heffect
      exact hnext
  · rcases inFlight_step e _ hf with hmem | ⟨client, method, path, payload, queryFails, rfl, x,
      _, -, -, -, rfl⟩ | ⟨n, env, g, stage, s₁, rfl, hg, heffect, rfl⟩
    · exact h.reload f hmem hstage
    · cases hstage
    · cases hstage
      cases heffect with
      | changesPassword outcome _ hendpoint hpayload => exact ⟨_, hpayload⟩

theorem rests_run (hlib : lib.Lawful) (h₀ : s₀.inFlight = [])
    (hnone : ∀ k, lib.data s₀.sessions k = none) (es : List (ServerEvent K)) :
    Rests pw lib nt s₀ es (run (server pw lib nt) s₀ es) := by
  induction es using List.reverseRecOn with
  | nil => exact ⟨by simp [hnone], by simp [h₀], by simp [h₀], by simp [h₀]⟩
  | append_singleton es e ih => exact rests_step hlib e ih

end Runs

/-- In every run that starts without sessions and requests, a client whose session acts
for an account has sent a password that the current hash of the account verifies, or a
password change of the client was overtaken when it read this hash. -/
theorem account_rests_on_password (pw : PasswordLib H) (lib : SessionLib H S K)
    (nt : NetworkTypes) (hlib : lib.Lawful) (s₀ : ServerState H S K) (h₀ : s₀.inFlight = [])
    (hnone : ∀ k, lib.data s₀.sessions k = none) (es : List (ServerEvent K)) (k : K)
    (r : UsersRow H) (hr : ActsFor lib (run (server pw lib nt) s₀ es).sessions k r) :
    RestsOnPassword pw lib nt s₀ es k r.passwordHash :=
  (rests_run hlib h₀ hnone es).sessions k _ hr.data

/-- The row of the first administrator after `onboarding`. -/
def onboardedAdmin : UsersRow (String × Salt) :=
  ⟨1, DEFAULT_ADMIN_USERNAME, (goodPassword, [1]), .admin, 7, 0, 1, some 0⟩

theorem account_rests_on_password_onboarding :
    RestsOnPassword saltedLib listSessions rfcTypes freshServer onboarding 0
      (goodPassword, [1]) :=
  account_rests_on_password saltedLib listSessions rfcTypes listSessions_lawful freshServer rfl
    (fun _ => rfl) onboarding 0 onboardedAdmin ⟨by decide +kernel, rfl⟩

/-- Client 1 changes its password while a request of client 0 for another one is in
flight. -/
def overtakenRun : List (ServerEvent Nat) :=
  onboarding ++
    [.arrive 1 .POST "/api/v1/login" (.credentials DEFAULT_ADMIN_USERNAME goodPassword) false,
      .proceed 0 (calmEnv []), .proceed 0 (calmEnv []),
      .arrive 0 .PUT "/api/v1/users/modify_user"
        (.modifyUser DEFAULT_ADMIN_USERNAME .admin .all 1 (some "ten lords a-leaping")) false,
      .arrive 1 .POST "/api/v1/change_password" (.changePassword "nine ladies dancing") false,
      .proceed 1 (calmEnv [2]), .proceed 0 (calmEnv [3]), .proceed 0 (calmEnv []),
      .proceed 0 (calmEnv [])]

/-- It is logged in afterwards under a password that it has not sent. -/
example : listSessions.data
    (run (server saltedLib listSessions rfcTypes) freshServer overtakenRun).sessions 1 =
      some ⟨1, ("ten lords a-leaping", [3])⟩ := by
  decide +kernel

end Oxidrop.Server
