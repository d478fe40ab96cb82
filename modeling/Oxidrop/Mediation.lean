import Oxidrop.Server

/-!
# Every change has its authority

What one step of a handler can do is said once. A change of the accounts or of the
firewall needs an administrator with the permission of the endpoint, or is a password
change of the caller's own account. In a run the caller is the account of the session
with which the request arrived, whatever happened since.
-/
namespace Oxidrop.Server

open Run Table Routing Management Operation

variable {H S K : Type}

/-! ## What a step of a handler does -/

/-- The permission that the handler of an endpoint asks of its caller. -/
def Endpoint.needs : Endpoint → Option ActionPermissions
  | .updateConfig | .shutdownEbpf | .restartEbpf | .modifyFlow _ _ | .modifySubnetMatching _
  | .modifyUser | .renameUser => some .MODIFY
  | .clearFlow _ _ | .removeSubnetMatching _ | .deleteUser => some .DELETE
  | .createUser => some .CREATE
  | _ => none

/-- The call that a request for a users endpoint makes. -/
def Flight.userRequest (f : Flight H K) (caller : CallerContext) : Option UserRequest :=
  match f.endpoint, f.payload with
  | .createUser, .createUser username password role permissions passwordMustBeChanged =>
    some (.createUser caller username password role permissions passwordMustBeChanged)
  | .modifyUser, .modifyUser targetUsername role permissions isActive password =>
    some (.modifyUser caller targetUsername role permissions isActive password)
  | .renameUser, .renameUser currentUsername newUsername =>
    some (.changeUsername caller currentUsername newUsername)
  | .deleteUser, .deleteUser targetUsername => some (.deleteUser targetUsername caller)
  | _, _ => none

/-- The caller is an administrator with the permission of the endpoint. -/
def Flight.Authorized (f : Flight H K) : Prop :=
  ∃ permission, f.endpoint.needs = some permission ∧ Oxidrop.Authorized f.caller permission

/-- Everything that a step of a handler can do, with its outcome. -/
inductive StepEffect (pw : PasswordLib H) (lib : SessionLib H S K) (env : HandlerEnv)
    (f : Flight H K) (s : ServerState H S K) : Outcome H → ServerState H S K → Prop
  | reads (answer : Answer H) : StepEffect pw lib env f s (.answered answer) s
  | authenticates {username password : String} (user : AppUser H) (hstage : f.stage = .handler)
    (hendpoint : f.endpoint = .login) (hpayload : f.payload = .credentials username password)
    (hauth : (authenticate pw env.user username password s.users).1 = .ok (some user)) :
    StepEffect pw lib env f s (.continues (.signIn user))
      { s with users := (authenticate pw env.user username password s.users).2 }
  | changesPassword {user : AppUser H} {password : String} (outcome : Outcome H)
    (hstage : f.stage = .handler) (hendpoint : f.endpoint = .changePassword)
    (hpayload : f.payload = .changePassword password) (huser : f.user = some user)
    (houtcome : (outcome = .continues .reload ∧
        (changePassword pw env.user user.id password s.users).1 = .ok ()) ∨
      ∃ e, outcome = .answered (.ofUserError e)) :
    StepEffect pw lib env f s outcome
      { s with users := (changePassword pw env.user user.id password s.users).2 }
  | reloads {user : AppUser H} (fresh : AppUser H) (hstage : f.stage = .reload)
    (huser : f.user = some user)
    (hget : getUser env.user.queryFails s.users user.id = .ok (some fresh)) :
    StepEffect pw lib env f s (.continues (.signIn fresh)) s
  | signsIn (user : AppUser H) (answer : Answer H) (hstage : f.stage = .signIn user) :
    StepEffect pw lib env f s (.answered answer)
      { s with sessions := (lib.login user f.client s.sessions).2 }
  | logsOut (answer : Answer H) :
    StepEffect pw lib env f s (.answered answer)
      { s with sessions := (lib.logout f.client s.sessions).2 }
  | callsUsers {caller : CallerContext} {request : UserRequest} (answer : Answer H)
    (hstage : f.stage = .handler) (hauth : f.Authorized) (hcaller : f.caller = some caller)
    (hrequest : f.userRequest caller = some request) :
    StepEffect pw lib env f s (.answered answer)
      { s with users := (handleUser pw ⟨request, env.user⟩ s.users).2 }
  | changesFirewall (answer : Answer H) (firewall : FirewallState) (rowsV4 : List (SubnetRow Int))
    (rowsV6 : List (SubnetRow (List UInt8))) (hauth : f.Authorized) :
    StepEffect pw lib env f s (.answered answer)
      { s with firewall := firewall, rowsV4 := rowsV4, rowsV6 := rowsV6 }

section Handlers

variable {pw : PasswordLib H} {lib : SessionLib H S K} {env : HandlerEnv} {f : Flight H K}
  {s : ServerState H S K}

/-- A failed authentication changes nothing. -/
theorem authenticate_cases (pw : PasswordLib H) (env : UserEnv) (username password : String)
    (t : Users H) :
    (∃ user, (authenticate pw env username password t).1 = .ok (some user)) ∨
      (∃ e, authenticate pw env username password t = (.error e, t)) := by
  unfold authenticate
  cases env.queryFails with
  | true => exact .inr ⟨_, rfl⟩
  | false =>
    cases t.find? (fun r => decide (r.username = username)) with
    | none => exact .inr ⟨_, rfl⟩
    | some user =>
      simp only [Bool.false_eq_true, if_false]
      by_cases hactive : user.isActive = 0
      · simp only [hactive, if_true]
        exact .inr ⟨_, rfl⟩
      · simp only [hactive, if_false]
        cases pw.verifyPassword user.passwordHash password with
        | none => exact .inr ⟨_, rfl⟩
        | some verified =>
          cases verified with
          | false => exact .inr ⟨_, rfl⟩
          | true =>
            simp only
            rcases execute_cases env t (updateWhere (usersSchema H)
                (fun r => decide (r.id = user.id))
                (fun r => { r with lastLoginAt := some env.now }))
              with ⟨e, he⟩ | ⟨n, t', he, -, -⟩
            · rw [he]
              exact .inr ⟨_, rfl⟩
            · rw [he]
              exact .inl ⟨_, rfl⟩

theorem withPermission_refused {σ : Type} {session : Option CallerContext}
    {permission : ActionPermissions} {body : CallerContext → σ → Response × σ}
    (h : ¬ Oxidrop.Authorized session permission) (s : σ) :
    (withPermission session permission body s).2 = s := by
  rcases withPermission_cases session permission body s with ⟨-, heq⟩ | ⟨caller, hs, hmay, -⟩
  · rw [heq]
  · exact absurd ⟨caller, hs, hmay⟩ h

theorem authorizedEbpfAction_refused {session : Option CallerContext}
    (h : ¬ Oxidrop.Authorized session .MODIFY) (ebpf : Option EbpfProgramm) :
    ∃ status, Adapters.authorizedEbpfAction session ebpf = .error status := by
  cases session with
  | none => exact ⟨_, rfl⟩
  | some caller =>
    have hmay : caller.may .MODIFY = false := by simpa [Oxidrop.Authorized] using h
    exact ⟨.UNAUTHORIZED, by simp [Adapters.authorizedEbpfAction, hmay]⟩

/-- The permission that a request for the flow maps needs. -/
def flowPermission : Management.Method → ActionPermissions
  | .POST => .MODIFY
  | .DELETE => .DELETE

theorem serve_refused {r : FlowRequest}
    (h : ¬ Oxidrop.Authorized r.session (flowPermission r.method)) (m : Maps) :
    (serve r m).2 = m := by
  obtain ⟨method, table, family, session, contentType, body, insertFails, yieldedV4, yieldedV6⟩ := r
  have hanswer : ∀ {α : Type} (payload : Option α) (handler : α → Maps → Response × Maps),
      (∀ p, (handler p m).2 = m) → (answer payload handler m).2 = m := by
    intro α payload handler hp
    cases payload with
    | none => rfl
    | some p => exact hp p
  cases method with
  | POST =>
    cases table <;> cases family <;>
      exact hanswer _ _ fun p => withPermission_refused h m
  | DELETE =>
    cases table <;> cases family <;>
      exact hanswer _ _ fun p => withPermission_refused h m

/-! ## Each handler -/

/-- A handler for authorised callers changes the firewall, and nothing for others. -/
theorem changesFirewall_of {permission : ActionPermissions} {answer : Answer H}
    {s' : ServerState H S K} (hneeds : f.endpoint.needs = some permission)
    (hrefused : ¬ Oxidrop.Authorized f.caller permission → s' = s)
    (hkept : s' = { s with firewall := s'.firewall, rowsV4 := s'.rowsV4, rowsV6 := s'.rowsV6 }) :
    StepEffect pw lib env f s (.answered answer) s' := by
  by_cases hauth : Oxidrop.Authorized f.caller permission
  · rw [hkept]
    exact .changesFirewall answer _ _ _ ⟨permission, hneeds, hauth⟩
  · rw [hrefused hauth]
    exact .reads answer

theorem onConfig_effect {handler : ConfigState → Response × ConfigState}
    (hneeds : f.endpoint.needs = some .MODIFY)
    (hrefused : ¬ Oxidrop.Authorized f.caller .MODIFY → ∀ c, (handler c).2 = c) :
    StepEffect pw lib env f s (onConfig handler s).1 (onConfig handler s).2 := by
  refine changesFirewall_of hneeds (fun hauth => ?_) rfl
  simp only [onConfig, hrefused hauth]
  rfl

theorem onFlows_effect {method : Management.Method} {table : FlowTable} {family : Family}
    {contentType : ContentType} {body : Option Serde.Json}
    (hneeds : f.endpoint.needs = some (flowPermission method)) :
    StepEffect pw lib env f s
      (onFlows (flowRequest env f method table family contentType body) s).1
      (onFlows (flowRequest env f method table family contentType body) s).2 := by
  refine changesFirewall_of hneeds (fun hauth => ?_) rfl
  have hmaps : (serve (flowRequest env f method table family contentType body)
      s.firewall.maps).2 = s.firewall.maps := serve_refused hauth _
  simp only [onFlows, hmaps]

theorem onSubnetsV4_effect {permission : ActionPermissions}
    {body : CallerContext → SubnetStore Int → Response × SubnetStore Int}
    (hneeds : f.endpoint.needs = some permission) :
    StepEffect pw lib env f s (onSubnetsV4 (withPermission f.caller permission body) s).1
      (onSubnetsV4 (withPermission f.caller permission body) s).2 := by
  refine changesFirewall_of hneeds (fun hauth => ?_) rfl
  simp only [onSubnetsV4, withPermission_refused hauth]

theorem onSubnetsV6_effect {permission : ActionPermissions}
    {body : CallerContext → SubnetStore (List UInt8) → Response × SubnetStore (List UInt8)}
    (hneeds : f.endpoint.needs = some permission) :
    StepEffect pw lib env f s (onSubnetsV6 (withPermission f.caller permission body) s).1
      (onSubnetsV6 (withPermission f.caller permission body) s).2 := by
  refine changesFirewall_of hneeds (fun hauth => ?_) rfl
  simp only [onSubnetsV6, withPermission_refused hauth]

theorem login_effect {username password : String} (hstage : f.stage = .handler)
    (hendpoint : f.endpoint = .login) (hpayload : f.payload = .credentials username password) :
    StepEffect pw lib env f s (login pw env username password s).1
      (login pw env username password s).2 := by
  rcases authenticate_cases pw env.user username password s.users with ⟨user, hauth⟩ | ⟨e, heq⟩
  · have heq : authenticate pw env.user username password s.users =
        (.ok (some user), (authenticate pw env.user username password s.users).2) :=
      Prod.ext hauth rfl
    unfold login
    rw [heq]
    exact .authenticates user hstage hendpoint hpayload hauth
  · unfold login
    rw [heq]
    exact .reads _

theorem changesPassword_effect {password : String} (hstage : f.stage = .handler)
    (hendpoint : f.endpoint = .changePassword)
    (hpayload : f.payload = .changePassword password) :
    StepEffect pw lib env f s (changePasswordEndpoint pw env f.user password s).1
      (changePasswordEndpoint pw env f.user password s).2 := by
  unfold changePasswordEndpoint
  cases huser : f.user with
  | none => exact .reads _
  | some user =>
    simp only
    cases hcall : (changePassword pw env.user user.id password s.users).1 with
    | ok u =>
      rw [show changePassword pw env.user user.id password s.users =
        (.ok u, (changePassword pw env.user user.id password s.users).2) from Prod.ext hcall rfl]
      exact .changesPassword _ hstage hendpoint hpayload huser (.inl ⟨rfl, hcall⟩)
    | error e =>
      rw [show changePassword pw env.user user.id password s.users =
        (.error e, (changePassword pw env.user user.id password s.users).2) from Prod.ext hcall rfl]
      exact .changesPassword _ hstage hendpoint hpayload huser (.inr ⟨e, rfl⟩)

/-- A call that is refused without its permission is made with it, or does nothing. -/
theorem withCaller_effect (hstage : f.stage = .handler) (permission : ActionPermissions)
    {done : Nat}
    {call : CallerContext → Users H → Except UserError Unit × Users H}
    {request : CallerContext → UserRequest} (hneeds : f.endpoint.needs = some permission)
    (hrequest : ∀ caller, f.userRequest caller = some (request caller))
    (hcall : ∀ caller t, (call caller t) = handleUser pw ⟨request caller, env.user⟩ t)
    (hrefused : ∀ caller t, caller.may permission = false → (call caller t).2 = t) :
    StepEffect pw lib env f s (withCaller f.caller done call s).1
      (withCaller f.caller done call s).2 := by
  unfold withCaller
  cases hcaller : f.caller with
  | none => exact .reads _
  | some caller =>
    have heffect : ∀ answer : Answer H, StepEffect pw lib env f s (.answered answer)
        { s with users := (call caller s.users).2 } := by
      intro answer
      by_cases hmay : caller.may permission = true
      · rw [hcall]
        exact .callsUsers answer hstage ⟨permission, hneeds, caller, hcaller, hmay⟩ hcaller
          (hrequest caller)
      · rw [hrefused caller s.users (by simpa using hmay)]
        exact .reads answer
    simp only
    cases hresult : call caller s.users with
    | mk result users =>
      rw [hresult] at heffect
      cases result with
      | ok u => exact heffect _
      | error e => exact heffect _

/-- Every step of a handler has one of the effects. -/
theorem handle_effect (hstage : f.stage = .handler) :
    StepEffect pw lib env f s (handle pw lib env f s).1 (handle pw lib env f s).2 := by
  obtain ⟨client, endpoint, payload, user, stage⟩ := f
  subst hstage
  cases endpoint with
  | login => cases payload <;> first | exact login_effect rfl rfl rfl | exact .reads _
  | changePassword =>
    cases payload <;> first | exact changesPassword_effect rfl rfl rfl | exact .reads _
  | logout =>
    simp only [handle, logout]
    cases hresult : lib.logout client s.sessions with
    | mk result sessions =>
      rw [show sessions = (lib.logout client s.sessions).2 by rw [hresult]]
      cases result <;> exact .logsOut _
  | updateConfig =>
    cases payload <;> first
      | exact onConfig_effect rfl fun hauth c => withPermission_refused hauth c
      | exact .reads _
  | shutdownEbpf =>
    refine onConfig_effect rfl fun hauth c => ?_
    obtain ⟨status, hrefused⟩ := authorizedEbpfAction_refused hauth c.ebpf
    simp only [Adapters.shutdownEbpf, hrefused]
  | restartEbpf =>
    refine onConfig_effect rfl fun hauth c => ?_
    obtain ⟨status, hrefused⟩ := authorizedEbpfAction_refused hauth c.ebpf
    simp only [Adapters.restartEbpf, hrefused]
  | modifyFlow table family =>
    cases payload <;> first | exact onFlows_effect rfl | exact .reads _
  | clearFlow table family =>
    cases payload <;> first | exact onFlows_effect rfl | exact .reads _
  | modifySubnetMatching family =>
    cases family <;> cases payload <;> first
      | exact onSubnetsV4_effect rfl | exact onSubnetsV6_effect rfl | exact .reads _
  | removeSubnetMatching family =>
    cases family <;> cases payload <;> first
      | exact onSubnetsV4_effect rfl | exact onSubnetsV6_effect rfl | exact .reads _
  | listSubnetMatching family => cases family <;> exact .reads _
  | createUser =>
    cases payload <;> first
      | exact withCaller_effect rfl .CREATE rfl (fun _ => rfl) (fun _ _ => rfl)
          fun caller t hmay => by simp [createUser, hmay]
      | exact .reads _
  | modifyUser =>
    cases payload <;> first
      | exact withCaller_effect rfl .MODIFY rfl (fun _ => rfl) (fun _ _ => rfl)
          fun caller t hmay => by simp [modifyUser, hmay]
      | exact .reads _
  | renameUser =>
    cases payload <;> first
      | exact withCaller_effect rfl .MODIFY rfl (fun _ => rfl) (fun _ _ => rfl)
          fun caller t hmay => by simp [changeUsername, hmay]
      | exact .reads _
  | deleteUser =>
    cases payload <;> first
      | exact withCaller_effect rfl .DELETE rfl (fun _ => rfl) (fun _ _ => rfl)
          fun caller t hmay => by simp [deleteUser, hmay]
      | exact .reads _
  | getUser => exact .reads _
  | getRoleAndPermissions => exact .reads _
  | getConfig => exact .reads _
  | getEbpfAdapters => exact .reads _
  | getTrafficStats => exact .reads _
  | getFlows table family => exact .reads _
  | getLogs => exact .reads _
  | logWebsocket => exact .reads _
  | listUsers => exact .reads _

theorem stepFlight_effect (f : Flight H K) (s : ServerState H S K) :
    StepEffect pw lib env f s (stepFlight pw lib env f s).1 (stepFlight pw lib env f s).2 := by
  unfold stepFlight
  cases hstage : f.stage with
  | handler => exact handle_effect hstage
  | reload =>
    simp only [reloadUser]
    cases huser : f.user with
    | none => exact .reads _
    | some user =>
      simp only
      cases hget : getUser env.user.queryFails s.users user.id with
      | error e => exact .reads _
      | ok found =>
        cases found with
        | none => exact .reads _
        | some fresh => exact .reloads fresh hstage huser hget
  | signIn user => exact .signsIn user _ hstage

end Handlers

/-! ## What the layers ensure -/

theorem refusal_cons {layer : Layer} {layers : List Layer} {user : Option (AppUser H)}
    (h : refusal (layer :: layers) user = none) :
    layer.refusal user = none ∧ refusal layers user = none := by
  unfold refusal at h ⊢
  rw [List.findSome?_cons] at h
  cases hlayer : layer.refusal user with
  | none =>
    rw [hlayer] at h
    exact ⟨rfl, h⟩
  | some answer =>
    rw [hlayer] at h
    cases h

theorem loginRequired_passes {user : Option (AppUser H)}
    (h : Layer.loginRequired.refusal user = none) : ∃ u, user = some u := by
  cases user with
  | none => simp [Layer.refusal] at h
  | some u => exact ⟨u, rfl⟩

theorem requireCompletedPasswordChange_passes {u : AppUser H}
    (h : Layer.requireCompletedPasswordChange.refusal (some u) = none) :
    u.passwordMustBeChanged = false := by
  cases hflag : u.passwordMustBeChanged with
  | false => rfl
  | true => simp [Layer.refusal, hflag] at h

/-- The user of a request is logged in, and has done a required password change. -/
theorem restricted_passes {e : Endpoint} {user : Option (AppUser H)}
    (he : e.layers = [.loginRequired, .requireCompletedPasswordChange])
    (h : refusal e.layers user = none) :
    ∃ u, user = some u ∧ u.passwordMustBeChanged = false := by
  rw [he] at h
  obtain ⟨hlogin, hrest⟩ := refusal_cons h
  obtain ⟨u, rfl⟩ := loginRequired_passes hlogin
  exact ⟨u, rfl, requireCompletedPasswordChange_passes (refusal_cons hrest).1⟩

/-- An endpoint that asks for a permission is restricted. -/
theorem layers_of_needs {e : Endpoint} {permission : ActionPermissions}
    (h : e.needs = some permission) :
    e.layers = [.loginRequired, .requireCompletedPasswordChange] := by
  cases e <;> first | rfl | cases h

/-! ## Requests in flight and their arrival -/

section Runs

variable (pw : PasswordLib H) (lib : SessionLib H S K) (nt : NetworkTypes)

/-- When the request arrived, the session of its client had this account. -/
def ArrivedAs (s₀ : ServerState H S K) (es : List (ServerEvent K)) (f : Flight H K)
    (user : AppUser H) : Prop :=
  ∃ earlier method path queryFails later,
    es = earlier ++ .arrive f.client method path f.payload queryFails :: later ∧
      ∃ r ∈ (run (server pw lib nt) s₀ earlier).users,
        ActsFor lib (run (server pw lib nt) s₀ earlier).sessions f.client r ∧ r.toAppUser = user

/-- The layers have let the request pass with the user that it arrived as. -/
structure Admitted (s₀ : ServerState H S K) (es : List (ServerEvent K)) (f : Flight H K) :
    Prop where
  layers : refusal f.endpoint.layers f.user = none
  user : ∀ user, f.user = some user → ArrivedAs pw lib nt s₀ es f user

variable {pw : PasswordLib H} {lib : SessionLib H S K} {nt : NetworkTypes}
  {s₀ : ServerState H S K}

theorem ArrivedAs.later {es : List (ServerEvent K)} {f : Flight H K} {user : AppUser H}
    (h : ArrivedAs pw lib nt s₀ es f user) (e : ServerEvent K) :
    ArrivedAs pw lib nt s₀ (es ++ [e]) f user := by
  obtain ⟨earlier, method, path, queryFails, later, rfl, hr⟩ := h
  exact ⟨earlier, method, path, queryFails, later ++ [e], by simp, hr⟩

theorem Admitted.later {es : List (ServerEvent K)} {f : Flight H K}
    (h : Admitted pw lib nt s₀ es f) (e : ServerEvent K) :
    Admitted pw lib nt s₀ (es ++ [e]) f :=
  ⟨h.layers, fun user huser => (h.user user huser).later e⟩

/-- A flight keeps its client, endpoint, payload and user from step to step. -/
theorem Admitted.stage {es : List (ServerEvent K)} {f : Flight H K}
    (h : Admitted pw lib nt s₀ es f) (stage : Stage H) :
    Admitted pw lib nt s₀ es { f with stage := stage } :=
  ⟨h.layers, h.user⟩

theorem StepEffect.inFlight {env : HandlerEnv} {f : Flight H K} {s s' : ServerState H S K}
    {outcome : Outcome H} (h : StepEffect pw lib env f s outcome s') :
    s'.inFlight = s.inFlight := by
  cases h <;> rfl

/-- A request that is answered is no longer in flight. -/
def Outcome.land (outcome : Outcome H) (n : Nat) (f : Flight H K) (s : ServerState H S K) :
    ServerState H S K :=
  match outcome with
  | .answered _ => { s with inFlight := s.inFlight.eraseIdx n }
  | .continues stage => { s with inFlight := s.inFlight.set n { f with stage := stage } }

/-- A step of a request is an effect of its handler, and lands. -/
theorem proceed_cases (pw : PasswordLib H) (lib : SessionLib H S K) (n : Nat) (env : HandlerEnv)
    (s : ServerState H S K) :
    (proceed pw lib n env s).2 = s ∨ ∃ f outcome s₁, s.inFlight[n]? = some f ∧
      StepEffect pw lib env f s outcome s₁ ∧ (proceed pw lib n env s).2 = outcome.land n f s₁ := by
  unfold proceed
  cases hf : s.inFlight[n]? with
  | none => exact .inl rfl
  | some f =>
    have heffect : StepEffect pw lib env f s (stepFlight pw lib env f s).1
        (stepFlight pw lib env f s).2 := stepFlight_effect f s
    refine .inr ⟨f, _, _, rfl, heffect, ?_⟩
    cases hstep : stepFlight pw lib env f s with
    | mk outcome s₁ => cases outcome <;> simp only [hstep, Outcome.land]

/-- What is in flight after a step was there, or is the request of the step in its next
stage. -/
theorem land_inFlight {env : HandlerEnv} {f g : Flight H K} {s s₁ : ServerState H S K}
    {outcome : Outcome H} {n : Nat} (h : StepEffect pw lib env f s outcome s₁)
    (hg : g ∈ (outcome.land n f s₁).inFlight) :
    g ∈ s.inFlight ∨ ∃ stage, outcome = .continues stage ∧ g = { f with stage := stage } := by
  cases outcome with
  | answered answer =>
    simp only [Outcome.land, h.inFlight] at hg
    exact .inl (List.mem_of_mem_eraseIdx hg)
  | continues stage =>
    simp only [Outcome.land, h.inFlight] at hg
    rcases List.mem_or_eq_of_mem_set hg with hmem | heq
    · exact .inl hmem
    · exact .inr ⟨stage, rfl, heq⟩

/-- An arrival changes what is in flight, and the session that it loads. -/
theorem arrive_eq (lib : SessionLib H S K) (client : K) (method : HttpMethod) (path : String)
    (payload : Payload) (queryFails : Bool) (s : ServerState H S K) :
    (arrive lib client method path payload queryFails s).2 =
      { s with
        sessions := (lib.load (getUser queryFails s.users) client s.sessions).2
        inFlight := (arrive lib client method path payload queryFails s).2.inFlight } := by
  unfold arrive
  cases lib.load (getUser queryFails s.users) client s.sessions with
  | mk result sessions =>
    cases result with
    | error e => rfl
    | ok user =>
      cases hdispatch : dispatch combinedRouter method.handled path with
      | none => rfl
      | some x => cases hrefusal : refusal x.layers user <;> simp only [hrefusal]

/-- The request comes to its endpoint with the user that the session layer finds, and no
layer refuses it. -/
def Enters (lib : SessionLib H S K) (client : K) (method : HttpMethod) (path : String)
    (payload : Payload) (queryFails : Bool) (s : ServerState H S K) (f : Flight H K) : Prop :=
  ∃ x user, dispatch combinedRouter method.handled path = some x ∧
    (lib.load (getUser queryFails s.users) client s.sessions).1 = .ok user ∧
    refusal x.endpoint.layers user = none ∧ f = ⟨client, x.endpoint, payload, user, .handler⟩

theorem arrive_inFlight {client : K} {method : HttpMethod} {path : String} {payload : Payload}
    {queryFails : Bool} {s : ServerState H S K} {f : Flight H K}
    (hf : f ∈ (arrive lib client method path payload queryFails s).2.inFlight) :
    f ∈ s.inFlight ∨ Enters lib client method path payload queryFails s f := by
  unfold arrive at hf
  cases hload : lib.load (getUser queryFails s.users) client s.sessions with
  | mk result sessions =>
    rw [hload] at hf
    cases result with
    | error e => exact .inl hf
    | ok user =>
      simp only at hf
      cases hdispatch : dispatch combinedRouter method.handled path with
      | none =>
        rw [hdispatch] at hf
        exact .inl hf
      | some x =>
        simp only [hdispatch] at hf
        cases hrefusal : refusal x.layers user with
        | some answer =>
          rw [hrefusal] at hf
          exact .inl hf
        | none =>
          simp only [hrefusal, List.mem_append, List.mem_singleton] at hf
          rcases hf with hf | rfl
          · exact .inl hf
          · exact .inr ⟨x, user, hdispatch, by rw [hload],
              by rwa [← dispatch_layers hdispatch], rfl⟩

/-- What is in flight after an event was there, or has just arrived, or has taken a step
into its next stage. -/
theorem inFlight_step (e : ServerEvent K) (s : ServerState H S K) {g : Flight H K}
    (hg : g ∈ (server pw lib nt e s).2.inFlight) :
    g ∈ s.inFlight ∨
      (∃ client method path payload queryFails,
        e = .arrive client method path payload queryFails ∧
        Enters lib client method path payload queryFails s g) ∨
      ∃ n env f stage s₁, e = .proceed n env ∧ s.inFlight[n]? = some f ∧
        StepEffect pw lib env f s (.continues stage) s₁ ∧ g = { f with stage := stage } := by
  cases e with
  | arrive client method path payload queryFails =>
    exact (arrive_inFlight hg).imp_right fun h =>
      .inl ⟨client, method, path, payload, queryFails, rfl, h⟩
  | proceed n env =>
    rcases proceed_cases pw lib n env s with heq | ⟨f, outcome, s₁, hf, heffect, heq⟩
    · exact .inl (heq ▸ hg)
    · change g ∈ (proceed pw lib n env s).2.inFlight at hg
      rw [heq] at hg
      rcases land_inFlight heffect hg with hmem | ⟨stage, rfl, rfl⟩
      · exact .inl hmem
      · exact .inr (.inr ⟨n, env, f, stage, s₁, rfl, hf, heffect, rfl⟩)
  | expire client => exact .inl hg
  | background b => exact .inl hg

/-- Every request in flight has been admitted. -/
theorem admitted_run (hlib : lib.Lawful) (h₀ : s₀.inFlight = []) (es : List (ServerEvent K)) :
    ∀ f ∈ (run (server pw lib nt) s₀ es).inFlight, Admitted pw lib nt s₀ es f := by
  induction es using List.reverseRecOn with
  | nil => simp [h₀]
  | append_singleton es e ih =>
    intro f hf
    rw [run_concat] at hf
    rcases inFlight_step e _ hf with hmem | ⟨client, method, path, payload, queryFails, rfl, x,
      user, -, hload, hlayers, rfl⟩ | ⟨n, env, g, stage, s₁, rfl, hg, -, rfl⟩
    · exact (ih f hmem).later e
    · refine ⟨hlayers, fun u hu => ⟨es, method, path, queryFails, [], rfl, ?_⟩⟩
      subst hu
      exact hlib.load_account hload
    · exact ((ih g (List.mem_of_getElem? hg)).later _).stage stage

end Runs

/-! ## What a change needs -/

def forgetLogin (r : UsersRow H) : UsersRow H := { r with lastLoginAt := none }

/-- The accounts and the firewall. When somebody last logged in is not a part of it. -/
def ServerState.secured (s : ServerState H S K) :
    Users H × FirewallState × List (SubnetRow Int) × List (SubnetRow (List UInt8)) :=
  (s.users.map forgetLogin, s.firewall, s.rowsV4, s.rowsV6)

/-- Only the password of the account with this id is set, and with it its flag. -/
structure OnlyPassword (id : Int) (s s' : ServerState H S K) : Prop where
  firewall : s'.firewall = s.firewall
  rowsV4 : s'.rowsV4 = s.rowsV4
  rowsV6 : s'.rowsV6 = s.rowsV6
  users : ∃ hash, s'.users = rewrite (fun r => r.id = id)
    (fun r => { r with passwordHash := hash, passwordMustBeChanged := 0 }) s.users

/-- Only entries and buckets of flows change. -/
structure OnlyFlows (s s' : ServerState H S K) : Prop where
  users : s'.users = s.users
  policy : s'.firewall.maps.toPolicy = s.firewall.maps.toPolicy
  row : s'.firewall.row = s.firewall.row
  ebpf : s'.firewall.ebpf = s.firewall.ebpf
  rowsV4 : s'.rowsV4 = s.rowsV4
  rowsV6 : s'.rowsV6 = s.rowsV6

/-- The account has the permission of the endpoint and a password of its own, or the
endpoint sets the password of the account. -/
def Entitled (e : Endpoint) (user : AppUser H) (s s' : ServerState H S K) : Prop :=
  (∃ permission, e.needs = some permission ∧ user.role = .admin ∧
      user.permissions.contains permission = true ∧ user.passwordMustBeChanged = false) ∨
    (e = .changePassword ∧ OnlyPassword user.id s s')

theorem authenticate_forgets (pw : PasswordLib H) (env : UserEnv) (username password : String)
    (t : Users H) :
    (authenticate pw env username password t).2.map forgetLogin = t.map forgetLogin := by
  have h := handleUser_effect pw ⟨.authenticate username password, env⟩ t
  generalize (handleUser pw ⟨.authenticate username password, env⟩ t).1 = answer at h
  change (handleUser pw ⟨.authenticate username password, env⟩ t).2.map forgetLogin = _
  generalize (handleUser pw ⟨.authenticate username password, env⟩ t).2 = t' at h ⊢
  cases h with
  | none => rfl
  | loggedIn id hc =>
    simp only [rewrite, List.map_map]
    refine List.map_congr_left fun r _ => ?_
    simp only [Function.comp_apply]
    split <;> rfl
  | created row hc => cases hc
  | bootstrapped row hc => cases hc
  | deleted hc => cases hc
  | modified hash hc => cases hc
  | passwordChanged hash hc => cases hc
  | renamed hc => cases hc

theorem changePassword_only (pw : PasswordLib H) (env : UserEnv) (id : Int) (password : String)
    (s : ServerState H S K)
    (h : (changePassword pw env id password s.users).2.map forgetLogin ≠
      s.users.map forgetLogin) :
    OnlyPassword id s { s with users := (changePassword pw env id password s.users).2 } := by
  have heffect := handleUser_effect pw ⟨.changePassword id password, env⟩ s.users
  generalize (handleUser pw ⟨.changePassword id password, env⟩ s.users).1 = answer at heffect
  change (handleUser pw ⟨.changePassword id password, env⟩ s.users).2.map forgetLogin ≠ _ at h
  change OnlyPassword id s
    { s with users := (handleUser pw ⟨.changePassword id password, env⟩ s.users).2 }
  generalize (handleUser pw ⟨.changePassword id password, env⟩ s.users).2 = t' at h heffect ⊢
  cases heffect with
  | none => exact absurd rfl h
  | passwordChanged hash hc =>
    cases hc
    exact ⟨rfl, rfl, rfl, hash, rfl⟩
  | created row hc => cases hc
  | bootstrapped row hc => cases hc
  | deleted hc => cases hc
  | modified hash hc => cases hc
  | renamed hc => cases hc
  | loggedIn id hc => cases hc

/-- A step of a request that changes something is entitled to. -/
theorem StepEffect.entitled {pw : PasswordLib H} {lib : SessionLib H S K} {env : HandlerEnv}
    {f : Flight H K} {s s' : ServerState H S K} {outcome : Outcome H}
    (h : StepEffect pw lib env f s outcome s') (hlayers : refusal f.endpoint.layers f.user = none)
    (hchange : s'.secured ≠ s.secured) :
    ∃ user, f.user = some user ∧ Entitled f.endpoint user s s' := by
  have hauthorized : f.Authorized → ∃ user, f.user = some user ∧
      Entitled f.endpoint user s s' := by
    rintro ⟨permission, hneeds, caller, hcaller, hmay⟩
    obtain ⟨user, huser, hflag⟩ := restricted_passes (layers_of_needs hneeds) hlayers
    simp only [Flight.caller, huser, Option.map_some, Option.some.injEq] at hcaller
    subst hcaller
    simp only [CallerContext.may, Bool.and_eq_true, decide_eq_true_eq] at hmay
    exact ⟨user, huser, .inl ⟨permission, hneeds, hmay.1, hmay.2, hflag⟩⟩
  cases h with
  | reads => exact absurd rfl hchange
  | authenticates user hstage hendpoint hpayload hauth =>
    exact absurd (by simp [ServerState.secured, authenticate_forgets]) hchange
  | changesPassword outcome hstage hendpoint hpayload huser houtcome =>
    refine ⟨_, huser, .inr ⟨hendpoint, changePassword_only pw env.user _ _ s fun hsame => ?_⟩⟩
    exact hchange (by simp [ServerState.secured, hsame])
  | reloads => exact absurd rfl hchange
  | signsIn => exact absurd rfl hchange
  | logsOut => exact absurd rfl hchange
  | callsUsers answer hstage hauth => exact hauthorized hauth
  | changesFirewall answer firewall rowsV4 rowsV6 hauth => exact hauthorized hauth

theorem background_onlyFlows (nt : NetworkTypes) (b : Background) (s : ServerState H S K) :
    OnlyFlows s { s with firewall := (operate nt b.occurrence s.firewall).2 } := by
  cases b with
  | packet ctx => exact ⟨rfl, by simp [Background.occurrence, operate], rfl, rfl, rfl, rfl⟩
  | cleanup now keysV4 keysV6 => exact ⟨rfl, rfl, rfl, rfl, rfl, rfl⟩
  | evict table key => exact ⟨rfl, by simp [Background.occurrence, operate], rfl, rfl, rfl, rfl⟩

section Mediation

variable (pw : PasswordLib H) (lib : SessionLib H S K) (nt : NetworkTypes)

/-- Whatever `e` changes after `es`, it is the step of a request whose client had, when it
sent the request, a session for an account that is entitled to the change. Packets,
cleanups and evictions need none for what they do to the flows. -/
def Mediated (s₀ : ServerState H S K) (es : List (ServerEvent K)) (e : ServerEvent K) : Prop :=
  let s := run (server pw lib nt) s₀ es
  let s' := run (server pw lib nt) s₀ (es ++ [e])
  s'.secured ≠ s.secured →
    (∃ n env f user, e = .proceed n env ∧ s.inFlight[n]? = some f ∧ f.user = some user ∧
      ArrivedAs pw lib nt s₀ es f user ∧ Entitled f.endpoint user s s') ∨
    ((∃ b, e = .background b) ∧ OnlyFlows s s')

/-- In every run without requests in flight at its start, every change of the accounts or
the firewall is mediated. -/
theorem changes_mediated (hlib : lib.Lawful) (s₀ : ServerState H S K) (h₀ : s₀.inFlight = [])
    (es : List (ServerEvent K)) (e : ServerEvent K) : Mediated pw lib nt s₀ es e := by
  intro hchange
  have hadmitted : ∀ f ∈ (run (server pw lib nt) s₀ es).inFlight,
      Admitted pw lib nt s₀ es f := admitted_run hlib h₀ es
  rw [run_concat] at hchange ⊢
  generalize run (server pw lib nt) s₀ es = s at hadmitted hchange ⊢
  generalize hs' : (server pw lib nt e s).2 = s' at hchange ⊢
  replace hs' := hs'.symm
  cases e with
  | arrive client method path payload queryFails =>
    exact absurd (by rw [hs', server, arrive_eq]; rfl) hchange
  | expire client => exact absurd (by rw [hs']; rfl) hchange
  | background b => exact .inr ⟨⟨b, rfl⟩, by rw [hs']; exact background_onlyFlows nt b s⟩
  | proceed n env =>
    change s' = (proceed pw lib n env s).2 at hs'
    rcases proceed_cases pw lib n env s with heq | ⟨f, outcome, s₁, hf, heffect, heq⟩
    · exact absurd (by rw [hs', heq]) hchange
    · have hf' := hadmitted f (List.mem_of_getElem? hf)
      rw [heq] at hs'
      have hsame : s'.secured = s₁.secured := by
        rw [hs']
        cases outcome <;> rfl
      obtain ⟨user, huser, hentitled⟩ := heffect.entitled hf'.layers (hsame ▸ hchange)
      refine .inl ⟨n, env, f, user, rfl, hf, huser, hf'.user user huser, ?_⟩
      rcases hentitled with hpermission | ⟨hendpoint, honly⟩
      · exact .inl hpermission
      · refine .inr ⟨hendpoint, ?_⟩
        rw [hs']
        cases outcome <;> exact ⟨honly.firewall, honly.rowsV4, honly.rowsV6, honly.users⟩

end Mediation

/-- The first administrator asks for a second account. -/
def secondAccount : List (ServerEvent Nat) :=
  onboarding ++ [.arrive 0 .POST "/api/v1/users/create_user"
    (.createUser "viewer" "twelve drummers drumming" .viewer .NONE true) false]

theorem changes_mediated_account :
    Mediated saltedLib listSessions rfcTypes freshServer secondAccount (.proceed 0 (calmEnv [2])) ∧
      (run (server saltedLib listSessions rfcTypes) freshServer
        (secondAccount ++ [.proceed 0 (calmEnv [2])])).secured ≠
      (run (server saltedLib listSessions rfcTypes) freshServer secondAccount).secured :=
  ⟨changes_mediated saltedLib listSessions rfcTypes listSessions_lawful freshServer rfl
      secondAccount _,
    fun h => absurd (congrArg (fun x => x.1.length) h) (by decide +kernel)⟩

end Oxidrop.Server
