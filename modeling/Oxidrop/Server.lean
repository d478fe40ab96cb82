import Oxidrop.Adapters
import Oxidrop.Operation
import Oxidrop.Routes
import Oxidrop.Sessions

/-!
# The server

A request arrives: the session layer looks its user up, the router finds its endpoint,
and the layers of the endpoint let it pass or answer it. From then on it is in flight
with the user as found, and its handler runs at some later point, after any number of
other events. A handler that asks the session layer for a login, or that reads again
what it has written, takes a step for each.
-/
namespace Oxidrop.Server

open Run Table Routing Management Operation

/-! ## Answers -/

inductive Permission where
  | create | modify | delete
  deriving DecidableEq, Repr

/-- `UserRow`. -/
structure ListedUser where
  id : Int
  username : String
  role : String
  permissions : Int
  isActive : Bool
  deriving DecidableEq, Repr

inductive Content (H : Type) where
  | body (body : Body)
  | error (message : String)
  | redirect (location : String)
  /-- A redirect to log in. `next` is the path to come back to, before its encoding. -/
  | redirectNext (location next : String)
  | user (user : AppUser H)
  | roleAndPermissions (role : RolesUser) (permissions : List Permission)
  | users (users : List ListedUser)
  | subnetsV4 (entries : List (SubnetMatchUpdate UInt32))
  | subnetsV6 (entries : List (SubnetMatchUpdate Words))

inductive Answer (H : Type) where
  | reply (status : Nat) (content : Content H)
  /-- The frontend, a wrong method, or a body that an extractor rejects. -/
  | framework
  /-- What a handler answers that only reads flows, adapters, counters or logs. -/
  | observed

/-- `StatusCode::as_u16`. -/
def asU16 : StatusCode → Nat
  | .OK => 200
  | .NO_CONTENT => 204
  | .BAD_REQUEST => 400
  | .UNAUTHORIZED => 401
  | .INTERNAL_SERVER_ERROR => 500
  | .SERVICE_UNAVAILABLE => 503

def Answer.ofResponse {H : Type} (r : Response) : Answer H := .reply (asU16 r.status) (.body r.body)

def Answer.ofStatus {H : Type} (status : Nat) : Answer H := .reply status (.body .empty)

/-- `impl IntoResponse for UserError`. -/
def Answer.ofUserError {H : Type} : UserError → Answer H
  | .userExists _ => .reply 409 (.error "User already exists")
  | .invalidCredentials => .reply 401 (.error "Invalid credentials")
  | .notFound _ => .reply 404 (.error "User not found")
  | .lackingPermission => .reply 403 (.error "Insufficient permissions")
  | .weakPassword reason => .reply 400 (.error ("Password requirement not met: " ++ reason))
  | .database _ => .reply 500 (.error "An internal server error occurred")
  | .internal _ => .reply 500 (.error "An internal server error occurred")

/-! ## Requests in flight -/

/-- What the extractor of a handler makes of the body. -/
inductive Payload where
  | none
  | credentials (username password : String)
  | changePassword (password : String)
  | createUser (username password : String) (role : RolesUser) (permissions : ActionPermissions)
    (passwordMustBeChanged : Bool)
  | modifyUser (targetUsername : String) (role : RolesUser) (permissions : ActionPermissions)
    (isActive : Int) (password : Option String)
  | renameUser (currentUsername newUsername : String)
  | deleteUser (targetUsername : String)
  | patch (patch : ConfigPatch)
  | flow (contentType : ContentType) (body : Option Serde.Json)
  | subnetV4 (rule : SubnetMatchUpdate UInt32)
  | subnetV6 (rule : SubnetMatchUpdate Words)

/-- How far the handler of a request has come. -/
inductive Stage (H : Type) where
  | handler
  /-- `change_password` has written its hash and reads its row again. -/
  | reload
  /-- The session layer is about to log a user in. -/
  | signIn (user : AppUser H)

structure Flight (H K : Type) where
  client : K
  endpoint : Endpoint
  payload : Payload
  user : Option (AppUser H)
  stage : Stage H

def Flight.caller {H K : Type} (f : Flight H K) : Option CallerContext :=
  f.user.map fun user => ⟨user.role, user.permissions⟩

structure ServerState (H S K : Type) where
  users : Users H
  sessions : S
  firewall : FirewallState
  rowsV4 : List (SubnetRow Int)
  rowsV6 : List (SubnetRow (List UInt8))
  inFlight : List (Flight H K)

/-- What one step of a handler meets in its environment. -/
structure HandlerEnv where
  user : UserEnv
  outcomes : AttachOutcomes
  configFaults : ConfigFaults
  subnetFaults : SubnetFaults
  insertFails : Bool
  yieldedV4 : List Ipv4Packet
  yieldedV6 : List Ipv6Packet

/-- A step of a handler ends it or leads to the next. -/
inductive Outcome (H : Type) where
  | answered (answer : Answer H)
  | continues (stage : Stage H)

section Handlers

variable {H S K : Type} (pw : PasswordLib H) (lib : SessionLib H S K) (env : HandlerEnv)

abbrev Handler (H S K : Type) := ServerState H S K → Outcome H × ServerState H S K

/-! ## Sessions and passwords -/

def login (username password : String) : Handler H S K := fun s =>
  match authenticate pw env.user username password s.users with
  | (.ok (some user), users) => (.continues (.signIn user), { s with users := users })
  | (.ok none, users) => (.answered (.ofStatus 401), { s with users := users })
  | (.error _, users) => (.answered (.ofStatus 401), { s with users := users })

def logout (client : K) : Handler H S K := fun s =>
  match lib.logout client s.sessions with
  | (.ok _, sessions) =>
    (.answered (.reply 303 (.redirect "/login")), { s with sessions := sessions })
  | (.error _, sessions) => (.answered (.ofStatus 500), { s with sessions := sessions })

def getUserEndpoint (user : Option (AppUser H)) : Answer H :=
  match user with
  | some user => .reply 200 (.user user)
  | none => .ofStatus 401

def getAllPermissions (user : AppUser H) : List Permission :=
  [(ActionPermissions.CREATE, Permission.create), (.MODIFY, .modify), (.DELETE, .delete)].filterMap
    fun p => if user.permissions.contains p.1 then some p.2 else none

def getRoleAndPermissions (user : Option (AppUser H)) : Answer H :=
  match user with
  | some user =>
    .reply 200 (.roleAndPermissions user.role (getAllPermissions user))
  | none => .ofStatus 401

def changePasswordEndpoint (user : Option (AppUser H)) (password : String) : Handler H S K :=
  fun s =>
    match user with
    | none => (.answered (.ofStatus 401), s)
    | some user =>
      match changePassword pw env.user user.id password s.users with
      | (.ok _, users) => (.continues .reload, { s with users := users })
      | (.error e, users) => (.answered (.ofUserError e), { s with users := users })

/-- The rest of `change_password_endpoint`, up to the login. -/
def reloadUser (user : Option (AppUser H)) : Handler H S K := fun s =>
  match user with
  | none => (.answered (.ofStatus 401), s)
  | some user =>
    match getUser env.user.queryFails s.users user.id with
    | .ok (some user) => (.continues (.signIn user), s)
    | .ok none => (.answered (.ofStatus 401), s)
    | .error _ => (.answered (.ofStatus 500), s)

/-- `auth_session.login`, with the answer of the handler that called it. -/
def signIn (client : K) (endpoint : Endpoint) (user : AppUser H) : Handler H S K := fun s =>
  let r := lib.login user client s.sessions
  let answer : Answer H :=
    match endpoint, r.1 with
    | .changePassword, .ok _ => .ofStatus 204
    | .changePassword, .error _ =>
      .reply 409 (.body (.text "Password changed. Please sign in again."))
    | _, .ok _ => .ofStatus 200
    | _, .error _ => .ofStatus 500
  (.answered answer, { s with sessions := r.2 })

/-! ## Users -/

/-- A handler that calls the database for its caller. -/
def withCaller (caller : Option CallerContext) (done : Nat)
    (call : CallerContext → Users H → Except UserError Unit × Users H) : Handler H S K := fun s =>
  match caller with
  | none => (.answered (.ofStatus 401), s)
  | some caller =>
    match call caller s.users with
    | (.ok _, users) => (.answered (.ofStatus done), { s with users := users })
    | (.error e, users) => (.answered (.ofUserError e), { s with users := users })

def createUserEndpoint (caller : Option CallerContext) (username password : String)
    (role : RolesUser) (permissions : ActionPermissions) (passwordMustBeChanged : Bool) :
    Handler H S K :=
  withCaller caller 201 fun caller =>
    createUser pw env.user caller username password role permissions passwordMustBeChanged

def modifyUserEndpoint (caller : Option CallerContext) (targetUsername : String)
    (role : RolesUser) (permissions : ActionPermissions) (isActive : Int)
    (password : Option String) : Handler H S K :=
  withCaller caller 200 fun caller =>
    modifyUser pw env.user caller targetUsername role permissions isActive password

def renameUserEndpoint (caller : Option CallerContext) (currentUsername newUsername : String) :
    Handler H S K :=
  withCaller caller 200 fun caller => changeUsername env.user caller currentUsername newUsername

def deleteUserEndpoint (caller : Option CallerContext) (targetUsername : String) :
    Handler H S K :=
  withCaller caller 204 fun caller => deleteUser env.user targetUsername caller

def listed (r : UsersRow H) : ListedUser where
  id := r.id
  username := r.username
  role := match r.role with
    | .admin => "Admin"
    | .viewer => "Viewer"
  permissions := r.actionPermissions.toNat
  isActive := r.isActive != 0

/-- `ORDER BY id ASC`. -/
def getAllUsers (queryFails : Bool) (t : Users H) : Except SqlxError (List ListedUser) :=
  if queryFails then .error .statement
  else .ok ((t.insertionSort fun r r' => r.id ≤ r'.id).map listed)

def listUsers (user : Option (AppUser H)) (t : Users H) : Answer H :=
  match user with
  | none => .ofStatus 401
  | some user =>
    if user.role ≠ .admin then .ofStatus 403
    else
      match getAllUsers env.user.queryFails t with
      | .ok users => .reply 200 (.users users)
      | .error _ => .ofStatus 500

/-! ## The firewall -/

/-- A handler that works on CONFIG, its row and the programs. -/
def onConfig (handler : ConfigState → Response × ConfigState) : Handler H S K := fun s =>
  let r := handler (configState s.firewall)
  (.answered (.ofResponse r.1), { s with firewall := setConfigState s.firewall r.2 })

def getConfig (s : ServerState H S K) : Answer H :=
  match s.firewall.maps.config with
  | some config => .ofResponse ⟨.OK, .config config⟩
  | none => .ofResponse ⟨.INTERNAL_SERVER_ERROR, .text "CONFIG map not initialized"⟩

/-- A handler that works on the four flow maps. -/
def onFlows (request : FlowRequest) : Handler H S K := fun s =>
  let r := serve request s.firewall.maps
  (.answered (match r.1 with
    | some response => .ofResponse response
    | none => .framework),
    { s with firewall := { s.firewall with maps := r.2 } })

def flowRequest (f : Flight H K) (method : Management.Method) (table : FlowTable)
    (family : Family) (contentType : ContentType) (body : Option Serde.Json) : FlowRequest :=
  ⟨method, table, family, f.caller, contentType, body, env.insertFails, env.yieldedV4,
    env.yieldedV6⟩

def onSubnetsV4 (handler : SubnetStore Int → Response × SubnetStore Int) : Handler H S K := fun s =>
  let r := handler ⟨s.firewall.maps.subnetMatchingV4, s.rowsV4⟩
  (.answered (.ofResponse r.1),
    { s with
      firewall := { s.firewall with maps := { s.firewall.maps with subnetMatchingV4 := r.2.trie } }
      rowsV4 := r.2.rows })

def onSubnetsV6 (handler : SubnetStore (List UInt8) → Response × SubnetStore (List UInt8)) :
    Handler H S K := fun s =>
  let r := handler ⟨s.firewall.maps.subnetMatchingV6, s.rowsV6⟩
  (.answered (.ofResponse r.1),
    { s with
      firewall := { s.firewall with maps := { s.firewall.maps with subnetMatchingV6 := r.2.trie } }
      rowsV6 := r.2.rows })

/-- `list_subnet_matching_v4` and `list_subnet_matching_v6`. -/
def listSubnetMatching {ν κ : Type} (f : SubnetFamily ν κ)
    (content : List (SubnetMatchUpdate ν) → Content H) (user : Option (AppUser H))
    (rows : List (SubnetRow κ)) : Answer H :=
  match user with
  | none => .ofStatus 401
  | some _ =>
    if env.user.queryFails then .ofStatus 500
    else
      match f.listSubnet rows with
      | .ok entries => .reply 200 (content entries)
      | .error _ => .ofStatus 500

/-- `get_logs` and `log_websocket` are for administrators. -/
def readLogs (user : Option (AppUser H)) : Answer H :=
  match user with
  | some user => if user.role = .admin then .observed else .ofStatus 403
  | none => .ofStatus 403

/-! ## One step of a handler -/

def answers (answer : Answer H) : Handler H S K := fun s => (.answered answer, s)

/-- A payload that is not the one of the endpoint is what an extractor rejects. -/
def handle (f : Flight H K) : Handler H S K := fun s =>
  match f.endpoint, f.payload with
  | .login, .credentials username password => login pw env username password s
  | .getUser, _ => answers (getUserEndpoint f.user) s
  | .logout, _ => logout lib f.client s
  | .changePassword, .changePassword password => changePasswordEndpoint pw env f.user password s
  | .getRoleAndPermissions, _ => answers (getRoleAndPermissions f.user) s
  | .getConfig, _ => answers (getConfig s) s
  | .updateConfig, .patch patch =>
    onConfig (updateConfig f.caller patch env.outcomes env.configFaults) s
  | .getEbpfAdapters, _ => answers .observed s
  | .shutdownEbpf, _ =>
    onConfig (Adapters.shutdownEbpf f.caller env.outcomes env.configFaults) s
  | .restartEbpf, _ => onConfig (Adapters.restartEbpf f.caller env.outcomes) s
  | .getTrafficStats, _ => answers .observed s
  | .getFlows _ _, _ => answers .observed s
  | .modifyFlow table family, .flow contentType body =>
    onFlows (flowRequest env f .POST table family contentType body) s
  | .clearFlow table family, .flow contentType body =>
    onFlows (flowRequest env f .DELETE table family contentType body) s
  | .listSubnetMatching .v4, _ =>
    answers (listSubnetMatching env subnetFamilyV4 .subnetsV4 f.user s.rowsV4) s
  | .listSubnetMatching .v6, _ =>
    answers (listSubnetMatching env subnetFamilyV6 .subnetsV6 f.user s.rowsV6) s
  | .modifySubnetMatching .v4, .subnetV4 rule =>
    onSubnetsV4 (subnetFamilyV4.modifySubnetMatching f.caller env.subnetFaults rule) s
  | .modifySubnetMatching .v6, .subnetV6 rule =>
    onSubnetsV6 (subnetFamilyV6.modifySubnetMatching f.caller env.subnetFaults rule) s
  | .removeSubnetMatching .v4, .subnetV4 rule =>
    onSubnetsV4 (subnetFamilyV4.removeSubnetMatching f.caller env.subnetFaults rule) s
  | .removeSubnetMatching .v6, .subnetV6 rule =>
    onSubnetsV6 (subnetFamilyV6.removeSubnetMatching f.caller env.subnetFaults rule) s
  | .getLogs, _ => answers (readLogs f.user) s
  | .logWebsocket, _ => answers (readLogs f.user) s
  | .createUser, .createUser username password role permissions passwordMustBeChanged =>
    createUserEndpoint pw env f.caller username password role permissions passwordMustBeChanged s
  | .modifyUser, .modifyUser targetUsername role permissions isActive password =>
    modifyUserEndpoint pw env f.caller targetUsername role permissions isActive password s
  | .renameUser, .renameUser currentUsername newUsername =>
    renameUserEndpoint env f.caller currentUsername newUsername s
  | .deleteUser, .deleteUser targetUsername =>
    deleteUserEndpoint env f.caller targetUsername s
  | .listUsers, _ => answers (listUsers env f.user s.users) s
  | _, _ => answers .framework s

def stepFlight (f : Flight H K) : Handler H S K :=
  match f.stage with
  | .handler => handle pw lib env f
  | .reload => reloadUser env f.user
  | .signIn user => signIn lib f.client f.endpoint user

end Handlers

/-! ## Events -/

/-- What changes the state without a request. -/
inductive Background where
  | packet (ctx : XdpContext)
  | cleanup (now : UInt64) (keysV4 : List Ipv4Packet) (keysV6 : List Ipv6Packet)
  | evict (table : FlowTable) (key : FlowKey)

def Background.occurrence : Background → Occurrence
  | .packet ctx => .packet ctx
  | .cleanup now keysV4 keysV6 => .cleanup now keysV4 keysV6
  | .evict table key => .evict table key

inductive ServerEvent (K : Type) where
  | arrive (client : K) (method : HttpMethod) (path : String) (payload : Payload)
    (queryFails : Bool)
  /-- The handler of a request in flight takes its next step. -/
  | proceed (n : Nat) (env : HandlerEnv)
  | expire (client : K)
  | background (b : Background)

section Step

variable {H S K : Type} (pw : PasswordLib H) (lib : SessionLib H S K) (nt : NetworkTypes)

/-- What stops a request before its endpoint. -/
inductive Refusal where
  | notLoggedIn | passwordChangeRequired
  deriving DecidableEq, Repr

def Refusal.answer (path : String) : Refusal → Answer H
  | .notLoggedIn => .reply 307 (.redirectNext "/api/v1/login" path)
  | .passwordChangeRequired =>
    .reply 403 (.body (.text "Password change required before using this service"))

/-- A layer passes a request on or answers it. -/
def Layer.refusal (layer : Layer) (user : Option (AppUser H)) : Option Refusal :=
  match layer, user with
  | .loginRequired, none => some .notLoggedIn
  | .loginRequired, some _ => none
  | .requireCompletedPasswordChange, user =>
    if user.any (fun user => !user.passwordMustBeChanged) then none
    else some .passwordChangeRequired

/-- The first layer that does not pass a request on. -/
def refusal (layers : List Layer) (user : Option (AppUser H)) : Option Refusal :=
  layers.findSome? fun layer => layer.refusal user

/-- A request without an endpoint. The layers of a path also stand before the answer to a wrong
method, and other paths go to the frontend. -/
def unrouted (path : String) (user : Option (AppUser H)) : Answer H :=
  match (covering combinedRouter path).bind fun x => refusal x.layers user with
  | some refused => refused.answer path
  | none => .framework

def arrive (client : K) (method : HttpMethod) (path : String) (payload : Payload)
    (queryFails : Bool) (s : ServerState H S K) : Option (Answer H) × ServerState H S K :=
  match lib.load (getUser queryFails s.users) client s.sessions with
  | (.error _, sessions) => (some (.ofStatus 500), { s with sessions := sessions })
  | (.ok user, sessions) =>
    match dispatch combinedRouter method.handled path with
    | none => (some (unrouted path user), { s with sessions := sessions })
    | some x =>
      match refusal x.layers user with
      | some refused => (some (refused.answer path), { s with sessions := sessions })
      | none =>
        (none, { s with
          sessions := sessions
          inFlight := s.inFlight ++ [⟨client, x.endpoint, payload, user, .handler⟩] })

def proceed (n : Nat) (env : HandlerEnv) (s : ServerState H S K) :
    Option (Answer H) × ServerState H S K :=
  match s.inFlight[n]? with
  | none => (none, s)
  | some f =>
    match stepFlight pw lib env f s with
    | (.answered answer, s) => (some answer, { s with inFlight := s.inFlight.eraseIdx n })
    | (.continues stage, s) =>
      (none, { s with inFlight := s.inFlight.set n { f with stage := stage } })

def server : Machine (ServerEvent K) (ServerState H S K) (Option (Answer H))
  | .arrive client method path payload queryFails, s =>
    arrive lib client method path payload queryFails s
  | .proceed n env, s => proceed pw lib n env s
  | .expire client, s => (none, { s with sessions := lib.expire client s.sessions })
  | .background b, s => (none, { s with firewall := (operate nt b.occurrence s.firewall).2 })

end Step

/-! ## A fresh installation -/

abbrev FreshState := ServerState (String × Salt) (List (Nat × SessionData (String × Salt))) Nat

/-- The server after its first start. -/
def freshServer : FreshState where
  users := (bootstrapDefaultAdmin saltedLib .calm []).2
  sessions := []
  firewall := ⟨freshMaps defaultConfig, none, EbpfProgramm.new⟩
  rowsV4 := []
  rowsV6 := []
  inFlight := []

/-- The environment of a step in which nothing fails. -/
def calmEnv (salt : Salt) : HandlerEnv where
  user := ⟨salt, 0, false, false⟩
  outcomes := noAttach
  configFaults := .never
  subnetFaults := ⟨false, false, false⟩
  insertFails := false
  yieldedV4 := []
  yieldedV6 := []

/-- A client logs in as the default administrator. -/
def firstLogin (client : Nat) : List (ServerEvent Nat) :=
  [.arrive client .POST "/api/v1/login"
      (.credentials DEFAULT_ADMIN_USERNAME DEFAULT_ADMIN_PASSWORD) false,
    .proceed 0 (calmEnv []), .proceed 0 (calmEnv [])]

/-- A client sets its password. -/
def setPassword (client : Nat) (password : String) (salt : Salt) : List (ServerEvent Nat) :=
  [.arrive client .POST "/api/v1/change_password" (.changePassword password) false,
    .proceed 0 (calmEnv salt), .proceed 0 (calmEnv salt), .proceed 0 (calmEnv salt)]

def goodPassword : String := "eleven pipers piping"

/-- The first administrator has set a password. -/
def onboarding : List (ServerEvent Nat) := firstLogin 0 ++ setPassword 0 goodPassword [1]

end Oxidrop.Server
