import Oxidrop.Lib.Router
import Oxidrop.Management

/-!
# The routes of the management interface

The routers are put together as the source does it: each group of routes takes its
layers before the groups are merged. The frontend behind the fallback is not a part of
it.
-/
namespace Oxidrop.Server

open Routing Management

inductive HttpMethod where
  | GET | HEAD | POST | PUT | PATCH | DELETE | other
  deriving DecidableEq, Repr

/-- A HEAD request runs the handler of GET. -/
def HttpMethod.handled : HttpMethod → HttpMethod
  | .HEAD => .GET
  | method => method

inductive Layer where
  | loginRequired | requireCompletedPasswordChange
  deriving DecidableEq, Repr

inductive Endpoint where
  | login | getUser | logout | changePassword | getRoleAndPermissions
  | getConfig | updateConfig | getEbpfAdapters | shutdownEbpf | restartEbpf | getTrafficStats
  | getFlows (table : FlowTable) (family : Family)
  | modifyFlow (table : FlowTable) (family : Family)
  | clearFlow (table : FlowTable) (family : Family)
  | listSubnetMatching (family : Family)
  | modifySubnetMatching (family : Family)
  | removeSubnetMatching (family : Family)
  | getLogs | logWebsocket
  | createUser | modifyUser | deleteUser | renameUser | listUsers
  deriving DecidableEq, Repr

abbrev ApiRouter := Router HttpMethod Endpoint Layer

def unsafeRouter : ApiRouter :=
  merge (route "/login" [(.POST, .login)]) (route "/get_user" [(.GET, .getUser)])

def flowRoute (path : String) (table : FlowTable) (family : Family) : ApiRouter :=
  route path
    [(.GET, .getFlows table family), (.POST, .modifyFlow table family),
      (.DELETE, .clearFlow table family)]

def subnetRoute (path : String) (family : Family) : ApiRouter :=
  route path
    [(.GET, .listSubnetMatching family), (.POST, .modifySubnetMatching family),
      (.DELETE, .removeSubnetMatching family)]

def configRouter : ApiRouter :=
  [route "/" [(.GET, .getConfig), (.POST, .updateConfig)],
    route "/adapters" [(.GET, .getEbpfAdapters)],
    route "/ebpf/shutdown" [(.POST, .shutdownEbpf)],
    route "/ebpf/restart" [(.POST, .restartEbpf)],
    route "/traffic" [(.GET, .getTrafficStats)],
    flowRoute "/allow_list/v4" .allowList .v4,
    flowRoute "/allow_list/v6" .allowList .v6,
    flowRoute "/packet_counts/v4" .packetCounts .v4,
    flowRoute "/packet_counts/v6" .packetCounts .v6,
    subnetRoute "/subnet/v4" .v4,
    subnetRoute "/subnet/v6" .v6].foldr merge []

def userRoutes : ApiRouter :=
  [route "/create_user" [(.POST, .createUser)],
    route "/modify_user" [(.PUT, .modifyUser)],
    route "/delete_user" [(.DELETE, .deleteUser)],
    route "/rename_user" [(.PATCH, .renameUser)],
    route "/get_all_user" [(.GET, .listUsers)]].foldr merge []

def passwordChangeRoute : ApiRouter :=
  routeLayer .loginRequired (route "/change_password" [(.POST, .changePassword)])

def restrictedRoutes : ApiRouter :=
  routeLayer .loginRequired <| routeLayer .requireCompletedPasswordChange <|
    [route "/role_and_permissions" [(.GET, .getRoleAndPermissions)],
      nest "/config" configRouter,
      route "/logs" [(.GET, .getLogs)],
      route "/logs/ws" [(.GET, .logWebsocket)],
      nest "/users" userRoutes].foldr merge []

def safeRouter : ApiRouter :=
  merge (merge (routeLayer .loginRequired (route "/logout" [(.GET, .logout)]))
    passwordChangeRoute) restrictedRoutes

def combinedRouter : ApiRouter := nest "/api/v1" (merge unsafeRouter safeRouter)

/-! ## What stands before an endpoint -/

/-- The layers that a request for an endpoint passes. -/
def Endpoint.layers : Endpoint → List Layer
  | .login | .getUser => []
  | .logout | .changePassword => [.loginRequired]
  | _ => [.loginRequired, .requireCompletedPasswordChange]

theorem every_nil {P : Endpoint → List Layer → Prop} : Every P ([] : ApiRouter) := by
  simp [Every]

theorem every_configRouter {layers : List Layer}
    (h : layers = [.loginRequired, .requireCompletedPasswordChange]) :
    Every (fun e below => layers ++ below = e.layers) configRouter := by
  subst h
  simp [configRouter, flowRoute, subnetRoute, every_route, every_nil, Endpoint.layers]

theorem every_userRoutes {layers : List Layer}
    (h : layers = [.loginRequired, .requireCompletedPasswordChange]) :
    Every (fun e below => layers ++ below = e.layers) userRoutes := by
  subst h
  simp [userRoutes, every_route, every_nil, Endpoint.layers]

/-- Whatever the path, an endpoint is behind its own layers. -/
theorem combinedRouter_layers :
    Every (fun e layers => layers = e.layers) combinedRouter := by
  have hconfig := every_configRouter rfl
  have husers := every_userRoutes rfl
  simp only [combinedRouter, unsafeRouter, safeRouter, passwordChangeRoute, restrictedRoutes,
    every_nest, every_merge, every_routeLayer, List.foldr_cons, List.foldr_nil]
  refine ⟨⟨?_, ?_⟩, ⟨?_, ?_⟩, ?_, hconfig, ?_, ?_, husers, every_nil⟩ <;>
    simp [every_route, Endpoint.layers]

theorem dispatch_layers {method : HttpMethod} {path : String}
    {x : Route HttpMethod Endpoint Layer} (h : dispatch combinedRouter method path = some x) :
    x.layers = x.endpoint.layers :=
  combinedRouter_layers.dispatch h

end Oxidrop.Server
