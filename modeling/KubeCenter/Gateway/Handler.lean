import KubeCenter.Auth.Session
import KubeCenter.Core.Http
import KubeCenter.Gateway.Normalize

/-! The list handlers over one cache, which is filled with the rights of the service account and filtered for each user. -/

namespace KubeCenter.Gateway

open KubeCenter.Core
open KubeCenter.Auth (User)
open KubeCenter.Policy (getName getNamespace)

def cacheTTL : ℕ := 30 * 1000000000

inductive RouteKind
  | grpc
  | tcp
  | tls
  | udp
  deriving DecidableEq

namespace RouteKind

def resource : RouteKind → String
  | .grpc => "grpcroutes"
  | .tcp => "tcproutes"
  | .tls => "tlsroutes"
  | .udp => "udproutes"

/-- `routeKindToKind`. -/
def kindName : RouteKind → String
  | .grpc => "GRPCRoute"
  | .tcp => "TCPRoute"
  | .tls => "TLSRoute"
  | .udp => "UDPRoute"

def all : List RouteKind := [.grpc, .tcp, .tls, .udp]

def ofResource (resource : String) : Option RouteKind := all.find? (fun k ↦ k.resource = resource)

end RouteKind

/-- What discovery has found: without the API no kind is installed. -/
structure GatewayAPIStatus where
  available : Bool
  installedKinds : List String
  installed : available = false → installedKinds = []

def GatewayAPIStatus.routeKinds (status : GatewayAPIStatus) : List RouteKind :=
  RouteKind.all.filter (fun k ↦ k.resource ∈ status.installedKinds)

/-- The objects of a kind, and whether the call that lists them fails. -/
structure Objects where
  items : List Json := []
  fails : Bool := false

def Objects.list (o : Objects) : Option (List Json) := if o.fails then none else some o.items

structure Cluster where
  gatewayClasses : Objects := {}
  gateways : Objects := {}
  httpRoutes : Objects := {}
  routes : RouteKind → Objects := fun _ ↦ {}

structure KindSummary where
  total : ℕ
  healthy : ℕ
  degraded : ℕ
  deriving DecidableEq

structure GatewayAPISummary where
  gatewayClasses : KindSummary
  gateways : KindSummary
  httpRoutes : KindSummary
  grpcRoutes : KindSummary
  tcpRoutes : KindSummary
  tlsRoutes : KindSummary
  udpRoutes : KindSummary
  deriving DecidableEq

structure CachedData where
  gatewayClasses : List GatewayClassSummary
  gateways : List GatewaySummary
  httpRoutes : List HTTPRouteSummary
  routes : List RouteSummary
  fetchedAt : ℕ

def hasCondition (conds : List Condition) (type status : String) : Bool :=
  conds.any (fun c ↦ c.type = type && c.status = status)

/-- The counts of a kind, whose objects are healthy by a condition that is true. -/
def kindSummary {α : Type} (conditions : α → List Condition) (type : String) (l : List α) : KindSummary where
  total := l.length
  healthy := (l.filter (fun a ↦ hasCondition (conditions a) type "True")).length
  degraded := (l.filter (fun a ↦ !hasCondition (conditions a) type "True")).length

def routeSummary (routes : List RouteSummary) (k : RouteKind) : KindSummary :=
  kindSummary (·.conditions) "Accepted" (routes.filter (fun rt ↦ rt.kind = k.kindName))

def computeSummary (gatewayClasses : List GatewayClassSummary) (gateways : List GatewaySummary)
    (httpRoutes : List HTTPRouteSummary) (routes : List RouteSummary) : GatewayAPISummary where
  gatewayClasses := kindSummary (·.conditions) "Accepted" gatewayClasses
  gateways := kindSummary (·.conditions) "Programmed" gateways
  httpRoutes := kindSummary (·.conditions) "Accepted" httpRoutes
  grpcRoutes := routeSummary routes .grpc
  tcpRoutes := routeSummary routes .tcp
  tlsRoutes := routeSummary routes .tls
  udpRoutes := routeSummary routes .udp

def emptySummary : GatewayAPISummary := computeSummary [] [] [] []

/-- The routes of the installed kinds in the order in which their lists arrive; a kind whose list fails is skipped. -/
def fetchRoutes (cluster : Cluster) (arrivals : List RouteKind) : List RouteSummary :=
  arrivals.flatMap (fun k ↦ ((cluster.routes k).list.getD []).map (normalizeRoute k.kindName))

/-- The unfiltered summary of the cache is not read by any handler. -/
def fetchAll (cluster : Cluster) (arrivals : List RouteKind) (now : ℕ) : Option CachedData := do
  let gatewayClasses ← cluster.gatewayClasses.list
  let gateways ← cluster.gateways.list
  let httpRoutes ← cluster.httpRoutes.list
  return {
    gatewayClasses := gatewayClasses.map normalizeGatewayClass
    gateways := gateways.map normalizeGateway
    httpRoutes := httpRoutes.map normalizeHTTPRoute
    routes := fetchRoutes cluster arrivals
    fetchedAt := now }

/-- `canAccess` asks about the API group; `lower` is `strings.ToLower`. -/
structure Env where
  status : GatewayAPIStatus
  canAccess : User → String → String → String → Bool
  clientFor : User → Bool
  lower : String → String

/-- A request's surroundings: the cluster it meets, the order in which the lists of the route kinds arrive if it fetches, and
the time. -/
structure Moment (env : Env) where
  cluster : Cluster
  arrivals : List RouteKind
  arrives : arrivals.Perm env.status.routeKinds
  now : ℕ

structure GatewayDetail where
  summary : GatewaySummary
  attachedRoutes : List RouteSummary
  deriving DecidableEq

inductive Payload
  | summary (s : GatewayAPISummary)
  | gateways (l : List GatewaySummary)
  | gateway (d : GatewayDetail)
  | httpRoutes (l : List HTTPRouteSummary)
  | routes (l : List RouteSummary)
  deriving DecidableEq

abbrev Response := Except APIError Payload

section Handlers

variable (env : Env)

/-- `filterByRBAC`. The answers for the namespaces are kept for the length of the loop. -/
def filterByRBAC {α : Type} (user : User) (resource : String) (ns : α → String) (items : List α) : List α :=
  items.filter (fun item ↦ env.canAccess user "get" resource (ns item))

def getCached (cache : Option CachedData) (m : Moment env) : Option CachedData × Option CachedData :=
  match cache.filter (fun data ↦ m.now < data.fetchedAt + cacheTTL) with
  | some data => (some data, cache)
  | none =>
    match fetchAll m.cluster m.arrivals m.now with
    | some data => (some data, some data)
    | none => (none, cache)

/-- What three handlers and the summary share: an empty answer without the API, an error without data. -/
def withData (empty : Payload) (message : String) (answer : CachedData → Payload) (cache : Option CachedData)
    (m : Moment env) : Response × Option CachedData :=
  if env.status.available then
    match getCached env cache m with
    | (some data, cache) => (.ok (answer data), cache)
    | (none, cache) => (.error ⟨500, message⟩, cache)
  else (.ok empty, cache)

def visibleClasses (user : User) (data : CachedData) : List GatewayClassSummary :=
  if env.canAccess user "list" "gatewayclasses" "" then data.gatewayClasses else []

def handleSummary (user : User) : Option CachedData → Moment env → Response × Option CachedData :=
  withData env (.summary emptySummary) "failed to fetch gateway data" (fun data ↦
    .summary (computeSummary (visibleClasses env user data)
      (filterByRBAC env user "gateways" (·.ns) data.gateways)
      (filterByRBAC env user "httproutes" (·.ns) data.httpRoutes)
      (filterByRBAC env user "httproutes" (·.ns) data.routes)))

def handleListGateways (user : User) : Option CachedData → Moment env → Response × Option CachedData :=
  withData env (.gateways []) "failed to fetch gateways" (fun data ↦
    .gateways (filterByRBAC env user "gateways" (·.ns) data.gateways))

def handleListHTTPRoutes (user : User) : Option CachedData → Moment env → Response × Option CachedData :=
  withData env (.httpRoutes []) "failed to fetch http routes" (fun data ↦
    .httpRoutes (filterByRBAC env user "httproutes" (·.ns) data.httpRoutes))

def handleListRoutes (kind : String) (user : User) (cache : Option CachedData) (m : Moment env) :
    Response × Option CachedData :=
  match RouteKind.ofResource (env.lower kind) with
  | none => (.error ⟨400, "missing or invalid kind parameter"⟩, cache)
  | some k =>
    withData env (.routes []) "failed to fetch routes" (fun data ↦
      .routes (filterByRBAC env user (env.lower kind) (·.ns) (data.routes.filter (fun rt ↦ rt.kind = k.kindName))))
      cache m

def matchesParentRef (refs : List ParentRef) (gwName gwNamespace : String) : Bool :=
  refs.any (fun ref ↦ ref.name = gwName && ref.ns = gwNamespace)

def asRoute (hr : HTTPRouteSummary) : RouteSummary where
  kind := "HTTPRoute"
  name := hr.name
  ns := hr.ns
  hostnames := hr.hostnames
  parentRefs := hr.parentRefs
  conditions := hr.conditions
  age := hr.age

def attachedRoutes (data : CachedData) (ns name : String) : List RouteSummary :=
  (data.httpRoutes.filter (fun hr ↦ matchesParentRef hr.parentRefs name ns)).map asRoute ++
    data.routes.filter (fun rt ↦ matchesParentRef rt.parentRefs name ns)

/-- `Get` of the API server for a gateway. -/
def findGateway (cluster : Cluster) (ns name : String) : Option Json :=
  cluster.gateways.items.find? (fun u ↦ getNamespace u = ns && getName u = name)

/-- A cache that cannot be had leaves the gateway without attached routes. -/
def handleGetGateway (ns name : String) (user : User) (cache : Option CachedData) (m : Moment env) :
    Response × Option CachedData :=
  if ¬ env.canAccess user "get" "gateways" ns then (.error ⟨403, "access denied"⟩, cache)
  else if ¬ env.clientFor user then (.error ⟨500, "internal error"⟩, cache)
  else
    match findGateway m.cluster ns name with
    | none => (.error ⟨404, "gateway not found"⟩, cache)
    | some obj =>
      let (data, cache) := getCached env cache m
      (.ok (.gateway {
        summary := gatewaySummary true obj
        attachedRoutes := (data.map (fun data ↦
          filterByRBAC env user "httproutes" (·.ns) (attachedRoutes data ns name))).getD [] }), cache)

end Handlers

end KubeCenter.Gateway
