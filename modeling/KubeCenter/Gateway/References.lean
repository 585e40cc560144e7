import KubeCenter.Gateway.Handler

/-! What the references of a route denote: the gateways it is attached to and the services behind it. -/

namespace KubeCenter.Gateway

open KubeCenter.Core
open KubeCenter.Auth (User)
open KubeCenter.Policy (nestedSlice isObject getName getNamespace)

structure BackendRef where
  group : String
  kind : String
  name : String
  ns : String
  port : Option ℤ
  weight : Option ℤ
  resolved : Bool := false
  deriving DecidableEq

def parseBackendRef (rm : Json) : BackendRef where
  group := stringFrom rm "group"
  kind := nonEmptyOr (stringFrom rm "kind") "Service"
  name := stringFrom rm "name"
  ns := stringFrom rm "namespace"
  port := if intFrom rm "port" = 0 then none else some (intFrom rm "port")
  weight := (rm.nested ["weight"]).map (fun _ ↦ intFrom rm "weight")

def extractBackendRefs (items : List Json) : List BackendRef := (items.filter isObject).map parseBackendRef

/-- The backends of each rule; the detail views of HTTP and GRPC routes have the rules apart, those of the others have all
backends in one list. -/
def backendRules (u : Json) : List (List BackendRef) :=
  (objectsAt u ["spec", "rules"]).map (fun rm ↦ extractBackendRefs ((nestedSlice rm ["backendRefs"]).getD []))

/-- Whether a user's `Get` of a service by its namespace and name succeeds. -/
abbrev Services := String → String → Bool

/-- The part that both resolvers share: only a service is looked up. -/
def BackendRef.resolveIn (services : Services) (svcNs : String) (ref : BackendRef) : BackendRef :=
  if ref.kind ≠ "Service" ∧ ref.kind ≠ "" then ref
  else if services svcNs ref.name then { ref with resolved := true } else ref

/-- The backends of `resolveRouteRelationships`; without a client they stay as they are. -/
def resolveRouteRelationships (client : Option Services) (parentRefs : List ParentRef) (rules : List (List BackendRef)) :
    List (List BackendRef) :=
  match client with
  | none => rules
  | some services => rules.map (List.map fun ref ↦
      let svcNs := if ref.ns = "" then (parentRefs.head?.map ParentRef.ns).getD "" else ref.ns
      ref.resolveIn services svcNs)

def resolveBackendServices (client : Option Services) (routeNs : String) (refs : List BackendRef) : List BackendRef :=
  match client with
  | none => refs
  | some services => refs.map (fun ref ↦
      let svcNs := if ref.ns = "" then routeNs else ref.ns
      ref.resolveIn services svcNs)

/-- The backends of a route in its detail view; `none` is for an HTTPRoute. -/
def detailBackends (client : Option Services) (u : Json) : Option RouteKind → List (List BackendRef)
  | none => resolveRouteRelationships client (extractParentRefs u) (backendRules u)
  | some .grpc => (backendRules u).map (resolveBackendServices client (getNamespace u))
  | some _ => [resolveBackendServices client (getNamespace u) (backendRules u).flatten]

/-! What the references denote by the API's defaults. -/

def ParentRef.isGateway (ref : ParentRef) : Prop := ref.group = apiGroup ∧ ref.kind = "Gateway"

/-- An omitted namespace is the route's own. -/
def RouteSummary.Denotes (rt : RouteSummary) (ns name : String) : Prop :=
  ∃ ref ∈ rt.parentRefs, ref.isGateway ∧ ref.name = name ∧ nonEmptyOr ref.ns rt.ns = ns

def routesOf (data : CachedData) : List RouteSummary := data.httpRoutes.map asRoute ++ data.routes

def routeResource (kind : String) : Option String :=
  if kind = "HTTPRoute" then some "httproutes" else (RouteKind.all.find? (fun k ↦ k.kindName = kind)).map RouteKind.resource

section Attachment

variable (env : Env) (user : User)

/-- The user may read the route as what it is. -/
def MayRead (rt : RouteSummary) : Prop :=
  ∃ resource, routeResource rt.kind = some resource ∧ env.canAccess user "get" resource rt.ns = true

/-- Wherever the handler has routes to attach, it attaches those that denote the gateway and that the user may read. -/
def AttachesDenoted (ns name : String) (cache : Option CachedData) (m : Moment env) : Prop :=
  ∀ detail data, (handleGetGateway env ns name user cache m).1 = .ok (.gateway detail) →
    (getCached env cache m).1 = some data →
      ∀ rt, rt ∈ detail.attachedRoutes ↔ rt ∈ routesOf data ∧ rt.Denotes ns name ∧ MayRead env user rt

/-- The reference names the gateway with its namespace, as the object of whatever kind. -/
def RouteSummary.SpellsOut (rt : RouteSummary) (ns name : String) : Prop :=
  ∃ ref ∈ rt.parentRefs, ref.name = name ∧ ref.ns = ns

/-- A route that denotes the gateway and spells it out is read alike by both rights; one that spells it out for an object of
another kind, and one that denotes it without its namespace, cannot be read by the one that would be asked for. -/
structure RouteSummary.Clear (rt : RouteSummary) (ns name : String) : Prop where
  sameRights : rt.SpellsOut ns name → rt.Denotes ns name →
    (env.canAccess user "get" "httproutes" rt.ns = true ↔ MayRead env user rt)
  otherKind : rt.SpellsOut ns name → ¬ rt.Denotes ns name → ¬ env.canAccess user "get" "httproutes" rt.ns = true
  omitted : rt.Denotes ns name → ¬ rt.SpellsOut ns name → ¬ MayRead env user rt

def AttachmentsClear (ns name : String) (cache : Option CachedData) (m : Moment env) : Prop :=
  ∀ detail data, (handleGetGateway env ns name user cache m).1 = .ok (.gateway detail) →
    (getCached env cache m).1 = some data → ∀ rt ∈ routesOf data, rt.Clear env user ns name

end Attachment

/-- The existence of a service is looked up in the namespace of the reference, or else in that of the route. -/
def BackendsDefaulted (u : Json) (kind : Option RouteKind) : Prop :=
  ∀ client, (detailBackends client u kind).flatten =
    match client with
    | none => (backendRules u).flatten
    | some services =>
      (backendRules u).flatten.map (fun ref ↦ ref.resolveIn services (nonEmptyOr ref.ns (getNamespace u)))

/-- An HTTPRoute whose services are named without a namespace begins its parents with one that names the route's own. -/
def FirstParentAtHome (u : Json) (kind : Option RouteKind) : Prop :=
  kind = none → ∀ ref ∈ (backendRules u).flatten, ref.kind = "Service" → ref.ns = "" →
    ((extractParentRefs u).head?.map ParentRef.ns).getD "" = getNamespace u

variable {env : Env} {user : User} {ns name : String} {cache : Option CachedData} {m : Moment env} {data : CachedData}
  {detail : GatewayDetail} {rt : RouteSummary} {u : Json}

theorem matchesParentRef_iff {refs : List ParentRef} :
    matchesParentRef refs name ns = true ↔ ∃ ref ∈ refs, ref.name = name ∧ ref.ns = ns := by
  unfold matchesParentRef
  simp only [List.any_eq_true, Bool.and_eq_true, decide_eq_true_eq]

theorem mem_attachedRoutes : rt ∈ attachedRoutes data ns name ↔ rt ∈ routesOf data ∧ rt.SpellsOut ns name := by
  unfold attachedRoutes routesOf
  rw [List.mem_append, List.mem_append, List.mem_map, List.mem_map, or_and_right]
  apply or_congr
  · constructor
    · rintro ⟨hr, hmem, rfl⟩
      obtain ⟨hhr, hmatch⟩ := List.mem_filter.mp hmem
      exact ⟨⟨hr, hhr, rfl⟩, matchesParentRef_iff.mp hmatch⟩
    · rintro ⟨⟨hr, hhr, rfl⟩, hspells⟩
      exact ⟨hr, List.mem_filter.mpr ⟨hhr, matchesParentRef_iff.mpr hspells⟩, rfl⟩
  · rw [List.mem_filter, matchesParentRef_iff]
    rfl

theorem attached_eq (h : (handleGetGateway env ns name user cache m).1 = .ok (.gateway detail))
    (hdata : (getCached env cache m).1 = some data) :
    detail.attachedRoutes = filterByRBAC env user "httproutes" (·.ns) (attachedRoutes data ns name) := by
  unfold handleGetGateway at h
  split at h
  · cases h
  · split at h
    · cases h
    · split at h
      · cases h
      · simp only [hdata, Option.map_some, Option.getD_some, Except.ok.injEq, Payload.gateway.injEq] at h
        rw [← h]

theorem mem_attached (h : (handleGetGateway env ns name user cache m).1 = .ok (.gateway detail))
    (hdata : (getCached env cache m).1 = some data) : rt ∈ detail.attachedRoutes ↔
      rt ∈ routesOf data ∧ rt.SpellsOut ns name ∧ env.canAccess user "get" "httproutes" rt.ns = true := by
  rw [attached_eq h hdata, filterByRBAC, List.mem_filter, mem_attachedRoutes, and_assoc]

theorem clear_iff : rt.Clear env user ns name ↔
    (rt.SpellsOut ns name ∧ env.canAccess user "get" "httproutes" rt.ns = true ↔
      rt.Denotes ns name ∧ MayRead env user rt) := by
  constructor
  · rintro ⟨hsame, hother, homitted⟩
    tauto
  · intro h
    constructor <;> tauto

theorem attachesDenoted_iff : AttachesDenoted env user ns name cache m ↔ AttachmentsClear env user ns name cache m := by
  refine forall₂_congr fun detail data ↦ forall₂_congr fun h hdata ↦ forall_congr' fun rt ↦ ?_
  rw [mem_attached h hdata, clear_iff, and_congr_right_iff]

/-! The services. -/

theorem resolveIn_congr {ref : BackendRef} {svcNs svcNs' : String} :
    (∀ services, ref.resolveIn services svcNs = ref.resolveIn services svcNs') ↔
      ref.resolved = true ∨ (ref.kind ≠ "Service" ∧ ref.kind ≠ "") ∨ svcNs = svcNs' := by
  constructor
  · intro h
    by_contra hno
    simp only [not_or] at hno
    obtain ⟨hresolved, hkind, hns⟩ := hno
    have hlook := h (fun ns _ ↦ ns = svcNs)
    unfold BackendRef.resolveIn at hlook
    rw [if_neg hkind, if_neg hkind, if_pos (decide_eq_true rfl), if_neg (by simpa using Ne.symm hns)] at hlook
    exact hresolved (congrArg BackendRef.resolved hlook).symm
  · rintro (hresolved | hkind | rfl) services
    · have hsame : { ref with resolved := true } = ref := by
        rw [← hresolved]
      unfold BackendRef.resolveIn
      simp only [hsame, ite_self]
    · unfold BackendRef.resolveIn
      rw [if_pos hkind, if_pos hkind]
    · rfl

theorem nonEmptyOr_empty (s : String) : nonEmptyOr "" s = s := if_pos rfl

theorem mem_backendRules {ref : BackendRef} (h : ref ∈ (backendRules u).flatten) :
    ref.resolved = false ∧ ref.kind ≠ "" := by
  obtain ⟨rule, hrule, href⟩ := List.mem_flatten.mp h
  obtain ⟨rm, -, rfl⟩ := List.mem_map.mp hrule
  obtain ⟨rm', -, rfl⟩ := List.mem_map.mp href
  refine ⟨rfl, ?_⟩
  unfold parseBackendRef nonEmptyOr
  dsimp only
  split
  · decide
  · assumption

theorem flatten_resolveBackendServices (client : Option Services) (routeNs : String) (rules : List (List BackendRef)) :
    (rules.map (resolveBackendServices client routeNs)).flatten = resolveBackendServices client routeNs rules.flatten := by
  cases client with
  | none => rw [show resolveBackendServices none routeNs = id from rfl, List.map_id, id]
  | some services => exact List.map_flatten.symm

theorem resolveBackendServices_some (services : Services) (routeNs : String) (refs : List BackendRef) :
    resolveBackendServices (some services) routeNs refs =
      refs.map (fun ref ↦ ref.resolveIn services (nonEmptyOr ref.ns routeNs)) := rfl

theorem backendsDefaulted_iff (u : Json) (kind : Option RouteKind) : BackendsDefaulted u kind ↔ FirstParentAtHome u kind := by
  cases kind with
  | some k =>
    have hhome : FirstParentAtHome u (some k) := fun hno ↦ by cases hno
    refine iff_of_true (fun client ↦ ?_) hhome
    have hflat : (detailBackends client u (some k)).flatten =
        resolveBackendServices client (getNamespace u) (backendRules u).flatten := by
      cases k with
      | grpc => exact flatten_resolveBackendServices client (getNamespace u) (backendRules u)
      | tcp | tls | udp => exact List.flatten_singleton
    rw [hflat]
    cases client <;> rfl
  | none =>
    have hsome : ∀ services : Services, (detailBackends (some services) u none).flatten =
        (backendRules u).flatten.map (fun ref ↦ ref.resolveIn services
          (if ref.ns = "" then ((extractParentRefs u).head?.map ParentRef.ns).getD "" else ref.ns)) :=
      fun services ↦ List.map_flatten.symm
    have hpointwise : BackendsDefaulted u none ↔ ∀ ref ∈ (backendRules u).flatten, ∀ services : Services,
        ref.resolveIn services (if ref.ns = "" then ((extractParentRefs u).head?.map ParentRef.ns).getD "" else ref.ns) =
          ref.resolveIn services (nonEmptyOr ref.ns (getNamespace u)) := by
      constructor
      · intro h ref href services
        have hmap := (hsome services).symm.trans (h (some services))
        exact List.map_inj_left.mp hmap ref href
      · intro h client
        cases client with
        | none => rfl
        | some services => exact (hsome services).trans (List.map_inj_left.mpr fun ref href ↦ h ref href services)
    rw [hpointwise]
    have hkind : FirstParentAtHome u none ↔ ∀ ref ∈ (backendRules u).flatten, ref.kind = "Service" → ref.ns = "" →
        ((extractParentRefs u).head?.map ParentRef.ns).getD "" = getNamespace u := ⟨fun h ↦ h rfl, fun h _ ↦ h⟩
    rw [hkind]
    refine forall₂_congr fun ref href ↦ ?_
    obtain ⟨hresolved, hnonempty⟩ := mem_backendRules href
    rw [resolveIn_congr, hresolved]
    by_cases hns : ref.ns = ""
    · rw [hns, if_pos rfl, nonEmptyOr_empty]
      tauto
    · rw [if_neg hns, nonEmptyOr, if_neg hns]
      tauto

/-- What a gateway has attached and where the services of a route are looked up, both as the references denote it. -/
structure ReferencesDefaulted (env : Env) (user : User) (ns name : String) (cache : Option CachedData) (m : Moment env)
    (u : Json) (kind : Option RouteKind) : Prop where
  attachments : AttachesDenoted env user ns name cache m
  backends : BackendsDefaulted u kind

/-- An HTTPRoute in `web` whose parent is a gateway of `infra`, with a service that is named without a namespace. -/
def crossNamespace : Json := .object [
  ("metadata", .object [("name", .string "shop"), ("namespace", .string "web")]),
  ("spec", .object [
    ("parentRefs", .array [.object [("name", .string "edge"), ("namespace", .string "infra")]]),
    ("rules", .array [.object [("backendRefs", .array [.object [("name", .string "cart")]])]])])]

end KubeCenter.Gateway
