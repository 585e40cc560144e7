import Mathlib.Data.Option.Basic
import KubeCenter.Gateway.Handler

/-! What the handlers tell a user of the objects that the user may not read. -/

namespace KubeCenter.Gateway.Visibility

open KubeCenter.Core
open KubeCenter.Auth (User)
open KubeCenter.Policy (getName getNamespace)

inductive Endpoint
  | summary
  | listGateways
  | listHTTPRoutes
  | listRoutes (kind : String)
  | getGateway (ns name : String)

section Requests

variable (env : Env)

def respond : Endpoint → User → Option CachedData → Moment env → Response × Option CachedData
  | .summary => handleSummary env
  | .listGateways => handleListGateways env
  | .listHTTPRoutes => handleListHTTPRoutes env
  | .listRoutes kind => handleListRoutes env kind
  | .getGateway ns name => handleGetGateway env ns name

/-- The cache that an earlier fetch has left, if there was one. -/
def cacheOf (earlier : Option (Moment env)) : Option CachedData :=
  earlier.bind (fun m ↦ fetchAll m.cluster m.arrivals m.now)

end Requests

section Agreement

variable (env : Env) (user : User)

def mayGet (resource ns : String) : Bool := env.canAccess user "get" resource ns

/-- The same objects in the namespaces where the user may read the kind. -/
structure AgreeOn (resource : String) (o o' : Objects) : Prop where
  fails : o.fails = o'.fails
  items : o.items.filter (fun u ↦ mayGet env user resource (getNamespace u)) =
    o'.items.filter (fun u ↦ mayGet env user resource (getNamespace u))

/-- The same readable objects of every kind. Gateway classes have no namespace and are read by listing them. -/
structure Agree (c c' : Cluster) : Prop where
  classesFail : c.gatewayClasses.fails = c'.gatewayClasses.fails
  gatewayClasses : env.canAccess user "list" "gatewayclasses" "" = true → c.gatewayClasses.items = c'.gatewayClasses.items
  gateways : AgreeOn env user "gateways" c.gateways c'.gateways
  httpRoutes : AgreeOn env user "httproutes" c.httpRoutes c'.httpRoutes
  routes : ∀ k : RouteKind, AgreeOn env user k.resource (c.routes k) (c'.routes k)

/-- Two moments that differ in the objects that the user may not read, and in nothing else. -/
structure MomentsAgree (m m' : Moment env) : Prop where
  cluster : Agree env user m.cluster m'.cluster
  arrivals : m.arrivals = m'.arrivals
  now : m.now = m'.now

/-- The user is answered the same over any two clusters that agree on what the user may read, with nothing cached or with
data from two that agreed as well. -/
def NonInterfering : Prop :=
  ∀ (earlier earlier' : Option (Moment env)) (m m' : Moment env) (e : Endpoint),
    Option.Rel (MomentsAgree env user) earlier earlier' → MomentsAgree env user m m' →
      (respond env e user (cacheOf env earlier) m).1 = (respond env e user (cacheOf env earlier') m').1

/-- A route that the user may read as what it is. -/
def readable (rt : RouteSummary) : Bool :=
  RouteKind.all.any (fun k ↦ rt.kind = k.kindName && mayGet env user k.resource rt.ns)

/-- Cached data that agree on what the user may read, with routes of installed kinds alone. -/
structure DataAgree (d d' : CachedData) : Prop where
  fetchedAt : d.fetchedAt = d'.fetchedAt
  gatewayClasses : visibleClasses env user d = visibleClasses env user d'
  gateways : filterByRBAC env user "gateways" (·.ns) d.gateways = filterByRBAC env user "gateways" (·.ns) d'.gateways
  httpRoutes : filterByRBAC env user "httproutes" (·.ns) d.httpRoutes =
    filterByRBAC env user "httproutes" (·.ns) d'.httpRoutes
  routes : d.routes.filter (readable env user) = d'.routes.filter (readable env user)
  kinds : ∀ rt ∈ d.routes ++ d'.routes, ∃ k ∈ env.status.routeKinds, rt.kind = k.kindName

/-- A user who may read the HTTP routes of a namespace may read its other routes too, of every installed kind. -/
def ReadsWithHTTP : Prop :=
  ∀ k ∈ env.status.routeKinds, ∀ ns, mayGet env user "httproutes" ns = true → mayGet env user k.resource ns = true

end Agreement

section Filters

variable {env : Env} {user : User}

theorem kindName_injective {k l : RouteKind} (h : k.kindName = l.kindName) : k = l := by
  cases k <;> cases l <;> first | rfl | (revert h; decide)

theorem readable_iff {rt : RouteSummary} {k : RouteKind} (hk : rt.kind = k.kindName) :
    readable env user rt = mayGet env user k.resource rt.ns := by
  rw [Bool.eq_iff_iff]
  unfold readable
  simp only [List.any_eq_true, Bool.and_eq_true, decide_eq_true_eq]
  constructor
  · rintro ⟨l, -, hl, hget⟩
    cases kindName_injective (hk.symm.trans hl)
    exact hget
  · intro hget
    exact ⟨k, by cases k <;> decide, hk, hget⟩

/-- What is filtered by a stronger test is the same where the weaker leaves the same. -/
theorem filter_congr_of_imp {α : Type} {p q : α → Bool} {l l' : List α} (h : l.filter p = l'.filter p)
    (hqp : ∀ a ∈ l ++ l', q a = true → p a = true) : l.filter q = l'.filter q := by
  have hfilter : ∀ m : List α, (∀ a ∈ m, q a = true → p a = true) → m.filter q = (m.filter p).filter q := by
    intro m hm
    rw [List.filter_filter]
    refine List.filter_congr (fun a ha ↦ ?_)
    cases hq : q a with
    | false => rfl
    | true => rw [hm a ha hq]; rfl
  rw [hfilter l (fun a ha ↦ hqp a (List.mem_append_left l' ha)),
    hfilter l' (fun a ha ↦ hqp a (List.mem_append_right l ha)), h]

theorem filterByRBAC_map {α : Type} {resource : String} {ns : α → String} {f : Json → α}
    (hf : ∀ u, ns (f u) = getNamespace u) (l : List Json) :
    filterByRBAC env user resource ns (l.map f) =
      (l.filter (fun u ↦ mayGet env user resource (getNamespace u))).map f := by
  unfold filterByRBAC
  rw [List.filter_map]
  congr 1
  refine List.filter_congr (fun u _ ↦ ?_)
  simp only [Function.comp, hf, mayGet]

theorem filterByRBAC_agree {α : Type} {resource : String} {ns : α → String} {f : Json → α} {o o' : Objects}
    (h : AgreeOn env user resource o o') (hf : ∀ u, ns (f u) = getNamespace u) :
    filterByRBAC env user resource ns (o.items.map f) = filterByRBAC env user resource ns (o'.items.map f) := by
  rw [filterByRBAC_map hf, filterByRBAC_map hf, h.items]

theorem filter_map_routes (k : RouteKind) (l : List Json) :
    (l.map (normalizeRoute k.kindName)).filter (readable env user) =
      (l.filter (fun u ↦ mayGet env user k.resource (getNamespace u))).map (normalizeRoute k.kindName) := by
  rw [List.filter_map]
  congr 1
  refine List.filter_congr (fun u _ ↦ ?_)
  exact readable_iff rfl

theorem fetchRoutes_agree {c c' : Cluster} (h : Agree env user c c') (arrivals : List RouteKind) :
    (fetchRoutes c arrivals).filter (readable env user) = (fetchRoutes c' arrivals).filter (readable env user) := by
  unfold fetchRoutes
  rw [List.filter_flatMap, List.filter_flatMap]
  congr 1
  funext k
  rw [filter_map_routes, filter_map_routes]
  unfold Objects.list
  rw [(h.routes k).fails]
  split
  · rfl
  · exact congrArg (List.map _) (h.routes k).items

theorem fetchRoutes_kinds {c : Cluster} {arrivals : List RouteKind} {rt : RouteSummary}
    (h : rt ∈ fetchRoutes c arrivals) : ∃ k ∈ arrivals, rt.kind = k.kindName := by
  obtain ⟨k, hk, hrt⟩ := List.mem_flatMap.mp h
  obtain ⟨u, -, rfl⟩ := List.mem_map.mp hrt
  exact ⟨k, hk, rfl⟩

end Filters

section Answers

variable {env : Env} {user : User} {m m' : Moment env} {d d' : CachedData} {cache cache' : Option CachedData}

theorem fetchAll_agree (h : MomentsAgree env user m m') :
    Option.Rel (DataAgree env user) (fetchAll m.cluster m.arrivals m.now) (fetchAll m'.cluster m'.arrivals m'.now) := by
  obtain ⟨hc, harrivals, hnow⟩ := h
  unfold fetchAll Objects.list
  rw [hc.classesFail, hc.gateways.fails, hc.httpRoutes.fails]
  cases m'.cluster.gatewayClasses.fails with
  | true => exact .none
  | false =>
    cases m'.cluster.gateways.fails with
    | true => exact .none
    | false =>
      cases m'.cluster.httpRoutes.fails with
      | true => exact .none
      | false =>
        refine .some
          { fetchedAt := hnow
            gatewayClasses := ?_
            gateways := ?_
            httpRoutes := ?_
            routes := ?_
            kinds := ?_ }
        · unfold visibleClasses
          split
          · next hcan => exact congrArg (List.map normalizeGatewayClass) (hc.gatewayClasses hcan)
          · rfl
        · exact filterByRBAC_agree hc.gateways (fun _ ↦ rfl)
        · exact filterByRBAC_agree hc.httpRoutes (fun _ ↦ rfl)
        · rw [harrivals]
          exact fetchRoutes_agree hc m'.arrivals
        · intro rt hrt
          rcases List.mem_append.mp hrt with hrt | hrt
          · obtain ⟨k, hk, hkind⟩ := fetchRoutes_kinds hrt
            exact ⟨k, m.arrives.subset hk, hkind⟩
          · obtain ⟨k, hk, hkind⟩ := fetchRoutes_kinds hrt
            exact ⟨k, m'.arrives.subset hk, hkind⟩

theorem fresh_agree (hcache : Option.Rel (DataAgree env user) cache cache') (now : ℕ) :
    Option.Rel (DataAgree env user) (cache.filter (fun data ↦ now < data.fetchedAt + cacheTTL))
      (cache'.filter (fun data ↦ now < data.fetchedAt + cacheTTL)) := by
  cases hcache with
  | none => exact .none
  | some hold =>
    rw [Option.filter_some, Option.filter_some, hold.fetchedAt]
    split
    · exact .some hold
    · exact .none

theorem getCached_agree (hcache : Option.Rel (DataAgree env user) cache cache') (h : MomentsAgree env user m m') :
    Option.Rel (DataAgree env user) (getCached env cache m).1 (getCached env cache' m').1 ∧
      Option.Rel (DataAgree env user) (getCached env cache m).2 (getCached env cache' m').2 := by
  have hfresh := fresh_agree hcache m'.now
  have hfetch := fetchAll_agree h
  unfold getCached
  rw [h.now] at hfetch ⊢
  generalize cache.filter _ = fresh at hfresh ⊢
  generalize cache'.filter _ = fresh' at hfresh ⊢
  generalize fetchAll m.cluster m.arrivals m'.now = fetched at hfetch ⊢
  generalize fetchAll m'.cluster m'.arrivals m'.now = fetched' at hfetch ⊢
  cases hfresh with
  | some hd => exact ⟨.some hd, hcache⟩
  | none =>
    cases hfetch with
    | none => exact ⟨.none, hcache⟩
    | some hd => exact ⟨.some hd, .some hd⟩

theorem withData_agree (hcache : Option.Rel (DataAgree env user) cache cache') (h : MomentsAgree env user m m')
    {empty : Payload} {message : String} {answer : CachedData → Payload}
    (hanswer : ∀ d d', DataAgree env user d d' → answer d = answer d') :
    (withData env empty message answer cache m).1 = (withData env empty message answer cache' m').1 := by
  have hdata := (getCached_agree hcache h).1
  unfold withData
  split
  · revert hdata
    generalize getCached env cache m = x
    generalize getCached env cache' m' = x'
    obtain ⟨x, c⟩ := x
    obtain ⟨x', c'⟩ := x'
    intro hdata
    cases hdata with
    | none => rfl
    | some hd => exact congrArg Except.ok (hanswer _ _ hd)
  · rfl

theorem cacheOf_agree {earlier earlier' : Option (Moment env)}
    (h : Option.Rel (MomentsAgree env user) earlier earlier') :
    Option.Rel (DataAgree env user) (cacheOf env earlier) (cacheOf env earlier') := by
  cases h with
  | none => exact .none
  | some hm => exact fetchAll_agree hm

theorem httpReadable_agree (hreads : ReadsWithHTTP env user) (hd : DataAgree env user d d') :
    filterByRBAC env user "httproutes" (·.ns) d.routes = filterByRBAC env user "httproutes" (·.ns) d'.routes := by
  refine filter_congr_of_imp hd.routes (fun rt hrt hhttp ↦ ?_)
  obtain ⟨k, hk, hkind⟩ := hd.kinds rt hrt
  rw [readable_iff hkind]
  exact hreads k hk rt.ns hhttp

theorem listRoutes_agree (hd : DataAgree env user d d') (k : RouteKind) :
    filterByRBAC env user k.resource (·.ns) (d.routes.filter (fun rt ↦ rt.kind = k.kindName)) =
      filterByRBAC env user k.resource (·.ns) (d'.routes.filter (fun rt ↦ rt.kind = k.kindName)) := by
  unfold filterByRBAC
  rw [List.filter_filter, List.filter_filter]
  refine filter_congr_of_imp hd.routes (fun rt _ hrt ↦ ?_)
  simp only [Bool.and_eq_true, decide_eq_true_eq] at hrt
  rw [readable_iff hrt.2]
  exact hrt.1

theorem filterByRBAC_append {α : Type} {resource : String} {ns : α → String} (l l' : List α) :
    filterByRBAC env user resource ns (l ++ l') =
      filterByRBAC env user resource ns l ++ filterByRBAC env user resource ns l' := List.filter_append l l'

theorem filterByRBAC_filter {α : Type} {resource : String} {ns : α → String} (p : α → Bool) (l : List α) :
    filterByRBAC env user resource ns (l.filter p) = (filterByRBAC env user resource ns l).filter p := by
  unfold filterByRBAC
  rw [List.filter_filter, List.filter_filter]
  exact List.filter_congr (fun a _ ↦ Bool.and_comm _ _)

theorem attachedRoutes_agree (hreads : ReadsWithHTTP env user) (hd : DataAgree env user d d') (ns name : String) :
    filterByRBAC env user "httproutes" (·.ns) (attachedRoutes d ns name) =
      filterByRBAC env user "httproutes" (·.ns) (attachedRoutes d' ns name) := by
  have hmap : ∀ l : List HTTPRouteSummary, filterByRBAC env user "httproutes" (·.ns) (l.map asRoute) =
      (filterByRBAC env user "httproutes" (·.ns) l).map asRoute := by
    intro l
    unfold filterByRBAC
    rw [List.filter_map]
    rfl
  unfold attachedRoutes
  rw [filterByRBAC_append, filterByRBAC_append, hmap, hmap, filterByRBAC_filter, filterByRBAC_filter,
    filterByRBAC_filter, filterByRBAC_filter, hd.httpRoutes, httpReadable_agree hreads hd]

theorem findGateway_agree (h : MomentsAgree env user m m') {ns : String} (hns : mayGet env user "gateways" ns = true)
    (name : String) : findGateway m.cluster ns name = findGateway m'.cluster ns name := by
  have hfind : ∀ l : List Json, l.find? (fun u ↦ getNamespace u = ns && getName u = name) =
      (l.filter (fun u ↦ mayGet env user "gateways" (getNamespace u))).find?
        (fun u ↦ getNamespace u = ns && getName u = name) := by
    intro l
    rw [List.find?_filter]
    congr 1
    funext u
    by_cases hu : getNamespace u = ns
    · simp [hu, hns]
    · simp [hu]
  unfold findGateway
  rw [hfind m.cluster.gateways.items, hfind m'.cluster.gateways.items, h.cluster.gateways.items]

theorem resource_of_ofResource {s : String} {k : RouteKind} (h : RouteKind.ofResource s = some k) : s = k.resource := by
  have hk := List.find?_some h
  exact (of_decide_eq_true hk).symm

theorem nonInterfering_of_readsWithHTTP (hreads : ReadsWithHTTP env user) : NonInterfering env user := by
  intro earlier earlier' m m' e hearlier h
  have hcache := cacheOf_agree hearlier
  cases e with
  | summary =>
    refine withData_agree hcache h (fun d d' hd ↦ ?_)
    rw [hd.gatewayClasses, hd.gateways, hd.httpRoutes, httpReadable_agree hreads hd]
  | listGateways => exact withData_agree hcache h (fun d d' hd ↦ by rw [hd.gateways])
  | listHTTPRoutes => exact withData_agree hcache h (fun d d' hd ↦ by rw [hd.httpRoutes])
  | listRoutes kind =>
    simp only [respond, handleListRoutes]
    cases hk : RouteKind.ofResource (env.lower kind) with
    | none => rfl
    | some k =>
      refine withData_agree hcache h (fun d d' hd ↦ ?_)
      rw [resource_of_ofResource hk, listRoutes_agree hd]
  | getGateway ns name =>
    simp only [respond, handleGetGateway]
    split
    · rfl
    · next hget =>
      split
      · rfl
      · rw [findGateway_agree h (by simpa [mayGet] using hget) name]
        cases findGateway m'.cluster ns name with
        | none => rfl
        | some obj =>
          have hdata := (getCached_agree hcache h).1
          revert hdata
          generalize getCached env (cacheOf env earlier) m = x
          generalize getCached env (cacheOf env earlier') m' = x'
          obtain ⟨x, c⟩ := x
          obtain ⟨x', c'⟩ := x'
          intro hdata
          cases hdata with
          | none => rfl
          | some hd => simp only [Option.map_some, Option.getD_some, attachedRoutes_agree hreads hd]

end Answers

section Interference

variable {env : Env} {user : User}

/-- An object of a kind in a namespace, and nothing else about it. -/
def bareObject (ns : String) : Json := .object [("metadata", .object [("namespace", .string ns)])]

/-- A cluster with one route. -/
def oneRoute (k : RouteKind) (ns : String) : Cluster where
  routes l := if l = k then { items := [bareObject ns] } else {}

def momentOf (env : Env) (c : Cluster) : Moment env where
  cluster := c
  arrivals := env.status.routeKinds
  arrives := .refl _
  now := 0

def kindOf (s : GatewayAPISummary) : RouteKind → KindSummary
  | .grpc => s.grpcRoutes
  | .tcp => s.tcpRoutes
  | .tls => s.tlsRoutes
  | .udp => s.udpRoutes

theorem getNamespace_bareObject (ns : String) : getNamespace (bareObject ns) = ns := rfl

theorem oneRoute_agree {k : RouteKind} {ns : String} (hk : mayGet env user k.resource ns = false) :
    MomentsAgree env user (momentOf env {}) (momentOf env (oneRoute k ns)) where
  cluster :=
    { classesFail := rfl
      gatewayClasses := fun _ ↦ rfl
      gateways := ⟨rfl, rfl⟩
      httpRoutes := ⟨rfl, rfl⟩
      routes := by
        intro l
        by_cases hl : l = k
        · subst hl
          refine ⟨by simp [momentOf, oneRoute], ?_⟩
          simp [momentOf, oneRoute, getNamespace_bareObject, hk]
        · exact ⟨by simp [momentOf, oneRoute, hl], by simp [momentOf, oneRoute, hl]⟩ }
  arrivals := rfl
  now := rfl

theorem respond_summary (havailable : env.status.available = true) {c : Cluster} (hclasses : c.gatewayClasses = {})
    (hgateways : c.gateways = {}) (hroutes : c.httpRoutes = {}) :
    (respond env .summary user (cacheOf env none) (momentOf env c)).1 =
      .ok (.summary (computeSummary [] [] []
        (filterByRBAC env user "httproutes" (·.ns) (fetchRoutes c env.status.routeKinds)))) := by
  have hfetch : fetchAll c env.status.routeKinds 0 = some ⟨[], [], [], fetchRoutes c env.status.routeKinds, 0⟩ := by
    simp [fetchAll, hclasses, hgateways, hroutes, Objects.list]
  have hcached : getCached env none (momentOf env c) =
      (some ⟨[], [], [], fetchRoutes c env.status.routeKinds, 0⟩,
        some ⟨[], [], [], fetchRoutes c env.status.routeKinds, 0⟩) := by
    simp only [getCached, Option.filter_none, momentOf, hfetch]
  simp only [respond, handleSummary, withData, havailable, if_true, cacheOf, Option.bind_none, hcached, visibleClasses,
    ite_self]
  rfl

theorem kindOf_computeSummary (routes : List RouteSummary) (k : RouteKind) :
    kindOf (computeSummary [] [] [] routes) k = routeSummary routes k := by
  cases k <;> rfl

theorem available_of_mem {k : RouteKind} (hk : k ∈ env.status.routeKinds) : env.status.available = true := by
  by_contra h
  have hnone := env.status.installed (by simpa using h)
  simp [GatewayAPIStatus.routeKinds, hnone] at hk

/-- The summary counts a route that its user may not read as soon as the namespace's HTTP routes are readable. -/
theorem interferes {k : RouteKind} {ns : String} (hk : k ∈ env.status.routeKinds)
    (hhttp : mayGet env user "httproutes" ns = true) (hget : mayGet env user k.resource ns = false) :
    ¬ NonInterfering env user := by
  intro h
  have hsame := h none none (momentOf env {}) (momentOf env (oneRoute k ns)) .summary .none (oneRoute_agree hget)
  rw [respond_summary (available_of_mem hk) rfl rfl rfl, respond_summary (available_of_mem hk) rfl rfl rfl] at hsame
  have hcounts : routeSummary (filterByRBAC env user "httproutes" (·.ns) (fetchRoutes {} env.status.routeKinds)) k =
      routeSummary (filterByRBAC env user "httproutes" (·.ns) (fetchRoutes (oneRoute k ns) env.status.routeKinds)) k := by
    rw [← kindOf_computeSummary, ← kindOf_computeSummary]
    exact congrArg (fun s ↦ kindOf s k) (Payload.summary.inj (Except.ok.inj hsame))
  have hempty : fetchRoutes {} env.status.routeKinds = [] := by
    simp [fetchRoutes, Objects.list]
  have hmem : normalizeRoute k.kindName (bareObject ns) ∈
      (filterByRBAC env user "httproutes" (·.ns) (fetchRoutes (oneRoute k ns) env.status.routeKinds)).filter
        (fun rt ↦ rt.kind = k.kindName) := by
    refine List.mem_filter.mpr ⟨List.mem_filter.mpr ⟨List.mem_flatMap.mpr ⟨k, hk, ?_⟩, hhttp⟩, ?_⟩
    · simp [oneRoute, Objects.list]
    · exact decide_eq_true rfl
  rw [hempty] at hcounts
  have htotal := congrArg KindSummary.total hcounts
  exact (List.length_pos_of_mem hmem).ne htotal

/-- What the user may not read stays hidden exactly when the right to read the HTTP routes of a namespace always comes
with that to read its other routes. -/
theorem nonInterfering_iff_readsWithHTTP (env : Env) (user : User) :
    NonInterfering env user ↔ ReadsWithHTTP env user := by
  constructor
  · intro h k hk ns hhttp
    by_contra hget
    exact interferes hk hhttp (by simpa using hget) h
  · exact nonInterfering_of_readsWithHTTP

/-- Everybody may read HTTP routes and gateways, and nothing else. -/
def httpOnly : Env where
  status := ⟨true, ["gatewayclasses", "gateways", "httproutes", "grpcroutes"], by simp⟩
  canAccess _ _ resource _ := resource = "httproutes" || resource = "gateways"
  clientFor _ := true
  lower s := s

def eve : User := ⟨"1", "eve", "local", "eve", [], []⟩

/-- Eve's summary counts the GRPC routes. -/
theorem not_nonInterfering_httpOnly : ¬ ∀ (env : Env) (user : User), NonInterfering env user := by
  intro h
  have hk : RouteKind.grpc ∈ httpOnly.status.routeKinds := by decide
  have hhttp : mayGet httpOnly eve "httproutes" "default" = true := rfl
  have hget : mayGet httpOnly eve RouteKind.grpc.resource "default" = false := rfl
  exact interferes hk hhttp hget (h httpOnly eve)

end Interference

end KubeCenter.Gateway.Visibility
