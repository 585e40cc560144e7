import Mathlib.Data.List.Dedup
import Mathlib.Data.List.Sort
import Mathlib.Data.String.Basic
import KubeCenter.Auth.Session
import KubeCenter.Core.GoString
import KubeCenter.Core.Http
import KubeCenter.ExternalSecrets.BulkWorker

/-! The bulk refresh of a scope: what the scope resolves to, and the checks a request passes before it becomes a
job. -/

namespace KubeCenter.ExternalSecrets

open KubeCenter.Core KubeCenter.Store KubeCenter.Auth

def maxBulkTargets : ℕ := 5000

structure BulkNamespaceCount where
  ns : String
  count : ℕ
  deriving DecidableEq

structure BulkScopeResponse where
  action : BulkRefreshAction
  scopeTarget : String
  totalCount : ℕ
  totalNamespaces : ℕ
  visibleCount : ℕ
  restricted : Bool
  targets : List BulkScopeTarget
  byNamespace : List BulkNamespaceCount
  deriving DecidableEq

def matchScope (ess : List ExternalSecret) (action : BulkRefreshAction) (scopeTarget : String) :
    List ExternalSecret :=
  match action with
  | .refreshStore =>
    match cut '/' scopeTarget.toList with
    | none => []
    | some (ns, name) =>
      if ns = [] ∨ name = [] then []
      else ess.filter (fun es ↦
        es.ns.toList = ns && (es.storeRef.kind = "SecretStore" && es.storeRef.name.toList = name))
  | .refreshClusterStore =>
    ess.filter (fun es ↦ es.storeRef.kind = "ClusterSecretStore" && es.storeRef.name = scopeTarget)
  | .refreshNamespace => ess.filter (fun es ↦ es.ns = scopeTarget)

def countNamespaces (ess : List ExternalSecret) : ℕ := (ess.map ExternalSecret.ns).dedup.length

def ExternalSecret.target (es : ExternalSecret) : BulkScopeTarget := ⟨es.ns, es.name, es.uid⟩

/-- `canAccess` holds the answers of this request, one for each namespace. -/
def resolveScope (cached : Except String (List ExternalSecret)) (canAccess : String → Bool)
    (action : BulkRefreshAction) (scopeTarget : String) : Except String BulkScopeResponse :=
  match cached with
  | .error err => .error err
  | .ok ess =>
    let saMatched := matchScope ess action scopeTarget
    let visible := saMatched.filter (fun es ↦ canAccess es.ns)
    .ok
      { action, scopeTarget
        totalCount := saMatched.length
        totalNamespaces := countNamespaces saMatched
        visibleCount := visible.length
        restricted := decide (visible.length < saMatched.length)
        targets := (visible.map ExternalSecret.target).insertionSort
          (fun a b ↦ if a.ns ≠ b.ns then a.ns < b.ns else a.name ≤ b.name)
        byNamespace := ((visible.map ExternalSecret.ns).dedup.map
          (fun ns ↦ ⟨ns, visible.countP (fun es ↦ es.ns = ns)⟩)).insertionSort (fun a b ↦ a.ns ≤ b.ns) }

/-- The uids in scope that the client does not list, and those it lists that are not in scope. -/
def compareUIDs (client : List String) (scope : List BulkScopeTarget) : List String × List String :=
  (((scope.map BulkScopeTarget.uid).filter (· ∉ client)).insertionSort (· ≤ ·),
    (client.filter (· ∉ scope.map BulkScopeTarget.uid)).insertionSort (· ≤ ·))

/-- A parameter of a request's path. -/
structure PathParam where
  text : String
  segment : '/' ∉ text.toList

inductive BulkRoute
  | refreshStore (ns name : PathParam)
  | refreshClusterStore (name : PathParam)
  | refreshNamespace (ns : PathParam)

namespace BulkRoute

def action : BulkRoute → BulkRefreshAction
  | .refreshStore _ _ => .refreshStore
  | .refreshClusterStore _ => .refreshClusterStore
  | .refreshNamespace _ => .refreshNamespace

def scopeTarget : BulkRoute → String
  | .refreshStore ns name => ns.text ++ "/" ++ name.text
  | .refreshClusterStore name => name.text
  | .refreshNamespace ns => ns.text

/-- The ExternalSecrets a route is about. -/
def Covers (es : ExternalSecret) : BulkRoute → Prop
  | .refreshStore ns name => es.ns = ns.text ∧ es.storeRef = ⟨name.text, "SecretStore"⟩
  | .refreshClusterStore name => es.storeRef = ⟨name.text, "ClusterSecretStore"⟩
  | .refreshNamespace ns => es.ns = ns.text

end BulkRoute

/-- `body` is the `targetUIDs` of the request's body, `none` when it does not decode. -/
structure BulkRequest where
  user : Option User
  clusterID : String := "local"
  route : BulkRoute
  body : Option (List String)

/-- What a request meets. The checker answers for a name and its groups, a verb, a resource and a namespace, with
`none` for an error. -/
structure BulkEnv where
  services : Bool := true
  available : Bool := true
  cached : Except String (List ExternalSecret)
  checker : String → List String → String → String → String → Option Bool

def BulkEnv.canAccess (env : BulkEnv) (user : User) (verb resource ns : String) : Bool :=
  env.checker user.kubernetesUsername user.kubernetesGroups verb resource ns == some true

structure Refusal where
  code : ℕ
  message : String
  detail : String := ""
  reason : String := ""
  added : List String := []
  removed : List String := []
  jobID : Option ℕ := none
  deriving DecidableEq

/-- `handleBulkRefresh` up to the look for an active job. -/
def vet (req : BulkRequest) (env : BulkEnv) : Except Refusal (User × BulkScopeResponse) :=
  match req.user with
  | none => .error { code := 401, message := "authentication required" }
  | some user =>
    if req.clusterID ≠ "" ∧ req.clusterID ≠ "local" then
      .error
        { code := 501
          message := "ESO write actions are local-cluster only in v1"
          detail := "X-Cluster-ID=" ++ req.clusterID ++ " is not supported for force-sync or bulk refresh" }
    else if env.services = false then .error { code := 503, message := "bulk refresh unavailable" }
    else if env.available = false then .error { code := 503, message := "ESO not detected" }
    else
      match resolveScope env.cached (env.canAccess user "patch" "externalsecrets") req.route.action
        req.route.scopeTarget with
      | .error _ => .error { code := 500, message := "failed to resolve scope" }
      | .ok scope =>
        if scope.visibleCount = 0 then
          .error
            { code := 422
              message := "scope is empty"
              detail := "no ExternalSecrets are in scope or you have no refresh permission" }
        else if maxBulkTargets < scope.visibleCount then
          .error
            { code := 413
              message := "scope too large (" ++ scope.visibleCount.repr ++ " > " ++ maxBulkTargets.repr ++
                "); use per-namespace refresh" }
        else
          match req.body with
          | none =>
            .error { code := 400, message := "invalid body — expected \x7b\"targetUIDs\":[...]\x7d" }
          | some targetUIDs =>
            if targetUIDs = [] then
              .error
                { code := 400
                  message := "targetUIDs required — call GET refresh-scope first and pass the returned UIDs" }
            else if compareUIDs targetUIDs scope.targets ≠ ([], []) then
              .error
                { code := 409
                  message := "scope changed since last resolution"
                  reason := "scope_changed"
                  added := (compareUIDs targetUIDs scope.targets).1
                  removed := (compareUIDs targetUIDs scope.targets).2 }
            else .ok (user, scope)

/-- The targets are what the client has confirmed, lie in the scope that was asked for, in namespaces where the user
may patch ExternalSecrets, and are not too many. -/
structure Confirmed (req : BulkRequest) (env : BulkEnv) (user : User) (targets : List BulkScopeTarget) : Prop where
  requester : req.user = some user
  uids : ∃ targetUIDs, req.body = some targetUIDs ∧
    ∀ uid, uid ∈ targets.map BulkScopeTarget.uid ↔ uid ∈ targetUIDs
  covered : ∃ ess, env.cached = .ok ess ∧ ∀ t ∈ targets, ∃ es ∈ ess, es.target = t ∧ req.route.Covers es
  allowed : ∀ t ∈ targets, env.canAccess user "patch" "externalsecrets" t.ns = true
  limit : targets.length ≤ maxBulkTargets

theorem mem_matchScope {ess : List ExternalSecret} {route : BulkRoute} {es : ExternalSecret}
    (h : es ∈ matchScope ess route.action route.scopeTarget) : es ∈ ess ∧ route.Covers es := by
  cases route with
  | refreshStore ns name =>
    have hcut : cut '/' (ns.text ++ "/" ++ name.text).toList = some (ns.text.toList, name.text.toList) := by
      have htext : (ns.text ++ "/" ++ name.text).toList = ns.text.toList ++ '/' :: name.text.toList := by
        simp [String.toList_append]
      rw [htext, cut_append ns.segment]
    simp only [matchScope, BulkRoute.action, BulkRoute.scopeTarget, hcut] at h
    split at h
    · cases h
    · simp only [List.mem_filter, Bool.and_eq_true, decide_eq_true_eq] at h
      obtain ⟨hmem, hns, hkind, hname⟩ := h
      refine ⟨hmem, String.toList_injective hns, ?_⟩
      rw [← hkind, ← String.toList_injective hname]
  | refreshClusterStore name =>
    simp only [matchScope, BulkRoute.action, List.mem_filter, Bool.and_eq_true, decide_eq_true_eq] at h
    obtain ⟨hmem, hkind, hname⟩ := h
    have hname' : es.storeRef.name = name.text := hname
    refine ⟨hmem, ?_⟩
    rw [BulkRoute.Covers, ← hkind, ← hname']
  | refreshNamespace ns =>
    simp only [matchScope, BulkRoute.action, List.mem_filter, decide_eq_true_eq] at h
    exact h

theorem resolveScope_targets {cached : Except String (List ExternalSecret)} {canAccess : String → Bool}
    {action : BulkRefreshAction} {scopeTarget : String} {scope : BulkScopeResponse}
    (h : resolveScope cached canAccess action scopeTarget = .ok scope) :
    ∃ ess, cached = .ok ess ∧ scope.targets.length = scope.visibleCount ∧
      ∀ t ∈ scope.targets, ∃ es ∈ matchScope ess action scopeTarget, es.target = t ∧ canAccess t.ns = true := by
  unfold resolveScope at h
  split at h
  · cases h
  · rename_i ess
    cases h
    refine ⟨ess, rfl, ?_, fun t ht ↦ ?_⟩
    · simp
    · simp only [List.mem_insertionSort, List.mem_map, List.mem_filter] at ht
      obtain ⟨es, ⟨hes, hcan⟩, rfl⟩ := ht
      exact ⟨es, hes, rfl, hcan⟩

theorem insertionSort_eq_nil {l : List String} : l.insertionSort (· ≤ ·) = [] ↔ l = [] := by
  rw [← List.length_eq_zero_iff, List.length_insertionSort, List.length_eq_zero_iff]

theorem compareUIDs_eq_nil {client : List String} {scope : List BulkScopeTarget} :
    compareUIDs client scope = ([], []) ↔ ∀ uid, uid ∈ scope.map BulkScopeTarget.uid ↔ uid ∈ client := by
  simp only [compareUIDs, Prod.mk.injEq, insertionSort_eq_nil, List.filter_eq_nil_iff, decide_eq_true_eq, not_not]
  constructor
  · rintro ⟨hadded, hremoved⟩ uid
    exact ⟨hadded uid, hremoved uid⟩
  · intro h
    exact ⟨fun uid ↦ (h uid).mp, fun uid ↦ (h uid).mpr⟩

theorem vet_eq_ok {req : BulkRequest} {env : BulkEnv} {user : User} {scope : BulkScopeResponse}
    (h : vet req env = .ok (user, scope)) :
    req.user = some user ∧
      resolveScope env.cached (env.canAccess user "patch" "externalsecrets") req.route.action
        req.route.scopeTarget = .ok scope ∧
      scope.visibleCount ≤ maxBulkTargets ∧
      ∃ targetUIDs, req.body = some targetUIDs ∧ compareUIDs targetUIDs scope.targets = ([], []) := by
  unfold vet at h
  split at h
  · cases h
  · rename_i user' huser
    simp only [ite_error_eq_ok] at h
    obtain ⟨-, -, -, h⟩ := h
    split at h
    · cases h
    · rename_i scope' hscope
      simp only [ite_error_eq_ok] at h
      obtain ⟨-, hmax, h⟩ := h
      split at h
      · cases h
      · rename_i targetUIDs hbody
        simp only [ite_error_eq_ok, not_not] at h
        obtain ⟨-, hsame, h⟩ := h
        cases h
        exact ⟨huser, hscope, Nat.not_lt.mp hmax, targetUIDs, hbody, hsame⟩

theorem vet_confirmed {req : BulkRequest} {env : BulkEnv} {user : User} {scope : BulkScopeResponse}
    (h : vet req env = .ok (user, scope)) : Confirmed req env user scope.targets := by
  obtain ⟨huser, hscope, hmax, targetUIDs, hbody, hsame⟩ := vet_eq_ok h
  obtain ⟨ess, hcached, hlength, htargets⟩ := resolveScope_targets hscope
  refine ⟨huser, ⟨targetUIDs, hbody, compareUIDs_eq_nil.mp hsame⟩, ⟨ess, hcached, fun t ht ↦ ?_⟩, fun t ht ↦ ?_,
    hlength.trans_le hmax⟩
  · obtain ⟨es, hes, heq, -⟩ := htargets t ht
    obtain ⟨hmem, hcovers⟩ := mem_matchScope hes
    exact ⟨es, hmem, heq, hcovers⟩
  · obtain ⟨es, -, -, hcan⟩ := htargets t ht
    exact hcan

end KubeCenter.ExternalSecrets
