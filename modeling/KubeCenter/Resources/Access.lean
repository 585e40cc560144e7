import Mathlib.Data.List.Sort
import Mathlib.Data.Finset.Basic
import KubeCenter.Core.GoMap
import KubeCenter.Core.GoString
import KubeCenter.K8s.ClusterRouter

namespace KubeCenter.Resources

open KubeCenter.Core K8s

def accessCacheTTL : ℕ := 60 * 1000000000

structure AccessCacheKey where
  clusterID : String
  username : String
  groups : String
  resource : String
  ns : String
  verb : String
  deriving DecidableEq

structure AccessCacheEntry where
  allowed : Bool
  expiresAt : ℕ

/-- A SelfSubjectAccessReview with the cluster that answers it and the identity it runs under.
The order of the groups says nothing. -/
structure Review where
  cluster : String
  username : String
  groups : Finset String
  ns : String
  verb : String
  group : String
  resource : String
  subresource : String
  deriving DecidableEq

/-- What can go wrong beyond the checker: no client can be made for the user, or the request fails. -/
inductive Failure
  | client (err : String)
  | request (err : String)

inductive AccessError
  | noClusterRouter (clusterID : String)
  | creatingClient (err : String)
  | review (checked ns clusterID err : String)
  deriving DecidableEq

def Failure.wrap (checked ns clusterID : String) : Failure → AccessError
  | .client err => .creatingClient err
  | .request err => .review checked ns clusterID err

/-- `quoted` is `%q`. -/
def AccessError.message (quoted : String → String) : AccessError → String
  | .noClusterRouter clusterID =>
    "creating client for access check: non-local clusterID " ++ quoted clusterID ++
      " requested but AccessChecker has no ClusterRouter — RBAC for remote clusters unavailable"
  | .creatingClient err => "creating client for access check: " ++ err
  | .review checked ns clusterID err =>
    "SelfSubjectAccessReview for " ++ checked ++ " in " ++ quoted ns ++ " on cluster " ++
      quoted clusterID ++ ": " ++ err

structure AccessChecker where
  clusterRouter : Bool := false
  cache : GoMap AccessCacheKey AccessCacheEntry := ∅
  alwaysAllow : Bool := false
  alwaysDeny : Bool := false
  predicate : Option (String → String → String → String → Bool) := none
  denyResources : List String := []

def sortedGroups (groups : List String) : String :=
  ",".intercalate (groups.insertionSort (fun a b ↦ a ≤ b))

def apiGroupForResource (resource : String) : String :=
  if resource ∈ ["deployments", "statefulsets", "daemonsets", "replicasets"] then "apps"
  else if resource ∈ ["jobs", "cronjobs"] then "batch"
  else if resource ∈ ["ingresses", "networkpolicies"] then "networking.k8s.io"
  else if resource = "poddisruptionbudgets" then "policy"
  else if resource ∈ ["roles", "clusterroles", "rolebindings", "clusterrolebindings"] then
    "rbac.authorization.k8s.io"
  else if resource ∈ ["prometheusrules", "servicemonitors", "podmonitors", "alertmanagers",
    "alertmanagerconfigs"] then "monitoring.coreos.com"
  else if resource ∈ ["ciliumnetworkpolicies", "ciliumclusterwidenetworkpolicies"] then "cilium.io"
  else ""

/-- `CanAccess`'s resource and subresource: a slash splits them unless it comes first. -/
def splitResource (resource : String) : String × String :=
  match cut '/' resource.toList with
  | some (c :: res, sub) => (String.ofList (c :: res), String.ofList sub)
  | _ => (resource, "")

structure Clock where
  readAt : ℕ
  storedAt : ℕ

variable (authorizer : Review → Except Failure Bool)

namespace AccessChecker

variable (ac : AccessChecker)

def setClusterRouter : AccessChecker := { ac with clusterRouter := true }

/-- What `CanAccess` and `CanAccessGroupResource` do past their test hooks. `checked` names the
permission in an error. -/
def cachedReview (clock : Clock) (checked : String) (key : AccessCacheKey) (review : Review) :
    Except AccessError Bool × AccessChecker :=
  let ask (ac : AccessChecker) : Except AccessError Bool × AccessChecker :=
    if !isLocalClusterID key.clusterID && !ac.clusterRouter then (.error (.noClusterRouter key.clusterID), ac)
    else match authorizer review with
      | .error failure => (.error (failure.wrap checked key.ns key.clusterID), ac)
      | .ok allowed =>
        (.ok allowed, { ac with cache := ac.cache.insert key ⟨allowed, clock.storedAt + accessCacheTTL⟩ })
  match ac.cache.lookup key with
  | some entry =>
    if clock.readAt < entry.expiresAt then (.ok entry.allowed, ac)
    else ask { ac with cache := ac.cache.erase key }
  | none => ask ac

def canAccess (clock : Clock) (clusterID username : String) (groups : List String)
    (verb resource ns : String) : Except AccessError Bool × AccessChecker :=
  if resource ∈ ac.denyResources then (.ok false, ac)
  else if ac.alwaysAllow then (.ok true, ac)
  else if ac.alwaysDeny then (.ok false, ac)
  else if ac.predicate.isSome then (.ok true, ac)
  else
    let res := (splitResource resource).1
    ac.cachedReview authorizer clock (verb ++ "/" ++ resource)
      { clusterID, username, groups := sortedGroups groups, resource, ns, verb }
      { cluster := normalizedClusterID clusterID, username, groups := groups.toFinset, ns, verb
        group := apiGroupForResource res, resource := res, subresource := (splitResource resource).2 }

def canAccessGroupResource (clock : Clock) (clusterID username : String) (groups : List String)
    (verb apiGroup resource ns : String) : Except AccessError Bool × AccessChecker :=
  if ac.alwaysAllow then (.ok true, ac)
  else if ac.alwaysDeny then (.ok false, ac)
  else match ac.predicate with
    | some predicate => (.ok (predicate verb apiGroup resource ns), ac)
    | none =>
      ac.cachedReview authorizer clock (verb ++ " " ++ apiGroup ++ "/" ++ resource)
        { clusterID, username, groups := sortedGroups groups, resource := apiGroup ++ "/" ++ resource, ns, verb }
        { cluster := normalizedClusterID clusterID, username, groups := groups.toFinset, ns, verb
          group := apiGroup, resource, subresource := "" }

end AccessChecker

example : splitResource "pods/log" = ("pods", "log") ∧ splitResource "/log" = ("/log", "") := by decide

end KubeCenter.Resources
