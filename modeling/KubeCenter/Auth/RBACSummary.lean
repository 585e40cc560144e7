import Mathlib.Data.List.Sort
import KubeCenter.Auth.Session

namespace KubeCenter.Auth

open KubeCenter.Core

def rbacCacheTTL : ℕ := minute
def rbacCacheMaxSize : ℕ := 1000

def isAdmin (u : User) : Bool := u.roles.contains "admin"

/-- One rule of a SelfSubjectRulesReview. -/
structure ResourceRule where
  verbs : List String
  resources : List String

abbrev Permissions := GoMap String (List String)

structure RBACSummary where
  clusterScoped : Permissions := ∅
  namespaces : GoMap String Permissions := ∅

structure RBACCacheEntry where
  summary : RBACSummary
  expiresAt : ℕ

abbrev RBACCache := GoMap String RBACCacheEntry

def trackedResources : List String :=
  ["pods", "services", "configmaps", "secrets", "namespaces", "nodes", "persistentvolumeclaims", "persistentvolumes",
    "endpoints", "events", "resourcequotas", "limitranges", "serviceaccounts", "deployments", "statefulsets",
    "daemonsets", "replicasets", "jobs", "cronjobs", "ingresses", "networkpolicies", "poddisruptionbudgets",
    "horizontalpodautoscalers", "storageclasses", "roles", "clusterroles", "rolebindings", "clusterrolebindings",
    "endpointslices"]

def isSystemNamespace (ns : String) : Bool := "kube-".toList.isPrefixOf ns.toList

def appendUnique (verbs : List String) (verb : String) : List String :=
  if verb ∈ verbs then verbs else verbs ++ [verb]

/-- The resources of a rule that count: `*` stands for every tracked one. -/
def ruleResources (rule : ResourceRule) : List String :=
  rule.resources.flatMap (fun resource ↦
    if resource = "*" then trackedResources else if resource ∈ trackedResources then [resource] else [])

def addVerbs (perms : Permissions) (resource : String) (verbs : List String) : Permissions :=
  verbs.foldl (fun perms verb ↦ perms.insert resource (appendUnique ((perms.lookup resource).getD []) verb)) perms

/-- What `getRulesForNamespace` makes of a review's answer. -/
def permissions (rules : List ResourceRule) : Permissions :=
  rules.foldl (fun perms rule ↦
    (ruleResources rule).foldl (fun perms resource ↦ addVerbs perms resource rule.verbs) perms) ∅

/-- The user is granted something by the rules. -/
def Grants (rules : List ResourceRule) : Prop := ∃ rule ∈ rules, rule.resources ≠ [] ∧ rule.verbs ≠ []

/-- What a lookup meets: the clock, an error of `ClientForUser`, the answers of the rules reviews
(`none` one that fails), and the order in which the cache is ranged over. -/
structure RBACEnv where
  readAt : ℕ
  storedAt : ℕ
  clientErr : Option String := none
  review : String → Option (List ResourceRule)
  order : List String := []

/-- `digest` is the hash that `rbacCacheKey` ends on. -/
def rbacCacheKey (digest : String → String) (u : User) : String :=
  digest (u.kubernetesUsername ++ "\x00" ++ "\x00".intercalate (u.kubernetesGroups.insertionSort (· ≤ ·)))

def reviewed (env : RBACEnv) (ns : String) : Permissions :=
  match env.review ns with
  | none => ∅
  | some rules => (permissions rules).sift (fun _ verbs ↦ decide (verbs ≠ []))

/-- The summary `GetSummary` builds when nothing is cached. -/
def summarize (env : RBACEnv) (namespaces : List String) : RBACSummary where
  clusterScoped := reviewed env ""
  namespaces := namespaces.foldl (fun m ns ↦
    if isSystemNamespace ns = true ∨ (reviewed env ns).entries = [] then m else m.insert ns (reviewed env ns)) ∅

/-- The eviction of a full cache: the expired entries, then, if it is still full, the first half in
the range's order. -/
def evict (env : RBACEnv) (cache : RBACCache) : RBACCache :=
  if cache.entries.length < rbacCacheMaxSize then cache
  else
    let live := cache.sift (fun _ entry ↦ decide (env.storedAt ≤ entry.expiresAt))
    if live.entries.length < rbacCacheMaxSize then live
    else (env.order.take (rbacCacheMaxSize / 2)).foldl (fun m k ↦ m.erase k) live

/-- The cached summary that is served, if it has not expired. -/
def warm (digest : String → String) (env : RBACEnv) (u : User) (cache : RBACCache) : Option RBACSummary :=
  ((cache.lookup (rbacCacheKey digest u)).filter (fun entry ↦ decide (env.readAt < entry.expiresAt))).map (·.summary)

def getSummary (digest : String → String) (env : RBACEnv) (u : User) (namespaces : List String) (cache : RBACCache) :
    Except String RBACSummary × RBACCache :=
  match warm digest env u cache with
  | some summary => (.ok summary, cache)
  | none =>
    let cache := cache.erase (rbacCacheKey digest u)
    match env.clientErr with
    | some err => (.error ("creating client for RBAC check: " ++ err), cache)
    | none =>
      let summary := summarize env namespaces
      (.ok summary, (evict env cache).insert (rbacCacheKey digest u) ⟨summary, env.storedAt + rbacCacheTTL⟩)

theorem getSummary_warm {digest : String → String} {env : RBACEnv} {u : User} {cache : RBACCache} {s : RBACSummary}
    (h : warm digest env u cache = some s) (namespaces : List String) :
    (getSummary digest env u namespaces cache).1 = .ok s := by
  simp only [getSummary, h]

theorem getSummary_cold {digest : String → String} {env : RBACEnv} {u : User} {cache : RBACCache}
    (h : warm digest env u cache = none) (namespaces : List String) :
    (getSummary digest env u namespaces cache).1 =
      match env.clientErr with
      | some err => .error ("creating client for RBAC check: " ++ err)
      | none => .ok (summarize env namespaces) := by
  simp only [getSummary, h]
  cases env.clientErr <;> rfl

theorem addVerbs_nil {perms : Permissions} {resource : String} : addVerbs perms resource [] = perms := rfl

/-- Rules that grant nothing leave no permission. -/
theorem grants_of_permissions {rules : List ResourceRule} (h : permissions rules ≠ ∅) : Grants rules := by
  by_contra hno
  simp only [Grants, not_exists, not_and, not_not] at hno
  refine h (List.foldlRecOn (motive := fun perms : Permissions ↦ perms = ∅) rules _ rfl (fun perms hp rule hrule ↦ ?_))
  by_cases hres : rule.resources = []
  · simpa [ruleResources, hres] using hp
  · rw [hno rule hrule hres]
    refine List.foldlRecOn (motive := fun perms : Permissions ↦ perms = ∅) _ _ hp (fun perms hp _ _ ↦ ?_)
    rw [addVerbs_nil, hp]

theorem grants_of_reviewed {env : RBACEnv} {ns : String} (h : (reviewed env ns).entries ≠ []) :
    ∃ rules, env.review ns = some rules ∧ Grants rules := by
  unfold reviewed at h
  cases hr : env.review ns with
  | none => simp [hr] at h
  | some rules =>
    refine ⟨rules, rfl, grants_of_permissions (fun he ↦ h ?_)⟩
    simp [hr, he, GoMap.sift]

/-- A namespace gets into a summary only through a review that grants something in it. -/
theorem grants_of_mem_summarize {env : RBACEnv} {namespaces : List String} {ns : String}
    (h : ns ∈ (summarize env namespaces).namespaces) : ∃ rules, env.review ns = some rules ∧ Grants rules := by
  revert h
  refine List.foldlRecOn
    (motive := fun m : GoMap String Permissions ↦ ns ∈ m → ∃ rules, env.review ns = some rules ∧ Grants rules)
    namespaces _ (fun h ↦ absurd h (AList.notMem_empty ns)) (fun m ih ns' _ h ↦ ?_)
  split at h
  · exact ih h
  · next hns =>
    rcases GoMap.mem_of_mem_insert h with rfl | h
    · exact grants_of_reviewed (fun he ↦ hns (.inr he))
    · exact ih h

theorem summarize_nil (env : RBACEnv) : (summarize env []).namespaces = ∅ := rfl

theorem lookup_of_evict {env : RBACEnv} {cache : RBACCache} {k : String} {entry : RBACCacheEntry}
    (h : (evict env cache).lookup k = some entry) : cache.lookup k = some entry := by
  have hsift : (cache.sift (fun _ entry ↦ decide (env.storedAt ≤ entry.expiresAt))).lookup k = some entry →
      cache.lookup k = some entry := fun h ↦ by
    rw [GoMap.lookup_sift] at h
    exact (Option.filter_eq_some_iff.mp h).1
  unfold evict at h
  split at h
  · exact h
  · dsimp only at h
    split at h
    · exact hsift h
    · refine hsift (List.foldlRecOn
        (motive := fun m : RBACCache ↦ m.lookup k = some entry → _) _ _ id (fun m ih k' _ h ↦ ih ?_) h)
      exact GoMap.mem_entries_iff.mp (GoMap.mem_entries_erase (GoMap.mem_entries_iff.mpr h))

/-- A call of `GetSummary` by some caller. -/
structure Lookup where
  env : RBACEnv
  user : User
  namespaces : List String

/-- The cache after a sequence of calls. -/
def afterLookups (digest : String → String) (cache : RBACCache) (lookups : List Lookup) : RBACCache :=
  lookups.foldl (fun cache l ↦ (getSummary digest l.env l.user l.namespaces cache).2) cache

/-- What is cached under a key is granted to those the key is for. -/
def CachesGrants (rbac : String → String → List ResourceRule) (cache : RBACCache) : Prop :=
  ∀ key entry, cache.lookup key = some entry → ∀ ns ∈ entry.summary.namespaces, Grants (rbac key ns)

/-- The reviews of the lookup answer what RBAC has for its user. -/
def Lookup.Honest (digest : String → String) (rbac : String → String → List ResourceRule) (l : Lookup) : Prop :=
  ∀ ns rules, l.env.review ns = some rules → rules = rbac (rbacCacheKey digest l.user) ns

theorem cachesGrants_getSummary {digest : String → String} {rbac : String → String → List ResourceRule}
    {cache : RBACCache} {l : Lookup} (hl : l.Honest digest rbac) (h : CachesGrants rbac cache) :
    CachesGrants rbac (getSummary digest l.env l.user l.namespaces cache).2 := by
  have herase : CachesGrants rbac (cache.erase (rbacCacheKey digest l.user)) := fun key entry he ↦
    h key entry (GoMap.mem_entries_iff.mp (GoMap.mem_entries_erase (GoMap.mem_entries_iff.mpr he)))
  unfold getSummary
  cases warm digest l.env l.user cache with
  | some => exact h
  | none =>
    cases l.env.clientErr with
    | some => exact herase
    | none =>
      intro key entry he ns hns
      rcases GoMap.mem_entries_insert (GoMap.mem_entries_iff.mpr he) with heq | hmem
      · obtain ⟨rfl, rfl⟩ : key = rbacCacheKey digest l.user ∧
            entry = ⟨summarize l.env l.namespaces, l.env.storedAt + rbacCacheTTL⟩ := by simpa using heq
        obtain ⟨rules, hreview, hgrants⟩ := grants_of_mem_summarize hns
        rwa [hl ns rules hreview] at hgrants
      · exact herase key entry (lookup_of_evict (GoMap.mem_entries_iff.mp hmem)) ns hns

theorem cachesGrants_afterLookups {digest : String → String} {rbac : String → String → List ResourceRule}
    {cache : RBACCache} {lookups : List Lookup} (hl : ∀ l ∈ lookups, l.Honest digest rbac)
    (h : CachesGrants rbac cache) : CachesGrants rbac (afterLookups digest cache lookups) := by
  refine List.foldlRecOn (motive := CachesGrants rbac) lookups _ h (fun cache ih l hmem ↦ ?_)
  exact cachesGrants_getSummary (hl l hmem) ih

theorem grants_of_warm {digest : String → String} {rbac : String → String → List ResourceRule} {cache : RBACCache}
    {env : RBACEnv} {u : User} {summary : RBACSummary} (h : CachesGrants rbac cache)
    (hw : warm digest env u cache = some summary) {ns : String} (hns : ns ∈ summary.namespaces) :
    Grants (rbac (rbacCacheKey digest u) ns) := by
  obtain ⟨entry, hentry, rfl⟩ := Option.map_eq_some_iff.mp hw
  exact h _ entry (Option.filter_eq_some_iff.mp hentry).1 ns hns

end KubeCenter.Auth
