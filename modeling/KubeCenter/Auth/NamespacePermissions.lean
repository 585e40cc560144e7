import KubeCenter.Auth.RBACSummary
import KubeCenter.Core.Runs

/-! The permissions in one namespace: out of the cached summary, or looked up. -/

namespace KubeCenter.Auth.NamespacePermissions

open KubeCenter.Core

def only (ns : String) (perms : Permissions) : GoMap String Permissions := AList.insert ns perms ∅

/-- The requested namespace out of a full summary. -/
def extract (summary : RBACSummary) (ns : String) : RBACSummary where
  clusterScoped := summary.clusterScoped
  namespaces :=
    match summary.namespaces.lookup ns with
    | some perms => only ns perms
    | none => ∅

/-- The summary for one namespace, from rules reviews. -/
def evaluate (env : RBACEnv) (ns : String) : RBACSummary where
  clusterScoped := reviewed env ""
  namespaces :=
    if ns = "" ∨ isSystemNamespace ns = true ∨ (reviewed env ns).entries = [] then ∅
    else only ns (reviewed env ns)

def getNamespacePermissions (digest : String → String) (env : RBACEnv) (u : User) (ns : String) (cache : RBACCache) :
    Except String RBACSummary :=
  match warm digest env u cache with
  | some summary => .ok (extract summary ns)
  | none =>
    match env.clientErr with
    | some err => .error ("creating client for RBAC check: " ++ err)
    | none => .ok (evaluate env ns)

/-- What the cluster's RBAC has for a user name, its groups and a namespace. -/
abbrev RBAC := String → List String → String → List ResourceRule

/-- A call of one of the two lookups. `fails` tells which of its reviews fail. -/
structure Call where
  user : User
  readAt : ℕ
  storedAt : ℕ
  clientErr : Option String := none
  fails : String → Bool := fun _ ↦ false
  order : List String := []

def Call.env (rbac : RBAC) (c : Call) : RBACEnv where
  readAt := c.readAt
  storedAt := c.storedAt
  clientErr := c.clientErr
  review ns := if c.fails ns then none else some (rbac c.user.kubernetesUsername c.user.kubernetesGroups ns)
  order := c.order

structure State where
  now : ℕ
  cache : RBACCache := ∅

inductive Act
  | summary (c : Call) (namespaces : List String)
  | permissions (c : Call) (ns : String)

variable (digest : String → String) (rbac : RBAC)

/-- The calls come one after the other. -/
def step (s : State) : Act → Option State
  | .summary c namespaces =>
    if s.now ≤ c.readAt ∧ c.readAt ≤ c.storedAt then
      some ⟨c.storedAt, (getSummary digest (c.env rbac) c.user namespaces s.cache).2⟩
    else none
  | .permissions c _ => if s.now ≤ c.readAt then some ⟨c.readAt, s.cache⟩ else none

/-- What reviews that all succeed would give the user in a namespace. -/
def rights (u : User) (ns : String) : Permissions :=
  (permissions (rbac u.kubernetesUsername u.kubernetesGroups ns)).sift (fun _ verbs ↦ decide (verbs ≠ []))

/-- A cold evaluation all of whose requests succeed. -/
def cold (u : User) (ns : String) : RBACSummary :=
  evaluate { readAt := 0, storedAt := 0, review := fun ns ↦ some (rbac u.kubernetesUsername u.kubernetesGroups ns) } ns

/-- Whoever asks for whatever namespace, now or later: what comes from the warm cache is what a cold evaluation gives. -/
def FastEqualsSlow (s : State) : Prop := ∀ (c : Call) (ns : String), s.now ≤ c.readAt → warm digest (c.env rbac) c.user s.cache ≠ none →
  getNamespacePermissions digest (c.env rbac) c.user ns s.cache = .ok (cold rbac c.user ns)

/-- What a summary misses of its user's rights, and whom else it is for. -/
structure Complete (c : Call) (namespaces : List String) : Prop where
  clusterScoped : c.fails "" = true → rights rbac c.user "" = ∅
  covered : ∀ ns, ns ≠ "" → isSystemNamespace ns = false → (rights rbac c.user ns).entries ≠ [] →
    ns ∈ namespaces ∧ c.fails ns = false
  unnamed : "" ∈ namespaces → (rights rbac c.user "").entries = []
  identity : ∀ u, rbacCacheKey digest u = rbacCacheKey digest c.user → ∀ ns, isSystemNamespace ns = false →
    rights rbac u ns = rights rbac c.user ns

/-- A summary that is stored is complete. -/
def StoresComplete (s : State) : Act → Prop
  | .summary c namespaces => warm digest (c.env rbac) c.user s.cache = none → c.clientErr = none →
      Complete digest rbac c namespaces
  | .permissions _ _ => True

variable {digest rbac} {s t : State} {c : Call} {ns : String} {namespaces : List String} {u : User}

theorem reviewed_env (c : Call) (ns : String) :
    reviewed (c.env rbac) ns = if c.fails ns then ∅ else rights rbac c.user ns := by
  unfold reviewed Call.env rights
  dsimp only
  cases c.fails ns <;> rfl

/-- Where a summary has a namespace. -/
theorem lookup_summarize (env : RBACEnv) (namespaces : List String) (ns : String) :
    (summarize env namespaces).namespaces.lookup ns =
      if ns ∈ namespaces ∧ isSystemNamespace ns = false ∧ (reviewed env ns).entries ≠ [] then some (reviewed env ns)
      else none := by
  unfold summarize
  dsimp only
  induction namespaces using List.reverseRecOn with
  | nil => exact (if_neg (fun h ↦ List.not_mem_nil h.1)).symm
  | append_singleton namespaces x ih =>
    rw [List.foldl_concat]
    by_cases hx : isSystemNamespace x = true ∨ (reviewed env x).entries = []
    · rw [if_pos hx, ih]
      have hne : (isSystemNamespace ns = false ∧ (reviewed env ns).entries ≠ []) → ns ≠ x := by
        rintro ⟨hsystem, hentries⟩ rfl
        rcases hx with hx | hx
        · rw [hx] at hsystem
          cases hsystem
        · exact hentries hx
      refine if_congr ?_ rfl rfl
      constructor
      · exact fun h ↦ ⟨List.mem_append_left _ h.1, h.2⟩
      · intro h
        refine ⟨(List.mem_append.mp h.1).resolve_right (fun hmem ↦ hne h.2 (List.mem_singleton.mp hmem)), h.2⟩
    · rw [if_neg hx]
      by_cases hns : ns = x
      · subst hns
        rw [AList.lookup_insert]
        refine (if_pos ⟨List.mem_append_right _ List.mem_cons_self, ?_, ?_⟩).symm
        · exact Bool.eq_false_iff.mpr (fun h ↦ hx (.inl h))
        · exact fun h ↦ hx (.inr h)
      · rw [AList.lookup_insert_ne hns, ih]
        refine if_congr ?_ rfl rfl
        refine and_congr_left (fun _ ↦ ?_)
        rw [List.mem_append, List.mem_singleton]
        exact (or_iff_left hns).symm

theorem lookup_only (ns : String) (perms : Permissions) : (only ns perms).lookup ns = some perms := AList.lookup_insert _

theorem lookup_extract (summary : RBACSummary) (ns : String) :
    (extract summary ns).namespaces.lookup ns = summary.namespaces.lookup ns := by
  unfold extract
  dsimp only
  split
  · next perms h => rw [h, lookup_only]
  · next h => rw [h, AList.lookup_empty]

/-- Where a cold evaluation has the namespace. -/
theorem lookup_cold (u : User) (ns : String) : (cold rbac u ns).namespaces.lookup ns =
    if ns = "" ∨ isSystemNamespace ns = true ∨ (rights rbac u ns).entries = [] then none
    else some (rights rbac u ns) := by
  unfold cold evaluate
  dsimp only
  rw [show reviewed _ ns = rights rbac u ns from rfl]
  split
  · exact AList.lookup_empty _
  · exact lookup_only _ _

theorem lookup_cold_none (h : ns = "" ∨ isSystemNamespace ns = true ∨ (rights rbac u ns).entries = []) :
    (cold rbac u ns).namespaces.lookup ns = none := by rw [lookup_cold, if_pos h]

theorem lookup_cold_some (hempty : ns ≠ "") (hsystem : isSystemNamespace ns = false)
    (hrights : (rights rbac u ns).entries ≠ []) : (cold rbac u ns).namespaces.lookup ns = some (rights rbac u ns) := by
  rw [lookup_cold, if_neg]
  rintro (h | h | h)
  · exact hempty h
  · rw [hsystem] at h
    cases h
  · exact hrights h

/-- A cached namespace is extracted as it would be evaluated. -/
theorem extract_eq_cold {summary : RBACSummary} (hcluster : summary.clusterScoped = rights rbac u "")
    (h : summary.namespaces.lookup ns = (cold rbac u ns).namespaces.lookup ns) : extract summary ns = cold rbac u ns := by
  rw [lookup_cold] at h
  unfold extract
  rw [h, hcluster]
  unfold cold evaluate
  rw [show reviewed _ ns = rights rbac u ns from rfl]
  split
  · next perms hperms =>
    split at hperms
    · cases hperms
    · next hns =>
      cases hperms
      rw [if_neg hns]
      rfl
  · next hperms =>
    split at hperms
    · next hns =>
      rw [if_pos hns]
      rfl
    · cases hperms

theorem eq_empty_of_entries {perms : Permissions} (h : perms.entries = []) : perms = ∅ := by
  obtain ⟨entries, hnodup⟩ := perms
  subst h
  rfl

/-- The rights that make a difference are those to what is not a system namespace. -/
theorem rights_eq_of_cold_eq {v : User} (h : cold rbac u ns = cold rbac v ns) (hns : isSystemNamespace ns = false) :
    rights rbac u ns = rights rbac v ns := by
  by_cases hempty : ns = ""
  · subst hempty
    exact congrArg RBACSummary.clusterScoped h
  · have hlookup : (cold rbac u ns).namespaces.lookup ns = (cold rbac v ns).namespaces.lookup ns := by rw [h]
    rw [lookup_cold, lookup_cold, hns] at hlookup
    simp only [hempty, Bool.false_eq_true, false_or] at hlookup
    split at hlookup
    · next hu =>
      split at hlookup
      · next hv => rw [eq_empty_of_entries hu, eq_empty_of_entries hv]
      · cases hlookup
    · split at hlookup
      · cases hlookup
      · exact Option.some.inj hlookup

/-- A complete summary serves whoever has its key, in every namespace. -/
theorem Complete.extract_eq (h : Complete digest rbac c namespaces)
    (hkey : rbacCacheKey digest u = rbacCacheKey digest c.user) (ns : String) :
    extract (summarize (c.env rbac) namespaces) ns = cold rbac u ns := by
  have hnone : isSystemNamespace "" = false := by decide
  apply extract_eq_cold
  · rw [h.identity u hkey "" hnone]
    change reviewed (c.env rbac) "" = rights rbac c.user ""
    rw [reviewed_env]
    split
    · next hfails => exact (h.clusterScoped hfails).symm
    · rfl
  · rw [lookup_summarize, reviewed_env]
    by_cases hempty : ns = ""
    · subst hempty
      rw [lookup_cold_none (.inl rfl)]
      refine if_neg (fun hin ↦ hin.2.2 ?_)
      split
      · rfl
      · exact h.unnamed hin.1
    cases hsystem : isSystemNamespace ns with
    | true =>
      rw [lookup_cold_none (.inr (.inl hsystem))]
      exact if_neg (fun hin ↦ by cases hin.2.1)
    | false =>
      by_cases hrights : (rights rbac c.user ns).entries = []
      · rw [lookup_cold_none (.inr (.inr (by rw [h.identity u hkey ns hsystem]; exact hrights)))]
        refine if_neg (fun hin ↦ hin.2.2 ?_)
        split
        · rfl
        · exact hrights
      · obtain ⟨hmem, hfails⟩ := h.covered ns hempty hsystem hrights
        rw [lookup_cold_some hempty hsystem (by rw [h.identity u hkey ns hsystem]; exact hrights),
          h.identity u hkey ns hsystem, hfails]
        exact if_pos ⟨hmem, rfl, hrights⟩

/-- And no other does. -/
theorem complete_of_extract_eq (h : ∀ u, rbacCacheKey digest u = rbacCacheKey digest c.user → ∀ ns,
    extract (summarize (c.env rbac) namespaces) ns = cold rbac u ns) : Complete digest rbac c namespaces := by
  have hlookup : ∀ ns, (summarize (c.env rbac) namespaces).namespaces.lookup ns =
      (cold rbac c.user ns).namespaces.lookup ns := by
    intro ns
    rw [← h c.user rfl ns, lookup_extract]
  have hcluster : c.fails "" = true → rights rbac c.user "" = ∅ := by
    intro hfails
    have heq : reviewed (c.env rbac) "" = rights rbac c.user "" := congrArg RBACSummary.clusterScoped (h c.user rfl "")
    rw [← heq, reviewed_env, hfails]
    rfl
  refine ⟨hcluster, fun ns hempty hsystem hrights ↦ ?_, fun hmem ↦ ?_, fun u hkey ns hsystem ↦ ?_⟩
  · have hns := hlookup ns
    rw [lookup_summarize, lookup_cold_some hempty hsystem hrights] at hns
    split at hns
    · next hin =>
      refine ⟨hin.1, ?_⟩
      cases hfails : c.fails ns with
      | false => rfl
      | true =>
        have hreviewed := hin.2.2
        rw [reviewed_env, hfails] at hreviewed
        exact absurd rfl hreviewed
    · cases hns
  · have hns := hlookup ""
    rw [lookup_summarize, lookup_cold_none (.inl rfl)] at hns
    cases hfails : c.fails "" with
    | true =>
      rw [hcluster hfails]
      rfl
    | false =>
      have hreviewed : reviewed (c.env rbac) "" = rights rbac c.user "" := by
        rw [reviewed_env, hfails]
        rfl
      by_contra hrights
      rw [if_pos ⟨hmem, by decide, by rw [hreviewed]; exact hrights⟩] at hns
      cases hns
  · exact rights_eq_of_cold_eq ((h u hkey ns).symm.trans (h c.user rfl ns)) hsystem

/-! What a run keeps. -/

/-- Every entry serves whoever has its key. -/
def EntriesComplete (digest : String → String) (rbac : RBAC) (s : State) : Prop := ∀ key entry,
  s.cache.lookup key = some entry → ∀ u, rbacCacheKey digest u = key → ∀ ns, extract entry.summary ns = cold rbac u ns

theorem warm_eq_some {env : RBACEnv} {cache : RBACCache} {summary : RBACSummary}
    (h : warm digest env u cache = some summary) :
    ∃ entry, cache.lookup (rbacCacheKey digest u) = some entry ∧ entry.summary = summary := by
  obtain ⟨entry, hentry, hsummary⟩ := Option.map_eq_some_iff.mp h
  exact ⟨entry, (Option.filter_eq_some_iff.mp hentry).1, hsummary⟩

theorem EntriesComplete.fastEqualsSlow (h : EntriesComplete digest rbac s) : FastEqualsSlow digest rbac s := by
  intro c ns _ hwarm
  obtain ⟨summary, hsummary⟩ := Option.ne_none_iff_exists'.mp hwarm
  obtain ⟨entry, hentry, rfl⟩ := warm_eq_some hsummary
  unfold getNamespacePermissions
  rw [hsummary]
  exact congrArg Except.ok (h _ entry hentry c.user rfl ns)

/-- An entry after a summary was asked for: one there was, or the summary that was built. -/
theorem lookup_getSummary {env : RBACEnv} {cache : RBACCache} {key : String} {entry : RBACCacheEntry}
    (h : (getSummary digest env u namespaces cache).2.lookup key = some entry) :
    cache.lookup key = some entry ∨ (warm digest env u cache = none ∧ env.clientErr = none ∧
      key = rbacCacheKey digest u ∧ entry = ⟨summarize env namespaces, env.storedAt + rbacCacheTTL⟩) := by
  have herase : ∀ {k e}, (cache.erase (rbacCacheKey digest u)).lookup k = some e → cache.lookup k = some e := fun h ↦
    GoMap.mem_entries_iff.mp (GoMap.mem_entries_erase (GoMap.mem_entries_iff.mpr h))
  unfold getSummary at h
  cases hwarm : warm digest env u cache with
  | some summary =>
    rw [hwarm] at h
    exact .inl h
  | none =>
    rw [hwarm] at h
    dsimp only at h
    cases herr : env.clientErr with
    | some err =>
      rw [herr] at h
      exact .inl (herase h)
    | none =>
      rw [herr] at h
      dsimp only at h
      by_cases hkey : key = rbacCacheKey digest u
      · subst hkey
        rw [AList.lookup_insert] at h
        cases h
        exact .inr ⟨rfl, rfl, rfl, rfl⟩
      · rw [AList.lookup_insert_ne hkey] at h
        exact .inl (herase (lookup_of_evict h))

theorem step_good {a : Act} (h : EntriesComplete digest rbac s) (ha : StoresComplete digest rbac s a)
    (hs : step digest rbac s a = some t) : EntriesComplete digest rbac t := by
  cases a with
  | permissions c ns =>
    obtain ⟨-, hs⟩ := Option.ite_none_right_eq_some.mp hs
    cases hs
    exact h
  | summary c namespaces =>
    obtain ⟨-, hs⟩ := Option.ite_none_right_eq_some.mp hs
    cases hs
    intro key entry hentry u hu ns
    rcases lookup_getSummary hentry with hold | ⟨hwarm, herr, rfl, rfl⟩
    · exact h key entry hold u hu ns
    · exact (ha hwarm herr).extract_eq hu ns

theorem step_bad {a : Act} (ha : ¬ StoresComplete digest rbac s a) (hs : step digest rbac s a = some t) :
    ¬ FastEqualsSlow digest rbac t := by
  intro hfast
  cases a with
  | permissions c ns => exact ha trivial
  | summary c namespaces =>
    obtain ⟨-, hs⟩ := Option.ite_none_right_eq_some.mp hs
    cases hs
    refine ha (fun hwarm herr ↦ complete_of_extract_eq (fun u hu ns ↦ ?_))
    let later : Call := { user := u, readAt := c.storedAt, storedAt := c.storedAt }
    have hserved : warm digest (later.env rbac) u
        (getSummary digest (c.env rbac) c.user namespaces s.cache).2 = some (summarize (c.env rbac) namespaces) := by
      have herr : (c.env rbac).clientErr = none := herr
      unfold warm getSummary
      rw [hwarm, herr, hu]
      dsimp only
      rw [AList.lookup_insert, Option.filter_some, if_pos (decide_eq_true ?_)]
      · rfl
      · change c.storedAt < c.storedAt + rbacCacheTTL
        have httl : 0 < rbacCacheTTL := by decide
        omega
    have hpermissions := hfast later ns le_rfl (by rw [hserved]; exact Option.some_ne_none _)
    unfold getNamespacePermissions at hpermissions
    rw [hserved] at hpermissions
    exact Except.ok.inj hpermissions

/-- From an empty cache on: what comes from the cache is what a cold evaluation gives, whoever asks for whatever
namespace, just as long as every summary that is stored is complete. -/
theorem fastEqualsSlow_throughout_iff (digest : String → String) (rbac : RBAC) (now : ℕ) (as : List Act) :
    Throughout (step digest rbac) (FastEqualsSlow digest rbac) ⟨now, ∅⟩ as ↔
      EachStep (step digest rbac) (StoresComplete digest rbac) ⟨now, ∅⟩ as :=
  throughout_iff_eachStep (I := EntriesComplete digest rbac) (fun _ h ↦ h.fastEqualsSlow)
    (fun _ _ _ h ha hs ↦ step_good h ha hs) (fun _ _ _ _ ha hs ↦ step_bad ha hs)
    (fun key entry h ↦ by rw [AList.lookup_empty] at h; cases h) as

/-! A review that fails. -/

def ann : User :=
  { id := "u1", username := "ann", provider := "oidc", kubernetesUsername := "ann", kubernetesGroups := ["dev"], roles := [] }

/-- Who is in `dev` may get the pods of the shop. -/
def shopRBAC : RBAC := fun _ groups ns ↦ if "dev" ∈ groups ∧ ns = "shop" then [⟨["get"], ["pods"]⟩] else []

/-- The summary is asked for while the reviews of the shop fail. -/
def partialSummary : Act :=
  .summary { user := ann, readAt := 0, storedAt := 1, fails := fun ns ↦ decide (ns = "shop") } ["default", "shop"]

/-- For a minute ann has no permission in the shop. -/
theorem not_fastEqualsSlow : ¬ Throughout (step id shopRBAC) (FastEqualsSlow id shopRBAC) ⟨0, ∅⟩ [partialSummary] := by
  intro h
  have hfast := h.2 _ rfl { user := ann, readAt := 2, storedAt := 2 } "shop" (by decide) (by decide)
  have hshop := congrArg (fun r ↦ r.toOption.map (fun summary ↦ decide ("shop" ∈ summary.namespaces))) hfast
  exact absurd hshop (by decide)

end KubeCenter.Auth.NamespacePermissions
