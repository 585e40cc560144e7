import KubeCenter.ExternalSecrets.Bulk
import KubeCenter.ExternalSecrets.Types
import KubeCenter.Topology.Edges

namespace KubeCenter.ExternalSecrets

/-- The lists `fetchAll` makes that bear on ExternalSecrets; what its other lists fetch (cluster
external secrets and push secrets) is left out. -/
inductive Crd where
  | externalSecrets | secretStores | clusterSecretStores
  deriving DecidableEq

structure CachedData where
  externalSecrets : List ExternalSecret
  stores : List SecretStore
  clusterStores : List SecretStore
  errors : Crd → Option String
  fetchedAt : ℤ

structure Handler where
  cache : Option CachedData := none
  cacheGen : ℕ := 0

/-- When an `InvalidateCache` falls into a fetch: before or after it reads the prior snapshot. -/
inductive Invalidation where
  | none | early | late
  deriving DecidableEq

/-- What a fetch meets. A list that panics counts as one that fails; `contextErr` is set when the
fetch's context is over by the time the lists are back. -/
structure FetchEnv where
  externalSecrets : Except String (List ExternalSecret)
  stores : Except String (List SecretStore) := .ok []
  clusterStores : Except String (List SecretStore) := .ok []
  contextErr : Option String := none
  invalidated : Invalidation := .none

def cacheTTL : ℤ := 30 * second

def Handler.invalidateCache (h : Handler) : Handler := ⟨none, h.cacheGen + 1⟩

def recordErr {α : Type} (list : Except String α) : Option String :=
  match list with
  | .ok _ => none
  | .error err => some err

/-- A failed list keeps what the prior snapshot had; without one it is empty. -/
def lastKnownGood {α : Type} (list : Except String (List α)) (prior : Option (List α)) : List α :=
  match list with
  | .ok items => items
  | .error _ => prior.getD []

namespace Handler

/-- The snapshot whose slices stand in for failed lists. -/
def prior (h : Handler) (env : FetchEnv) : Option CachedData :=
  if env.invalidated = .early then none else h.cache

def fetchedData (h : Handler) (env : FetchEnv) (now : ℤ) : CachedData :=
  let prior := h.prior env
  let stores := lastKnownGood env.stores (prior.map CachedData.stores)
  let clusterStores := lastKnownGood env.clusterStores (prior.map CachedData.clusterStores)
  { externalSecrets :=
      applyThresholds (lastKnownGood env.externalSecrets (prior.map CachedData.externalSecrets)) stores clusterStores now
    stores
    clusterStores
    errors
      | .externalSecrets => recordErr env.externalSecrets
      | .secretStores => recordErr env.stores
      | .clusterSecretStores => recordErr env.clusterStores
    fetchedAt := now }

def fetchAll (h : Handler) (gen : ℕ) (env : FetchEnv) (now : ℤ) : Except String CachedData × Handler :=
  let h' := if env.invalidated = .none then h else h.invalidateCache
  match env.contextErr with
  | some err => (.error err, h')
  | none =>
    let data := h.fetchedData env now
    (.ok data, if h'.cacheGen = gen then { h' with cache := some data } else h')

/-- The snapshot, when it is young enough to be served. -/
def fresh (h : Handler) (now : ℤ) : Option CachedData :=
  h.cache.filter (fun data ↦ decide (now - data.fetchedAt < cacheTTL))

def getCached (h : Handler) (env : FetchEnv) (now : ℤ) : Except String CachedData × Handler :=
  match h.fresh now with
  | some data => (.ok data, h)
  | none => h.fetchAll h.cacheGen env now

end Handler

end KubeCenter.ExternalSecrets

/-! The store that an ExternalSecret refers to, as its thresholds, the topology overlay and a bulk refresh see it. -/

namespace KubeCenter.ExternalSecrets

open KubeCenter.Core KubeCenter.Topology

def Status.text : Status → String
  | .synced => "Synced"
  | .syncFailed => "SyncFailed"
  | .refreshing => "Refreshing"
  | .stale => "Stale"
  | .drifted => "Drifted"
  | .unknown => "Unknown"

/-! ## The overlay's copy of the cache -/

section

variable (providerSpec : SecretStore → List (String × SpecValue))

def ExternalSecret.chain (es : ExternalSecret) : ESOChainExternalSecret where
  ns := es.ns
  name := es.name
  uid := es.uid
  storeRefName := es.storeRef.name
  storeRefKind := es.storeRef.kind
  targetSecretName := es.targetSecretName
  status := es.status.text

def SecretStore.chain (s : SecretStore) : ESOChainStore where
  ns := s.ns
  name := s.name
  uid := s.uid
  provider := s.provider
  providerSpec := providerSpec s
  status := s.status.text

def esoChainSnapshot (data : CachedData) : ESOChainSnapshot where
  externalSecrets := data.externalSecrets.map ExternalSecret.chain
  stores := data.stores.map (SecretStore.chain providerSpec)
  clusterStores := data.clusterStores.map (SecretStore.chain providerSpec)

end

/-- What the API server lists: objects with UIDs, each name once, no name with a slash. -/
structure Inventory extends CachedData where
  uid : ∀ s ∈ stores ++ clusterStores, s.uid ≠ ""
  named : ∀ s ∈ stores, s.ns ≠ "" ∧ s.name ≠ ""
  segment : ∀ s ∈ stores, '/' ∉ s.ns.toList ∧ '/' ∉ s.name.toList
  unique : ∀ s ∈ stores, ∀ t ∈ stores, s.ns = t.ns → s.name = t.name → s = t
  uniqueName : ∀ s ∈ clusterStores, ∀ t ∈ clusterStores, s.name = t.name → s = t

/-- The store is in the ExternalSecret's namespace, under the name that its reference gives. -/
def Names (es : ExternalSecret) (s : SecretStore) : Prop := s.ns = es.ns ∧ s.name = es.storeRef.name

instance (es : ExternalSecret) (s : SecretStore) : Decidable (Names es s) := inferInstanceAs (Decidable (_ ∧ _))

/-- The overlay, for a user who may see both kinds of stores, the thresholds and the bulk refresh of each store take the
ExternalSecret to refer to the same one. -/
structure ResolvesAlike (data : CachedData) (es : ExternalSecret) : Prop where
  overlay : ∀ (providerSpec : SecretStore → List (String × SpecValue)) (access : ESOChainAccess),
    access.stores = true → access.clusterStores = true →
      resolveESOStore (esoChainSnapshot providerSpec data) es.ns access es.chain =
        (referencedStore es data.stores data.clusterStores).map (fun p ↦ p.1.chain providerSpec)
  storeScope : ∀ s ∈ data.stores,
    es ∈ matchScope data.externalSecrets .refreshStore (s.ns ++ "/" ++ s.name) ↔
      referencedStore es data.stores data.clusterStores = some (s, .secretStore)
  clusterStoreScope : ∀ s ∈ data.clusterStores,
    es ∈ matchScope data.externalSecrets .refreshClusterStore s.name ↔
      referencedStore es data.stores data.clusterStores = some (s, .clusterSecretStore)

/-! ## Looking up what is listed once -/

theorem find?_reverse_eq_some {α : Type} {p : α → Bool} {l : List α} {a : α}
    (hunique : ∀ a ∈ l, ∀ b ∈ l, p a = true → p b = true → a = b) :
    l.reverse.find? p = some a ↔ a ∈ l ∧ p a = true := by
  constructor
  · exact fun h ↦ ⟨List.mem_reverse.mp (List.mem_of_find?_eq_some h), List.find?_some h⟩
  · rintro ⟨ha, hp⟩
    obtain ⟨b, hb⟩ := Option.isSome_iff_exists.mp (List.find?_isSome.mpr ⟨a, List.mem_reverse.mpr ha, hp⟩)
    have hmem := List.mem_reverse.mp (List.mem_of_find?_eq_some hb)
    rw [hb, hunique b hmem a ha (List.find?_some hb) hp]

section

variable {inv : Inventory} {es : ExternalSecret} {s : SecretStore} {access : ESOChainAccess}
  (providerSpec : SecretStore → List (String × SpecValue))

theorem Inventory.key_iff (inv : Inventory) (hs : s ∈ inv.stores) {ns name : String} :
    s.ns ++ "/" ++ s.name = ns ++ "/" ++ name ↔ s.ns = ns ∧ s.name = name :=
  key_inj (inv.segment s hs).1 (inv.segment s hs).2

theorem Inventory.names_unique (inv : Inventory) {t : SecretStore} (hs : s ∈ inv.stores) (ht : t ∈ inv.stores)
    (hes : Names es s) (het : Names es t) : s = t :=
  inv.unique s hs t ht (hes.1.trans het.1.symm) (hes.2.trans het.2.symm)

/-! ## Each way of resolving -/

theorem referencedStore_namespaced (hkind : es.storeRef.kind = "SecretStore") {p : SecretStore × ThresholdSource} :
    referencedStore es inv.stores inv.clusterStores = some p ↔
      (p.1 ∈ inv.stores ∧ Names es p.1) ∧ p.2 = .secretStore := by
  have hunique : ∀ a ∈ inv.stores, ∀ b ∈ inv.stores,
      (a.ns ++ "/" ++ a.name == es.ns ++ "/" ++ es.storeRef.name) = true →
        (b.ns ++ "/" ++ b.name == es.ns ++ "/" ++ es.storeRef.name) = true → a = b := by
    intro a ha b hb hka hkb
    rw [beq_iff_eq, inv.key_iff ha] at hka
    rw [beq_iff_eq, inv.key_iff hb] at hkb
    exact inv.names_unique ha hb hka hkb
  rw [referencedStore, if_pos hkind, Option.map_eq_some_iff]
  constructor
  · rintro ⟨s, hfind, rfl⟩
    obtain ⟨hs, hkey⟩ := (find?_reverse_eq_some hunique).mp hfind
    rw [beq_iff_eq, inv.key_iff hs] at hkey
    exact ⟨⟨hs, hkey⟩, rfl⟩
  · obtain ⟨s, source⟩ := p
    rintro ⟨⟨hs, hnames⟩, rfl⟩
    refine ⟨s, (find?_reverse_eq_some hunique).mpr ⟨hs, ?_⟩, rfl⟩
    exact beq_iff_eq.mpr ((inv.key_iff hs).mpr hnames)

theorem referencedStore_cluster (hkind : es.storeRef.kind = "ClusterSecretStore") {p : SecretStore × ThresholdSource} :
    referencedStore es inv.stores inv.clusterStores = some p ↔
      (p.1 ∈ inv.clusterStores ∧ p.1.name = es.storeRef.name) ∧ p.2 = .clusterSecretStore := by
  have hunique : ∀ a ∈ inv.clusterStores, ∀ b ∈ inv.clusterStores, (a.name == es.storeRef.name) = true →
      (b.name == es.storeRef.name) = true → a = b := by
    intro a ha b hb hka hkb
    exact inv.uniqueName a ha b hb ((beq_iff_eq.mp hka).trans (beq_iff_eq.mp hkb).symm)
  rw [referencedStore, if_neg (by rw [hkind]; decide), if_pos hkind, Option.map_eq_some_iff]
  constructor
  · rintro ⟨s, hfind, rfl⟩
    obtain ⟨hs, hkey⟩ := (find?_reverse_eq_some hunique).mp hfind
    exact ⟨⟨hs, beq_iff_eq.mp hkey⟩, rfl⟩
  · obtain ⟨s, source⟩ := p
    rintro ⟨⟨hs, hname⟩, rfl⟩
    exact ⟨s, (find?_reverse_eq_some hunique).mpr ⟨hs, beq_iff_eq.mpr hname⟩, rfl⟩

theorem referencedStore_none (hkind : es.storeRef.kind ≠ "SecretStore") (hcluster : es.storeRef.kind ≠ "ClusterSecretStore")
    (stores clusterStores : List SecretStore) : referencedStore es stores clusterStores = none := by
  rw [referencedStore, if_neg hkind, if_neg hcluster]

/-- A store is found under its own kind only. -/
theorem kind_of_referencedStore {p : SecretStore × ThresholdSource}
    (h : referencedStore es inv.stores inv.clusterStores = some p) :
    es.storeRef.kind = "SecretStore" ∧ p.2 = .secretStore ∨
      es.storeRef.kind = "ClusterSecretStore" ∧ p.2 = .clusterSecretStore := by
  by_cases hkind : es.storeRef.kind = "SecretStore"
  · exact .inl ⟨hkind, ((referencedStore_namespaced hkind).mp h).2⟩
  · by_cases hcluster : es.storeRef.kind = "ClusterSecretStore"
    · exact .inr ⟨hcluster, ((referencedStore_cluster hcluster).mp h).2⟩
    · rw [referencedStore_none hkind hcluster] at h
      cases h

theorem storesByKey_named (hs : s ∈ inv.stores) (hnames : Names es s) :
    (storesByKey es.ns (inv.stores.map (SecretStore.chain providerSpec))).lookup (es.ns ++ "/" ++ es.storeRef.name) =
      some (s.chain providerSpec) := by
  have hmem : s.chain providerSpec ∈
      (inv.stores.map (SecretStore.chain providerSpec)).filter (fun store ↦ store.ns = es.ns) :=
    List.mem_filter.mpr ⟨List.mem_map_of_mem hs, decide_eq_true hnames.1⟩
  unfold storesByKey
  refine GoMap.lookup_indexBy_eq_some ?_ hmem ((inv.key_iff hs).mpr hnames)
  intro a ha b hb hkey
  obtain ⟨s, hs, rfl⟩ := List.mem_map.mp (List.mem_of_mem_filter ha)
  obtain ⟨t, ht, rfl⟩ := List.mem_map.mp (List.mem_of_mem_filter hb)
  obtain ⟨hns, hname⟩ := (inv.key_iff hs).mp hkey
  rw [inv.unique s hs t ht hns hname]

theorem storesByKey_unnamed (hno : ∀ s ∈ inv.stores, ¬ Names es s) :
    (storesByKey es.ns (inv.stores.map (SecretStore.chain providerSpec))).lookup (es.ns ++ "/" ++ es.storeRef.name) =
      none := by
  refine GoMap.lookup_indexBy_eq_none (fun a ha hkey ↦ ?_)
  obtain ⟨s, hs, rfl⟩ := List.mem_map.mp (List.mem_of_mem_filter ha)
  exact hno s hs ((inv.key_iff hs).mp hkey)

theorem clusterStoresByName_named (hs : s ∈ inv.clusterStores) (hname : s.name = es.storeRef.name) :
    (clusterStoresByName (inv.clusterStores.map (SecretStore.chain providerSpec))).lookup es.storeRef.name =
      some (s.chain providerSpec) := by
  have hmem : s.chain providerSpec ∈ inv.clusterStores.map (SecretStore.chain providerSpec) := List.mem_map_of_mem hs
  unfold clusterStoresByName
  refine GoMap.lookup_indexBy_eq_some ?_ hmem hname
  intro a ha b hb hkey
  obtain ⟨s, hs, rfl⟩ := List.mem_map.mp ha
  obtain ⟨t, ht, rfl⟩ := List.mem_map.mp hb
  rw [inv.uniqueName s hs t ht hkey]

theorem clusterStoresByName_unnamed (hno : ∀ s ∈ inv.clusterStores, s.name ≠ es.storeRef.name) :
    (clusterStoresByName (inv.clusterStores.map (SecretStore.chain providerSpec))).lookup es.storeRef.name = none := by
  refine GoMap.lookup_indexBy_eq_none (fun a ha hkey ↦ ?_)
  obtain ⟨s, hs, rfl⟩ := List.mem_map.mp ha
  exact hno s hs hkey

/-! ## Scopes of a bulk refresh -/

theorem mem_matchScope_store {ess : List ExternalSecret} (hs : s ∈ inv.stores) :
    es ∈ matchScope ess .refreshStore (s.ns ++ "/" ++ s.name) ↔
      es ∈ ess ∧ es.storeRef.kind = "SecretStore" ∧ Names es s := by
  have hcut : cut '/' (s.ns ++ "/" ++ s.name).toList = some (s.ns.toList, s.name.toList) := by
    rw [String.toList_append, String.toList_append, List.append_assoc]
    exact cut_append (inv.segment s hs).1 _
  have hnamed : ¬ (s.ns.toList = [] ∨ s.name.toList = []) := by
    rw [String.toList_eq_nil_iff, String.toList_eq_nil_iff]
    exact not_or.mpr (inv.named s hs)
  simp only [matchScope, hcut, if_neg hnamed, List.mem_filter, Bool.and_eq_true, decide_eq_true_eq, String.toList_inj]
  exact ⟨fun ⟨hes, hns, hkind, hname⟩ ↦ ⟨hes, hkind, hns.symm, hname.symm⟩,
    fun ⟨hes, hkind, hns, hname⟩ ↦ ⟨hes, hns.symm, hkind, hname.symm⟩⟩

theorem mem_matchScope_clusterStore {ess : List ExternalSecret} :
    es ∈ matchScope ess .refreshClusterStore s.name ↔
      es ∈ ess ∧ es.storeRef.kind = "ClusterSecretStore" ∧ s.name = es.storeRef.name := by
  simp only [matchScope, List.mem_filter, Bool.and_eq_true, decide_eq_true_eq]
  exact ⟨fun ⟨hes, hkind, hname⟩ ↦ ⟨hes, hkind, hname.symm⟩, fun ⟨hes, hkind, hname⟩ ↦ ⟨hes, hkind, hname.symm⟩⟩

theorem storeScope_iff (hes : es ∈ inv.externalSecrets) (hs : s ∈ inv.stores) :
    es ∈ matchScope inv.externalSecrets .refreshStore (s.ns ++ "/" ++ s.name) ↔
      referencedStore es inv.stores inv.clusterStores = some (s, .secretStore) := by
  rw [mem_matchScope_store hs]
  constructor
  · exact fun ⟨_, hkind, hnames⟩ ↦ (referencedStore_namespaced hkind).mpr ⟨⟨hs, hnames⟩, rfl⟩
  · intro h
    obtain ⟨hkind, -⟩ | ⟨-, hsource⟩ := kind_of_referencedStore h
    · exact ⟨hes, hkind, ((referencedStore_namespaced hkind).mp h).1.2⟩
    · cases hsource

theorem clusterStoreScope_iff (hes : es ∈ inv.externalSecrets) (hs : s ∈ inv.clusterStores) :
    es ∈ matchScope inv.externalSecrets .refreshClusterStore s.name ↔
      referencedStore es inv.stores inv.clusterStores = some (s, .clusterSecretStore) := by
  rw [mem_matchScope_clusterStore]
  constructor
  · exact fun ⟨_, hkind, hname⟩ ↦ (referencedStore_cluster hkind).mpr ⟨⟨hs, hname⟩, rfl⟩
  · intro h
    obtain ⟨-, hsource⟩ | ⟨hkind, -⟩ := kind_of_referencedStore h
    · cases hsource
    · exact ⟨hes, hkind, ((referencedStore_cluster hkind).mp h).1.2⟩

/-! ## The overlay -/

theorem resolveESOStore_namespaced (hkind : es.storeRef.kind = "" ∨ es.storeRef.kind = "SecretStore")
    (haccess : access.stores = true) :
    resolveESOStore (esoChainSnapshot providerSpec inv.toCachedData) es.ns access es.chain =
      ((storesByKey es.ns (inv.stores.map (SecretStore.chain providerSpec))).lookup
        (es.ns ++ "/" ++ es.storeRef.name)).filter (fun store ↦ store.uid ≠ "") := by
  unfold resolveESOStore
  exact (if_pos hkind).trans (if_pos haccess)

theorem resolveESOStore_named (hkind : es.storeRef.kind = "" ∨ es.storeRef.kind = "SecretStore")
    (haccess : access.stores = true) (hs : s ∈ inv.stores) (hnames : Names es s) :
    resolveESOStore (esoChainSnapshot providerSpec inv.toCachedData) es.ns access es.chain =
      some (s.chain providerSpec) := by
  rw [resolveESOStore_namespaced providerSpec hkind haccess, storesByKey_named providerSpec hs hnames]
  exact Option.filter_some_pos (decide_eq_true (inv.uid s (List.mem_append_left _ hs)))

theorem resolveESOStore_unnamed (hkind : es.storeRef.kind = "" ∨ es.storeRef.kind = "SecretStore")
    (haccess : access.stores = true) (hno : ∀ s ∈ inv.stores, ¬ Names es s) :
    resolveESOStore (esoChainSnapshot providerSpec inv.toCachedData) es.ns access es.chain = none := by
  rw [resolveESOStore_namespaced providerSpec hkind haccess, storesByKey_unnamed providerSpec hno]
  rfl

theorem overlay_namespaced (hkind : es.storeRef.kind = "SecretStore") (haccess : access.stores = true) :
    resolveESOStore (esoChainSnapshot providerSpec inv.toCachedData) es.ns access es.chain =
      (referencedStore es inv.stores inv.clusterStores).map (fun p ↦ p.1.chain providerSpec) := by
  cases hstore : referencedStore es inv.stores inv.clusterStores with
  | some p =>
    obtain ⟨⟨hs, hnames⟩, -⟩ := (referencedStore_namespaced hkind).mp hstore
    exact resolveESOStore_named providerSpec (.inr hkind) haccess hs hnames
  | none =>
    refine resolveESOStore_unnamed providerSpec (.inr hkind) haccess (fun s hs hnames ↦ ?_)
    have hsome : referencedStore es inv.stores inv.clusterStores = some (s, .secretStore) :=
      (referencedStore_namespaced hkind).mpr ⟨⟨hs, hnames⟩, rfl⟩
    rw [hstore] at hsome
    cases hsome

theorem overlay_cluster (hkind : es.storeRef.kind = "ClusterSecretStore") (haccess : access.clusterStores = true) :
    resolveESOStore (esoChainSnapshot providerSpec inv.toCachedData) es.ns access es.chain =
      (referencedStore es inv.stores inv.clusterStores).map (fun p ↦ p.1.chain providerSpec) := by
  have hother : ¬ (es.chain.storeRefKind = "" ∨ es.chain.storeRefKind = "SecretStore") := by
    rw [show es.chain.storeRefKind = "ClusterSecretStore" from hkind]
    decide
  have hlookup : resolveESOStore (esoChainSnapshot providerSpec inv.toCachedData) es.ns access es.chain =
      ((clusterStoresByName (inv.clusterStores.map (SecretStore.chain providerSpec))).lookup es.storeRef.name).filter
        (fun store ↦ store.uid ≠ "") := by
    unfold resolveESOStore
    exact (if_neg hother).trans ((if_pos hkind).trans (if_pos haccess))
  rw [hlookup]
  cases hstore : referencedStore es inv.stores inv.clusterStores with
  | some p =>
    obtain ⟨⟨hs, hname⟩, -⟩ := (referencedStore_cluster hkind).mp hstore
    rw [clusterStoresByName_named providerSpec hs hname]
    exact Option.filter_some_pos (decide_eq_true (inv.uid p.1 (List.mem_append_right _ hs)))
  | none =>
    rw [clusterStoresByName_unnamed providerSpec]
    · rfl
    · intro s hs hname
      have hsome : referencedStore es inv.stores inv.clusterStores = some (s, .clusterSecretStore) :=
        (referencedStore_cluster hkind).mpr ⟨⟨hs, hname⟩, rfl⟩
      rw [hstore] at hsome
      cases hsome

/-- Where the kind is left out, the overlay alone looks for a SecretStore. -/
theorem overlay_iff : (∀ (providerSpec : SecretStore → List (String × SpecValue)) (access : ESOChainAccess),
      access.stores = true → access.clusterStores = true →
        resolveESOStore (esoChainSnapshot providerSpec inv.toCachedData) es.ns access es.chain =
          (referencedStore es inv.stores inv.clusterStores).map (fun p ↦ p.1.chain providerSpec)) ↔
    (es.storeRef.kind = "" → ∀ s ∈ inv.stores, ¬ Names es s) := by
  constructor
  · intro h hkind s hs hnames
    have hsame := h (fun _ ↦ []) ⟨true, true, true, true⟩ rfl rfl
    rw [resolveESOStore_named _ (.inl hkind) rfl hs hnames,
      referencedStore_none (by rw [hkind]; decide) (by rw [hkind]; decide)] at hsame
    cases hsame
  · intro h providerSpec access hstores hclusterStores
    by_cases hempty : es.storeRef.kind = ""
    · rw [resolveESOStore_unnamed providerSpec (.inl hempty) hstores (h hempty),
        referencedStore_none (by rw [hempty]; decide) (by rw [hempty]; decide)]
      rfl
    · by_cases hkind : es.storeRef.kind = "SecretStore"
      · exact overlay_namespaced providerSpec hkind hstores
      · by_cases hcluster : es.storeRef.kind = "ClusterSecretStore"
        · exact overlay_cluster providerSpec hcluster hclusterStores
        · have hother : ¬ (es.chain.storeRefKind = "" ∨ es.chain.storeRefKind = "SecretStore") := not_or.mpr ⟨hempty, hkind⟩
          rw [referencedStore_none hkind hcluster]
          unfold resolveESOStore
          exact (if_neg hother).trans (if_neg hcluster)

end

/-- An ExternalSecret's store is the same everywhere unless its reference leaves the kind out and names a SecretStore of
its namespace. -/
theorem resolvesAlike_iff (inv : Inventory) (es : ExternalSecret) (hes : es ∈ inv.externalSecrets) :
    ResolvesAlike inv.toCachedData es ↔ (es.storeRef.kind = "" → ∀ s ∈ inv.stores, ¬ Names es s) := by
  constructor
  · exact fun h ↦ overlay_iff.mp h.overlay
  · intro h
    exact ⟨overlay_iff.mpr h, fun s hs ↦ storeScope_iff hes hs, fun s hs ↦ clusterStoreScope_iff hes hs⟩

def dbSecret (kind : String) : ExternalSecret :=
  { ns := "team", name := "db", uid := "u1", status := .synced, storeRef := ⟨"vault", kind⟩ }

/-- A SecretStore and a ClusterSecretStore of one name, and an ExternalSecret that refers to `vault`. -/
def vaults (kind : String) : Inventory where
  externalSecrets := [dbSecret kind]
  stores := [{ ns := "team", name := "vault", uid := "s1" }]
  clusterStores := [{ name := "vault", uid := "c1" }]
  errors _ := none
  fetchedAt := 0
  uid := by simp
  named := by simp
  segment := by simp
  unique := by simp
  uniqueName := by simp

theorem resolvesAlike_iff_vault : ResolvesAlike (vaults "SecretStore").toCachedData (dbSecret "SecretStore") ↔
    ((dbSecret "SecretStore").storeRef.kind = "" →
      ∀ s ∈ (vaults "SecretStore").stores, ¬ Names (dbSecret "SecretStore") s) :=
  resolvesAlike_iff (vaults "SecretStore") (dbSecret "SecretStore") (List.mem_singleton_self _)

/-- The overlay draws an edge from the store; thresholds and bulk refresh see no store. -/
theorem not_resolvesAlike : ¬ ∀ (inv : Inventory), ∀ es ∈ inv.externalSecrets, ResolvesAlike inv.toCachedData es := by
  intro h
  have hsame := (h (vaults "") _ (List.mem_singleton_self _)).overlay (fun _ ↦ []) ⟨true, true, true, true⟩ rfl rfl
  have hfound : (resolveESOStore (esoChainSnapshot (fun _ ↦ []) (vaults "").toCachedData) "team"
      ⟨true, true, true, true⟩ (dbSecret "").chain).isSome = true := by decide
  have hnone := congrArg Option.isSome hsame
  exact absurd (hfound.symm.trans hnone) (by decide)

end KubeCenter.ExternalSecrets
