import KubeCenter.Core.GoMap
import KubeCenter.Core.Http

/-! The ApplicationSets with the Applications that they are said to have generated. -/

namespace KubeCenter.GitOps

open KubeCenter.Core

def appSetLabel : String := "argocd.argoproj.io/application-set-name"

/-- An Application as the handlers read it; `owner` is the ApplicationSet of its namespace that its owner references name,
which the handlers do not read. -/
structure Application where
  ns : String
  name : String
  labels : GoMap String String := ∅
  syncStatus : String := ""
  healthStatus : String := ""
  owner : Option String := none

inductive SyncStatus
  | synced
  | outOfSync
  | progressing
  | stalled
  | failed
  | unknown
  deriving DecidableEq

inductive HealthStatus
  | healthy
  | degraded
  | progressing
  | suspended
  | unknown
  deriving DecidableEq

def mapArgoSyncStatus (raw : String) : SyncStatus :=
  if raw = "Synced" then .synced else if raw = "OutOfSync" then .outOfSync else .unknown

def mapArgoHealthStatus (raw : String) : HealthStatus :=
  if raw = "Healthy" then .healthy
  else if raw = "Degraded" then .degraded
  else if raw = "Progressing" then .progressing
  else if raw = "Suspended" then .suspended
  else if raw = "Missing" then .degraded
  else .unknown

/-- Of a `NormalizedApp` what names it and what the summaries count. -/
structure NormalizedArgoApp where
  id : String
  name : String
  ns : String
  syncStatus : SyncStatus
  healthStatus : HealthStatus
  suspended : Bool
  deriving DecidableEq

def normalizeArgoApp (app : Application) : NormalizedArgoApp where
  id := "argo:" ++ app.ns ++ ":" ++ app.name
  name := app.name
  ns := app.ns
  syncStatus := mapArgoSyncStatus app.syncStatus
  healthStatus := mapArgoHealthStatus app.healthStatus
  suspended := app.healthStatus = "Suspended"

structure AppListMetadata where
  total : ℕ := 0
  synced : ℕ := 0
  outOfSync : ℕ := 0
  degraded : ℕ := 0
  progressing : ℕ := 0
  suspended : ℕ := 0
  deriving DecidableEq

def AppListMetadata.count (m : AppListMetadata) (app : NormalizedArgoApp) : AppListMetadata :=
  let m := match app.syncStatus with
    | .synced => { m with synced := m.synced + 1 }
    | .outOfSync | .failed | .stalled => { m with outOfSync := m.outOfSync + 1 }
    | .progressing => { m with progressing := m.progressing + 1 }
    | .unknown => m
  match app.healthStatus with
  | .degraded => { m with degraded := m.degraded + 1 }
  | .suspended => { m with suspended := m.suspended + 1 }
  | _ => m

def computeMetadata (apps : List NormalizedArgoApp) : AppListMetadata :=
  apps.foldl AppListMetadata.count { total := apps.length }

/-- Of a `NormalizedAppSet` what the handlers read and fill in. With `children` as history: what count and summary are made
of. -/
structure NormalizedAppSet where
  name : String
  ns : String
  generatedAppCount : ℕ := 0
  summary : AppListMetadata := {}
  children : List Application := []

structure AppSetDetail where
  appSet : NormalizedAppSet
  applications : List NormalizedArgoApp := []

/-- The rights behind a dynamic client: whether it may list the Applications of a namespace, or of all at once. -/
structure Client where
  mayList : String → Bool
  mayListAll : Bool
  everywhere : mayListAll = true → ∀ ns, mayList ns = true

/-- What a request meets. `cached` are the ApplicationSets of the cache, if they could be had, and `appSets` the namespaces
and names of those in the cluster; `client` is the user's, `created` whether it can be made, and `fails` tells for which
label values a list call ends in an error of another kind. -/
structure World where
  cached : Option (List NormalizedAppSet)
  unfilled : ∀ sets ∈ cached, ∀ as ∈ sets, as.generatedAppCount = 0 ∧ as.summary = {} ∧ as.children = []
  appSets : List (String × String)
  applications : List Application
  admin : Bool
  mayListAppSets : String → Bool
  mayGetAppSet : String → Bool
  client : Client
  created : Bool
  base : Client
  fails : String → Bool

namespace World

variable (w : World)

/-- The list call over all namespaces with a label selector. -/
def listChildren (c : Client) (name : String) : Option (List Application) :=
  if c.mayListAll ∧ ¬ w.fails name then
    some (w.applications.filter (fun app ↦ app.labels.lookup appSetLabel = some name))
  else none

/-- A failed call is logged and leaves what was there. -/
def fill (c : Client) (as : NormalizedAppSet) : NormalizedAppSet :=
  match w.listChildren c as.name with
  | none => as
  | some items =>
    { as with
      generatedAppCount := items.length
      summary := computeMetadata (items.map normalizeArgoApp)
      children := items }

def visible (as : NormalizedAppSet) : Bool := if as.ns = "" then w.admin else w.mayListAppSets as.ns

/-- The user's client, or that of the service account where it cannot be made. -/
def listClient : Client := if w.created then w.client else w.base

/-- `sort.Slice` is not stable: sets of one name stand in any order. -/
def handleListAppSets : Except APIError (List NormalizedAppSet) :=
  match w.cached with
  | none => .error ⟨500, "failed to fetch applicationsets"⟩
  | some appSets =>
    .ok (((appSets.filter w.visible).map (w.fill w.listClient)).mergeSort (fun a b ↦ a.name ≤ b.name))

/-- The composite id has been parsed. -/
def handleGetAppSet (ns name : String) : Except APIError AppSetDetail :=
  if ¬ w.created then .error ⟨500, "internal error"⟩
  else if ¬ (w.mayGetAppSet ns ∧ (ns, name) ∈ w.appSets) then .error ⟨500, "failed to get applicationset"⟩
  else
    let appSet := w.fill w.client { name, ns }
    .ok { appSet, applications := appSet.children.map normalizeArgoApp }

/-! What the handlers ought to report. -/

/-- The Applications that an ApplicationSet has generated and the user may list. -/
def generated (ns name : String) : List Application :=
  w.applications.filter (fun app ↦ app.ns = ns && app.owner = some name && w.client.mayList app.ns)

def Covers (as : NormalizedAppSet) (apps : List Application) : Prop :=
  as.children = apps ∧ as.generatedAppCount = apps.length ∧ as.summary = computeMetadata (apps.map normalizeArgoApp)

/-- Both handlers attribute to an ApplicationSet what it has generated for the user's eyes, and read with no more rights
than the user's. -/
structure AttributesOwn : Prop where
  listed : ∀ sets, w.handleListAppSets = .ok sets → ∀ as ∈ sets, Covers as (w.generated as.ns as.name)
  detailed : ∀ ns name detail, w.handleGetAppSet ns name = .ok detail →
    Covers detail.appSet (w.generated ns name) ∧
      detail.applications = (w.generated ns name).map normalizeArgoApp
  rights : ∀ sets, w.handleListAppSets = .ok sets → sets ≠ [] → w.listClient.mayListAll = true → w.client.mayListAll = true

/-- Where a client may list all Applications, those with the ApplicationSet's name as their label are the ones that it has
generated for the user's eyes; where the client may not, or the call fails, there are none of these. -/
def Faithful (c : Client) (ns name : String) : Prop :=
  if c.mayListAll ∧ ¬ w.fails name then
    ∀ app ∈ w.applications, app.labels.lookup appSetLabel = some name ↔
      app.ns = ns ∧ app.owner = some name ∧ w.client.mayList app.ns = true
  else ∀ app ∈ w.applications, app.ns = ns → app.owner = some name → w.client.mayList app.ns = false

/-- The ApplicationSets that a request can show are faithful, and the service account does not stand in for the user with
rights that he has not. -/
structure OwnLabels : Prop where
  listed : ∀ sets, w.cached = some sets → ∀ as ∈ sets, w.visible as = true → w.Faithful w.listClient as.ns as.name
  detailed : w.created = true → ∀ ns name, w.mayGetAppSet ns = true → (ns, name) ∈ w.appSets → w.Faithful w.client ns name
  rights : ∀ sets, w.cached = some sets → ∀ as ∈ sets, w.visible as = true →
    w.listClient.mayListAll = true → w.client.mayListAll = true

variable {w} {c : Client} {as : NormalizedAppSet} {sets : List NormalizedAppSet} {ns name : String}

theorem filter_eq_filter_iff {α : Type} {p q : α → Bool} {l : List α} :
    l.filter p = l.filter q ↔ ∀ a ∈ l, p a = true ↔ q a = true := by
  constructor
  · intro h a ha
    have hmem : a ∈ l.filter p ↔ a ∈ l.filter q := by rw [h]
    rwa [List.mem_filter, List.mem_filter, and_congr_right_iff, imp_iff_right ha] at hmem
  · exact fun h ↦ List.filter_congr fun a ha ↦ Bool.eq_iff_iff.mpr (h a ha)

theorem listChildren_eq_generated_iff (c : Client) (ns name : String) :
    (w.listChildren c name).getD [] = w.generated ns name ↔ w.Faithful c ns name := by
  unfold listChildren generated Faithful
  split
  · rw [Option.getD_some, filter_eq_filter_iff]
    simp only [decide_eq_true_eq, Bool.and_eq_true, and_assoc]
  · rw [Option.getD_none, eq_comm, List.filter_eq_nil_iff]
    simp only [Bool.and_eq_true, decide_eq_true_eq, not_and, Bool.not_eq_true, and_imp]

/-- What is filled in is about the Applications that the call has brought, if it has brought any. -/
theorem fill_covers (h : as.generatedAppCount = 0 ∧ as.summary = {} ∧ as.children = []) :
    Covers (w.fill c as) ((w.listChildren c as.name).getD []) := by
  unfold fill
  cases w.listChildren c as.name with
  | none => exact ⟨h.2.2, h.1, h.2.1⟩
  | some items => exact ⟨rfl, rfl, rfl⟩

theorem Covers.unique {apps apps' : List Application} (h : Covers as apps) (h' : Covers as apps') : apps = apps' :=
  h.1.symm.trans h'.1

theorem fill_covers_iff (h : as.generatedAppCount = 0 ∧ as.summary = {} ∧ as.children = []) :
    Covers (w.fill c as) (w.generated ns as.name) ↔ w.Faithful c ns as.name := by
  rw [← listChildren_eq_generated_iff]
  exact ⟨fun hcovers ↦ (fill_covers h).unique hcovers, fun heq ↦ heq ▸ fill_covers h⟩

@[simp] theorem fill_name (c : Client) (as : NormalizedAppSet) : (w.fill c as).name = as.name := by
  unfold fill
  split <;> rfl

@[simp] theorem fill_ns (c : Client) (as : NormalizedAppSet) : (w.fill c as).ns = as.ns := by
  unfold fill
  split <;> rfl

theorem mem_listed (h : w.handleListAppSets = .ok sets) : ∃ appSets, w.cached = some appSets ∧
    ∀ as, as ∈ sets ↔ ∃ as' ∈ appSets, w.visible as' = true ∧ w.fill w.listClient as' = as := by
  unfold handleListAppSets at h
  split at h
  · cases h
  · next appSets hcached =>
    refine ⟨appSets, hcached, fun as ↦ ?_⟩
    rw [← Except.ok.inj h, (List.mergeSort_perm _ _).mem_iff, List.mem_map]
    simp only [List.mem_filter, and_assoc]

theorem listed_of_cached {appSets : List NormalizedAppSet} (h : w.cached = some appSets) :
    ∃ sets, w.handleListAppSets = .ok sets ∧
      ∀ as, as ∈ sets ↔ ∃ as' ∈ appSets, w.visible as' = true ∧ w.fill w.listClient as' = as := by
  have hok : ∃ sets, w.handleListAppSets = .ok sets := by
    unfold handleListAppSets
    rw [h]
    exact ⟨_, rfl⟩
  obtain ⟨sets, hsets⟩ := hok
  obtain ⟨appSets', hcached, hmem⟩ := mem_listed hsets
  rw [h] at hcached
  cases hcached
  exact ⟨sets, hsets, hmem⟩

theorem detail_eq_ok {detail : AppSetDetail} : w.handleGetAppSet ns name = .ok detail ↔
    w.created = true ∧ (w.mayGetAppSet ns = true ∧ (ns, name) ∈ w.appSets) ∧
      detail = ⟨w.fill w.client { name, ns }, (w.fill w.client { name, ns }).children.map normalizeArgoApp⟩ := by
  unfold handleGetAppSet
  rw [ite_error_eq_ok, ite_error_eq_ok, not_not, not_not, Except.ok.injEq, eq_comm (b := detail)]

/-- The handlers attribute rightly exactly if the labels are the ApplicationSets' own in this sense. -/
theorem attributesOwn_iff (w : World) : w.AttributesOwn ↔ w.OwnLabels := by
  constructor
  · intro h
    refine ⟨fun appSets hcached as has hvisible ↦ ?_, fun hcreated ns name hmay hmem ↦ ?_,
      fun appSets hcached as has hvisible hall ↦ ?_⟩
    · obtain ⟨sets, hsets, hmem⟩ := listed_of_cached hcached
      have hcovers := h.listed sets hsets _ ((hmem _).mpr ⟨as, has, hvisible, rfl⟩)
      rw [fill_ns, fill_name] at hcovers
      exact (fill_covers_iff (w.unfilled appSets hcached as has)).mp hcovers
    · have hdetail := (h.detailed ns name _ (detail_eq_ok.mpr ⟨hcreated, ⟨hmay, hmem⟩, rfl⟩)).1
      exact (fill_covers_iff ⟨rfl, rfl, rfl⟩).mp hdetail
    · obtain ⟨sets, hsets, hmem⟩ := listed_of_cached hcached
      refine h.rights sets hsets (fun hnil ↦ ?_) hall
      have hin := (hmem _).mpr ⟨as, has, hvisible, rfl⟩
      rw [hnil] at hin
      cases hin
  · intro h
    refine ⟨fun sets hsets as has ↦ ?_, fun ns name detail hdetail ↦ ?_, fun sets hsets hne hall ↦ ?_⟩
    · obtain ⟨appSets, hcached, hmem⟩ := mem_listed hsets
      obtain ⟨as', has', hvisible, rfl⟩ := (hmem as).mp has
      rw [fill_ns, fill_name]
      exact (fill_covers_iff (w.unfilled appSets hcached as' has')).mpr (h.listed appSets hcached as' has' hvisible)
    · obtain ⟨hcreated, ⟨hmay, hmem⟩, rfl⟩ := detail_eq_ok.mp hdetail
      have hcovers : Covers (w.fill w.client { name, ns }) (w.generated ns name) :=
        (fill_covers_iff ⟨rfl, rfl, rfl⟩).mpr (h.detailed hcreated ns name hmay hmem)
      exact ⟨hcovers, congrArg (List.map normalizeArgoApp) hcovers.1⟩
    · obtain ⟨appSets, hcached, hmem⟩ := mem_listed hsets
      obtain ⟨as, has⟩ := List.exists_mem_of_ne_nil sets hne
      obtain ⟨as', has', hvisible, -⟩ := (hmem as).mp has
      exact h.rights appSets hcached as' has' hvisible hall

/-- Two namespaces with an ApplicationSet of one name, each with an Application of its own, before a user who may read all. -/
def namesakes : World where
  cached := some [{ name := "web", ns := "team-a" }, { name := "web", ns := "team-b" }]
  unfilled := by simp
  appSets := [("team-a", "web"), ("team-b", "web")]
  applications := [
    { ns := "team-a", name := "web-1", labels := AList.insert appSetLabel "web" ∅, owner := some "web" },
    { ns := "team-b", name := "web-1", labels := AList.insert appSetLabel "web" ∅, owner := some "web" }]
  admin := true
  mayListAppSets := fun _ ↦ true
  mayGetAppSet := fun _ ↦ true
  client := ⟨fun _ ↦ true, true, fun _ _ ↦ rfl⟩
  created := true
  base := ⟨fun _ ↦ true, true, fun _ _ ↦ rfl⟩
  fails := fun _ ↦ false

theorem not_attributesOwn : ¬ ∀ w : World, w.AttributesOwn := by
  intro h
  have hok := @detail_eq_ok namesakes "team-a" "web" _ |>.mpr ⟨rfl, ⟨rfl, by decide⟩, rfl⟩
  have hcount := ((h namesakes).detailed "team-a" "web" _ hok).1.2.1
  exact absurd hcount (by decide)

end World

end KubeCenter.GitOps
