import KubeCenter.Topology.Survivors

/-! What a graph tells its user of the kinds that the user may not list. -/

namespace KubeCenter.Topology

open KubeCenter.Core Resources

/-- The kinds a build reads, in order, each with the API group that serves it. -/
def servedKinds : List (String × String) :=
  [("", "pods"), ("", "services"), ("apps", "deployments"), ("apps", "replicasets"), ("apps", "statefulsets"),
    ("apps", "daemonsets"), ("batch", "jobs"), ("batch", "cronjobs"), ("networking.k8s.io", "ingresses"),
    ("", "configmaps"), ("", "persistentvolumeclaims"), ("autoscaling", "horizontalpodautoscalers")]

/-- The states agree on the kinds that `lets` lets through. -/
structure AgreeOn (lets : String → String → Prop) (ns : String) (s t : ResourceLister) : Prop where
  pods : lets "" "pods" → s.listPods ns = t.listPods ns
  services : lets "" "services" → s.listServices ns = t.listServices ns
  deployments : lets "apps" "deployments" → s.listDeployments ns = t.listDeployments ns
  replicaSets : lets "apps" "replicasets" → s.listReplicaSets ns = t.listReplicaSets ns
  statefulSets : lets "apps" "statefulsets" → s.listStatefulSets ns = t.listStatefulSets ns
  daemonSets : lets "apps" "daemonsets" → s.listDaemonSets ns = t.listDaemonSets ns
  jobs : lets "batch" "jobs" → s.listJobs ns = t.listJobs ns
  cronJobs : lets "batch" "cronjobs" → s.listCronJobs ns = t.listCronJobs ns
  ingresses : lets "networking.k8s.io" "ingresses" → s.listIngresses ns = t.listIngresses ns
  configMaps : lets "" "configmaps" → s.listConfigMaps ns = t.listConfigMaps ns
  pvcs : lets "" "persistentvolumeclaims" → s.listPVCs ns = t.listPVCs ns
  hpas : lets "autoscaling" "horizontalpodautoscalers" → s.listHPAs ns = t.listHPAs ns

theorem listIf_congr {O : Type} {canAccess : Bool} {l m : Option (List O)} (h : canAccess = true → l = m) :
    listIf canAccess l = listIf canAccess m := by
  cases canAccess with
  | false => rfl
  | true => rw [h rfl]

theorem listIf_nil {O : Type} (canAccess : Bool) : listIf canAccess (some ([] : List O)) = [] := by
  cases canAccess <;> rfl

/-- What is read of two states is the same where every kind the user is let through to is agreed on. -/
theorem inventory_congr {lets : String → String → Prop} {can : Permissions} {ns : String} {s t : ResourceLister}
    (h : AgreeOn lets ns s t) (hlets : ∀ k ∈ servedKinds, can (.core k.2) ns = true → lets k.1 k.2) :
    s.inventory can ns = t.inventory can ns := by
  have hread : ∀ {O : Type} {l m : Option (List O)}, ∀ k ∈ servedKinds, (lets k.1 k.2 → l = m) →
      listIf (can (.core k.2) ns) l = listIf (can (.core k.2) ns) m :=
    fun k hk hlm ↦ listIf_congr (fun hcan ↦ hlm (hlets k hk hcan))
  simp only [ResourceLister.inventory, Inventory.mk.injEq]
  refine ⟨?_, ?_, ?_, ?_, ?_, ?_, ?_, ?_, ?_, ?_, ?_, ?_⟩
  · exact hread ("", "pods") (by decide) h.pods
  · exact hread ("", "services") (by decide) h.services
  · exact hread ("apps", "deployments") (by decide) h.deployments
  · exact hread ("apps", "replicasets") (by decide) h.replicaSets
  · exact hread ("apps", "statefulsets") (by decide) h.statefulSets
  · exact hread ("apps", "daemonsets") (by decide) h.daemonSets
  · exact hread ("batch", "jobs") (by decide) h.jobs
  · exact hread ("batch", "cronjobs") (by decide) h.cronJobs
  · exact hread ("networking.k8s.io", "ingresses") (by decide) h.ingresses
  · exact hread ("", "configmaps") (by decide) h.configMaps
  · exact hread ("", "persistentvolumeclaims") (by decide) h.pvcs
  · exact hread ("autoscaling", "horizontalpodautoscalers") (by decide) h.hpas

/-- The builder reads a namespace through its inventory alone. -/
theorem buildNamespaceGraph_eq (b : Builder) (rt : Runtime) (can : Permissions) (ns : String)
    (quoted : String → String) :
    b.buildNamespaceGraph rt can ns quoted = .ok (buildBase rt (b.lister.inventory can ns)).graph := rfl

/-- By the answers the build itself is given, kind by kind, a graph tells nothing of what is denied. -/
theorem buildNamespaceGraph_congr {b b' : Builder} {can : Permissions} {ns : String}
    (h : AgreeOn (fun _ resource ↦ can (.core resource) ns = true) ns b.lister b'.lister) (rt : Runtime)
    (quoted : String → String) :
    b.buildNamespaceGraph rt can ns quoted = b'.buildNamespaceGraph rt can ns quoted := by
  rw [buildNamespaceGraph_eq, buildNamespaceGraph_eq, inventory_congr h (fun _ _ hcan ↦ hcan)]

/-! ## The checker's answers -/

structure User where
  kubernetesUsername : String
  kubernetesGroups : List String

def listCall (clusterID : String) (user : User) (target : Target) (ns : String) : Call :=
  { clusterID, username := user.kubernetesUsername, groups := user.kubernetesGroups, verb := "list", target, ns }

section

variable (authorizer : Review → Except Failure Bool) (clusterID : String) (user : User)

/-- What the access checker answers: a review that fails denies. -/
def checkerPermissions : Permissions := fun target ns ↦ (listCall clusterID user target ns).answer authorizer = some true

/-- The user may list the resource of the API group. -/
def MayList (ns apiGroup resource : String) : Prop :=
  (listCall clusterID user (.grouped apiGroup resource) ns).answer authorizer = some true

/-- The graph is the same in any two states that agree on every kind, by the API group that serves it,
that the user may list, whatever the rest of the cluster and the overlays' providers hold. -/
def NonInterfering (ns : String) : Prop :=
  ∀ (b b' : Builder), AgreeOn (MayList authorizer clusterID user ns) ns b.lister b'.lister →
    ∀ (rt : Runtime) (quoted : String → String),
      b.buildNamespaceGraph rt (checkerPermissions authorizer clusterID user) ns quoted =
        b'.buildNamespaceGraph rt (checkerPermissions authorizer clusterID user) ns quoted

variable {authorizer clusterID user} {ns : String}

/-- A check by name alone asks about the group that `apiGroupForResource` infers. -/
theorem checkerPermissions_core {resource apiGroup : String} (hsplit : splitResource resource = (resource, ""))
    (hgroup : apiGroupForResource resource = apiGroup) :
    checkerPermissions authorizer clusterID user (.core resource) ns = true ↔
      MayList authorizer clusterID user ns apiGroup resource := by
  have hreview : (listCall clusterID user (.core resource) ns).review =
      (listCall clusterID user (.grouped apiGroup resource) ns).review := by
    simp only [listCall, Call.review, hsplit, hgroup]
  rw [checkerPermissions, decide_eq_true_eq, Call.answer, hreview]
  rfl

/-- Of the kinds a build reads, only the HPAs are checked under another group than their own. -/
theorem servedKinds_group : ∀ k ∈ servedKinds, k.2 ≠ "horizontalpodautoscalers" →
    splitResource k.2 = (k.2, "") ∧ apiGroupForResource k.2 = k.1 := by
  decide

theorem checkerPermissions_hpas : checkerPermissions authorizer clusterID user (.core "horizontalpodautoscalers") ns = true ↔
    MayList authorizer clusterID user ns "" "horizontalpodautoscalers" := checkerPermissions_core (by decide) (by decide)

theorem mayList_of_checker (hhpas : MayList authorizer clusterID user ns "" "horizontalpodautoscalers" →
      MayList authorizer clusterID user ns "autoscaling" "horizontalpodautoscalers") :
    ∀ k ∈ servedKinds, checkerPermissions authorizer clusterID user (.core k.2) ns = true →
      MayList authorizer clusterID user ns k.1 k.2 := by
  intro k hk hcan
  by_cases hname : k.2 = "horizontalpodautoscalers"
  · have hgroup : ∀ k ∈ servedKinds, k.2 = "horizontalpodautoscalers" → k.1 = "autoscaling" := by decide
    rw [hname] at hcan ⊢
    rw [hgroup k hk hname]
    exact hhpas (checkerPermissions_hpas.mp hcan)
  · obtain ⟨hsplit, hgroup⟩ := servedKinds_group k hk hname
    exact (checkerPermissions_core hsplit hgroup).mp hcan

/-- A state with the given HPAs and nothing else. -/
def hpaLister (hpas : List HorizontalPodAutoscaler) : ResourceLister :=
  { emptyLister with listHPAs := fun _ ↦ some hpas }

theorem hpaLister_refs {can : Permissions} (hcan : can (.core "horizontalpodautoscalers") ns = true)
    (hpas : List HorizontalPodAutoscaler) : ((hpaLister hpas).inventory can ns).refs =
      refsOf "HorizontalPodAutoscaler" HorizontalPodAutoscaler.toObjectMeta hpas := by
  simp only [Inventory.refs, ResourceLister.inventory, hpaLister, emptyLister, listIf_nil, hcan]
  rfl

def webScaler : HorizontalPodAutoscaler :=
  { uid := "hpa", name := "web", ns := "shop", scaleTargetRef := ⟨"Deployment", "web"⟩ }

/-- Who may list the HPAs of the core group alone, of which there are none, is shown the real ones. -/
theorem interferes_of (hcore : MayList authorizer clusterID user ns "" "horizontalpodautoscalers")
    (hauto : ¬ MayList authorizer clusterID user ns "autoscaling" "horizontalpodautoscalers") :
    ¬ NonInterfering authorizer clusterID user ns := by
  intro h
  have hcan := checkerPermissions_hpas.mpr hcore
  have hagree : AgreeOn (MayList authorizer clusterID user ns) ns (hpaLister []) (hpaLister [webScaler]) :=
    ⟨fun _ ↦ rfl, fun _ ↦ rfl, fun _ ↦ rfl, fun _ ↦ rfl, fun _ ↦ rfl, fun _ ↦ rfl, fun _ ↦ rfl, fun _ ↦ rfl,
      fun _ ↦ rfl, fun _ ↦ rfl, fun _ ↦ rfl, fun hmay ↦ absurd hmay hauto⟩
  have hsame := h ⟨hpaLister [], none, none⟩ ⟨hpaLister [webScaler], none, none⟩ hagree inOrder id
  rw [buildNamespaceGraph_eq, buildNamespaceGraph_eq, Except.ok.injEq] at hsame
  have hrefs := congrArg (fun g : Graph ↦ g.nodes.map Node.ref) hsame
  simp only [buildBase_refs, Inventory.kept, hpaLister_refs hcan] at hrefs
  exact absurd hrefs (by decide)

/-- A graph tells nothing of the kinds its user may not list, unless the user may list
HorizontalPodAutoscalers of the core group, under which they are checked, and not those of
`autoscaling`, which serves them. -/
theorem nonInterfering_iff (authorizer : Review → Except Failure Bool) (clusterID : String) (user : User)
    (ns : String) : NonInterfering authorizer clusterID user ns ↔
      (MayList authorizer clusterID user ns "" "horizontalpodautoscalers" →
        MayList authorizer clusterID user ns "autoscaling" "horizontalpodautoscalers") := by
  constructor
  · intro h hcore
    by_contra hauto
    exact interferes_of hcore hauto h
  · intro himp b b' hagree rt quoted
    rw [buildNamespaceGraph_eq, buildNamespaceGraph_eq, inventory_congr hagree (mayList_of_checker himp)]

/-- A role over everything in the core group, and over nothing else. -/
def coreGroupOnly (review : Review) : Except Failure Bool := .ok (review.group = "" && review.verb = "list")

theorem not_nonInterfering :
    ¬ ∀ authorizer clusterID user ns, NonInterfering authorizer clusterID user ns := by
  intro h
  have hcore : MayList coreGroupOnly "local" ⟨"eve", []⟩ "shop" "" "horizontalpodautoscalers" := by
    simp [MayList, Call.answer, coreGroupOnly, listCall, Call.review, Except.toOption]
  have hauto : ¬ MayList coreGroupOnly "local" ⟨"eve", []⟩ "shop" "autoscaling" "horizontalpodautoscalers" := by
    simp [MayList, Call.answer, coreGroupOnly, listCall, Call.review, Except.toOption]
  exact interferes_of hcore hauto (h _ _ _ _)

end

/-! ## The checks of one build -/

/-- The checker's cache tells the checks of one build apart, so each is answered as `checkerPermissions`
has it. -/
theorem baseChecks_transparent {authorizer : Review → Except Failure Bool} {clusterID : String} {user : User}
    {ns : String} {start : ℕ} {cs : List (Call × Clock)}
    (hcs : cs.map Prod.fst = servedKinds.map (fun k ↦ listCall clusterID user (.core k.2) ns))
    (ht : WithinTTL start cs) : Transparent authorizer cs := by
  refine (transparent_iff ht).mpr ?_
  have hdistinct : servedKinds.Pairwise (fun k k' ↦ k.2 ≠ k'.2) := by decide
  rw [hcs, List.pairwise_map]
  refine hdistinct.imp (fun hne hkey ↦ absurd ?_ hne)
  exact (key_eq_iff.mp hkey).2.2.2.1

end KubeCenter.Topology
