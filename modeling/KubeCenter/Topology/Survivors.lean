import KubeCenter.Topology.Builder

/-! The resources a build keeps: the first of the permitted ones that the cap admits. -/

namespace KubeCenter.Topology

open KubeCenter.Core Resources

/-- A resource as its node names it, without its health. -/
structure ResourceRef where
  id : String
  kind : String
  name : String
  ns : String
  deriving DecidableEq

def Node.ref (n : Node) : ResourceRef := ⟨n.id, n.kind, n.name, n.ns⟩

def ResourceRef.key (r : ResourceRef) : String := r.kind ++ "/" ++ r.name

def refsOf {O : Type} (kind : String) (toMeta : O → ObjectMeta) (items : List O) : List ResourceRef :=
  items.map (fun item ↦ ⟨(toMeta item).uid, kind, (toMeta item).name, (toMeta item).ns⟩)

/-- The permitted resources in the builder's order. -/
def Inventory.refs (inv : Inventory) : List ResourceRef :=
  refsOf "Pod" Pod.toObjectMeta inv.pods ++ refsOf "Service" Service.toObjectMeta inv.services ++
    refsOf "Deployment" Deployment.toObjectMeta inv.deployments ++
    refsOf "ReplicaSet" ReplicaSet.toObjectMeta inv.replicaSets ++
    refsOf "StatefulSet" StatefulSet.toObjectMeta inv.statefulSets ++
    refsOf "DaemonSet" DaemonSet.toObjectMeta inv.daemonSets ++ refsOf "Job" Job.toObjectMeta inv.jobs ++
    refsOf "CronJob" CronJob.toObjectMeta inv.cronJobs ++ refsOf "Ingress" Ingress.toObjectMeta inv.ingresses ++
    refsOf "ConfigMap" ConfigMap.toObjectMeta inv.configMaps ++
    refsOf "PersistentVolumeClaim" PersistentVolumeClaim.toObjectMeta inv.pvcs ++
    refsOf "HorizontalPodAutoscaler" HorizontalPodAutoscaler.toObjectMeta inv.hpas

def Inventory.kept (inv : Inventory) : List ResourceRef := inv.refs.take maxNodes

/-- What `nameIndex` holds once the resources `rs` are in it. -/
def indexRefs (rs : List ResourceRef) : GoMap String String := GoMap.indexBy ResourceRef.key ResourceRef.id rs

theorem lookup_indexRefs_isSome {rs : List ResourceRef} {key : String} :
    ((indexRefs rs).lookup key).isSome ↔ ∃ r ∈ rs, r.key = key := GoMap.lookup_indexBy_isSome

/-! ## The resource kinds -/

/-- What `addResourceNodes` has built once it has been through the resources `rs`. -/
structure Filled (rs : List ResourceRef) (s : Build) : Prop where
  refs : s.graph.nodes.map Node.ref = rs.take maxNodes
  index : s.nameIndex = indexRefs (rs.take maxNodes)
  truncated : s.graph.truncated = decide (maxNodes < rs.length)

theorem Filled.length {rs : List ResourceRef} {s : Build} (h : Filled rs s) :
    s.graph.nodes.length = min maxNodes rs.length := by
  rw [← List.length_map Node.ref, h.refs, List.length_take]

theorem filled_empty : Filled [] {} := ⟨rfl, rfl, rfl⟩

theorem Filled.full {rs : List ResourceRef} {s : Build} (h : Filled rs s) (hfull : maxNodes ≤ rs.length)
    {more : List ResourceRef} (hmore : more ≠ []) : Filled (rs ++ more) { s with graph.truncated := true } where
  refs := by rw [List.take_append_of_le_length hfull]; exact h.refs
  index := by rw [List.take_append_of_le_length hfull]; exact h.index
  truncated := by
    have := List.length_pos_iff.mpr hmore
    rw [List.length_append, decide_eq_true (by omega)]

theorem Filled.push {rs : List ResourceRef} {s : Build} (h : Filled rs s) (hroom : rs.length < maxNodes)
    (n : Node) : Filled (rs ++ [n.ref])
      { graph := { s.graph with nodes := s.graph.nodes ++ [n] }, nameIndex := s.nameIndex.insert n.ref.key n.id } := by
  have hnew : (rs ++ [n.ref]).take maxNodes = rs ++ [n.ref] :=
    List.take_of_length_le (by rw [List.length_append, List.length_singleton]; exact hroom)
  have hold : rs.take maxNodes = rs := List.take_of_length_le hroom.le
  refine ⟨?_, ?_, ?_⟩
  · rw [hnew, List.map_append, h.refs, hold]
    rfl
  · rw [hnew, indexRefs, GoMap.indexBy_concat, h.index, hold]
    rfl
  · rw [h.truncated]
    simp only [List.length_append, List.length_singleton, decide_eq_decide]
    omega

theorem Filled.addResourceNodes {O : Type} {rs : List ResourceRef} {s : Build} (h : Filled rs s) (kind : String)
    (toMeta : O → ObjectMeta) (hfn : O → Health × String) (items : List O) :
    Filled (rs ++ refsOf kind toMeta items) (addResourceNodes kind toMeta hfn items s) := by
  induction items generalizing rs s with
  | nil => simpa [refsOf, Topology.addResourceNodes] using h
  | cons item items ih =>
    rw [Topology.addResourceNodes, h.length]
    by_cases hfull : maxNodes ≤ rs.length
    · rw [if_pos (by omega)]
      exact h.full hfull (List.cons_ne_nil _ _)
    · rw [if_neg (by omega)]
      have hpush := ih (h.push (not_le.mp hfull)
        ⟨(toMeta item).uid, kind, (toMeta item).name, (toMeta item).ns, (hfn item).1, (hfn item).2⟩)
      rw [List.append_assoc] at hpush
      exact hpush

theorem addKinds_filled (inv : Inventory) : Filled inv.refs (addKinds inv) :=
  (((((((((((filled_empty.addResourceNodes "Pod" Pod.toObjectMeta podHealth inv.pods
    ).addResourceNodes "Service" Service.toObjectMeta serviceHealth inv.services
    ).addResourceNodes "Deployment" Deployment.toObjectMeta deploymentHealth inv.deployments
    ).addResourceNodes "ReplicaSet" ReplicaSet.toObjectMeta replicaSetHealth inv.replicaSets
    ).addResourceNodes "StatefulSet" StatefulSet.toObjectMeta statefulSetHealth inv.statefulSets
    ).addResourceNodes "DaemonSet" DaemonSet.toObjectMeta daemonSetHealth inv.daemonSets
    ).addResourceNodes "Job" Job.toObjectMeta jobHealth inv.jobs
    ).addResourceNodes "CronJob" CronJob.toObjectMeta cronJobHealth inv.cronJobs
    ).addResourceNodes "Ingress" Ingress.toObjectMeta ingressHealth inv.ingresses
    ).addResourceNodes "ConfigMap" ConfigMap.toObjectMeta configMapHealth inv.configMaps
    ).addResourceNodes "PersistentVolumeClaim" PersistentVolumeClaim.toObjectMeta pvcHealth inv.pvcs
    ).addResourceNodes "HorizontalPodAutoscaler" HorizontalPodAutoscaler.toObjectMeta hpaHealth inv.hpas

@[simp] theorem checkTruncation_nodes (s : Build) : (checkTruncation s).graph.nodes = s.graph.nodes := by
  unfold checkTruncation
  split <;> rfl

@[simp] theorem checkTruncation_nameIndex (s : Build) : (checkTruncation s).nameIndex = s.nameIndex := by
  unfold checkTruncation
  split <;> rfl

/-- The flag is up from `maxNodes` resources on. -/
theorem checkTruncation_truncated (inv : Inventory) :
    (checkTruncation (addKinds inv)).graph.truncated = decide (maxNodes ≤ inv.refs.length) := by
  have hlength := (addKinds_filled inv).length
  unfold checkTruncation
  split
  · exact (decide_eq_true (by omega)).symm
  · rw [(addKinds_filled inv).truncated, decide_eq_decide]
    omega

/-! ## Health propagation keeps the resources -/

theorem setHealth_refs (id : String) (h : Health) (nodes : List Node) :
    (setHealth id h nodes).map Node.ref = nodes.map Node.ref := by
  induction nodes with
  | nil => rfl
  | cons n nodes ih =>
    rw [setHealth]
    split
    · rfl
    · rw [List.map_cons, ih, List.map_cons]

theorem propagateTo_refs (children : GoMap String (List String)) (s : List Node × Bool) (parentID : String) :
    (propagateTo children s parentID).1.map Node.ref = s.1.map Node.ref := by
  unfold propagateTo
  repeat' split
  all_goals first | rfl | exact setHealth_refs _ _ _

theorem propagateFrom_refs (rt : Runtime) (children : GoMap String (List String)) (left : ℕ) (nodes : List Node) :
    (propagateFrom rt children left nodes).map Node.ref = nodes.map Node.ref := by
  induction left generalizing nodes with
  | zero => rfl
  | succ left ih =>
    have hround : ∀ ids : List String,
        (ids.foldl (propagateTo children) (nodes, false)).1.map Node.ref = nodes.map Node.ref := fun ids ↦
      List.foldlRecOn (motive := fun s ↦ s.1.map Node.ref = nodes.map Node.ref) ids _ rfl
        (fun s hs id _ ↦ (propagateTo_refs children s id).trans hs)
    rw [propagateFrom]
    split
    · exact (ih _).trans (hround _)
    · exact hround _

theorem buildBase_refs (rt : Runtime) (inv : Inventory) : (buildBase rt inv).graph.nodes.map Node.ref = inv.kept := by
  unfold buildBase
  simp only [propagateHealth, propagateFrom_refs, checkTruncation_nodes]
  exact (addKinds_filled inv).refs

theorem buildBase_nameIndex (rt : Runtime) (inv : Inventory) : (buildBase rt inv).nameIndex = indexRefs inv.kept := by
  unfold buildBase
  rw [checkTruncation_nameIndex]
  exact (addKinds_filled inv).index

theorem buildBase_truncated (rt : Runtime) (inv : Inventory) :
    (buildBase rt inv).graph.truncated = decide (maxNodes ≤ inv.refs.length) := checkTruncation_truncated inv

theorem buildBase_edges (rt : Runtime) (inv : Inventory) : (buildBase rt inv).graph.edges =
    buildEdges rt inv (addKinds inv).graph.nodes (indexRefs inv.kept) := by
  unfold buildBase
  simp only [checkTruncation_nodes, checkTruncation_nameIndex]
  rw [(addKinds_filled inv).index]
  rfl

theorem kept_length_le (inv : Inventory) : inv.kept.length ≤ maxNodes := by
  unfold Inventory.kept
  rw [List.length_take]
  exact min_le_left _ _

/-! ## The ESO chain's nodes -/

def Graph.refs (g : Graph) : List ResourceRef := g.nodes.map Node.ref

theorem Graph.refs_length (g : Graph) : g.refs.length = g.nodes.length := List.length_map _

/-- What the ESO chain would add; a store without a UID cannot be a node. -/
def properRefs (nodes : List Node) : List ResourceRef := (nodes.filter (fun n ↦ n.id ≠ "")).map Node.ref

@[simp] theorem properRefs_nil : properRefs [] = [] := rfl

theorem addNode_edges (g : Graph) (n : Node) : (addNode g n).edges = g.edges := by
  unfold addNode
  repeat' split
  all_goals rfl

theorem addNode_empty {g : Graph} {n : Node} (h : n.id = "") : addNode g n = { g with truncated := true } :=
  if_pos (.inl h)

theorem addNode_full {g : Graph} {n : Node} (h : maxNodes ≤ g.refs.length) :
    addNode g n = { g with truncated := true } := if_pos (.inr (g.refs_length ▸ h))

theorem addNode_room {g : Graph} {n : Node} (hid : n.id ≠ "") (h : ¬ maxNodes ≤ g.refs.length) :
    (addNode g n).refs = insertNew ResourceRef.id g.refs n.ref ∧ (addNode g n).truncated = g.truncated := by
  have hids : g.nodes.map Node.id = g.refs.map ResourceRef.id := by
    rw [Graph.refs, List.map_map]
    rfl
  rw [addNode, if_neg (not_or.mpr ⟨hid, g.refs_length ▸ h⟩), hids]
  by_cases hmem : n.id ∈ g.refs.map ResourceRef.id
  · rw [if_pos hmem, insertNew_old (show n.ref.id ∈ _ from hmem)]
    exact ⟨rfl, rfl⟩
  · rw [if_neg hmem, insertNew_new (show n.ref.id ∉ _ from hmem)]
    exact ⟨by simp [Graph.refs], rfl⟩

theorem addNode_refs (g : Graph) {n : Node} (hid : n.id ≠ "") :
    (addNode g n).refs = insertCapped ResourceRef.id maxNodes g.refs n.ref := by
  unfold insertCapped
  split
  · rename_i hfull
    rw [addNode_full hfull]
    rfl
  · rename_i hroom
    exact (addNode_room hid hroom).1

theorem foldl_addNode_edges (nodes : List Node) (g : Graph) : (nodes.foldl addNode g).edges = g.edges :=
  List.foldlRecOn (motive := fun g' ↦ g'.edges = g.edges) nodes addNode rfl
    (fun g' hg n _ ↦ (addNode_edges g' n).trans hg)

theorem properRefs_cons {n : Node} {nodes : List Node} (h : n.id ≠ "") :
    properRefs (n :: nodes) = n.ref :: properRefs nodes := by
  simp [properRefs, h]

theorem properRefs_cons_empty {n : Node} {nodes : List Node} (h : n.id = "") :
    properRefs (n :: nodes) = properRefs nodes := by
  simp [properRefs, h]

theorem foldl_addNode_refs (nodes : List Node) (g : Graph) : (nodes.foldl addNode g).refs =
    (properRefs nodes).foldl (insertCapped ResourceRef.id maxNodes) g.refs := by
  induction nodes generalizing g with
  | nil => rfl
  | cons n nodes ih =>
    rw [List.foldl_cons, ih]
    by_cases hid : n.id = ""
    · rw [addNode_empty hid, properRefs_cons_empty hid]
      rfl
    · rw [addNode_refs g hid, properRefs_cons hid, List.foldl_cons]

/-- The flag goes up at a store without a UID and at any call that finds the graph full, also one
for a resource it holds. -/
theorem foldl_addNode_truncated (nodes : List Node) (g : Graph) :
    (nodes.foldl addNode g).truncated = true ↔ g.truncated = true ∨ (∃ n ∈ nodes, n.id = "") ∨
      ReachedFull ResourceRef.id maxNodes g.refs (properRefs nodes) := by
  induction nodes generalizing g with
  | nil => simp [properRefs, not_reachedFull_nil]
  | cons n nodes ih =>
    rw [List.foldl_cons, ih]
    by_cases hid : n.id = ""
    · simp [addNode_empty hid, hid]
    · rw [properRefs_cons hid, reachedFull_cons]
      by_cases hfull : maxNodes ≤ g.refs.length
      · simp [addNode_full hfull, hfull]
      · obtain ⟨hrefs, htruncated⟩ := addNode_room hid hfull
        simp [hrefs, htruncated, hfull, hid]

end KubeCenter.Topology
