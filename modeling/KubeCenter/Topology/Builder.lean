import KubeCenter.Resources.AccessCache
import KubeCenter.Topology.Edges

namespace KubeCenter.Topology

open KubeCenter.Core Resources

def maxNodes : ℕ := 2000

def maxMeshEdges : ℕ := 2000

def maxESOChainEdges : ℕ := 2000

/-- The lists of a namespace; `none` where listing fails. -/
structure ResourceLister where
  listPods : String → Option (List Pod)
  listServices : String → Option (List Service)
  listDeployments : String → Option (List Deployment)
  listReplicaSets : String → Option (List ReplicaSet)
  listStatefulSets : String → Option (List StatefulSet)
  listDaemonSets : String → Option (List DaemonSet)
  listJobs : String → Option (List Job)
  listCronJobs : String → Option (List CronJob)
  listIngresses : String → Option (List Ingress)
  listConfigMaps : String → Option (List ConfigMap)
  listPVCs : String → Option (List PersistentVolumeClaim)
  listHPAs : String → Option (List HorizontalPodAutoscaler)

/-- A namespace with nothing in it. -/
def emptyLister : ResourceLister where
  listPods _ := some []
  listServices _ := some []
  listDeployments _ := some []
  listReplicaSets _ := some []
  listStatefulSets _ := some []
  listDaemonSets _ := some []
  listJobs _ := some []
  listCronJobs _ := some []
  listIngresses _ := some []
  listConfigMaps _ := some []
  listPVCs _ := some []
  listHPAs _ := some []

structure MeshRouteProvider where
  routes : Option (List TrafficRoute)
  meshDetected : Bool

structure ESOChainProvider where
  esoChainSnapshot : Option ESOChainSnapshot
  esoChainDetected : Bool

structure Builder where
  lister : ResourceLister
  meshProvider : Option MeshRouteProvider := none
  esoChainProvider : Option ESOChainProvider := none

/-- The permissions to list, as the checker gives them; a failed check denies. -/
abbrev Permissions := Target → String → Bool

/-- What one build has read: a list is empty where the user may not see it or listing fails. -/
structure Inventory where
  pods : List Pod
  services : List Service
  deployments : List Deployment
  replicaSets : List ReplicaSet
  statefulSets : List StatefulSet
  daemonSets : List DaemonSet
  jobs : List Job
  cronJobs : List CronJob
  ingresses : List Ingress
  configMaps : List ConfigMap
  pvcs : List PersistentVolumeClaim
  hpas : List HorizontalPodAutoscaler

def listIf {O : Type} (canAccess : Bool) (listed : Option (List O)) : List O :=
  if canAccess then listed.getD [] else []

def ResourceLister.inventory (lister : ResourceLister) (can : Permissions) (ns : String) : Inventory where
  pods := listIf (can (.core "pods") ns) (lister.listPods ns)
  services := listIf (can (.core "services") ns) (lister.listServices ns)
  deployments := listIf (can (.core "deployments") ns) (lister.listDeployments ns)
  replicaSets := listIf (can (.core "replicasets") ns) (lister.listReplicaSets ns)
  statefulSets := listIf (can (.core "statefulsets") ns) (lister.listStatefulSets ns)
  daemonSets := listIf (can (.core "daemonsets") ns) (lister.listDaemonSets ns)
  jobs := listIf (can (.core "jobs") ns) (lister.listJobs ns)
  cronJobs := listIf (can (.core "cronjobs") ns) (lister.listCronJobs ns)
  ingresses := listIf (can (.core "ingresses") ns) (lister.listIngresses ns)
  configMaps := listIf (can (.core "configmaps") ns) (lister.listConfigMaps ns)
  pvcs := listIf (can (.core "persistentvolumeclaims") ns) (lister.listPVCs ns)
  hpas := listIf (can (.core "horizontalpodautoscalers") ns) (lister.listHPAs ns)

/-! ## Nodes -/

structure Build where
  graph : Graph := {}
  nameIndex : GoMap String String := ∅

def addResourceNodes {O : Type} (kind : String) (toMeta : O → ObjectMeta) (hfn : O → Health × String) :
    List O → Build → Build
  | [], s => s
  | item :: items, s =>
    if maxNodes ≤ s.graph.nodes.length then { s with graph.truncated := true }
    else
      let m := toMeta item
      let (health, summary) := hfn item
      addResourceNodes kind toMeta hfn items
        { graph := { s.graph with nodes := s.graph.nodes ++ [⟨m.uid, kind, m.name, m.ns, health, summary⟩] }
          nameIndex := s.nameIndex.insert (kind ++ "/" ++ m.name) m.uid }

def addKinds (inv : Inventory) : Build :=
  let s : Build := {}
  let s := addResourceNodes "Pod" Pod.toObjectMeta podHealth inv.pods s
  let s := addResourceNodes "Service" Service.toObjectMeta serviceHealth inv.services s
  let s := addResourceNodes "Deployment" Deployment.toObjectMeta deploymentHealth inv.deployments s
  let s := addResourceNodes "ReplicaSet" ReplicaSet.toObjectMeta replicaSetHealth inv.replicaSets s
  let s := addResourceNodes "StatefulSet" StatefulSet.toObjectMeta statefulSetHealth inv.statefulSets s
  let s := addResourceNodes "DaemonSet" DaemonSet.toObjectMeta daemonSetHealth inv.daemonSets s
  let s := addResourceNodes "Job" Job.toObjectMeta jobHealth inv.jobs s
  let s := addResourceNodes "CronJob" CronJob.toObjectMeta cronJobHealth inv.cronJobs s
  let s := addResourceNodes "Ingress" Ingress.toObjectMeta ingressHealth inv.ingresses s
  let s := addResourceNodes "ConfigMap" ConfigMap.toObjectMeta configMapHealth inv.configMaps s
  let s := addResourceNodes "PersistentVolumeClaim" PersistentVolumeClaim.toObjectMeta pvcHealth inv.pvcs s
  addResourceNodes "HorizontalPodAutoscaler" HorizontalPodAutoscaler.toObjectMeta hpaHealth inv.hpas s

/-- The check that follows the last kind. -/
def checkTruncation (s : Build) : Build :=
  if maxNodes ≤ s.graph.nodes.length then { s with graph.truncated := true } else s

def buildEdges (rt : Runtime) (inv : Inventory) (nodes : List Node) (nameIndex : GoMap String String) : List Edge :=
  buildOwnerEdges inv.pods inv.replicaSets inv.jobs nodes ++
    buildServiceSelectorEdges rt inv.services inv.pods nodes ++
    buildIngressEdges inv.ingresses nameIndex ++
    buildMountEdges inv.pods nameIndex ++
    buildHPAEdges inv.hpas nameIndex

/-- The graph that the overlays add to. -/
def buildBase (rt : Runtime) (inv : Inventory) : Build :=
  let s := checkTruncation (addKinds inv)
  let edges := buildEdges rt inv s.graph.nodes s.nameIndex
  { s with graph := { s.graph with edges, nodes := propagateHealth rt s.graph.nodes edges } }

/-! ## Overlays -/

/-- `addNode` of the ESO chain. Nothing reads `nameIndex` after it. -/
def addNode (graph : Graph) (node : Node) : Graph :=
  if node.id = "" ∨ maxNodes ≤ graph.nodes.length then { graph with truncated := true }
  else if node.id ∈ graph.nodes.map Node.id then graph
  else { graph with nodes := graph.nodes ++ [node] }

section

variable (rt : Runtime) (can : Permissions) (ns : String)

def esoGroup : String := "external-secrets.io"

def esoChainAccess : ESOChainAccess where
  stores := can (.grouped esoGroup "secretstores") ns
  clusterStores := can (.grouped esoGroup "clustersecretstores") ""
  secrets := can (.core "secrets") ns
  pods := can (.core "pods") ns

/-- The provider's snapshot, unless the overlay is unavailable. -/
def ESOChainProvider.available (provider : Option ESOChainProvider) : Option ESOChainSnapshot :=
  provider.bind (fun provider ↦ if provider.esoChainDetected then provider.esoChainSnapshot else none)

def applyESOChainOverlay (provider : Option ESOChainProvider) (pods : List Pod) (s : Build) : Graph :=
  match ESOChainProvider.available provider with
  | none => { s.graph with overlay := .unavailable }
  | some snapshot =>
    let graph := { s.graph with overlay := .esoChain }
    if can (.grouped esoGroup "externalsecrets") ns then
      let access := esoChainAccess can ns
      let eso := buildESOChainEdges rt snapshot ns s.nameIndex pods access maxESOChainEdges
      let graph := { graph with edgesTruncated := graph.edgesTruncated || eso.capped }
      let graph := (esoChainNodes rt snapshot ns access).foldl addNode graph
      { graph with edges := graph.edges ++ eso.edges }
    else graph

def MeshRouteProvider.available (provider : Option MeshRouteProvider) : Option (List TrafficRoute) :=
  provider.bind (fun provider ↦ if provider.meshDetected then provider.routes else none)

def visibleRoute (r : TrafficRoute) : Bool :=
  match meshKindForRoute r with
  | none => false
  | some (apiGroup, resource) => overlayEmitsEdgesFor r && can (.grouped apiGroup resource) ns

def unresolvedHosts (stats : MeshEdgeStats) : String :=
  toString stats.unresolvedSources ++ " route(s) had unresolved source hosts and " ++
    toString stats.unresolvedDests ++ " destination hosts didn't match any Service in this namespace; " ++
    "check for cross-namespace targets, external hosts, or a custom cluster domain"

def applyMeshOverlay (provider : Option MeshRouteProvider) (s : Build) : Graph :=
  match MeshRouteProvider.available provider with
  | none => { s.graph with overlay := .unavailable }
  | some routes =>
    let graph := { s.graph with overlay := .mesh }
    let visible := (routes.filter (fun r ↦ r.ns = ns)).filter (visibleRoute can ns)
    let mesh := buildMeshEdges rt ns s.nameIndex maxMeshEdges visible
    { graph with
      edgesTruncated := graph.edgesTruncated || mesh.set.capped
      errors :=
        if 0 < mesh.stats.unresolvedSources ∨ 0 < mesh.stats.unresolvedDests then
          graph.errors.insert "mesh.unresolvedHosts" (unresolvedHosts mesh.stats)
        else graph.errors
      edges := graph.edges ++ mesh.set.edges }

namespace Builder

variable (b : Builder)

/-- `quoted` is `%q`. -/
def applyOverlay (quoted : String → String) (overlay : String) (pods : List Pod) (s : Build) :
    Except String Graph :=
  if overlay = "" then .ok s.graph
  else if overlay = "mesh" then .ok (applyMeshOverlay rt can ns b.meshProvider s)
  else if overlay = "eso-chain" then .ok (applyESOChainOverlay rt can ns b.esoChainProvider pods s)
  else .error ("unsupported overlay: " ++ quoted overlay)

def buildNamespaceGraphWithOverlay (quoted : String → String) (overlay : String) : Except String Graph :=
  let inv := b.lister.inventory can ns
  b.applyOverlay rt can ns quoted overlay inv.pods (buildBase rt inv)

def buildNamespaceGraph (quoted : String → String) : Except String Graph :=
  b.buildNamespaceGraphWithOverlay rt can ns quoted ""

end Builder

end

end KubeCenter.Topology
