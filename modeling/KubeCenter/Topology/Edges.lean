import KubeCenter.Core.FirstDistinct
import KubeCenter.Core.GoString
import KubeCenter.Topology.Types

namespace KubeCenter.Topology

open KubeCenter.Core

/-- `nodeMap`: of several nodes with one ID the last. -/
def nodeMap (nodes : List Node) (id : String) : Option Node := nodes.reverse.find? (fun n ↦ n.id = id)

theorem nodeMap_isSome_iff {nodes : List Node} {id : String} : (nodeMap nodes id).isSome ↔ id ∈ nodes.map Node.id := by
  unfold nodeMap
  rw [List.find?_isSome]
  simp

/-! ## Edges -/

def ownerEdge (nodes : List Node) (childUID : String) (refs : List OwnerReference) : List Edge :=
  refs.filterMap (fun ref ↦
    if (nodeMap nodes ref.uid).isSome && (nodeMap nodes childUID).isSome then some ⟨ref.uid, childUID, .owner⟩
    else none)

def buildOwnerEdges (pods : List Pod) (replicaSets : List ReplicaSet) (jobs : List Job)
    (nodes : List Node) : List Edge :=
  pods.flatMap (fun pod ↦ ownerEdge nodes pod.uid pod.ownerRefs) ++
    replicaSets.flatMap (fun rs ↦ ownerEdge nodes rs.uid rs.ownerRefs) ++
    jobs.flatMap (fun job ↦ ownerEdge nodes job.uid job.ownerRefs)

def buildServiceSelectorEdges (rt : Runtime) (services : List Service) (pods : List Pod)
    (nodes : List Node) : List Edge :=
  services.flatMap (fun svc ↦
    if svc.selector.entries.isEmpty || (nodeMap nodes svc.uid).isNone then []
    else pods.filterMap (fun pod ↦
      if (nodeMap nodes pod.uid).isSome && rt.selects svc.selector pod.labels then
        some ⟨svc.uid, pod.uid, .selector⟩
      else none))

def IngressBackend.svcUID (nameIndex : GoMap String String) (backend : IngressBackend) : Option String :=
  backend.service.bind (fun name ↦ nameIndex.lookup ("Service/" ++ name))

/-- The default backend, then the paths of the rules. -/
def Ingress.backends (ing : Ingress) : List IngressBackend :=
  ing.defaultBackend.toList ++ (ing.rules.filterMap IngressRule.http).flatten

/-- The calls of `addEdge`, in order. -/
def ingressLinks (ingresses : List Ingress) (nameIndex : GoMap String String) : List Edge :=
  ingresses.flatMap (fun ing ↦
    ing.backends.filterMap (fun backend ↦
      (backend.svcUID nameIndex).map (fun svcUID ↦ ⟨ing.uid, svcUID, .ingress⟩)))

def Edge.pairKey (e : Edge) : String := e.source ++ "->" ++ e.target

def buildIngressEdges (ingresses : List Ingress) (nameIndex : GoMap String String) : List Edge :=
  distinctBy Edge.pairKey (ingressLinks ingresses nameIndex)

def mountEdge (nameIndex : GoMap String String) (podUID kind : String) (name : Option String) : Option Edge :=
  (name.bind (fun name ↦ nameIndex.lookup (kind ++ "/" ++ name))).map (fun uid ↦ ⟨podUID, uid, .mount⟩)

def buildMountEdges (pods : List Pod) (nameIndex : GoMap String String) : List Edge :=
  pods.flatMap (fun pod ↦ pod.volumes.flatMap (fun vol ↦
    (mountEdge nameIndex pod.uid "ConfigMap" vol.configMap).toList ++
    (mountEdge nameIndex pod.uid "Secret" vol.secret).toList ++
    (mountEdge nameIndex pod.uid "PersistentVolumeClaim" vol.persistentVolumeClaim).toList))

def ScaleTargetRef.key (ref : ScaleTargetRef) : String := ref.kind ++ "/" ++ ref.name

def buildHPAEdges (hpas : List HorizontalPodAutoscaler) (nameIndex : GoMap String String) : List Edge :=
  hpas.filterMap (fun hpa ↦
    (nameIndex.lookup hpa.scaleTargetRef.key).map (fun targetUID ↦ ⟨hpa.uid, targetUID, .selector⟩))

/-- The edges an overlay has drawn; `capped` ends its loops. -/
structure EdgeSet where
  edges : List Edge := []
  capped : Bool := false

def Edge.key (e : Edge) : String := e.source ++ "->" ++ e.target ++ "/" ++ e.type.text

/-- The overlays' `add`. Its `seen` holds the keys of the edges drawn. -/
def EdgeSet.add (maxEdges : ℕ) (s : EdgeSet) (e : Edge) : EdgeSet :=
  if s.capped then s
  else if e.source = "" ∨ e.target = "" then s
  else if e.key ∈ s.edges.map Edge.key then s
  else if 0 < maxEdges ∧ maxEdges ≤ s.edges.length then { s with capped := true }
  else { s with edges := s.edges ++ [e] }

/-! ## Health propagation -/

def childrenOf (edges : List Edge) : GoMap String (List String) :=
  (edges.filter (fun e ↦ e.type ≠ .mount ∧ e.type ≠ .ingress)).foldl
    (fun children e ↦ children.insert e.source ((children.lookup e.source).getD [] ++ [e.target])) ∅

/-- The health the children would give their parent, where they give it one. -/
def newHealth (nodes : List Node) (childIDs : List String) : Option Health :=
  let found := childIDs.filterMap (fun id ↦ (nodeMap nodes id).map Node.health)
  let anyFailing := decide (Health.failing ∈ found)
  let anyDegraded := decide (Health.degraded ∈ found)
  let allFailing := found.all (fun h ↦ h = .failing ∨ h = .degraded)
  if allFailing && anyFailing then some .failing
  else if anyFailing || anyDegraded then some .degraded
  else none

/-- Writes through the pointer that `nodeMap` holds for the ID. -/
def setHealth (id : String) (h : Health) : List Node → List Node
  | [] => []
  | n :: nodes =>
    if n.id = id ∧ id ∉ nodes.map Node.id then { n with health := h } :: nodes
    else n :: setHealth id h nodes

def propagateTo (children : GoMap String (List String)) (s : List Node × Bool) (parentID : String) :
    List Node × Bool :=
  match nodeMap s.1 parentID with
  | none => s
  | some parent =>
    match newHealth s.1 ((children.lookup parentID).getD []) with
    | none => s
    | some h =>
      if healthSeverity parent.health < healthSeverity h then (setHealth parentID h s.1, true) else s

/-- The loop with `left` iterations to go. -/
def propagateFrom (rt : Runtime) (children : GoMap String (List String)) : ℕ → List Node → List Node
  | 0, nodes => nodes
  | left + 1, nodes =>
    let s := (rt.parents left children.keys).foldl (propagateTo children) (nodes, false)
    if s.2 then propagateFrom rt children left s.1 else s.1

def propagateHealth (rt : Runtime) (nodes : List Node) (edges : List Edge) : List Node :=
  propagateFrom rt (childrenOf edges) 10 nodes

end KubeCenter.Topology

namespace KubeCenter.Topology

open KubeCenter.Core

def meshKindDispatch : List (String × String × String) :=
  [("istio/VirtualService", "networking.istio.io", "virtualservices"),
    ("istio/DestinationRule", "networking.istio.io", "destinationrules"),
    ("istio/Gateway", "networking.istio.io", "gateways"),
    ("istio/PeerAuthentication", "security.istio.io", "peerauthentications"),
    ("istio/AuthorizationPolicy", "security.istio.io", "authorizationpolicies"),
    ("linkerd/ServiceProfile", "linkerd.io", "serviceprofiles"),
    ("linkerd/Server", "policy.linkerd.io", "servers"),
    ("linkerd/HTTPRoute", "policy.linkerd.io", "httproutes"),
    ("linkerd/AuthorizationPolicy", "policy.linkerd.io", "authorizationpolicies"),
    ("linkerd/MeshTLSAuthentication", "policy.linkerd.io", "meshtlsauthentications")]

/-- The API group and the resource of a route's CRD. -/
def meshKindForRoute (r : TrafficRoute) : Option (String × String) :=
  meshKindDispatch.lookup (r.mesh.text ++ "/" ++ r.kind)

def overlayEmitsEdgesFor (r : TrafficRoute) : Bool :=
  match r.mesh with
  | .istio => r.kind = "VirtualService"
  | .linkerd => r.kind = "ServiceProfile"
  | _ => false

/-- A host without the cluster domain: `name`, or `name.namespace`. -/
def bareHost (rt : Runtime) (host : String) : List Char :=
  let bare := host.toList.map rt.toLower
  match before ".svc.".toList bare with
  | some bare => bare
  | none => if ".svc".toList.isSuffixOf bare then bare.dropLast.dropLast.dropLast.dropLast else bare

def resolveServiceHost (rt : Runtime) (host ns : String) (nameIndex : GoMap String String) : Option String :=
  if host = "" ∨ ns = "" then none
  else match (bareHost rt host).splitOn '.' with
    | [name] => nameIndex.lookup ("Service/" ++ String.ofList name)
    | [name, hostNs] =>
      if String.ofList hostNs ≠ ns then none else nameIndex.lookup ("Service/" ++ String.ofList name)
    | _ => none

example : resolveServiceHost inOrder "Web.shop.svc.k8s.example.com" "shop" (AList.insert "Service/web" "svc-1" ∅) =
    some "svc-1" := by decide

structure MeshEdgeStats where
  considered : ℕ := 0
  unresolvedSources : ℕ := 0
  unresolvedDests : ℕ := 0

/-- `set.capped` is the `Truncated` of the statistics. -/
structure MeshState where
  set : EdgeSet := {}
  stats : MeshEdgeStats := {}

/-- The type of the edges a route draws, where it draws any. -/
def meshEdgeType (r : TrafficRoute) : Option EdgeType :=
  match r.mesh with
  | .istio => if r.kind = "VirtualService" then some .meshVS else none
  | .linkerd => if r.kind = "ServiceProfile" then some .meshSP else none
  | _ => none

section

variable (rt : Runtime) (ns : String) (nameIndex : GoMap String String) (maxEdges : ℕ)

def meshDestination (sourceUID : String) (edgeType : EdgeType) (s : MeshState) (dest : RouteDestination) :
    MeshState :=
  if s.set.capped then s
  else match resolveServiceHost rt dest.host ns nameIndex with
    | none => { s with stats.unresolvedDests := s.stats.unresolvedDests + 1 }
    | some targetUID => { s with set := s.set.add maxEdges ⟨sourceUID, targetUID, edgeType⟩ }

def meshRoute (s : MeshState) (r : TrafficRoute) : MeshState :=
  if s.set.capped then s
  else if r.ns ≠ ns then s
  else match meshEdgeType r with
    | none => s
    | some edgeType =>
      let s := { s with stats.considered := s.stats.considered + 1 }
      let sourceUID := (r.hosts.findSome? (fun host ↦ resolveServiceHost rt host ns nameIndex)).getD ""
      if sourceUID = "" then { s with stats.unresolvedSources := s.stats.unresolvedSources + 1 }
      else r.destinations.foldl (meshDestination rt ns nameIndex maxEdges sourceUID edgeType) s

def buildMeshEdges (routes : List TrafficRoute) : MeshState :=
  if ns = "" then {} else routes.foldl (meshRoute rt ns nameIndex maxEdges) {}

end

end KubeCenter.Topology

namespace KubeCenter.Topology

open KubeCenter.Core

structure ESOChainAccess where
  stores : Bool
  clusterStores : Bool
  secrets : Bool
  pods : Bool

/-! ## The Secrets that pods and stores name -/

def Container.secretNames (c : Container) : List String := c.envFrom.reduceOption ++ c.env.reduceOption

def Pod.secretNames (pod : Pod) : List String :=
  (pod.imagePullSecrets ++ pod.volumes.filterMap Volume.secret ++
    pod.initContainers.flatMap Container.secretNames ++ pod.containers.flatMap Container.secretNames ++
    pod.ephemeralContainers.flatMap Container.secretNames).filter (· ≠ "")

structure PodRef where
  name : String
  uid : String

/-- The entry of `indexPodSecretConsumers` for one Secret. -/
def secretConsumers (pods : List Pod) (secretName : String) : List PodRef :=
  pods.flatMap (fun pod ↦ (pod.secretNames.filter (· = secretName)).map (fun _ ↦ ⟨pod.name, pod.uid⟩))

def looksLikeSecretRef (rt : Runtime) (fields : List (String × SpecValue)) : Bool :=
  fields.any (fun field ↦
    let k := field.1.toList.map rt.toLower
    k = "key".toList ∨ k = "secretkey".toList ∨ k = "secretref".toList ∨ (before "secret".toList k).isSome)

/-- The Secret a map refers to. -/
def secretRef (rt : Runtime) (fields : List (String × SpecValue)) : Option String :=
  match fields.lookup "name" with
  | some (.text name) => if name ≠ "" ∧ looksLikeSecretRef rt fields then some name else none
  | _ => none

mutual

def walk (rt : Runtime) : SpecValue → List String
  | .map fields => (secretRef rt fields).toList ++ walkFields rt fields
  | .list items => walkItems rt items
  | _ => []

def walkFields (rt : Runtime) : List (String × SpecValue) → List String
  | [] => []
  | (_, child) :: fields => walk rt child ++ walkFields rt fields

def walkItems (rt : Runtime) : List SpecValue → List String
  | [] => []
  | child :: items => walk rt child ++ walkItems rt items

end

/-- The names in the order the maps list their fields; `range` permutes it. -/
def authSecretNames (rt : Runtime) (providerSpec : List (String × SpecValue)) : List String :=
  distinctBy id (walk rt (.map providerSpec))

example : authSecretNames inOrder
    [("auth", .map [("tokenSecretRef", .map [("name", .text "vault-token"), ("key", .text "token")])])] =
      ["vault-token"] := by decide

def storeAuthNames (rt : Runtime) (pass : ESOPass) (store : ESOChainStore) : List String :=
  rt.authNames pass store (authSecretNames rt store.providerSpec)

/-! ## Edges -/

def secretNodeID (ns name : String) : String := "core/Secret/" ++ ns ++ "/" ++ name

def storesByKey (ns : String) (stores : List ESOChainStore) : GoMap String ESOChainStore :=
  GoMap.indexBy (fun store ↦ store.ns ++ "/" ++ store.name) id (stores.filter (fun store ↦ store.ns = ns))

def clusterStoresByName (stores : List ESOChainStore) : GoMap String ESOChainStore :=
  GoMap.indexBy ESOChainStore.name id stores

def resolveESOStore (snapshot : ESOChainSnapshot) (ns : String) (access : ESOChainAccess)
    (es : ESOChainExternalSecret) : Option ESOChainStore :=
  if es.storeRefKind = "" ∨ es.storeRefKind = "SecretStore" then
    if access.stores then
      ((storesByKey ns snapshot.stores).lookup (ns ++ "/" ++ es.storeRefName)).filter (fun store ↦ store.uid ≠ "")
    else none
  else if es.storeRefKind = "ClusterSecretStore" then
    if access.clusterStores then
      ((clusterStoresByName snapshot.clusterStores).lookup es.storeRefName).filter (fun store ↦ store.uid ≠ "")
    else none
  else none

section

variable (rt : Runtime) (snapshot : ESOChainSnapshot) (ns : String) (nameIndex : GoMap String String)
  (pods : List Pod) (access : ESOChainAccess)

def storeLinks (es : ESOChainExternalSecret) (store : ESOChainStore) : List Edge :=
  (if access.secrets then
    (storeAuthNames rt .edges store).map (fun authName ↦ ⟨secretNodeID ns authName, store.uid, .esoAuth⟩)
  else []) ++ [⟨store.uid, es.uid, .esoSync⟩]

def consumerLinks (es : ESOChainExternalSecret) : List Edge :=
  ((secretConsumers pods es.targetSecretName).filter (fun pod ↦ (nameIndex.lookup ("Pod/" ++ pod.name)).isSome)).map
    (fun pod ↦ ⟨secretNodeID ns es.targetSecretName, pod.uid, .esoConsumer⟩)

/-- The calls of `add` for one ExternalSecret, in order. -/
def chainLinks (es : ESOChainExternalSecret) : List Edge :=
  ((resolveESOStore snapshot ns access es).toList.flatMap (storeLinks rt ns access es)) ++
    if access.secrets ∧ es.targetSecretName ≠ "" then
      ⟨es.uid, secretNodeID ns es.targetSecretName, .esoSync⟩ ::
        if access.pods then consumerLinks ns nameIndex pods es else []
    else []

/-- The ExternalSecrets that both loops go over. -/
def namespaceSecrets : List ESOChainExternalSecret :=
  snapshot.externalSecrets.filter (fun es ↦ es.ns = ns ∧ es.uid ≠ "")

def esoChainLinks : List Edge :=
  (namespaceSecrets snapshot ns).flatMap (chainLinks rt snapshot ns nameIndex pods access)

def buildESOChainEdges (maxEdges : ℕ) : EdgeSet :=
  if ns = "" then {}
  else (esoChainLinks rt snapshot ns nameIndex pods access).foldl (EdgeSet.add maxEdges) {}

/-! ## Nodes -/

def esoStatusHealth (status : String) : Health :=
  if status = "Synced" then .healthy
  else if status = "SyncFailed" then .failing
  else if status ∈ ["Refreshing", "Stale", "Drifted"] then .degraded
  else .unknown

def compactSummary (left right : String) : String :=
  let left := trimFunc (· = '/') left
  let right := trimFunc isSpace right
  if left = "" ∧ right = "" then ""
  else if left = "" then right
  else if right = "" then left
  else left ++ ", " ++ right

def secretNodes (name : String) : List Node :=
  if ns = "" ∨ name = "" then []
  else [⟨secretNodeID ns name, "Secret", name, ns, .unknown, "secret reference"⟩]

/-- A store's node and those of the Secrets it authenticates with. -/
def storeNodes (kind nodeNs : String) (store : ESOChainStore) : List Node :=
  ⟨store.uid, kind, store.name, nodeNs, esoStatusHealth store.status, compactSummary store.provider store.status⟩ ::
    if access.secrets then (storeAuthNames rt .nodes store).flatMap (secretNodes ns) else []

def externalSecretNodes (es : ESOChainExternalSecret) : List Node :=
  ⟨es.uid, "ExternalSecret", es.name, es.ns, esoStatusHealth es.status,
    compactSummary (es.storeRefKind ++ "/" ++ es.storeRefName) es.status⟩ ::
    if access.secrets ∧ es.targetSecretName ≠ "" then secretNodes ns es.targetSecretName else []

/-- The calls of `addNode`, in order. -/
def esoChainNodes : List Node :=
  (if access.stores then
    (snapshot.stores.filter (fun store ↦ store.ns = ns)).flatMap
      (fun store ↦ storeNodes rt ns access "SecretStore" store.ns store)
  else []) ++
  (if access.clusterStores then snapshot.clusterStores.flatMap (storeNodes rt ns access "ClusterSecretStore" "")
  else []) ++
  (namespaceSecrets snapshot ns).flatMap (externalSecretNodes ns access)

end

end KubeCenter.Topology
