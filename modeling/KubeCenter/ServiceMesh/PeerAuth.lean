import Mathlib.Data.String.Basic
import KubeCenter.Core.GoJson
import KubeCenter.Core.GoMap
import KubeCenter.Core.GoSlice

/-! The mTLS posture that PeerAuthentications give a pod. -/

namespace KubeCenter.ServiceMesh

open KubeCenter.Core

inductive MeshType
  | none
  | istio
  | linkerd
  | both
  deriving DecidableEq

inductive MTLSState
  | active
  | inactive
  | mixed
  | unmeshed
  deriving DecidableEq

inductive MTLSSource
  | policy
  | metric
  | default
  deriving DecidableEq

def istioMTLSStrict : String := "STRICT"

def istioMTLSUnset : String := "UNSET"

/-- The fields of a policy that the posture reads; `raw` is the object itself. -/
structure MeshedPolicy where
  mesh : MeshType
  kind : String
  name : String
  ns : String
  mtlsMode : String
  raw : Json

def normalizeIstioPeerAuth (obj : Json) : MeshedPolicy :=
  let mode := obj.nestedString ["spec", "mtls", "mode"]
  { mesh := .istio
    kind := "PeerAuthentication"
    name := obj.nestedString ["metadata", "name"]
    ns := obj.nestedString ["metadata", "namespace"]
    mtlsMode := if mode = "" then istioMTLSUnset else mode
    raw := obj }

structure PeerAuthRef where
  ns : String
  name : String
  mode : String
  selector : List (String × String)

/-- The reference a policy becomes; one that is no PeerAuthentication of Istio becomes none. -/
def peerAuthRef (p : MeshedPolicy) : Option PeerAuthRef :=
  if p.mesh ≠ .istio ∨ p.kind ≠ "PeerAuthentication" then none
  else some
    { ns := p.ns
      name := p.name
      mode := if p.mtlsMode = "" then istioMTLSUnset else p.mtlsMode
      selector := p.raw.nestedStringMap ["spec", "selector", "matchLabels"] }

def PeerAuthRef.less (a b : PeerAuthRef) : Bool :=
  if a.ns ≠ b.ns then a.ns < b.ns
  else if a.selector.isEmpty ≠ b.selector.isEmpty then !a.selector.isEmpty
  else a.name < b.name

def peerAuthsFromPolicies (policies : List MeshedPolicy) : List PeerAuthRef :=
  (policies.filterMap peerAuthRef).mergeSort (fun a b ↦ !b.less a)

structure OwnerReference where
  kind : String
  name : String
  controller : Option Bool := none
  deriving DecidableEq

structure Pod where
  ns : String
  name : String := ""
  ownerReferences : List OwnerReference := []
  labels : GoMap String String := ∅
  annotations : GoMap String String := ∅
  containers : List String := []

def PeerAuthRef.matches (pa : PeerAuthRef) (podLabels : GoMap String String) : Bool :=
  !pa.selector.isEmpty && pa.selector.all (fun e ↦ podLabels.lookup e.1 = some e.2)

/-- The loop of `resolveIstioMTLSMode`, with the namespace and the mesh policy found so far. -/
def resolveLoop (podLabels : GoMap String String) (podNS meshRootNS : String) :
    Option PeerAuthRef → Option PeerAuthRef → List PeerAuthRef → String × String
  | some pa, _, [] => (pa.mode, "namespace")
  | none, some pa, [] => (pa.mode, "mesh")
  | none, none, [] => (istioMTLSUnset, "")
  | namespacePA, meshPA, pa :: peerAuths =>
    if pa.ns = podNS ∧ pa.selector.isEmpty = false then
      if pa.matches podLabels then (pa.mode, "workload")
      else resolveLoop podLabels podNS meshRootNS namespacePA meshPA peerAuths
    else if pa.ns = podNS ∧ pa.selector.isEmpty then
      resolveLoop podLabels podNS meshRootNS (namespacePA.or (some pa)) meshPA peerAuths
    else if pa.ns = meshRootNS ∧ pa.selector.isEmpty then
      resolveLoop podLabels podNS meshRootNS namespacePA (meshPA.or (some pa)) peerAuths
    else resolveLoop podLabels podNS meshRootNS namespacePA meshPA peerAuths

def resolveIstioMTLSMode (podLabels : GoMap String String) (podNS meshRootNS : String)
    (peerAuths : List PeerAuthRef) : String × String :=
  resolveLoop podLabels podNS meshRootNS none none peerAuths

def modeToState (mode : String) : MTLSState :=
  if mode = istioMTLSStrict then .active else .inactive

def linkerdProxyAnnotation : String := "linkerd.io/proxy-version"

def istioMeshRootNamespace : String := "istio-system"

def linkerdPodState (pod : Pod) : MTLSState :=
  if (pod.annotations.lookup linkerdProxyAnnotation).isSome then .active else .unmeshed

def sidecarMesh (container : String) : Option MeshType :=
  if container = "istio-proxy" then some .istio
  else if container = "linkerd-proxy" then some .linkerd
  else none

def podMeshMembership (pod : Pod) : MeshType :=
  match pod.containers.findSome? sidecarMesh with
  | some mesh => mesh
  | none =>
    if (pod.annotations.lookup linkerdProxyAnnotation).isSome then .linkerd
    else if (pod.annotations.lookup "sidecar.istio.io/status").any (fun v ↦ v ≠ "") then .istio
    else .none

structure PodPosture where
  mesh : MeshType
  state : MTLSState
  source : MTLSSource
  istioMode : String := ""
  sourceDetail : String := ""

/-- One round of the loop of `computePodPostures`. -/
def podPosture (peerAuths : List PeerAuthRef) (pod : Pod) : PodPosture :=
  match podMeshMembership pod with
  | .istio =>
    let resolved := resolveIstioMTLSMode pod.labels pod.ns istioMeshRootNamespace peerAuths
    { mesh := .istio
      state := modeToState resolved.1
      source := if resolved.2 = "" then .default else .policy
      istioMode := resolved.1
      sourceDetail := resolved.2 }
  | .linkerd => { mesh := .linkerd, state := linkerdPodState pod, source := .policy }
  | mesh => { mesh, state := .unmeshed, source := .default }

def computePodPostures (pods : List Pod) (peerAuths : List PeerAuthRef) : List PodPosture :=
  pods.map (podPosture peerAuths)

end KubeCenter.ServiceMesh

/-! The workload a pod belongs to, and the posture of the workloads out of those of their pods. -/

namespace KubeCenter.ServiceMesh

open KubeCenter.Core

structure ReplicaSet where
  ns : String
  name : String
  ownerReferences : List OwnerReference := []

structure RsOwner where
  kind : String
  name : String
  deriving DecidableEq

/-- The controller owner of a ReplicaSet, where it has one. -/
def ReplicaSet.controller (rs : ReplicaSet) : Option RsOwner :=
  (rs.ownerReferences.find? (fun ref ↦ ref.controller = some true)).map (fun ref ↦ ⟨ref.kind, ref.name⟩)

def ReplicaSet.key (rs : ReplicaSet) : String := rs.ns ++ "/" ++ rs.name

def listReplicaSetControllers (items : List ReplicaSet) : GoMap String RsOwner :=
  GoMap.indexBy Prod.fst Prod.snd (items.filterMap (fun rs ↦ rs.controller.map (fun owner ↦ (rs.key, owner))))

def safeAlphabet : List Char := "bcdfghjklmnpqrstvwxz2456789".toList

def isReplicaSetHashSuffix (s : List Char) : Bool :=
  5 ≤ s.length && s.length ≤ 10 && s.all (fun c ↦ safeAlphabet.contains c)

/-- What stands before and after the last dash. -/
def cutLastDash : List Char → Option (List Char × List Char)
  | [] => none
  | c :: cs =>
    match cutLastDash cs with
    | some (before, after) => some (c :: before, after)
    | none => if c = '-' then some ([], cs) else none

/-- The name without its suffix, where the suffix could be a pod template's hash. -/
def heuristicDeployment (rsName : String) : Option String :=
  match cutLastDash rsName.toList with
  | none => none
  | some (before, after) => if before ≠ [] ∧ isReplicaSetHashSuffix after then some (String.ofList before) else none

structure Attribution where
  kind : String
  name : String
  confident : Bool
  deriving DecidableEq

/-- The answer of `workloadKey` at one owner reference; at one of another kind the loop goes on. -/
def ownerKey (podNS : String) (rsOwners : Option (GoMap String RsOwner)) (ref : OwnerReference) : Option Attribution :=
  if ref.kind = "ReplicaSet" then
    match rsOwners.bind (fun owners ↦ owners.lookup (podNS ++ "/" ++ ref.name)) with
    | some owner =>
      some (if owner.kind = "Deployment" then ⟨"Deployment", owner.name, true⟩ else ⟨"ReplicaSet", ref.name, true⟩)
    | none =>
      match heuristicDeployment ref.name with
      | some base => some ⟨"Deployment", base, false⟩
      | none => some ⟨"ReplicaSet", ref.name, false⟩
  else if ref.kind = "StatefulSet" ∨ ref.kind = "DaemonSet" ∨ ref.kind = "Job" ∨ ref.kind = "CronJob" then
    some ⟨ref.kind, ref.name, true⟩
  else none

/-- There is no map of ReplicaSets where they could not be listed. -/
def workloadKey (pod : Pod) (rsOwners : Option (GoMap String RsOwner)) : Attribution :=
  (pod.ownerReferences.findSome? (ownerKey pod.ns rsOwners)).getD ⟨"Pod", pod.name, true⟩

/-- A pod's posture with the workload it counts for. -/
structure WorkloadPosture extends PodPosture where
  ns : String
  workloadKind : String
  workload : String
  workloadKindConfident : Bool

def workloadPosture (peerAuths : List PeerAuthRef) (rsOwners : Option (GoMap String RsOwner)) (pod : Pod) :
    WorkloadPosture :=
  let key := workloadKey pod rsOwners
  { podPosture peerAuths pod with
    ns := pod.ns
    workloadKind := key.kind
    workload := key.name
    workloadKindConfident := key.confident }

/-- `computePodPostures` with the workloads. -/
def computeWorkloadPostures (pods : List Pod) (peerAuths : List PeerAuthRef)
    (rsOwners : Option (GoMap String RsOwner)) : List WorkloadPosture :=
  pods.map (workloadPosture peerAuths rsOwners)

structure WorkloadMTLS where
  ns : String
  workload : String
  workloadKind : String
  mesh : MeshType
  state : MTLSState
  source : MTLSSource
  istioMode : String := ""
  sourceDetail : String := ""
  workloadKindConfident : Bool
  deriving DecidableEq

structure WorkloadKey where
  ns : String
  kind : String
  name : String
  deriving DecidableEq

def WorkloadPosture.key (pp : WorkloadPosture) : WorkloadKey := ⟨pp.ns, pp.workloadKind, pp.workload⟩

def WorkloadMTLS.key (w : WorkloadMTLS) : WorkloadKey := ⟨w.ns, w.workloadKind, w.workload⟩

def WorkloadPosture.row (first : WorkloadPosture) : WorkloadMTLS where
  ns := first.ns
  workload := first.workload
  workloadKind := first.workloadKind
  mesh := first.mesh
  state := first.state
  source := first.source
  istioMode := first.istioMode
  sourceDetail := first.sourceDetail
  workloadKindConfident := first.workloadKindConfident

def WorkloadMTLS.widen (agg : WorkloadMTLS) (m : WorkloadPosture) : WorkloadMTLS :=
  { agg with
    state := if m.state ≠ agg.state then .mixed else agg.state
    workloadKindConfident := if !m.workloadKindConfident then false else agg.workloadKindConfident }

def aggregateMembers : List WorkloadPosture → Option WorkloadMTLS
  | [] => none
  | first :: rest => some (rest.foldl WorkloadMTLS.widen first.row)

def WorkloadMTLS.less (a b : WorkloadMTLS) : Bool :=
  if a.ns ≠ b.ns then a.ns < b.ns else a.workload < b.workload

def aggregateWorkloads (slice : SliceSort WorkloadMTLS.less) (postures : List WorkloadPosture) : List WorkloadMTLS :=
  let groups := groupBy WorkloadPosture.key postures
  slice.sort (groups.order.filterMap (fun k ↦ aggregateMembers (groups.get k)))

end KubeCenter.ServiceMesh
