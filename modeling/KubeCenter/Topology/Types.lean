import Mathlib.Data.Int.Notation
import KubeCenter.Core.GoMap

/-! The namespace's resources as the graph builder reads them, and the graph it draws. -/

namespace KubeCenter.Topology

open KubeCenter.Core

inductive Health
  | healthy | degraded | failing | unknown
  deriving DecidableEq

inductive EdgeType
  | owner | selector | mount | ingress | meshVS | meshSP | esoAuth | esoSync | esoConsumer
  deriving DecidableEq

def EdgeType.text : EdgeType → String
  | .owner => "owner"
  | .selector => "selector"
  | .mount => "mount"
  | .ingress => "ingress"
  | .meshVS => "mesh_vs"
  | .meshSP => "mesh_sp"
  | .esoAuth => "eso_auth"
  | .esoSync => "eso_sync"
  | .esoConsumer => "eso_consumer"

inductive Overlay
  | none | mesh | esoChain | unavailable
  deriving DecidableEq

structure Node where
  id : String
  kind : String
  name : String
  ns : String
  health : Health
  summary : String
  deriving DecidableEq

structure Edge where
  source : String
  target : String
  type : EdgeType
  deriving DecidableEq

/-- A graph without the time it was computed at. -/
structure Graph where
  nodes : List Node := []
  edges : List Edge := []
  truncated : Bool := false
  edgesTruncated : Bool := false
  overlay : Overlay := .none
  errors : GoMap String String := ∅

structure OwnerReference where
  uid : String

structure ObjectMeta where
  uid : String
  name : String
  ns : String
  ownerRefs : List OwnerReference := []

inductive PodPhase
  | pending | running | succeeded | failed | other
  deriving DecidableEq

structure ContainerStatus where
  /-- The reason, where the container is waiting. -/
  waiting : Option String := none
  ready : Bool

/-- The Secrets that a container's `envFrom` and `env` entries name, where they name one. -/
structure Container where
  envFrom : List (Option String) := []
  env : List (Option String) := []

/-- The names in a volume's sources, those that are set. -/
structure Volume where
  configMap : Option String := none
  secret : Option String := none
  persistentVolumeClaim : Option String := none

structure Pod extends ObjectMeta where
  labels : GoMap String String := ∅
  phase : PodPhase := .running
  containerStatuses : List ContainerStatus := []
  imagePullSecrets : List String := []
  volumes : List Volume := []
  initContainers : List Container := []
  containers : List Container := []
  ephemeralContainers : List Container := []

structure Service extends ObjectMeta where
  type : String := "ClusterIP"
  selector : GoMap String String := ∅

structure Deployment extends ObjectMeta where
  replicas : Option ℤ := none
  readyReplicas : ℤ := 0

structure ReplicaSet extends ObjectMeta where
  replicas : Option ℤ := none
  readyReplicas : ℤ := 0

structure StatefulSet extends ObjectMeta where
  replicas : Option ℤ := none
  readyReplicas : ℤ := 0

structure DaemonSet extends ObjectMeta where
  desiredNumberScheduled : ℤ := 0
  numberReady : ℤ := 0

structure Job extends ObjectMeta where
  succeeded : ℤ := 0
  failed : ℤ := 0
  active : ℤ := 0

structure CronJob extends ObjectMeta where
  schedule : String

/-- The Service a backend names, where it names one. -/
structure IngressBackend where
  service : Option String

/-- A rule without HTTP paths has `none`. -/
structure IngressRule where
  http : Option (List IngressBackend)

structure Ingress extends ObjectMeta where
  defaultBackend : Option IngressBackend := none
  rules : List IngressRule := []

structure ConfigMap extends ObjectMeta where
  data : GoMap String String := ∅

structure PersistentVolumeClaim extends ObjectMeta where
  phase : String := ""

structure ScaleTargetRef where
  kind : String
  name : String

structure HorizontalPodAutoscaler extends ObjectMeta where
  scaleTargetRef : ScaleTargetRef
  currentReplicas : ℤ := 0
  desiredReplicas : ℤ := 0

/-- A value decoded from JSON into `any`; numbers, booleans and null say nothing here. -/
inductive SpecValue
  | text (s : String)
  | map (fields : List (String × SpecValue))
  | list (items : List SpecValue)
  | other

structure ESOChainExternalSecret where
  ns : String
  name : String
  uid : String
  storeRefName : String := ""
  storeRefKind : String := ""
  targetSecretName : String := ""
  status : String := ""

structure ESOChainStore where
  ns : String := ""
  name : String
  uid : String
  provider : String := ""
  providerSpec : List (String × SpecValue) := []
  status : String := ""

structure ESOChainSnapshot where
  externalSecrets : List ESOChainExternalSecret := []
  stores : List ESOChainStore := []
  clusterStores : List ESOChainStore := []

inductive MeshType
  | none | istio | linkerd | both
  deriving DecidableEq

def MeshType.text : MeshType → String
  | .none => ""
  | .istio => "istio"
  | .linkerd => "linkerd"
  | .both => "both"

structure RouteDestination where
  host : String

structure TrafficRoute where
  mesh : MeshType
  kind : String
  ns : String
  hosts : List String
  destinations : List RouteDestination

/-- The two loops that walk a store's provider spec. -/
inductive ESOPass
  | edges | nodes

/-- What a build takes from outside: a label selector's match, the lower case of a rune, and
the order in which a `range` over a map visits it. -/
structure Runtime where
  selects : GoMap String String → GoMap String String → Bool
  toLower : Char → Char
  parents : ℕ → List String → List String
  parents_perm : ∀ n ids, (parents n ids).Perm ids
  authNames : ESOPass → ESOChainStore → List String → List String
  authNames_perm : ∀ pass store names, (authNames pass store names).Perm names

/-- A runtime that visits maps in the order of their entries. -/
def inOrder : Runtime where
  selects selector labels := selector.entries.all (fun e ↦ labels.lookup e.1 = some e.2)
  toLower := Char.toLower
  parents _ ids := ids
  parents_perm _ _ := .refl _
  authNames _ _ names := names
  authNames_perm _ _ _ := .refl _

/-! ## Health -/

def healthSeverity : Health → ℕ
  | .healthy => 0
  | .unknown => 1
  | .degraded => 2
  | .failing => 3

def outOf (ready total : ℤ) (what : String) : String :=
  toString ready ++ "/" ++ toString total ++ " " ++ what

def crashReason (cs : ContainerStatus) : Option String :=
  cs.waiting.filter (fun reason ↦ reason ∈ ["CrashLoopBackOff", "ImagePullBackOff", "ErrImagePull"])

def podHealth (pod : Pod) : Health × String :=
  match pod.phase with
  | .succeeded => (.healthy, "Completed")
  | .failed => (.failing, "Failed")
  | .pending => (.degraded, "Pending")
  | phase =>
    -- the first container in a crash loop ends the count
    match pod.containerStatuses.findSome? crashReason with
    | some reason => (.failing, reason)
    | none =>
      let allReady := pod.containerStatuses.all ContainerStatus.ready
      let summary := outOf (pod.containerStatuses.countP ContainerStatus.ready) pod.containers.length "ready"
      if allReady && phase = .running then (.healthy, summary) else (.degraded, summary)

/-- The Deployments', StatefulSets' and DaemonSets' rule. -/
def rolloutHealth (ready desired : ℤ) : Health × String :=
  let summary := outOf ready desired "ready"
  if ready = desired then (.healthy, summary)
  else if 0 < ready then (.degraded, summary)
  else (.failing, summary)

def deploymentHealth (dep : Deployment) : Health × String :=
  rolloutHealth dep.readyReplicas (dep.replicas.getD 1)

def replicaSetHealth (rs : ReplicaSet) : Health × String :=
  let desired := rs.replicas.getD 0
  let ready := rs.readyReplicas
  let health : Health :=
    if 0 < desired then
      if ready = 0 then .failing else if ready < desired then .degraded else .healthy
    else .healthy
  (health, outOf ready desired "ready")

def statefulSetHealth (sts : StatefulSet) : Health × String :=
  rolloutHealth sts.readyReplicas (sts.replicas.getD 1)

def daemonSetHealth (ds : DaemonSet) : Health × String :=
  rolloutHealth ds.numberReady ds.desiredNumberScheduled

def jobHealth (job : Job) : Health × String :=
  if 0 < job.succeeded then (.healthy, toString job.succeeded ++ " succeeded")
  else if 0 < job.failed then (.failing, toString job.failed ++ " failed")
  else (.unknown, toString job.active ++ " active")

def serviceHealth (svc : Service) : Health × String := (.healthy, "type=" ++ svc.type)

def cronJobHealth (cj : CronJob) : Health × String := (.healthy, "schedule=" ++ cj.schedule)

def ingressHealth (ing : Ingress) : Health × String :=
  (.healthy, toString (ing.rules.filterMap IngressRule.http).flatten.length ++ " rules")

def configMapHealth (cm : ConfigMap) : Health × String :=
  (.healthy, toString cm.data.entries.length ++ " keys")

def pvcHealth (pvc : PersistentVolumeClaim) : Health × String := (.healthy, "phase=" ++ pvc.phase)

def hpaHealth (hpa : HorizontalPodAutoscaler) : Health × String :=
  (.healthy, outOf hpa.currentReplicas hpa.desiredReplicas "replicas")

end KubeCenter.Topology
