import KubeCenter.Core.GoMap
import KubeCenter.Core.GoString
import KubeCenter.Diagnostics.Blast
import KubeCenter.Notifications.Store

/-! The diagnostic rules and the targets they are run on. -/

namespace KubeCenter.Diagnostics

open KubeCenter.Core

/-! The objects of a namespace, with the fields that the rules and the resolution read. -/

structure OwnerReference where
  kind : String
  name : String

inductive PodPhase
  | pending
  | running
  | other (phase : String)
  deriving DecidableEq

/-- A container status; `waiting` is the reason in a state that is waiting. -/
structure ContainerStatus where
  image : String := ""
  restartCount : Int32 := 0
  waiting : Option String := none

structure PodCondition where
  type : String
  status : String
  message : String := ""

structure Pod where
  name : String
  labels : GoMap String String := ∅
  ownerReferences : List OwnerReference := []
  deletionTimestamp : Option ℤ := none
  phase : PodPhase := .running
  conditions : List PodCondition := []
  containerStatuses : List ContainerStatus := []
  initContainerStatuses : List ContainerStatus := []

structure ReplicaSet where
  name : String
  ownerReferences : List OwnerReference := []

/-- A Deployment or a StatefulSet. -/
structure Workload where
  name : String
  replicas : Option Int32 := none
  readyReplicas : Int32 := 0

structure DaemonSet where
  name : String
  desiredNumberScheduled : Int32 := 0
  numberReady : Int32 := 0

structure Service where
  name : String
  selector : GoMap String String := ∅

structure PersistentVolumeClaim where
  name : String
  phase : String
  storageClassName : Option String := none
  requestedStorage : Option String := none

/-- The kinds that `kindToResource` knows. -/
inductive Kind
  | deployment
  | statefulSet
  | daemonSet
  | pod
  | service
  | persistentVolumeClaim
  deriving DecidableEq

namespace Kind

def name : Kind → String
  | deployment => "Deployment"
  | statefulSet => "StatefulSet"
  | daemonSet => "DaemonSet"
  | pod => "Pod"
  | service => "Service"
  | persistentVolumeClaim => "PersistentVolumeClaim"

def resource : Kind → String
  | deployment => "deployments"
  | statefulSet => "statefulsets"
  | daemonSet => "daemonsets"
  | pod => "pods"
  | service => "services"
  | persistentVolumeClaim => "persistentvolumeclaims"

def all : List Kind := [deployment, statefulSet, daemonSet, pod, service, persistentVolumeClaim]

def ofName (kind : String) : Option Kind := all.find? fun k ↦ k.name = kind

end Kind

inductive Object
  | deployment (deployment : Workload)
  | statefulSet (statefulSet : Workload)
  | daemonSet (daemonSet : DaemonSet)
  | pod (pod : Pod)
  | service (service : Service)
  | persistentVolumeClaim (pvc : PersistentVolumeClaim)

/-- Events are never filled in. -/
structure DiagnosticTarget where
  kind : Kind
  name : String
  ns : String
  object : Object
  pods : List Pod := []

inductive Severity
  | critical
  | warning
  | info
  deriving DecidableEq

/-- A result is a verdict unless its status is another one. -/
inductive Status
  | pass
  | warn
  | fail
  | other (status : String)
  deriving DecidableEq

structure Link where
  label : String
  kind : String
  name : String
  deriving DecidableEq

/-- A rule leaves its name and its severity to the run. -/
structure Result where
  ruleName : String := ""
  status : Status
  severity : Severity := .info
  message : String
  detail : String := ""
  remediation : String := ""
  links : List Link := []
  deriving DecidableEq

/-- The order in which a loop over a map comes to its keys. -/
structure MapRange where
  keys : List String → List String
  perm : ∀ ks, (keys ks).Perm ks

def podLinks (names : List String) : List Link := names.map fun name ↦ { label := name, kind := "Pod", name }

/-! The rules. -/

def crashLooping (cs : ContainerStatus) : Bool := cs.waiting = some "CrashLoopBackOff"

/-- The affected pods and their restarts, after one more pod: a pod is named once, and of each of its two lists
the first container that crashes counts. -/
def crashLoopStep (found : List String × Int32) (pod : Pod) : List String × Int32 :=
  let found := match pod.containerStatuses.find? crashLooping with
    | some cs => (found.1 ++ [pod.name], found.2 + cs.restartCount)
    | none => found
  match pod.initContainerStatuses.find? crashLooping with
  | some cs => (if pod.name ∈ found.1 then found.1 else found.1 ++ [pod.name], found.2 + cs.restartCount)
  | none => found

def checkCrashLoop (target : DiagnosticTarget) : Result :=
  let (affectedPods, totalRestarts) := target.pods.foldl crashLoopStep ([], 0)
  if affectedPods = [] then { status := .pass, message := "No pods in CrashLoopBackOff" }
  else
    { status := .fail
      message := String.join [toString affectedPods.length, " pod(s) in CrashLoopBackOff with ", toString totalRestarts,
        " total restarts"]
      detail := "Affected pods: " ++ ", ".intercalate affectedPods
      remediation := "Check container logs for crash reason: kubectl logs <pod> --previous"
      links := podLinks affectedPods }

structure PullError where
  podName : String
  image : String
  reason : String

def pullError (podName : String) (cs : ContainerStatus) : Option PullError :=
  match cs.waiting with
  | some reason =>
    if reason = "ImagePullBackOff" ∨ reason = "ErrImagePull" then some { podName, image := cs.image, reason } else none
  | none => none

def pullErrors (pod : Pod) : List PullError :=
  pod.containerStatuses.filterMap (pullError pod.name) ++ pod.initContainerStatuses.filterMap (pullError pod.name)

def checkImagePull (range : MapRange) (target : DiagnosticTarget) : Result :=
  let errors := target.pods.flatMap pullErrors
  if errors = [] then { status := .pass, message := "No image pull errors" }
  else
    { status := .fail
      message := toString errors.length ++ " pod(s) with image pull errors"
      detail := "Failed images: " ++ ", ".intercalate (range.keys (errors.map PullError.image).dedup)
      remediation := "Verify the image exists and pull credentials are configured (imagePullSecrets)"
      links := podLinks (errors.map PullError.podName) }

def scheduleMessages (pod : Pod) : List String :=
  (pod.conditions.filter fun cond ↦ cond.type = "PodScheduled" ∧ cond.status = "False" ∧ cond.message ≠ "").map
    PodCondition.message

def checkPendingPod (target : DiagnosticTarget) : Result :=
  let pending := target.pods.filter fun pod ↦ pod.phase = .pending
  let pendingPods := pending.map Pod.name
  let messages := pending.flatMap scheduleMessages
  if pendingPods = [] then { status := .pass, message := "No pods in Pending state" }
  else
    { status := .fail
      message := toString pendingPods.length ++ " pod(s) stuck in Pending"
      detail := String.join ["Pending pods: ", ", ".intercalate pendingPods,
        if messages = [] then "" else "; Schedule reason: " ++ "; ".intercalate messages]
      remediation := "Check node resources, taints, and affinity rules"
      links := podLinks pendingPods }

/-- The desired and the ready replicas of an object that has them. -/
def replicaCounts : Object → Option (Int32 × Int32)
  | .deployment w => some (w.replicas.getD 1, w.readyReplicas)
  | .statefulSet w => some (w.replicas.getD 1, w.readyReplicas)
  | .daemonSet ds => some (ds.desiredNumberScheduled, ds.numberReady)
  | _ => none

/-- A name has nothing that `%q` escapes. -/
def checkReplicaMismatch (target : DiagnosticTarget) : Result :=
  match replicaCounts target.object with
  | none => { status := .pass, message := "ReplicaMismatch not applicable" }
  | some (desired, ready) =>
    if desired ≤ ready then
      { status := .pass
        message := String.join ["All replicas ready (", toString ready, "/", toString desired, ")"] }
    else
      { status := if ready = 0 ∧ 0 < desired then .fail else .warn
        message := String.join ["Replica mismatch: ", toString ready, "/", toString desired, " ready"]
        detail := String.join [target.kind.name, " \"", target.name, "\" has ", toString ready, " ready of ",
          toString desired, " desired replicas"]
        remediation := "Check pod events and resource quotas for scheduling failures" }

def checkZeroEndpoints (range : MapRange) (target : DiagnosticTarget) : Result :=
  match target.object with
  | .service svc =>
    if svc.selector.entries = [] then { status := .pass, message := "Service has no selector (external or headless)" }
    else if target.pods ≠ [] then
      { status := .pass, message := String.join ["Service has ", toString target.pods.length, " matching pod(s)"] }
    else
      { status := .warn
        message := "Service has zero matching pods"
        detail := "Selector: " ++ ", ".intercalate
          ((range.keys svc.selector.keys).map fun k ↦ String.join [k, "=", (svc.selector.lookup k).getD ""])
        remediation := "Verify pods match the service selector labels" }
  | _ => { status := .pass, message := "ZeroEndpoints not applicable" }

def checkPendingPVC (target : DiagnosticTarget) : Result :=
  match target.object with
  | .persistentVolumeClaim pvc =>
    if pvc.phase = "Bound" then { status := .pass, message := "PVC is bound" }
    else
      let storageClass := match pvc.storageClassName with
        | some name => if name ≠ "" then name else "<default>"
        | none => "<default>"
      { status := .warn
        message := String.join ["PVC is ", pvc.phase, " (not bound)"]
        detail := String.join ["StorageClass: ", storageClass, ", Requested: ", pvc.requestedStorage.getD "unknown"]
        remediation := "Check StorageClass provisioner status and available PersistentVolumes" }
  | _ => { status := .pass, message := "PendingPVC not applicable" }

structure RuleEntry where
  name : String
  severity : Severity
  appliesTo : List Kind
  check : DiagnosticTarget → Result

def podKinds : List Kind := [.deployment, .statefulSet, .daemonSet, .pod]

def rules (range : MapRange) : List RuleEntry :=
  [⟨"CrashLoopBackOff", .critical, podKinds, checkCrashLoop⟩,
    ⟨"ImagePullBackOff", .critical, podKinds, checkImagePull range⟩,
    ⟨"PendingPod", .critical, podKinds, checkPendingPod⟩,
    ⟨"ReplicaMismatch", .warning, [.deployment, .statefulSet, .daemonSet], checkReplicaMismatch⟩,
    ⟨"ZeroEndpoints", .warning, [.service], checkZeroEndpoints range⟩,
    ⟨"PendingPVC", .warning, [.persistentVolumeClaim], checkPendingPVC⟩]

def statusOrder : Status → ℕ
  | .fail => 0
  | .warn => 1
  | .pass => 2
  | .other _ => 3

/-- A check that ends: none of them waits or panics. -/
def runSafeCheck (rule : RuleEntry) (target : DiagnosticTarget) : Result :=
  { rule.check target with ruleName := rule.name, severity := rule.severity }

def runDiagnostics (range : MapRange) (target : DiagnosticTarget) : List Result :=
  (((rules range).filter fun rule ↦ target.kind ∈ rule.appliesTo).map fun rule ↦ runSafeCheck rule target).mergeSort
    fun a b ↦ statusOrder a.status ≤ statusOrder b.status

end KubeCenter.Diagnostics

/-! How the target of a diagnosis is resolved, and what the handler answers. -/

namespace KubeCenter.Diagnostics

open KubeCenter.Core
open KubeCenter.Topology (Graph)

/-- What a namespace has. -/
structure Content where
  deployments : List Workload := []
  statefulSets : List Workload := []
  daemonSets : List DaemonSet := []
  pods : List Pod := []
  services : List Service := []
  persistentVolumeClaims : List PersistentVolumeClaim := []
  replicaSets : List ReplicaSet := []

/-- The content as the calls of a lister give it; `failing` has the error of a call, by resource. -/
structure Lister where
  content : Content
  failing : String → Option String := fun _ ↦ none

namespace Lister

variable (l : Lister)

def list {α : Type} (resource : String) (items : Content → List α) : Except String (List α) :=
  match l.failing resource with
  | some err => .error err
  | none => .ok (items l.content)

def listPods : Except String (List Pod) := l.list "pods" Content.pods

def listReplicaSets : Except String (List ReplicaSet) := l.list "replicasets" Content.replicaSets

end Lister

/-- Which resolutions the user may have; no value means no gating. -/
structure RelatedRBAC where
  pods : Bool := false
  replicaSets : Bool := false

def allowsPods (related : Option RelatedRBAC) : Bool := related.all RelatedRBAC.pods

def allowsReplicaSets (related : Option RelatedRBAC) : Bool := related.all RelatedRBAC.replicaSets

def fetchObject (l : Lister) (kind : Kind) (name : String) : Except String (Option Object) :=
  match kind with
  | .deployment => do
    let items ← l.list kind.resource Content.deployments
    pure ((items.find? fun item ↦ item.name = name).map .deployment)
  | .statefulSet => do
    let items ← l.list kind.resource Content.statefulSets
    pure ((items.find? fun item ↦ item.name = name).map .statefulSet)
  | .daemonSet => do
    let items ← l.list kind.resource Content.daemonSets
    pure ((items.find? fun item ↦ item.name = name).map .daemonSet)
  | .pod => do
    let items ← l.listPods
    pure ((items.find? fun item ↦ item.name = name).map .pod)
  | .service => do
    let items ← l.list kind.resource Content.services
    pure ((items.find? fun item ↦ item.name = name).map .service)
  | .persistentVolumeClaim => do
    let items ← l.list kind.resource Content.persistentVolumeClaims
    pure ((items.find? fun item ↦ item.name = name).map .persistentVolumeClaim)

def ownedBy (kind name : String) (refs : List OwnerReference) : Bool :=
  refs.any fun ref ↦ ref.kind = kind ∧ ref.name = name

/-- The Pods of a Deployment, by the names of its ReplicaSets. -/
def deploymentPods (name : String) (replicaSets : List ReplicaSet) (allPods : List Pod) : List Pod :=
  let rsNames := (replicaSets.filter fun rs ↦ ownedBy "Deployment" name rs.ownerReferences).map ReplicaSet.name
  allPods.filter fun p ↦ p.ownerReferences.any fun ref ↦ ref.kind = "ReplicaSet" ∧ ref.name ∈ rsNames

/-- `labels.Set.AsSelector`, of a selector that has entries. -/
def selects (selector : GoMap String String) (labels : GoMap String String) : Bool :=
  selector.entries.all fun e ↦ labels.lookup e.1 = some e.2

def servicePods (obj : Object) (allPods : List Pod) : List Pod :=
  match obj with
  | .service svc => if svc.selector.entries = [] then [] else allPods.filter fun p ↦ selects svc.selector p.labels
  | _ => []

def resolveRelatedPods (l : Lister) (kind : Kind) (name : String) (obj : Object) (related : Option RelatedRBAC) :
    Except String (List Pod) := do
  let allPods ← l.listPods
  match kind with
  | .pod => pure (allPods.find? fun p ↦ p.name = name).toList
  | .deployment =>
    if allowsReplicaSets related then
      let replicaSets ← l.listReplicaSets
      pure (deploymentPods name replicaSets allPods)
    else pure []
  | .statefulSet => pure (allPods.filter fun p ↦ ownedBy kind.name name p.ownerReferences)
  | .daemonSet => pure (allPods.filter fun p ↦ ownedBy kind.name name p.ownerReferences)
  | .service => pure (servicePods obj allPods)
  | .persistentVolumeClaim => pure []

/-- `l` serves the fetch of the target, `l'` the calls after it. A failed resolution leaves no pods. -/
def resolve (l l' : Lister) (ns : String) (kind : Kind) (name : String) (related : Option RelatedRBAC) :
    Except String DiagnosticTarget :=
  match fetchObject l kind name with
  | .error err => .error (String.join ["fetching ", kind.name, "/", name, ": ", err])
  | .ok none => .error (String.join [kind.name, " \"", name, "\" not found in namespace \"", ns, "\""])
  | .ok (some object) =>
    let pods := if allowsPods related then (resolveRelatedPods l' kind name object related).toOption.getD [] else []
    .ok { kind, name, ns, object, pods }

def kindNeedsReplicaSets (kind : Kind) : Bool := kind = .deployment

def kindNeedsPods (kind : Kind) : Bool := kind ∈ [.deployment, .statefulSet, .daemonSet, .pod, .service]

/-- A request with what the server and the cluster answer to it: `canAccess` the check of the target's resource,
`canAccessRelated` those after it, `listed` and `listedRelated` the calls, `graph` the topology where it is built. -/
structure Request where
  ns : String
  kind : String
  name : String
  authenticated : Bool := true
  content : Content
  canAccess : String → Except String Bool := fun _ ↦ .ok true
  canAccessRelated : String → Except String Bool := fun _ ↦ .ok true
  failing : String → Option String := fun _ ↦ none
  failingRelated : String → Option String := fun _ ↦ none
  graph : Option (Except String Graph) := none
  range : MapRange

/-- A check that fails is a denial. -/
def allowed (answer : Except String Bool) : Bool := answer.toOption.getD false

def resolveRelatedRBAC (canAccess : String → Except String Bool) (kind : Kind) : RelatedRBAC where
  pods := kindNeedsPods kind && allowed (canAccess "pods")
  replicaSets := kindNeedsReplicaSets kind && allowed (canAccess "replicasets")

def findNodeID (graph : Graph) (kind name : String) : String :=
  match graph.nodes.find? fun node ↦ node.kind = kind ∧ node.name = name with
  | some node => node.id
  | none => ""

def blastRadius (graph : Option (Except String Graph)) (kind name : String) : BlastResult :=
  match graph with
  | some (.ok graph) =>
    let targetID := findNodeID graph kind name
    if targetID = "" then {} else (computeBlastRadius (some graph) targetID).getD {}
  | _ => {}

def notification (ns kind name : String) (result : Result) : Notifications.Notification where
  source := .diagnostic
  severity := if result.severity = .critical then .critical else .warning
  title := String.join [result.ruleName, ": ", name]
  message := result.message
  resourceKind := kind
  resourceNS := ns
  resourceName := name

inductive Response
  | error (code : ℕ) (message : String)
  | diagnostics (kind name ns : String) (results : List Result) (blastRadius : BlastResult)

/-- The texts of Go errors that a search finds. -/
def contains (s part : String) : Bool := (Core.before part.toList s.toList).isSome

/-- The answer and the notifications emitted before it. -/
def handleDiagnostics (req : Request) : Response × List Notifications.Notification :=
  if !req.authenticated then (.error 401 "unauthorized", [])
  else match Kind.ofName req.kind with
    | none => (.error 400 "unsupported resource kind", [])
    | some kind => match req.canAccess kind.resource with
      | .error _ => (.error 500 "permission check failed", [])
      | .ok false => (.error 403 "insufficient permissions", [])
      | .ok true =>
        let related := resolveRelatedRBAC req.canAccessRelated kind
        match resolve ⟨req.content, req.failing⟩ ⟨req.content, req.failingRelated⟩ req.ns kind req.name (some related) with
        | .error err =>
          if contains err "not found" then (.error 404 err, []) else (.error 500 "failed to resolve resource", [])
        | .ok target =>
          let results := runDiagnostics req.range target
          (.diagnostics req.kind req.name req.ns results (blastRadius req.graph req.kind req.name),
            (results.filter fun result ↦ result.status = .fail).map (notification req.ns req.kind req.name))

end KubeCenter.Diagnostics
