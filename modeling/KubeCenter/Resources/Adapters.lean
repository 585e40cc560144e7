import KubeCenter.Core.GoJsonCodec
import KubeCenter.Core.MergePatch
import KubeCenter.Core.Script
import KubeCenter.Resources.Tasks

/-! The resource adapters: how each kind is read from the informer cache and which calls its writes make. -/

namespace KubeCenter.Resources

open KubeCenter.Core

/-- A `StatusError` in the class that the first matching test of `mapK8sError` gives it. -/
inductive StatusClass
  | notFound
  | forbidden
  | alreadyExists
  | conflict
  | invalid
  | serviceUnavailable
  | other (code : ℕ)

inductive CallError
  | status (kind : StatusClass) (message : String)
  | other (err : String)

/-- `errReadOnly`, or what went wrong. -/
inductive AdapterError
  | readOnly
  | failed (err : CallError)

inductive KubeCall
  | create (resource ns : String) (obj : Json)
  | update (resource ns : String) (obj : Json)
  | delete (resource ns name : String) (propagation : Option String)
  | patch (resource ns name : String) (data : Text)
  | updateScale (resource ns name : String) (replicas : ℤ)
  | get (resource ns name : String)
  | list (resource ns labelSelector fieldSelector : String)
  | evict (ns name : String)

/-- An object; for a list its `items` are what was listed. -/
abbrev Reply := Except CallError Json

abbrev Script (α : Type) := Core.Script KubeCall Reply α

abbrev AdapterScript := Script (Except AdapterError Json)

abbrev Labels := List (String × String)

abbrev Selector := Labels → Bool

/-- The objects of the informer cache, by resource. -/
abbrev Informers := String → List Json

/-- The Kubernetes libraries. `typed` is `json.Unmarshal` into the struct of a resource, `parseSelector` is
`labels.Parse`, `notFound` the message of `NewNotFound`. -/
structure Apimachinery where
  typed : String → Bytes → Except String Json
  parseSelector : String → Except String Selector
  formatLabelSelector : Json → String
  notFound : String → String → String

def objectNamespace (obj : Json) : String := obj.nestedString ["metadata", "namespace"]

def objectName (obj : Json) : String := obj.nestedString ["metadata", "name"]

def objectLabels (obj : Json) : Labels := obj.nestedStringMap ["metadata", "labels"]

/-- `objectKey`, the sort key of a page. -/
def objectKey (obj : Json) : String :=
  if objectNamespace obj ≠ "" then objectNamespace obj ++ "/" ++ objectName obj else objectName obj

def withMeta (k v : String) (obj : Json) : Json :=
  .object (obj.fields.set "metadata" (.object ((((obj.fields.get "metadata").getD .null).fields).set k (.string v))))

def send (q : KubeCall) : AdapterScript := .call q (fun reply ↦ .done (reply.mapError .failed))

def listItems (list : Json) : List Json :=
  match list.nested ["items"] with
  | some (.array items) => items
  | _ => []

/-- What an adapter does. The capabilities are those it may lack: a script on the namespace, the name and the input. -/
structure Adapter where
  kind : String
  apiResource : String
  displayName : String
  clusterScoped : Bool
  /-- Whether its objects are in the informer cache. -/
  cached : Bool := true
  create : String → Bytes → AdapterScript := fun _ _ ↦ .done (.error .readOnly)
  update : String → String → Bytes → AdapterScript := fun _ _ _ ↦ .done (.error .readOnly)
  delete : String → String → AdapterScript := fun _ _ ↦ .done (.error .readOnly)
  scale : Option (String → String → ℤ → AdapterScript) := none
  restart : Option (String → String → AdapterScript) := none
  suspend : Option (String → String → Bool → AdapterScript) := none
  trigger : Option (String → String → AdapterScript) := none
  rollback : Option (String → String → ℤ → AdapterScript) := none

def errSecretsNotCached : String :=
  "secrets are not cached in the informer — use the dedicated secret handlers"

namespace Adapter

def listFromCache (a : Adapter) (inf : Informers) (ns : String) (sel : Selector) : Except CallError (List Json) :=
  if a.cached then
    let items := inf a.apiResource
    let items := if a.clusterScoped || ns = "" then items else items.filter (fun obj ↦ objectNamespace obj = ns)
    .ok (items.filter (fun obj ↦ sel (objectLabels obj)))
  else .error (.other errSecretsNotCached)

def getFromCache (a : Adapter) (lib : Apimachinery) (inf : Informers) (ns name : String) : Except CallError Json :=
  if a.cached then
    match (inf a.apiResource).find? (fun obj ↦
      objectName obj = name && (a.clusterScoped || objectNamespace obj = ns)) with
    | some obj => .ok obj
    | none => .error (.status .notFound (lib.notFound a.apiResource name))
  else .error (.other errSecretsNotCached)

end Adapter

/-- A merge patch as JSON text: one value under a path of keys. -/
def patchText (path : List String) (j : Json) : Text := (Json.atPath path j).encode

/-- `restartPatch`; `restartedAt` is the current time as text. -/
def restartPatch (restartedAt : String) : Text :=
  patchText ["spec", "template", "metadata", "annotations", "kubectl.kubernetes.io/restartedAt"] (.string restartedAt)

def updateScale (resource ns name : String) (replicas : ℤ) : AdapterScript :=
  send (.updateScale resource ns name replicas)

def restart (restartedAt resource ns name : String) : AdapterScript :=
  send (.patch resource ns name (restartPatch restartedAt))

def suspend (resource ns name : String) (suspend : Bool) : AdapterScript :=
  send (.patch resource ns name (patchText ["spec", "suspend"] (.bool suspend)))

/-- The Job that `Trigger` makes of a CronJob. A name is ASCII, so characters are bytes. -/
def triggeredJob (cronJob : Json) (ns name : String) : Json :=
  let template := ((cronJob.nested ["spec", "jobTemplate"]).getD .null)
  .object [
    ("metadata", .object [
      ("annotations", .object [("cronjob.kubernetes.io/instantiate", .string "manual")]),
      ("generateName", .string (String.ofList (name.toList.take 43) ++ "-manual-")),
      ("labels", .object ((template.nestedStringMap ["metadata", "labels"]).map (fun l ↦ (l.1, .string l.2)))),
      ("namespace", .string ns),
      ("ownerReferences", .array [.object [
        ("apiVersion", .string "batch/v1"), ("controller", .bool true), ("kind", .string "CronJob"),
        ("name", .string (objectName cronJob)), ("uid", .string (cronJob.nestedString ["metadata", "uid"]))]])]),
    ("spec", (template.nested ["spec"]).getD .null)]

def trigger (ns name : String) : AdapterScript :=
  .call (.get "cronjobs" ns name) fun
    | .error err => .done (.error (.failed err))
    | .ok cronJob => send (.create "jobs" ns (triggeredJob cronJob ns name))

def revisionAnnotation : List String := ["metadata", "annotations", "deployment.kubernetes.io/revision"]

def ownedBy (kind name : String) (obj : Json) : Bool :=
  match obj.nested ["metadata", "ownerReferences"] with
  | some (.array refs) => refs.any (fun ref ↦ ref.nestedString ["kind"] = kind && ref.nestedString ["name"] = name)
  | _ => false

/-- The ReplicaSet that holds the revision asked for. -/
def targetRS (rsList : Json) (name : String) (revision : ℤ) : Option Json :=
  (listItems rsList).find? (fun rs ↦
    rs.nestedString revisionAnnotation = toString revision && ownedBy "Deployment" name rs)

def rollback (lib : Apimachinery) (ns name : String) (revision : ℤ) : AdapterScript :=
  .call (.get "deployments" ns name) fun
    | .error err => .done (.error (.failed err))
    | .ok dep =>
      let selector := lib.formatLabelSelector ((dep.nested ["spec", "selector"]).getD .null)
      .call (.list "replicasets" ns selector "") fun
        | .error err => .done (.error (.failed err))
        | .ok rsList =>
          match targetRS rsList name revision with
          | none => .done (.error (.failed (.other
              ("revision " ++ toString revision ++ " not found for deployment " ++ name))))
          | some rs =>
            send (.patch "deployments" ns name
              (patchText ["spec", "template"] ((rs.nested ["spec", "template"]).getD .null)))

section Table

variable (lib : Apimachinery) (restartedAt : String)

def readOnlyAdapter (kind apiResource displayName : String) (clusterScoped : Bool) : Adapter :=
  { kind, apiResource, displayName, clusterScoped }

def createTyped (apiResource : String) (clusterScoped : Bool) (ns : String) (body : Bytes) : AdapterScript :=
  match lib.typed apiResource body with
  | .error err => .done (.error (.failed (.other err)))
  | .ok obj => send (.create apiResource ns (if clusterScoped then obj else withMeta "namespace" ns obj))

def updateTyped (apiResource : String) (clusterScoped : Bool) (ns name : String) (body : Bytes) : AdapterScript :=
  match lib.typed apiResource body with
  | .error err => .done (.error (.failed (.other err)))
  | .ok obj =>
    send (.update apiResource ns (withMeta "name" name (if clusterScoped then obj else withMeta "namespace" ns obj)))

def deleteNamed (apiResource : String) (ns name : String) : AdapterScript := send (.delete apiResource ns name none)

/-- An adapter that creates and deletes but does not update. -/
def createDeleteAdapter (kind apiResource displayName : String) (clusterScoped : Bool) : Adapter :=
  { readOnlyAdapter kind apiResource displayName clusterScoped with
    create := createTyped lib apiResource clusterScoped
    delete := deleteNamed apiResource }

def crudAdapter (kind apiResource displayName : String) (clusterScoped : Bool) : Adapter :=
  { createDeleteAdapter lib kind apiResource displayName clusterScoped with
    update := updateTyped lib apiResource clusterScoped }

def clusterRoleBindingAdapter := crudAdapter lib "clusterrolebindings" "clusterrolebindings" "ClusterRoleBinding" true
def clusterRoleAdapter := readOnlyAdapter "clusterroles" "clusterroles" "ClusterRole" true
def configMapAdapter := crudAdapter lib "configmaps" "configmaps" "ConfigMap" false

def cronJobAdapter : Adapter :=
  { createDeleteAdapter lib "cronjobs" "cronjobs" "CronJob" false with
    suspend := some (suspend "cronjobs")
    trigger := some trigger }

def daemonSetAdapter : Adapter :=
  { crudAdapter lib "daemonsets" "daemonsets" "DaemonSet" false with
    restart := some (restart restartedAt "daemonsets") }

def deploymentAdapter : Adapter :=
  { crudAdapter lib "deployments" "deployments" "Deployment" false with
    scale := some (updateScale "deployments")
    restart := some (restart restartedAt "deployments")
    rollback := some (rollback lib) }

def endpointsAdapter := readOnlyAdapter "endpoints" "endpoints" "Endpoints" false
def endpointSliceAdapter := readOnlyAdapter "endpointslices" "endpointslices" "EndpointSlice" false
def eventAdapter := readOnlyAdapter "events" "events" "Event" false
def hpaAdapter := crudAdapter lib "hpas" "horizontalpodautoscalers" "HorizontalPodAutoscaler" false
def ingressAdapter := crudAdapter lib "ingresses" "ingresses" "Ingress" false

def jobAdapter : Adapter :=
  { createDeleteAdapter lib "jobs" "jobs" "Job" false with
    delete := fun ns name ↦ send (.delete "jobs" ns name (some "Background"))
    suspend := some (suspend "jobs") }

def limitRangeAdapter := readOnlyAdapter "limitranges" "limitranges" "LimitRange" false
def namespaceAdapter := createDeleteAdapter lib "namespaces" "namespaces" "Namespace" true
def networkPolicyAdapter := crudAdapter lib "networkpolicies" "networkpolicies" "NetworkPolicy" false
def nodeAdapter := readOnlyAdapter "nodes" "nodes" "Node" true
def pdbAdapter := createDeleteAdapter lib "pdbs" "poddisruptionbudgets" "PodDisruptionBudget" false

def podAdapter : Adapter := { readOnlyAdapter "pods" "pods" "Pod" false with delete := deleteNamed "pods" }

def pvcAdapter := createDeleteAdapter lib "pvcs" "persistentvolumeclaims" "PVC" false
def pvAdapter := readOnlyAdapter "pvs" "persistentvolumes" "PersistentVolume" true
def replicaSetAdapter := readOnlyAdapter "replicasets" "replicasets" "ReplicaSet" false
def resourceQuotaAdapter := readOnlyAdapter "resourcequotas" "resourcequotas" "ResourceQuota" false
def roleBindingAdapter := crudAdapter lib "rolebindings" "rolebindings" "RoleBinding" false
def roleAdapter := readOnlyAdapter "roles" "roles" "Role" false

def secretAdapter : Adapter := { crudAdapter lib "secrets" "secrets" "Secret" false with cached := false }

def serviceAccountAdapter := readOnlyAdapter "serviceaccounts" "serviceaccounts" "ServiceAccount" false
def serviceAdapter := crudAdapter lib "services" "services" "Service" false

def statefulSetAdapter : Adapter :=
  { crudAdapter lib "statefulsets" "statefulsets" "StatefulSet" false with
    scale := some (updateScale "statefulsets")
    restart := some (restart restartedAt "statefulsets") }

def storageClassAdapter := readOnlyAdapter "storageclasses" "storageclasses" "StorageClass" true

def validatingWebhookAdapter :=
  readOnlyAdapter "validatingwebhookconfigurations" "validatingwebhookconfigurations"
    "ValidatingWebhookConfiguration" true

def mutatingWebhookAdapter :=
  readOnlyAdapter "mutatingwebhookconfigurations" "mutatingwebhookconfigurations" "MutatingWebhookConfiguration" true

def registry : List Adapter :=
  [clusterRoleBindingAdapter lib, clusterRoleAdapter, configMapAdapter lib, cronJobAdapter lib,
    daemonSetAdapter lib restartedAt, deploymentAdapter lib restartedAt, endpointsAdapter, endpointSliceAdapter,
    eventAdapter, hpaAdapter lib, ingressAdapter lib, jobAdapter lib, limitRangeAdapter, namespaceAdapter lib,
    networkPolicyAdapter lib, nodeAdapter, pdbAdapter lib, podAdapter, pvcAdapter lib, pvAdapter, replicaSetAdapter,
    resourceQuotaAdapter, roleBindingAdapter lib, roleAdapter, secretAdapter lib, serviceAccountAdapter,
    serviceAdapter lib, statefulSetAdapter lib restartedAt, storageClassAdapter, validatingWebhookAdapter,
    mutatingWebhookAdapter]

def getAdapter (kind : String) : Option Adapter := (registry lib restartedAt).find? (fun a ↦ a.kind = kind)

/-- No kind is registered twice, on which `Register` would panic. -/
theorem registry_nodup : ((registry lib restartedAt).map Adapter.kind).Nodup := by
  have hkinds : (registry lib restartedAt).map Adapter.kind = ["clusterrolebindings", "clusterroles", "configmaps",
      "cronjobs", "daemonsets", "deployments", "endpoints", "endpointslices", "events", "hpas", "ingresses", "jobs",
      "limitranges", "namespaces", "networkpolicies", "nodes", "pdbs", "pods", "pvcs", "pvs", "replicasets",
      "resourcequotas", "rolebindings", "roles", "secrets", "serviceaccounts", "services", "statefulsets",
      "storageclasses", "validatingwebhookconfigurations", "mutatingwebhookconfigurations"] := rfl
  rw [hkinds]
  decide

end Table

end KubeCenter.Resources
