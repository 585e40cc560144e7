import KubeCenter.Auth.RBACSummary
import KubeCenter.Core.GoInt
import KubeCenter.Core.Script
import KubeCenter.Resources.Access
import KubeCenter.Resources.Adapters

/-! The handlers of `crud.go`, `actions.go` and `nodes.go` behind `ClusterContext`. -/

namespace KubeCenter.Resources

open KubeCenter.Core Auth K8s

inductive Response
  | error (code : ℕ) (message detail : String)
  | list (items : List Json) (total : ℕ) (continueToken : String)
  | data (item : Json)
  | created (item : Json)
  | deleted
  | accepted (taskID : String)
  | panicked

/-- The details of an internal error are not shown. -/
def writeError (code : ℕ) (message detail : String) : Response :=
  .error code message (if 500 ≤ code then "" else detail)

/-- What an answer or a refusal comes to. -/
def respond : Except Response Response → Response
  | .error response => response
  | .ok response => response

/-- What a body is under each of the request types; `drain` is `none` for one that does not decode. -/
structure Body where
  bytes : Bytes := []
  replicas : Except String ℤ := .ok 0
  suspend : Except String Bool := .ok false
  revision : Except String ℤ := .ok 0
  drain : Option DrainRequest := none

structure Request where
  clusterID : String
  kind : String := ""
  ns : String := ""
  name : String := ""
  labelSelector : String := ""
  limit : String := ""
  token : String := ""
  body : Body := {}

/-- What the server brings to a request. -/
structure Env where
  lib : Apimachinery
  restartedAt : String
  user : Option User
  authorizer : Review → Except Failure Bool
  checker : AccessChecker
  clock : Clock
  taskID : String
  now : ℤ

/-- A cluster as the server reaches it: why no client can be made for the user, and its API server. -/
structure Cluster (σ : Type) where
  client : Option String
  api : σ

/-- The informer cache holds objects of the local cluster. -/
structure World (σ : Type) where
  informers : Informers
  clusters : String → Cluster σ
  tasks : Tasks

inductive Action
  | create
  | update
  | delete

structure AuditEntry where
  clusterID : String
  user : String
  action : Action
  resourceKind : String
  ns : String
  name : String
  success : Bool

structure Outcome (σ : Type) where
  response : Response
  world : World σ
  sent : List (String × KubeCall) := []
  audits : List AuditEntry := []

/-- The cluster id that `ClusterContext` puts into the request's context. -/
def clusterContext (user : Option User) (clusterID : String) : Except Response String :=
  if clusterID = "" ∨ clusterID = "local" then .ok "local"
  else if 64 < clusterID.utf8ByteSize then .error (writeError 400 "invalid X-Cluster-ID" "")
  else match user with
    | none => .error (writeError 401 "authentication required" "")
    | some user =>
      if isAdmin user then .ok clusterID
      else .error (writeError 403 "admin role required for remote cluster access" "")

section Helpers

variable (env : Env) (c : String) (req : Request)

def resolveAdapter : Except Response Adapter :=
  match getAdapter env.lib env.restartedAt req.kind with
  | some adapter => .ok adapter
  | none => .error (writeError 404 ("unknown resource kind: " ++ req.kind) "")

def requireUser : Except Response User :=
  match env.user with
  | some user => .ok user
  | none => .error (writeError 401 "authentication required" "")

def checkAccess (user : User) (verb resource ns : String) : Except Response Unit :=
  match (env.checker.canAccess env.authorizer env.clock c user.kubernetesUsername user.kubernetesGroups
      verb resource ns).1 with
  | .error _ => .error (writeError 500 "failed to check permissions" "")
  | .ok false => .error (writeError 403
      ("you do not have permission to " ++ verb ++ " " ++ resource ++ " in namespace " ++ ns)
      ("RBAC: user '" ++ user.kubernetesUsername ++ "' lacks '" ++ verb ++ "' on '" ++ resource ++ "'"))
  | .ok true => .ok ()

def parseSelectorOrReject : Except Response Selector :=
  if req.labelSelector = "" then .ok (fun _ ↦ true)
  else match env.lib.parseSelector req.labelSelector with
    | .ok sel => .ok sel
    | .error err => .error (writeError 400 ("invalid label selector: " ++ req.labelSelector) err)

/-- A cluster-scoped name stands where the route has the namespace. -/
def extractNsName (adapter : Adapter) : String × String :=
  if adapter.clusterScoped then ("", req.ns) else (req.ns, req.name)

def maxRequestBodySize : ℕ := 1048576

def readBody : Except Response Bytes :=
  if maxRequestBodySize < req.body.bytes.length then
    .error (writeError 400 "failed to read request body" "http: request body too large")
  else if req.body.bytes = [] then .error (writeError 400 "request body is empty" "")
  else .ok req.body.bytes

def decodeBody {α : Type} (value : Except String α) (message : String) : Except Response α :=
  value.mapError (writeError 400 message)

/-- A capability of the adapter, which it may lack. -/
def capability {α : Type} (adapter : Adapter) (f : Option α) (what : String) : Except Response α :=
  match f with
  | some f => .ok f
  | none => .error (writeError 400 (adapter.displayName ++ " does not support " ++ what) "")

end Helpers

def mapK8sError (err : CallError) (verb kind ns name : String) : Response :=
  match err with
  | .status .notFound message => writeError 404 (kind ++ " '" ++ name ++ "' not found in namespace '" ++ ns ++ "'") message
  | .status .forbidden message =>
    writeError 403 ("you do not have permission to " ++ verb ++ " " ++ kind ++ " '" ++ name ++ "'") message
  | .status .alreadyExists message =>
    writeError 409 (kind ++ " '" ++ name ++ "' already exists in namespace '" ++ ns ++ "'") message
  | .status .conflict message =>
    writeError 409 ("conflict updating " ++ kind ++ " '" ++ name ++ "' — resource was modified") message
  | .status .invalid message => writeError 422 ("invalid " ++ kind ++ " specification") message
  | .status .serviceUnavailable message => writeError 503 "kubernetes API is unavailable" message
  | .status (.other code) message => writeError code "kubernetes API error" message
  | .other err => writeError 500 ("failed to " ++ verb ++ " " ++ kind) err

section Reads

variable (env : Env) (c : String) (req : Request)

/-- `strconv.Atoi` without its error: out of range it is the nearest value, of what is no number zero. -/
def atoi (s : String) : ℤ :=
  let bytes := s.toUTF8.toList
  let (negative, digits) :=
    if bytes.head? = some minus then (true, bytes.tail)
    else if bytes.head? = some plus then (false, bytes.tail) else (false, bytes)
  match parseUint digits with
  | some n => if negative then max (-n) (-2 ^ 63) else min n (2 ^ 63 - 1)
  | none => 0

/-- What `fmt.Sscanf(s, "%d", &start)` leaves in `start`, zero before: a number after blanks, as far as it goes. -/
def scanStart (s : String) : ℤ :=
  let cs := s.toList.dropWhile (fun c ↦ isSpace c && c ≠ '\n')
  let (negative, cs) := if cs.head? = some '-' then (true, cs.tail)
    else if cs.head? = some '+' then (false, cs.tail) else (false, cs)
  match parseUint ((cs.takeWhile Char.isDigit).map (fun c ↦ UInt8.ofNat c.toNat)) with
  | some n => if negative then (if n ≤ 2 ^ 63 then -n else 0) else if n < 2 ^ 63 then n else 0
  | none => 0

/-- The limit of `parseListParams`. -/
def listLimit : ℕ :=
  let limit := atoi req.limit
  let limit := if limit ≤ 0 then 100 else limit
  (if 500 < limit then 500 else limit).toNat

def pageStart (token : String) : ℤ := if token = "" then 0 else scanStart token

/-- `paginateAny` and `writeList`; a negative start is out of the slice's range. -/
def paginateAny (items : List Json) (limit : ℕ) (token : String) : Response :=
  let items := items.insertionSort (fun a b ↦ objectKey a ≤ objectKey b)
  let start := pageStart token
  if (items.length : ℤ) ≤ start then .list [] items.length ""
  else if start < 0 then .panicked
  else
    let stop := min (start.toNat + limit) items.length
    .list ((items.take stop).drop start.toNat) items.length (if stop < items.length then toString stop else "")

/-- A list request that has passed its checks. -/
structure ListAsk where
  adapter : Adapter
  ns : String
  sel : Selector

def listAsk : Except Response ListAsk := do
  let adapter ← resolveAdapter env req
  let user ← requireUser env
  let ns := if adapter.clusterScoped then "" else req.ns
  checkAccess env c user "list" adapter.apiResource ns
  let sel ← parseSelectorOrReject env req
  pure { adapter, ns, sel }

def handleListResource (inf : Informers) : Response :=
  respond do
    let ask ← listAsk env c req
    match ask.adapter.listFromCache inf ask.ns ask.sel with
    | .error _ => .error (writeError 500 ("failed to list " ++ ask.adapter.displayName) "")
    | .ok items => pure (paginateAny items (listLimit req) req.token)

/-- A get request that has passed its checks. -/
structure GetAsk where
  adapter : Adapter
  ns : String
  name : String

def getAsk : Except Response GetAsk := do
  let adapter ← resolveAdapter env req
  let user ← requireUser env
  let (ns, name) := extractNsName req adapter
  checkAccess env c user "get" adapter.apiResource ns
  pure { adapter, ns, name }

def handleGetResource (inf : Informers) : Response :=
  respond do
    let ask ← getAsk env c req
    match ask.adapter.getFromCache env.lib inf ask.ns ask.name with
    | .error err => .error (mapK8sError err "get" ask.adapter.displayName ask.ns ask.name)
    | .ok item => pure (.data item)

end Reads

/-- A write that has passed its checks and has only its client to come. -/
structure Write where
  user : User
  script : AdapterScript
  verb : String
  displayName : String
  action : Action
  ns : String
  name : String
  success : Json → Response := .data

section Writes

variable (env : Env) (c : String) (req : Request)

def createResource : Except Response Write := do
  let adapter ← resolveAdapter env req
  let user ← requireUser env
  let ns := if adapter.clusterScoped then "" else req.ns
  checkAccess env c user "create" adapter.apiResource ns
  let body ← readBody req
  pure {
    user, ns
    script := adapter.create ns body
    verb := "create"
    displayName := adapter.displayName
    action := .create
    name := ""
    success := .created }

def updateResource : Except Response Write := do
  let adapter ← resolveAdapter env req
  let user ← requireUser env
  let (ns, name) := extractNsName req adapter
  checkAccess env c user "update" adapter.apiResource ns
  let body ← readBody req
  pure {
    user, ns, name
    script := adapter.update ns name body
    verb := "update"
    displayName := adapter.displayName
    action := .update }

def deleteResource : Except Response Write := do
  let adapter ← resolveAdapter env req
  let user ← requireUser env
  let (ns, name) := extractNsName req adapter
  checkAccess env c user "delete" adapter.apiResource ns
  pure {
    user, ns, name
    script := adapter.delete ns name
    verb := "delete"
    displayName := adapter.displayName
    action := .delete
    success := fun _ ↦ .deleted }

/-- What the actions on an adapter's capability have in common. `decoded` is what the body holds for it. -/
def actOn {α β : Type} (f : Adapter → Option α) (what verb permission : String) (decoded : Except Response β)
    (script : α → β → AdapterScript) (action : Action) (success : Json → Response) : Except Response Write := do
  let adapter ← resolveAdapter env req
  let f ← capability adapter (f adapter) what
  let user ← requireUser env
  checkAccess env c user permission adapter.apiResource req.ns
  let value ← decoded
  pure {
    user, verb, action, success
    script := script f value
    displayName := adapter.displayName
    ns := req.ns
    name := req.name }

def scaleResource : Except Response Write :=
  actOn env c req Adapter.scale "scaling" "scale" "update"
    (decodeBody req.body.replicas "invalid scale request body")
    (fun scale replicas ↦ scale req.ns req.name replicas) .update .data

def restartResource : Except Response Write :=
  actOn env c req Adapter.restart "restart" "restart" "update" (.ok ())
    (fun restart _ ↦ restart req.ns req.name) .update .data

def suspendResource : Except Response Write :=
  actOn env c req Adapter.suspend "suspend" "suspend" "update"
    (decodeBody req.body.suspend "invalid suspend request body")
    (fun suspend value ↦ suspend req.ns req.name value) .update .data

def triggerResource : Except Response Write :=
  actOn env c req Adapter.trigger "triggering" "trigger" "create" (.ok ())
    (fun trigger _ ↦ trigger req.ns req.name) .create .created

def rollbackResource : Except Response Write :=
  actOn env c req Adapter.rollback "rollback" "rollback" "update"
    (readBody req >>= fun _ ↦ decodeBody req.body.revision "invalid rollback request body")
    (fun rollback revision ↦ rollback req.ns req.name revision) .update .data

def cordonPatch (unschedulable : Bool) : Text := patchText ["spec", "unschedulable"] (.bool unschedulable)

def setNodeUnschedulable (unschedulable : Bool) : Except Response Write := do
  let user ← requireUser env
  checkAccess env c user "update" "nodes" ""
  pure {
    user
    script := send (.patch "nodes" "" req.name (cordonPatch unschedulable))
    verb := if unschedulable then "cordon" else "uncordon"
    displayName := "Node"
    action := .update
    ns := ""
    name := req.name }

end Writes

section Drain

def drainPod (pod : Json) : DrainPod :=
  { ns := objectNamespace pod
    name := objectName pod
    annotations := GoMap.indexBy Prod.fst Prod.snd (pod.nestedStringMap ["metadata", "annotations"])
    ownerKinds := match pod.nested ["metadata", "ownerReferences"] with
      | some (.array refs) => refs.map (fun ref ↦ ref.nestedString ["kind"])
      | _ => [] }

def evictPods (total : ℕ) : ℕ → List DrainPod → Script Update
  | i, [] => .done (DrainCall.evictNext total i []).2
  | i, pod :: rest => .call (.evict pod.ns pod.name) fun
    | .error _ => .done (DrainCall.evict total i pod rest).failure
    | .ok _ => evictPods total (i + 1) rest

/-- `executeDrain` from its client on, to the last status of the task. -/
def executeDrain (node : String) (req : DrainRequest) : Script Update :=
  .call (.patch "nodes" "" node (cordonPatch true)) fun
    | .error _ => .done DrainCall.cordon.failure
    | .ok _ => .call (.list "pods" "" "" ("spec.nodeName=" ++ node)) fun
      | .error _ => .done DrainCall.list.failure
      | .ok podList =>
        let podsToEvict := filterPodsForDrain ((listItems podList).map drainPod) req.ignoreDaemonSets
        evictPods podsToEvict.length 0 podsToEvict

end Drain

section Run

variable {σ : Type} (serve : KubeCall → σ → Reply × σ) (env : Env) (c : String) (req : Request) (live : ℕ)

/-- What a call after the end of the context gets. -/
def cancelled : Reply := .error (.other "context canceled")

/-- The run of a script with the client of a cluster, where one can be made. -/
def World.runAt {α : Type} (w : World σ) (cluster : String) (p : Script α) :
    Except String (α × World σ × List (String × KubeCall)) :=
  match (w.clusters cluster).client with
  | some err => .error err
  | none =>
    let ran := p.runAt serve cancelled live cluster (fun d ↦ (w.clusters d).api)
    .ok (ran.value, { w with clusters := fun d ↦ ⟨(w.clusters d).client, ran.state d⟩ }, ran.sent)

/-- The part of every write handler that comes after its checks: the client of the request's cluster and the call. -/
def perform (w : World σ) (asked : Except Response Write) : Outcome σ :=
  match asked with
  | .error response => { response, world := w }
  | .ok write =>
    match w.runAt serve live (normalizedClusterID c) write.script with
    | .error err => { response := writeError 500 "failed to create client" err, world := w }
    | .ok (result, world, sent) =>
      let entry : Bool → AuditEntry :=
        AuditEntry.mk c write.user.username write.action write.displayName write.ns write.name
      match result with
      | .ok item => { response := write.success item, world, sent, audits := [entry true] }
      | .error .readOnly => { response := writeError 405 (write.displayName ++ " is read-only") "", world, sent }
      | .error (.failed err) =>
        { response := mapK8sError err write.verb write.displayName write.ns write.name
          world, sent, audits := [entry false] }

/-- `HandleDrainNode` with the goroutine it starts, whose client is `K8sClient`'s. -/
def handleDrainNode (w : World σ) : Outcome σ :=
  match requireUser env >>= fun user ↦ (checkAccess env c user "update" "nodes" "").map (fun _ ↦ user) with
  | .error response => { response, world := w }
  | .ok user =>
    if w.tasks.hasActiveTask "drain" req.name then
      { response := writeError 409 ("drain already in progress for node " ++ req.name) "", world := w }
    else
      let tasks := (w.tasks.create env.taskID "drain" req.name "" user.username env.now).updateStatus env.taskID
        ⟨.running, "starting drain", 0⟩ env.now
      let (update, world, sent) :=
        match w.runAt serve live localClusterID (executeDrain req.name (drainRequest req.body.drain)) with
        | .error _ => (DrainCall.client.failure, w, [])
        | .ok ran => ran
      { response := .accepted env.taskID
        world := { world with tasks := tasks.updateStatus env.taskID update env.now }
        sent
        audits := [⟨c, user.username, .update, "Node", "", req.name, true⟩] }

inductive Endpoint
  | list
  | get
  | create
  | update
  | delete
  | scale
  | restart
  | suspend
  | trigger
  | rollback
  | cordon
  | uncordon
  | drain

/-- The handler behind the middleware. -/
def Endpoint.handle (w : World σ) : Endpoint → Outcome σ
  | .list => { response := handleListResource env c req w.informers, world := w }
  | .get => { response := handleGetResource env c req w.informers, world := w }
  | .create => perform serve c live w (createResource env c req)
  | .update => perform serve c live w (updateResource env c req)
  | .delete => perform serve c live w (deleteResource env c req)
  | .scale => perform serve c live w (scaleResource env c req)
  | .restart => perform serve c live w (restartResource env c req)
  | .suspend => perform serve c live w (suspendResource env c req)
  | .trigger => perform serve c live w (triggerResource env c req)
  | .rollback => perform serve c live w (rollbackResource env c req)
  | .cordon => perform serve c live w (setNodeUnschedulable env c req true)
  | .uncordon => perform serve c live w (setNodeUnschedulable env c req false)
  | .drain => handleDrainNode serve env c req live w

/-- A request from its header on. -/
def Endpoint.serveHTTP (w : World σ) (endpoint : Endpoint) : Outcome σ :=
  match clusterContext env.user req.clusterID with
  | .error response => { response, world := w }
  | .ok c => endpoint.handle serve env c req live w

end Run

end KubeCenter.Resources

/-! Secrets as the server shows them: fetched on demand, with every value masked. -/

namespace KubeCenter.Resources

open KubeCenter.Core Auth K8s

structure GVR where
  group : String
  version : String
  resource : String
  deriving DecidableEq

/-- What the handlers ask of an API server: the calls of the typed clients, the paged list of Secrets, and the calls of
the dynamic client. -/
inductive ClientCall
  | typed (q : KubeCall)
  | listSecrets (ns labelSelector : String) (limit : ℕ) (token : String)
  | get (gvr : GVR) (ns name : String)
  | apply (gvr : GVR) (ns name : String) (data : Json) (force dryRun : Bool)

def annotationLastAppliedConfig : String := "kubectl.kubernetes.io/last-applied-configuration"

/-- The keys of a map in an object; a map that is not there has none. -/
def keysAt (k : String) (j : Json) : List String := (((j.fields.get k).getD .null).fields).map Prod.fst

def annotationsOf (metadata : Json) : Fields := ((metadata.fields.get "annotations").getD .null).fields

/-- A map field of an object: an empty one is left out. -/
def setMap (k : String) (m : Fields) (fields : Fields) : Fields := if m = [] then fields else fields.set k (.object m)

/-- The metadata without the annotation that may hold the manifest, its values in plain text. -/
def stripLastApplied (metadata : Json) : Json :=
  .object (setMap "annotations" ((annotationsOf metadata).erase annotationLastAppliedConfig)
    (metadata.fields.erase "annotations"))

def metadataOf (j : Json) : Json := (j.fields.get "metadata").getD .null

/-- The fields of a Secret that do not depend on its values. -/
def otherFields (j : Json) : Fields := ((j.fields.erase "data").erase "stringData").erase "metadata"

/-- `maskedSecret`; bytes are written in base64. -/
def maskedSecret (j : Json) : Json :=
  let fields := (otherFields j).set "metadata" (stripLastApplied (metadataOf j))
  let fields := setMap "data" ((keysAt "data" j).map (fun k ↦ (k, .string "KioqKg=="))) fields
  .object (setMap "stringData" ((keysAt "stringData" j).map (fun k ↦ (k, .string "****"))) fields)

/-- The answers of the Secret handlers. -/
inductive SecretResponse
  | refused (response : Response)
  | list (items : List Json) (total : ℕ) (continueToken : String)
  | data (item : Json)

def kindSecret : String := "secrets"

section Handlers

variable (env : Env) (c : String) (req : Request)

def handleListSecrets : Except Response (Core.Script ClientCall Reply SecretResponse) := do
  let user ← requireUser env
  checkAccess env c user "list" kindSecret req.ns
  pure (.call (.listSecrets req.ns req.labelSelector (listLimit req) req.token) fun
    | .error err => .done (.refused (mapK8sError err "list" "Secret" req.ns ""))
    | .ok list =>
      let masked := (listItems list).map maskedSecret
      .done (.list masked masked.length (list.nestedString ["metadata", "continue"])))

def handleGetSecret : Except Response (Core.Script ClientCall Reply SecretResponse) := do
  let user ← requireUser env
  checkAccess env c user "get" kindSecret req.ns
  pure (.call (.typed (.get kindSecret req.ns req.name)) fun
    | .error err => .done (.refused (mapK8sError err "get" "Secret" req.ns req.name))
    | .ok obj => .done (.data (maskedSecret obj)))

end Handlers

/-- Two Secrets that differ only in the values under their keys, and in the annotation with the last applied manifest. -/
structure SameButValues (j j' : Json) : Prop where
  fields : otherFields j = otherFields j'
  data : keysAt "data" j = keysAt "data" j'
  stringData : keysAt "stringData" j = keysAt "stringData" j'
  metadata : (metadataOf j).fields.erase "annotations" = (metadataOf j').fields.erase "annotations"
  annotations : (annotationsOf (metadataOf j)).erase annotationLastAppliedConfig =
    (annotationsOf (metadataOf j')).erase annotationLastAppliedConfig

variable {j j' : Json}

theorem SameButValues.refl (j : Json) : SameButValues j j := ⟨rfl, rfl, rfl, rfl, rfl⟩

/-- Masking leaves nothing of the values. -/
theorem SameButValues.masked (h : SameButValues j j') : maskedSecret j = maskedSecret j' := by
  simp only [maskedSecret, stripLastApplied, h.fields, h.data, h.stringData, h.metadata, h.annotations]

theorem nested_metadata (j : Json) (k : String) : j.nested ["metadata", k] = (metadataOf j).fields.get k := by
  unfold metadataOf
  simp only [Json.nested]
  cases j.fields.get "metadata" with
  | none => rfl
  | some m => exact Option.bind_fun_some _

/-- What stands in the metadata beside the annotations is the same. -/
theorem SameButValues.nestedString (h : SameButValues j j') {k : String} (hk : "annotations" ≠ k) :
    j.nestedString ["metadata", k] = j'.nestedString ["metadata", k] := by
  have hget : (metadataOf j).fields.get k = (metadataOf j').fields.get k := by
    rw [← Fields.get_erase_ne hk, h.metadata, Fields.get_erase_ne hk]
  rw [Json.nestedString, Json.nestedString, nested_metadata, nested_metadata, hget]

end KubeCenter.Resources
