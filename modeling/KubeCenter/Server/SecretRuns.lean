import KubeCenter.Yaml.Handler

/-! Requests that have to do with Secrets, served one after the other, and what an API server may tell of the values of
the Secrets it holds. -/

namespace KubeCenter.Server.SecretConfinement

open KubeCenter.Core KubeCenter.Resources KubeCenter.K8s Function
open List (Forall₂)

/-- A cluster: its Secrets, and all the rest of it. -/
structure State (ρ : Type) where
  secrets : List Json
  rest : ρ

abbrev APIServer (ρ : Type) := ClientCall → State ρ → Reply × State ρ

abbrev Clusters (ρ : Type) := String → Cluster (State ρ)

/-! The handlers under one roof. -/

inductive Answer
  | resource (response : Response)
  | secret (response : SecretResponse)
  | yaml (answer : Yaml.Answer)

/-- A request past its checks: what it does with its client, what it says without one, and what it still refuses. -/
structure Job where
  script : Core.Script ClientCall Reply Answer
  noClient : String → Answer
  refused : Option Answer := none

/-- The handlers that have no business with plain values. `ctxDone` tells where the waits of an apply end. -/
inductive Endpoint
  | listSecrets
  | getSecret
  | create
  | update
  | delete
  | validate (body : Except String Bytes)
  | apply (body : Except String Bytes) (force : Bool) (ctxDone : ℕ → ℕ → Bool)
  | diff (body : Except String Bytes)
  | export

variable {ρ : Type} (lib : Yaml.Library)

/-- What a write handler answers to the result of its script. -/
def writeAnswer (write : Write) : Except AdapterError Json → Response
  | .ok item => write.success item
  | .error .readOnly => writeError 405 (write.displayName ++ " is read-only") ""
  | .error (.failed err) => mapK8sError err write.verb write.displayName write.ns write.name

def noClient (err : String) : Response := writeError 500 "failed to create client" err

def writeJob (asked : Except Response Write) : Except Answer Job :=
  match asked with
  | .error response => .error (.resource response)
  | .ok write => .ok {
      script := (write.script.mapCalls .typed).map (fun result ↦ .resource (writeAnswer write result))
      noClient := fun err ↦ .resource (noClient err) }

def secretJob (asked : Except Response (Core.Script ClientCall Reply SecretResponse)) : Except Answer Job :=
  match asked with
  | .error response => .error (.secret (.refused response))
  | .ok script => .ok { script := script.map .secret, noClient := fun err ↦ .secret (.refused (noClient err)) }

def yamlJob (c : String) (asked : Except Response Yaml.Ask) : Except Answer Job :=
  match asked with
  | .error response => .error (.yaml (.refused response))
  | .ok ask => .ok {
      script := ask.script.map .yaml
      noClient := fun err ↦ .yaml (.refused (writeError 500 "failed to create kubernetes client" err))
      refused := match Yaml.requireLocal c ask.what with
        | .error response => some (.yaml (.refused response))
        | .ok _ => none }

def Endpoint.job (env : Env) (c : String) (req : Request) : Endpoint → Except Answer Job
  | .listSecrets => secretJob (handleListSecrets env c req)
  | .getSecret => secretJob (handleGetSecret env c req)
  | .create => writeJob (createResource env c req)
  | .update => writeJob (updateResource env c req)
  | .delete => writeJob (deleteResource env c req)
  | .validate body => yamlJob c (Yaml.handleValidate lib env body)
  | .apply body force ctxDone => yamlJob c (Yaml.handleApply lib env body force ctxDone)
  | .diff body => yamlJob c (Yaml.handleDiff lib env body)
  | .export => yamlJob c (Yaml.handleExport lib env req.kind req.ns req.name)

/-- A request with what it meets; `live` calls reach the server before its context ends. -/
structure Turn where
  env : Env
  req : Request
  endpoint : Endpoint
  live : ℕ

/-- What a request comes to, with the calls it made and the replies it got. -/
structure Served (ρ : Type) where
  answer : Answer
  clusters : Clusters ρ
  replies : List (ClientCall × Reply) := []

variable (serve : APIServer ρ)

def Job.run (live : ℕ) (cluster : String) (w : Clusters ρ) (job : Job) : Served ρ :=
  match (w cluster).client, job.refused with
  | some err, _ => { answer := job.noClient err, clusters := w }
  | none, some answer => { answer, clusters := w }
  | none, none =>
    let ran := job.script.run serve cancelled live (w cluster).api
    { answer := ran.value
      clusters := update w cluster ⟨none, ran.state⟩
      replies := job.script.trace serve cancelled live (w cluster).api }

def Turn.run (w : Clusters ρ) (t : Turn) : Served ρ :=
  match clusterContext t.env.user t.req.clusterID with
  | .error response => { answer := .resource response, clusters := w }
  | .ok c =>
    match t.endpoint.job lib t.env c t.req with
    | .error answer => { answer, clusters := w }
    | .ok job => job.run serve t.live (normalizedClusterID c) w

def answers : Clusters ρ → List Turn → List Answer
  | _, [] => []
  | w, t :: ts => (t.run lib serve w).answer :: answers (t.run lib serve w).clusters ts

/-- The job of a write answers what the write handlers do. -/
theorem perform_response {asked : Except Response Write} {job : Job} (h : writeJob asked = .ok job) (c : String)
    (live : ℕ) (w : Clusters ρ) (informers : Informers) (tasks : Tasks) :
    (job.run serve live (normalizedClusterID c) w).answer =
      .resource (perform (fun q ↦ serve (.typed q)) c live ⟨informers, w, tasks⟩ asked).response := by
  unfold writeJob at h
  split at h
  · cases h
  · next write =>
    cases h
    unfold Job.run perform World.runAt
    dsimp only
    split
    · next hclient =>
      rw [hclient]
      rfl
    · next hclient hrefused => cases hrefused
    · next hclient _ =>
      rw [hclient, Core.Script.run_map, Core.Script.run_mapCalls]
      dsimp only [Core.Script.runAt]
      cases (write.script.run (fun q ↦ serve (.typed q)) cancelled live (w (normalizedClusterID c)).api).value with
      | ok item => rfl
      | error err => cases err <;> rfl

/-! What a server does, and what can be told of two. -/

def GVR.isSecrets (gvr : GVR) : Bool := decide (gvr.group = "" ∧ gvr.resource = kindSecret)

inductive Access
  | elsewhere
  | read
  | list
  | write
  deriving DecidableEq

/-- What a call does to Secrets. -/
def access : ClientCall → Access
  | .typed (.get resource _ _) => if resource = kindSecret then .read else .elsewhere
  | .typed (.list resource _ _ _) => if resource = kindSecret then .list else .elsewhere
  | .typed (.create resource _ _) | .typed (.update resource _ _) | .typed (.delete resource _ _ _)
  | .typed (.patch resource _ _ _) | .typed (.updateScale resource _ _ _) =>
    if resource = kindSecret then .write else .elsewhere
  | .typed (.evict _ _) => .elsewhere
  | .listSecrets _ _ _ _ => .list
  | .get gvr _ _ => if GVR.isSecrets gvr then .read else .elsewhere
  | .apply gvr _ _ _ _ _ => if GVR.isSecrets gvr then .write else .elsewhere

deriving instance DecidableEq for StatusClass, CallError

/-- The outcome of a write: its error, or the resource version of what it leaves. -/
abbrev Outcome := Except CallError String

def outcome (r : Reply) : Outcome := r.map Yaml.resourceVersion

def isTyped : ClientCall → Bool
  | .typed _ => true
  | _ => false

def observe (q : ClientCall) : Option (Reply → Outcome) := if access q = .write then some outcome else none

/-- The outcomes of a run's writes to Secrets, dry runs included. -/
def outcomes : Clusters ρ → List Turn → List Outcome
  | _, [] => []
  | w, t :: ts =>
    Core.Script.observations observe (t.run lib serve w).replies ++ outcomes (t.run lib serve w).clusters ts

/-- Two clusters that differ only in the values of their Secrets. -/
structure Alike (s s' : State ρ) : Prop where
  rest : s'.rest = s.rest
  secrets : Forall₂ SameButValues s.secrets s'.secrets

/-- Replies of one error, or of objects in a relation. -/
def SameReply (P : Json → Json → Prop) : Reply → Reply → Prop
  | .ok j, .ok j' => P j j'
  | .error err, .error err' => err' = err
  | _, _ => False

structure SameList (j j' : Json) : Prop where
  items : Forall₂ SameButValues (listItems j) (listItems j')
  token : j.nestedString ["metadata", "continue"] = j'.nestedString ["metadata", "continue"]

/-- An API server that keeps the values of Secrets to the calls for Secrets: a read answers with what is stored, and a
write that has the same outcome does the same. A typed write answers with the object that was submitted. -/
structure Lawful (serve : APIServer ρ) : Prop where
  elsewhere : ∀ {q s s'}, access q = .elsewhere → Alike s s' →
    (serve q s).1 = (serve q s').1 ∧ Alike (serve q s).2 (serve q s').2
  read : ∀ {q s s'}, access q = .read → Alike s s' →
    SameReply SameButValues (serve q s).1 (serve q s').1 ∧ Alike (serve q s).2 (serve q s').2
  list : ∀ {q s s'}, access q = .list → Alike s s' →
    SameReply SameList (serve q s).1 (serve q s').1 ∧ Alike (serve q s).2 (serve q s').2
  write : ∀ {q s s'}, access q = .write → Alike s s' → outcome (serve q s).1 = outcome (serve q s').1 →
    Alike (serve q s).2 (serve q s').2
  submitted : ∀ {q s s'}, access q = .write → isTyped q = true → Alike s s' →
    outcome (serve q s).1 = outcome (serve q s').1 → (serve q s).1 = (serve q s').1

/-- How far two replies to one call are alike: equal, but for reads of Secrets and for what an apply leaves of one. -/
def SameAnswer (q : ClientCall) (r r' : Reply) : Prop :=
  match access q with
  | .elsewhere => r = r'
  | .read => SameReply SameButValues r r'
  | .list => SameReply SameList r r'
  | .write => outcome r = outcome r' ∧ (isTyped q = true → r = r')

/-- The mapper and the discovery know the resource of the Secrets by its own kind and name. -/
structure Discovers (lib : Yaml.Library) : Prop where
  mapping : ∀ {gvk attempt mapping}, lib.restMapping gvk attempt = .ok mapping →
    GVR.isSecrets mapping.resource = true → gvk.kind = "Secret"
  lower : ∀ c, lib.fold (lib.toLower c) ∈ kindSecret.toList.map lib.fold → lib.fold c = lib.fold (lib.toLower c)
  marshal : ∀ j, ∃ text, lib.marshalYAML j = .ok text

end KubeCenter.Server.SecretConfinement
