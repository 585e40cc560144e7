import KubeCenter.Core.GoUnmarshal
import KubeCenter.Wizard.Fields

/-! The form of the policy wizard, its checks and its parameters. -/

namespace KubeCenter.Wizard

open KubeCenter.Core

inductive PolicyEngine
  | kyverno
  | gatekeeper
  deriving DecidableEq

def PolicyEngine.name : PolicyEngine → String
  | .kyverno => "kyverno"
  | .gatekeeper => "gatekeeper"

inductive TemplateID
  | disallowPrivileged
  | disallowRoot
  | disallowPrivilegeEscalation
  | restrictCapabilities
  | allowedRegistries
  | disallowLatestTag
  | requireResourceLimits
  | requireLabels
  deriving DecidableEq

structure PolicyTemplate where
  id : String
  name : String
  category : String
  description : String
  severity : String
  engines : List String := ["kyverno", "gatekeeper"]

def policyTemplate : TemplateID → PolicyTemplate
  | .disallowPrivileged =>
    { id := "disallow-privileged", name := "Disallow Privileged Containers", category := "Pod Security"
      description := "Privileged mode disables most security mechanisms and must not be allowed.", severity := "high" }
  | .disallowRoot =>
    { id := "disallow-root", name := "Disallow Root User", category := "Pod Security"
      description := "Containers must run as a non-root user.", severity := "high" }
  | .disallowPrivilegeEscalation =>
    { id := "disallow-privilege-escalation", name := "Disallow Privilege Escalation", category := "Pod Security"
      description := "Containers must not allow privilege escalation via setuid or setgid.", severity := "high" }
  | .restrictCapabilities =>
    { id := "restrict-capabilities", name := "Restrict Capabilities", category := "Pod Security"
      description := "Drop all capabilities and allow only specific additions.", severity := "medium" }
  | .allowedRegistries =>
    { id := "allowed-registries", name := "Restrict Image Registries", category := "Image Policies"
      description := "Images must come from approved container registries.", severity := "high" }
  | .disallowLatestTag =>
    { id := "disallow-latest-tag", name := "Disallow Latest Tag", category := "Image Policies"
      description := "Images must have an explicit tag; ':latest' is not allowed.", severity := "medium" }
  | .requireResourceLimits =>
    { id := "require-resource-limits", name := "Require Resource Limits", category := "Resource Management"
      description := "All containers must define CPU and memory resource limits.", severity := "medium" }
  | .requireLabels =>
    { id := "require-labels", name := "Require Labels", category := "Labeling"
      description := "Resources must have specified labels for ownership and lifecycle tracking.", severity := "medium" }

def templateIDs : List TemplateID :=
  [.disallowPrivileged, .disallowRoot, .disallowPrivilegeEscalation, .restrictCapabilities, .allowedRegistries,
    .disallowLatestTag, .requireResourceLimits, .requireLabels]

/-- The registry `policyTemplates`. -/
def templateOf (id : String) : Option TemplateID := templateIDs.find? fun t ↦ (policyTemplate t).id = id

def validTargetKinds : List String :=
  ["Pod", "Deployment", "StatefulSet", "DaemonSet", "ReplicaSet", "Job", "CronJob"]

def validKyvernoActions : List String := ["Audit", "Enforce"]

def validGatekeeperActions : List String := ["deny", "dryrun", "warn"]

def maxDescription : ℕ := 1024

def maxExcludedNamespaces : ℕ := 100

/-- A letter or a digit, and behind it also dots, underscores, slashes and hyphens. -/
def registryPatternRegex (s : String) : Bool :=
  s.toList.head?.any alphanumeric && s.toList.all fun c ↦ alphanumeric c || c = '.' || c = '_' || c = '/' || c = '-'

/-- An optional prefix of up to 253 characters and a name of up to 63. -/
def labelKeyRegex (s : String) : Bool :=
  match s.toList.splitOn '/' with
  | [name] => edged alphanumeric (fun c ↦ c = '.' || c = '_' || c = '-') 63 name
  | [domain, name] => edged alphanumeric (fun c ↦ c = '.' || c = '-') 253 domain &&
      edged alphanumeric (fun c ↦ c = '.' || c = '_' || c = '-') 63 name
  | _ => false

/-! The parameters of the templates. -/

structure CapabilityParams where
  dropAll : Bool := false
  allowedAdd : StringSlice := {}

structure RegistryParams where
  registries : StringSlice := {}

structure ResourceLimitParams where
  requireCPU : Bool := false
  requireMemory : Bool := false
  deriving DecidableEq

structure RequireLabelsParams where
  labels : StringSlice := {}

def CapabilityParams.fields : List (StructField CapabilityParams) :=
  [⟨"dropAll", decodeBool fun b p ↦ { p with dropAll := b }⟩,
    ⟨"allowedAdd", decodeStrings allowedAdd fun l p ↦ { p with allowedAdd := l }⟩]

def RegistryParams.fields : List (StructField RegistryParams) :=
  [⟨"registries", decodeStrings registries fun l p ↦ { p with registries := l }⟩]

def ResourceLimitParams.fields : List (StructField ResourceLimitParams) :=
  [⟨"requireCpu", decodeBool fun b p ↦ { p with requireCPU := b }⟩,
    ⟨"requireMemory", decodeBool fun b p ↦ { p with requireMemory := b }⟩]

def RequireLabelsParams.fields : List (StructField RequireLabelsParams) :=
  [⟨"labels", decodeStrings labels fun l p ↦ { p with labels := l }⟩]

/-- The form; `params` is the document, where there is one. -/
structure PolicyWizardInput where
  templateID : String
  engine : String
  name : String
  action : String
  targetKinds : List String
  excludedNamespaces : List String := []
  description : String := ""
  params : Option Json := none

/-- `toUpper` is `unicode.ToUpper`, `quote` the `%q` of a text. -/
structure TextLibrary where
  toUpper : Char → Char
  quote : String → String

/-- The first element that a check rejects, with its index. -/
def firstRejected (reject : String → Option String) (field : String) : ℕ → List String → List FieldError
  | _, [] => []
  | i, s :: ss =>
    match reject s with
    | some message => [⟨element field i, message⟩]
    | none => firstRejected reject field (i + 1) ss

/-- What a decoded document says to a check of its parameters: a document that does not decode is an error. -/
def decoded {σ : Type} (params : Option Json) (fields : List (StructField σ)) (zero : σ) : Option σ :=
  match params with
  | none => some zero
  | some doc =>
    let (value, ok) := StructField.unmarshal fields doc zero
    if ok then some value else none

namespace PolicyWizardInput

variable (lib : TextLibrary) (p : PolicyWizardInput)

def rejectCapability (cap : String) : Option String :=
  if cap = "ALL" then some "'ALL' cannot be added — it would negate dropping all capabilities"
  else if cap.toList ≠ cap.toList.map lib.toUpper ∨ cap = "" then
    some "must be an uppercase Linux capability name (e.g. NET_BIND_SERVICE)"
  else none

def rejectRegistry (reg : String) : Option String :=
  if reg = "" then some "registry pattern must not be empty"
  else if !registryPatternRegex reg then
    some "must be a valid registry prefix (e.g. ghcr.io/ or registry.k8s.io/myorg)"
  else none

def rejectLabel (label : String) : Option String :=
  if label = "" then some "label key must not be empty"
  else if !labelKeyRegex label then some "must be a valid Kubernetes label key (e.g. app.kubernetes.io/name)"
  else none

def validateCapabilities : List FieldError :=
  match decoded p.params CapabilityParams.fields {} with
  | none => [⟨"params", "invalid capability parameters"⟩]
  | some params => firstRejected (rejectCapability lib) "params.allowedAdd" 0 params.allowedAdd.items

/-- The templates with a list that must have elements: a missing document is an empty list. -/
def validateList {σ : Type} (fields : List (StructField σ)) (zero : σ) (items : σ → StringSlice)
    (field invalid empty : String) (reject : String → Option String) : List FieldError :=
  match decoded p.params fields zero with
  | none => [⟨"params", invalid⟩]
  | some params =>
    if (items params).items = [] then [⟨field, empty⟩] else firstRejected reject field 0 (items params).items

def validateRegistries : List FieldError :=
  p.validateList RegistryParams.fields {} RegistryParams.registries "params.registries" "invalid registry parameters"
    "at least one registry is required" rejectRegistry

def validateLabels : List FieldError :=
  p.validateList RequireLabelsParams.fields {} RequireLabelsParams.labels "params.labels" "invalid label parameters"
    "at least one label is required" rejectLabel

def validateResourceLimits : List FieldError :=
  match decoded p.params ResourceLimitParams.fields {} with
  | none => [⟨"params", "invalid resource limit parameters"⟩]
  | some params => check (!params.requireCPU && !params.requireMemory) "params"
      "at least one of requireCpu or requireMemory must be true"

def validateParams (template : TemplateID) : List FieldError :=
  match template with
  | .restrictCapabilities => p.validateCapabilities lib
  | .allowedRegistries => p.validateRegistries
  | .requireResourceLimits => p.validateResourceLimits
  | .requireLabels => p.validateLabels
  | _ => []

def validateEngine (template : TemplateID) : List FieldError :=
  if p.engine ≠ "kyverno" ∧ p.engine ≠ "gatekeeper" then [⟨"engine", "must be 'kyverno' or 'gatekeeper'"⟩]
  else check (p.engine ∉ (policyTemplate template).engines) "engine"
    (String.join ["template '", p.templateID, "' does not support engine '", p.engine, "'"])

def validateName : List FieldError :=
  if p.name = "" then [⟨"name", "is required"⟩]
  else check (!dnsLabelRegex p.name) "name" "must be a valid DNS label (lowercase alphanumeric and hyphens, 1-63 chars)"

def validateTargetKinds : List FieldError :=
  if p.targetKinds = [] then [⟨"targetKinds", "at least one target kind is required"⟩]
  else p.targetKinds.zipIdx.flatMap fun (kind, i) ↦
    check (kind ∉ validTargetKinds) (element "targetKinds" i) ("unsupported target kind " ++ lib.quote kind)

def validate : List FieldError :=
  match templateOf p.templateID with
  | none => [⟨"templateId", "unknown policy template"⟩]
  | some template =>
    p.validateEngine template ++ p.validateName ++
      check (p.engine = "kyverno" && p.action ∉ validKyvernoActions) "action" "must be 'Audit' or 'Enforce'" ++
      check (p.engine = "gatekeeper" && p.action ∉ validGatekeeperActions) "action"
        "must be 'deny', 'dryrun', or 'warn'" ++
      p.validateTargetKinds lib ++
      check (maxDescription < p.description.utf8ByteSize) "description"
        (String.join ["must be ", toString maxDescription, " characters or fewer"]) ++
      check (maxExcludedNamespaces < p.excludedNamespaces.length) "excludedNamespaces"
        (String.join ["must have ", toString maxExcludedNamespaces, " or fewer entries"]) ++
      (p.excludedNamespaces.zipIdx.flatMap fun (ns, i) ↦
        check (ns ≠ "" && !dnsLabelRegex ns) (element "excludedNamespaces" i) "must be a valid DNS label") ++
      p.validateParams lib template

/-- A document that does not decode leaves what it got to. -/
def parseParams {σ : Type} (params : Option Json) (fields : List (StructField σ)) (defaults : σ) : σ :=
  match params with
  | none => defaults
  | some doc => (StructField.unmarshal fields doc defaults).1

def parseCapabilityParams : CapabilityParams := parseParams p.params CapabilityParams.fields { dropAll := true }

def parseRegistryParams : RegistryParams := parseParams p.params RegistryParams.fields {}

def parseResourceLimitParams : ResourceLimitParams :=
  parseParams p.params ResourceLimitParams.fields { requireCPU := true, requireMemory := true }

def parseRequireLabelsParams : RequireLabelsParams := parseParams p.params RequireLabelsParams.fields {}

end PolicyWizardInput

end KubeCenter.Wizard
