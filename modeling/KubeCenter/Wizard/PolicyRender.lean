import KubeCenter.Wizard.PolicyInput

/-! The documents of a policy. -/

namespace KubeCenter.Wizard

open KubeCenter.Core

def strings (l : List String) : Json := .array (l.map .string)

/-- The parameters a document is made from. -/
structure TemplateParams where
  capability : CapabilityParams
  registry : RegistryParams
  resourceLimit : ResourceLimitParams
  requireLabels : RequireLabelsParams

namespace PolicyWizardInput

variable (p : PolicyWizardInput) (params : TemplateParams)

/-- What the renderers decode. -/
def parsed : TemplateParams where
  capability := p.parseCapabilityParams
  registry := p.parseRegistryParams
  resourceLimit := p.parseResourceLimitParams
  requireLabels := p.parseRequireLabelsParams

/-! Kyverno. -/

def kyvernoValidateRule (name message : String) (pattern : Json) : Json :=
  .object
    ([("name", .string name),
      ("match", .object [("any", .array [.object [("resources", .object [("kinds", strings p.targetKinds)])]])]),
      ("validate", .object [("message", .string message), ("pattern", pattern)])] ++
      if p.excludedNamespaces = [] then []
      else [("exclude", .object [("any", .array
        [.object [("resources", .object [("namespaces", strings p.excludedNamespaces)])]])])])

/-- A pattern for every container of each kind of them. -/
def eachContainer (entry : Json) : Json :=
  .object [("spec", .object [("containers", .array [entry]), ("=(initContainers)", .array [entry]),
    ("=(ephemeralContainers)", .array [entry])])]

def kyvernoContainerPattern (securityContext : Json) : Json := eachContainer (.object [("securityContext", securityContext)])

def capabilityPattern (params : CapabilityParams) : Json :=
  .object
    ((if params.dropAll then [("drop", strings ["ALL"])] else []) ++
      if params.allowedAdd.items = [] then [] else [("add", strings params.allowedAdd.items)])

def registryPattern (reg : String) : String := if reg.toList.getLast? = some '/' then reg ++ "*" else reg ++ "/*"

def imagePattern (params : RegistryParams) : String := " | ".intercalate (params.registries.items.map registryPattern)

def limitsPattern (params : ResourceLimitParams) : Json :=
  .object
    ((if params.requireCPU then [("cpu", .string "?*")] else []) ++
      if params.requireMemory then [("memory", .string "?*")] else [])

def kyvernoRules (template : TemplateID) : List Json :=
  match template with
  | .disallowPrivileged =>
    [p.kyvernoValidateRule "deny-privileged" "Privileged containers are not allowed."
      (kyvernoContainerPattern (.object [("privileged", .string "!true")]))]
  | .disallowRoot =>
    [p.kyvernoValidateRule "require-run-as-non-root" "Containers must run as non-root. Set runAsNonRoot to true."
      (kyvernoContainerPattern (.object [("runAsNonRoot", .bool true)]))]
  | .disallowPrivilegeEscalation =>
    [p.kyvernoValidateRule "deny-privilege-escalation"
      "Privilege escalation is not allowed. Set allowPrivilegeEscalation to false."
      (kyvernoContainerPattern (.object [("allowPrivilegeEscalation", .string "!true")]))]
  | .restrictCapabilities =>
    let add := params.capability.allowedAdd.items
    let message := if add = [] then "Capabilities must be restricted."
      else String.join ["Capabilities must be restricted. Only allowed additions: ", ", ".intercalate add, "."]
    [p.kyvernoValidateRule "restrict-capabilities" message
      (kyvernoContainerPattern (.object [("capabilities", capabilityPattern params.capability)]))]
  | .allowedRegistries =>
    [p.kyvernoValidateRule "validate-image-registries" "Images must come from an allowed registry."
      (eachContainer (.object [("image", .string (imagePattern params.registry))]))]
  | .disallowLatestTag =>
    [p.kyvernoValidateRule "validate-image-tag" "Images must have an explicit tag; ':latest' is not allowed."
      (eachContainer (.object [("image", .string "!*:latest & *:*")]))]
  | .requireResourceLimits =>
    [p.kyvernoValidateRule "validate-resource-limits" "CPU and memory resource limits are required."
      (.object [("spec", .object [("containers", .array
        [.object [("resources", .object [("limits", limitsPattern params.resourceLimit)])]])])])]
  | .requireLabels =>
    let labels := params.requireLabels.labels.items
    [p.kyvernoValidateRule "check-for-labels"
      (String.join ["Resources must have the following labels: ", ", ".intercalate labels, "."])
      (.object [("metadata", .object [("labels", .object (labels.dedup.map fun key ↦ (key, .string "?*")))])])]

def toKyverno (template : TemplateID) : Json :=
  let tmpl := policyTemplate template
  .object
    [("apiVersion", .string "kyverno.io/v1"), ("kind", .string "ClusterPolicy"),
      ("metadata", .object [("name", .string p.name), ("annotations", .object
        [("policies.kyverno.io/title", .string tmpl.name), ("policies.kyverno.io/category", .string tmpl.category),
          ("policies.kyverno.io/severity", .string tmpl.severity),
          ("policies.kyverno.io/subject", .string (", ".intercalate p.targetKinds)),
          ("policies.kyverno.io/description", .string (if p.description = "" then tmpl.description else p.description))])]),
      ("spec", .object [("validationFailureAction", .string p.action), ("background", .bool true),
        ("rules", .array (p.kyvernoRules params template))])]

/-! Gatekeeper. -/

/-- The kind of the constraint and the file with its Rego. -/
def gatekeeperTemplateInfo : TemplateID → String × String
  | .disallowPrivileged => ("K8sDisallowPrivileged", "disallow_privileged.rego")
  | .disallowRoot => ("K8sDisallowRoot", "disallow_root.rego")
  | .disallowPrivilegeEscalation => ("K8sDisallowPrivilegeEscalation", "disallow_privilege_escalation.rego")
  | .restrictCapabilities => ("K8sRestrictCapabilities", "restrict_capabilities.rego")
  | .allowedRegistries => ("K8sAllowedRegistries", "allowed_registries.rego")
  | .disallowLatestTag => ("K8sDisallowLatestTag", "disallow_latest_tag.rego")
  | .requireResourceLimits => ("K8sRequireResourceLimits", "require_resource_limits.rego")
  | .requireLabels => ("K8sRequireLabels", "require_labels.rego")

def stringList : Json := .object [("type", .string "array"), ("items", .object [("type", .string "string")])]

def gatekeeperParamSchema (template : TemplateID) : Option Json :=
  let schema (properties : Fields) : Json := .object [("type", .string "object"), ("properties", .object properties)]
  match template with
  | .restrictCapabilities => some (schema [("allowedCapabilities", stringList)])
  | .allowedRegistries => some (schema [("registries", stringList)])
  | .requireResourceLimits => some (schema [("requireCpu", .object [("type", .string "boolean")]),
      ("requireMemory", .object [("type", .string "boolean")])])
  | .requireLabels => some (schema [("labels", stringList)])
  | _ => none

/-- `regoFS` has the texts of the files. -/
def buildConstraintTemplate (regoFS : String → String) (template : TemplateID) : Json :=
  let (kind, regoFile) := gatekeeperTemplateInfo template
  .object
    [("apiVersion", .string "templates.gatekeeper.sh/v1"), ("kind", .string "ConstraintTemplate"),
      ("metadata", .object [("name", .string (String.ofList (kind.toList.map Char.toLower))),
        ("annotations", .object [("description", .string (policyTemplate template).description)])]),
      ("spec", .object [("crd", .object [("spec", .object
          ([("names", .object [("kind", .string kind)])] ++
            match gatekeeperParamSchema template with
            | some schema => [("validation", .object [("openAPIV3Schema", schema)])]
            | none => []))]),
        ("targets", .array [.object [("target", .string "admission.k8s.gatekeeper.sh"),
          ("rego", .string (regoFS ("rego/" ++ regoFile)))]])])]

def apiGroup (kind : String) : String :=
  if kind ∈ ["Deployment", "StatefulSet", "DaemonSet", "ReplicaSet"] then "apps"
  else if kind ∈ ["Job", "CronJob"] then "batch" else ""

/-- The API groups with the target kinds of each. -/
def gatekeeperMatchKinds : List (String × List String) :=
  (["", "apps", "batch"].map fun group ↦ (group, p.targetKinds.filter fun kind ↦ apiGroup kind = group)).filter
    fun entry ↦ entry.2 ≠ []

/-- A nil slice is marshalled as `null`. -/
def sliceValue (s : StringSlice) : Json := if s.isNil then .null else strings s.items

def gatekeeperParams (template : TemplateID) : Option Json :=
  match template with
  | .restrictCapabilities => some (.object [("allowedCapabilities", sliceValue params.capability.allowedAdd)])
  | .allowedRegistries => some (.object [("registries", sliceValue params.registry.registries)])
  | .requireResourceLimits => some (.object [("requireCpu", .bool params.resourceLimit.requireCPU),
      ("requireMemory", .bool params.resourceLimit.requireMemory)])
  | .requireLabels => some (.object [("labels", sliceValue params.requireLabels.labels)])
  | _ => none

def buildConstraint (template : TemplateID) : Json :=
  .object
    [("apiVersion", .string "constraints.gatekeeper.sh/v1beta1"),
      ("kind", .string (gatekeeperTemplateInfo template).1), ("metadata", .object [("name", .string p.name)]),
      ("spec", .object
        ([("enforcementAction", .string p.action), ("match", .object
          ([("kinds", .array (p.gatekeeperMatchKinds.map fun entry ↦
              .object [("apiGroups", strings [entry.1]), ("kinds", strings entry.2)]))] ++
            if p.excludedNamespaces = [] then [] else [("excludedNamespaces", strings p.excludedNamespaces)]))] ++
          match gatekeeperParams params template with
          | some parameters => [("parameters", parameters)]
          | none => []))]

/-- The documents of an engine, before they are marshalled. -/
def documents (regoFS : String → String) (engine : PolicyEngine) (template : TemplateID) : List Json :=
  match engine with
  | .kyverno => [p.toKyverno params template]
  | .gatekeeper => [buildConstraintTemplate regoFS template, p.buildConstraint params template]

def toYAML (regoFS : String → String) (engine : PolicyEngine) (template : TemplateID) : List Json :=
  p.documents p.parsed regoFS engine template

end PolicyWizardInput

end KubeCenter.Wizard
