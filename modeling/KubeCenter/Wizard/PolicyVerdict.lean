import KubeCenter.Core.JsonPattern
import KubeCenter.Wizard.PolicyRender

/-! Pods as the API server sends them to an engine: what is empty is left out. -/

namespace KubeCenter.Wizard

open KubeCenter.Core

/-- The canonical text of a quantity. -/
structure QuantityText where
  text : String
  ne_empty : text ≠ ""

structure Capabilities where
  add : List String := []
  drop : List String := []

structure SecurityContext where
  privileged : Option Bool := none
  runAsNonRoot : Option Bool := none
  allowPrivilegeEscalation : Option Bool := none
  capabilities : Option Capabilities := none

/-- `limits` are those of its resources. -/
structure Container where
  name : String
  image : String
  limits : List (String × QuantityText) := []
  securityContext : Option SecurityContext := none

structure Pod where
  ns : String
  labels : List (String × String) := []
  containers : List Container
  initContainers : List Container := []
  ephemeralContainers : List Container := []

def optionalField (key : String) (value : Option Json) : Fields := (value.map fun j ↦ (key, j)).toList

def nonempty {α : Type} (l : List α) (j : List α → Json) : Option Json := if l.isEmpty then none else some (j l)

def Capabilities.toJson (c : Capabilities) : Json :=
  .object (optionalField "add" (nonempty c.add strings) ++ optionalField "drop" (nonempty c.drop strings))

def SecurityContext.toJson (c : SecurityContext) : Json :=
  .object
    (optionalField "capabilities" (c.capabilities.map Capabilities.toJson) ++
      optionalField "privileged" (c.privileged.map .bool) ++ optionalField "runAsNonRoot" (c.runAsNonRoot.map .bool) ++
      optionalField "allowPrivilegeEscalation" (c.allowPrivilegeEscalation.map .bool))

def Container.toJson (c : Container) : Json :=
  .object
    (optionalField "name" (some (.string c.name)) ++
      optionalField "image" (if c.image = "" then none else some (.string c.image)) ++
      optionalField "resources" (some (.object (optionalField "limits"
        (nonempty c.limits fun l ↦ .object (l.map fun e ↦ (e.1, .string e.2.text)))))) ++
      optionalField "securityContext" (c.securityContext.map SecurityContext.toJson))

def containerArray (cs : List Container) : Json := .array (cs.map Container.toJson)

namespace Pod

def toJson (pod : Pod) : Json :=
  .object
    [("apiVersion", .string "v1"), ("kind", .string "Pod"),
      ("metadata", .object (optionalField "namespace" (some (.string pod.ns)) ++
        optionalField "labels" (nonempty pod.labels fun l ↦ .object (l.map fun e ↦ (e.1, .string e.2))))),
      ("spec", .object (optionalField "containers" (some (containerArray pod.containers)) ++
        optionalField "initContainers" (nonempty pod.initContainers containerArray) ++
        optionalField "ephemeralContainers" (nonempty pod.ephemeralContainers containerArray)))]

def allContainers (pod : Pod) : List Container := pod.containers ++ pod.initContainers ++ pod.ephemeralContainers

end Pod

/-! What the fields of these objects are. -/

variable {key k : String} {value : Option Json} {a b : Fields}

@[simp] theorem get_append : Fields.get k (a ++ b) = (Fields.get k a).or (Fields.get k b) := by
  induction a with
  | nil => rfl
  | cons m a ih =>
    rw [List.cons_append, Fields.get, Fields.get, ih]
    split
    · rfl
    · rfl

@[simp] theorem get_optionalField : (optionalField key value).get k = if key = k then value else none := by
  cases value with
  | none => simp [optionalField, Fields.get]
  | some j => simp [optionalField, Fields.get]

theorem get_map {α : Type} (l : List (String × α)) (j : α → Json) :
    Fields.get k (l.map fun e ↦ (e.1, j e.2)) = (l.lookup k).map j := by
  induction l with
  | nil => rfl
  | cons e l ih =>
    rw [List.map_cons, Fields.get, List.lookup_cons]
    by_cases h : e.1 = k
    · simp [h]
    · have hk : (k == e.1) = false := by simpa using Ne.symm h
      rw [if_neg h, hk, ih]

namespace Container

variable (c : Container)

theorem get_name : c.toJson.fields.get "name" = some (.string c.name) := by
  simp [toJson, Json.fields]

theorem get_image : c.toJson.fields.get "image" = if c.image = "" then none else some (.string c.image) := by
  simp [toJson, Json.fields]

theorem get_resources : c.toJson.fields.get "resources" = some (.object (optionalField "limits"
    (nonempty c.limits fun l ↦ .object (l.map fun e ↦ (e.1, .string e.2.text))))) := by
  simp [toJson, Json.fields]

theorem get_securityContext :
    c.toJson.fields.get "securityContext" = c.securityContext.map SecurityContext.toJson := by
  simp [toJson, Json.fields]

end Container

theorem SecurityContext.get_capabilities (c : SecurityContext) :
    c.toJson.fields.get "capabilities" = c.capabilities.map Capabilities.toJson := by
  simp [toJson, Json.fields]

theorem Capabilities.get_add (c : Capabilities) : c.toJson.fields.get "add" = nonempty c.add strings := by
  simp [toJson, Json.fields]

theorem Capabilities.get_drop (c : Capabilities) : c.toJson.fields.get "drop" = nonempty c.drop strings := by
  simp [toJson, Json.fields]

end KubeCenter.Wizard

/-! What the engines make of the documents of a policy. -/

namespace KubeCenter.Wizard

open KubeCenter.Core

/-- What is reviewed. -/
structure Review where
  group : String
  kind : String
  object : Json

def Pod.review (pod : Pod) : Review := ⟨"", "Pod", pod.toJson⟩

/-- `x[_]` -/
def each : Option Json → List Json
  | some (.array js) => js
  | some (.object fields) => fields.map Prod.snd
  | _ => []

def isText (s : String) : Json → Bool
  | .string t => t = s
  | _ => false

def lists (o : Option Json) (s : String) : Bool := (each o).any (isText s)

namespace Kyverno

def selects (rule : Json) (review : Review) : Bool :=
  (each (rule.nested ["match", "any"])).any fun m ↦ lists (m.nested ["resources", "kinds"]) review.kind

def excludes (rule : Json) (review : Review) : Bool :=
  (each (rule.nested ["exclude", "any"])).any fun m ↦
    lists (m.nested ["resources", "namespaces"]) (review.object.nestedString ["metadata", "namespace"])

def rejects (scalars : ScalarLists) (policy : Json) (review : Review) : Bool :=
  (each (policy.nested ["spec", "rules"])).any fun rule ↦
    selects rule review && !excludes rule review &&
      !(rule.nested ["validate", "pattern"]).all fun pattern ↦ matchJson scalars pattern review.object

end Kyverno

/-! The modules of the directory rego. A body holds where each of its expressions is defined and not false; the
message is one of them. -/

namespace Rego

def holds : Option Json → Bool
  | none => false
  | some (.bool b) => b
  | some _ => true

def inputContainers (object : Json) : List Json :=
  each (object.nested ["spec", "containers"]) ++ each (object.nested ["spec", "initContainers"]) ++
    each (object.nested ["spec", "ephemeralContainers"])

/-- A builtin of two texts; of anything else it is undefined. -/
def textual (f : List Char → List Char → Bool) : Option Json → Option Json → Bool
  | some (.string s), some (.string t) => f s.toList t.toList
  | _, _ => false

def startswith : Option Json → Option Json → Bool := textual fun s base ↦ base.isPrefixOf s

def endswith : Option Json → Option Json → Bool := textual fun s base ↦ base.isSuffixOf s

def contains : Option Json → Option Json → Bool := textual fun s part ↦ s.tails.any part.isPrefixOf

/-- The message has the values of these fields. -/
def message (c : Json) (names : List String) : Bool := names.all fun name ↦ (c.nested [name]).isSome

def startswithAny (str prefixes : Option Json) : Bool := (each prefixes).any fun base ↦ startswith str (some base)

def allowedRegistries (parameters object : Json) : Bool :=
  (inputContainers object).any fun c ↦
    !startswithAny (c.nested ["image"]) (parameters.nested ["registries"]) && message c ["name", "image"]

def disallowLatestTag (object : Json) : Bool :=
  (inputContainers object).any fun c ↦
    (endswith (c.nested ["image"]) (some (.string ":latest")) ||
      !contains (c.nested ["image"]) (some (.string ":"))) && message c ["name", "image"]

def hasDropAll (c : Json) : Bool := lists (c.nested ["securityContext", "capabilities", "drop"]) "ALL"

def allowedCap (parameters : Json) : Json → Bool
  | .string cap => lists (parameters.nested ["allowedCapabilities"]) cap
  | _ => false

def restrictCapabilities (parameters object : Json) : Bool :=
  (inputContainers object).any fun c ↦
    (!hasDropAll c ||
      (each (c.nested ["securityContext", "capabilities", "add"])).any fun cap ↦ !allowedCap parameters cap) &&
    message c ["name"]

def requireResourceLimits (parameters object : Json) : Bool :=
  (each (object.nested ["spec", "containers"])).any fun c ↦
    (holds (parameters.nested ["requireCpu"]) && !holds (c.nested ["resources", "limits", "cpu"]) ||
      holds (parameters.nested ["requireMemory"]) && !holds (c.nested ["resources", "limits", "memory"])) &&
    message c ["name"]

/-- The keys of the labels whose values are not false. -/
def provided (object : Json) : List String :=
  match object.nested ["metadata", "labels"] with
  | some (.object labels) => (labels.filter fun m ↦ holds (some m.2)).map Prod.fst
  | _ => []

def requireLabels (parameters object : Json) : Bool :=
  (each (parameters.nested ["labels"])).any fun label ↦
    match label with
    | .string s => s ∉ provided object
    | _ => true

def onSecurityContext (check : Json → Bool) (object : Json) : Bool :=
  (inputContainers object).any fun c ↦ check c && message c ["name"]

def disallowPrivileged : Json → Bool := onSecurityContext fun c ↦ holds (c.nested ["securityContext", "privileged"])

def disallowRoot : Json → Bool := onSecurityContext fun c ↦ !holds (c.nested ["securityContext", "runAsNonRoot"])

def disallowPrivilegeEscalation : Json → Bool :=
  onSecurityContext fun c ↦ holds (c.nested ["securityContext", "allowPrivilegeEscalation"])

def violation (template : TemplateID) (parameters object : Json) : Bool :=
  match template with
  | .disallowPrivileged => disallowPrivileged object
  | .disallowRoot => disallowRoot object
  | .disallowPrivilegeEscalation => disallowPrivilegeEscalation object
  | .restrictCapabilities => restrictCapabilities parameters object
  | .allowedRegistries => allowedRegistries parameters object
  | .disallowLatestTag => disallowLatestTag object
  | .requireResourceLimits => requireResourceLimits parameters object
  | .requireLabels => requireLabels parameters object

end Rego

namespace Gatekeeper

def selects (constraint : Json) (review : Review) : Bool :=
  (each (constraint.nested ["spec", "match", "kinds"])).any fun m ↦
    lists (m.nested ["apiGroups"]) review.group && lists (m.nested ["kinds"]) review.kind

def excludes (constraint : Json) (review : Review) : Bool :=
  lists (constraint.nested ["spec", "match", "excludedNamespaces"])
    (review.object.nestedString ["metadata", "namespace"])

/-- A constraint of a template reports a violation; without parameters the template sees an empty object. -/
def violates (template : TemplateID) (constraint : Json) (review : Review) : Bool :=
  selects constraint review && !excludes constraint review &&
    Rego.violation template ((constraint.nested ["spec", "parameters"]).getD (.object [])) review.object

end Gatekeeper

/-! Both read who is meant from the form. -/

def PolicyWizardInput.applies (p : PolicyWizardInput) (pod : Pod) : Bool :=
  "Pod" ∈ p.targetKinds && pod.ns ∉ p.excludedNamespaces

variable {s : String} {l : List String} {pod : Pod} {p : PolicyWizardInput} {params : TemplateParams}

theorem lists_strings : lists (some (strings l)) s = decide (s ∈ l) := by
  unfold lists strings each
  rw [List.any_map, Bool.eq_iff_iff, List.any_eq_true, decide_eq_true_eq]
  constructor
  · rintro ⟨t, ht, heq⟩
    have hts : t = s := by simpa [isText] using heq
    exact hts ▸ ht
  · intro hs
    exact ⟨s, hs, by simp [isText]⟩

theorem review_ns : pod.review.object.nestedString ["metadata", "namespace"] = pod.ns := by
  simp [Pod.review, Pod.toJson, Json.nestedString, Json.nested, Json.fields, Fields.get]

theorem kyverno_selects {name message : String} {pattern : Json} :
    Kyverno.selects (p.kyvernoValidateRule name message pattern) pod.review = decide ("Pod" ∈ p.targetKinds) := by
  have hmatch : (p.kyvernoValidateRule name message pattern).nested ["match", "any"] =
      some (.array [.object [("resources", .object [("kinds", strings p.targetKinds)])]]) := by
    simp [PolicyWizardInput.kyvernoValidateRule, Json.nested, Json.fields, Fields.get]
  unfold Kyverno.selects
  rw [hmatch]
  have hkinds : (Json.object [("resources", .object [("kinds", strings p.targetKinds)])]).nested ["resources", "kinds"] =
      some (strings p.targetKinds) := by
    simp [Json.nested, Json.fields, Fields.get]
  simp only [each, List.any_cons, List.any_nil, Bool.or_false, hkinds, lists_strings]
  rfl

theorem kyverno_excludes {name message : String} {pattern : Json} :
    Kyverno.excludes (p.kyvernoValidateRule name message pattern) pod.review =
      decide (pod.ns ∈ p.excludedNamespaces) := by
  unfold Kyverno.excludes
  rw [review_ns]
  by_cases h : p.excludedNamespaces = []
  · simp [PolicyWizardInput.kyvernoValidateRule, Json.nested, Json.fields, Fields.get, h, each]
  · have hexclude : (p.kyvernoValidateRule name message pattern).nested ["exclude", "any"] =
        some (.array [.object [("resources", .object [("namespaces", strings p.excludedNamespaces)])]]) := by
      simp [PolicyWizardInput.kyvernoValidateRule, Json.nested, Json.fields, Fields.get, h]
    have hnamespaces : (Json.object [("resources", .object [("namespaces", strings p.excludedNamespaces)])]).nested
        ["resources", "namespaces"] = some (strings p.excludedNamespaces) := by
      simp [Json.nested, Json.fields, Fields.get]
    rw [hexclude]
    simp only [each, List.any_cons, List.any_nil, Bool.or_false, hnamespaces, lists_strings]

/-- A policy of one rule rejects the pods it applies to that its pattern does not match. -/
theorem kyverno_rejects {scalars : ScalarLists} (template : TemplateID) {name message : String} {pattern : Json}
    (h : p.kyvernoRules params template = [p.kyvernoValidateRule name message pattern]) :
    Kyverno.rejects scalars (p.toKyverno params template) pod.review =
      (p.applies pod && !matchJson scalars pattern pod.toJson) := by
  have hrules : (p.toKyverno params template).nested ["spec", "rules"] =
      some (.array [p.kyvernoValidateRule name message pattern]) := by
    rw [← h]
    simp [PolicyWizardInput.toKyverno, Json.nested, Json.fields, Fields.get]
  have hpattern : (p.kyvernoValidateRule name message pattern).nested ["validate", "pattern"] = some pattern := by
    simp [PolicyWizardInput.kyvernoValidateRule, Json.nested, Json.fields, Fields.get]
  unfold Kyverno.rejects
  rw [hrules]
  simp only [each, List.any_cons, List.any_nil, Bool.or_false, kyverno_selects, kyverno_excludes, hpattern,
    Option.all_some, PolicyWizardInput.applies, decide_not]
  rfl

theorem gatekeeper_selects {template : TemplateID} :
    Gatekeeper.selects (p.buildConstraint params template) pod.review = decide ("Pod" ∈ p.targetKinds) := by
  have hkinds : (p.buildConstraint params template).nested ["spec", "match", "kinds"] =
      some (.array (p.gatekeeperMatchKinds.map fun entry ↦
        .object [("apiGroups", strings [entry.1]), ("kinds", strings entry.2)])) := by
    simp [PolicyWizardInput.buildConstraint, Json.nested, Json.fields, Fields.get]
  have hgroups (entry : String × List String) : (Json.object [("apiGroups", strings [entry.1]),
      ("kinds", strings entry.2)]).nested ["apiGroups"] = some (strings [entry.1]) := by
    simp [Json.nested, Json.fields, Fields.get]
  have hnames (entry : String × List String) : (Json.object [("apiGroups", strings [entry.1]),
      ("kinds", strings entry.2)]).nested ["kinds"] = some (strings entry.2) := by
    simp [Json.nested, Json.fields, Fields.get]
  unfold Gatekeeper.selects
  rw [hkinds]
  unfold each
  dsimp only
  rw [List.any_map, Bool.eq_iff_iff, List.any_eq_true, decide_eq_true_eq]
  simp only [Function.comp_apply, hgroups, hnames, lists_strings, Bool.and_eq_true, decide_eq_true_eq,
    List.mem_singleton]
  unfold PolicyWizardInput.gatekeeperMatchKinds
  constructor
  · rintro ⟨entry, hentry, -, hpod⟩
    obtain ⟨group, -, rfl⟩ := List.mem_map.mp (List.mem_filter.mp hentry).1
    exact (List.mem_filter.mp hpod).1
  · intro hpod
    have hmem : "Pod" ∈ p.targetKinds.filter fun kind ↦ PolicyWizardInput.apiGroup kind = "" :=
      List.mem_filter.mpr ⟨hpod, by decide⟩
    refine ⟨_, List.mem_filter.mpr ⟨List.mem_map_of_mem List.mem_cons_self, ?_⟩, rfl, hmem⟩
    exact decide_eq_true (List.ne_nil_of_mem hmem)

theorem gatekeeper_excludes {template : TemplateID} :
    Gatekeeper.excludes (p.buildConstraint params template) pod.review = decide (pod.ns ∈ p.excludedNamespaces) := by
  unfold Gatekeeper.excludes
  rw [review_ns]
  by_cases h : p.excludedNamespaces = []
  · simp [PolicyWizardInput.buildConstraint, Json.nested, Json.fields, Fields.get, h, lists, each]
  · have hexclude : (p.buildConstraint params template).nested ["spec", "match", "excludedNamespaces"] =
        some (strings p.excludedNamespaces) := by
      simp [PolicyWizardInput.buildConstraint, Json.nested, Json.fields, Fields.get, h]
    rw [hexclude, lists_strings]

theorem gatekeeper_violates {template : TemplateID} :
    Gatekeeper.violates template (p.buildConstraint params template) pod.review =
      (p.applies pod && Rego.violation template ((PolicyWizardInput.gatekeeperParams params template).getD (.object []))
        pod.toJson) := by
  have hparams : ((p.buildConstraint params template).nested ["spec", "parameters"]) =
      PolicyWizardInput.gatekeeperParams params template := by
    cases h : PolicyWizardInput.gatekeeperParams params template with
    | none => simp [PolicyWizardInput.buildConstraint, Json.nested, Json.fields, Fields.get, h]
    | some j => simp [PolicyWizardInput.buildConstraint, Json.nested, Json.fields, Fields.get, h]
  unfold Gatekeeper.violates
  rw [gatekeeper_selects, gatekeeper_excludes, hparams]
  unfold PolicyWizardInput.applies
  rw [decide_not]
  rfl

end KubeCenter.Wizard
