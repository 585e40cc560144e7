import KubeCenter.Wizard.PolicyParams
import KubeCenter.Wizard.PolicyVerdict

/-! Forms that are accepted, and the containers that the engines look at. -/

namespace KubeCenter.Wizard

open KubeCenter.Core

theorem firstRejected_eq_nil {reject : String → Option String} {field : String} {i : ℕ} {l : List String} :
    firstRejected reject field i l = [] ↔ ∀ s ∈ l, reject s = none := by
  induction l generalizing i with
  | nil => simp [firstRejected]
  | cons s l ih =>
    unfold firstRejected
    cases h : reject s with
    | some message => simp [h]
    | none => simp [h, ih]

/-- A form for a template. -/
structure AcceptedPolicy (lib : TextLibrary) (template : TemplateID) extends PolicyWizardInput where
  template_eq : templateOf toPolicyWizardInput.templateID = some template
  accepted : toPolicyWizardInput.validate lib = []

namespace PolicyWizardInput

variable {p : PolicyWizardInput}

/-- A list that is accepted has elements, and none of them is rejected. -/
theorem validateList_eq_nil {σ : Type} {fields : List (StructField σ)} {zero : σ} {items : σ → StringSlice}
    {field invalid empty : String} {reject : String → Option String}
    (h : p.validateList fields zero items field invalid empty reject = []) :
    (items (parseParams p.params fields zero)).items ≠ [] ∧
      ∀ s ∈ (items (parseParams p.params fields zero)).items, reject s = none := by
  unfold validateList at h
  cases hdecoded : decoded p.params fields zero with
  | none =>
    rw [hdecoded] at h
    exact absurd h (List.cons_ne_nil _ _)
  | some value =>
    rw [hdecoded] at h
    dsimp only at h
    split_ifs at h with hempty
    rw [parseParams_of_decoded hdecoded]
    exact ⟨hempty, firstRejected_eq_nil.mp h⟩

theorem parseParams_sound {σ : Type} {fields : List (StructField σ)} {start : σ} (items : σ → StringSlice)
    (h : ∀ f ∈ fields, ∀ j s, (items s).Sound → (items (f.decode j s).1).Sound) (hstart : (items start).Sound) :
    (items (parseParams p.params fields start)).Sound := by
  unfold parseParams
  cases p.params with
  | none => exact hstart
  | some doc => exact StructField.unmarshal_keeps (P := fun s ↦ (items s).Sound) h doc hstart

theorem registries_sound : p.parsed.registry.registries.Sound := by
  refine parseParams_sound RegistryParams.registries (fun f hf j s hs ↦ ?_) (fun _ ↦ rfl)
  obtain rfl := List.mem_singleton.mp hf
  exact decodeStrings_sound (by intros; rfl) j hs

theorem labels_sound : p.parsed.requireLabels.labels.Sound := by
  refine parseParams_sound RequireLabelsParams.labels (fun f hf j s hs ↦ ?_) (fun _ ↦ rfl)
  obtain rfl := List.mem_singleton.mp hf
  exact decodeStrings_sound (by intros; rfl) j hs

theorem allowedAdd_sound : p.parsed.capability.allowedAdd.Sound := by
  refine parseParams_sound CapabilityParams.allowedAdd (fun f hf j s hs ↦ ?_) (fun _ ↦ rfl)
  rcases List.mem_pair.mp hf with rfl | rfl
  · rwa [decodeBool_other CapabilityParams.allowedAdd (by intros; rfl)]
  · exact decodeStrings_sound (by intros; rfl) j hs

end PolicyWizardInput

/-- Nil or not, an engine sees the items of a slice. -/
theorem lists_sliceValue {s : StringSlice} (h : s.Sound) (text : String) :
    lists (some (PolicyWizardInput.sliceValue s)) text = decide (text ∈ s.items) := by
  unfold PolicyWizardInput.sliceValue
  split_ifs with hnil
  · rw [h hnil]
    rfl
  · exact lists_strings

namespace AcceptedPolicy

variable {lib : TextLibrary}

theorem validateParams_eq {template : TemplateID} (p : AcceptedPolicy lib template) :
    p.validateParams lib template = [] := by
  have h := p.accepted
  unfold PolicyWizardInput.validate at h
  rw [p.template_eq] at h
  exact (List.append_eq_nil_iff.mp h).2

theorem registries_ne (p : AcceptedPolicy lib .allowedRegistries) : p.parsed.registry.registries.items ≠ [] :=
  (PolicyWizardInput.validateList_eq_nil p.validateParams_eq).1

theorem registries_regex (p : AcceptedPolicy lib .allowedRegistries) {reg : String}
    (h : reg ∈ p.parsed.registry.registries.items) : registryPatternRegex reg = true := by
  have hnone := (PolicyWizardInput.validateList_eq_nil p.validateParams_eq).2 reg h
  unfold PolicyWizardInput.rejectRegistry at hnone
  split_ifs at hnone with _ hregex
  simpa using hregex

theorem labels_ne (p : AcceptedPolicy lib .requireLabels) : p.parsed.requireLabels.labels.items ≠ [] :=
  (PolicyWizardInput.validateList_eq_nil p.validateParams_eq).1

theorem labels_regex (p : AcceptedPolicy lib .requireLabels) {label : String}
    (h : label ∈ p.parsed.requireLabels.labels.items) : labelKeyRegex label = true := by
  have hnone := (PolicyWizardInput.validateList_eq_nil p.validateParams_eq).2 label h
  unfold PolicyWizardInput.rejectLabel at hnone
  split_ifs at hnone with _ hregex
  simpa using hregex

/-- A limit that is checked to be demanded is demanded. -/
theorem demands (p : AcceptedPolicy lib .requireResourceLimits) :
    p.parsed.resourceLimit.requireCPU = true ∨ p.parsed.resourceLimit.requireMemory = true := by
  have h := p.validateParams_eq
  unfold PolicyWizardInput.validateParams PolicyWizardInput.validateResourceLimits at h
  cases hdecoded : decoded p.params ResourceLimitParams.fields {} with
  | none =>
    rw [hdecoded] at h
    exact absurd h (List.cons_ne_nil _ _)
  | some value =>
    rw [hdecoded] at h
    have hvalue : p.checked.resourceLimit = value := PolicyWizardInput.parseParams_of_decoded hdecoded
    have hone := check_eq_nil.mp h
    rw [← hvalue, PolicyWizardInput.resourceLimit_checked] at hone
    rw [PolicyWizardInput.resourceLimit_parsed]
    dsimp only at hone ⊢
    generalize p.params.bind (stated "requireCpu") = cpu at hone ⊢
    generalize p.params.bind (stated "requireMemory") = memory at hone ⊢
    revert hone
    rcases cpu with _ | (_ | _) <;> rcases memory with _ | (_ | _) <;> decide

end AcceptedPolicy

/-! Containers of every kind. -/

variable {scalars : ScalarLists} {entry : Fields} {pod : Pod}

theorem matchJson_container (c : Container) :
    matchJson scalars (.object entry) c.toJson = matchFields scalars entry c.toJson.fields := matchJson_object

theorem matchJson_containers (cs : List Container) :
    matchJson scalars (.array [.object entry]) (containerArray cs) =
      cs.all fun c ↦ matchFields scalars entry c.toJson.fields := by
  unfold containerArray
  rw [matchJson_each, List.all_map]
  exact congrArg cs.all (funext matchJson_container)

theorem all_nonempty (cs : List Container) :
    (nonempty cs containerArray).all (matchJson scalars (.array [.object entry])) =
      cs.all fun c ↦ matchFields scalars entry c.toJson.fields := by
  cases cs with
  | nil => rfl
  | cons c cs => exact matchJson_containers (c :: cs)

theorem matchJson_eachContainer :
    matchJson scalars (PolicyWizardInput.eachContainer (.object entry)) pod.toJson =
      pod.allContainers.all fun c ↦ matchFields scalars entry c.toJson.fields := by
  have hspec : pod.toJson.fields.get "spec" = some (.object (optionalField "containers" (some (containerArray pod.containers)) ++
      optionalField "initContainers" (nonempty pod.initContainers containerArray) ++
      optionalField "ephemeralContainers" (nonempty pod.ephemeralContainers containerArray))) := by
    simp [Pod.toJson, Json.fields, Fields.get]
  have hpod : pod.toJson = .object pod.toJson.fields := rfl
  unfold PolicyWizardInput.eachContainer
  rw [hpod, matchJson_object, matchFields_required (by decide), matchFields_nil, Bool.and_true, hspec, Option.any_some,
    matchJson_object, matchFields_required (by decide), matchFields_optional (show optionalKey "=(initContainers)" = some "initContainers" by decide),
    matchFields_optional (show optionalKey "=(ephemeralContainers)" = some "ephemeralContainers" by decide), matchFields_nil, Bool.and_true]
  simp only [get_append, get_optionalField]
  simp [matchJson_containers, all_nonempty, Pod.allContainers]

theorem each_nonempty (cs : List Container) : each (nonempty cs containerArray) = cs.map Container.toJson := by
  cases cs with
  | nil => rfl
  | cons c cs => rfl

theorem inputContainers_toJson : Rego.inputContainers pod.toJson = pod.allContainers.map Container.toJson := by
  have hcontainers : pod.toJson.nested ["spec", "containers"] = some (containerArray pod.containers) := by
    simp [Pod.toJson, Json.nested, Json.fields, Fields.get]
  have hinit : pod.toJson.nested ["spec", "initContainers"] = nonempty pod.initContainers containerArray := by
    simp [Pod.toJson, Json.nested, Json.fields, Fields.get]
  have hephemeral : pod.toJson.nested ["spec", "ephemeralContainers"] =
      nonempty pod.ephemeralContainers containerArray := by
    simp [Pod.toJson, Json.nested, Json.fields, Fields.get]
  unfold Rego.inputContainers Pod.allContainers
  rw [hcontainers, hinit, hephemeral, each_nonempty, each_nonempty, List.map_append, List.map_append]
  rfl

end KubeCenter.Wizard
