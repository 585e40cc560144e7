import KubeCenter.Wizard.PolicyRender

/-! The parameters that are checked and those that are rendered: one document is decoded twice. -/

namespace KubeCenter.Wizard

open KubeCenter.Core

namespace PolicyWizardInput

variable (p : PolicyWizardInput)

/-- What the checks decode, into zero values. -/
def checked : TemplateParams where
  capability := parseParams p.params CapabilityParams.fields {}
  registry := parseParams p.params RegistryParams.fields {}
  resourceLimit := parseParams p.params ResourceLimitParams.fields {}
  requireLabels := parseParams p.params RequireLabelsParams.fields {}

/-- The document states the field as a boolean. -/
def states (name : String) : Bool := (p.params.bind (stated name)).isSome

/-- The document states the fields that are rendered over another default than they are checked over. -/
def statesDefaults (engine : PolicyEngine) (template : TemplateID) : Bool :=
  match template, engine with
  | .restrictCapabilities, .kyverno => p.states "dropAll"
  | .requireResourceLimits, _ => p.states "requireCpu" && p.states "requireMemory"
  | _, _ => true

/-- What is decoded of a document that decodes is what the checks see. -/
theorem parseParams_of_decoded {σ : Type} {params : Option Json} {fields : List (StructField σ)} {zero value : σ}
    (h : decoded params fields zero = some value) : parseParams params fields zero = value := by
  unfold decoded at h
  unfold parseParams
  cases params with
  | none => exact Option.some.inj h
  | some doc =>
    dsimp only at h ⊢
    split_ifs at h
    exact Option.some.inj h

variable {p}

theorem parseParams_bool {σ : Type} {fields : List (StructField σ)} {name : String} (proj : σ → Bool) (start : σ)
    (h : ∀ doc, proj (StructField.unmarshal fields doc start).1 = (stated name doc).getD (proj start)) :
    proj (parseParams p.params fields start) = (p.params.bind (stated name)).getD (proj start) := by
  unfold parseParams
  cases p.params with
  | none => rfl
  | some doc => exact h doc

theorem decodeBool_eq {σ : Type} {put : Bool → σ → σ} {proj : σ → Bool} (hput : ∀ b s, proj (put b s) = b) (j : Json)
    (s : σ) : proj (decodeBool put j s).1 = (boolOf j).getD (proj s) := by
  cases j with
  | bool b => exact hput b s
  | _ => rfl

theorem decodeBool_other {σ β : Type} {put : Bool → σ → σ} (proj : σ → β) (hput : ∀ b s, proj (put b s) = proj s)
    (j : Json) (s : σ) : proj (decodeBool put j s).1 = proj s := by
  cases j with
  | bool b => exact hput b s
  | _ => rfl

theorem decodeStrings_other {σ β : Type} {get : σ → StringSlice} {put : StringSlice → σ → σ} (proj : σ → β)
    (hput : ∀ l s, proj (put l s) = proj s) (j : Json) (s : σ) : proj (decodeStrings get put j s).1 = proj s := by
  cases j with
  | null => exact hput _ s
  | array js =>
    cases js with
    | nil => exact hput _ s
    | cons _ _ => exact hput _ s
  | _ => rfl

theorem dropAll_unmarshal (start : CapabilityParams) (doc : Json) :
    (StructField.unmarshal CapabilityParams.fields doc start).1.dropAll = (stated "dropAll" doc).getD start.dropAll := by
  refine StructField.unmarshal_bool ⟨_, List.mem_cons_self, rfl⟩ ?_ ?_ doc start
  · intro f hf hname j s
    rcases List.mem_pair.mp hf with rfl | rfl
    · exact decodeBool_eq (fun _ _ ↦ rfl) j s
    · exact absurd hname (by decide)
  · intro f hf hname j s
    rcases List.mem_pair.mp hf with rfl | rfl
    · exact absurd rfl hname
    · exact decodeStrings_other CapabilityParams.dropAll (by intros; rfl) j s

theorem requireCPU_unmarshal (start : ResourceLimitParams) (doc : Json) :
    (StructField.unmarshal ResourceLimitParams.fields doc start).1.requireCPU =
      (stated "requireCpu" doc).getD start.requireCPU := by
  refine StructField.unmarshal_bool ⟨_, List.mem_cons_self, rfl⟩ ?_ ?_ doc start
  · intro f hf hname j s
    rcases List.mem_pair.mp hf with rfl | rfl
    · exact decodeBool_eq (fun _ _ ↦ rfl) j s
    · exact absurd hname (by decide)
  · intro f hf hname j s
    rcases List.mem_pair.mp hf with rfl | rfl
    · exact absurd rfl hname
    · exact decodeBool_other ResourceLimitParams.requireCPU (by intros; rfl) j s

theorem requireMemory_unmarshal (start : ResourceLimitParams) (doc : Json) :
    (StructField.unmarshal ResourceLimitParams.fields doc start).1.requireMemory =
      (stated "requireMemory" doc).getD start.requireMemory := by
  refine StructField.unmarshal_bool ⟨_, List.mem_cons_of_mem _ List.mem_cons_self, rfl⟩ ?_ ?_ doc start
  · intro f hf hname j s
    rcases List.mem_pair.mp hf with rfl | rfl
    · exact absurd hname (by decide)
    · exact decodeBool_eq (fun _ _ ↦ rfl) j s
  · intro f hf hname j s
    rcases List.mem_pair.mp hf with rfl | rfl
    · exact decodeBool_other ResourceLimitParams.requireMemory (by intros; rfl) j s
    · exact absurd rfl hname

theorem allowedAdd_parsed : p.parsed.capability.allowedAdd = p.checked.capability.allowedAdd := by
  unfold parsed checked parseCapabilityParams parseParams
  cases p.params with
  | none => rfl
  | some doc =>
    refine StructField.unmarshal_congr (fun f hf j s t hst ↦ ?_) doc rfl
    rcases List.mem_pair.mp hf with rfl | rfl
    · have hkeep (r : CapabilityParams) : (decodeBool (fun b (q : CapabilityParams) ↦ { q with dropAll := b }) j r).1.allowedAdd =
          r.allowedAdd := decodeBool_other CapabilityParams.allowedAdd (by intros; rfl) j r
      exact ((hkeep s).trans hst).trans (hkeep t).symm
    · dsimp only [decodeStrings]
      cases j with
      | null => rfl
      | array js =>
        cases js with
        | nil => rfl
        | cons _ _ =>
          dsimp only
          rw [hst]
      | _ => exact hst

theorem dropAll_parsed : p.parsed.capability.dropAll = (p.params.bind (stated "dropAll")).getD true :=
  parseParams_bool CapabilityParams.dropAll _ (dropAll_unmarshal _)

theorem dropAll_checked : p.checked.capability.dropAll = (p.params.bind (stated "dropAll")).getD false :=
  parseParams_bool CapabilityParams.dropAll _ (dropAll_unmarshal _)

theorem resourceLimit_parseParams (start : ResourceLimitParams) :
    parseParams p.params ResourceLimitParams.fields start =
      ⟨(p.params.bind (stated "requireCpu")).getD start.requireCPU,
        (p.params.bind (stated "requireMemory")).getD start.requireMemory⟩ := by
  rw [← parseParams_bool ResourceLimitParams.requireCPU start (requireCPU_unmarshal start),
    ← parseParams_bool ResourceLimitParams.requireMemory start (requireMemory_unmarshal start)]

theorem resourceLimit_parsed : p.parsed.resourceLimit =
    ⟨(p.params.bind (stated "requireCpu")).getD true, (p.params.bind (stated "requireMemory")).getD true⟩ :=
  resourceLimit_parseParams ⟨true, true⟩

theorem resourceLimit_checked : p.checked.resourceLimit =
    ⟨(p.params.bind (stated "requireCpu")).getD false, (p.params.bind (stated "requireMemory")).getD false⟩ :=
  resourceLimit_parseParams ⟨false, false⟩

theorem getD_true_eq_getD_false {o : Option Bool} : o.getD true = o.getD false ↔ o.isSome = true := by
  cases o with
  | none => decide
  | some b => exact iff_of_true rfl rfl

/-! The documents show the parameters. -/

theorem capabilityPattern_inj {a b : CapabilityParams} (h : a.allowedAdd = b.allowedAdd) :
    capabilityPattern a = capabilityPattern b ↔ a.dropAll = b.dropAll := by
  unfold capabilityPattern
  rw [h]
  cases a.dropAll <;> cases b.dropAll <;> cases b.allowedAdd.items <;> simp [strings]

theorem limitsPattern_inj {a b : ResourceLimitParams} : limitsPattern a = limitsPattern b ↔ a = b := by
  obtain ⟨cpu, memory⟩ := a
  obtain ⟨cpu', memory'⟩ := b
  unfold limitsPattern
  cases cpu <;> cases memory <;> cases cpu' <;> cases memory' <;> simp

theorem toKyverno_restrictCapabilities {a b : TemplateParams} (h : a.capability.allowedAdd = b.capability.allowedAdd) :
    p.toKyverno a .restrictCapabilities = p.toKyverno b .restrictCapabilities ↔
      a.capability.dropAll = b.capability.dropAll := by
  rw [← capabilityPattern_inj h]
  simp [toKyverno, kyvernoRules, kyvernoValidateRule, kyvernoContainerPattern, eachContainer, h]

theorem documents_requireResourceLimits {a b : TemplateParams} (regoFS : String → String) (engine : PolicyEngine) :
    p.documents a regoFS engine .requireResourceLimits = p.documents b regoFS engine .requireResourceLimits ↔
      a.resourceLimit = b.resourceLimit := by
  cases engine with
  | kyverno =>
    rw [← limitsPattern_inj]
    simp [documents, toKyverno, kyvernoRules, kyvernoValidateRule]
  | gatekeeper =>
    have hext : a.resourceLimit = b.resourceLimit ↔ a.resourceLimit.requireCPU = b.resourceLimit.requireCPU ∧
        a.resourceLimit.requireMemory = b.resourceLimit.requireMemory := by
      cases a.resourceLimit
      cases b.resourceLimit
      simp
    rw [hext]
    simp [documents, buildConstraint, gatekeeperParams]

/-- The form is rendered with the parameters that were checked exactly where the document states those whose
defaults differ. -/
theorem toYAML_eq_iff (p : PolicyWizardInput) (regoFS : String → String) (engine : PolicyEngine)
    (template : TemplateID) :
    p.toYAML regoFS engine template = p.documents p.checked regoFS engine template ↔
      p.statesDefaults engine template = true := by
  unfold toYAML
  cases template with
  | restrictCapabilities =>
    cases engine with
    | kyverno =>
      unfold statesDefaults states
      rw [← getD_true_eq_getD_false, ← dropAll_parsed, ← dropAll_checked,
        ← toKyverno_restrictCapabilities (p := p) allowedAdd_parsed]
      simp [documents]
    | gatekeeper =>
      refine iff_of_true ?_ rfl
      simp only [documents, buildConstraint, gatekeeperParams, allowedAdd_parsed]
  | requireResourceLimits =>
    rw [documents_requireResourceLimits, resourceLimit_parsed, resourceLimit_checked]
    unfold statesDefaults states
    simp only [ResourceLimitParams.mk.injEq, getD_true_eq_getD_false, Bool.and_eq_true]
  | _ => cases engine <;> exact iff_of_true rfl rfl

/-- A form that asks for a memory limit and says nothing of the CPU. -/
def memoryOnly : PolicyWizardInput where
  templateID := "require-resource-limits"
  engine := "kyverno"
  name := "limits"
  action := "Enforce"
  targetKinds := ["Pod"]
  params := some (.object [("requireMemory", .bool true)])

/-- It is accepted, and the policy demands a CPU limit too. -/
theorem not_toYAML_eq : ¬ ∀ (lib : TextLibrary) (p : PolicyWizardInput) (regoFS : String → String)
    (engine : PolicyEngine) (template : TemplateID), p.validate lib = [] → engine.name = p.engine →
      templateOf p.templateID = some template →
      p.toYAML regoFS engine template = p.documents p.checked regoFS engine template := by
  intro h
  have heq := h ⟨Char.toUpper, id⟩ memoryOnly id .kyverno .requireResourceLimits (by decide) rfl (by decide)
  unfold toYAML at heq
  rw [documents_requireResourceLimits, resourceLimit_parsed, resourceLimit_checked] at heq
  revert heq
  decide

end PolicyWizardInput

end KubeCenter.Wizard
