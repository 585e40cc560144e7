import Mathlib.Data.List.Dedup
import KubeCenter.Wizard.AcceptedPolicy

/-! Templates that are written once for each engine, and the pods on which the two agree. -/

namespace KubeCenter.Wizard

open KubeCenter.Core

inductive SharedRule
  | requireLabels
  | restrictCapabilities
  | requireResourceLimits
  | disallowLatestTag

def SharedRule.template : SharedRule → TemplateID
  | .requireLabels => .requireLabels
  | .restrictCapabilities => .restrictCapabilities
  | .requireResourceLimits => .requireResourceLimits
  | .disallowLatestTag => .disallowLatestTag

namespace Container

variable (c : Container)

def capabilities : Option Capabilities := c.securityContext.bind SecurityContext.capabilities

def dropped : List String := (c.capabilities.map Capabilities.drop).getD []

def added : List String := (c.capabilities.map Capabilities.add).getD []

def HasLimit (name : String) : Prop := (c.limits.lookup name).isSome = true

def WithinLimits (params : ResourceLimitParams) : Prop :=
  (params.requireCPU = true → c.HasLimit "cpu") ∧ (params.requireMemory = true → c.HasLimit "memory")

/-- The image has a tag, which is not the latest. -/
def Tagged : Prop := ¬ ":latest".toList <:+ c.image.toList ∧ ":".toList <:+: c.image.toList

/-- Kyverno demands that what the parameters list be there. -/
def FitsPattern (scalars : ScalarLists) (params : CapabilityParams) : Prop :=
  c.capabilities.isSome = true ∧ (params.dropAll = true → c.dropped ≠ [] ∧ ∀ d ∈ c.dropped, d = "ALL") ∧
    (params.allowedAdd.items ≠ [] →
      c.added ≠ [] ∧ scalars.matchList params.allowedAdd.items c.added = true)

/-- Gatekeeper demands that everything be dropped, whatever the parameters say. -/
def Restricted (params : CapabilityParams) : Prop := "ALL" ∈ c.dropped ∧ ∀ cap ∈ c.added, cap ∈ params.allowedAdd.items

end Container

def kyvernoAccepts (scalars : ScalarLists) (rule : SharedRule) (params : TemplateParams) (pod : Pod) : Prop :=
  match rule with
  | .requireLabels => ∀ key ∈ params.requireLabels.labels.items, ∃ value, pod.labels.lookup key = some value ∧ value ≠ ""
  | .restrictCapabilities => ∀ c ∈ pod.allContainers, c.FitsPattern scalars params.capability
  | .requireResourceLimits => ∀ c ∈ pod.containers, c.WithinLimits params.resourceLimit
  | .disallowLatestTag => ∀ c ∈ pod.allContainers, c.Tagged

def gatekeeperAccepts (rule : SharedRule) (params : TemplateParams) (pod : Pod) : Prop :=
  match rule with
  | .requireLabels => ∀ key ∈ params.requireLabels.labels.items, (pod.labels.lookup key).isSome = true
  | .restrictCapabilities => ∀ c ∈ pod.allContainers, c.Restricted params.capability
  | .requireResourceLimits => ∀ c ∈ pod.containers, c.WithinLimits params.resourceLimit
  | .disallowLatestTag => ∀ c ∈ pod.allContainers, c.image ≠ "" → c.Tagged

variable {scalars : ScalarLists} {lib : TextLibrary} {pod : Pod} {c : Container}

/-! What the engines read of a container and of the labels. -/

theorem lists_nonempty {l : List String} {s : String} : lists (nonempty l strings) s = decide (s ∈ l) := by
  cases l with
  | nil => rfl
  | cons t l => exact lists_strings

theorem nested_capabilities (key : String) : c.toJson.nested ["securityContext", "capabilities", key] =
    (c.capabilities.map Capabilities.toJson).bind fun j ↦ j.fields.get key := by
  rw [Json.nested, c.get_securityContext]
  unfold Container.capabilities
  cases c.securityContext with
  | none => rfl
  | some context =>
    rw [Option.map_some, Option.bind_some, Option.bind_some, Json.nested, context.get_capabilities]
    cases context.capabilities with
    | none => rfl
    | some caps =>
      rw [Option.map_some, Option.bind_some, Option.bind_some, Json.nested]
      cases caps.toJson.fields.get key <;> rfl

theorem nested_drop : c.toJson.nested ["securityContext", "capabilities", "drop"] = nonempty c.dropped strings := by
  rw [nested_capabilities]
  unfold Container.dropped
  cases c.capabilities with
  | none => rfl
  | some caps => exact caps.get_drop

theorem nested_add : c.toJson.nested ["securityContext", "capabilities", "add"] = nonempty c.added strings := by
  rw [nested_capabilities]
  unfold Container.added
  cases c.capabilities with
  | none => rfl
  | some caps => exact caps.get_add

theorem nested_limit (name : String) : c.toJson.nested ["resources", "limits", name] =
    (c.limits.lookup name).map fun q ↦ .string q.text := by
  rw [Json.nested, c.get_resources, Option.bind_some, Json.nested]
  unfold Json.fields
  rw [get_optionalField, if_pos rfl]
  cases hlimits : c.limits with
  | nil => rfl
  | cons e l =>
    have hget := get_map (k := name) (e :: l) fun q ↦ Json.string q.text
    unfold nonempty
    rw [List.isEmpty_cons, if_neg Bool.false_ne_true, Option.bind_some, Json.nested]
    change (Fields.get name ((e :: l).map fun e ↦ (e.1, Json.string e.2.text))).bind _ = _
    rw [hget]
    cases (e :: l).lookup name <;> rfl

theorem message_name : Rego.message c.toJson ["name"] = true := by
  unfold Rego.message
  rw [List.all_cons, List.all_nil, Json.nested, c.get_name]
  rfl

/-! Gatekeeper's modules. -/

theorem each_sliceValue {s : StringSlice} (h : s.Sound) :
    each (some (PolicyWizardInput.sliceValue s)) = s.items.map .string := by
  unfold PolicyWizardInput.sliceValue
  split_ifs with hnil
  · rw [h hnil]
    rfl
  · rfl

theorem provided_toJson : Rego.provided pod.toJson = pod.labels.map Prod.fst := by
  have hlabels : pod.toJson.nested ["metadata", "labels"] =
      nonempty pod.labels fun l ↦ .object (l.map fun e ↦ (e.1, .string e.2)) := by
    simp [Pod.toJson, Json.nested, Json.fields, Fields.get]
  unfold Rego.provided
  rw [hlabels]
  cases pod.labels with
  | nil => rfl
  | cons e l =>
    unfold nonempty
    dsimp only [List.isEmpty_cons]
    rw [if_neg Bool.false_ne_true]
    dsimp only
    rw [List.filter_eq_self.mpr, List.map_map]
    · rfl
    · intro m hm
      obtain ⟨e, -, rfl⟩ := List.mem_map.mp hm
      rfl

theorem lookup_isSome {α : Type} {l : List (String × α)} {key : String} :
    (l.lookup key).isSome = true ↔ key ∈ l.map Prod.fst := by
  rw [List.lookup_isSome_iff, List.mem_map]
  exact exists_congr fun e ↦ and_congr_right fun _ ↦ beq_iff_eq.trans eq_comm

theorem requireLabels_iff {labels : StringSlice} (h : labels.Sound) :
    Rego.requireLabels (.object [("labels", PolicyWizardInput.sliceValue labels)]) pod.toJson = true ↔
      ∃ key ∈ labels.items, ¬ (pod.labels.lookup key).isSome = true := by
  have hparameter : (Json.object [("labels", PolicyWizardInput.sliceValue labels)]).nested ["labels"] =
      some (PolicyWizardInput.sliceValue labels) := by
    simp [Json.nested, Json.fields, Fields.get]
  unfold Rego.requireLabels
  rw [hparameter, each_sliceValue h, List.any_map, List.any_eq_true, provided_toJson]
  refine exists_congr fun key ↦ and_congr_right fun _ ↦ ?_
  rw [lookup_isSome, Function.comp_apply, decide_eq_true_eq]

theorem restrictCapabilities_iff {params : CapabilityParams} (h : params.allowedAdd.Sound) :
    Rego.restrictCapabilities (.object [("allowedCapabilities", PolicyWizardInput.sliceValue params.allowedAdd)])
        pod.toJson = true ↔
      ∃ c ∈ pod.allContainers, ¬ c.Restricted params := by
  have hparameter : (Json.object [("allowedCapabilities", PolicyWizardInput.sliceValue params.allowedAdd)]).nested
      ["allowedCapabilities"] = some (PolicyWizardInput.sliceValue params.allowedAdd) := by
    simp [Json.nested, Json.fields, Fields.get]
  have heach (l : List String) : each (nonempty l strings) = l.map .string := by
    cases l <;> rfl
  unfold Rego.restrictCapabilities
  rw [inputContainers_toJson, List.any_map, List.any_eq_true]
  refine exists_congr fun c ↦ and_congr_right fun _ ↦ ?_
  unfold Container.Restricted
  rw [Function.comp_apply, message_name, Bool.and_true, nested_add, heach, List.any_map]
  unfold Rego.hasDropAll
  rw [nested_drop, lists_nonempty]
  simp only [Bool.or_eq_true, Bool.not_eq_true', decide_eq_false_iff_not, List.any_eq_true, Function.comp_apply,
    Rego.allowedCap, hparameter, lists_sliceValue h]
  simp only [not_and_or, not_forall, exists_prop]

theorem holds_limit (name : String) :
    Rego.holds (c.toJson.nested ["resources", "limits", name]) = (c.limits.lookup name).isSome := by
  rw [nested_limit]
  cases c.limits.lookup name <;> rfl

theorem requireResourceLimits_iff (params : ResourceLimitParams) :
    Rego.requireResourceLimits (.object [("requireCpu", .bool params.requireCPU),
        ("requireMemory", .bool params.requireMemory)]) pod.toJson = true ↔
      ∃ c ∈ pod.containers, ¬ c.WithinLimits params := by
  have hcontainers : pod.toJson.nested ["spec", "containers"] = some (containerArray pod.containers) := by
    simp [Pod.toJson, Json.nested, Json.fields, Fields.get]
  have hcpu (a b : Bool) : (Json.object [("requireCpu", .bool a), ("requireMemory", .bool b)]).nested ["requireCpu"] =
      some (.bool a) := by
    simp [Json.nested, Json.fields, Fields.get]
  have hmemory (a b : Bool) : (Json.object [("requireCpu", .bool a), ("requireMemory", .bool b)]).nested
      ["requireMemory"] = some (.bool b) := by
    simp [Json.nested, Json.fields, Fields.get]
  unfold Rego.requireResourceLimits
  rw [hcontainers]
  unfold containerArray each
  dsimp only
  rw [List.any_map, List.any_eq_true]
  refine exists_congr fun c ↦ and_congr_right fun _ ↦ ?_
  rw [Function.comp_apply, message_name, hcpu, hmemory, holds_limit, holds_limit]
  unfold Container.WithinLimits Container.HasLimit Rego.holds
  rcases params with ⟨cpu, memory⟩
  cases cpu <;> cases memory <;> cases (c.limits.lookup "cpu").isSome <;>
    cases (c.limits.lookup "memory").isSome <;> decide

theorem contains_iff {s part : String} :
    Rego.contains (some (.string s)) (some (.string part)) = true ↔ part.toList <:+: s.toList := by
  unfold Rego.contains Rego.textual
  dsimp only
  rw [List.any_eq_true, List.infix_iff_prefix_suffix]
  simp only [List.mem_tails, List.isPrefixOf_iff_prefix]
  exact ⟨fun ⟨t, hsuffix, hprefix⟩ ↦ ⟨t, hprefix, hsuffix⟩, fun ⟨t, hprefix, hsuffix⟩ ↦ ⟨t, hsuffix, hprefix⟩⟩

theorem endswith_iff {s part : String} :
    Rego.endswith (some (.string s)) (some (.string part)) = true ↔ part.toList <:+ s.toList :=
  List.isSuffixOf_iff_suffix

theorem disallowLatestTag_iff :
    Rego.disallowLatestTag pod.toJson = true ↔ ∃ c ∈ pod.allContainers, ¬ (c.image ≠ "" → c.Tagged) := by
  unfold Rego.disallowLatestTag
  rw [inputContainers_toJson, List.any_map, List.any_eq_true]
  refine exists_congr fun c ↦ and_congr_right fun _ ↦ ?_
  have hname : c.toJson.nested ["name"] = some (.string c.name) := by
    rw [Json.nested, c.get_name]
    rfl
  have himage : c.toJson.nested ["image"] = if c.image = "" then none else some (.string c.image) := by
    rw [Json.nested, c.get_image]
    split_ifs <;> rfl
  unfold Rego.message
  rw [Function.comp_apply, List.all_cons, List.all_cons, List.all_nil, hname, himage]
  by_cases hempty : c.image = ""
  · simp [hempty]
  · rw [if_neg hempty, Option.isSome_some, Option.isSome_some, Bool.and_true, Bool.and_true, Bool.and_true,
      Bool.or_eq_true, Bool.not_eq_true', Bool.eq_false_iff, endswith_iff, Ne.eq_def, contains_iff]
    unfold Container.Tagged
    simp only [hempty, ne_eq, not_false_eq_true, true_imp_iff]
    rw [not_and_or, not_not]

/-! Kyverno's patterns. -/

theorem matchPattern_some {s : String} : matchPattern "?*".toList s.toList = true ↔ s ≠ "" := by
  rw [matchPattern_plain ⟨by decide, by decide, by decide, by decide, by decide⟩]
  exact wildcard_nonempty.trans (not_congr String.toList_eq_nil_iff)

theorem matchPattern_ALL {s : String} : matchPattern "ALL".toList s.toList = true ↔ s = "ALL" := by
  rw [matchPattern_plain ⟨by decide, by decide, by decide, by decide, by decide⟩, wildcard_literal (List.all_eq_true.mp rfl)]
  exact String.toList_inj

theorem matchPattern_tag : matchPattern "!*:latest & *:*".toList c.image.toList = true ↔ c.Tagged := by
  have halternatives : "!*:latest & *:*".toList.splitOn '|' = ["!*:latest & *:*".toList] :=
    List.splitOn_eq_singleton (by decide)
  have hoperands : ((trimBlanks "!*:latest & *:*".toList).splitOn '&').map trimBlanks =
      [('!' :: '*' :: ":latest".toList), ('*' :: (":".toList ++ ['*']))] := by decide
  have hmatch : matchPattern "!*:latest & *:*".toList c.image.toList =
      (((trimBlanks "!*:latest & *:*".toList).splitOn '&').map trimBlanks).all fun q ↦
        matchOperand q c.image.toList := by
    unfold matchPattern
    rw [halternatives, List.any_cons, List.any_nil, Bool.or_false, List.all_map]
    rfl
  rw [hmatch, hoperands, List.all_cons, List.all_cons, List.all_nil, Bool.and_true, Bool.and_eq_true]
  unfold Container.Tagged
  rw [matchOperand_bang, matchOperand_eq (by decide), Bool.not_eq_true', Bool.eq_false_iff, Ne.eq_def,
    wildcard_ends (List.all_eq_true.mp rfl), wildcard_within (List.all_eq_true.mp rfl)]

theorem optionalKey_label {label : String} (h : labelKeyRegex label = true) : optionalKey label = none := by
  have hhead : label.toList.head?.any alphanumeric = true := by
    have hjoin : ['/'].intercalate (label.toList.splitOn '/') = label.toList := List.intercalate_splitOn '/'
    unfold labelKeyRegex at h
    split at h
    · next name hsplit =>
      rw [hsplit] at hjoin
      unfold edged at h
      simp only [Bool.and_eq_true] at h
      rw [← hjoin]
      simpa using h.1.2
    · next domain name hsplit =>
      rw [hsplit] at hjoin
      unfold edged at h
      simp only [Bool.and_eq_true] at h
      have hdomain := h.1.1.2
      rw [← hjoin]
      cases domain with
      | nil => exact absurd hdomain (by decide)
      | cons d ds => simpa using hdomain
    · cases h
  unfold optionalKey
  split
  · next cs hlabel =>
    rw [hlabel] at hhead
    have hequals : alphanumeric '=' = true := hhead
    exact absurd hequals (by decide)
  · rfl

theorem matchJson_labels {labels : List String} (hne : labels ≠ []) (h : ∀ key ∈ labels, optionalKey key = none) :
    matchJson scalars (.object [("metadata", .object [("labels",
        .object (labels.dedup.map fun key ↦ (key, .string "?*")))])]) pod.toJson = true ↔
      ∀ key ∈ labels, ∃ value, pod.labels.lookup key = some value ∧ value ≠ "" := by
  have hmetadata : pod.toJson.fields.get "metadata" = some (.object (optionalField "namespace" (some (.string pod.ns)) ++
      optionalField "labels" (nonempty pod.labels fun l ↦ .object (l.map fun e ↦ (e.1, .string e.2))))) := by
    simp [Pod.toJson, Json.fields, Fields.get]
  have hpod : pod.toJson = .object pod.toJson.fields := rfl
  rw [hpod, matchJson_object, matchFields_required (by decide), matchFields_nil, Bool.and_true, hmetadata,
    Option.any_some, matchJson_object, matchFields_required (by decide), matchFields_nil, Bool.and_true, get_append,
    get_optionalField, get_optionalField, if_neg (by decide), if_pos rfl, Option.none_or]
  have hdedup : ∀ key ∈ labels.dedup, optionalKey key = none := fun key hkey ↦ h key (List.mem_dedup.mp hkey)
  cases hlabels : pod.labels with
  | nil =>
    obtain ⟨key, hkey⟩ := List.exists_mem_of_ne_nil labels hne
    exact iff_of_false Bool.false_ne_true fun hall ↦ by
      obtain ⟨value, hvalue, -⟩ := hall key hkey
      cases hvalue
  | cons e l =>
    unfold nonempty
    rw [List.isEmpty_cons, if_neg Bool.false_ne_true, Option.any_some, matchJson_object, matchFields_map hdedup,
      List.all_eq_true]
    simp only [List.mem_dedup]
    refine forall₂_congr fun key _ ↦ ?_
    rw [get_map (k := key) (e :: l) Json.string]
    cases (e :: l).lookup key with
    | none => simp
    | some value =>
      rw [Option.map_some, Option.any_some, matchJson_string, matchPattern_some]
      simp

theorem matchFields_limits {params : ResourceLimitParams} (h : params.requireCPU = true ∨ params.requireMemory = true) :
    matchFields scalars [("resources", .object [("limits", PolicyWizardInput.limitsPattern params)])] c.toJson.fields =
        true ↔ c.WithinLimits params := by
  have hget (name : String) (l : List (String × QuantityText)) :
      ((Fields.get name (l.map fun e ↦ (e.1, Json.string e.2.text))).any (matchJson scalars (.string "?*"))) =
        (l.lookup name).isSome := by
    rw [get_map (k := name) l fun q ↦ Json.string q.text]
    cases l.lookup name with
    | none => rfl
    | some q =>
      rw [Option.map_some, Option.any_some, matchJson_string, matchPattern_some.mpr q.ne_empty]
      rfl
  rw [matchFields_required (by decide), matchFields_nil, Bool.and_true, c.get_resources, Option.any_some,
    matchJson_object, matchFields_required (by decide), matchFields_nil, Bool.and_true, get_optionalField, if_pos rfl]
  unfold Container.WithinLimits Container.HasLimit
  cases hlimits : c.limits with
  | nil =>
    refine iff_of_false Bool.false_ne_true fun hall ↦ ?_
    rcases h with hcpu | hmemory
    · exact absurd (hall.1 hcpu) Bool.false_ne_true
    · exact absurd (hall.2 hmemory) Bool.false_ne_true
  | cons e l =>
    unfold nonempty PolicyWizardInput.limitsPattern
    rw [List.isEmpty_cons, if_neg Bool.false_ne_true, Option.any_some, matchJson_object, matchFields_append,
      Bool.and_eq_true]
    refine and_congr ?_ ?_
    · split_ifs with hcpu
      · rw [matchFields_required (by decide), matchFields_nil, Bool.and_true, hget]
        simp [hcpu]
      · rw [matchFields_nil]
        simp [hcpu]
    · split_ifs with hmemory
      · rw [matchFields_required (by decide), matchFields_nil, Bool.and_true, hget]
        simp [hmemory]
      · rw [matchFields_nil]
        simp [hmemory]

theorem matchJson_limits {params : ResourceLimitParams} (h : params.requireCPU = true ∨ params.requireMemory = true) :
    matchJson scalars (.object [("spec", .object [("containers", .array
        [.object [("resources", .object [("limits", PolicyWizardInput.limitsPattern params)])]])])]) pod.toJson = true ↔
      ∀ c ∈ pod.containers, c.WithinLimits params := by
  have hspec : pod.toJson.fields.get "spec" = some (.object (optionalField "containers" (some (containerArray pod.containers)) ++
      optionalField "initContainers" (nonempty pod.initContainers containerArray) ++
      optionalField "ephemeralContainers" (nonempty pod.ephemeralContainers containerArray))) := by
    simp [Pod.toJson, Json.fields, Fields.get]
  have hpod : pod.toJson = .object pod.toJson.fields := rfl
  rw [hpod, matchJson_object, matchFields_required (by decide), matchFields_nil, Bool.and_true, hspec,
    Option.any_some, matchJson_object, matchFields_required (by decide), matchFields_nil, Bool.and_true, get_append,
    get_append, get_optionalField, if_pos rfl, Option.some_or, Option.some_or, Option.any_some, matchJson_containers,
    List.all_eq_true]
  exact forall₂_congr fun c _ ↦ matchFields_limits h

theorem matchFields_capabilities {params : CapabilityParams} :
    matchFields scalars [("securityContext", .object [("capabilities", PolicyWizardInput.capabilityPattern params)])]
        c.toJson.fields = true ↔ c.FitsPattern scalars params := by
  rw [matchFields_required (by decide), matchFields_nil, Bool.and_true, c.get_securityContext]
  unfold Container.FitsPattern Container.dropped Container.added Container.capabilities
  cases c.securityContext with
  | none => exact iff_of_false Bool.false_ne_true fun hfits ↦ Bool.false_ne_true hfits.1
  | some context =>
    have hcontext : context.toJson = .object context.toJson.fields := rfl
    rw [Option.map_some, Option.any_some, hcontext, matchJson_object, matchFields_required (by decide),
      matchFields_nil, Bool.and_true, context.get_capabilities, Option.bind_some]
    cases context.capabilities with
    | none => exact iff_of_false Bool.false_ne_true fun hfits ↦ Bool.false_ne_true hfits.1
    | some caps =>
      have hcaps : caps.toJson = .object caps.toJson.fields := rfl
      have hmatch (patterns l : List String) (hpatterns : patterns ≠ []) :
          (nonempty l strings).any (matchJson scalars (strings patterns)) = true ↔
            l ≠ [] ∧ scalars.matchList patterns l = true := by
        cases l with
        | nil => simp [nonempty]
        | cons t l =>
          unfold nonempty strings
          rw [List.isEmpty_cons, if_neg Bool.false_ne_true, Option.any_some, matchJson_strings hpatterns]
          simp
      unfold PolicyWizardInput.capabilityPattern
      rw [Option.map_some, Option.any_some, hcaps, matchJson_object, matchFields_append, Bool.and_eq_true]
      simp only [Option.map_some, Option.getD_some, Option.isSome_some, true_and]
      refine and_congr ?_ ?_
      · split_ifs with hdrop
        · rw [matchFields_required (by decide), matchFields_nil, Bool.and_true, caps.get_drop,
            hmatch _ _ (List.cons_ne_nil _ _), scalars.single, List.all_eq_true]
          simp only [matchPattern_ALL, hdrop, true_imp_iff]
        · rw [matchFields_nil]
          simp [hdrop]
      · split_ifs with hadd
        · rw [matchFields_nil]
          simp [hadd]
        · rw [matchFields_required (by decide), matchFields_nil, Bool.and_true, caps.get_add, hmatch _ _ hadd]
          simp only [ne_eq, hadd, not_false_eq_true, true_imp_iff]

theorem matchFields_tag :
    matchFields scalars [("image", .string "!*:latest & *:*")] c.toJson.fields = true ↔ c.Tagged := by
  rw [matchFields_required (by decide), matchFields_nil, Bool.and_true, c.get_image]
  split_ifs with hempty
  · refine iff_of_false Bool.false_ne_true fun htagged ↦ ?_
    have hnil := htagged.2
    rw [hempty] at hnil
    exact absurd hnil (by decide)
  · rw [Option.any_some, matchJson_string, matchPattern_tag]

/-! The verdicts. -/

theorem kyverno_rejects_iff {rule : SharedRule} (p : AcceptedPolicy lib rule.template) :
    Kyverno.rejects scalars (p.toKyverno p.parsed rule.template) pod.review = true ↔
      p.applies pod = true ∧ ¬ kyvernoAccepts scalars rule p.parsed pod := by
  have hverdict (pattern : Json) (hpattern : matchJson scalars pattern pod.toJson = true ↔
      kyvernoAccepts scalars rule p.parsed pod) : (p.applies pod && !matchJson scalars pattern pod.toJson) = true ↔
        p.applies pod = true ∧ ¬ kyvernoAccepts scalars rule p.parsed pod := by
    rw [Bool.and_eq_true, Bool.not_eq_true', Bool.eq_false_iff, Ne.eq_def, hpattern]
  cases rule with
  | requireLabels =>
    refine (Bool.eq_iff_iff.mp (kyverno_rejects (p := p.toPolicyWizardInput) .requireLabels rfl)).trans (hverdict _ ?_)
    exact matchJson_labels p.labels_ne fun key hkey ↦ optionalKey_label (p.labels_regex hkey)
  | restrictCapabilities =>
    refine (Bool.eq_iff_iff.mp (kyverno_rejects (p := p.toPolicyWizardInput) .restrictCapabilities rfl)).trans
      (hverdict _ ?_)
    unfold PolicyWizardInput.kyvernoContainerPattern
    rw [matchJson_eachContainer, List.all_eq_true]
    exact forall₂_congr fun c _ ↦ matchFields_capabilities
  | requireResourceLimits =>
    refine (Bool.eq_iff_iff.mp (kyverno_rejects (p := p.toPolicyWizardInput) .requireResourceLimits rfl)).trans
      (hverdict _ ?_)
    exact matchJson_limits p.demands
  | disallowLatestTag =>
    refine (Bool.eq_iff_iff.mp (kyverno_rejects (p := p.toPolicyWizardInput) .disallowLatestTag rfl)).trans
      (hverdict _ ?_)
    rw [matchJson_eachContainer, List.all_eq_true]
    exact forall₂_congr fun c _ ↦ matchFields_tag

theorem gatekeeper_violates_iff {rule : SharedRule} (p : AcceptedPolicy lib rule.template) :
    Gatekeeper.violates rule.template (p.buildConstraint p.parsed rule.template) pod.review = true ↔
      p.applies pod = true ∧ ¬ gatekeeperAccepts rule p.parsed pod := by
  rw [gatekeeper_violates, Bool.and_eq_true]
  refine and_congr_right fun _ ↦ ?_
  cases rule with
  | requireLabels =>
    refine (requireLabels_iff p.labels_sound).trans ?_
    unfold gatekeeperAccepts
    simp only [not_forall, exists_prop]
  | restrictCapabilities =>
    refine (restrictCapabilities_iff p.allowedAdd_sound).trans ?_
    unfold gatekeeperAccepts
    simp only [not_forall, exists_prop]
  | requireResourceLimits =>
    refine (requireResourceLimits_iff p.parsed.resourceLimit).trans ?_
    unfold gatekeeperAccepts
    simp only [not_forall, exists_prop]
  | disallowLatestTag =>
    refine disallowLatestTag_iff.trans ?_
    unfold gatekeeperAccepts
    simp only [not_forall, exists_prop]

/-- The engines say the same of a pod. -/
def EnginesAgree (scalars : ScalarLists) (rule : SharedRule) (p : PolicyWizardInput) (pod : Pod) : Prop :=
  Kyverno.rejects scalars (p.toKyverno p.parsed rule.template) pod.review =
    Gatekeeper.violates rule.template (p.buildConstraint p.parsed rule.template) pod.review

/-- Only Kyverno objects: something besides `ALL` is dropped, or nothing of what is allowed is added. -/
def Container.OnlyKyverno (scalars : ScalarLists) (params : CapabilityParams) (c : Container) : Prop :=
  (params.dropAll = true ∧ ∃ d ∈ c.dropped, d ≠ "ALL") ∨
    (params.allowedAdd.items ≠ [] ∧ (c.added = [] ∨ scalars.matchList params.allowedAdd.items c.added = false))

/-- Only Gatekeeper objects: not everything is dropped and it need not be, or something else than what is listed is
added. -/
def Container.OnlyGatekeeper (params : CapabilityParams) (c : Container) : Prop :=
  (params.dropAll = false ∧ "ALL" ∉ c.dropped) ∨ ∃ cap ∈ c.added, cap ∉ params.allowedAdd.items

/-- Neither engine is alone with an objection. -/
def Alike (scalars : ScalarLists) (rule : SharedRule) (params : TemplateParams) (pod : Pod) : Prop :=
  match rule with
  | .requireLabels =>
    (∃ key ∈ params.requireLabels.labels.items, pod.labels.lookup key = none) ∨
      ∀ key ∈ params.requireLabels.labels.items, pod.labels.lookup key ≠ some ""
  | .restrictCapabilities =>
    ((∃ c ∈ pod.allContainers, ¬ c.Restricted params.capability) ∨
        ∀ c ∈ pod.allContainers, ¬ c.OnlyKyverno scalars params.capability) ∧
      ((∃ c ∈ pod.allContainers, ¬ c.FitsPattern scalars params.capability) ∨
        ∀ c ∈ pod.allContainers, ¬ c.OnlyGatekeeper params.capability)
  | .requireResourceLimits => True
  | .disallowLatestTag =>
    (∃ c ∈ pod.allContainers, c.image ≠ "" ∧ ¬ c.Tagged) ∨ ∀ c ∈ pod.allContainers, c.image ≠ ""

variable {params : CapabilityParams}

theorem Container.Restricted.fits_iff (h : c.Restricted params) :
    c.FitsPattern scalars params ↔ ¬ c.OnlyKyverno scalars params := by
  have hsome : c.capabilities.isSome = true := by
    have hmem := h.1
    unfold Container.dropped at hmem
    cases hcaps : c.capabilities with
    | none =>
      rw [hcaps] at hmem
      exact absurd hmem List.not_mem_nil
    | some caps => rfl
  have hdropped : c.dropped ≠ [] := List.ne_nil_of_mem h.1
  unfold Container.FitsPattern Container.OnlyKyverno
  rw [not_or]
  constructor
  · rintro ⟨-, hdrop, hadd⟩
    refine ⟨fun ⟨hall, d, hd, hne⟩ ↦ hne ((hdrop hall).2 d hd), fun ⟨hne, hbad⟩ ↦ ?_⟩
    rcases hbad with hnil | hfalse
    · exact (hadd hne).1 hnil
    · exact Bool.false_ne_true (hfalse.symm.trans (hadd hne).2)
  · rintro ⟨hdrop, hadd⟩
    refine ⟨hsome, fun hall ↦ ⟨hdropped, fun d hd ↦ by_contra fun hne ↦ hdrop ⟨hall, d, hd, hne⟩⟩, fun hne ↦ ?_⟩
    refine ⟨fun hnil ↦ hadd ⟨hne, .inl hnil⟩, ?_⟩
    exact Bool.of_not_eq_false fun hfalse ↦ hadd ⟨hne, .inr hfalse⟩

theorem Container.FitsPattern.restricted_iff (h : c.FitsPattern scalars params) :
    c.Restricted params ↔ ¬ c.OnlyGatekeeper params := by
  obtain ⟨-, hdrop, -⟩ := h
  unfold Container.Restricted Container.OnlyGatekeeper
  rw [not_or]
  refine and_congr ?_ ?_
  · cases hall : params.dropAll with
    | false => simp
    | true =>
      obtain ⟨hne, heach⟩ := hdrop hall
      obtain ⟨d, hd⟩ := List.exists_mem_of_ne_nil _ hne
      exact iff_of_true (heach d hd ▸ hd) fun hnot ↦ Bool.false_ne_true hnot.1.symm
  · simp only [not_exists, not_and, not_not]

/-- Two checks of every element agree where neither fails alone. -/
theorem all_iff_all {α : Type} {l : List α} {A B onlyA onlyB : α → Prop} (hA : ∀ a, B a → (A a ↔ ¬ onlyA a))
    (hB : ∀ a, A a → (B a ↔ ¬ onlyB a)) :
    ((∀ a ∈ l, A a) ↔ ∀ a ∈ l, B a) ↔
      ((∃ a ∈ l, ¬ B a) ∨ ∀ a ∈ l, ¬ onlyA a) ∧ ((∃ a ∈ l, ¬ A a) ∨ ∀ a ∈ l, ¬ onlyB a) := by
  constructor
  · intro h
    constructor
    · by_cases hb : ∀ a ∈ l, B a
      · exact .inr fun a ha ↦ (hA a (hb a ha)).mp (h.mpr hb a ha)
      · simp only [not_forall, exists_prop] at hb
        exact .inl hb
    · by_cases ha : ∀ a ∈ l, A a
      · exact .inr fun a hmem ↦ (hB a (ha a hmem)).mp (h.mp ha a hmem)
      · simp only [not_forall, exists_prop] at ha
        exact .inl ha
  · rintro ⟨h, h'⟩
    constructor
    · intro ha a hmem
      rcases h' with ⟨b, hb, hnot⟩ | hall
      · exact absurd (ha b hb) hnot
      · exact (hB a (ha a hmem)).mpr (hall a hmem)
    · intro hb a hmem
      rcases h with ⟨b, hmem', hnot⟩ | hall
      · exact absurd (hb b hmem') hnot
      · exact (hA a (hb a hmem)).mpr (hall a hmem)

theorem accepts_iff_alike (rule : SharedRule) (params : TemplateParams) :
    (kyvernoAccepts scalars rule params pod ↔ gatekeeperAccepts rule params pod) ↔ Alike scalars rule params pod := by
  cases rule with
  | requireLabels =>
    have halone (key : String) (hsome : (pod.labels.lookup key).isSome = true) :
        (∃ value, pod.labels.lookup key = some value ∧ value ≠ "") ↔ ¬ pod.labels.lookup key = some "" := by
      obtain ⟨value, hvalue⟩ := Option.isSome_iff_exists.mp hsome
      simp [hvalue]
    have hboth (key : String) (h : ∃ value, pod.labels.lookup key = some value ∧ value ≠ "") :
        (pod.labels.lookup key).isSome = true ↔ ¬ False := by
      obtain ⟨value, hvalue, -⟩ := h
      simp [hvalue]
    refine (all_iff_all halone hboth).trans ?_
    unfold Alike
    simp only [Option.isSome_iff_ne_none, not_false_eq_true, not_not, implies_true, or_true, and_true, ne_eq]
  | restrictCapabilities =>
    exact all_iff_all (fun c h ↦ h.fits_iff) fun c h ↦ h.restricted_iff
  | requireResourceLimits => exact iff_of_true Iff.rfl trivial
  | disallowLatestTag =>
    have halone (c : Container) (h : c.image ≠ "" → c.Tagged) : c.Tagged ↔ ¬ c.image = "" := by
      refine ⟨fun htagged hempty ↦ ?_, h⟩
      have hnil := htagged.2
      rw [hempty] at hnil
      exact absurd hnil (by decide)
    have hboth (c : Container) (h : c.Tagged) : (c.image ≠ "" → c.Tagged) ↔ ¬ False :=
      iff_of_true (fun _ ↦ h) not_false
    refine (all_iff_all halone hboth).trans ?_
    unfold Alike
    simp

/-- The engines agree on a pod exactly where neither is alone with an objection. -/
theorem enginesAgree_iff (scalars : ScalarLists) (rule : SharedRule) (p : AcceptedPolicy lib rule.template) (pod : Pod) :
    EnginesAgree scalars rule p.toPolicyWizardInput pod ↔ (p.applies pod = true → Alike scalars rule p.parsed pod) := by
  unfold EnginesAgree
  rw [Bool.eq_iff_iff, kyverno_rejects_iff, gatekeeper_violates_iff, and_congr_right_iff]
  exact imp_congr_right fun _ ↦ not_iff_not.trans (accepts_iff_alike rule p.parsed)

/-- Everything is to be dropped, and nothing may be added. -/
def dropEverything : PolicyWizardInput where
  templateID := "restrict-capabilities"
  engine := "kyverno"
  name := "capabilities"
  action := "Enforce"
  targetKinds := ["Pod"]
  params := some (.object [("dropAll", .bool true)])

def adminPod : Pod where
  ns := "default"
  containers := [{ name := "app", image := "app:1", securityContext := some {
    capabilities := some { add := ["SYS_ADMIN"], drop := ["ALL"] } } }]

/-- Kyverno lets through what is added where the form lists nothing. -/
theorem not_enginesAgree : ¬ ∀ (lib : TextLibrary) (scalars : ScalarLists) (rule : SharedRule)
    (p : AcceptedPolicy lib rule.template) (pod : Pod), EnginesAgree scalars rule p.toPolicyWizardInput pod := by
  intro h
  have hagree := h ⟨Char.toUpper, id⟩ .first .restrictCapabilities ⟨dropEverything, by decide, by decide⟩ adminPod
  have hkyverno : Kyverno.rejects .first (dropEverything.toKyverno dropEverything.parsed .restrictCapabilities)
      adminPod.review = false := by decide
  have hgatekeeper : Gatekeeper.violates .restrictCapabilities
      (dropEverything.buildConstraint dropEverything.parsed .restrictCapabilities) adminPod.review = true := by decide
  exact Bool.false_ne_true (hkyverno.symm.trans (hagree.trans hgatekeeper))

end KubeCenter.Wizard
