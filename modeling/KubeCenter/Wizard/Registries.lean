import KubeCenter.Wizard.AcceptedPolicy

/-! Which images the registries of a policy let in. -/

namespace KubeCenter.Wizard

open KubeCenter.Core

def withoutSlash (reg : String) : List Char :=
  if reg.toList.getLast? = some '/' then reg.toList.dropLast else reg.toList

/-- The image stands below the registry. -/
def Below (reg image : String) : Prop := ∃ path, path ≠ [] ∧ image.toList = withoutSlash reg ++ '/' :: path

/-- What an engine compares the beginning of an image with. -/
def tested (engine : PolicyEngine) (reg : String) : List Char :=
  match engine with
  | .kyverno => withoutSlash reg ++ ['/']
  | .gatekeeper => reg.toList

/-- What follows the tested text goes on with a path. -/
def Clean (engine : PolicyEngine) (reg : String) (rest : List Char) : Prop :=
  if (tested engine reg).getLast? = some '/' then rest ≠ [] else ∃ path, path ≠ [] ∧ rest = '/' :: path

/-- No registry's test is passed; Gatekeeper does not look at a container without an image. -/
def Refused (engine : PolicyEngine) (registries : List String) (image : String) : Prop :=
  (engine = .gatekeeper → image ≠ "") ∧ ∀ reg ∈ registries, ¬ tested engine reg <+: image.toList

def PassesCleanly (engine : PolicyEngine) (registries : List String) (image : String) : Prop :=
  ∃ reg ∈ registries, ∃ rest, image.toList = tested engine reg ++ rest ∧ Clean engine reg rest

def PathExact (registries : List String) (pod : Pod) : Prop :=
  ∀ c ∈ pod.allContainers, ∃ reg ∈ registries, Below reg c.image

/-- The policy of an engine lets the pod in. -/
def admits (scalars : ScalarLists) (engine : PolicyEngine) (template : TemplateID) (p : PolicyWizardInput) (pod : Pod) :
    Bool :=
  match engine with
  | .kyverno => !Kyverno.rejects scalars (p.toKyverno p.parsed template) pod.review
  | .gatekeeper => !Gatekeeper.violates template (p.buildConstraint p.parsed template) pod.review

variable (engine : PolicyEngine) {reg image : String} {registries : List String}

/-- What stands below a registry passes its test cleanly, in both engines. -/
theorem below_iff : Below reg image ↔ ∃ rest, image.toList = tested engine reg ++ rest ∧ Clean engine reg rest := by
  unfold Below Clean
  cases engine with
  | kyverno =>
    have hlast : (tested .kyverno reg).getLast? = some '/' := List.getLast?_concat
    simp only [hlast, if_true]
    unfold tested
    constructor
    · rintro ⟨path, hpath, himage⟩
      exact ⟨path, by rw [himage, List.append_assoc]; rfl, hpath⟩
    · rintro ⟨rest, himage, hrest⟩
      exact ⟨rest, hrest, by rw [himage, List.append_assoc]; rfl⟩
  | gatekeeper =>
    unfold tested withoutSlash
    dsimp only
    split_ifs with hlast
    · have hreg := List.dropLast_append_getLast? _ hlast
      constructor
      · rintro ⟨path, hpath, himage⟩
        refine ⟨path, ?_, hpath⟩
        rw [himage, ← List.singleton_append, ← List.append_assoc, hreg]
      · rintro ⟨rest, himage, hrest⟩
        refine ⟨rest, hrest, ?_⟩
        rw [himage, ← List.singleton_append (l := rest), ← List.append_assoc, hreg]
    · constructor
      · rintro ⟨path, hpath, himage⟩
        exact ⟨'/' :: path, himage, path, hpath, rfl⟩
      · rintro ⟨rest, himage, path, hpath, rfl⟩
        exact ⟨path, hpath, himage⟩

theorem pathExact_iff {pod : Pod} :
    PathExact registries pod ↔ ∀ c ∈ pod.allContainers, PassesCleanly engine registries c.image := by
  unfold PathExact PassesCleanly
  simp only [below_iff engine]

variable {engine}

theorem PassesCleanly.not_refused (h : PassesCleanly engine registries image) : ¬ Refused engine registries image := by
  rintro ⟨-, hnone⟩
  obtain ⟨reg, hreg, rest, himage, -⟩ := h
  exact hnone reg hreg (himage ▸ List.prefix_append _ rest)

/-! Kyverno's pattern. -/

theorem registryPattern_toList : (PolicyWizardInput.registryPattern reg).toList = tested .kyverno reg ++ ['*'] := by
  unfold PolicyWizardInput.registryPattern tested withoutSlash
  dsimp only
  split_ifs with h
  · rw [List.dropLast_append_getLast? _ h, String.toList_append]
    rfl
  · rw [String.toList_append, List.append_assoc]
    rfl

/-- A character of an accepted registry. -/
def registryChar (c : Char) : Bool := alphanumeric c || c = '.' || c = '_' || c = '/' || c = '-'

theorem tested_chars (h : registryPatternRegex reg = true) {c : Char} (hc : c ∈ tested .kyverno reg) :
    registryChar c = true := by
  have hall : ∀ c ∈ reg.toList, registryChar c = true := List.all_eq_true.mp (Bool.and_eq_true_iff.mp h).2
  unfold tested withoutSlash at hc
  dsimp only at hc
  obtain hc | hc := List.mem_append.mp hc
  · split_ifs at hc
    · exact hall c (List.mem_of_mem_dropLast hc)
    · exact hall c hc
  · rw [List.mem_singleton.mp hc]
    decide

theorem registryChar_ne {c d : Char} (hc : registryChar c = true) (hd : registryChar d = false) : c ≠ d := by
  rintro rfl
  rw [hd] at hc
  cases hc

theorem tested_head (h : registryPatternRegex reg = true) :
    ∃ c cs, tested .kyverno reg = c :: cs ∧ registryChar c = true := by
  cases htested : tested .kyverno reg with
  | nil => exact absurd (List.append_eq_nil_iff.mp htested).2 (List.cons_ne_nil _ _)
  | cons c cs => exact ⟨c, cs, rfl, tested_chars h (htested ▸ List.mem_cons_self)⟩

theorem plain_registryPattern (h : registryPatternRegex reg = true) :
    Plain (PolicyWizardInput.registryPattern reg).toList := by
  have hmem (d : Char) (hd : registryChar d = false) (hstar : d ≠ '*') : d ∉ tested .kyverno reg ++ ['*'] := by
    intro hin
    obtain hin | hin := List.mem_append.mp hin
    · exact registryChar_ne (tested_chars h hin) hd rfl
    · exact hstar (List.mem_singleton.mp hin)
  obtain ⟨c, cs, htested, hc⟩ := tested_head h
  have hhead (d : Char) (hd : registryChar d = false) : (tested .kyverno reg ++ ['*']).head? ≠ some d := by
    rw [htested]
    exact fun heq ↦ registryChar_ne hc hd (Option.some.inj heq)
  rw [registryPattern_toList]
  refine ⟨hmem '|' (by decide) (by decide), hmem '&' (by decide) (by decide), hhead '!' (by decide),
    hhead ' ' (by decide), ?_⟩
  rw [List.getLast?_concat]
  decide

/-- The image pattern matches what passes one of the tests. -/
theorem imagePattern_iff (image : String) {params : RegistryParams} (hne : params.registries.items ≠ [])
    (h : ∀ reg ∈ params.registries.items, registryPatternRegex reg = true) :
    matchPattern (PolicyWizardInput.imagePattern params).toList image.toList = true ↔
      ∃ reg ∈ params.registries.items, tested .kyverno reg <+: image.toList := by
  unfold PolicyWizardInput.imagePattern
  rw [String.toList_intercalate, List.map_map]
  have hplain : ∀ q ∈ params.registries.items.map (String.toList ∘ PolicyWizardInput.registryPattern), Plain q := by
    intro q hq
    obtain ⟨reg, hreg, rfl⟩ := List.mem_map.mp hq
    exact plain_registryPattern (h reg hreg)
  change matchPattern ([' ', '|', ' '].intercalate _) _ = true ↔ _
  rw [matchPattern_intercalate (mt List.map_eq_nil_iff.mp hne) hplain, List.any_map, List.any_eq_true]
  refine exists_congr fun reg ↦ and_congr_right fun hreg ↦ ?_
  rw [Function.comp_apply, Function.comp_apply, registryPattern_toList]
  refine wildcard_starts fun c hc ↦ ?_
  have hchar := tested_chars (h reg hreg) hc
  unfold isLiteral
  simp [registryChar_ne hchar (show registryChar '*' = false by decide),
    registryChar_ne hchar (show registryChar '?' = false by decide)]

variable {lib : TextLibrary} {scalars : ScalarLists}

theorem kyverno_admits (p : AcceptedPolicy lib .allowedRegistries) (pod : Pod) :
    admits scalars .kyverno .allowedRegistries p.toPolicyWizardInput pod = true ↔
      (p.applies pod = true → ∀ c ∈ pod.allContainers, ¬ Refused .kyverno p.parsed.registry.registries.items c.image) := by
  have hrefused (c : Container) : ¬ Refused .kyverno p.parsed.registry.registries.items c.image ↔
      matchFields scalars [("image", .string (PolicyWizardInput.imagePattern p.parsed.registry))] c.toJson.fields = true := by
    have hpattern := imagePattern_iff c.image p.registries_ne fun reg ↦ p.registries_regex
    rw [matchFields_required (by decide), matchFields_nil, Bool.and_true, c.get_image]
    unfold Refused
    by_cases himage : c.image = ""
    · rw [if_pos himage, himage]
      refine iff_of_false (fun hnot ↦ hnot ⟨fun heq ↦ absurd heq (by decide), fun reg _ hprefix ↦ ?_⟩) Bool.false_ne_true
      have hnil := List.prefix_nil.mp hprefix
      exact List.cons_ne_nil _ _ (List.append_eq_nil_iff.mp hnil).2
    · rw [if_neg himage, Option.any_some, matchJson_string, hpattern]
      constructor
      · intro hnot
        by_contra hnone
        exact hnot ⟨fun heq ↦ absurd heq (by decide), fun reg hreg hprefix ↦ hnone ⟨reg, hreg, hprefix⟩⟩
      · rintro ⟨reg, hreg, hprefix⟩ ⟨-, hnone⟩
        exact hnone reg hreg hprefix
  unfold admits
  dsimp only
  rw [kyverno_rejects (p := p.toPolicyWizardInput) .allowedRegistries rfl, matchJson_eachContainer]
  simp only [hrefused]
  cases p.applies pod with
  | false => simp
  | true => simp

/-! Gatekeeper's module. -/

theorem startswithAny_iff (image : String) {s : StringSlice} (h : s.Sound) :
    Rego.startswithAny (some (.string image)) (some (PolicyWizardInput.sliceValue s)) = true ↔
      ∃ reg ∈ s.items, tested .gatekeeper reg <+: image.toList := by
  unfold Rego.startswithAny PolicyWizardInput.sliceValue
  split_ifs with hnil
  · rw [h hnil]
    simp [each]
  · unfold strings each
    dsimp only
    rw [List.any_map, List.any_eq_true]
    exact exists_congr fun reg ↦ and_congr_right fun _ ↦ List.isPrefixOf_iff_prefix

theorem gatekeeper_admits (p : AcceptedPolicy lib .allowedRegistries) (pod : Pod) :
    admits scalars .gatekeeper .allowedRegistries p.toPolicyWizardInput pod = true ↔
      (p.applies pod = true → ∀ c ∈ pod.allContainers, ¬ Refused .gatekeeper p.parsed.registry.registries.items c.image) := by
  have hrefused (c : Container) : Refused .gatekeeper p.parsed.registry.registries.items c.image ↔
      (!Rego.startswithAny (c.toJson.nested ["image"]) (some (PolicyWizardInput.sliceValue p.parsed.registry.registries)) &&
        Rego.message c.toJson ["name", "image"]) = true := by
    have hany := startswithAny_iff c.image (PolicyWizardInput.registries_sound (p := p.toPolicyWizardInput))
    have hname : c.toJson.nested ["name"] = some (.string c.name) := by
      rw [Json.nested, c.get_name]
      rfl
    have himage : c.toJson.nested ["image"] = if c.image = "" then none else some (.string c.image) := by
      rw [Json.nested, c.get_image]
      split_ifs <;> rfl
    unfold Refused Rego.message
    rw [List.all_cons, List.all_cons, List.all_nil, hname, himage]
    by_cases hempty : c.image = ""
    · simp [hempty]
    · rw [if_neg hempty, Option.isSome_some, Option.isSome_some, Bool.and_true, Bool.and_true, Bool.and_true,
        Bool.not_eq_true', Bool.eq_false_iff, Ne.eq_def, Ne.eq_def, hany]
      simp [hempty]
  unfold admits
  dsimp only
  rw [gatekeeper_violates]
  have hviolation : Rego.violation .allowedRegistries ((PolicyWizardInput.gatekeeperParams p.parsed
      .allowedRegistries).getD (.object [])) pod.toJson = true ↔
        ∃ c ∈ pod.allContainers, Refused .gatekeeper p.parsed.registry.registries.items c.image := by
    unfold Rego.violation Rego.allowedRegistries
    dsimp only
    rw [inputContainers_toJson, List.any_map, List.any_eq_true]
    exact exists_congr fun c ↦ and_congr_right fun _ ↦ (hrefused c).symm
  cases p.applies pod with
  | false => simp
  | true =>
    rw [Bool.true_and, Bool.not_eq_true', Bool.eq_false_iff, ne_eq, hviolation]
    simp

theorem admits_iff (p : AcceptedPolicy lib .allowedRegistries) (pod : Pod) :
    admits scalars engine .allowedRegistries p.toPolicyWizardInput pod = true ↔
      (p.applies pod = true → ∀ c ∈ pod.allContainers, ¬ Refused engine p.parsed.registry.registries.items c.image) := by
  cases engine with
  | kyverno => exact kyverno_admits p pod
  | gatekeeper => exact gatekeeper_admits p pod

/-- The pods that a policy applies to are let in by their images' paths. -/
def RestrictsByPath (scalars : ScalarLists) (engine : PolicyEngine) (p : PolicyWizardInput) (pod : Pod) : Prop :=
  p.applies pod = true →
    (admits scalars engine .allowedRegistries p pod = true ↔ PathExact p.parsed.registry.registries.items pod)

/-- An image that passes a test and does not go on with a path is let in by mistake, unless another is refused. -/
theorem restrictsByPath_iff (scalars : ScalarLists) (engine : PolicyEngine) (p : AcceptedPolicy lib .allowedRegistries)
    (pod : Pod) :
    RestrictsByPath scalars engine p.toPolicyWizardInput pod ↔
      (p.applies pod = true →
        (∃ c ∈ pod.allContainers, Refused engine p.parsed.registry.registries.items c.image) ∨
          ∀ c ∈ pod.allContainers, PassesCleanly engine p.parsed.registry.registries.items c.image) := by
  unfold RestrictsByPath
  refine imp_congr_right fun happlies ↦ ?_
  rw [admits_iff, pathExact_iff engine]
  simp only [happlies, true_imp_iff]
  constructor
  · intro h
    by_cases hrefused : ∃ c ∈ pod.allContainers, Refused engine p.parsed.registry.registries.items c.image
    · exact .inl hrefused
    · exact .inr (h.mp fun c hc hr ↦ hrefused ⟨c, hc, hr⟩)
  · rintro (⟨c, hc, hr⟩ | hall)
    · exact iff_of_false (fun hnone ↦ hnone c hc hr) fun hclean ↦ (hclean c hc).not_refused hr
    · exact iff_of_true (fun c hc ↦ (hall c hc).not_refused) hall

/-- One organisation of a registry. -/
def myorgOnly : PolicyWizardInput where
  templateID := "allowed-registries"
  engine := "gatekeeper"
  name := "registries"
  action := "deny"
  targetKinds := ["Pod"]
  params := some (.object [("registries", strings ["ghcr.io/myorg"])])

/-- The image of another one. -/
def evilPod : Pod where
  ns := "default"
  containers := [{ name := "app", image := "ghcr.io/myorg-evil/app" }]

theorem not_restrictsByPath : ¬ ∀ (lib : TextLibrary) (scalars : ScalarLists) (engine : PolicyEngine)
    (p : AcceptedPolicy lib .allowedRegistries) (pod : Pod), RestrictsByPath scalars engine p.toPolicyWizardInput pod := by
  intro h
  have hexact := (h ⟨Char.toUpper, id⟩ .first .gatekeeper ⟨myorgOnly, by decide, by decide⟩ evilPod (by decide)).mp
    (by decide)
  obtain ⟨reg, hreg, path, -, himage⟩ := hexact _ List.mem_cons_self
  obtain rfl : reg = "ghcr.io/myorg" := List.mem_singleton.mp hreg
  have hdash : some '-' = some '/' := congrArg (fun l : List Char ↦ l[13]?) himage
  exact absurd hdash (by decide)

end KubeCenter.Wizard
