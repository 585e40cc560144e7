import KubeCenter.Wizard.NamespaceLimits

/-! The objects of a namespace's limits, and the forms for which they make sense to a cluster and to the monitor. -/

namespace KubeCenter.Wizard

open KubeCenter.Core

variable {Q : Type} [LinearOrder Q] [Zero Q] (lib : QuantityLibrary Q)

/-! What is built where everything parses. -/

def QuantityLibrary.value (s : String) : Q := (lib.quantity s).getD 0

def pairList (rp : ResourcePair) : GoMap String Q :=
  AList.insert "memory" (lib.value rp.memory) (AList.insert "cpu" (lib.value rp.cpu) ∅)

def givenList (key s : String) (list : GoMap String Q) : GoMap String Q :=
  if s = "" then list else list.insert key (lib.value s)

namespace NamespaceLimitsInput

variable (n : NamespaceLimitsInput)

def countedHard : GoMap String Q :=
  insertCount lib "persistentvolumeclaims" n.quota.pvcsHard (insertCount lib "services" n.quota.servicesHard
    (insertCount lib "configmaps" n.quota.configMapsHard (insertCount lib "secrets" n.quota.secretsHard
      (AList.insert "pods" (lib.value (itoa n.quota.podsHard)) (AList.insert "memory" (lib.value n.quota.memoryHard)
        (AList.insert "cpu" (lib.value n.quota.cpuHard) ∅))))))

def builtQuota : ResourceQuotaObject Q :=
  ⟨n.quotaName, n.ns, n.thresholdAnnotations, givenList lib "nvidia.com/gpu" n.quota.gpuHard (n.countedHard lib)⟩

def builtContainer : LimitRangeItem Q where
  itemType := "Container"
  default := pairList lib n.limits.containerDefault
  defaultRequest := pairList lib n.limits.containerDefaultRequest
  max := pairList lib n.limits.containerMax
  min := pairList lib n.limits.containerMin

def builtPod : List (LimitRangeItem Q) :=
  match n.limits.podMax with
  | none => []
  | some podMax =>
    if podMax.cpu = "" ∧ podMax.memory = "" then []
    else [{ itemType := "Pod", max := givenList lib "memory" podMax.memory (givenList lib "cpu" podMax.cpu ∅) }]

def builtPVC : List (LimitRangeItem Q) :=
  if n.limits.pvcMinStorage = "" ∧ n.limits.pvcMaxStorage = "" then []
  else [{ itemType := "PersistentVolumeClaim", min := givenList lib "storage" n.limits.pvcMinStorage ∅
          max := givenList lib "storage" n.limits.pvcMaxStorage ∅ }]

def builtRange : LimitRangeObject Q :=
  ⟨n.limitRangeName, n.ns, n.builtContainer lib :: (n.builtPod lib ++ n.builtPVC lib)⟩

end NamespaceLimitsInput

variable {lib}

theorem parseNamed_ok {what s : String} (h : lib.parses s = true) : parseNamed lib what s = .ok (lib.value s) := by
  unfold QuantityLibrary.parses QuantityLibrary.quantity at h
  unfold parseNamed QuantityLibrary.value QuantityLibrary.quantity
  cases hparse : lib.parseQuantity s with
  | ok q => rfl
  | error err =>
    rw [hparse] at h
    cases h

/-- A text is left empty or parses. -/
def QuantityLibrary.Fine (lib : QuantityLibrary Q) (s : String) : Prop := s = "" ∨ lib.parses s = true

theorem insertGiven_ok {what key s : String} {list : GoMap String Q} (h : lib.Fine s) :
    insertGiven lib what key s list = .ok (givenList lib key s list) := by
  unfold insertGiven givenList
  split_ifs with hempty
  · rfl
  · rw [parseNamed_ok (h.resolve_left hempty)]
    rfl

theorem parseResourcePair_ok {rp : ResourcePair} {name : String} (hcpu : lib.parses rp.cpu = true)
    (hmemory : lib.parses rp.memory = true) : parseResourcePair lib rp name = .ok (pairList lib rp) := by
  unfold parseResourcePair
  rw [parseNamed_ok hcpu, parseNamed_ok hmemory]
  rfl

theorem parses_count (c : ℕ) : lib.parses (itoa c) = true ∧ 0 ≤ lib.value (itoa c) := by
  obtain ⟨q, hq, hnonneg⟩ := lib.parse_count c
  unfold QuantityLibrary.parses QuantityLibrary.value QuantityLibrary.quantity
  rw [hq]
  exact ⟨rfl, hnonneg⟩

/-! Forms that are accepted. -/

structure AcceptedNamespaceLimits (lib : QuantityLibrary Q) extends NamespaceLimitsInput where
  accepted : toNamespaceLimitsInput.validate lib = []

theorem optionalQuantity_eq_nil {field message s : String} :
    optionalQuantity lib field message s = [] ↔ lib.Fine s := by
  unfold optionalQuantity QuantityLibrary.Fine
  rw [check_eq_nil]
  by_cases hempty : s = ""
  · simp [hempty]
  · simp [hempty]

theorem requiredQuantity_eq_nil {field message s : String} (h : requiredQuantity lib field message s = []) :
    lib.parses s = true := by
  unfold requiredQuantity at h
  split_ifs at h
  simpa [check_eq_nil] using h

/-- Both values of a pair that must be there. -/
theorem pair_accepted {path : String} {rp : ResourcePair} (h : validateResourcePair lib path rp true = []) :
    lib.parses rp.cpu = true ∧ lib.parses rp.memory = true := by
  unfold validateResourcePair at h
  rw [if_pos rfl, List.append_eq_nil_iff] at h
  exact ⟨requiredQuantity_eq_nil h.1, requiredQuantity_eq_nil h.2⟩

theorem pair_fine {path : String} {rp : ResourcePair} (h : validateResourcePair lib path rp false = []) :
    lib.Fine rp.cpu ∧ lib.Fine rp.memory := by
  unfold validateResourcePair at h
  rw [if_neg Bool.false_ne_true, List.append_eq_nil_iff] at h
  exact ⟨optionalQuantity_eq_nil.mp h.1, optionalQuantity_eq_nil.mp h.2⟩

/-- Texts that parse are compared by their values. -/
theorem less_eq_false {s t : String} (hs : lib.parses s = true) (ht : lib.parses t = true) :
    lib.less s t = false ↔ lib.value t ≤ lib.value s := by
  obtain ⟨a, ha⟩ := Option.isSome_iff_exists.mp hs
  obtain ⟨b, hb⟩ := Option.isSome_iff_exists.mp ht
  unfold QuantityLibrary.less QuantityLibrary.value
  rw [ha, hb]
  simp

/-- The four comparisons make a chain. -/
theorem ordering_accepted {resource : String} {part : ResourcePair → String} {limits : LimitConfig}
    (hmin : lib.parses (part limits.containerMin) = true) (hreq : lib.parses (part limits.containerDefaultRequest) = true)
    (hdef : lib.parses (part limits.containerDefault) = true) (hmax : lib.parses (part limits.containerMax) = true)
    (h : validateOrdering lib resource part limits = []) :
    lib.value (part limits.containerMin) ≤ lib.value (part limits.containerDefaultRequest) ∧
      lib.value (part limits.containerDefaultRequest) ≤ lib.value (part limits.containerDefault) ∧
        lib.value (part limits.containerDefault) ≤ lib.value (part limits.containerMax) := by
  unfold validateOrdering at h
  simp only [List.append_eq_nil_iff, check_eq_nil] at h
  obtain ⟨⟨⟨-, hreqMin⟩, hdefMax⟩, hreqDef⟩ := h
  exact ⟨(less_eq_false hreq hmin).mp hreqMin, (less_eq_false hdef hreq).mp hreqDef, (less_eq_false hmax hdef).mp hdefMax⟩

namespace AcceptedNamespaceLimits

variable (n : AcceptedNamespaceLimits lib)

/-- The errors of the form, part by part. -/
theorem parts : (dnsLabelRegex n.ns = true ∧ dnsLabelRegex n.quotaName = true) ∧ n.validateQuota lib = [] ∧
    n.validateThresholds = [] ∧ n.validateLimits lib = [] ∧ n.validateLimitRangeOrdering lib = [] := by
  have h := n.accepted
  unfold NamespaceLimitsInput.validate at h
  simp only [List.append_eq_nil_iff, check_eq_nil] at h
  obtain ⟨⟨⟨⟨⟨⟨hns, hname⟩, -⟩, hquota⟩, hthresholds⟩, hlimits⟩, hordering⟩ := h
  refine ⟨⟨?_, by simpa using hname⟩, hquota, hthresholds, hlimits, hordering⟩
  split_ifs at hns
  simpa [check_eq_nil] using hns

theorem quota_fine : lib.parses n.quota.cpuHard = true ∧ lib.parses n.quota.memoryHard = true ∧ 1 ≤ n.quota.podsHard ∧
    lib.Fine n.quota.gpuHard := by
  have h := n.parts.2.1
  unfold NamespaceLimitsInput.validateQuota at h
  simp only [List.append_eq_nil_iff, check_eq_nil, optionalQuantity_eq_nil, decide_eq_false_iff_not, not_lt] at h
  obtain ⟨⟨⟨hcpu, hmemory⟩, hpods⟩, hgpu⟩ := h
  exact ⟨requiredQuantity_eq_nil hcpu, requiredQuantity_eq_nil hmemory, hpods, hgpu⟩

theorem pods_count : ∃ c : ℕ, n.quota.podsHard = c :=
  ⟨n.quota.podsHard.toNat, (Int.toNat_of_nonneg (Int.le_trans Int.one_nonneg n.quota_fine.2.2.1)).symm⟩

theorem toObjects_ok : n.toObjects lib = .ok (n.builtQuota lib, n.builtRange lib) := by
  obtain ⟨hcpu, hmemory, -, hgpu⟩ := n.quota_fine
  have hpods : lib.parses (itoa n.quota.podsHard) = true := by
    obtain ⟨c, hc⟩ := n.pods_count
    rw [hc]
    exact (parses_count c).1
  have hquota : n.buildResourceQuota lib = .ok (n.builtQuota lib) := by
    unfold NamespaceLimitsInput.buildResourceQuota
    rw [parseNamed_ok hcpu, parseNamed_ok hmemory, parseNamed_ok hpods]
    dsimp only [bind, Except.bind]
    rw [insertGiven_ok hgpu]
    rfl
  have h := n.parts.2.2.2.1
  unfold NamespaceLimitsInput.validateLimits at h
  simp only [List.append_eq_nil_iff, optionalQuantity_eq_nil] at h
  obtain ⟨⟨⟨⟨⟨⟨hdefault, hrequest⟩, hmax⟩, hmin⟩, hpodMax⟩, hpvcMin⟩, hpvcMax⟩ := h
  have hpod : n.podLimit lib = .ok (n.builtPod lib) := by
    unfold NamespaceLimitsInput.podLimit NamespaceLimitsInput.builtPod
    cases hp : n.limits.podMax with
    | none => rfl
    | some podMax =>
      rw [hp] at hpodMax
      obtain ⟨hpodCPU, hpodMemory⟩ := pair_fine hpodMax
      dsimp only
      split_ifs
      · rfl
      · rw [insertGiven_ok hpodCPU]
        dsimp only [bind, Except.bind]
        rw [insertGiven_ok hpodMemory]
        rfl
  have hpvc : n.pvcLimit lib = .ok (n.builtPVC lib) := by
    unfold NamespaceLimitsInput.pvcLimit NamespaceLimitsInput.builtPVC
    split_ifs
    · rfl
    · rw [insertGiven_ok hpvcMin, insertGiven_ok hpvcMax]
      rfl
  have hrange : n.buildLimitRange lib = .ok (n.builtRange lib) := by
    unfold NamespaceLimitsInput.buildLimitRange
    rw [parseResourcePair_ok (pair_accepted hdefault).1 (pair_accepted hdefault).2,
      parseResourcePair_ok (pair_accepted hrequest).1 (pair_accepted hrequest).2,
      parseResourcePair_ok (pair_accepted hmax).1 (pair_accepted hmax).2,
      parseResourcePair_ok (pair_accepted hmin).1 (pair_accepted hmin).2, hpod, hpvc]
    rfl
  unfold NamespaceLimitsInput.toObjects
  rw [hquota, hrange]
  rfl

/-- The values of one resource, `part` of each pair. -/
theorem chain_accepted : ∀ part ∈ [ResourcePair.cpu, ResourcePair.memory],
    lib.value (part n.limits.containerMin) ≤ lib.value (part n.limits.containerDefaultRequest) ∧
      lib.value (part n.limits.containerDefaultRequest) ≤ lib.value (part n.limits.containerDefault) ∧
        lib.value (part n.limits.containerDefault) ≤ lib.value (part n.limits.containerMax) := by
  have h := n.parts.2.2.2.1
  unfold NamespaceLimitsInput.validateLimits at h
  simp only [List.append_eq_nil_iff] at h
  obtain ⟨⟨⟨⟨⟨⟨hdefault, hrequest⟩, hmax⟩, hmin⟩, -⟩, -⟩, -⟩ := h
  obtain ⟨hcpu, hmemory⟩ := List.append_eq_nil_iff.mp n.parts.2.2.2.2
  intro part hpart
  rcases List.mem_pair.mp hpart with rfl | rfl
  · exact ordering_accepted (pair_accepted hmin).1 (pair_accepted hrequest).1 (pair_accepted hdefault).1
      (pair_accepted hmax).1 hcpu
  · exact ordering_accepted (pair_accepted hmin).2 (pair_accepted hrequest).2 (pair_accepted hdefault).2
      (pair_accepted hmax).2 hmemory

end AcceptedNamespaceLimits

/-! Quantities. -/

def NonNegative (list : GoMap String Q) : Prop := ∀ key q, list.lookup key = some q → 0 ≤ q

structure LimitRangeItem.NonNegative (item : LimitRangeItem Q) : Prop where
  default : Wizard.NonNegative item.default
  defaultRequest : Wizard.NonNegative item.defaultRequest
  max : Wizard.NonNegative item.max
  min : Wizard.NonNegative item.min

structure QuantitiesSound (quota : ResourceQuotaObject Q) (range : LimitRangeObject Q) : Prop where
  containers : ∀ item ∈ range.limits, item.itemType = "Container" → ∀ resource ∈ ["cpu", "memory"],
    ∃ min request default max, item.min.lookup resource = some min ∧ item.defaultRequest.lookup resource = some request ∧
      item.default.lookup resource = some default ∧ item.max.lookup resource = some max ∧
        min ≤ request ∧ request ≤ default ∧ default ≤ max
  claims : ∀ item ∈ range.limits, item.itemType = "PersistentVolumeClaim" →
    ∀ min ∈ item.min.lookup "storage", ∀ max ∈ item.max.lookup "storage", min ≤ max
  hard : NonNegative quota.hard
  items : ∀ item ∈ range.limits, item.NonNegative

section

variable {key : String} {q : Q} {list : GoMap String Q}

theorem nonNegative_empty : NonNegative (∅ : GoMap String Q) := fun key q h ↦ by simp at h

theorem nonNegative_insert (hkey : key ∉ list) : NonNegative (list.insert key q) ↔ 0 ≤ q ∧ NonNegative list := by
  constructor
  · intro h
    refine ⟨h key q (AList.lookup_insert list), fun key' q' hq' ↦ h key' q' ?_⟩
    have hne : key' ≠ key := by
      rintro rfl
      rw [AList.lookup_eq_none.mpr hkey] at hq'
      cases hq'
    rwa [AList.lookup_insert_ne hne]
  · rintro ⟨hq, hlist⟩ key' q' hq'
    by_cases hkey' : key' = key
    · subst hkey'
      rw [AList.lookup_insert] at hq'
      cases hq'
      exact hq
    · rw [AList.lookup_insert_ne hkey'] at hq'
      exact hlist key' q' hq'

theorem nonNegative_insertCount {count : ℤ} (hkey : key ∉ list) :
    NonNegative (insertCount lib key count list) ↔ NonNegative list := by
  unfold insertCount
  split_ifs with hpos
  · obtain ⟨c, rfl⟩ : ∃ c : ℕ, count = c := ⟨count.toNat, (Int.toNat_of_nonneg hpos.le).symm⟩
    rw [nonNegative_insert hkey]
    exact and_iff_right (parses_count c).2
  · exact Iff.rfl

theorem notMem_insertCount {count : ℤ} {key' : String} (hne : key ≠ key') (hkey : key ∉ list) :
    key ∉ insertCount lib key' count list := by
  unfold insertCount
  split_ifs
  · exact GoMap.notMem_insert hne hkey
  · exact hkey

end

/-- A text that is given is no negative quantity. -/
def QuantityLibrary.nonNegativeText (lib : QuantityLibrary Q) (s : String) : Bool := s = "" || 0 ≤ lib.value s

theorem nonNegative_givenList {key s : String} {list : GoMap String Q} (hkey : key ∉ list) :
    NonNegative (givenList lib key s list) ↔ lib.nonNegativeText s = true ∧ NonNegative list := by
  unfold givenList QuantityLibrary.nonNegativeText
  split_ifs with hempty
  · simp [hempty]
  · rw [nonNegative_insert hkey]
    simp [hempty]

theorem lookup_pairList (rp : ResourcePair) : (pairList lib rp).lookup "cpu" = some (lib.value rp.cpu) ∧
    (pairList lib rp).lookup "memory" = some (lib.value rp.memory) := by
  unfold pairList
  constructor
  · rw [AList.lookup_insert_ne (by decide), AList.lookup_insert]
  · rw [AList.lookup_insert]

theorem nonNegative_pairList (rp : ResourcePair) :
    NonNegative (pairList lib rp) ↔ 0 ≤ lib.value rp.cpu ∧ 0 ≤ lib.value rp.memory := by
  unfold pairList
  rw [nonNegative_insert (GoMap.notMem_insert (by decide) (AList.notMem_empty _)), nonNegative_insert (AList.notMem_empty _)]
  exact ⟨fun h ↦ ⟨h.2.1, h.1⟩, fun h ↦ ⟨h.2, h.1, nonNegative_empty⟩⟩

namespace NamespaceLimitsInput

variable (lib) (n : NamespaceLimitsInput)

/-- The quantities that must be there, the others that are least among theirs, and those that may be left empty. -/
def nonNegative : Bool :=
  [n.quota.cpuHard, n.quota.memoryHard, n.limits.containerMin.cpu, n.limits.containerMin.memory].all
      (fun s ↦ 0 ≤ lib.value s) &&
    (n.quota.gpuHard :: n.limits.pvcMinStorage :: n.limits.pvcMaxStorage ::
      (n.limits.podMax.toList.flatMap fun podMax ↦ [podMax.cpu, podMax.memory])).all lib.nonNegativeText

def claimsOrdered : Bool :=
  n.limits.pvcMinStorage = "" || n.limits.pvcMaxStorage = "" ||
    lib.value n.limits.pvcMinStorage ≤ lib.value n.limits.pvcMaxStorage

variable {lib n}

theorem builtPod_type : ∀ item ∈ n.builtPod lib, item.itemType = "Pod" := by
  intro item hitem
  unfold builtPod at hitem
  split at hitem
  · cases hitem
  · split_ifs at hitem
    · cases hitem
    · rw [List.mem_singleton.mp hitem]

theorem builtPVC_type : ∀ item ∈ n.builtPVC lib, item.itemType = "PersistentVolumeClaim" := by
  intro item hitem
  unfold builtPVC at hitem
  split_ifs at hitem
  · cases hitem
  · rw [List.mem_singleton.mp hitem]

theorem hard_nonNegative : NonNegative (n.builtQuota lib).hard ↔
    (0 ≤ lib.value n.quota.cpuHard ∧ 0 ≤ lib.value n.quota.memoryHard ∧ 0 ≤ lib.value (itoa n.quota.podsHard)) ∧
      lib.nonNegativeText n.quota.gpuHard = true := by
  have hempty (key : String) : key ∉ (∅ : GoMap String Q) := AList.notMem_empty key
  have hbase (key : String) (hcpu : key ≠ "cpu") (hmemory : key ≠ "memory") (hpods : key ≠ "pods") :
      key ∉ AList.insert "pods" (lib.value (itoa n.quota.podsHard)) (AList.insert "memory" (lib.value n.quota.memoryHard)
        (AList.insert "cpu" (lib.value n.quota.cpuHard) ∅)) :=
    GoMap.notMem_insert hpods (GoMap.notMem_insert hmemory (GoMap.notMem_insert hcpu (hempty key)))
  unfold builtQuota countedHard
  dsimp only
  rw [nonNegative_givenList (notMem_insertCount (by decide) (notMem_insertCount (by decide) (notMem_insertCount (by decide)
      (notMem_insertCount (by decide) (hbase _ (by decide) (by decide) (by decide)))))),
    nonNegative_insertCount (notMem_insertCount (by decide) (notMem_insertCount (by decide) (notMem_insertCount (by decide)
      (hbase _ (by decide) (by decide) (by decide))))),
    nonNegative_insertCount (notMem_insertCount (by decide) (notMem_insertCount (by decide)
      (hbase _ (by decide) (by decide) (by decide)))),
    nonNegative_insertCount (notMem_insertCount (by decide) (hbase _ (by decide) (by decide) (by decide))),
    nonNegative_insertCount (hbase _ (by decide) (by decide) (by decide)),
    nonNegative_insert (GoMap.notMem_insert (by decide) (GoMap.notMem_insert (by decide) (hempty _))),
    nonNegative_insert (GoMap.notMem_insert (by decide) (hempty _)), nonNegative_insert (hempty _), and_comm]
  refine and_congr ?_ Iff.rfl
  exact ⟨fun h ↦ ⟨h.2.2.1, h.2.1, h.1⟩, fun h ↦ ⟨h.2.2, h.2.1, h.1, nonNegative_empty⟩⟩

theorem pod_nonNegative : (∀ item ∈ n.builtPod lib, item.NonNegative) ↔
    ∀ s ∈ n.limits.podMax.toList.flatMap fun podMax ↦ [podMax.cpu, podMax.memory], lib.nonNegativeText s = true := by
  unfold builtPod
  cases n.limits.podMax with
  | none => simp
  | some podMax =>
    dsimp only
    split_ifs with hempty
    · simp [hempty, QuantityLibrary.nonNegativeText]
    · have hfresh : "memory" ∉ givenList lib "cpu" podMax.cpu ∅ := by
        unfold givenList
        split_ifs
        · exact AList.notMem_empty _
        · exact GoMap.notMem_insert (by decide) (AList.notMem_empty _)
      have hmax : NonNegative (givenList lib "memory" podMax.memory (givenList lib "cpu" podMax.cpu ∅)) ↔
          lib.nonNegativeText podMax.cpu = true ∧ lib.nonNegativeText podMax.memory = true := by
        rw [nonNegative_givenList hfresh, nonNegative_givenList (AList.notMem_empty _)]
        exact ⟨fun h ↦ ⟨h.2.1, h.1⟩, fun h ↦ ⟨h.2, h.1, nonNegative_empty⟩⟩
      rw [List.forall_mem_singleton, Option.toList_some, List.flatMap_singleton, List.forall_mem_cons,
        List.forall_mem_singleton, ← hmax]
      exact ⟨fun h ↦ h.max, fun h ↦ ⟨nonNegative_empty, nonNegative_empty, h, nonNegative_empty⟩⟩

theorem pvc_nonNegative : (∀ item ∈ n.builtPVC lib, item.NonNegative) ↔
    lib.nonNegativeText n.limits.pvcMinStorage = true ∧ lib.nonNegativeText n.limits.pvcMaxStorage = true := by
  unfold builtPVC
  split_ifs with hempty
  · simp [hempty, QuantityLibrary.nonNegativeText]
  · have hlist (s : String) : NonNegative (givenList lib "storage" s ∅) ↔ lib.nonNegativeText s = true := by
      rw [nonNegative_givenList (AList.notMem_empty _)]
      exact and_iff_left nonNegative_empty
    rw [List.forall_mem_singleton, ← hlist, ← hlist]
    exact ⟨fun h ↦ ⟨h.min, h.max⟩, fun h ↦ ⟨nonNegative_empty, nonNegative_empty, h.2, h.1⟩⟩

theorem claims_iff : (∀ item ∈ (n.builtRange lib).limits, item.itemType = "PersistentVolumeClaim" →
    ∀ min ∈ item.min.lookup "storage", ∀ max ∈ item.max.lookup "storage", min ≤ max) ↔ n.claimsOrdered lib = true := by
  have hlookup (s : String) : (givenList lib "storage" s ∅).lookup "storage" = if s = "" then none else some (lib.value s) := by
    unfold givenList
    split_ifs
    · rfl
    · exact AList.lookup_insert _
  have hrest : (∀ item ∈ (n.builtRange lib).limits, item.itemType = "PersistentVolumeClaim" →
      ∀ min ∈ item.min.lookup "storage", ∀ max ∈ item.max.lookup "storage", min ≤ max) ↔
        ∀ item ∈ n.builtPVC lib, ∀ min ∈ item.min.lookup "storage", ∀ max ∈ item.max.lookup "storage", min ≤ max := by
    unfold builtRange
    constructor
    · intro h item hitem
      exact h item (List.mem_cons_of_mem _ (List.mem_append_right _ hitem)) (builtPVC_type item hitem)
    · intro h item hitem htype
      rcases List.mem_cons.mp hitem with rfl | hitem
      · exact absurd htype (by simp [builtContainer])
      · rcases List.mem_append.mp hitem with hpod | hpvc
        · exact absurd ((builtPod_type item hpod).symm.trans htype) (by decide)
        · exact h item hpvc
  rw [hrest]
  unfold builtPVC claimsOrdered
  split_ifs with hempty
  · simp [hempty]
  · rw [List.forall_mem_singleton, hlookup, hlookup]
    by_cases hmin : n.limits.pvcMinStorage = ""
    · simp [hmin]
    · by_cases hmax : n.limits.pvcMaxStorage = ""
      · simp [hmax]
      · simp [hmin, hmax]

end NamespaceLimitsInput

/-- The quantities of an accepted form are in order, but for those the checks do not compare. -/
theorem quantitiesSound_iff (n : AcceptedNamespaceLimits lib) :
    QuantitiesSound (n.builtQuota lib) (n.builtRange lib) ↔ n.nonNegative lib = true ∧ n.claimsOrdered lib = true := by
  have hchain := n.chain_accepted
  have hcpu := hchain _ List.mem_cons_self
  have hmemory := hchain _ (List.mem_cons_of_mem _ List.mem_cons_self)
  have hpods : 0 ≤ lib.value (itoa n.quota.podsHard) := by
    obtain ⟨c, hc⟩ := n.pods_count
    rw [hc]
    exact (parses_count c).2
  have hcontainer : (n.builtContainer lib).NonNegative ↔
      0 ≤ lib.value n.limits.containerMin.cpu ∧ 0 ≤ lib.value n.limits.containerMin.memory := by
    constructor
    · exact fun h ↦ (nonNegative_pairList _).mp h.min
    · rintro ⟨hmin, hmin'⟩
      refine ⟨(nonNegative_pairList _).mpr ⟨?_, ?_⟩, (nonNegative_pairList _).mpr ⟨?_, ?_⟩,
        (nonNegative_pairList _).mpr ⟨?_, ?_⟩, (nonNegative_pairList _).mpr ⟨hmin, hmin'⟩⟩
      · exact hmin.trans (hcpu.1.trans hcpu.2.1)
      · exact hmin'.trans (hmemory.1.trans hmemory.2.1)
      · exact hmin.trans hcpu.1
      · exact hmin'.trans hmemory.1
      · exact hmin.trans (hcpu.1.trans (hcpu.2.1.trans hcpu.2.2))
      · exact hmin'.trans (hmemory.1.trans (hmemory.2.1.trans hmemory.2.2))
  have hitems : (∀ item ∈ (n.builtRange lib).limits, item.NonNegative) ↔
      (n.builtContainer lib).NonNegative ∧ (∀ item ∈ n.builtPod lib, item.NonNegative) ∧
        ∀ item ∈ n.builtPVC lib, item.NonNegative := by
    unfold NamespaceLimitsInput.builtRange
    rw [List.forall_mem_cons, List.forall_mem_append]
  have hcontainers : ∀ item ∈ (n.builtRange lib).limits, item.itemType = "Container" → ∀ resource ∈ ["cpu", "memory"],
      ∃ min request default max, item.min.lookup resource = some min ∧ item.defaultRequest.lookup resource = some request ∧
        item.default.lookup resource = some default ∧ item.max.lookup resource = some max ∧
          min ≤ request ∧ request ≤ default ∧ default ≤ max := by
    intro item hitem htype resource hresource
    have hbuilt : item = n.builtContainer lib := by
      rcases List.mem_cons.mp hitem with rfl | hitem
      · rfl
      · rcases List.mem_append.mp hitem with hpod | hpvc
        · exact absurd ((NamespaceLimitsInput.builtPod_type item hpod).symm.trans htype) (by decide)
        · exact absurd ((NamespaceLimitsInput.builtPVC_type item hpvc).symm.trans htype) (by decide)
    subst hbuilt
    rcases List.mem_pair.mp hresource with rfl | rfl
    · exact ⟨_, _, _, _, (lookup_pairList _).1, (lookup_pairList _).1, (lookup_pairList _).1, (lookup_pairList _).1, hcpu⟩
    · exact ⟨_, _, _, _, (lookup_pairList _).2, (lookup_pairList _).2, (lookup_pairList _).2, (lookup_pairList _).2,
        hmemory⟩
  have hsound : QuantitiesSound (n.builtQuota lib) (n.builtRange lib) ↔ n.claimsOrdered lib = true ∧
      NonNegative (n.builtQuota lib).hard ∧ ∀ item ∈ (n.builtRange lib).limits, item.NonNegative := by
    rw [← NamespaceLimitsInput.claims_iff]
    exact ⟨fun h ↦ ⟨h.claims, h.hard, h.items⟩, fun h ↦ ⟨hcontainers, h.1, h.2.1, h.2.2⟩⟩
  rw [hsound, NamespaceLimitsInput.hard_nonNegative, hitems, hcontainer, NamespaceLimitsInput.pod_nonNegative,
    NamespaceLimitsInput.pvc_nonNegative]
  unfold NamespaceLimitsInput.nonNegative
  rw [Bool.and_eq_true, List.all_eq_true, List.all_eq_true]
  simp only [List.forall_mem_cons, List.not_mem_nil, false_imp_iff, implies_true, and_true, decide_eq_true_eq]
  tauto

/-! Thresholds. -/

/-- Floats, as far as percentages are concerned: whole numbers up to 100 are exact and are read back from their text. -/
structure MonitorLibrary (F Q : Type) [NatCast F] [LE F] [LT F] extends Limits.Library F Q where
  parse_percent (m : ℕ) (h : m ≤ 100) : parseFloat (itoa m) = some (m : F)
  cast_le (m k : ℕ) (hm : m ≤ 100) (hk : k ≤ 100) : (m : F) ≤ k ↔ m ≤ k
  cast_lt (m k : ℕ) (hm : m ≤ 100) (hk : k ≤ 100) : (m : F) < k ↔ m < k

section

variable {F : Type} [NatCast F] [LE F] [DecidableLE F] [LT F]

/-- What the form says of a threshold; zero is left out. -/
def entered (threshold default : ℤ) : ℤ := if threshold = 0 then default else threshold

/-- The thresholds are the entered ones, in their order, and every status has percentages. -/
structure ThresholdsSound (quota : QuotaConfig) (warn critical : F) : Prop where
  warnRead : ∃ m : ℕ, entered quota.warnThreshold 80 = m ∧ warn = m
  criticalRead : ∃ m : ℕ, entered quota.criticalThreshold 95 = m ∧ critical = m
  below : warn < critical
  reachable : ∀ status, ∃ percentage, Limits.computeStatus percentage warn critical = status

/-- The quota as the monitor lists it. -/
def ResourceQuotaObject.listed (quota : ResourceQuotaObject Q) (plain : Limits.Plain quota.ns ∧ Limits.Plain quota.name)
    (used : GoMap String Q) : Limits.ResourceQuota Q where
  ns := quota.ns
  name := quota.name
  plain := plain
  annotations := quota.annotations
  hard := quota.hard
  used := used

/-- What a form becomes is in order, and the monitor reads what was entered. -/
structure LimitsSound (lib : QuantityLibrary Q) (monitor : MonitorLibrary F Q) (n : NamespaceLimitsInput)
    (quota : ResourceQuotaObject Q) (range : LimitRangeObject Q) : Prop where
  built : n.toObjects lib = .ok (quota, range)
  quantities : QuantitiesSound quota range
  plain : Limits.Plain quota.ns ∧ Limits.Plain quota.name
  thresholds : ∀ used, ThresholdsSound n.quota
    (Limits.parseThresholdAnnotations monitor.toLibrary (quota.listed plain used)).1
    (Limits.parseThresholdAnnotations monitor.toLibrary (quota.listed plain used)).2

/-- What is read back of a threshold. -/
def effective (threshold : ℤ) (default : ℕ) : ℕ := if 0 < threshold then threshold.toNat else default

theorem plain_of_dnsLabel {s : String} (h : dnsLabelRegex s = true) : Limits.Plain s := by
  intro hmem
  unfold dnsLabelRegex edged at h
  simp only [Bool.and_eq_true, List.all_eq_true] at h
  have hchar := h.1.1.2 _ hmem
  exact absurd hchar (by decide)

variable {monitor : MonitorLibrary F Q}

omit [LinearOrder Q] [Zero Q] in
theorem parseThreshold_eq {quota : Limits.ResourceQuota Q} {name : String} (threshold : ℤ) {default : ℕ}
    (hlookup : quota.annotations.lookup name = if 0 < threshold then some (itoa threshold) else none)
    (hle : threshold ≤ 100) :
    Limits.parseThreshold monitor.toLibrary quota name (default : F) = (effective threshold default : F) := by
  unfold Limits.parseThreshold effective
  rw [hlookup]
  split_ifs with hpos
  · obtain ⟨m, rfl⟩ : ∃ m : ℕ, threshold = m := ⟨threshold.toNat, (Int.toNat_of_nonneg hpos.le).symm⟩
    have hm : m ≤ 100 := by omega
    rw [Option.bind_some, monitor.parse_percent m hm, Int.toNat_natCast]
    dsimp only
    have hzero : ((0 : ℕ) : F) ≤ m := (monitor.cast_le 0 m (by omega) hm).mpr (by omega)
    rw [if_pos ⟨hzero, (monitor.cast_le m 100 hm le_rfl).mpr hm⟩]
  · rfl

theorem lookup_insertThreshold {key : String} {threshold : ℤ} {annotations : GoMap String String}
    (hkey : annotations.lookup key = none) :
    (insertThreshold key threshold annotations).lookup key = if 0 < threshold then some (itoa threshold) else none := by
  unfold insertThreshold
  split_ifs
  · exact AList.lookup_insert _
  · exact hkey

theorem lookup_insertThreshold_ne {key key' : String} {threshold : ℤ} {annotations : GoMap String String}
    (hne : key ≠ key') : (insertThreshold key' threshold annotations).lookup key = annotations.lookup key := by
  unfold insertThreshold
  split_ifs
  · exact AList.lookup_insert_ne hne
  · rfl

omit [LinearOrder Q] [Zero Q] in
/-- The monitor reads the thresholds that the form has, and its own for those that are not positive. -/
theorem parseThresholdAnnotations_eq {n : NamespaceLimitsInput} {quota : Limits.ResourceQuota Q}
    (h : quota.annotations = n.thresholdAnnotations) (hwarn : n.quota.warnThreshold ≤ 100)
    (hcritical : n.quota.criticalThreshold ≤ 100) :
    Limits.parseThresholdAnnotations monitor.toLibrary quota =
      ((effective n.quota.warnThreshold 80 : F), (effective n.quota.criticalThreshold 95 : F)) := by
  have hne : Limits.annotationWarnThreshold ≠ Limits.annotationCriticalThreshold := by decide
  unfold Limits.parseThresholdAnnotations
  rw [parseThreshold_eq n.quota.warnThreshold ?_ hwarn,
    parseThreshold_eq n.quota.criticalThreshold ?_ hcritical]
  · rw [h]
    unfold NamespaceLimitsInput.thresholdAnnotations
    exact lookup_insertThreshold (by rw [lookup_insertThreshold_ne hne.symm]; rfl)
  · rw [h]
    unfold NamespaceLimitsInput.thresholdAnnotations
    rw [lookup_insertThreshold_ne hne]
    exact lookup_insertThreshold rfl

/-- No threshold is negative, and the one for warnings is the smaller one, with the monitor's own where there is none. -/
def QuotaConfig.thresholdsOrdered (quota : QuotaConfig) : Bool :=
  0 ≤ quota.warnThreshold && 0 ≤ quota.criticalThreshold &&
    entered quota.warnThreshold 80 < entered quota.criticalThreshold 95

omit [DecidableLE F] [LinearOrder Q] [Zero Q] in
theorem entered_eq {threshold : ℤ} (default : ℕ) (h : 0 ≤ threshold) :
    entered threshold default = (effective threshold default : ℕ) := by
  unfold entered effective
  split_ifs with hzero hpos hpos <;> omega

theorem nonneg_of_entered {threshold default : ℤ} {m : ℕ} (h : entered threshold default = m) : 0 ≤ threshold := by
  unfold entered at h
  split_ifs at h with hzero
  · exact hzero.ge
  · omega

omit [LinearOrder Q] [Zero Q] in
/-- Between two whole thresholds in their order every status has a percentage. -/
theorem reachable_of_lt (monitor : MonitorLibrary F Q) {w c : ℕ} (hw : 0 < w) (hlt : w < c) (hc : c ≤ 100)
    (status : Limits.ThresholdStatus) : ∃ percentage : F, Limits.computeStatus percentage (w : F) (c : F) = status := by
  have hle (m k : ℕ) (hm : m ≤ 100) (hk : k ≤ 100) := monitor.cast_le m k hm hk
  cases status with
  | ok =>
    refine ⟨(0 : ℕ), ?_⟩
    unfold Limits.computeStatus
    rw [if_neg (by rw [hle _ _ hc (by omega)]; omega), if_neg (by rw [hle _ _ (by omega) (by omega)]; omega)]
  | warning =>
    refine ⟨w, ?_⟩
    unfold Limits.computeStatus
    rw [if_neg (by rw [hle _ _ hc (by omega)]; omega), if_pos (by rw [hle _ _ (by omega) (by omega)])]
  | critical =>
    refine ⟨c, ?_⟩
    unfold Limits.computeStatus
    rw [if_pos (by rw [hle _ _ hc hc])]

theorem AcceptedNamespaceLimits.thresholds_le (n : AcceptedNamespaceLimits lib) :
    n.quota.warnThreshold ≤ 100 ∧ n.quota.criticalThreshold ≤ 100 := by
  have h := n.parts.2.2.1
  unfold NamespaceLimitsInput.validateThresholds validateThreshold at h
  simp only [List.append_eq_nil_iff, check_eq_nil, Bool.and_eq_false_iff, Bool.or_eq_false_iff,
    decide_eq_false_iff_not] at h
  omega

theorem thresholdsSound_iff (monitor : MonitorLibrary F Q) (n : AcceptedNamespaceLimits lib)
    {quota : Limits.ResourceQuota Q} (h : quota.annotations = n.thresholdAnnotations) :
    ThresholdsSound n.quota (Limits.parseThresholdAnnotations monitor.toLibrary quota).1
        (Limits.parseThresholdAnnotations monitor.toLibrary quota).2 ↔ n.quota.thresholdsOrdered = true := by
  obtain ⟨hwarn, hcritical⟩ := n.thresholds_le
  rw [parseThresholdAnnotations_eq h hwarn hcritical]
  have hw : effective n.quota.warnThreshold 80 ≤ 100 := by
    unfold effective
    split_ifs <;> omega
  have hc : effective n.quota.criticalThreshold 95 ≤ 100 := by
    unfold effective
    split_ifs <;> omega
  have hpos : 0 < effective n.quota.warnThreshold 80 := by
    unfold effective
    split_ifs <;> omega
  unfold QuotaConfig.thresholdsOrdered
  simp only [Bool.and_eq_true, decide_eq_true_eq]
  constructor
  · intro hsound
    obtain ⟨m, hm, -⟩ := hsound.warnRead
    obtain ⟨k, hk, -⟩ := hsound.criticalRead
    have hwarn' := nonneg_of_entered hm
    have hcritical' := nonneg_of_entered hk
    have hlt := (monitor.cast_lt _ _ hw hc).mp hsound.below
    refine ⟨⟨hwarn', hcritical'⟩, ?_⟩
    have hwarnEq : entered n.quota.warnThreshold 80 = effective n.quota.warnThreshold 80 := entered_eq 80 hwarn'
    have hcriticalEq : entered n.quota.criticalThreshold 95 = effective n.quota.criticalThreshold 95 :=
      entered_eq 95 hcritical'
    omega
  · rintro ⟨⟨hwarn', hcritical'⟩, hlt⟩
    have hwarnEq : entered n.quota.warnThreshold 80 = effective n.quota.warnThreshold 80 := entered_eq 80 hwarn'
    have hcriticalEq : entered n.quota.criticalThreshold 95 = effective n.quota.criticalThreshold 95 :=
      entered_eq 95 hcritical'
    have hbelow : effective n.quota.warnThreshold 80 < effective n.quota.criticalThreshold 95 := by omega
    exact ⟨⟨_, hwarnEq, rfl⟩, ⟨_, hcriticalEq, rfl⟩, (monitor.cast_lt _ _ hw hc).mpr hbelow,
      reachable_of_lt monitor hpos hbelow hc⟩

/-- The conditions that the checks leave out. -/
def NamespaceLimitsInput.wellChosen (lib : QuantityLibrary Q) (n : NamespaceLimitsInput) : Bool :=
  n.nonNegative lib && n.claimsOrdered lib && n.quota.thresholdsOrdered

/-- An accepted form becomes sound objects exactly where it is well chosen. -/
theorem limitsSound_iff (monitor : MonitorLibrary F Q) (n : AcceptedNamespaceLimits lib) :
    (∃ quota range, LimitsSound lib monitor n.toNamespaceLimitsInput quota range) ↔ n.wellChosen lib = true := by
  have hplain : Limits.Plain (n.builtQuota lib).ns ∧ Limits.Plain (n.builtQuota lib).name :=
    ⟨plain_of_dnsLabel n.parts.1.1, plain_of_dnsLabel n.parts.1.2⟩
  unfold NamespaceLimitsInput.wellChosen
  rw [Bool.and_eq_true, Bool.and_eq_true, ← quantitiesSound_iff]
  constructor
  · rintro ⟨quota, range, hsound⟩
    have hbuilt := n.toObjects_ok.symm.trans hsound.built
    cases hbuilt
    exact ⟨hsound.quantities, (thresholdsSound_iff monitor n rfl).mp (hsound.thresholds ∅)⟩
  · rintro ⟨hquantities, hordered⟩
    refine ⟨_, _, n.toObjects_ok, hquantities, hplain, fun used ↦ ?_⟩
    exact (thresholdsSound_iff monitor n rfl).mpr hordered

end

/-! A form whose critical threshold is below the monitor's own for warnings. -/

/-- Whole numbers. -/
def wholeQuantities : QuantityLibrary ℤ where
  parseQuantity s :=
    match parseUint (asciiBytes s) with
    | some m => .ok (m : ℤ)
    | none => .error "quantities must match the regular expression"
  parse_count m := by
    refine ⟨m, ?_, Int.natCast_nonneg m⟩
    rw [asciiBytes_itoa, formatInt, if_neg (by omega), Int.natAbs_natCast, parseUint_decimal]

def wholeMonitor : MonitorLibrary ℤ ℤ where
  parseFloat s := (parseUint (asciiBytes s)).map fun m ↦ (m : ℤ)
  zeroQuantity := 0
  asApproximateFloat64 := id
  quantityText := itoa
  oneDecimal := itoa
  noDecimal := itoa
  parse_percent m _ := by
    rw [asciiBytes_itoa, formatInt, if_neg (by omega), Int.natAbs_natCast, parseUint_decimal]
    rfl
  cast_le _ _ _ _ := Int.ofNat_le
  cast_lt _ _ _ _ := Int.ofNat_lt

/-- Only the critical threshold is entered. -/
def criticalOnly : NamespaceLimitsInput where
  ns := "team-a"
  quotaName := "quota"
  limitRangeName := "limits"
  quota := { cpuHard := "4", memoryHard := "4", podsHard := 10, criticalThreshold := 70 }
  limits := { containerDefault := ⟨"2", "2"⟩, containerDefaultRequest := ⟨"1", "1"⟩, containerMax := ⟨"4", "4"⟩
              containerMin := ⟨"1", "1"⟩ }

/-- The form is accepted; its quota is critical before it can be in warning. -/
theorem not_limitsSound : ¬ ∀ (lib : QuantityLibrary ℤ) (monitor : MonitorLibrary ℤ ℤ) (n : AcceptedNamespaceLimits lib),
    ∃ quota range, LimitsSound lib monitor n.toNamespaceLimitsInput quota range := by
  intro h
  let form : AcceptedNamespaceLimits wholeQuantities := ⟨criticalOnly, by decide⟩
  obtain ⟨quota, range, hsound⟩ := h wholeQuantities wholeMonitor form
  have hbuilt := form.toObjects_ok.symm.trans hsound.built
  cases hbuilt
  have hordered := (thresholdsSound_iff wholeMonitor form rfl).mp (hsound.thresholds ∅)
  exact absurd hordered (by decide)

end KubeCenter.Wizard
