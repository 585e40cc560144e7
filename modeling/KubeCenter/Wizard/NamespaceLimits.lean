import KubeCenter.Core.GoInt
import KubeCenter.Limits.Checker
import KubeCenter.Wizard.Fields

/-! The form of the namespace limits wizard, its checks and the two objects it becomes. -/

namespace KubeCenter.Wizard

open KubeCenter.Core

structure ResourcePair where
  cpu : String
  memory : String

structure QuotaConfig where
  cpuHard : String
  memoryHard : String
  podsHard : ℤ
  secretsHard : ℤ := 0
  configMapsHard : ℤ := 0
  servicesHard : ℤ := 0
  pvcsHard : ℤ := 0
  gpuHard : String := ""
  warnThreshold : ℤ := 0
  criticalThreshold : ℤ := 0

structure LimitConfig where
  containerDefault : ResourcePair
  containerDefaultRequest : ResourcePair
  containerMax : ResourcePair
  containerMin : ResourcePair
  podMax : Option ResourcePair := none
  pvcMinStorage : String := ""
  pvcMaxStorage : String := ""

structure NamespaceLimitsInput where
  ns : String
  quotaName : String
  limitRangeName : String
  quota : QuotaConfig
  limits : LimitConfig

/-- `resource.ParseQuantity`; quantities are ordered by `Cmp`. What is written as a count is read as one. -/
structure QuantityLibrary (Q : Type) [LinearOrder Q] [Zero Q] where
  parseQuantity : String → Except String Q
  parse_count (n : ℕ) : ∃ q, parseQuantity (itoa n) = .ok q ∧ 0 ≤ q

variable {Q : Type} [LinearOrder Q] [Zero Q] (lib : QuantityLibrary Q)

namespace QuantityLibrary

def quantity (s : String) : Option Q := (lib.parseQuantity s).toOption

def parses (s : String) : Bool := (lib.quantity s).isSome

/-- Both texts are quantities, and the one is less than the other. -/
def less (s t : String) : Bool :=
  match lib.quantity s, lib.quantity t with
  | some a, some b => a < b
  | _, _ => false

end QuantityLibrary

/-! The checks. -/

def optionalQuantity (field message s : String) : List FieldError := check (s ≠ "" && !lib.parses s) field message

def requiredQuantity (field message s : String) : List FieldError :=
  if s = "" then [⟨field, "is required"⟩] else check (!lib.parses s) field message

def validateResourcePair (path : String) (rp : ResourcePair) (required : Bool) : List FieldError :=
  if required then
    requiredQuantity lib (path ++ ".cpu") "must be a valid CPU quantity" rp.cpu ++
      requiredQuantity lib (path ++ ".memory") "must be a valid memory quantity" rp.memory
  else
    optionalQuantity lib (path ++ ".cpu") "must be a valid CPU quantity" rp.cpu ++
      optionalQuantity lib (path ++ ".memory") "must be a valid memory quantity" rp.memory

/-- The four comparisons of one resource. -/
def validateOrdering (resource : String) (part : ResourcePair → String) (limits : LimitConfig) : List FieldError :=
  check (lib.less (part limits.containerMax) (part limits.containerMin)) ("limits.containerMin." ++ resource)
      "must be less than or equal to max" ++
    check (lib.less (part limits.containerDefaultRequest) (part limits.containerMin))
      ("limits.containerDefaultRequest." ++ resource) "must be greater than or equal to min" ++
    check (lib.less (part limits.containerMax) (part limits.containerDefault)) ("limits.containerDefault." ++ resource)
      "must be less than or equal to max" ++
    check (lib.less (part limits.containerDefault) (part limits.containerDefaultRequest))
      ("limits.containerDefaultRequest." ++ resource) "must be less than or equal to default limit"

/-- A threshold that is not positive was not entered. -/
def validateThreshold (field : String) (threshold : ℤ) : List FieldError :=
  check (0 < threshold && (threshold < 1 || 100 < threshold)) field "must be between 1 and 100"

namespace NamespaceLimitsInput

variable (n : NamespaceLimitsInput)

def validateLimitRangeOrdering : List FieldError :=
  validateOrdering lib "cpu" ResourcePair.cpu n.limits ++ validateOrdering lib "memory" ResourcePair.memory n.limits

def validateQuota : List FieldError :=
  requiredQuantity lib "quota.cpuHard" "must be a valid resource quantity (e.g., 4 or 4000m)" n.quota.cpuHard ++
    requiredQuantity lib "quota.memoryHard" "must be a valid resource quantity (e.g., 16Gi)" n.quota.memoryHard ++
    check (n.quota.podsHard < 1) "quota.podsHard" "must be at least 1" ++
    optionalQuantity lib "quota.gpuHard" "must be a valid resource quantity" n.quota.gpuHard

def validateThresholds : List FieldError :=
  validateThreshold "quota.warnThreshold" n.quota.warnThreshold ++
    validateThreshold "quota.criticalThreshold" n.quota.criticalThreshold ++
    check (0 < n.quota.warnThreshold && 0 < n.quota.criticalThreshold && n.quota.criticalThreshold ≤ n.quota.warnThreshold)
      "quota.warnThreshold" "must be less than critical threshold"

def validateLimits : List FieldError :=
  validateResourcePair lib "limits.containerDefault" n.limits.containerDefault true ++
    validateResourcePair lib "limits.containerDefaultRequest" n.limits.containerDefaultRequest true ++
    validateResourcePair lib "limits.containerMax" n.limits.containerMax true ++
    validateResourcePair lib "limits.containerMin" n.limits.containerMin true ++
    (match n.limits.podMax with
      | some podMax => validateResourcePair lib "limits.podMax" podMax false
      | none => []) ++
    optionalQuantity lib "limits.pvcMinStorage" "must be a valid storage quantity" n.limits.pvcMinStorage ++
    optionalQuantity lib "limits.pvcMaxStorage" "must be a valid storage quantity" n.limits.pvcMaxStorage

def validate : List FieldError :=
  (if n.ns = "" then [⟨"namespace", "is required"⟩]
    else check (!dnsLabelRegex n.ns) "namespace" "must be a valid DNS label") ++
    check (!dnsLabelRegex n.quotaName) "quotaName"
      "must be a valid DNS label (lowercase alphanumeric and hyphens, 1-63 chars)" ++
    check (!dnsLabelRegex n.limitRangeName) "limitRangeName"
      "must be a valid DNS label (lowercase alphanumeric and hyphens, 1-63 chars)" ++
    n.validateQuota lib ++ n.validateThresholds ++ n.validateLimits lib ++ n.validateLimitRangeOrdering lib

end NamespaceLimitsInput

/-! The objects, before they are marshalled. -/

structure ResourceQuotaObject (Q : Type) where
  name : String
  ns : String
  annotations : GoMap String String
  hard : GoMap String Q

/-- `itemType` is the `type` of the item; a list without entries is left out. -/
structure LimitRangeItem (Q : Type) where
  itemType : String
  default : GoMap String Q := ∅
  defaultRequest : GoMap String Q := ∅
  max : GoMap String Q := ∅
  min : GoMap String Q := ∅

structure LimitRangeObject (Q : Type) where
  name : String
  ns : String
  limits : List (LimitRangeItem Q)

def parseNamed (what s : String) : Except String Q :=
  match lib.parseQuantity s with
  | .ok q => .ok q
  | .error err => .error (String.join ["invalid ", what, ": ", err])

/-- A value that may be left empty. -/
def insertGiven (what key s : String) (list : GoMap String Q) : Except String (GoMap String Q) :=
  if s = "" then .ok list else (parseNamed lib what s).map fun q ↦ list.insert key q

/-- `resource.MustParse` of a count, where there is one. -/
def insertCount (key : String) (count : ℤ) (list : GoMap String Q) : GoMap String Q :=
  if 0 < count then list.insert key ((lib.quantity (itoa count)).getD 0) else list

def insertThreshold (key : String) (threshold : ℤ) (annotations : GoMap String String) : GoMap String String :=
  if 0 < threshold then annotations.insert key (itoa threshold) else annotations

def parseResourcePair (rp : ResourcePair) (name : String) : Except String (GoMap String Q) := do
  let cpu ← parseNamed lib (name ++ " CPU") rp.cpu
  let memory ← parseNamed lib (name ++ " memory") rp.memory
  return (AList.insert "memory" memory (AList.insert "cpu" cpu ∅))

namespace NamespaceLimitsInput

variable (n : NamespaceLimitsInput)

def thresholdAnnotations : GoMap String String :=
  insertThreshold Limits.annotationCriticalThreshold n.quota.criticalThreshold
    (insertThreshold Limits.annotationWarnThreshold n.quota.warnThreshold ∅)

def buildResourceQuota : Except String (ResourceQuotaObject Q) := do
  let cpu ← parseNamed lib "CPU quota" n.quota.cpuHard
  let memory ← parseNamed lib "memory quota" n.quota.memoryHard
  let pods ← parseNamed lib "pods quota" (itoa n.quota.podsHard)
  let counts := insertCount lib "persistentvolumeclaims" n.quota.pvcsHard
    (insertCount lib "services" n.quota.servicesHard (insertCount lib "configmaps" n.quota.configMapsHard
      (insertCount lib "secrets" n.quota.secretsHard
        (AList.insert "pods" pods (AList.insert "memory" memory (AList.insert "cpu" cpu ∅))))))
  let hard ← insertGiven lib "GPU quota" "nvidia.com/gpu" n.quota.gpuHard counts
  return ⟨n.quotaName, n.ns, n.thresholdAnnotations, hard⟩

def podLimit : Except String (List (LimitRangeItem Q)) :=
  match n.limits.podMax with
  | none => .ok []
  | some podMax =>
    if podMax.cpu = "" ∧ podMax.memory = "" then .ok []
    else do
      let cpu ← insertGiven lib "podMax CPU" "cpu" podMax.cpu ∅
      let max ← insertGiven lib "podMax memory" "memory" podMax.memory cpu
      return [{ itemType := "Pod", max }]

def pvcLimit : Except String (List (LimitRangeItem Q)) :=
  if n.limits.pvcMinStorage = "" ∧ n.limits.pvcMaxStorage = "" then .ok []
  else do
    let min ← insertGiven lib "PVC min storage" "storage" n.limits.pvcMinStorage ∅
    let max ← insertGiven lib "PVC max storage" "storage" n.limits.pvcMaxStorage ∅
    return [{ itemType := "PersistentVolumeClaim", min, max }]

def buildLimitRange : Except String (LimitRangeObject Q) := do
  let default ← parseResourcePair lib n.limits.containerDefault "containerDefault"
  let defaultRequest ← parseResourcePair lib n.limits.containerDefaultRequest "containerDefaultRequest"
  let max ← parseResourcePair lib n.limits.containerMax "containerMax"
  let min ← parseResourcePair lib n.limits.containerMin "containerMin"
  let pod ← n.podLimit lib
  let pvc ← n.pvcLimit lib
  return ⟨n.limitRangeName, n.ns, { itemType := "Container", default, defaultRequest, max, min } :: (pod ++ pvc)⟩

/-- The quota's error comes before the range's. -/
def toObjects : Except String (ResourceQuotaObject Q × LimitRangeObject Q) := do
  let quota ← n.buildResourceQuota lib
  let range ← n.buildLimitRange lib
  return (quota, range)

end NamespaceLimitsInput

end KubeCenter.Wizard
