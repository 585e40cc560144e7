import Mathlib.Data.List.Perm.Basic
import Mathlib.Data.Rat.Defs
import Mathlib.Logic.Function.Basic
import KubeCenter.Core.GoInt
import KubeCenter.Core.GoMap
import KubeCenter.GitOps.ArgoSuspend

/-! Policies and violations as Kyverno and Gatekeeper report them, and their common form. -/

namespace KubeCenter.Policy

open KubeCenter.Core GitOps

inductive Engine
  | kyverno
  | gatekeeper
  deriving DecidableEq

def defaultSeverity : String := "medium"

structure NormalizedPolicy where
  id : String
  name : String
  ns : String := ""
  kind : String
  action : String
  category : String
  severity : String
  description : String
  nativeAction : String
  engine : Engine
  blocking : Bool
  ready : Bool
  ruleCount : ℕ := 0
  matchKey : String
  violationCount : ℕ := 0
  targetKinds : List String

structure NormalizedViolation where
  policy : String
  rule : String := ""
  severity : String
  action : String
  message : String
  ns : String
  kind : String
  name : String
  timestamp : String := ""
  engine : Engine
  blocking : Bool

/-- The parts of the standard library that are only passed through: `unicode.ToLower`, and a time of so many seconds
and nanoseconds as RFC 3339 text. -/
structure Stdlib where
  toLower : Char → Char
  rfc3339 : ℤ → ℤ → String

def Stdlib.lower (std : Stdlib) (s : String) : String := String.ofList (s.toList.map std.toLower)

/-- `strings.EqualFold` against a word of ASCII letters without k and s, to which no other letters fold. -/
def equalFold (s word : String) : Bool := s.toList.map Char.toLower = word.toList.map Char.toLower

/-- `unstructured.NestedSlice`. -/
def nestedSlice (j : Json) (path : List String) : Option (List Json) :=
  match j.nested path with
  | some (.array items) => some items
  | _ => none

def jsonString : Json → Option String
  | .string s => some s
  | _ => none

/-- `unstructured.NestedStringSlice`; what is no list of strings counts as empty. -/
def nestedStringSlice (j : Json) (path : List String) : List String :=
  (((nestedSlice j path).bind (fun items ↦ items.mapM jsonString))).getD []

def nestedInt64 (j : Json) (path : List String) : Option ℤ :=
  match j.nested path with
  | some (.number text) => parseInt text.toUTF8.toList
  | _ => none

def isObject : Json → Bool
  | .object _ => true
  | _ => false

def firstNonEmpty (s default : String) : String := if s = "" then default else s

/-- An annotation, empty where it is absent. -/
def annotationValue (obj : Json) (k : String) : String := (annotationOf obj k).getD ""

def getName (obj : Json) : String := obj.nestedString ["metadata", "name"]

def getNamespace (obj : Json) : String := obj.nestedString ["metadata", "namespace"]

/-- The status of the first condition of type Ready; a field that is no string stays empty. -/
def isReady (obj : Json) : Bool :=
  match ((nestedSlice obj ["status", "conditions"]).getD []).find? (fun c ↦
    isObject c && equalFold (c.nestedString ["type"]) "Ready") with
  | some c => equalFold (c.nestedString ["status"]) "True"
  | none => false

section Kyverno

variable (std : Stdlib)

/-- The kinds that the rules of a policy match, each once; their order is a map's and means nothing. -/
def kyvernoTargetKinds (rules : List Json) : List String :=
  (rules.flatMap (fun rule ↦
    ((nestedSlice rule ["match", "any"]).getD [] ++ (nestedSlice rule ["match", "all"]).getD []).flatMap
      (fun item ↦ nestedStringSlice item ["resources", "kinds"]))).eraseDups

def normalizeKyvernoPolicy (clusterScoped : Bool) (obj : Json) : NormalizedPolicy :=
  let name := getName obj
  let action := firstNonEmpty (obj.nestedString ["spec", "validationFailureAction"]) "Audit"
  let rules := (nestedSlice obj ["spec", "rules"]).getD []
  { id := if clusterScoped then "kyverno::" ++ name else "kyverno:" ++ getNamespace obj ++ "/" ++ name
    name := firstNonEmpty (annotationValue obj "policies.kyverno.io/title") name
    ns := getNamespace obj
    kind := if clusterScoped then "ClusterPolicy" else "Policy"
    action
    category := annotationValue obj "policies.kyverno.io/category"
    severity := std.lower (firstNonEmpty (annotationValue obj "policies.kyverno.io/severity") defaultSeverity)
    description := annotationValue obj "policies.kyverno.io/description"
    nativeAction := action
    engine := .kyverno
    blocking := equalFold action "Enforce"
    ready := isReady obj
    ruleCount := rules.length
    matchKey := name
    targetKinds := kyvernoTargetKinds rules }

/-- A result of a report, where it failed or warned. Its resource is the first it names, field by field, or else the
one the report is about. -/
def kyvernoViolation (report result : Json) : Option NormalizedViolation :=
  let outcome := result.nestedString ["result"]
  if isObject result && (outcome = "fail" || outcome = "warn") then
    let resource := match nestedSlice result ["resources"] with
      | some (first :: _) => first
      | _ => .null
    let reportNamespace := firstNonEmpty (report.nestedString ["scope", "namespace"]) (getNamespace report)
    some
      { policy := result.nestedString ["policy"]
        rule := result.nestedString ["rule"]
        severity := std.lower (firstNonEmpty (result.nestedString ["severity"]) defaultSeverity)
        action := outcome
        message := result.nestedString ["message"]
        ns := firstNonEmpty (resource.nestedString ["namespace"]) reportNamespace
        kind := firstNonEmpty (resource.nestedString ["kind"]) (report.nestedString ["scope", "kind"])
        name := firstNonEmpty (resource.nestedString ["name"]) (report.nestedString ["scope", "name"])
        timestamp := match nestedInt64 result ["timestamp", "seconds"] with
          | some seconds => std.rfc3339 seconds ((nestedInt64 result ["timestamp", "nanos"]).getD 0)
          | none => ""
        engine := .kyverno
        blocking := outcome = "fail" }
  else none

def extractKyvernoViolations (report : Json) : List NormalizedViolation :=
  ((nestedSlice report ["results"]).getD []).filterMap (kyvernoViolation std report)

end Kyverno

section Gatekeeper

variable (std : Stdlib) (constraintKind : String)

/-- The enforcement action of a constraint. -/
def constraintAction (obj : Json) : String := firstNonEmpty (obj.nestedString ["spec", "enforcementAction"]) "deny"

def constraintSeverity (obj : Json) : String :=
  std.lower (firstNonEmpty (annotationValue obj "metadata.gatekeeper.sh/severity") defaultSeverity)

def normalizeGatekeeperConstraint (obj : Json) : NormalizedPolicy :=
  let name := getName obj
  { id := "gatekeeper::" ++ constraintKind ++ "/" ++ name
    name := firstNonEmpty (annotationValue obj "metadata.gatekeeper.sh/title") name
    kind := constraintKind
    action := constraintAction obj
    category := annotationValue obj "metadata.gatekeeper.sh/category"
    severity := constraintSeverity std obj
    description := annotationValue obj "description"
    nativeAction := constraintAction obj
    engine := .gatekeeper
    blocking := equalFold (constraintAction obj) "deny"
    ready := true
    matchKey := constraintKind ++ "/" ++ name
    targetKinds := ((nestedSlice obj ["spec", "match", "kinds"]).getD []).flatMap
      (fun mk ↦ nestedStringSlice mk ["kinds"]) }

def gatekeeperViolation (obj v : Json) : Option NormalizedViolation :=
  if isObject v then
    some
      { policy := constraintKind ++ "/" ++ getName obj
        severity := constraintSeverity std obj
        action := constraintAction obj
        message := v.nestedString ["message"]
        ns := v.nestedString ["namespace"]
        kind := v.nestedString ["kind"]
        name := v.nestedString ["name"]
        engine := .gatekeeper
        blocking := equalFold (constraintAction obj) "deny" }
  else none

def extractGatekeeperViolations (obj : Json) : List NormalizedViolation :=
  ((nestedSlice obj ["status", "violations"]).getD []).filterMap (gatekeeperViolation std constraintKind obj)

end Gatekeeper

end KubeCenter.Policy

/-! The compliance score of policies and violations. -/

namespace KubeCenter.Policy

open KubeCenter.Core Function

def severityWeights : GoMap String ℕ :=
  GoMap.indexBy Prod.fst Prod.snd [("critical", 10), ("high", 5), ("medium", 2), ("low", 1)]

/-- The weight of a severity; one without a weight counts as the default severity. -/
def severityWeight (severity : String) : ℕ :=
  match (severityWeights.lookup severity).getD 0 with
  | 0 => (severityWeights.lookup defaultSeverity).getD 0
  | weight => weight

structure SeverityCounts where
  pass : ℕ := 0
  fail : ℕ := 0
  total : ℕ := 0
  deriving DecidableEq

/-- A severity without policies has a total of zero here and no entry in the source's map. -/
structure ComplianceScore where
  scope : String
  score : ℚ
  pass : ℕ
  fail : ℕ
  warn : ℕ
  total : ℕ
  bySeverity : String → SeverityCounts

/-- The variables of the loop over the policies. -/
structure Tally where
  pass : ℕ := 0
  weightedPass : ℕ := 0
  weightedAll : ℕ := 0
  bySeverity : String → SeverityCounts := fun _ ↦ {}

variable {policies policies' : List NormalizedPolicy} {violations violations' : List NormalizedViolation}
  {scope : String}

def SeverityCounts.add (sc : SeverityCounts) (passed : Bool) : SeverityCounts :=
  if passed then { sc with pass := sc.pass + 1, total := sc.total + 1 }
  else { sc with fail := sc.fail + 1, total := sc.total + 1 }

/-- One turn of the loop; `vCount` is how many violations a match key has. -/
def Tally.add (vCount : String → ℕ) (t : Tally) (p : NormalizedPolicy) : Tally :=
  let weight := severityWeight p.severity
  let passed : Bool := vCount p.matchKey = 0
  { pass := t.pass + if passed then 1 else 0
    weightedPass := t.weightedPass + if passed then weight else 0
    weightedAll := t.weightedAll + weight
    bySeverity := update t.bySeverity p.severity ((t.bySeverity p.severity).add passed) }

def inScope (scope : String) (v : NormalizedViolation) : Bool := scope = "" || v.ns = scope

/-- The sums are sums of small integers, which float64 adds without rounding. -/
def computeCompliance (policies : List NormalizedPolicy) (violations : List NormalizedViolation) (scope : String) :
    ComplianceScore :=
  let relevant := violations.filter (inScope scope)
  let vCount (matchKey : String) := relevant.countP (fun v ↦ v.policy = matchKey)
  let t := policies.foldl (Tally.add vCount) {}
  { scope
    score := if 0 < t.weightedAll then (t.weightedPass : ℚ) / t.weightedAll * 100 else 100
    pass := t.pass
    fail := relevant.countP (fun v ↦ v.blocking)
    warn := relevant.countP (fun v ↦ !v.blocking)
    total := policies.length
    bySeverity := t.bySeverity }

theorem SeverityCounts.add_comm (sc : SeverityCounts) (a b : Bool) : (sc.add a).add b = (sc.add b).add a := by
  cases a <;> cases b <;> rfl

theorem Tally.add_comm (vCount : String → ℕ) (t : Tally) (p q : NormalizedPolicy) :
    (t.add vCount p).add vCount q = (t.add vCount q).add vCount p := by
  simp only [Tally.add, Tally.mk.injEq]
  refine ⟨by omega, by omega, by omega, ?_⟩
  by_cases h : q.severity = p.severity
  · rw [h, update_self, update_self, update_idem, update_idem, SeverityCounts.add_comm]
  · rw [update_of_ne h, update_of_ne (Ne.symm h), update_comm h]

/-- The order of the policies and of the violations does not matter, and violations out of scope do not. -/
theorem computeCompliance_perm (hp : policies.Perm policies')
    (hv : (violations.filter (inScope scope)).Perm (violations'.filter (inScope scope))) :
    computeCompliance policies violations scope = computeCompliance policies' violations' scope := by
  have hcount : ∀ p : NormalizedViolation → Bool,
      (violations.filter (inScope scope)).countP p = (violations'.filter (inScope scope)).countP p :=
    fun p ↦ hv.countP_eq p
  have hfold : ∀ vCount : String → ℕ,
      policies.foldl (Tally.add vCount) {} = policies'.foldl (Tally.add vCount) {} := by
    intro vCount
    have : RightCommutative (Tally.add vCount) := ⟨fun t p q ↦ t.add_comm vCount p q⟩
    exact hp.foldl_eq _
  simp only [computeCompliance, hcount, hfold, hp.length_eq]

/-- Equal scores count equally many policies and violations in scope. -/
theorem computeCompliance_counts (h : computeCompliance policies violations scope =
    computeCompliance policies' violations' scope) : policies.length = policies'.length ∧
    (violations.filter (inScope scope)).length = (violations'.filter (inScope scope)).length := by
  have htotal : policies.length = policies'.length := congrArg ComplianceScore.total h
  have hfail : (violations.filter (inScope scope)).countP (fun v ↦ v.blocking) =
      (violations'.filter (inScope scope)).countP (fun v ↦ v.blocking) := congrArg ComplianceScore.fail h
  have hwarn : (violations.filter (inScope scope)).countP (fun v ↦ !v.blocking) =
      (violations'.filter (inScope scope)).countP (fun v ↦ !v.blocking) := congrArg ComplianceScore.warn h
  have hsplit : ∀ l : List NormalizedViolation,
      l.length = l.countP (fun v ↦ v.blocking) + l.countP (fun v ↦ !v.blocking) := by
    intro l
    simpa using List.length_eq_countP_add_countP (fun v : NormalizedViolation ↦ v.blocking)
  refine ⟨htotal, ?_⟩
  rw [hsplit, hsplit (violations'.filter _), hfail, hwarn]

end KubeCenter.Policy
