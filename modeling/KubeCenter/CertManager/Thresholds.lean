import Mathlib.Data.List.Sort
import KubeCenter.Core.GoInt
import KubeCenter.Core.GoMap

/-! Certificates, their expiry thresholds and what these decide. Times are in nanoseconds. -/

namespace KubeCenter.CertManager

open KubeCenter.Core

inductive Status
  | ready | issuing | failed | expiring | expired | unknown
  deriving DecidableEq

inductive ThresholdSource
  | default | certificate | issuer | clusterIssuer
  deriving DecidableEq

structure IssuerRef where
  name : String
  kind : String
  group : String := ""
  deriving DecidableEq

/-- A threshold of 0 is one that is not set. -/
structure Certificate where
  name : String
  ns : String
  uid : String
  status : Status
  reason : String := ""
  message : String := ""
  issuerRef : IssuerRef
  secretName : String := ""
  notAfter : Option ℤ
  daysRemaining : Option ℤ
  warningThresholdDays : ℤ := 0
  criticalThresholdDays : ℤ := 0
  thresholdSource : Option ThresholdSource := none
  warningThresholdSource : Option ThresholdSource := none
  criticalThresholdSource : Option ThresholdSource := none
  thresholdConflict : Bool := false
  deriving DecidableEq

structure Issuer where
  name : String
  ns : String := ""
  warningThresholdDays : Option ℤ := none
  criticalThresholdDays : Option ℤ := none
  deriving DecidableEq

def defaultWarningThresholdDays : ℤ := 30

def defaultCriticalThresholdDays : ℤ := 7

/-! ## Normalizing -/

def annotationWarnThreshold : String := "kubecenter.io/cert-warn-threshold-days"

def annotationCriticalThreshold : String := "kubecenter.io/cert-critical-threshold-days"

def parseThresholdAnnotation (val : Bytes) : Option ℤ :=
  match parseInt val with
  | none => none
  | some n => if n ≤ 0 then none else some n

/-- The annotations are those of both thresholds; without one the parser gets the empty string. -/
def readThresholdAnnotations (annotations : GoMap String Bytes) (key : String) : Option ℤ :=
  parseThresholdAnnotation ((annotations.lookup key).getD [])

structure CertificateObject where
  name : String
  ns : String
  uid : String
  annotations : GoMap String Bytes := ∅
  issuerRef : IssuerRef := ⟨"", "", ""⟩
  secretName : String := ""
  notAfter : Option ℤ := none
  readyStatus : String := ""
  reason : String := ""
  message : String := ""

structure IssuerObject where
  name : String
  ns : String := ""
  annotations : GoMap String Bytes := ∅

def computeStatus (readyStatus reason : String) (notAfter : Option ℤ) (now : ℤ) : Status :=
  if notAfter.any (fun t ↦ t < now) then .expired
  else if readyStatus = "True" then .ready
  else if readyStatus = "False" then if reason = "Issuing" ∨ reason = "InProgress" then .issuing else .failed
  else .unknown

def day : ℤ := 24 * 3600 * 1000000000

/-- The quotient is taken exactly where Go goes through a `float64`. -/
def daysUntil (t now : ℤ) : ℤ := timeSub t now / day

/-- The clock is read for the days that remain, and again for the status. -/
def normalizeCertificate (untilNow now : ℤ) (u : CertificateObject) : Certificate where
  name := u.name
  ns := u.ns
  uid := u.uid
  status := computeStatus u.readyStatus u.reason u.notAfter now
  reason := u.reason
  message := u.message
  issuerRef := u.issuerRef
  secretName := u.secretName
  notAfter := u.notAfter
  daysRemaining := u.notAfter.map (fun t ↦ daysUntil t untilNow)
  warningThresholdDays := (readThresholdAnnotations u.annotations annotationWarnThreshold).getD 0
  criticalThresholdDays := (readThresholdAnnotations u.annotations annotationCriticalThreshold).getD 0

def normalizeIssuer (u : IssuerObject) : Issuer where
  name := u.name
  ns := u.ns
  warningThresholdDays := readThresholdAnnotations u.annotations annotationWarnThreshold
  criticalThresholdDays := readThresholdAnnotations u.annotations annotationCriticalThreshold

/-! ## Resolving -/

def effectiveWarn (cert : Certificate) : ℤ :=
  if 0 < cert.warningThresholdDays then cert.warningThresholdDays else defaultWarningThresholdDays

def effectiveCrit (cert : Certificate) : ℤ :=
  if 0 < cert.criticalThresholdDays then cert.criticalThresholdDays else defaultCriticalThresholdDays

def deriveStatus (cert : Certificate) : Status :=
  if cert.status ≠ .ready then cert.status
  else if cert.daysRemaining.any (fun days ↦ days ≤ effectiveWarn cert) then .expiring
  else cert.status

def indexIssuersByNamespacedName (issuers : List Issuer) : GoMap String Issuer :=
  GoMap.indexBy (fun iss ↦ iss.ns ++ "/" ++ iss.name) id issuers

def indexByName (issuers : List Issuer) : GoMap String Issuer := GoMap.indexBy Issuer.name id issuers

/-- The issuer that a certificate of a namespace refers to, in the map of its kind. -/
def referencedIssuer (issuers clusterIssuers : List Issuer) (certNamespace : String) (ref : IssuerRef) :
    Option (Issuer × ThresholdSource) :=
  if ref.kind = "Issuer" then
    ((indexIssuersByNamespacedName issuers).lookup (certNamespace ++ "/" ++ ref.name)).map (fun iss ↦ (iss, .issuer))
  else if ref.kind = "ClusterIssuer" then
    ((indexByName clusterIssuers).lookup ref.name).map (fun iss ↦ (iss, .clusterIssuer))
  else none

def resolveThresholdKey (certValue : ℤ) (iss : Option (Issuer × ThresholdSource)) (defaultValue : ℤ)
    (extract : Issuer → Option ℤ) : ℤ × ThresholdSource :=
  if 0 < certValue then (certValue, .certificate)
  else
    match iss with
    | none => (defaultValue, .default)
    | some (iss, source) =>
      match (extract iss).filter (fun v ↦ 0 < v) with
      | some v => (v, source)
      | none => (defaultValue, .default)

def sourceRank : ThresholdSource → ℕ
  | .certificate => 3
  | .issuer => 2
  | .clusterIssuer => 1
  | .default => 0

def strongerSource (a b : ThresholdSource) : ThresholdSource := if sourceRank b ≤ sourceRank a then a else b

structure Resolved where
  warn : ℤ
  crit : ℤ
  warnSource : ThresholdSource
  critSource : ThresholdSource
  conflict : Bool

def resolveCertThresholdsDetailed (issuers clusterIssuers : List Issuer) (cert : Certificate) : Resolved :=
  let iss := referencedIssuer issuers clusterIssuers cert.ns cert.issuerRef
  let warn := resolveThresholdKey cert.warningThresholdDays iss defaultWarningThresholdDays Issuer.warningThresholdDays
  let crit := resolveThresholdKey cert.criticalThresholdDays iss defaultCriticalThresholdDays Issuer.criticalThresholdDays
  if warn.1 ≤ crit.1 then ⟨defaultWarningThresholdDays, defaultCriticalThresholdDays, .default, .default, true⟩
  else ⟨warn.1, crit.1, warn.2, crit.2, false⟩

/-- `ApplyThresholds` for one certificate. -/
def applyThreshold (issuers clusterIssuers : List Issuer) (cert : Certificate) : Certificate :=
  let r := resolveCertThresholdsDetailed issuers clusterIssuers cert
  let cert := { cert with
    warningThresholdDays := r.warn
    criticalThresholdDays := r.crit
    warningThresholdSource := some r.warnSource
    criticalThresholdSource := some r.critSource
    thresholdSource := some (strongerSource r.warnSource r.critSource)
    thresholdConflict := r.conflict }
  { cert with status := deriveStatus cert }

def applyThresholds (certs : List Certificate) (issuers clusterIssuers : List Issuer) : List Certificate :=
  certs.map (applyThreshold issuers clusterIssuers)

/-! ## What the thresholds decide -/

/-- The poller's `threshold`. -/
inductive Bucket
  | none | warning | critical | expired
  deriving DecidableEq

def Bucket.text : Bucket → String
  | .none => "none"
  | .warning => "warning"
  | .critical => "critical"
  | .expired => "expired"

def thresholdBucket (cert : Certificate) : Bucket :=
  match cert.daysRemaining with
  | none => .none
  | some days =>
    if days < 0 then .expired
    else if days ≤ effectiveCrit cert then .critical
    else if days ≤ effectiveWarn cert then .warning
    else .none

structure ExpiringCertificate where
  ns : String
  name : String
  uid : String
  issuerName : String
  secretName : String
  notAfter : Option ℤ
  daysRemaining : ℤ
  severity : String

/-- The entry of `HandleListExpiring` for one certificate, where it has one. -/
def expiringCertificate (c : Certificate) : Option ExpiringCertificate :=
  (c.daysRemaining.filter (fun days ↦ days ≤ effectiveWarn c)).map (fun days ↦
    { ns := c.ns, name := c.name, uid := c.uid, issuerName := c.issuerRef.name, secretName := c.secretName
      notAfter := c.notAfter, daysRemaining := days
      severity := if days ≤ effectiveCrit c then "critical" else "warning" })

/-- `canAccess` says which namespaces' certificates the user may get. -/
def listExpiring (canAccess : String → Bool) (certificates : List Certificate) : List ExpiringCertificate :=
  ((certificates.filter (fun c ↦ canAccess c.ns)).filterMap expiringCertificate).insertionSort
    (fun a b ↦ a.daysRemaining ≤ b.daysRemaining)

end KubeCenter.CertManager
