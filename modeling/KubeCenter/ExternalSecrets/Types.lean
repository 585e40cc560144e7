import Mathlib.Data.Int.Notation
import KubeCenter.Core.GoInt

/-! The service-account view of the External Secrets Operator. Times are in nanoseconds. -/

namespace KubeCenter.ExternalSecrets

open KubeCenter.Core

inductive Status where
  | synced | syncFailed | refreshing | stale | drifted | unknown
  deriving DecidableEq

inductive DriftStatus where
  | inSync | drifted | unknown
  deriving DecidableEq

inductive ThresholdSource where
  | default | externalSecret | secretStore | clusterSecretStore
  deriving DecidableEq

structure StoreRef where
  name : String
  kind : String
  deriving DecidableEq

/-- `none` in the threshold fields is what no layer has set yet. -/
structure ExternalSecret where
  ns : String
  name : String
  uid : String
  status : Status
  driftStatus : DriftStatus := .unknown
  readyReason : String := ""
  readyMessage : String := ""
  storeRef : StoreRef := ⟨"", ""⟩
  targetSecretName : String := ""
  refreshInterval : String := ""
  lastSyncTime : Option ℤ := none
  syncedResourceVersion : String := ""
  staleAfterMinutes : Option ℤ := none
  staleAfterMinutesSource : Option ThresholdSource := none
  alertOnRecovery : Option Bool := none
  alertOnRecoverySource : Option ThresholdSource := none
  alertOnLifecycle : Option Bool := none
  alertOnLifecycleSource : Option ThresholdSource := none
  deriving DecidableEq

structure SecretStore where
  ns : String := ""
  name : String
  uid : String := ""
  status : Status := .unknown
  provider : String := ""
  staleAfterMinutes : Option ℤ := none
  alertOnRecovery : Option Bool := none
  alertOnLifecycle : Option Bool := none
  deriving DecidableEq

def second : ℤ := 1000000000

def minute : ℤ := 60 * second

/-- Go's zero `time.Time`, the first instant of year 1. -/
def zeroTime : ℤ := -62135596800 * second

/-- The minutes become a `time.Duration`, on 64 bits. -/
def isStale (es : ExternalSecret) (now : ℤ) : Bool :=
  match es.staleAfterMinutes, es.lastSyncTime with
  | some minutes, some lastSync =>
    decide (0 < minutes) && decide (toDuration (minutes * minute) ≤ timeSub now lastSync)
  | _, _ => false

/-- The stale overlay comes before the drift overlay, and both only over a base of `synced`. -/
def deriveStatus (es : ExternalSecret) (now : ℤ) : Status :=
  if es.status = .syncFailed ∨ es.status = .refreshing then es.status
  else if es.status = .synced ∧ isStale es now = true then .stale
  else if es.status = .synced ∧ es.driftStatus = .drifted then .drifted
  else es.status

end KubeCenter.ExternalSecrets

namespace KubeCenter.ExternalSecrets

open KubeCenter.Core

def defaultStaleAfterMinutesFallback : ℤ := 120

def minStaleAfterMinutes : ℤ := 5

def defaultStaleAfterMultiplier : ℤ := 2

def defaultAlertOnRecovery : Bool := false

def defaultAlertOnLifecycle : Bool := false

def parseStaleAfterAnnotation (raw : Bytes) : Option ℤ :=
  match parseInt raw with
  | none => none
  | some n => if n ≤ 0 then none else if n < minStaleAfterMinutes then none else some n

def computeStaleDefault (refreshInterval : String) : ℤ :=
  match parseDuration refreshInterval with
  | none => defaultStaleAfterMinutesFallback
  | some d =>
    if d ≤ 0 then defaultStaleAfterMinutesFallback
    else max minStaleAfterMinutes (d / minute * defaultStaleAfterMultiplier)

/-- The store an ExternalSecret names, a later one of the same name hiding an earlier one. -/
def referencedStore (es : ExternalSecret) (stores clusterStores : List SecretStore) :
    Option (SecretStore × ThresholdSource) :=
  if es.storeRef.kind = "SecretStore" then
    (stores.reverse.find? (fun s ↦ s.ns ++ "/" ++ s.name == es.ns ++ "/" ++ es.storeRef.name)).map
      (fun s ↦ (s, .secretStore))
  else if es.storeRef.kind = "ClusterSecretStore" then
    (clusterStores.reverse.find? (fun s ↦ s.name == es.storeRef.name)).map (fun s ↦ (s, .clusterSecretStore))
  else none

/-- The chain ExternalSecret, store, default for one key; a value that is not `valid` falls through. -/
def resolveKey {α : Type} (valid : α → Bool) (esValue : Option α) (store : Option (SecretStore × ThresholdSource))
    (extract : SecretStore → Option α) (defaultValue : α) : α × ThresholdSource :=
  match esValue.filter valid with
  | some v => (v, .externalSecret)
  | none =>
    match store with
    | none => (defaultValue, .default)
    | some (s, source) =>
      match (extract s).filter valid with
      | some v => (v, source)
      | none => (defaultValue, .default)

section

variable {α : Type} {valid : α → Bool} {v d : α} {store : Option (SecretStore × ThresholdSource)}
  {extract : SecretStore → Option α}

theorem resolveKey_es (h : valid v = true) : resolveKey valid (some v) store extract d = (v, .externalSecret) := by
  simp [resolveKey, Option.filter, h]

theorem resolveKey_store {s : SecretStore} {source : ThresholdSource} (hs : extract s = some v) (h : valid v = true) :
    resolveKey valid none (some (s, source)) extract d = (v, source) := by
  simp [resolveKey, Option.filter, hs, h]

end

def resolveIntKey (esValue : Option ℤ) (store : Option (SecretStore × ThresholdSource))
    (extract : SecretStore → Option ℤ) (defaultValue : ℤ) : ℤ × ThresholdSource :=
  resolveKey (fun v ↦ decide (minStaleAfterMinutes ≤ v)) esValue store extract defaultValue

theorem resolveIntKey_es {v d : ℤ} {store : Option (SecretStore × ThresholdSource)} {extract : SecretStore → Option ℤ}
    (h : minStaleAfterMinutes ≤ v) : resolveIntKey (some v) store extract d = (v, .externalSecret) :=
  resolveKey_es (decide_eq_true h)

theorem resolveIntKey_store {v d : ℤ} {s : SecretStore} {source : ThresholdSource} {extract : SecretStore → Option ℤ}
    (hs : extract s = some v) (h : minStaleAfterMinutes ≤ v) :
    resolveIntKey none (some (s, source)) extract d = (v, source) :=
  resolveKey_store hs (decide_eq_true h)

def resolveBoolKey (esValue : Option Bool) (store : Option (SecretStore × ThresholdSource))
    (extract : SecretStore → Option Bool) (defaultValue : Bool) : Bool × ThresholdSource :=
  resolveKey (fun _ ↦ true) esValue store extract defaultValue

/-- `ApplyThresholds` for one ExternalSecret: the resolved values, then the status over them. -/
def resolveThresholds (stores clusterStores : List SecretStore) (now : ℤ) (es : ExternalSecret) : ExternalSecret :=
  let store := referencedStore es stores clusterStores
  let (stale, staleSource) :=
    resolveIntKey es.staleAfterMinutes store SecretStore.staleAfterMinutes (computeStaleDefault es.refreshInterval)
  let (recovery, recoverySource) :=
    resolveBoolKey es.alertOnRecovery store SecretStore.alertOnRecovery defaultAlertOnRecovery
  let (lifecycle, lifecycleSource) :=
    resolveBoolKey es.alertOnLifecycle store SecretStore.alertOnLifecycle defaultAlertOnLifecycle
  let es := { es with
    staleAfterMinutes := some stale
    staleAfterMinutesSource := some staleSource
    alertOnRecovery := some recovery
    alertOnRecoverySource := some recoverySource
    alertOnLifecycle := some lifecycle
    alertOnLifecycleSource := some lifecycleSource }
  { es with status := deriveStatus es now }

theorem resolveThresholds_staleAfterMinutes {stores clusterStores : List SecretStore} {now : ℤ} {es : ExternalSecret} :
    (resolveThresholds stores clusterStores now es).staleAfterMinutes =
      some (resolveIntKey es.staleAfterMinutes (referencedStore es stores clusterStores) SecretStore.staleAfterMinutes
        (computeStaleDefault es.refreshInterval)).1 := rfl

/-- The status is that over the resolved threshold. -/
theorem resolveThresholds_status {stores clusterStores : List SecretStore} {now : ℤ} {es : ExternalSecret} :
    (resolveThresholds stores clusterStores now es).status =
      deriveStatus { es with
        staleAfterMinutes := (resolveThresholds stores clusterStores now es).staleAfterMinutes } now := rfl

/-- A status that is not `synced` stays. -/
theorem deriveStatus_of_ne {es : ExternalSecret} {now : ℤ} (h : es.status ≠ .synced) :
    deriveStatus es now = es.status := by
  simp [deriveStatus, h]

theorem deriveStatus_synced {es : ExternalSecret} {now : ℤ} (h : es.status = .synced) : deriveStatus es now =
    if isStale es now = true then .stale else if es.driftStatus = .drifted then .drifted else .synced := by
  simp [deriveStatus, h]

def applyThresholds (ess : List ExternalSecret) (stores clusterStores : List SecretStore) (now : ℤ) :
    List ExternalSecret :=
  ess.map (resolveThresholds stores clusterStores now)

end KubeCenter.ExternalSecrets
