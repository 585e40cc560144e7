import KubeCenter.Auth.Session
import KubeCenter.Core.Http
import KubeCenter.Policy.Normalize

/-! The Velero objects as the API answers with them, parsed from what the cluster lists. -/

namespace KubeCenter.Velero

open KubeCenter.Core
open KubeCenter.Policy (nestedSlice jsonString nestedInt64 getName getNamespace)

/-- `time.Time`: the instant in nanoseconds and the zone it is shown in. -/
structure Time where
  unixNano : ℤ
  zone : ℤ := 0
  deriving DecidableEq

namespace Time

def after (t u : Time) : Bool := u.unixNano < t.unixNano

def before (t u : Time) : Bool := t.unixNano < u.unixNano

end Time

/-- `time.Parse(time.RFC3339, _)`, and the two parsers of the cron library with the `Next` of the schedules they give. -/
structure TimeLib where
  parseRFC3339 : String → Option Time
  parseCron : String → Option (Time → Time)
  parseStandard : String → Option (Time → Time)

/-- An absent string slice is null in the answer, an empty one is not. -/
structure Backup where
  name : String
  ns : String
  phase : String
  includedNamespaces : Option (List String)
  excludedNamespaces : Option (List String)
  storageLocation : String
  ttl : String
  startTime : Option Time
  completionTime : Option Time
  expiration : Option Time
  itemsBackedUp : ℤ
  totalItems : ℤ
  warnings : ℤ
  errors : ℤ
  scheduleName : String
  snapshotVolumes : Bool
  labels : List (String × String)
  deriving DecidableEq

structure Restore where
  name : String
  ns : String
  phase : String
  backupName : String
  scheduleName : String
  includedNamespaces : Option (List String)
  namespaceMapping : List (String × String)
  startTime : Option Time
  completionTime : Option Time
  itemsRestored : ℤ
  totalItems : ℤ
  warnings : ℤ
  errors : ℤ
  failureReason : String
  deriving DecidableEq

structure Schedule where
  name : String
  ns : String
  phase : String
  schedule : String
  paused : Bool
  lastBackup : Option Time
  nextRunTime : Option Time
  includedNamespaces : Option (List String)
  ttl : String
  storageLocation : String
  validationErrors : List String
  deriving DecidableEq

structure BackupStorageLocation where
  name : String
  ns : String
  provider : String
  bucket : String
  pfx : String
  phase : String
  default : Bool
  lastSyncedTime : Option Time
  message : String
  deriving DecidableEq

structure VolumeSnapshotLocation where
  name : String
  ns : String
  provider : String
  deriving DecidableEq

structure LocationsResponse where
  backupStorageLocations : List BackupStorageLocation
  volumeSnapshotLocations : List VolumeSnapshotLocation
  deriving DecidableEq

section Parse

variable (lib : TimeLib) (obj : Json)

def nestedBool (path : List String) : Bool :=
  match obj.nested path with
  | some (.bool b) => b
  | _ => false

/-- A value that is no list of strings counts as absent. -/
def getStringSlice (path : List String) : Option (List String) :=
  (nestedSlice obj path).bind (fun items ↦ items.mapM jsonString)

def getInt (path : List String) : ℤ := (nestedInt64 obj path).getD 0

def getTime (path : List String) : Option Time :=
  if obj.nestedString path = "" then none else lib.parseRFC3339 (obj.nestedString path)

def computeNextRun (cronExpr : String) (lastRun : Option Time) (now : Time) : Option Time :=
  ((lib.parseCron cronExpr).or (lib.parseStandard cronExpr)).map (fun next ↦
    let start := lastRun.getD now
    next (if start.before now then now else start))

def scheduleLabel : String := "velero.io/schedule-name"

def getLabels : List (String × String) := obj.nestedStringMap ["metadata", "labels"]

def parseBackup : Backup where
  name := getName obj
  ns := getNamespace obj
  phase := obj.nestedString ["status", "phase"]
  includedNamespaces := getStringSlice obj ["spec", "includedNamespaces"]
  excludedNamespaces := getStringSlice obj ["spec", "excludedNamespaces"]
  storageLocation := obj.nestedString ["spec", "storageLocation"]
  ttl := obj.nestedString ["spec", "ttl"]
  startTime := getTime lib obj ["status", "startTimestamp"]
  completionTime := getTime lib obj ["status", "completionTimestamp"]
  expiration := getTime lib obj ["status", "expiration"]
  itemsBackedUp := getInt obj ["status", "progress", "itemsBackedUp"]
  totalItems := getInt obj ["status", "progress", "totalItems"]
  warnings := getInt obj ["status", "warnings"]
  errors := getInt obj ["status", "errors"]
  scheduleName := ((getLabels obj).lookup scheduleLabel).getD ""
  snapshotVolumes := nestedBool obj ["spec", "snapshotVolumes"]
  labels := getLabels obj

def parseRestore : Restore where
  name := getName obj
  ns := getNamespace obj
  phase := obj.nestedString ["status", "phase"]
  backupName := obj.nestedString ["spec", "backupName"]
  scheduleName := obj.nestedString ["spec", "scheduleName"]
  includedNamespaces := getStringSlice obj ["spec", "includedNamespaces"]
  namespaceMapping := obj.nestedStringMap ["spec", "namespaceMapping"]
  startTime := getTime lib obj ["status", "startTimestamp"]
  completionTime := getTime lib obj ["status", "completionTimestamp"]
  itemsRestored := getInt obj ["status", "progress", "itemsRestored"]
  totalItems := getInt obj ["status", "progress", "totalItems"]
  warnings := getInt obj ["status", "warnings"]
  errors := getInt obj ["status", "errors"]
  failureReason := obj.nestedString ["status", "failureReason"]

/-- The last backup's phase is a field that nothing fills. The next run is that of `now`, the time of the fetch. -/
def parseSchedule (now : Time) : Schedule :=
  let schedule := obj.nestedString ["spec", "schedule"]
  let paused := nestedBool obj ["spec", "paused"]
  let phase := obj.nestedString ["status", "phase"]
  let lastBackup := getTime lib obj ["status", "lastBackup"]
  { name := getName obj
    ns := getNamespace obj
    phase, schedule, paused, lastBackup
    nextRunTime :=
      if schedule ≠ "" ∧ ¬ paused ∧ phase = "Enabled" then computeNextRun lib schedule lastBackup now else none
    includedNamespaces := getStringSlice obj ["spec", "template", "includedNamespaces"]
    ttl := obj.nestedString ["spec", "template", "ttl"]
    storageLocation := obj.nestedString ["spec", "template", "storageLocation"]
    validationErrors := (getStringSlice obj ["status", "validationErrors"]).getD [] }

def parseBSL : BackupStorageLocation where
  name := getName obj
  ns := getNamespace obj
  provider := obj.nestedString ["spec", "provider"]
  bucket := obj.nestedString ["spec", "objectStorage", "bucket"]
  pfx := obj.nestedString ["spec", "objectStorage", "prefix"]
  phase := obj.nestedString ["status", "phase"]
  default := nestedBool obj ["spec", "default"]
  lastSyncedTime := getTime lib obj ["status", "lastSyncedTime"]
  message := obj.nestedString ["status", "message"]

def parseVSL : VolumeSnapshotLocation where
  name := getName obj
  ns := getNamespace obj
  provider := obj.nestedString ["spec", "provider"]

end Parse

/-- `IsProgressPhase`: the phases that the badges show as work under way. -/
def isProgressPhase (phase : String) : Bool :=
  phase ∈ ["InProgress", "New", "WaitingForPluginOperations", "Finalizing", "Queued", "ReadyToStart",
    "FinalizingPartiallyFailed", "WaitingForPluginOperationsPartiallyFailed"]

end KubeCenter.Velero

/-! The list handlers over the one cached snapshot. The slices and the locations that a fetch gives out are those of
the cache itself, so what a handler does to them it does to the cache. -/

namespace KubeCenter.Velero

open KubeCenter.Core
open KubeCenter.Auth (User)

def cacheTTL : ℤ := 30 * 1000000000

structure CachedVeleroData where
  backups : List Backup
  restores : List Restore
  schedules : List Schedule
  locations : LocationsResponse
  fetchedAt : Time
  deriving DecidableEq

/-- The five lists of a fetch as the cluster answers them, none where the call fails. -/
structure Lists where
  backups : Option (List Json)
  restores : Option (List Json)
  schedules : Option (List Json)
  backupStorageLocations : Option (List Json)
  volumeSnapshotLocations : Option (List Json)

/-- `g.Wait` and what follows it: the first list that fails fails the fetch. -/
def Lists.data (lib : TimeLib) (l : Lists) (now : Time) : Option CachedVeleroData := do
  let backups ← l.backups
  let restores ← l.restores
  let schedules ← l.schedules
  let bsls ← l.backupStorageLocations
  let vsls ← l.volumeSnapshotLocations
  return {
    backups := backups.map (parseBackup lib)
    restores := restores.map (parseRestore lib)
    schedules := schedules.map (fun obj ↦ parseSchedule lib obj now)
    locations := {
      backupStorageLocations := bsls.map (parseBSL lib)
      volumeSnapshotLocations := vsls.map parseVSL }
    fetchedAt := now }

/-- `sort.Slice`; the order of items of which none is less is its own. -/
structure SortSlice where
  slice : {α : Type} → (α → α → Bool) → List α → List α
  perm : ∀ {α : Type} (less : α → α → Bool) (l : List α), (slice less l).Perm l

structure Env where
  lib : TimeLib
  sort : SortSlice
  canAccess : User → String → String → String → Bool
  cluster : Lists

structure Handler where
  cachedData : Option CachedVeleroData := none
  cacheGen : ℕ := 0

inductive Payload
  | backups (l : List Backup)
  | restores (l : List Restore)
  | schedules (l : List Schedule)
  | locations (l : LocationsResponse)
  deriving DecidableEq

abbrev Response := Except APIError Payload

/-- Newest first; what has not started comes last. -/
def startsAfter (a b : Option Time) : Bool :=
  match a, b with
  | none, _ => false
  | some _, none => true
  | some t, some u => t.after u

def CachedVeleroData.fresh (now : Time) (data : CachedVeleroData) : Bool :=
  now.unixNano - data.fetchedAt.unixNano < cacheTTL

section Handlers

variable (env : Env)

/-- Where no other call invalidates the cache in between, what is fetched is stored. -/
def fetchAll (now : Time) (h : Handler) : Option CachedVeleroData × Handler :=
  match h.cachedData.filter (·.fresh now) with
  | some data => (some data, h)
  | none =>
    match env.cluster.data env.lib now with
    | some data => (some data, { h with cachedData := some data })
    | none => (none, h)

/-- A request as its handler meets it: who asks, whether discovery has found Velero, and when. -/
structure Request where
  user : Option User
  detected : Bool
  now : Time

/-- What a list handler has of its own: the answer without Velero, the message of a failed fetch, and what it
answers to a user from the shared data, with what it leaves of them. -/
structure Listing where
  empty : Payload
  failure : String
  filter : User → CachedVeleroData → Payload × CachedVeleroData

def handleList (listing : Listing) (r : Request) (h : Handler) : Response × Handler :=
  match r.user with
  | none => (.error ⟨401, "authentication required"⟩, h)
  | some user =>
    if r.detected then
      match fetchAll env r.now h with
      | (none, h) => (.error ⟨500, listing.failure⟩, h)
      | (some data, h) =>
        let (answer, data) := listing.filter user data
        (.ok answer, { h with cachedData := some data })
    else (.ok listing.empty, h)

def listBackups : Listing where
  empty := .backups []
  failure := "failed to fetch backups"
  filter user data :=
    if env.canAccess user "list" "backups" "" then
      let backups := env.sort.slice (fun a b ↦ startsAfter a.startTime b.startTime) data.backups
      (.backups backups, { data with backups })
    else (.backups [], data)

def listRestores : Listing where
  empty := .restores []
  failure := "failed to fetch restores"
  filter user data :=
    if env.canAccess user "list" "restores" "" then
      let restores := env.sort.slice (fun a b ↦ startsAfter a.startTime b.startTime) data.restores
      (.restores restores, { data with restores })
    else (.restores [], data)

def listSchedules : Listing where
  empty := .schedules []
  failure := "failed to fetch schedules"
  filter user data :=
    if env.canAccess user "list" "schedules" "" then
      let schedules := env.sort.slice (fun a b ↦ a.name < b.name) data.schedules
      (.schedules schedules, { data with schedules })
    else (.schedules [], data)

/-- The filter writes through the pointer that the cache holds. -/
def listLocations : Listing where
  empty := .locations ⟨[], []⟩
  failure := "failed to fetch locations"
  filter user data :=
    let locations := data.locations
    let locations :=
      if env.canAccess user "list" "backupstoragelocations" "" then locations
      else { locations with backupStorageLocations := [] }
    let locations :=
      if env.canAccess user "list" "volumesnapshotlocations" "" then locations
      else { locations with volumeSnapshotLocations := [] }
    (.locations locations, { data with locations })

def handleListBackups : Request → Handler → Response × Handler := handleList env (listBackups env)

def handleListRestores : Request → Handler → Response × Handler := handleList env (listRestores env)

def handleListSchedules : Request → Handler → Response × Handler := handleList env (listSchedules env)

def handleListLocations : Request → Handler → Response × Handler := handleList env (listLocations env)

end Handlers

end KubeCenter.Velero
