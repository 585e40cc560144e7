import Mathlib.Data.List.Sort
import Mathlib.Data.String.Basic
import Mathlib.Logic.Function.Basic
import KubeCenter.ExternalSecrets.Handler
import KubeCenter.Notifications.Store

namespace KubeCenter.ExternalSecrets

open Function
open KubeCenter.Notifications (Notification Severity)

inductive StatusBucket where
  | healthy | failed | stale | unknown
  deriving DecidableEq

inductive EventKind where
  | syncFailed | stale | unhealthy | recovered | created | firstSynced
  deriving DecidableEq

def titleSyncFailed := "ExternalSecret sync failed"
def titleStale := "ExternalSecret stale"
def titleUnhealthy := "ExternalSecret unhealthy"
def titleRecovered := "ExternalSecret recovered"
def titleFirstSynced := "ExternalSecret first synced"
def titleCreated := "ExternalSecret created"
def titleDeleted := "ExternalSecret deleted"

def bucketFor : Status → StatusBucket
  | .synced | .refreshing | .drifted => .healthy
  | .syncFailed => .failed
  | .stale => .stale
  | .unknown => .unknown

def isFailureBucket : StatusBucket → Bool
  | .failed | .stale | .unknown => true
  | .healthy => false

def failureEventKind : StatusBucket → EventKind
  | .stale => .stale
  | .failed => .syncFailed
  | _ => .unhealthy

structure EmitRecord where
  es : ExternalSecret
  kind : EventKind
  title : String
  msg : String
  sev : Severity
  deriving DecidableEq

def failureRecord (es : ExternalSecret) : EventKind → EmitRecord
  | .syncFailed =>
    ⟨es, .syncFailed, titleSyncFailed, "An ExternalSecret could not be reconciled by the controller.", .critical⟩
  | .stale => ⟨es, .stale, titleStale, "An ExternalSecret has not synced within its stale-after window.", .warning⟩
  | .unhealthy => ⟨es, .unhealthy, titleUnhealthy, "An ExternalSecret is in an unknown or degraded state.", .warning⟩
  | kind => ⟨es, kind, "", "", .warning⟩

def recoveryRecord (es : ExternalSecret) : EmitRecord :=
  ⟨es, .recovered, titleRecovered, "An ExternalSecret has resumed syncing successfully.", .info⟩

def lifecycleRecord (es : ExternalSecret) : EventKind → EmitRecord
  | .firstSynced =>
    ⟨es, .firstSynced, titleFirstSynced, "A new ExternalSecret has been reconciled for the first time.", .info⟩
  | .created => ⟨es, .created, titleCreated, "A new ExternalSecret has been created (not yet synced).", .info⟩
  | kind => ⟨es, kind, "", "", .info⟩

/-- A lifecycle event, as opposed to one about a transition. -/
def EventKind.isLifecycle : EventKind → Bool
  | .created | .firstSynced => true
  | _ => false

structure SeedEntry where
  bucket : StatusBucket
  notifTime : ℤ
  deriving DecidableEq

/-- The hashed values of a Secret's keys. -/
abbrev KeyHashes := List (String × List UInt8)

/-- The maps go by UID, the seeds by namespace and name. -/
structure Poller where
  prevBucket : String → Option StatusBucket := fun _ ↦ none
  seen : String → Bool := fun _ ↦ false
  initialized : Bool := false
  prevAttemptAt : String → Option ℤ := fun _ ↦ none
  prevKeys : String → Option KeyHashes := fun _ ↦ none
  seedNSName : String → Option SeedEntry := fun _ ↦ none
  historyStore : Bool := true

def alertOnRecovery (es : ExternalSecret) : Bool := es.alertOnRecovery.getD defaultAlertOnRecovery

def alertOnLifecycle (es : ExternalSecret) : Bool := es.alertOnLifecycle.getD defaultAlertOnLifecycle

def bucketFromNotification (n : Notification) : StatusBucket :=
  if n.title = titleSyncFailed then .failed
  else if n.title = titleStale then .stale
  else if n.title = titleUnhealthy then .unknown
  else if n.title = titleRecovered ∨ n.title = titleFirstSynced ∨ n.title = titleCreated then .healthy
  else if n.title = titleDeleted then .unknown
  else match n.severity with
    | .critical => .failed
    | .warning => .unknown
    | .info => .healthy

def seedKey (ns name : String) : String := ns ++ "/" ++ name

namespace Poller

/-- `recent` is what `RecentBySource` answers for the last two hours; a failure leaves no seeds. -/
def seedFromNotifications (p : Poller) (recent : Except String (List Notification)) : Poller :=
  match recent with
  | .error _ => p
  | .ok notifs => { p with seedNSName := notifs.foldl (fun seeds n ↦
      update seeds (seedKey n.resourceNS n.resourceName) (some ⟨bucketFromNotification n, n.createdAt⟩)) p.seedNSName }

/-- The restart seed an ExternalSecret takes up at its first observation. -/
def seed (p : Poller) (es : ExternalSecret) : Option SeedEntry :=
  if p.prevBucket es.uid = none ∧ p.seen es.uid = false then p.seedNSName (seedKey es.ns es.name) else none

/-- The events of a transition between two buckets. -/
def transitionRecords (es : ExternalSecret) (prev current : StatusBucket) : List EmitRecord :=
  if prev = current then []
  else if prev = .healthy ∧ isFailureBucket current = true then [failureRecord es (failureEventKind current)]
  else if isFailureBucket prev = true ∧ current = .healthy then
    if alertOnRecovery es then [recoveryRecord es] else []
  else if isFailureBucket prev = true ∧ isFailureBucket current = true then
    [failureRecord es (failureEventKind current)]
  else []

def check (p : Poller) (es : ExternalSecret) : List EmitRecord × Poller :=
  let current := bucketFor es.status
  let seed := p.seed es
  let prev := (seed.map SeedEntry.bucket).or (p.prevBucket es.uid)
  let wasSeen := p.seen es.uid || seed.isSome
  let p' := { p with
    seen := update p.seen es.uid true
    prevBucket := update p.prevBucket es.uid (some current)
    seedNSName := if seed.isSome then update p.seedNSName (seedKey es.ns es.name) none else p.seedNSName }
  if !wasSeen && p.initialized && alertOnLifecycle es then
    ([lifecycleRecord es (if current = .healthy then .firstSynced else .created)], p')
  else
    match prev with
    | none => ([], p')
    | some prev => (transitionRecords es prev current, p')

def checkAll : Poller → List ExternalSecret → List EmitRecord × Poller
  | p, [] => ([], p)
  | p, es :: ess =>
    let (records, p) := p.check es
    let (rest, p) := p.checkAll ess
    (records ++ rest, p)

end Poller

inductive Outcome where
  | success | failure
  deriving DecidableEq

def outcomeFor : Status → Option Outcome
  | .synced | .drifted => some .success
  | .syncFailed => some .failure
  | .refreshing | .stale | .unknown => none

/-- Truncated to the second. -/
def attemptTimeFor (es : ExternalSecret) : Option ℤ :=
  (es.lastSyncTime.filter (fun t ↦ decide (t ≠ zeroTime))).map (fun t ↦ t - t % second)

structure KeyDiff where
  added : List String := []
  removed : List String := []
  changed : List String := []

def sortKeys (keys : List String) : List String := keys.insertionSort (· ≤ ·)

def diffKeySets (prev current : KeyHashes) : KeyDiff where
  added := sortKeys ((current.filter (fun e ↦ (prev.lookup e.1).isNone)).map Prod.fst)
  removed := sortKeys ((prev.filter (fun e ↦ (current.lookup e.1).isNone)).map Prod.fst)
  changed := sortKeys ((current.filter (fun e ↦ (prev.lookup e.1).any (fun hash ↦ hash != e.2))).map Prod.fst)

structure HistoryEntry where
  uid : String
  ns : String
  name : String
  attemptAt : ℤ
  outcome : Outcome
  reason : String
  message : String
  diff : KeyDiff
  syncedResourceVersion : String

/-- What persisting a tick's attempts meets, by UID: the target Secret's hashed keys when it can
be fetched, and whether the INSERT succeeds. -/
structure PersistEnv where
  secretKeys : String → Option KeyHashes := fun _ ↦ none
  insertOk : String → Bool := fun _ ↦ true

structure Attempt where
  es : ExternalSecret
  outcome : Outcome
  attemptAt : ℤ

namespace Poller

/-- The keys a success with a target brings in. -/
def fetchedKeys (env : PersistEnv) (es : ExternalSecret) (outcome : Outcome) : Option KeyHashes :=
  if outcome ≠ .success ∨ es.targetSecretName = "" then none else env.secretKeys es.uid

/-- `resolveDiffKeys`; a first observation has nothing to compare with. -/
def resolveDiffKeys (p : Poller) (env : PersistEnv) (es : ExternalSecret) (outcome : Outcome) : KeyDiff × Poller :=
  match fetchedKeys env es outcome with
  | none => ({}, p)
  | some current =>
    (((p.prevKeys es.uid).map (fun prev ↦ diffKeySets prev current)).getD {},
      { p with prevKeys := update p.prevKeys es.uid (some current) })

/-- A failed INSERT leaves `prevAttemptAt` for the next tick to retry. -/
def persistOne (p : Poller) (env : PersistEnv) (a : Attempt) : List HistoryEntry × Poller :=
  let (diff, p) := p.resolveDiffKeys env a.es a.outcome
  if env.insertOk a.es.uid then
    ([⟨a.es.uid, a.es.ns, a.es.name, a.attemptAt, a.outcome, a.es.readyReason, a.es.readyMessage, diff,
        a.es.syncedResourceVersion⟩],
      { p with prevAttemptAt := update p.prevAttemptAt a.es.uid (some a.attemptAt) })
  else ([], p)

/-- The attempts that are not recorded yet. -/
def attempt (p : Poller) (es : ExternalSecret) : Option Attempt :=
  match outcomeFor es.status, attemptTimeFor es with
  | some outcome, some attemptAt =>
    if p.prevAttemptAt es.uid = some attemptAt then none else some ⟨es, outcome, attemptAt⟩
  | _, _ => none

def persistEach (env : PersistEnv) : Poller → List Attempt → List HistoryEntry × Poller
  | p, [] => ([], p)
  | p, a :: attempts =>
    let (entries, p) := p.persistOne env a
    let (rest, p) := persistEach env p attempts
    (entries ++ rest, p)

def persistAttempts (p : Poller) (env : PersistEnv) (ess : List ExternalSecret) : List HistoryEntry × Poller :=
  if p.historyStore then p.persistEach env (ess.filterMap p.attempt) else ([], p)

/-- Whether the prune at the end of a tick forgets the UID. -/
def prunes (p : Poller) (ess : List ExternalSecret) (uid : String) : Bool :=
  (p.prevBucket uid).isSome && !(ess.map ExternalSecret.uid).contains uid

def prune (p : Poller) (ess : List ExternalSecret) : Poller :=
  { p with
    prevBucket := fun uid ↦ if p.prunes ess uid then none else p.prevBucket uid
    seen := fun uid ↦ if p.prunes ess uid then false else p.seen uid
    prevAttemptAt := fun uid ↦ if p.prunes ess uid then none else p.prevAttemptAt uid
    prevKeys := fun uid ↦ if p.prunes ess uid then none else p.prevKeys uid }

end Poller

/-- What a tick gives: the events it dispatches, the timeline entries it stores, the poller after. -/
structure Ticked where
  records : List EmitRecord := []
  history : List HistoryEntry := []
  poller : Poller

/-- A tick over the list it was handed. -/
def Poller.process (p : Poller) (env : PersistEnv) (ess : List ExternalSecret) : Ticked :=
  let (records, p) := p.checkAll ess
  let (history, p) := p.persistAttempts env ess
  ⟨records, history, p.prune ess⟩

structure TickEnv where
  available : Bool := true
  fetch : FetchEnv
  persist : PersistEnv := {}

def Poller.tick (p : Poller) (h : Handler) (env : TickEnv) (now : ℤ) : Ticked × Handler :=
  if env.available then
    match h.getCached env.fetch now with
    | (.error _, h) => ({ poller := p }, h)
    | (.ok data, h) => (p.process env.persist data.externalSecrets, h)
  else ({ poller := p }, h)

/-- The notification a record is dispatched as. -/
def EmitRecord.notification (rec : EmitRecord) : Notification where
  source := .externalSecrets
  severity := rec.sev
  title := rec.title
  message := rec.msg
  resourceKind := "externalsecret"
  resourceNS := rec.es.ns
  resourceName := rec.es.name
  suppressResourceFields := true

namespace Poller

variable {p : Poller} {es : ExternalSecret} {ess : List ExternalSecret} {env : PersistEnv} {a : Attempt}
  {attempts : List Attempt} {b : StatusBucket}

/-- Whatever is emitted, the ExternalSecret's bucket is kept and its seed taken. -/
theorem check_poller (p : Poller) (es : ExternalSecret) : (p.check es).2 =
    { p with
      seen := update p.seen es.uid true
      prevBucket := update p.prevBucket es.uid (some (bucketFor es.status))
      seedNSName := if (p.seed es).isSome then update p.seedNSName (seedKey es.ns es.name) none else p.seedNSName } := by
  unfold check
  dsimp only
  split
  · rfl
  · split <;> rfl

theorem check_seen : (p.check es).2.seen = update p.seen es.uid true := by rw [check_poller]

theorem check_prevBucket : (p.check es).2.prevBucket = update p.prevBucket es.uid (some (bucketFor es.status)) := by
  rw [check_poller]

theorem check_seedNSName (p : Poller) (es : ExternalSecret) : (p.check es).2.seedNSName =
    if (p.seed es).isSome then update p.seedNSName (seedKey es.ns es.name) none else p.seedNSName := by
  rw [check_poller]

theorem check_rest (p : Poller) (es : ExternalSecret) : (p.check es).2.prevAttemptAt = p.prevAttemptAt ∧
    (p.check es).2.prevKeys = p.prevKeys ∧ (p.check es).2.historyStore = p.historyStore ∧
    (p.check es).2.initialized = p.initialized := by
  rw [check_poller]
  exact ⟨rfl, rfl, rfl, rfl⟩

/-- What is already known goes by its bucket alone. -/
theorem check_known (hseen : p.seen es.uid = true) (hprev : p.prevBucket es.uid = some b) :
    (p.check es).1 = transitionRecords es b (bucketFor es.status) := by
  unfold check seed
  simp [hseen, hprev]

theorem checkAll_rest (p : Poller) (ess : List ExternalSecret) : (p.checkAll ess).2.prevAttemptAt = p.prevAttemptAt ∧
    (p.checkAll ess).2.prevKeys = p.prevKeys ∧ (p.checkAll ess).2.historyStore = p.historyStore ∧
    (p.checkAll ess).2.initialized = p.initialized := by
  induction ess generalizing p with
  | nil => exact ⟨rfl, rfl, rfl, rfl⟩
  | cons es ess ih =>
    obtain ⟨hat, hkeys, hstore, hinit⟩ := ih (p.check es).2
    obtain ⟨hat', hkeys', hstore', hinit'⟩ := check_rest p es
    exact ⟨hat.trans hat', hkeys.trans hkeys', hstore.trans hstore', hinit.trans hinit'⟩

theorem persistOne_prevAttemptAt : (p.persistOne env a).2.prevAttemptAt =
    if env.insertOk a.es.uid then update p.prevAttemptAt a.es.uid (some a.attemptAt) else p.prevAttemptAt := by
  unfold persistOne resolveDiffKeys
  dsimp only
  split <;> split <;> rfl

theorem persistOne_prevKeys : (p.persistOne env a).2.prevKeys =
    match fetchedKeys env a.es a.outcome with
    | none => p.prevKeys
    | some keys => update p.prevKeys a.es.uid (some keys) := by
  unfold persistOne resolveDiffKeys
  cases fetchedKeys env a.es a.outcome <;> dsimp only <;> split <;> rfl

/-! Persisting writes the keys and the times of the attempts only. -/

theorem persistOne_writes (p : Poller) (env : PersistEnv) (a : Attempt) : ∃ prevKeys prevAttemptAt,
    (p.persistOne env a).2 = { p with prevKeys, prevAttemptAt } := by
  unfold persistOne resolveDiffKeys
  dsimp only
  split
  · split <;> exact ⟨_, _, rfl⟩
  · split <;> exact ⟨_, _, rfl⟩

theorem persistEach_writes (p : Poller) (env : PersistEnv) (attempts : List Attempt) : ∃ prevKeys prevAttemptAt,
    (p.persistEach env attempts).2 = { p with prevKeys, prevAttemptAt } := by
  induction attempts generalizing p with
  | nil => exact ⟨p.prevKeys, p.prevAttemptAt, rfl⟩
  | cons a attempts ih =>
    obtain ⟨keys, at', hrest⟩ := ih (p.persistOne env a).2
    obtain ⟨_, _, hone⟩ := persistOne_writes p env a
    refine ⟨keys, at', hrest.trans ?_⟩
    rw [hone]

theorem persistAttempts_writes (p : Poller) (env : PersistEnv) (ess : List ExternalSecret) :
    ∃ prevKeys prevAttemptAt, (p.persistAttempts env ess).2 = { p with prevKeys, prevAttemptAt } := by
  unfold persistAttempts
  split
  · exact persistEach_writes p env _
  · exact ⟨p.prevKeys, p.prevAttemptAt, rfl⟩

theorem attempt_eq_some_iff : p.attempt es = some a ↔ a.es = es ∧ outcomeFor es.status = some a.outcome ∧
    attemptTimeFor es = some a.attemptAt ∧ p.prevAttemptAt es.uid ≠ some a.attemptAt := by
  unfold attempt
  cases outcomeFor es.status with
  | none => simp
  | some outcome =>
    cases attemptTimeFor es with
    | none => simp
    | some attemptAt =>
      dsimp only
      split
      case isTrue h => simp [h]
      case isFalse h =>
        constructor
        · rintro ⟨⟩
          exact ⟨rfl, rfl, rfl, h⟩
        · obtain ⟨es', outcome', attemptAt'⟩ := a
          rintro ⟨rfl, ⟨⟩, ⟨⟩, -⟩
          rfl

theorem attempt_congr {q : Poller} (h : q.prevAttemptAt = p.prevAttemptAt) : q.attempt = p.attempt := by
  funext es
  rw [attempt, h, attempt]

theorem prune_listed {uid : String} (h : uid ∈ ess.map ExternalSecret.uid) :
    (p.prune ess).prevBucket uid = p.prevBucket uid ∧ (p.prune ess).seen uid = p.seen uid ∧
      (p.prune ess).prevAttemptAt uid = p.prevAttemptAt uid ∧ (p.prune ess).prevKeys uid = p.prevKeys uid := by
  have hprunes : p.prunes ess uid = false := by
    rw [prunes, List.contains_iff_mem.mpr h, Bool.not_true, Bool.and_false]
  simp only [prune, hprunes, Bool.false_eq_true, if_false, and_self]

theorem process_initialized : (p.process env ess).poller.initialized = p.initialized := by
  obtain ⟨_, _, hpersist⟩ := persistAttempts_writes (p.checkAll ess).2 env ess
  exact (congrArg initialized hpersist).trans (checkAll_rest p ess).2.2.2

theorem process_historyStore : (p.process env ess).poller.historyStore = p.historyStore := by
  obtain ⟨_, _, hpersist⟩ := persistAttempts_writes (p.checkAll ess).2 env ess
  exact (congrArg historyStore hpersist).trans (checkAll_rest p ess).2.2.1

end Poller

end KubeCenter.ExternalSecrets
