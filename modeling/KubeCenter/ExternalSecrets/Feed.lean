import KubeCenter.Core.Runs
import KubeCenter.ExternalSecrets.Poller

namespace KubeCenter.ExternalSecrets.Feed

open KubeCenter.Core Function
open KubeCenter.Notifications (Notification emitAlone dedupExists dedupWindow)

/-- The poller's view of one ExternalSecret and the notifications table. Two fields are history:
the bucket of the last observation, and the failure bucket the resource is in if it was entered
from the healthy one. -/
structure State where
  now : ℤ
  poller : Poller
  rows : List Notification
  nextId : ℕ
  last : Option StatusBucket := none
  entered : Option StatusBucket := none

/-- Nothing of this UID has been observed; there may be seeds and older notifications. -/
def init (now : ℤ) (rows : List Notification) (nextId : ℕ) (seeds : String → Option SeedEntry) (initialized : Bool) :
    State :=
  { now, poller := { seedNSName := seeds, initialized }, rows, nextId }

/-- `observe` is a tick that finds the resource in a status; `answered` and `ok` say whether the
statements of the `Emit` it may make succeed. -/
inductive Act
  | observe (status : Status) (alertOnLifecycle answered ok : Bool)
  | other (n : Notification)
  | advance (d : ℕ)

variable (es : ExternalSecret)

/-- The resource as a tick finds it, recovery alerts enabled. -/
def observed (status : Status) (alertOnLifecycle : Bool) : ExternalSecret :=
  { es with status, alertOnRecovery := some true, alertOnLifecycle := some alertOnLifecycle }

/-- The notification is about the resource. -/
def About (n : Notification) : Prop :=
  n.source = .externalSecrets ∧ n.resourceKind = "externalsecret" ∧ n.resourceNS = es.ns ∧ n.resourceName = es.name

instance (n : Notification) : Decidable (About es n) := inferInstanceAs (Decidable (_ ∧ _))

def State.emit (s : State) (answered ok : Bool) (rec : EmitRecord) : State :=
  { s with
    rows := emitAlone s.rows rec.notification s.nextId s.now answered ok
    nextId := s.nextId + 1 }

def enteredAfter (last entered : Option StatusBucket) (current : StatusBucket) : Option StatusBucket :=
  if last = some .healthy ∧ isFailureBucket current = true then some current
  else if last = some current then entered
  else none

def State.observe (s : State) (status : Status) (alertOnLifecycle answered ok : Bool) : State :=
  let (records, poller) := s.poller.check (observed es status alertOnLifecycle)
  let s' := records.foldl (fun s rec ↦ s.emit answered ok rec) { s with poller }
  { s' with last := some (bucketFor status), entered := enteredAfter s.last s.entered (bucketFor status) }

def step (s : State) (a : Act) : Option State :=
  match a with
  | .observe status alertOnLifecycle answered ok => some (s.observe es status alertOnLifecycle answered ok)
  | .other n => if About es n then none else some { s with rows := s.rows ++ [n.row s.nextId s.now], nextId := s.nextId + 1 }
  | .advance d => some { s with now := s.now + d }

/-- The resource's newest stored notification. -/
def newest (rows : List Notification) : Option Notification := (rows.filter (fun n ↦ decide (About es n))).getLast?

def failureNotification (b : StatusBucket) : Notification :=
  (failureRecord es (failureEventKind b)).notification

/-- While the resource is in a failure bucket entered from the healthy one, its newest stored
notification is that failure. -/
def EndsOnFailure (s : State) : Prop :=
  ∀ b, s.entered = some b → (newest es s.rows).map Notification.title = some (failureNotification es b).title

/-- A failure entered from the healthy bucket gets stored, the check failing or finding no such
failure within the window and the INSERT succeeding, or is the newest notification anyway. -/
def FailureStored (s : State) : Act → Prop
  | .observe status _ answered ok => s.last = some .healthy → isFailureBucket (bucketFor status) = true →
      (¬ (answered = true ∧ dedupExists s.rows (failureNotification es (bucketFor status)) dedupWindow s.now = true) ∧
        ok = true) ∨
      (newest es s.rows).map Notification.title = some (failureNotification es (bucketFor status)).title
  | _ => True

structure Inv (s : State) : Prop where
  ends : EndsOnFailure es s
  prev : s.poller.prevBucket es.uid = s.last
  seen : s.last ≠ none → s.poller.seen es.uid = true
  entered : ∀ b, s.entered = some b → s.last = some b ∧ isFailureBucket b = true

variable {es} {s t : State}

theorem inv_init (now : ℤ) (rows : List Notification) (nextId : ℕ) (seeds : String → Option SeedEntry) (initialized : Bool) :
    Inv es (init now rows nextId seeds initialized) where
  ends _ h := by cases h
  prev := rfl
  seen h := absurd rfl h
  entered _ h := by cases h

theorem newest_append (rows : List Notification) (n : Notification) :
    newest es (rows ++ [n]) = if About es n then some n else newest es rows := by
  unfold newest
  rw [List.filter_append]
  by_cases h : About es n
  · simp [h]
  · simp [h]

theorem foldl_emit_frame (records : List EmitRecord) (s : State) (answered ok : Bool) :
    (records.foldl (fun s rec ↦ s.emit answered ok rec) s).poller = s.poller ∧
      (records.foldl (fun s rec ↦ s.emit answered ok rec) s).now = s.now := by
  induction records generalizing s with
  | nil => exact ⟨rfl, rfl⟩
  | cons rec records ih => exact ih _

/-- What the poller emits once the resource has been observed depends on its last bucket. -/
theorem records_known (h : Inv es s) {prev : StatusBucket} (hlast : s.last = some prev) (status : Status)
    (alertOnLifecycle : Bool) : (s.poller.check (observed es status alertOnLifecycle)).1 =
      Poller.transitionRecords (observed es status alertOnLifecycle) prev (bucketFor status) := by
  refine Poller.check_known ?_ ?_
  · exact h.seen (by rw [hlast]; exact Option.some_ne_none _)
  · exact h.prev.trans hlast

theorem failure_about (b : StatusBucket) : About es (failureNotification es b) := by
  cases b <;> exact ⟨rfl, rfl, rfl, rfl⟩

theorem failure_observed (es : ExternalSecret) (b : StatusBucket) (status : Status) (alertOnLifecycle : Bool) :
    failureNotification (observed es status alertOnLifecycle) b = failureNotification es b := by
  cases b <;> rfl

theorem failure_source (es : ExternalSecret) (b : StatusBucket) : (failureNotification es b).source ≠ .audit := by
  rw [(failure_about b).1]
  exact fun h ↦ by cases h

/-- The entry's own notification is newest iff it is stored or was newest before. -/
theorem newest_emitAlone (es : ExternalSecret) (rows : List Notification) (id : ℕ) (now : ℤ) (answered ok : Bool)
    (b : StatusBucket) :
    (newest es (emitAlone rows (failureNotification es b) id now answered ok)).map Notification.title =
        some (failureNotification es b).title ↔
      (¬ (answered = true ∧ dedupExists rows (failureNotification es b) dedupWindow now = true) ∧ ok = true) ∨
        (newest es rows).map Notification.title = some (failureNotification es b).title := by
  have hsource := failure_source es b
  unfold emitAlone
  by_cases hsup : answered = true ∧ dedupExists rows (failureNotification es b) dedupWindow now = true
  · simp [hsup, hsource]
  · rw [if_neg (fun h ↦ hsup h.2)]
    cases ok with
    | false => simp [hsup]
    | true =>
      have habout : About es ((failureNotification es b).row id now) := failure_about b
      rw [if_pos rfl, newest_append, if_pos habout]
      simp only [hsup, not_false_eq_true, true_and, true_or, iff_true]
      rfl

section Observe

variable {status : Status} {alertOnLifecycle answered ok : Bool}

theorem observe_poller : (s.observe es status alertOnLifecycle answered ok).poller =
    (s.poller.check (observed es status alertOnLifecycle)).2 :=
  (foldl_emit_frame _ _ answered ok).1

theorem observe_entered (hlast : s.last = some .healthy) (hfail : isFailureBucket (bucketFor status) = true) :
    (s.observe es status alertOnLifecycle answered ok).entered = some (bucketFor status) :=
  if_pos ⟨hlast, hfail⟩

/-- At the entry into a failure bucket one notification is emitted, the failure's. -/
theorem observe_entry (h : Inv es s) (hlast : s.last = some .healthy) (hfail : isFailureBucket (bucketFor status) = true) :
    (s.observe es status alertOnLifecycle answered ok).rows =
      emitAlone s.rows (failureNotification es (bucketFor status)) s.nextId s.now answered ok := by
  have hrecords : (s.poller.check (observed es status alertOnLifecycle)).1 =
      [failureRecord (observed es status alertOnLifecycle) (failureEventKind (bucketFor status))] := by
    rw [records_known h hlast, Poller.transitionRecords]
    have hne : StatusBucket.healthy ≠ bucketFor status := fun heq ↦ by rw [← heq] at hfail; cases hfail
    rw [if_neg hne, if_pos ⟨rfl, hfail⟩]
  have hnotification := failure_observed es (bucketFor status) status alertOnLifecycle
  unfold State.observe
  dsimp only
  rw [hrecords]
  change emitAlone s.rows (failureNotification _ _) s.nextId s.now answered ok = _
  rw [hnotification]

theorem observe_same (h : Inv es s) (hlast : s.last = some (bucketFor status)) :
    (s.observe es status alertOnLifecycle answered ok).rows = s.rows := by
  have hrecords : (s.poller.check (observed es status alertOnLifecycle)).1 = [] := by
    rw [records_known h hlast, Poller.transitionRecords, if_pos rfl]
  unfold State.observe
  dsimp only
  rw [hrecords]
  rfl

theorem Inv.observe (h : Inv es s) (hends : EndsOnFailure es (s.observe es status alertOnLifecycle answered ok)) :
    Inv es (s.observe es status alertOnLifecycle answered ok) where
  ends := hends
  prev := by
    rw [observe_poller, Poller.check_prevBucket]
    exact update_self ..
  seen _ := by
    rw [observe_poller, Poller.check_seen]
    exact update_self ..
  entered b hb := by
    change enteredAfter s.last s.entered (bucketFor status) = some b at hb
    change some (bucketFor status) = some b ∧ _
    unfold enteredAfter at hb
    split at hb
    · next hentry =>
      cases hb
      exact ⟨rfl, hentry.2⟩
    · split at hb
      · next hlast =>
        obtain ⟨hb', hfail⟩ := h.entered b hb
        exact ⟨hlast.symm.trans hb', hfail⟩
      · cases hb

/-- A tick keeps the property exactly if a failure it enters gets stored. -/
theorem endsOnFailure_observe_iff (h : Inv es s) :
    EndsOnFailure es (s.observe es status alertOnLifecycle answered ok) ↔
      FailureStored es s (.observe status alertOnLifecycle answered ok) := by
  by_cases hentry : s.last = some .healthy ∧ isFailureBucket (bucketFor status) = true
  · obtain ⟨hlast, hfail⟩ := hentry
    unfold EndsOnFailure
    rw [observe_entered hlast hfail, observe_entry h hlast hfail]
    have hnewest := newest_emitAlone es s.rows s.nextId s.now answered ok (bucketFor status)
    constructor
    · intro hends _ _
      exact hnewest.mp (hends _ rfl)
    · rintro hstored _ ⟨⟩
      exact hnewest.mpr (hstored hlast hfail)
  · refine iff_of_true (fun b hb ↦ ?_) (fun hlast hfail ↦ absurd ⟨hlast, hfail⟩ hentry)
    change enteredAfter s.last s.entered (bucketFor status) = some b at hb
    rw [enteredAfter, if_neg hentry] at hb
    split at hb
    · next hlast =>
      rw [observe_same h hlast]
      exact h.ends b hb
    · cases hb

end Observe

theorem step_inv {a : Act} (h : Inv es s) (hok : FailureStored es s a) (hs : step es s a = some t) : Inv es t := by
  cases a with
  | observe status alertOnLifecycle answered ok =>
    cases hs
    exact h.observe ((endsOnFailure_observe_iff h).mpr hok)
  | other n =>
    simp only [step] at hs
    split at hs
    · cases hs
    · next hother =>
      cases hs
      have hrow : ¬ About es (n.row s.nextId s.now) := hother
      refine ⟨fun b hb ↦ ?_, h.prev, h.seen, h.entered⟩
      change (newest es (s.rows ++ [n.row s.nextId s.now])).map _ = _
      rw [newest_append, if_neg hrow]
      exact h.ends b hb
  | advance d =>
    cases hs
    exact ⟨h.ends, h.prev, h.seen, h.entered⟩

theorem not_endsOnFailure {a : Act} (h : Inv es s) (hok : ¬ FailureStored es s a) (hs : step es s a = some t) :
    ¬ EndsOnFailure es t := by
  cases a with
  | observe status alertOnLifecycle answered ok =>
    cases hs
    exact mt (endsOnFailure_observe_iff h).mp hok
  | _ => exact absurd trivial hok

/-- The feed ends on the failure in every state of a run iff every failure the run enters from
the healthy bucket gets stored. -/
theorem endsOnFailure_throughout_iff (es : ExternalSecret) (now : ℤ) (rows : List Notification) (nextId : ℕ)
    (seeds : String → Option SeedEntry) (initialized : Bool) (acts : List Act) :
    Throughout (step es) (EndsOnFailure es) (init now rows nextId seeds initialized) acts ↔
      EachStep (step es) (FailureStored es) (init now rows nextId seeds initialized) acts :=
  throughout_iff_eachStep (fun _ ↦ Inv.ends) (fun _ _ _ ↦ step_inv) (fun _ _ _ ↦ not_endsOnFailure)
    (inv_init now rows nextId seeds initialized) acts

def dbPassword : ExternalSecret := { ns := "shop", name := "db-password", uid := "uid-3", status := .synced }

/-- Healthy, failed, recovered, failed again and still failed, a minute apart. -/
def flapping : List Act :=
  [.observe .synced false true true, .advance 60000000, .observe .syncFailed false true true, .advance 60000000,
    .observe .synced false true true, .advance 60000000, .observe .syncFailed false true true, .advance 60000000,
    .observe .syncFailed false true true]

theorem not_endsOnFailure_throughout :
    ¬ Throughout (step dbPassword) (EndsOnFailure dbPassword) (init 0 [] 0 (fun _ ↦ none) true) flapping := by
  intro h
  have hlast := h.last
    (t := (exec (step dbPassword) (init 0 [] 0 (fun _ ↦ none) true) flapping).get (by decide)) (by simp)
  exact absurd (hlast .failed (by decide)) (by decide)

end KubeCenter.ExternalSecrets.Feed
