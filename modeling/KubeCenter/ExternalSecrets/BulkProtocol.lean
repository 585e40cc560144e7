import KubeCenter.Core.Channel
import KubeCenter.Core.Runs
import KubeCenter.ExternalSecrets.Bulk

/-! Bulk refresh requests at once, with the table of jobs, the worker's queue and the statements that others run. -/

namespace KubeCenter.ExternalSecrets

open KubeCenter.Core KubeCenter.Store KubeCenter.Auth ESOBulkJobStore Function

def queueDepth : ℕ := 32

/-- A request that has passed its checks. -/
structure Admitted where
  req : BulkRequest
  env : BulkEnv
  user : User
  scope : BulkScopeResponse
  vetted : vet req env = .ok (user, scope)

def Admitted.bulkScope (a : Admitted) : BulkScope :=
  ⟨a.req.clusterID, a.req.route.action, a.req.route.scopeTarget⟩

/-- An admitted request with the id of its job and the time of the row. -/
structure Creation where
  admitted : Admitted
  id : ℕ
  createdAt : ℤ

namespace Creation

variable (c : Creation)

def job : ESOBulkRefreshJob :=
  { id := c.id
    scope := c.admitted.bulkScope
    requestedBy := c.admitted.user.username
    targetUIDs := c.admitted.scope.targets.map BulkScopeTarget.uid
    createdAt := c.createdAt }

def message : BulkJobMessage :=
  { jobID := c.id
    scope := c.admitted.bulkScope
    targets := c.admitted.scope.targets
    username := c.admitted.user.kubernetesUsername
    groups := c.admitted.user.kubernetesGroups
    actorName := c.admitted.user.username }

theorem confirmed : Confirmed c.admitted.req c.admitted.env c.admitted.user c.message.targets :=
  vet_confirmed c.admitted.vetted

end Creation

/-- Where one call of `handleBulkRefresh` stands. -/
inductive BulkCall
  | idle
  | checking (a : Admitted)
  | creating (a : Admitted)
  | conflicting (a : Admitted)
  | enqueueing (c : Creation)
  | overflowing (c : Creation)
  | done (response : Except Refusal (ℕ × ℕ))

/-- `nextID` stands for `uuid.New`. The last five are history: the rows inserted, the messages enqueued, the rows
whose request found the queue full, those that then could not be marked completed, and those whose `INSERT` was carried
out without the caller's learning of it. -/
structure BulkService where
  now : ℤ
  rows : List ESOBulkRefreshJob := []
  queue : Chan BulkJobMessage := { cap := queueDepth }
  taken : List BulkJobMessage := []
  nextID : ℕ := 0
  calls : ℕ → BulkCall := fun _ ↦ .idle
  created : List Creation := []
  enqueued : List BulkJobMessage := []
  overflowed : List Creation := []
  uncompleted : List Creation := []
  unconfirmed : List Creation := []

/-- How an `INSERT` ends for the caller: with the database's answer, or with an error, `landed` or not. -/
inductive InsertReply
  | answered
  | failed (landed : Bool)

namespace BulkService

/-- The first six are the steps of call `i`, the next three the worker's, which reports only on jobs it has taken. -/
inductive Act
  | start (i : ℕ) (req : BulkRequest) (env : BulkEnv)
  | findActive (i : ℕ) (fails : Bool)
  | insert (i : ℕ) (reply : InsertReply)
  | conflict (i : ℕ) (fails : Bool)
  | enqueue (i : ℕ)
  | completeOverflow (i : ℕ) (stored : Bool)
  | take
  | appendOutcomes (msg : BulkJobMessage) (batch : BulkOutcomeBatch)
  | complete (msg : BulkJobMessage)
  | completeOrphans
  | cleanup (retentionDays : ℕ)
  | clock (now : ℤ)

variable (s : BulkService)

def setCall (i : ℕ) (call : BulkCall) : BulkService := { s with calls := update s.calls i call }

def activeJobExists (jobID : Option ℕ) : Refusal :=
  { code := 409
    message := "another bulk refresh is already in flight for this scope"
    reason := "active_job_exists", jobID }

def startCall (req : BulkRequest) (env : BulkEnv) : BulkCall :=
  match h : vet req env with
  | .error refusal => .done (.error refusal)
  | .ok (user, scope) => .checking ⟨req, env, user, scope, h⟩

def afterFindActive (a : Admitted) (fails : Bool) : BulkCall :=
  if fails then .done (.error { code := 500, message := "failed to check active jobs" })
  else
    match findActive s.rows a.bulkScope with
    | some existing => .done (.error (activeJobExists (some existing.id)))
    | none => .creating a

def newJob (a : Admitted) : Creation := ⟨a, s.nextID, s.now⟩

def insertStep (i : ℕ) (a : Admitted) (reply : InsertReply) : BulkService :=
  let c := s.newJob a
  let failed : BulkCall := .done (.error { code := 500, message := "failed to create job" })
  match reply, ESOBulkJobStore.insert s.rows c.job with
  | .answered, none => { s with nextID := s.nextID + 1 }.setCall i (.conflicting a)
  | .answered, some rows =>
    { s with rows, nextID := s.nextID + 1, created := s.created ++ [c] }.setCall i (.enqueueing c)
  | .failed true, some rows =>
    { s with
      rows
      nextID := s.nextID + 1
      created := s.created ++ [c]
      unconfirmed := s.unconfirmed ++ [c] }.setCall i failed
  | .failed _, _ => { s with nextID := s.nextID + 1 }.setCall i failed

def afterConflict (a : Admitted) (fails : Bool) : BulkCall :=
  .done (.error (activeJobExists
    (if fails then none else (findActive s.rows a.bulkScope).map ESOBulkRefreshJob.id)))

def enqueueStep (i : ℕ) (c : Creation) : Option BulkService :=
  match s.queue.trySend c.message with
  | .sent queue =>
    some ({ s with queue, enqueued := s.enqueued ++ [c.message] }.setCall i
      (.done (.ok (c.id, c.message.targets.length))))
  | .full => some ({ s with overflowed := s.overflowed ++ [c] }.setCall i (.overflowing c))
  | .panic => none

def overflowStep (i : ℕ) (c : Creation) (stored : Bool) : BulkService :=
  let refused : BulkCall := .done (.error { code := 503, message := "worker queue full" })
  if stored then { s with rows := complete s.rows c.id s.now }.setCall i refused
  else { s with uncompleted := s.uncompleted ++ [c] }.setCall i refused

def step : Act → Option BulkService
  | .start i req env =>
    match s.calls i with
    | .idle => some (s.setCall i (startCall req env))
    | _ => none
  | .findActive i fails =>
    match s.calls i with
    | .checking a => some (s.setCall i (s.afterFindActive a fails))
    | _ => none
  | .insert i reply =>
    match s.calls i with
    | .creating a => some (s.insertStep i a reply)
    | _ => none
  | .conflict i fails =>
    match s.calls i with
    | .conflicting a => some (s.setCall i (s.afterConflict a fails))
    | _ => none
  | .enqueue i =>
    match s.calls i with
    | .enqueueing c => s.enqueueStep i c
    | _ => none
  | .completeOverflow i stored =>
    match s.calls i with
    | .overflowing c => some (s.overflowStep i c stored)
    | _ => none
  | .take =>
    match s.queue.buf with
    | msg :: buf => some { s with queue := { s.queue with buf }, taken := s.taken ++ [msg] }
    | [] => none
  | .appendOutcomes msg batch =>
    if msg ∈ s.taken then some { s with rows := appendOutcomes s.rows msg.jobID batch } else none
  | .complete msg => if msg ∈ s.taken then some { s with rows := complete s.rows msg.jobID s.now } else none
  | .completeOrphans => some { s with rows := completeOrphans s.rows s.now }
  | .cleanup retentionDays => some { s with rows := cleanup s.rows s.now retentionDays }
  | .clock now => some { s with now }

def init (now : ℤ) : BulkService := { now }

/-- What a job stands for: whichever message was enqueued, and whichever row is in the table, was made for a request
that passed its checks, and no scope has two jobs that are not completed. -/
structure Pinned : Prop where
  enqueued : ∀ msg ∈ s.enqueued, ∃ c ∈ s.created, c.message = msg ∧ c.job.targetUIDs = msg.uids ∧
    Confirmed c.admitted.req c.admitted.env c.admitted.user msg.targets ∧
    msg.username = c.admitted.user.kubernetesUsername
  rows : ∀ j ∈ s.rows, ∃ c ∈ s.created, j.id = c.id ∧ j.scope = c.job.scope ∧ j.targetUIDs = c.job.targetUIDs ∧
    Confirmed c.admitted.req c.admitted.env c.admitted.user c.message.targets
  oneActive : OneActive s.rows

/-- A row is made only for a request whose message is enqueued next. -/
def OnlyEnqueued : Prop := ∀ c ∈ s.created, c.message ∈ s.enqueued ∨ ∃ i, s.calls i = .enqueueing c

/-- A row is made only for a request whose message is enqueued next, if the queue has room for it; or without the
caller's learning of it. Where there was no room the row is marked completed next, if that statement is carried out. -/
structure EnqueuedOrRefused : Prop where
  created : ∀ c ∈ s.created,
    c.message ∈ s.enqueued ∨ (∃ i, s.calls i = .enqueueing c) ∨ c ∈ s.overflowed ∨ c ∈ s.unconfirmed
  overflowed : ∀ c ∈ s.overflowed, (∃ i, s.calls i = .overflowing c) ∨ c ∈ s.uncompleted ∨
    ∀ j ∈ s.rows, j.id = c.id → j.active = false

end BulkService

end KubeCenter.ExternalSecrets
