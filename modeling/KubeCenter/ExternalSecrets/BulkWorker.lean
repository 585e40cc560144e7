import KubeCenter.ExternalSecrets.ForceSync
import KubeCenter.Store.ESOBulkJobs

/-! One job of the bulk worker: a patch for each target, the outcomes written to the job's row in batches. -/

namespace KubeCenter.ExternalSecrets

open KubeCenter.Core KubeCenter.Store ForceSync

def outcomeBatchSize : ℕ := 50

structure BulkScopeTarget where
  ns : String
  name : String
  uid : String
  deriving DecidableEq

structure BulkJobMessage where
  jobID : ℕ
  scope : BulkScope
  targets : List BulkScopeTarget
  username : String
  groups : List String
  actorName : String
  deriving DecidableEq

def BulkJobMessage.uids (msg : BulkJobMessage) : List String := msg.targets.map BulkScopeTarget.uid

/-- The row the job was created with. -/
def BulkJobMessage.row (msg : BulkJobMessage) (createdAt : ℤ) : ESOBulkRefreshJob :=
  { id := msg.jobID, scope := msg.scope, requestedBy := msg.actorName, targetUIDs := msg.uids, createdAt }

def failureReason (err : RequestError) : String :=
  if err.isForbidden then "rbac_denied"
  else if err.isNotFound then "not_found"
  else if err.isConflict then "optimistic_lock"
  else classifyPatchError err

/-- The batch with the outcome of one more patch. -/
def recordOutcome (batch : BulkOutcomeBatch) (uid : String) : Option PatchError → BulkOutcomeBatch
  | some .alreadyRefreshing => { batch with skipped := batch.skipped ++ [⟨uid, "already_refreshing"⟩] }
  | some .uidDrifted => { batch with failed := batch.failed ++ [⟨uid, "uid_drifted"⟩] }
  | some (.request err) => { batch with failed := batch.failed ++ [⟨uid, failureReason err⟩] }
  | none => { batch with succeeded := batch.succeeded ++ [uid] }

/-- Where the worker goes on after a flush. -/
inductive AfterFlush
  | interCall (rest : List BulkScopeTarget)
  | complete
  | exit
  deriving DecidableEq

/-- Where the worker stands in a job; `rest` are the targets it has not come to. -/
inductive WorkerAt
  | starting
  | refusing
  | top (rest : List BulkScopeTarget)
  | patching (target : BulkScopeTarget) (rest : List BulkScopeTarget)
  | patched (target : BulkScopeTarget) (err : Option PatchError) (rest : List BulkScopeTarget)
  | flushing (next : AfterFlush)
  | waiting (rest : List BulkScopeTarget)
  | completing
  | finishing
  | recovering
  | recovered
  | exited
  deriving DecidableEq

/-- The delay between two calls; there is none after the last. -/
def interCall : List BulkScopeTarget → WorkerAt
  | [] => .top []
  | target :: rest => .waiting (target :: rest)

def AfterFlush.resume : AfterFlush → WorkerAt
  | .interCall rest => ExternalSecrets.interCall rest
  | .complete => .completing
  | .exit => .exited

/-- A job in the worker's hands, with its row. The last three are history, all uids: of the targets whose patch
call has returned, of those whose patch was applied in the cluster, and of those whose outcome was lost before it was
in the row. -/
structure JobRun where
  row : ESOBulkRefreshJob
  pos : WorkerAt := .starting
  batch : BulkOutcomeBatch := {}
  processed : List String := []
  applied : List String := []
  dropped : List String := []
  deriving DecidableEq

namespace JobRun

/-- `cancelled` is whether the worker sees its context cancelled, `stored` and `now` whether a statement is carried
out, and when. A panic may come wherever `processJob` stands. -/
inductive Act
  | start (impersonates : Bool)
  | top (cancelled : Bool)
  | patch (applied : Bool) (err : Option PatchError)
  | record
  | flush (stored : Bool)
  | wait (cancelled : Bool)
  | complete (now : Option ℤ)
  | finish
  | panic
  | appendPanic (stored : Bool)
  deriving DecidableEq

def inFlight : WorkerAt → List String
  | .patched target _ _ => [target.uid]
  | _ => []

def inProcessJob : WorkerAt → Bool
  | .recovering | .recovered | .exited => false
  | _ => true

variable (msg : BulkJobMessage) (s : JobRun)

def flush (stored : Bool) (next : AfterFlush) : JobRun :=
  if s.batch.size = 0 then { s with pos := next.resume }
  else if stored then { s with row := s.row.appendOutcomes s.batch, batch := {}, pos := next.resume }
  else { s with dropped := s.dropped ++ s.batch.targets, batch := {}, pos := next.resume }

def completeRow : Option ℤ → ESOBulkRefreshJob
  | some now => s.row.complete now
  | none => s.row

instance (applied : Bool) (err : Option PatchError) : Decidable (PatchResult applied err) :=
  inferInstanceAs (Decidable (_ → _))

def step : Act → Option JobRun
  | .start impersonates =>
    if s.pos = .starting then
      if msg.scope.clusterID ≠ "" ∧ msg.scope.clusterID ≠ "local" then some { s with pos := .refusing }
      else if impersonates then some { s with pos := .top msg.targets }
      else some { s with pos := .refusing }
    else none
  | .top cancelled =>
    match s.pos with
    | .top [] => some { s with pos := .flushing .complete }
    | .top (target :: rest) =>
      if cancelled then some { s with pos := .flushing .exit } else some { s with pos := .patching target rest }
    | _ => none
  | .patch applied err =>
    match s.pos with
    | .patching target rest =>
      if PatchResult applied err then
        some { s with
          pos := .patched target err rest
          processed := s.processed ++ [target.uid]
          applied := if applied then s.applied ++ [target.uid] else s.applied }
      else none
    | _ => none
  | .record =>
    match s.pos with
    | .patched target err rest =>
      let batch := recordOutcome s.batch target.uid err
      some { s with
        batch
        pos := if outcomeBatchSize ≤ batch.size then .flushing (.interCall rest) else interCall rest }
    | _ => none
  | .flush stored =>
    match s.pos with
    | .flushing next => some (s.flush stored next)
    | _ => none
  | .wait cancelled =>
    match s.pos with
    | .waiting rest => some { s with pos := if cancelled then .flushing .exit else .top rest }
    | _ => none
  | .complete now =>
    match s.pos with
    | .completing => some { s with row := s.completeRow now, pos := .finishing }
    | .refusing | .recovered => some { s with row := s.completeRow now, pos := .exited }
    | _ => none
  | .finish => if s.pos = .finishing then some { s with pos := .exited } else none
  | .panic =>
    if inProcessJob s.pos then
      some { s with
        pos := .recovering
        batch := {}
        dropped := s.dropped ++ (s.batch.targets ++ inFlight s.pos) }
    else none
  | .appendPanic stored =>
    if s.pos = .recovering then
      some { s with
        row := if stored then s.row.appendOutcomes { failed := [BulkOutcomeBatch.workerPanic] } else s.row
        pos := .recovered }
    else none

def init (createdAt : ℤ) : JobRun := { row := msg.row createdAt }

/-- The uids in the row's three lists. -/
def recorded : List String := s.row.outcomes.targets

/-- What the row of a completed job says of the patches: it has an entry for each target whose patch was applied,
and none for a target that was not processed. -/
structure Conserved : Prop where
  once : s.row.active = false → msg.uids.Nodup → ∀ uid ∈ s.applied, s.recorded.count uid = 1
  counted : s.row.active = false → ∀ uid ∈ s.applied, s.recorded.count uid = s.processed.count uid
  processed : s.row.active = false → ∀ uid, s.recorded.count uid ≤ s.processed.count uid

/-- A `Complete` is carried out only while no outcome of an applied patch has been lost: none was in a batch that
could not be stored, or was still to be stored when the job panicked. -/
def NoneLost : Act → Prop
  | .complete (some _) => ∀ uid ∈ s.applied, uid ∉ s.dropped
  | _ => True

end JobRun

end KubeCenter.ExternalSecrets
