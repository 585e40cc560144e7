import Mathlib.Data.Int.Notation
import Mathlib.Data.List.Sort

/-! The rows of `eso_bulk_refresh_jobs` and the statements that write them. -/

namespace KubeCenter.Store

inductive BulkRefreshAction
  | refreshStore
  | refreshClusterStore
  | refreshNamespace
  deriving DecidableEq

structure BulkRefreshOutcome where
  uid : String
  reason : String
  deriving DecidableEq

structure BulkOutcomeBatch where
  succeeded : List String := []
  failed : List BulkRefreshOutcome := []
  skipped : List BulkRefreshOutcome := []
  deriving DecidableEq

/-- The columns of the partial unique index. -/
structure BulkScope where
  clusterID : String
  action : BulkRefreshAction
  scopeTarget : String
  deriving DecidableEq

structure ESOBulkRefreshJob where
  id : ℕ
  scope : BulkScope
  requestedBy : String
  targetUIDs : List String
  createdAt : ℤ
  completedAt : Option ℤ := none
  outcomes : BulkOutcomeBatch := {}
  deriving DecidableEq

namespace BulkOutcomeBatch

variable (a b : BulkOutcomeBatch)

def size : ℕ := a.succeeded.length + a.failed.length + a.skipped.length

def append : BulkOutcomeBatch := ⟨a.succeeded ++ b.succeeded, a.failed ++ b.failed, a.skipped ++ b.skipped⟩

/-- What the worker's recovery records; it is about no target. -/
def workerPanic : BulkRefreshOutcome := ⟨"", "worker_panic"⟩

/-- The uids of the targets with an outcome, with repetitions. -/
def targets : List String :=
  a.succeeded ++ (a.failed.filter (· ≠ workerPanic)).map BulkRefreshOutcome.uid ++
    a.skipped.map BulkRefreshOutcome.uid

theorem count_targets_append (uid : String) :
    (a.append b).targets.count uid = a.targets.count uid + b.targets.count uid := by
  simp only [targets, append, List.filter_append, List.map_append, List.count_append]
  omega

theorem eq_empty (h : a.size = 0) : a = {} := by
  obtain ⟨succeeded, failed, skipped⟩ := a
  simp only [size, Nat.add_eq_zero_iff, List.length_eq_zero_iff] at h
  simp [h]

end BulkOutcomeBatch

namespace ESOBulkRefreshJob

variable (j : ESOBulkRefreshJob)

def active : Bool := j.completedAt.isNone

def appendOutcomes (batch : BulkOutcomeBatch) : ESOBulkRefreshJob :=
  { j with outcomes := j.outcomes.append batch }

def complete (now : ℤ) : ESOBulkRefreshJob := { j with completedAt := j.completedAt.or (some now) }

theorem complete_active (now : ℤ) : (j.complete now).active = false := by
  cases h : j.completedAt <;> simp [complete, active, h]

end ESOBulkRefreshJob

namespace ESOBulkJobStore

/-- `Insert`; `none` is `ErrBulkJobActiveExists`, from the unique index on the rows that are not completed. -/
def insert (rows : List ESOBulkRefreshJob) (job : ESOBulkRefreshJob) : Option (List ESOBulkRefreshJob) :=
  if ∃ j ∈ rows, j.active = true ∧ j.scope = job.scope then none else some (rows ++ [job])

/-- The newest job of the scope that is not completed. -/
def findActive (rows : List ESOBulkRefreshJob) (scope : BulkScope) : Option ESOBulkRefreshJob :=
  ((rows.filter (fun j ↦ j.active && j.scope = scope)).insertionSort (fun i j ↦ j.createdAt ≤ i.createdAt)).head?

def complete (rows : List ESOBulkRefreshJob) (id : ℕ) (now : ℤ) : List ESOBulkRefreshJob :=
  rows.map (fun j ↦ if j.id = id then j.complete now else j)

def appendOutcomes (rows : List ESOBulkRefreshJob) (id : ℕ) (batch : BulkOutcomeBatch) : List ESOBulkRefreshJob :=
  rows.map (fun j ↦ if j.id = id then j.appendOutcomes batch else j)

def completeOrphans (rows : List ESOBulkRefreshJob) (now : ℤ) : List ESOBulkRefreshJob :=
  rows.map (·.complete now)

def day : ℤ := 86400 * 1000000000

/-- The rows `Cleanup` leaves. -/
def cleanup (rows : List ESOBulkRefreshJob) (now : ℤ) (retentionDays : ℕ) : List ESOBulkRefreshJob :=
  if retentionDays < 1 then rows
  else rows.filter (fun j ↦ j.completedAt.all (fun t ↦ decide (now - retentionDays * day ≤ t)))

/-- At most one job of a scope is not completed. -/
def OneActive (rows : List ESOBulkRefreshJob) : Prop :=
  rows.Pairwise (fun i j ↦ i.active = true → j.active = true → i.scope ≠ j.scope)

variable {rows : List ESOBulkRefreshJob}

theorem findActive_eq_none {scope : BulkScope} :
    findActive rows scope = none ↔ ∀ j ∈ rows, j.active = true → j.scope ≠ scope := by
  rw [findActive, List.head?_eq_none_iff, ← List.length_eq_zero_iff, List.length_insertionSort, List.length_eq_zero_iff,
    List.filter_eq_nil_iff]
  simp

theorem insert_eq_some {job : ESOBulkRefreshJob} (h : ∀ j ∈ rows, j.active = true → j.scope ≠ job.scope) :
    insert rows job = some (rows ++ [job]) := by
  refine if_neg ?_
  rintro ⟨j, hj, hactive, hscope⟩
  exact h j hj hactive hscope

theorem mem_insert {job j : ESOBulkRefreshJob} {rows' : List ESOBulkRefreshJob} (hi : insert rows job = some rows')
    (hj : j ∈ rows') : j ∈ rows ∨ j = job := by
  unfold insert at hi
  split at hi
  · cases hi
  · cases hi
    simpa using hj

theorem oneActive_insert {job : ESOBulkRefreshJob} {rows' : List ESOBulkRefreshJob} (h : OneActive rows)
    (hi : insert rows job = some rows') : OneActive rows' := by
  unfold insert at hi
  split at hi
  · cases hi
  · rename_i hfree
    cases hi
    apply List.pairwise_append.mpr
    refine ⟨h, List.pairwise_singleton _ _, fun i hi j hj ha _ hs ↦ hfree ?_⟩
    obtain rfl := List.mem_singleton.mp hj
    exact ⟨i, hi, ha, hs⟩

/-- A statement that reopens no row and moves none to another scope keeps the law. -/
theorem OneActive.map (h : OneActive rows) {f : ESOBulkRefreshJob → ESOBulkRefreshJob}
    (hs : ∀ j, (f j).scope = j.scope) (ha : ∀ j, (f j).active = true → j.active = true) :
    OneActive (rows.map f) := by
  apply List.pairwise_map.mpr
  apply List.Pairwise.imp _ h
  intro i j hij hi hj
  rw [hs, hs]
  exact hij (ha i hi) (ha j hj)

theorem oneActive_complete (h : OneActive rows) (id : ℕ) (now : ℤ) : OneActive (complete rows id now) := by
  apply h.map
  · intro j
    split <;> rfl
  · intro j hj
    split at hj
    · rw [j.complete_active] at hj
      cases hj
    · exact hj

theorem oneActive_appendOutcomes (h : OneActive rows) (id : ℕ) (batch : BulkOutcomeBatch) :
    OneActive (appendOutcomes rows id batch) := by
  apply h.map
  · intro j
    split <;> rfl
  · intro j hj
    split at hj <;> exact hj

theorem oneActive_completeOrphans (h : OneActive rows) (now : ℤ) : OneActive (completeOrphans rows now) := by
  apply h.map
  · intro j
    rfl
  · intro j hj
    rw [j.complete_active] at hj
    cases hj

theorem oneActive_cleanup (h : OneActive rows) (now : ℤ) (retentionDays : ℕ) :
    OneActive (cleanup rows now retentionDays) := by
  unfold cleanup
  split
  · exact h
  · exact h.filter _

end ESOBulkJobStore

end KubeCenter.Store
