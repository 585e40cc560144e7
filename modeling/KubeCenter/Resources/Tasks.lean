import KubeCenter.Core.GoMap

/-! Node drains as tasks: the manager of the tasks, the handler and the goroutine it starts. -/

namespace KubeCenter.Resources

open KubeCenter.Core

def completedTaskTTL : ℤ := 3600 * 1000000000

def defaultDrainTimeout : ℤ := 5 * 60 * 1000000000

def maxDrainTimeout : ℤ := 30 * 60 * 1000000000

inductive TaskStatus
  | pending
  | running
  | complete
  | failed
  deriving DecidableEq

def TaskStatus.isActive : TaskStatus → Bool
  | .pending | .running => true
  | .complete | .failed => false

structure Task where
  id : String
  kind : String
  name : String
  ns : String
  status : TaskStatus
  message : String := ""
  progress : ℕ := 0
  startedAt : ℤ
  endedAt : Option ℤ := none
  user : String

/-- What `UpdateStatus` writes. -/
structure Update where
  status : TaskStatus
  message : String
  progress : ℕ

def Task.updated (t : Task) (u : Update) (now : ℤ) : Task :=
  { t with
    status := u.status
    message := u.message
    progress := u.progress
    endedAt := if u.status.isActive then t.endedAt else some now }

abbrev Tasks := GoMap String Task

namespace Tasks

def hasActiveTask (tasks : Tasks) (kind name : String) : Bool :=
  tasks.entries.any (fun e ↦ e.2.kind = kind && e.2.name = name && e.2.status.isActive)

def create (tasks : Tasks) (id kind name ns user : String) (now : ℤ) : Tasks :=
  tasks.insert id { id, kind, name, ns, status := .pending, startedAt := now, user }

def updateStatus (tasks : Tasks) (id : String) (u : Update) (now : ℤ) : Tasks :=
  match tasks.lookup id with
  | none => tasks
  | some t => tasks.insert id (t.updated u now)

def reapCompleted (tasks : Tasks) (now : ℤ) : Tasks :=
  tasks.sift (fun _ t ↦ t.status.isActive || !t.endedAt.any (fun ended ↦ completedTaskTTL < now - ended))

variable {tasks : Tasks} {id id' kind name ns user : String} {t : Task} {u : Update} {now : ℤ}

theorem hasActiveTask_iff : tasks.hasActiveTask kind name = true ↔
    ∃ id t, tasks.lookup id = some t ∧ t.kind = kind ∧ t.name = name ∧ t.status.isActive = true := by
  simp only [hasActiveTask, List.any_eq_true, Bool.and_eq_true, decide_eq_true_eq]
  constructor
  · rintro ⟨⟨id, t⟩, he, ⟨hk, hn⟩, ha⟩
    exact ⟨id, t, GoMap.mem_entries_iff.mp he, hk, hn, ha⟩
  · rintro ⟨id, t, he, hk, hn, ha⟩
    exact ⟨⟨id, t⟩, GoMap.mem_entries_iff.mpr he, ⟨hk, hn⟩, ha⟩

theorem lookup_create : (tasks.create id kind name ns user now).lookup id' =
    if id' = id then some { id, kind, name, ns, status := .pending, startedAt := now, user }
    else tasks.lookup id' := by
  unfold create
  split
  · next h => rw [h, AList.lookup_insert]
  · next h => rw [AList.lookup_insert_ne h]

theorem lookup_updateStatus (h : tasks.lookup id = some t) : (tasks.updateStatus id u now).lookup id' =
    if id' = id then some (t.updated u now) else tasks.lookup id' := by
  rw [updateStatus, h]
  dsimp only
  split
  · next h => rw [h, AList.lookup_insert]
  · next h => rw [AList.lookup_insert_ne h]

theorem lookup_reapCompleted (h : (tasks.reapCompleted now).lookup id = some t) : tasks.lookup id = some t := by
  rw [reapCompleted, GoMap.lookup_sift] at h
  exact (Option.filter_eq_some_iff.mp h).1

theorem lookup_reapCompleted_active (h : tasks.lookup id = some t) (ha : t.status.isActive = true) :
    (tasks.reapCompleted now).lookup id = some t := by
  rw [reapCompleted, GoMap.lookup_sift, h, Option.filter_some, ha, Bool.true_or, if_pos rfl]

end Tasks

structure DrainRequest where
  ignoreDaemonSets : Bool
  deleteEmptyDirData : Bool
  timeout : ℤ

/-- The request a body stands for; one that does not decode counts as the defaults. -/
def drainRequest (body : Option DrainRequest) : DrainRequest :=
  let req := body.getD { ignoreDaemonSets := true, deleteEmptyDirData := true, timeout := 0 }
  let timeout := if req.timeout = 0 then defaultDrainTimeout else req.timeout
  { req with timeout := if maxDrainTimeout < timeout then maxDrainTimeout else timeout }

structure DrainPod where
  ns : String
  name : String
  annotations : GoMap String String := ∅
  ownerKinds : List String := []

def isDaemonSetPod (pod : DrainPod) : Bool := pod.ownerKinds.contains "DaemonSet"

def filterPodsForDrain (pods : List DrainPod) (ignoreDaemonSets : Bool) : List DrainPod :=
  pods.filter (fun pod ↦ !(pod.annotations.lookup "kubernetes.io/config.mirror").isSome &&
    !(ignoreDaemonSets && isDaemonSetPod pod))

/-- A Kubernetes call of `executeDrain`; an eviction knows which of how many it is and what comes after. -/
inductive DrainCall
  | client
  | cordon
  | list
  | evict (total i : ℕ) (pod : DrainPod) (rest : List DrainPod)

namespace DrainCall

/-- The client is made without the context, everything else is called with it. -/
def usesContext : DrainCall → Bool
  | .client => false
  | _ => true

def evictProgress (total i : ℕ) : ℕ := 30 + 70 * (i + 1) / max total 1

/-- The status written when the call fails. -/
def failure : DrainCall → Update
  | .client => ⟨.failed, "failed to create client", 0⟩
  | .cordon => ⟨.failed, "failed to cordon node", 10⟩
  | .list => ⟨.failed, "failed to list pods", 20⟩
  | .evict total i pod _ => ⟨.failed, "failed to evict pod " ++ pod.ns ++ "/" ++ pod.name, evictProgress total i⟩

/-- The next turn of the loop over the pods, or its end: the call to come, and the status written first. -/
def evictNext (total i : ℕ) : List DrainPod → Option DrainCall × Update
  | [] => (none, ⟨.complete, "drain complete — " ++ toString total ++ " pods evicted", 100⟩)
  | pod :: rest => (some (.evict total i pod rest),
      ⟨.running, "evicting pod " ++ pod.ns ++ "/" ++ pod.name ++ " (" ++ toString (i + 1) ++ "/" ++ toString total ++ ")",
        evictProgress total i⟩)

/-- What comes after a call that succeeds; `pods` is what a list call returns. -/
def success (req : DrainRequest) (pods : List DrainPod) : DrainCall → Option DrainCall × Update
  | .client => (some .cordon, ⟨.running, "cordoning node", 10⟩)
  | .cordon => (some .list, ⟨.running, "listing pods on node", 20⟩)
  | .list =>
    let podsToEvict := filterPodsForDrain pods req.ignoreDaemonSets
    evictNext podsToEvict.length 0 podsToEvict
  | .evict total i _ rest => evictNext total (i + 1) rest

theorem failure_status (call : DrainCall) : call.failure.status.isActive = false := by
  cases call <;> rfl

theorem evictNext_status (total i : ℕ) (pods : List DrainPod) :
    (evictNext total i pods).2.status.isActive = (evictNext total i pods).1.isSome := by
  cases pods <;> rfl

/-- The status stays active as long as there is a call to come. -/
theorem success_status (req : DrainRequest) (pods : List DrainPod) (call : DrainCall) :
    (call.success req pods).2.status.isActive = (call.success req pods).1.isSome := by
  cases call with
  | client => rfl
  | cordon => rfl
  | list => exact evictNext_status _ _ _
  | evict total i pod rest => exact evictNext_status _ _ _

end DrainCall

end KubeCenter.Resources
