import KubeCenter.Diagnostics.Honesty
import KubeCenter.Resources.Health

/-! The classifiers of a failing pod: the pods signal of the dashboard, the rules, and the namespace summary. -/

namespace KubeCenter.Resources

open KubeCenter.Diagnostics (ContainerStatus Pod)

/-- The reasons that `isCrashloopOrImagePull` accepts. -/
def isCrashloopOrImagePull (reason : String) : Bool :=
  reason = "CrashLoopBackOff" ∨ reason = "ImagePullBackOff" ∨ reason = "ErrImagePull"

def hasCrashloopWaiting (statuses : List ContainerStatus) : Bool :=
  statuses.any fun cs ↦ cs.waiting.any isCrashloopOrImagePull

/-- Running or Pending, and not being deleted. -/
def eligiblePod (p : Pod) : Bool := p.deletionTimestamp.isNone && (p.phase = .running || p.phase = .pending)

/-- The pods signal, after one more pod. -/
def gatherPod (i : HealthInputs) (p : Pod) : HealthInputs :=
  if eligiblePod p then
    { i with
      eligiblePods := i.eligiblePods + 1
      crashloopPods := i.crashloopPods +
        if hasCrashloopWaiting p.containerStatuses || hasCrashloopWaiting p.initContainerStatuses then 1 else 0 }
  else i

/-- The pods signal of `gatherHealthInputs`. -/
def gatherPods (canList synced : Bool) (pods : List Pod) (i : HealthInputs) : HealthInputs :=
  if !canList then { i with podsAvailable := false, podsUnavailableReason := "insufficient permissions" }
  else if !synced then { i with podsAvailable := false, podsUnavailableReason := "cache syncing" }
  else pods.foldl gatherPod { i with podsAvailable := true }

end KubeCenter.Resources

namespace KubeCenter.Diagnostics

open KubeCenter.Resources

def failureWaiting (cs : ContainerStatus) : Option String :=
  match cs.waiting with
  | some reason =>
    if reason = "CrashLoopBackOff" ∨ reason = "ImagePullBackOff" ∨ reason = "ErrImagePull" then some reason else none
  | none => none

def podFailureReason (pod : Pod) : String :=
  if pod.phase = .pending then "Pending"
  else match pod.containerStatuses.findSome? failureWaiting with
    | some reason => reason
    | none => (pod.initContainerStatuses.findSome? failureWaiting).getD ""

structure NamespaceSummary where
  failing : List (String × String)
  total : ℕ

def namespaceSummary (pods : List Pod) : NamespaceSummary where
  failing := (pods.map fun pod ↦ (pod.name, podFailureReason pod)).filter fun entry ↦ entry.2 ≠ ""
  total := pods.length

/-- One of the two rules fails. -/
def RulesFail (range : MapRange) (target : DiagnosticTarget) : Prop :=
  (checkCrashLoop target).status = .fail ∨ (checkImagePull range target).status = .fail

/-- The summary gives one of the reasons, or would but for the phase. -/
def SummaryFails (pod : Pod) : Prop :=
  isCrashloopOrImagePull (podFailureReason pod) ∨
    pod.phase = .pending ∧ ∃ cs ∈ pod.statuses, cs.waiting.any isCrashloopOrImagePull

/-- The pods signal has the pod among those that crash. -/
def DashboardCounts (i : HealthInputs) (pod : Pod) : Prop := (gatherPod i pod).crashloopPods = i.crashloopPods + 1

/-- A container of the pod waits for one of the reasons. -/
def Pod.failing (pod : Pod) : Bool := pod.statuses.any fun cs ↦ cs.waiting.any isCrashloopOrImagePull

variable {pod : Pod}

theorem failing_iff : pod.failing = true ↔ pod.crashLoops = true ∨ pod.pullFails = true := by
  have hstatus : ∀ cs : ContainerStatus, cs.waiting.any isCrashloopOrImagePull = true ↔
      crashLooping cs = true ∨ (pullError pod.name cs).isSome = true := by
    intro cs
    unfold crashLooping pullError isCrashloopOrImagePull
    cases cs.waiting with
    | none => simp
    | some reason =>
      simp only [Option.any_some, decide_eq_true_eq, Option.some.injEq]
      split_ifs with hpull <;> grind
  unfold Pod.failing Pod.crashLoops Pod.pullFails
  simp only [List.any_eq_true, hstatus]
  grind

theorem rulesFail_iff (range : MapRange) (target : DiagnosticTarget) :
    RulesFail range { target with pods := [pod] } ↔ pod.failing = true := by
  unfold RulesFail
  rw [judgesPods_checkCrashLoop.fail_iff, (judgesPods_checkImagePull range).fail_iff, failing_iff]
  simp only [List.mem_singleton, exists_eq_left]

theorem failureWaiting_eq (cs : ContainerStatus) : failureWaiting cs = cs.waiting.filter isCrashloopOrImagePull := by
  unfold failureWaiting isCrashloopOrImagePull
  cases cs.waiting with
  | none => rfl
  | some reason => simp only [Option.filter_some, decide_eq_true_eq]

theorem isCrashloop_of_findSome {statuses : List ContainerStatus} {reason : String}
    (h : statuses.findSome? failureWaiting = some reason) : isCrashloopOrImagePull reason = true := by
  obtain ⟨cs, -, hcs⟩ := List.exists_of_findSome?_eq_some h
  rw [failureWaiting_eq] at hcs
  exact (Option.filter_eq_some_iff.mp hcs).2

theorem any_of_findSome (statuses : List ContainerStatus) :
    (statuses.any fun cs ↦ cs.waiting.any isCrashloopOrImagePull) = (statuses.findSome? failureWaiting).isSome := by
  rw [Bool.eq_iff_iff, List.any_eq_true, List.findSome?_isSome_iff]
  simp only [failureWaiting_eq, Option.isSome_filter]

theorem summaryFails_iff : SummaryFails pod ↔ pod.failing = true := by
  unfold SummaryFails Pod.failing podFailureReason
  split_ifs with hphase
  · have hpending : isCrashloopOrImagePull "Pending" = false := by decide
    simp only [hpending, Bool.false_eq_true, false_or, hphase, true_and, List.any_eq_true]
  · simp only [hphase, false_and, or_false]
    rw [Pod.statuses, List.any_append, any_of_findSome, any_of_findSome]
    cases hmain : pod.containerStatuses.findSome? failureWaiting with
    | some reason => simp [isCrashloop_of_findSome hmain]
    | none =>
      cases hinit : pod.initContainerStatuses.findSome? failureWaiting with
      | some reason => simp [isCrashloop_of_findSome hinit]
      | none =>
        have hempty : isCrashloopOrImagePull "" = false := by decide
        simp [hempty]

theorem gatherPod_crashloopPods (i : HealthInputs) (pod : Pod) :
    (gatherPod i pod).crashloopPods = i.crashloopPods + if eligiblePod pod && pod.failing then 1 else 0 := by
  have hfailing : (hasCrashloopWaiting pod.containerStatuses || hasCrashloopWaiting pod.initContainerStatuses) =
      pod.failing := by
    unfold Pod.failing Pod.statuses hasCrashloopWaiting
    rw [List.any_append]
  unfold gatherPod
  rw [hfailing]
  cases eligiblePod pod with
  | false => simp
  | true => simp

theorem dashboardCounts_iff (i : HealthInputs) : DashboardCounts i pod ↔ eligiblePod pod = true ∧ pod.failing = true := by
  unfold DashboardCounts
  rw [gatherPod_crashloopPods, ← Bool.and_eq_true]
  split_ifs with h
  · exact iff_of_true rfl h
  · exact iff_of_false (by omega) h

/-- The signal is the number of pods that the dashboard counts, one by one. -/
theorem crashloopPods_foldl (pods : List Pod) (i : HealthInputs) :
    (pods.foldl gatherPod i).crashloopPods =
      i.crashloopPods + pods.countP fun pod ↦ eligiblePod pod && pod.failing := by
  induction pods generalizing i with
  | nil => simp
  | cons pod pods ih =>
    rw [List.foldl_cons, ih, gatherPod_crashloopPods, List.countP_cons]
    split_ifs <;> omega

theorem crashloopPods_gatherPods (pods : List Pod) (i : HealthInputs) :
    (gatherPods true true pods i).crashloopPods =
      i.crashloopPods + pods.countP fun pod ↦ eligiblePod pod && pod.failing :=
  crashloopPods_foldl pods { i with podsAvailable := true }

/-- The rules and the summary agree on every pod; the dashboard agrees on those that are eligible, and counts no other. -/
theorem classifiers_agree (range : MapRange) (target : DiagnosticTarget) (i : HealthInputs) (pod : Pod) :
    (RulesFail range { target with pods := [pod] } ↔ SummaryFails pod) ∧
      (DashboardCounts i pod ↔ eligiblePod pod = true ∧ RulesFail range { target with pods := [pod] }) := by
  rw [rulesFail_iff, summaryFails_iff, dashboardCounts_iff]
  exact ⟨Iff.rfl, Iff.rfl⟩

/-- A crashing pod that is being deleted. -/
def terminating : Pod where
  name := "cart-x2"
  deletionTimestamp := some 0
  containerStatuses := [{ waiting := some "CrashLoopBackOff" }]

theorem not_classifiers_agree : ¬ ∀ (range : MapRange) (target : DiagnosticTarget) (i : HealthInputs) (pod : Pod),
    (DashboardCounts i pod ↔ RulesFail range { target with pods := [pod] }) ∧
      (DashboardCounts i pod ↔ SummaryFails pod) := by
  intro h
  let target : DiagnosticTarget := { kind := .pod, name := "cart-x2", ns := "shop", object := .pod terminating }
  have hdashboard := (h ⟨id, List.Perm.refl⟩ target
    { nodesAvailable := true, workloadsAvailable := true, podsAvailable := true, alertsAvailable := true
      certsAvailable := true, storageAvailable := true, controlPlaneAvailable := true, pdbAvailable := true
      controlPlane := ⟨.up, .up, .up⟩ } terminating).1
  rw [dashboardCounts_iff, rulesFail_iff] at hdashboard
  exact absurd (hdashboard.mpr (by decide)).1 (by decide)

end KubeCenter.Diagnostics
