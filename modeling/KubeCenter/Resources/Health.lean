import Mathlib.Tactic.FieldSimp
import Mathlib.Tactic.NormNum
import KubeCenter.Core.WeightedMean

/-! The health of a cluster, from counts. Arithmetic is that of the rational numbers. -/

namespace KubeCenter.Resources

open KubeCenter.Core

inductive HealthStatus
  | healthy
  | degraded
  | critical
  | unknown
  deriving DecidableEq

inductive SignalStatus
  | ok
  | skipped
  | unknown

structure HealthSignal where
  name : String
  status : SignalStatus
  score : Option ℤ := none
  reason : String := ""

structure ClusterHealth where
  status : HealthStatus
  score : Option ℤ
  signals : List HealthSignal
  reasons : List String

inductive ComponentState
  | unscraped
  | up
  | down
  deriving DecidableEq

structure ControlPlaneStates where
  scheduler : ComponentState
  controllerManager : ComponentState
  etcd : ComponentState

structure HealthInputs where
  nodesAvailable : Bool
  nodesUnavailableReason : String := ""
  totalNodes : ℤ := 0
  readyNodes : ℤ := 0
  pressureNodes : ℤ := 0
  workloadsAvailable : Bool
  workloadsUnavailableReason : String := ""
  workloadsDesired : ℤ := 0
  workloadsActuallyAvailable : ℤ := 0
  progressingCount : ℤ := 0
  podsAvailable : Bool
  podsUnavailableReason : String := ""
  crashloopPods : ℤ := 0
  eligiblePods : ℤ := 0
  alertsAvailable : Bool
  alertsSkipped : Bool := false
  alertsUnavailableReason : String := ""
  alertsActive : ℤ := 0
  alertsCritical : ℤ := 0
  certsAvailable : Bool
  certsUnavailableReason : String := ""
  certCritical : ℤ := 0
  storageAvailable : Bool
  storageUnavailableReason : String := ""
  pendingPVCs : ℤ := 0
  controlPlaneAvailable : Bool
  controlPlaneUnavailableReason : String := ""
  controlPlane : ControlPlaneStates
  pdbAvailable : Bool
  pdbViolations : ℤ := 0

def reasonOr (reason fallback : String) : String := if reason = "" then fallback else reason

def flatDeductionSignal (name : String) (available : Bool) (reason defaultReason : String) : HealthSignal :=
  if available then { name, status := .ok } else { name, status := .skipped, reason := reasonOr reason defaultReason }

def safeRatio (numerator denominator : ℤ) : ℚ := if denominator = 0 then 0 else numerator / denominator

namespace HealthInputs

variable (i : HealthInputs)

/-! The signals and their scores. -/

def nodesScore : ℚ := max 0 (safeRatio i.readyNodes i.totalNodes * 100 - min ((i.pressureNodes : ℚ) * 2) 20)

def nodesSignal : HealthSignal :=
  if i.nodesAvailable then { name := "nodes", status := .ok, score := some (mathRound i.nodesScore) }
  else { name := "nodes", status := .unknown, reason := reasonOr i.nodesUnavailableReason "nodes unavailable" }

def workloadsScore : ℚ :=
  if i.workloadsDesired = 0 then 100
  else min (safeRatio i.workloadsActuallyAvailable i.workloadsDesired) 1 * 100

def workloadsSignal : HealthSignal :=
  if !i.workloadsAvailable then
    { name := "workloads", status := .unknown, reason := reasonOr i.workloadsUnavailableReason "workloads unavailable" }
  else if i.workloadsDesired = 0 then { name := "workloads", status := .skipped, reason := "no workloads to evaluate" }
  else { name := "workloads", status := .ok, score := some (mathRound i.workloadsScore) }

def podsScore : ℚ :=
  if i.eligiblePods = 0 then 100
  else max 0 (100 - min 100 (safeRatio i.crashloopPods i.eligiblePods * 100 * 5))

def podsSignal : HealthSignal :=
  if !i.podsAvailable then
    { name := "pods", status := .unknown, reason := reasonOr i.podsUnavailableReason "pods unavailable" }
  else if i.eligiblePods = 0 then { name := "pods", status := .skipped, reason := "no eligible pods" }
  else { name := "pods", status := .ok, score := some (mathRound i.podsScore) }

def alertsScore : ℚ := max 0 (100 - i.alertsCritical * 10 - (max (i.alertsActive - i.alertsCritical) 0 : ℤ) * 3)

def alertsSignal : HealthSignal :=
  if i.alertsAvailable then { name := "alerts", status := .ok, score := some (mathRound i.alertsScore) }
  else { name := "alerts", status := if i.alertsSkipped then .skipped else .unknown
         reason := reasonOr i.alertsUnavailableReason "alerts unavailable" }

def signals : List HealthSignal :=
  [i.nodesSignal, i.workloadsSignal, i.podsSignal, i.alertsSignal,
    flatDeductionSignal "certificates" i.certsAvailable i.certsUnavailableReason "certificate data unavailable",
    flatDeductionSignal "storage" i.storageAvailable i.storageUnavailableReason "storage data unavailable",
    flatDeductionSignal "controlPlane" i.controlPlaneAvailable i.controlPlaneUnavailableReason
      "control plane data unavailable"]

/-! The veto table: each condition with the reason it gives. -/

def nodesNotReady : String :=
  String.join [toString (i.totalNodes - i.readyNodes), " of ", toString i.totalNodes, " nodes not ready"]

def replicasUnavailable : String :=
  String.join [toString (i.workloadsDesired - i.workloadsActuallyAvailable), " of ", toString i.workloadsDesired,
    " workload replicas unavailable"]

/-- Workloads are evaluated, and less than a part of the desired replicas is available. -/
def workloadsBelow (part : ℚ) : Bool :=
  i.workloadsAvailable && 0 < i.workloadsDesired &&
    safeRatio i.workloadsActuallyAvailable i.workloadsDesired < part - 1 / 10 ^ 9

def criticalVetoes : List (Bool × String) :=
  [(0 < i.totalNodes && safeRatio i.readyNodes i.totalNodes < 2 / 3 - 1 / 10 ^ 9, i.nodesNotReady),
    (i.workloadsBelow (1 / 2), i.replicasUnavailable)]

def degradedVetoes : List (Bool × String) :=
  [(0 < i.totalNodes && i.readyNodes < i.totalNodes, i.nodesNotReady),
    (0 < i.pressureNodes, toString i.pressureNodes ++ " node(s) with pressure conditions"),
    (i.workloadsBelow (95 / 100), i.replicasUnavailable),
    (i.podsAvailable && 0 < i.crashloopPods,
      toString i.crashloopPods ++ " pod(s) in crash loop or image pull failure"),
    (i.pdbAvailable && 0 < i.pdbViolations, toString i.pdbViolations ++ " PDB(s) with insufficient healthy pods"),
    (i.storageAvailable && 0 < i.pendingPVCs, toString i.pendingPVCs ++ " PVC(s) pending"),
    (i.certsAvailable && 0 < i.certCritical, toString i.certCritical ++ " certificate(s) expiring soon (critical)"),
    (i.controlPlaneAvailable && i.controlPlane.scheduler = .down, "kube-scheduler scraped and down"),
    (i.controlPlaneAvailable && i.controlPlane.controllerManager = .down, "kube-controller-manager scraped and down"),
    (i.controlPlaneAvailable && i.controlPlane.etcd = .down, "etcd scraped and down"),
    (i.alertsAvailable && 0 < i.alertsCritical, toString i.alertsCritical ++ " critical alert(s) firing")]

def vetoReasons (vetoes : List (Bool × String)) : List String := (vetoes.filter Prod.fst).map Prod.snd

def isCritical : Bool := i.criticalVetoes.any Prod.fst

def isDegraded : Bool := i.degradedVetoes.any Prod.fst

def status : HealthStatus := if i.isCritical then .critical else if i.isDegraded then .degraded else .healthy

/-- A healthy cluster has no reasons of the veto table. -/
def reasons : List String :=
  vetoReasons i.criticalVetoes ++ vetoReasons i.degradedVetoes ++
    if 0 < i.progressingCount then [toString i.progressingCount ++ " workload(s) rolling out"] else []

/-! The score. -/

def subScores : List ScoreWeight :=
  [⟨35 / 100, i.nodesAvailable, i.nodesScore⟩,
    ⟨35 / 100, i.workloadsAvailable && 0 < i.workloadsDesired, i.workloadsScore⟩,
    ⟨20 / 100, i.podsAvailable && 0 < i.eligiblePods, i.podsScore⟩,
    ⟨10 / 100, i.alertsAvailable, i.alertsScore⟩]

def flatDeductions : List (Bool × ℚ) :=
  [(i.certsAvailable && 0 < i.certCritical, 10),
    (i.storageAvailable && 0 < i.pendingPVCs, 3),
    (i.controlPlaneAvailable && i.controlPlane.scheduler = .down, 10),
    (i.controlPlaneAvailable && i.controlPlane.controllerManager = .down, 10),
    (i.controlPlaneAvailable && i.controlPlane.etcd = .down, 10)]

def compositeScore : ℚ := max 0 (min 100 (i.flatDeductions.foldl deduct (ScoreWeight.mean i.subScores)))

end HealthInputs

def computeClusterHealth (i : HealthInputs) : ClusterHealth :=
  if !i.nodesAvailable then
    { status := .unknown, score := none, signals := i.signals
      reasons := [reasonOr i.nodesUnavailableReason i.nodesSignal.reason] }
  else if 0 < ScoreWeight.totalWeight i.subScores then
    { status := i.status, score := some (mathRound i.compositeScore), signals := i.signals
      reasons := i.reasons.eraseDups }
  else { status := .unknown, score := none, signals := i.signals, reasons := i.reasons.eraseDups }

end KubeCenter.Resources

/-! What the health of a cluster says, and that it does not get better when a count gets worse. -/

namespace KubeCenter.Resources

open KubeCenter.Core

namespace HealthInputs

def counts (i : HealthInputs) : List ℤ :=
  [i.totalNodes, i.readyNodes, i.pressureNodes, i.workloadsDesired, i.workloadsActuallyAvailable, i.progressingCount,
    i.crashloopPods, i.eligiblePods, i.alertsActive, i.alertsCritical, i.certCritical, i.pendingPVCs, i.pdbViolations]

/-- What degrades a cluster. -/
inductive DegradedTrigger (i : HealthInputs) : Prop
  | notReady : i.readyNodes < i.totalNodes → DegradedTrigger i
  | pressure : 0 < i.pressureNodes → DegradedTrigger i
  | workloads : i.workloadsBelow (95 / 100) → DegradedTrigger i
  | crashloop : i.podsAvailable → 0 < i.crashloopPods → DegradedTrigger i
  | pdb : i.pdbAvailable → 0 < i.pdbViolations → DegradedTrigger i
  | storage : i.storageAvailable → 0 < i.pendingPVCs → DegradedTrigger i
  | certs : i.certsAvailable → 0 < i.certCritical → DegradedTrigger i
  | scheduler : i.controlPlaneAvailable → i.controlPlane.scheduler = .down → DegradedTrigger i
  | controllerManager : i.controlPlaneAvailable → i.controlPlane.controllerManager = .down → DegradedTrigger i
  | etcd : i.controlPlaneAvailable → i.controlPlane.etcd = .down → DegradedTrigger i
  | alerts : i.alertsAvailable → 0 < i.alertsCritical → DegradedTrigger i

/-- The same signals are available, and no count is better. -/
structure Worsens (i j : HealthInputs) : Prop where
  nodesAvailable : j.nodesAvailable = i.nodesAvailable
  workloadsAvailable : j.workloadsAvailable = i.workloadsAvailable
  podsAvailable : j.podsAvailable = i.podsAvailable
  alertsAvailable : j.alertsAvailable = i.alertsAvailable
  certsAvailable : j.certsAvailable = i.certsAvailable
  storageAvailable : j.storageAvailable = i.storageAvailable
  controlPlaneAvailable : j.controlPlaneAvailable = i.controlPlaneAvailable
  pdbAvailable : j.pdbAvailable = i.pdbAvailable
  totalNodes : j.totalNodes = i.totalNodes
  workloadsDesired : j.workloadsDesired = i.workloadsDesired
  eligiblePods : j.eligiblePods = i.eligiblePods
  readyNodes : j.readyNodes ≤ i.readyNodes
  workloadsActuallyAvailable : j.workloadsActuallyAvailable ≤ i.workloadsActuallyAvailable
  pressureNodes : i.pressureNodes ≤ j.pressureNodes
  crashloopPods : i.crashloopPods ≤ j.crashloopPods
  alertsActive : i.alertsActive ≤ j.alertsActive
  alertsCritical : i.alertsCritical ≤ j.alertsCritical
  certCritical : i.certCritical ≤ j.certCritical
  pendingPVCs : i.pendingPVCs ≤ j.pendingPVCs
  pdbViolations : i.pdbViolations ≤ j.pdbViolations
  scheduler : i.controlPlane.scheduler = .down → j.controlPlane.scheduler = .down
  controllerManager : i.controlPlane.controllerManager = .down → j.controlPlane.controllerManager = .down
  etcd : i.controlPlane.etcd = .down → j.controlPlane.etcd = .down

end HealthInputs

/-- Inputs whose counts are counts, and parts of their totals. -/
structure CountedInputs extends HealthInputs where
  bounded : ∀ n ∈ toHealthInputs.counts, 0 ≤ n ∧ n < 10 ^ 8
  ready_le : readyNodes ≤ totalNodes
  available_le : workloadsActuallyAvailable ≤ workloadsDesired
  crashloop_le : crashloopPods ≤ eligiblePods
  critical_le : alertsCritical ≤ alertsActive

/-- How bad a status is. -/
def HealthStatus.severity : HealthStatus → ℕ
  | .healthy => 0
  | .degraded => 1
  | .critical => 2
  | .unknown => 3

structure HealthLaw (i : HealthInputs) : Prop where
  absent_iff : (computeClusterHealth i).score = none ↔ (computeClusterHealth i).status = .unknown
  unknown_iff : (computeClusterHealth i).status = .unknown ↔ i.nodesAvailable = false
  range : ∀ score ∈ (computeClusterHealth i).score, 0 ≤ score ∧ score ≤ 100
  critical_iff : i.nodesAvailable → ((computeClusterHealth i).status = .critical ↔
    3 * i.readyNodes < 2 * i.totalNodes ∨
      i.workloadsAvailable ∧ 2 * i.workloadsActuallyAvailable < i.workloadsDesired)
  healthy_iff : i.nodesAvailable → ((computeClusterHealth i).status = .healthy ↔ ¬i.DegradedTrigger)

/-- A fraction is below another by more than the tolerance as soon as it is below it at all. -/
theorem lt_sub_tolerance_iff {a d p q : ℤ} (hd : 0 < d) (hq : 0 < q) (hqd : q * d < 10 ^ 9) :
    (a / d : ℚ) < p / q - 1 / 10 ^ 9 ↔ q * a < p * d := by
  have hd' : (0 : ℚ) < d := Int.cast_pos.mpr hd
  have hq' : (0 : ℚ) < q := Int.cast_pos.mpr hq
  have hcross : (a / d : ℚ) < p / q - 1 / 10 ^ 9 ↔ a * (q * 10 ^ 9) < (p * 10 ^ 9 - q * 1) * (d : ℚ) := by
    rw [div_sub_div _ _ hq'.ne' (by norm_num), div_lt_div_iff₀ hd' (by positivity)]
  rw [hcross]
  have hint : (a * (q * 10 ^ 9) < (p * 10 ^ 9 - q * 1) * (d : ℚ)) ↔ a * (q * 10 ^ 9) < (p * 10 ^ 9 - q * 1) * d := by
    exact_mod_cast Iff.rfl
  have hqd' : 0 < q * d := mul_pos hq hd
  have hleft : a * (q * 10 ^ 9) = 10 ^ 9 * (q * a) := by ring
  have hright : (p * 10 ^ 9 - q * 1) * d = 10 ^ 9 * (p * d) - q * d := by ring
  rw [hint, hleft, hright]
  generalize q * a = x at *
  generalize p * d = y at *
  generalize q * d = z at *
  omega

theorem safeRatio_of_pos {a d : ℤ} (hd : 0 < d) : safeRatio a d = a / d := if_neg hd.ne'

theorem safeRatio_le {a b d : ℤ} (hd : 0 ≤ d) (h : a ≤ b) : safeRatio a d ≤ safeRatio b d := by
  unfold safeRatio
  split
  · exact le_refl _
  · exact div_le_div_of_nonneg_right (Int.cast_le.mpr h) (by exact_mod_cast hd)

namespace HealthInputs

variable {i j : HealthInputs}

theorem workloadsBelow_iff {p q : ℤ} (hq : 0 < q) (hqd : q * i.workloadsDesired < 10 ^ 9)
    (hnonneg : 0 ≤ i.workloadsDesired) (havailable : 0 ≤ i.workloadsActuallyAvailable) :
    i.workloadsBelow (p / q) ↔
      i.workloadsAvailable ∧ q * i.workloadsActuallyAvailable < p * i.workloadsDesired := by
  unfold workloadsBelow
  rw [Bool.and_eq_true, Bool.and_eq_true, decide_eq_true_iff, decide_eq_true_iff, and_assoc]
  refine and_congr_right fun _ ↦ ?_
  rcases hnonneg.eq_or_lt with hzero | hpos
  · rw [← hzero, mul_zero]
    have hprod := mul_nonneg hq.le havailable
    exact iff_of_false (fun h ↦ lt_irrefl _ h.1) (not_lt.mpr hprod)
  · rw [safeRatio_of_pos hpos, lt_sub_tolerance_iff hpos hq hqd]
    exact and_iff_right hpos

theorem isDegraded_iff (hready : i.readyNodes < i.totalNodes → 0 < i.totalNodes) :
    i.isDegraded ↔ i.DegradedTrigger := by
  unfold isDegraded degradedVetoes
  simp only [List.any_cons, List.any_nil, Bool.or_eq_true, Bool.and_eq_true, decide_eq_true_iff, Bool.or_false]
  constructor
  · rintro (⟨-, h⟩ | h | h | h | h | h | h | h | h | h | h)
    · exact .notReady h
    · exact .pressure h
    · exact .workloads h
    · exact .crashloop h.1 h.2
    · exact .pdb h.1 h.2
    · exact .storage h.1 h.2
    · exact .certs h.1 h.2
    · exact .scheduler h.1 h.2
    · exact .controllerManager h.1 h.2
    · exact .etcd h.1 h.2
    · exact .alerts h.1 h.2
  · intro h
    cases h with
    | notReady h => exact .inl ⟨hready h, h⟩
    | pressure h => exact .inr (.inl h)
    | workloads h => exact .inr (.inr (.inl h))
    | _ => grind

theorem subScores_weight : ∀ w ∈ i.subScores, 0 ≤ w.weight := by
  unfold subScores
  simp only [List.forall_mem_cons, List.not_mem_nil, false_implies, implies_true, and_true]
  norm_num

theorem totalWeight_pos (h : i.nodesAvailable) : 0 < ScoreWeight.totalWeight i.subScores :=
  ScoreWeight.totalWeight_pos subScores_weight List.mem_cons_self h (by norm_num)

theorem compositeScore_range : 0 ≤ i.compositeScore ∧ i.compositeScore ≤ 100 :=
  ⟨le_max_left _ _, max_le (by norm_num) (min_le_left _ _)⟩

theorem computeClusterHealth_of_nodes (h : i.nodesAvailable) :
    (computeClusterHealth i).status = i.status ∧ (computeClusterHealth i).score = some (mathRound i.compositeScore) := by
  unfold computeClusterHealth
  rw [h, if_neg (by decide), if_pos (totalWeight_pos h)]
  exact ⟨rfl, rfl⟩

theorem computeClusterHealth_of_no_nodes (h : i.nodesAvailable = false) :
    (computeClusterHealth i).status = .unknown ∧ (computeClusterHealth i).score = none := by
  unfold computeClusterHealth
  rw [h, if_pos (by decide)]
  exact ⟨rfl, rfl⟩

theorem status_ne_unknown : i.status ≠ .unknown := by
  unfold status
  split_ifs <;> exact nofun

/-! Worse counts. -/

namespace Worsens

variable (h : i.Worsens j)
include h

theorem nodesScore_le (hnonneg : 0 ≤ i.totalNodes) : j.nodesScore ≤ i.nodesScore := by
  unfold nodesScore
  have hratio := safeRatio_le hnonneg h.readyNodes
  have hpressure : (i.pressureNodes : ℚ) ≤ j.pressureNodes := Int.cast_le.mpr h.pressureNodes
  have hmin : min ((i.pressureNodes : ℚ) * 2) 20 ≤ min ((j.pressureNodes : ℚ) * 2) 20 :=
    min_le_min_right _ (mul_le_mul_of_nonneg_right hpressure (by norm_num))
  rw [h.totalNodes]
  exact max_le_max_left _ (by linarith)

theorem workloadsScore_le (hnonneg : 0 ≤ i.workloadsDesired) : j.workloadsScore ≤ i.workloadsScore := by
  unfold workloadsScore
  have hratio := safeRatio_le hnonneg h.workloadsActuallyAvailable
  rw [h.workloadsDesired]
  split_ifs
  · exact le_refl _
  · exact mul_le_mul_of_nonneg_right (min_le_min_right _ hratio) (by norm_num)

theorem podsScore_le (hnonneg : 0 ≤ i.eligiblePods) : j.podsScore ≤ i.podsScore := by
  unfold podsScore
  have hratio := safeRatio_le hnonneg h.crashloopPods
  rw [h.eligiblePods]
  split_ifs
  · exact le_refl _
  · have hmin : min 100 (safeRatio i.crashloopPods i.eligiblePods * 100 * 5) ≤
        min 100 (safeRatio j.crashloopPods i.eligiblePods * 100 * 5) := min_le_min_left _ (by linarith)
    exact max_le_max_left _ (by linarith)

/-- An alert that turns critical is one less of the others. -/
theorem alertsScore_le (hi : i.alertsCritical ≤ i.alertsActive) (hj : j.alertsCritical ≤ j.alertsActive) :
    j.alertsScore ≤ i.alertsScore := by
  unfold alertsScore
  have hactive : (i.alertsActive : ℚ) ≤ j.alertsActive := Int.cast_le.mpr h.alertsActive
  have hcritical : (i.alertsCritical : ℚ) ≤ j.alertsCritical := Int.cast_le.mpr h.alertsCritical
  rw [max_eq_left (sub_nonneg.mpr hi), max_eq_left (sub_nonneg.mpr hj), Int.cast_sub, Int.cast_sub]
  exact max_le_max_left _ (by linarith)

theorem workloadsBelow (part : ℚ) (hnonneg : 0 ≤ i.workloadsDesired) (hi : i.workloadsBelow part) :
    j.workloadsBelow part := by
  unfold HealthInputs.workloadsBelow at hi ⊢
  simp only [Bool.and_eq_true, decide_eq_true_iff] at hi ⊢
  rw [h.workloadsAvailable, h.workloadsDesired]
  exact ⟨hi.1, (safeRatio_le hnonneg h.workloadsActuallyAvailable).trans_lt hi.2⟩

theorem subScores (hnodes : 0 ≤ i.totalNodes) (hworkloads : 0 ≤ i.workloadsDesired) (hpods : 0 ≤ i.eligiblePods)
    (hi : i.alertsCritical ≤ i.alertsActive) (hj : j.alertsCritical ≤ j.alertsActive) :
    List.Forall₂ ScoreWeight.Lowers i.subScores j.subScores := by
  refine .cons ⟨rfl, h.nodesAvailable, fun _ ↦ h.nodesScore_le hnodes⟩
    (.cons ⟨rfl, ?_, fun _ ↦ h.workloadsScore_le hworkloads⟩
      (.cons ⟨rfl, ?_, fun _ ↦ h.podsScore_le hpods⟩
        (.cons ⟨rfl, h.alertsAvailable, fun _ ↦ h.alertsScore_le hi hj⟩ .nil)))
  · simp only [h.workloadsAvailable, h.workloadsDesired]
  · simp only [h.podsAvailable, h.eligiblePods]

theorem flatDeductions : List.Forall₂ (fun d e ↦ e.2 = d.2 ∧ 0 ≤ d.2 ∧ (d.1 → e.1)) i.flatDeductions j.flatDeductions := by
  unfold HealthInputs.flatDeductions
  simp only [List.forall₂_cons, List.forall₂_nil_right_iff, Bool.and_eq_true, decide_eq_true_iff, h.certsAvailable,
    h.storageAvailable, h.controlPlaneAvailable, and_true, true_and]
  exact ⟨⟨by norm_num, fun hd ↦ ⟨hd.1, hd.2.trans_le h.certCritical⟩⟩,
    ⟨by norm_num, fun hd ↦ ⟨hd.1, hd.2.trans_le h.pendingPVCs⟩⟩,
    ⟨by norm_num, fun hd ↦ ⟨hd.1, h.scheduler hd.2⟩⟩,
    ⟨by norm_num, fun hd ↦ ⟨hd.1, h.controllerManager hd.2⟩⟩,
    ⟨by norm_num, fun hd ↦ ⟨hd.1, h.etcd hd.2⟩⟩⟩

theorem degradedTrigger (hnonneg : 0 ≤ i.workloadsDesired) (hi : i.DegradedTrigger) : j.DegradedTrigger := by
  cases hi with
  | notReady hlt => exact .notReady (h.totalNodes ▸ h.readyNodes.trans_lt hlt)
  | pressure hpos => exact .pressure (hpos.trans_le h.pressureNodes)
  | workloads hbelow => exact .workloads (h.workloadsBelow _ hnonneg hbelow)
  | crashloop ha hpos => exact .crashloop (h.podsAvailable ▸ ha) (hpos.trans_le h.crashloopPods)
  | pdb ha hpos => exact .pdb (h.pdbAvailable ▸ ha) (hpos.trans_le h.pdbViolations)
  | storage ha hpos => exact .storage (h.storageAvailable ▸ ha) (hpos.trans_le h.pendingPVCs)
  | certs ha hpos => exact .certs (h.certsAvailable ▸ ha) (hpos.trans_le h.certCritical)
  | scheduler ha hdown => exact .scheduler (h.controlPlaneAvailable ▸ ha) (h.scheduler hdown)
  | controllerManager ha hdown => exact .controllerManager (h.controlPlaneAvailable ▸ ha) (h.controllerManager hdown)
  | etcd ha hdown => exact .etcd (h.controlPlaneAvailable ▸ ha) (h.etcd hdown)
  | alerts ha hpos => exact .alerts (h.alertsAvailable ▸ ha) (hpos.trans_le h.alertsCritical)

end Worsens

end HealthInputs

namespace CountedInputs

variable (i : CountedInputs)

theorem nodes_count : 0 ≤ i.totalNodes ∧ i.totalNodes < 10 ^ 8 := i.bounded _ (by simp [HealthInputs.counts])

theorem ready_count : 0 ≤ i.readyNodes ∧ i.readyNodes < 10 ^ 8 := i.bounded _ (by simp [HealthInputs.counts])

theorem desired_count : 0 ≤ i.workloadsDesired ∧ i.workloadsDesired < 10 ^ 8 :=
  i.bounded _ (by simp [HealthInputs.counts])

theorem available_count : 0 ≤ i.workloadsActuallyAvailable ∧ i.workloadsActuallyAvailable < 10 ^ 8 :=
  i.bounded _ (by simp [HealthInputs.counts])

theorem eligible_count : 0 ≤ i.eligiblePods ∧ i.eligiblePods < 10 ^ 8 := i.bounded _ (by simp [HealthInputs.counts])

theorem isDegraded_iff : i.isDegraded ↔ i.DegradedTrigger :=
  HealthInputs.isDegraded_iff fun h ↦ i.ready_count.1.trans_lt h

theorem workloadsBelow_half : i.workloadsBelow (1 / 2) ↔
    i.workloadsAvailable ∧ 2 * i.workloadsActuallyAvailable < i.workloadsDesired := by
  have hdesired := i.desired_count
  have hworkloads := HealthInputs.workloadsBelow_iff (i := i.toHealthInputs) (p := 1) (q := 2) (by norm_num) (by omega)
    hdesired.1 i.available_count.1
  rwa [Int.cast_one, Int.cast_ofNat, one_mul] at hworkloads

theorem isCritical_iff : i.isCritical ↔ 3 * i.readyNodes < 2 * i.totalNodes ∨
    i.workloadsAvailable ∧ 2 * i.workloadsActuallyAvailable < i.workloadsDesired := by
  have hnodes := i.nodes_count
  have hready := i.ready_count
  unfold HealthInputs.isCritical HealthInputs.criticalVetoes
  simp only [List.any_cons, List.any_nil, Bool.or_false, Bool.or_eq_true, Bool.and_eq_true, decide_eq_true_iff]
  refine or_congr ?_ i.workloadsBelow_half
  rcases hnodes.1.eq_or_lt with hzero | hpos
  · rw [← hzero, mul_zero]
    exact iff_of_false (fun h ↦ lt_irrefl _ h.1) (by omega)
  · have hratio := lt_sub_tolerance_iff (a := i.readyNodes) (p := 2) (q := 3) hpos (by norm_num) (by omega)
    rw [Int.cast_ofNat, Int.cast_ofNat] at hratio
    rw [safeRatio_of_pos hpos, hratio]
    exact and_iff_right hpos

/-- What is critical is degraded too. -/
theorem degraded_of_critical (h : i.isCritical) : i.DegradedTrigger := by
  have hready := i.ready_count
  rcases i.isCritical_iff.mp h with hnodes | hworkloads
  · exact .notReady (by omega)
  · have hbelow := i.workloadsBelow_half.mpr hworkloads
    unfold HealthInputs.workloadsBelow at hbelow
    rw [Bool.and_eq_true, decide_eq_true_iff] at hbelow
    refine .workloads ?_
    unfold HealthInputs.workloadsBelow
    rw [Bool.and_eq_true, decide_eq_true_iff]
    exact ⟨hbelow.1, hbelow.2.trans (by norm_num)⟩

theorem status_eq_healthy : i.status = .healthy ↔ ¬i.DegradedTrigger := by
  unfold HealthInputs.status
  constructor
  · intro h hdegraded
    rw [if_pos (i.isDegraded_iff.mpr hdegraded)] at h
    split at h <;> cases h
  · intro h
    rw [if_neg fun hcritical ↦ h (i.degraded_of_critical hcritical), if_neg fun hdegraded ↦ h (i.isDegraded_iff.mp hdegraded)]

theorem status_eq_critical : i.status = .critical ↔ i.isCritical := by
  unfold HealthInputs.status
  split_ifs with hcritical
  · exact iff_of_true rfl hcritical
  · exact iff_of_false nofun hcritical
  · exact iff_of_false nofun hcritical

theorem healthLaw : HealthLaw i.toHealthInputs := by
  cases hnodes : i.nodesAvailable with
  | false =>
    obtain ⟨hstatus, hscore⟩ := HealthInputs.computeClusterHealth_of_no_nodes hnodes
    refine ⟨iff_of_true hscore hstatus, iff_of_true hstatus hnodes, ?_, ?_, ?_⟩
    · rw [hscore]
      exact nofun
    · exact fun h ↦ absurd (hnodes.symm.trans h) (by decide)
    · exact fun h ↦ absurd (hnodes.symm.trans h) (by decide)
  | true =>
    obtain ⟨hstatus, hscore⟩ := HealthInputs.computeClusterHealth_of_nodes hnodes
    obtain ⟨hnonneg, hle⟩ := HealthInputs.compositeScore_range (i := i.toHealthInputs)
    have hne := HealthInputs.status_ne_unknown (i := i.toHealthInputs)
    refine ⟨?_, ?_, ?_, fun _ ↦ ?_, fun _ ↦ ?_⟩
    · rw [hscore, hstatus]
      exact iff_of_false (Option.some_ne_none _) hne
    · rw [hstatus, hnodes]
      exact iff_of_false hne (by decide)
    · rintro score hmem
      rw [hscore] at hmem
      obtain rfl := Option.some.inj hmem
      have hzero := mathRound_le (le_refl 0) hnonneg
      have hhundred := mathRound_le hnonneg hle
      have hmin := mathRound_natCast 0
      have hmax := mathRound_natCast 100
      push_cast at hmin hmax
      rw [hmin] at hzero
      rw [hmax] at hhundred
      exact ⟨hzero, hhundred⟩
    · rw [hstatus, i.status_eq_critical, i.isCritical_iff]
    · rw [hstatus, i.status_eq_healthy]

variable {i} {j : CountedInputs}

theorem isCritical_mono (h : i.Worsens j.toHealthInputs) (hi : i.isCritical) : j.isCritical := by
  have hready := h.readyNodes
  have havailable := h.workloadsActuallyAvailable
  rw [isCritical_iff, h.totalNodes, h.workloadsAvailable, h.workloadsDesired]
  rcases i.isCritical_iff.mp hi with hnodes | hworkloads
  · exact .inl (by omega)
  · exact .inr ⟨hworkloads.1, by omega⟩

theorem severity_status : i.status.severity = if i.isCritical then 2 else if i.isDegraded then 1 else 0 := by
  unfold HealthInputs.status
  split_ifs <;> rfl

theorem severity_mono (h : i.Worsens j.toHealthInputs) : i.status.severity ≤ j.status.severity := by
  have hcritical : i.isCritical → j.isCritical := isCritical_mono h
  have hdegraded : i.isDegraded → j.isDegraded := fun hi ↦
    j.isDegraded_iff.mpr (h.degradedTrigger i.desired_count.1 (i.isDegraded_iff.mp hi))
  rw [severity_status, severity_status]
  grind

theorem compositeScore_mono (h : i.Worsens j.toHealthInputs) : j.compositeScore ≤ i.compositeScore := by
  have hmean : ScoreWeight.mean j.subScores ≤ ScoreWeight.mean i.subScores :=
    ScoreWeight.mean_lowers HealthInputs.subScores_weight
      (h.subScores i.nodes_count.1 i.desired_count.1 i.eligible_count.1 i.critical_le j.critical_le)
  exact max_le_max_left _ (min_le_min_left _ (foldl_deduct_le h.flatDeductions hmean))

/-- No worse count raises the score or improves the status. -/
structure Monotone (i j : HealthInputs) : Prop where
  score : ∀ s ∈ (computeClusterHealth i).score, ∀ t ∈ (computeClusterHealth j).score, t ≤ s
  absent : (computeClusterHealth i).score = none ↔ (computeClusterHealth j).score = none
  severity : (computeClusterHealth i).status.severity ≤ (computeClusterHealth j).status.severity

theorem monotone (h : i.Worsens j.toHealthInputs) : Monotone i.toHealthInputs j.toHealthInputs := by
  cases hi : i.nodesAvailable with
  | false =>
    obtain ⟨hstatus, hscore⟩ := HealthInputs.computeClusterHealth_of_no_nodes hi
    obtain ⟨hstatus', hscore'⟩ := HealthInputs.computeClusterHealth_of_no_nodes (h.nodesAvailable.trans hi)
    refine ⟨?_, iff_of_true hscore hscore', ?_⟩
    · rw [hscore]
      exact nofun
    · rw [hstatus, hstatus']
  | true =>
    obtain ⟨hstatus, hscore⟩ := HealthInputs.computeClusterHealth_of_nodes hi
    obtain ⟨hstatus', hscore'⟩ := HealthInputs.computeClusterHealth_of_nodes (h.nodesAvailable.trans hi)
    refine ⟨?_, ?_, ?_⟩
    · rw [hscore, hscore']
      rintro s hs t ht
      obtain rfl := Option.some.inj hs
      obtain rfl := Option.some.inj ht
      exact mathRound_le HealthInputs.compositeScore_range.1 (compositeScore_mono h)
    · rw [hscore, hscore']
      exact iff_of_false (Option.some_ne_none _) (Option.some_ne_none _)
    · rw [hstatus, hstatus']
      exact severity_mono h

theorem clusterHealth_law (i : CountedInputs) :
    HealthLaw i.toHealthInputs ∧
      ∀ j : CountedInputs, i.Worsens j.toHealthInputs → Monotone i.toHealthInputs j.toHealthInputs :=
  ⟨i.healthLaw, fun _ h ↦ monotone h⟩

end CountedInputs

end KubeCenter.Resources
