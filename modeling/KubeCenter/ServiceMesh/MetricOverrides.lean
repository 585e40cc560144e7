import KubeCenter.Core.GoString
import KubeCenter.ServiceMesh.PeerAuth
import Mathlib.Algebra.Order.Field.Rat
import Mathlib.Data.List.Forall2

/-! What the observed traffic changes about the rows of the workloads. -/

namespace KubeCenter.ServiceMesh

open KubeCenter.Core

/-- `F` is the type of Prometheus' values. -/
structure IstioMTLSRatio (F : Type) where
  ns : String
  workload : String
  mtls : F
  total : F

section

variable {F : Type} [Zero F] [One F] [Div F] [LT F] [DecidableLT F] [BEq F]

namespace IstioMTLSRatio

def hasTraffic (r : IstioMTLSRatio F) : Bool := 0 < r.total

def ratio (r : IstioMTLSRatio F) : F := if !r.hasTraffic then 0 else r.mtls / r.total

def key (r : IstioMTLSRatio F) : String := r.ns ++ "/" ++ r.workload

end IstioMTLSRatio

/-- One round of the loop of `applyMTLSMetricOverrides`. -/
def overrideRow (byKey : GoMap String (IstioMTLSRatio F)) (w : WorkloadMTLS) : WorkloadMTLS :=
  if w.mesh ≠ .istio then w
  else
    match byKey.lookup (w.ns ++ "/" ++ w.workload) with
    | none => w
    | some r =>
      if !r.hasTraffic then w
      else if r.ratio < 1 ∧ 0 < r.ratio then { w with state := .mixed, source := .metric }
      else if r.ratio == 0 ∧ w.state = .active then { w with state := .inactive, source := .metric }
      else w

def applyMTLSMetricOverrides (workloads : List WorkloadMTLS) (ratios : List (IstioMTLSRatio F)) : List WorkloadMTLS :=
  if ratios.isEmpty then workloads
  else workloads.map (overrideRow (GoMap.indexBy IstioMTLSRatio.key id ratios))

/-- What an override may do to a row, by which rows have traffic and which have traffic both with and without mTLS. -/
structure Demotes (HasTraffic PartlyPlaintext : WorkloadMTLS → Prop) (w w' : WorkloadMTLS) : Prop where
  others : w' = { w with state := w'.state, source := w'.source }
  active : w'.state = .active → w.state = .active
  frame : w.mesh ≠ .istio ∨ ¬HasTraffic w → w' = w
  mixed : w.state ≠ .mixed → w'.state = .mixed → PartlyPlaintext w

structure OnlyDemotes (HasTraffic PartlyPlaintext : WorkloadMTLS → Prop) (ratios : List (IstioMTLSRatio F))
    (workloads : List WorkloadMTLS) : Prop where
  rows : List.Forall₂ (Demotes HasTraffic PartlyPlaintext) workloads (applyMTLSMetricOverrides workloads ratios)
  twice : applyMTLSMetricOverrides (applyMTLSMetricOverrides workloads ratios) ratios =
    applyMTLSMetricOverrides workloads ratios

/-- Traffic was observed under the namespace and the name of the row. -/
def NameHasTraffic (ratios : List (IstioMTLSRatio F)) (w : WorkloadMTLS) : Prop :=
  ∃ r ∈ ratios, r.ns = w.ns ∧ r.workload = w.workload ∧ r.hasTraffic

def NamePartlyPlaintext (ratios : List (IstioMTLSRatio F)) (w : WorkloadMTLS) : Prop :=
  ∃ r ∈ ratios, r.ns = w.ns ∧ r.workload = w.workload ∧ r.hasTraffic ∧ 0 < r.ratio ∧ r.ratio < 1

variable {byKey : GoMap String (IstioMTLSRatio F)} {w : WorkloadMTLS} {r : IstioMTLSRatio F}

theorem overrideRow_of_lookup (hmesh : w.mesh = .istio) (hr : byKey.lookup (w.ns ++ "/" ++ w.workload) = some r)
    (htraffic : r.hasTraffic) :
    overrideRow byKey w =
      if r.ratio < 1 ∧ 0 < r.ratio then { w with state := .mixed, source := .metric }
      else if r.ratio == 0 ∧ w.state = .active then { w with state := .inactive, source := .metric }
      else w := by
  unfold overrideRow
  rw [if_neg (not_not.mpr hmesh), hr]
  dsimp only
  rw [htraffic]
  rfl

/-- An override does nothing, or it goes by the traffic of the row's key. -/
theorem overrideRow_cases (byKey : GoMap String (IstioMTLSRatio F)) (w : WorkloadMTLS) :
    overrideRow byKey w = w ∨
      ∃ r, w.mesh = .istio ∧ byKey.lookup (w.ns ++ "/" ++ w.workload) = some r ∧ r.hasTraffic ∧
        ((r.ratio < 1 ∧ 0 < r.ratio) ∧ overrideRow byKey w = { w with state := .mixed, source := .metric } ∨
          ¬(r.ratio < 1 ∧ 0 < r.ratio) ∧ w.state = .active ∧
            overrideRow byKey w = { w with state := .inactive, source := .metric }) := by
  by_cases hmesh : w.mesh = .istio
  · cases hr : byKey.lookup (w.ns ++ "/" ++ w.workload) with
    | none =>
      left
      unfold overrideRow
      rw [if_neg (not_not.mpr hmesh), hr]
    | some r =>
      by_cases htraffic : r.hasTraffic
      · rw [overrideRow_of_lookup hmesh hr htraffic]
        by_cases hpartly : r.ratio < 1 ∧ 0 < r.ratio
        · rw [if_pos hpartly]
          exact .inr ⟨r, hmesh, rfl, htraffic, .inl ⟨hpartly, rfl⟩⟩
        · rw [if_neg hpartly]
          by_cases hall : r.ratio == 0 ∧ w.state = .active
          · rw [if_pos hall]
            exact .inr ⟨r, hmesh, rfl, htraffic, .inr ⟨hpartly, hall.2, rfl⟩⟩
          · rw [if_neg hall]
            exact .inl rfl
      · left
        unfold overrideRow
        rw [if_neg (not_not.mpr hmesh), hr]
        simp [htraffic]
  · left
    exact if_pos hmesh

theorem overrideRow_twice (byKey : GoMap String (IstioMTLSRatio F)) (w : WorkloadMTLS) :
    overrideRow byKey (overrideRow byKey w) = overrideRow byKey w := by
  obtain hsame | ⟨r, hmesh, hr, htraffic, ⟨hpartly, hrow⟩ | ⟨hpartly, -, hrow⟩⟩ := overrideRow_cases byKey w
  · rw [hsame, hsame]
  · have hagain := overrideRow_of_lookup (w := { w with state := .mixed, source := .metric }) hmesh hr htraffic
    rw [hrow, hagain, if_pos hpartly]
  · have hagain := overrideRow_of_lookup (w := { w with state := .inactive, source := .metric }) hmesh hr htraffic
    have hinactive : ¬(r.ratio == 0 ∧ MTLSState.inactive = .active) := fun h ↦ by cases h.2
    rw [hrow, hagain, if_neg hpartly, if_neg hinactive]

omit [Zero F] [One F] [Div F] [LT F] [DecidableLT F] [BEq F] in
/-- A key of a Kubernetes namespace and name is theirs alone. -/
theorem own_of_lookup {ratios : List (IstioMTLSRatio F)} (hsegment : '/' ∉ w.ns.toList ∧ '/' ∉ w.workload.toList)
    (hr : (GoMap.indexBy IstioMTLSRatio.key id ratios).lookup (w.ns ++ "/" ++ w.workload) = some r) :
    r ∈ ratios ∧ r.ns = w.ns ∧ r.workload = w.workload := by
  obtain ⟨found, hfound, hkey, rfl⟩ := GoMap.mem_of_lookup_indexBy hr
  obtain ⟨hns, hname⟩ := (key_inj hsegment.1 hsegment.2).mp hkey.symm
  exact ⟨hfound, hns.symm, hname.symm⟩

theorem demotes_overrideRow {ratios : List (IstioMTLSRatio F)}
    (hsegment : '/' ∉ w.ns.toList ∧ '/' ∉ w.workload.toList) :
    Demotes (NameHasTraffic ratios) (NamePartlyPlaintext ratios) w
      (overrideRow (GoMap.indexBy IstioMTLSRatio.key id ratios) w) := by
  obtain hsame | ⟨r, hmesh, hr, htraffic, hchange⟩ := overrideRow_cases (GoMap.indexBy IstioMTLSRatio.key id ratios) w
  · rw [hsame]
    exact ⟨rfl, id, fun _ ↦ rfl, fun hne hmixed ↦ absurd hmixed hne⟩
  · obtain ⟨hmem, hns, hname⟩ := own_of_lookup hsegment hr
    have hframe : ¬(w.mesh ≠ .istio ∨ ¬NameHasTraffic ratios w) := by
      rintro (hmesh' | hnone)
      · exact hmesh' hmesh
      · exact hnone ⟨r, hmem, hns, hname, htraffic⟩
    obtain ⟨hpartly, hrow⟩ | ⟨-, -, hrow⟩ := hchange
    · rw [hrow]
      exact ⟨rfl, nofun, fun h ↦ absurd h hframe, fun _ _ ↦ ⟨r, hmem, hns, hname, htraffic, hpartly.2, hpartly.1⟩⟩
    · rw [hrow]
      exact ⟨rfl, nofun, fun h ↦ absurd h hframe, nofun⟩

/-- Overrides never make a row active, and go by the traffic of the row's namespace and name. -/
theorem onlyDemotes (ratios : List (IstioMTLSRatio F)) {workloads : List WorkloadMTLS}
    (hsegment : ∀ w ∈ workloads, '/' ∉ w.ns.toList ∧ '/' ∉ w.workload.toList) :
    OnlyDemotes (NameHasTraffic ratios) (NamePartlyPlaintext ratios) ratios workloads := by
  by_cases hempty : ratios.isEmpty
  · have hsame : applyMTLSMetricOverrides workloads ratios = workloads := if_pos hempty
    refine ⟨?_, by rw [hsame, hsame]⟩
    rw [hsame, List.forall₂_same]
    exact fun w _ ↦ ⟨rfl, id, fun _ ↦ rfl, fun hne hmixed ↦ absurd hmixed hne⟩
  · have hmap (workloads : List WorkloadMTLS) : applyMTLSMetricOverrides workloads ratios =
        workloads.map (overrideRow (GoMap.indexBy IstioMTLSRatio.key id ratios)) := if_neg hempty
    refine ⟨?_, ?_⟩
    · rw [hmap, List.forall₂_map_right_iff, List.forall₂_same]
      exact fun w hw ↦ demotes_overrideRow (hsegment w hw)
    · rw [hmap, hmap, List.map_map]
      exact List.map_congr_left (fun w _ ↦ overrideRow_twice _ w)

end

/-- The row of a Deployment or StatefulSet called cart whose policy is strict. -/
def strictCart (kind : String) : WorkloadMTLS where
  ns := "shop"
  workload := "cart"
  workloadKind := kind
  mesh := .istio
  state := .active
  source := .policy
  istioMode := istioMTLSStrict
  workloadKindConfident := true

theorem onlyDemotes_cart :
    let ratios : List (IstioMTLSRatio ℚ) := [⟨"shop", "cart", 90, 100⟩]
    OnlyDemotes (NameHasTraffic ratios) (NamePartlyPlaintext ratios) ratios [strictCart "Deployment"] :=
  onlyDemotes _ (by decide)

/-- The traffic of a workload, of which Prometheus keeps no kind. -/
structure KindRatio (F : Type) extends IstioMTLSRatio F where
  kind : String

def OwnTraffic (observed : List (KindRatio ℚ)) (w : WorkloadMTLS) : Prop :=
  ∃ r ∈ observed, r.ns = w.ns ∧ r.workload = w.workload ∧ r.kind = w.workloadKind ∧ r.hasTraffic

def OwnPartlyPlaintext (observed : List (KindRatio ℚ)) (w : WorkloadMTLS) : Prop :=
  w.state = .active ∧ ∃ r ∈ observed, r.ns = w.ns ∧ r.workload = w.workload ∧ r.kind = w.workloadKind ∧
    r.hasTraffic ∧ 0 < r.ratio ∧ r.ratio < 1

/-- The traffic of the Deployment demotes the StatefulSet of its name. -/
theorem not_onlyDemotes : ¬ ∀ (observed : List (KindRatio ℚ)) (workloads : List WorkloadMTLS),
    (∀ w ∈ workloads, '/' ∉ w.ns.toList ∧ '/' ∉ w.workload.toList) →
      OnlyDemotes (OwnTraffic observed) (OwnPartlyPlaintext observed) (observed.map KindRatio.toIstioMTLSRatio)
        workloads := by
  intro h
  have hdemotes := h [⟨⟨"shop", "cart", 90, 100⟩, "Deployment"⟩] [strictCart "StatefulSet"] (by decide)
  obtain ⟨-, r, hr, -, -, hkind, -⟩ := (List.forall₂_cons.mp hdemotes.rows).1.mixed (by decide) (by decide +kernel)
  rw [List.mem_singleton.mp hr] at hkind
  revert hkind
  decide

end KubeCenter.ServiceMesh
