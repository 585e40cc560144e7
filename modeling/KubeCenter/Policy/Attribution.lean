import KubeCenter.Core.GoString
import KubeCenter.Core.KeyedJoin
import KubeCenter.Policy.Normalize

/-! Which policy object a violation is counted for. -/

namespace KubeCenter.Policy

open KubeCenter.Core

/-- The variable `counts` is a map from match keys. -/
def populateViolationCounts (policies : List NormalizedPolicy) (violations : List NormalizedViolation) :
    List NormalizedPolicy :=
  let counts (matchKey : String) := violations.countP (fun v ↦ v.policy = matchKey)
  policies.map fun p ↦ { p with violationCount := counts p.matchKey }

/-- The variable `violationsByPolicy` of the compliance score. -/
def violationsByPolicy (violations : List NormalizedViolation) (scope matchKey : String) : ℕ :=
  (violations.filter (inScope scope)).countP (fun v ↦ v.policy = matchKey)

theorem computeCompliance_pass (policies : List NormalizedPolicy) (violations : List NormalizedViolation)
    (scope : String) : (computeCompliance policies violations scope).pass =
      policies.countP (fun p ↦ violationsByPolicy violations scope p.matchKey = 0) := by
  have hfold : ∀ t : Tally, (policies.foldl (Tally.add (violationsByPolicy violations scope)) t).pass =
      t.pass + policies.countP (fun p ↦ violationsByPolicy violations scope p.matchKey = 0) := by
    induction policies with
    | nil => exact fun t ↦ rfl
    | cons p policies ih =>
      intro t
      rw [List.foldl_cons, ih, List.countP_cons]
      simp only [Tally.add]
      omega
  exact (hfold {}).trans (Nat.zero_add _)

/-- An object of the cluster that is read as a policy. -/
inductive PolicyObject
  | kyverno (clusterScoped : Bool) (obj : Json)
  | gatekeeper (constraintKind : String) (obj : Json)

/-- What tells one object of the cluster from another. -/
structure Identity where
  engine : Engine
  kind : String
  ns : String
  name : String
  deriving DecidableEq

namespace PolicyObject

variable (std : Stdlib)

def normalize : PolicyObject → NormalizedPolicy
  | kyverno clusterScoped obj => normalizeKyvernoPolicy std clusterScoped obj
  | gatekeeper constraintKind obj => normalizeGatekeeperConstraint std constraintKind obj

/-- A constraint has no namespace. -/
def identity : PolicyObject → Identity
  | kyverno clusterScoped obj => ⟨.kyverno, if clusterScoped then "ClusterPolicy" else "Policy", getNamespace obj, getName obj⟩
  | gatekeeper constraintKind obj => ⟨.gatekeeper, constraintKind, "", getName obj⟩

def matchKey : PolicyObject → String
  | kyverno _ obj => getName obj
  | gatekeeper constraintKind obj => constraintKind ++ "/" ++ getName obj

@[simp] theorem matchKey_normalize (o : PolicyObject) : (o.normalize std).matchKey = o.matchKey := by
  cases o <;> rfl

theorem matchKey_of_identity {o o' : PolicyObject} (h : o.identity = o'.identity) : o.matchKey = o'.matchKey := by
  cases o <;> cases o' <;> simp only [identity, matchKey, Identity.mk.injEq, reduceCtorEq, false_and] at h ⊢
  · exact h.2.2.2
  · rw [h.2.1, h.2.2.2]

def engine : PolicyObject → Engine
  | kyverno _ _ => .kyverno
  | gatekeeper _ _ => .gatekeeper

def name : PolicyObject → String
  | kyverno _ obj => getName obj
  | gatekeeper _ obj => getName obj

/-- The API server lets no name and no kind contain a slash. -/
def Plain : PolicyObject → Prop
  | kyverno _ obj => '/' ∉ (getName obj).toList
  | gatekeeper constraintKind obj => '/' ∉ constraintKind.toList ∧ '/' ∉ (getName obj).toList

/-- Two objects share a match key only where both are Kyverno's and have one name. -/
theorem matchKey_eq_iff {o o' : PolicyObject} (ho : o.Plain) (ho' : o'.Plain) (hne : o.identity ≠ o'.identity) :
    o.matchKey = o'.matchKey ↔ o.engine = .kyverno ∧ o'.engine = .kyverno ∧ o.name = o'.name := by
  have hslash : ∀ {kind name plain : String}, '/' ∉ plain.toList → plain ≠ kind ++ "/" ++ name := by
    rintro kind name plain hplain rfl
    exact hplain (by simp)
  cases o with
  | kyverno clusterScoped obj =>
    cases o' with
    | kyverno clusterScoped' obj' => exact ⟨fun h ↦ ⟨rfl, rfl, h⟩, fun h ↦ h.2.2⟩
    | gatekeeper constraintKind obj' => exact ⟨fun h ↦ absurd h (hslash ho), fun h ↦ nomatch h.2.1⟩
  | gatekeeper constraintKind obj =>
    cases o' with
    | kyverno clusterScoped obj' => exact ⟨fun h ↦ absurd h.symm (hslash ho'), fun h ↦ nomatch h.1⟩
    | gatekeeper constraintKind' obj' =>
      refine ⟨fun h ↦ absurd ?_ hne, fun h ↦ nomatch h.1⟩
      obtain ⟨hkind, hname⟩ := (key_inj ho.1 ho.2).mp h
      rw [identity, identity, hkind, hname]

/-- A policy object produced the violation: a report of Kyverno names it in a result, or the status of a constraint
lists it. -/
inductive Reports : PolicyObject → NormalizedViolation → Prop
  | kyverno {clusterScoped : Bool} {obj report result : Json} {v : NormalizedViolation} :
      result ∈ (nestedSlice report ["results"]).getD [] → v ∈ kyvernoViolation std report result →
      result.nestedString ["policy"] = getName obj → Reports (.kyverno clusterScoped obj) v
  | gatekeeper {constraintKind : String} {obj : Json} {v : NormalizedViolation} :
      v ∈ extractGatekeeperViolations std constraintKind obj → Reports (.gatekeeper constraintKind obj) v

theorem Reports.policy {std : Stdlib} {o : PolicyObject} {v : NormalizedViolation} (h : o.Reports std v) :
    v.policy = o.matchKey := by
  cases h with
  | kyverno _ hv hname =>
    unfold kyvernoViolation at hv
    simp only at hv
    split at hv
    · rw [← Option.some.inj hv]
      exact hname
    · cases hv
  | gatekeeper hv =>
    obtain ⟨j, -, hj⟩ := List.mem_filterMap.mp hv
    unfold gatekeeperViolation at hj
    split at hj
    · rw [← Option.some.inj hj]
      rfl
    · cases hj

end PolicyObject

/-- A violation with the object that produced it. -/
structure Reported (std : Stdlib) where
  origin : PolicyObject
  violation : NormalizedViolation
  reports : origin.Reports std violation

/-- Policies, none of them twice, and violations. -/
structure Findings (std : Stdlib) where
  objects : List PolicyObject
  distinct : (objects.map PolicyObject.identity).Nodup
  reported : List (Reported std)

namespace Findings

variable {std : Stdlib} (f : Findings std)

def policies : List NormalizedPolicy := f.objects.map (PolicyObject.normalize std)

def violations : List NormalizedViolation := f.reported.map Reported.violation

/-- The violations of the policy with this identity are gone. -/
def fixed (i : Identity) : Findings std := { f with reported := f.reported.filter fun r ↦ r.origin.identity ≠ i }

/-- How many of the violations in a scope an object produced. -/
def own (scope : String) (o : PolicyObject) : ℕ :=
  owned PolicyObject.identity (fun r : Reported std ↦ r.origin.identity)
    (f.reported.filter fun r ↦ inScope scope r.violation) o

/-- A policy passes where the loop over the policies finds no violation for it. -/
def passes (scope : String) (o : PolicyObject) : Prop := violationsByPolicy f.violations scope o.matchKey = 0

/-- Every violation counts for the policy object that produced it and for no other. -/
structure Attributed : Prop where
  counts : (populateViolationCounts f.policies f.violations).map (·.violationCount) = f.objects.map (f.own "")
  bounded : ((populateViolationCounts f.policies f.violations).map (·.violationCount)).sum ≤ f.violations.length
  perPolicy : ∀ scope, ∀ o ∈ f.objects, violationsByPolicy f.violations scope o.matchKey = f.own scope o
  passing : ∀ scope, (computeCompliance f.policies f.violations scope).pass =
    f.objects.countP (fun o ↦ f.own scope o = 0)
  fixing : ∀ scope i, ∀ o ∈ f.objects, o.identity ≠ i → ((f.fixed i).passes scope o ↔ f.passes scope o)

/-- No violation is reported for an object whose match key another policy has. -/
def KeysApart : Prop :=
  ∀ o ∈ f.objects, ∀ r ∈ f.reported, r.origin.matchKey = o.matchKey → r.origin.identity = o.identity

variable {f}

theorem violationsByPolicy_eq (scope matchKey : String) : violationsByPolicy f.violations scope matchKey =
    (f.reported.filter fun r ↦ inScope scope r.violation).countP (fun r ↦ r.origin.matchKey = matchKey) := by
  unfold violationsByPolicy violations
  rw [List.filter_map, List.countP_map]
  refine List.countP_congr fun r _ ↦ ?_
  simp only [Function.comp_apply, decide_eq_true_iff, r.reports.policy]

theorem populateViolationCounts_eq : (populateViolationCounts f.policies f.violations).map (·.violationCount) =
    f.objects.map (fun o ↦ violationsByPolicy f.violations "" o.matchKey) := by
  have hall : f.violations.filter (inScope "") = f.violations :=
    List.filter_eq_self.mpr fun v _ ↦ by simp [inScope]
  simp only [populateViolationCounts, policies, List.map_map, violationsByPolicy, hall]
  refine List.map_congr_left fun o _ ↦ ?_
  simp only [Function.comp_apply, PolicyObject.matchKey_normalize]

/-- In one scope, a policy is counted right where its match key is its own among the violations there. -/
theorem perPolicy_iff (scope : String) (o : PolicyObject) :
    violationsByPolicy f.violations scope o.matchKey = f.own scope o ↔
      ∀ r ∈ f.reported, inScope scope r.violation → r.origin.matchKey = o.matchKey → r.origin.identity = o.identity := by
  rw [violationsByPolicy_eq]
  refine (joined_eq_owned_iff fun r _ h ↦ PolicyObject.matchKey_of_identity h).trans ?_
  simp only [List.mem_filter, and_imp]

namespace KeysApart

variable (h : f.KeysApart)
include h

theorem perPolicy (scope : String) {o : PolicyObject} (ho : o ∈ f.objects) :
    violationsByPolicy f.violations scope o.matchKey = f.own scope o :=
  (perPolicy_iff scope o).mpr fun r hr _ ↦ h o ho r hr

theorem fixed (i : Identity) : (f.fixed i).KeysApart := fun o ho r hr ↦ h o ho r (List.mem_of_mem_filter hr)

theorem counts : (populateViolationCounts f.policies f.violations).map (·.violationCount) =
    f.objects.map (f.own "") := by
  rw [populateViolationCounts_eq]
  exact List.map_congr_left fun o ho ↦ h.perPolicy "" ho

theorem bounded : ((populateViolationCounts f.policies f.violations).map (·.violationCount)).sum ≤
    f.violations.length := by
  rw [h.counts]
  calc (f.objects.map (f.own "")).sum
      ≤ (f.reported.filter fun r ↦ inScope "" r.violation).length := sum_owned_le f.distinct
    _ ≤ f.reported.length := List.length_filter_le _ _
    _ = f.violations.length := (List.length_map _).symm

theorem passing (scope : String) : (computeCompliance f.policies f.violations scope).pass =
    f.objects.countP (fun o ↦ f.own scope o = 0) := by
  rw [computeCompliance_pass, policies, List.countP_map]
  refine List.countP_congr fun o ho ↦ ?_
  simp only [Function.comp_apply, PolicyObject.matchKey_normalize, decide_eq_true_iff, h.perPolicy scope ho]

theorem fixing (scope : String) {i : Identity} {o : PolicyObject} (ho : o ∈ f.objects) (hi : o.identity ≠ i) :
    (f.fixed i).passes scope o ↔ f.passes scope o := by
  have hown : (f.fixed i).own scope o = f.own scope o := by
    have hcomm : (f.fixed i).reported.filter (fun r ↦ inScope scope r.violation) =
        (f.reported.filter fun r ↦ inScope scope r.violation).filter (fun r ↦ r.origin.identity ≠ i) :=
      List.filter_comm _ _ _
    rw [own, hcomm, owned_filter_ne hi]
    rfl
  rw [passes, passes, (h.fixed i).perPolicy scope ho, h.perPolicy scope ho, hown]

end KeysApart

theorem keysApart_iff (hobjects : ∀ o ∈ f.objects, o.Plain) (hreported : ∀ r ∈ f.reported, r.origin.Plain) :
    f.KeysApart ↔ ∀ o ∈ f.objects, ∀ r ∈ f.reported, r.origin.engine = .kyverno → o.engine = .kyverno →
      r.origin.name = o.name → r.origin.identity = o.identity := by
  refine forall₄_congr fun o ho r hr ↦ ?_
  by_cases hid : r.origin.identity = o.identity
  · simp only [hid, implies_true]
  · rw [PolicyObject.matchKey_eq_iff (hreported r hr) (hobjects o ho) hid, and_imp, and_imp]

/-- Violations are attributed to the objects that produced them exactly where no two objects share a match key. -/
theorem attributed_iff (f : Findings std) : f.Attributed ↔ f.KeysApart := by
  constructor
  · intro h o ho r hr
    exact (perPolicy_iff "" o).mp (h.perPolicy "" o ho) r hr (by simp [inScope])
  · intro h
    exact ⟨h.counts, h.bounded, fun scope o ho ↦ h.perPolicy scope ho, h.passing, fun scope i o ho ↦ h.fixing scope ho⟩

/-- The Kyverno policy `require-labels` of a namespace. -/
def requireLabels (ns : String) : PolicyObject :=
  .kyverno false (.object [("metadata", .object [("name", .string "require-labels"), ("namespace", .string ns)])])

def failedResult : Json := .object [("policy", .string "require-labels"), ("result", .string "fail")]

def failedReport : Json := .object [("results", .array [failedResult])]

/-- Two namespaces have the policy, and the one of the first namespace fails. -/
def namesakes : Findings ⟨Char.toLower, fun _ _ ↦ ""⟩ where
  objects := [requireLabels "a", requireLabels "b"]
  distinct := by decide
  reported :=
    [{ origin := requireLabels "a"
       violation := (kyvernoViolation _ failedReport failedResult).get (by decide)
       reports := .kyverno List.mem_cons_self (Option.get_mem _) (by decide) }]

theorem not_attributed : ¬∀ (std : Stdlib) (f : Findings std), f.Attributed := fun h ↦
  absurd (h _ namesakes).bounded (by decide)

end Findings

end KubeCenter.Policy
