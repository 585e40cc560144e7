import KubeCenter.Policy.Normalize

/-! One fetch of policies and violations: its list calls, what they come to and what is lost. -/

namespace KubeCenter.Policy

open KubeCenter.Core

/-- A list call: what the cluster has for it, and whether the call fails. -/
structure Listing where
  items : List Json
  fails : Bool := false

def Listing.reply (l : Listing) : Option (List Json) := if l.fails then none else some l.items

/-- A kind of constraint with its list call. -/
structure ConstraintList where
  kind : String
  listing : Listing

def maxConstraintCRDs : ℕ := 100

/-- What a fetch meets: the engines that discovery has found, the four lists of Kyverno and those of the discovered
constraint kinds. The results for the kinds that are asked for come in any order. -/
structure Fetch where
  kyverno : Bool
  gatekeeper : Bool
  clusterPolicies : Listing
  policies : Listing
  policyReports : Listing
  clusterPolicyReports : Listing
  constraints : List ConstraintList
  arrivals : List ConstraintList
  arrives : arrivals.Perm (constraints.take maxConstraintCRDs)

structure PolicyData where
  policies : List NormalizedPolicy := []
  violations : List NormalizedViolation := []

namespace PolicyData

def append (a b : PolicyData) : PolicyData := ⟨a.policies ++ b.policies, a.violations ++ b.violations⟩

instance : Append PolicyData := ⟨append⟩

/-- The same policies and violations, in any order. -/
structure Perm (a b : PolicyData) : Prop where
  policies : a.policies.Perm b.policies
  violations : a.violations.Perm b.violations

variable {a a' b b' c : PolicyData}

@[simp] theorem policies_append : (a ++ b).policies = a.policies ++ b.policies := rfl

@[simp] theorem violations_append : (a ++ b).violations = a.violations ++ b.violations := rfl

theorem Perm.refl (a : PolicyData) : a.Perm a := ⟨.refl _, .refl _⟩

theorem Perm.symm (h : a.Perm b) : b.Perm a := ⟨h.policies.symm, h.violations.symm⟩

theorem Perm.trans (h : a.Perm b) (h' : b.Perm c) : a.Perm c :=
  ⟨h.policies.trans h'.policies, h.violations.trans h'.violations⟩

theorem Perm.append (h : a.Perm a') (h' : b.Perm b') : (a ++ b).Perm (a' ++ b') :=
  ⟨h.policies.append h'.policies, h.violations.append h'.violations⟩

theorem append_assoc (a b c : PolicyData) : (a ++ b) ++ c = a ++ (b ++ c) :=
  congrArg₂ mk (List.append_assoc _ _ _) (List.append_assoc _ _ _)

theorem Perm.of_append_empty : a.Perm (a ++ {}) := ⟨by simp, by simp⟩

theorem Perm.of_empty_append : a.Perm ({} ++ a) := ⟨by simp, by simp⟩

theorem list_append_comm {α : Type} (a b c d : List α) : ((a ++ b) ++ (c ++ d)).Perm ((a ++ c) ++ (b ++ d)) := by
  have hmiddle : (b ++ c).Perm (c ++ b) := List.perm_append_comm
  simpa only [List.append_assoc] using (hmiddle.append_right d).append_left a

theorem Perm.append_comm (a b c d : PolicyData) : ((a ++ b) ++ (c ++ d)).Perm ((a ++ c) ++ (b ++ d)) :=
  ⟨list_append_comm _ _ _ _, list_append_comm _ _ _ _⟩

def join (l : List PolicyData) : PolicyData := ⟨l.flatMap policies, l.flatMap violations⟩

theorem join_append (l l' : List PolicyData) : join (l ++ l') = join l ++ join l' := by
  simp only [join, List.flatMap_append]
  rfl

theorem join_cons (a : PolicyData) (l : List PolicyData) : join (a :: l) = a ++ join l := rfl

theorem join_perm {l l' : List PolicyData} (h : l.Perm l') : (join l).Perm (join l') :=
  ⟨h.flatMap_right _, h.flatMap_right _⟩

/-- Where each part splits in two, so does the whole. -/
theorem join_split {α : Type} {f g h : α → PolicyData} (hsplit : ∀ x, (f x).Perm (g x ++ h x)) (l : List α) :
    (join (l.map f)).Perm (join (l.map g) ++ join (l.map h)) := by
  induction l with
  | nil => exact .refl _
  | cons x l ih =>
    simp only [List.map_cons, join_cons]
    exact ((hsplit x).append ih).trans (.append_comm _ _ _ _)

end PolicyData

section Lists

variable (std : Stdlib) (f : Fetch)

def kyvernoPolicies (clusterPolicies policies : List Json) : List NormalizedPolicy :=
  clusterPolicies.map (normalizeKyvernoPolicy std true) ++ policies.map (normalizeKyvernoPolicy std false)

def listKyvernoPolicies : Option (List NormalizedPolicy) :=
  match f.clusterPolicies.reply with
  | none => none
  | some clusterList =>
    match f.policies.reply with
    | none => none
    | some nsList => some (kyvernoPolicies std clusterList nsList)

/-- The reports of a call that fails count as none, and the error of the source is always nil. -/
def listKyvernoViolations : List NormalizedViolation :=
  (f.policyReports.reply.getD []).flatMap (extractKyvernoViolations std) ++
    (f.clusterPolicyReports.reply.getD []).flatMap (extractKyvernoViolations std)

def constraintData (kind : String) (items : List Json) : PolicyData :=
  { policies := items.map (normalizeGatekeeperConstraint std kind)
    violations := items.flatMap (extractGatekeeperViolations std kind) }

/-- What a constraint kind adds; one whose call fails is passed over. -/
def constraintResult (c : ConstraintList) : PolicyData :=
  match c.listing.reply with
  | none => {}
  | some items => constraintData std c.kind items

def listGatekeeperPoliciesAndViolations : PolicyData := .join (f.arrivals.map (constraintResult std))

/-- `kr`, where an error leaves the engine out. -/
def kyvernoResult : PolicyData :=
  if f.kyverno then
    match listKyvernoPolicies std f with
    | none => {}
    | some policies => ⟨policies, listKyvernoViolations std f⟩
  else {}

def gatekeeperResult : PolicyData := if f.gatekeeper then listGatekeeperPoliciesAndViolations std f else {}

/-- The data that `doFetch` returns, its error always nil. -/
def doFetch : PolicyData := kyvernoResult std f ++ gatekeeperResult std f

end Lists

section Complete

variable (std : Stdlib) (f : Fetch)

/-- All there is: every list in full, of every constraint kind. -/
def completeData : PolicyData :=
  (if f.kyverno then
    ⟨kyvernoPolicies std f.clusterPolicies.items f.policies.items,
      f.policyReports.items.flatMap (extractKyvernoViolations std) ++
        f.clusterPolicyReports.items.flatMap (extractKyvernoViolations std)⟩
  else {}) ++
  if f.gatekeeper then .join (f.constraints.map (fun c ↦ constraintData std c.kind c.listing.items)) else {}

/-- What is lost of a list whose call fails. -/
def Listing.lost (l : Listing) : List Json := if l.fails then l.items else []

def lostOfKyverno : PolicyData :=
  if f.kyverno then
    if f.clusterPolicies.fails || f.policies.fails then
      ⟨kyvernoPolicies std f.clusterPolicies.items f.policies.items,
        f.policyReports.items.flatMap (extractKyvernoViolations std) ++
          f.clusterPolicyReports.items.flatMap (extractKyvernoViolations std)⟩
    else
      ⟨[], f.policyReports.lost.flatMap (extractKyvernoViolations std) ++
        f.clusterPolicyReports.lost.flatMap (extractKyvernoViolations std)⟩
  else {}

/-- The constraint kinds whose call fails, and those past the first hundred. -/
def lostOfGatekeeper : PolicyData :=
  if f.gatekeeper then
    .join ((f.constraints.take maxConstraintCRDs).map (fun c ↦ constraintData std c.kind c.listing.lost)) ++
      .join ((f.constraints.drop maxConstraintCRDs).map (fun c ↦ constraintData std c.kind c.listing.items))
  else {}

/-- What the data of a fetch leaves out. -/
def lostData : PolicyData := lostOfKyverno std f ++ lostOfGatekeeper std f

variable {std f}

theorem flatMap_listing {α : Type} (l : Listing) (g : Json → List α) :
    (l.items.flatMap g).Perm ((l.reply.getD []).flatMap g ++ l.lost.flatMap g) := by
  unfold Listing.reply Listing.lost
  cases l.fails <;> simp

theorem constraintData_split (c : ConstraintList) : (constraintData std c.kind c.listing.items).Perm
    (constraintResult std c ++ constraintData std c.kind c.listing.lost) := by
  unfold constraintResult Listing.reply Listing.lost
  cases c.listing.fails with
  | true => exact .of_empty_append
  | false => exact .of_append_empty

/-- What Kyverno has is what its result holds and what was lost of it. -/
theorem kyverno_split : (if f.kyverno then
      ⟨kyvernoPolicies std f.clusterPolicies.items f.policies.items,
        f.policyReports.items.flatMap (extractKyvernoViolations std) ++
          f.clusterPolicyReports.items.flatMap (extractKyvernoViolations std)⟩
    else {} : PolicyData).Perm (kyvernoResult std f ++ lostOfKyverno std f) := by
  unfold kyvernoResult lostOfKyverno
  cases f.kyverno with
  | false => exact .refl _
  | true =>
    simp only [if_true]
    by_cases hfails : (f.clusterPolicies.fails || f.policies.fails) = true
    · have hnone : listKyvernoPolicies std f = none := by
        unfold listKyvernoPolicies Listing.reply
        cases hc : f.clusterPolicies.fails with
        | true => rfl
        | false =>
          rw [hc, Bool.false_or] at hfails
          rw [hfails]
          rfl
      rw [hnone, if_pos hfails]
      exact .of_empty_append
    · obtain ⟨hc, hp⟩ := Bool.or_eq_false_iff.mp (Bool.eq_false_iff.mpr hfails)
      have hsome : listKyvernoPolicies std f =
          some (kyvernoPolicies std f.clusterPolicies.items f.policies.items) := by
        unfold listKyvernoPolicies Listing.reply
        rw [hc, hp]
        rfl
      rw [hsome, if_neg hfails]
      constructor
      · simp
      · exact ((flatMap_listing f.policyReports _).append (flatMap_listing f.clusterPolicyReports _)).trans
          (PolicyData.list_append_comm _ _ _ _)

theorem gatekeeper_split : (if f.gatekeeper then
      .join (f.constraints.map (fun c ↦ constraintData std c.kind c.listing.items)) else {} : PolicyData).Perm
    (gatekeeperResult std f ++ lostOfGatekeeper std f) := by
  unfold gatekeeperResult lostOfGatekeeper
  cases f.gatekeeper with
  | false => exact .refl _
  | true =>
    simp only [if_true]
    have hparts : PolicyData.join (f.constraints.map (fun c ↦ constraintData std c.kind c.listing.items)) =
        .join ((f.constraints.take maxConstraintCRDs).map (fun c ↦ constraintData std c.kind c.listing.items)) ++
          .join ((f.constraints.drop maxConstraintCRDs).map (fun c ↦ constraintData std c.kind c.listing.items)) := by
      rw [← PolicyData.join_append, ← List.map_append, List.take_append_drop]
    have hasked : (PolicyData.join ((f.constraints.take maxConstraintCRDs).map
          (fun c ↦ constraintData std c.kind c.listing.items))).Perm
        (.join ((f.constraints.take maxConstraintCRDs).map (constraintResult std)) ++
          .join ((f.constraints.take maxConstraintCRDs).map (fun c ↦ constraintData std c.kind c.listing.lost))) :=
      PolicyData.join_split constraintData_split _
    have harrived : (PolicyData.join ((f.constraints.take maxConstraintCRDs).map (constraintResult std))).Perm
        (listGatekeeperPoliciesAndViolations std f) :=
      PolicyData.join_perm (f.arrives.symm.map _)
    rw [hparts, ← PolicyData.append_assoc]
    exact (hasked.trans (harrived.append (.refl _))).append (.refl _)

/-- A fetch returns all there is but what it loses. -/
theorem completeData_split : (completeData std f).Perm (doFetch std f ++ lostData std f) :=
  (kyverno_split.append gatekeeper_split).trans (.append_comm _ _ _ _)

end Complete

section Scores

variable {std : Stdlib} {f : Fetch} {p : NormalizedPolicy → Bool} {q : NormalizedViolation → Bool} {scope : String}

/-- The score of what a reader is shown of the data. -/
def PolicyData.score (d : PolicyData) (p : NormalizedPolicy → Bool) (q : NormalizedViolation → Bool)
    (scope : String) : ComplianceScore :=
  computeCompliance (d.policies.filter p) (d.violations.filter q) scope

/-- A score is the score of the complete data where nothing is lost that it would count, and only there. -/
theorem score_doFetch_iff : (doFetch std f).score p q scope = (completeData std f).score p q scope ↔
    (lostData std f).policies.filter p = [] ∧ ((lostData std f).violations.filter q).filter (inScope scope) = [] := by
  have hsplit : (completeData std f).Perm (doFetch std f ++ lostData std f) := completeData_split
  have hpolicies := hsplit.policies.filter p
  have hviolations := (hsplit.violations.filter q).filter (inScope scope)
  simp only [PolicyData.policies_append, PolicyData.violations_append, List.filter_append] at hpolicies hviolations
  constructor
  · intro h
    obtain ⟨hp, hv⟩ := computeCompliance_counts h
    have hplength := hpolicies.length_eq
    have hvlength := hviolations.length_eq
    rw [List.length_append] at hplength hvlength
    exact ⟨List.length_eq_zero_iff.mp (by omega), List.length_eq_zero_iff.mp (by omega)⟩
  · intro ⟨hp, hv⟩
    rw [hp, List.append_nil] at hpolicies
    rw [hv, List.append_nil] at hviolations
    exact (computeCompliance_perm hpolicies hviolations).symm

end Scores

end KubeCenter.Policy
