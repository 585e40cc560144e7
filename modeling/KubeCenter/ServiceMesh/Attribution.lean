import KubeCenter.Core.GoString
import KubeCenter.ServiceMesh.PeerAuth

/-! Which workload a pod is counted for, and what its ReplicaSet says about it. -/

namespace KubeCenter.ServiceMesh

open KubeCenter.Core

/-- The ReplicaSets a list call returns, each once and under names without a slash. -/
structure ReplicaSetList where
  items : List ReplicaSet
  segment : ∀ rs ∈ items, '/' ∉ rs.ns.toList ∧ '/' ∉ rs.name.toList
  unique : ∀ rs ∈ items, ∀ rs' ∈ items, rs.ns = rs'.ns → rs.name = rs'.name → rs = rs'

/-- The kinds of owner that `workloadKey` goes by. -/
def OwnerReference.known (ref : OwnerReference) : Bool :=
  ref.kind = "ReplicaSet" ∨ ref.kind = "StatefulSet" ∨ ref.kind = "DaemonSet" ∨ ref.kind = "Job" ∨ ref.kind = "CronJob"

/-- The owner reference that decides. -/
def Pod.owner (pod : Pod) : Option OwnerReference := pod.ownerReferences.find? OwnerReference.known

/-- The pod's owner is a ReplicaSet of this name. -/
def Pod.OwnedBy (pod : Pod) (rsName : String) : Prop :=
  ∃ ref, pod.owner = some ref ∧ ref.kind = "ReplicaSet" ∧ ref.name = rsName

namespace ReplicaSetList

def Lists (l : ReplicaSetList) (ns name : String) (rs : ReplicaSet) : Prop :=
  rs ∈ l.items ∧ rs.ns = ns ∧ rs.name = name

def attribution (l : ReplicaSetList) (pod : Pod) : Attribution :=
  workloadKey pod (some (listReplicaSetControllers l.items))

/-- A Deployment is one that the pod's ReplicaSet has as its controller, or a guess where the ReplicaSet is not
listed; a listed ReplicaSet without a controller is the workload itself. -/
structure NotFabricated (l : ReplicaSetList) (pod : Pod) : Prop where
  deployment : (l.attribution pod).kind = "Deployment" → ∃ rsName, pod.OwnedBy rsName ∧
    ((∃ rs, l.Lists pod.ns rsName rs ∧ rs.controller = some ⟨"Deployment", (l.attribution pod).name⟩) ∨
      (∀ rs, ¬l.Lists pod.ns rsName rs) ∧ heuristicDeployment rsName = some (l.attribution pod).name)
  standAlone : ∀ rsName rs, pod.OwnedBy rsName → l.Lists pod.ns rsName rs → rs.controller = none →
    (l.attribution pod).kind = "ReplicaSet" ∧ (l.attribution pod).name = rsName

/-- The pod's ReplicaSet is listed without a controller, and its name could be that of a Deployment's. -/
def LooksDeployed (l : ReplicaSetList) (pod : Pod) : Prop :=
  ∃ rsName rs, pod.OwnedBy rsName ∧ l.Lists pod.ns rsName rs ∧ rs.controller = none ∧
    heuristicDeployment rsName ≠ none

end ReplicaSetList

theorem isSome_ownerKey (podNS : String) (rsOwners : Option (GoMap String RsOwner)) (ref : OwnerReference) :
    (ownerKey podNS rsOwners ref).isSome = ref.known := by
  unfold ownerKey OwnerReference.known
  by_cases hrs : ref.kind = "ReplicaSet"
  · rw [if_pos hrs]
    cases rsOwners.bind (fun owners ↦ owners.lookup (podNS ++ "/" ++ ref.name)) with
    | some owner => simp [hrs]
    | none => cases heuristicDeployment ref.name <;> simp [hrs]
  · rw [if_neg hrs]
    by_cases hother : ref.kind = "StatefulSet" ∨ ref.kind = "DaemonSet" ∨ ref.kind = "Job" ∨ ref.kind = "CronJob"
    · rw [if_pos hother]
      simp [hother]
    · rw [if_neg hother]
      simp [hrs, hother]

/-- The loop of `workloadKey` stops at the owner that decides. -/
theorem findSome_ownerKey (podNS : String) (rsOwners : Option (GoMap String RsOwner)) (refs : List OwnerReference) :
    refs.findSome? (ownerKey podNS rsOwners) =
      (refs.find? OwnerReference.known).bind (ownerKey podNS rsOwners) := by
  induction refs with
  | nil => rfl
  | cons ref refs ih =>
    have hknown := isSome_ownerKey podNS rsOwners ref
    cases hkey : ownerKey podNS rsOwners ref with
    | none =>
      rw [hkey] at hknown
      rw [List.findSome?_cons_of_isNone (by rw [hkey]; rfl), ih, List.find?_cons_of_neg (by simp [← hknown])]
    | some key =>
      rw [hkey] at hknown
      rw [List.findSome?_cons_of_isSome (by rw [hkey]; rfl), List.find?_cons_of_pos (by simp [← hknown])]
      rfl

/-! ## The list of ReplicaSets -/

namespace ReplicaSetList

variable {l : ReplicaSetList} {pod : Pod} {ns name : String}

theorem lookup_listReplicaSetControllers {owner : RsOwner} :
    (listReplicaSetControllers l.items).lookup (ns ++ "/" ++ name) = some owner ↔
      ∃ rs, l.Lists ns name rs ∧ rs.controller = some owner := by
  unfold listReplicaSetControllers
  have hmem (e : String × RsOwner) : e ∈ l.items.filterMap (fun rs ↦ rs.controller.map (fun owner ↦ (rs.key, owner))) ↔
      ∃ rs ∈ l.items, rs.controller = some e.2 ∧ rs.key = e.1 := by
    simp [List.mem_filterMap, Prod.ext_iff, and_comm]
  have hkey {rs : ReplicaSet} (hrs : rs ∈ l.items) : rs.key = ns ++ "/" ++ name ↔ rs.ns = ns ∧ rs.name = name :=
    key_inj (l.segment rs hrs).1 (l.segment rs hrs).2
  constructor
  · intro h
    obtain ⟨e, he, hname, rfl⟩ := GoMap.mem_of_lookup_indexBy h
    obtain ⟨rs, hrs, hcontroller, hrsKey⟩ := (hmem e).mp he
    exact ⟨rs, ⟨hrs, (hkey hrs).mp (hrsKey.trans hname)⟩, hcontroller⟩
  · rintro ⟨rs, ⟨hrs, hnames⟩, hcontroller⟩
    refine GoMap.lookup_indexBy_eq_some ?_ ((hmem (rs.key, owner)).mpr ⟨rs, hrs, hcontroller, rfl⟩)
      ((hkey hrs).mpr hnames)
    intro a ha b hb hab
    obtain ⟨rsa, hrsa, hca, hka⟩ := (hmem a).mp ha
    obtain ⟨rsb, hrsb, hcb, hkb⟩ := (hmem b).mp hb
    have hsame : rsa.ns = rsb.ns ∧ rsa.name = rsb.name :=
      (key_inj (l.segment rsa hrsa).1 (l.segment rsa hrsa).2).mp (hka.trans (hab.trans hkb.symm))
    obtain rfl := l.unique rsa hrsa rsb hrsb hsame.1 hsame.2
    exact Prod.ext hab (Option.some.inj (hca.symm.trans hcb))

theorem eq_of_lists {rs rs' : ReplicaSet} (h : l.Lists ns name rs) (h' : l.Lists ns name rs') : rs = rs' :=
  l.unique rs h.1 rs' h'.1 (h.2.1.trans h'.2.1.symm) (h.2.2.trans h'.2.2.symm)

theorem attribution_eq (l : ReplicaSetList) (pod : Pod) :
    l.attribution pod = (pod.owner.bind (ownerKey pod.ns (some (listReplicaSetControllers l.items)))).getD
      ⟨"Pod", pod.name, true⟩ := by
  rw [attribution, workloadKey, findSome_ownerKey]
  rfl

/-- A pod whose owner is no ReplicaSet is not counted for a Deployment. -/
theorem attribution_of_not_ownedBy (h : ∀ rsName, ¬pod.OwnedBy rsName) : (l.attribution pod).kind ≠ "Deployment" := by
  rw [attribution_eq]
  cases howner : pod.owner with
  | none => simp
  | some ref =>
    have hrs : ref.kind ≠ "ReplicaSet" := fun hrs ↦ h ref.name ⟨ref, howner, hrs, rfl⟩
    have hknown : ref.known = true := List.find?_some howner
    simp only [OwnerReference.known, hrs, false_or, decide_eq_true_eq] at hknown
    rw [Option.bind_some, ownerKey, if_neg hrs, if_pos hknown, Option.getD_some]
    rintro hdeployment
    rw [show ref.kind = "Deployment" from hdeployment] at hknown
    revert hknown
    decide

/-- The controller of a listed ReplicaSet decides, and without one the name. -/
theorem attribution_of_ownedBy {rsName : String} (h : pod.OwnedBy rsName) :
    (∃ rs owner, l.Lists pod.ns rsName rs ∧ rs.controller = some owner ∧ l.attribution pod =
        if owner.kind = "Deployment" then ⟨"Deployment", owner.name, true⟩ else ⟨"ReplicaSet", rsName, true⟩) ∨
      (∀ rs, l.Lists pod.ns rsName rs → rs.controller = none) ∧ l.attribution pod =
        match heuristicDeployment rsName with
        | some base => ⟨"Deployment", base, false⟩
        | none => ⟨"ReplicaSet", rsName, false⟩ := by
  obtain ⟨ref, howner, hrs, rfl⟩ := h
  rw [attribution_eq, howner, Option.bind_some, ownerKey, if_pos hrs, Option.bind_some]
  cases hlookup : (listReplicaSetControllers l.items).lookup (pod.ns ++ "/" ++ ref.name) with
  | some owner =>
    obtain ⟨rs, hlists, hcontroller⟩ := lookup_listReplicaSetControllers.mp hlookup
    exact .inl ⟨rs, owner, hlists, hcontroller, rfl⟩
  | none =>
    refine .inr ⟨fun rs hlists ↦ ?_, ?_⟩
    · by_contra hsome
      obtain ⟨owner, howner⟩ := Option.ne_none_iff_exists'.mp hsome
      rw [lookup_listReplicaSetControllers.mpr ⟨rs, hlists, howner⟩] at hlookup
      cases hlookup
    · cases heuristicDeployment ref.name <;> rfl

theorem eq_of_ownedBy {rsName rsName' : String} (h : pod.OwnedBy rsName) (h' : pod.OwnedBy rsName') :
    rsName = rsName' := by
  obtain ⟨ref, howner, -, rfl⟩ := h
  obtain ⟨ref', howner', -, rfl⟩ := h'
  rw [Option.some.inj (howner.symm.trans howner')]

/-- A ReplicaSet with a controller is never guessed about. -/
theorem notFabricated_of_controller {rsName : String} {rs : ReplicaSet} {owner : RsOwner} (howned : pod.OwnedBy rsName)
    (hlists : l.Lists pod.ns rsName rs) (hcontroller : rs.controller = some owner)
    (heq : l.attribution pod =
      if owner.kind = "Deployment" then ⟨"Deployment", owner.name, true⟩ else ⟨"ReplicaSet", rsName, true⟩) :
    l.NotFabricated pod where
  deployment hdeployment := by
    by_cases hkind : owner.kind = "Deployment"
    · rw [if_pos hkind] at heq
      refine ⟨rsName, howned, .inl ⟨rs, hlists, ?_⟩⟩
      rw [hcontroller, heq, ← hkind]
    · rw [heq, if_neg hkind] at hdeployment
      exact absurd hdeployment (show "ReplicaSet" ≠ "Deployment" by decide)
  standAlone rsName' rs' howned' hlists' hnone := by
    obtain rfl := eq_of_ownedBy howned howned'
    rw [eq_of_lists hlists' hlists, hcontroller] at hnone
    cases hnone

theorem not_looksDeployed_of_controller {rsName : String} {rs : ReplicaSet} {owner : RsOwner}
    (howned : pod.OwnedBy rsName) (hlists : l.Lists pod.ns rsName rs) (hcontroller : rs.controller = some owner) :
    ¬l.LooksDeployed pod := by
  rintro ⟨rsName', rs', howned', hlists', hstandAlone, -⟩
  obtain rfl := eq_of_ownedBy howned howned'
  rw [eq_of_lists hlists' hlists, hcontroller] at hstandAlone
  cases hstandAlone

/-- A guess is wrong exactly about a listed ReplicaSet whose name looks like a Deployment's. -/
theorem notFabricated_iff_of_guess {rsName : String} (howned : pod.OwnedBy rsName)
    (hnone : ∀ rs, l.Lists pod.ns rsName rs → rs.controller = none)
    (heq : l.attribution pod =
      match heuristicDeployment rsName with
      | some base => ⟨"Deployment", base, false⟩
      | none => ⟨"ReplicaSet", rsName, false⟩) : l.NotFabricated pod ↔ ¬l.LooksDeployed pod := by
  cases hbase : heuristicDeployment rsName with
  | none =>
    rw [hbase] at heq
    refine iff_of_true ⟨fun hdeployment ↦ ?_, fun rsName' _ howned' _ _ ↦ ?_⟩ ?_
    · rw [heq] at hdeployment
      exact absurd hdeployment (show "ReplicaSet" ≠ "Deployment" by decide)
    · rw [heq, eq_of_ownedBy howned howned']
      exact ⟨rfl, rfl⟩
    · rintro ⟨rsName', -, howned', -, -, hlooks⟩
      exact hlooks (eq_of_ownedBy howned howned' ▸ hbase)
  | some base =>
    rw [hbase] at heq
    constructor
    · rintro hnot ⟨rsName', rs, howned', hlists, hstandAlone, -⟩
      have hkind := (hnot.standAlone rsName' rs howned' hlists hstandAlone).1
      rw [heq] at hkind
      exact absurd hkind (show "Deployment" ≠ "ReplicaSet" by decide)
    · intro hnot
      have hmissing : ∀ rs, ¬l.Lists pod.ns rsName rs := fun rs hlists ↦
        hnot ⟨rsName, rs, howned, hlists, hnone rs hlists, by rw [hbase]; exact Option.some_ne_none base⟩
      refine ⟨fun _ ↦ ⟨rsName, howned, .inr ⟨hmissing, by rw [heq, hbase]⟩⟩, fun rsName' rs howned' hlists _ ↦ ?_⟩
      exact absurd (eq_of_ownedBy howned howned' ▸ hlists) (hmissing rs)

/-- No workload is made up, but for a listed ReplicaSet without a controller whose name looks like a Deployment's. -/
theorem notFabricated_iff (l : ReplicaSetList) (pod : Pod) : l.NotFabricated pod ↔ ¬l.LooksDeployed pod := by
  by_cases howned : ∃ rsName, pod.OwnedBy rsName
  · obtain ⟨rsName, howned⟩ := howned
    obtain ⟨rs, owner, hlists, hcontroller, heq⟩ | ⟨hnone, heq⟩ := attribution_of_ownedBy (l := l) howned
    · exact iff_of_true (notFabricated_of_controller howned hlists hcontroller heq)
        (not_looksDeployed_of_controller howned hlists hcontroller)
    · exact notFabricated_iff_of_guess howned hnone heq
  · have hnever : ∀ rsName, ¬pod.OwnedBy rsName := not_exists.mp howned
    refine iff_of_true ⟨fun h ↦ absurd h (attribution_of_not_ownedBy hnever), ?_⟩ ?_
    · exact fun rsName rs h ↦ absurd h (hnever rsName)
    · exact fun ⟨rsName, rs, h, _⟩ ↦ hnever rsName h

/-- A ReplicaSet made by hand. -/
def workerList : ReplicaSetList where
  items := [{ ns := "shop", name := "worker-bcdfg" }]
  segment := by decide
  unique := by
    intro rs hrs rs' hrs' _ _
    rw [List.mem_singleton.mp hrs, List.mem_singleton.mp hrs']

/-- Its pod is counted for a Deployment called worker, which there is not. -/
theorem not_notFabricated : ¬ ∀ (l : ReplicaSetList) (pod : Pod), l.NotFabricated pod := by
  intro h
  let pod : Pod := { ns := "shop", name := "worker-bcdfg-x", ownerReferences := [⟨"ReplicaSet", "worker-bcdfg", some true⟩] }
  have howned : pod.OwnedBy "worker-bcdfg" := ⟨⟨"ReplicaSet", "worker-bcdfg", some true⟩, by decide, rfl, rfl⟩
  have hkind := ((h workerList pod).standAlone "worker-bcdfg" _ howned ⟨List.mem_singleton_self _, rfl, rfl⟩ rfl).1
  revert hkind
  decide

end ReplicaSetList

end KubeCenter.ServiceMesh
