import KubeCenter.ServiceMesh.PeerAuth
import Mathlib.Data.String.Basic

namespace KubeCenter.ServiceMesh

open KubeCenter.Core

/-- How a policy comes to apply to a pod, the most specific way first. -/
inductive Scope
  | workload
  | wholeNamespace
  | mesh
  deriving DecidableEq

def Scope.rank : Scope → ℕ
  | .workload => 0
  | .wholeNamespace => 1
  | .mesh => 2

def Scope.detail : Scope → String
  | .workload => "workload"
  | .wholeNamespace => "namespace"
  | .mesh => "mesh"

/-- The scope in which a policy applies to a pod, if it does. -/
def scope (pod : Pod) (pa : PeerAuthRef) : Option Scope :=
  if pa.ns = pod.ns then
    if pa.selector.isEmpty then some .wholeNamespace
    else if pa.matches pod.labels then some .workload
    else none
  else if pa.ns = istioMeshRootNamespace ∧ pa.selector.isEmpty then some .mesh
  else none

def PeerAuthRef.IsSet (pa : PeerAuthRef) : Prop := pa.mode ≠ istioMTLSUnset

instance (pa : PeerAuthRef) : Decidable pa.IsSet := inferInstanceAs (Decidable (_ ≠ _))

/-- The mode Istio's inheritance gives a pod: that of an applicable policy with a mode, at the most specific
scope that has one. -/
def MostSpecific (peerAuths : List PeerAuthRef) (pod : Pod) (mode : String) : Prop :=
  (∃ pa ∈ peerAuths, ∃ s, scope pod pa = some s ∧ pa.IsSet ∧ mode = pa.mode ∧
      ∀ pb ∈ peerAuths, ∀ s', scope pod pb = some s' → pb.IsSet → s.rank ≤ s'.rank) ∨
    mode = istioMTLSUnset ∧ ∀ pa ∈ peerAuths, (scope pod pa).isSome = true → ¬ pa.IsSet

/-- The policy applies, no other at a more specific scope, and at the same scope none with a lesser name. -/
def First (peerAuths : List PeerAuthRef) (pod : Pod) (pa : PeerAuthRef) : Prop :=
  ∃ s, scope pod pa = some s ∧ ∀ pb ∈ peerAuths, ∀ s', scope pod pb = some s' →
    s.rank < s'.rank ∨ s = s' ∧ pa.name ≤ pb.name

variable {peerAuths : List PeerAuthRef} {pod : Pod} {pa pb : PeerAuthRef} {s : Scope}

def atScope (pod : Pod) (s : Scope) (pa : PeerAuthRef) : Bool := scope pod pa = some s

theorem resolveLoop_cons (namespacePA meshPA : Option PeerAuthRef) :
    resolveLoop pod.labels pod.ns istioMeshRootNamespace namespacePA meshPA (pa :: peerAuths) =
      match scope pod pa with
      | some .workload => (pa.mode, "workload")
      | some .wholeNamespace =>
        resolveLoop pod.labels pod.ns istioMeshRootNamespace (namespacePA.or (some pa)) meshPA peerAuths
      | some .mesh =>
        resolveLoop pod.labels pod.ns istioMeshRootNamespace namespacePA (meshPA.or (some pa)) peerAuths
      | none => resolveLoop pod.labels pod.ns istioMeshRootNamespace namespacePA meshPA peerAuths := by
  rw [resolveLoop, scope]
  by_cases hns : pa.ns = pod.ns
  · cases hsel : pa.selector.isEmpty with
    | true => simp [hns]
    | false => cases hm : pa.matches pod.labels <;> simp [hns]
  · by_cases hroot : pa.ns = istioMeshRootNamespace ∧ pa.selector.isEmpty
    · have hroot' : istioMeshRootNamespace ≠ pod.ns := hroot.1 ▸ hns
      simp [hroot, hroot']
    · simp only [hns, hroot, false_and, if_false]

theorem resolveLoop_eq (namespacePA meshPA : Option PeerAuthRef) :
    resolveLoop pod.labels pod.ns istioMeshRootNamespace namespacePA meshPA peerAuths =
      match peerAuths.find? (atScope pod .workload),
          namespacePA.or (peerAuths.find? (atScope pod .wholeNamespace)),
          meshPA.or (peerAuths.find? (atScope pod .mesh)) with
      | some pa, _, _ => (pa.mode, "workload")
      | none, some pa, _ => (pa.mode, "namespace")
      | none, none, some pa => (pa.mode, "mesh")
      | none, none, none => (istioMTLSUnset, "") := by
  induction peerAuths generalizing namespacePA meshPA with
  | nil =>
    cases namespacePA with
    | some pa => rfl
    | none => cases meshPA <;> rfl
  | cons pa peerAuths ih =>
    rw [resolveLoop_cons]
    cases hs : scope pod pa with
    | none => simp [ih, atScope, hs]
    | some s =>
      cases s with
      | workload => simp [atScope, hs]
      | wholeNamespace => simp [ih, atScope, hs]
      | mesh => simp [ih, atScope, hs]

/-- The policies stand in the order of their namespaces, in each the ones with a selector first, then by name. -/
def PeerAuthRef.Le (pa pb : PeerAuthRef) : Prop :=
  pa.ns < pb.ns ∨ pa.ns = pb.ns ∧
    (pa.selector.isEmpty = false ∧ pb.selector.isEmpty = true ∨
      pa.selector.isEmpty = pb.selector.isEmpty ∧ pa.name ≤ pb.name)

theorem PeerAuthRef.not_less_iff : (!pb.less pa) = true ↔ pa.Le pb := by
  unfold PeerAuthRef.less PeerAuthRef.Le
  by_cases hns : pa.ns = pb.ns
  · simp only [hns, true_and, lt_irrefl, false_or]
    cases ha : pa.selector.isEmpty <;> cases hb : pb.selector.isEmpty <;>
      simp only [ne_eq, not_true, not_false_eq_true, if_true, if_false, Bool.not_eq_true', decide_eq_false_iff_not,
        not_lt, and_true, and_self, and_false, false_and, true_and, or_false, false_or, Bool.not_true,
        Bool.not_false, Bool.true_eq_false, Bool.false_eq_true]
  · have hne : pb.ns ≠ pa.ns := fun he ↦ hns he.symm
    simp only [hns, hne, ne_eq, not_false_eq_true, if_true, false_and, or_false, Bool.not_eq_true',
      decide_eq_false_iff_not, not_lt]
    exact ⟨fun h ↦ lt_of_le_of_ne h hns, fun h ↦ h.le⟩

theorem PeerAuthRef.Le.trans {pc : PeerAuthRef} (h : pa.Le pb) (h' : pb.Le pc) : pa.Le pc := by
  obtain h | ⟨hns, h⟩ := h
  · obtain h' | ⟨hns', -⟩ := h'
    · exact .inl (h.trans h')
    · exact .inl (hns' ▸ h)
  · obtain h' | ⟨hns', h'⟩ := h'
    · exact .inl (hns ▸ h')
    · refine .inr ⟨hns.trans hns', ?_⟩
      obtain ⟨ha, hb⟩ | ⟨hab, hname⟩ := h
      · obtain ⟨hb', -⟩ | ⟨hbc, -⟩ := h'
        · rw [hb] at hb'
          cases hb'
        · exact .inl ⟨ha, hbc ▸ hb⟩
      · obtain ⟨hb, hc⟩ | ⟨hbc, hname'⟩ := h'
        · exact .inl ⟨hab.trans hb, hc⟩
        · exact .inr ⟨hab.trans hbc, hname.trans hname'⟩

theorem PeerAuthRef.le_or_le (pa pb : PeerAuthRef) : pa.Le pb ∨ pb.Le pa := by
  obtain h | h | h := lt_trichotomy pa.ns pb.ns
  · exact .inl (.inl h)
  · cases ha : pa.selector.isEmpty with
    | true =>
      cases hb : pb.selector.isEmpty with
      | true =>
        exact (le_total pa.name pb.name).imp (fun hn ↦ .inr ⟨h, .inr ⟨ha.trans hb.symm, hn⟩⟩)
          (fun hn ↦ .inr ⟨h.symm, .inr ⟨hb.trans ha.symm, hn⟩⟩)
      | false => exact .inr (.inr ⟨h.symm, .inl ⟨hb, ha⟩⟩)
    | false =>
      cases hb : pb.selector.isEmpty with
      | true => exact .inl (.inr ⟨h, .inl ⟨ha, hb⟩⟩)
      | false =>
        exact (le_total pa.name pb.name).imp (fun hn ↦ .inr ⟨h, .inr ⟨ha.trans hb.symm, hn⟩⟩)
          (fun hn ↦ .inr ⟨h.symm, .inr ⟨hb.trans ha.symm, hn⟩⟩)
  · exact .inr (.inl h)

theorem PeerAuthRef.Le.antisymm_names (h : pa.Le pb) (h' : pb.Le pa) : pa.ns = pb.ns ∧ pa.name = pb.name := by
  obtain h | ⟨hns, h⟩ := h
  · obtain h' | ⟨hns, -⟩ := h'
    · exact absurd h' h.asymm
    · exact absurd h (hns ▸ lt_irrefl _)
  · obtain h' | ⟨-, h'⟩ := h'
    · exact absurd h' (hns ▸ lt_irrefl _)
    · refine ⟨hns, ?_⟩
      obtain ⟨ha, hb⟩ | ⟨hab, hname⟩ := h
      · obtain ⟨hb', -⟩ | ⟨hba, -⟩ := h'
        · rw [hb] at hb'
          cases hb'
        · rw [ha, hb] at hba
          cases hba
      · obtain ⟨hb, ha⟩ | ⟨-, hname'⟩ := h'
        · rw [ha, hb] at hab
          cases hab
        · exact le_antisymm hname hname'

theorem pairwise_peerAuths (policies : List MeshedPolicy) :
    (peerAuthsFromPolicies policies).Pairwise PeerAuthRef.Le := by
  have htrans (a b c : PeerAuthRef) (hab : (!b.less a) = true) (hbc : (!c.less b) = true) : (!c.less a) = true := by
    rw [PeerAuthRef.not_less_iff] at hab hbc ⊢
    exact hab.trans hbc
  have htotal (a b : PeerAuthRef) : ((!b.less a) || (!a.less b)) = true := by
    rw [Bool.or_eq_true, PeerAuthRef.not_less_iff, PeerAuthRef.not_less_iff]
    exact PeerAuthRef.le_or_le a b
  have h := List.pairwise_mergeSort htrans htotal (policies.filterMap peerAuthRef)
  exact h.imp PeerAuthRef.not_less_iff.mp

theorem scope_eq_some (h : scope pod pa = some s) :
    pa.ns = (if s = .mesh then istioMeshRootNamespace else pod.ns) ∧ pa.selector.isEmpty = decide (s ≠ .workload) := by
  unfold scope at h
  split at h
  · next hns =>
    split at h
    · next hsel =>
      cases h
      exact ⟨hns, hsel⟩
    · next hsel =>
      split at h <;> cases h
      exact ⟨hns, Bool.eq_false_of_not_eq_true hsel⟩
  · split at h <;> cases h
    next hroot => exact hroot

theorem Scope.rank_injective : Function.Injective Scope.rank := by
  intro s s' h
  cases s <;> cases s' <;> first | rfl | cases h

theorem find_first {peerAuths : List PeerAuthRef} (hsorted : peerAuths.Pairwise PeerAuthRef.Le)
    (hfind : peerAuths.find? (atScope pod s) = some pa) (hb : pb ∈ peerAuths) (hs : scope pod pb = some s) :
    pa.name ≤ pb.name := by
  obtain ⟨hpa, as, bs, rfl, has⟩ := List.find?_eq_some_iff_append.mp hfind
  have hpas := scope_eq_some (of_decide_eq_true hpa)
  have hpbs := scope_eq_some hs
  have hsame := And.intro (hpas.1.trans hpbs.1.symm) (hpas.2.trans hpbs.2.symm)
  obtain hb | hb := List.mem_append.mp hb
  · have hno := has pb hb
    simp [atScope, hs] at hno
  · obtain rfl | hb := List.mem_cons.mp hb
    · exact le_rfl
    · have hle := (List.pairwise_cons.mp (List.pairwise_append.mp hsorted).2.1).1 pb hb
      obtain hlt | ⟨-, ⟨hfalse, htrue⟩ | ⟨-, hname⟩⟩ := hle
      · exact absurd hlt (hsame.1 ▸ lt_irrefl _)
      · rw [hsame.2, htrue] at hfalse
        cases hfalse
      · exact hname

theorem find_ne {peerAuths : List PeerAuthRef} (hfind : peerAuths.find? (atScope pod s) = none)
    (hb : pb ∈ peerAuths) : scope pod pb ≠ some s :=
  fun hs ↦ List.find?_eq_none.mp hfind pb hb (decide_eq_true hs)

theorem first_of_find {peerAuths : List PeerAuthRef} (hsorted : peerAuths.Pairwise PeerAuthRef.Le)
    (hfind : peerAuths.find? (atScope pod s) = some pa)
    (hless : ∀ s' : Scope, s'.rank < s.rank → peerAuths.find? (atScope pod s') = none) :
    pa ∈ peerAuths ∧ First peerAuths pod pa := by
  have hs : atScope pod s pa = true := List.find?_some hfind
  refine ⟨List.mem_of_find?_eq_some hfind, s, of_decide_eq_true hs, ?_⟩
  intro pb hb s' hs'
  obtain h | h | h := lt_trichotomy s'.rank s.rank
  · exact absurd hs' (find_ne (hless s' h) hb)
  · cases Scope.rank_injective h
    exact .inr ⟨rfl, find_first hsorted hfind hb hs'⟩
  · exact .inl h

/-- The resolver takes the mode of the first policy, set or not, and UNSET when no policy applies. -/
theorem resolve_cases {peerAuths : List PeerAuthRef} (hsorted : peerAuths.Pairwise PeerAuthRef.Le) (pod : Pod) :
    (∃ pa ∈ peerAuths, First peerAuths pod pa ∧
      (resolveIstioMTLSMode pod.labels pod.ns istioMeshRootNamespace peerAuths).1 = pa.mode) ∨
    (∀ pa ∈ peerAuths, scope pod pa = none) ∧
      (resolveIstioMTLSMode pod.labels pod.ns istioMeshRootNamespace peerAuths).1 = istioMTLSUnset := by
  rw [resolveIstioMTLSMode, resolveLoop_eq, Option.none_or, Option.none_or]
  cases hworkload : peerAuths.find? (atScope pod .workload) with
  | some pa =>
    obtain ⟨hpa, hfirst⟩ := first_of_find hsorted hworkload (fun s' h ↦ absurd h (Nat.not_lt_zero _))
    exact .inl ⟨pa, hpa, hfirst, rfl⟩
  | none =>
    cases hns : peerAuths.find? (atScope pod .wholeNamespace) with
    | some pa =>
      obtain ⟨hpa, hfirst⟩ := first_of_find hsorted hns (fun s' h ↦ by
        cases s' with
        | workload => exact hworkload
        | wholeNamespace | mesh => simp [Scope.rank] at h)
      exact .inl ⟨pa, hpa, hfirst, rfl⟩
    | none =>
      cases hmesh : peerAuths.find? (atScope pod .mesh) with
      | some pa =>
        obtain ⟨hpa, hfirst⟩ := first_of_find hsorted hmesh (fun s' h ↦ by
          cases s' with
          | workload => exact hworkload
          | wholeNamespace => exact hns
          | mesh => simp at h)
        exact .inl ⟨pa, hpa, hfirst, rfl⟩
      | none =>
        refine .inr ⟨fun pa hpa ↦ ?_, rfl⟩
        cases hs : scope pod pa with
        | none => rfl
        | some s =>
          cases s with
          | workload => exact absurd hs (find_ne hworkload hpa)
          | wholeNamespace => exact absurd hs (find_ne hns hpa)
          | mesh => exact absurd hs (find_ne hmesh hpa)

/-- The API server keeps one PeerAuthentication a name and namespace. -/
def UniqueNames (policies : List MeshedPolicy) : Prop :=
  ((policies.filterMap peerAuthRef).map (fun pa ↦ (pa.ns, pa.name))).Nodup

def podMode (policies : List MeshedPolicy) (pod : Pod) : String :=
  (resolveIstioMTLSMode pod.labels pod.ns istioMeshRootNamespace (peerAuthsFromPolicies policies)).1

theorem eq_of_names {policies : List MeshedPolicy} (h : UniqueNames policies)
    (ha : pa ∈ policies.filterMap peerAuthRef) (hb : pb ∈ policies.filterMap peerAuthRef)
    (he : pa.ns = pb.ns ∧ pa.name = pb.name) : pa = pb :=
  List.inj_on_of_nodup_map h ha hb (Prod.ext he.1 he.2)

theorem peerAuths_perm {policies policies' : List MeshedPolicy} (h : UniqueNames policies)
    (hperm : policies'.Perm policies) : peerAuthsFromPolicies policies' = peerAuthsFromPolicies policies := by
  have hmerge (l : List MeshedPolicy) : (peerAuthsFromPolicies l).Perm (l.filterMap peerAuthRef) :=
    List.mergeSort_perm _ _
  have hrefs := hperm.filterMap peerAuthRef
  refine List.Perm.eq_of_pairwise ?_ (pairwise_peerAuths policies') (pairwise_peerAuths policies)
    (((hmerge policies').trans hrefs).trans (hmerge policies).symm)
  intro a b ha hb hab hba
  exact eq_of_names h (hrefs.mem_iff.mp ((hmerge policies').mem_iff.mp ha)) ((hmerge policies).mem_iff.mp hb)
    (hab.antisymm_names hba)

theorem First.eq {policies : List MeshedPolicy} (h : UniqueNames policies)
    (ha : pa ∈ policies.filterMap peerAuthRef) (hb : pb ∈ policies.filterMap peerAuthRef)
    (hpa : First (policies.filterMap peerAuthRef) pod pa) (hpb : First (policies.filterMap peerAuthRef) pod pb) :
    pa = pb := by
  obtain ⟨s, hs, hfirst⟩ := hpa
  obtain ⟨s', hs', hfirst'⟩ := hpb
  obtain hlt | ⟨rfl, hle⟩ := hfirst pb hb s' hs'
  · obtain hlt' | ⟨rfl, -⟩ := hfirst' pa ha s hs
    · omega
    · omega
  · obtain hlt' | ⟨-, hle'⟩ := hfirst' pa ha s hs
    · omega
    · exact eq_of_names h ha hb ⟨(scope_eq_some hs).1.trans (scope_eq_some hs').1.symm, le_antisymm hle hle'⟩

theorem podMode_cases (policies : List MeshedPolicy) (pod : Pod) :
    (∃ pa ∈ policies.filterMap peerAuthRef, First (policies.filterMap peerAuthRef) pod pa ∧
      podMode policies pod = pa.mode) ∨
    (∀ pa ∈ policies.filterMap peerAuthRef, scope pod pa = none) ∧ podMode policies pod = istioMTLSUnset := by
  have hmem (pa : PeerAuthRef) : pa ∈ peerAuthsFromPolicies policies ↔ pa ∈ policies.filterMap peerAuthRef :=
    (List.mergeSort_perm _ _).mem_iff
  obtain ⟨pa, hpa, ⟨s, hs, hfirst⟩, hmode⟩ | ⟨hnone, hmode⟩ := resolve_cases (pairwise_peerAuths policies) pod
  · exact .inl ⟨pa, (hmem pa).mp hpa, ⟨s, hs, fun pb hb ↦ hfirst pb ((hmem pb).mpr hb)⟩, hmode⟩
  · exact .inr ⟨fun pa hpa ↦ hnone pa ((hmem pa).mpr hpa), hmode⟩

/-- Where some policy that applies has a mode, the first one does. -/
def FirstIsSet (policies : List MeshedPolicy) (pod : Pod) : Prop :=
  ∀ pa ∈ policies.filterMap peerAuthRef, First (policies.filterMap peerAuthRef) pod pa →
    (∃ pb ∈ policies.filterMap peerAuthRef, (scope pod pb).isSome = true ∧ pb.IsSet) → pa.IsSet

theorem mostSpecific_iff {policies : List MeshedPolicy} (h : UniqueNames policies) :
    MostSpecific (policies.filterMap peerAuthRef) pod (podMode policies pod) ↔ FirstIsSet policies pod := by
  constructor
  · intro hmost pa hpa hfirst hset
    obtain ⟨pb, hpb, hscope, hbset⟩ := hset
    obtain ⟨pc, hpc, hcfirst, hmode⟩ | ⟨hnone, -⟩ := podMode_cases policies pod
    · cases First.eq h hpa hpc hfirst hcfirst
      obtain ⟨pd, -, -, -, hdset, hd, -⟩ | ⟨-, hunset⟩ := hmost
      · rw [PeerAuthRef.IsSet, ← hmode, hd]
        exact hdset
      · exact absurd hbset (hunset pb hpb hscope)
    · rw [hnone pb hpb] at hscope
      cases hscope
  · intro hcond
    obtain ⟨pa, hpa, hfirst, hmode⟩ | ⟨hnone, hmode⟩ := podMode_cases policies pod
    · by_cases hset : pa.IsSet
      · obtain ⟨s, hs, hle⟩ := hfirst
        refine .inl ⟨pa, hpa, s, hs, hset, hmode, fun pb hpb s' hs' _ ↦ ?_⟩
        obtain hlt | ⟨rfl, -⟩ := hle pb hpb s' hs'
        · exact hlt.le
        · exact Nat.le_refl _
      · refine .inr ⟨hmode.trans (not_not.mp hset), fun pb hpb hscope hbset ↦ ?_⟩
        exact hset (hcond pa hpa hfirst ⟨pb, hpb, hscope, hbset⟩)
    · refine .inr ⟨hmode, fun pb hpb hscope ↦ ?_⟩
      rw [hnone pb hpb] at hscope
      cases hscope

theorem strict_of_active {peerAuths : List PeerAuthRef} (hmesh : podMeshMembership pod = .istio)
    (hactive : (podPosture peerAuths pod).state = .active) :
    (resolveIstioMTLSMode pod.labels pod.ns istioMeshRootNamespace peerAuths).1 = istioMTLSStrict := by
  rw [podPosture, hmesh] at hactive
  dsimp only at hactive
  unfold modeToState at hactive
  split at hactive
  · next h => exact h
  · cases hactive

/-- The mode follows Istio's inheritance, whatever the order of the list, and an Istio pod is active under
STRICT only. -/
structure Precedence (policies : List MeshedPolicy) (pod : Pod) : Prop where
  mostSpecific : MostSpecific (policies.filterMap peerAuthRef) pod (podMode policies pod)
  anyOrder : ∀ policies', policies'.Perm policies → podMode policies' pod = podMode policies pod
  strict : podMeshMembership pod = .istio → (podPosture (peerAuthsFromPolicies policies) pod).state = .active →
    podMode policies pod = istioMTLSStrict

theorem precedence_iff (policies : List MeshedPolicy) (pod : Pod) (h : UniqueNames policies) :
    Precedence policies pod ↔ FirstIsSet policies pod := by
  constructor
  · intro hp
    exact (mostSpecific_iff h).mp hp.mostSpecific
  · intro hcond
    refine ⟨(mostSpecific_iff h).mpr hcond, fun policies' hperm ↦ ?_, strict_of_active⟩
    rw [podMode, podMode, peerAuths_perm h hperm]

def peerAuthentication (ns name mode : String) : MeshedPolicy :=
  normalizeIstioPeerAuth (.object [
    ("metadata", .object [("name", .string name), ("namespace", .string ns)]),
    ("spec", .object [("mtls", .object [("mode", .string mode)])])])

/-- A namespace policy without a mode below a mesh policy that asks for STRICT. -/
def unsetBelowStrict : List MeshedPolicy :=
  [peerAuthentication "shop" "default" "UNSET", peerAuthentication istioMeshRootNamespace "default" "STRICT"]

theorem precedence_iff_unset :
    Precedence unsetBelowStrict { ns := "shop" } ↔ FirstIsSet unsetBelowStrict { ns := "shop" } :=
  precedence_iff unsetBelowStrict { ns := "shop" } (by change List.Nodup _; decide)

theorem not_precedence : ¬ ∀ (policies : List MeshedPolicy) (pod : Pod), UniqueNames policies →
    Precedence policies pod := by
  intro h
  have hunique : UniqueNames unsetBelowStrict := by
    change List.Nodup _
    decide
  have hset := (mostSpecific_iff hunique).mp (h unsetBelowStrict { ns := "shop" } hunique).mostSpecific
  have hrefs : unsetBelowStrict.filterMap peerAuthRef =
      [⟨"shop", "default", istioMTLSUnset, []⟩, ⟨istioMeshRootNamespace, "default", istioMTLSStrict, []⟩] := rfl
  rw [FirstIsSet, hrefs] at hset
  refine hset _ List.mem_cons_self ⟨.wholeNamespace, by decide, ?_⟩
    ⟨_, List.mem_cons_of_mem _ List.mem_cons_self, by decide, by decide⟩ rfl
  intro pb hpb s' hs'
  obtain rfl | hpb := List.mem_cons.mp hpb
  · have he : s' = .wholeNamespace := Option.some.inj (hs'.symm.trans (by decide))
    exact .inr ⟨he.symm, le_rfl⟩
  · cases List.mem_singleton.mp hpb
    have he : s' = .mesh := Option.some.inj (hs'.symm.trans (by decide))
    rw [he]
    exact .inl (by decide)

end KubeCenter.ServiceMesh
