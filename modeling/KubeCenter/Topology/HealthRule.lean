import Mathlib.Order.Lattice.Nat
import KubeCenter.Core.ChaoticIteration
import KubeCenter.Topology.Edges

/-! Health propagation as the raising of severities in place by a monotone rule. -/

namespace KubeCenter.Topology

open KubeCenter.Core Function
open Chaotic (raise pass passes)

def present (nodes : List Node) (id : String) : Bool := (nodeMap nodes id).isSome

def severity (nodes : List Node) (id : String) : ℕ := (nodeMap nodes id).elim 0 (fun n ↦ healthSeverity n.health)

def healthOf (nodes : List Node) (id : String) : Option Health := (nodeMap nodes id).map Node.health

def childIDs (children : GoMap String (List String)) (parentID : String) : List String :=
  (children.lookup parentID).getD []

/-- The severity that the children there are ask of their parent, nothing being the least. -/
def demand (there : String → Bool) (ids : List String) (x : String → ℕ) : ℕ :=
  if (∀ c ∈ ids.filter there, 2 ≤ x c) ∧ ∃ c ∈ ids.filter there, 3 ≤ x c then 3
  else if ∃ c ∈ ids.filter there, 2 ≤ x c then 2
  else 0

def rule (there : String → Bool) (children : GoMap String (List String)) (x : String → ℕ) (parentID : String) : ℕ :=
  if there parentID then demand there (childIDs children parentID) x else 0

section Rule

variable {there : String → Bool} {children : GoMap String (List String)} {ids : List String} {x y : String → ℕ}

theorem demand_mono (h : x ≤ y) : demand there ids x ≤ demand there ids y := by
  have hall : (∀ c ∈ ids.filter there, 2 ≤ x c) → ∀ c ∈ ids.filter there, 2 ≤ y c := fun hx c hc ↦ (hx c hc).trans (h c)
  have hany : ∀ n, (∃ c ∈ ids.filter there, n ≤ x c) → ∃ c ∈ ids.filter there, n ≤ y c :=
    fun n ⟨c, hc, hn⟩ ↦ ⟨c, hc, hn.trans (h c)⟩
  unfold demand
  split
  · next hx => rw [if_pos ⟨hall hx.1, hany 3 hx.2⟩]
  · split
    · next hx =>
      split
      · omega
      · rw [if_pos (hany 2 hx)]
    · omega

theorem rule_mono : Monotone (rule there children) := by
  intro x y h parentID
  unfold rule
  split
  · exact demand_mono h
  · exact le_rfl

theorem rule_leaf (x : String → ℕ) {parentID : String} (h : childIDs children parentID = []) :
    rule there children x parentID = 0 := by
  simp [rule, demand, h]

theorem rule_local {parentID : String} (h : ∀ c ∈ childIDs children parentID, x c = y c) :
    rule there children x parentID = rule there children y parentID := by
  have hmem : ∀ c ∈ (childIDs children parentID).filter there, x c = y c := fun c hc ↦ h c (List.mem_filter.mp hc).1
  have hall : (∀ c ∈ (childIDs children parentID).filter there, 2 ≤ x c) ↔
      ∀ c ∈ (childIDs children parentID).filter there, 2 ≤ y c :=
    forall₂_congr (fun c hc ↦ by rw [hmem c hc])
  have hany : ∀ n, (∃ c ∈ (childIDs children parentID).filter there, n ≤ x c) ↔
      ∃ c ∈ (childIDs children parentID).filter there, n ≤ y c := by
    intro n
    exact exists_congr (fun c ↦ and_congr_right (fun hc ↦ by rw [hmem c hc]))
  unfold rule demand
  simp only [hall, hany]

/-- The order of the children, and how often each is named, make no difference. -/
theorem rule_congr {children' : GoMap String (List String)}
    (h : ∀ parentID c, c ∈ childIDs children parentID ↔ c ∈ childIDs children' parentID) :
    rule there children = rule there children' := by
  funext x parentID
  have hmem : ∀ c, c ∈ (childIDs children parentID).filter there ↔ c ∈ (childIDs children' parentID).filter there := by
    intro c
    rw [List.mem_filter, List.mem_filter, h parentID c]
  unfold rule demand
  simp only [hmem]

theorem rule_covers {ks : List String} (h : ∀ k ∈ children.keys, k ∈ ks) : Chaotic.Covers (rule there children) ks := by
  intro x k hk
  have hnone : children.lookup k = none := AList.lookup_eq_none.mpr (fun hmem ↦ hk (h k (AList.mem_keys.mp hmem)))
  rw [rule_leaf x (by rw [childIDs, hnone]; rfl)]
  exact Nat.zero_le _

end Rule

section NodeMap

variable {nodes nodes' : List Node} {n : Node} {id : String}

theorem nodeMap_cons : nodeMap (n :: nodes) id = (nodeMap nodes id).or (if n.id = id then some n else none) := by
  unfold nodeMap
  rw [List.reverse_cons, List.find?_append, List.find?_singleton]
  simp only [decide_eq_true_eq]

/-- The write goes to the node that the map holds. -/
theorem nodeMap_setHealth (h : Health) (nodes : List Node) (p id : String) :
    nodeMap (setHealth p h nodes) id =
      if id = p then (nodeMap nodes id).map (fun n ↦ { n with health := h }) else nodeMap nodes id := by
  induction nodes with
  | nil => simp [setHealth, nodeMap]
  | cons n nodes ih =>
    rw [setHealth]
    split
    · next hn =>
      obtain ⟨hid, hlast⟩ := hn
      have hnone : nodeMap nodes p = none := by
        rw [← Option.not_isSome_iff_eq_none, nodeMap_isSome_iff]
        exact hlast
      by_cases hp : id = p
      · subst hp
        simp [nodeMap_cons, hnone, hid]
      · simp [nodeMap_cons, hp, hid, Ne.symm hp]
    · next hn =>
      rw [nodeMap_cons, ih, nodeMap_cons]
      by_cases hp : id = p
      · subst hp
        by_cases hid : n.id = id
        · have hsome : (nodeMap nodes id).isSome = true := by
            rw [nodeMap_isSome_iff]
            by_contra hnot
            exact hn ⟨hid, hnot⟩
          obtain ⟨m, hm⟩ := Option.isSome_iff_exists.mp hsome
          simp [hm]
        · simp [hid]
      · simp [hp]

theorem present_setHealth (p : String) (h : Health) (nodes : List Node) : present (setHealth p h nodes) = present nodes := by
  funext id
  unfold present
  rw [nodeMap_setHealth]
  split
  · rw [Option.isSome_map]
  · rfl

end NodeMap

section Refinement

variable {nodes : List Node} {ids : List String} {children : GoMap String (List String)}

theorem mem_found {h : Health} : h ∈ ids.filterMap (fun id ↦ (nodeMap nodes id).map Node.health) ↔
    ∃ c ∈ ids.filter (present nodes), healthOf nodes c = some h := by
  rw [List.mem_filterMap]
  constructor
  · rintro ⟨c, hc, hh⟩
    obtain ⟨n, hn, -⟩ := Option.map_eq_some_iff.mp hh
    exact ⟨c, List.mem_filter.mpr ⟨hc, by rw [present, hn]; rfl⟩, hh⟩
  · rintro ⟨c, hc, hh⟩
    exact ⟨c, (List.mem_filter.mp hc).1, hh⟩

theorem severity_eq {id : String} {h : Health} (hh : healthOf nodes id = some h) : severity nodes id = healthSeverity h := by
  obtain ⟨n, hn, rfl⟩ := Option.map_eq_some_iff.mp hh
  rw [severity, hn]
  rfl

theorem healthOf_eq_none {id : String} (h : present nodes id = false) : healthOf nodes id = none := by
  have hnone : nodeMap nodes id = none := Option.not_isSome_iff_eq_none.mp (by simpa [present] using h)
  rw [healthOf, hnone, Option.map_none]

theorem exists_healthOf {id : String} (h : present nodes id = true) : ∃ h, healthOf nodes id = some h := by
  obtain ⟨n, hn⟩ := Option.isSome_iff_exists.mp h
  exact ⟨n.health, by rw [healthOf, hn]; rfl⟩

theorem three_le {h : Health} : 3 ≤ healthSeverity h ↔ h = .failing := by cases h <;> decide

theorem two_le {h : Health} : 2 ≤ healthSeverity h ↔ h = .failing ∨ h = .degraded := by cases h <;> decide

/-- A child whose severity is high has the health that says so. -/
theorem exists_severity (P : ℕ → Prop) : (∃ c ∈ ids.filter (present nodes), P (severity nodes c)) ↔
    ∃ h ∈ ids.filterMap (fun id ↦ (nodeMap nodes id).map Node.health), P (healthSeverity h) := by
  constructor
  · rintro ⟨c, hc, hP⟩
    obtain ⟨h, hh⟩ := exists_healthOf (List.mem_filter.mp hc).2
    exact ⟨h, mem_found.mpr ⟨c, hc, hh⟩, by rwa [severity_eq hh] at hP⟩
  · rintro ⟨h, hmem, hP⟩
    obtain ⟨c, hc, hh⟩ := mem_found.mp hmem
    exact ⟨c, hc, by rwa [severity_eq hh]⟩

/-- The accumulators of the loop over the children come to what the rule asks for. -/
theorem newHealth_severity : (newHealth nodes ids).elim 0 healthSeverity = demand (present nodes) ids (severity nodes) := by
  have hfailing : (∃ c ∈ ids.filter (present nodes), 3 ≤ severity nodes c) ↔
      Health.failing ∈ ids.filterMap (fun id ↦ (nodeMap nodes id).map Node.health) := by
    rw [exists_severity (3 ≤ ·)]
    simp only [three_le, exists_eq_right]
  have hany : (∃ c ∈ ids.filter (present nodes), 2 ≤ severity nodes c) ↔
      Health.failing ∈ ids.filterMap (fun id ↦ (nodeMap nodes id).map Node.health) ∨
        Health.degraded ∈ ids.filterMap (fun id ↦ (nodeMap nodes id).map Node.health) := by
    rw [exists_severity (2 ≤ ·)]
    simp only [two_le, and_or_left, exists_or, exists_eq_right]
  have hall : (∀ c ∈ ids.filter (present nodes), 2 ≤ severity nodes c) ↔
      ∀ h ∈ ids.filterMap (fun id ↦ (nodeMap nodes id).map Node.health), h = .failing ∨ h = .degraded := by
    have hlow : (∃ c ∈ ids.filter (present nodes), ¬ 2 ≤ severity nodes c) ↔
        ∃ h ∈ ids.filterMap (fun id ↦ (nodeMap nodes id).map Node.health), ¬ 2 ≤ healthSeverity h :=
      exists_severity (fun n ↦ ¬ 2 ≤ n)
    have hnot := not_congr hlow
    simp only [not_exists, not_and, not_not, two_le] at hnot
    exact hnot
  unfold newHealth demand
  simp only [hfailing, hany, hall]
  generalize ids.filterMap (fun id ↦ (nodeMap nodes id).map Node.health) = found
  have hbool : found.all (fun h ↦ decide (h = .failing ∨ h = .degraded)) =
      decide (∀ h ∈ found, h = .failing ∨ h = .degraded) := by
    rw [Bool.eq_iff_iff, List.all_eq_true, decide_eq_true_iff]
    exact forall₂_congr (fun h _ ↦ decide_eq_true_iff)
  rw [hbool]
  simp only [Bool.and_eq_true, Bool.or_eq_true, decide_eq_true_eq,
    apply_ite (fun o : Option Health ↦ o.elim 0 healthSeverity)]
  rfl

theorem severity_setHealth (p : String) (h : Health) (hp : present nodes p = true) :
    severity (setHealth p h nodes) = update (severity nodes) p (healthSeverity h) := by
  funext id
  unfold severity
  rw [nodeMap_setHealth]
  by_cases hid : id = p
  · subst hid
    obtain ⟨n, hn⟩ := Option.isSome_iff_exists.mp hp
    simp [hn]
  · simp [hid]

/-- One visit to a parent raises its severity to what the rule asks for. -/
theorem propagateTo_severity (s : List Node × Bool) (p : String) :
    severity (propagateTo children s p).1 = raise (rule (present s.1) children) (severity s.1) p := by
  have hdemand : (newHealth s.1 (childIDs children p)).elim 0 healthSeverity =
      demand (present s.1) (childIDs children p) (severity s.1) := newHealth_severity
  unfold propagateTo raise rule
  cases hp : nodeMap s.1 p with
  | none => simp [present, severity, hp]
  | some parent =>
    have hthere : present s.1 p = true := by rw [present, hp]; rfl
    have hparent : severity s.1 p = healthSeverity parent.health := by rw [severity, hp]; rfl
    rw [if_pos hthere, ← hdemand, childIDs]
    cases hnew : newHealth s.1 ((children.lookup p).getD []) with
    | none => simp
    | some h =>
      by_cases hlt : healthSeverity parent.health < healthSeverity h
      · have hmax : severity s.1 p ⊔ healthSeverity h = healthSeverity h := sup_eq_right.mpr (by omega)
        simp only [if_pos hlt, severity_setHealth p h hthere, Option.elim_some, hmax]
      · have hmax : severity s.1 p ⊔ healthSeverity h = severity s.1 p := sup_eq_left.mpr (by omega)
        simp only [if_neg hlt, Option.elim_some, hmax, update_eq_self]

theorem propagateTo_present (s : List Node × Bool) (p : String) :
    present (propagateTo children s p).1 = present s.1 := by
  unfold propagateTo
  repeat' split
  all_goals first | rfl | exact present_setHealth _ _ _

/-- A pass that reports no change has made none. -/
theorem propagateTo_unchanged {s : List Node × Bool} {p : String} (h : (propagateTo children s p).2 = false) :
    propagateTo children s p = s := by
  unfold propagateTo at h ⊢
  cases hp : nodeMap s.1 p with
  | none => rfl
  | some parent =>
    simp only [hp] at h ⊢
    cases hnew : newHealth s.1 ((children.lookup p).getD []) with
    | none => rfl
    | some new =>
      simp only [hnew] at h ⊢
      split at h
      · cases h
      · next hlt => exact if_neg hlt

theorem foldl_unchanged {ks : List String} {s : List Node × Bool} (h : (ks.foldl (propagateTo children) s).2 = false) :
    ks.foldl (propagateTo children) s = s := by
  induction ks generalizing s with
  | nil => rfl
  | cons k ks ih =>
    have hrest := ih h
    rw [List.foldl_cons] at h ⊢
    rw [hrest] at h ⊢
    exact propagateTo_unchanged h

theorem foldl_present (ks : List String) (s : List Node × Bool) :
    present (ks.foldl (propagateTo children) s).1 = present s.1 := by
  induction ks generalizing s with
  | nil => rfl
  | cons k ks ih => exact (ih _).trans (propagateTo_present s k)

theorem foldl_severity (ks : List String) (s : List Node × Bool) :
    severity (ks.foldl (propagateTo children) s).1 = pass (rule (present s.1) children) (severity s.1) ks := by
  induction ks generalizing s with
  | nil => rfl
  | cons k ks ih =>
    rw [List.foldl_cons, ih, propagateTo_present, propagateTo_severity]
    rfl

/-- The orders in which the passes to come visit the parents. -/
def orders (rt : Runtime) (children : GoMap String (List String)) : ℕ → List (List String)
  | 0 => []
  | left + 1 => rt.parents left children.keys :: orders rt children left

theorem length_orders (rt : Runtime) (left : ℕ) : (orders rt children left).length = left := by
  induction left with
  | zero => rfl
  | succ left ih => rw [orders, List.length_cons, ih]

theorem covers_parents (rt : Runtime) (there : String → Bool) (left : ℕ) :
    Chaotic.Covers (rule there children) (rt.parents left children.keys) :=
  rule_covers (fun _ hk ↦ (rt.parents_perm left children.keys).mem_iff.mpr hk)

theorem covers_orders (rt : Runtime) (there : String → Bool) (left : ℕ) :
    ∀ ks ∈ orders rt children left, Chaotic.Covers (rule there children) ks := by
  induction left with
  | zero => simp [orders]
  | succ left ih =>
    intro ks hks
    rcases List.mem_cons.mp hks with rfl | hks
    · exact covers_parents rt there left
    · exact ih ks hks

theorem propagateFrom_present (rt : Runtime) (left : ℕ) (nodes : List Node) :
    present (propagateFrom rt children left nodes) = present nodes := by
  induction left generalizing nodes with
  | zero => rfl
  | succ left ih =>
    rw [propagateFrom]
    split
    · exact (ih _).trans (foldl_present _ _)
    · exact foldl_present _ _

/-- The loop does what its full number of passes would do: it stops early only where they change nothing. -/
theorem propagateFrom_severity (rt : Runtime) (left : ℕ) (nodes : List Node) :
    severity (propagateFrom rt children left nodes) =
      passes (rule (present nodes) children) (severity nodes) (orders rt children left) := by
  induction left generalizing nodes with
  | zero => rfl
  | succ left ih =>
    have hpass : severity ((rt.parents left children.keys).foldl (propagateTo children) (nodes, false)).1 =
        pass (rule (present nodes) children) (severity nodes) (rt.parents left children.keys) := foldl_severity _ _
    rw [propagateFrom]
    split
    · rw [ih, foldl_present, hpass]
      rfl
    · next hflag =>
      have hsame := foldl_unchanged (by simpa using hflag)
      rw [hsame] at hpass
      have hstable := Chaotic.stable_of_pass_eq rule_mono (covers_parents rt _ left) hpass.symm
      rw [hsame]
      exact (hstable.passes_eq _).symm

end Refinement

/-- One more visit to any parent changes nothing. -/
def Settled (edges : List Edge) (nodes : List Node) : Prop :=
  ∀ p, propagateTo (childrenOf edges) (nodes, false) p = (nodes, false)

theorem settled_iff {edges : List Edge} {nodes : List Node} :
    Settled edges nodes ↔ Chaotic.Stable (rule (present nodes) (childrenOf edges)) (severity nodes) := by
  constructor
  · intro h p
    have hraise : severity (propagateTo (childrenOf edges) (nodes, false) p).1 =
        raise (rule (present nodes) (childrenOf edges)) (severity nodes) p := propagateTo_severity _ p
    rw [h p] at hraise
    have hp := congrFun hraise p
    rw [raise, update_self] at hp
    exact sup_eq_left.mp hp.symm
  · intro h p
    have hp := h p
    have hdemand : (newHealth nodes (childIDs (childrenOf edges) p)).elim 0 healthSeverity =
        demand (present nodes) (childIDs (childrenOf edges) p) (severity nodes) := newHealth_severity
    unfold propagateTo
    cases hparent : nodeMap nodes p with
    | none => rfl
    | some parent =>
      have hthere : present nodes p = true := by rw [present, hparent]; rfl
      have hseverity : severity nodes p = healthSeverity parent.health := by rw [severity, hparent]; rfl
      rw [rule, if_pos hthere, ← hdemand, hseverity, childIDs] at hp
      cases hnew : newHealth nodes (((childrenOf edges).lookup p).getD []) with
      | none => simp
      | some h =>
        rw [hnew] at hp
        exact if_neg (not_lt.mpr hp)
end KubeCenter.Topology
