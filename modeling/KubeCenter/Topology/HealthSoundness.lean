import KubeCenter.Topology.HealthRule

/-! What ten passes of health propagation come to, in any order of maps, nodes and edges. -/

namespace KubeCenter.Topology

open KubeCenter.Core
open Chaotic (rounds Stable)

theorem mem_childIDs_insert {children : GoMap String (List String)} {e : Edge} {parentID c : String} :
    c ∈ childIDs (children.insert e.source ((children.lookup e.source).getD [] ++ [e.target])) parentID ↔
      c ∈ childIDs children parentID ∨ e.source = parentID ∧ e.target = c := by
  unfold childIDs
  by_cases hp : parentID = e.source
  · subst hp
    simp [AList.lookup_insert, eq_comm]
  · rw [AList.lookup_insert_ne hp]
    simp [Ne.symm hp]

/-- The children of a node by the edges that carry health. -/
theorem mem_childIDs {edges : List Edge} {parentID c : String} : c ∈ childIDs (childrenOf edges) parentID ↔
    ∃ e ∈ edges, (e.type ≠ .mount ∧ e.type ≠ .ingress) ∧ e.source = parentID ∧ e.target = c := by
  have hfold : ∀ (l : List Edge) (children : GoMap String (List String)),
      c ∈ childIDs (l.foldl (fun children e ↦
        children.insert e.source ((children.lookup e.source).getD [] ++ [e.target])) children) parentID ↔
        c ∈ childIDs children parentID ∨ ∃ e ∈ l, e.source = parentID ∧ e.target = c := by
    intro l
    induction l with
    | nil => simp
    | cons e l ih =>
      intro children
      rw [List.foldl_cons, ih, mem_childIDs_insert, or_assoc]
      simp
  unfold childrenOf
  rw [hfold]
  simp only [List.mem_filter, decide_eq_true_eq, and_assoc]
  constructor
  · rintro (h | h)
    · cases h
    · exact h
  · exact .inr

/-- Ten rounds that apply the rule to all nodes at once come to rest. -/
def SettlesInTime (nodes : List Node) (edges : List Edge) : Prop :=
  Stable (rule (present nodes) (childrenOf edges)) (rounds (rule (present nodes) (childrenOf edges)) 10 (severity nodes))

/-- A health for each of the same nodes, none below what it was, that the rule would not raise. -/
structure Above (nodes : List Node) (edges : List Edge) (assigned : List Node) : Prop where
  present : present assigned = present nodes
  severity : severity nodes ≤ severity assigned
  settled : Settled edges assigned

section Fixpoint

variable {nodes nodes' : List Node} {edges edges' : List Edge} (rt rt' : Runtime)

theorem propagateHealth_present : present (propagateHealth rt nodes edges) = present nodes :=
  propagateFrom_present rt 10 nodes

theorem propagateHealth_severity : severity (propagateHealth rt nodes edges) =
    Chaotic.passes (rule (present nodes) (childrenOf edges)) (severity nodes) (orders rt (childrenOf edges) 10) :=
  propagateFrom_severity rt 10 nodes

theorem settled_propagateHealth : Settled edges (propagateHealth rt nodes edges) ↔
    Stable (rule (present nodes) (childrenOf edges)) (severity (propagateHealth rt nodes edges)) := by
  rw [settled_iff, propagateHealth_present]

theorem settled_of_settlesInTime (h : SettlesInTime nodes edges) : Settled edges (propagateHealth rt nodes edges) := by
  have hlength : (orders rt (childrenOf edges) 10).length = 10 := length_orders rt 10
  rw [settled_propagateHealth, propagateHealth_severity, Chaotic.passes_eq_rounds rule_mono (covers_orders rt _ 10)]
  · rwa [hlength]
  · rwa [hlength]

/-- No health ends above an assignment that is stable. -/
theorem propagateHealth_le {assigned : List Node} (h : Above nodes edges assigned) :
    severity (propagateHealth rt nodes edges) ≤ severity assigned := by
  have hstable := settled_iff.mp h.settled
  rw [h.present] at hstable
  rw [propagateHealth_severity]
  exact Chaotic.passes_le rule_mono hstable h.severity _

theorem present_congr (h : ∀ id, nodeMap nodes id = nodeMap nodes' id) : present nodes = present nodes' := by
  funext id
  rw [present, h, present]

theorem severity_congr (h : ∀ id, nodeMap nodes id = nodeMap nodes' id) : severity nodes = severity nodes' := by
  funext id
  rw [severity, h, severity]

theorem childIDs_perm (h : edges.Perm edges') (parentID c : String) :
    c ∈ childIDs (childrenOf edges) parentID ↔ c ∈ childIDs (childrenOf edges') parentID := by
  rw [mem_childIDs, mem_childIDs]
  exact exists_congr (fun e ↦ and_congr_left' h.mem_iff)

theorem healthSeverity_injective {h h' : Health} (heq : healthSeverity h = healthSeverity h') : h = h' := by
  cases h <;> cases h' <;> first | rfl | cases heq

theorem healthOf_eq (hp : present nodes = present nodes') (hs : severity nodes = severity nodes') :
    healthOf nodes = healthOf nodes' := by
  funext id
  cases hid : present nodes id with
  | false =>
    rw [healthOf_eq_none hid, healthOf_eq_none (by rw [← hp, hid])]
  | true =>
    obtain ⟨h, hh⟩ := exists_healthOf hid
    obtain ⟨h', hh'⟩ := exists_healthOf (hp ▸ hid : present nodes' id = true)
    have hsame : healthSeverity h = healthSeverity h' := by
      rw [← severity_eq hh, ← severity_eq hh', hs]
    rw [hh, hh', healthSeverity_injective hsame]

/-- Two runs over the same graph, however its maps, nodes and edges are ordered, that both end stable end alike. -/
theorem healthOf_unique (hnodes : ∀ id, nodeMap nodes id = nodeMap nodes' id) (hedges : edges.Perm edges')
    (h : Settled edges (propagateHealth rt nodes edges)) (h' : Settled edges' (propagateHealth rt' nodes' edges')) :
    healthOf (propagateHealth rt nodes edges) = healthOf (propagateHealth rt' nodes' edges') := by
  have hrule : rule (present nodes') (childrenOf edges') = rule (present nodes) (childrenOf edges) := by
    rw [present_congr hnodes, rule_congr (childIDs_perm hedges)]
  have hpresent : present (propagateHealth rt nodes edges) = present (propagateHealth rt' nodes' edges') := by
    rw [propagateHealth_present, propagateHealth_present, present_congr hnodes]
  rw [settled_propagateHealth, propagateHealth_severity] at h h'
  rw [hrule, ← severity_congr hnodes] at h'
  refine healthOf_eq hpresent ?_
  rw [propagateHealth_severity, propagateHealth_severity, hrule, ← severity_congr hnodes]
  exact Chaotic.eq_of_stable rule_mono h h'

/-- Chains of at most ten links settle in time. -/
theorem settlesInTime_of_depth {depth : String → ℕ}
    (hdepth : ∀ e ∈ edges, e.type ≠ .mount ∧ e.type ≠ .ingress → depth e.target < depth e.source)
    (hten : ∀ id, depth id ≤ 10) : SettlesInTime nodes edges := by
  refine Chaotic.stable_rounds_of_height (childIDs (childrenOf edges)) depth
    (fun x y k h ↦ rule_local h) (fun x k h ↦ ?_) (fun k c hc ↦ ?_) hten
  · rw [rule_leaf x h]
    exact Nat.zero_le _
  · obtain ⟨e, he, htype, rfl, rfl⟩ := mem_childIDs.mp hc
    exact hdepth e he htype

/-- The result is below every stable assignment above the start, so a stable result is the least of them, whatever the
orders; and it is stable where ten rounds settle, as they do along chains of at most ten links. -/
theorem propagateHealth_fixpoint (hnodes : ∀ id, nodeMap nodes id = nodeMap nodes' id) (hedges : edges.Perm edges') :
    (∀ assigned, Above nodes edges assigned → severity (propagateHealth rt nodes edges) ≤ severity assigned) ∧
      (Settled edges (propagateHealth rt nodes edges) → Settled edges' (propagateHealth rt' nodes' edges') →
        healthOf (propagateHealth rt nodes edges) = healthOf (propagateHealth rt' nodes' edges')) ∧
      (SettlesInTime nodes edges → Settled edges (propagateHealth rt nodes edges)) ∧
      ∀ depth : String → ℕ,
        (∀ e ∈ edges, e.type ≠ .mount ∧ e.type ≠ .ingress → depth e.target < depth e.source) → (∀ id, depth id ≤ 10) →
          Settled edges (propagateHealth rt nodes edges) := by
  refine ⟨fun assigned h ↦ propagateHealth_le rt h, healthOf_unique rt rt' hnodes hedges, settled_of_settlesInTime rt, ?_⟩
  intro depth hdepth hten
  exact settled_of_settlesInTime rt (settlesInTime_of_depth hdepth hten)

end Fixpoint

section Chains

def chainNode (health : Health) (id : String) : Node := ⟨id, "Pod", id, "default", health, ""⟩

/-- A parent over a failing child, the two nodes in either order. -/
theorem propagateHealth_fixpoint_pair :
    healthOf (propagateHealth inOrder [chainNode .healthy "a", chainNode .failing "b"] [⟨"a", "b", .owner⟩]) =
      healthOf (propagateHealth inOrder [chainNode .failing "b", chainNode .healthy "a"] [⟨"a", "b", .owner⟩]) := by
  have hnodes : ∀ id, nodeMap [chainNode .healthy "a", chainNode .failing "b"] id =
      nodeMap [chainNode .failing "b", chainNode .healthy "a"] id := by
    intro id
    by_cases ha : "a" = id
    · subst ha
      rfl
    · by_cases hb : "b" = id
      · subst hb
        rfl
      · simp [nodeMap, chainNode, ha, hb]
  have hdepth : ∀ id : String, (if id = "a" then 1 else 0) ≤ 10 := by
    intro id
    split <;> omega
  obtain ⟨-, hunique, -, hsettled⟩ := propagateHealth_fixpoint inOrder inOrder hnodes (.refl [⟨"a", "b", .owner⟩])
  obtain ⟨-, -, -, hsettled'⟩ :=
    propagateHealth_fixpoint inOrder inOrder (fun id ↦ (hnodes id).symm) (.refl [⟨"a", "b", .owner⟩])
  exact hunique (hsettled (fun id ↦ if id = "a" then 1 else 0) (by decide) hdepth)
    (hsettled' (fun id ↦ if id = "a" then 1 else 0) (by decide) hdepth)

/-- Twelve nodes in a row, of which the last is failing. -/
def longChain : List Node :=
  (["a", "b", "c", "d", "e", "f", "g", "h", "i", "j", "k"].map (chainNode .healthy)) ++ [chainNode .failing "l"]

def longChainEdges : List Edge :=
  [⟨"k", "l", .owner⟩, ⟨"j", "k", .owner⟩, ⟨"i", "j", .owner⟩, ⟨"h", "i", .owner⟩, ⟨"g", "h", .owner⟩, ⟨"f", "g", .owner⟩,
    ⟨"e", "f", .owner⟩, ⟨"d", "e", .owner⟩, ⟨"c", "d", .owner⟩, ⟨"b", "c", .owner⟩, ⟨"a", "b", .owner⟩]

/-- Visited from the top, a chain of eleven links has not settled after ten passes. -/
theorem not_settled_longChain : ¬ ∀ (rt : Runtime) (nodes : List Node) (edges : List Edge),
    Settled edges (propagateHealth rt nodes edges) := by
  intro hall
  have hchanged : (propagateTo (childrenOf longChainEdges) (propagateHealth inOrder longChain longChainEdges, false)
      "a").2 = true := by
    decide
  rw [hall inOrder longChain longChainEdges "a"] at hchanged
  cases hchanged

end Chains

end KubeCenter.Topology

/-! What a node's health after propagation says of its children. -/

namespace KubeCenter.Topology

open KubeCenter.Core

/-- The healths of the children that are in the graph. -/
def childHealths (edges : List Edge) (nodes : List Node) (id : String) : List Health :=
  (childIDs (childrenOf edges) id).filterMap (healthOf nodes)

section Demand

variable {there : String → Bool} {ids : List String} {x : String → ℕ}

theorem three_le_demand : 3 ≤ demand there ids x ↔
    (∀ c ∈ ids.filter there, 2 ≤ x c) ∧ ∃ c ∈ ids.filter there, 3 ≤ x c := by
  unfold demand
  split
  · next h => exact iff_of_true le_rfl h
  · next h => split <;> exact iff_of_false (by omega) h

theorem two_le_demand : 2 ≤ demand there ids x ↔ ∃ c ∈ ids.filter there, 2 ≤ x c := by
  unfold demand
  split
  · next h =>
    obtain ⟨c, hc, hx⟩ := h.2
    exact iff_of_true (by omega) ⟨c, hc, by omega⟩
  · split
    · next h => exact iff_of_true le_rfl h
    · next h => exact iff_of_false (by omega) h

end Demand

section Sound

variable {nodes : List Node} {edges : List Edge} {id : String}

theorem three_le_rule (h : 3 ≤ rule (present nodes) (childrenOf edges) (severity nodes) id) :
    .failing ∈ childHealths edges nodes id ∧ ∀ h ∈ childHealths edges nodes id, h = .failing ∨ h = .degraded := by
  unfold rule at h
  split at h
  · obtain ⟨hall, hany⟩ := three_le_demand.mp h
    obtain ⟨c, hc, hx⟩ := (exists_severity (3 ≤ ·)).mp hany
    refine ⟨three_le.mp hx ▸ hc, fun g hg ↦ ?_⟩
    obtain ⟨d, hd, hdg⟩ := mem_found.mp hg
    rw [← two_le, ← severity_eq hdg]
    exact hall d hd
  · omega

theorem two_le_rule (hid : present nodes id = true) {h : Health} (hmem : h ∈ childHealths edges nodes id)
    (hh : h = .failing ∨ h = .degraded) : 2 ≤ rule (present nodes) (childrenOf edges) (severity nodes) id := by
  rw [rule, if_pos hid, two_le_demand, exists_severity (2 ≤ ·)]
  exact ⟨h, hmem, two_le.mpr hh⟩

variable (rt : Runtime)

/-- A health that has been raised is what the children ask for in the end. -/
theorem severity_le_sup : severity (propagateHealth rt nodes edges) id ≤
    severity nodes id ⊔ rule (present (propagateHealth rt nodes edges)) (childrenOf edges)
      (severity (propagateHealth rt nodes edges)) id := by
  rw [propagateHealth_present, propagateHealth_severity]
  exact Chaotic.passes_le_sup rule_mono _ id

theorem failing_of_three_le (h : 3 ≤ severity nodes id) : healthOf nodes id = some .failing := by
  cases hid : present nodes id with
  | false =>
    have hnone := healthOf_eq_none hid
    rw [healthOf, Option.map_eq_none_iff] at hnone
    simp [severity, hnone] at h
  | true =>
    obtain ⟨g, hg⟩ := exists_healthOf hid
    rw [severity_eq hg, three_le] at h
    rw [hg, h]

/-- A node ends failing only if it began so or has a failing child and none that is healthy or unknown. A node that did
not begin failing, has a degraded or failing child, and has a healthy or unknown one or none that is failing, does not end
failing, and ends degraded once the propagation has settled. -/
theorem propagateHealth_sound (rt : Runtime) (nodes : List Node) (edges : List Edge) (id : String) :
    (healthOf (propagateHealth rt nodes edges) id = some .failing →
      healthOf nodes id = some .failing ∨
        (.failing ∈ childHealths edges (propagateHealth rt nodes edges) id ∧
          ∀ h ∈ childHealths edges (propagateHealth rt nodes edges) id, h = .failing ∨ h = .degraded)) ∧
    ∀ h₀, healthOf nodes id = some h₀ → h₀ ≠ .failing →
      (∃ h ∈ childHealths edges (propagateHealth rt nodes edges) id, h = .failing ∨ h = .degraded) →
      ((∃ h ∈ childHealths edges (propagateHealth rt nodes edges) id, h = .healthy ∨ h = .unknown) ∨
        .failing ∉ childHealths edges (propagateHealth rt nodes edges) id) →
      healthOf (propagateHealth rt nodes edges) id ≠ some .failing ∧
        (Settled edges (propagateHealth rt nodes edges) →
          healthOf (propagateHealth rt nodes edges) id = some .degraded) := by
  have hsup : severity (propagateHealth rt nodes edges) id ≤
      severity nodes id ⊔ rule (present (propagateHealth rt nodes edges)) (childrenOf edges)
        (severity (propagateHealth rt nodes edges)) id := severity_le_sup rt
  have honly : healthOf (propagateHealth rt nodes edges) id = some .failing →
      healthOf nodes id = some .failing ∨
        (.failing ∈ childHealths edges (propagateHealth rt nodes edges) id ∧
          ∀ h ∈ childHealths edges (propagateHealth rt nodes edges) id, h = .failing ∨ h = .degraded) := by
    intro hfailing
    rw [severity_eq hfailing] at hsup
    rcases le_sup_iff.mp hsup with hbegan | hasked
    · exact .inl (failing_of_three_le hbegan)
    · exact .inr (three_le_rule hasked)
  refine ⟨honly, fun h₀ hbegan hne ⟨h, hmem, hh⟩ hmixed ↦ ?_⟩
  have hnot : healthOf (propagateHealth rt nodes edges) id ≠ some .failing := by
    intro hfailing
    rcases honly hfailing with hsame | ⟨hchild, hall⟩
    · exact hne (Option.some.inj (hbegan.symm.trans hsame))
    · rcases hmixed with ⟨g, hg, hlow⟩ | hnone
      · rcases hall g hg with rfl | rfl <;> rcases hlow with hlow | hlow <;> cases hlow
      · exact hnone hchild
  refine ⟨hnot, fun hsettled ↦ ?_⟩
  have hthere : present (propagateHealth rt nodes edges) id = true := by
    rw [propagateHealth_present, present]
    rw [healthOf] at hbegan
    exact Option.isSome_iff_exists.mpr ((Option.map_eq_some_iff.mp hbegan).imp (fun _ hn ↦ hn.1))
  obtain ⟨g, hg⟩ := exists_healthOf hthere
  have hasked := (two_le_rule hthere hmem hh).trans (settled_iff.mp hsettled id)
  rw [severity_eq hg, two_le] at hasked
  rcases hasked with rfl | rfl
  · exact (hnot hg).elim
  · exact hg

end Sound

/-- A parent with two children. -/
def family (parent first second : Health) : List Node :=
  [chainNode parent "a", chainNode first "b", chainNode second "c"]

def familyEdges : List Edge := [⟨"a", "b", .selector⟩, ⟨"a", "c", .selector⟩]

theorem propagateHealth_sound_family :
    healthOf (propagateHealth inOrder (family .healthy .failing .unknown) familyEdges) "a" = some .degraded := by
  have hten : ∀ id : String, (if id = "a" then 1 else 0) ≤ 10 := by
    intro id
    split <;> omega
  have hsettles : SettlesInTime (family .healthy .failing .unknown) familyEdges :=
    settlesInTime_of_depth (fun e he _ ↦ by revert e; decide) hten
  exact ((propagateHealth_sound inOrder (family .healthy .failing .unknown) familyEdges "a").2 .healthy rfl (by decide)
    ⟨.failing, by decide, .inl rfl⟩ (.inl ⟨.unknown, by decide, .inr rfl⟩)).2 (settled_of_settlesInTime inOrder hsettles)

/-- Failing means that all children are, or that the node began so; a mix of children means degraded. -/
def SoundFor (nodes : List Node) (edges : List Edge) (result : List Node) : Prop :=
  ∀ id, (nodeMap result id).isSome →
    (healthOf result id = some .failing → healthOf nodes id = some .failing ∨
      (childHealths edges result id ≠ [] ∧ ∀ h ∈ childHealths edges result id, h = .failing)) ∧
    ((∃ h ∈ childHealths edges result id, h = .failing ∨ h = .degraded) →
      (∃ h ∈ childHealths edges result id, h ≠ .failing) → healthOf result id = some .degraded)

/-- Severity is only ever raised: a node that began failing stays so over a degraded and a healthy child. -/
theorem not_soundFor : ¬ ∀ (rt : Runtime) (nodes : List Node) (edges : List Edge),
    SoundFor nodes edges (propagateHealth rt nodes edges) := by
  intro hall
  have h := (hall inOrder (family .failing .degraded .healthy) familyEdges "a" (by decide)).2
    ⟨.degraded, by decide, .inr rfl⟩ ⟨.healthy, by decide, by decide⟩
  revert h
  decide

end KubeCenter.Topology
