import KubeCenter.Wizard.NetworkPolicy

/-! What a network policy means to a cluster, and the forms whose policies mean what they say. -/

namespace KubeCenter.Wizard

open KubeCenter.Core

/-! The rules of the API. -/

def IPBlock.ExceptsWithin (block : IPBlock) : Prop :=
  ∀ except ∈ block.except, ∃ inner outer, Net.parseCIDR except.toList = some inner ∧
    Net.parseCIDR block.cidr.toList = some outer ∧ inner.addresses ⊂ outer.addresses

structure NetworkPolicyPeer.Valid (peer : NetworkPolicyPeer) : Prop where
  nonempty : peer.podSelector.isSome = true ∨ peer.namespaceSelector.isSome = true ∨ peer.ipBlock.isSome = true
  alone : peer.ipBlock.isSome = true → peer.podSelector = none ∧ peer.namespaceSelector = none
  within : ∀ block ∈ peer.ipBlock, block.ExceptsWithin

/-- A policy without types is one for ingress, and for egress where it has rules for it. -/
def NetworkPolicy.inForce (policy : NetworkPolicy) (direction : Direction) : Bool :=
  if policy.policyTypes = [] then direction = .ingress || policy.egress.length ≠ 0
  else direction.policyType ∈ policy.policyTypes

/-- Traffic with a remote endpoint. -/
structure Traffic (ε : Type) where
  remote : ε
  port : ℤ
  protocol : String

section

variable {ε : Type}

def NetworkPolicyPort.covers (port : NetworkPolicyPort) (traffic : Traffic ε) : Prop :=
  port.protocol.getD "TCP" = traffic.protocol ∧ ∀ n ∈ port.port, n = traffic.port

/-- An empty list stands for everyone, or for every port. `selects` says whom a peer stands for in the cluster. -/
def NetworkPolicyRule.admits (selects : NetworkPolicyPeer → ε → Prop) (rule : NetworkPolicyRule) (traffic : Traffic ε) :
    Prop :=
  (rule.peers = [] ∨ ∃ peer ∈ rule.peers, selects peer traffic.remote) ∧
    (rule.ports = [] ∨ ∃ port ∈ rule.ports, port.covers traffic)

def NetworkPolicyPortInput.states (port : NetworkPolicyPortInput) (traffic : Traffic ε) : Prop :=
  port.port = traffic.port ∧ (if port.protocol = "" then "TCP" else port.protocol) = traffic.protocol

/-- What a rule of the form says: everyone, where it lists no peers at all, and else the peers of its direction. -/
def NetworkPolicyRuleInput.states (direction : Direction) (selects : NetworkPolicyPeer → ε → Prop)
    (rule : NetworkPolicyRuleInput) (traffic : Traffic ε) : Prop :=
  ((rule.fromPeers = [] ∧ rule.toPeers = []) ∨
      ∃ peer ∈ rule.peers direction, selects (buildNetworkPolicyPeer peer) traffic.remote) ∧
    (rule.ports = [] ∨ ∃ port ∈ rule.ports, port.states traffic)

end

/-- The rule lets everyone in (or out), whoever its peers stand for. -/
def NetworkPolicyRule.AdmitsEveryone (rule : NetworkPolicyRule) : Prop :=
  ∀ (ε : Type) (selects : NetworkPolicyPeer → ε → Prop) (remote : ε), ∃ port protocol,
    rule.admits selects ⟨remote, port, protocol⟩

/-- A rule of the form and the rule it becomes. -/
structure SaysNoMore (direction : Direction) (input : NetworkPolicyRuleInput) (rule : NetworkPolicyRule) : Prop where
  everyone : rule.AdmitsEveryone → input.fromPeers = [] ∧ input.toPeers = []
  traffic : ∀ (ε : Type) (selects : NetworkPolicyPeer → ε → Prop) (traffic : Traffic ε),
    rule.admits selects traffic → input.states direction selects traffic

structure NetworkPolicyInput.Sound (np : NetworkPolicyInput) : Prop where
  peers : ∀ direction, ∀ rule ∈ np.toNetworkPolicy.rules direction, ∀ peer ∈ rule.peers, peer.Valid
  rules : ∀ direction, List.Forall₂ (SaysNoMore direction) (np.rules direction) (np.toNetworkPolicy.rules direction)
  inForce : ∀ direction, np.toNetworkPolicy.inForce direction = true → direction.policyType ∈ np.policyTypes

/-! The forms. -/

def exceptWithin (cidr except : String) : Bool :=
  match Net.parseCIDR except.toList, Net.parseCIDR cidr.toList with
  | some inner, some outer => inner.properlyWithin outer
  | _, _ => false

/-- The peer is selectors or a block of addresses, and the block's exceptions are proper parts of it. -/
def NetworkPolicyPeerInput.wellFormed (peer : NetworkPolicyPeerInput) : Bool :=
  match peer.ipBlock with
  | none => peer.podSelector.isSome || peer.namespaceSelector.isSome
  | some block => peer.podSelector.isNone && peer.namespaceSelector.isNone && block.except.all (exceptWithin block.cidr)

/-- Peers of the other direction do not stand alone. -/
def NetworkPolicyRuleInput.wellFormed (direction : Direction) (rule : NetworkPolicyRuleInput) : Bool :=
  ((rule.peers direction).length ≠ 0 || (rule.peers direction.other).length = 0) &&
    (rule.peers direction).all NetworkPolicyPeerInput.wellFormed

def NetworkPolicyInput.wellFormed (np : NetworkPolicyInput) : Bool :=
  np.ingress.all (NetworkPolicyRuleInput.wellFormed .ingress) && np.egress.all (NetworkPolicyRuleInput.wellFormed .egress)

structure AcceptedNetworkPolicy extends NetworkPolicyInput where
  accepted : toNetworkPolicyInput.validate = []

theorem flatMap_zipIdx_eq_nil {α β : Type} {l : List α} {f : α × ℕ → List β} (h : l.zipIdx.flatMap f = []) {a : α}
    (ha : a ∈ l) : ∃ i, f (a, i) = [] := by
  rw [← List.zipIdx_map_fst 0 l] at ha
  obtain ⟨⟨a, i⟩, hmem, rfl⟩ := List.mem_map.mp ha
  exact ⟨i, List.flatMap_eq_nil_iff.mp h _ hmem⟩

namespace AcceptedNetworkPolicy

variable (np : AcceptedNetworkPolicy)

theorem policyTypes_ne : np.policyTypes ≠ [] := by
  have h := np.accepted
  unfold NetworkPolicyInput.validate at h
  simp only [List.append_eq_nil_iff, check_eq_nil] at h
  obtain ⟨⟨⟨⟨⟨⟨-, htypes⟩, -⟩, -⟩, -⟩, -⟩, -⟩ := h
  simpa using htypes

theorem rule_accepted {direction : Direction} {rule : NetworkPolicyRuleInput} (hrule : rule ∈ np.rules direction) :
    ∃ path, validateNetworkPolicyRule path rule direction = [] := by
  have h := np.accepted
  unfold NetworkPolicyInput.validate at h
  simp only [List.append_eq_nil_iff] at h
  obtain ⟨⟨-, hingress⟩, hegress⟩ := h
  cases direction with
  | ingress =>
    obtain ⟨i, hi⟩ := flatMap_zipIdx_eq_nil hingress hrule
    exact ⟨_, hi⟩
  | egress =>
    obtain ⟨i, hi⟩ := flatMap_zipIdx_eq_nil hegress hrule
    exact ⟨_, hi⟩

end AcceptedNetworkPolicy

section

variable {path : String} {rule : NetworkPolicyRuleInput} {direction : Direction}

theorem peer_accepted (h : validateNetworkPolicyRule path rule direction = []) {peer : NetworkPolicyPeerInput}
    (hpeer : peer ∈ rule.peers direction) : ∃ field, validateNetworkPolicyPeer field peer = [] := by
  unfold validateNetworkPolicyRule at h
  simp only [List.append_eq_nil_iff] at h
  obtain ⟨i, hi⟩ := flatMap_zipIdx_eq_nil h.1.2 hpeer
  exact ⟨_, hi⟩

theorem port_accepted (h : validateNetworkPolicyRule path rule direction = []) {port : NetworkPolicyPortInput}
    (hport : port ∈ rule.ports) : port.port ≠ 0 ∧ (port.protocol = "" ∨ port.protocol ∈ validNetworkProtocols) := by
  unfold validateNetworkPolicyRule at h
  simp only [List.append_eq_nil_iff] at h
  obtain ⟨i, hi⟩ := flatMap_zipIdx_eq_nil h.2 hport
  unfold validateNetworkPolicyPort at hi
  simp only [List.append_eq_nil_iff, check_eq_nil] at hi
  obtain ⟨hrange, hprotocol⟩ := hi
  refine ⟨?_, ?_⟩
  · simp only [Bool.or_eq_false_iff, decide_eq_false_iff_not] at hrange
    omega
  · by_cases hempty : port.protocol = ""
    · exact .inl hempty
    · simp only [hempty, ne_eq, not_false_eq_true, decide_true, Bool.true_and, decide_eq_false_iff_not, not_not] at hprotocol
      exact .inr hprotocol

/-- A port that is checked is built as it is stated. -/
theorem covers_iff {ε : Type} {port : NetworkPolicyPortInput} {traffic : Traffic ε} (hport : port.port ≠ 0)
    (hprotocol : port.protocol = "" ∨ port.protocol ∈ validNetworkProtocols) :
    (buildNetworkPolicyPort port).covers traffic ↔ port.states traffic := by
  unfold NetworkPolicyPort.covers NetworkPolicyPortInput.states buildNetworkPolicyPort
  rw [if_neg hport, and_comm]
  refine and_congr (by simp) ?_
  rcases hprotocol with hempty | hvalid
  · rw [if_pos hempty, if_pos hempty]
    rfl
  · simp only [validNetworkProtocols, List.mem_cons, List.not_mem_nil, or_false] at hvalid
    rcases hvalid with h | h | h <;> simp [h]

theorem networkNumber_accepted {field invalid cidr : String} (h : validateCIDR field invalid cidr = []) :
    ∃ network, Net.parseCIDR cidr.toList = some network ∧ ∃ base mask, Net.networkNumberAndMask network = some (base, mask) := by
  unfold validateCIDR at h
  cases hparse : Net.parseCIDR cidr.toList with
  | none =>
    rw [hparse] at h
    exact absurd h (List.cons_ne_nil _ _)
  | some network =>
    rw [hparse] at h
    have htext : network.string = cidr.toList := by simpa [check_eq_nil] using h
    refine ⟨network, rfl, ?_⟩
    cases hnumber : Net.networkNumberAndMask network with
    | none =>
      -- a network without a number has a text that is no network's
      unfold Net.IPNet.string at htext
      rw [hnumber] at htext
      have hcidr : "<nil>".toList = cidr.toList := htext
      have hnone : Net.parseCIDR "<nil>".toList = none := rfl
      rw [← hcidr, hnone] at hparse
      cases hparse
    | some number => exact ⟨number.1, number.2, rfl⟩

theorem exceptsWithin_iff {block : IPBlockInput} (h : validateIPBlock path block = []) :
    IPBlock.ExceptsWithin ⟨block.cidr, block.except⟩ ↔ block.except.all (exceptWithin block.cidr) = true := by
  unfold validateIPBlock at h
  simp only [List.append_eq_nil_iff] at h
  obtain ⟨⟨hcidr, -⟩, hexcepts⟩ := h
  obtain ⟨outer, houter, base, mask, hnumber⟩ := networkNumber_accepted hcidr
  unfold IPBlock.ExceptsWithin
  rw [List.all_eq_true]
  refine forall₂_congr fun except hexcept ↦ ?_
  obtain ⟨j, hj⟩ := flatMap_zipIdx_eq_nil hexcepts hexcept
  obtain ⟨inner, hinner, base', mask', hnumber'⟩ := networkNumber_accepted hj
  unfold exceptWithin
  rw [hinner, houter]
  dsimp only
  rw [Net.properlyWithin_iff hnumber' hnumber]
  constructor
  · rintro ⟨inner', outer', hinner', houter', hsub⟩
    cases hinner'
    cases houter'
    exact hsub
  · intro hsub
    exact ⟨inner, outer, rfl, rfl, hsub⟩

/-- A peer that is checked is one the API takes exactly where it is well-formed. -/
theorem valid_iff {peer : NetworkPolicyPeerInput} (h : validateNetworkPolicyPeer path peer = []) :
    (buildNetworkPolicyPeer peer).Valid ↔ peer.wellFormed = true := by
  unfold validateNetworkPolicyPeer at h
  simp only [List.append_eq_nil_iff] at h
  obtain ⟨-, hblock⟩ := h
  unfold NetworkPolicyPeerInput.wellFormed
  cases hip : peer.ipBlock with
  | none =>
    dsimp only
    constructor
    · intro hvalid
      rcases hvalid.nonempty with hpod | hns | hnone
      · exact Bool.or_eq_true_iff.mpr (.inl hpod)
      · exact Bool.or_eq_true_iff.mpr (.inr hns)
      · simp [buildNetworkPolicyPeer, hip] at hnone
    · intro hselector
      have hnone : (buildNetworkPolicyPeer peer).ipBlock = none := by simp [buildNetworkPolicyPeer, hip]
      refine ⟨?_, fun hsome ↦ ?_, fun block hmem ↦ ?_⟩
      · exact (Bool.or_eq_true_iff.mp hselector).imp id .inl
      · rw [hnone] at hsome
        cases hsome
      · rw [hnone] at hmem
        cases hmem
  | some block =>
    rw [hip] at hblock
    have hbuilt : (buildNetworkPolicyPeer peer).ipBlock = some ⟨block.cidr, block.except⟩ := by
      simp [buildNetworkPolicyPeer, hip]
    dsimp only at hblock ⊢
    rw [Bool.and_eq_true, Bool.and_eq_true, Option.isNone_iff_eq_none, Option.isNone_iff_eq_none,
      ← exceptsWithin_iff hblock]
    constructor
    · intro hvalid
      exact ⟨hvalid.alone (by rw [hbuilt]; rfl), hvalid.within _ hbuilt⟩
    · rintro ⟨halone, hwithin⟩
      refine ⟨.inr (.inr (by rw [hbuilt]; rfl)), fun _ ↦ halone, fun block' hmem ↦ ?_⟩
      rw [hbuilt] at hmem
      cases hmem
      exact hwithin

/-- A rule says no more than the form exactly where peers of the other direction do not stand alone. -/
theorem saysNoMore_iff (h : validateNetworkPolicyRule path rule direction = []) :
    SaysNoMore direction rule (buildRule direction rule) ↔
      (rule.peers direction = [] → rule.peers direction.other = []) := by
  have hboth : (rule.peers direction = [] ∧ rule.peers direction.other = []) ↔ rule.fromPeers = [] ∧ rule.toPeers = [] := by
    cases direction with
    | ingress => exact Iff.rfl
    | egress => exact and_comm
  have hempty : (buildRule direction rule).peers = [] ↔ rule.peers direction = [] := List.map_eq_nil_iff
  constructor
  · intro hrule hnone
    refine (hboth.mpr (hrule.everyone fun ε selects remote ↦ ?_)).2
    cases hports : (buildRule direction rule).ports with
    | nil => exact ⟨0, "", .inl (hempty.mpr hnone), .inl hports⟩
    | cons port ports =>
      refine ⟨port.port.getD 0, port.protocol.getD "TCP", .inl (hempty.mpr hnone), .inr ⟨port, ?_, rfl, ?_⟩⟩
      · rw [hports]
        exact List.mem_cons_self
      · intro n hn
        rw [Option.mem_def.mp hn]
        rfl
  · intro hother
    refine ⟨fun heveryone ↦ hboth.mp ?_, fun ε selects traffic hadmits ↦ ⟨?_, ?_⟩⟩
    · obtain ⟨port, protocol, hpeers, -⟩ := heveryone Unit (fun _ _ ↦ False) ()
      have hnone := hempty.mp (hpeers.resolve_right fun ⟨_, _, hfalse⟩ ↦ hfalse)
      exact ⟨hnone, hother hnone⟩
    · rcases hadmits.1 with hnone | ⟨peer, hpeer, hselects⟩
      · have hnil := hempty.mp hnone
        exact .inl (hboth.mp ⟨hnil, hother hnil⟩)
      · obtain ⟨input, hinput, rfl⟩ := List.mem_map.mp hpeer
        exact .inr ⟨input, hinput, hselects⟩
    · rcases hadmits.2 with hnone | ⟨port, hport, hcovers⟩
      · exact .inl (List.map_eq_nil_iff.mp hnone)
      · obtain ⟨input, hinput, rfl⟩ := List.mem_map.mp hport
        obtain ⟨hnonzero, hprotocol⟩ := port_accepted h hinput
        exact .inr ⟨input, hinput, (covers_iff hnonzero hprotocol).mp hcovers⟩

end

theorem toNetworkPolicy_rules (np : NetworkPolicyInput) (direction : Direction) :
    np.toNetworkPolicy.rules direction = (np.rules direction).map (buildRule direction) := by
  cases direction with
  | ingress => rfl
  | egress => rfl

theorem wellFormed_rules (np : NetworkPolicyInput) :
    np.wellFormed = true ↔ ∀ direction, ∀ rule ∈ np.rules direction, rule.wellFormed direction = true := by
  unfold NetworkPolicyInput.wellFormed
  rw [Bool.and_eq_true, List.all_eq_true, List.all_eq_true]
  constructor
  · rintro ⟨hingress, hegress⟩ direction
    cases direction with
    | ingress => exact hingress
    | egress => exact hegress
  · intro h
    exact ⟨h .ingress, h .egress⟩

theorem inForce_iff (np : AcceptedNetworkPolicy) (direction : Direction) :
    np.toNetworkPolicy.inForce direction = true ↔ direction.policyType ∈ np.policyTypes := by
  have hne : np.toNetworkPolicy.policyTypes ≠ [] := np.policyTypes_ne
  unfold NetworkPolicy.inForce
  rw [if_neg hne, decide_eq_true_eq]
  rfl

/-- The policy of a form is one the API takes and says no more than the form exactly where the form is well-formed. -/
theorem sound_iff_wellFormed (np : AcceptedNetworkPolicy) : np.Sound ↔ np.wellFormed = true := by
  rw [wellFormed_rules]
  have hrule (direction : Direction) (rule : NetworkPolicyRuleInput) (hmem : rule ∈ np.rules direction) :
      rule.wellFormed direction = true ↔ SaysNoMore direction rule (buildRule direction rule) ∧
        ∀ peer ∈ (buildRule direction rule).peers, peer.Valid := by
    obtain ⟨path, haccepted⟩ := np.rule_accepted hmem
    rw [saysNoMore_iff haccepted]
    unfold NetworkPolicyRuleInput.wellFormed
    rw [Bool.and_eq_true, List.all_eq_true]
    refine and_congr ?_ ?_
    · rw [Bool.or_eq_true, decide_eq_true_eq, decide_eq_true_eq, ne_eq, List.length_eq_zero_iff, List.length_eq_zero_iff]
      exact imp_iff_not_or.symm
    · unfold buildRule
      rw [List.forall_mem_map]
      refine forall₂_congr fun peer hpeer ↦ ?_
      obtain ⟨field, hpeerAccepted⟩ := peer_accepted haccepted hpeer
      exact (valid_iff hpeerAccepted).symm
  constructor
  · intro hsound direction rule hmem
    refine (hrule direction rule hmem).mpr ⟨?_, ?_⟩
    · have hrules := hsound.rules direction
      rw [toNetworkPolicy_rules, List.forall₂_map_right_iff, List.forall₂_same] at hrules
      exact hrules rule hmem
    · refine hsound.peers direction _ ?_
      rw [toNetworkPolicy_rules]
      exact List.mem_map_of_mem hmem
  · intro h
    refine ⟨fun direction rule hmem ↦ ?_, fun direction ↦ ?_, fun direction ↦ (inForce_iff np direction).mp⟩
    · rw [toNetworkPolicy_rules] at hmem
      obtain ⟨input, hinput, rfl⟩ := List.mem_map.mp hmem
      exact ((hrule direction input hinput).mp (h direction input hinput)).2
    · rw [toNetworkPolicy_rules, List.forall₂_map_right_iff, List.forall₂_same]
      exact fun rule hmem ↦ ((hrule direction rule hmem).mp (h direction rule hmem)).1

/-- A rule for ingress whose peer was put where those of an egress rule stand. -/
def misplacedPeer : NetworkPolicyInput where
  name := "allow-frontend"
  ns := "default"
  podSelector := ∅
  policyTypes := ["Ingress"]
  ingress := [{ toPeers := [{ podSelector := some ∅ }] }]

/-- The form is accepted, and its policy lets everyone in. -/
theorem not_sound : ¬ ∀ np : AcceptedNetworkPolicy, np.Sound := by
  intro h
  have hsound := h ⟨misplacedPeer, by decide⟩
  have hpair := List.forall₂_cons.mp (hsound.rules .ingress)
  have hnone := (hpair.1.everyone fun ε selects remote ↦ ⟨0, "", .inl rfl, .inl rfl⟩).2
  cases hnone

end KubeCenter.Wizard
