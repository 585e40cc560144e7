import KubeCenter.Core.AddressBlock
import KubeCenter.Wizard.Fields

/-! The form of the network policy wizard, its checks and the policy it becomes. -/

namespace KubeCenter.Wizard

open KubeCenter.Core

def maxNetworkPolicyRules : ℕ := 50

def maxPeersPerRule : ℕ := 20

def maxPortsPerRule : ℕ := 20

def maxExceptCIDRs : ℕ := 10

inductive Direction
  | ingress
  | egress
  deriving DecidableEq

namespace Direction

def policyType : Direction → String
  | .ingress => "Ingress"
  | .egress => "Egress"

def other : Direction → Direction
  | .ingress => .egress
  | .egress => .ingress

/-- The field of a rule with its peers. -/
def peersField : Direction → String
  | .ingress => ".from"
  | .egress => ".to"

end Direction

structure IPBlockInput where
  cidr : String
  except : List String := []

/-- A selector that is there may have no labels. -/
structure NetworkPolicyPeerInput where
  podSelector : Option (GoMap String String) := none
  namespaceSelector : Option (GoMap String String) := none
  ipBlock : Option IPBlockInput := none

structure NetworkPolicyPortInput where
  port : ℤ := 0
  protocol : String := ""

structure NetworkPolicyRuleInput where
  fromPeers : List NetworkPolicyPeerInput := []
  toPeers : List NetworkPolicyPeerInput := []
  ports : List NetworkPolicyPortInput := []

structure NetworkPolicyInput where
  name : String
  ns : String
  podSelector : GoMap String String
  policyTypes : List String
  ingress : List NetworkPolicyRuleInput := []
  egress : List NetworkPolicyRuleInput := []

def NetworkPolicyRuleInput.peers (rule : NetworkPolicyRuleInput) : Direction → List NetworkPolicyPeerInput
  | .ingress => rule.fromPeers
  | .egress => rule.toPeers

def NetworkPolicyInput.rules (np : NetworkPolicyInput) : Direction → List NetworkPolicyRuleInput
  | .ingress => np.ingress
  | .egress => np.egress

/-! The checks. -/

def validPolicyTypes : List String := ["Ingress", "Egress"]

def validNetworkProtocols : List String := ["TCP", "UDP", "SCTP"]

def hostAddress (network : String) : String :=
  String.join ["must be a network address, not a host address (did you mean ", network, "?)"]

/-- A text that is the text of the network it stands for. -/
def validateCIDR (field invalid cidr : String) : List FieldError :=
  match Net.parseCIDR cidr.toList with
  | none => [⟨field, invalid⟩]
  | some network => check (network.string ≠ cidr.toList) field (hostAddress (String.ofList network.string))

def validateIPBlock (path : String) (block : IPBlockInput) : List FieldError :=
  validateCIDR (path ++ ".ipBlock.cidr") "must be a valid CIDR (e.g. 10.0.0.0/8)" block.cidr ++
    check (maxExceptCIDRs < block.except.length) (path ++ ".ipBlock.except") "must have 10 or fewer entries" ++
    block.except.zipIdx.flatMap fun (except, j) ↦
      validateCIDR (element (path ++ ".ipBlock.except") j) "must be a valid CIDR" except

def validateNetworkPolicyPeer (path : String) (peer : NetworkPolicyPeerInput) : List FieldError :=
  (match peer.podSelector with
    | some labels => validateLabelMap (path ++ ".podSelector") labels
    | none => []) ++
  (match peer.namespaceSelector with
    | some labels => validateLabelMap (path ++ ".namespaceSelector") labels
    | none => []) ++
  match peer.ipBlock with
  | some block => validateIPBlock path block
  | none => []

def validateNetworkPolicyPort (path : String) (port : NetworkPolicyPortInput) : List FieldError :=
  check (port.port < 1 || 65535 < port.port) (path ++ ".port") "must be between 1 and 65535" ++
    check (port.protocol ≠ "" && port.protocol ∉ validNetworkProtocols) (path ++ ".protocol") "must be TCP, UDP, or SCTP"

/-- Only the peers of the rule's own direction are looked at. -/
def validateNetworkPolicyRule (path : String) (rule : NetworkPolicyRuleInput) (direction : Direction) :
    List FieldError :=
  let field := path ++ direction.peersField
  check (maxPeersPerRule < (rule.peers direction).length) field "must have 20 or fewer peers" ++
    check (maxPortsPerRule < rule.ports.length) (path ++ ".ports") "must have 20 or fewer ports" ++
    ((rule.peers direction).zipIdx.flatMap fun (peer, i) ↦ validateNetworkPolicyPeer (element field i) peer) ++
    rule.ports.zipIdx.flatMap fun (port, i) ↦ validateNetworkPolicyPort (element (path ++ ".ports") i) port

def NetworkPolicyInput.validate (np : NetworkPolicyInput) : List FieldError :=
  check (!dnsLabelRegex np.name) "name" "must be a valid DNS label (lowercase alphanumeric and hyphens, 1-63 chars)" ++
    (if np.ns = "" then [⟨"namespace", "is required"⟩]
      else check (!dnsLabelRegex np.ns) "namespace" "must be a valid DNS label") ++
    validateLabelMap "podSelector" np.podSelector ++
    check (np.policyTypes.isEmpty) "policyTypes" "at least one policy type is required" ++
    (np.policyTypes.zipIdx.flatMap fun (pt, i) ↦
      check (pt ∉ validPolicyTypes) (element "policyTypes" i) "must be Ingress or Egress") ++
    check (maxNetworkPolicyRules < np.ingress.length) "ingress" "must have 50 or fewer rules" ++
    check (maxNetworkPolicyRules < np.egress.length) "egress" "must have 50 or fewer rules" ++
    (np.ingress.zipIdx.flatMap fun (rule, i) ↦ validateNetworkPolicyRule (element "ingress" i) rule .ingress) ++
    np.egress.zipIdx.flatMap fun (rule, i) ↦ validateNetworkPolicyRule (element "egress" i) rule .egress

/-! The policy. -/

structure IPBlock where
  cidr : String
  except : List String

/-- A selector is its labels. -/
structure NetworkPolicyPeer where
  podSelector : Option (GoMap String String) := none
  namespaceSelector : Option (GoMap String String) := none
  ipBlock : Option IPBlock := none

structure NetworkPolicyPort where
  port : Option ℤ
  protocol : Option String

/-- A rule of either direction; `peers` is its `from` or its `to`. -/
structure NetworkPolicyRule where
  peers : List NetworkPolicyPeer
  ports : List NetworkPolicyPort

structure NetworkPolicy where
  name : String
  ns : String
  podSelector : GoMap String String
  policyTypes : List String
  ingress : List NetworkPolicyRule
  egress : List NetworkPolicyRule

def NetworkPolicy.rules (policy : NetworkPolicy) : Direction → List NetworkPolicyRule
  | .ingress => policy.ingress
  | .egress => policy.egress

def buildNetworkPolicyPeer (peer : NetworkPolicyPeerInput) : NetworkPolicyPeer where
  podSelector := peer.podSelector
  namespaceSelector := peer.namespaceSelector
  ipBlock := peer.ipBlock.map fun block ↦ ⟨block.cidr, block.except⟩

def buildNetworkPolicyPort (port : NetworkPolicyPortInput) : NetworkPolicyPort where
  port := if port.port = 0 then none else some port.port
  protocol :=
    if port.protocol = "" then none
    else if port.protocol = "UDP" then some "UDP"
    else if port.protocol = "SCTP" then some "SCTP"
    else some "TCP"

def buildRule (direction : Direction) (rule : NetworkPolicyRuleInput) : NetworkPolicyRule where
  peers := (rule.peers direction).map buildNetworkPolicyPeer
  ports := rule.ports.map buildNetworkPolicyPort

def NetworkPolicyInput.toNetworkPolicy (np : NetworkPolicyInput) : NetworkPolicy where
  name := np.name
  ns := np.ns
  podSelector := np.podSelector
  policyTypes := np.policyTypes
  ingress := np.ingress.map (buildRule .ingress)
  egress := np.egress.map (buildRule .egress)

end KubeCenter.Wizard
