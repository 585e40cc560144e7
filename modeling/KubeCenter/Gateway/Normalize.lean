import KubeCenter.Policy.Normalize

/-! The Gateway API objects as the handlers list them, normalized from what the cluster returns. -/

namespace KubeCenter.Gateway

open KubeCenter.Core
open KubeCenter.Policy (nestedSlice nestedStringSlice nestedInt64 getName getNamespace isObject)

def apiGroup : String := "gateway.networking.k8s.io"

structure Condition where
  type : String
  status : String
  reason : String
  message : String
  lastTransitionTime : String
  deriving DecidableEq

/-- The conditions of the gateway are filled in detail views only. -/
structure ParentRef where
  group : String
  kind : String
  name : String
  ns : String
  sectionName : String
  deriving DecidableEq

/-- The age is the creation timestamp. -/
structure RouteSummary where
  kind : String
  name : String
  ns : String
  hostnames : List String
  parentRefs : List ParentRef
  conditions : List Condition
  age : String
  deriving DecidableEq

structure HTTPRouteSummary where
  name : String
  ns : String
  hostnames : List String
  parentRefs : List ParentRef
  backendCount : ℕ
  conditions : List Condition
  age : String
  deriving DecidableEq

structure GatewayClassSummary where
  name : String
  controllerName : String
  description : String
  conditions : List Condition
  age : String
  deriving DecidableEq

structure Listener where
  name : String
  port : ℤ
  protocol : String
  hostname : String
  attachedRouteCount : ℤ := 0
  tlsMode : String := ""
  certificateRef : String := ""
  allowedRoutes : String := ""
  conditions : List Condition := []
  deriving DecidableEq

structure GatewaySummary where
  name : String
  ns : String
  gatewayClassName : String
  listeners : List Listener
  addresses : List String
  attachedRouteCount : ℤ
  conditions : List Condition
  age : String
  deriving DecidableEq

def stringFrom (m : Json) (key : String) : String := m.nestedString [key]

/-- The schemas of the CRDs admit integers alone here. -/
def intFrom (m : Json) (key : String) : ℤ := (nestedInt64 m [key]).getD 0

/-- The items of a slice that are objects; none where there is no slice. -/
def objectsAt (obj : Json) (path : List String) : List Json := ((nestedSlice obj path).getD []).filter isObject

def parseCondition (cm : Json) : Condition where
  type := stringFrom cm "type"
  status := stringFrom cm "status"
  reason := stringFrom cm "reason"
  message := stringFrom cm "message"
  lastTransitionTime := stringFrom cm "lastTransitionTime"

def extractConditions (obj : Json) (path : List String) : List Condition := (objectsAt obj path).map parseCondition

def nonEmptyOr (s default : String) : String := if s = "" then default else s

def parseParentRef (rm : Json) : ParentRef where
  group := nonEmptyOr (stringFrom rm "group") apiGroup
  kind := nonEmptyOr (stringFrom rm "kind") "Gateway"
  name := stringFrom rm "name"
  ns := stringFrom rm "namespace"
  sectionName := stringFrom rm "sectionName"

def extractParentRefs (u : Json) : List ParentRef := (objectsAt u ["spec", "parentRefs"]).map parseParentRef

/-- One turn of the loop over the conditions of all parents: a type with a status is taken once. -/
def takeCondition (acc : List String × List Condition) (c : Condition) : List String × List Condition :=
  if c.type ∈ acc.1 then acc
  else (if c.status = "" then acc.1 else c.type :: acc.1, acc.2 ++ [c])

def aggregateRouteConditions (obj : Json) : List Condition :=
  (((objectsAt obj ["status", "parents"]).flatMap (fun pm ↦ extractConditions pm ["conditions"])).foldl
    takeCondition ([], [])).2

def creationTimestamp (u : Json) : String := u.nestedString ["metadata", "creationTimestamp"]

def normalizeGatewayClass (u : Json) : GatewayClassSummary where
  name := getName u
  controllerName := u.nestedString ["spec", "controllerName"]
  description := u.nestedString ["spec", "description"]
  conditions := extractConditions u ["status", "conditions"]
  age := creationTimestamp u

section Listeners

def stringifyAllowedRoutes (ar : Json) : String :=
  let kinds := (objectsAt ar ["kinds"]).map (fun km ↦
    let group := stringFrom km "group"
    if group ≠ "" ∧ group ≠ apiGroup then group ++ "/" ++ stringFrom km "kind" else stringFrom km "kind")
  let source := ar.nestedString ["namespaces", "from"]
  ", ".intercalate (kinds.filter (· ≠ "") ++ if source = "" then [] else ["from:" ++ source])

/-- The first certificate of a listener, with its namespace if it names one. -/
def certificateRef (lm : Json) : String :=
  match ((nestedSlice lm ["tls", "certificateRefs"]).getD []).head? with
  | some cr =>
    if stringFrom cr "namespace" = "" then stringFrom cr "name"
    else stringFrom cr "namespace" ++ "/" ++ stringFrom cr "name"
  | none => ""

def parseListener (detail : Bool) (lm : Json) : Listener :=
  let l : Listener :=
    { name := stringFrom lm "name"
      port := intFrom lm "port"
      protocol := stringFrom lm "protocol"
      hostname := stringFrom lm "hostname" }
  if detail then
    { l with
      tlsMode := lm.nestedString ["tls", "mode"]
      certificateRef := certificateRef lm
      allowedRoutes := ((lm.nested ["allowedRoutes"]).map stringifyAllowedRoutes).getD "" }
  else l

/-- A listener's status goes to the first listener of its name. -/
def mergeStatus (detail : Bool) (slm : Json) : List Listener → List Listener
  | [] => []
  | l :: ls =>
    if l.name = stringFrom slm "name" then
      { l with
        attachedRouteCount := intFrom slm "attachedRoutes"
        conditions := if detail then extractConditions slm ["conditions"] else l.conditions } :: ls
    else l :: mergeStatus detail slm ls

def parseListeners (obj : Json) (detail : Bool) : List Listener × ℤ :=
  let listeners := (objectsAt obj ["spec", "listeners"]).map (parseListener detail)
  (objectsAt obj ["status", "listeners"]).foldl (fun acc slm ↦
    (mergeStatus detail slm acc.1, acc.2 + intFrom slm "attachedRoutes")) (listeners, 0)

end Listeners

def parseAddresses (obj : Json) : List String :=
  ((objectsAt obj ["status", "addresses"]).map (stringFrom · "value")).filter (· ≠ "")

/-- `normalizeGateway`, and with detail what `normalizeGatewayDetail` embeds. -/
def gatewaySummary (detail : Bool) (u : Json) : GatewaySummary where
  name := getName u
  ns := getNamespace u
  gatewayClassName := u.nestedString ["spec", "gatewayClassName"]
  listeners := (parseListeners u detail).1
  addresses := parseAddresses u
  attachedRouteCount := (parseListeners u detail).2
  conditions := extractConditions u ["status", "conditions"]
  age := creationTimestamp u

def normalizeGateway : Json → GatewaySummary := gatewaySummary false

def normalizeHTTPRoute (u : Json) : HTTPRouteSummary where
  name := getName u
  ns := getNamespace u
  hostnames := nestedStringSlice u ["spec", "hostnames"]
  parentRefs := extractParentRefs u
  backendCount := (objectsAt u ["spec", "rules"]).foldl (fun n rm ↦
    n + ((nestedSlice rm ["backendRefs"]).getD []).length) 0
  conditions := aggregateRouteConditions u
  age := creationTimestamp u

def normalizeRoute (kind : String) (u : Json) : RouteSummary where
  kind := kind
  name := getName u
  ns := getNamespace u
  hostnames := nestedStringSlice u ["spec", "hostnames"]
  parentRefs := extractParentRefs u
  conditions := aggregateRouteConditions u
  age := creationTimestamp u

end KubeCenter.Gateway
