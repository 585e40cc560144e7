import Mathlib.Data.Finset.Card
import Mathlib.Data.Int.Notation
import Mathlib.Logic.Function.Basic
import KubeCenter.Core.Channel
import KubeCenter.Core.GoMap

namespace KubeCenter.Websocket

open KubeCenter.Core Function

/-- `subKey`: the topic of a subscription; an empty namespace means all of them. -/
structure SubKey where
  kind : String
  ns : String
  deriving DecidableEq

/-- An informer event. `object` is its object's JSON text, `none` when it has none. -/
structure ResourceEvent where
  eventType : String
  kind : String
  ns : String
  name : String
  object : Option String

structure IncomingMessage where
  type : String
  id : String := ""
  kind : String := ""
  ns : String := ""

structure OutgoingMessage where
  type : String
  id : String := ""
  eventType : String := ""
  code : ℕ := 0
  message : String := ""
  object : Option String := none
  deriving DecidableEq

def msgTypeSubscribe : String := "subscribe"
def msgTypeUnsubscribe : String := "unsubscribe"
def msgTypeSubscribed : String := "subscribed"
def msgTypeEvent : String := "event"
def msgTypeError : String := "error"
def msgTypeResyncRequired : String := "resync_required"

def maxSubscriptions : ℕ := 25
def sendBufferSize : ℕ := 256

def alwaysAllowKinds (kind : String) : Bool := kind = "alerts" || kind = "notifications"

def kindAliases (kind : String) : Option String :=
  if kind = "pvcs" then some "persistentvolumeclaims"
  else if kind = "pvs" then some "persistentvolumes"
  else if kind = "hpas" then some "horizontalpodautoscalers"
  else if kind = "pdbs" then some "poddisruptionbudgets"
  else none

def normalizeKind (kind : String) : String := (kindAliases kind).getD kind

structure User where
  kubernetesUsername : String
  kubernetesGroups : List String
  deriving DecidableEq

abbrev ClientID := ℕ

/-- Where a client's goroutine stands: `handleWSResources` blocked in `Register`, then
`ReadPump` waiting for the token, reading, about to confirm a subscription, or blocked in
its deferred send on `unregister`. -/
inductive Pump
  | registering
  | waitForAuth
  | reading
  | confirming (id : String)
  | leaving
  | left
  deriving DecidableEq

structure Client where
  send : Chan OutgoingMessage := { cap := sendBufferSize }
  user : Option User := none
  subCount : ℕ := 0
  pump : Pump := .registering

structure SubChange where
  client : ClientID
  key : SubKey
  id : String

structure UnsubRequest where
  client : ClientID
  id : String

/-- The hub with its channels and every client ever created. `accessChecker` says whether
`NewHub` was given one; `crashed` holds the panic that ended the `Run` goroutine. -/
structure Hub where
  clients : Finset ClientID := ∅
  subscriptions : GoMap (SubKey × ClientID) String := ∅
  clientCount : ℤ := 0
  events : Chan ResourceEvent := { cap := 1024 }
  addSub : Chan SubChange := { cap := 256 }
  unsubByID : Chan UnsubRequest := { cap := 256 }
  accessChecker : Bool
  conn : ClientID → Client := fun _ ↦ {}
  stopped : Bool := false
  crashed : Option Panic := none

namespace Hub

variable (h : Hub)

def setConn (c : ClientID) (cl : Client) : Hub := { h with conn := update h.conn c cl }

def setSend (c : ClientID) (ch : Chan OutgoingMessage) : Hub :=
  h.setConn c { h.conn c with send := ch }

def setPump (c : ClientID) (p : Pump) : Hub := h.setConn c { h.conn c with pump := p }

def removeClient (c : ClientID) : Except Panic Hub :=
  if (h.conn c).send.closed then .error .closeOfClosedChannel
  else .ok { h.setSend c (h.conn c).send.close with
    subscriptions := h.subscriptions.filter (fun k ↦ k.2 ≠ c)
    clients := h.clients.erase c
    clientCount := h.clientCount - 1 }

/-- `sendResync`: a client whose buffer is full even for this notice is disconnected. -/
def sendResync (c : ClientID) (subID kind : String) : Except Panic Hub :=
  match (h.conn c).send.trySend { type := msgTypeResyncRequired, id := subID, message := kind } with
  | .sent ch => .ok (h.setSend c ch)
  | .full => h.removeClient c
  | .panic => .error .sendOnClosedChannel

def subscribers (key : SubKey) : List (ClientID × String) :=
  h.subscriptions.entries.filterMap (fun e ↦ if e.1.1 = key then some (e.1.2, e.2) else none)

/-- The targets of an event: the exact topic, then the all-namespaces topic for clients
that the exact one has not named. -/
def targets (event : ResourceEvent) : List (ClientID × String) :=
  let exact := h.subscribers ⟨event.kind, event.ns⟩
  exact ++ (h.subscribers ⟨event.kind, ""⟩).filter (fun t ↦ t.1 ∉ exact.map Prod.fst)

def deliver (event : ResourceEvent) (rawObj : String) (t : ClientID × String) : Except Panic Hub :=
  match (h.conn t.1).send.trySend
      { type := msgTypeEvent, id := t.2, eventType := event.eventType, object := some rawObj } with
  | .sent ch => .ok (h.setSend t.1 ch)
  | .full => h.sendResync t.1 t.2 event.kind
  | .panic => .error .sendOnClosedChannel

def broadcastEvent (event : ResourceEvent) (order : List (ClientID × String)) : Except Panic Hub :=
  match event.object with
  | none => .ok h
  | some rawObj => order.foldlM (fun h t ↦ h.deliver event rawObj t) h

/-- The subscriptions `revalidateSubscriptions` drops: an error of the check (`none`) keeps one. -/
def denied (check : SubKey → User → Option Bool) (key : SubKey × ClientID) : Bool :=
  !alwaysAllowKinds key.1.kind &&
    match (h.conn key.2).user with
    | none => false
    | some user => check key.1 user = some false

def revoke (r : Sigma fun _ : SubKey × ClientID ↦ String) : Except Panic Hub :=
  let h' := { h with subscriptions := h.subscriptions.erase r.1 }
  match (h.conn r.1.2).send.trySend
      { type := msgTypeError, id := r.2, code := 403, message := "subscription revoked: access denied" } with
  | .sent ch => .ok (h'.setSend r.1.2 ch)
  | .full => .ok h'
  | .panic => .error .sendOnClosedChannel

/-- `revalidateSubscriptions`, the subscription maps ranged over in the order `order`. -/
def revalidateSubscriptions (check : SubKey → User → Option Bool)
    (order : List (Sigma fun _ : SubKey × ClientID ↦ String)) : Except Panic Hub :=
  if h.accessChecker then
    (order.filter (fun r ↦ h.denied check r.1)).foldlM (fun h r ↦ h.revoke r) h
  else .ok h

def shutdown : Hub :=
  { h with
    subscriptions := h.subscriptions.filter (fun k ↦ k.2 ∉ h.clients)
    clients := ∅
    clientCount := h.clientCount - h.clients.card
    conn := fun c ↦
      if c ∈ h.clients then { h.conn c with send := (h.conn c).send.close } else h.conn c
    stopped := true }

/-- A panic ends the `Run` goroutine, which has no recover. -/
def settle : Except Panic Hub → Hub
  | .ok h' => h'
  | .error p => { h with crashed := some p }

/-- `sendError`, run by `ReadPump`: its panic on a closed channel is recovered, and the
deferred function goes on to unregister the client. -/
def sendError (c : ClientID) (id : String) (code : ℕ) (message : String) : Hub :=
  match (h.conn c).send.trySend
      { type := msgTypeError, id := id, code := code, message := message } with
  | .sent ch => h.setSend c ch
  | .full => h
  | .panic => h.setPump c .leaving

end Hub

inductive Verdict
  | reject (code : ℕ) (message : String)
  | accept (key : SubKey)
  | panic

/-- `handleSubscribe`. `kindAllowed` is `isAllowedKind`'s answer, `rbac` the access check's
(`none` an error); a nil checker is a nil dereference. -/
def handleSubscribe (cl : Client) (accessChecker : Bool) (msg : IncomingMessage)
    (kindAllowed : Bool) (rbac : Option Bool) : Verdict :=
  if msg.id = "" ∨ msg.kind = "" then .reject 400 "subscribe requires id and kind"
  else if maxSubscriptions ≤ cl.subCount then .reject 429 "too many subscriptions"
  else if !kindAllowed then
    .reject 400 ("subscription to " ++ msg.kind.quote ++ " is not allowed")
  else
    let normalizedKind := normalizeKind msg.kind
    if alwaysAllowKinds normalizedKind then .accept ⟨normalizedKind, msg.ns⟩
    else if !accessChecker then .panic
    else match rbac with
      | none => .reject 500 "RBAC check failed"
      | some false => .reject 403 "subscription denied"
      | some true => .accept ⟨normalizedKind, msg.ns⟩

namespace Hub

variable (h : Hub)

def subscribe (c : ClientID) (msg : IncomingMessage) (kindAllowed : Bool) (rbac : Option Bool) :
    Option Hub :=
  match handleSubscribe (h.conn c) h.accessChecker msg kindAllowed rbac with
  | .reject code message => some (h.sendError c msg.id code message)
  | .panic => some (h.setPump c .leaving)
  | .accept key =>
    match h.addSub.trySend ⟨c, key, msg.id⟩ with
    | .sent ch => some ({ h with addSub := ch }.setConn c
        { h.conn c with subCount := (h.conn c).subCount + 1, pump := .confirming msg.id })
    | _ => none

def confirm (c : ClientID) (id : String) : Hub :=
  match (h.conn c).send.trySend { type := msgTypeSubscribed, id := id } with
  | .sent ch => h.setConn c { h.conn c with send := ch, pump := .reading }
  | .full => h.setPump c .reading
  | .panic => h.setPump c .leaving

def unsubscribe (c : ClientID) (msg : IncomingMessage) : Option Hub :=
  if msg.id = "" then some (h.sendError c msg.id 400 "unsubscribe requires id")
  else match h.unsubByID.trySend ⟨c, msg.id⟩ with
    | .sent ch => some ({ h with unsubByID := ch }.setConn c
        { h.conn c with subCount := (h.conn c).subCount - 1 })
    | _ => none

def readMessage (c : ClientID) (msg : Option IncomingMessage) (kindAllowed : Bool)
    (rbac : Option Bool) : Option Hub :=
  match msg with
  | none => some (h.sendError c "" 400 "invalid message format")
  | some msg =>
    if msg.type = msgTypeSubscribe then h.subscribe c msg kindAllowed rbac
    else if msg.type = msgTypeUnsubscribe then h.unsubscribe c msg
    else some (h.sendError c "" 400 ("unknown message type: " ++ msg.type))

def addSubscription (change : SubChange) : Hub :=
  { h with subscriptions := h.subscriptions.insert (change.key, change.client) change.id }

/-- The `unsubByID` case of `Run`: the range over the map stops at the first topic under
which the client holds the id, so any one of them may be picked. -/
def removeByID (req : UnsubRequest) : Option SubKey → Option Hub
  | some key =>
    if h.subscriptions.lookup (key, req.client) = some req.id then
      some { h with subscriptions := h.subscriptions.erase (key, req.client) }
    else none
  | none =>
    if h.subscriptions.entries.any (fun e ↦ e.1.2 = req.client && e.2 = req.id) then none
    else some h

end Hub

/-- The atomic steps: the cases of the hub's `select`, each of which may be taken whenever it
is ready, and the steps of the client and informer goroutines. -/
inductive Act
  | register (c : ClientID)
  | unregister (c : ClientID)
  | addSub
  | unsubByID (pick : Option SubKey)
  | event (order : List (ClientID × String))
  | tick (check : SubKey → User → Option Bool)
      (order : List (Sigma fun _ : SubKey × ClientID ↦ String))
  | done
  | auth (c : ClientID) (user : Option User) (written : Bool)
  | read (c : ClientID) (msg : Option IncomingMessage) (kindAllowed : Bool) (rbac : Option Bool)
  | confirm (c : ClientID)
  | hangUp (c : ClientID)
  | write (c : ClientID)
  | handleEvent (event : ResourceEvent)

namespace Hub

variable (h : Hub)

def runStep : Act → Option Hub
  | .register c =>
    if (h.conn c).pump = .registering then
      some { h.setPump c .waitForAuth with
        clients := insert c h.clients, clientCount := h.clientCount + 1 }
    else none
  | .unregister c =>
    if (h.conn c).pump = .leaving then
      let h' := h.setPump c .left
      some (if c ∈ h.clients then h'.settle (h'.removeClient c) else h')
    else none
  | .addSub =>
    match h.addSub.buf with
    | change :: rest => some ({ h with addSub := { h.addSub with buf := rest } }.addSubscription change)
    | [] => none
  | .unsubByID pick =>
    match h.unsubByID.buf with
    | req :: rest => { h with unsubByID := { h.unsubByID with buf := rest } }.removeByID req pick
    | [] => none
  | .event order =>
    match h.events.buf with
    | event :: rest =>
      let h' := { h with events := { h.events with buf := rest } }
      if order.Perm (h.targets event) then some (h'.settle (h'.broadcastEvent event order)) else none
    | [] => none
  | .tick check order =>
    if order.Perm h.subscriptions.entries then
      some (h.settle (h.revalidateSubscriptions check order))
    else none
  | .done => some h.shutdown
  | _ => none

def clientStep : Act → Option Hub
  | .auth c user written =>
    if (h.conn c).pump = .waitForAuth then
      some (h.setConn c { h.conn c with
        user := user, pump := if user.isSome && written then .reading else .leaving })
    else none
  | .read c msg kindAllowed rbac =>
    if (h.conn c).pump = .reading then h.readMessage c msg kindAllowed rbac else none
  | .confirm c =>
    match (h.conn c).pump with
    | .confirming id => some (h.confirm c id)
    | _ => none
  | .hangUp c => if (h.conn c).pump = .reading then some (h.setPump c .leaving) else none
  | .write c =>
    match (h.conn c).send.buf with
    | _ :: rest => some (h.setSend c { (h.conn c).send with buf := rest })
    | [] => none
  | .handleEvent event =>
    match h.events.trySend event with
    | .sent ch => some { h with events := ch }
    | _ => some h
  | _ => none

/-- The whole system: nothing runs after a crash, and the hub takes nothing once stopped. -/
def step (a : Act) : Option Hub :=
  if h.crashed.isSome then none
  else match a with
    | .register _ | .unregister _ | .addSub | .unsubByID _ | .event _ | .tick _ _ | .done =>
      if h.stopped then none else h.runStep a
    | _ => h.clientStep a

end Hub

end KubeCenter.Websocket
