import KubeCenter.Websocket.Hub

/-! The WebSocket client of a browser tab, with every socket it ever created and the server's side of each. -/

namespace KubeCenter.Websocket.WebClient

open Function

inductive WSStatus
  | connecting
  | connected
  | disconnected
  deriving DecidableEq

/-- `onEvent` has no part in what the client keeps. -/
structure Subscription where
  id : String
  kind : String
  ns : String
  deriving DecidableEq

inductive ReadyState
  | connecting
  | opened
  | closing
  | closed
  deriving DecidableEq

inductive ClientMsg
  | auth
  | subscribe (sub : Subscription)
  | unsubscribe (id : String)
  deriving DecidableEq

inductive ServerMsg
  | authOk
  | event (id eventType : String) (object : Option String)
  | error (id : String) (code : ℕ)
  | subscribed (id : String)
  | resyncRequired (id : String)
  deriving DecidableEq

inductive Phase
  | waitForAuth
  | reading
  | left
  deriving DecidableEq

/-- The server's side of a connection. `held` is what the hub's map has for it, and the two channels hold what the hub
has yet to take of it. -/
structure Conn where
  phase : Phase := .waitForAuth
  addSub : List (SubKey × String) := []
  unsubByID : List String := []
  held : List (SubKey × String) := []

/-- A socket that is not created yet is as good as closed. -/
structure Socket where
  readyState : ReadyState := .closed
  toServer : List ClientMsg := []
  toClient : List ServerMsg := []
  conn : Conn := {}

/-- `ws.close()`. -/
def Socket.close (sock : Socket) : Socket :=
  match sock.readyState with
  | .connecting | .opened => { sock with readyState := .closing }
  | .closing | .closed => sock

/-- A call of a subscriber's `onEvent`. -/
structure Notified where
  id : String
  eventType : String
  object : Option String

/-- The module's variables and the sockets. A reconnect carries the number of the cancellation token it took, and the
tokens before `cancelToken` are canceled; `refreshing` holds the reconnects whose token refresh is under way, and
`onVisible` counts the listeners that wait for the tab to be shown. -/
structure State where
  sockets : ℕ → Socket := fun _ ↦ {}
  created : ℕ := 0
  ws : Option ℕ := none
  reconnectAttempt : ℕ := 0
  reconnectTimer : Option ℕ := none
  subscriptions : List Subscription := []
  authenticated : Bool := false
  cancelToken : ℕ := 0
  status : WSStatus := .disconnected
  refreshing : List ℕ := []
  hidden : Bool := false
  onVisible : ℕ := 0
  notified : List Notified := []

def authFailureCodes : List ℕ := [4001, 4003]

def maxReconnectAttempts : ℕ := 15

def eventRBACDenied := "RBAC_DENIED"
def eventResync := "RESYNC"

/-- `Map.set`: a key that is there keeps its place. -/
def setSubscription (subs : List Subscription) (sub : Subscription) : List Subscription :=
  if sub.id ∈ subs.map Subscription.id then subs.map (fun old ↦ if old.id = sub.id then sub else old)
  else subs ++ [sub]

namespace State

variable (s : State)

def setSocket (k : ℕ) (sock : Socket) : State := { s with sockets := update s.sockets k sock }

def readyState : Option ReadyState := s.ws.map (fun k ↦ (s.sockets k).readyState)

/-- The guard of every message about a subscription. -/
def Ready : Prop := s.readyState = some .opened ∧ s.authenticated = true

instance : Decidable s.Ready := inferInstanceAs (Decidable (_ ∧ _))

/-- `ws.send`: it throws while connecting, and does nothing on a socket that is closing. -/
def send (m : ClientMsg) : State :=
  match s.ws with
  | none => s
  | some k =>
    if (s.sockets k).readyState = .opened then
      s.setSocket k { s.sockets k with toServer := (s.sockets k).toServer ++ [m] }
    else s

def close (k : ℕ) : State := s.setSocket k (s.sockets k).close

def scheduleReconnect : State :=
  if s.reconnectTimer.isSome then s
  else if s.hidden then { s with onVisible := s.onVisible + 1 }
  else { s with reconnectAttempt := s.reconnectAttempt + 1, reconnectTimer := some s.cancelToken }

/-- `constructed` is whether `new WebSocket` returns. -/
def connectWS (constructed : Bool) : State :=
  if s.readyState = some .opened ∨ s.readyState = some .connecting then s
  else
    let s := { s with status := .connecting, authenticated := false }
    if constructed then
      { s.setSocket s.created { readyState := .connecting } with created := s.created + 1, ws := some s.created }
    else s.scheduleReconnect

def sendSubscribe (sub : Subscription) : State := if s.Ready then s.send (.subscribe sub) else s

def notify (id eventType : String) (object : Option String) : State :=
  if id ≠ "" ∧ id ∈ s.subscriptions.map Subscription.id then
    { s with notified := s.notified ++ [⟨id, eventType, object⟩] }
  else s

def handleMessage : ServerMsg → State
  | .authOk =>
    s.subscriptions.foldl sendSubscribe { s with authenticated := true, status := .connected, reconnectAttempt := 0 }
  | .event id eventType object => if eventType ≠ "" ∧ object.isSome then s.notify id eventType object else s
  | .error id code => if code = 403 then s.notify id eventRBACDenied none else s
  | .subscribed _ => s
  | .resyncRequired id => s.notify id eventResync none

/-- The handlers go by `ws`, not by the socket they were set on: `ws!` throws when there is none. -/
def onopen (hasToken : Bool) : State :=
  if hasToken then s.send .auth
  else match s.ws with
    | none => s
    | some k => { s.close k with status := .disconnected }

def onclose (code : ℕ) : State :=
  let s := { s with ws := none, authenticated := false, status := .disconnected }
  if code ∈ authFailureCodes then s
  else if maxReconnectAttempts ≤ s.reconnectAttempt then s
  else s.scheduleReconnect

def subscribe (sub : Subscription) (constructed : Bool) : State :=
  let s := { s with subscriptions := setSubscription s.subscriptions sub }
  (s.connectWS constructed).sendSubscribe sub

/-- The function that `subscribe` returns. -/
def unsubscribe (id : String) : State :=
  let s := { s with subscriptions := s.subscriptions.filter (fun sub ↦ sub.id ≠ id) }
  if s.Ready then s.send (.unsubscribe id) else s

def disconnectWS : State :=
  let s := { s with
    cancelToken := s.cancelToken + 1, reconnectTimer := none, reconnectAttempt := 0, subscriptions := [] }
  let s := match s.ws with
    | none => s
    | some k => { s.close k with ws := none }
  { s with status := .disconnected }

/-- The callback of the reconnect timer, up to its token refresh. -/
def timerFires (token : ℕ) : State :=
  let s := { s with reconnectTimer := none }
  if token < s.cancelToken then s else { s with refreshing := s.refreshing ++ [token] }

/-- The rest of the callback. -/
def refreshed (i token : ℕ) (constructed : Bool) : State :=
  let s := { s with refreshing := s.refreshing.eraseIdx i }
  if token < s.cancelToken then s else s.connectWS constructed

def visibilityChange (hidden : Bool) : State :=
  let n := s.onVisible
  scheduleReconnect^[n] { s with hidden, onVisible := 0 }

end State

namespace Socket

variable (sock : Socket)

def setConn (conn : Conn) : Socket := { sock with conn }

def answer (m : ServerMsg) : Socket := { sock with toClient := sock.toClient ++ [m] }

/-- `ReadPump` reads a message. `refusal` is the code when the token or the subscription is turned down. -/
def serverReads (m : ClientMsg) (rest : List ClientMsg) (refusal : Option ℕ) : Option Socket :=
  let sock := { sock with toServer := rest }
  match sock.conn.phase with
  | .left => none
  | .waitForAuth =>
    if m = .auth ∧ refusal = none then some ((sock.setConn { sock.conn with phase := .reading }).answer .authOk)
    else some (sock.setConn { sock.conn with phase := .left, addSub := [], unsubByID := [], held := [] })
  | .reading =>
    match m with
    | .auth => some (sock.answer (.error "" 400))
    | .subscribe sub =>
      if sub.id = "" ∨ sub.kind = "" then some (sock.answer (.error sub.id 400))
      else match refusal with
        | some code => some (sock.answer (.error sub.id code))
        | none =>
          some ((sock.setConn { sock.conn with
            addSub := sock.conn.addSub ++ [(⟨normalizeKind sub.kind, sub.ns⟩, sub.id)] }).answer (.subscribed sub.id))
    | .unsubscribe id =>
      if id = "" then some (sock.answer (.error id 400))
      else some (sock.setConn { sock.conn with unsubByID := sock.conn.unsubByID ++ [id] })

end Socket

/-- The hub's map as one client sees it: a topic has one subscription. -/
def addTopic (held : List (SubKey × String)) (key : SubKey) (id : String) : List (SubKey × String) :=
  held.filter (fun e ↦ e.1 ≠ key) ++ [(key, id)]

/-- Calls of the module's functions, what its timer and its token refreshes do, events of the sockets, and what the
server does on its side of a socket. The hub drops the first subscription of an ID that it comes across, at `topic`. -/
inductive Act
  | connectWS (constructed : Bool)
  | disconnectWS
  | subscribe (sub : Subscription) (constructed : Bool)
  | unsubscribe (id : String)
  | timerFires
  | refreshed (i : ℕ) (constructed : Bool)
  | visibilityChange (hidden : Bool)
  | opened (k : ℕ) (hasToken : Bool)
  | message (k : ℕ)
  | closed (k : ℕ) (code : ℕ)
  | startsClosing (k : ℕ)
  | serverReads (k : ℕ) (refusal : Option ℕ)
  | serverSends (k : ℕ) (m : ServerMsg)
  | serverLeaves (k : ℕ)
  | hubAdds (k : ℕ)
  | hubRemoves (k : ℕ) (topic : Option SubKey)
  | hubRevokes (k : ℕ) (topic : SubKey)

/-- A browser fires a socket's open event while it is connecting and its message events while it is open; its close event
ends it. -/
def step (s : State) : Act → Option State
  | .connectWS constructed => some (s.connectWS constructed)
  | .disconnectWS => some s.disconnectWS
  | .subscribe sub constructed => some (s.subscribe sub constructed)
  | .unsubscribe id => some (s.unsubscribe id)
  | .timerFires => s.reconnectTimer.map s.timerFires
  | .refreshed i constructed => s.refreshing[i]?.map (fun token ↦ s.refreshed i token constructed)
  | .visibilityChange hidden => some (s.visibilityChange hidden)
  | .opened k hasToken =>
    if (s.sockets k).readyState = .connecting then
      some ((s.setSocket k { s.sockets k with readyState := .opened }).onopen hasToken)
    else none
  | .message k =>
    match (s.sockets k).readyState, (s.sockets k).toClient with
    | .opened, m :: rest => some ((s.setSocket k { s.sockets k with toClient := rest }).handleMessage m)
    | _, _ => none
  | .closed k code =>
    if (s.sockets k).readyState = .closed then none
    else some ((s.setSocket k { s.sockets k with readyState := .closed }).onclose code)
  | .startsClosing k => some (s.close k)
  | .serverReads k refusal =>
    match (s.sockets k).toServer with
    | [] => none
    | m :: rest => ((s.sockets k).serverReads m rest refusal).map (s.setSocket k)
  | .serverSends k m =>
    if (s.sockets k).conn.phase = .reading ∧ m ≠ .authOk then some (s.setSocket k ((s.sockets k).answer m)) else none
  | .serverLeaves k =>
    if k < s.created then some (s.setSocket k ((s.sockets k).setConn { phase := .left })) else none
  | .hubAdds k =>
    match (s.sockets k).conn.addSub with
    | [] => none
    | (key, id) :: rest =>
      some (s.setSocket k ((s.sockets k).setConn { (s.sockets k).conn with
        addSub := rest, held := addTopic (s.sockets k).conn.held key id }))
  | .hubRemoves k topic =>
    match (s.sockets k).conn.unsubByID, topic with
    | [], _ => none
    | id :: rest, some key =>
      if (key, id) ∈ (s.sockets k).conn.held then
        some (s.setSocket k ((s.sockets k).setConn { (s.sockets k).conn with
          unsubByID := rest, held := (s.sockets k).conn.held.filter (fun e ↦ e.1 ≠ key) }))
      else none
    | id :: rest, none =>
      if id ∈ (s.sockets k).conn.held.map Prod.snd then none
      else some (s.setSocket k ((s.sockets k).setConn { (s.sockets k).conn with unsubByID := rest }))
  | .hubRevokes k topic =>
    ((s.sockets k).conn.held.lookup topic).map (fun id ↦
      s.setSocket k (((s.sockets k).setConn { (s.sockets k).conn with
        held := (s.sockets k).conn.held.filter (fun e ↦ e.1 ≠ topic) }).answer (.error id 403)))

end KubeCenter.Websocket.WebClient
