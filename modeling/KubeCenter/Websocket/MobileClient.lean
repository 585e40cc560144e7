import Mathlib.Algebra.Group.Nat.Defs
import KubeCenter.Core.GoJson
import KubeCenter.Core.GoString
import KubeCenter.Core.Runs

/-! The WebSocket client of the mobile app, with every channel it ever opened. -/

namespace KubeCenter.Websocket.MobileClient

open KubeCenter.Core Function

inductive WebSocketState
  | connecting
  | opened
  | reconnecting
  | closed
  | failed
  deriving DecidableEq

/-- What a client is built with, durations in milliseconds. `badUrl` is the message `_wsUrl` throws with, `refresher`
whether a `refreshAccessToken` is wired; a backoff that starts above its maximum is one that `clamp` refuses. -/
structure Config where
  badUrl : Option String := none
  subscribeMessage : Option Json := none
  refresher : Bool := false
  initialBackoff : ℕ := 1000
  maxBackoff : ℕ := 30000
  ordered : initialBackoff ≤ maxBackoff := by decide
  maxRetries : ℤ := -1
  toLowerCase : String → String

inductive ClientMsg
  | auth (token : String)
  | payload (j : Json)

/-- `listened` is whether the client's subscription of the stream still delivers. -/
structure Channel where
  sent : List ClientMsg := []
  listened : Bool := false
  sinkClosed : Bool := false

inductive Message
  | data (j : Json)
  | error (message : String)

/-- Where `close` stands, which waits for the subscription, the sink and both streams in turn. -/
inductive Closing
  | idle
  | cancelling
  | closingSink
  | closingMessages
  deriving DecidableEq

/-- How an attempt to connect goes, once there is a token. -/
inductive Dial
  | factoryThrows
  | sinkThrows (sent : ℕ)
  | opens

/-- `refreshing` counts the reconnects that wait for a token, `messages` and `states` are what the two streams got, and
`misuse` is an event for a stream that was closed. `delays` is history: the waits since a channel was opened. -/
structure State where
  config : Config
  accessToken : Option String
  channels : ℕ → Channel := fun _ ↦ {}
  created : ℕ := 0
  channel : Option ℕ := none
  channelSub : Option ℕ := none
  reconnectTimer : Option ℕ := none
  refreshing : ℕ := 0
  backoff : ℕ := config.initialBackoff
  retryCount : ℕ := 0
  closed : Bool := false
  closing : Closing := .idle
  messages : List Message := []
  messagesClosed : Bool := false
  states : List WebSocketState := []
  stateClosed : Bool := false
  misuse : Bool := false
  delays : List ℕ := []

namespace State

variable (s : State)

def setChannel (k : ℕ) (ch : Channel) : State := { s with channels := update s.channels k ch }

/-- `_state.add`. -/
def addState (st : WebSocketState) : State :=
  if s.stateClosed then { s with misuse := true } else { s with states := s.states ++ [st] }

/-- `_messages.add` and `_messages.addError`. -/
def addMessage (m : Message) : State :=
  if s.messagesClosed then { s with misuse := true } else { s with messages := s.messages ++ [m] }

/-- `_channelSub?.cancel()`. -/
def cancelSub : State :=
  match s.channelSub with
  | some k => s.setChannel k { s.channels k with listened := false }
  | none => s

/-- `_channel?.sink.close()`. -/
def closeSink : State :=
  match s.channel with
  | some k => s.setChannel k { s.channels k with sinkClosed := true }
  | none => s

def drop : State := { s.cancelSub.closeSink with channel := none }

/-- `_scheduleReconnect`. -/
def scheduleReconnect : State :=
  let s := s.drop
  if s.closed then s
  else if 0 ≤ s.config.maxRetries ∧ s.config.maxRetries ≤ s.retryCount then s.addState .failed
  else
    let s := s.addState .reconnecting
    { s with
      retryCount := s.retryCount + 1
      backoff := max s.config.initialBackoff (min s.config.maxBackoff (s.backoff * 2))
      reconnectTimer := some s.backoff
      delays := s.delays ++ [s.backoff] }

/-- `_emitFatal`. -/
def emitFatal (message : String) : State :=
  let s := (s.drop.addState .failed).addMessage (.error message)
  { s with closed := true, messagesClosed := true, stateClosed := true }

/-- `_channel` is a new channel that was sent `sent`. -/
def openChannel (sent : List ClientMsg) : State :=
  { s.setChannel s.created { sent } with created := s.created + 1, channel := some s.created }

/-- `channel.stream.listen`. -/
def listen (k : ℕ) : State :=
  { s.setChannel k { s.channels k with listened := true } with channelSub := some k }

def handshake (token : String) : List ClientMsg :=
  .auth token :: (s.config.subscribeMessage.map ClientMsg.payload).toList

/-- `_connect`. The channel of the default factory has still to be connected when it is returned. -/
def connect (dial : Dial) : State :=
  if s.closed then s
  else
    let s := s.addState (if s.retryCount = 0 then .connecting else .reconnecting)
    match s.config.badUrl with
    | some e => s.emitFatal ("invalid backend URL: " ++ e)
    | none =>
      match s.accessToken with
      | none => s.emitFatal "no access token"
      | some token =>
        match dial with
        | .factoryThrows => s.scheduleReconnect
        | .sinkThrows n => (s.openChannel ((s.handshake token).take n)).scheduleReconnect
        | .opens =>
          let s := (s.openChannel (s.handshake token)).addState .opened
          { s with retryCount := 0, backoff := s.config.initialBackoff, delays := [] }.listen (s.created - 1)

def isFatal (message : String) : Bool :=
  ["auth", "token", "permission"].any (hasInfix · (s.config.toLowerCase message))

/-- `_onData`; a frame that is no JSON object is dropped, and so is an error whose message is not a string. -/
def onData : Option Json → State
  | some (.object fields) =>
    match Fields.get "type" fields, Fields.get "message" fields with
    | some (.string "error"), some (.string message) =>
      if s.isFatal message then s.emitFatal message else s.addMessage (.data (.object fields))
    | some (.string "error"), some .null | some (.string "error"), none =>
      if s.isFatal "unknown error" then s.emitFatal "unknown error" else s.addMessage (.data (.object fields))
    | some (.string "error"), some _ => s
    | _, _ => s.addMessage (.data (.object fields))
  | _ => s

/-- `close`, as far as its first wait. -/
def beginClose : State :=
  if s.closed then s
  else { ({ s with closed := true, reconnectTimer := none } : State).cancelSub with closing := .cancelling }

/-- One wait of `close` is over. -/
def resumeClose : Option State :=
  match s.closing with
  | .idle => none
  | .cancelling => some { s.closeSink with closing := .closingSink }
  | .closingSink => some { s.addState .closed with messagesClosed := true, closing := .closingMessages }
  | .closingMessages => some { s with stateClosed := true, closing := .idle }

def send (j : Json) : State :=
  match s.channel with
  | none => s
  | some k => s.setChannel k { s.channels k with sent := (s.channels k).sent ++ [.payload j] }

end State

/-- `data`, `error` and `done` are events of a channel's stream, `refreshed` ends the wait for a token, well or not. -/
inductive Act
  | token (t : Option String)
  | data (k : ℕ) (frame : Option Json)
  | error (k : ℕ)
  | done (k : ℕ)
  | timer (dial : Dial)
  | refreshed (dial : Dial)
  | send (j : Json)
  | close
  | resumeClose

def step (s : State) : Act → Option State
  | .token t => some { s with accessToken := t }
  | .data k frame => if (s.channels k).listened then some (s.onData frame) else none
  | .error k => if (s.channels k).listened then some s.scheduleReconnect else none
  | .done k =>
    if (s.channels k).listened then some (if s.closed then s else s.scheduleReconnect) else none
  | .timer dial =>
    if s.reconnectTimer.isSome then
      let s := { s with reconnectTimer := none }
      some (if s.closed then s
        else if s.config.refresher then { s with refreshing := s.refreshing + 1 }
        else s.connect dial)
    else none
  | .refreshed dial =>
    if 0 < s.refreshing then some ({ s with refreshing := s.refreshing - 1 }.connect dial) else none
  | .send j => some (s.send j)
  | .close => some s.beginClose
  | .resumeClose => s.resumeClose

/-- The constructor. -/
def start (config : Config) (accessToken : Option String) (dial : Dial) : State :=
  ({ config, accessToken } : State).connect dial

/-- The `n`th wait on the backoff curve. -/
def Config.wait (c : Config) (n : ℕ) : ℕ := min c.maxBackoff (c.initialBackoff * 2 ^ n)

/-- The waits since a channel was opened go up the curve from its start, one step at a time. -/
structure Curve (s : State) : Prop where
  delays : s.delays = (List.range s.retryCount).map s.config.wait
  backoff : s.backoff = s.config.wait s.retryCount

theorem Config.wait_zero (c : Config) : c.wait 0 = c.initialBackoff := by
  rw [Config.wait, Nat.pow_zero, Nat.mul_one]
  exact min_eq_right c.ordered

theorem Config.wait_succ (c : Config) (n : ℕ) :
    max c.initialBackoff (min c.maxBackoff (c.wait n * 2)) = c.wait (n + 1) := by
  have hle : c.initialBackoff ≤ c.initialBackoff * 2 ^ n := Nat.le_mul_of_pos_right _ (Nat.two_pow_pos n)
  have hordered := c.ordered
  simp only [Config.wait, Nat.pow_succ, ← Nat.mul_assoc]
  omega

/-- Both streams are open, and `close` was not called. -/
structure Running (s : State) : Prop where
  misuse : s.misuse = false
  closed : s.closed = false
  closing : s.closing = .idle
  messagesClosed : s.messagesClosed = false
  stateClosed : s.stateClosed = false

/-- What the client holds on to is all that there is: `drop` leaves no channel behind. -/
structure Kept (s : State) : Prop where
  fresh : ∀ k, s.created ≤ k → s.channels k = {}
  created : ∀ k, s.channel = some k → k < s.created
  listened : ∀ k, (s.channels k).listened = true → s.channelSub = some k
  sinks : ∀ k, k < s.created → s.channel ≠ some k → (s.channels k).sinkClosed = true

def Shut (s : State) : Prop := ∀ k, k < s.created → (s.channels k).sinkClosed = true

/-- Every channel ever opened is closed, and nothing of it is heard. -/
structure Quiet (s : State) : Prop where
  channel : s.channel = none
  fresh : ∀ k, s.created ≤ k → s.channels k = {}
  deaf : ∀ k, (s.channels k).listened = false
  shut : Shut s

/-- Channel `k` is open and heard, and no other. -/
structure Live (s : State) (k : ℕ) : Prop where
  channel : s.channel = some k
  channelSub : s.channelSub = some k
  fresh : ∀ j, s.created ≤ j → s.channels j = {}
  created : k < s.created
  opened : (s.channels k).listened = true ∧ (s.channels k).sinkClosed = false
  others : ∀ j, j ≠ k → (s.channels j).listened = false ∧ (j < s.created → (s.channels j).sinkClosed = true)

variable {s t : State} {k : ℕ}

theorem setChannel_self (s : State) (k : ℕ) (ch : Channel) : (s.setChannel k ch).channels k = ch := update_self ..

theorem setChannel_ne {j : ℕ} (ch : Channel) (h : j ≠ k) : (s.setChannel k ch).channels j = s.channels j :=
  update_of_ne h ..

theorem Quiet.kept (h : Quiet s) : Kept s where
  fresh := h.fresh
  created k hk := by
    rw [h.channel] at hk
    cases hk
  listened k hk := absurd ((h.deaf k).symm.trans hk) Bool.false_ne_true
  sinks k hk _ := h.shut k hk

theorem Live.kept (h : Live s k) : Kept s where
  fresh := h.fresh
  created j hj := Option.some.inj (h.channel.symm.trans hj) ▸ h.created
  listened j hj := by
    by_cases hjk : j = k
    · rw [hjk]
      exact h.channelSub
    · exact absurd ((h.others j hjk).1.symm.trans hj) Bool.false_ne_true
  sinks j hj hchannel := (h.others j (fun hjk ↦ hchannel (hjk ▸ h.channel))).2 hj

theorem cancelSub_eq (s : State) : s.cancelSub = { s with channels := s.cancelSub.channels } := by
  unfold State.cancelSub
  split <;> rfl

theorem closeSink_eq (s : State) : s.closeSink = { s with channels := s.closeSink.channels } := by
  unfold State.closeSink
  split <;> rfl

theorem closeSink_channels (s : State) (j : ℕ) : s.closeSink.channels j =
    if s.channel = some j then { s.channels j with sinkClosed := true } else s.channels j := by
  unfold State.closeSink
  split
  · next i hi =>
    by_cases hij : j = i
    · subst hij
      rw [if_pos hi, setChannel_self]
    · rw [if_neg (fun hj ↦ hij (Option.some.inj (hj.symm.trans hi))), setChannel_ne _ hij]
  · next hi => rw [if_neg (by simp [hi])]

theorem Kept.cancelSub_channels (h : Kept s) (j : ℕ) :
    s.cancelSub.channels j = { s.channels j with listened := false } := by
  have hdeaf (hj : s.channelSub ≠ some j) : s.channels j = { s.channels j with listened := false } := by
    have hfalse : (s.channels j).listened = false := Bool.eq_false_iff.mpr (fun hl ↦ hj (h.listened j hl))
    rw [← hfalse]
  unfold State.cancelSub
  split
  · next i hi =>
    by_cases hji : j = i
    · subst hji
      exact setChannel_self ..
    · exact (setChannel_ne _ hji).trans (hdeaf (fun hj ↦ hji (Option.some.inj (hj.symm.trans hi))))
  · next hi => exact hdeaf (by simp [hi])

theorem Kept.cancelSub (h : Kept s) : Kept s.cancelSub := by
  have hchannels := h.cancelSub_channels
  rw [cancelSub_eq]
  constructor
  · intro j hj
    rw [hchannels, h.fresh j hj]
  · exact h.created
  · intro j hj
    rw [hchannels] at hj
    cases hj
  · intro j hj hchannel
    rw [hchannels]
    exact h.sinks j hj hchannel

/-- Closing the sink of the current channel leaves none open. -/
theorem Kept.shut_closeSink (h : Kept s) : Shut s.closeSink := by
  intro j hj
  rw [closeSink_channels]
  split
  · rfl
  · next hchannel => exact h.sinks j (by rwa [closeSink_eq] at hj) hchannel

theorem Kept.quiet_drop (h : Kept s) : Quiet s.drop := by
  have hkept := h.cancelSub
  have hshut := hkept.shut_closeSink
  have hchannels (j : ℕ) : s.drop.channels j = s.cancelSub.closeSink.channels j := rfl
  have hcreated : s.drop.created = s.cancelSub.created := by
    show s.cancelSub.closeSink.created = _
    rw [closeSink_eq]
  constructor
  · rfl
  · intro j hj
    rw [hcreated] at hj
    have hchannel : s.cancelSub.channel ≠ some j := fun hc ↦ absurd (hkept.created j hc) (Nat.not_lt.mpr hj)
    rw [hchannels, closeSink_channels, if_neg hchannel, hkept.fresh j hj]
  · intro j
    rw [hchannels, closeSink_channels]
    split <;> rw [h.cancelSub_channels]
  · exact hshut

theorem drop_eq (s : State) : s.drop = { s with channels := s.drop.channels, channel := none } := by
  unfold State.drop State.closeSink State.cancelSub
  split <;> split <;> rfl

theorem addState_open (h : s.stateClosed = false) (st : WebSocketState) :
    s.addState st = { s with states := s.states ++ [st] } := by
  rw [State.addState, if_neg (by rw [h]; exact Bool.false_ne_true)]

theorem addMessage_open (h : s.messagesClosed = false) (m : Message) :
    s.addMessage m = { s with messages := s.messages ++ [m] } := by
  rw [State.addMessage, if_neg (by rw [h]; exact Bool.false_ne_true)]

/-- `maxRetries` waits did not lead to a channel. -/
structure GaveUp (s : State) : Prop where
  bounded : 0 ≤ s.config.maxRetries
  exhausted : s.config.maxRetries ≤ s.retryCount
  told : s.states.getLast? = some .failed

/-- How far `close` has come; a client that failed is where `close` ends. -/
def Stage (s : State) : Prop :=
  match s.closing with
  | .cancelling => s.messagesClosed = false ∧ s.stateClosed = false ∧ Kept s
  | .closingSink => s.messagesClosed = false ∧ s.stateClosed = false ∧ Shut s
  | .closingMessages => s.messagesClosed = true ∧ s.stateClosed = false ∧ Shut s
  | .idle => s.messagesClosed = true ∧ s.stateClosed = true ∧ Shut s

/-- What the client is about: one thing at a time. -/
inductive Mode (s : State) : Prop
  | live (k : ℕ) (running : Running s) (live : Live s k) (timer : s.reconnectTimer = none)
      (refreshing : s.refreshing = 0) (retryCount : s.retryCount = 0)
  | pending (running : Running s) (quiet : Quiet s)
      (pending : s.reconnectTimer.isSome ∧ s.refreshing = 0 ∨ s.reconnectTimer = none ∧ s.refreshing = 1)
  | gaveUp (running : Running s) (quiet : Quiet s) (timer : s.reconnectTimer = none) (refreshing : s.refreshing = 0)
      (gaveUp : GaveUp s)
  | ended (misuse : s.misuse = false) (closed : s.closed = true) (timer : s.reconnectTimer = none)
      (deaf : ∀ k, (s.channels k).listened = false) (stage : Stage s)

structure Inv (s : State) : Prop where
  curve : Curve s
  mode : Mode s

theorem Inv.scheduleReconnect (hrunning : Running s) (hcurve : Curve s) (hkept : Kept s)
    (htimer : s.reconnectTimer = none) (hrefreshing : s.refreshing = 0) : Inv s.scheduleReconnect := by
  have hquiet := hkept.quiet_drop
  unfold State.scheduleReconnect
  rw [drop_eq] at hquiet ⊢
  generalize s.drop.channels = channels at hquiet ⊢
  dsimp only
  rw [if_neg (by rw [hrunning.closed]; exact Bool.false_ne_true)]
  split
  · next hexhausted =>
    rw [addState_open (s := { s with channels := channels, channel := none }) hrunning.stateClosed]
    refine ⟨⟨hcurve.delays, hcurve.backoff⟩, .gaveUp { hrunning with } { hquiet with } htimer hrefreshing ?_⟩
    exact ⟨hexhausted.1, hexhausted.2, List.getLast?_concat⟩
  · rw [addState_open (s := { s with channels := channels, channel := none }) hrunning.stateClosed]
    refine ⟨⟨?_, ?_⟩, .pending { hrunning with } { hquiet with } (.inl ⟨rfl, hrefreshing⟩)⟩
    · show s.delays ++ [s.backoff] = _
      rw [List.range_succ, List.map_append, hcurve.delays, hcurve.backoff]
      rfl
    · show max _ (min _ (s.backoff * 2)) = _
      rw [hcurve.backoff]
      exact s.config.wait_succ s.retryCount

theorem Stage.of_idle (h : s.closing = .idle) (hmessages : s.messagesClosed = true) (hstate : s.stateClosed = true)
    (hshut : Shut s) : Stage s := by
  rw [Stage, h]
  exact ⟨hmessages, hstate, hshut⟩

theorem Inv.emitFatal (hrunning : Running s) (hcurve : Curve s) (hkept : Kept s) (htimer : s.reconnectTimer = none)
    (message : String) : Inv (s.emitFatal message) := by
  have hquiet := hkept.quiet_drop
  unfold State.emitFatal
  rw [drop_eq] at hquiet ⊢
  generalize s.drop.channels = channels at hquiet ⊢
  rw [addState_open (s := { s with channels := channels, channel := none }) hrunning.stateClosed, addMessage_open]
  · refine ⟨⟨hcurve.delays, hcurve.backoff⟩, .ended hrunning.misuse rfl htimer hquiet.deaf ?_⟩
    exact .of_idle hrunning.closing rfl rfl hquiet.shut
  · exact hrunning.messagesClosed

theorem Quiet.openChannel (h : Quiet s) (sent : List ClientMsg) : Kept (s.openChannel sent) where
  fresh j hj := (setChannel_ne _ (Nat.ne_of_gt hj)).trans (h.fresh j (Nat.le_of_succ_le hj))
  created j hj := Option.some.inj hj ▸ Nat.lt_succ_self _
  listened j hj := by
    change ((s.setChannel s.created { sent }).channels j).listened = true at hj
    by_cases hjk : j = s.created
    · rw [hjk, setChannel_self] at hj
      cases hj
    · rw [setChannel_ne _ hjk, h.deaf] at hj
      cases hj
  sinks j hj hchannel := by
    have hjk : j ≠ s.created := fun hjk ↦ hchannel (hjk ▸ rfl)
    show ((s.setChannel s.created { sent }).channels j).sinkClosed = true
    rw [setChannel_ne _ hjk]
    exact h.shut j (Nat.lt_of_le_of_ne (Nat.le_of_lt_succ hj) hjk)

theorem Quiet.live (h : Quiet s) (sent : List ClientMsg) :
    Live ((s.openChannel sent).listen s.created) s.created := by
  have hchannels (j : ℕ) (hj : j ≠ s.created) :
      ((s.openChannel sent).listen s.created).channels j = s.channels j :=
    (setChannel_ne _ hj).trans (setChannel_ne _ hj)
  have hself : ((s.openChannel sent).listen s.created).channels s.created = { sent, listened := true } := by
    refine (setChannel_self ..).trans ?_
    rw [show (s.openChannel sent).channels s.created = { sent } from setChannel_self ..]
  refine ⟨rfl, rfl, fun j hj ↦ ?_, Nat.lt_succ_self _, ?_, fun j hj ↦ ?_⟩
  · rw [hchannels j (Nat.ne_of_gt hj)]
    exact h.fresh j (Nat.le_of_succ_le hj)
  · rw [hself]
    exact ⟨rfl, rfl⟩
  · rw [hchannels j hj]
    exact ⟨h.deaf j, fun hlt ↦ h.shut j (Nat.lt_of_le_of_ne (Nat.le_of_lt_succ hlt) hj)⟩

theorem Inv.connect (hrunning : Running s) (hcurve : Curve s) (hquiet : Quiet s) (htimer : s.reconnectTimer = none)
    (hrefreshing : s.refreshing = 0) (dial : Dial) : Inv (s.connect dial) := by
  unfold State.connect
  rw [if_neg (by rw [hrunning.closed]; exact Bool.false_ne_true)]
  generalize (if s.retryCount = 0 then WebSocketState.connecting else .reconnecting) = st
  rw [addState_open hrunning.stateClosed]
  obtain ⟨s', hs', hrunning', hcurve', hquiet', htimer', hrefreshing'⟩ : ∃ s' : State,
      { s with states := s.states ++ [st] } = s' ∧ Running s' ∧ Curve s' ∧ Quiet s' ∧ s'.reconnectTimer = none ∧
        s'.refreshing = 0 :=
    ⟨_, rfl, { hrunning with }, ⟨hcurve.delays, hcurve.backoff⟩, { hquiet with }, htimer, hrefreshing⟩
  rw [hs']
  dsimp only
  split
  · exact .emitFatal hrunning' hcurve' hquiet'.kept htimer' _
  · split
    · exact .emitFatal hrunning' hcurve' hquiet'.kept htimer' _
    · split
      · exact .scheduleReconnect hrunning' hcurve' hquiet'.kept htimer' hrefreshing'
      · exact .scheduleReconnect { hrunning' with } ⟨hcurve'.delays, hcurve'.backoff⟩ (hquiet'.openChannel _) htimer'
          hrefreshing'
      · rw [addState_open (s := s'.openChannel _) hrunning'.stateClosed]
        refine ⟨⟨rfl, s'.config.wait_zero.symm⟩, ?_⟩
        exact .live s'.created { hrunning' with } { hquiet'.live _ with } htimer' hrefreshing' rfl

theorem Inv.onData (h : Inv s) (hk : Live s k) (hrunning : Running s) (htimer : s.reconnectTimer = none)
    (hrefreshing : s.refreshing = 0) (hretry : s.retryCount = 0) (frame : Option Json) : Inv (s.onData frame) := by
  have hfatal (m : String) : Inv (s.emitFatal m) := .emitFatal hrunning h.curve hk.kept htimer m
  have hmessage (m : Message) : Inv (s.addMessage m) := by
    rw [addMessage_open hrunning.messagesClosed]
    exact ⟨⟨h.curve.delays, h.curve.backoff⟩, .live k { hrunning with } { hk with } htimer hrefreshing hretry⟩
  unfold State.onData
  split
  · split
    · split
      · exact hfatal _
      · exact hmessage _
    · split
      · exact hfatal _
      · exact hmessage _
    · split
      · exact hfatal _
      · exact hmessage _
    · exact h
    · exact hmessage _
  · exact h

theorem Inv.live_of_listened (h : Inv s) (hk : (s.channels k).listened = true) :
    Running s ∧ Live s k ∧ s.reconnectTimer = none ∧ s.refreshing = 0 ∧ s.retryCount = 0 := by
  cases h.mode with
  | live j running live timer refreshing retryCount =>
    obtain rfl : j = k := Option.some.inj (live.channelSub.symm.trans (live.kept.listened k hk))
    exact ⟨running, live, timer, refreshing, retryCount⟩
  | pending _ quiet => exact absurd ((quiet.deaf k).symm.trans hk) Bool.false_ne_true
  | gaveUp _ quiet => exact absurd ((quiet.deaf k).symm.trans hk) Bool.false_ne_true
  | ended _ _ _ deaf => exact absurd ((deaf k).symm.trans hk) Bool.false_ne_true

theorem Running.notClosed (h : Running s) : ¬ s.closed = true := by
  rw [h.closed]
  exact Bool.false_ne_true

theorem Inv.running (h : Inv s) (hc : ¬ s.closed = true) : Running s ∧ Kept s := by
  cases h.mode with
  | live k running live => exact ⟨running, live.kept⟩
  | pending running quiet | gaveUp running quiet => exact ⟨running, quiet.kept⟩
  | ended _ closed => exact absurd closed hc

theorem Inv.beginClose (h : Inv s) : Inv s.beginClose := by
  unfold State.beginClose
  split
  · exact h
  · next hc =>
    obtain ⟨hrunning, hkept⟩ := h.running hc
    obtain ⟨s', hs', hkept', hcurve'⟩ : ∃ s' : State, { s with closed := true, reconnectTimer := none } = s' ∧
        Kept s' ∧ Curve s' := ⟨_, rfl, { hkept with }, ⟨h.curve.delays, h.curve.backoff⟩⟩
    have hdeaf (k : ℕ) : (s'.cancelSub.channels k).listened = false := by rw [hkept'.cancelSub_channels]
    have hkept := hkept'.cancelSub
    rw [hs']
    rw [cancelSub_eq] at hdeaf hkept ⊢
    refine ⟨⟨hcurve'.delays, hcurve'.backoff⟩, .ended ?_ ?_ ?_ hdeaf ⟨?_, ?_, { hkept with }⟩⟩
    · rw [← hs']
      exact hrunning.misuse
    · rw [← hs']
    · rw [← hs']
    · rw [← hs']
      exact hrunning.messagesClosed
    · rw [← hs']
      exact hrunning.stateClosed

theorem Inv.resumeClose (h : Inv s) (ht : s.resumeClose = some t) : Inv t := by
  have hended (hc : s.closing ≠ .idle) : s.misuse = false ∧ s.closed = true ∧ s.reconnectTimer = none ∧
      (∀ k, (s.channels k).listened = false) ∧ Stage s := by
    cases h.mode with
    | live _ running | pending running | gaveUp running => exact absurd running.closing hc
    | ended misuse closed timer deaf stage => exact ⟨misuse, closed, timer, deaf, stage⟩
  unfold State.resumeClose at ht
  split at ht
  · cases ht
  · next hc =>
    cases ht
    obtain ⟨hmisuse, hclosed, htimer, hdeaf, hstage⟩ := hended (by rw [hc]; exact Closing.noConfusion)
    rw [Stage, hc] at hstage
    obtain ⟨hmessages, hstate, hkept⟩ := hstage
    have hshut := hkept.shut_closeSink
    have hdeaf' (k : ℕ) : (s.closeSink.channels k).listened = false := by
      rw [closeSink_channels]
      split <;> exact hdeaf k
    rw [closeSink_eq] at hshut hdeaf' ⊢
    exact ⟨⟨h.curve.delays, h.curve.backoff⟩, .ended hmisuse hclosed htimer hdeaf' ⟨hmessages, hstate, hshut⟩⟩
  · next hc =>
    cases ht
    obtain ⟨hmisuse, hclosed, htimer, hdeaf, hstage⟩ := hended (by rw [hc]; exact Closing.noConfusion)
    rw [Stage, hc] at hstage
    obtain ⟨-, hstate, hshut⟩ := hstage
    rw [addState_open hstate]
    exact ⟨⟨h.curve.delays, h.curve.backoff⟩, .ended hmisuse hclosed htimer hdeaf ⟨rfl, hstate, hshut⟩⟩
  · next hc =>
    cases ht
    obtain ⟨hmisuse, hclosed, htimer, hdeaf, hstage⟩ := hended (by rw [hc]; exact Closing.noConfusion)
    rw [Stage, hc] at hstage
    exact ⟨⟨h.curve.delays, h.curve.backoff⟩,
      .ended hmisuse hclosed htimer hdeaf ⟨hstage.1, rfl, hstage.2.2⟩⟩

theorem send_eq (s : State) (j : Json) : s.send j = { s with channels := (s.send j).channels } := by
  unfold State.send
  split <;> rfl

theorem send_channels (s : State) (j : Json) (k : ℕ) :
    ((s.send j).channels k).listened = (s.channels k).listened ∧
    ((s.send j).channels k).sinkClosed = (s.channels k).sinkClosed ∧
    (s.channel ≠ some k → (s.send j).channels k = s.channels k) := by
  unfold State.send
  split
  · exact ⟨rfl, rfl, fun _ ↦ rfl⟩
  · next i hi =>
    by_cases hki : k = i
    · subst hki
      rw [setChannel_self]
      exact ⟨rfl, rfl, fun h ↦ absurd hi h⟩
    · rw [setChannel_ne _ hki]
      exact ⟨rfl, rfl, fun _ ↦ rfl⟩

theorem Kept.send (h : Kept s) (j : Json) : Kept (s.send j) := by
  have hsend := send_channels s j
  rw [send_eq]
  constructor
  · intro k hk
    exact ((hsend k).2.2 (fun hc ↦ absurd (h.created k hc) (Nat.not_lt.mpr hk))).trans (h.fresh k hk)
  · exact h.created
  · exact fun k hk ↦ h.listened k ((hsend k).1.symm.trans hk)
  · exact fun k hk hc ↦ (hsend k).2.1.trans (h.sinks k hk hc)

theorem Inv.send (h : Inv s) (j : Json) : Inv (s.send j) := by
  have hsend := send_channels s j
  have hcurve : Curve (s.send j) := by
    rw [send_eq]
    exact ⟨h.curve.delays, h.curve.backoff⟩
  refine ⟨hcurve, ?_⟩
  cases h.mode with
  | live k running live timer refreshing retryCount =>
    rw [send_eq]
    refine .live k { running with } ⟨live.channel, live.channelSub, fun i hi ↦ ?_, live.created, ?_, fun i hi ↦ ?_⟩
      timer refreshing retryCount
    · refine ((hsend i).2.2 (fun hc ↦ ?_)).trans (live.fresh i hi)
      exact absurd (live.kept.created i hc) (Nat.not_lt.mpr hi)
    · exact ⟨(hsend k).1.trans live.opened.1, (hsend k).2.1.trans live.opened.2⟩
    · exact ⟨(hsend i).1.trans (live.others i hi).1, fun hlt ↦ (hsend i).2.1.trans ((live.others i hi).2 hlt)⟩
  | pending _ quiet | gaveUp _ quiet =>
    rw [State.send, quiet.channel]
    exact h.mode
  | ended misuse closed timer deaf stage =>
    have hstage : Stage (s.send j) := by
      have hshut (hs : Shut s) : Shut (s.send j) := by
        intro k hk
        rw [send_eq] at hk
        exact (hsend k).2.1.trans (hs k hk)
      have hkept (hs : Kept s) : Kept (s.send j) := hs.send j
      rw [send_eq] at hshut hkept ⊢
      unfold Stage at stage ⊢
      dsimp only
      split at stage
      · exact ⟨stage.1, stage.2.1, hkept stage.2.2⟩
      all_goals exact ⟨stage.1, stage.2.1, hshut stage.2.2⟩
    rw [send_eq] at hstage ⊢
    exact .ended misuse closed timer (fun k ↦ (hsend k).1.trans (deaf k)) hstage

theorem Inv.token (h : Inv s) (token : Option String) : Inv { s with accessToken := token } := by
  refine ⟨⟨h.curve.delays, h.curve.backoff⟩, ?_⟩
  cases h.mode with
  | live k running live timer refreshing retryCount =>
    exact .live k { running with } { live with } timer refreshing retryCount
  | pending running quiet pending => exact .pending { running with } { quiet with } pending
  | gaveUp running quiet timer refreshing gaveUp =>
    exact .gaveUp { running with } { quiet with } timer refreshing { gaveUp with }
  | ended misuse closed timer deaf stage =>
    refine .ended misuse closed timer deaf ?_
    unfold Stage at stage ⊢
    dsimp only
    split at stage
    · exact ⟨stage.1, stage.2.1, { stage.2.2 with }⟩
    all_goals exact stage

theorem Inv.timer (h : Inv s) (htimer : s.reconnectTimer.isSome) (dial : Dial) :
    Inv (if s.closed then { s with reconnectTimer := none }
      else if s.config.refresher then { s with reconnectTimer := none, refreshing := s.refreshing + 1 }
      else { s with reconnectTimer := none }.connect dial) := by
  cases h.mode with
  | live _ _ _ timer | gaveUp _ _ timer | ended _ _ timer =>
    rw [timer] at htimer
    cases htimer
  | pending running quiet pending =>
    obtain ⟨-, hrefreshing⟩ | ⟨hnone, -⟩ := pending
    · rw [if_neg running.notClosed]
      split
      · refine ⟨⟨h.curve.delays, h.curve.backoff⟩, .pending { running with } { quiet with } (.inr ⟨rfl, ?_⟩)⟩
        show s.refreshing + 1 = 1
        rw [hrefreshing]
      · exact Inv.connect (s := { s with reconnectTimer := none }) { running with } ⟨h.curve.delays, h.curve.backoff⟩
          { quiet with } rfl hrefreshing dial
    · rw [hnone] at htimer
      cases htimer

theorem Inv.refreshed (h : Inv s) (hrefreshing : 0 < s.refreshing) (dial : Dial) :
    Inv ({ s with refreshing := s.refreshing - 1 }.connect dial) := by
  cases h.mode with
  | live _ _ _ _ hnone | gaveUp _ _ _ hnone => omega
  | pending running quiet pending =>
    obtain ⟨-, hnone⟩ | ⟨htimer, hone⟩ := pending
    · omega
    · refine Inv.connect (s := { s with refreshing := s.refreshing - 1 }) { running with }
        ⟨h.curve.delays, h.curve.backoff⟩ { quiet with } htimer ?_ dial
      show s.refreshing - 1 = 0
      rw [hone]
  | ended misuse closed timer deaf stage =>
    rw [State.connect, if_pos closed]
    refine ⟨⟨h.curve.delays, h.curve.backoff⟩, .ended misuse closed timer deaf ?_⟩
    unfold Stage at stage ⊢
    dsimp only
    split at stage
    · exact ⟨stage.1, stage.2.1, { stage.2.2 with }⟩
    all_goals exact stage

theorem Inv.step {a : Act} (h : Inv s) (ht : step s a = some t) : Inv t := by
  cases a with
  | token token =>
    cases ht
    exact h.token token
  | data k frame =>
    obtain ⟨hk, ht⟩ := Option.ite_none_right_eq_some.mp ht
    cases ht
    obtain ⟨hrunning, hlive, htimer, hrefreshing, hretry⟩ := h.live_of_listened hk
    exact h.onData hlive hrunning htimer hrefreshing hretry frame
  | error k =>
    obtain ⟨hk, ht⟩ := Option.ite_none_right_eq_some.mp ht
    cases ht
    obtain ⟨hrunning, hlive, htimer, hrefreshing, -⟩ := h.live_of_listened hk
    exact .scheduleReconnect hrunning h.curve hlive.kept htimer hrefreshing
  | done k =>
    obtain ⟨hk, ht⟩ := Option.ite_none_right_eq_some.mp ht
    cases ht
    obtain ⟨hrunning, hlive, htimer, hrefreshing, -⟩ := h.live_of_listened hk
    rw [if_neg hrunning.notClosed]
    exact .scheduleReconnect hrunning h.curve hlive.kept htimer hrefreshing
  | timer dial =>
    obtain ⟨htimer, ht⟩ := Option.ite_none_right_eq_some.mp ht
    cases ht
    exact h.timer htimer dial
  | refreshed dial =>
    obtain ⟨hrefreshing, ht⟩ := Option.ite_none_right_eq_some.mp ht
    cases ht
    exact h.refreshed hrefreshing dial
  | send j =>
    cases ht
    exact h.send j
  | close =>
    cases ht
    exact h.beginClose
  | resumeClose => exact h.resumeClose ht

theorem inv_start (config : Config) (accessToken : Option String) (dial : Dial) :
    Inv (start config accessToken dial) := by
  refine .connect ⟨rfl, rfl, rfl, rfl, rfl⟩ ⟨rfl, config.wait_zero.symm⟩ ?_ rfl rfl dial
  exact ⟨rfl, fun _ _ ↦ rfl, fun _ ↦ rfl, fun k hk ↦ absurd hk (Nat.not_lt_zero k)⟩

/-- What the rest of the app can count on, whatever the network does. `busy`: a client that was not closed has a channel,
a timer or a token refresh, and never two of them, unless it has used up its retries and said so. -/
structure Good (s : State) : Prop where
  misuse : s.misuse = false
  single : ∀ k, k < s.created → (s.channels k).sinkClosed = false → s.channel = some k
  deaf : ∀ k, (s.channels k).listened = true → s.channel = some k ∧ s.closed = false
  busy : s.closed = false →
    s.channel.toList.length + s.reconnectTimer.toList.length + s.refreshing = 1 ∨
    s.channel = none ∧ s.reconnectTimer = none ∧ s.refreshing = 0 ∧ GaveUp s
  final : s.closed = true → s.reconnectTimer = none ∧ (s.closing = .idle → s.stateClosed = true ∧ Shut s)

theorem Inv.good (h : Inv s) : Good s := by
  cases h.mode with
  | live k running live timer refreshing =>
    refine ⟨running.misuse, fun j hj hopen ↦ ?_, fun j hj ↦ ?_, fun _ ↦ .inl ?_, fun hc ↦ absurd hc running.notClosed⟩
    · by_contra hchannel
      exact absurd (hopen.symm.trans (live.kept.sinks j hj hchannel)) Bool.false_ne_true
    · obtain rfl : k = j := Option.some.inj (live.channelSub.symm.trans (live.kept.listened j hj))
      exact ⟨live.channel, running.closed⟩
    · rw [live.channel, timer, refreshing]
      rfl
  | pending running quiet pending =>
    refine ⟨running.misuse, fun j hj hopen ↦ ?_, fun j hj ↦ ?_, fun _ ↦ .inl ?_, fun hc ↦ absurd hc running.notClosed⟩
    · exact absurd (hopen.symm.trans (quiet.shut j hj)) Bool.false_ne_true
    · exact absurd ((quiet.deaf j).symm.trans hj) Bool.false_ne_true
    · rw [quiet.channel]
      obtain ⟨htimer, hrefreshing⟩ | ⟨htimer, hrefreshing⟩ := pending
      · obtain ⟨d, hd⟩ := Option.isSome_iff_exists.mp htimer
        rw [hd, hrefreshing]
        rfl
      · rw [htimer, hrefreshing]
        rfl
  | gaveUp running quiet timer refreshing gaveUp =>
    refine ⟨running.misuse, fun j hj hopen ↦ ?_, fun j hj ↦ ?_, fun _ ↦ .inr ⟨quiet.channel, timer, refreshing, gaveUp⟩,
      fun hc ↦ absurd hc running.notClosed⟩
    · exact absurd (hopen.symm.trans (quiet.shut j hj)) Bool.false_ne_true
    · exact absurd ((quiet.deaf j).symm.trans hj) Bool.false_ne_true
  | ended misuse closed timer deaf stage =>
    refine ⟨misuse, fun j hj hopen ↦ ?_, fun j hj ↦ ?_, fun hc ↦ ?_, fun _ ↦ ⟨timer, fun hidle ↦ ?_⟩⟩
    · by_contra hchannel
      have hshut : (s.channels j).sinkClosed = true := by
        unfold Stage at stage
        split at stage
        · exact stage.2.2.sinks j hj hchannel
        all_goals exact stage.2.2 j hj
      exact absurd (hopen.symm.trans hshut) Bool.false_ne_true
    · exact absurd ((deaf j).symm.trans hj) Bool.false_ne_true
    · exact absurd (hc.symm.trans closed) Bool.false_ne_true
    · rw [Stage, hidle] at stage
      exact stage.2

theorem inv_throughout (config : Config) (accessToken : Option String) (dial : Dial) (as : List Act) :
    Throughout step Inv (start config accessToken dial) as :=
  throughout_of_step (fun _ _ _ h ht ↦ h.step ht) (inv_start config accessToken dial) as

section

variable (s)

@[simp]
theorem setChannel_config (ch : Channel) : (s.setChannel k ch).config = s.config := rfl

@[simp]
theorem addState_config (st : WebSocketState) : (s.addState st).config = s.config := by
  unfold State.addState
  split <;> rfl

@[simp]
theorem addMessage_config (m : Message) : (s.addMessage m).config = s.config := by
  unfold State.addMessage
  split <;> rfl

@[simp]
theorem cancelSub_config : s.cancelSub.config = s.config := by
  rw [cancelSub_eq]

@[simp]
theorem closeSink_config : s.closeSink.config = s.config := by
  rw [closeSink_eq]

@[simp]
theorem drop_config : s.drop.config = s.config := by
  rw [drop_eq]

@[simp]
theorem scheduleReconnect_config : s.scheduleReconnect.config = s.config := by
  unfold State.scheduleReconnect
  dsimp only
  split
  · exact drop_config s
  · split <;> simp

@[simp]
theorem emitFatal_config (message : String) : (s.emitFatal message).config = s.config := by
  simp [State.emitFatal]

@[simp]
theorem openChannel_config (sent : List ClientMsg) : (s.openChannel sent).config = s.config := rfl

@[simp]
theorem connect_config (dial : Dial) : (s.connect dial).config = s.config := by
  unfold State.connect
  dsimp only
  split
  · rfl
  · split
    · simp
    · split
      · simp
      · cases dial <;> simp [State.listen]

@[simp]
theorem onData_config (frame : Option Json) : (s.onData frame).config = s.config := by
  unfold State.onData
  split
  · split
    · split <;> simp
    · split <;> simp
    · split <;> simp
    · rfl
    · simp
  · rfl

@[simp]
theorem beginClose_config : s.beginClose.config = s.config := by
  unfold State.beginClose
  split <;> simp

@[simp]
theorem send_config (j : Json) : (s.send j).config = s.config := by
  rw [send_eq]

end

theorem resumeClose_config (h : s.resumeClose = some t) : t.config = s.config := by
  unfold State.resumeClose at h
  split at h <;> cases h <;> simp

theorem step_config {a : Act} (h : step s a = some t) : t.config = s.config := by
  cases a with
  | token token | send j | close =>
    cases h
    simp
  | data k frame | error k =>
    obtain ⟨-, h⟩ := Option.ite_none_right_eq_some.mp h
    cases h
    simp
  | done k =>
    obtain ⟨-, h⟩ := Option.ite_none_right_eq_some.mp h
    cases h
    split <;> simp
  | timer dial =>
    obtain ⟨-, h⟩ := Option.ite_none_right_eq_some.mp h
    cases h
    split
    · rfl
    · split <;> simp
  | refreshed dial =>
    obtain ⟨-, h⟩ := Option.ite_none_right_eq_some.mp h
    cases h
    simp
  | resumeClose => exact resumeClose_config h

/-- Nothing but an open channel starts the curve again. -/
theorem curve_throughout (config : Config) (accessToken : Option String) (dial : Dial) (as : List Act) :
    Throughout step (fun s ↦ s.delays = (List.range s.retryCount).map config.wait)
      (start config accessToken dial) as := by
  refine (throughout_of_step (I := fun s ↦ Inv s ∧ s.config = config) (fun s a t h ht ↦ ?_) ?_ as).mono (fun s h ↦ ?_)
  · exact ⟨h.1.step ht, (step_config ht).trans h.2⟩
  · exact ⟨inv_start config accessToken dial, connect_config _ dial⟩
  · rw [← h.2]
    exact h.1.curve.delays

/-- `t` comes after the end of `s`: nothing was opened since, and nothing delivered. -/
structure After (s t : State) : Prop where
  inv : Inv t
  closed : t.closed = true
  created : t.created = s.created
  messages : t.messages = s.messages

theorem After.step {u : State} {a : Act} (h : After s t) (ht : step t a = some u) : After s u := by
  have hinv : Inv u := h.inv.step ht
  suffices hsuff : u.closed = true ∧ u.created = t.created ∧ u.messages = t.messages from
    ⟨hinv, hsuff.1, hsuff.2.1.trans h.created, hsuff.2.2.trans h.messages⟩
  have hdeaf {k : ℕ} (hk : (t.channels k).listened = true) : False :=
    (h.inv.live_of_listened hk).1.notClosed h.closed
  cases a with
  | token token =>
    cases ht
    exact ⟨h.closed, rfl, rfl⟩
  | data k frame | error k | done k => exact (hdeaf (Option.ite_none_right_eq_some.mp ht).1).elim
  | timer dial =>
    obtain ⟨-, ht⟩ := Option.ite_none_right_eq_some.mp ht
    rw [if_pos h.closed] at ht
    cases ht
    exact ⟨h.closed, rfl, rfl⟩
  | refreshed dial =>
    obtain ⟨-, ht⟩ := Option.ite_none_right_eq_some.mp ht
    rw [State.connect, if_pos h.closed] at ht
    cases ht
    exact ⟨h.closed, rfl, rfl⟩
  | send j =>
    cases ht
    rw [send_eq]
    exact ⟨h.closed, rfl, rfl⟩
  | close =>
    cases ht
    rw [State.beginClose, if_pos h.closed]
    exact ⟨h.closed, rfl, rfl⟩
  | resumeClose =>
    have hresume : t.resumeClose = some u := ht
    unfold State.resumeClose at hresume
    split at hresume
    · cases hresume
    · cases hresume
      rw [closeSink_eq]
      exact ⟨h.closed, rfl, rfl⟩
    · cases hresume
      unfold State.addState
      split <;> exact ⟨h.closed, rfl, rfl⟩
    · cases hresume
      exact ⟨h.closed, rfl, rfl⟩

/-- The attempt gets a channel that takes the first messages. With the default factory every attempt does: that factory
returns before it has connected, and reports what became of it on the stream. -/
def Opens : Act → Prop
  | .timer dial | .refreshed dial => dial = .opens
  | _ => True

/-- The client never waits twice in a row, and goes on. -/
structure Flat (s : State) : Prop where
  inv : Inv s
  maxRetries : s.config.maxRetries ≠ 0
  retryCount : s.retryCount ≤ 1
  going : s.closed = true ∨ s.channel.isSome ∨ s.reconnectTimer.isSome ∨ 0 < s.refreshing

theorem addState_flat (st : WebSocketState) : (s.addState st).retryCount = s.retryCount ∧
    (s.addState st).channel = s.channel ∧ (s.addState st).closed = s.closed := by
  unfold State.addState
  split <;> exact ⟨rfl, rfl, rfl⟩

theorem addMessage_flat (m : Message) : (s.addMessage m).retryCount = s.retryCount ∧
    (s.addMessage m).channel = s.channel := by
  unfold State.addMessage
  split <;> exact ⟨rfl, rfl⟩

theorem emitFatal_flat (s : State) (message : String) :
    (s.emitFatal message).retryCount = s.retryCount ∧ (s.emitFatal message).closed = true := by
  unfold State.emitFatal
  rw [drop_eq]
  exact ⟨(addMessage_flat _).1.trans (addState_flat _).1, rfl⟩

theorem scheduleReconnect_first (hc : ¬ s.closed = true) (hretry : s.retryCount = 0) (hmax : s.config.maxRetries ≠ 0) :
    s.scheduleReconnect.retryCount = 1 ∧ s.scheduleReconnect.reconnectTimer.isSome := by
  have hnot : ¬ (0 ≤ s.config.maxRetries ∧ s.config.maxRetries ≤ (s.retryCount : ℤ)) := by
    rw [hretry]
    omega
  unfold State.scheduleReconnect
  rw [drop_eq]
  dsimp only
  rw [if_neg hc, if_neg hnot]
  exact ⟨congrArg (· + 1) ((addState_flat _).1.trans hretry), rfl⟩

theorem connect_opens (h : s.retryCount ≤ 1) : (s.connect .opens).retryCount ≤ 1 ∧
    ((s.connect .opens).closed = true ∨ (s.connect .opens).channel.isSome) := by
  unfold State.connect
  split
  · next hc => exact ⟨h, .inl hc⟩
  · dsimp only
    split
    · rw [(emitFatal_flat ..).1, (addState_flat _).1]
      exact ⟨h, .inl (emitFatal_flat ..).2⟩
    · split
      · rw [(emitFatal_flat ..).1, (addState_flat _).1]
        exact ⟨h, .inl (emitFatal_flat ..).2⟩
      · refine ⟨Nat.zero_le 1, .inr ?_⟩
        show (State.addState _ _).channel.isSome
        rw [(addState_flat _).2.1]
        rfl

theorem onData_flat (s : State) (frame : Option Json) : (s.onData frame).retryCount = s.retryCount ∧
    ((s.onData frame).closed = true ∨ (s.onData frame).channel = s.channel) := by
  have hfatal (m : String) : (s.emitFatal m).retryCount = s.retryCount ∧
      ((s.emitFatal m).closed = true ∨ (s.emitFatal m).channel = s.channel) :=
    (emitFatal_flat s m).imp_right .inl
  have hmessage (m : Message) : (s.addMessage m).retryCount = s.retryCount ∧
      ((s.addMessage m).closed = true ∨ (s.addMessage m).channel = s.channel) :=
    (addMessage_flat m).imp_right .inr
  unfold State.onData
  split
  · split
    · split
      · exact hfatal _
      · exact hmessage _
    · split
      · exact hfatal _
      · exact hmessage _
    · split
      · exact hfatal _
      · exact hmessage _
    · exact ⟨rfl, .inr rfl⟩
    · exact hmessage _
  · exact ⟨rfl, .inr rfl⟩

theorem beginClose_flat (s : State) : s.beginClose.retryCount = s.retryCount ∧ s.beginClose.closed = true := by
  unfold State.beginClose
  split
  · next hc => exact ⟨rfl, hc⟩
  · rw [cancelSub_eq]
    exact ⟨rfl, rfl⟩

theorem resumeClose_flat (h : s.resumeClose = some t) : t.retryCount = s.retryCount ∧ t.closed = s.closed := by
  unfold State.resumeClose at h
  split at h
  · cases h
  · cases h
    rw [closeSink_eq]
    exact ⟨rfl, rfl⟩
  · cases h
    exact ⟨(addState_flat _).1, (addState_flat _).2.2⟩
  · cases h
    exact ⟨rfl, rfl⟩

theorem Flat.step {a : Act} (h : Flat s) (ha : Opens a) (ht : step s a = some t) : Flat t := by
  have hmax : t.config.maxRetries ≠ 0 := step_config ht ▸ h.maxRetries
  suffices hsuff : t.retryCount ≤ 1 ∧ (t.closed = true ∨ t.channel.isSome ∨ t.reconnectTimer.isSome ∨ 0 < t.refreshing)
    from ⟨h.inv.step ht, hmax, hsuff.1, hsuff.2⟩
  have hschedule (hc : ¬ s.closed = true) (hretry : s.retryCount = 0) : s.scheduleReconnect.retryCount ≤ 1 ∧
      (s.scheduleReconnect.closed = true ∨ s.scheduleReconnect.channel.isSome ∨
        s.scheduleReconnect.reconnectTimer.isSome ∨ 0 < s.scheduleReconnect.refreshing) := by
    obtain ⟨hcount, htimer⟩ := scheduleReconnect_first hc hretry h.maxRetries
    exact ⟨Nat.le_of_eq hcount, .inr (.inr (.inl htimer))⟩
  cases a with
  | token token =>
    cases ht
    exact ⟨h.retryCount, h.going⟩
  | data k frame =>
    obtain ⟨hk, ht⟩ := Option.ite_none_right_eq_some.mp ht
    cases ht
    obtain ⟨-, hlive, -⟩ := h.inv.live_of_listened hk
    obtain ⟨hcount, hgoing⟩ := onData_flat s frame
    refine ⟨hcount ▸ h.retryCount, hgoing.imp_right (fun hchannel ↦ .inl ?_)⟩
    rw [hchannel, hlive.channel]
    rfl
  | error k =>
    obtain ⟨hk, ht⟩ := Option.ite_none_right_eq_some.mp ht
    cases ht
    obtain ⟨hrunning, -, -, -, hretry⟩ := h.inv.live_of_listened hk
    exact hschedule hrunning.notClosed hretry
  | done k =>
    obtain ⟨hk, ht⟩ := Option.ite_none_right_eq_some.mp ht
    cases ht
    obtain ⟨hrunning, -, -, -, hretry⟩ := h.inv.live_of_listened hk
    rw [if_neg hrunning.notClosed]
    exact hschedule hrunning.notClosed hretry
  | timer dial =>
    obtain ⟨-, ht⟩ := Option.ite_none_right_eq_some.mp ht
    cases ht
    cases ha
    split
    · next hc => exact ⟨h.retryCount, .inl hc⟩
    · split
      · exact ⟨h.retryCount, .inr (.inr (.inr (Nat.succ_pos _)))⟩
      · obtain ⟨hcount, hgoing⟩ := connect_opens (s := { s with reconnectTimer := none }) h.retryCount
        exact ⟨hcount, hgoing.imp_right .inl⟩
  | refreshed dial =>
    obtain ⟨-, ht⟩ := Option.ite_none_right_eq_some.mp ht
    cases ht
    cases ha
    obtain ⟨hcount, hgoing⟩ := connect_opens (s := { s with refreshing := s.refreshing - 1 }) h.retryCount
    exact ⟨hcount, hgoing.imp_right .inl⟩
  | send j =>
    cases ht
    rw [send_eq]
    exact ⟨h.retryCount, h.going⟩
  | close =>
    cases ht
    obtain ⟨hcount, hclosed⟩ := beginClose_flat s
    exact ⟨hcount ▸ h.retryCount, .inl hclosed⟩
  | resumeClose =>
    have hc : s.closed = true := by
      by_contra hc
      have hresume : s.resumeClose = some t := ht
      rw [State.resumeClose, (h.inv.running hc).1.closing] at hresume
      cases hresume
    obtain ⟨hcount, hclosed⟩ := resumeClose_flat ht
    exact ⟨hcount ▸ h.retryCount, .inl (hclosed.trans hc)⟩

theorem Flat.delays (h : Flat s) : s.delays ⊆ [s.config.initialBackoff] := by
  rw [h.inv.curve.delays]
  obtain hzero | hone : s.retryCount = 0 ∨ s.retryCount = 1 := by
    have hretry := h.retryCount
    omega
  · rw [hzero]
    exact List.nil_subset _
  · rw [hone, ← s.config.wait_zero]
    exact fun d hd ↦ hd

theorem Flat.busy (h : Flat s) (hc : s.closed = false) :
    s.channel.toList.length + s.reconnectTimer.toList.length + s.refreshing = 1 := by
  obtain hbusy | ⟨hchannel, htimer, hrefreshing, -⟩ := h.inv.good.busy hc
  · exact hbusy
  · have hgoing := h.going
    simp [hc, hchannel, htimer, hrefreshing] at hgoing

/-- Where every attempt opens, the backoff never leaves its start and a client with a bound on its retries never gives up:
the next failure is the first one again. -/
theorem flat_throughout (config : Config) (accessToken : Option String) (as : List Act)
    (hretries : config.maxRetries ≠ 0)
    (hopens : EachStep step (fun _ a ↦ Opens a) (start config accessToken .opens) as) :
    Throughout step (fun s ↦ s.delays ⊆ [config.initialBackoff] ∧
      (s.closed = false → s.channel.toList.length + s.reconnectTimer.toList.length + s.refreshing = 1))
      (start config accessToken .opens) as := by
  refine (hopens.throughout (I := fun s ↦ Flat s ∧ s.config = config) (fun s a t h ha ht ↦ ?_) ?_).mono (fun s h ↦ ?_)
  · exact ⟨h.1.step ha ht, (step_config ht).trans h.2⟩
  · obtain ⟨hcount, hgoing⟩ := connect_opens (s := { config, accessToken }) (Nat.zero_le 1)
    have hconfig : (start config accessToken .opens).config = config := connect_config _ .opens
    exact ⟨⟨inv_start config accessToken .opens, hconfig.symm ▸ hretries, hcount, hgoing.imp_right .inl⟩, hconfig⟩
  · exact ⟨h.2 ▸ h.1.delays, h.1.busy⟩

/-- A backend that drops the connection twice: with one retry allowed the client is still at it. -/
theorem flat_throughout_dropped :
    Throughout step (fun s ↦ s.delays ⊆ [1000] ∧
      (s.closed = false → s.channel.toList.length + s.reconnectTimer.toList.length + s.refreshing = 1))
      (start { maxRetries := 1, toLowerCase := id } (some "jwt") .opens) [.done 0, .timer .opens, .done 1] := by
  refine flat_throughout { maxRetries := 1, toLowerCase := id } (some "jwt") [.done 0, .timer .opens, .done 1]
    (by decide) ?_
  exact fun _ _ ↦ ⟨trivial, fun _ _ ↦ ⟨rfl, fun _ _ ↦ ⟨trivial, trivial⟩⟩⟩

end KubeCenter.Websocket.MobileClient
