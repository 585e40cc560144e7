import KubeCenter.Websocket.ClientsOpen

namespace KubeCenter.Websocket

open KubeCenter.Core Function

/-- What the hub's goroutine does to a client's buffer: a message enqueued, a buffer found full, the
client disconnected. -/
inductive Effect
  | sent (msg : OutgoingMessage)
  | full
  | disconnected
  deriving DecidableEq

abbrev Trace := List (ClientID × Effect)

def Trace.of (trace : Trace) (c : ClientID) : List Effect :=
  trace.filterMap (fun e ↦ if e.1 = c then some e.2 else none)

def Trace.record (trace : Trace) (c : ClientID) (effects : List Effect) : Trace :=
  trace ++ effects.map (fun e ↦ (c, e))

@[simp] theorem Trace.of_record_self (trace : Trace) (c : ClientID) (effects : List Effect) :
    (trace.record c effects).of c = trace.of c ++ effects := by
  simp [Trace.of, Trace.record, List.filterMap_map]

theorem Trace.of_record_ne {trace : Trace} {c d : ClientID} (h : d ≠ c) (effects : List Effect) :
    (trace.record c effects).of d = trace.of d := by
  simp [Trace.of, Trace.record, List.filterMap_map, Ne.symm h]

/-- `broadcastEvent` between two of its channel operations: the targets it has not come to yet, and
the one whose buffer it found full. -/
structure Broadcast where
  hub : Hub
  todo : List (ClientID × String)
  stalled : Option (ClientID × String) := none
  trace : Trace := []

def eventMessage (event : ResourceEvent) (rawObj subID : String) : OutgoingMessage :=
  { type := msgTypeEvent, id := subID, eventType := event.eventType, object := some rawObj }

def resyncMessage (event : ResourceEvent) (subID : String) : OutgoingMessage :=
  { type := msgTypeResyncRequired, id := subID, message := event.kind }

/-- A step of another goroutine, or the hub's next channel operation. -/
inductive BroadcastAct
  | interfere (a : Act)
  | advance

def BroadcastAct.isAdvance : BroadcastAct → Bool
  | .advance => true
  | .interfere _ => false

namespace Broadcast

variable (event : ResourceEvent) (rawObj : String)

def panicked (b : Broadcast) (p : Panic) : Broadcast := { b with hub := b.hub.settle (.error p) }

/-- The send to the next target, or for a stalled one the send of `sendResync`. -/
def advance (b : Broadcast) : Option Broadcast :=
  match b.stalled with
  | some t =>
    match (b.hub.conn t.1).send.trySend (resyncMessage event t.2) with
    | .sent ch => some
        ⟨b.hub.setSend t.1 ch, b.todo, none, b.trace.record t.1 [.sent (resyncMessage event t.2)]⟩
    | .full =>
      match b.hub.removeClient t.1 with
      | .ok hub => some ⟨hub, b.todo, none, b.trace.record t.1 [.full, .disconnected]⟩
      | .error p => some (b.panicked p)
    | .panic => some (b.panicked .sendOnClosedChannel)
  | none =>
    match b.todo with
    | [] => none
    | t :: rest =>
      match (b.hub.conn t.1).send.trySend (eventMessage event rawObj t.2) with
      | .sent ch => some
          ⟨b.hub.setSend t.1 ch, rest, none, b.trace.record t.1 [.sent (eventMessage event rawObj t.2)]⟩
      | .full => some ⟨b.hub, rest, some t, b.trace.record t.1 [.full]⟩
      | .panic => some (b.panicked .sendOnClosedChannel)

def step (b : Broadcast) : BroadcastAct → Option Broadcast
  | .interfere a => (b.hub.clientStep a).map (fun hub ↦ { b with hub })
  | .advance => if b.hub.crashed.isSome then none else b.advance event rawObj

def Finished (b : Broadcast) : Prop := b.todo = [] ∧ b.stalled = none

/-- The channel operations still to come, at most. -/
def left (b : Broadcast) : ℕ := 2 * b.todo.length + b.stalled.toList.length

end Broadcast

/-- The id of the client's subscription that an event goes to: the exact namespace's before the one for
all namespaces. -/
def Hub.liveID (h : Hub) (event : ResourceEvent) (c : ClientID) : Option String :=
  (h.subscriptions.lookup (⟨event.kind, event.ns⟩, c)).or (h.subscriptions.lookup (⟨event.kind, ""⟩, c))

/-- The ways in which a subscription is served; `sendResync` is only tried on a full buffer. -/
def Served (event : ResourceEvent) (rawObj subID : String) (effects : List Effect) : Prop :=
  effects = [.sent (eventMessage event rawObj subID)] ∨ effects = [.full, .sent (resyncMessage event subID)] ∨
    effects = [.full, .full, .disconnected]

/-- What a broadcast that began in `h` has done. -/
structure Delivered (h : Hub) (event : ResourceEvent) (rawObj : String) (b : Broadcast) : Prop where
  served : ∀ c subID, h.liveID event c = some subID → Served event rawObj subID (b.trace.of c)
  untouched : ∀ c, h.liveID event c = none → b.trace.of c = []
  clients : ∀ c, c ∈ b.hub.clients ↔ c ∈ h.clients ∧ .disconnected ∉ b.trace.of c
  subscriptions : ∀ k, b.hub.subscriptions.lookup k =
    if .disconnected ∈ b.trace.of k.2 then none else h.subscriptions.lookup k

namespace Hub

variable {h h' h'' : Hub} {event : ResourceEvent} {rawObj : String}

theorem mem_subscribers_iff {key : SubKey} {t : ClientID × String} :
    t ∈ h.subscribers key ↔ h.subscriptions.lookup (key, t.1) = some t.2 := by
  rw [← GoMap.mem_entries_iff, subscribers, List.mem_filterMap]
  constructor
  · intro ⟨e, he, het⟩
    split at het
    · next hk =>
      cases het
      rwa [← hk]
    · contradiction
  · intro he
    exact ⟨_, he, by simp⟩

theorem mem_targets_iff {t : ClientID × String} : t ∈ h.targets event ↔ h.liveID event t.1 = some t.2 := by
  have hexact : t.1 ∈ (h.subscribers ⟨event.kind, event.ns⟩).map Prod.fst ↔
      (h.subscriptions.lookup (⟨event.kind, event.ns⟩, t.1)).isSome = true := by
    rw [Option.isSome_iff_exists]
    constructor
    · intro hm
      obtain ⟨u, hu, hut⟩ := List.mem_map.mp hm
      exact ⟨u.2, by rw [← hut]; exact mem_subscribers_iff.mp hu⟩
    · intro ⟨subID, hid⟩
      exact List.mem_map.mpr ⟨(t.1, subID), mem_subscribers_iff.mpr hid, rfl⟩
  rw [targets, List.mem_append, List.mem_filter, mem_subscribers_iff, mem_subscribers_iff, liveID, decide_eq_true_iff,
    hexact]
  cases h.subscriptions.lookup (⟨event.kind, event.ns⟩, t.1) <;> simp

/-- A step that leaves the hub's maps alone and closes no channel. -/
structure Frames (h h' : Hub) : Prop where
  crashed : h'.crashed = h.crashed
  clients : h'.clients = h.clients
  subscriptions : h'.subscriptions = h.subscriptions
  closed : ∀ c, (h'.conn c).send.closed = (h.conn c).send.closed

theorem Moves.frames {c : ClientID} (hm : Moves c h h') : Frames h h' where
  crashed := hm.crashed
  clients := hm.clients
  subscriptions := hm.subscriptions
  closed d := by
    by_cases hd : d = c
    · subst d
      exact hm.closed
    · rw [hm.others d hd]

theorem frames_setConn {c : ClientID} {cl : Client} (hs : cl.send.closed = (h.conn c).send.closed) :
    Frames h (h.setConn c cl) := by
  refine ⟨rfl, rfl, rfl, fun d ↦ ?_⟩
  by_cases hd : d = c
  · subst d
    simp [setConn, hs]
  · simp [setConn, update_of_ne hd]

theorem clientStep_frames {a : Act} (hs : h.clientStep a = some h') : Frames h h' := by
  cases a with
  | auth c user written =>
    simp only [clientStep, Option.ite_none_right_eq_some, Option.some.injEq] at hs
    obtain ⟨-, rfl⟩ := hs
    exact frames_setConn rfl
  | read c msg kindAllowed rbac =>
    simp only [clientStep, Option.ite_none_right_eq_some] at hs
    exact (readMessage_moves (by simp [hs.1]) hs.2).frames
  | confirm c =>
    simp only [clientStep] at hs
    split at hs
    · cases hs
      exact (confirm_moves c _).frames
    · contradiction
  | hangUp c =>
    simp only [clientStep, Option.ite_none_right_eq_some, Option.some.injEq] at hs
    obtain ⟨-, rfl⟩ := hs
    exact frames_setConn rfl
  | write c =>
    simp only [clientStep] at hs
    split at hs
    · cases hs
      exact frames_setConn rfl
    · contradiction
  | handleEvent event =>
    simp only [clientStep] at hs
    split at hs <;> cases hs <;> exact ⟨rfl, rfl, rfl, fun _ ↦ rfl⟩
  | register | unregister | addSub | unsubByID | event | tick | done => contradiction

end Hub

/-- The hub's maps are those the broadcast began with, less the clients it has disconnected. -/
structure Mirrors (h : Hub) (b : Broadcast) : Prop where
  alive : b.hub.crashed = none
  clients : ∀ c, c ∈ b.hub.clients ↔ c ∈ h.clients ∧ .disconnected ∉ b.trace.of c
  subscriptions : ∀ k, b.hub.subscriptions.lookup k =
    if .disconnected ∈ b.trace.of k.2 then none else h.subscriptions.lookup k
  opened : ∀ c ∈ b.hub.clients, (b.hub.conn c).send.closed = false

/-- The targets not yet come to, the one whose buffer was found full, and all other clients. -/
structure Serving (h : Hub) (event : ResourceEvent) (rawObj : String) (b : Broadcast) : Prop where
  nodup : ((b.stalled.toList ++ b.todo).map Prod.fst).Nodup
  todo : ∀ t ∈ b.todo, h.liveID event t.1 = some t.2 ∧ b.trace.of t.1 = []
  stalled : ∀ t ∈ b.stalled, h.liveID event t.1 = some t.2 ∧ b.trace.of t.1 = [.full]
  served : ∀ c subID, c ∉ (b.stalled.toList ++ b.todo).map Prod.fst → h.liveID event c = some subID →
    Served event rawObj subID (b.trace.of c)
  untouched : ∀ c, h.liveID event c = none → b.trace.of c = []

section

variable {h hub : Hub} {event : ResourceEvent} {rawObj : String} {b b' : Broadcast} {t : ClientID × String}
  {todo : List (ClientID × String)} {effects : List Effect}

theorem Mirrors.frames (hm : Mirrors h b) (hf : Hub.Frames b.hub hub) : Mirrors h { b with hub } where
  alive := hf.crashed.trans hm.alive
  clients c := by
    rw [hf.clients]
    exact hm.clients c
  subscriptions k := by
    rw [hf.subscriptions]
    exact hm.subscriptions k
  opened c hc := by
    rw [hf.closed]
    exact hm.opened c (hf.clients ▸ hc)

theorem Mirrors.record (hm : Mirrors h b) (he : .disconnected ∉ effects) (c : ClientID)
    (stalled : Option (ClientID × String)) :
    Mirrors h { b with todo, stalled, trace := b.trace.record c effects } := by
  have hsame : ∀ d, Effect.disconnected ∈ (b.trace.record c effects).of d ↔ .disconnected ∈ b.trace.of d := by
    intro d
    by_cases hd : d = c
    · subst d
      simp [he]
    · rw [Trace.of_record_ne hd]
  refine ⟨hm.alive, fun d ↦ ?_, fun k ↦ ?_, hm.opened⟩
  · rw [hsame]
    exact hm.clients d
  · simp only [hsame]
    exact hm.subscriptions k

theorem Mirrors.enqueue (hm : Mirrors h b) (c : ClientID) (msg : OutgoingMessage) :
    Mirrors h ⟨b.hub.setSend c { (b.hub.conn c).send with buf := (b.hub.conn c).send.buf ++ [msg] }, todo, none,
      b.trace.record c [.sent msg]⟩ := by
  have hf : Hub.Frames b.hub
      (b.hub.setSend c { (b.hub.conn c).send with buf := (b.hub.conn c).send.buf ++ [msg] }) :=
    Hub.frames_setConn rfl
  exact (hm.frames hf).record (by simp) c none

theorem Mirrors.removeClient (hm : Mirrors h b) {c : ClientID} (hc : c ∈ b.hub.clients) :
    ∃ hub, b.hub.removeClient c = .ok hub ∧
      ∀ todo, Mirrors h ⟨hub, todo, none, b.trace.record c [.full, .disconnected]⟩ := by
  have ho := hm.opened c hc
  refine ⟨{ b.hub.setSend c (b.hub.conn c).send.close with
    subscriptions := b.hub.subscriptions.filter (fun k ↦ k.2 ≠ c)
    clients := b.hub.clients.erase c
    clientCount := b.hub.clientCount - 1 }, if_neg (by simp [ho]), fun todo ↦ ⟨hm.alive, fun d ↦ ?_, fun k ↦ ?_, ?_⟩⟩
  · by_cases hd : d = c
    · subst d
      simp
    · simp only [Trace.of_record_ne hd, ← hm.clients, Finset.mem_erase]
      exact and_iff_right hd
  · by_cases hk : k.2 = c
    · subst c
      simp [GoMap.lookup_filter]
    · simp only [Trace.of_record_ne hk, ← hm.subscriptions, GoMap.lookup_filter, hk, decide_not, decide_false,
        Bool.not_false, if_true]
  · intro d hd
    obtain ⟨hne, hd⟩ := Finset.mem_erase.mp hd
    simpa [Hub.setSend, Hub.setConn, update_of_ne hne] using hm.opened d hd

/-- A client with a live subscription that has not been disconnected is registered. -/
theorem Mirrors.registered (hm : Mirrors h b) (hreg : ∀ k ∈ h.subscriptions, k.2 ∈ h.clients) {c : ClientID}
    {subID : String} (hlive : h.liveID event c = some subID) (hno : .disconnected ∉ b.trace.of c) :
    c ∈ b.hub.clients := by
  refine (hm.clients c).mpr ⟨?_, hno⟩
  rcases Option.or_eq_some_iff.mp hlive with hs | ⟨-, hs⟩ <;>
    exact hreg _ (AList.lookup_isSome.mp (by rw [hs]; rfl))

theorem Serving.untouched_record (hs : Serving h event rawObj b) (hlive : h.liveID event t.1 = some t.2)
    (effects : List Effect) {c : ClientID} (hc : h.liveID event c = none) :
    (b.trace.record t.1 effects).of c = [] := by
  have hct : c ≠ t.1 := by
    rintro rfl
    rw [hlive] at hc
    contradiction
  rw [Trace.of_record_ne hct]
  exact hs.untouched c hc

theorem Serving.send (hs : Serving h event rawObj b) (hb : b.stalled = none) (ht : b.todo = t :: todo) :
    Serving h event rawObj ⟨hub, todo, none, b.trace.record t.1 [.sent (eventMessage event rawObj t.2)]⟩ := by
  have hnodup := hs.nodup
  simp only [hb, ht, Option.toList_none, List.nil_append, List.map_cons, List.nodup_cons] at hnodup
  obtain ⟨hlive, htrace⟩ := hs.todo t (by simp [ht])
  refine ⟨by simpa using hnodup.2, fun u hu ↦ ?_, fun u hu ↦ by simp at hu, fun c subID hc hid ↦ ?_, fun c hc ↦ ?_⟩
  · have hne : u.1 ≠ t.1 := fun he ↦ hnodup.1 (he ▸ List.mem_map_of_mem hu)
    rw [Trace.of_record_ne hne]
    exact hs.todo u (by simp [ht, hu])
  · by_cases hct : c = t.1
    · subst c
      obtain rfl : t.2 = subID := Option.some.inj (hlive.symm.trans hid)
      exact .inl (by rw [Trace.of_record_self, htrace, List.nil_append])
    · rw [Trace.of_record_ne hct]
      exact hs.served c subID (by simpa [hb, ht, hct] using hc) hid
  · exact hs.untouched_record hlive _ hc

theorem Serving.stall (hs : Serving h event rawObj b) (hb : b.stalled = none) (ht : b.todo = t :: todo) :
    Serving h event rawObj ⟨hub, todo, some t, b.trace.record t.1 [.full]⟩ := by
  have hnodup := hs.nodup
  simp only [hb, ht, Option.toList_none, List.nil_append, List.map_cons, List.nodup_cons] at hnodup
  obtain ⟨hlive, htrace⟩ := hs.todo t (by simp [ht])
  refine ⟨by simpa using hnodup, fun u hu ↦ ?_, fun u hu ↦ ?_, fun c subID hc hid ↦ ?_, fun c hc ↦ ?_⟩
  · have hne : u.1 ≠ t.1 := fun he ↦ hnodup.1 (he ▸ List.mem_map_of_mem hu)
    rw [Trace.of_record_ne hne]
    exact hs.todo u (by simp [ht, hu])
  · cases hu
    exact ⟨hlive, by rw [Trace.of_record_self, htrace, List.nil_append]⟩
  · have hct : c ≠ t.1 := by
      rintro rfl
      simp at hc
    rw [Trace.of_record_ne hct]
    exact hs.served c subID (by simpa [hb, ht, hct] using hc) hid
  · exact hs.untouched_record hlive _ hc

theorem Serving.resolve (hs : Serving h event rawObj b) (hb : b.stalled = some t)
    (hserved : Served event rawObj t.2 ([.full] ++ effects)) :
    Serving h event rawObj ⟨hub, b.todo, none, b.trace.record t.1 effects⟩ := by
  have hnodup := hs.nodup
  simp only [hb, Option.toList_some, List.singleton_append, List.map_cons, List.nodup_cons] at hnodup
  obtain ⟨hlive, htrace⟩ := hs.stalled t hb
  refine ⟨by simpa using hnodup.2, fun u hu ↦ ?_, fun u hu ↦ by simp at hu, fun c subID hc hid ↦ ?_, fun c hc ↦ ?_⟩
  · have hne : u.1 ≠ t.1 := fun he ↦ hnodup.1 (he ▸ List.mem_map_of_mem hu)
    rw [Trace.of_record_ne hne]
    exact hs.todo u hu
  · by_cases hct : c = t.1
    · subst c
      obtain rfl : t.2 = subID := Option.some.inj (hlive.symm.trans hid)
      rwa [Trace.of_record_self, htrace]
    · rw [Trace.of_record_ne hct]
      exact hs.served c subID (by simpa [hb, hct] using hc) hid
  · exact hs.untouched_record hlive _ hc

theorem Serving.setHub (hs : Serving h event rawObj b) : Serving h event rawObj { b with hub } :=
  ⟨hs.nodup, hs.todo, hs.stalled, hs.served, hs.untouched⟩

theorem mirrors_start (ho : Hub.Opened h) (halive : h.crashed = none) (order : List (ClientID × String)) :
    Mirrors h ⟨h, order, none, []⟩ :=
  ⟨halive, fun c ↦ by simp [Trace.of], fun k ↦ by simp [Trace.of], ho.clients⟩

theorem serving_start {order : List (ClientID × String)} (ho : order.Perm (h.targets event)) :
    Serving h event rawObj ⟨h, order, none, []⟩ := by
  refine ⟨?_, fun t ht ↦ ⟨Hub.mem_targets_iff.mp (ho.mem_iff.mp ht), rfl⟩, fun t ht ↦ by simp at ht,
    fun c subID hc hid ↦ ?_, fun _ _ ↦ rfl⟩
  · exact ((ho.map Prod.fst).nodup_iff).mpr (Hub.targets_nodup h event)
  · refine absurd (List.mem_map.mpr ⟨(c, subID), ?_, rfl⟩) hc
    exact ho.mem_iff.mpr (Hub.mem_targets_iff.mpr hid)

/-- One channel operation: it cannot panic, and there is one less to come. -/
theorem advance_inv (hreg : ∀ k ∈ h.subscriptions, k.2 ∈ h.clients) (hm : Mirrors h b)
    (hs : Serving h event rawObj b) (ha : b.advance event rawObj = some b') :
    Mirrors h b' ∧ Serving h event rawObj b' ∧ b'.left < b.left := by
  unfold Broadcast.advance at ha
  cases hb : b.stalled with
  | some t =>
    obtain ⟨hlive, htrace⟩ := hs.stalled t hb
    have hc : t.1 ∈ b.hub.clients := hm.registered hreg hlive (by simp [htrace])
    simp only [hb] at ha
    rcases Chan.trySend_open (hm.opened _ hc) (resyncMessage event t.2) with hsent | hfull
    · rw [hsent] at ha
      cases ha
      refine ⟨hm.enqueue t.1 _, hs.resolve hb (.inr (.inl rfl)), ?_⟩
      simp [Broadcast.left, hb]
    · obtain ⟨hub, hremove, hm'⟩ := hm.removeClient hc
      rw [hfull] at ha
      simp only [hremove] at ha
      cases ha
      refine ⟨hm' b.todo, hs.resolve hb (.inr (.inr rfl)), ?_⟩
      simp [Broadcast.left, hb]
  | none =>
    simp only [hb] at ha
    cases ht : b.todo with
    | nil =>
      rw [ht] at ha
      contradiction
    | cons t rest =>
      obtain ⟨hlive, htrace⟩ := hs.todo t (by simp [ht])
      have hc : t.1 ∈ b.hub.clients := hm.registered hreg hlive (by simp [htrace])
      simp only [ht] at ha
      rcases Chan.trySend_open (hm.opened _ hc) (eventMessage event rawObj t.2) with hsent | hfull
      · rw [hsent] at ha
        cases ha
        refine ⟨hm.enqueue t.1 _, hs.send hb ht, ?_⟩
        simp [Broadcast.left, hb, ht]
      · rw [hfull] at ha
        cases ha
        refine ⟨hm.record (by simp) t.1 (some t), hs.stall hb ht, ?_⟩
        simp [Broadcast.left, hb, ht]
        omega

theorem run_inv (hreg : ∀ k ∈ h.subscriptions, k.2 ∈ h.clients) {acts : List BroadcastAct} (hm : Mirrors h b)
    (hs : Serving h event rawObj b) (hr : exec (Broadcast.step event rawObj) b acts = some b') :
    Mirrors h b' ∧ Serving h event rawObj b' ∧ acts.countP BroadcastAct.isAdvance + b'.left ≤ b.left := by
  induction acts generalizing b with
  | nil =>
    cases hr
    exact ⟨hm, hs, by simp⟩
  | cons a acts ih =>
    obtain ⟨b₁, ha, htail⟩ := Option.bind_eq_some_iff.mp hr
    cases a with
    | interfere a =>
      obtain ⟨hub, hstep, rfl⟩ := Option.map_eq_some_iff.mp ha
      obtain ⟨hm', hs', hle⟩ := ih (hm.frames (Hub.clientStep_frames hstep)) hs.setHub htail
      refine ⟨hm', hs', ?_⟩
      rw [List.countP_cons_of_neg (by simp [BroadcastAct.isAdvance])]
      exact hle
    | advance =>
      simp only [Broadcast.step, hm.alive, Option.isSome_none, Bool.false_eq_true, if_false] at ha
      obtain ⟨hm₁, hs₁, hlt⟩ := advance_inv hreg hm hs ha
      obtain ⟨hm', hs', hle⟩ := ih hm₁ hs₁ htail
      refine ⟨hm', hs', ?_⟩
      simp only [List.countP_cons, BroadcastAct.isAdvance, if_true]
      omega

theorem advance_isSome (hm : Mirrors h b) (hb : ¬ b.Finished) :
    (b.step event rawObj .advance).isSome = true := by
  simp only [Broadcast.step, hm.alive, Option.isSome_none, Bool.false_eq_true, if_false, Broadcast.advance]
  cases hst : b.stalled with
  | some t =>
    dsimp only
    split
    · rfl
    · split <;> rfl
    · rfl
  | none =>
    cases ht : b.todo with
    | nil => exact absurd ⟨ht, hst⟩ hb
    | cons t rest =>
      dsimp only
      split <;> rfl

theorem Delivered.of_finished (hm : Mirrors h b) (hs : Serving h event rawObj b) (hb : b.Finished) :
    Delivered h event rawObj b where
  served c subID hid := hs.served c subID (by simp [hb.1, hb.2]) hid
  untouched := hs.untouched
  clients := hm.clients
  subscriptions := hm.subscriptions

theorem step_send (ha : b.hub.crashed = none) (hb : b.stalled = none) (ht : b.todo = t :: todo)
    {ch : Chan OutgoingMessage} (hsent : (b.hub.conn t.1).send.trySend (eventMessage event rawObj t.2) = .sent ch) :
    b.step event rawObj .advance =
      some ⟨b.hub.setSend t.1 ch, todo, none, b.trace.record t.1 [.sent (eventMessage event rawObj t.2)]⟩ := by
  simp [Broadcast.step, ha, Broadcast.advance, hb, ht, hsent]

theorem step_stall (ha : b.hub.crashed = none) (hb : b.stalled = none) (ht : b.todo = t :: todo)
    (hfull : (b.hub.conn t.1).send.trySend (eventMessage event rawObj t.2) = .full) :
    b.step event rawObj .advance = some ⟨b.hub, todo, some t, b.trace.record t.1 [.full]⟩ := by
  simp [Broadcast.step, ha, Broadcast.advance, hb, ht, hfull]

theorem step_resync (ha : b.hub.crashed = none) (hb : b.stalled = some t) {ch : Chan OutgoingMessage}
    (hsent : (b.hub.conn t.1).send.trySend (resyncMessage event t.2) = .sent ch) :
    b.step event rawObj .advance =
      some ⟨b.hub.setSend t.1 ch, b.todo, none, b.trace.record t.1 [.sent (resyncMessage event t.2)]⟩ := by
  simp [Broadcast.step, ha, Broadcast.advance, hb, hsent]

theorem step_disconnect (ha : b.hub.crashed = none) (hb : b.stalled = some t)
    (hfull : (b.hub.conn t.1).send.trySend (resyncMessage event t.2) = .full)
    (hremove : b.hub.removeClient t.1 = .ok hub) :
    b.step event rawObj .advance = some ⟨hub, b.todo, none, b.trace.record t.1 [.full, .disconnected]⟩ := by
  simp [Broadcast.step, ha, Broadcast.advance, hb, hfull, hremove]

/-- With nothing stepping in between, the channel operations come to what `deliver` does with a target. -/
theorem advance_deliver (hreg : ∀ k ∈ h.subscriptions, k.2 ∈ h.clients) (hm : Mirrors h b)
    (hs : Serving h event rawObj b) (hb : b.stalled = none) (ht : b.todo = t :: todo) :
    ∃ acts b₁, exec (Broadcast.step event rawObj) b acts = some b₁ ∧ b₁.stalled = none ∧ b₁.todo = todo ∧
      b.hub.deliver event rawObj t = .ok b₁.hub := by
  obtain ⟨hlive, htrace⟩ := hs.todo t (by simp [ht])
  have hc : t.1 ∈ b.hub.clients := hm.registered hreg hlive (by simp [htrace])
  have hopen := hm.opened _ hc
  unfold Hub.deliver Hub.sendResync
  rw [← eventMessage, ← resyncMessage]
  rcases Chan.trySend_open hopen (eventMessage event rawObj t.2) with hsent | hfull
  · have hlast := exec_singleton (step_send hm.alive hb ht hsent)
    refine ⟨_, _, hlast, rfl, rfl, ?_⟩
    rw [hsent]
  · have hfirst := exec_singleton (step_stall hm.alive hb ht hfull)
    rw [hfull]
    rcases Chan.trySend_open hopen (resyncMessage event t.2) with hsent | hfull
    · have hlast := exec_concat hfirst (step_resync (b := ⟨b.hub, todo, some t, _⟩) hm.alive rfl hsent)
      refine ⟨_, _, hlast, rfl, rfl, ?_⟩
      rw [hsent]
    · obtain ⟨hub, hremove, -⟩ := hm.removeClient hc
      have hlast := exec_concat hfirst (step_disconnect (b := ⟨b.hub, todo, some t, _⟩) hm.alive rfl hfull hremove)
      refine ⟨_, _, hlast, rfl, rfl, ?_⟩
      rw [hfull]
      exact hremove

theorem exec_deliver (hreg : ∀ k ∈ h.subscriptions, k.2 ∈ h.clients) (hm : Mirrors h b)
    (hs : Serving h event rawObj b) (hb : b.stalled = none) :
    ∃ acts b', exec (Broadcast.step event rawObj) b acts = some b' ∧ b'.Finished ∧
      b.todo.foldlM (fun h t ↦ h.deliver event rawObj t) b.hub = .ok b'.hub := by
  generalize ht : b.todo = todo
  induction todo generalizing b with
  | nil => exact ⟨[], b, rfl, ⟨ht, hb⟩, rfl⟩
  | cons t todo ih =>
    obtain ⟨acts, b₁, hrun, hb₁, ht₁, hdeliver⟩ := advance_deliver hreg hm hs hb ht
    obtain ⟨hm₁, hs₁, -⟩ := run_inv hreg hm hs hrun
    obtain ⟨acts', b', hrun', hfinished, hfold⟩ := ih hm₁ hs₁ hb₁ ht₁
    refine ⟨acts ++ acts', b', ?_, hfinished, ?_⟩
    · rw [exec_append, hrun]
      exact hrun'
    · rw [List.foldlM_cons, hdeliver]
      exact hfold

/-- The hub's handler, taken as one step, is such a broadcast. -/
theorem broadcastEvent_delivered (ho : Hub.Opened h) (halive : h.crashed = none)
    (hreg : ∀ k ∈ h.subscriptions, k.2 ∈ h.clients) {order : List (ClientID × String)}
    (hperm : order.Perm (h.targets event)) (hobj : event.object = some rawObj) :
    ∃ b, h.broadcastEvent event order = .ok b.hub ∧ Delivered h event rawObj b := by
  have hm := mirrors_start ho halive order
  obtain ⟨acts, b, hrun, hfinished, hfold⟩ := exec_deliver hreg hm (serving_start hperm) rfl
  obtain ⟨hm', hs', -⟩ := run_inv hreg hm (serving_start hperm) hrun
  refine ⟨b, ?_, .of_finished hm' hs' hfinished⟩
  rw [Hub.broadcastEvent, hobj]
  exact hfold

/-- However the other goroutines step in between, a broadcast ends after at most two channel operations a
target, and has then served every live subscription once and nothing else. -/
theorem event_delivered {accessChecker : Bool} {run : List Act}
    (hrun : exec Hub.step (Hub.init accessChecker) run = some h) (halive : h.crashed = none)
    (hreg : ∀ k ∈ h.subscriptions, k.2 ∈ h.clients) {order : List (ClientID × String)}
    (ho : order.Perm (h.targets event)) {acts : List BroadcastAct}
    (hb : exec (Broadcast.step event rawObj) ⟨h, order, none, []⟩ acts = some b) :
    b.hub.crashed = none ∧ acts.countP BroadcastAct.isAdvance ≤ 2 * order.length ∧
      (¬ b.Finished → (b.step event rawObj .advance).isSome = true) ∧
      (b.Finished → Delivered h event rawObj b) := by
  have hm := mirrors_start (Hub.reachable_opened hrun) halive order
  obtain ⟨hm', hs', hle⟩ := run_inv hreg hm (serving_start ho) hb
  refine ⟨hm'.alive, ?_, advance_isSome hm', .of_finished hm' hs'⟩
  have hleft : (⟨h, order, none, []⟩ : Broadcast).left = 2 * order.length := rfl
  omega

end

/-- A client registers and subscribes to the pods of a namespace. -/
def oneSubscriber : List Act :=
  [.register 0, .auth 0 (some ⟨"alice", []⟩) true,
    .read 0 (some { type := "subscribe", id := "s1", kind := "pods", ns := "default" }) true (some true), .addSub]

def podAdded : ResourceEvent := ⟨"ADDED", "pods", "default", "web-0", some "{}"⟩

theorem event_delivered_oneSubscriber : ∃ h b, exec Hub.step (Hub.init true) oneSubscriber = some h ∧
    exec (Broadcast.step podAdded "{}") ⟨h, [(0, "s1")], none, []⟩ [.interfere (.confirm 0), .advance] = some b ∧
    Delivered h podAdded "{}" b := by
  have hruns : (exec Hub.step (Hub.init true) oneSubscriber).map (fun h ↦
      (h.crashed, h.subscriptions.keys, decide (0 ∈ h.clients), h.targets podAdded,
        (exec (Broadcast.step podAdded "{}") ⟨h, [(0, "s1")], none, []⟩ [.interfere (.confirm 0), .advance]).map
          (fun b ↦ (b.todo, b.stalled)))) =
      some (none, [(⟨"pods", "default"⟩, 0)], true, [(0, "s1")], some ([], none)) := rfl
  obtain ⟨h, hrun, heq⟩ := Option.map_eq_some_iff.mp hruns
  simp only [Prod.mk.injEq, decide_eq_true_eq] at heq
  obtain ⟨halive, hkeys, hclient, htargets, hacts⟩ := heq
  obtain ⟨b, hb, hend⟩ := Option.map_eq_some_iff.mp hacts
  have hreg : ∀ k ∈ h.subscriptions, k.2 ∈ h.clients := by
    intro k hk
    rw [AList.mem_keys, hkeys] at hk
    obtain rfl := List.mem_singleton.mp hk
    exact hclient
  have hdelivered := (event_delivered hrun halive hreg (by rw [htargets]) hb).2.2.2
  exact ⟨h, b, hrun, hb, hdelivered (Prod.mk.inj hend)⟩

end KubeCenter.Websocket
