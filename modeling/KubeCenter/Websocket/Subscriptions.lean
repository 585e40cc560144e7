import KubeCenter.Websocket.Delivery

namespace KubeCenter.Websocket

open KubeCenter.Core Function

namespace Hub

variable (h : Hub) (c : ClientID)

/-- The client's entries in the subscription maps. -/
def held : ℕ := h.subscriptions.countKeys (fun k ↦ k.2 = c)

/-- Its subscriptions still on their way to the hub. -/
def pending : ℕ := h.addSub.buf.countP (fun change ↦ change.client = c)

/-- The hub has processed all messages of the client. -/
def Settled : Prop :=
  (∀ change ∈ h.addSub.buf, change.client ≠ c) ∧ ∀ req ∈ h.unsubByID.buf, req.client ≠ c

/-- The client is registered or has yet to register. -/
def Current : Prop := c ∈ h.clients ∨ (h.conn c).pump = .registering

/-- A subscription of the client carries the id, or one on its way. -/
def Carried (id : String) : Prop :=
  (∃ key, h.subscriptions.lookup (key, c) = some id) ∨ ∃ change ∈ h.addSub.buf, change.client = c ∧ change.id = id

end Hub

/-- The hub with, for each client, the ids it has unsubscribed and not subscribed again, and the queued
requests of `unsubByID`, each with whether the client's counter went down for it. -/
structure Ledger where
  hub : Hub
  unsubscribed : ClientID → Finset String := fun _ ↦ ∅
  requests : List (UnsubRequest × Bool) := []

namespace Ledger

variable (s : Ledger)

def received (hub : Hub) (c : ClientID) (msg : IncomingMessage) (kindAllowed : Bool) (rbac : Option Bool) : Ledger :=
  if msg.type = msgTypeSubscribe then
    match handleSubscribe (s.hub.conn c) s.hub.accessChecker msg kindAllowed rbac with
    | .accept _ => { s with hub, unsubscribed := update s.unsubscribed c ((s.unsubscribed c).erase msg.id) }
    | _ => { s with hub }
  else if msg.type = msgTypeUnsubscribe ∧ msg.id ≠ "" then
    { hub
      unsubscribed := update s.unsubscribed c (insert msg.id (s.unsubscribed c))
      requests := s.requests ++ [(⟨c, msg.id⟩, decide (0 < (s.hub.conn c).subCount))] }
  else { s with hub }

def record (hub : Hub) : Act → Ledger
  | .read c (some msg) kindAllowed rbac => s.received hub c msg kindAllowed rbac
  | .unsubByID _ => { s with hub, requests := s.requests.tail }
  | _ => { s with hub }

def step (s : Ledger) (a : Act) : Option Ledger := (s.hub.step a).map (fun hub ↦ s.record hub a)

def init (accessChecker : Bool) : Ledger := { hub := Hub.init accessChecker }

/-- The queued requests of the client for which its counter went down. -/
def counted (c : ClientID) : ℕ := s.requests.countP (fun r ↦ r.1.client = c && r.2)

/-- Of a registered client whose messages the hub has processed: it holds at most `maxSubscriptions` entries,
with fewer no subscription is refused for the quota, and no entry carries an id it has unsubscribed. -/
def Accounted : Prop :=
  ∀ c ∈ s.hub.clients, s.hub.Settled c →
    s.hub.held c ≤ maxSubscriptions ∧
    (s.hub.held c < maxSubscriptions → ∀ msg kindAllowed rbac,
      handleSubscribe (s.hub.conn c) s.hub.accessChecker msg kindAllowed rbac ≠ .reject 429 "too many subscriptions") ∧
    ∀ key id, s.hub.subscriptions.lookup (key, c) = some id → id ∉ s.unsubscribed c

/-- The hub files a subscription under a topic its client does not hold; it takes a request whose counter
went down, and no other, when the client holds a subscription with the id, and then that was the last thing to
carry an id the client has unsubscribed, or another request for it is queued; and it revokes nothing. -/
def Coupled : Act → Prop
  | .addSub => ∀ change ∈ s.hub.addSub.buf.head?, change.client ∈ s.hub.clients →
      (change.key, change.client) ∉ s.hub.subscriptions
  | .unsubByID pick => ∀ r ∈ s.requests.head?, r.1.client ∈ s.hub.clients →
      (r.2 = true ↔ ∃ key, s.hub.subscriptions.lookup (key, r.1.client) = some r.1.id) ∧
      (r.1.id ∈ s.unsubscribed r.1.client → (∀ r' ∈ s.requests.tail, r'.1 ≠ r.1) →
        (∀ key, s.hub.subscriptions.lookup (key, r.1.client) = some r.1.id → pick = some key) ∧
        ∀ change ∈ s.hub.addSub.buf, change.client = r.1.client → change.id ≠ r.1.id)
  | .tick check _ => s.hub.accessChecker = true → ∀ k ∈ s.hub.subscriptions, k.2 ∈ s.hub.clients →
      s.hub.denied check k = false
  | _ => True

end Ledger

namespace Hub

variable {h h' h'' : Hub} {c : ClientID}

/-- What the steps that are no subscription's business leave of the clients that are still current. -/
structure Leaves (h h' : Hub) : Prop where
  current : ∀ c, h'.Current c → h.Current c
  held : ∀ c, h'.Current c → h'.held c = h.held c
  lookup : ∀ c, h'.Current c → ∀ key, h'.subscriptions.lookup (key, c) = h.subscriptions.lookup (key, c)
  addSub : h'.addSub.buf = h.addSub.buf
  unsubByID : h'.unsubByID.buf = h.unsubByID.buf
  subCount : ∀ c, (h'.conn c).subCount = (h.conn c).subCount
  registering : ∀ c, (h'.conn c).pump = .registering → (h.conn c).pump = .registering

theorem Leaves.refl (h : Hub) : Leaves h h :=
  ⟨fun _ hc ↦ hc, fun _ _ ↦ rfl, fun _ _ _ ↦ rfl, rfl, rfl, fun _ ↦ rfl, fun _ hp ↦ hp⟩

theorem Leaves.trans (h₁ : Leaves h h') (h₂ : Leaves h' h'') : Leaves h h'' where
  current c hc := h₁.current c (h₂.current c hc)
  held c hc := (h₂.held c hc).trans (h₁.held c (h₂.current c hc))
  lookup c hc key := (h₂.lookup c hc key).trans (h₁.lookup c (h₂.current c hc) key)
  addSub := h₂.addSub.trans h₁.addSub
  unsubByID := h₂.unsubByID.trans h₁.unsubByID
  subCount c := (h₂.subCount c).trans (h₁.subCount c)
  registering c hp := h₁.registering c (h₂.registering c hp)

/-- No client comes back to registering by a change of one that does not. -/
theorem registering_of_setConn {cl : Client} (hp : cl.pump = .registering → (h.conn c).pump = .registering)
    {d : ClientID} (hd : ((h.setConn c cl).conn d).pump = .registering) : (h.conn d).pump = .registering := by
  by_cases hdc : d = c
  · subst d
    exact hp (by simpa [setConn] using hd)
  · simpa [setConn, update_of_ne hdc] using hd

theorem leaves_setConn {cl : Client} (hp : cl.pump = .registering → (h.conn c).pump = .registering)
    (hs : cl.subCount = (h.conn c).subCount) : Leaves h (h.setConn c cl) := by
  refine ⟨fun d hd ↦ hd.imp id (registering_of_setConn hp), fun _ _ ↦ rfl, fun _ _ _ ↦ rfl, rfl, rfl, fun d ↦ ?_,
    fun _ ↦ registering_of_setConn hp⟩
  by_cases hdc : d = c
  · subst d
    simp [setConn, hs]
  · simp [setConn, update_of_ne hdc]

theorem leaves_setSend {ch : Chan OutgoingMessage} : Leaves h (h.setSend c ch) := leaves_setConn id rfl

theorem leaves_setPump {p : Pump} (hp : p ≠ .registering) : Leaves h (h.setPump c p) :=
  leaves_setConn (fun he ↦ absurd he hp) rfl

theorem removeClient_leaves (hp : (h.conn c).pump ≠ .registering) (hr : h.removeClient c = .ok h') :
    Leaves h h' := by
  simp only [removeClient] at hr
  split at hr
  · contradiction
  · cases hr
    have hl : Leaves h (h.setSend c (h.conn c).send.close) := leaves_setSend
    have hne : ∀ d, Current { h.setSend c (h.conn c).send.close with
        subscriptions := h.subscriptions.filter (fun k ↦ k.2 ≠ c)
        clients := h.clients.erase c
        clientCount := h.clientCount - 1 } d → d ≠ c := by
      intro d hd
      rcases hd with hd | hd
      · exact (Finset.mem_erase.mp hd).1
      · rintro rfl
        exact hp (hl.registering d hd)
    refine ⟨fun d hd ↦ hd.imp (fun hd ↦ (Finset.mem_erase.mp hd).2) (hl.registering d), fun d hd ↦ ?_,
      fun d hd key ↦ ?_, rfl, rfl, hl.subCount, hl.registering⟩
    · apply GoMap.countKeys_filter
      intro k hk
      simpa using (of_decide_eq_true hk) ▸ hne d hd
    · rw [GoMap.lookup_filter]
      simp [hne d hd]

theorem deliver_leaves {event : ResourceEvent} {rawObj : String} {t : ClientID × String}
    (hp : (h.conn t.1).pump ≠ .registering) (hd : h.deliver event rawObj t = .ok h') : Leaves h h' := by
  unfold deliver at hd
  split at hd
  · cases hd
    exact leaves_setSend
  · unfold sendResync at hd
    split at hd
    · cases hd
      exact leaves_setSend
    · exact removeClient_leaves hp hd
    · contradiction
  · contradiction

theorem broadcastEvent_leaves {event : ResourceEvent} {order : List (ClientID × String)} (ho : Opened h)
    (hperm : order.Perm (h.targets event)) (hr : h.broadcastEvent event order = .ok h') : Leaves h h' := by
  unfold broadcastEvent at hr
  split at hr
  · cases hr
    exact .refl h
  · apply foldlM_related (N := fun h t ↦ (h.conn t.1).pump ≠ .registering) Leaves.refl (fun _ _ _ ↦ Leaves.trans) _ _ hr
    · intro h t h' hp hd
      refine ⟨deliver_leaves hp hd, fun u hu ↦ ?_⟩
      rwa [(deliver_keeps hp hd).pump]
    · intro t ht
      obtain ⟨key, hk⟩ := mem_targets (hperm.mem_iff.mp ht)
      exact ho.subscribed _ hk

theorem revoke_leaves {r : Sigma fun _ : SubKey × ClientID ↦ String} (hc : ¬ h.Current r.1.2)
    (hr : h.revoke r = .ok h') : Leaves h h' := by
  have hne : ∀ d, h.Current d → r.1.2 ≠ d := fun d hd he ↦ hc (he ▸ hd)
  have herase : Leaves h { h with subscriptions := h.subscriptions.erase r.1 } := by
    refine ⟨fun _ hd ↦ hd, fun d hd ↦ GoMap.countKeys_erase_ne _ (by simpa using hne d hd), fun d hd key ↦ ?_, rfl, rfl,
      fun _ ↦ rfl, fun _ hp ↦ hp⟩
    apply AList.lookup_erase_ne
    intro he
    exact hne d hd (congrArg Prod.snd he).symm
  unfold revoke at hr
  dsimp only at hr
  split at hr
  · cases hr
    exact herase.trans leaves_setSend
  · cases hr
    exact herase
  · contradiction

theorem revalidateSubscriptions_leaves {check : SubKey → User → Option Bool}
    {order : List (Sigma fun _ : SubKey × ClientID ↦ String)} (ho : Opened h)
    (hperm : order.Perm h.subscriptions.entries)
    (hkept : h.accessChecker = true → ∀ k ∈ h.subscriptions, k.2 ∈ h.clients → h.denied check k = false)
    (hr : h.revalidateSubscriptions check order = .ok h') : Leaves h h' := by
  unfold revalidateSubscriptions at hr
  split at hr
  · next hchecker =>
    apply foldlM_related (N := fun h r ↦ ¬ h.Current r.1.2) Leaves.refl (fun _ _ _ ↦ Leaves.trans) _ _ hr
    · intro h r h' hc hr
      have hl := revoke_leaves hc hr
      exact ⟨hl, fun u hu hu' ↦ hu (hl.current _ hu')⟩
    · intro r hr hc
      obtain ⟨hr, hdenied⟩ := List.mem_filter.mp hr
      have hk : r.1 ∈ h.subscriptions := GoMap.mem_of_mem_entries (hperm.mem_iff.mp hr)
      rcases hc with hc | hc
      · rw [hkept hchecker r.1 hk hc] at hdenied
        contradiction
      · exact ho.subscribed r.1 hk hc
  · cases hr
    exact .refl h

theorem settle_leaves {r : Except Panic Hub} (hr : ∀ h', r = .ok h' → Leaves h h') : Leaves h (h.settle r) := by
  cases r with
  | ok h' => exact hr h' rfl
  | error p => exact ⟨fun _ hc ↦ hc, fun _ _ ↦ rfl, fun _ _ _ ↦ rfl, rfl, rfl, fun _ ↦ rfl, fun _ hp ↦ hp⟩

theorem shutdown_leaves (ho : Opened h) : Leaves h h.shutdown := by
  have hconn : ∀ c, (h.shutdown.conn c).pump = (h.conn c).pump ∧ (h.shutdown.conn c).subCount = (h.conn c).subCount := by
    intro c
    simp only [shutdown]
    split <;> exact ⟨rfl, rfl⟩
  have hnew : ∀ c, h.shutdown.Current c → (h.conn c).pump = .registering ∧ c ∉ h.clients := by
    intro c hc
    rcases hc with hc | hc
    · exact absurd hc (Finset.notMem_empty c)
    · rw [(hconn c).1] at hc
      exact ⟨hc, (ho.registering c hc).1⟩
  refine ⟨fun c hc ↦ .inr (hnew c hc).1, fun c hc ↦ ?_, fun c hc key ↦ ?_, rfl, rfl, fun c ↦ (hconn c).2,
    fun c hc ↦ by rwa [(hconn c).1] at hc⟩
  · apply GoMap.countKeys_filter
    intro k hk
    simpa using (of_decide_eq_true hk) ▸ (hnew c hc).2
  · simp only [shutdown, GoMap.lookup_filter]
    simp [(hnew c hc).2]

theorem register_leaves (hp : (h.conn c).pump = .registering) :
    Leaves h { h.setPump c .waitForAuth with
      clients := insert c h.clients, clientCount := h.clientCount + 1 } := by
  have hl : Leaves h (h.setPump c .waitForAuth) := leaves_setPump (by simp)
  refine ⟨fun d hd ↦ ?_, fun _ _ ↦ rfl, fun _ _ _ ↦ rfl, rfl, rfl, hl.subCount, hl.registering⟩
  rcases hd with hd | hd
  · rcases Finset.mem_insert.mp hd with rfl | hd
    · exact .inr hp
    · exact .inl hd
  · exact .inr (hl.registering d hd)

theorem sendError_leaves (h : Hub) (c : ClientID) (id : String) (code : ℕ) (message : String) :
    Leaves h (h.sendError c id code message) := by
  unfold sendError
  split
  · exact leaves_setSend
  · exact .refl h
  · exact leaves_setPump (by simp)

theorem confirm_leaves (h : Hub) (c : ClientID) (id : String) : Leaves h (h.confirm c id) := by
  unfold confirm
  split
  · exact leaves_setConn (fun he ↦ by simp at he) rfl
  · exact leaves_setPump (by simp)
  · exact leaves_setPump (by simp)

/-- The steps that are no subscription's business; a tick is none if it revokes nothing. -/
theorem step_leaves {a : Act} (ho : Opened h) (hs : h.step a = some h')
    (ha : match a with
      | .addSub | .unsubByID _ | .read _ (some _) _ _ => False
      | .tick check _ => h.accessChecker = true → ∀ k ∈ h.subscriptions, k.2 ∈ h.clients → h.denied check k = false
      | _ => True) :
    Leaves h h' := by
  unfold step at hs
  split at hs
  · contradiction
  cases a with
  | register c =>
    simp only [runStep, Option.ite_none_left_eq_some, Option.ite_none_right_eq_some, Option.some.injEq] at hs
    obtain ⟨-, hp, rfl⟩ := hs
    exact register_leaves hp
  | unregister c =>
    simp only [runStep, Option.ite_none_left_eq_some, Option.ite_none_right_eq_some, Option.some.injEq] at hs
    obtain ⟨-, -, rfl⟩ := hs
    have hl : Leaves h (h.setPump c .left) := leaves_setPump (by simp)
    split
    · refine hl.trans (settle_leaves (fun _ ↦ removeClient_leaves ?_))
      simp [setPump, setConn]
    · exact hl
  | event order =>
    simp only [runStep, Option.ite_none_left_eq_some] at hs
    obtain ⟨-, hs⟩ := hs
    split at hs
    · next event rest hb =>
      simp only [Option.ite_none_right_eq_some, Option.some.injEq] at hs
      obtain ⟨hperm, rfl⟩ := hs
      have hq : Opened { h with events := { h.events with buf := rest } } :=
        ⟨ho.clients, ho.registering, ho.subscribed, ho.queued⟩
      have hl : Leaves h { h with events := { h.events with buf := rest } } :=
        ⟨fun _ hc ↦ hc, fun _ _ ↦ rfl, fun _ _ _ ↦ rfl, rfl, rfl, fun _ ↦ rfl, fun _ hp ↦ hp⟩
      exact hl.trans (settle_leaves (fun _ ↦ broadcastEvent_leaves hq hperm))
    · contradiction
  | tick check order =>
    simp only [runStep, Option.ite_none_left_eq_some, Option.ite_none_right_eq_some, Option.some.injEq] at hs
    obtain ⟨-, hperm, rfl⟩ := hs
    exact settle_leaves (fun _ ↦ revalidateSubscriptions_leaves ho hperm ha)
  | done =>
    simp only [runStep, Option.ite_none_left_eq_some, Option.some.injEq] at hs
    obtain ⟨-, rfl⟩ := hs
    exact shutdown_leaves ho
  | auth c user written =>
    simp only [clientStep, Option.ite_none_right_eq_some, Option.some.injEq] at hs
    obtain ⟨-, rfl⟩ := hs
    refine leaves_setConn (fun he ↦ ?_) rfl
    dsimp only at he
    split at he <;> contradiction
  | read c msg kindAllowed rbac =>
    cases msg with
    | some msg => exact ha.elim
    | none =>
      simp only [clientStep, readMessage, Option.ite_none_right_eq_some, Option.some.injEq] at hs
      obtain ⟨-, rfl⟩ := hs
      exact sendError_leaves _ _ _ _ _
  | confirm c =>
    simp only [clientStep] at hs
    split at hs
    · cases hs
      exact confirm_leaves h c _
    · contradiction
  | hangUp c =>
    simp only [clientStep, Option.ite_none_right_eq_some, Option.some.injEq] at hs
    obtain ⟨-, rfl⟩ := hs
    exact leaves_setPump (by simp)
  | write c =>
    simp only [clientStep] at hs
    split at hs
    · cases hs
      exact leaves_setSend
    · contradiction
  | handleEvent event =>
    simp only [clientStep] at hs
    split at hs <;> cases hs
    · exact ⟨fun _ hc ↦ hc, fun _ _ ↦ rfl, fun _ _ _ ↦ rfl, rfl, rfl, fun _ ↦ rfl, fun _ hp ↦ hp⟩
    · exact .refl h
  | addSub | unsubByID => exact ha.elim

end Hub

namespace Ledger

/-- A client's counter, with the requests it went down for, is what the hub holds and will hold of it; what
carries an id the client has unsubscribed is going to be taken for it. -/
structure Inv (s : Ledger) : Prop where
  opened : Hub.Opened s.hub
  requests : s.requests.map Prod.fst = s.hub.unsubByID.buf
  past : ∀ r ∈ s.requests, (s.hub.conn r.1.client).pump ≠ .registering
  count : ∀ c, s.hub.Current c → (s.hub.conn c).subCount + s.counted c = s.hub.held c + s.hub.pending c
  quota : ∀ c, (s.hub.conn c).subCount ≤ maxSubscriptions
  unsubscribed : ∀ c, s.hub.Current c → ∀ id ∈ s.unsubscribed c, s.hub.Carried c id → ∃ r ∈ s.requests, r.1 = ⟨c, id⟩

variable {s s' : Ledger} {hub : Hub} {c : ClientID}

theorem pending_eq_zero (h : ∀ change ∈ hub.addSub.buf, change.client ≠ c) : hub.pending c = 0 :=
  List.countP_eq_zero.mpr (fun change hc ↦ by simpa using h change hc)

theorem not_quota {cl : Client} (h : cl.subCount < maxSubscriptions) (accessChecker : Bool) (msg : IncomingMessage)
    (kindAllowed : Bool) (rbac : Option Bool) :
    handleSubscribe cl accessChecker msg kindAllowed rbac ≠ .reject 429 "too many subscriptions" := by
  unfold handleSubscribe
  rw [if_neg (Nat.not_le.mpr h)]
  intro he
  split at he
  · simp at he
  · split at he
    · simp at he
    · dsimp only at he
      split at he
      · simp at he
      · split at he
        · simp at he
        · split at he <;> simp at he

theorem Inv.accounted (hi : Inv s) : s.Accounted := by
  intro c hc hsettled
  have hcounted : s.counted c = 0 := by
    apply List.countP_eq_zero.mpr
    intro r hr
    have hreq : r.1 ∈ s.hub.unsubByID.buf := hi.requests ▸ List.mem_map_of_mem hr
    simp [hsettled.2 r.1 hreq]
  have hcount := hi.count c (.inl hc)
  rw [hcounted, pending_eq_zero hsettled.1, Nat.add_zero, Nat.add_zero] at hcount
  refine ⟨hcount ▸ hi.quota c, fun hlt ↦ not_quota (hcount ▸ hlt) s.hub.accessChecker, fun key id hid hun ↦ ?_⟩
  obtain ⟨r, hr, heq⟩ := hi.unsubscribed c (.inl hc) id hun (.inl ⟨key, hid⟩)
  have hreq : r.1 ∈ s.hub.unsubByID.buf := hi.requests ▸ List.mem_map_of_mem hr
  exact hsettled.2 r.1 hreq (by rw [heq])

theorem init_inv (accessChecker : Bool) : Inv (init accessChecker) where
  opened := Hub.init_opened accessChecker
  requests := rfl
  past _ hr := absurd hr List.not_mem_nil
  count _ _ := rfl
  quota _ := Nat.zero_le _
  unsubscribed _ _ id hid := absurd hid (Finset.notMem_empty id)

theorem Inv.leaves (hi : Inv s) (hl : Hub.Leaves s.hub hub) (ho : Hub.Opened hub) : Inv { s with hub } where
  opened := ho
  requests := hi.requests.trans hl.unsubByID.symm
  past r hr hp := hi.past r hr (hl.registering _ hp)
  count c hc := by
    have hcount := hi.count c (hl.current c hc)
    rw [← hl.subCount, ← hl.held c hc, Hub.pending, ← hl.addSub] at hcount
    exact hcount
  quota c := by
    rw [hl.subCount]
    exact hi.quota c
  unsubscribed c hc id hid hcarried := by
    refine hi.unsubscribed c (hl.current c hc) id hid ?_
    simpa only [Hub.Carried, hl.lookup c hc, hl.addSub] using hcarried

theorem Inv.subscribe (hi : Inv s) {cl : Client} {ch : Chan SubChange} {key : SubKey} {id : String}
    (hlt : (s.hub.conn c).subCount < maxSubscriptions) (hsent : s.hub.addSub.trySend ⟨c, key, id⟩ = .sent ch)
    (hpump : cl.pump ≠ .registering) (hcount : cl.subCount = (s.hub.conn c).subCount + 1)
    (ho : Hub.Opened ({ s.hub with addSub := ch }.setConn c cl)) :
    Inv { s with
      hub := { s.hub with addSub := ch }.setConn c cl
      unsubscribed := update s.unsubscribed c ((s.unsubscribed c).erase id) } := by
  obtain ⟨-, rfl⟩ := Chan.trySend_sent hsent
  have hpast : cl.pump = .registering → (s.hub.conn c).pump = .registering := fun he ↦ absurd he hpump
  have hcurrent : ∀ d, Hub.Current ({ s.hub with addSub := { s.hub.addSub with
      buf := s.hub.addSub.buf ++ [(⟨c, key, id⟩ : SubChange)] } }.setConn c cl) d → s.hub.Current d :=
    fun d hd ↦ hd.imp (fun h ↦ h) (Hub.registering_of_setConn hpast)
  refine ⟨ho, hi.requests, fun r hr ↦ ?_, fun d hd ↦ ?_, fun d ↦ ?_, fun d hd id' hid hcarried ↦ ?_⟩
  · exact fun he ↦ hi.past r hr (Hub.registering_of_setConn hpast he)
  · have hold := hi.count d (hcurrent d hd)
    by_cases hdc : d = c
    · subst d
      simp only [counted, Hub.held, Hub.pending, Hub.setConn, update_self, hcount, List.countP_append,
        List.countP_singleton, decide_true, if_true] at hold ⊢
      omega
    · simp only [counted, Hub.held, Hub.pending, Hub.setConn, update_of_ne hdc, List.countP_append,
        List.countP_singleton, decide_eq_true_eq, if_neg (Ne.symm hdc)] at hold ⊢
      omega
  · by_cases hdc : d = c
    · subst d
      simp only [Hub.setConn, update_self, hcount]
      omega
    · simpa only [Hub.setConn, update_of_ne hdc] using hi.quota d
  · have hold : id' ∈ s.unsubscribed d ∧ (d = c → id' ≠ id) := by
      by_cases hdc : d = c
      · subst d
        simp only [update_self, Finset.mem_erase] at hid
        exact ⟨hid.2, fun _ ↦ hid.1⟩
      · simp only [update_of_ne hdc] at hid
        exact ⟨hid, fun he ↦ absurd he hdc⟩
    refine hi.unsubscribed d (hcurrent d hd) id' hold.1 (hcarried.imp (fun h ↦ h) (fun h ↦ ?_))
    obtain ⟨change, hc, rfl, rfl⟩ := h
    rcases List.mem_append.mp hc with hc | hc
    · exact ⟨change, hc, rfl, rfl⟩
    · obtain rfl := List.mem_singleton.mp hc
      exact absurd rfl (hold.2 rfl)

theorem Inv.unsubscribe (hi : Inv s) {ch : Chan UnsubRequest} {id : String}
    (hsent : s.hub.unsubByID.trySend ⟨c, id⟩ = .sent ch) (hpump : (s.hub.conn c).pump ≠ .registering)
    (ho : Hub.Opened ({ s.hub with unsubByID := ch }.setConn c
      { s.hub.conn c with subCount := (s.hub.conn c).subCount - 1 })) :
    Inv {
      hub := { s.hub with unsubByID := ch }.setConn c { s.hub.conn c with subCount := (s.hub.conn c).subCount - 1 }
      unsubscribed := update s.unsubscribed c (insert id (s.unsubscribed c))
      requests := s.requests ++ [(⟨c, id⟩, decide (0 < (s.hub.conn c).subCount))] } := by
  obtain ⟨-, rfl⟩ := Chan.trySend_sent hsent
  have hpast : ({ s.hub.conn c with subCount := (s.hub.conn c).subCount - 1 } : Client).pump = .registering →
      (s.hub.conn c).pump = .registering := fun he ↦ he
  have hcurrent : ∀ d, Hub.Current ({ s.hub with unsubByID := { s.hub.unsubByID with
      buf := s.hub.unsubByID.buf ++ [(⟨c, id⟩ : UnsubRequest)] } }.setConn c
      { s.hub.conn c with subCount := (s.hub.conn c).subCount - 1 }) d → s.hub.Current d :=
    fun d hd ↦ hd.imp (fun h ↦ h) (Hub.registering_of_setConn (h := s.hub) hpast)
  refine ⟨ho, ?_, fun r hr ↦ ?_, fun d hd ↦ ?_, fun d ↦ ?_, fun d hd id' hid hcarried ↦ ?_⟩
  · rw [List.map_append, hi.requests]
    rfl
  · have hr : (s.hub.conn r.1.client).pump ≠ .registering := by
      rcases List.mem_append.mp hr with hr | hr
      · exact hi.past r hr
      · rw [List.mem_singleton.mp hr]
        exact hpump
    exact fun he ↦ hr (Hub.registering_of_setConn (h := s.hub) hpast he)
  · have hold := hi.count d (hcurrent d hd)
    by_cases hdc : d = c
    · subst d
      by_cases hpos : 0 < (s.hub.conn c).subCount
      · simp only [counted, Hub.held, Hub.pending, Hub.setConn, update_self, List.countP_append,
          List.countP_singleton, decide_true, hpos, Bool.and_self, if_true] at hold ⊢
        omega
      · simp only [counted, Hub.held, Hub.pending, Hub.setConn, update_self, List.countP_append,
          List.countP_singleton, hpos, decide_false, Bool.and_false, Bool.false_eq_true, if_false] at hold ⊢
        omega
    · simp only [counted, Hub.held, Hub.pending, Hub.setConn, update_of_ne hdc, List.countP_append,
        List.countP_singleton, Bool.and_eq_true, decide_eq_true_eq, Ne.symm hdc, false_and, if_false] at hold ⊢
      omega
  · by_cases hdc : d = c
    · subst d
      have hle := hi.quota c
      simp only [Hub.setConn, update_self]
      omega
    · simpa only [Hub.setConn, update_of_ne hdc] using hi.quota d
  · by_cases hnew : d = c ∧ id' = id
    · obtain ⟨rfl, rfl⟩ := hnew
      exact ⟨_, List.mem_append_right _ (List.mem_singleton_self _), rfl⟩
    · have hold : id' ∈ s.unsubscribed d := by
        by_cases hdc : d = c
        · subst d
          simp only [update_self, Finset.mem_insert] at hid
          exact hid.resolve_left (fun he ↦ hnew ⟨rfl, he⟩)
        · simpa only [update_of_ne hdc] using hid
      obtain ⟨r, hr, heq⟩ := hi.unsubscribed d (hcurrent d hd) id' hold hcarried
      exact ⟨r, List.mem_append_left _ hr, heq⟩

theorem Inv.addSub (hi : Inv s) {change : SubChange} {rest : List SubChange} (hb : s.hub.addSub.buf = change :: rest)
    (hnew : change.client ∈ s.hub.clients → (change.key, change.client) ∉ s.hub.subscriptions)
    (ho : Hub.Opened ({ s.hub with addSub := { s.hub.addSub with buf := rest } }.addSubscription change)) :
    Inv { s with hub := { s.hub with addSub := { s.hub.addSub with buf := rest } }.addSubscription change } := by
  have hpast : (s.hub.conn change.client).pump ≠ .registering := hi.opened.queued change (by simp [hb])
  refine ⟨ho, hi.requests, hi.past, fun d hd ↦ ?_, hi.quota, fun d hd id hid hcarried ↦ ?_⟩
  · have hold := hi.count d hd
    simp only [counted, Hub.held, Hub.pending, hb, List.countP_cons, decide_eq_true_eq,
      Hub.addSubscription] at hold ⊢
    by_cases hdc : change.client = d
    · subst d
      rw [GoMap.countKeys_insert (hnew (hd.resolve_right hpast))]
      simp only [decide_true, if_true] at hold ⊢
      omega
    · rw [GoMap.countKeys_insert_ne _ (by simpa using hdc)]
      simp only [hdc, if_false] at hold
      omega
  · refine hi.unsubscribed d hd id hid ?_
    rcases hcarried with ⟨key, hkey⟩ | ⟨change', hc, heq⟩
    · by_cases hk : (key, d) = (change.key, change.client)
      · have hid : (s.hub.subscriptions.insert (change.key, change.client) change.id).lookup (key, d) = some id := hkey
        rw [hk, AList.lookup_insert] at hid
        exact .inr ⟨change, by simp [hb], (congrArg Prod.snd hk).symm, Option.some.inj hid⟩
      · simp only [Hub.addSubscription, AList.lookup_insert_ne hk] at hkey
        exact .inl ⟨key, hkey⟩
    · exact .inr ⟨change', by rw [hb]; exact List.mem_cons_of_mem change hc, heq⟩

theorem counted_cons {r : UnsubRequest × Bool} {requests : List (UnsubRequest × Bool)} (hr : s.requests = r :: requests)
    (d : ClientID) : s.counted d = requests.countP (fun r ↦ r.1.client = d && r.2) +
      if r.1.client = d ∧ r.2 = true then 1 else 0 := by
  simp only [counted, hr, List.countP_cons, Bool.and_eq_true, decide_eq_true_eq]

/-- What still carries an unsubscribed id has another request to come, or the one being taken removes it. -/
theorem Inv.carried (hi : Inv s) {r : UnsubRequest × Bool} {requests : List (UnsubRequest × Bool)}
    {pick : Option SubKey} (hr : s.requests = r :: requests) (hok : s.Coupled (.unsubByID pick)) {d : ClientID}
    {id : String} (hd : s.hub.Current d) (hid : id ∈ s.unsubscribed d) (hcarried : s.hub.Carried d id) :
    (∃ r' ∈ requests, r'.1 = ⟨d, id⟩) ∨
      (∀ key, s.hub.subscriptions.lookup (key, d) = some id → pick = some key ∧ r.1.client = d) ∧
        ∀ change ∈ s.hub.addSub.buf, change.client = d → change.id ≠ id := by
  by_cases hother : ∃ r' ∈ requests, r'.1 = ⟨d, id⟩
  · exact .inl hother
  · obtain ⟨r', hmem', heq⟩ := hi.unsubscribed d hd id hid hcarried
    rw [hr] at hmem'
    rcases List.mem_cons.mp hmem' with rfl | hmem'
    · obtain ⟨rfl, rfl⟩ : r'.1.client = d ∧ r'.1.id = id := by rw [heq]; exact ⟨rfl, rfl⟩
      have hcoupled := hok r' (by simp [hr]) (hd.resolve_right (hi.past r' (by simp [hr])))
      rw [hr, List.tail_cons] at hcoupled
      have hlast := hcoupled.2 hid (fun r'' h he ↦ hother ⟨r'', h, he⟩)
      exact .inr ⟨fun key hkey ↦ ⟨hlast.1 key hkey, rfl⟩, hlast.2⟩
    · exact absurd ⟨r', hmem', heq⟩ hother

/-- A request that finds no entry: its counter did not go down either. -/
theorem Inv.takeNothing (hi : Inv s) {r : UnsubRequest × Bool} {requests : List (UnsubRequest × Bool)}
    {rest : List UnsubRequest} (hr : s.requests = r :: requests) (hrest : requests.map Prod.fst = rest)
    (hok : s.Coupled (.unsubByID none)) (hnone : ∀ key, s.hub.subscriptions.lookup (key, r.1.client) ≠ some r.1.id)
    (ho : Hub.Opened { s.hub with unsubByID := { s.hub.unsubByID with buf := rest } }) :
    Inv { s with hub := { s.hub with unsubByID := { s.hub.unsubByID with buf := rest } }, requests } := by
  have hpast := hi.past r (by simp [hr])
  refine ⟨ho, hrest, fun r' h ↦ hi.past r' (hr ▸ List.mem_cons_of_mem r h), fun d hd ↦ ?_, hi.quota,
    fun d hd id hid hcarried ↦ ?_⟩
  · have hold := hi.count d hd
    have hnot : ¬ (r.1.client = d ∧ r.2 = true) := by
      rintro ⟨rfl, hflag⟩
      obtain ⟨key, hkey⟩ := (hok r (by simp [hr]) (hd.resolve_right hpast)).1.mp hflag
      exact hnone key hkey
    rw [counted_cons hr, if_neg hnot, Nat.add_zero] at hold
    exact hold
  · rcases hi.carried hr hok hd hid hcarried with hother | ⟨hkeys, hqueued⟩
    · exact hother
    · rcases hcarried with ⟨key, hkey⟩ | ⟨change, hc, hclient, hchange⟩
      · exact absurd (hkeys key hkey).1 (by simp)
      · exact absurd hchange (hqueued change hc hclient)

/-- A request that removes an entry: its counter went down for that. -/
theorem Inv.takeEntry (hi : Inv s) {r : UnsubRequest × Bool} {requests : List (UnsubRequest × Bool)}
    {rest : List UnsubRequest} {key : SubKey} (hr : s.requests = r :: requests)
    (hrest : requests.map Prod.fst = rest) (hok : s.Coupled (.unsubByID (some key)))
    (hkey : s.hub.subscriptions.lookup (key, r.1.client) = some r.1.id)
    (ho : Hub.Opened { s.hub with
      unsubByID := { s.hub.unsubByID with buf := rest }
      subscriptions := s.hub.subscriptions.erase (key, r.1.client) }) :
    Inv { s with
      hub := { s.hub with
        unsubByID := { s.hub.unsubByID with buf := rest }
        subscriptions := s.hub.subscriptions.erase (key, r.1.client) }
      requests } := by
  have hpast := hi.past r (by simp [hr])
  have hk : (key, r.1.client) ∈ s.hub.subscriptions := AList.lookup_isSome.mp (by rw [hkey]; rfl)
  refine ⟨ho, hrest, fun r' h ↦ hi.past r' (hr ▸ List.mem_cons_of_mem r h), fun d hd ↦ ?_, hi.quota,
    fun d hd id hid hcarried ↦ ?_⟩
  · have hold := hi.count d hd
    rw [counted_cons hr, Hub.held, GoMap.countKeys_erase hk] at hold
    by_cases hdc : r.1.client = d
    · subst d
      have hflag : r.2 = true := (hok r (by simp [hr]) (hd.resolve_right hpast)).1.mpr ⟨key, hkey⟩
      simp only [hflag, and_self, if_true, decide_true] at hold
      simp only [counted, Hub.held, Hub.pending] at hold ⊢
      omega
    · simp only [hdc, false_and, if_false, decide_false, Bool.false_eq_true, Nat.add_zero] at hold
      exact hold
  · have hold : s.hub.Carried d id ∧ ((∃ key', (key', d) ≠ (key, r.1.client) ∧
        s.hub.subscriptions.lookup (key', d) = some id) ∨
        ∃ change ∈ s.hub.addSub.buf, change.client = d ∧ change.id = id) := by
      rcases hcarried with ⟨key', hkey'⟩ | hqueued
      · have hne : (key', d) ≠ (key, r.1.client) := by
          intro he
          rw [he, AList.lookup_erase] at hkey'
          contradiction
        rw [AList.lookup_erase_ne hne] at hkey'
        exact ⟨.inl ⟨key', hkey'⟩, .inl ⟨key', hne, hkey'⟩⟩
      · exact ⟨.inr hqueued, .inr hqueued⟩
    rcases hi.carried hr hok hd hid hold.1 with hother | ⟨hkeys, hqueued⟩
    · exact hother
    · rcases hold.2 with ⟨key', hne, hkey'⟩ | ⟨change, hc, hclient, hchange⟩
      · obtain ⟨hpick, hclient⟩ := hkeys key' hkey'
        exact absurd (Prod.ext (Option.some.inj hpick).symm hclient.symm) hne
      · exact absurd hchange (hqueued change hc hclient)

theorem Inv.unsubByID (hi : Inv s) {pick : Option SubKey} {req : UnsubRequest} {rest : List UnsubRequest}
    (hb : s.hub.unsubByID.buf = req :: rest) (hok : s.Coupled (.unsubByID pick))
    (hs : { s.hub with unsubByID := { s.hub.unsubByID with buf := rest } }.removeByID req pick = some hub)
    (ho : Hub.Opened hub) : Inv { s with hub, requests := s.requests.tail } := by
  obtain ⟨r, requests, hr⟩ : ∃ r requests, s.requests = r :: requests := by
    cases hr : s.requests with
    | nil =>
      have hbuf := hi.requests
      rw [hr, hb] at hbuf
      contradiction
    | cons r requests => exact ⟨r, requests, rfl⟩
  have hbuf := hi.requests
  simp only [hr, hb, List.map_cons, List.cons.injEq] at hbuf
  obtain ⟨rfl, hrest⟩ := hbuf
  rw [hr, List.tail_cons]
  cases pick with
  | none =>
    simp only [Hub.removeByID, Option.ite_none_left_eq_some, Option.some.injEq] at hs
    obtain ⟨hany, rfl⟩ := hs
    refine hi.takeNothing hr hrest hok (fun key hkey ↦ ?_) ho
    refine hany (List.any_eq_true.mpr ⟨_, GoMap.mem_entries_iff.mpr hkey, ?_⟩)
    simp
  | some key =>
    simp only [Hub.removeByID, Option.ite_none_right_eq_some, Option.some.injEq] at hs
    obtain ⟨hkey, rfl⟩ := hs
    exact hi.takeEntry hr hrest hok hkey ho

theorem received_other {msg : IncomingMessage} {kindAllowed : Bool} {rbac : Option Bool}
    (hsub : msg.type ≠ msgTypeSubscribe) (hun : ¬ (msg.type = msgTypeUnsubscribe ∧ msg.id ≠ "")) :
    s.received hub c msg kindAllowed rbac = { s with hub } := by
  rw [received, if_neg hsub, if_neg hun]

theorem Inv.read (hi : Inv s) {msg : IncomingMessage} {kindAllowed : Bool} {rbac : Option Bool}
    (hp : (s.hub.conn c).pump = .reading) (hs : s.hub.readMessage c (some msg) kindAllowed rbac = some hub)
    (ho : Hub.Opened hub) : Inv (s.received hub c msg kindAllowed rbac) := by
  simp only [Hub.readMessage] at hs
  by_cases hsub : msg.type = msgTypeSubscribe
  · rw [if_pos hsub, Hub.subscribe] at hs
    rw [received, if_pos hsub]
    cases hv : handleSubscribe (s.hub.conn c) s.hub.accessChecker msg kindAllowed rbac with
    | reject code message =>
      rw [hv] at hs
      cases hs
      exact hi.leaves (Hub.sendError_leaves _ _ _ _ _) ho
    | panic =>
      rw [hv] at hs
      cases hs
      exact hi.leaves (Hub.leaves_setPump (by simp)) ho
    | accept key =>
      rw [hv] at hs
      dsimp only at hs
      split at hs
      · next ch hsent =>
        cases hs
        apply hi.subscribe _ hsent (by simp) rfl ho
        by_contra hfull
        rw [handleSubscribe] at hv
        split at hv
        · contradiction
        · rw [if_pos (Nat.not_lt.mp hfull)] at hv
          contradiction
      · contradiction
  · rw [if_neg hsub] at hs
    by_cases hun : msg.type = msgTypeUnsubscribe
    · rw [if_pos hun, Hub.unsubscribe] at hs
      by_cases hid : msg.id = ""
      · rw [if_pos hid] at hs
        cases hs
        rw [received_other hsub (fun h ↦ h.2 hid)]
        exact hi.leaves (Hub.sendError_leaves _ _ _ _ _) ho
      · rw [if_neg hid] at hs
        split at hs
        · next ch hsent =>
          cases hs
          rw [received, if_neg hsub, if_pos ⟨hun, hid⟩]
          exact hi.unsubscribe hsent (by simp [hp]) ho
        · contradiction
    · rw [if_neg hun] at hs
      cases hs
      rw [received_other hsub (fun h ↦ hun h.1)]
      exact hi.leaves (Hub.sendError_leaves _ _ _ _ _) ho

theorem step_inv {a : Act} (hi : Inv s) (hok : s.Coupled a) (hs : s.step a = some s') : Inv s' := by
  obtain ⟨hub, hstep, rfl⟩ := Option.map_eq_some_iff.mp hs
  have ho := Hub.step_opened hi.opened hstep
  cases a with
  | read c msg kindAllowed rbac =>
    cases msg with
    | none => exact hi.leaves (Hub.step_leaves hi.opened hstep trivial) ho
    | some msg =>
      unfold Hub.step at hstep
      split at hstep
      · contradiction
      · simp only [Hub.clientStep, Option.ite_none_right_eq_some] at hstep
        exact hi.read hstep.1 hstep.2 ho
  | addSub =>
    simp only [Hub.step, Option.ite_none_left_eq_some, Hub.runStep] at hstep
    obtain ⟨-, -, hstep⟩ := hstep
    split at hstep
    · next change rest hb =>
      cases hstep
      exact hi.addSub hb (hok change (by simp [hb])) ho
    · contradiction
  | unsubByID pick =>
    simp only [Hub.step, Option.ite_none_left_eq_some, Hub.runStep] at hstep
    obtain ⟨-, -, hstep⟩ := hstep
    split at hstep
    · next req rest hb => exact hi.unsubByID hb hok hstep ho
    · contradiction
  | tick check order => exact hi.leaves (Hub.step_leaves hi.opened hstep hok) ho
  | register | unregister | event | done | auth | confirm | hangUp | write | handleEvent =>
    exact hi.leaves (Hub.step_leaves hi.opened hstep trivial) ho

/-- In a run whose steps all keep counter and entries coupled, every client is accounted for throughout. -/
theorem accounted_throughout (accessChecker : Bool) (run : List Act)
    (h : EachStep step Coupled (init accessChecker) run) : Throughout step Accounted (init accessChecker) run :=
  (h.throughout (fun _ _ _ hi hok hs ↦ step_inv hi hok hs) (init_inv accessChecker)).mono (fun _ hi ↦ hi.accounted)

def subscribeTo (id kind : String) : List Act :=
  [.read 0 (some { type := "subscribe", id, kind, ns := "default" }) true (some true), .confirm 0, .addSub]

theorem accounted_throughout_subscribed : Throughout step Accounted (init true)
    ([.register 0, .auth 0 (some ⟨"alice", []⟩) true] ++ subscribeTo "s1" "pods") := by
  apply accounted_throughout true
  intro s₁ h₁
  obtain rfl := Option.some.inj h₁
  refine ⟨trivial, fun s₂ h₂ ↦ ?_⟩
  obtain rfl := Option.some.inj h₂
  refine ⟨trivial, fun s₃ h₃ ↦ ?_⟩
  obtain rfl := Option.some.inj h₃
  refine ⟨trivial, fun s₄ h₄ ↦ ?_⟩
  obtain rfl := Option.some.inj h₄
  refine ⟨trivial, fun s₅ h₅ ↦ ⟨fun change hc _ ↦ ?_, trivial⟩⟩
  exact AList.notMem_empty _

/-- A client uses one id for two topics, and unsubscribes it. -/
def sharedID : List Act :=
  [.register 0, .auth 0 (some ⟨"alice", []⟩) true] ++ subscribeTo "s1" "pods" ++ subscribeTo "s1" "services" ++
    [.read 0 (some { type := "unsubscribe", id := "s1" }) true none, .unsubByID (some ⟨"pods", "default"⟩)]

theorem not_accounted_throughout : ¬ ∀ run, Throughout step Accounted (init true) run := by
  intro h
  have hrun : (exec step (init true) sharedID).map (fun s ↦
      (decide (0 ∈ s.hub.clients), s.hub.addSub.buf.length, s.hub.unsubByID.buf.length,
        s.hub.subscriptions.lookup (⟨"services", "default"⟩, 0), decide ("s1" ∈ s.unsubscribed 0))) =
      some (true, 0, 0, some "s1", true) := by
    decide
  obtain ⟨s, hs, heq⟩ := Option.map_eq_some_iff.mp hrun
  simp only [Prod.mk.injEq, decide_eq_true_eq, List.length_eq_zero_iff] at heq
  obtain ⟨hclient, hadd, hun, hlookup, hid⟩ := heq
  have hsettled : s.hub.Settled 0 := by simp [Hub.Settled, hadd, hun]
  exact ((h sharedID).last hs 0 hclient hsettled).2.2 _ _ hlookup hid

end Ledger

end KubeCenter.Websocket
