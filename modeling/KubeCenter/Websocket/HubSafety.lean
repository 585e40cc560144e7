import Mathlib.Data.List.Perm.Basic
import KubeCenter.Core.Runs
import KubeCenter.Websocket.Hub

namespace KubeCenter.Websocket.Hub

open KubeCenter.Core Function

variable {h h' h'' : Hub}

/-- Every subscriber is a registered client whose send channel is open, and no handler has
used a closed channel. -/
structure Safe (h : Hub) : Prop where
  alive : h.crashed = none
  registered : ∀ k ∈ h.subscriptions, k.2 ∈ h.clients
  sendOpen : ∀ k ∈ h.subscriptions, (h.conn k.2).send.closed = false

structure Inv (h : Hub) : Prop where
  alive : h.crashed = none
  registered : ∀ k ∈ h.subscriptions, k.2 ∈ h.clients
  clientsOpen : ∀ c ∈ h.clients, (h.conn c).send.closed = false
  registering : ∀ c, (h.conn c).pump = .registering →
    c ∉ h.clients ∧ (h.conn c).send.closed = false

theorem Inv.safe (hi : Inv h) : Safe h :=
  ⟨hi.alive, hi.registered, fun k hk ↦ hi.clientsOpen _ (hi.registered k hk)⟩

structure Narrows (h h' : Hub) : Prop where
  crashed : h'.crashed = h.crashed
  clients : h'.clients ⊆ h.clients
  subscriptions : ∀ k ∈ h'.subscriptions, k ∈ h.subscriptions
  kept : ∀ k ∈ h'.subscriptions, k.2 ∈ h.clients → k.2 ∈ h'.clients
  pump : ∀ c, (h'.conn c).pump = (h.conn c).pump
  send : ∀ c, c ∈ h'.clients ∨ c ∉ h.clients →
    (h'.conn c).send.closed = (h.conn c).send.closed

theorem Narrows.refl (h : Hub) : Narrows h h :=
  ⟨rfl, fun _ h ↦ h, fun _ h ↦ h, fun _ _ h ↦ h, fun _ ↦ rfl, fun _ _ ↦ rfl⟩

theorem Narrows.trans (h₁ : Narrows h h') (h₂ : Narrows h' h'') : Narrows h h'' where
  crashed := h₂.crashed.trans h₁.crashed
  clients := h₂.clients.trans h₁.clients
  subscriptions k hk := h₁.subscriptions k (h₂.subscriptions k hk)
  kept k hk hc := h₂.kept k hk (h₁.kept k (h₂.subscriptions k hk) hc)
  pump c := (h₂.pump c).trans (h₁.pump c)
  send c hc := by
    rcases hc with hc | hc
    · rw [h₂.send c (.inl hc), h₁.send c (.inl (h₂.clients hc))]
    · rw [h₂.send c (.inr (fun hc' ↦ hc (h₁.clients hc'))), h₁.send c (.inr hc)]

theorem Narrows.inv (hn : Narrows h h') (hi : Inv h) : Inv h' where
  alive := hn.crashed.trans hi.alive
  registered k hk := hn.kept k hk (hi.registered k (hn.subscriptions k hk))
  clientsOpen c hc := (hn.send c (.inl hc)).trans (hi.clientsOpen c (hn.clients hc))
  registering c hc := by
    rw [hn.pump] at hc
    obtain ⟨hnew, hopen⟩ := hi.registering c hc
    exact ⟨fun hc' ↦ hnew (hn.clients hc'), (hn.send c (.inr hnew)).trans hopen⟩

theorem narrows_setConn {c : ClientID} {cl : Client} (hp : cl.pump = (h.conn c).pump)
    (hs : cl.send.closed = (h.conn c).send.closed) : Narrows h (h.setConn c cl) := by
  refine ⟨rfl, fun _ h ↦ h, fun _ h ↦ h, fun _ _ h ↦ h, fun d ↦ ?_, fun d _ ↦ ?_⟩
  · by_cases hd : d = c
    · subst d; simp [setConn, hp]
    · simp [setConn, update_of_ne hd]
  · by_cases hd : d = c
    · subst d; simp [setConn, hs]
    · simp [setConn, update_of_ne hd]

theorem narrows_setSend {c : ClientID} {ch : Chan OutgoingMessage}
    (hs : ch.closed = (h.conn c).send.closed) : Narrows h (h.setSend c ch) :=
  narrows_setConn rfl hs

theorem removeClient_spec {c : ClientID} (hc : c ∈ h.clients)
    (ho : (h.conn c).send.closed = false) :
    ∃ h', h.removeClient c = .ok h' ∧ Narrows h h' ∧ h'.clients = h.clients.erase c := by
  refine ⟨_, by simp only [removeClient, ho]; rfl, ?_, rfl⟩
  refine ⟨rfl, Finset.erase_subset _ _, fun k hk ↦ (GoMap.mem_filter.mp hk).1, fun k hk hk' ↦ ?_,
    fun d ↦ ?_, fun d hd ↦ ?_⟩
  · have hne : k.2 ≠ c := by simpa using (GoMap.mem_filter.mp hk).2
    exact Finset.mem_erase.mpr ⟨hne, hk'⟩
  · by_cases hd : d = c
    · subst d; simp [setSend, setConn]
    · simp [setSend, setConn, update_of_ne hd]
  · have hne : d ≠ c := by
      rcases hd with hd | hd
      · exact (Finset.mem_erase.mp hd).1
      · exact fun he ↦ hd (he ▸ hc)
    simp [setSend, setConn, update_of_ne hne]

theorem sendResync_spec {c : ClientID} {subID kind : String} (hc : c ∈ h.clients)
    (ho : (h.conn c).send.closed = false) :
    ∃ h', h.sendResync c subID kind = .ok h' ∧ Narrows h h' ∧ h.clients.erase c ⊆ h'.clients := by
  unfold sendResync
  rcases Chan.trySend_open ho { type := msgTypeResyncRequired, id := subID, message := kind } with hs | hs
  · rw [hs]
    exact ⟨_, rfl, narrows_setSend rfl, Finset.erase_subset _ _⟩
  · rw [hs]
    obtain ⟨h', hr, hn, hcl⟩ := removeClient_spec hc ho
    exact ⟨h', hr, hn, hcl.ge⟩

theorem deliver_spec (event : ResourceEvent) (rawObj : String) {t : ClientID × String}
    (hc : t.1 ∈ h.clients) (ho : (h.conn t.1).send.closed = false) :
    ∃ h', h.deliver event rawObj t = .ok h' ∧ Narrows h h' ∧ h.clients.erase t.1 ⊆ h'.clients := by
  unfold deliver
  rcases Chan.trySend_open ho { type := msgTypeEvent, id := t.2, eventType := event.eventType,
                                object := some rawObj } with hs | hs
  · rw [hs]
    exact ⟨_, rfl, narrows_setSend rfl, Finset.erase_subset _ _⟩
  · rw [hs]
    exact sendResync_spec hc ho

/-- A target that is disconnected takes no later target with it, since an event has at most
one target a client. -/
theorem deliver_all {event : ResourceEvent} {rawObj : String} {order : List (ClientID × String)}
    (hi : Inv h) (hnodup : (order.map Prod.fst).Nodup) (hreg : ∀ t ∈ order, t.1 ∈ h.clients) :
    ∃ h', order.foldlM (fun h t ↦ h.deliver event rawObj t) h = .ok h' ∧ Narrows h h' := by
  induction order generalizing h with
  | nil => exact ⟨h, rfl, .refl h⟩
  | cons t order ih =>
    have ht := hreg t (by simp)
    obtain ⟨h₁, hd, hn, hsub⟩ := deliver_spec event rawObj ht (hi.clientsOpen _ ht)
    simp only [List.map_cons, List.nodup_cons] at hnodup
    have hreg' : ∀ u ∈ order, u.1 ∈ h₁.clients := by
      intro u hu
      have hne : u.1 ≠ t.1 := fun he ↦ hnodup.1 (he ▸ List.mem_map_of_mem hu)
      exact hsub (Finset.mem_erase.mpr ⟨hne, hreg u (by simp [hu])⟩)
    obtain ⟨h₂, hf, hn'⟩ := ih (hn.inv hi) hnodup.2 hreg'
    refine ⟨h₂, ?_, hn.trans hn'⟩
    rw [List.foldlM_cons, hd]
    exact hf

theorem mem_subscribers {key : SubKey} {t : ClientID × String} (ht : t ∈ h.subscribers key) :
    (key, t.1) ∈ h.subscriptions := by
  obtain ⟨e, he, het⟩ := List.mem_filterMap.mp ht
  split at het
  · next hk =>
    cases het
    have hm := GoMap.mem_of_mem_entries he
    rwa [← hk]
  · cases het

theorem subscribers_nodup (h : Hub) (key : SubKey) : ((h.subscribers key).map Prod.fst).Nodup := by
  have hk : (h.subscriptions.entries.map Sigma.fst).Nodup := h.subscriptions.nodupKeys
  unfold subscribers
  generalize h.subscriptions.entries = es at hk ⊢
  induction es with
  | nil => simp
  | cons e es ih =>
    simp only [List.map_cons, List.nodup_cons] at hk
    rw [List.filterMap_cons]
    split
    · exact ih hk.2
    · next t het =>
      split at het
      · next hkey =>
        cases het
        simp only [List.map_cons, List.nodup_cons]
        refine ⟨fun hm ↦ hk.1 ?_, ih hk.2⟩
        obtain ⟨u, hu, hu₁⟩ := List.mem_map.mp hm
        obtain ⟨e', he', heu⟩ := List.mem_filterMap.mp hu
        split at heu
        · next hkey' =>
          cases heu
          exact List.mem_map.mpr ⟨e', he', Prod.ext (hkey'.trans hkey.symm) hu₁⟩
        · cases heu
      · cases het

theorem targets_nodup (h : Hub) (event : ResourceEvent) :
    ((h.targets event).map Prod.fst).Nodup := by
  unfold targets
  rw [List.map_append, List.nodup_append]
  refine ⟨subscribers_nodup h _, ?_, ?_⟩
  · exact (subscribers_nodup h _).sublist (List.filter_sublist.map Prod.fst)
  · intro a ha b hb he
    obtain ⟨t, ht, rfl⟩ := List.mem_map.mp hb
    have hnot := (List.mem_filter.mp ht).2
    exact (decide_eq_true_eq.mp hnot) (he ▸ ha)

theorem mem_targets {event : ResourceEvent} {t : ClientID × String} (ht : t ∈ h.targets event) :
    ∃ key, (key, t.1) ∈ h.subscriptions := by
  rcases List.mem_append.mp ht with ht | ht
  · exact ⟨_, mem_subscribers ht⟩
  · exact ⟨_, mem_subscribers (List.mem_filter.mp ht).1⟩

theorem broadcastEvent_spec {event : ResourceEvent} {order : List (ClientID × String)}
    (hi : Inv h) (ho : order.Perm (h.targets event)) :
    ∃ h', h.broadcastEvent event order = .ok h' ∧ Narrows h h' := by
  unfold broadcastEvent
  cases event.object with
  | none => exact ⟨h, rfl, .refl h⟩
  | some rawObj =>
    apply deliver_all hi (((ho.map Prod.fst).nodup_iff).mpr (targets_nodup h event))
    intro t ht
    obtain ⟨key, hk⟩ := mem_targets (ho.mem_iff.mp ht)
    exact hi.registered _ hk

theorem revoke_spec {r : Sigma fun _ : SubKey × ClientID ↦ String}
    (ho : (h.conn r.1.2).send.closed = false) :
    ∃ h', h.revoke r = .ok h' ∧ Narrows h h' ∧ h'.clients = h.clients := by
  have hn : Narrows h { h with subscriptions := h.subscriptions.erase r.1 } :=
    ⟨rfl, fun _ h ↦ h, fun _ hk ↦ GoMap.mem_of_mem_erase hk, fun _ _ h ↦ h, fun _ ↦ rfl, fun _ _ ↦ rfl⟩
  unfold revoke
  rcases Chan.trySend_open ho { type := msgTypeError, id := r.2, code := 403,
                                message := "subscription revoked: access denied" } with hs | hs
  · rw [hs]
    exact ⟨_, rfl, hn.trans (narrows_setSend rfl), rfl⟩
  · rw [hs]
    exact ⟨_, rfl, hn, rfl⟩

theorem revoke_all {removals : List (Sigma fun _ : SubKey × ClientID ↦ String)}
    (hi : Inv h) (hreg : ∀ r ∈ removals, r.1.2 ∈ h.clients) :
    ∃ h', removals.foldlM (fun h r ↦ h.revoke r) h = .ok h' ∧ Narrows h h' := by
  induction removals generalizing h with
  | nil => exact ⟨h, rfl, .refl h⟩
  | cons r removals ih =>
    obtain ⟨h₁, hr, hn, hcl⟩ := revoke_spec (hi.clientsOpen _ (hreg r (by simp)))
    obtain ⟨h₂, hf, hn'⟩ := ih (hn.inv hi) (fun r' hr' ↦ hcl ▸ hreg r' (by simp [hr']))
    refine ⟨h₂, ?_, hn.trans hn'⟩
    rw [List.foldlM_cons, hr]
    exact hf

theorem revalidateSubscriptions_spec (check : SubKey → User → Option Bool)
    {order : List (Sigma fun _ : SubKey × ClientID ↦ String)}
    (hi : Inv h) (ho : order.Perm h.subscriptions.entries) :
    ∃ h', h.revalidateSubscriptions check order = .ok h' ∧ Narrows h h' := by
  unfold revalidateSubscriptions
  split
  · refine revoke_all hi (fun r hr ↦ hi.registered r.1 ?_)
    exact GoMap.mem_of_mem_entries (ho.mem_iff.mp (List.mem_filter.mp hr).1)
  · exact ⟨h, rfl, .refl h⟩

structure Moves (c : ClientID) (h h' : Hub) : Prop where
  crashed : h'.crashed = h.crashed
  clients : h'.clients = h.clients
  subscriptions : h'.subscriptions = h.subscriptions
  others : ∀ d, d ≠ c → h'.conn d = h.conn d
  closed : (h'.conn c).send.closed = (h.conn c).send.closed
  pump : (h'.conn c).pump ≠ .registering

theorem Moves.inv {c : ClientID} (hm : Moves c h h') (hi : Inv h) : Inv h' where
  alive := hm.crashed.trans hi.alive
  registered k hk := by
    rw [hm.subscriptions] at hk
    rw [hm.clients]
    exact hi.registered k hk
  clientsOpen d hd := by
    rw [hm.clients] at hd
    by_cases hdc : d = c
    · subst d; exact hm.closed.trans (hi.clientsOpen c hd)
    · rw [hm.others d hdc]; exact hi.clientsOpen d hd
  registering d hd := by
    have hdc : d ≠ c := by rintro rfl; exact hm.pump hd
    rw [hm.others d hdc] at hd ⊢
    rw [hm.clients]
    exact hi.registering d hd

theorem moves_setConn {c : ClientID} {cl : Client} (hp : cl.pump ≠ .registering)
    (hs : cl.send.closed = (h.conn c).send.closed) : Moves c h (h.setConn c cl) :=
  ⟨rfl, rfl, rfl, fun d hd ↦ update_of_ne hd _ _, by simp [setConn, hs], by simp [setConn, hp]⟩

theorem moves_self {c : ClientID} (hp : (h.conn c).pump ≠ .registering) : Moves c h h :=
  ⟨rfl, rfl, rfl, fun _ _ ↦ rfl, rfl, hp⟩

theorem sendError_moves {c : ClientID} (hp : (h.conn c).pump ≠ .registering) (id : String)
    (code : ℕ) (message : String) : Moves c h (h.sendError c id code message) := by
  unfold sendError
  split
  · next ch hs => exact moves_setConn hp (by rw [(Chan.trySend_sent hs).2])
  · exact moves_self hp
  · exact moves_setConn (by simp) rfl

theorem subscribe_moves {c : ClientID} {msg : IncomingMessage} {kindAllowed : Bool}
    {rbac : Option Bool} (hp : (h.conn c).pump ≠ .registering)
    (hs : h.subscribe c msg kindAllowed rbac = some h') : Moves c h h' := by
  unfold subscribe at hs
  split at hs
  · cases hs; exact sendError_moves hp _ _ _
  · cases hs; exact moves_setConn (by simp) rfl
  · split at hs
    · cases hs
      exact ⟨rfl, rfl, rfl, fun d hd ↦ update_of_ne hd _ _, by simp [setConn], by simp [setConn]⟩
    · cases hs

theorem unsubscribe_moves {c : ClientID} {msg : IncomingMessage}
    (hp : (h.conn c).pump ≠ .registering) (hs : h.unsubscribe c msg = some h') : Moves c h h' := by
  unfold unsubscribe at hs
  split at hs
  · cases hs; exact sendError_moves hp _ _ _
  · split at hs
    · cases hs
      exact ⟨rfl, rfl, rfl, fun d hd ↦ update_of_ne hd _ _, by simp [setConn],
        by simpa [setConn] using hp⟩
    · cases hs

theorem confirm_moves (c : ClientID) (id : String) : Moves c h (h.confirm c id) := by
  unfold confirm
  split
  · next ch hs => exact moves_setConn (by simp) (by rw [(Chan.trySend_sent hs).2])
  · exact moves_setConn (by simp) rfl
  · exact moves_setConn (by simp) rfl

theorem readMessage_moves {c : ClientID} {msg : Option IncomingMessage} {kindAllowed : Bool}
    {rbac : Option Bool} (hp : (h.conn c).pump ≠ .registering)
    (hs : h.readMessage c msg kindAllowed rbac = some h') : Moves c h h' := by
  unfold readMessage at hs
  cases msg with
  | none => cases hs; exact sendError_moves hp _ _ _
  | some msg =>
    dsimp only at hs
    split at hs
    · exact subscribe_moves hp hs
    · split at hs
      · exact unsubscribe_moves hp hs
      · cases hs; exact sendError_moves hp _ _ _

theorem clientStep_inv {a : Act} (hi : Inv h) (hs : h.clientStep a = some h') : Inv h' := by
  cases a with
  | auth c user written =>
    simp only [clientStep, Option.ite_none_right_eq_some, Option.some.injEq] at hs
    obtain ⟨-, rfl⟩ := hs
    refine Moves.inv (moves_setConn ?_ rfl) hi
    dsimp only
    split <;> simp
  | read c msg kindAllowed rbac =>
    simp only [clientStep, Option.ite_none_right_eq_some] at hs
    exact (readMessage_moves (by simp [hs.1]) hs.2).inv hi
  | confirm c =>
    simp only [clientStep] at hs
    split at hs
    · cases hs; exact (confirm_moves c _).inv hi
    · cases hs
  | hangUp c =>
    simp only [clientStep, Option.ite_none_right_eq_some, Option.some.injEq] at hs
    obtain ⟨-, rfl⟩ := hs
    exact Moves.inv (moves_setConn (by simp) rfl) hi
  | write c =>
    simp only [clientStep] at hs
    split at hs
    · cases hs; exact Narrows.inv (narrows_setSend rfl) hi
    · cases hs
  | handleEvent event =>
    simp only [clientStep] at hs
    split at hs <;> cases hs
    · exact ⟨hi.alive, hi.registered, hi.clientsOpen, hi.registering⟩
    · exact hi
  | register | unregister | addSub | unsubByID | event | tick | done => cases hs

theorem register_inv {c : ClientID} (hi : Inv h) (hp : (h.conn c).pump = .registering) :
    Inv { h.setPump c .waitForAuth with
      clients := insert c h.clients, clientCount := h.clientCount + 1 } := by
  obtain ⟨-, hopen⟩ := hi.registering c hp
  have hm : Moves c h (h.setPump c .waitForAuth) := moves_setConn (by simp) rfl
  have hi' := hm.inv hi
  refine ⟨hi.alive, fun k hk ↦ Finset.mem_insert_of_mem (hi.registered k hk), fun d hd ↦ ?_,
    fun d hd ↦ ?_⟩
  · rcases Finset.mem_insert.mp hd with rfl | hd
    · exact hm.closed.trans hopen
    · exact hi'.clientsOpen d hd
  · obtain ⟨hnew, hd'⟩ := hi'.registering d hd
    have hdc : d ≠ c := by rintro rfl; exact hm.pump hd
    exact ⟨fun hd'' ↦ hnew ((Finset.mem_insert.mp hd'').resolve_left hdc), hd'⟩

theorem unregister_inv {c : ClientID} (hi : Inv h) :
    Inv (if c ∈ h.clients then (h.setPump c .left).settle ((h.setPump c .left).removeClient c)
      else h.setPump c .left) := by
  have hi' : Inv (h.setPump c .left) := Moves.inv (moves_setConn (by simp) rfl) hi
  split
  · next hc =>
    obtain ⟨h₁, hr, hn, -⟩ := removeClient_spec (h := h.setPump c .left) hc (hi'.clientsOpen c hc)
    rw [hr]
    exact hn.inv hi'
  · exact hi'

theorem shutdown_inv (hi : Inv h) : Inv h.shutdown := by
  refine ⟨hi.alive, fun k hk ↦ ?_, fun c hc ↦ absurd hc (Finset.notMem_empty c), fun c hc ↦ ?_⟩
  · obtain ⟨hk, hnot⟩ := GoMap.mem_filter.mp hk
    exact absurd (hi.registered k hk) (by simpa using hnot)
  · have hp : (h.conn c).pump = .registering := by
      simp only [shutdown] at hc
      split at hc <;> exact hc
    obtain ⟨hnew, hopen⟩ := hi.registering c hp
    exact ⟨Finset.notMem_empty c, by simp [shutdown, hnew, hopen]⟩

theorem addSubscription_inv {change : SubChange} (hi : Inv h) (hc : change.client ∈ h.clients) :
    Inv (h.addSubscription change) := by
  refine ⟨hi.alive, fun k hk ↦ ?_, hi.clientsOpen, hi.registering⟩
  rcases GoMap.mem_of_mem_insert hk with rfl | hk
  · exact hc
  · exact hi.registered k hk

theorem removeByID_inv {req : UnsubRequest} {pick : Option SubKey} (hi : Inv h)
    (hs : h.removeByID req pick = some h') : Inv h' := by
  cases pick with
  | none =>
    simp only [removeByID] at hs
    split at hs <;> cases hs
    exact hi
  | some key =>
    simp only [removeByID, Option.ite_none_right_eq_some, Option.some.injEq] at hs
    obtain ⟨-, rfl⟩ := hs
    exact ⟨hi.alive, fun k hk ↦ hi.registered k (GoMap.mem_of_mem_erase hk), hi.clientsOpen,
      hi.registering⟩

/-- The message that `Run` takes from `addSub` is from a client still in `h.clients`. -/
def AddSubRegistered (h : Hub) : Act → Prop
  | .addSub => ∀ change ∈ h.addSub.buf.head?, change.client ∈ h.clients
  | _ => True

theorem runStep_inv {a : Act} (hi : Inv h) (hok : AddSubRegistered h a)
    (hs : h.runStep a = some h') : Inv h' := by
  cases a with
  | register c =>
    simp only [runStep, Option.ite_none_right_eq_some, Option.some.injEq] at hs
    obtain ⟨hp, rfl⟩ := hs
    exact register_inv hi hp
  | unregister c =>
    simp only [runStep, Option.ite_none_right_eq_some, Option.some.injEq] at hs
    obtain ⟨-, rfl⟩ := hs
    exact unregister_inv hi
  | addSub =>
    simp only [runStep] at hs
    split at hs
    · next change rest hb =>
      cases hs
      have hq : Inv { h with addSub := { h.addSub with buf := rest } } :=
        ⟨hi.alive, hi.registered, hi.clientsOpen, hi.registering⟩
      exact addSubscription_inv hq (hok change (by simp [hb]))
    · cases hs
  | unsubByID pick =>
    simp only [runStep] at hs
    split at hs
    · next req rest hb =>
      have hq : Inv { h with unsubByID := { h.unsubByID with buf := rest } } :=
        ⟨hi.alive, hi.registered, hi.clientsOpen, hi.registering⟩
      exact removeByID_inv hq hs
    · cases hs
  | event order =>
    simp only [runStep] at hs
    split at hs
    · next event rest hb =>
      simp only [Option.ite_none_right_eq_some, Option.some.injEq] at hs
      obtain ⟨ho, rfl⟩ := hs
      have hq : Inv { h with events := { h.events with buf := rest } } :=
        ⟨hi.alive, hi.registered, hi.clientsOpen, hi.registering⟩
      obtain ⟨h₁, hb, hn⟩ := broadcastEvent_spec hq ho
      rw [hb]
      exact hn.inv hq
    · cases hs
  | tick check order =>
    simp only [runStep, Option.ite_none_right_eq_some, Option.some.injEq] at hs
    obtain ⟨ho, rfl⟩ := hs
    obtain ⟨h₁, hr, hn⟩ := revalidateSubscriptions_spec check hi ho
    rw [hr]
    exact hn.inv hi
  | done => cases hs; exact shutdown_inv hi
  | auth | read | confirm | hangUp | write | handleEvent => cases hs

theorem step_inv {a : Act} (hi : Inv h) (hok : AddSubRegistered h a)
    (hs : h.step a = some h') : Inv h' := by
  unfold step at hs
  split at hs
  · cases hs
  · split at hs
    all_goals first
      | exact clientStep_inv hi hs
      | (split at hs
         · cases hs
         · exact runStep_inv hi hok hs)

/-- Taking a subscription of a client that is no longer registered files a client whose
send channel is, or will be, closed. -/
theorem step_unsafe {a : Act} (hok : ¬ AddSubRegistered h a) (hs : h.step a = some h') :
    ¬ Safe h' := by
  cases a with
  | addSub =>
    simp only [AddSubRegistered, not_forall] at hok
    obtain ⟨change, hb, hc⟩ := hok
    intro hsafe
    cases hbuf : h.addSub.buf with
    | nil => simp [hbuf] at hb
    | cons change' rest =>
      simp only [hbuf, List.head?_cons, Option.mem_some_iff] at hb
      subst hb
      simp only [step, runStep, hbuf] at hs
      split at hs
      · cases hs
      · split at hs
        · cases hs
        · cases hs
          exact hc (hsafe.registered (change'.key, change'.client) (by simp [addSubscription]))
  | register | unregister | unsubByID | event | tick | done | auth | read | confirm | hangUp
  | write | handleEvent => exact absurd trivial hok

def init (accessChecker : Bool) : Hub := { accessChecker }

theorem init_inv (accessChecker : Bool) : Inv (init accessChecker) :=
  ⟨rfl, fun _ hk ↦ absurd hk (AList.notMem_empty _), fun _ hc ↦ absurd hc (Finset.notMem_empty _),
    fun _ _ ↦ ⟨Finset.notMem_empty _, rfl⟩⟩

/-- Over a whole run, no stale subscriber appears and no closed channel is used exactly when
`Run` never takes a client's `addSub` message after that client has been removed. -/
theorem safe_throughout_iff (accessChecker : Bool) (run : List Act) :
    Throughout step Safe (init accessChecker) run ↔
      EachStep step AddSubRegistered (init accessChecker) run :=
  throughout_iff_eachStep (fun _ hi ↦ hi.safe) (fun _ _ _ hi hok hs ↦ step_inv hi hok hs)
    (fun _ _ _ _ hok hs ↦ step_unsafe hok hs) (init_inv accessChecker) run

/-- A client subscribes and hangs up; `select` takes its `unregister` before its queued
`addSub`, and the next matching event is sent on the closed channel. -/
def lateAddSub : List Act :=
  [.register 0, .auth 0 (some ⟨"alice", []⟩) true,
    .read 0 (some { type := "subscribe", id := "s1", kind := "pods", ns := "default" }) true (some true),
    .confirm 0, .hangUp 0, .unregister 0, .addSub,
    .handleEvent ⟨"ADDED", "pods", "default", "web-0", some "{}"⟩, .event [(0, "s1")]]

theorem lateAddSub_crashes :
    (exec step (init true) lateAddSub).map (fun h ↦ (h.crashed, decide (0 ∈ h.clients),
      h.subscriptions.lookup (⟨"pods", "default"⟩, 0))) =
    some (some .sendOnClosedChannel, false, some "s1") := by
  decide

theorem not_safe_throughout : ¬ ∀ run, Throughout step Safe (init true) run := by
  intro h
  obtain ⟨h', hr, he⟩ := Option.map_eq_some_iff.mp lateAddSub_crashes
  have halive := ((h lateAddSub).last hr).alive
  simp [halive] at he

end KubeCenter.Websocket.Hub
