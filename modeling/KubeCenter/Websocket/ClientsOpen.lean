import KubeCenter.Websocket.HubSafety

namespace KubeCenter.Websocket.Hub

open KubeCenter.Core Function

variable {h h' h'' : Hub} {c : ClientID}

/-- In every reachable state, also one with stale subscribers: the channels of registered clients and of
those that have yet to register are open. -/
structure Opened (h : Hub) : Prop where
  clients : ∀ c ∈ h.clients, (h.conn c).send.closed = false
  registering : ∀ c, (h.conn c).pump = .registering → c ∉ h.clients ∧ (h.conn c).send.closed = false
  subscribed : ∀ k ∈ h.subscriptions, (h.conn k.2).pump ≠ .registering
  queued : ∀ change ∈ h.addSub.buf, (h.conn change.client).pump ≠ .registering

/-- What the hub's own work on clients past registration leaves as it was. -/
structure Keeps (h h' : Hub) : Prop where
  clients : ∀ c ∈ h'.clients, c ∈ h.clients ∧ (h'.conn c).send.closed = (h.conn c).send.closed
  subscriptions : ∀ k ∈ h'.subscriptions, k ∈ h.subscriptions
  addSub : h'.addSub = h.addSub
  pump : ∀ c, (h'.conn c).pump = (h.conn c).pump
  registering : ∀ c, (h.conn c).pump = .registering → (h'.conn c).send.closed = (h.conn c).send.closed

theorem Keeps.refl (h : Hub) : Keeps h h :=
  ⟨fun _ hc ↦ ⟨hc, rfl⟩, fun _ hk ↦ hk, rfl, fun _ ↦ rfl, fun _ _ ↦ rfl⟩

theorem Keeps.trans (h₁ : Keeps h h') (h₂ : Keeps h' h'') : Keeps h h'' where
  clients c hc := by
    obtain ⟨hc', hs'⟩ := h₂.clients c hc
    obtain ⟨hc, hs⟩ := h₁.clients c hc'
    exact ⟨hc, hs'.trans hs⟩
  subscriptions k hk := h₁.subscriptions k (h₂.subscriptions k hk)
  addSub := h₂.addSub.trans h₁.addSub
  pump c := (h₂.pump c).trans (h₁.pump c)
  registering c hc := (h₂.registering c ((h₁.pump c).trans hc)).trans (h₁.registering c hc)

theorem Keeps.opened (hk : Keeps h h') (ho : Opened h) : Opened h' where
  clients c hc := by
    obtain ⟨hc, hs⟩ := hk.clients c hc
    exact hs.trans (ho.clients c hc)
  registering c hc := by
    rw [hk.pump] at hc
    obtain ⟨hnew, hopen⟩ := ho.registering c hc
    exact ⟨fun hc' ↦ hnew (hk.clients c hc').1, (hk.registering c hc).trans hopen⟩
  subscribed k hs := by
    rw [hk.pump]
    exact ho.subscribed k (hk.subscriptions k hs)
  queued change hc := by
    rw [hk.addSub] at hc
    rw [hk.pump]
    exact ho.queued change hc

theorem keeps_setSend {ch : Chan OutgoingMessage} (hs : ch.closed = (h.conn c).send.closed) :
    Keeps h (h.setSend c ch) := by
  have hsame : ∀ d, ((h.setSend c ch).conn d).send.closed = (h.conn d).send.closed := by
    intro d
    by_cases hd : d = c
    · subst d
      simp [setSend, setConn, hs]
    · simp [setSend, setConn, update_of_ne hd]
  refine ⟨fun d hd ↦ ⟨hd, hsame d⟩, fun _ hk ↦ hk, rfl, fun d ↦ ?_, fun d _ ↦ hsame d⟩
  by_cases hd : d = c
  · subst d
    simp [setSend, setConn]
  · simp [setSend, setConn, update_of_ne hd]

theorem removeClient_keeps (hp : (h.conn c).pump ≠ .registering) (hr : h.removeClient c = .ok h') : Keeps h h' := by
  simp only [removeClient] at hr
  split at hr
  · contradiction
  · cases hr
    refine ⟨fun d hd ↦ ?_, fun k hk ↦ (GoMap.mem_filter.mp hk).1, rfl, fun d ↦ ?_, fun d hd ↦ ?_⟩
    · obtain ⟨hne, hd⟩ := Finset.mem_erase.mp hd
      exact ⟨hd, by simp [setSend, setConn, update_of_ne hne]⟩
    · by_cases hd : d = c
      · subst d
        simp [setSend, setConn]
      · simp [setSend, setConn, update_of_ne hd]
    · have hne : d ≠ c := by
        rintro rfl
        exact hp hd
      simp [setSend, setConn, update_of_ne hne]

theorem deliver_keeps {event : ResourceEvent} {rawObj : String} {t : ClientID × String}
    (hp : (h.conn t.1).pump ≠ .registering) (hd : h.deliver event rawObj t = .ok h') : Keeps h h' := by
  unfold deliver at hd
  split at hd
  · next ch hs =>
    cases hd
    exact keeps_setSend (by rw [(Chan.trySend_sent hs).2])
  · unfold sendResync at hd
    split at hd
    · next ch hs =>
      cases hd
      exact keeps_setSend (by rw [(Chan.trySend_sent hs).2])
    · exact removeClient_keeps hp hd
    · contradiction
  · contradiction

theorem revoke_keeps {r : Sigma fun _ : SubKey × ClientID ↦ String} (hr : h.revoke r = .ok h') : Keeps h h' := by
  have herase : Keeps h { h with subscriptions := h.subscriptions.erase r.1 } :=
    ⟨fun _ hc ↦ ⟨hc, rfl⟩, fun _ hk ↦ GoMap.mem_of_mem_erase hk, rfl, fun _ ↦ rfl, fun _ _ ↦ rfl⟩
  unfold revoke at hr
  dsimp only at hr
  split at hr
  · next ch hs =>
    cases hr
    exact herase.trans (keeps_setSend (by rw [(Chan.trySend_sent hs).2]))
  · cases hr
    exact herase
  · contradiction

/-- After a panic the state is the one before the handler. -/
theorem settle_opened {r : Except Panic Hub} (ho : Opened h) (hr : ∀ h', r = .ok h' → Keeps h h') :
    Opened (h.settle r) := by
  cases r with
  | ok h' => exact (hr h' rfl).opened ho
  | error p => exact ⟨ho.clients, ho.registering, ho.subscribed, ho.queued⟩

theorem broadcastEvent_keeps {event : ResourceEvent} {order : List (ClientID × String)} (ho : Opened h)
    (hperm : order.Perm (h.targets event)) (hr : h.broadcastEvent event order = .ok h') : Keeps h h' := by
  unfold broadcastEvent at hr
  split at hr
  · cases hr
    exact .refl h
  · apply foldlM_related (N := fun h t ↦ (h.conn t.1).pump ≠ .registering) Keeps.refl (fun _ _ _ ↦ Keeps.trans) _ _ hr
    · intro h t h' hp hd
      exact ⟨deliver_keeps hp hd, fun u hu ↦ (deliver_keeps hp hd).pump u.1 ▸ hu⟩
    · intro t ht
      obtain ⟨key, hk⟩ := mem_targets (hperm.mem_iff.mp ht)
      exact ho.subscribed _ hk

theorem revalidateSubscriptions_keeps {check : SubKey → User → Option Bool}
    {order : List (Sigma fun _ : SubKey × ClientID ↦ String)} (hr : h.revalidateSubscriptions check order = .ok h') :
    Keeps h h' := by
  unfold revalidateSubscriptions at hr
  split at hr
  · exact foldlM_related (N := fun _ _ ↦ True) Keeps.refl (fun _ _ _ ↦ Keeps.trans)
      (fun _ _ _ _ hr ↦ ⟨revoke_keeps hr, fun _ _ ↦ trivial⟩) (fun _ _ ↦ trivial) hr
  · cases hr
    exact .refl h

/-- A step of the client's goroutine, which is past registration after it. -/
theorem Moves.opened (hm : Moves c h h') (hq : ∀ change ∈ h'.addSub.buf, change ∈ h.addSub.buf ∨ change.client = c)
    (ho : Opened h) : Opened h' := by
  have hpast : ∀ d, (h.conn d).pump ≠ .registering → (h'.conn d).pump ≠ .registering := by
    intro d hd
    by_cases hdc : d = c
    · subst d
      exact hm.pump
    · rwa [hm.others d hdc]
  refine ⟨fun d hd ↦ ?_, fun d hd ↦ ?_, fun k hk ↦ ?_, fun change hc ↦ ?_⟩
  · rw [hm.clients] at hd
    by_cases hdc : d = c
    · subst d
      exact hm.closed.trans (ho.clients c hd)
    · rw [hm.others d hdc]
      exact ho.clients d hd
  · have hdc : d ≠ c := fun he ↦ hm.pump (he ▸ hd)
    rw [hm.others d hdc] at hd ⊢
    rw [hm.clients]
    exact ho.registering d hd
  · rw [hm.subscriptions] at hk
    exact hpast _ (ho.subscribed k hk)
  · rcases hq change hc with hc | rfl
    · exact hpast _ (ho.queued change hc)
    · exact hm.pump

theorem sendError_addSub (h : Hub) (c : ClientID) (id : String) (code : ℕ) (message : String) :
    (h.sendError c id code message).addSub = h.addSub := by
  unfold sendError
  split <;> rfl

theorem readMessage_addSub {msg : Option IncomingMessage} {kindAllowed : Bool} {rbac : Option Bool}
    (hs : h.readMessage c msg kindAllowed rbac = some h') :
    ∀ change ∈ h'.addSub.buf, change ∈ h.addSub.buf ∨ change.client = c := by
  have hsame : h'.addSub = h.addSub → ∀ change ∈ h'.addSub.buf, change ∈ h.addSub.buf ∨ change.client = c :=
    fun he change hc ↦ .inl (he ▸ hc)
  unfold readMessage at hs
  cases msg with
  | none =>
    cases hs
    exact hsame (sendError_addSub _ _ _ _ _)
  | some msg =>
    dsimp only at hs
    split at hs
    · unfold subscribe at hs
      split at hs
      · cases hs
        exact hsame (sendError_addSub _ _ _ _ _)
      · cases hs
        exact hsame rfl
      · split at hs
        · next ch hch =>
          cases hs
          intro change hc
          obtain ⟨-, rfl⟩ := Chan.trySend_sent hch
          rcases List.mem_append.mp hc with hc | hc
          · exact .inl hc
          · cases List.mem_singleton.mp hc
            exact .inr rfl
        · contradiction
    · split at hs
      · unfold unsubscribe at hs
        split at hs
        · cases hs
          exact hsame (sendError_addSub _ _ _ _ _)
        · split at hs
          · cases hs
            exact hsame rfl
          · contradiction
      · cases hs
        exact hsame (sendError_addSub _ _ _ _ _)

theorem confirm_addSub (h : Hub) (c : ClientID) (id : String) : (h.confirm c id).addSub = h.addSub := by
  unfold confirm
  split <;> rfl

theorem clientStep_opened {a : Act} (ho : Opened h) (hs : h.clientStep a = some h') : Opened h' := by
  cases a with
  | auth c user written =>
    simp only [clientStep, Option.ite_none_right_eq_some, Option.some.injEq] at hs
    obtain ⟨-, rfl⟩ := hs
    refine Moves.opened (moves_setConn ?_ rfl) (fun _ hc ↦ .inl hc) ho
    dsimp only
    split <;> simp
  | read c msg kindAllowed rbac =>
    simp only [clientStep, Option.ite_none_right_eq_some] at hs
    exact (readMessage_moves (by simp [hs.1]) hs.2).opened (readMessage_addSub hs.2) ho
  | confirm c =>
    simp only [clientStep] at hs
    split at hs
    · cases hs
      exact (confirm_moves c _).opened (fun _ hc ↦ .inl (confirm_addSub h c _ ▸ hc)) ho
    · contradiction
  | hangUp c =>
    simp only [clientStep, Option.ite_none_right_eq_some, Option.some.injEq] at hs
    obtain ⟨-, rfl⟩ := hs
    exact Moves.opened (moves_setConn (by simp) rfl) (fun _ hc ↦ .inl hc) ho
  | write c =>
    simp only [clientStep] at hs
    split at hs
    · cases hs
      exact Keeps.opened (keeps_setSend rfl) ho
    · contradiction
  | handleEvent event =>
    simp only [clientStep] at hs
    split at hs <;> cases hs
    · exact ⟨ho.clients, ho.registering, ho.subscribed, ho.queued⟩
    · exact ho
  | register | unregister | addSub | unsubByID | event | tick | done => contradiction

theorem runStep_opened {a : Act} (ho : Opened h) (hs : h.runStep a = some h') : Opened h' := by
  cases a with
  | register c =>
    simp only [runStep, Option.ite_none_right_eq_some, Option.some.injEq] at hs
    obtain ⟨hp, rfl⟩ := hs
    have hm : Moves c h (h.setPump c .waitForAuth) := moves_setConn (by simp) rfl
    have ho' := hm.opened (fun _ hc ↦ .inl hc) ho
    refine ⟨fun d hd ↦ ?_, fun d hd ↦ ?_, ho'.subscribed, ho'.queued⟩
    · rcases Finset.mem_insert.mp hd with rfl | hd
      · exact hm.closed.trans (ho.registering d hp).2
      · exact ho'.clients d hd
    · obtain ⟨hnew, hopen⟩ := ho'.registering d hd
      have hdc : d ≠ c := fun he ↦ hm.pump (he ▸ hd)
      exact ⟨fun hd' ↦ hnew ((Finset.mem_insert.mp hd').resolve_left hdc), hopen⟩
  | unregister c =>
    simp only [runStep, Option.ite_none_right_eq_some, Option.some.injEq] at hs
    obtain ⟨-, rfl⟩ := hs
    have hm : Moves c h (h.setPump c .left) := moves_setConn (by simp) rfl
    have ho' := hm.opened (fun _ hc ↦ .inl hc) ho
    split
    · exact settle_opened ho' (fun _ ↦ removeClient_keeps hm.pump)
    · exact ho'
  | addSub =>
    simp only [runStep] at hs
    split at hs
    · next change rest hb =>
      cases hs
      refine ⟨ho.clients, ho.registering, fun k hk ↦ ?_, fun change' hc ↦ ho.queued change' ?_⟩
      · rcases GoMap.mem_of_mem_insert hk with rfl | hk
        · exact ho.queued change (by simp [hb])
        · exact ho.subscribed k hk
      · rw [hb]
        exact List.mem_cons_of_mem change hc
    · contradiction
  | unsubByID pick =>
    simp only [runStep] at hs
    split at hs
    · next req rest hb =>
      cases pick with
      | none =>
        simp only [removeByID] at hs
        split at hs <;> cases hs
        exact ⟨ho.clients, ho.registering, ho.subscribed, ho.queued⟩
      | some key =>
        simp only [removeByID, Option.ite_none_right_eq_some, Option.some.injEq] at hs
        obtain ⟨-, rfl⟩ := hs
        exact ⟨ho.clients, ho.registering, fun k hk ↦ ho.subscribed k (GoMap.mem_of_mem_erase hk), ho.queued⟩
    · contradiction
  | event order =>
    simp only [runStep] at hs
    split at hs
    · next event rest hb =>
      simp only [Option.ite_none_right_eq_some, Option.some.injEq] at hs
      obtain ⟨hperm, rfl⟩ := hs
      have hq : Opened { h with events := { h.events with buf := rest } } :=
        ⟨ho.clients, ho.registering, ho.subscribed, ho.queued⟩
      exact settle_opened hq (fun _ ↦ broadcastEvent_keeps hq hperm)
    · contradiction
  | tick check order =>
    simp only [runStep, Option.ite_none_right_eq_some, Option.some.injEq] at hs
    obtain ⟨hperm, rfl⟩ := hs
    exact settle_opened ho (fun _ ↦ revalidateSubscriptions_keeps)
  | done =>
    cases hs
    have hpump : ∀ c, (h.shutdown.conn c).pump = (h.conn c).pump := by
      intro c
      simp only [shutdown]
      split <;> rfl
    refine ⟨fun c hc ↦ absurd hc (Finset.notMem_empty c), fun c hc ↦ ?_, fun k hk ↦ ?_, fun change hc ↦ ?_⟩
    · rw [hpump] at hc
      obtain ⟨hnew, hopen⟩ := ho.registering c hc
      exact ⟨Finset.notMem_empty c, by simp [shutdown, hnew, hopen]⟩
    · rw [hpump]
      exact ho.subscribed k (GoMap.mem_filter.mp hk).1
    · rw [hpump]
      exact ho.queued change hc
  | auth | read | confirm | hangUp | write | handleEvent => contradiction

theorem step_opened {a : Act} (ho : Opened h) (hs : h.step a = some h') : Opened h' := by
  unfold step at hs
  split at hs
  · contradiction
  · split at hs
    all_goals first
      | exact clientStep_opened ho hs
      | (split at hs
         · contradiction
         · exact runStep_opened ho hs)

theorem init_opened (accessChecker : Bool) : Opened (init accessChecker) :=
  ⟨fun _ hc ↦ absurd hc (Finset.notMem_empty _), fun _ _ ↦ ⟨Finset.notMem_empty _, rfl⟩, fun _ hk ↦ absurd hk (AList.notMem_empty _),
    fun _ hc ↦ absurd hc List.not_mem_nil⟩

theorem reachable_opened {accessChecker : Bool} {run : List Act} (hr : exec step (init accessChecker) run = some h) :
    Opened h :=
  (throughout_of_step (fun _ _ _ ho hs ↦ step_opened ho hs) (init_opened accessChecker) run).last hr

end KubeCenter.Websocket.Hub
