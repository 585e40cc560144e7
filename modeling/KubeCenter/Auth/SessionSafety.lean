import KubeCenter.Auth.RefreshProtocol

namespace KubeCenter.Auth.RefreshProtocol

open KubeCenter.Core Function

variable {s s' : State} {a : Act}

/-- A token is a row of the store, or claimed by one handler, or neither; never both, and
never by two. -/
structure Inv (s : State) : Prop where
  keyed : ∀ t v, s.sessions.lookup t = some v → v.token = t
  rows : ∀ t v, s.sessions.lookup t = some v → t ∈ s.drawn ∧ t ≠ ""
  claims : ∀ i t, (s.handlers i).claim = some t → t ∈ s.drawn ∧ t ≠ ""
  held : ∀ i t session, (s.handlers i).holds = some (t, session) → session.token = t
  absent : ∀ i t, (s.handlers i).claim = some t → s.sessions.lookup t = none
  unique : ∀ i j t, (s.handlers i).claim = some t → (s.handlers j).claim = some t → i = j

theorem inv_init (now : ℕ) : Inv (init now) where
  keyed _ _ h := by simp [init] at h
  rows _ _ h := by simp [init] at h
  claims _ _ h := by cases h
  held _ _ _ h := by cases h
  absent _ _ h := by cases h
  unique _ _ _ h := by cases h

theorem Inv.row_drawn (h : Inv s) (g : Grows s s') {t : String} {v : RefreshSession}
    (ht : s.sessions.lookup t = some v) : t ∈ s'.drawn ∧ t ≠ "" :=
  ⟨g.drawn (h.rows t v ht).1, (h.rows t v ht).2⟩

theorem Inv.claim_drawn (h : Inv s) (g : Grows s s') {i : ℕ} {t : String}
    (ht : (s.handlers i).claim = some t) : t ∈ s'.drawn ∧ t ≠ "" :=
  ⟨g.drawn (h.claims i t ht).1, (h.claims i t ht).2⟩

theorem Inv.drop (h : Inv s) (g : Grows s s')
    (rows : ∀ t v, s'.sessions.lookup t = some v → s.sessions.lookup t = some v)
    (handlers : ∀ i, (s'.handlers i).Within (s.handlers i)) : Inv s' where
  keyed t v hv := h.keyed t v (rows t v hv)
  rows t v hv := h.row_drawn g (rows t v hv)
  claims i t hi := h.claim_drawn g ((handlers i).claim t hi)
  held i t session hi := h.held i t session ((handlers i).holds t session hi)
  absent i t hi := by
    cases hl : s'.sessions.lookup t with
    | none => rfl
    | some v =>
      have hn := h.absent i t ((handlers i).claim t hi)
      rw [rows t v hl] at hn
      cases hn
  unique i j t hi hj := h.unique i j t ((handlers i).claim t hi) ((handlers j).claim t hj)

theorem Inv.take (h : Inv s) (g : Grows s s') {i : ℕ} {p : Presented} {session : RefreshSession}
    (found : s.sessions.lookup p.token = some session) (rows : s'.sessions = s.sessions.erase p.token)
    (handlers : s'.handlers = update s.handlers i (.resolving p session)) : Inv s' := by
  have hrow : ∀ u v, s'.sessions.lookup u = some v → s.sessions.lookup u = some v :=
    fun u v hv ↦ (SessionStore.lookup_of_erase (by rwa [rows] at hv)).2
  have hclaim : ∀ j u, (s'.handlers j).claim = some u →
      j = i ∧ u = p.token ∨ j ≠ i ∧ (s.handlers j).claim = some u := by
    intro j u hj
    rw [handlers] at hj
    by_cases hji : j = i
    · subst hji
      rw [update_self] at hj
      exact .inl ⟨rfl, (Option.some.inj hj).symm⟩
    · rw [update_of_ne hji] at hj
      exact .inr ⟨hji, hj⟩
  have htaken : ∀ j, (s.handlers j).claim ≠ some p.token := by
    intro j hj
    rw [h.absent j p.token hj] at found
    cases found
  refine ⟨fun u v hv ↦ h.keyed u v (hrow u v hv), fun u v hv ↦ h.row_drawn g (hrow u v hv),
    fun j u hj ↦ ?_, fun j u v hj ↦ ?_, fun j u hj ↦ ?_, fun j k u hj hk ↦ ?_⟩
  · rcases hclaim j u hj with ⟨rfl, rfl⟩ | ⟨-, hj⟩
    · exact h.row_drawn g found
    · exact h.claim_drawn g hj
  · rw [handlers] at hj
    by_cases hji : j = i
    · subst hji
      rw [update_self] at hj
      cases hj
      exact h.keyed p.token session found
    · rw [update_of_ne hji] at hj
      exact h.held j u v hj
  · rw [rows]
    rcases hclaim j u hj with ⟨rfl, rfl⟩ | ⟨-, hj⟩
    · exact AList.lookup_erase _ _
    · have hu : u ≠ p.token := fun hu ↦ htaken j (hu ▸ hj)
      rw [AList.lookup_erase_ne hu]
      exact h.absent j u hj
  · rcases hclaim j u hj with ⟨hji, hu⟩ | ⟨-, hj⟩ <;> rcases hclaim k u hk with ⟨hki, hu'⟩ | ⟨-, hk⟩
    · rw [hji, hki]
    · exact absurd (hu ▸ hk) (htaken k)
    · exact absurd (hu' ▸ hj) (htaken j)
    · exact h.unique j k u hj hk

theorem Inv.file (h : Inv s) (g : Grows s s') {user : User} {t : String} {lastRevalidated : ℕ}
    (fresh : s.Fresh t) (drawn : t ∈ s'.drawn)
    (rows : s'.sessions = s.sessions.store (newSession user t lastRevalidated s.now))
    (handlers : ∀ i, (s'.handlers i).Within (s.handlers i)) : Inv s' := by
  have hrow : ∀ u v, s'.sessions.lookup u = some v →
      u = t ∧ v = newSession user t lastRevalidated s.now ∨ s.sessions.lookup u = some v :=
    fun u v hv ↦ SessionStore.lookup_of_store (by rwa [rows] at hv)
  refine ⟨fun u v hv ↦ ?_, fun u v hv ↦ ?_, fun i u hi ↦ h.claim_drawn g ((handlers i).claim u hi),
    fun i u v hi ↦ h.held i u v ((handlers i).holds u v hi), fun i u hi ↦ ?_,
    fun i j u hi hj ↦ h.unique i j u ((handlers i).claim u hi) ((handlers j).claim u hj)⟩
  · rcases hrow u v hv with ⟨rfl, rfl⟩ | hv
    · rfl
    · exact h.keyed u v hv
  · rcases hrow u v hv with ⟨rfl, -⟩ | hv
    · exact ⟨drawn, fresh.2.2⟩
    · exact h.row_drawn g hv
  · have hi := (handlers i).claim u hi
    have hu : u ≠ t := fun hu ↦ fresh.1 (hu ▸ (h.claims i u hi).1)
    rw [rows, SessionStore.lookup_store_ne hu]
    exact h.absent i u hi

theorem Inv.giveBack (h : Inv s) (g : Grows s s') {i : ℕ} {p : Presented} {session : RefreshSession}
    {code : ℕ} {message : String} (held : s.handlers i = .restoring p session code message)
    (rows : s'.sessions = s.sessions.restore session)
    (handlers : s'.handlers = update s.handlers i (.answered p (.error code message))) :
    Inv s' := by
  have htoken : session.token = p.token := h.held i p.token session (by rw [held]; rfl)
  have hclaimed : (s.handlers i).claim = some session.token := by rw [held, htoken]; rfl
  have hrow : ∀ u v, s'.sessions.lookup u = some v →
      u = session.token ∧ v = session ∨ s.sessions.lookup u = some v :=
    fun u v hv ↦ SessionStore.lookup_of_restore (by rwa [rows] at hv)
  have hwithin : ∀ j, (s'.handlers j).Within (s.handlers j) := by
    rw [handlers]
    exact within_update (.of_none rfl rfl)
  have hother : ∀ j u, (s'.handlers j).claim = some u → j ≠ i := by
    intro j u hj hji
    rw [handlers, hji, update_self] at hj
    cases hj
  refine ⟨fun u v hv ↦ ?_, fun u v hv ↦ ?_, fun j u hj ↦ h.claim_drawn g ((hwithin j).claim u hj),
    fun j u v hj ↦ h.held j u v ((hwithin j).holds u v hj), fun j u hj ↦ ?_,
    fun j k u hj hk ↦ h.unique j k u ((hwithin j).claim u hj) ((hwithin k).claim u hk)⟩
  · rcases hrow u v hv with ⟨rfl, rfl⟩ | hv
    · rfl
    · exact h.keyed u v hv
  · rcases hrow u v hv with ⟨rfl, rfl⟩ | hv
    · exact h.claim_drawn g hclaimed
    · exact h.row_drawn g hv
  · have hu : u ≠ session.token :=
      fun hu ↦ hother j u hj (h.unique j i u ((hwithin j).claim u hj) (hu ▸ hclaimed))
    rw [rows, SessionStore.lookup_restore_ne hu]
    exact h.absent j u ((hwithin j).claim u hj)

theorem inv_step (h : Inv s) (hs : step s a = some s') : Inv s' := by
  obtain ⟨g, e⟩ := step_effect hs
  cases e with
  | drop rows handlers => exact h.drop g rows handlers
  | take i p session found rows handlers => exact h.take g found rows handlers
  | file user t lastRevalidated fresh drawn rows handlers => exact h.file g fresh drawn rows handlers
  | giveBack i p session code message act held rows handlers => exact h.giveBack g held rows handlers

theorem inv_throughout (now : ℕ) (as : List Act) : Throughout step Inv (init now) as :=
  throughout_of_step (fun _ _ _ h hs ↦ inv_step h hs) (inv_init now) as

def LogoutFinal (s : State) : Prop :=
  ∀ t ∈ s.revoked, ∀ session, (s.sessions.rotate t s.now).1 ≠ .ok session

/-- No unexpired session is restored once its token has been revoked. -/
def NoLateRestore (s : State) : Act → Prop
  | .restore i => ∀ p session code message, s.handlers i = .restoring p session code message →
      p.token ∈ s.revoked → session.expiresAt < s.now
  | _ => True

theorem logoutFinal_iff :
    LogoutFinal s ↔ ∀ t ∈ s.revoked, ∀ v, s.sessions.lookup t = some v → v.expiresAt < s.now := by
  refine ⟨fun h t ht v hv ↦ ?_, fun h t ht session hr ↦ ?_⟩
  · by_contra hn
    exact h t ht v (by simp [SessionStore.rotate, hv, hn])
  · obtain ⟨hl, hle, -⟩ := SessionStore.rotate_ok hr
    exact absurd (h t ht session hl) (not_lt.mpr hle)

theorem LogoutFinal.of_rows (h : LogoutFinal s) (g : Grows s s')
    (rows : ∀ t ∈ s.revoked, ∀ v, s'.sessions.lookup t = some v →
      s.sessions.lookup t = some v ∨ v.expiresAt < s.now) : LogoutFinal s' := by
  rw [logoutFinal_iff] at h ⊢
  intro t ht v hv
  have hr : t ∈ s.revoked := by
    rcases g.revoked t ht with hr | hn
    · exact hr
    · rw [hn] at hv
      cases hv
  rcases rows t hr v hv with hv | hv
  · exact (h t hr v hv).trans_le g.now
  · exact hv.trans_le g.now

theorem logoutFinal_step (hi : Inv s) (h : LogoutFinal s) (hok : NoLateRestore s a)
    (hs : step s a = some s') : LogoutFinal s' := by
  obtain ⟨g, e⟩ := step_effect hs
  cases e with
  | drop rows _ => exact h.of_rows g (fun t _ v hv ↦ .inl (rows t v hv))
  | take i p session found rows _ =>
    exact h.of_rows g (fun t _ v hv ↦ .inl (SessionStore.lookup_of_erase (rows ▸ hv)).2)
  | file user t lastRevalidated fresh _ rows _ =>
    refine h.of_rows g (fun u hu v hv ↦ .inl ?_)
    have hut : u ≠ t := fun hut ↦ fresh.2.1 (hut ▸ hu)
    rwa [rows, SessionStore.lookup_store_ne hut] at hv
  | giveBack i p session code message act held rows _ =>
    subst act
    have htoken : session.token = p.token := hi.held i p.token session (by rw [held]; rfl)
    refine h.of_rows g (fun t ht v hv ↦ ?_)
    rw [rows] at hv
    rcases SessionStore.lookup_of_restore hv with ⟨rfl, rfl⟩ | hv
    · exact .inr (hok p v code message held (htoken ▸ ht))
    · exact .inl hv

theorem not_logoutFinal_of_lateRestore (hi : Inv s) (hbad : ¬ NoLateRestore s a)
    (hs : step s a = some s') : ¬ LogoutFinal s' := by
  cases a with
  | restore i =>
    simp only [NoLateRestore, not_forall] at hbad
    obtain ⟨p, session, code, message, held, hrev, hexp⟩ := hbad
    have htoken : session.token = p.token := hi.held i p.token session (by rw [held]; rfl)
    have hne : session.token ≠ "" := htoken ▸ (hi.claims i p.token (by rw [held]; rfl)).2
    simp only [step, held, handlerStep, Option.some.injEq] at hs
    subst hs
    rw [logoutFinal_iff]
    intro h
    exact hexp (h p.token hrev session (htoken ▸ SessionStore.lookup_restore_self hne))
  | _ => exact absurd trivial hbad

/-- Logout is final in exactly the runs that restore no unexpired session after its revocation. -/
theorem logoutFinal_throughout_iff (now : ℕ) (as : List Act) :
    Throughout step LogoutFinal (init now) as ↔ EachStep step NoLateRestore (init now) as := by
  refine throughout_iff_eachStep (I := fun s ↦ Inv s ∧ LogoutFinal s) (fun s h ↦ h.2)
    (fun s a t h hok hs ↦ ⟨inv_step h.1 hs, logoutFinal_step h.1 h.2 hok hs⟩)
    (fun s a t h hok hs ↦ not_logoutFinal_of_lateRestore h.1 hok hs) ⟨inv_init now, ?_⟩ as
  intro t ht
  cases ht

/-- The directory is down past the grace window when the user refreshes, and the user logs out
while the handler still holds the session. -/
def lateRestore : List Act :=
  let ann : User :=
    { id := "ldap:corp:cn=ann", username := "ann", provider := "ldap"
      kubernetesUsername := "ann", kubernetesGroups := [], roles := ["user"] }
  let down : AuthRegistry :=
    { getCredential := fun _ ↦ some (.ldap { id := "corp" } (fun _ ↦ .transient))
      getUserByID := fun _ _ ↦ none }
  [.login ann "r1", .advance (6 * minute), .request 0 ⟨some "r1", none⟩, .rotate 0, .resolve 0 down,
    .logout (some "r1"), .restore 0]

theorem lateRestore_succeeds :
    (exec step (init 1) lateRestore).map (fun s ↦
      (decide ("r1" ∈ s.revoked), (s.sessions.rotate "r1" s.now).1.isOk)) = some (true, true) := by
  decide

theorem not_logoutFinal_throughout : ¬ ∀ now as, Throughout step LogoutFinal (init now) as := by
  intro h
  obtain ⟨s, hs, he⟩ := Option.map_eq_some_iff.mp lateRestore_succeeds
  obtain ⟨hrev, hok⟩ := Prod.mk.inj he
  cases hr : (s.sessions.rotate "r1" s.now).1 with
  | ok session => exact (h 1 lateRestore).last hs "r1" (of_decide_eq_true hrev) session hr
  | error e =>
    rw [hr] at hok
    cases hok

def Minted (s : State) (i : ℕ) (t : String) : Prop :=
  ∃ p access expiresIn refreshToken refreshExpiresIn, p.token = t ∧
    s.handlers i = .answered p (.tokens access expiresIn refreshToken refreshExpiresIn)

/-- Once call `i` has minted for `t`, whatever happens next no other call mints for it and no
`Rotate(t)` succeeds. -/
def AtMostOnce (s : State) : Prop :=
  ∀ i t, Minted s i t → ∀ as, Throughout step
    (fun s' ↦ Minted s' i t ∧ (∀ j, Minted s' j t → j = i) ∧
      ∀ now session, (s'.sessions.rotate t now).1 ≠ .ok session) s as

theorem Minted.claim {i : ℕ} {t : String} (h : Minted s i t) : (s.handlers i).claim = some t := by
  obtain ⟨p, _, _, _, _, rfl, hi⟩ := h
  rw [hi]
  rfl

theorem Inv.minted_final (h : Inv s) {i : ℕ} {t : String} (hi : Minted s i t) :
    (∀ j, Minted s j t → j = i) ∧ ∀ now session, (s.sessions.rotate t now).1 ≠ .ok session := by
  refine ⟨fun j hj ↦ h.unique j i t hj.claim hi.claim, fun now session hr ↦ ?_⟩
  have hl := (SessionStore.rotate_ok hr).1
  rw [h.absent i t hi.claim] at hl
  cases hl

/-- A refresh token is exchanged at most once, in every run. -/
theorem atMostOnce_throughout (now : ℕ) (as : List Act) :
    Throughout step AtMostOnce (init now) as := by
  refine (inv_throughout now as).mono (fun s h i t hi bs ↦ ?_)
  have hstep : ∀ s a s', Inv s ∧ Minted s i t → step s a = some s' → Inv s' ∧ Minted s' i t := by
    rintro s a s' ⟨h, p, access, expiresIn, refreshToken, refreshExpiresIn, ht, hi⟩ hs
    exact ⟨inv_step h hs, p, access, expiresIn, refreshToken, refreshExpiresIn, ht, answered_step hi hs⟩
  exact (throughout_of_step hstep ⟨h, hi⟩ bs).mono
    (fun s' h ↦ ⟨h.2, (h.1.minted_final h.2).1, (h.1.minted_final h.2).2⟩)

end KubeCenter.Auth.RefreshProtocol
