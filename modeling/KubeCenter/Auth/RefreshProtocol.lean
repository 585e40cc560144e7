import Mathlib.Data.Finset.Basic
import Mathlib.Logic.Function.Basic
import KubeCenter.Auth.Refresh
import KubeCenter.Auth.RefreshChain
import KubeCenter.Core.Runs

namespace KubeCenter.Auth.RefreshProtocol

open KubeCenter.Core Function

/-- Where one `handleRefresh` execution stands between its accesses to shared state. -/
inductive Handler
  | idle
  | presented (p : Presented)
  | resolving (p : Presented) (session : RefreshSession)
  | signing (p : Presented) (session : RefreshSession) (user : User) (lastRevalidated : ℕ)
  | storing (p : Presented) (session : RefreshSession) (access : AccessToken) (lastRevalidated : ℕ)
  | restoring (p : Presented) (session : RefreshSession) (code : ℕ) (message : String)
  | refused
  | answered (p : Presented) (answer : Response)

/-- The session store with the requests in flight. `sweep` is the cleanup goroutine: the clock
it read at its tick and the row it is about to delete. Two fields are history: `drawn`, every
token generated so far, and `revoked`, every token whose `Revoke` has returned. -/
structure State where
  now : ℕ
  sessions : SessionStore := ∅
  handlers : ℕ → Handler := fun _ ↦ .idle
  sweep : Option (ℕ × Option String) := none
  drawn : Finset String := ∅
  revoked : Finset String := ∅

/-- The atomic steps. A generated token is a new one. -/
inductive Act
  | login (user : User) (token : String)
  | request (i : ℕ) (r : RefreshRequest)
  | rotate (i : ℕ)
  | resolve (i : ℕ) (reg : AuthRegistry)
  | sign (i : ℕ) (signed : Bool)
  | store (i : ℕ) (token : Option String)
  | restore (i : ℕ)
  | logout (cookie : Option String)
  | sweepTick
  | sweepVisit (token : String)
  | sweepDelete
  | sweepEnd
  | advance (d : ℕ)

namespace State

variable (s : State)

def setHandler (i : ℕ) (h : Handler) : State := { s with handlers := update s.handlers i h }

def storeSession (user : User) (token : String) (lastRevalidated : ℕ) : State :=
  { s with
    sessions := s.sessions.store (newSession user token lastRevalidated s.now)
    drawn := insert token s.drawn }

def Fresh (token : String) : Prop := token ∉ s.drawn ∧ token ∉ s.revoked ∧ token ≠ ""

instance (token : String) : Decidable (s.Fresh token) := inferInstanceAs (Decidable (_ ∧ _))

end State

/-- The steps of handler `i`, which stands at `h`. -/
def handlerStep (s : State) (i : ℕ) : Handler → Act → Option State
  | .idle, .request _ r =>
    match r.presented with
    | some p => some (s.setHandler i (.presented p))
    | none => some (s.setHandler i .refused)
  | .presented p, .rotate _ =>
    let s' := { s with sessions := (s.sessions.rotate p.token s.now).2 }
    match (s.sessions.rotate p.token s.now).1 with
    | .ok session => some (s'.setHandler i (.resolving p session))
    | .error _ => some (s'.setHandler i (.answered p (.error 401 "invalid or expired refresh token")))
  | .resolving p session, .resolve _ reg =>
    match resolveUser reg session s.now with
    | .fail true code message _ => some (s.setHandler i (.restoring p session code message))
    | .fail false code message _ => some (s.setHandler i (.answered p (.error code message)))
    | .user user lastRevalidated _ => some (s.setHandler i (.signing p session user lastRevalidated))
  | .signing p session user lastRevalidated, .sign _ signed =>
    if signed then
      some (s.setHandler i (.storing p session (issueAccessToken user s.now) lastRevalidated))
    else some (s.setHandler i (.restoring p session 500 "failed to issue token"))
  | .storing p session _ _, .store _ none =>
    some (s.setHandler i (.restoring p session 500 "failed to issue token"))
  | .storing p _ access lastRevalidated, .store _ (some t) =>
    if s.Fresh t then
      some ((s.storeSession access.user t lastRevalidated).setHandler i
        (.answered p (refreshAnswer access t p.bodyMode)))
    else none
  | .restoring p session code message, .restore _ =>
    some ({ s with sessions := s.sessions.restore session }.setHandler i
      (.answered p (.error code message)))
  | _, _ => none

/-- The other steps: logins, `handleLogout`, the cleanup goroutine and the clock. -/
def otherStep (s : State) : Act → Option State
  | .login user t => if s.Fresh t then some (s.storeSession user t s.now) else none
  | .logout none => some s
  | .logout (some t) =>
    some { s with sessions := s.sessions.revoke t, revoked := insert t s.revoked }
  | .sweepTick => if s.sweep = none then some { s with sweep := some (s.now, none) } else none
  | .sweepVisit t =>
    match s.sweep, s.sessions.lookup t with
    | some (now, none), some session =>
      if session.expiresAt < now then some { s with sweep := some (now, some t) } else none
    | _, _ => none
  | .sweepDelete =>
    match s.sweep with
    | some (now, some t) => some { s with sessions := s.sessions.erase t, sweep := some (now, none) }
    | _ => none
  | .sweepEnd =>
    match s.sweep with
    | some (_, none) => some { s with sweep := none }
    | _ => none
  | .advance d => some { s with now := s.now + d }
  | _ => none

def step (s : State) (a : Act) : Option State :=
  match a with
  | .request i _ | .rotate i | .resolve i _ | .sign i _ | .store i _ | .restore i =>
    handlerStep s i (s.handlers i) a
  | _ => otherStep s a

def init (now : ℕ) : State := { now }

/-- The presented token when its row has been taken out of the store for this call and has not
been put back. -/
def Handler.claim : Handler → Option String
  | .resolving p _ | .signing p _ _ _ | .storing p _ _ _ | .restoring p _ _ _ => some p.token
  | .answered p (.tokens _ _ _ _) => some p.token
  | _ => none

def Handler.holds : Handler → Option (String × RefreshSession)
  | .resolving p session | .signing p session _ _ | .storing p session _ _ | .restoring p session _ _ =>
    some (p.token, session)
  | _ => none

structure Handler.Within (h' h : Handler) : Prop where
  claim : ∀ t, h'.claim = some t → h.claim = some t
  holds : ∀ t session, h'.holds = some (t, session) → h.holds = some (t, session)

theorem Handler.Within.refl (h : Handler) : h.Within h := ⟨fun _ ht ↦ ht, fun _ _ ht ↦ ht⟩

theorem Handler.Within.of_eq {h' h : Handler} (hc : h'.claim = h.claim) (hh : h'.holds = h.holds) :
    h'.Within h := ⟨fun _ ht ↦ hc ▸ ht, fun _ _ ht ↦ hh ▸ ht⟩

theorem Handler.Within.of_none {h' h : Handler} (hc : h'.claim = none) (hh : h'.holds = none) :
    h'.Within h := by
  constructor
  · intro t ht
    rw [hc] at ht
    cases ht
  · intro t session ht
    rw [hh] at ht
    cases ht

theorem Handler.within_answer {p : Presented} {session : RefreshSession} {access access' : AccessToken}
    {lastRevalidated : ℕ} {t : String} :
    (Handler.answered p (refreshAnswer access' t p.bodyMode)).Within
      (.storing p session access lastRevalidated) := by
  refine ⟨fun u hu ↦ ?_, fun u v hu ↦ by cases hu⟩
  unfold refreshAnswer at hu
  split at hu <;> exact hu

variable {s s' : State} {a : Act}

/-- No step turns back the clock or forgets history, and a token is only recorded as revoked
when its row is gone. -/
structure Grows (s s' : State) : Prop where
  now : s.now ≤ s'.now
  drawn : s.drawn ⊆ s'.drawn
  revoked : ∀ t ∈ s'.revoked, t ∈ s.revoked ∨ s'.sessions.lookup t = none

theorem Grows.of_eq (hn : s'.now = s.now) (hs : s'.drawn = s.drawn) (hr : s'.revoked = s.revoked) :
    Grows s s' := ⟨hn.ge, hs.ge, fun _ ht ↦ .inl (hr ▸ ht)⟩

/-- Everything a step can do to the rows and to the handlers' claims on them: take rows or
claims away, take a row for a handler, file a fresh row, or give a row back. -/
inductive Effect (s : State) (a : Act) (s' : State) : Prop
  | drop (rows : ∀ t v, s'.sessions.lookup t = some v → s.sessions.lookup t = some v)
      (handlers : ∀ i, (s'.handlers i).Within (s.handlers i))
  | take (i : ℕ) (p : Presented) (session : RefreshSession)
      (found : s.sessions.lookup p.token = some session)
      (rows : s'.sessions = s.sessions.erase p.token)
      (handlers : s'.handlers = update s.handlers i (.resolving p session))
  | file (user : User) (t : String) (lastRevalidated : ℕ) (fresh : s.Fresh t) (drawn : t ∈ s'.drawn)
      (rows : s'.sessions = s.sessions.store (newSession user t lastRevalidated s.now))
      (handlers : ∀ i, (s'.handlers i).Within (s.handlers i))
  | giveBack (i : ℕ) (p : Presented) (session : RefreshSession) (code : ℕ) (message : String)
      (act : a = .restore i) (held : s.handlers i = .restoring p session code message)
      (rows : s'.sessions = s.sessions.restore session)
      (handlers : s'.handlers = update s.handlers i (.answered p (.error code message)))

theorem within_update {i : ℕ} {h : Handler} (hw : h.Within (s.handlers i)) (j : ℕ) :
    (update s.handlers i h j).Within (s.handlers j) := by
  by_cases hij : j = i
  · subst j
    rwa [update_self]
  · rw [update_of_ne hij]
    exact .refl _

theorem drop_handler {i : ℕ} {h : Handler} (hr : s'.sessions = s.sessions)
    (hh : s'.handlers = update s.handlers i h) (hw : h.Within (s.handlers i)) : Effect s a s' :=
  .drop (fun t v hv ↦ by rwa [hr] at hv) (fun j ↦ hh ▸ within_update hw j)

theorem drop_rows (hh : s'.handlers = s.handlers)
    (hr : ∀ t v, s'.sessions.lookup t = some v → s.sessions.lookup t = some v) : Effect s a s' :=
  .drop hr (fun _ ↦ hh ▸ .refl _)

theorem handlerStep_effect {i : ℕ} {h : Handler} (hi : s.handlers i = h)
    (ha : a = .restore i ∨ ∀ j, a ≠ .restore j)
    (hs : handlerStep s i h a = some s') : Grows s s' ∧ Effect s a s' := by
  unfold handlerStep at hs
  split at hs
  · split at hs <;> cases hs
    · exact ⟨.of_eq rfl rfl rfl, drop_handler rfl rfl (.of_none rfl rfl)⟩
    · exact ⟨.of_eq rfl rfl rfl, drop_handler rfl rfl (.of_none rfl rfl)⟩
  · next p _ =>
    split at hs <;> cases hs
    · next session hr =>
      obtain ⟨hl, -, he⟩ := SessionStore.rotate_ok hr
      exact ⟨.of_eq rfl rfl rfl, .take i p session hl he rfl⟩
    · refine ⟨.of_eq rfl rfl rfl, .drop (fun u v hv ↦ ?_) (within_update (.of_none rfl rfl))⟩
      by_cases hu : u = p.token
      · subst hu
        simp [State.setHandler] at hv
      · simpa [State.setHandler, SessionStore.lookup_rotate_ne hu] using hv
  · split at hs <;> cases hs
    · exact ⟨.of_eq rfl rfl rfl, drop_handler rfl rfl (hi ▸ .of_eq rfl rfl)⟩
    · exact ⟨.of_eq rfl rfl rfl, drop_handler rfl rfl (.of_none rfl rfl)⟩
    · exact ⟨.of_eq rfl rfl rfl, drop_handler rfl rfl (hi ▸ .of_eq rfl rfl)⟩
  · split at hs <;> cases hs
    · exact ⟨.of_eq rfl rfl rfl, drop_handler rfl rfl (hi ▸ .of_eq rfl rfl)⟩
    · exact ⟨.of_eq rfl rfl rfl, drop_handler rfl rfl (hi ▸ .of_eq rfl rfl)⟩
  · cases hs
    exact ⟨.of_eq rfl rfl rfl, drop_handler rfl rfl (hi ▸ .of_eq rfl rfl)⟩
  · next p session access lastRevalidated _ t =>
    split at hs <;> cases hs
    next hfresh =>
    exact ⟨⟨le_rfl, Finset.subset_insert _ _, fun _ ht ↦ .inl ht⟩,
      .file access.user t lastRevalidated hfresh (Finset.mem_insert_self _ _) rfl
        (within_update (hi ▸ Handler.within_answer))⟩
  · next p session code message _ =>
    cases hs
    rcases ha with ha | ha
    · exact ⟨.of_eq rfl rfl rfl, .giveBack i p session code message ha hi rfl rfl⟩
    · exact absurd rfl (ha _)
  · cases hs

theorem otherStep_effect (hs : otherStep s a = some s') : Grows s s' ∧ Effect s a s' := by
  unfold otherStep at hs
  split at hs
  · next user t =>
    split at hs <;> cases hs
    next hfresh =>
    exact ⟨⟨le_rfl, Finset.subset_insert _ _, fun _ ht ↦ .inl ht⟩,
      .file user t s.now hfresh (Finset.mem_insert_self _ _) rfl (fun _ ↦ .refl _)⟩
  · cases hs
    exact ⟨.of_eq rfl rfl rfl, drop_rows rfl (fun _ _ h ↦ h)⟩
  · next t =>
    cases hs
    refine ⟨⟨le_rfl, le_rfl, fun u hu ↦ ?_⟩, drop_rows rfl (fun _ _ h ↦ (SessionStore.lookup_of_erase h).2)⟩
    rcases Finset.mem_insert.mp hu with rfl | hu
    · exact .inr (SessionStore.lookup_revoke_self _)
    · exact .inl hu
  · split at hs <;> cases hs
    exact ⟨.of_eq rfl rfl rfl, drop_rows rfl (fun _ _ h ↦ h)⟩
  · split at hs
    · split at hs <;> cases hs
      exact ⟨.of_eq rfl rfl rfl, drop_rows rfl (fun _ _ h ↦ h)⟩
    · cases hs
  · split at hs <;> cases hs
    exact ⟨.of_eq rfl rfl rfl, drop_rows rfl (fun _ _ h ↦ (SessionStore.lookup_of_erase h).2)⟩
  · split at hs <;> cases hs
    exact ⟨.of_eq rfl rfl rfl, drop_rows rfl (fun _ _ h ↦ h)⟩
  · cases hs
    exact ⟨⟨Nat.le_add_right _ _, le_rfl, fun _ ht ↦ .inl ht⟩, drop_rows rfl (fun _ _ h ↦ h)⟩
  · cases hs

theorem step_effect (hs : step s a = some s') : Grows s s' ∧ Effect s a s' := by
  unfold step at hs
  split at hs
  case h_6 i => exact handlerStep_effect rfl (.inl rfl) hs
  case h_7 => exact otherStep_effect hs
  all_goals exact handlerStep_effect rfl (.inr (by simp)) hs

theorem handlerStep_handlers {i : ℕ} {h : Handler} (hs : handlerStep s i h a = some s') :
    (∀ p answer, h ≠ .answered p answer) ∧ ∃ g, s'.handlers = update s.handlers i g := by
  unfold handlerStep at hs
  split at hs
  case h_8 => cases hs
  all_goals refine ⟨by simp, ?_⟩
  case h_5 => cases hs; exact ⟨_, rfl⟩
  case h_7 => cases hs; exact ⟨_, rfl⟩
  all_goals split at hs <;> cases hs <;> exact ⟨_, rfl⟩

theorem otherStep_handlers (hs : otherStep s a = some s') : s'.handlers = s.handlers := by
  unfold otherStep at hs
  split at hs
  case h_2 | h_3 | h_8 => cases hs; rfl
  case h_5 =>
    split at hs
    · split at hs <;> cases hs
      rfl
    · cases hs
  case h_9 => cases hs
  all_goals split at hs <;> cases hs; rfl

theorem answered_step {i : ℕ} {p : Presented} {answer : Response}
    (hi : s.handlers i = .answered p answer) (hs : step s a = some s') :
    s'.handlers i = .answered p answer := by
  have handler : ∀ j, handlerStep s j (s.handlers j) a = some s' →
      s'.handlers i = .answered p answer := by
    intro j hj
    obtain ⟨hne, g, hg⟩ := handlerStep_handlers hj
    have hij : i ≠ j := fun hij ↦ hne p answer (hij ▸ hi)
    rw [hg, update_of_ne hij, hi]
  unfold step at hs
  split at hs
  case h_7 => rw [otherStep_handlers hs, hi]
  all_goals exact handler _ hs

/-- The handler whose step an action is. -/
def Act.handler : Act → Option ℕ
  | .request i _ | .rotate i | .resolve i _ | .sign i _ | .store i _ | .restore i => some i
  | _ => none

theorem handlers_step_ne {i : ℕ} (hi : a.handler ≠ some i) (hs : step s a = some s') :
    s'.handlers i = s.handlers i := by
  have handler : ∀ j, a.handler = some j → handlerStep s j (s.handlers j) a = some s' →
      s'.handlers i = s.handlers i := by
    intro j hj hs
    obtain ⟨-, g, hg⟩ := handlerStep_handlers hs
    have hij : i ≠ j := fun hij ↦ hi (hij ▸ hj)
    rw [hg, update_of_ne hij]
  unfold step at hs
  split at hs
  case h_7 => rw [otherStep_handlers hs]
  all_goals exact handler _ rfl hs

/-- The row of `t` is there, under its own token. -/
def HasRow (s : State) (t : String) : Prop := ∃ session, s.sessions.lookup t = some session ∧ session.token = t

/-- What takes the row of `t`: its rotation, a logout with it and the cleanup's deletion. -/
def Takes (s : State) (t : String) : Act → Prop
  | .rotate i => ∃ p, s.handlers i = .presented p ∧ p.token = t
  | .logout cookie => cookie = some t
  | .sweepDelete => ∃ now, s.sweep = some (now, some t)
  | _ => False

theorem HasRow.store {t : String} (h : HasRow s t) (session : RefreshSession)
    (hs : s'.sessions = s.sessions.store session) : HasRow s' t := by
  obtain ⟨old, hold, htoken⟩ := h
  by_cases ht : t = session.token
  · subst ht
    exact ⟨session, by rw [hs, SessionStore.lookup_store], rfl⟩
  · exact ⟨old, by rw [hs, SessionStore.lookup_store_ne ht, hold], htoken⟩

theorem HasRow.restore {t : String} (h : HasRow s t) (session : RefreshSession)
    (hs : s'.sessions = s.sessions.restore session) : HasRow s' t := by
  unfold SessionStore.restore at hs
  split at hs
  · rwa [HasRow, hs]
  · exact h.store session hs

theorem HasRow.of_lookup {t : String} (h : HasRow s t) (hs : s'.sessions.lookup t = s.sessions.lookup t) :
    HasRow s' t := by
  rwa [HasRow, hs]

/-- A row stays through every step but those that take it. -/
theorem hasRow_step {t : String} (h : HasRow s t) (ht : ¬ Takes s t a) (hs : step s a = some s') : HasRow s' t := by
  cases a <;> simp only [step] at hs
  case rotate i =>
    cases hi : s.handlers i with
    | presented p =>
      have hne : t ≠ p.token := fun he ↦ ht ⟨p, hi, he.symm⟩
      simp only [hi, handlerStep] at hs
      split at hs <;> cases hs <;> exact h.of_lookup (SessionStore.lookup_rotate_ne hne _)
    | _ => simp [hi, handlerStep] at hs
  case store i token =>
    cases hi : s.handlers i with
    | storing p session access lastRevalidated =>
      cases token with
      | none =>
        cases (by simpa only [hi, handlerStep] using hs : some _ = some s')
        exact h
      | some u =>
        simp only [hi, handlerStep] at hs
        split at hs <;> cases hs
        exact h.store (newSession access.user u lastRevalidated s.now) rfl
    | _ => simp [hi, handlerStep] at hs
  case restore i =>
    cases hi : s.handlers i with
    | restoring p session code message =>
      simp only [hi, handlerStep] at hs
      cases hs
      exact h.restore session rfl
    | _ => simp [hi, handlerStep] at hs
  case login user u =>
    simp only [otherStep] at hs
    split at hs <;> cases hs
    exact h.store (newSession user u s.now s.now) rfl
  case logout cookie =>
    cases cookie with
    | none =>
      cases hs
      exact h
    | some u =>
      have hne : t ≠ u := fun he ↦ ht (by rw [he]; rfl)
      cases hs
      exact h.of_lookup (AList.lookup_erase_ne hne)
  case sweepDelete =>
    simp only [otherStep] at hs
    split at hs <;> cases hs
    next now u hsweep =>
    have hne : t ≠ u := fun he ↦ ht ⟨now, by rw [he, hsweep]⟩
    exact h.of_lookup (AList.lookup_erase_ne hne)
  case request i r =>
    cases hi : s.handlers i with
    | idle =>
      simp only [hi, handlerStep] at hs
      split at hs <;> cases hs <;> exact h
    | _ => simp [hi, handlerStep] at hs
  case resolve i reg =>
    cases hi : s.handlers i with
    | resolving p session =>
      simp only [hi, handlerStep] at hs
      split at hs <;> cases hs <;> exact h
    | _ => simp [hi, handlerStep] at hs
  case sign i signed =>
    cases hi : s.handlers i with
    | signing p session user lastRevalidated =>
      simp only [hi, handlerStep] at hs
      split at hs <;> cases hs <;> exact h
    | _ => simp [hi, handlerStep] at hs
  case advance d =>
    cases hs
    exact h
  all_goals
    simp only [otherStep] at hs
    split at hs
    · first
        | cases hs; exact h
        | (split at hs <;> cases hs; exact h)
    · cases hs

end KubeCenter.Auth.RefreshProtocol

namespace KubeCenter.Auth.RefreshProtocol

open KubeCenter.Core Function

variable {s s' : State} {i : ℕ} {h h' : Handler} {now t : ℕ} {sessions sessions' : SessionStore}

/-- In `s'` handler `i` has come to `h` at the reading `now`, over the rows `sessions`; the
history is that of `s`. -/
structure Stands (s s' : State) (i : ℕ) (h : Handler) (now : ℕ) (sessions : SessionStore) : Prop where
  handler : s'.handlers i = h
  now : s'.now = now
  sessions : s'.sessions = sessions
  drawn : s'.drawn = s.drawn
  revoked : s'.revoked = s.revoked

def Reaches (s : State) (i : ℕ) (h : Handler) (now : ℕ) (sessions : SessionStore) : Prop :=
  ∃ as s', exec step s as = some s' ∧ Stands s s' i h now sessions

theorem Stands.setHandler {u : State} {h' : Handler} (hu : Stands s u i h now sessions) :
    Stands s (u.setHandler i h') i h' now sessions :=
  ⟨update_self .., hu.now, hu.sessions, hu.drawn, hu.revoked⟩

theorem Reaches.step (hr : Reaches s i h now sessions) (ht : now ≤ t) {a : Act} {Q : State → Prop}
    (ha : ∀ u, step u a = handlerStep u i (u.handlers i) a)
    (hstep : ∀ u, Stands s u i h t sessions → ∃ v, handlerStep u i h a = some v ∧ Q v) :
    ∃ as v, exec RefreshProtocol.step s as = some v ∧ Q v := by
  obtain ⟨as, u, hu, hs⟩ := hr
  obtain ⟨v, hv, hQ⟩ := hstep { u with now := t } ⟨hs.handler, rfl, hs.sessions, hs.drawn, hs.revoked⟩
  have hadvance : RefreshProtocol.step u (.advance (t - now)) = some { u with now := t } := by
    have hnow : u.now + (t - now) = t := by
      rw [hs.now]
      omega
    simp [RefreshProtocol.step, otherStep, hnow]
  have hact : RefreshProtocol.step { u with now := t } a = some v := by
    rw [ha, hs.handler]
    exact hv
  exact ⟨as ++ [.advance (t - now)] ++ [a], v, exec_concat (exec_concat hu hadvance) hact, hQ⟩

theorem Reaches.restore {p : Presented} {session : RefreshSession} {code : ℕ} {message : String}
    (hr : Reaches s i (.restoring p session code message) now sessions) :
    Reaches s i (.answered p (.error code message)) now (sessions.restore session) := by
  refine hr.step le_rfl (a := .restore i) (fun _ ↦ rfl) (fun u hu ↦ ⟨_, rfl, ?_⟩)
  apply Stands.setHandler (h := .restoring p session code message)
  exact ⟨hu.handler, hu.now, by rw [← hu.sessions], hu.drawn, hu.revoked⟩

variable {r : Refresh} {p : Presented} {session : RefreshSession}

theorem Reaches.rotate (hr : Reaches s i (.presented p) now sessions) (ht : now ≤ t) :
    (∀ session, (sessions.rotate p.token t).1 = .ok session →
      Reaches s i (.resolving p session) t (sessions.rotate p.token t).2) ∧
    ∀ e, (sessions.rotate p.token t).1 = .error e →
      Reaches s i (.answered p (.error 401 "invalid or expired refresh token")) t
        (sessions.rotate p.token t).2 := by
  have hrotate : ∀ u, Stands s u i (.presented p) t sessions →
      Stands s { u with sessions := (u.sessions.rotate p.token u.now).2 } i (.presented p) t
        (sessions.rotate p.token t).2 :=
    fun u hu ↦ ⟨hu.handler, hu.now, by rw [← hu.sessions, ← hu.now], hu.drawn, hu.revoked⟩
  refine ⟨fun session hok ↦ ?_, fun e herr ↦ ?_⟩
  · refine hr.step ht (a := .rotate i) (fun _ ↦ rfl) (fun u hu ↦ ⟨_, ?_, (hrotate u hu).setHandler⟩)
    simp [handlerStep, hu.sessions, hu.now, hok]
  · refine hr.step ht (a := .rotate i) (fun _ ↦ rfl) (fun u hu ↦ ⟨_, ?_, (hrotate u hu).setHandler⟩)
    simp [handlerStep, hu.sessions, hu.now, herr]

theorem Reaches.resolve (hr : Reaches s i (.resolving p session) now sessions) (ht : now ≤ t)
    (reg : AuthRegistry) :
    match resolveUser reg session t with
    | .fail true code message _ => Reaches s i (.restoring p session code message) t sessions
    | .fail false code message _ => Reaches s i (.answered p (.error code message)) t sessions
    | .user user lastRevalidated _ => Reaches s i (.signing p session user lastRevalidated) t sessions := by
  split
  · next hres =>
    refine hr.step ht (a := .resolve i reg) (fun _ ↦ rfl) (fun u hu ↦ ⟨_, ?_, hu.setHandler⟩)
    simp [handlerStep, hu.now, hres]
  · next hres =>
    refine hr.step ht (a := .resolve i reg) (fun _ ↦ rfl) (fun u hu ↦ ⟨_, ?_, hu.setHandler⟩)
    simp [handlerStep, hu.now, hres]
  · next hres =>
    refine hr.step ht (a := .resolve i reg) (fun _ ↦ rfl) (fun u hu ↦ ⟨_, ?_, hu.setHandler⟩)
    simp [handlerStep, hu.now, hres]

def Answers (s : State) (i : ℕ) (p : Presented) (answer : Response) (sessions : SessionStore) : Prop :=
  ∃ as s', exec step s as = some s' ∧ s'.handlers i = .answered p answer ∧ s'.sessions = sessions

theorem Reaches.answers {answer : Response} (hr : Reaches s i (.answered p answer) now sessions) :
    Answers s i p answer sessions := by
  obtain ⟨as, s', hs, hstands⟩ := hr
  exact ⟨as, s', hs, hstands.handler, hstands.sessions⟩

theorem Reaches.issue {user : User} {lastRevalidated : ℕ} {m : Minting}
    (hr : Reaches s i (.signing p session user lastRevalidated) now sessions)
    (hsign : now ≤ m.signedAt) (hstore : m.signedAt ≤ m.storedAt)
    (hfresh : ∀ t, m.refreshToken = some t → s.Fresh t) :
    match issueTokenPairAt sessions user lastRevalidated m with
    | none => Answers s i p (.error 500 "failed to issue token") (sessions.restore session)
    | some (access, t, sessions') => Answers s i p (refreshAnswer access t p.bodyMode) sessions' := by
  unfold issueTokenPairAt
  cases hsigned : m.signed with
  | false =>
    have hrestoring : Reaches s i (.restoring p session 500 "failed to issue token") m.signedAt sessions := by
      refine hr.step hsign (a := .sign i false) (fun _ ↦ rfl) (fun u hu ↦ ⟨_, ?_, hu.setHandler⟩)
      simp [handlerStep]
    exact hrestoring.restore.answers
  | true =>
    have hstoring : Reaches s i (.storing p session (issueAccessToken user m.signedAt) lastRevalidated)
        m.signedAt sessions := by
      refine hr.step hsign (a := .sign i true) (fun _ ↦ rfl) (fun u hu ↦ ⟨_, ?_, hu.setHandler⟩)
      simp [handlerStep, hu.now]
    cases hdrawn : m.refreshToken with
    | none =>
      have hrestoring : Reaches s i (.restoring p session 500 "failed to issue token") m.storedAt sessions :=
        hstoring.step hstore (a := .store i none) (fun _ ↦ rfl) (fun u hu ↦ ⟨_, rfl, hu.setHandler⟩)
      exact hrestoring.restore.answers
    | some t =>
      refine hstoring.step hstore (a := .store i (some t)) (fun _ ↦ rfl) (fun u hu ↦ ?_)
      have hdraw : u.Fresh t := by
        have := hfresh t hdrawn
        rwa [State.Fresh, ← hu.drawn, ← hu.revoked] at this
      refine ⟨_, if_pos hdraw, update_self .., ?_⟩
      simp [State.setHandler, State.storeSession, hu.sessions, hu.now, issueAccessToken]

/-- A refresh as one function is a run of the protocol that nothing interrupts. -/
theorem handleRefresh_runs (hi : s.handlers i = .idle) (hp : r.request.presented = some p)
    (horder : s.now ≤ r.rotatedAt ∧ r.rotatedAt ≤ r.resolvedAt ∧ r.resolvedAt ≤ r.minting.signedAt ∧
      r.minting.signedAt ≤ r.minting.storedAt)
    (hfresh : ∀ t, r.minting.refreshToken = some t → s.Fresh t) :
    Answers s i p (handleRefresh s.sessions r).1 (handleRefresh s.sessions r).2 := by
  obtain ⟨hnow, hresolved, hsigned, hstored⟩ := horder
  have hidle : Reaches s i .idle s.now s.sessions := ⟨[], s, rfl, hi, rfl, rfl, rfl, rfl⟩
  have hpresented : Reaches s i (.presented p) s.now s.sessions := by
    refine hidle.step le_rfl (a := .request i r.request) (fun _ ↦ rfl)
      (fun u hu ↦ ⟨u.setHandler i (.presented p), ?_, hu.setHandler⟩)
    simp [handlerStep, hp]
  obtain ⟨hok, herr⟩ := hpresented.rotate hnow
  unfold handleRefresh
  simp only [hp]
  generalize s.sessions.rotate p.token r.rotatedAt = rotated at hok herr ⊢
  obtain ⟨verdict, rows⟩ := rotated
  cases verdict with
  | error e => exact (herr e rfl).answers
  | ok session =>
    have hresolve := (hok session rfl).resolve hresolved r.reg
    simp only
    generalize resolveUser r.reg session r.resolvedAt = resolution at hresolve ⊢
    cases resolution with
    | fail restore code message detail =>
      cases restore with
      | true => exact hresolve.restore.answers
      | false => exact hresolve.answers
    | user user lastRevalidated detail =>
      have hissue := hresolve.issue hsigned hstored hfresh
      simp only
      generalize issueTokenPairAt rows user lastRevalidated r.minting = issued at hissue ⊢
      cases issued with
      | none => exact hissue
      | some pair => exact hissue

end KubeCenter.Auth.RefreshProtocol
