import Mathlib.Order.Basic
import KubeCenter.Core.Runs
import KubeCenter.Auth.Refresh

namespace KubeCenter.Auth.RefreshChain

open KubeCenter.Core

section Outcome

variable {s : SessionStore} {r : Refresh}

structure Takes (s : SessionStore) (r : Refresh) (p : Presented) (session : RefreshSession) : Prop where
  presented : r.request.presented = some p
  found : s.lookup p.token = some session
  alive : r.rotatedAt ≤ session.expiresAt

/-- Everything a refresh can do: find no live session, end one, give it back, or renew it. -/
inductive Outcome (s : SessionStore) (r : Refresh) : Response × SessionStore → Prop
  | unknown {code : ℕ} {message : String} {s' : SessionStore}
      (none : ∀ p session, ¬ Takes s r p session)
      (rows : ∀ t v, s'.lookup t = some v → s.lookup t = some v) : Outcome s r (.error code message, s')
  | ended {p : Presented} {session : RefreshSession} {code : ℕ} {message detail : String}
      (takes : Takes s r p session)
      (resolved : resolveUser r.reg session r.resolvedAt = .fail false code message detail) :
      Outcome s r (.error code message, s.erase p.token)
  | givenBack {p : Presented} {session : RefreshSession} {code : ℕ} {message : String}
      (takes : Takes s r p session)
      (cause : (∃ detail, resolveUser r.reg session r.resolvedAt = .fail true code message detail) ∨
        (∃ user lastRevalidated detail,
          resolveUser r.reg session r.resolvedAt = .user user lastRevalidated detail) ∧
        (r.minting.signed = false ∨ r.minting.refreshToken = none)) :
      Outcome s r (.error code message, SessionStore.restore (s.erase p.token) session)
  | renewed {p : Presented} {session : RefreshSession} {user : User} {lastRevalidated : ℕ}
      {detail t : String} (takes : Takes s r p session)
      (resolved : resolveUser r.reg session r.resolvedAt = .user user lastRevalidated detail)
      (signed : r.minting.signed = true) (drawn : r.minting.refreshToken = some t) :
      Outcome s r (refreshAnswer (issueAccessToken user r.minting.signedAt) t p.bodyMode,
        SessionStore.store (s.erase p.token) (newSession user t lastRevalidated r.minting.storedAt))

theorem handleRefresh_outcome (s : SessionStore) (r : Refresh) : Outcome s r (handleRefresh s r) := by
  unfold handleRefresh
  cases hp : r.request.presented with
  | none => exact .unknown (fun p session h ↦ by rw [h.presented] at hp; cases hp) (fun _ _ h ↦ h)
  | some p =>
    simp only
    cases hr : s.rotate p.token r.rotatedAt with
    | mk verdict s' =>
      have hs' : s' = (s.rotate p.token r.rotatedAt).2 := by rw [hr]
      cases verdict with
      | error e =>
        refine .unknown (fun p' session h ↦ ?_) (fun t v hv ↦ ?_)
        · cases hp.symm.trans h.presented
          simp [SessionStore.rotate, h.found, not_lt.mpr h.alive] at hr
        · by_cases ht : t = p.token
          · rw [hs', ht, SessionStore.lookup_rotate_self] at hv
            cases hv
          · rwa [hs', SessionStore.lookup_rotate_ne ht] at hv
      | ok session =>
        have hok : (s.rotate p.token r.rotatedAt).1 = .ok session := by rw [hr]
        obtain ⟨hl, hle, he⟩ := SessionStore.rotate_ok hok
        have takes : Takes s r p session := ⟨hp, hl, hle⟩
        rw [he] at hs'
        subst hs'
        simp only
        cases hres : resolveUser r.reg session r.resolvedAt with
        | fail restore code message detail =>
          cases restore with
          | true => exact .givenBack takes (.inl ⟨detail, hres⟩)
          | false => exact .ended takes hres
        | user user lastRevalidated detail =>
          simp only [issueTokenPairAt]
          cases hsigned : r.minting.signed with
          | false => exact .givenBack takes (.inr ⟨⟨_, _, _, hres⟩, .inl hsigned⟩)
          | true =>
            cases hdrawn : r.minting.refreshToken with
            | none => exact .givenBack takes (.inr ⟨⟨_, _, _, hres⟩, .inr hdrawn⟩)
            | some t => exact .renewed takes hres hsigned hdrawn

theorem Outcome.rows {out : Response × SessionStore} (h : Outcome s r out) {Q : RefreshSession → Prop}
    (hrows : ∀ t v, s.lookup t = some v → Q v)
    (hnew : ∀ p session user lastRevalidated detail t, Takes s r p session →
      resolveUser r.reg session r.resolvedAt = .user user lastRevalidated detail →
      Q (newSession user t lastRevalidated r.minting.storedAt)) :
    ∀ t v, out.2.lookup t = some v → Q v := by
  intro t v hv
  cases h with
  | unknown _ rows => exact hrows t v (rows t v hv)
  | ended => exact hrows t v (SessionStore.lookup_of_erase hv).2
  | givenBack takes =>
    rcases SessionStore.lookup_of_restore hv with ⟨-, rfl⟩ | hv
    · exact hrows _ v takes.found
    · exact hrows t v (SessionStore.lookup_of_erase hv).2
  | renewed takes resolved =>
    rcases SessionStore.lookup_of_store hv with ⟨-, rfl⟩ | hv
    · exact hnew _ _ _ _ _ _ takes resolved
    · exact hrows t v (SessionStore.lookup_of_erase hv).2

/-- The directory's answer about a session, when its id and its provider lead to a directory. -/
def directoryAnswer (reg : AuthRegistry) (session : RefreshSession) : Option Revalidation :=
  match ldapIdentity session.userID with
  | none => none
  | some (id, userDN) =>
    match reg.getCredential id with
    | some (.ldap _ revalidate) => some (revalidate userDN)
    | _ => none

variable {reg : AuthRegistry} {session : RefreshSession} {now : ℕ}

theorem revalidateLDAPSession_eq (reg : AuthRegistry) (session : RefreshSession) (now : ℕ) :
    (∃ message detail, directoryAnswer reg session = none ∧
      revalidateLDAPSession reg session now = .fail false 401 message detail) ∨
    ∃ config id answer, directoryAnswer reg session = some answer ∧
      revalidateLDAPSession reg session now = resolveAnswer config id session now answer := by
  unfold directoryAnswer revalidateLDAPSession
  cases ldapIdentity session.userID with
  | none => exact .inl ⟨_, _, rfl, rfl⟩
  | some identity =>
    obtain ⟨id, userDN⟩ := identity
    simp only
    cases reg.getCredential id with
    | none => exact .inl ⟨_, _, rfl, rfl⟩
    | some provider =>
      cases provider with
      | other => exact .inl ⟨_, _, rfl, rfl⟩
      | ldap config revalidate => exact .inr ⟨config, id, _, rfl, rfl⟩

/-- Only a fresh answer moves the high-water mark; in an outage the cached user passes for the
grace period. -/
theorem revalidateLDAPSession_user {user : User} {lastRevalidated : ℕ} {detail : String}
    (h : revalidateLDAPSession reg session now = .user user lastRevalidated detail) :
    ((∃ entry groups, directoryAnswer reg session = some (.found entry groups)) ∧
      user.provider = "ldap" ∧ lastRevalidated = now) ∨
    (directoryAnswer reg session = some .transient ∧ session.cachedUser = some user ∧
      lastRevalidated = session.lastRevalidated ∧ now - lastRevalidated ≤ ldapGracePeriod) := by
  rcases revalidateLDAPSession_eq reg session now with ⟨_, _, -, he⟩ | ⟨config, id, answer, ha, he⟩
  · rw [he] at h
    cases h
  · rw [he] at h
    cases answer with
    | found entry groups =>
      cases h
      exact .inl ⟨⟨entry, groups, ha⟩, rfl, rfl⟩
    | transient =>
      unfold resolveAnswer at h
      cases hc : session.cachedUser with
      | none =>
        rw [hc] at h
        cases h
      | some cached =>
        simp only [hc] at h
        split at h <;> cases h
        next hgrace =>
        exact .inr ⟨ha, rfl, rfl, not_lt.mp fun hlt ↦ hgrace (.inr hlt)⟩
    | rejected => cases h

theorem revalidateLDAPSession_rejected (h : directoryAnswer reg session = some .rejected) :
    ∃ code message detail, revalidateLDAPSession reg session now = .fail false code message detail := by
  rcases revalidateLDAPSession_eq reg session now with ⟨_, _, hn, -⟩ | ⟨config, id, answer, ha, he⟩
  · rw [h] at hn
    cases hn
  · rw [h] at ha
    cases ha
    exact ⟨_, _, _, he⟩

end Outcome

/-- One login with the refreshes served after it, in order. Of the history, `minted` pairs each
access token with the clock reading its user was settled at, and `verified` has the readings
stamped on the directory's successes. -/
structure State where
  now : ℕ
  sessions : SessionStore
  minted : List (ℕ × AccessToken) := []
  verified : List ℕ
  rejected : Bool := false

def consulted (s : SessionStore) (r : Refresh) : Option Revalidation :=
  match r.request.presented with
  | none => none
  | some p =>
    match (s.rotate p.token r.rotatedAt).1 with
    | .ok session => if session.provider = "ldap" then directoryAnswer r.reg session else none
    | .error _ => none

namespace State

variable (s : State)

def InOrder (r : Refresh) : Prop :=
  s.now ≤ r.rotatedAt ∧ r.rotatedAt ≤ r.resolvedAt ∧ r.resolvedAt ≤ r.minting.signedAt ∧
    r.minting.signedAt ≤ r.minting.storedAt

instance (r : Refresh) : Decidable (s.InOrder r) := inferInstanceAs (Decidable (_ ∧ _))

def record (r : Refresh) (out : Response × SessionStore) : State where
  now := r.minting.storedAt
  sessions := out.2
  minted := match out.1.access with
    | some access => (r.resolvedAt, access) :: s.minted
    | none => s.minted
  verified := match consulted s.sessions r with
    | some (.found _ _) => r.resolvedAt :: s.verified
    | _ => s.verified
  rejected := match consulted s.sessions r with
    | some .rejected => true
    | _ => s.rejected

end State

def step (s : State) (r : Refresh) : Option State :=
  if s.InOrder r then some (s.record r (handleRefresh s.sessions r)) else none

def afterLogin (user : User) (stampedAt : ℕ) (m : Minting) : State :=
  match issueTokenPairAt ∅ user stampedAt m with
  | some (access, _, sessions) =>
    { now := m.storedAt, sessions, minted := [(stampedAt, access)], verified := [stampedAt] }
  | none => { now := m.storedAt, sessions := ∅, verified := [stampedAt] }

theorem afterLogin_cases (user : User) (stampedAt : ℕ) (m : Minting) :
    (∃ t, afterLogin user stampedAt m =
      { now := m.storedAt
        sessions := SessionStore.store ∅ (newSession user t stampedAt m.storedAt)
        minted := [(stampedAt, issueAccessToken user m.signedAt)]
        verified := [stampedAt] }) ∨
    afterLogin user stampedAt m = { now := m.storedAt, sessions := ∅, verified := [stampedAt] } := by
  unfold afterLogin issueTokenPairAt
  cases m.signed with
  | false => exact .inr rfl
  | true =>
    cases m.refreshToken with
    | none => exact .inr rfl
    | some t => exact .inl ⟨t, rfl⟩

variable {s s' : State} {r : Refresh} {p : Presented} {session : RefreshSession}

theorem step_cases (hs : step s r = some s') :
    s.InOrder r ∧ ∃ out, Outcome s.sessions r out ∧ s' = s.record r out := by
  unfold step at hs
  split at hs <;> cases hs
  exact ⟨‹_›, _, handleRefresh_outcome s.sessions r, rfl⟩

theorem Takes.unique {p' : Presented} {session' : RefreshSession} (h : Takes s.sessions r p session)
    (h' : Takes s.sessions r p' session') : p = p' ∧ session = session' := by
  have hp : p = p' := Option.some.inj (h.presented.symm.trans h'.presented)
  subst hp
  exact ⟨rfl, Option.some.inj (h.found.symm.trans h'.found)⟩

theorem Takes.rotate (h : Takes s.sessions r p session) :
    (s.sessions.rotate p.token r.rotatedAt).1 = .ok session := by
  simp [SessionStore.rotate, h.found, not_lt.mpr h.alive]

theorem Takes.consulted (h : Takes s.sessions r p session) : consulted s.sessions r =
    if session.provider = "ldap" then directoryAnswer r.reg session else none := by
  unfold RefreshChain.consulted
  simp only [h.presented, h.rotate]

theorem consulted_of_unknown (h : ∀ p session, ¬ Takes s.sessions r p session) :
    consulted s.sessions r = none := by
  unfold consulted
  cases hp : r.request.presented with
  | none => rfl
  | some p =>
    simp only
    cases hr : (s.sessions.rotate p.token r.rotatedAt).1 with
    | error e => rfl
    | ok session =>
      obtain ⟨hl, hle, -⟩ := SessionStore.rotate_ok hr
      exact absurd ⟨hp, hl, hle⟩ (h p session)

theorem record_minted {out : Response × SessionStore} (h : Outcome s.sessions r out)
    {Q : ℕ × AccessToken → Prop} (hminted : ∀ m ∈ s.minted, Q m)
    (hnew : ∀ p session user lastRevalidated detail t, Takes s.sessions r p session →
      resolveUser r.reg session r.resolvedAt = .user user lastRevalidated detail →
      r.minting.signed = true → r.minting.refreshToken = some t →
      Q (r.resolvedAt, issueAccessToken user r.minting.signedAt)) :
    ∀ m ∈ (s.record r out).minted, Q m := by
  cases h with
  | unknown | ended | givenBack => exact hminted
  | renewed takes resolved signed drawn =>
    intro m hm
    simp only [State.record, refreshAnswer_access, List.mem_cons] at hm
    rcases hm with rfl | hm
    · exact hnew _ _ _ _ _ _ takes resolved signed drawn
    · exact hminted m hm

end KubeCenter.Auth.RefreshChain
