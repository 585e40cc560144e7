import KubeCenter.Core.GoMap

namespace KubeCenter.Auth

open KubeCenter.Core

/-- Clock readings and durations are in nanoseconds; the reading 0 is the zero `time.Time`. -/
def second : ℕ := 1000000000
def minute : ℕ := 60 * second
def hour : ℕ := 60 * minute

def accessTokenLifetime : ℕ := 15 * minute
def refreshTokenLifetime : ℕ := 7 * 24 * hour
def oidcRefreshTokenLifetime : ℕ := hour
def ldapRefreshTokenLifetime : ℕ := hour

def refreshLifetimeFor (provider : String) : ℕ :=
  if provider = "oidc" then oidcRefreshTokenLifetime
  else if provider = "ldap" then ldapRefreshTokenLifetime
  else refreshTokenLifetime

structure User where
  id : String
  username : String
  provider : String
  kubernetesUsername : String
  kubernetesGroups : List String
  roles : List String
  deriving DecidableEq

structure RefreshSession where
  token : String
  userID : String
  provider : String
  expiresAt : ℕ
  cachedUser : Option User
  lastRevalidated : ℕ
  deriving DecidableEq

inductive RotateError
  | sessionNotFound
  | sessionExpired
  deriving DecidableEq

abbrev SessionStore := GoMap String RefreshSession

namespace SessionStore

variable (s : SessionStore)

def store (session : RefreshSession) : SessionStore := s.insert session.token session

/-- `Rotate`: `LoadAndDelete`, then the expiry check on the row taken out. -/
def rotate (token : String) (now : ℕ) : Except RotateError RefreshSession × SessionStore :=
  match s.lookup token with
  | none => (.error .sessionNotFound, s)
  | some session =>
    (if session.expiresAt < now then .error .sessionExpired else .ok session, s.erase token)

/-- `Restore`, a no-op for the empty token. -/
def restore (session : RefreshSession) : SessionStore :=
  if session.token = "" then s else s.insert session.token session

def revoke (token : String) : SessionStore := s.erase token

variable {s}

theorem lookup_of_erase {t u : String} {v : RefreshSession} (h : (s.erase u).lookup t = some v) :
    t ≠ u ∧ s.lookup t = some v := by
  have ht : t ≠ u := by
    rintro rfl
    rw [AList.lookup_erase] at h
    cases h
  exact ⟨ht, by rwa [AList.lookup_erase_ne ht] at h⟩

@[simp] theorem lookup_store (session : RefreshSession) :
    (s.store session).lookup session.token = some session := AList.lookup_insert s

theorem lookup_store_ne {session : RefreshSession} {t : String} (h : t ≠ session.token) :
    (s.store session).lookup t = s.lookup t := AList.lookup_insert_ne h

theorem lookup_of_store {session : RefreshSession} {t : String} {v : RefreshSession}
    (h : (s.store session).lookup t = some v) :
    t = session.token ∧ v = session ∨ s.lookup t = some v := by
  by_cases ht : t = session.token
  · subst ht
    rw [lookup_store] at h
    exact .inl ⟨rfl, (Option.some.inj h).symm⟩
  · rw [lookup_store_ne ht] at h
    exact .inr h

theorem rotate_ok {t : String} {now : ℕ} {session : RefreshSession}
    (h : (s.rotate t now).1 = .ok session) :
    s.lookup t = some session ∧ now ≤ session.expiresAt ∧ (s.rotate t now).2 = s.erase t := by
  unfold rotate at h ⊢
  cases hl : s.lookup t with
  | none => simp [hl] at h
  | some session' =>
    simp only [hl] at h
    split at h
    · cases h
    · next hle => cases h; exact ⟨rfl, not_lt.mp hle, rfl⟩

@[simp] theorem lookup_rotate_self (t : String) (now : ℕ) : (s.rotate t now).2.lookup t = none := by
  unfold rotate
  cases hl : s.lookup t with
  | none => exact hl
  | some session => exact AList.lookup_erase t s

theorem lookup_rotate_ne {t t' : String} (h : t' ≠ t) (now : ℕ) :
    (s.rotate t now).2.lookup t' = s.lookup t' := by
  unfold rotate
  cases hl : s.lookup t with
  | none => rfl
  | some session => exact AList.lookup_erase_ne h

@[simp] theorem lookup_revoke_self (t : String) : (s.revoke t).lookup t = none :=
  AList.lookup_erase t s

theorem lookup_restore_ne {session : RefreshSession} {t : String} (h : t ≠ session.token) :
    (s.restore session).lookup t = s.lookup t := by
  unfold restore
  split
  · rfl
  · exact AList.lookup_insert_ne h

theorem lookup_of_restore {session : RefreshSession} {t : String} {v : RefreshSession}
    (h : (s.restore session).lookup t = some v) :
    t = session.token ∧ v = session ∨ s.lookup t = some v := by
  unfold restore at h
  split at h
  · exact .inr h
  · exact lookup_of_store h

@[simp] theorem lookup_restore_self {session : RefreshSession} (h : session.token ≠ "") :
    (s.restore session).lookup session.token = some session := by
  simp [restore, h]

end SessionStore

end KubeCenter.Auth
