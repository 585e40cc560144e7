import KubeCenter.Auth.RefreshChain

namespace KubeCenter.Auth.RefreshChain

open KubeCenter.Core

variable {s s' : State} {r : Refresh} {p : Presented} {session : RefreshSession}

def CappedBy (limit : ℕ) (s : State) : Prop := ∀ m ∈ s.minted, m.2.mintedAt ≤ limit

/-- A refresh that could mint after the limit finds no live row. -/
def LateFindsNone (limit : ℕ) (s : State) (r : Refresh) : Prop :=
  limit < r.minting.signedAt → r.minting.signed = true → r.minting.refreshToken ≠ none →
    ∀ p session, ¬ Takes s.sessions r p session

def OidcRows (s : State) : Prop :=
  ∀ t v, s.sessions.lookup t = some v →
    v.provider = "oidc" ∧ ∃ user, v.cachedUser = some user ∧ user.provider = "oidc"

theorem resolveUser_oidc {user : User} (reg : AuthRegistry) (now : ℕ)
    (hp : session.provider = "oidc") (hc : session.cachedUser = some user) :
    resolveUser reg session now = .user user now "" := by
  simp [resolveUser, hp, hc]

theorem newSession_oidc {user : User} (h : user.provider = "oidc") (t : String) (lastRevalidated now : ℕ) :
    (newSession user t lastRevalidated now).provider = "oidc" ∧
      ∃ u, (newSession user t lastRevalidated now).cachedUser = some u ∧ u.provider = "oidc" := by
  simp [newSession, h]

theorem oidcRows_step (h : OidcRows s) (hs : step s r = some s') : OidcRows s' := by
  obtain ⟨-, out, ho, rfl⟩ := step_cases hs
  refine ho.rows h (fun p session user lastRevalidated detail t takes resolved ↦ ?_)
  obtain ⟨hp, u, hc, hu⟩ := h p.token session takes.found
  rw [resolveUser_oidc _ _ hp hc] at resolved
  cases resolved
  exact newSession_oidc hu t _ _

theorem cappedBy_step {limit : ℕ} (h : CappedBy limit s) (hok : LateFindsNone limit s r)
    (hs : step s r = some s') : CappedBy limit s' := by
  obtain ⟨-, out, ho, rfl⟩ := step_cases hs
  refine record_minted ho h (fun p session user _ _ t takes _ signed drawn ↦ ?_)
  by_contra hlate
  exact hok (not_le.mp hlate) signed (by simp [drawn]) p session takes

theorem not_cappedBy_of_late {limit : ℕ} (h : OidcRows s) (hbad : ¬ LateFindsNone limit s r)
    (hs : step s r = some s') : ¬ CappedBy limit s' := by
  simp only [LateFindsNone, not_forall, not_not] at hbad
  obtain ⟨hlate, signed, drawn, p, session, takes⟩ := hbad
  obtain ⟨hp, u, hc, -⟩ := h p.token session takes.found
  have hres := resolveUser_oidc r.reg r.resolvedAt hp hc
  obtain ⟨-, out, ho, rfl⟩ := step_cases hs
  intro hcapped
  cases ho with
  | unknown none => exact none p session takes
  | ended takes' resolved =>
    obtain ⟨rfl, rfl⟩ := takes.unique takes'
    rw [hres] at resolved
    cases resolved
  | givenBack takes' cause =>
    obtain ⟨rfl, rfl⟩ := takes.unique takes'
    rcases cause with ⟨_, resolved⟩ | ⟨-, hfail | hfail⟩
    · rw [hres] at resolved
      cases resolved
    · rw [signed] at hfail
      cases hfail
    · exact drawn hfail
  | @renewed _ _ user =>
    refine absurd (hcapped (r.resolvedAt, issueAccessToken user r.minting.signedAt) ?_)
      (not_le.mpr hlate)
    simp only [State.record, refreshAnswer_access]
    exact List.mem_cons_self

theorem afterLogin_oidcRows {user : User} (h : user.provider = "oidc") (stampedAt : ℕ) (m : Minting) :
    OidcRows (afterLogin user stampedAt m) := by
  intro t v hv
  rcases afterLogin_cases user stampedAt m with ⟨u, he⟩ | he <;> rw [he] at hv
  · rcases SessionStore.lookup_of_store hv with ⟨-, rfl⟩ | hv
    · exact newSession_oidc h u _ _
    · cases hv
  · cases hv

def promptRefresh (reg : AuthRegistry) (token successor : String) (t : ℕ) : Refresh :=
  { request := ⟨some token, none⟩
    rotatedAt := t
    resolvedAt := t
    reg
    minting := { signedAt := t, signed := true, storedAt := t, refreshToken := some successor } }

def carol : User :=
  { id := "oidc:carol", username := "carol", provider := "oidc"
    kubernetesUsername := "carol", kubernetesGroups := [], roles := ["user"] }

def noRegistry : AuthRegistry := { getCredential := fun _ ↦ none, getUserByID := fun _ _ ↦ none }

theorem secondRefresh_late :
    (exec step (afterLogin carol minute ⟨minute, true, minute, some "r1"⟩)
      [promptRefresh noRegistry "r1" "r2" (60 * minute),
        promptRefresh noRegistry "r2" "r3" (119 * minute)]).map
      (fun s ↦ s.minted.map (fun m ↦ m.2.mintedAt)) = some [119 * minute, 60 * minute, minute] := by
  decide

end KubeCenter.Auth.RefreshChain
