import KubeCenter.Auth.RefreshChain

namespace KubeCenter.Auth.RefreshChain

open KubeCenter.Core

variable {s s' : State} {r : Refresh} {p : Presented} {session : RefreshSession}

/-- The row is an LDAP user's and its high-water mark is the stamp of a directory success. -/
structure LdapRow (s : State) (v : RefreshSession) : Prop where
  provider : v.provider = "ldap"
  cached : ∀ user, v.cachedUser = some user → user.provider = "ldap"
  stamped : v.lastRevalidated ∈ s.verified
  past : v.lastRevalidated ≤ s.now

/-- Each token was minted for a user settled within the grace period of a directory success. -/
def Bounded (s : State) : Prop :=
  ∀ m ∈ s.minted, m.1 ≤ m.2.mintedAt ∧
    ∃ b ∈ s.verified, b ≤ m.1 ∧ m.1 ≤ b + ldapGracePeriod

/-- After a definitive rejection no refresh mints. -/
def RejectedFinal (s : State) : Prop :=
  s.rejected = true → ∀ r s', step s r = some s' → s'.minted = s.minted

structure LdapInv (s : State) : Prop where
  keyed : ∀ t v, s.sessions.lookup t = some v → v.token = t
  single : ∀ t u v w, s.sessions.lookup t = some v → s.sessions.lookup u = some w → t = u
  rows : ∀ t v, s.sessions.lookup t = some v → LdapRow s v
  bounded : Bounded s
  rejected : s.rejected = true → ∀ t, s.sessions.lookup t = none

theorem verified_subset (s : State) (r : Refresh) (out : Response × SessionStore) :
    s.verified ⊆ (s.record r out).verified := by
  unfold State.record
  simp only
  split
  · exact List.subset_cons_self _ _
  · exact List.Subset.refl _

theorem resolveUser_ldap (reg : AuthRegistry) (now : ℕ) (hp : session.provider = "ldap") :
    resolveUser reg session now = revalidateLDAPSession reg session now := by
  simp [resolveUser, hp]

theorem LdapRow.record {v : RefreshSession} (h : LdapRow s v) (ho : s.InOrder r)
    (out : Response × SessionStore) : LdapRow (s.record r out) v where
  provider := h.provider
  cached := h.cached
  stamped := verified_subset s r out h.stamped
  past := by
    obtain ⟨h₁, h₂, h₃, h₄⟩ := ho
    have := h.past
    simp only [State.record]
    omega

theorem LdapInv.consulted (h : LdapInv s) (takes : Takes s.sessions r p session) :
    consulted s.sessions r = directoryAnswer r.reg session := by
  rw [takes.consulted, if_pos (h.rows _ _ takes.found).provider]

theorem LdapInv.renewal (h : LdapInv s) (ho : s.InOrder r) (takes : Takes s.sessions r p session)
    {user : User} {lastRevalidated : ℕ} {detail : String}
    (resolved : resolveUser r.reg session r.resolvedAt = .user user lastRevalidated detail)
    (out : Response × SessionStore) :
    user.provider = "ldap" ∧ lastRevalidated ∈ (s.record r out).verified ∧
      lastRevalidated ≤ r.resolvedAt ∧ r.resolvedAt ≤ lastRevalidated + ldapGracePeriod := by
  have hrow := h.rows _ _ takes.found
  have hpast := hrow.past
  obtain ⟨h₁, h₂, -, -⟩ := ho
  rw [resolveUser_ldap _ _ hrow.provider] at resolved
  rcases revalidateLDAPSession_user resolved with ⟨⟨entry, groups, hd⟩, hu, rfl⟩ | ⟨-, hc, rfl, hg⟩
  · refine ⟨hu, ?_, le_rfl, Nat.le_add_right _ _⟩
    simp only [State.record, h.consulted takes, hd]
    exact List.mem_cons_self
  · exact ⟨hrow.cached user hc, verified_subset s r out hrow.stamped, by omega, by omega⟩

theorem newSession_ldapRow {user : User} {t : String} {lastRevalidated now : ℕ}
    (hu : user.provider = "ldap") (hv : lastRevalidated ∈ s.verified) (hn : lastRevalidated ≤ s.now) :
    LdapRow s (newSession user t lastRevalidated now) := by
  refine ⟨hu, fun u hc ↦ ?_, hv, hn⟩
  simp only [newSession, hu] at hc
  cases hc
  exact hu

theorem LdapInv.rejects (h : LdapInv s) (takes : Takes s.sessions r p session)
    {out : Response × SessionStore} (hr : (s.record r out).rejected = true) :
    ∃ code message detail,
      resolveUser r.reg session r.resolvedAt = .fail false code message detail := by
  have hlive : s.rejected = false := by
    by_contra hn
    have hnone := h.rejected (by simpa using hn) p.token
    rw [takes.found] at hnone
    cases hnone
  rw [resolveUser_ldap _ _ (h.rows _ _ takes.found).provider]
  apply revalidateLDAPSession_rejected
  simp only [State.record, h.consulted takes, hlive] at hr
  split at hr
  · assumption
  · cases hr

theorem LdapInv.erase (h : LdapInv s) (takes : Takes s.sessions r p session) {t : String}
    {v : RefreshSession} (hv : (s.sessions.erase p.token).lookup t = some v) : False := by
  obtain ⟨hne, hv⟩ := SessionStore.lookup_of_erase hv
  exact hne (h.single t p.token v session hv takes.found)

theorem LdapInv.step_single (h : LdapInv s) {out : Response × SessionStore}
    (ho : Outcome s.sessions r out) :
    (∀ t v, out.2.lookup t = some v → v.token = t) ∧
      ∀ t u v w, out.2.lookup t = some v → out.2.lookup u = some w → t = u := by
  cases ho with
  | unknown _ rows =>
    exact ⟨fun t v hv ↦ h.keyed t v (rows t v hv),
      fun t u v w hv hw ↦ h.single t u v w (rows t v hv) (rows u w hw)⟩
  | ended takes =>
    exact ⟨fun t v hv ↦ (h.erase takes hv).elim, fun t u v w hv _ ↦ (h.erase takes hv).elim⟩
  | @givenBack _ session _ _ takes =>
    have hrow : ∀ t v, (SessionStore.restore _ session).lookup t = some v → t = session.token ∧ v = session :=
      fun t v hv ↦ (SessionStore.lookup_of_restore hv).resolve_right (h.erase takes)
    refine ⟨fun t v hv ↦ ?_, fun t u v w hv hw ↦ (hrow t v hv).1.trans (hrow u w hw).1.symm⟩
    obtain ⟨rfl, rfl⟩ := hrow t v hv
    rfl
  | @renewed _ _ user lastRevalidated _ t₀ takes =>
    have hrow : ∀ t v, (SessionStore.store _ (newSession user t₀ lastRevalidated _)).lookup t = some v →
        t = t₀ ∧ v = newSession user t₀ lastRevalidated r.minting.storedAt :=
      fun t v hv ↦ (SessionStore.lookup_of_store hv).resolve_right (h.erase takes)
    refine ⟨fun t v hv ↦ ?_, fun t u v w hv hw ↦ (hrow t v hv).1.trans (hrow u w hw).1.symm⟩
    obtain ⟨rfl, rfl⟩ := hrow t v hv
    rfl

theorem LdapInv.step_rejected (h : LdapInv s) {out : Response × SessionStore}
    (ho : Outcome s.sessions r out) (hr : (s.record r out).rejected = true) (t : String) :
    out.2.lookup t = none := by
  cases hl : out.2.lookup t with
  | none => rfl
  | some v =>
    exfalso
    cases ho with
    | unknown none rows =>
      simp only [State.record, consulted_of_unknown none] at hr
      have hnone := h.rejected hr t
      rw [rows t v hl] at hnone
      cases hnone
    | ended takes => exact h.erase takes hl
    | givenBack takes cause =>
      obtain ⟨_, _, _, hf⟩ := h.rejects takes hr
      rcases cause with ⟨_, he⟩ | ⟨⟨_, _, _, he⟩, -⟩ <;> rw [hf] at he <;> cases he
    | renewed takes resolved =>
      obtain ⟨_, _, _, hf⟩ := h.rejects takes hr
      rw [hf] at resolved
      cases resolved

theorem LdapInv.step_bounded (h : LdapInv s) (hi : s.InOrder r) {out : Response × SessionStore}
    (ho : Outcome s.sessions r out) : Bounded (s.record r out) := by
  refine record_minted ho (fun m hm ↦ ?_) (fun p session user lastRevalidated _ t takes resolved _ _ ↦ ?_)
  · obtain ⟨hle, b, hb, hbounds⟩ := h.bounded m hm
    exact ⟨hle, b, verified_subset s r out hb, hbounds⟩
  · obtain ⟨-, hb, hbounds⟩ := h.renewal hi takes resolved out
    exact ⟨hi.2.2.1, lastRevalidated, hb, hbounds⟩

theorem ldapInv_step (h : LdapInv s) (hs : step s r = some s') : LdapInv s' := by
  obtain ⟨hi, out, ho, rfl⟩ := step_cases hs
  refine ⟨(h.step_single ho).1, (h.step_single ho).2, ?_, h.step_bounded hi ho, h.step_rejected ho⟩
  refine ho.rows (fun t v hv ↦ (h.rows t v hv).record hi out)
    (fun p session user lastRevalidated detail t takes resolved ↦ ?_)
  obtain ⟨hu, hb, hle, -⟩ := h.renewal hi takes resolved out
  apply newSession_ldapRow hu hb
  obtain ⟨-, -, h₃, h₄⟩ := hi
  simp only [State.record]
  omega

theorem LdapInv.rejectedFinal (h : LdapInv s) : RejectedFinal s := by
  intro hr r s' hs
  obtain ⟨-, out, ho, rfl⟩ := step_cases hs
  have hnone : ∀ p session, ¬ Takes s.sessions r p session := by
    intro p session takes
    have hn := h.rejected hr p.token
    rw [takes.found] at hn
    cases hn
  cases ho with
  | unknown => rfl
  | ended takes | givenBack takes | renewed takes => exact absurd takes (hnone _ _)

theorem afterLogin_ldapInv {user : User} (hu : user.provider = "ldap") {stampedAt : ℕ} {m : Minting}
    (hm : stampedAt ≤ m.signedAt ∧ m.signedAt ≤ m.storedAt) : LdapInv (afterLogin user stampedAt m) := by
  rcases afterLogin_cases user stampedAt m with ⟨t₀, he⟩ | he <;> rw [he]
  · have hrow : ∀ t v, (SessionStore.store ∅ (newSession user t₀ stampedAt m.storedAt)).lookup t = some v →
        t = t₀ ∧ v = newSession user t₀ stampedAt m.storedAt :=
      fun t v hv ↦ (SessionStore.lookup_of_store hv).resolve_right (by simp)
    refine ⟨fun t v hv ↦ ?_, fun t u v w hv hw ↦ (hrow t v hv).1.trans (hrow u w hw).1.symm,
      fun t v hv ↦ ?_, fun x hx ↦ ?_, fun hr ↦ by cases hr⟩
    · obtain ⟨rfl, rfl⟩ := hrow t v hv
      rfl
    · obtain ⟨rfl, rfl⟩ := hrow t v hv
      exact newSession_ldapRow hu List.mem_cons_self (hm.1.trans hm.2)
    · rw [List.mem_singleton.mp hx]
      exact ⟨hm.1, stampedAt, List.mem_cons_self, le_rfl, Nat.le_add_right _ _⟩
  · refine ⟨fun t v hv ↦ ?_, fun t u v w hv ↦ ?_, fun t v hv ↦ ?_, fun x hx ↦ ?_, fun hr ↦ ?_⟩
    · cases hv
    · cases hv
    · cases hv
    · cases hx
    · cases hr

/-- In every run of an LDAP session each token is minted for a user settled within the grace
period of a directory success, and none after a rejection. -/
theorem ldap_grace {user : User} (huser : user.provider = "ldap") {stampedAt : ℕ} {m : Minting}
    (hm : stampedAt ≤ m.signedAt ∧ m.signedAt ≤ m.storedAt) (rs : List Refresh) :
    Throughout step (fun s ↦ Bounded s ∧ RejectedFinal s) (afterLogin user stampedAt m) rs :=
  (throughout_of_step (fun _ _ _ h hs ↦ ldapInv_step h hs) (afterLogin_ldapInv huser hm) rs).mono
    (fun _ h ↦ ⟨h.bounded, h.rejectedFinal⟩)

def ann : User :=
  { id := "ldap:corp:cn=ann", username := "ann", provider := "ldap"
    kubernetesUsername := "ann", kubernetesGroups := [], roles := ["user"] }

def downRegistry : AuthRegistry :=
  { getCredential := fun _ ↦ some (.ldap { id := "corp" } (fun _ ↦ .transient))
    getUserByID := fun _ _ ↦ none }

/-- The outage is checked at the last instant of the grace period, and the token is signed a
second later. -/
def lateSigning : Refresh :=
  { request := ⟨some "r1", none⟩
    rotatedAt := minute + ldapGracePeriod
    resolvedAt := minute + ldapGracePeriod
    reg := downRegistry
    minting :=
      { signedAt := minute + ldapGracePeriod + second, signed := true
        storedAt := minute + ldapGracePeriod + second, refreshToken := some "r2" } }

theorem ldap_grace_ann :
    Throughout step (fun s ↦ Bounded s ∧ RejectedFinal s)
      (afterLogin ann minute ⟨minute, true, minute, some "r1"⟩) [lateSigning] :=
  ldap_grace rfl (by decide) _

theorem lateSigning_minted :
    (exec step (afterLogin ann minute ⟨minute, true, minute, some "r1"⟩) [lateSigning]).map
      (fun s ↦ (s.minted.map (fun m ↦ m.2.mintedAt), s.verified)) =
    some ([minute + ldapGracePeriod + second, minute], [minute]) := by
  decide

theorem not_ldap_grace_minted : ¬ ∀ (user : User) (stampedAt : ℕ) (m : Minting) (rs : List Refresh),
    user.provider = "ldap" → stampedAt ≤ m.signedAt ∧ m.signedAt ≤ m.storedAt →
      Throughout step (fun s ↦ (∀ m ∈ s.minted, ∃ b ∈ s.verified,
          b ≤ m.2.mintedAt ∧ m.2.mintedAt ≤ b + ldapGracePeriod) ∧ RejectedFinal s)
        (afterLogin user stampedAt m) rs := by
  intro h
  obtain ⟨s, hs, he⟩ := Option.map_eq_some_iff.mp lateSigning_minted
  obtain ⟨hm, hv⟩ := Prod.mk.inj he
  have hgrace := ((h _ _ _ _ rfl (by decide)).last hs).1
  have hmem : minute + ldapGracePeriod + second ∈ s.minted.map (fun m ↦ m.2.mintedAt) := by simp [hm]
  obtain ⟨x, hx, hxm⟩ := List.mem_map.mp hmem
  obtain ⟨b, hb, -, hle⟩ := hgrace x hx
  rw [hv, List.mem_singleton] at hb
  rw [hxm, hb] at hle
  exact absurd hle (by decide)

end KubeCenter.Auth.RefreshChain
