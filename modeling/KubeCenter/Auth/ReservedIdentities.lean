import KubeCenter.Auth.Identity

namespace KubeCenter.Auth

open KubeCenter.Core

/-- The identity to impersonate takes no name that Kubernetes reserves. -/
structure User.Unreserved (u : User) : Prop where
  username : hasPrefix "system:" u.kubernetesUsername = false
  groups : ∀ g ∈ u.kubernetesGroups, reservedGroup g = false

theorem mem_of_hasPrefix {p s : String} (h : hasPrefix p s = true) {c : Char} (hc : c ∈ p.toList) : c ∈ s.toList :=
  (List.isPrefixOf_iff_prefix.mp h).subset hc

theorem validUsername_unreserved {s : String} (h : validUsername s = true) : hasPrefix "system:" s = false := by
  by_contra hp
  have hcolon : ':' ∈ s.toList := mem_of_hasPrefix (by simpa using hp) (by decide)
  unfold validUsername at h
  cases hs : s.toList with
  | nil =>
    rw [hs] at hcolon
    cases hcolon
  | cons c cs =>
    rw [hs] at h hcolon
    obtain ⟨hc, hcs⟩ := Bool.and_eq_true_iff.mp h
    rcases List.mem_cons.mp hcolon with rfl | hmem
    · exact absurd hc (by decide)
    · exact absurd (List.all_eq_true.mp hcs ':' hmem) (by decide)

theorem forM_ok {α : Type} {f : α → Except APIError Unit} {l : List α} (h : l.forM f = .ok ()) :
    ∀ a ∈ l, f a = .ok () := by
  induction l with
  | nil => nofun
  | cons b l ih =>
    have hsplit : (f b).bind (fun _ ↦ l.forM f) = .ok () := h
    obtain ⟨u, hb, hl⟩ := bind_eq_ok.mp hsplit
    intro a ha
    rcases List.mem_cons.mp ha with rfl | ha
    · exact hb
    · exact ih hl a ha

theorem vetGroup_ok {g : String} (h : vetGroup g = .ok ()) : reservedGroup g = false := by
  unfold vetGroup at h
  rw [ite_error_eq_ok, ite_error_eq_ok] at h
  simpa using h.2.1

theorem vetCreateUser_ok {req : CreateUserRequest} {opts : CreateUserOpts} (h : vetCreateUser req = .ok opts) :
    opts.k8sUsername ≠ "" ∧ opts.k8sGroups ≠ [] ∧ hasPrefix "system:" opts.k8sUsername = false ∧
      ∀ g ∈ opts.k8sGroups, reservedGroup g = false := by
  unfold vetCreateUser at h
  simp only [ite_error_eq_ok, bind_eq_ok] at h
  obtain ⟨-, -, hsystem, hname, -, u, hgroups, -, v, -, h⟩ := h
  cases h
  have hne : (if req.k8sGroups = [] then ["system:authenticated"] else req.k8sGroups) ≠ [] := by
    split
    · exact List.cons_ne_nil _ _
    · assumption
  exact ⟨fun he ↦ hname (.inl he), hne, by simpa using hsystem, fun g hg ↦ vetGroup_ok (forM_ok hgroups g hg)⟩

theorem vetSetup_ok {gate : SetupGate} {req : SetupRequest} (h : vetSetup gate req = .ok ()) :
    validUsername req.username = true := by
  unfold vetSetup at h
  simp only [ite_error_eq_ok] at h
  by_contra hv
  exact h.2.1 (.inr hv)

theorem hashAndBuild_unreserved {username : String} (h : validUsername username = true) (roles : List String)
    (d : Drawn) : (hashAndBuild username roles d).toUser.Unreserved where
  username := validUsername_unreserved h
  groups := by
    intro g hg
    rw [List.mem_singleton.mp hg]
    decide

theorem apply_unreserved {req : CreateUserRequest} {opts : CreateUserOpts} (h : vetCreateUser req = .ok opts)
    (record : UserRecord) : (opts.apply record).toUser.Unreserved := by
  obtain ⟨hname, hgroups, hsystem, hreserved⟩ := vetCreateUser_ok h
  constructor
  · simpa [CreateUserOpts.apply, UserRecord.toUser, hname] using hsystem
  · simpa [CreateUserOpts.apply, UserRecord.toUser, hgroups] using hreserved

def LocalUsers.Unreserved (users : LocalUsers) : Prop := ∀ r ∈ users, r.toUser.Unreserved

theorem LocalUsers.unreserved_create {users users' : LocalUsers} {record : UserRecord} (hu : users.Unreserved)
    (hr : record.toUser.Unreserved) (h : users.create record = some users') : users'.Unreserved := by
  unfold create at h
  split at h <;> cases h
  intro r hmem
  rcases List.mem_append.mp hmem with hmem | hmem
  · exact hu r hmem
  · rw [List.mem_singleton.mp hmem]
    exact hr

theorem LocalUsers.unreserved_delete {users users' : LocalUsers} {id : String} (hu : users.Unreserved)
    (h : users.delete id = some users') : users'.Unreserved := by
  unfold delete at h
  split at h <;> cases h
  exact fun r hr ↦ hu r (List.mem_filter.mp hr).1

theorem createUserRecord_unreserved {body : RequestBody CreateUserRequest} {drawn : Option Drawn}
    {record : UserRecord} (h : createUserRecord body drawn = .ok record) : record.toUser.Unreserved := by
  unfold createUserRecord at h
  split at h
  · cases h
  · obtain ⟨opts, hopts, h⟩ := bind_eq_ok.mp h
    split at h <;> cases h
    exact apply_unreserved hopts _

theorem setupRecord_unreserved {gate : SetupGate} {body : RequestBody SetupRequest} {drawn : Option Drawn}
    {record : UserRecord} (h : setupRecord gate body drawn = .ok record) : record.toUser.Unreserved := by
  unfold setupRecord at h
  split at h
  · cases h
  · obtain ⟨u, hvet, h⟩ := bind_eq_ok.mp h
    split at h <;> cases h
    exact hashAndBuild_unreserved (vetSetup_ok hvet) _ _

theorem handleCreateUser_unreserved {users users' : LocalUsers} {body : RequestBody CreateUserRequest}
    {drawn : Option Drawn} {user : User} (hu : users.Unreserved)
    (h : handleCreateUser users body drawn = .ok (user, users')) : user.Unreserved ∧ users'.Unreserved := by
  obtain ⟨record, hrecord, h⟩ := bind_eq_ok.mp h
  have hclean := createUserRecord_unreserved hrecord
  split at h
  · cases h
  · next hcreate =>
    cases h
    exact ⟨hclean, LocalUsers.unreserved_create hu hclean hcreate⟩

theorem handleSetupInit_unreserved {users users' : LocalUsers} {gate : SetupGate} {body : RequestBody SetupRequest}
    {drawn : Option Drawn} {user : User} (h : handleSetupInit users gate body drawn = .ok (user, users')) :
    user.Unreserved ∧ users'.Unreserved := by
  obtain ⟨record, hrecord, h⟩ := bind_eq_ok.mp h
  have hclean := setupRecord_unreserved hrecord
  rw [ite_error_eq_ok] at h
  cases h.2
  refine ⟨hclean, fun r hr ↦ ?_⟩
  rw [List.mem_singleton.mp hr]
  exact hclean

theorem localAuthenticate_unreserved {users : LocalUsers} {username : String} {verify : String → Bool} {user : User}
    (hu : users.Unreserved) (h : localAuthenticate users username verify = some user) : user.Unreserved := by
  obtain ⟨stored, hs, h⟩ := Option.bind_eq_some_iff.mp h
  split at h <;> cases h
  exact hu stored (List.mem_of_find?_eq_some hs)

/-- The groups claim is `g`, or an array that holds it. -/
def IDToken.AssertsGroup (idToken : IDToken) (claim g : String) : Prop :=
  g ≠ "" ∧ ∃ claims, idToken.rawClaims = some claims ∧
    (claims.lookup claim = some (.string g) ∨ ∃ items, claims.lookup claim = some (.array items) ∧ .string g ∈ items)

/-- The entry is a member of `g`, or has no usable `memberOf` and the group search returns `g`. -/
def DirectoryEntry.AssertsGroup (entry : DirectoryEntry) (config : LDAPProviderConfig)
    (search : Option (List DirectoryEntry)) (g : String) : Prop :=
  g ≠ "" ∧ ((∃ dn ∈ entry.attributes "memberOf", extractCNFromDN dn = g) ∨
    (∀ dn ∈ entry.attributes "memberOf", extractCNFromDN dn = "") ∧ config.groupBaseDN ≠ "" ∧
      config.groupFilter ≠ "" ∧ ∃ entries, search = some entries ∧
        ∃ e ∈ entries, e.getAttributeValue config.groupNameAttr = g)

theorem stringGroup_eq_some {v : Json} {g : String} : stringGroup v = some g ↔ g ≠ "" ∧ v = .string g := by
  unfold stringGroup
  split
  · next s =>
    by_cases hs : s = ""
    · rw [if_pos hs]
      constructor
      · intro h
        cases h
      · rintro ⟨hg, he⟩
        cases he
        exact absurd hs hg
    · rw [if_neg hs, Option.some.injEq, Json.string.injEq]
      exact ⟨fun h ↦ ⟨h ▸ hs, h⟩, fun h ↦ h.2⟩
  · next hv => exact ⟨nofun, fun h ↦ absurd h.2 (hv g)⟩

theorem mem_extractGroups {config : OIDCConfig} {idToken : IDToken} {g : String} :
    g ∈ extractGroups config idToken ↔ idToken.AssertsGroup config.groupsClaim g := by
  unfold extractGroups IDToken.AssertsGroup
  cases hraw : idToken.rawClaims with
  | none => simp
  | some claims =>
    rw [Option.bind_some]
    split
    · next s hs =>
      split
      · next he => simp +contextual [hs, he, eq_comm]
      · next he => simp +contextual [hs, he, eq_comm, iff_def]
    · next items hi => simp [hi, List.mem_filterMap, stringGroup_eq_some, and_comm]
    · next hstring harray =>
      simp only [List.not_mem_nil, false_iff, not_and, not_exists]
      rintro - claims' he (h | ⟨items, h, -⟩)
      · cases he
        exact hstring g h
      · cases he
        exact harray items h

theorem mem_getGroups {config : LDAPProviderConfig} {entry : DirectoryEntry} {search : Option (List DirectoryEntry)}
    {g : String} : g ∈ getGroups config entry search ↔ entry.AssertsGroup config search g := by
  unfold getGroups DirectoryEntry.AssertsGroup
  simp only
  split
  · next hmember =>
    have hsome : ¬ ∀ dn ∈ entry.attributes "memberOf", extractCNFromDN dn = "" := by
      intro hall
      apply hmember
      simpa [List.filter_eq_nil_iff] using hall
    simp [hsome, and_comm]
  · next hmember =>
    have hall : ∀ dn ∈ entry.attributes "memberOf", extractCNFromDN dn = "" := by
      simpa [List.filter_eq_nil_iff] using hmember
    have hnone : g ≠ "" → ¬ ∃ dn ∈ entry.attributes "memberOf", extractCNFromDN dn = g := by
      rintro hg ⟨dn, hdn, he⟩
      exact hg (he ▸ hall dn hdn)
    split
    · next hoff =>
      simp only [List.not_mem_nil, false_iff]
      rintro ⟨hg, hm | ⟨-, hbase, hfilter, -⟩⟩
      · exact hnone hg hm
      · exact hoff.elim hbase hfilter
    · next hon =>
      rw [not_or] at hon
      cases search with
      | none =>
        simp only [List.not_mem_nil, false_iff]
        rintro ⟨hg, hm | ⟨-, -, -, entries, he, -⟩⟩
        · exact hnone hg hm
        · cases he
      | some entries =>
        simp only [List.mem_filter, List.mem_map, decide_eq_true_eq]
        constructor
        · rintro ⟨⟨e, he, hv⟩, hg⟩
          exact ⟨hg, .inr ⟨hall, hon.1, hon.2, entries, rfl, e, he, hv⟩⟩
        · rintro ⟨hg, hm | ⟨-, -, -, entries', he', e, he, hv⟩⟩
          · exact absurd hm (hnone hg)
          · cases he'
            exact ⟨⟨e, he, hv⟩, hg⟩

section

variable (toLower : Char → Char)

/-- The token passes the checks of a login. -/
structure TokenAccepted (config : OIDCConfig) (idToken : IDToken) (nonce : String) (claims : OIDCClaims) : Prop where
  nonce : idToken.nonce = nonce
  decoded : idToken.claims = some claims
  verified : ¬ (config.usernameClaim = "email" ∧ claims.email ≠ "" ∧ claims.emailVerified = false)
  domain : ¬ (config.allowedDomains ≠ [] ∧ isAllowedDomain toLower config claims.email = false)

/-- What an accepted token asserts: the first claim in the order of the fallbacks that is not empty, and the
groups behind the configured prefix, take no reserved name. -/
def OIDCConfig.TokenHarmless (config : OIDCConfig) (exchanged : Except String IDToken) (nonce : String) : Prop :=
  ∀ idToken claims, exchanged = .ok idToken → TokenAccepted toLower config idToken nonce claims →
    hasPrefix "system:" (firstNonEmpty
      [usernameClaimOf config claims idToken.subject, claims.email, claims.preferredUsername] idToken.subject) =
        false ∧
      ∀ g, idToken.AssertsGroup config.groupsClaim g → reservedGroup (config.groupsPrefix ++ g) = false

/-- The same of the entry that the directory finds. -/
def LDAPProviderConfig.EntryHarmless (config : LDAPProviderConfig) (c : LDAPConversation) : Prop :=
  ∀ entry, c.entries = some [entry] →
    hasPrefix "system:" (firstNonEmpty ([config.identity.usernameMapAttr, "uid", "sAMAccountName", "mail"].map
        entry.getAttributeValue) entry.dn) = false ∧
      ∀ g, entry.AssertsGroup config c.groupSearch g → reservedGroup (config.identity.groupsPrefix ++ g) = false

/-- The condition on an attempt; the local ways in need none. -/
def Attempt.Harmless : Attempt → Prop
  | .oidcCallback config exchanged nonce => config.withDefaults.TokenHarmless toLower exchanged nonce
  | .oidcMobile config exchanged req =>
    req.code ≠ "" → req.codeVerifier ≠ "" → req.nonce ≠ "" →
      config.withDefaults.TokenHarmless toLower exchanged req.nonce
  | .ldapLogin config username c =>
    usernameAllowlist username ∧ c.connected ∧ c.serviceBound ∧ c.userBound ∧ c.rebound →
      config.EntryHarmless c
  | .ldapRevalidate config userDN c => userDN ≠ "" ∧ c.connected ∧ c.serviceBound → config.EntryHarmless c
  | _ => True

variable {toLower} {config : OIDCConfig} {user : User}

theorem reservedGroup_users : reservedGroup "k8scenter:users" = false := by decide

theorem mapClaimsToUser_unreserved {claims : OIDCClaims} {groups : List String} {subject : String} :
    (mapClaimsToUser config claims groups subject).Unreserved ↔
      hasPrefix "system:" (firstNonEmpty
        [usernameClaimOf config claims subject, claims.email, claims.preferredUsername] subject) = false ∧
        ∀ g ∈ groups, reservedGroup (config.groupsPrefix ++ g) = false := by
  constructor
  · intro h
    exact ⟨h.username, fun g hg ↦ h.groups _ (List.mem_cons_of_mem _ (List.mem_map_of_mem hg))⟩
  · rintro ⟨hname, hgroups⟩
    refine ⟨hname, fun g hg ↦ ?_⟩
    rcases List.mem_cons.mp hg with rfl | hg
    · exact reservedGroup_users
    · obtain ⟨h, hh, rfl⟩ := List.mem_map.mp hg
      exact hgroups h hh

theorem entryHarmless_iff {config : LDAPProviderConfig} {c : LDAPConversation} :
    config.EntryHarmless c ↔ ∀ user, foundUser config c = some user → user.Unreserved := by
  unfold LDAPProviderConfig.EntryHarmless foundUser
  split
  · next entry he =>
    simp only [he, Option.some.injEq, List.cons.injEq, and_true, forall_eq']
    constructor
    · rintro ⟨hname, hgroups⟩
      refine ⟨hname, fun g hg ↦ ?_⟩
      rcases List.mem_cons.mp hg with rfl | hg
      · exact reservedGroup_users
      · obtain ⟨h, hh, rfl⟩ := List.mem_map.mp hg
        exact hgroups h (mem_getGroups.mp hh)
    · intro h
      exact ⟨h.username, fun g hg ↦ h.groups _ (List.mem_cons_of_mem _ (List.mem_map_of_mem (mem_getGroups.mpr hg)))⟩
  · next hentries => exact ⟨fun _ user h ↦ (by cases h), fun _ entry he ↦ absurd he (hentries entry)⟩

theorem userOfToken_ok {idToken : IDToken} {nonce : String} :
    userOfToken toLower config idToken nonce = .ok user ↔
      ∃ claims, TokenAccepted toLower config idToken nonce claims ∧
        mapClaimsToUser config claims (extractGroups config idToken) idToken.subject = user := by
  unfold userOfToken
  rw [ite_error_eq_ok, not_not]
  cases hc : idToken.claims with
  | none =>
    constructor
    · rintro ⟨-, h⟩
      cases h
    · rintro ⟨claims, h, -⟩
      rw [h.decoded] at hc
      cases hc
  | some claims =>
    simp only [ite_error_eq_ok, Except.ok.injEq]
    constructor
    · rintro ⟨hn, hv, hd, he⟩
      exact ⟨claims, ⟨hn, hc, hv, hd⟩, he⟩
    · rintro ⟨claims', h, he⟩
      have hsame : claims' = claims := Option.some.inj (h.decoded.symm.trans hc)
      subst hsame
      exact ⟨h.nonce, h.verified, h.domain, he⟩

theorem tokenHarmless_iff {exchanged : Except String IDToken} {nonce : String} :
    config.TokenHarmless toLower exchanged nonce ↔
      ∀ user, exchanged.bind (fun idToken ↦ userOfToken toLower config idToken nonce) = .ok user → user.Unreserved := by
  constructor
  · intro h user hu
    obtain ⟨idToken, hex, hu⟩ := bind_eq_ok.mp hu
    obtain ⟨claims, hacc, rfl⟩ := userOfToken_ok.mp hu
    obtain ⟨hname, hgroups⟩ := h idToken claims hex hacc
    exact mapClaimsToUser_unreserved.mpr ⟨hname, fun g hg ↦ hgroups g (mem_extractGroups.mp hg)⟩
  · intro h idToken claims hex hacc
    have hu := h _ (bind_eq_ok.mpr ⟨idToken, hex, userOfToken_ok.mpr ⟨claims, hacc, rfl⟩⟩)
    obtain ⟨hname, hgroups⟩ := mapClaimsToUser_unreserved.mp hu
    exact ⟨hname, fun g hg ↦ hgroups g (mem_extractGroups.mpr hg)⟩

theorem gated_unreserved {c : Prop} [Decidable c] {found : Option User} :
    (∀ user, (if c then found else none) = some user → user.Unreserved) ↔
      (c → ∀ user, found = some user → user.Unreserved) := by
  by_cases hc : c
  · simp [hc]
  · simp [hc]

theorem exchangeMobile_unreserved {exchanged : Except String IDToken} {req : MobileExchange} :
    (∀ user, exchangeMobile toLower config exchanged req = .ok user → user.Unreserved) ↔
      (req.code ≠ "" → req.codeVerifier ≠ "" → req.nonce ≠ "" → config.TokenHarmless toLower exchanged req.nonce) := by
  unfold exchangeMobile
  simp only [ite_error_eq_ok, tokenHarmless_iff]
  constructor
  · intro h hcode hverifier hnonce user hu
    exact h user ⟨hcode, hverifier, hnonce, hu⟩
  · rintro h user ⟨hcode, hverifier, hnonce, hu⟩
    exact h hcode hverifier hnonce user hu

namespace Identities

variable {s : Identities} {a : Attempt}

/-- What every attempt leaves: neither an account nor a user issued with a reserved name. -/
structure Clean (s : Identities) : Prop where
  users : s.users.Unreserved
  issued : ∀ u ∈ s.issued, u.Unreserved

theorem clean_empty : ({} : Identities).Clean where
  users := by
    intro r hr
    cases hr
  issued := by
    intro u hu
    cases hu

theorem clean_created {r : Except APIError (User × LocalUsers)} (h : s.Clean)
    (hr : ∀ user users, r = .ok (user, users) → user.Unreserved ∧ users.Unreserved) : (s.created r).Clean := by
  cases r with
  | error e => exact h
  | ok p =>
    obtain ⟨huser, husers⟩ := hr p.1 p.2 rfl
    exact ⟨husers, List.forall_mem_cons.mpr ⟨huser, h.issued⟩⟩

theorem issued_issue {found : Option User} (h : ∀ u ∈ s.issued, u.Unreserved) :
    (∀ u ∈ (s.issue found).issued, u.Unreserved) ↔ ∀ user, found = some user → user.Unreserved := by
  constructor
  · rintro hall user rfl
    exact hall user (by simp [issue])
  · intro hfound u hu
    rcases List.mem_append.mp hu with hu | hu
    · exact hfound u (Option.mem_toList.mp hu)
    · exact h u hu

/-- An attempt keeps the users issued clean exactly when it is harmless. -/
theorem issued_attempt_iff (h : s.Clean) (a : Attempt) :
    (∀ u ∈ (s.attempt toLower a).issued, u.Unreserved) ↔ a.Harmless toLower := by
  have hlocal : ∀ r, (∀ user users, r = .ok (user, users) → user.Unreserved ∧ users.Unreserved) →
      ((∀ u ∈ (s.created r).issued, u.Unreserved) ↔ True) :=
    fun r hr ↦ iff_true_intro (clean_created h hr).issued
  have htoOption : ∀ r : Except String User,
      (∀ user, r.toOption = some user → user.Unreserved) ↔ ∀ user, r = .ok user → user.Unreserved := by
    intro r
    cases r <;> simp [Except.toOption]
  cases a with
  | setupInit gate body drawn => exact hlocal _ (fun _ _ ↦ handleSetupInit_unreserved)
  | createUser body drawn => exact hlocal _ (fun _ _ ↦ handleCreateUser_unreserved h.users)
  | deleteUser id => exact iff_true_intro h.issued
  | localLogin username verify =>
    exact iff_true_intro ((issued_issue h.issued).mpr fun _ ↦ localAuthenticate_unreserved h.users)
  | oidcCallback config exchanged nonce =>
    exact (issued_issue h.issued).trans ((htoOption _).trans tokenHarmless_iff.symm)
  | oidcMobile config exchanged req =>
    exact (issued_issue h.issued).trans ((htoOption _).trans exchangeMobile_unreserved)
  | ldapLogin config username c =>
    exact (issued_issue h.issued).trans (gated_unreserved.trans (imp_congr_right fun _ ↦ entryHarmless_iff.symm))
  | ldapRevalidate config userDN c =>
    exact (issued_issue h.issued).trans (gated_unreserved.trans (imp_congr_right fun _ ↦ entryHarmless_iff.symm))

theorem users_attempt (h : s.Clean) (a : Attempt) : (s.attempt toLower a).users.Unreserved := by
  cases a with
  | setupInit gate body drawn => exact (clean_created h fun _ _ ↦ handleSetupInit_unreserved).users
  | createUser body drawn => exact (clean_created h fun _ _ ↦ handleCreateUser_unreserved h.users).users
  | deleteUser id =>
    cases hd : s.users.delete id with
    | none => simpa [attempt, hd] using h.users
    | some users => simpa [attempt, hd] using LocalUsers.unreserved_delete h.users hd
  | _ => exact h.users

/-- Over every run of logins and account changes from an empty table, the users issued carry no reserved
identity exactly when what the directory or the identity provider asserts is harmless at every attempt. -/
theorem unreserved_iff (toLower : Char → Char) (attempts : List Attempt) :
    Throughout (step toLower) (fun s ↦ ∀ u ∈ s.issued, u.Unreserved) {} attempts ↔
      EachStep (step toLower) (fun _ a ↦ a.Harmless toLower) {} attempts := by
  refine throughout_iff_eachStep (I := Clean) (fun s h ↦ h.issued) ?_ ?_ clean_empty attempts
  · rintro s a t h hok ⟨⟩
    exact ⟨users_attempt h a, (issued_attempt_iff h a).mpr hok⟩
  · rintro s a t h hbad ⟨⟩ hissued
    exact hbad ((issued_attempt_iff h a).mp hissued)

/-- An identity provider that lets its users choose `preferred_username` and has a group `system:masters`. -/
def systemLogin : Attempt :=
  .oidcCallback { id := "corp", usernameClaim := "preferred_username" }
    (.ok
      { nonce := "n1", subject := "u1"
        claims := some { preferredUsername := "system:admin" }
        rawClaims := some (AList.singleton "groups" (.array [.string "system:masters"])) })
    "n1"

theorem systemLogin_issued : (attempt Char.toLower {} systemLogin).issued.map
    (fun u ↦ (u.kubernetesUsername, u.kubernetesGroups)) =
      [("system:admin", ["k8scenter:users", "system:masters"])] := by
  decide

theorem not_unreserved : ¬ ∀ (toLower : Char → Char) (attempts : List Attempt),
    Throughout (step toLower) (fun s ↦ ∀ u ∈ s.issued, u.Unreserved) {} attempts := by
  intro h
  have hmem : ("system:admin", ["k8scenter:users", "system:masters"]) ∈
      (attempt Char.toLower {} systemLogin).issued.map (fun u ↦ (u.kubernetesUsername, u.kubernetesGroups)) := by
    rw [systemLogin_issued]
    exact List.mem_singleton_self _
  obtain ⟨u, hu, he⟩ := List.mem_map.mp hmem
  have hname := ((h Char.toLower [systemLogin]).last (exec_singleton rfl) u hu).username
  rw [(Prod.mk.inj he).1] at hname
  exact absurd hname (by decide)

end Identities

end

end KubeCenter.Auth
