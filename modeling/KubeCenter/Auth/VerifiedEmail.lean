import KubeCenter.Auth.OidcFlow

/-! Which claim of a token a user's name comes from, and whether the provider has verified it. -/

namespace KubeCenter.Auth

open KubeCenter.Core

inductive Claim
  | email
  | preferredUsername
  | name
  | subject
  deriving DecidableEq

def Claim.value (claims : OIDCClaims) (subject : String) : Claim → String
  | .email => claims.email
  | .preferredUsername => claims.preferredUsername
  | .name => claims.name
  | .subject => subject

/-- What `UsernameClaim` asks for; the default branch is the email. -/
def configuredClaim (config : OIDCConfig) : Claim :=
  if config.usernameClaim = "preferred_username" then .preferredUsername
  else if config.usernameClaim = "name" then .name
  else if config.usernameClaim = "sub" then .subject
  else .email

/-- The claim that the Kubernetes username is taken from. -/
def usernameSource (config : OIDCConfig) (claims : OIDCClaims) (subject : String) : Claim :=
  ([configuredClaim config, .email, .preferredUsername].find? (fun c ↦ c.value claims subject ≠ "")).getD .subject

/-- A user who is named by the email, or let in for its domain, has a verified one. -/
def EmailVouched (config : OIDCConfig) (idToken : IDToken) (result : Except String User) : Prop :=
  ∀ user claims, result = .ok user → idToken.claims = some claims →
    usernameSource config claims idToken.subject = .email ∨ config.allowedDomains ≠ [] → claims.emailVerified = true

/-- The token is turned down for its nonce, its claims or its domain, or its email is verified or empty, or
`UsernameClaim` is the email, or nothing rests on the email: there are no allowed domains, and the claim that
`UsernameClaim` asks for is another one and not empty. -/
def NotOnUnverified (toLower : Char → Char) (config : OIDCConfig) (idToken : IDToken) (nonce : String) : Prop :=
  ∀ claims, idToken.claims = some claims → idToken.nonce = nonce →
    isAllowedDomain toLower config claims.email = true →
      claims.emailVerified = true ∨ claims.email = "" ∨ config.usernameClaim = "email" ∨
        config.allowedDomains = [] ∧ configuredClaim config ≠ .email ∧
          (configuredClaim config).value claims idToken.subject ≠ ""

/-- Every parameter of the request is there. -/
def MobileExchange.Complete (req : MobileExchange) : Prop := req.code ≠ "" ∧ req.codeVerifier ≠ "" ∧ req.nonce ≠ ""

section

variable {toLower : Char → Char} {config : OIDCConfig} {idToken : IDToken} {claims : OIDCClaims} {nonce subject : String}
  {user : User}

@[simp] theorem value_email : Claim.email.value claims subject = claims.email := rfl

@[simp] theorem value_preferredUsername :
    Claim.preferredUsername.value claims subject = claims.preferredUsername := rfl

@[simp] theorem value_subject : Claim.subject.value claims subject = subject := rfl

theorem value_configuredClaim : (configuredClaim config).value claims subject = usernameClaimOf config claims subject := by
  unfold configuredClaim usernameClaimOf
  split
  · rfl
  · split
    · rfl
    · split <;> rfl

/-- The name is the value of its source. -/
theorem kubernetesUsername_mapClaimsToUser (groups : List String) :
    (mapClaimsToUser config claims groups subject).kubernetesUsername =
      (usernameSource config claims subject).value claims subject := by
  simp only [mapClaimsToUser, firstNonEmpty, usernameSource, ← value_configuredClaim, List.find?_cons, List.find?_nil]
  by_cases hconfigured : (configuredClaim config).value claims subject = ""
  · by_cases hemail : claims.email = ""
    · by_cases hpreferred : claims.preferredUsername = ""
      · simp [hconfigured, hemail, hpreferred]
      · simp [hconfigured, hemail, hpreferred]
    · simp [hconfigured, hemail]
  · simp [hconfigured]

theorem usernameSource_ne_email (hc : configuredClaim config ≠ .email)
    (hv : (configuredClaim config).value claims subject ≠ "") : usernameSource config claims subject ≠ .email := by
  simp [usernameSource, hv, hc]

theorem usernameSource_eq_email (hemail : claims.email ≠ "")
    (h : configuredClaim config = .email ∨ (configuredClaim config).value claims subject = "") :
    usernameSource config claims subject = .email := by
  obtain h | h := h
  · simp [usernameSource, h, hemail]
  · simp [usernameSource, h, hemail]

theorem email_ne_nil_of_source (h : usernameSource config claims subject = .email) : claims.email ≠ "" := by
  intro hemail
  unfold usernameSource at h
  cases hfind : [configuredClaim config, .email, .preferredUsername].find? (fun c ↦ c.value claims subject ≠ "") with
  | none =>
    rw [hfind] at h
    cases h
  | some c =>
    rw [hfind, Option.getD_some] at h
    have hvalue := List.find?_some hfind
    simp [h, hemail] at hvalue

theorem userOfToken_eq_ok : userOfToken toLower config idToken nonce = .ok user ↔
    idToken.nonce = nonce ∧ ∃ claims, idToken.claims = some claims ∧
      ¬ (config.usernameClaim = "email" ∧ claims.email ≠ "" ∧ claims.emailVerified = false) ∧
      isAllowedDomain toLower config claims.email = true ∧
      user = mapClaimsToUser config claims (extractGroups config idToken) idToken.subject := by
  have hdomain : ∀ email, ¬ (config.allowedDomains ≠ [] ∧ isAllowedDomain toLower config email = false) ↔
      isAllowedDomain toLower config email = true := by
    intro email
    rw [not_and, Bool.not_eq_false]
    refine ⟨fun h ↦ ?_, fun h _ ↦ h⟩
    by_cases hnone : config.allowedDomains = []
    · simp [isAllowedDomain, hnone]
    · exact h hnone
  unfold userOfToken
  by_cases hnonce : idToken.nonce = nonce
  · rw [if_neg (not_not.mpr hnonce)]
    cases hclaims : idToken.claims with
    | none => simp
    | some claims =>
      simp only [hnonce, true_and, Option.some.injEq, exists_eq_left', ← hdomain]
      split
      · next hemail => simp [hemail]
      · next hemail =>
        split
        · next hd => simp [hd]
        · next hd =>
          rw [Except.ok.injEq, eq_comm]
          exact ⟨fun h ↦ ⟨hemail, hd, h⟩, fun h ↦ h.2.2⟩
  · rw [if_pos hnonce]
    simp [hnonce]

/-- No domain is allowed for an email that is empty. -/
theorem isAllowedDomain_empty (hd : config.allowedDomains ≠ []) : isAllowedDomain toLower config "" = false := by
  simp [isAllowedDomain, hd, splitN, cut]

theorem emailVouched_iff : EmailVouched config idToken (userOfToken toLower config idToken nonce) ↔
    NotOnUnverified toLower config idToken nonce := by
  constructor
  · intro h claims hclaims hnonce hdomain
    by_contra hn
    obtain ⟨hverified, hn⟩ := not_or.mp hn
    obtain ⟨hemail, hn⟩ := not_or.mp hn
    obtain ⟨hclaim, hn⟩ := not_or.mp hn
    have hok := userOfToken_eq_ok.mpr ⟨hnonce, claims, hclaims, fun he ↦ hclaim he.1, hdomain, rfl⟩
    refine hverified (h _ claims hok hclaims ?_)
    by_cases hdomains : config.allowedDomains = []
    · refine .inl (usernameSource_eq_email hemail ?_)
      by_contra hother
      rw [not_or] at hother
      exact hn ⟨hdomains, hother⟩
    · exact .inr hdomains
  · intro h user claims hok hclaims hrests
    obtain ⟨hnonce, claims', hclaims', hcheck, hdomain, -⟩ := userOfToken_eq_ok.mp hok
    obtain rfl := Option.some.inj (hclaims.symm.trans hclaims')
    have hemail : claims.email ≠ "" := by
      intro hempty
      obtain hsource | hdomains := hrests
      · exact email_ne_nil_of_source hsource hempty
      · rw [hempty, isAllowedDomain_empty hdomains] at hdomain
        cases hdomain
    obtain hverified | hempty | hclaim | ⟨hnone, hother, hvalue⟩ := h claims hclaims hnonce hdomain
    · exact hverified
    · exact absurd hempty hemail
    · by_contra hunverified
      exact hcheck ⟨hclaim, hemail, Bool.eq_false_iff.mpr hunverified⟩
    · obtain hsource | hdomains := hrests
      · exact absurd hsource (usernameSource_ne_email hother hvalue)
      · exact absurd hnone hdomains

theorem exchangeMobile_complete {req : MobileExchange} (h : req.Complete) (exchanged : Except String IDToken) :
    exchangeMobile toLower config exchanged req = handleCallback toLower config exchanged req.nonce := by
  rw [exchangeMobile, if_neg h.1, if_neg h.2.1, if_neg h.2.2, handleCallback]

theorem exchangeMobile_incomplete {req : MobileExchange} (h : ¬ req.Complete) (exchanged : Except String IDToken) :
    ∃ err, exchangeMobile toLower config exchanged req = .error err := by
  unfold exchangeMobile
  split
  · exact ⟨_, rfl⟩
  · next hcode =>
    split
    · exact ⟨_, rfl⟩
    · next hverifier =>
      split
      · exact ⟨_, rfl⟩
      · next hnonce => exact absurd ⟨hcode, hverifier, hnonce⟩ h

theorem exchangeMobile_vouched_iff (req : MobileExchange) :
    EmailVouched config idToken (exchangeMobile toLower config (.ok idToken) req) ↔
      (req.Complete → NotOnUnverified toLower config idToken req.nonce) := by
  by_cases h : req.Complete
  · rw [exchangeMobile_complete h, imp_iff_right h]
    exact emailVouched_iff
  · have hincomplete : ∃ err, exchangeMobile toLower config (.ok idToken) req = .error err :=
      exchangeMobile_incomplete h (.ok idToken)
    obtain ⟨err, herr⟩ := hincomplete
    rw [herr]
    exact iff_of_true (fun _ _ hok ↦ by cases hok) (fun hc ↦ absurd hc h)

end

/-- On both ways in, the email that a user rests on is verified exactly where no unverified one is rested on; both do the
same with a token, and the name of the user is the value of the claim it is said to come from. -/
theorem email_vouched_iff (toLower : Char → Char) (config : OIDCConfig) (idToken : IDToken) :
    (∀ nonce, EmailVouched config idToken (handleCallback toLower config (.ok idToken) nonce) ↔
      NotOnUnverified toLower config idToken nonce) ∧
    (∀ req : MobileExchange, EmailVouched config idToken (exchangeMobile toLower config (.ok idToken) req) ↔
      (req.Complete → NotOnUnverified toLower config idToken req.nonce)) ∧
    (∀ (req : MobileExchange) exchanged, req.Complete →
      exchangeMobile toLower config exchanged req = handleCallback toLower config exchanged req.nonce) ∧
    ∀ claims groups subject, (mapClaimsToUser config claims groups subject).kubernetesUsername =
      (usernameSource config claims subject).value claims subject :=
  ⟨fun _ ↦ emailVouched_iff, exchangeMobile_vouched_iff, fun _ exchanged h ↦ exchangeMobile_complete h exchanged,
    fun _ groups _ ↦ kubernetesUsername_mapClaimsToUser groups⟩

/-- A provider that names its users by `preferred_username`, for any domain. -/
def corp : OIDCConfig := OIDCConfig.withDefaults { id := "corp", usernameClaim := "preferred_username" }

/-- No preferred username, and somebody else's email. -/
def spoofed : IDToken where
  nonce := "n1"
  subject := "7"
  claims := some { email := "admin@corp.example" }
  rawClaims := none

theorem not_emailVouched : ¬ EmailVouched corp spoofed (handleCallback Char.toLower corp (.ok spoofed) "n1") := by
  intro h
  exact absurd (h _ _ rfl rfl (.inl (by decide))) (by decide)

end KubeCenter.Auth
