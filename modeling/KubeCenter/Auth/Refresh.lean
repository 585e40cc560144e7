import KubeCenter.Core.GoString
import KubeCenter.Auth.Session

namespace KubeCenter.Auth

open KubeCenter.Core

structure LDAPEntry where
  dn : String
  attr : String → String

/-- The settings `mapToUser` reads, after the defaults of `NewLDAPProvider`. -/
structure LDAPConfig where
  id : String
  usernameMapAttr : String := "uid"
  groupsPrefix : String := ""

def firstNonEmpty : List String → String → String
  | [], fallback => fallback
  | v :: vs, fallback => if v = "" then firstNonEmpty vs fallback else v

def mapToUser (config : LDAPConfig) (entry : LDAPEntry) (groups : List String) : User :=
  let k8sUsername := firstNonEmpty ([config.usernameMapAttr, "uid", "sAMAccountName", "mail"].map entry.attr) entry.dn
  { id := "ldap:" ++ config.id ++ ":" ++ entry.dn
    username := firstNonEmpty [entry.attr "cn"] k8sUsername
    provider := "ldap"
    kubernetesUsername := k8sUsername
    kubernetesGroups := "k8scenter:users" :: groups.map (fun g ↦ config.groupsPrefix ++ g)
    roles := ["user"] }

/-- What the directory gives `Revalidate`: the user's entry and groups, a failure it wraps
in `ErrLDAPTransient`, or a definitive rejection. -/
inductive Revalidation
  | found (entry : LDAPEntry) (groups : List String)
  | transient
  | rejected

inductive CredentialProvider
  | ldap (config : LDAPConfig) (revalidate : String → Revalidation)
  | other

structure AuthRegistry where
  getCredential : String → Option CredentialProvider
  getUserByID : String → String → Option User

def ldapGracePeriod : ℕ := 5 * minute

/-- `jwt.NewNumericDate`, which truncates to seconds. -/
def numericDate (t : ℕ) : ℕ := t - t % second

/-- An access token with the clock reading its dates are computed from. -/
structure AccessToken where
  user : User
  mintedAt : ℕ
  issuedAt : ℕ
  expiresAt : ℕ
  deriving DecidableEq

def issueAccessToken (user : User) (now : ℕ) : AccessToken :=
  { user
    mintedAt := now
    issuedAt := numericDate now
    expiresAt := numericDate (now + accessTokenLifetime) }

def newSession (user : User) (refreshToken : String) (lastRevalidated now : ℕ) : RefreshSession :=
  { token := refreshToken
    userID := user.id
    provider := user.provider
    expiresAt := now + refreshLifetimeFor user.provider
    cachedUser := if user.provider ≠ "local" then some user else none
    lastRevalidated }

/-- A JSON answer; a body-mode success carries the refresh token and its lifetime. -/
inductive Response
  | error (code : ℕ) (message : String)
  | tokens (access : AccessToken) (expiresIn : ℕ) (refreshToken : Option String)
      (refreshExpiresIn : Option ℕ)
  deriving DecidableEq

def Response.access : Response → Option AccessToken
  | .tokens access _ _ _ => some access
  | .error _ _ => none

/-- What the user lookup of `handleRefresh` comes to: an answer, after a `Restore` or not, or
the user to issue for with the high-water mark of the successor and the audit detail. -/
inductive Resolution
  | fail (restore : Bool) (code : ℕ) (message detail : String)
  | user (user : User) (lastRevalidated : ℕ) (auditDetail : String)

/-- The provider id and the DN of a session's user id `ldap:<providerID>:<DN>`. -/
def ldapIdentity (userID : String) : Option (String × String) :=
  match splitN ':' 3 userID.toList with
  | [kind, providerID, userDN] =>
    if kind ≠ "ldap".toList ∨ providerID = [] ∨ userDN = [] then none
    else some (String.ofList providerID, String.ofList userDN)
  | _ => none

def resolveAnswer (config : LDAPConfig) (id : String) (session : RefreshSession) (now : ℕ) :
    Revalidation → Resolution
  | .found entry groups => .user (mapToUser config entry groups) now ""
  | .transient =>
    match session.cachedUser with
    | none => .fail true 401 "ldap unavailable, please retry"
        ("LDAP " ++ id ++ ": LDAP unavailable outside grace window")
    | some cached =>
      if session.lastRevalidated = 0 ∨ ldapGracePeriod < now - session.lastRevalidated then
        .fail true 401 "ldap unavailable, please retry"
          ("LDAP " ++ id ++ ": LDAP unavailable outside grace window")
      else
        .user cached session.lastRevalidated "LDAP revalidation transient — grace-window fallback"
  | .rejected => .fail false 401 "user no longer authorised"
      ("LDAP " ++ id ++ ": user no longer authorised")

def revalidateLDAPSession (reg : AuthRegistry) (session : RefreshSession) (now : ℕ) : Resolution :=
  match ldapIdentity session.userID with
  | none => .fail false 401 "session invalid" "LDAP refresh: malformed session"
  | some (id, userDN) =>
    match reg.getCredential id with
    | none => .fail false 401 "auth provider unavailable" ("LDAP " ++ id ++ ": provider not registered")
    | some .other => .fail false 401 "session invalid" ("LDAP " ++ id ++ ": provider type mismatch")
    | some (.ldap config revalidate) => resolveAnswer config id session now (revalidate userDN)

def resolveUser (reg : AuthRegistry) (session : RefreshSession) (now : ℕ) : Resolution :=
  if session.provider = "ldap" then revalidateLDAPSession reg session now
  else match session.cachedUser with
    | some user => .user user now ""
    | none =>
      match reg.getUserByID session.provider session.userID with
      | some user => .user user now ""
      | none => .fail false 401 "user not found" ("user no longer present for provider " ++ session.provider)

/-- A refresh request: the `refresh_token` cookie and the body's `refreshToken`
(`none` when the body does not decode). -/
structure RefreshRequest where
  cookie : Option String
  body : Option String

structure Presented where
  token : String
  bodyMode : Bool

def RefreshRequest.presented (r : RefreshRequest) : Option Presented :=
  match r.cookie with
  | some token => some { token, bodyMode := false }
  | none =>
    match r.body with
    | none => none
    | some token => if token = "" then none else some { token, bodyMode := true }

/-- What `issueTokenPairAt` reads: its clock at the signing and at the storing, whether the access
token could be signed, and the refresh token drawn. -/
structure Minting where
  signedAt : ℕ
  signed : Bool
  storedAt : ℕ
  refreshToken : Option String

def issueTokenPairAt (s : SessionStore) (user : User) (lastRevalidated : ℕ) (m : Minting) :
    Option (AccessToken × String × SessionStore) :=
  if m.signed then
    m.refreshToken.map (fun t ↦
      (issueAccessToken user m.signedAt, t, s.store (newSession user t lastRevalidated m.storedAt)))
  else none

def refreshAnswer (access : AccessToken) (refreshToken : String) (bodyMode : Bool) : Response :=
  let expiresIn := accessTokenLifetime / second
  if bodyMode then
    .tokens access expiresIn (some refreshToken) (some (refreshLifetimeFor access.user.provider / second))
  else .tokens access expiresIn none none

@[simp] theorem refreshAnswer_access (access : AccessToken) (t : String) (bodyMode : Bool) :
    (refreshAnswer access t bodyMode).access = some access := by
  cases bodyMode <;> rfl

/-- A refresh with everything it reads: the request, the clock at `Rotate` and at the user
lookup, the registry, and the minting. -/
structure Refresh where
  request : RefreshRequest
  rotatedAt : ℕ
  resolvedAt : ℕ
  reg : AuthRegistry
  minting : Minting

def handleRefresh (s : SessionStore) (r : Refresh) : Response × SessionStore :=
  match r.request.presented with
  | none => (.error 401 "missing refresh token", s)
  | some p =>
    match s.rotate p.token r.rotatedAt with
    | (.error _, s') => (.error 401 "invalid or expired refresh token", s')
    | (.ok session, s') =>
      match resolveUser r.reg session r.resolvedAt with
      | .fail restore code message _ => (.error code message, if restore then s'.restore session else s')
      | .user user lastRevalidated _ =>
        match issueTokenPairAt s' user lastRevalidated r.minting with
        | none => (.error 500 "failed to issue token", s'.restore session)
        | some (access, refreshToken, s'') => (refreshAnswer access refreshToken p.bodyMode, s'')

end KubeCenter.Auth
