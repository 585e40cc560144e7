import KubeCenter.Auth.LocalUsers
import KubeCenter.Auth.Refresh
import KubeCenter.Core.GoJson
import KubeCenter.Core.GoMap
import KubeCenter.Core.Runs

/-! The identity providers, each mapping what it is told to a `User`. -/

namespace KubeCenter.Auth

open KubeCenter.Core

structure OIDCConfig where
  id : String
  usernameClaim : String := ""
  groupsClaim : String := ""
  groupsPrefix : String := ""
  allowedDomains : List String := []

/-- The defaults of `NewOIDCProvider`. -/
def OIDCConfig.withDefaults (config : OIDCConfig) : OIDCConfig :=
  { config with
    usernameClaim := if config.usernameClaim = "" then "email" else config.usernameClaim
    groupsClaim := if config.groupsClaim = "" then "groups" else config.groupsClaim }

structure OIDCClaims where
  email : String := ""
  emailVerified : Bool := false
  name : String := ""
  preferredUsername : String := ""

/-- A verified ID token: `Claims` decodes it to the claims the code names and to a map, or fails. -/
structure IDToken where
  nonce : String
  subject : String
  claims : Option OIDCClaims
  rawClaims : Option (GoMap String Json)

def stringGroup : Json → Option String
  | .string s => if s = "" then none else some s
  | _ => none

def extractGroups (config : OIDCConfig) (idToken : IDToken) : List String :=
  match idToken.rawClaims.bind (fun claims ↦ claims.lookup config.groupsClaim) with
  | some (.string s) => if s = "" then [] else [s]
  | some (.array items) => items.filterMap stringGroup
  | _ => []

/-- The claim that `UsernameClaim` names, the email where it names none of the four. -/
def usernameClaimOf (config : OIDCConfig) (claims : OIDCClaims) (subject : String) : String :=
  if config.usernameClaim = "preferred_username" then claims.preferredUsername
  else if config.usernameClaim = "name" then claims.name
  else if config.usernameClaim = "sub" then subject
  else claims.email

def mapClaimsToUser (config : OIDCConfig) (claims : OIDCClaims) (groups : List String) (subject : String) : User :=
  { id := "oidc:" ++ config.id ++ ":" ++ subject
    username := firstNonEmpty [claims.preferredUsername, claims.email] subject
    provider := "oidc"
    kubernetesUsername :=
      firstNonEmpty [usernameClaimOf config claims subject, claims.email, claims.preferredUsername] subject
    kubernetesGroups := "k8scenter:users" :: groups.map (fun g ↦ config.groupsPrefix ++ g)
    roles := ["user"] }

/-- `toLower` is `unicode.ToLower`. -/
def isAllowedDomain (toLower : Char → Char) (config : OIDCConfig) (email : String) : Bool :=
  config.allowedDomains = [] ||
    match splitN '@' 2 email.toList with
    | [_, domain] => config.allowedDomains.any (fun allowed ↦ allowed.toList.map toLower = domain.map toLower)
    | _ => false

/-- What the two ways in do with a verified token: `HandleCallback` expects the nonce of its flow,
`ExchangeMobile` the one the client sent. -/
def userOfToken (toLower : Char → Char) (config : OIDCConfig) (idToken : IDToken) (expectedNonce : String) :
    Except String User :=
  if idToken.nonce ≠ expectedNonce then .error "oidc id token nonce mismatch"
  else match idToken.claims with
    | none => .error "extracting claims"
    | some claims =>
      if config.usernameClaim = "email" ∧ claims.email ≠ "" ∧ claims.emailVerified = false then
        .error "email address not verified by identity provider"
      else if config.allowedDomains ≠ [] ∧ isAllowedDomain toLower config claims.email = false then
        .error "email domain not allowed"
      else .ok (mapClaimsToUser config claims (extractGroups config idToken) idToken.subject)

/-- `exchanged` is what the code exchange and the verification of the token come to. -/
def handleCallback (toLower : Char → Char) (config : OIDCConfig) (exchanged : Except String IDToken)
    (nonce : String) : Except String User :=
  exchanged.bind (fun idToken ↦ userOfToken toLower config idToken nonce)

structure MobileExchange where
  code : String
  codeVerifier : String
  nonce : String

def exchangeMobile (toLower : Char → Char) (config : OIDCConfig) (exchanged : Except String IDToken)
    (req : MobileExchange) : Except String User :=
  if req.code = "" then .error "code required"
  else if req.codeVerifier = "" then .error "codeVerifier required"
  else if req.nonce = "" then .error "nonce required"
  else exchanged.bind (fun idToken ↦ userOfToken toLower config idToken req.nonce)

/-- An entry of the directory: the values of an attribute, none where it is absent. -/
structure DirectoryEntry where
  dn : String
  attributes : String → List String

def DirectoryEntry.getAttributeValue (entry : DirectoryEntry) (attr : String) : String :=
  (entry.attributes attr).head?.getD ""

/-- The entry as `mapToUser` reads it. -/
def DirectoryEntry.mapped (entry : DirectoryEntry) : LDAPEntry := ⟨entry.dn, entry.getAttributeValue⟩

/-- No letter outside ASCII has one of `CN=` as its upper case. -/
def extractCNFromDN (dn : String) : String :=
  let first := dn.toList.takeWhile (· ≠ ',')
  if (first.take 3).map Char.toUpper = ['C', 'N', '='] then String.ofList (first.drop 3) else ""

structure LDAPProviderConfig where
  identity : LDAPConfig
  groupBaseDN : String := ""
  groupFilter : String := ""
  groupNameAttr : String := "cn"

/-- `search` is what the group search returns, `none` for an error. -/
def getGroups (config : LDAPProviderConfig) (userEntry : DirectoryEntry) (search : Option (List DirectoryEntry)) :
    List String :=
  let memberOf := ((userEntry.attributes "memberOf").map extractCNFromDN).filter (· ≠ "")
  if memberOf ≠ [] then memberOf
  else if config.groupBaseDN = "" ∨ config.groupFilter = "" then []
  else match search with
    | none => []
    | some entries => (entries.map (fun e ↦ e.getAttributeValue config.groupNameAttr)).filter (· ≠ "")

/-- What the directory answers during a login or a revalidation. -/
structure LDAPConversation where
  connected : Bool
  serviceBound : Bool
  entries : Option (List DirectoryEntry)
  userBound : Bool := true
  rebound : Bool := true
  groupSearch : Option (List DirectoryEntry) := none

/-- `^[a-zA-Z0-9._@-]+$`. -/
def usernameAllowlist (s : String) : Bool :=
  s ≠ "" && s.toList.all (fun c ↦ c.isAlphanum || c ∈ ['.', '_', '@', '-'])

/-- How a login and a revalidation end: an answer that is not one entry is refused. -/
def foundUser (config : LDAPProviderConfig) (c : LDAPConversation) : Option User :=
  match c.entries with
  | some [entry] => some (mapToUser config.identity entry.mapped (getGroups config entry c.groupSearch))
  | _ => none

/-- `Authenticate` of the LDAP provider; every failure is `ErrInvalidCredentials`. -/
def ldapAuthenticate (config : LDAPProviderConfig) (username : String) (c : LDAPConversation) : Option User :=
  if usernameAllowlist username ∧ c.connected ∧ c.serviceBound ∧ c.userBound ∧ c.rebound then foundUser config c
  else none

def ldapRevalidate (config : LDAPProviderConfig) (userDN : String) (c : LDAPConversation) : Option User :=
  if userDN ≠ "" ∧ c.connected ∧ c.serviceBound then foundUser config c else none

/-- `Authenticate` of the local provider; `verify` tells whether the password has the stored hash. -/
def localAuthenticate (users : LocalUsers) (username : String) (verify : String → Bool) : Option User :=
  (users.getByUsername username).bind (fun stored ↦
    if verify stored.passwordPHC then some stored.toUser else none)

/-- Everything that makes a `User` or changes the local ones. -/
inductive Attempt
  | setupInit (gate : SetupGate) (body : RequestBody SetupRequest) (drawn : Option Drawn)
  | createUser (body : RequestBody CreateUserRequest) (drawn : Option Drawn)
  | deleteUser (id : String)
  | localLogin (username : String) (verify : String → Bool)
  | oidcCallback (config : OIDCConfig) (exchanged : Except String IDToken) (nonce : String)
  | oidcMobile (config : OIDCConfig) (exchanged : Except String IDToken) (req : MobileExchange)
  | ldapLogin (config : LDAPProviderConfig) (username : String) (conversation : LDAPConversation)
  | ldapRevalidate (config : LDAPProviderConfig) (userDN : String) (conversation : LDAPConversation)

/-- The local accounts, and the users issued so far. -/
structure Identities where
  users : LocalUsers := []
  issued : List User := []

namespace Identities

def issue (s : Identities) (user : Option User) : Identities := { s with issued := user.toList ++ s.issued }

def created (s : Identities) : Except APIError (User × LocalUsers) → Identities
  | .error _ => s
  | .ok (user, users) => { users, issued := user :: s.issued }

variable (toLower : Char → Char)

def attempt (s : Identities) : Attempt → Identities
  | .setupInit gate body drawn => s.created (handleSetupInit s.users gate body drawn)
  | .createUser body drawn => s.created (handleCreateUser s.users body drawn)
  | .deleteUser id => { s with users := (s.users.delete id).getD s.users }
  | .localLogin username verify => s.issue (localAuthenticate s.users username verify)
  | .oidcCallback config exchanged nonce =>
    s.issue (handleCallback toLower config.withDefaults exchanged nonce).toOption
  | .oidcMobile config exchanged req =>
    s.issue (exchangeMobile toLower config.withDefaults exchanged req).toOption
  | .ldapLogin config username c => s.issue (ldapAuthenticate config username c)
  | .ldapRevalidate config userDN c => s.issue (Auth.ldapRevalidate config userDN c)

def step (s : Identities) (a : Attempt) : Option Identities := some (s.attempt toLower a)

end Identities

end KubeCenter.Auth
