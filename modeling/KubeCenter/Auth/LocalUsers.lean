import KubeCenter.Auth.Session
import KubeCenter.Core.GoString
import KubeCenter.Core.Http

/-! Local accounts: their table, and the requests that set up, create and delete them. -/

namespace KubeCenter.Auth

open KubeCenter.Core

structure UserRecord where
  id : String
  username : String
  passwordPHC : String
  k8sUsername : String
  k8sGroups : List String
  roles : List String
  deriving DecidableEq

def UserRecord.toUser (r : UserRecord) : User :=
  { id := r.id
    username := r.username
    provider := "local"
    kubernetesUsername := r.k8sUsername
    kubernetesGroups := r.k8sGroups
    roles := r.roles }

def UserRecord.isAdmin (r : UserRecord) : Bool := "admin" ∈ r.roles

/-- The table `local_users`, whose ids and names are unique. -/
abbrev LocalUsers := List UserRecord

namespace LocalUsers

/-- `Create`; `none` stands for `ErrDuplicateUser`. -/
def create (users : LocalUsers) (u : UserRecord) : Option LocalUsers :=
  if users.any (fun v ↦ v.id = u.id || v.username = u.username) then none else some (users ++ [u])

def getByUsername (users : LocalUsers) (username : String) : Option UserRecord :=
  users.find? (fun u ↦ u.username = username)

/-- `Delete`; `none` stands for `ErrUserNotFound`. -/
def delete (users : LocalUsers) (id : String) : Option LocalUsers :=
  if users.any (fun u ↦ u.id = id) then some (users.filter (fun u ↦ u.id ≠ id)) else none

/-- The guard of `handleDeleteUser` refuses: the target is the one administrator listed. -/
def lastAdmin (users : LocalUsers) (id : String) : Bool :=
  users.any (fun u ↦ u.isAdmin && u.id = id) && users.countP UserRecord.isAdmin ≤ 1

end LocalUsers

def maxAuthBodySize : ℕ := 65536
def maxPasswordLen : ℕ := 128
def maxUsernameLen : ℕ := 253

/-- `^[a-zA-Z0-9][a-zA-Z0-9_.@-]*$`. -/
def validUsername (s : String) : Bool :=
  match s.toList with
  | [] => false
  | c :: cs => c.isAlphanum && cs.all (fun c ↦ c.isAlphanum || c ∈ ['_', '.', '@', '-'])

/-- What `hashAndBuild` draws: the id, and the salted hash of the password. -/
structure Drawn where
  id : String
  passwordPHC : String

def hashAndBuild (username : String) (roles : List String) (drawn : Drawn) : UserRecord :=
  { id := drawn.id
    username
    passwordPHC := drawn.passwordPHC
    k8sUsername := username
    k8sGroups := ["k8scenter:users"]
    roles }

structure CreateUserOpts where
  k8sUsername : String
  k8sGroups : List String

/-- The record `CreateUser` stores. -/
def CreateUserOpts.apply (opts : CreateUserOpts) (record : UserRecord) : UserRecord :=
  { record with
    k8sUsername := if opts.k8sUsername ≠ "" then opts.k8sUsername else record.k8sUsername
    k8sGroups := if opts.k8sGroups ≠ [] then opts.k8sGroups else record.k8sGroups }

structure CreateUserRequest where
  username : String
  password : String
  k8sUsername : String := ""
  k8sGroups : List String := []
  roles : List String := []

def reservedGroup (g : String) : Bool := hasPrefix "system:" g && g ≠ "system:authenticated"

def vetGroup (g : String) : Except APIError Unit :=
  if maxUsernameLen < g.utf8ByteSize then .error ⟨400, "group name too long (max 253 characters)"⟩
  else if reservedGroup g then
    .error ⟨400, "group '" ++ g ++ "' cannot be assigned ('system:' prefix is reserved by Kubernetes)"⟩
  else .ok ()

def vetRole (role : String) : Except APIError Unit :=
  if role ∉ ["admin", "viewer"] then
    .error ⟨400, "invalid role: " ++ role ++ " (allowed: admin, viewer)"⟩
  else .ok ()

/-- The checks of `handleCreateUser`, and the identity it asks `CreateUser` for. -/
def vetCreateUser (req : CreateUserRequest) : Except APIError CreateUserOpts :=
  let k8sUser := if req.k8sUsername = "" then req.username else req.k8sUsername
  let k8sGroups := if req.k8sGroups = [] then ["system:authenticated"] else req.k8sGroups
  if req.username = "" ∨ maxUsernameLen < req.username.utf8ByteSize ∨ ¬ validUsername req.username then
    .error ⟨400, "invalid username format"⟩
  else if req.password.utf8ByteSize < 8 ∨ maxPasswordLen < req.password.utf8ByteSize then
    .error ⟨400, "password must be 8-128 characters"⟩
  else if hasPrefix "system:" k8sUser then
    .error ⟨400, "k8sUsername cannot start with 'system:' (reserved by Kubernetes)"⟩
  else if k8sUser = "" ∨ maxUsernameLen < k8sUser.utf8ByteSize then
    .error ⟨400, "k8sUsername must be 1-253 characters"⟩
  else if 20 < k8sGroups.length then .error ⟨400, "too many groups (max 20)"⟩
  else (k8sGroups.forM vetGroup).bind (fun _ ↦
    if 10 < req.roles.length then .error ⟨400, "too many roles (max 10)"⟩
    else (req.roles.forM vetRole).bind (fun _ ↦ .ok ⟨k8sUser, k8sGroups⟩))

structure SetupRequest where
  username : String
  password : String
  setupToken : String := ""

/-- What the setup gate reads besides the request: the configured token, `Config.Dev`, whether
the socket peer is a loopback address, and whether the account throttle lets the request through. -/
structure SetupGate where
  setupToken : String := ""
  dev : Bool := false
  isLoopback : Bool := false
  throttled : Bool := false

def vetSetup (gate : SetupGate) (req : SetupRequest) : Except APIError Unit :=
  if req.username = "" ∨ req.password = "" then .error ⟨400, "username and password are required"⟩
  else if maxUsernameLen < req.username.utf8ByteSize ∨ ¬ validUsername req.username then
    .error ⟨400, "invalid username format"⟩
  else if req.password.utf8ByteSize < 8 ∨ maxPasswordLen < req.password.utf8ByteSize then
    .error ⟨400, "password must be 8-128 characters"⟩
  else if gate.throttled then .error ⟨429, "too many attempts"⟩
  else if gate.setupToken = "" then
    if ¬ gate.isLoopback ∨ ¬ gate.dev then
      .error ⟨403, "setup token required; configure KUBECENTER_AUTH_SETUPTOKEN before remote setup"⟩
    else .ok ()
  else if req.setupToken ≠ gate.setupToken then .error ⟨403, "invalid setup token"⟩
  else .ok ()

/-- `handleCreateUser` and `CreateUser` up to the INSERT; `drawn` is `none` where hashing fails. -/
def createUserRecord (body : RequestBody CreateUserRequest) (drawn : Option Drawn) : Except APIError UserRecord :=
  match body.decode maxAuthBodySize with
  | none => .error ⟨400, "invalid request body"⟩
  | some req =>
    (vetCreateUser req).bind (fun opts ↦
      match drawn with
      | none => .error ⟨500, "failed to create user"⟩
      | some d => .ok (opts.apply (hashAndBuild req.username req.roles d)))

/-- `handleSetupInit` and `CreateFirstUser` up to the transaction. -/
def setupRecord (gate : SetupGate) (body : RequestBody SetupRequest) (drawn : Option Drawn) :
    Except APIError UserRecord :=
  match body.decode maxAuthBodySize with
  | none => .error ⟨400, "invalid request body"⟩
  | some req =>
    (vetSetup gate req).bind (fun _ ↦
      match drawn with
      | none => .error ⟨500, "failed to create admin user"⟩
      | some d => .ok (hashAndBuild req.username ["admin"] d))

def handleCreateUser (users : LocalUsers) (body : RequestBody CreateUserRequest) (drawn : Option Drawn) :
    Except APIError (User × LocalUsers) :=
  (createUserRecord body drawn).bind (fun record ↦
    match users.create record with
    | none => .error ⟨409, "username already exists"⟩
    | some users' => .ok (record.toUser, users'))

/-- The transaction holds its lock from the count to the commit. -/
def handleSetupInit (users : LocalUsers) (gate : SetupGate) (body : RequestBody SetupRequest)
    (drawn : Option Drawn) : Except APIError (User × LocalUsers) :=
  (setupRecord gate body drawn).bind (fun record ↦
    if users ≠ [] then .error ⟨410, "setup already completed"⟩ else .ok (record.toUser, [record]))

end KubeCenter.Auth
