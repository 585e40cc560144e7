import KubeCenter.Core.Singleflight
import KubeCenter.Velero.Handler

/-! Deleting backups and creating restores while Velero runs the restores: each step is one access to what the
handlers and the cluster share. -/

namespace KubeCenter.Velero

open KubeCenter.Core Function
open KubeCenter.Auth (User)
open KubeCenter.Policy (getName getNamespace)

/-- What a handler answers in place of success. -/
structure Refusal where
  err : APIError
  detail : String := ""
  deriving DecidableEq

/-- A handler's surroundings: rights, whether a client that impersonates the user can be made, and the time in the layout
`20060102150405`. -/
structure Server where
  lib : TimeLib
  canAccess : User → String → String → String → Bool
  clientFor : User → Bool
  stamp : ℕ → String

def validateDNSLabel (s : String) : Bool :=
  let alnum (c : Char) : Bool := ('a' ≤ c && c ≤ 'z') || ('0' ≤ c && c ≤ '9')
  0 < s.utf8ByteSize && s.utf8ByteSize ≤ 63 && s.toList.all (fun c ↦ alnum c || c = '-') &&
    s.toList.head?.any alnum && s.toList.getLast?.any alnum

section CreateRestore

/-- The body of a create request; a field that is absent is empty. -/
structure RestoreInput where
  name : String
  ns : String := ""
  backupName : String := ""
  scheduleName : String := ""
  includedNamespaces : List String := []
  excludedNamespaces : List String := []
  namespaceMapping : List (String × String) := []
  existingResourcePolicy : String := ""
  restorePVs : Option Bool := none

def RestoreInput.withNamespace (input : RestoreInput) : RestoreInput :=
  if input.ns = "" then { input with ns := "velero" } else input

def validateRestore (input : RestoreInput) : Except Refusal RestoreInput :=
  if ¬ validateDNSLabel input.name then
    .error { err := ⟨400, "name must be a valid DNS label (lowercase, 1-63 chars)"⟩ }
  else if input.backupName = "" ∧ input.scheduleName = "" then
    .error { err := ⟨400, "backupName or scheduleName is required"⟩ }
  else if ¬ validateDNSLabel input.withNamespace.ns then
    .error { err := ⟨400, "namespace must be a valid DNS label"⟩ }
  else if input.existingResourcePolicy ≠ "" ∧ input.existingResourcePolicy ∉ ["none", "update"] then
    .error { err := ⟨400, "existingResourcePolicy must be 'none' or 'update'"⟩ }
  else .ok input.withNamespace

/-- `backup` is what the API answers for the backup that the input names. -/
def checkBackup (lib : TimeLib) (input : RestoreInput) (backup : Option Json) : Except Refusal RestoreInput :=
  if input.backupName = "" then .ok input
  else
    match backup.map (parseBackup lib) with
    | none => .error ⟨⟨400, "backup not found"⟩, input.backupName⟩
    | some backup =>
      if backup.phase = "Completed" ∨ backup.phase = "PartiallyFailed" then .ok input
      else .error ⟨⟨400, "backup must be Completed or PartiallyFailed"⟩, backup.phase⟩

/-- `HandleCreateRestore` up to the create call; a body that does not decode comes with the decoder's error. -/
def admitRestore (srv : Server) (user : Option User) (body : Except String RestoreInput) (backup : Option Json) :
    Except Refusal RestoreInput :=
  match user, body with
  | none, _ => .error { err := ⟨401, "authentication required"⟩ }
  | some _, .error err => .error ⟨⟨400, "invalid request body"⟩, err⟩
  | some user, .ok input =>
    (validateRestore input).bind (fun input ↦
      if ¬ srv.canAccess user "create" "restores" input.ns then .error { err := ⟨403, "access denied"⟩ }
      else if ¬ srv.clientFor user then .error { err := ⟨500, "internal error"⟩ }
      else checkBackup srv.lib input backup)

def setIf (c : Prop) [Decidable c] (k : String) (j : Json) (fields : Fields) : Fields :=
  if c then fields.set k j else fields

def stringArray (l : List String) : Json := .array (l.map .string)

def restoreSpec (input : RestoreInput) : Fields :=
  let spec := setIf (input.backupName ≠ "") "backupName" (.string input.backupName) []
  let spec := setIf (input.scheduleName ≠ "") "scheduleName" (.string input.scheduleName) spec
  let spec := setIf (input.includedNamespaces ≠ []) "includedNamespaces" (stringArray input.includedNamespaces) spec
  let spec := setIf (input.excludedNamespaces ≠ []) "excludedNamespaces" (stringArray input.excludedNamespaces) spec
  let spec := setIf (input.namespaceMapping ≠ []) "namespaceMapping"
    (.object (input.namespaceMapping.foldl (fun fields m ↦ Fields.set m.1 (.string m.2) fields) [])) spec
  let spec := setIf (input.existingResourcePolicy ≠ "") "existingResourcePolicy"
    (.string input.existingResourcePolicy) spec
  setIf input.restorePVs.isSome "restorePVs" (.bool (input.restorePVs.getD false)) spec

def restoreObject (input : RestoreInput) : Json :=
  .object [
    ("apiVersion", .string "velero.io/v1"),
    ("kind", .string "Restore"),
    ("metadata", .object [("name", .string input.name), ("namespace", .string input.ns)]),
    ("spec", .object (restoreSpec input))]

end CreateRestore

section DeleteBackup

/-- `HandleDeleteBackup` up to the look at the restores. -/
def admitDelete (srv : Server) (user : Option User) (ns : String) : Except Refusal Unit :=
  match user with
  | none => .error { err := ⟨401, "authentication required"⟩ }
  | some user =>
    if ¬ srv.canAccess user "delete" "backups" ns then .error { err := ⟨403, "access denied"⟩ }
    else if ¬ srv.clientFor user then .error { err := ⟨500, "internal error"⟩ }
    else .ok ()

/-- The restore that keeps a backup from being deleted, if it is listed. -/
def dependentRestore (restores : List Restore) (ns name : String) : Option Restore :=
  restores.find? (fun restore ↦ restore.backupName = name && restore.ns = ns &&
    (restore.phase = "InProgress" || restore.phase = "New" || restore.phase = "WaitingForPluginOperations"))

/-- The guard: a list that could not be had is no objection. -/
def checkDependents (restores : Option (List Restore)) (ns name : String) : Except Refusal Unit :=
  match restores.bind (fun restores ↦ dependentRestore restores ns name) with
  | some restore => .error ⟨⟨409, "cannot delete backup with in-progress restore"⟩,
      "restore " ++ restore.ns ++ "/" ++ restore.name ++ " is using this backup"⟩
  | none => .ok ()

/-- A request that Velero is to delete a backup. `known` and `restores` are history: whether the guard had a list, and
the restores in the cluster when the request was created. -/
structure DeleteBackupRequest where
  name : String
  ns : String
  backupName : String
  known : Bool
  restores : List Json

end DeleteBackup

inductive ListKind
  | backups
  | restores
  | schedules
  | backupStorageLocations
  | volumeSnapshotLocations
  deriving DecidableEq

/-- The lists of a fetch that have come back so far; an answer is none where the call failed. -/
abbrev Replies := ListKind → Option (Option (List Json))

/-- `g.Wait`: it returns when every list has, one way or the other. -/
def Replies.lists (r : Replies) : Option Lists := do
  let backups ← r .backups
  let restores ← r .restores
  let schedules ← r .schedules
  let backupStorageLocations ← r .backupStorageLocations
  let volumeSnapshotLocations ← r .volumeSnapshotLocations
  return { backups, restores, schedules, backupStorageLocations, volumeSnapshotLocations }

/-- How far a fetch is that a call leads. The generation is the one its caller has read before. -/
inductive Stage
  | listing (gen : ℕ) (replies : Replies)
  | fetched (gen : ℕ) (data : Option CachedVeleroData)
  | stored (data : Option CachedVeleroData)
  | landed (data : Option CachedVeleroData)

/-- Where a call of `fetchAll` stands. -/
inductive Fetching
  | started
  | missed (gen : ℕ)
  | leading
  | waiting (flight : ℕ)
  | returned (data : Option CachedVeleroData)

/-- Who fetches: a list handler, or the guard of a deletion. -/
inductive Job
  | list
  | deleteBackup (ns name : String)

/-- Where a request stands. `known` tells whether the guard of a deletion that it has passed had a list. -/
inductive Call
  | idle
  | fetching (job : Job) (stage : Fetching)
  | cleared (ns name : String) (known : Bool)
  | admitted (input : RestoreInput)
  | changed
  | answered (refusal : Option Refusal)

structure Cluster where
  now : ℕ
  restores : List Json := []
  requests : List DeleteBackupRequest := []
  cachedData : Option CachedVeleroData := none
  cacheGen : ℕ := 0
  fetchGroup : Flights Unit Stage := {}
  calls : ℕ → Call := fun _ ↦ .idle

/-- `updateRestore` is Velero's: the restore at a place in the cluster goes on to another phase. -/
inductive Act
  | list (i : ℕ)
  | deleteBackup (i : ℕ) (user : Option User) (ns name : String)
  | createRestore (i : ℕ) (user : Option User) (body : Except String RestoreInput) (backup : Option Json)
  | check (i : ℕ)
  | enter (i : ℕ)
  | reply (i : ℕ) (kind : ListKind) (items : Option (List Json))
  | wait (i : ℕ)
  | storeBack (i : ℕ)
  | land (i : ℕ)
  | wake (i : ℕ)
  | decide (i : ℕ)
  | request (i : ℕ) (accepted : Bool)
  | create (i : ℕ) (accepted : Bool)
  | invalidate (i : ℕ)
  | invalidateCache
  | updateRestore (place : ℕ) (restore : Json)
  | advance (d : ℕ)

def terminalPhases : List String := ["Completed", "PartiallyFailed", "Failed", "FailedValidation"]

/-- The phases of a restore that Velero has not finished; at first it has none. -/
def openPhases : List String :=
  ["", "New", "InProgress", "WaitingForPluginOperations", "WaitingForPluginOperationsPartiallyFailed", "Finalizing",
    "FinalizingPartiallyFailed"]

def restorePhase (obj : Json) : String := obj.nestedString ["status", "phase"]

def restoreBackup (obj : Json) : String := obj.nestedString ["spec", "backupName"]

/-- An update of Velero's: an open restore goes to a phase, and stays the restore it is. -/
def Updates (old new : Json) : Prop :=
  restorePhase old ∈ openPhases ∧ restorePhase new ∈ openPhases ++ terminalPhases ∧
    getName new = getName old ∧ getNamespace new = getNamespace old ∧ restoreBackup new = restoreBackup old

instance (old new : Json) : Decidable (Updates old new) := inferInstanceAs (Decidable (_ ∧ _))

namespace Cluster

variable (srv : Server) (s : Cluster)

def setCall (i : ℕ) (c : Call) : Cluster := { s with calls := update s.calls i c }

def fresh : Option CachedVeleroData := s.cachedData.filter (·.fresh ⟨s.now, 0⟩)

def advanceFlight (i : ℕ) (stage : Stage) : Cluster := { s with fetchGroup := s.fetchGroup.advance i stage }

def invalidateCache : Cluster := { s with cacheGen := s.cacheGen + 1, cachedData := none }

def answer (i : ℕ) (refusal : Option Refusal) : Cluster := s.setCall i (.answered refusal)

/-- A list call that succeeds lists the restores of the cluster; the other kinds are as they come. -/
def listed (kind : ListKind) (items : Option (List Json)) : Option (List Json) :=
  if kind = .restores then items.map (fun _ ↦ s.restores) else items

/-- One step of the flight that call `i` leads. -/
def flightStep (i : ℕ) : Stage → Act → Option Cluster
  | .listing gen replies, .reply _ kind items =>
    if (replies kind).isNone then
      some (s.advanceFlight i (.listing gen (update replies kind (some (s.listed kind items)))))
    else none
  | .listing gen replies, .wait _ =>
    replies.lists.map (fun lists ↦ s.advanceFlight i (.fetched gen (lists.data srv.lib ⟨s.now, 0⟩)))
  | .fetched gen data, .storeBack _ =>
    some { s.advanceFlight i (.stored data) with
      cachedData := if data.isSome ∧ s.cacheGen = gen then data else s.cachedData }
  | _, _ => none

/-- One step of the `fetchAll` of call `i`, which does `job`. -/
def fetchStep (i : ℕ) (job : Job) : Fetching → Act → Option Cluster
  | .started, .check _ =>
    match s.fresh with
    | some data => some (s.setCall i (.fetching job (.returned (some data))))
    | none => some (s.setCall i (.fetching job (.missed s.cacheGen)))
  | .missed gen, .enter _ =>
    match s.fetchGroup.calls.lookup () with
    | some j => some (s.setCall i (.fetching job (.waiting j)))
    | none =>
      some ({ s with fetchGroup := s.fetchGroup.lead () i (.listing gen (fun _ ↦ none)) }.setCall i
        (.fetching job .leading))
  | .leading, .land _ =>
    match s.fetchGroup.body i with
    | some (_, .stored data) =>
      some ({ s with fetchGroup := (s.fetchGroup.advance i (.landed data)).land i }.setCall i
        (.fetching job (.returned data)))
    | _ => none
  | .leading, a =>
    match s.fetchGroup.body i with
    | some (_, stage) => s.flightStep srv i stage a
    | none => none
  | .waiting j, .wake _ =>
    match s.fetchGroup.body j with
    | some (_, .landed data) => some (s.setCall i (.fetching job (.returned data)))
    | _ => none
  | _, _ => none

def requestFor (ns name : String) (known : Bool) : DeleteBackupRequest where
  name := name ++ "-delete-" ++ srv.stamp s.now
  ns := ns
  backupName := name
  known := known
  restores := s.restores

def callStep (i : ℕ) : Call → Act → Option Cluster
  | .idle, .list _ => some (s.setCall i (.fetching .list .started))
  | .idle, .deleteBackup _ user ns name =>
    match admitDelete srv user ns with
    | .error refusal => some (s.answer i (some refusal))
    | .ok () => some (s.setCall i (.fetching (.deleteBackup ns name) .started))
  | .idle, .createRestore _ user body backup =>
    match admitRestore srv user body backup with
    | .error refusal => some (s.answer i (some refusal))
    | .ok input => some (s.setCall i (.admitted input))
  | .fetching (.deleteBackup ns name) (.returned data), .decide _ =>
    match checkDependents (data.map (·.restores)) ns name with
    | .error refusal => some (s.answer i (some refusal))
    | .ok () => some (s.setCall i (.cleared ns name data.isSome))
  | .fetching job stage, a => s.fetchStep srv i job stage a
  | .cleared ns name known, .request _ accepted =>
    if accepted then
      some ({ s with requests := s.requests ++ [s.requestFor srv ns name known] }.setCall i .changed)
    else some (s.answer i (some { err := ⟨500, "failed to delete backup"⟩ }))
  | .admitted input, .create _ accepted =>
    if accepted then some ({ s with restores := s.restores ++ [restoreObject input] }.setCall i .changed)
    else some (s.answer i (some { err := ⟨500, "failed to create restore"⟩ }))
  | .changed, .invalidate _ => some (s.invalidateCache.answer i none)
  | _, _ => none

def step (a : Act) : Option Cluster :=
  match a with
  | .list i | .deleteBackup i _ _ _ | .createRestore i _ _ _ | .check i | .enter i | .reply i _ _ | .wait i
  | .storeBack i | .land i | .wake i | .decide i | .request i _ | .create i _ | .invalidate i =>
    s.callStep srv i (s.calls i) a
  | .invalidateCache => some s.invalidateCache
  | .updateRestore place restore =>
    match s.restores[place]? with
    | some old => if Updates old restore then some { s with restores := s.restores.set place restore } else none
    | none => none
  | .advance d => some { s with now := s.now + d }

end Cluster

end KubeCenter.Velero
