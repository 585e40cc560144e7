import Mathlib.Data.Finset.Basic
import Mathlib.Data.List.Sort
import KubeCenter.Core.GoBytes
import KubeCenter.Core.Runs
import KubeCenter.Core.Singleflight

namespace KubeCenter.K8s

open KubeCenter.Core

def localClusterID : String := "local"

def isLocalClusterID (clusterID : String) : Bool := clusterID = "" ∨ clusterID = localClusterID

def normalizedClusterID (clusterID : String) : String :=
  if isLocalClusterID clusterID then localClusterID else clusterID

def clientCacheTTL : ℕ := 5 * 60 * 1000000000

/-- What `cluster_router.go` reads of a row of the clusters table. -/
structure ClusterRecord where
  apiServerURL : String
  caData : Bytes
  authData : Bytes
  allowInsecureTLS : Bool
  deriving DecidableEq

structure RestConfig where
  host : String
  bearerToken : Bytes
  caData : Bytes
  insecure : Bool
  userName : String
  groups : List String
  qps : ℕ
  burst : ℕ
  deriving DecidableEq

structure Services where
  validateRemoteURL : String → Except String Unit
  decrypt : Bytes → Except String Bytes

def applyClusterTLS (cfg : RestConfig) (clusterID : String) (caData : Bytes) (allowInsecure : Bool) :
    Except String RestConfig :=
  if 0 < caData.length then .ok cfg
  else if !allowInsecure then
    .error ("cluster " ++ clusterID ++
      " has no CAData and AllowInsecureTLS is false; reject to prevent silent MITM exposure")
  else .ok { cfg with insecure := true }

def wrap {α : Type} (context : String) : Except String α → Except String α
  | .ok a => .ok a
  | .error err => .error (context ++ ": " ++ err)

def buildRemoteConfig (services : Services) (clusterID username : String) (groups : List String)
    (got : Except String ClusterRecord) : Except String RestConfig := do
  let cluster ← wrap ("cluster " ++ clusterID ++ " not found") got
  wrap ("cluster " ++ clusterID ++ " URL blocked") (services.validateRemoteURL cluster.apiServerURL)
  let token ← wrap ("decrypting auth data for cluster " ++ clusterID) (services.decrypt cluster.authData)
  let caData ←
    if 0 < cluster.caData.length then
      wrap ("decrypting CA data for cluster " ++ clusterID) (services.decrypt cluster.caData)
    else .ok []
  applyClusterTLS
    { host := cluster.apiServerURL, bearerToken := token, caData, insecure := false
      userName := username, groups, qps := 50, burst := 100 }
    clusterID caData cluster.allowInsecureTLS

/-- A SHA-256 digest printed with `%x`. -/
def hex (digest : BitVec 256) : List Char :=
  (List.range 64).map (fun i ↦ Nat.digitChar ((digest >>> (4 * (63 - i))).toNat % 16))

def cacheKey (sum256 : String → BitVec 256) (username : String) (groups : List String) : List Char :=
  hex (sum256 (username ++ "\x00" ++ "\x00".intercalate (groups.insertionSort (fun a b ↦ a ≤ b))))

/-- The key of both client caches and of the singleflight group. -/
def clientKey (sum256 : String → BitVec 256) (clusterID username : String) (groups : List String) :
    List Char :=
  clusterID.toList ++ '\x00' :: cacheKey sum256 username groups

/-- `strings.HasPrefix(k, clusterID+"\x00")`. -/
def evicts (clusterID : String) (key : List Char) : Bool :=
  (clusterID.toList ++ ['\x00']).isPrefixOf key

variable {sum256 : String → BitVec 256} {clusterID clusterID' username username' : String}
  {groups groups' : List String}

theorem clientKey_clusterID
    (h : clientKey sum256 clusterID username groups = clientKey sum256 clusterID' username' groups') :
    clusterID = clusterID' := by
  have hlength : (cacheKey sum256 username groups).length = (cacheKey sum256 username' groups').length := by
    simp [cacheKey, hex]
  have hsplit := List.append_inj' h (by simp [hlength])
  exact String.toList_inj.mp hsplit.1

theorem evicts_clientKey : evicts clusterID (clientKey sum256 clusterID username groups) = true := by
  rw [evicts, List.isPrefixOf_iff_prefix]
  exact ⟨cacheKey sum256 username groups, by simp [clientKey]⟩

end KubeCenter.K8s

namespace KubeCenter.K8s.RouterProtocol

open KubeCenter.Core Function

inductive ClientKind
  | typed
  | dynamic
  deriving DecidableEq

/-- A client, or the config it is built from. `rev` is history: the revision of the row the
credentials were read from. -/
structure Client where
  config : RestConfig
  rev : ℕ

structure CachedClient where
  client : Client
  expiresAt : ℕ

/-- A call of `ClientForCluster` or `DynamicClientForCluster`, or, with no kind, of
`remoteConfig` itself. -/
structure Request where
  kind : Option ClientKind
  clusterID : String
  username : String
  groups : List String

/-- Where one call stands between its accesses to shared state. `need` is history: the least
revision an eviction that returned before the call started makes up to date. -/
inductive Call
  | idle
  | looking (kind : ClientKind) (r : Request) (need : ℕ)
  | loaded (kind : ClientKind) (r : Request) (need : ℕ) (entry : CachedClient)
  | stale (kind : ClientKind) (r : Request) (need : ℕ)
  | configuring (r : Request) (need : ℕ)
  | leading (r : Request) (need : ℕ)
  | waiting (r : Request) (need : ℕ) (flight : ℕ)
  | building (kind : ClientKind) (r : Request) (need : ℕ) (config : Client)
  | storing (kind : ClientKind) (r : Request) (need : ℕ) (entry : CachedClient)
  | done (r : Request) (need : ℕ) (client : Client)
  | localClient
  | noClusterStore
  | failed (err : String)

inductive Stage
  | started
  | got (rev : ℕ) (row : Except String ClusterRecord)
  | built (config : Except String Client)
  | landed (config : Except String Client)

/-- One `EvictCluster` call, ranging over the typed and then over the dynamic cache. It `owes`
a visit to the keys that were there when the range began. `target` is history: the revision of
the cluster's row when the call began. -/
structure Eviction where
  clusterID : String
  target : ℕ
  ranging : ClientKind
  owes : Finset (List Char)

structure State where
  now : ℕ
  hasStore : Bool := true
  rows : String → ℕ × Option ClusterRecord := fun _ ↦ (0, none)
  caches : ClientKind → GoMap (List Char) CachedClient := fun _ ↦ ∅
  configSF : Flights (List Char) Stage := {}
  calls : ℕ → Call := fun _ ↦ .idle
  evictions : GoMap ℕ Eviction := ∅
  evicted : String → ℕ := fun _ ↦ 0
  sweep : Option (ℕ × Option (ClientKind × List Char)) := none

inductive Act
  | start (i : ℕ) (r : Request)
  | load (i : ℕ)
  | check (i : ℕ)
  | delete (i : ℕ)
  | enter (i : ℕ)
  | get (i : ℕ) (err : Option String)
  | build (i : ℕ) (services : Services)
  | land (i : ℕ)
  | wake (i : ℕ)
  | newForConfig (i : ℕ) (err : Option String)
  | put (i : ℕ)
  | evict (e : ℕ) (clusterID : String)
  | evictVisit (e : ℕ) (key : List Char)
  | evictSkip (e : ℕ) (key : List Char)
  | evictNext (e : ℕ)
  | evictReturn (e : ℕ)
  | setCluster (clusterID : String) (row : Option ClusterRecord)
  | sweepTick
  | sweepVisit (kind : ClientKind) (key : List Char)
  | sweepDelete
  | sweepEnd
  | advance (d : ℕ)

variable (sum256 : String → BitVec 256)

def Request.key (r : Request) : List Char := clientKey sum256 r.clusterID r.username r.groups

namespace State

variable (s : State)

def setCall (i : ℕ) (h : Call) : State := { s with calls := update s.calls i h }

def setEviction (e : ℕ) (v : Eviction) : State := { s with evictions := s.evictions.insert e v }

def finishEviction (e : ℕ) (v : Eviction) : State :=
  { s with
    evictions := s.evictions.erase e
    evicted := update s.evicted v.clusterID (max (s.evicted v.clusterID) v.target) }

theorem evicted_finishEviction_le {e : ℕ} {v : Eviction} {c : String} {rev : ℕ} :
    (s.finishEviction e v).evicted c ≤ rev ↔ s.evicted c ≤ rev ∧ (c = v.clusterID → v.target ≤ rev) := by
  change update s.evicted v.clusterID _ c ≤ rev ↔ _
  by_cases hc : c = v.clusterID
  · subst hc
    simp
  · simp [hc]

def setRow (clusterID : String) (row : Option ClusterRecord) : State :=
  { s with rows := update s.rows clusterID ((s.rows clusterID).1 + 1, row) }

theorem rev_le_setRow (clusterID c : String) (row : Option ClusterRecord) :
    (s.rows c).1 ≤ ((s.setRow clusterID row).rows c).1 := by
  change _ ≤ (update s.rows clusterID _ c).1
  by_cases hc : c = clusterID
  · subst hc
    simp
  · rw [update_of_ne hc]

def erase (kind : ClientKind) (key : List Char) : State :=
  { s with caches := update s.caches kind ((s.caches kind).erase key) }

def store (kind : ClientKind) (key : List Char) (entry : CachedClient) : State :=
  { s with caches := update s.caches kind ((s.caches kind).insert key entry) }

variable {s} in
theorem lookup_of_erase {kind kind' : ClientKind} {k key : List Char} {entry : CachedClient}
    (h : ((s.erase kind key).caches kind').lookup k = some entry) :
    (kind' = kind → k ≠ key) ∧ (s.caches kind').lookup k = some entry := by
  change (update s.caches kind _ kind').lookup k = _ at h
  by_cases hk : kind' = kind
  · subst hk
    rw [update_self] at h
    by_cases hkey : k = key
    · rw [hkey, AList.lookup_erase] at h
      cases h
    · rw [AList.lookup_erase_ne hkey] at h
      exact ⟨fun _ ↦ hkey, h⟩
  · rw [update_of_ne hk] at h
    exact ⟨fun hkk ↦ absurd hkk hk, h⟩

variable {s} in
theorem lookup_of_store {kind kind' : ClientKind} {k key : List Char} {entry entry' : CachedClient}
    (h : ((s.store kind key entry).caches kind').lookup k = some entry') :
    kind' = kind ∧ k = key ∧ entry' = entry ∨ (s.caches kind').lookup k = some entry' := by
  change (update s.caches kind _ kind').lookup k = _ at h
  by_cases hk : kind' = kind
  · subst hk
    rw [update_self] at h
    by_cases hkey : k = key
    · rw [hkey, AList.lookup_insert] at h
      exact .inl ⟨rfl, hkey, (Option.some.inj h).symm⟩
    · rw [AList.lookup_insert_ne hkey] at h
      exact .inr h
  · rw [update_of_ne hk] at h
    exact .inr h

theorem setCall_self (i : ℕ) (h : Call) : (s.setCall i h).calls i = h := update_self ..

theorem setCall_ne {i j : ℕ} (hj : j ≠ i) (h : Call) : (s.setCall i h).calls j = s.calls j :=
  update_of_ne hj ..

/-- The keys an eviction of the cluster must visit if it begins to range now. -/
def matching (kind : ClientKind) (clusterID : String) : Finset (List Char) :=
  ((s.caches kind).keys.filter (evicts clusterID)).toFinset

end State

def afterConfig (r : Request) (need : ℕ) : Except String Client → Call
  | .error err => .failed err
  | .ok config =>
    match r.kind with
    | none => .done r need config
    | some kind => .building kind r need config

def clientName : ClientKind → String
  | .typed => "clientset"
  | .dynamic => "dynamic client"

def begin (s : State) (r : Request) : Call :=
  if r.kind.isSome && isLocalClusterID r.clusterID then .localClient
  else if !s.hasStore then .noClusterStore
  else match r.kind with
    | none => .configuring r (s.evicted r.clusterID)
    | some kind => .looking kind r (s.evicted r.clusterID)

def callStep (s : State) (i : ℕ) : Call → Act → Option State
  | .idle, .start _ r => some (s.setCall i (begin s r))
  | .looking kind r need, .load _ =>
    match (s.caches kind).lookup (r.key sum256) with
    | some entry => some (s.setCall i (.loaded kind r need entry))
    | none => some (s.setCall i (.configuring r need))
  | .loaded kind r need entry, .check _ =>
    if s.now < entry.expiresAt then some (s.setCall i (.done r need entry.client))
    else some (s.setCall i (.stale kind r need))
  | .stale kind r need, .delete _ =>
    some ((s.erase kind (r.key sum256)).setCall i (.configuring r need))
  | .configuring r need, .enter _ =>
    match s.configSF.calls.lookup (r.key sum256) with
    | some j => some (s.setCall i (.waiting r need j))
    | none =>
      some ({ s with configSF := s.configSF.lead (r.key sum256) i .started }.setCall i (.leading r need))
  | .leading r _, .get _ err =>
    match s.configSF.body i with
    | some (_, .started) =>
      let row : Except String ClusterRecord :=
        match err, (s.rows r.clusterID).2 with
        | some err, _ => .error ("getting cluster " ++ r.clusterID ++ ": " ++ err)
        | none, none => .error ("getting cluster " ++ r.clusterID ++ ": no rows in result set")
        | none, some row => .ok row
      some { s with configSF := s.configSF.advance i (.got (s.rows r.clusterID).1 row) }
    | _ => none
  | .leading r _, .build _ services =>
    match s.configSF.body i with
    | some (_, .got rev row) =>
      let config := (buildRemoteConfig services r.clusterID r.username r.groups row).map (Client.mk · rev)
      some { s with configSF := s.configSF.advance i (.built config) }
    | _ => none
  | .leading r need, .land _ =>
    match s.configSF.body i with
    | some (_, .built config) =>
      some ({ s with configSF := (s.configSF.advance i (.landed config)).land i }.setCall i
        (afterConfig r need config))
    | _ => none
  | .waiting r need j, .wake _ =>
    match s.configSF.body j with
    | some (_, .landed config) => some (s.setCall i (afterConfig r need config))
    | _ => none
  | .building kind r need config, .newForConfig _ err =>
    match err with
    | some err => some (s.setCall i (.failed
        ("creating remote " ++ clientName kind ++ " for cluster " ++ r.clusterID ++ ": " ++ err)))
    | none => some (s.setCall i (.storing kind r need ⟨config, s.now + clientCacheTTL⟩))
  | .storing kind r need entry, .put _ =>
    some ((s.store kind (r.key sum256) entry).setCall i (.done r need entry.client))
  | _, _ => none

/-- The steps of `EvictCluster`. The range may visit any key of the cluster, and must visit
those it owes unless they are gone. -/
def evictStep (s : State) : Act → Option State
  | .evict e clusterID =>
    match s.evictions.lookup e with
    | none =>
      some (s.setEviction e ⟨clusterID, (s.rows clusterID).1, .typed, s.matching .typed clusterID⟩)
    | some _ => none
  | .evictVisit e key =>
    match s.evictions.lookup e with
    | some v =>
      if evicts v.clusterID key then
        some ((s.erase v.ranging key).setEviction e { v with owes := v.owes.erase key })
      else none
    | none => none
  | .evictSkip e key =>
    match s.evictions.lookup e with
    | some v =>
      if key ∈ s.caches v.ranging then none
      else some (s.setEviction e { v with owes := v.owes.erase key })
    | none => none
  | .evictNext e =>
    match s.evictions.lookup e with
    | some v =>
      if v.ranging = .typed ∧ v.owes = ∅ then
        some (s.setEviction e { v with ranging := .dynamic, owes := s.matching .dynamic v.clusterID })
      else none
    | none => none
  | .evictReturn e =>
    match s.evictions.lookup e with
    | some v =>
      if v.ranging = .dynamic ∧ v.owes = ∅ then
        some (s.finishEviction e v)
      else none
    | none => none
  | _ => none

/-- Changes of the clusters table, the cache sweeper and the clock. -/
def otherStep (s : State) : Act → Option State
  | .setCluster clusterID row =>
    some (s.setRow clusterID row)
  | .sweepTick => if s.sweep.isNone then some { s with sweep := some (s.now, none) } else none
  | .sweepVisit kind key =>
    match s.sweep, (s.caches kind).lookup key with
    | some (now, none), some entry =>
      if entry.expiresAt < now then some { s with sweep := some (now, some (kind, key)) } else none
    | _, _ => none
  | .sweepDelete =>
    match s.sweep with
    | some (now, some (kind, key)) => some { s.erase kind key with sweep := some (now, none) }
    | _ => none
  | .sweepEnd =>
    match s.sweep with
    | some (_, none) => some { s with sweep := none }
    | _ => none
  | .advance d => some { s with now := s.now + d }
  | _ => none

def step (s : State) (a : Act) : Option State :=
  match a with
  | .start i _ | .load i | .check i | .delete i | .enter i | .get i _ | .build i _ | .land i | .wake i
  | .newForConfig i _ | .put i => callStep sum256 s i (s.calls i) a
  | .evict _ _ | .evictVisit _ _ | .evictSkip _ _ | .evictNext _ | .evictReturn _ => evictStep s a
  | _ => otherStep s a

def init (now : ℕ) (hasStore : Bool) : State := { now, hasStore }

end KubeCenter.K8s.RouterProtocol
