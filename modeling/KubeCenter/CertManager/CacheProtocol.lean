import Mathlib.Data.List.Basic
import KubeCenter.Core.Runs
import KubeCenter.Core.Singleflight

namespace KubeCenter.CertManager

open KubeCenter.Core Function

def cacheTTL : ℕ := 30 * 1000000000

def peekStaleness : ℕ := 90 * 1000000000

structure CachedData (C I : Type) where
  certificates : List C
  issuers : List I
  clusterIssuers : List I
  fetchedAt : ℕ
  deriving DecidableEq

structure Normalizer (O C I : Type) where
  normalizeCertificate : O → Option C
  normalizeIssuer : O → String → I
  applyThresholds : List C → List I → List I → List C

inductive ListKind
  | certificates
  | issuers
  | clusterIssuers
  deriving DecidableEq

/-- One of the three lists of a fetch. `issued` is history: the cache generation when the
request was sent. -/
inductive Listing (O : Type)
  | unsent
  | sent (issued : ℕ)
  | received (issued : ℕ) (items : List O)
  | failed

def Listing.issued {O : Type} : Listing O → Option ℕ
  | .sent issued | .received issued _ => some issued
  | _ => none

def Listing.returned {O : Type} : Listing O → Bool
  | .received _ _ | .failed => true
  | _ => false

structure Fetch (O : Type) where
  gen : ℕ
  lists : ListKind → Listing O := fun _ ↦ .unsent
  err : Option String := none

/-- Cached data with its history: the generation its fetch began at, and the least one that
a list of it was issued at. -/
structure Snapshot (C I : Type) where
  data : CachedData C I
  gen : ℕ
  issued : ℕ

inductive Stage (O C I : Type)
  | listing (fetch : Fetch O)
  | fetched (gen : ℕ) (result : Except String (Snapshot C I))
  | stored (gen : ℕ) (result : Except String (Snapshot C I))
  | landed (gen : ℕ) (result : Except String (Snapshot C I))

/-- Where one call of `getCached` or `peekCertificates` stands. `need` is history: how many `InvalidateCache` calls had
returned when it started. -/
inductive Call (C I : Type)
  | idle
  | started (need : ℕ)
  | missed (need gen : ℕ)
  | leading (need : ℕ)
  | waiting (need flight : ℕ)
  | done (need : ℕ) (snapshot : Snapshot C I)
  | absent
  | failed (err : String)

structure State (O C I : Type) where
  now : ℕ
  cache : Option (Snapshot C I) := none
  cacheGen : ℕ := 0
  fetchGroup : Flights String (Stage O C I) := {}
  calls : ℕ → Call C I := fun _ ↦ .idle

inductive Act (O : Type)
  | start (i : ℕ)
  | check (i : ℕ)
  | peek (i : ℕ)
  | enter (i : ℕ)
  | issue (i : ℕ) (kind : ListKind)
  | reply (i : ℕ) (kind : ListKind) (items : Except String (List O))
  | wait (i : ℕ)
  | storeBack (i : ℕ)
  | land (i : ℕ)
  | wake (i : ℕ)
  | invalidateCache
  | advance (d : ℕ)

variable {O C I : Type}

def listName : ListKind → String
  | .certificates => "list certificates"
  | .issuers => "list issuers"
  | .clusterIssuers => "list clusterissuers"

namespace Fetch

variable (f : Fetch O)

def issue (kind : ListKind) (now : ℕ) : Option (Fetch O) :=
  match f.lists kind with
  | .unsent => some { f with lists := update f.lists kind (.sent now) }
  | _ => none

/-- A list comes back, or fails, sent or not. The group keeps its first error. -/
def reply (kind : ListKind) : Except String (List O) → Option (Fetch O)
  | .ok items =>
    match f.lists kind with
    | .sent issued => some { f with lists := update f.lists kind (.received issued items) }
    | _ => none
  | .error err =>
    match f.lists kind with
    | .unsent | .sent _ =>
      some { f with
        lists := update f.lists kind .failed
        err := f.err.or (some (listName kind ++ ": " ++ err)) }
    | _ => none

def returned : Bool :=
  (f.lists .certificates).returned && (f.lists .issuers).returned && (f.lists .clusterIssuers).returned

/-- `g.Wait` and what follows it up to the store-back. -/
def wait (normalizer : Normalizer O C I) (now : ℕ) : Option (Except String (Snapshot C I)) :=
  match f.err with
  | some err => if f.returned then some (.error err) else none
  | none =>
    match f.lists .certificates, f.lists .issuers, f.lists .clusterIssuers with
    | .received a certs, .received b issuers, .received c clusterIssuers =>
      let issuers := issuers.map (normalizer.normalizeIssuer · "Namespaced")
      let clusterIssuers := clusterIssuers.map (normalizer.normalizeIssuer · "Cluster")
      let certs := certs.filterMap normalizer.normalizeCertificate
      some (.ok
        { data :=
            { certificates := normalizer.applyThresholds certs issuers clusterIssuers
              issuers, clusterIssuers, fetchedAt := now }
          gen := f.gen, issued := min a (min b c) })
    | _, _, _ => none

end Fetch

namespace State

variable (s : State O C I)

def setCall (i : ℕ) (h : Call C I) : State O C I := { s with calls := update s.calls i h }

theorem setCall_self (i : ℕ) (h : Call C I) : (s.setCall i h).calls i = h := update_self ..

theorem setCall_ne {i j : ℕ} (hj : j ≠ i) (h : Call C I) : (s.setCall i h).calls j = s.calls j :=
  update_of_ne hj ..

def advance (i : ℕ) (stage : Stage O C I) : State O C I :=
  { s with fetchGroup := s.fetchGroup.advance i stage }

def fresh (ttl : ℕ) : Option (Snapshot C I) :=
  s.cache.filter (fun snapshot ↦ s.now < snapshot.data.fetchedAt + ttl)

def storeBack (gen : ℕ) : Except String (Snapshot C I) → Option (Snapshot C I)
  | .ok snapshot => if s.cacheGen = gen then some snapshot else s.cache
  | .error _ => s.cache

end State

def afterFetch (need : ℕ) : Except String (Snapshot C I) → Call C I
  | .error err => .failed err
  | .ok snapshot => .done need snapshot

/-- The flight key of `getCached`: one for all generations. -/
def allKey (_gen : ℕ) : String := "all"

/-- The key that the external secrets handler uses for the same cache. -/
def generationKey (gen : ℕ) : String := "all-" ++ gen.repr

variable (flightKey : ℕ → String) (normalizer : Normalizer O C I)

/-- What the shared function of flight `i` does next, standing at `stage`. -/
def fetchStep (s : State O C I) (i : ℕ) : Stage O C I → Act O → Option (State O C I)
  | .listing fetch, .issue _ kind =>
    (fetch.issue kind s.cacheGen).map (fun fetch ↦ s.advance i (.listing fetch))
  | .listing fetch, .reply _ kind items =>
    (fetch.reply kind items).map (fun fetch ↦ s.advance i (.listing fetch))
  | .listing fetch, .wait _ =>
    (fetch.wait normalizer s.now).map (fun result ↦ s.advance i (.fetched fetch.gen result))
  | .fetched gen result, .storeBack _ =>
    some { s.advance i (.stored gen result) with cache := s.storeBack gen result }
  | _, _ => none

def callStep (s : State O C I) (i : ℕ) : Call C I → Act O → Option (State O C I)
  | .idle, .start _ => some (s.setCall i (.started s.cacheGen))
  | .started need, .check _ =>
    match s.fresh cacheTTL with
    | some snapshot => some (s.setCall i (.done need snapshot))
    | none => some (s.setCall i (.missed need s.cacheGen))
  | .started need, .peek _ =>
    match s.fresh peekStaleness with
    | some snapshot => some (s.setCall i (.done need snapshot))
    | none => some (s.setCall i .absent)
  | .missed need gen, .enter _ =>
    match s.fetchGroup.calls.lookup (flightKey gen) with
    | some j => some (s.setCall i (.waiting need j))
    | none =>
      some ({ s with fetchGroup := s.fetchGroup.lead (flightKey gen) i (.listing { gen }) }.setCall i
        (.leading need))
  | .leading need, .land _ =>
    match s.fetchGroup.body i with
    | some (_, .stored gen result) =>
      some ({ s with fetchGroup := (s.fetchGroup.advance i (.landed gen result)).land i }.setCall i
        (afterFetch need result))
    | _ => none
  | .leading _, a =>
    match s.fetchGroup.body i with
    | some (_, stage) => fetchStep normalizer s i stage a
    | none => none
  | .waiting need j, .wake _ =>
    match s.fetchGroup.body j with
    | some (_, .landed _ result) => some (s.setCall i (afterFetch need result))
    | _ => none
  | _, _ => none

def step (s : State O C I) (a : Act O) : Option (State O C I) :=
  match a with
  | .start i | .check i | .peek i | .enter i | .issue i _ | .reply i _ _ | .wait i | .storeBack i
  | .land i | .wake i => callStep flightKey normalizer s i (s.calls i) a
  | .invalidateCache => some { s with cacheGen := s.cacheGen + 1, cache := none }
  | .advance d => some { s with now := s.now + d }

def init (now : ℕ) : State O C I := { now }

end KubeCenter.CertManager
