import Mathlib.Data.List.Infix
import KubeCenter.Core.GoBytes
import KubeCenter.Core.GoString
import KubeCenter.Core.Singleflight

/-! Repository URLs and what they are compared by. -/

namespace KubeCenter.GitProvider

open KubeCenter.Core

/-- A string of the source. -/
def text (s : String) : Bytes := utf8 s.toList

def colon : UInt8 := 58
def slash : UInt8 := 47
def newline : UInt8 := 10

/-- A parsed URL, its host without a port. -/
structure URL where
  scheme : Bytes
  hostname : Bytes
  path : Bytes

/-- What the parser is handed by the standard library: `url.Parse`, and `strings.ToLower`. -/
structure Library where
  parseURL : Bytes → Option URL
  toLower : Bytes → Bytes

structure RepoRef where
  host : Bytes
  owner : Bytes
  repo : Bytes
  deriving DecidableEq

def RepoRef.canonicalURL (r : RepoRef) : Bytes :=
  text "https://" ++ r.host ++ slash :: (r.owner ++ slash :: r.repo)

/-- What stands before and after the first occurrence of a byte. -/
def cutFirst (sep : UInt8) : Bytes → Option (Bytes × Bytes)
  | [] => none
  | c :: s => if c = sep then some ([], s) else (cutFirst sep s).map (fun p ↦ (c :: p.1, p.2))

/-- What stands before and after its last occurrence. -/
def cutLast (sep : UInt8) (s : Bytes) : Option (Bytes × Bytes) :=
  (cutFirst sep s.reverse).map (fun p ↦ (p.2.reverse, p.1.reverse))

def trimSuffix (suffix s : Bytes) : Bytes := if suffix <:+ s then s.take (s.length - suffix.length) else s

/-- The submatches of `^git@([^:]+):(.+?)(?:\.git)?$`, whose dot is any byte but a newline. -/
def sshMatch (s : Bytes) : Option (Bytes × Bytes) :=
  if text "git@" <+: s then
    match cutFirst colon (s.drop 4) with
    | none => none
    | some (host, path) =>
      if host = [] ∨ path = [] ∨ newline ∈ path then none
      else some (host, if path = text ".git" then path else trimSuffix (text ".git") path)
  else none

/-- The repository is the last segment of the path. -/
def splitOwnerRepo (path : Bytes) : Option (Bytes × Bytes) :=
  (cutLast slash path).filter (fun p ↦ p.1 ≠ [])

variable (lib : Library)

/-- The path of a URL without what may surround the repository. -/
def repoPath (path : Bytes) : Bytes :=
  let path := if [slash] <+: path then path.drop 1 else path
  trimSuffix [slash] (trimSuffix (text ".git") path)

def parseRepoURL (rawURL : Bytes) : Option RepoRef :=
  let rawURL := trimSpace rawURL
  if rawURL = [] then none
  else
    match sshMatch rawURL with
    | some (host, path) => (splitOwnerRepo path).map (fun p ↦ ⟨lib.toLower host, p.1, p.2⟩)
    | none =>
      match lib.parseURL rawURL with
      | none => none
      | some u =>
        if u.scheme ≠ text "https" ∧ u.scheme ≠ text "http" ∧ u.scheme ≠ text "ssh" then none
        else if lib.toLower u.hostname = [] then none
        else if repoPath u.path = [] then none
        else (splitOwnerRepo (repoPath u.path)).map (fun p ↦ ⟨lib.toLower u.hostname, p.1, p.2⟩)

example : sshMatch (text "git@github.com:org/repo.git") = some (text "github.com", text "org/repo") := by
  decide

theorem cutFirst_eq_some {sep : UInt8} {s a b : Bytes} (h : cutFirst sep s = some (a, b)) :
    s = a ++ sep :: b ∧ sep ∉ a := by
  induction s generalizing a with
  | nil => cases h
  | cons c s ih =>
    rw [cutFirst] at h
    split at h
    · next hc =>
      cases h
      exact ⟨by rw [hc, List.nil_append], List.not_mem_nil⟩
    · next hc =>
      obtain ⟨⟨a', b'⟩, hp, heq⟩ := Option.map_eq_some_iff.mp h
      cases heq
      obtain ⟨rfl, hsep⟩ := ih hp
      refine ⟨rfl, ?_⟩
      rw [List.mem_cons, not_or]
      exact ⟨Ne.symm hc, hsep⟩

theorem cutFirst_append {sep : UInt8} {a : Bytes} (h : sep ∉ a) (b : Bytes) :
    cutFirst sep (a ++ sep :: b) = some (a, b) := by
  induction a with
  | nil => exact if_pos rfl
  | cons c a ih =>
    rw [List.mem_cons, not_or] at h
    rw [List.cons_append, cutFirst, if_neg (Ne.symm h.1), ih h.2]
    rfl

theorem cutLast_eq_some {sep : UInt8} {s a b : Bytes} (h : cutLast sep s = some (a, b)) : sep ∉ b := by
  obtain ⟨⟨a', b'⟩, hp, heq⟩ := Option.map_eq_some_iff.mp h
  cases heq
  rw [List.mem_reverse]
  exact (cutFirst_eq_some hp).2

theorem cutLast_append {sep : UInt8} {b : Bytes} (h : sep ∉ b) (a : Bytes) :
    cutLast sep (a ++ sep :: b) = some (a, b) := by
  have hrev : (a ++ sep :: b).reverse = b.reverse ++ sep :: a.reverse := by
    rw [List.reverse_append, List.reverse_cons, List.append_assoc]
    rfl
  rw [cutLast, hrev, cutFirst_append (fun hb ↦ h (List.mem_reverse.mp hb))]
  simp only [Option.map_some, List.reverse_reverse]

theorem splitOwnerRepo_repo {path owner repo : Bytes} (h : splitOwnerRepo path = some (owner, repo)) : slash ∉ repo :=
  cutLast_eq_some (Option.filter_eq_some_iff.mp h).1

variable {lib}

theorem parseRepoURL_repo {rawURL : Bytes} {r : RepoRef} (h : parseRepoURL lib rawURL = some r) : slash ∉ r.repo := by
  unfold parseRepoURL at h
  dsimp only at h
  split at h
  · cases h
  · split at h
    · obtain ⟨⟨owner, repo⟩, hsplit, rfl⟩ := Option.map_eq_some_iff.mp h
      exact splitOwnerRepo_repo hsplit
    · split at h
      · cases h
      · split at h
        · cases h
        · split at h
          · cases h
          · split at h
            · cases h
            · obtain ⟨⟨owner, repo⟩, hsplit, rfl⟩ := Option.map_eq_some_iff.mp h
              exact splitOwnerRepo_repo hsplit

/-- A host and a repository as they are meant: one segment each. -/
structure RepoRef.Plain (r : RepoRef) : Prop where
  host : slash ∉ r.host
  repo : slash ∉ r.repo

/-- The canonical URLs of plain references tell them apart. -/
theorem RepoRef.Plain.eq_of_canonicalURL {r r' : RepoRef} (h : r.Plain) (h' : r'.Plain)
    (heq : r.canonicalURL = r'.canonicalURL) : r = r' := by
  rw [canonicalURL, canonicalURL, List.append_assoc, List.append_assoc] at heq
  have hrest := List.append_cancel_left heq
  have hhost := congrArg (cutFirst slash) hrest
  rw [cutFirst_append h.host, cutFirst_append h'.host] at hhost
  obtain ⟨hhost, hpath⟩ := Prod.ext_iff.mp (Option.some.inj hhost)
  have hrepo := congrArg (cutLast slash) hpath
  rw [cutLast_append h.repo, cutLast_append h'.repo] at hrepo
  obtain ⟨howner, hrepo⟩ := Prod.ext_iff.mp (Option.some.inj hrepo)
  obtain ⟨host, owner, repo⟩ := r
  obtain ⟨host', owner', repo'⟩ := r'
  cases hhost
  cases howner
  cases hrepo
  rfl

end KubeCenter.GitProvider

/-! Commit metadata for visible repositories: the handler, its cache in the database and the flights that it shares. -/

namespace KubeCenter.GitProvider

open KubeCenter.Core Function

/-- The metadata that goes into the cache as JSON; the date in seconds. -/
structure CommitInfo where
  sha : Bytes
  message : Bytes := []
  authorName : Bytes := []
  authorDate : ℤ := 0
  webURL : Bytes := []

/-- A commit's metadata, with the repository it was read from as history. -/
structure Fetched where
  info : CommitInfo
  origin : RepoRef

/-- `host` is where the repositories are that the client's API serves. -/
structure GitHubClient where
  host : Bytes
  host_plain : slash ∉ host

/-- The part of an application that the handler looks at. -/
structure NormalizedApp where
  repoURL : Bytes

structure Row where
  canonicalURL : Bytes
  commit : Fetched

/-- A call of `GetCommit`; no `result` while it is under way. -/
structure Flight where
  gh : GitHubClient
  owner : Bytes
  repo : Bytes
  sha : Bytes
  result : Option (Option Fetched) := none

/-- `apps` are the applications that the user may see, when they could be fetched. -/
structure Request where
  repoURL : Bytes
  shas : Bytes
  apps : Option (List NormalizedApp)

inductive Reply
  | error (code : ℕ) (message : String)
  | commits (found : List (Bytes × Fetched)) (unavailable : List Bytes)

/-- What `GetCommits` is called for. -/
structure Task where
  apps : List NormalizedApp
  ref : RepoRef
  shas : List Bytes

/-- The goroutines of a call that have yet to bring their commit, each with the flight it waits for. -/
structure Fetching where
  task : Task
  gh : GitHubClient
  cached : List (Bytes × Fetched)
  waiting : List (Bytes × Option ℕ)
  fetched : List Fetched := []
  unavailable : List Bytes := []

inductive Phase
  | idle
  | querying (task : Task)
  | queried (task : Task) (cached : List (Bytes × Fetched))
  | fetching (f : Fetching)
  | done (apps : List NormalizedApp) (reply : Reply)

structure State where
  gh : Option GitHubClient := none
  rows : List Row := []
  flights : Flights Bytes Flight := {}
  requests : ℕ → Phase := fun _ ↦ .idle

/-- A digit of `shaPattern`. -/
def isHex (c : UInt8) : Bool := (48 ≤ c && c ≤ 57) || (97 ≤ c && c ≤ 102) || (65 ≤ c && c ≤ 70)

def isSHA (s : Bytes) : Bool := 7 ≤ s.length && s.length ≤ 40 && s.all isHex

def validSHAs (param : Bytes) : List Bytes :=
  (((param.splitOn Byte.comma).map trimSpace).filter isSHA).take 50

/-- The key of a commit's flight. -/
def flightKey (canonicalURL sha : Bytes) : Bytes := canonicalURL ++ colon :: sha

def batchGet (rows : List Row) (canonicalURL : Bytes) (shas : List Bytes) : List (Bytes × Fetched) :=
  (rows.filter (fun row ↦ row.canonicalURL = canonicalURL ∧ row.commit.info.sha ∈ shas)).map
    (fun row ↦ (row.commit.info.sha, row.commit))

/-- `ON CONFLICT DO NOTHING`, on the primary key of URL and SHA. -/
def putRow (rows : List Row) (row : Row) : List Row :=
  if rows.any (fun old ↦ old.canonicalURL = row.canonicalURL ∧ old.commit.info.sha = row.commit.info.sha) then rows
  else rows ++ [row]

def batchPut (rows : List Row) (canonicalURL : Bytes) (infos : List Fetched) : List Row :=
  (infos.map (fun info ↦ ⟨canonicalURL, info⟩)).foldl putRow rows

def setCommit (found : List (Bytes × Fetched)) (sha : Bytes) (commit : Fetched) : List (Bytes × Fetched) :=
  found.filter (fun e ↦ e.1 ≠ sha) ++ [(sha, commit)]

section Handler

variable (lib : Library)

def repoVisibleToUser (apps : List NormalizedApp) (rawURL canonicalURL : Bytes) : Bool :=
  apps.any (fun app ↦ app.repoURL ≠ [] &&
    (app.repoURL = rawURL || (parseRepoURL lib app.repoURL).any (fun r ↦ r.canonicalURL = canonicalURL)))

/-- `HandleGetCommits` up to the cache, for a user who is signed in. -/
def handleGetCommits (hasGitHub : Bool) (req : Request) : Except Reply Task :=
  if hasGitHub = false then .error (.commits [] [])
  else if req.repoURL = [] ∨ req.shas = [] then .error (.error 400 "repoURL and shas parameters are required")
  else
    match parseRepoURL lib req.repoURL with
    | none => .error (.error 400 "invalid repoURL")
    | some ref =>
      if validSHAs req.shas = [] then .error (.commits [] [])
      else
        match req.apps with
        | none => .error (.error 500 "failed to validate access")
        | some apps =>
          if repoVisibleToUser lib apps req.repoURL ref.canonicalURL then .ok ⟨apps, ref, validSHAs req.shas⟩
          else .error (.error 403 "no visible application uses this repository")

end Handler

namespace State

variable (s : State)

def setRequest (i : ℕ) (p : Phase) : State := { s with requests := update s.requests i p }

/-- The commits that the database has not brought, and who is to fetch them. -/
def resolve (i : ℕ) (task : Task) (cached : List (Bytes × Fetched)) : State :=
  let missing := task.shas.filter (fun sha ↦ sha ∉ cached.map Prod.fst)
  match missing, s.gh with
  | sha :: shas, some gh =>
    s.setRequest i (.fetching { task, gh, cached, waiting := (sha :: shas).map (fun sha ↦ (sha, none)) })
  | _, _ => s.setRequest i (.done task.apps (.commits cached missing))

/-- `group.Do`: goroutine `j` waits for the flight of its key, or leads flight `n`. -/
def join (i j n : ℕ) (f : Fetching) (sha : Bytes) : State :=
  let key := flightKey f.task.ref.canonicalURL sha
  match s.flights.calls.lookup key with
  | some m => s.setRequest i (.fetching { f with waiting := f.waiting.set j (sha, some m) })
  | none =>
    { s.setRequest i (.fetching { f with waiting := f.waiting.set j (sha, some n) }) with
      flights := s.flights.lead key n { gh := f.gh, owner := f.task.ref.owner, repo := f.task.ref.repo, sha } }

/-- Flight `n` comes back from GitHub. -/
def answer (n : ℕ) (flight : Flight) (info : Option CommitInfo) : State :=
  let commit := info.map (fun info ↦ ⟨info, ⟨flight.gh.host, flight.owner, flight.repo⟩⟩)
  { s with flights := (s.flights.advance n { flight with result := some commit }).land n }

/-- Goroutine `j` takes the result of its flight. -/
def collect (i j : ℕ) (f : Fetching) (sha : Bytes) (result : Option Fetched) : State :=
  let f := { f with waiting := f.waiting.eraseIdx j }
  s.setRequest i (.fetching (match result with
    | none => { f with unavailable := f.unavailable ++ [sha] }
    | some commit => { f with cached := setCommit f.cached sha commit, fetched := f.fetched ++ [commit] }))

end State

/-- A restart leaves the database. `shown` says which rows of the cache a query brings before it fails, if it does, and `stored` whether the
INSERT succeeds. -/
inductive Act
  | setGitHubClient (gh : Option GitHubClient)
  | request (i : ℕ) (req : Request)
  | batchGet (i : ℕ) (shown : Row → Bool)
  | resolve (i : ℕ)
  | join (i j n : ℕ)
  | answer (n : ℕ) (info : Option CommitInfo)
  | collect (i j : ℕ)
  | finish (i : ℕ) (stored : Bool)
  | restart

def step (lib : Library) (s : State) : Act → Option State
  | .setGitHubClient gh => some { s with gh }
  | .request i req =>
    match s.requests i with
    | .idle =>
      match handleGetCommits lib s.gh.isSome req with
      | .error reply => some (s.setRequest i (.done (req.apps.getD []) reply))
      | .ok task => some (s.setRequest i (.querying task))
    | _ => none
  | .batchGet i shown =>
    match s.requests i with
    | .querying task =>
      some (s.setRequest i (.queried task (batchGet (s.rows.filter shown) task.ref.canonicalURL task.shas)))
    | _ => none
  | .resolve i =>
    match s.requests i with
    | .queried task cached => some (s.resolve i task cached)
    | _ => none
  | .join i j n =>
    match s.requests i with
    | .fetching f =>
      match f.waiting[j]?, s.flights.body n with
      | some (sha, none), none => some (s.join i j n f sha)
      | _, _ => none
    | _ => none
  | .answer n info =>
    match s.flights.body n with
    | some (_, flight) => if flight.result.isNone then some (s.answer n flight info) else none
    | none => none
  | .collect i j =>
    match s.requests i with
    | .fetching f =>
      match f.waiting[j]? with
      | some (sha, some n) =>
        ((s.flights.body n).bind (fun b ↦ b.2.result)).map (fun result ↦ s.collect i j f sha result)
      | _ => none
    | _ => none
  | .finish i stored =>
    match s.requests i with
    | .fetching f =>
      match f.waiting with
      | [] =>
        some { s.setRequest i (.done f.task.apps (.commits f.cached f.unavailable)) with
          rows := if stored then batchPut s.rows f.task.ref.canonicalURL f.fetched else s.rows }
      | _ :: _ => none
    | _ => none
  | .restart => some { rows := s.rows }

end KubeCenter.GitProvider
