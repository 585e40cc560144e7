import KubeCenter.Core.Runs
import KubeCenter.GitProvider.RepoRef

/-! Whose commits a user gets to see. -/

namespace KubeCenter.GitProvider

open KubeCenter.Core Function

variable {lib : Library}

/-- The applications visible to the user of a request that is answered. -/
def Phase.apps : Phase → List NormalizedApp
  | .done apps _ => apps
  | _ => []

/-- The commits in the reply. -/
def Phase.found : Phase → List (Bytes × Fetched)
  | .done _ (.commits found _) => found
  | _ => []

/-- Every commit in a reply was read from the repository of an application that the user may see. -/
def Confined (lib : Library) (s : State) : Prop :=
  ∀ i, ∀ c ∈ (s.requests i).found, ∃ app ∈ (s.requests i).apps, parseRepoURL lib app.repoURL = some c.2.origin

/-- An application with the canonical URL has a host of one segment. -/
def Matched (lib : Library) (apps : List NormalizedApp) (canonicalURL : Bytes) : Prop :=
  ∃ app ∈ apps, ∃ r ∈ parseRepoURL lib app.repoURL, r.canonicalURL = canonicalURL ∧ slash ∉ r.host

/-- Goroutine `j` of a call is about to lead a flight. -/
def Leads (s : State) (f : Fetching) (j : ℕ) : Prop :=
  ∃ w ∈ f.waiting[j]?, s.flights.calls.lookup (flightKey f.task.ref.canonicalURL w.1) = none

def Phase.fetching? : Phase → Option Fetching
  | .fetching f => some f
  | _ => none

/-- A request that is let through has the canonical URL of an application whose host has no slash, and what it asks of
GitHub is on the host of the client that it asks. -/
def OnHost (lib : Library) (s : State) : Act → Prop
  | .request _ req =>
    ∀ task ∈ (handleGetCommits lib s.gh.isSome req).toOption, Matched lib task.apps task.ref.canonicalURL
  | .join i j _ => ∀ f ∈ (s.requests i).fetching?, Leads s f j → f.task.ref.host = f.gh.host
  | _ => True

/-- The commit is of a plain repository with the canonical URL. -/
def Names (canonicalURL : Bytes) (commit : Fetched) : Prop :=
  commit.origin.Plain ∧ commit.origin.canonicalURL = canonicalURL

def Flight.origin (f : Flight) : RepoRef := ⟨f.gh.host, f.owner, f.repo⟩

/-- A flight goes by the repository that it asks for. -/
structure FlightOk (key : Bytes) (f : Flight) : Prop where
  key_eq : key = flightKey f.origin.canonicalURL f.sha
  sha : colon ∉ f.sha
  repo : slash ∉ f.repo
  result : ∀ commit, f.result = some (some commit) → commit.origin = f.origin

structure TaskOk (lib : Library) (task : Task) : Prop where
  matched : Matched lib task.apps task.ref.canonicalURL
  repo : slash ∉ task.ref.repo
  shas : ∀ sha ∈ task.shas, colon ∉ sha

structure FetchingOk (lib : Library) (flights : Flights Bytes Flight) (f : Fetching) : Prop where
  task : TaskOk lib f.task
  cached : ∀ c ∈ f.cached, Names f.task.ref.canonicalURL c.2
  fetched : ∀ commit ∈ f.fetched, Names f.task.ref.canonicalURL commit
  shas : ∀ w ∈ f.waiting, colon ∉ w.1
  waiting : ∀ w ∈ f.waiting, ∀ n ∈ w.2, ∃ flight,
    flights.body n = some (flightKey f.task.ref.canonicalURL w.1, flight)

def PhaseOk (lib : Library) (flights : Flights Bytes Flight) : Phase → Prop
  | .idle => True
  | .querying task => TaskOk lib task
  | .queried task cached => TaskOk lib task ∧ ∀ c ∈ cached, Names task.ref.canonicalURL c.2
  | .fetching f => FetchingOk lib flights f
  | .done _ (.error _ _) => True
  | .done apps (.commits found _) => ∀ c ∈ found, ∃ app ∈ apps, parseRepoURL lib app.repoURL = some c.2.origin

structure Inv (lib : Library) (s : State) : Prop where
  rows : ∀ row ∈ s.rows, Names row.canonicalURL row.commit
  keyed : s.flights.Keyed
  flights : ∀ n key f, s.flights.body n = some (key, f) → FlightOk key f
  requests : ∀ i, PhaseOk lib s.flights (s.requests i)

theorem Inv.confined {s : State} (h : Inv lib s) : Confined lib s := by
  intro i
  have hphase := h.requests i
  cases hp : s.requests i with
  | done apps reply =>
    rw [hp] at hphase
    cases reply with
    | error code message => exact fun c hc ↦ (List.not_mem_nil hc).elim
    | commits found unavailable => exact hphase
  | idle | querying task | queried task cached | fetching f => exact fun c hc ↦ (List.not_mem_nil hc).elim

/-- The canonical URL leads back from a commit to the application. -/
theorem Matched.exists_app {apps : List NormalizedApp} {canonicalURL : Bytes} {commit : Fetched}
    (h : Matched lib apps canonicalURL) (hc : Names canonicalURL commit) :
    ∃ app ∈ apps, parseRepoURL lib app.repoURL = some commit.origin := by
  obtain ⟨app, happ, r, hr, hcanonical, hhost⟩ := h
  have hplain : r.Plain := ⟨hhost, parseRepoURL_repo hr⟩
  obtain rfl : r = commit.origin := hplain.eq_of_canonicalURL hc.1 (hcanonical.trans hc.2.symm)
  exact ⟨app, happ, hr⟩

theorem flightKey_inj {c c' sha sha' : Bytes} (h : colon ∉ sha) (h' : colon ∉ sha')
    (heq : flightKey c sha = flightKey c' sha') : c = c' := by
  have hcut := congrArg (cutLast colon) heq
  rw [flightKey, flightKey, cutLast_append h, cutLast_append h'] at hcut
  exact (Prod.ext_iff.mp (Option.some.inj hcut)).1

theorem FlightOk.names {c sha : Bytes} {f : Flight} {commit : Fetched} (h : FlightOk (flightKey c sha) f)
    (hsha : colon ∉ sha) (hresult : f.result = some (some commit)) : Names c commit := by
  rw [Names, h.result commit hresult]
  exact ⟨⟨f.gh.host_plain, h.repo⟩, (flightKey_inj hsha h.sha h.key_eq).symm⟩

theorem validSHAs_colon (param : Bytes) : ∀ sha ∈ validSHAs param, colon ∉ sha := by
  intro sha hsha hcolon
  have hvalid : isSHA sha = true := (List.mem_filter.mp (List.mem_of_mem_take hsha)).2
  simp only [isSHA, Bool.and_eq_true] at hvalid
  have hhex := List.all_eq_true.mp hvalid.2 colon hcolon
  exact absurd hhex (by decide)

theorem handleGetCommits_ok {hasGitHub : Bool} {req : Request} {task : Task}
    (h : handleGetCommits lib hasGitHub req = .ok task) :
    parseRepoURL lib req.repoURL = some task.ref ∧ task.shas = validSHAs req.shas := by
  unfold handleGetCommits at h
  split at h
  · cases h
  · split at h
    · cases h
    · split at h
      · cases h
      · next ref href =>
        split at h
        · cases h
        · split at h
          · cases h
          · split at h
            · cases h; exact ⟨href, rfl⟩
            · cases h

/-- A request that does not reach the cache brings no commits. -/
theorem handleGetCommits_error {hasGitHub : Bool} {req : Request} {found : List (Bytes × Fetched)}
    {unavailable : List Bytes} (h : handleGetCommits lib hasGitHub req = .error (.commits found unavailable)) :
    found = [] := by
  unfold handleGetCommits at h
  split at h
  · cases h; rfl
  · split at h
    · cases h
    · split at h
      · cases h
      · split at h
        · cases h; rfl
        · split at h
          · cases h
          · split at h <;> cases h

theorem names_batchGet {rows : List Row} {canonicalURL : Bytes} {shas : List Bytes}
    (h : ∀ row ∈ rows, Names row.canonicalURL row.commit) :
    ∀ c ∈ batchGet rows canonicalURL shas, Names canonicalURL c.2 := by
  intro c hc
  obtain ⟨row, hrow, rfl⟩ := List.mem_map.mp hc
  obtain ⟨hmem, hmatch⟩ := List.mem_filter.mp hrow
  have hnames := h row hmem
  rwa [(of_decide_eq_true hmatch).1] at hnames

theorem names_batchPut {rows : List Row} {canonicalURL : Bytes} {infos : List Fetched}
    (h : ∀ row ∈ rows, Names row.canonicalURL row.commit) (hinfos : ∀ info ∈ infos, Names canonicalURL info) :
    ∀ row ∈ batchPut rows canonicalURL infos, Names row.canonicalURL row.commit := by
  unfold batchPut
  induction infos generalizing rows with
  | nil => exact h
  | cons info infos ih =>
    refine ih ?_ (fun x hx ↦ hinfos x (List.mem_cons_of_mem info hx))
    unfold putRow
    split
    · exact h
    · intro row hrow
      rcases List.mem_append.mp hrow with hrow | hrow
      · exact h row hrow
      · rw [List.mem_singleton.mp hrow]
        exact hinfos info List.mem_cons_self

/-- Flights that are there stay under their key. -/
def Extends (flights flights' : Flights Bytes Flight) : Prop :=
  ∀ n key f, flights.body n = some (key, f) → ∃ f', flights'.body n = some (key, f')

theorem PhaseOk.extend {flights flights' : Flights Bytes Flight} {p : Phase} (h : PhaseOk lib flights p)
    (he : Extends flights flights') : PhaseOk lib flights' p := by
  cases p with
  | fetching f =>
    refine ⟨h.task, h.cached, h.fetched, h.shas, fun w hw n hn ↦ ?_⟩
    obtain ⟨flight, hflight⟩ := h.waiting w hw n hn
    exact he n _ flight hflight
  | idle => trivial
  | querying task => exact h
  | queried task cached => exact h
  | done apps reply => cases reply <;> exact h

section Steps

variable {s t : State} {i j n : ℕ} {p : Phase}

/-- A step of one request leaves the others where they were. -/
theorem Inv.setRequest (h : Inv lib s) (hp : PhaseOk lib s.flights p) : Inv lib (s.setRequest i p) where
  rows := h.rows
  keyed := h.keyed
  flights := h.flights
  requests k := by
    change PhaseOk lib s.flights (update s.requests i p k)
    by_cases hk : k = i
    · rw [hk, update_self]
      exact hp
    · rw [update_of_ne hk]
      exact h.requests k

theorem Inv.resolve {task : Task} {cached : List (Bytes × Fetched)} (h : Inv lib s) (htask : TaskOk lib task)
    (hcached : ∀ c ∈ cached, Names task.ref.canonicalURL c.2) : Inv lib (s.resolve i task cached) := by
  unfold State.resolve
  dsimp only
  split
  · next sha shas gh hmissing _ =>
    have hmem : ∀ x ∈ sha :: shas, colon ∉ x := by
      intro x hx
      rw [← hmissing] at hx
      exact htask.shas x (List.mem_filter.mp hx).1
    refine h.setRequest ⟨htask, hcached, fun _ hc ↦ (List.not_mem_nil hc).elim, fun w hw ↦ ?_, fun w hw n hn ↦ ?_⟩
    · obtain ⟨x, hx, rfl⟩ := List.mem_map.mp hw
      exact hmem x hx
    · obtain ⟨x, hx, rfl⟩ := List.mem_map.mp hw
      cases hn
  · exact h.setRequest (fun c hc ↦ htask.matched.exists_app (hcached c hc))

theorem FetchingOk.waits {f : Fetching} {flights : Flights Bytes Flight} {sha : Bytes} {m : ℕ} {flight : Flight}
    (h : FetchingOk lib flights f) (hsha : colon ∉ sha)
    (hm : flights.body m = some (flightKey f.task.ref.canonicalURL sha, flight)) :
    FetchingOk lib flights { f with waiting := f.waiting.set j (sha, some m) } := by
  refine ⟨h.task, h.cached, h.fetched, fun w hw ↦ ?_, fun w hw k hk ↦ ?_⟩
  · rcases List.mem_or_eq_of_mem_set hw with hw | rfl
    · exact h.shas w hw
    · exact hsha
  · rcases List.mem_or_eq_of_mem_set hw with hw | rfl
    · exact h.waiting w hw k hk
    · obtain rfl : m = k := Option.some.inj hk
      exact ⟨flight, hm⟩

theorem Inv.join {f : Fetching} {sha : Bytes} (h : Inv lib s) (hi : s.requests i = .fetching f)
    (hj : f.waiting[j]? = some (sha, none)) (hn : s.flights.body n = none)
    (hhost : Leads s f j → f.task.ref.host = f.gh.host) : Inv lib (s.join i j n f sha) := by
  have hf : FetchingOk lib s.flights f := by
    have hphase := h.requests i
    rwa [hi] at hphase
  have hsha := hf.shas _ (List.mem_of_getElem? hj)
  unfold State.join
  dsimp only
  cases hlookup : s.flights.calls.lookup (flightKey f.task.ref.canonicalURL sha) with
  | some m =>
    obtain ⟨flight, hm⟩ := h.keyed _ m hlookup
    exact h.setRequest (hf.waits hsha hm)
  | none =>
    have hlead : f.task.ref.host = f.gh.host := hhost ⟨_, hj, hlookup⟩
    have horigin : (⟨f.gh.host, f.task.ref.owner, f.task.ref.repo⟩ : RepoRef) = f.task.ref := by rw [← hlead]
    have hnew : FlightOk (flightKey f.task.ref.canonicalURL sha)
        { gh := f.gh, owner := f.task.ref.owner, repo := f.task.ref.repo, sha } := by
      refine ⟨?_, hsha, hf.task.repo, fun _ hr ↦ by cases hr⟩
      rw [Flight.origin, horigin]
    have hextends : Extends s.flights (s.flights.lead (flightKey f.task.ref.canonicalURL sha) n
        { gh := f.gh, owner := f.task.ref.owner, repo := f.task.ref.repo, sha }) := by
      intro k key flight hk
      have hkn : k ≠ n := fun heq ↦ by rw [heq, hn] at hk; cases hk
      exact ⟨flight, by rw [Flights.body_lead_ne _ hkn, hk]⟩
    refine ⟨h.rows, h.keyed.lead hn _, fun k key flight hk ↦ ?_, fun k ↦ ?_⟩
    · by_cases hkn : k = n
      · rw [hkn, Flights.body_lead_self] at hk
        cases hk
        exact hnew
      · rw [Flights.body_lead_ne _ hkn] at hk
        exact h.flights k key flight hk
    · change PhaseOk lib _ (update s.requests i _ k)
      by_cases hk : k = i
      · rw [hk, update_self]
        exact FetchingOk.waits (PhaseOk.extend (p := .fetching f) hf hextends) hsha (Flights.body_lead_self _ _ _ _)
      · rw [update_of_ne hk]
        exact (h.requests k).extend hextends

theorem Inv.answer {key : Bytes} {flight : Flight} {info : Option CommitInfo} (h : Inv lib s)
    (hn : s.flights.body n = some (key, flight)) : Inv lib (s.answer n flight info) := by
  have hok := h.flights n key flight hn
  have hextends : Extends s.flights (s.answer n flight info).flights := by
    intro k key' flight' hk
    change ∃ f', ((s.flights.advance n _).land n).body k = some (key', f')
    rw [Flights.body_land]
    by_cases hkn : k = n
    · subst hkn
      exact ⟨_, Flights.body_advance_self _ hk⟩
    · exact ⟨flight', by rw [Flights.body_advance_ne _ hkn, hk]⟩
  refine ⟨h.rows, (h.keyed.advance n _).land n, fun k key' flight' hk ↦ ?_, fun k ↦ (h.requests k).extend hextends⟩
  change ((s.flights.advance n _).land n).body k = some (key', flight') at hk
  rw [Flights.body_land] at hk
  by_cases hkn : k = n
  · subst hkn
    rw [Flights.body_advance_self _ hn] at hk
    cases hk
    refine ⟨hok.key_eq, hok.sha, hok.repo, fun commit hresult ↦ ?_⟩
    obtain ⟨info, -, rfl⟩ := Option.map_eq_some_iff.mp (Option.some.inj hresult)
    rfl
  · rw [Flights.body_advance_ne _ hkn] at hk
    exact h.flights k key' flight' hk

theorem Inv.collect {f : Fetching} {sha key : Bytes} {flight : Flight} {result : Option Fetched} (h : Inv lib s)
    (hi : s.requests i = .fetching f) (hj : f.waiting[j]? = some (sha, some n))
    (hn : s.flights.body n = some (key, flight)) (hresult : flight.result = some result) :
    Inv lib (s.collect i j f sha result) := by
  have hf : FetchingOk lib s.flights f := by
    have hphase := h.requests i
    rwa [hi] at hphase
  have hmem := List.mem_of_getElem? hj
  have hrest : FetchingOk lib s.flights { f with waiting := f.waiting.eraseIdx j } :=
    ⟨hf.task, hf.cached, hf.fetched, fun w hw ↦ hf.shas w (List.mem_of_mem_eraseIdx hw),
      fun w hw ↦ hf.waiting w (List.mem_of_mem_eraseIdx hw)⟩
  unfold State.collect
  dsimp only
  refine h.setRequest ?_
  cases result with
  | none => exact ⟨hrest.task, hrest.cached, hrest.fetched, hrest.shas, hrest.waiting⟩
  | some commit =>
    have hnames : Names f.task.ref.canonicalURL commit := by
      obtain ⟨flight', hflight⟩ := hf.waiting _ hmem n rfl
      rw [hn] at hflight
      cases hflight
      exact (h.flights n _ flight hn).names (hf.shas _ hmem) hresult
    refine ⟨hrest.task, fun c hc ↦ ?_, fun x hx ↦ ?_, hrest.shas, hrest.waiting⟩
    · rcases List.mem_append.mp hc with hc | hc
      · exact hf.cached c (List.mem_filter.mp hc).1
      · rw [List.mem_singleton.mp hc]
        exact hnames
    · rcases List.mem_append.mp hx with hx | hx
      · exact hf.fetched x hx
      · rw [List.mem_singleton.mp hx]
        exact hnames

theorem Inv.finish {f : Fetching} (h : Inv lib s) (hi : s.requests i = .fetching f) (stored : Bool) :
    Inv lib { s.setRequest i (.done f.task.apps (.commits f.cached f.unavailable)) with
      rows := if stored then batchPut s.rows f.task.ref.canonicalURL f.fetched else s.rows } := by
  have hf : FetchingOk lib s.flights f := by
    have hphase := h.requests i
    rwa [hi] at hphase
  have hdone : Inv lib (s.setRequest i (.done f.task.apps (.commits f.cached f.unavailable))) :=
    h.setRequest (fun c hc ↦ hf.task.matched.exists_app (hf.cached c hc))
  refine ⟨?_, hdone.keyed, hdone.flights, hdone.requests⟩
  split
  · exact names_batchPut h.rows hf.fetched
  · exact h.rows

/-- The step lemma. -/
theorem inv_step {a : Act} (h : Inv lib s) (hok : OnHost lib s a) (hstep : step lib s a = some t) : Inv lib t := by
  cases a with
  | setGitHubClient gh => cases hstep; exact ⟨h.rows, h.keyed, h.flights, h.requests⟩
  | request i req =>
    simp only [step] at hstep
    split at hstep
    · split at hstep
      · next reply hreply =>
        cases hstep
        refine h.setRequest ?_
        cases reply with
        | error code message => trivial
        | commits found unavailable =>
          intro c hc
          rw [handleGetCommits_error hreply] at hc
          cases hc
      · next task htask =>
        cases hstep
        obtain ⟨href, hshas⟩ := handleGetCommits_ok htask
        have hmatched : Matched lib task.apps task.ref.canonicalURL := hok task (by rw [htask]; rfl)
        refine h.setRequest (show TaskOk lib task from ⟨hmatched, parseRepoURL_repo href, ?_⟩)
        rw [hshas]
        exact validSHAs_colon req.shas
    · cases hstep
  | batchGet i shown =>
    simp only [step] at hstep
    split at hstep
    · next task htask =>
      cases hstep
      have hphase := h.requests i
      rw [htask] at hphase
      exact h.setRequest (p := .queried task _)
        ⟨hphase, names_batchGet (fun row hrow ↦ h.rows row (List.mem_filter.mp hrow).1)⟩
    · cases hstep
  | resolve i =>
    simp only [step] at hstep
    split at hstep
    · next task cached htask =>
      cases hstep
      have hphase := h.requests i
      rw [htask] at hphase
      exact h.resolve hphase.1 hphase.2
    · cases hstep
  | join i j n =>
    simp only [step] at hstep
    split at hstep
    · next f hi =>
      split at hstep
      · next sha hj hn =>
        cases hstep
        exact h.join hi hj hn (hok f (by rw [hi]; rfl))
      · cases hstep
    · cases hstep
  | answer n info =>
    simp only [step] at hstep
    split at hstep
    · next key flight hn =>
      simp only [Option.ite_none_right_eq_some] at hstep
      obtain ⟨-, ⟨⟩⟩ := hstep
      exact h.answer hn
    · cases hstep
  | collect i j =>
    simp only [step] at hstep
    split at hstep
    · next f hi =>
      split at hstep
      · next sha n hj =>
        obtain ⟨result, hresult, rfl⟩ := Option.map_eq_some_iff.mp hstep
        obtain ⟨⟨key, flight⟩, hn, hresult⟩ := Option.bind_eq_some_iff.mp hresult
        exact h.collect hi hj hn hresult
      · cases hstep
    · cases hstep
  | finish i stored =>
    simp only [step] at hstep
    split at hstep
    · next f hi =>
      split at hstep
      · cases hstep; exact h.finish hi stored
      · cases hstep
    · cases hstep
  | restart =>
    cases hstep
    exact ⟨h.rows, Flights.keyed_empty, fun n key f hn ↦ (by cases hn), fun _ ↦ trivial⟩

end Steps

instance (apps : List NormalizedApp) (canonicalURL : Bytes) : Decidable (Matched lib apps canonicalURL) :=
  inferInstanceAs (Decidable (∃ app ∈ apps, ∃ r ∈ parseRepoURL lib app.repoURL,
    r.canonicalURL = canonicalURL ∧ slash ∉ r.host))

instance (s : State) (f : Fetching) (j : ℕ) : Decidable (Leads s f j) :=
  inferInstanceAs (Decidable (∃ w ∈ f.waiting[j]?, s.flights.calls.lookup (flightKey f.task.ref.canonicalURL w.1) = none))

instance (s : State) : (a : Act) → Decidable (OnHost lib s a)
  | .request _ req => inferInstanceAs (Decidable (∀ task ∈ (handleGetCommits lib s.gh.isSome req).toOption,
      Matched lib task.apps task.ref.canonicalURL))
  | .join i j _ => inferInstanceAs (Decidable (∀ f ∈ (s.requests i).fetching?, Leads s f j → f.task.ref.host = f.gh.host))
  | .setGitHubClient _ | .batchGet _ _ | .resolve _ | .answer _ _ | .collect _ _ | .finish _ _ | .restart => .isTrue trivial

/-- The standard library on two URLs. -/
def twoURLs : Library where
  parseURL raw :=
    if raw = text "https://github.com/org/repo" then some ⟨text "https", text "github.com", text "/org/repo"⟩
    else if raw = text "https://gitlab.com/org/repo" then some ⟨text "https", text "gitlab.com", text "/org/repo"⟩
    else none
  toLower s := s

def github : GitHubClient := ⟨text "github.com", by decide +kernel⟩

/-- A user who sees an application of the repository at `url` asks for one of its commits. -/
def commitOf (url : String) : List Act :=
  [.setGitHubClient (some github), .request 0 ⟨text url, text "abcdef1", some [⟨text url⟩]⟩, .batchGet 0 (fun _ ↦ true),
    .resolve 0, .join 0 0 0, .answer 0 (some ⟨text "abcdef1", text "fix", [], 0, []⟩), .collect 0 0, .finish 0 true]

end KubeCenter.GitProvider
