import Mathlib.Data.List.Nodup
import KubeCenter.GitProvider.CommitConfinement

/-! Where the commits that a call asks for end up. -/

namespace KubeCenter.GitProvider

open KubeCenter.Core Function

variable {lib : Library}

/-- The task of a call to `GetCommits` that is about to return. -/
def Phase.task? : Phase → Option Task
  | .queried task _ => some task
  | .fetching f => some f.task
  | _ => none

def keys (found : List (Bytes × Fetched)) : List Bytes := found.map Prod.fst

/-- A query of the database that does not fail brings a row for the spelling. -/
def Served (rows : List Row) (canonicalURL sha : Bytes) : Prop :=
  ∀ shas, sha ∈ shas → sha ∈ keys (batchGet rows canonicalURL shas)

/-- Every requested spelling has its commit or is unavailable, never both, and there is nothing else. -/
structure Partition (task : Task) (found : List (Bytes × Fetched)) (unavailable : List Bytes) : Prop where
  covered : ∀ sha, sha ∈ task.shas ↔ sha ∈ keys found ∨ sha ∈ unavailable
  apart : ∀ sha ∈ keys found, sha ∉ unavailable
  metadata : ∀ c ∈ found, c.2.info.sha = c.1

/-- Whatever step returns from a call leaves a partition of what was asked for; and as long as it did not fail to store
what it has fetched, every later state of the database serves the same spellings. -/
def Partitions (lib : Library) (s : State) : Prop :=
  ∀ act t, step lib s act = some t → ∀ i task apps found unavailable, (s.requests i).task? = some task →
    t.requests i = .done apps (.commits found unavailable) →
      Partition task found unavailable ∧
        (act ≠ .finish i false → ∀ sha ∈ keys found, ∀ acts u, exec (step lib) t acts = some u →
          Served u.rows task.ref.canonicalURL sha)

/-- No spelling is asked for twice by one call, and the commits that GitHub names come by their full SHA in the spelling
asked for. -/
def SpelledInFull (s : State) : Act → Prop
  | .request _ req => (validSHAs req.shas).Nodup
  | .answer n info => ∀ b ∈ s.flights.body n, ∀ commit ∈ info, commit.sha = b.2.sha
  | _ => True

/-! The rows. -/

def RowFor (rows : List Row) (canonicalURL sha : Bytes) : Prop :=
  ∃ row ∈ rows, row.canonicalURL = canonicalURL ∧ row.commit.info.sha = sha

variable {rows : List Row} {canonicalURL sha : Bytes} {s t : State} {i j n : ℕ}

theorem mem_keys_batchGet {shas : List Bytes} :
    sha ∈ keys (batchGet rows canonicalURL shas) ↔ sha ∈ shas ∧ RowFor rows canonicalURL sha := by
  unfold keys batchGet RowFor
  rw [List.map_map, List.mem_map]
  constructor
  · rintro ⟨row, hrow, rfl⟩
    obtain ⟨hmem, hmatch⟩ := List.mem_filter.mp hrow
    obtain ⟨hurl, hsha⟩ := of_decide_eq_true hmatch
    exact ⟨hsha, row, hmem, hurl, rfl⟩
  · rintro ⟨hsha, row, hmem, hurl, rfl⟩
    exact ⟨row, List.mem_filter.mpr ⟨hmem, decide_eq_true ⟨hurl, hsha⟩⟩, rfl⟩

theorem RowFor.served (h : RowFor rows canonicalURL sha) : Served rows canonicalURL sha :=
  fun _ hsha ↦ mem_keys_batchGet.mpr ⟨hsha, h⟩

theorem RowFor.mono {rows' : List Row} (h : RowFor rows canonicalURL sha) (hsub : rows ⊆ rows') :
    RowFor rows' canonicalURL sha := by
  obtain ⟨row, hmem, hrow⟩ := h
  exact ⟨row, hsub hmem, hrow⟩

theorem named_batchGet {shas : List Bytes} : ∀ c ∈ batchGet rows canonicalURL shas, c.2.info.sha = c.1 := by
  intro c hc
  obtain ⟨row, -, rfl⟩ := List.mem_map.mp hc
  rfl

theorem subset_putRow (rows : List Row) (row : Row) : rows ⊆ putRow rows row := by
  unfold putRow
  split
  · exact List.Subset.refl rows
  · exact List.subset_append_left rows [row]

theorem rowFor_putRow (rows : List Row) (row : Row) :
    RowFor (putRow rows row) row.canonicalURL row.commit.info.sha := by
  unfold putRow
  split
  · next h =>
    obtain ⟨old, hmem, hold⟩ := List.any_eq_true.mp h
    exact ⟨old, hmem, of_decide_eq_true hold⟩
  · exact ⟨row, List.mem_append_right rows List.mem_cons_self, rfl, rfl⟩

theorem subset_foldl_putRow (new rows : List Row) : rows ⊆ new.foldl putRow rows := by
  induction new generalizing rows with
  | nil => exact List.Subset.refl rows
  | cons row new ih => exact List.Subset.trans (subset_putRow rows row) (ih (putRow rows row))

theorem subset_batchPut (rows : List Row) (canonicalURL : Bytes) (infos : List Fetched) :
    rows ⊆ batchPut rows canonicalURL infos :=
  subset_foldl_putRow _ rows

theorem rowFor_batchPut {infos : List Fetched} {commit : Fetched} (h : commit ∈ infos) :
    RowFor (batchPut rows canonicalURL infos) canonicalURL commit.info.sha := by
  unfold batchPut
  induction infos generalizing rows with
  | nil => cases h
  | cons info infos ih =>
    obtain rfl | h := List.mem_cons.mp h
    · exact (rowFor_putRow rows ⟨canonicalURL, commit⟩).mono (subset_foldl_putRow _ _)
    · exact ih h

/-- The database only grows. -/
theorem rows_step {act : Act} (h : step lib s act = some t) : s.rows ⊆ t.rows := by
  cases act with
  | setGitHubClient gh =>
    cases h
    exact List.Subset.refl _
  | request i req =>
    simp only [step] at h
    split at h
    · split at h <;> (cases h; exact List.Subset.refl _)
    · cases h
  | batchGet i shown =>
    simp only [step] at h
    split at h
    · cases h
      exact List.Subset.refl _
    · cases h
  | resolve i =>
    simp only [step] at h
    split at h
    · cases h
      unfold State.resolve
      dsimp only
      split <;> exact List.Subset.refl _
    · cases h
  | join i j n =>
    simp only [step] at h
    split at h
    · split at h
      · cases h
        unfold State.join
        dsimp only
        split <;> exact List.Subset.refl _
      · cases h
    · cases h
  | answer n info =>
    simp only [step] at h
    split at h
    · simp only [Option.ite_none_right_eq_some] at h
      obtain ⟨-, ⟨⟩⟩ := h
      exact List.Subset.refl _
    · cases h
  | collect i j =>
    simp only [step] at h
    split at h
    · split at h
      · obtain ⟨result, -, rfl⟩ := Option.map_eq_some_iff.mp h
        exact List.Subset.refl _
      · cases h
    · cases h
  | finish i stored =>
    simp only [step] at h
    split at h
    · next f hi =>
      split at h
      · cases h
        dsimp only
        split
        · exact subset_batchPut _ _ _
        · exact List.Subset.refl _
      · cases h
    · cases h
  | restart =>
    cases h
    exact List.Subset.refl _

theorem rows_exec {acts : List Act} (h : exec (step lib) s acts = some t) : s.rows ⊆ t.rows := by
  induction acts generalizing s with
  | nil =>
    cases h
    exact List.Subset.refl _
  | cons act acts ih =>
    obtain ⟨u, hu, htail⟩ := Option.bind_eq_some_iff.mp h
    exact List.Subset.trans (rows_step hu) (ih htail)

/-! The invariant. -/

/-- A flight goes by the spelling that it asks for, and brings that commit. -/
structure FlightNamed (key : Bytes) (f : Flight) : Prop where
  key_eq : ∃ canonicalURL, key = flightKey canonicalURL f.sha
  sha : colon ∉ f.sha
  result : ∀ commit, f.result = some (some commit) → commit.info.sha = f.sha

structure TaskDistinct (task : Task) : Prop where
  nodup : task.shas.Nodup
  colon : ∀ sha ∈ task.shas, colon ∉ sha

/-- Of the spellings of a task, those that a list has are the SHAs of its commits. -/
structure CachedOk (task : Task) (cached : List (Bytes × Fetched)) : Prop where
  asked : ∀ sha ∈ keys cached, sha ∈ task.shas
  named : ∀ c ∈ cached, c.2.info.sha = c.1

/-- The spellings that a call still waits for, or has given up. -/
def Fetching.open (f : Fetching) : List Bytes := f.waiting.map Prod.fst ++ f.unavailable

structure FetchingSplit (rows : List Row) (flights : Flights Bytes Flight) (f : Fetching) : Prop where
  task : TaskDistinct f.task
  cached : CachedOk f.task f.cached
  covered : ∀ sha, sha ∈ f.task.shas ↔ sha ∈ keys f.cached ∨ sha ∈ f.open
  apart : ∀ sha ∈ keys f.cached, sha ∉ f.open
  distinct : f.open.Nodup
  kept : ∀ c ∈ f.cached, RowFor rows f.task.ref.canonicalURL c.1 ∨ c.2 ∈ f.fetched
  waiting : ∀ w ∈ f.waiting, ∀ n ∈ w.2, ∃ flight,
    flights.body n = some (flightKey f.task.ref.canonicalURL w.1, flight)

def PhaseSplit (rows : List Row) (flights : Flights Bytes Flight) : Phase → Prop
  | .querying task => TaskDistinct task
  | .queried task cached => TaskDistinct task ∧ CachedOk task cached ∧
    ∀ c ∈ cached, RowFor rows task.ref.canonicalURL c.1
  | .fetching f => FetchingSplit rows flights f
  | _ => True

structure Accounted (s : State) : Prop where
  keyed : s.flights.Keyed
  flights : ∀ n key f, s.flights.body n = some (key, f) → FlightNamed key f
  requests : ∀ i, PhaseSplit s.rows s.flights (s.requests i)

theorem flightKey_sha {c c' sha sha' : Bytes} (h : colon ∉ sha) (h' : colon ∉ sha')
    (heq : flightKey c sha = flightKey c' sha') : sha = sha' := by
  have hcut := congrArg (cutLast colon) heq
  rw [flightKey, flightKey, cutLast_append h, cutLast_append h'] at hcut
  exact (Prod.ext_iff.mp (Option.some.inj hcut)).2

theorem PhaseSplit.extend {flights flights' : Flights Bytes Flight} {p : Phase} (h : PhaseSplit rows flights p)
    (he : Extends flights flights') : PhaseSplit rows flights' p := by
  cases p with
  | fetching f =>
    refine ⟨h.task, h.cached, h.covered, h.apart, h.distinct, h.kept, fun w hw n hn ↦ ?_⟩
    obtain ⟨flight, hflight⟩ := h.waiting w hw n hn
    exact he n _ flight hflight
  | idle | querying task | queried task cached | done apps reply => exact h

theorem PhaseSplit.grow {rows' : List Row} {flights : Flights Bytes Flight} {p : Phase} (h : PhaseSplit rows flights p)
    (hsub : rows ⊆ rows') : PhaseSplit rows' flights p := by
  cases p with
  | fetching f =>
    exact ⟨h.task, h.cached, h.covered, h.apart, h.distinct, fun c hc ↦ (h.kept c hc).imp_left (·.mono hsub), h.waiting⟩
  | queried task cached => exact ⟨h.1, h.2.1, fun c hc ↦ (h.2.2 c hc).mono hsub⟩
  | idle | querying task | done apps reply => exact h

theorem Accounted.setRequest {p : Phase} (h : Accounted s) (hp : PhaseSplit s.rows s.flights p) :
    Accounted (s.setRequest i p) where
  keyed := h.keyed
  flights := h.flights
  requests k := by
    change PhaseSplit s.rows s.flights (update s.requests i p k)
    by_cases hk : k = i
    · rw [hk, update_self]
      exact hp
    · rw [update_of_ne hk]
      exact h.requests k

theorem Accounted.fetching {f : Fetching} (h : Accounted s) (hi : s.requests i = .fetching f) :
    FetchingSplit s.rows s.flights f := by
  have hphase := h.requests i
  rwa [hi] at hphase

theorem mem_missing {shas : List Bytes} {cached : List (Bytes × Fetched)} :
    sha ∈ shas.filter (fun sha ↦ sha ∉ cached.map Prod.fst) ↔ sha ∈ shas ∧ sha ∉ keys cached := by
  rw [List.mem_filter, decide_eq_true_eq]
  rfl

/-- What the database has and what is missing make a partition. -/
theorem partition_missing {task : Task} {cached : List (Bytes × Fetched)} (h : CachedOk task cached) :
    Partition task cached (task.shas.filter (fun sha ↦ sha ∉ cached.map Prod.fst)) where
  covered sha := by
    rw [mem_missing]
    constructor
    · intro hsha
      by_cases hkey : sha ∈ keys cached
      · exact .inl hkey
      · exact .inr ⟨hsha, hkey⟩
    · rintro (hkey | hmissing)
      · exact h.asked sha hkey
      · exact hmissing.1
  apart sha hkey hmissing := (mem_missing.mp hmissing).2 hkey
  metadata := h.named

theorem Accounted.resolve {task : Task} {cached : List (Bytes × Fetched)} (h : Accounted s)
    (htask : TaskDistinct task) (hcached : CachedOk task cached)
    (hrows : ∀ c ∈ cached, RowFor s.rows task.ref.canonicalURL c.1) : Accounted (s.resolve i task cached) := by
  unfold State.resolve
  dsimp only
  split
  · next sha shas gh hmissing _ =>
    have hpartition := partition_missing hcached
    have hnodup : (task.shas.filter (fun sha ↦ sha ∉ cached.map Prod.fst)).Nodup := htask.nodup.filter _
    rw [hmissing] at hpartition hnodup
    have hopen : ∀ f : Fetching, f.waiting = (sha :: shas).map (fun sha ↦ (sha, none)) → f.unavailable = [] →
        f.open = sha :: shas := by
      intro f hwaiting hunavailable
      rw [Fetching.open, hwaiting, hunavailable, List.append_nil, List.map_map]
      exact List.map_id _
    refine h.setRequest ⟨htask, hcached, ?_, ?_, ?_, fun c hc ↦ .inl (hrows c hc), fun w hw n hn ↦ ?_⟩
    · rw [hopen _ rfl rfl]
      exact hpartition.covered
    · rw [hopen _ rfl rfl]
      exact hpartition.apart
    · rw [hopen _ rfl rfl]
      exact hnodup
    · obtain ⟨x, -, rfl⟩ := List.mem_map.mp hw
      cases hn
  · exact h.setRequest trivial

theorem map_fst_set {l : List (Bytes × Option ℕ)} {x y : Option ℕ} (h : l[j]? = some (sha, x)) :
    (l.set j (sha, y)).map Prod.fst = l.map Prod.fst := by
  induction l generalizing j with
  | nil => cases h
  | cons w l ih =>
    cases j with
    | zero =>
      cases h
      rfl
    | succ j => exact congrArg (w.1 :: ·) (ih h)

theorem FetchingSplit.waits {f : Fetching} {flights : Flights Bytes Flight} {m : ℕ} {flight : Flight}
    (h : FetchingSplit rows flights f) (hj : f.waiting[j]? = some (sha, none))
    (hm : flights.body m = some (flightKey f.task.ref.canonicalURL sha, flight)) :
    FetchingSplit rows flights { f with waiting := f.waiting.set j (sha, some m) } := by
  have hopen : Fetching.open { f with waiting := f.waiting.set j (sha, some m) } = f.open := by
    unfold Fetching.open
    rw [map_fst_set hj]
  refine ⟨h.task, h.cached, ?_, ?_, ?_, h.kept, fun w hw k hk ↦ ?_⟩
  · rw [hopen]
    exact h.covered
  · rw [hopen]
    exact h.apart
  · rw [hopen]
    exact h.distinct
  · obtain hw | rfl := List.mem_or_eq_of_mem_set hw
    · exact h.waiting w hw k hk
    · obtain rfl : m = k := Option.some.inj hk
      exact ⟨flight, hm⟩

theorem FetchingSplit.asked {f : Fetching} {flights : Flights Bytes Flight} {x : Option ℕ}
    (h : FetchingSplit rows flights f) (hj : f.waiting[j]? = some (sha, x)) : sha ∈ f.task.shas := by
  refine (h.covered sha).mpr (.inr (List.mem_append_left _ ?_))
  exact List.mem_map.mpr ⟨(sha, x), List.mem_of_getElem? hj, rfl⟩

theorem Accounted.join {f : Fetching} (h : Accounted s) (hi : s.requests i = .fetching f)
    (hj : f.waiting[j]? = some (sha, none)) (hn : s.flights.body n = none) : Accounted (s.join i j n f sha) := by
  have hf := h.fetching hi
  have hsha := hf.task.colon sha (hf.asked hj)
  unfold State.join
  dsimp only
  cases hlookup : s.flights.calls.lookup (flightKey f.task.ref.canonicalURL sha) with
  | some m =>
    obtain ⟨flight, hm⟩ := h.keyed _ m hlookup
    exact h.setRequest (hf.waits hj hm)
  | none =>
    have hextends : Extends s.flights (s.flights.lead (flightKey f.task.ref.canonicalURL sha) n
        { gh := f.gh, owner := f.task.ref.owner, repo := f.task.ref.repo, sha }) := by
      intro k key flight hk
      have hkn : k ≠ n := fun heq ↦ by rw [heq, hn] at hk; cases hk
      exact ⟨flight, by rw [Flights.body_lead_ne _ hkn, hk]⟩
    refine ⟨h.keyed.lead hn _, fun k key flight hk ↦ ?_, fun k ↦ ?_⟩
    · by_cases hkn : k = n
      · rw [hkn, Flights.body_lead_self] at hk
        cases hk
        exact ⟨⟨_, rfl⟩, hsha, fun _ hr ↦ by cases hr⟩
      · rw [Flights.body_lead_ne _ hkn] at hk
        exact h.flights k key flight hk
    · change PhaseSplit s.rows _ (update s.requests i _ k)
      by_cases hk : k = i
      · rw [hk, update_self]
        exact FetchingSplit.waits (PhaseSplit.extend (p := .fetching f) hf hextends) hj (Flights.body_lead_self _ _ _ _)
      · rw [update_of_ne hk]
        exact (h.requests k).extend hextends

theorem Accounted.answer {key : Bytes} {flight : Flight} {info : Option CommitInfo} (h : Accounted s)
    (hn : s.flights.body n = some (key, flight)) (hnamed : ∀ commit ∈ info, commit.sha = flight.sha) :
    Accounted (s.answer n flight info) := by
  have hok := h.flights n key flight hn
  have hextends : Extends s.flights (s.answer n flight info).flights := by
    intro k key' flight' hk
    change ∃ f', ((s.flights.advance n _).land n).body k = some (key', f')
    rw [Flights.body_land]
    by_cases hkn : k = n
    · subst hkn
      exact ⟨_, Flights.body_advance_self _ hk⟩
    · exact ⟨flight', by rw [Flights.body_advance_ne _ hkn, hk]⟩
  refine ⟨(h.keyed.advance n _).land n, fun k key' flight' hk ↦ ?_, fun k ↦ (h.requests k).extend hextends⟩
  change ((s.flights.advance n _).land n).body k = some (key', flight') at hk
  rw [Flights.body_land] at hk
  by_cases hkn : k = n
  · subst hkn
    rw [Flights.body_advance_self _ hn] at hk
    cases hk
    refine ⟨hok.key_eq, hok.sha, fun commit hresult ↦ ?_⟩
    obtain ⟨info', hinfo, rfl⟩ := Option.map_eq_some_iff.mp (Option.some.inj hresult)
    exact hnamed info' hinfo
  · rw [Flights.body_advance_ne _ hkn] at hk
    exact h.flights k key' flight' hk

theorem mem_keys_setCommit {found : List (Bytes × Fetched)} {commit : Fetched} {x : Bytes} :
    x ∈ keys (setCommit found sha commit) ↔ x ∈ keys found ∨ x = sha := by
  unfold keys setCommit
  rw [List.map_append, List.mem_append, List.map_singleton, List.mem_singleton]
  by_cases hx : x = sha
  · exact iff_of_true (.inr hx) (.inr hx)
  · refine or_congr_left ?_
    simp only [List.mem_map, List.mem_filter, decide_eq_true_eq]
    constructor
    · rintro ⟨c, ⟨hc, -⟩, rfl⟩
      exact ⟨c, hc, rfl⟩
    · rintro ⟨c, hc, rfl⟩
      exact ⟨c, ⟨hc, hx⟩, rfl⟩

/-- A goroutine that has its result leaves the others with the other spellings. -/
theorem open_perm {f : Fetching} {x : Option ℕ} (hj : f.waiting[j]? = some (sha, x)) :
    f.open.Perm (sha :: ((f.waiting.eraseIdx j).map Prod.fst ++ f.unavailable)) := by
  obtain ⟨hlt, hget⟩ := List.getElem?_eq_some_iff.mp hj
  have hperm : f.waiting.Perm ((sha, x) :: f.waiting.eraseIdx j) := by
    have hsplit : f.waiting = f.waiting.take j ++ (sha, x) :: f.waiting.drop (j + 1) := by
      rw [← hget, List.getElem_cons_drop, List.take_append_drop]
    rw [List.eraseIdx_eq_take_drop_succ]
    exact (List.Perm.of_eq hsplit).trans List.perm_middle
  exact (hperm.map Prod.fst).append_right f.unavailable

theorem Accounted.collect {f : Fetching} {key : Bytes} {flight : Flight} {result : Option Fetched} (h : Accounted s)
    (hi : s.requests i = .fetching f) (hj : f.waiting[j]? = some (sha, some n))
    (hn : s.flights.body n = some (key, flight)) (hresult : flight.result = some result) :
    Accounted (s.collect i j f sha result) := by
  have hf := h.fetching hi
  have hperm := open_perm hj
  have hwaiting : ∀ w ∈ f.waiting.eraseIdx j, ∀ n ∈ w.2, ∃ flight,
      s.flights.body n = some (flightKey f.task.ref.canonicalURL w.1, flight) :=
    fun w hw ↦ hf.waiting w (List.mem_of_mem_eraseIdx hw)
  unfold State.collect
  dsimp only
  refine h.setRequest ?_
  cases result with
  | none =>
    have hmoved : Fetching.open { f with waiting := f.waiting.eraseIdx j, unavailable := f.unavailable ++ [sha] } =
        (f.waiting.eraseIdx j).map Prod.fst ++ f.unavailable ++ [sha] := by
      unfold Fetching.open
      rw [List.append_assoc]
    have hsame := hperm.trans (List.perm_append_singleton sha _).symm
    rw [← hmoved] at hsame
    exact ⟨hf.task, hf.cached, fun x ↦ (hf.covered x).trans (or_congr_right hsame.mem_iff),
      fun x hx hopen ↦ hf.apart x hx (hsame.mem_iff.mpr hopen), hsame.nodup_iff.mp hf.distinct, hf.kept, hwaiting⟩
  | some commit =>
    have hdistinct := List.nodup_cons.mp (hperm.nodup_iff.mp hf.distinct)
    have hnamed : commit.info.sha = sha := by
      obtain ⟨flight', hflight⟩ := hf.waiting _ (List.mem_of_getElem? hj) n rfl
      rw [hn] at hflight
      cases hflight
      have hok := h.flights n _ flight hn
      obtain ⟨url, hkey⟩ := hok.key_eq
      rw [hok.result commit hresult]
      exact (flightKey_sha (hf.task.colon sha (hf.asked hj)) hok.sha hkey).symm
    refine ⟨hf.task, ⟨fun x hx ↦ ?_, fun c hc ↦ ?_⟩, fun x ↦ ?_, fun x hx hopen ↦ ?_, hdistinct.2, fun c hc ↦ ?_, hwaiting⟩
    · obtain hx | rfl := mem_keys_setCommit.mp hx
      · exact hf.cached.asked x hx
      · exact hf.asked hj
    · obtain hc | hc := List.mem_append.mp hc
      · exact hf.cached.named c (List.mem_filter.mp hc).1
      · rw [List.mem_singleton.mp hc]
        exact hnamed
    · rw [hf.covered, hperm.mem_iff, mem_keys_setCommit, List.mem_cons, ← or_assoc]
      rfl
    · obtain hx | rfl := mem_keys_setCommit.mp hx
      · exact hf.apart x hx (hperm.mem_iff.mpr (List.mem_cons_of_mem _ hopen))
      · exact hdistinct.1 hopen
    · obtain hc | hc := List.mem_append.mp hc
      · exact (hf.kept c (List.mem_filter.mp hc).1).imp_right (List.mem_append_left _)
      · rw [List.mem_singleton.mp hc]
        exact .inr (List.mem_append_right _ List.mem_cons_self)

theorem Accounted.finish {f : Fetching} (h : Accounted s) (i : ℕ) (stored : Bool) :
    Accounted { s.setRequest i (.done f.task.apps (.commits f.cached f.unavailable)) with
      rows := if stored then batchPut s.rows f.task.ref.canonicalURL f.fetched else s.rows } := by
  have hdone : Accounted (s.setRequest i (.done f.task.apps (.commits f.cached f.unavailable))) :=
    h.setRequest trivial
  refine ⟨hdone.keyed, hdone.flights, fun k ↦ (hdone.requests k).grow ?_⟩
  dsimp only
  split
  · exact subset_batchPut _ _ _
  · exact List.Subset.refl _

theorem accounted_step {act : Act} (h : Accounted s) (hok : SpelledInFull s act) (hstep : step lib s act = some t) :
    Accounted t := by
  cases act with
  | setGitHubClient gh =>
    cases hstep
    exact ⟨h.keyed, h.flights, h.requests⟩
  | request i req =>
    simp only [step] at hstep
    split at hstep
    · split at hstep
      · cases hstep
        exact h.setRequest trivial
      · next task htask =>
        cases hstep
        have hshas := (handleGetCommits_ok htask).2
        refine h.setRequest ⟨?_, ?_⟩
        · rw [hshas]
          exact hok
        · rw [hshas]
          exact validSHAs_colon req.shas
    · cases hstep
  | batchGet i shown =>
    simp only [step] at hstep
    split at hstep
    · next task htask =>
      cases hstep
      have hphase := h.requests i
      rw [htask] at hphase
      have hkeys : ∀ sha ∈ keys (batchGet (s.rows.filter shown) task.ref.canonicalURL task.shas),
          sha ∈ task.shas ∧ RowFor s.rows task.ref.canonicalURL sha := fun sha hsha ↦
        (mem_keys_batchGet.mp hsha).imp_right (·.mono (List.filter_subset_self _))
      exact h.setRequest (p := .queried task _) ⟨hphase, ⟨fun sha hsha ↦ (hkeys sha hsha).1, named_batchGet⟩,
        fun c hc ↦ (hkeys c.1 (List.mem_map.mpr ⟨c, hc, rfl⟩)).2⟩
    · cases hstep
  | resolve i =>
    simp only [step] at hstep
    split at hstep
    · next task cached htask =>
      cases hstep
      have hphase := h.requests i
      rw [htask] at hphase
      exact h.resolve hphase.1 hphase.2.1 hphase.2.2
    · cases hstep
  | join i j n =>
    simp only [step] at hstep
    split at hstep
    · next f hi =>
      split at hstep
      · next sha hj hn =>
        cases hstep
        exact h.join hi hj hn
      · cases hstep
    · cases hstep
  | answer n info =>
    simp only [step] at hstep
    split at hstep
    · next key flight hn =>
      simp only [Option.ite_none_right_eq_some] at hstep
      obtain ⟨-, ⟨⟩⟩ := hstep
      exact h.answer hn (hok (key, flight) hn)
    · cases hstep
  | collect i j =>
    simp only [step] at hstep
    split at hstep
    · next f hi =>
      split at hstep
      · next sha n hj =>
        obtain ⟨result, hresult, rfl⟩ := Option.map_eq_some_iff.mp hstep
        obtain ⟨⟨key, flight⟩, hn, hresult⟩ := Option.bind_eq_some_iff.mp hresult
        exact h.collect hi hj hn hresult
      · cases hstep
    · cases hstep
  | finish i stored =>
    simp only [step] at hstep
    split at hstep
    · next f hi =>
      split at hstep
      · cases hstep
        exact h.finish i stored
      · cases hstep
    · cases hstep
  | restart =>
    cases hstep
    exact ⟨Flights.keyed_empty, fun n key f hn ↦ (by cases hn), fun _ ↦ trivial⟩

/-! What a call returns. -/

/-- A request that goes from its task to a reply does it by one of two steps. -/
theorem returned {act : Act} {task : Task} {apps : List NormalizedApp} {found : List (Bytes × Fetched)}
    {unavailable : List Bytes} (hstep : step lib s act = some t) (htask : (s.requests i).task? = some task)
    (hdone : t.requests i = .done apps (.commits found unavailable)) :
    (∃ cached, s.requests i = .queried task cached ∧ found = cached ∧
      unavailable = task.shas.filter (fun sha ↦ sha ∉ cached.map Prod.fst) ∧ t.rows = s.rows) ∨
    ∃ f stored, s.requests i = .fetching f ∧ f.task = task ∧ f.waiting = [] ∧ act = .finish i stored ∧ found = f.cached ∧
      unavailable = f.unavailable ∧
        t.rows = if stored then batchPut s.rows task.ref.canonicalURL f.fetched else s.rows := by
  have hnot : t.requests i ≠ s.requests i := by
    intro hsame
    rw [← hsame, hdone] at htask
    cases htask
  have hmoved : ∀ k p, t.requests = update s.requests k p → i = k ∧ p = .done apps (.commits found unavailable) := by
    intro k p hreq
    by_cases hk : i = k
    · rw [hreq, hk, update_self] at hdone
      exact ⟨hk, hdone⟩
    · exact absurd (by rw [hreq, update_of_ne hk]) hnot
  cases act with
  | setGitHubClient gh =>
    cases hstep
    exact absurd rfl hnot
  | request k req =>
    simp only [step] at hstep
    split at hstep
    · next hidle =>
      split at hstep <;>
        (cases hstep
         obtain ⟨rfl, -⟩ := hmoved k _ rfl
         rw [hidle] at htask
         cases htask)
    · cases hstep
  | batchGet k shown =>
    simp only [step] at hstep
    split at hstep
    · next hquerying =>
      cases hstep
      obtain ⟨rfl, -⟩ := hmoved k _ rfl
      rw [hquerying] at htask
      cases htask
    · cases hstep
  | resolve k =>
    simp only [step] at hstep
    split at hstep
    · next task' cached hqueried =>
      cases hstep
      unfold State.resolve at hmoved ⊢
      dsimp only at hmoved ⊢
      split at hmoved
      · obtain ⟨-, hreply⟩ := hmoved k _ rfl
        cases hreply
      · obtain ⟨rfl, hreply⟩ := hmoved k _ rfl
        rw [hqueried] at htask
        cases htask
        cases hreply
        exact .inl ⟨_, hqueried, rfl, rfl, rfl⟩
    · cases hstep
  | join k j n =>
    simp only [step] at hstep
    split at hstep
    · split at hstep
      · cases hstep
        unfold State.join at hmoved
        dsimp only at hmoved
        split at hmoved <;>
          (obtain ⟨-, hreply⟩ := hmoved k _ rfl
           cases hreply)
      · cases hstep
    · cases hstep
  | answer n info =>
    simp only [step] at hstep
    split at hstep
    · simp only [Option.ite_none_right_eq_some] at hstep
      obtain ⟨-, ⟨⟩⟩ := hstep
      exact absurd rfl hnot
    · cases hstep
  | collect k j =>
    simp only [step] at hstep
    split at hstep
    · split at hstep
      · obtain ⟨result, -, rfl⟩ := Option.map_eq_some_iff.mp hstep
        obtain ⟨-, hreply⟩ := hmoved k _ rfl
        cases hreply
      · cases hstep
    · cases hstep
  | finish k stored =>
    simp only [step] at hstep
    split at hstep
    · next f hi =>
      split at hstep
      · next hwaiting =>
        cases hstep
        obtain ⟨rfl, hreply⟩ := hmoved k _ rfl
        rw [hi] at htask
        cases htask
        cases hreply
        exact .inr ⟨f, stored, hi, rfl, hwaiting, rfl, rfl, rfl, rfl⟩
      · cases hstep
    · cases hstep
  | restart =>
    cases hstep
    cases hdone

theorem Accounted.partitions (h : Accounted s) : Partitions lib s := by
  intro act t hstep i task apps found unavailable htask hdone
  have hphase := h.requests i
  have hserved : (∀ sha ∈ keys found, act ≠ .finish i false → RowFor t.rows task.ref.canonicalURL sha) →
      act ≠ .finish i false → ∀ sha ∈ keys found, ∀ acts u, exec (step lib) t acts = some u →
        Served u.rows task.ref.canonicalURL sha :=
    fun hrows hact sha hsha acts u hexec ↦ ((hrows sha hsha hact).mono (rows_exec hexec)).served
  obtain ⟨cached, hi, rfl, rfl, hrows⟩ | ⟨f, stored, hi, rfl, hwaiting, rfl, rfl, rfl, hrows⟩ :=
    returned hstep htask hdone
  · rw [hi] at hphase htask
    cases htask
    refine ⟨partition_missing hphase.2.1, hserved fun sha hsha _ ↦ ?_⟩
    obtain ⟨c, hc, rfl⟩ := List.mem_map.mp hsha
    rw [hrows]
    exact hphase.2.2 c hc
  · rw [hi] at hphase
    have hf : FetchingSplit s.rows s.flights f := hphase
    have hopen : f.open = f.unavailable := by
      rw [Fetching.open, hwaiting]
      rfl
    have hcovered := hf.covered
    have hapart := hf.apart
    rw [hopen] at hcovered hapart
    refine ⟨⟨hcovered, hapart, hf.cached.named⟩, hserved fun sha hsha hact ↦ ?_⟩
    have hstored : stored = true := by
      cases stored with
      | false => exact absurd rfl hact
      | true => rfl
    obtain ⟨c, hc, rfl⟩ := List.mem_map.mp hsha
    rw [hrows, if_pos hstored]
    obtain hrow | hfetched := hf.kept c hc
    · exact hrow.mono (subset_batchPut _ _ _)
    · rw [← hf.cached.named c hc]
      exact rowFor_batchPut hfetched

instance (s : State) : (a : Act) → Decidable (SpelledInFull s a)
  | .request _ req => inferInstanceAs (Decidable (validSHAs req.shas).Nodup)
  | .answer n info => inferInstanceAs (Decidable (∀ b ∈ s.flights.body n, ∀ commit ∈ info, commit.sha = b.2.sha))
  | .setGitHubClient _ | .batchGet _ _ | .resolve _ | .join _ _ _ | .collect _ _ | .finish _ _ | .restart =>
    .isTrue trivial

def fullSHA : String := "0123456789abcdef0123456789abcdef01234567"

def theCommit : CommitInfo := ⟨text fullSHA, text "fix", [], 0, []⟩

/-- A request for `shas`, of which each goroutine in turn joins a flight and has its answer. -/
def callFor (shas : String) (answers : List (Option CommitInfo)) : List Act :=
  [.request 0 ⟨text "https://github.com/org/repo", text shas, some [⟨text "https://github.com/org/repo"⟩]⟩,
    .batchGet 0 (fun _ ↦ true), .resolve 0] ++
    answers.zipIdx.flatMap (fun a ↦ [.join 0 0 a.2, .answer a.2 a.1, .collect 0 0])

/-- What request 0 has to show as it ends: the call's fetched and its unavailable spellings. -/
def clashes (s : State) : Bool :=
  match s.requests 0 with
  | .done _ _ | .queried _ _ | .querying _ | .idle => false
  | .fetching f => f.waiting.isEmpty && f.cached.any (fun c ↦ f.unavailable.contains c.1)

theorem Partitions.not_clashes (h : Partitions lib s) : clashes s = false := by
  unfold clashes
  split
  case h_5 f hi =>
    rw [Bool.and_eq_false_imp, List.isEmpty_iff, List.any_eq_false]
    intro hwaiting c hc
    have hstep : ∃ t, step lib s (.finish 0 true) = some t ∧
        t.requests 0 = .done f.task.apps (.commits f.cached f.unavailable) := by
      simp only [step, hi, hwaiting]
      exact ⟨_, rfl, update_self 0 _ s.requests⟩
    obtain ⟨t, ht, hdone⟩ := hstep
    have hpartition := (h _ t ht 0 f.task _ _ _ (by rw [hi]; rfl) hdone).1
    rw [List.contains_iff_mem]
    exact hpartition.apart c.1 (List.mem_map.mpr ⟨c, hc, rfl⟩)
  all_goals rfl

end KubeCenter.GitProvider
