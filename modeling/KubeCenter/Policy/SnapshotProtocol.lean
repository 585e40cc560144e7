import KubeCenter.Core.Runs
import KubeCenter.Core.Singleflight
import KubeCenter.Policy.Fetch

/-! Requests for compliance scores and the recorder's daily snapshots over one cache of fetched data. -/

namespace KubeCenter.Policy.Protocol

open KubeCenter.Core Function

def policyCacheTTL : ℕ := 30 * 1000000000

def snapshotRetentionDays : ℕ := 90

/-- What a user may see: the answers of the access checks of the two filters, by namespace. -/
structure Viewer where
  admin : Bool
  policyNamespaces : String → Bool
  violationNamespaces : String → Bool

/-- The test of `filterPoliciesByRBAC`. -/
def Viewer.seesPolicy (v : Viewer) (p : NormalizedPolicy) : Bool := p.ns = "" || v.policyNamespaces p.ns

/-- The test of `filterViolationsByRBAC`. -/
def Viewer.seesViolation (v : Viewer) (x : NormalizedViolation) : Bool :=
  if x.ns = "" then v.admin else v.violationNamespaces x.ns

/-- Data with its history, the fetch it comes from. -/
structure CachedData where
  data : PolicyData
  fetchedAt : ℕ
  fetch : Fetch

/-- How far the shared fetch is; it listens to the generation it has read. -/
inductive Stage
  | entered
  | listing (gen : ℕ)
  | returned (data : CachedData)

inductive Call
  | idle
  | missed
  | waiting (flight : ℕ)
  | done (data : CachedData)
  | ended

/-- A score a user got, and the fetch behind it. -/
structure Answer where
  viewer : Viewer
  score : ComplianceScore
  fetch : Fetch

/-- A row of the snapshot table, and the fetch behind it. -/
structure ComplianceSnapshot where
  overallScore : ℚ
  pass : ℕ
  fail : ℕ
  warn : ℕ
  total : ℕ

structure Stored where
  snapshot : ComplianceSnapshot
  fetch : Fetch

structure State where
  now : ℕ := 0
  cache : Option CachedData := none
  cacheGen : ℕ := 0
  fetchGroup : Flights String Stage := {}
  calls : ℕ → Call := fun _ ↦ .idle
  answers : List Answer := []
  snapshots : GoMap ℕ Stored := ∅

/-- `check` to `wake` are the statements of `fetchPoliciesAndViolations`, on behalf of a request, which ends with
`respond`, or of the recorder, which ends with `record`; `fetch` is `doFetch` from its list calls on. -/
inductive Act
  | check (i : ℕ)
  | enter (i : ℕ)
  | start (i : ℕ)
  | fetch (i : ℕ) (f : Fetch)
  | wake (i : ℕ)
  | respond (i : ℕ) (viewer : Viewer) (scope : String)
  | record (i : ℕ) (date : ℕ)
  | cleanup (today : ℕ)
  | invalidateCache
  | advance (d : ℕ)

def ComplianceSnapshot.ofScore (score : ComplianceScore) : ComplianceSnapshot :=
  { overallScore := score.score, pass := score.pass, fail := score.fail, warn := score.warn, total := score.total }

/-- The score that a recorder takes of data, and a request of what its user sees of it. -/
def recordedScore (d : PolicyData) : ComplianceScore := computeCompliance d.policies d.violations ""

def Viewer.score (v : Viewer) (d : PolicyData) (scope : String) : ComplianceScore :=
  d.score v.seesPolicy v.seesViolation scope

namespace State

variable (std : Stdlib) (s : State)

def setCall (i : ℕ) (c : Call) : State := { s with calls := update s.calls i c }

theorem setCall_self (i : ℕ) (c : Call) : (s.setCall i c).calls i = c := update_self ..

theorem setCall_ne {i j : ℕ} (hj : j ≠ i) (c : Call) : (s.setCall i c).calls j = s.calls j := update_of_ne hj ..

def fresh : Option CachedData := s.cache.filter (fun data ↦ s.now < data.fetchedAt + policyCacheTTL)

/-- A fetch returns its data and stores it unless the cache has been invalidated since it began. -/
def finish (i gen : ℕ) (f : Fetch) : State :=
  let data : CachedData := { data := doFetch std f, fetchedAt := s.now, fetch := f }
  { s with
    cache := if s.cacheGen = gen then some data else s.cache
    fetchGroup := (s.fetchGroup.advance i (.returned data)).land i }

def answer (i : ℕ) (data : CachedData) (viewer : Viewer) (scope : String) : State :=
  { s.setCall i .ended with answers := ⟨viewer, viewer.score data.data scope, data.fetch⟩ :: s.answers }

def insertSnapshot (i : ℕ) (data : CachedData) (date : ℕ) : State :=
  { s.setCall i .ended with
    snapshots := s.snapshots.insert date ⟨.ofScore (recordedScore data.data), data.fetch⟩ }

end State

def step (std : Stdlib) (s : State) : Act → Option State
  | .check i =>
    match s.calls i with
    | .idle =>
      match s.fresh with
      | some data => some (s.setCall i (.done data))
      | none => some (s.setCall i .missed)
    | _ => none
  | .enter i =>
    match s.calls i with
    | .missed =>
      match s.fetchGroup.calls.lookup "fetch" with
      | some j => some (s.setCall i (.waiting j))
      | none => some { s.setCall i (.waiting i) with fetchGroup := s.fetchGroup.lead "fetch" i .entered }
    | _ => none
  | .start i =>
    match s.fetchGroup.body i with
    | some (_, .entered) => some { s with fetchGroup := s.fetchGroup.advance i (.listing s.cacheGen) }
    | _ => none
  | .fetch i f =>
    match s.fetchGroup.body i with
    | some (_, .listing gen) => some (s.finish std i gen f)
    | _ => none
  | .wake i =>
    match s.calls i with
    | .waiting j =>
      match s.fetchGroup.body j with
      | some (_, .returned data) => some (s.setCall i (.done data))
      | _ => none
    | _ => none
  | .respond i viewer scope =>
    match s.calls i with
    | .done data => some (s.answer i data viewer scope)
    | _ => none
  | .record i date =>
    match s.calls i with
    | .done data => some (s.insertSnapshot i data date)
    | _ => none
  | .cleanup today =>
    some { s with snapshots := s.snapshots.filter (fun date ↦ today ≤ date + snapshotRetentionDays) }
  | .invalidateCache => some { s with cacheGen := s.cacheGen + 1, cache := none }
  | .advance d => some { s with now := s.now + d }

section Safety

variable {std : Stdlib} {s t : State} {i j gen : ℕ} {d : CachedData} {f : Fetch} {a : Act}

/-- Every score of the data, whoever reads it, is that of the complete data. -/
def Exact (std : Stdlib) (d : CachedData) : Prop :=
  ∀ p q scope, d.data.score p q scope = (completeData std d.fetch).score p q scope

structure Sound (std : Stdlib) (s : State) : Prop where
  fetched : ∀ i k d, s.fetchGroup.body i = some (k, .returned d) → Exact std d
  cached : ∀ d, s.cache = some d → Exact std d
  returned : ∀ i d, s.calls i = .done d → Exact std d
  answered : ∀ x ∈ s.answers, x.score = x.viewer.score (completeData std x.fetch) x.score.scope
  stored : ∀ date x, s.snapshots.lookup date = some x →
    x.snapshot = .ofScore (recordedScore (completeData std x.fetch))

/-- A fetch loses nothing: what its failing calls would have listed holds no policy and no violation, nor do the
constraint kinds past the first hundred. -/
def LosesNothing (std : Stdlib) (_ : State) : Act → Prop
  | .fetch _ f => (lostData std f).policies = [] ∧ (lostData std f).violations = []
  | _ => True

theorem exact_iff (now : ℕ) : Exact std ⟨doFetch std f, now, f⟩ ↔
    (lostData std f).policies = [] ∧ (lostData std f).violations = [] := by
  constructor
  · intro h
    have hall := score_doFetch_iff.mp (h (fun _ ↦ true) (fun _ ↦ true) "")
    have hscope : inScope "" = fun _ ↦ true := rfl
    simpa only [hscope, List.filter_true] using hall
  · intro ⟨hp, hv⟩ p q scope
    apply score_doFetch_iff.mpr
    rw [hp, hv]
    exact ⟨rfl, rfl⟩

theorem Exact.recorded (h : Exact std d) : recordedScore d.data = recordedScore (completeData std d.fetch) := by
  have hall := h (fun _ ↦ true) (fun _ ↦ true) ""
  simp only [PolicyData.score, List.filter_true] at hall
  exact hall

theorem sound_init : Sound std {} where
  fetched := fun _ _ _ h ↦ by cases h
  cached := fun _ h ↦ by cases h
  returned := fun _ _ h ↦ by cases h
  answered := fun _ h ↦ absurd h List.not_mem_nil
  stored := fun _ _ h ↦ by cases h

theorem Sound.setCall (h : Sound std s) {c : Call} (hc : ∀ d, c = .done d → Exact std d) :
    Sound std (s.setCall i c) where
  fetched := h.fetched
  cached := h.cached
  returned := by
    intro j d hj
    by_cases hij : j = i
    · subst hij
      rw [State.setCall_self] at hj
      exact hc d hj
    · rw [State.setCall_ne _ hij] at hj
      exact h.returned j d hj
  answered := h.answered
  stored := h.stored

theorem Sound.of_group (h : Sound std s) {fetchGroup : Flights String Stage}
    (hbody : ∀ i k d, fetchGroup.body i = some (k, .returned d) → Exact std d) :
    Sound std { s with fetchGroup } where
  fetched := hbody
  cached := h.cached
  returned := h.returned
  answered := h.answered
  stored := h.stored

/-- A flight that moves on leaves the results of the others as they are. -/
theorem Sound.advance (h : Sound std s) {stage : Stage} (hstage : ∀ d, stage = .returned d → Exact std d) :
    ∀ j k d, (s.fetchGroup.advance i stage).body j = some (k, .returned d) → Exact std d := by
  intro j k d hj
  by_cases hij : j = i
  · subst hij
    cases hb : s.fetchGroup.body j with
    | none =>
      rw [Flights.body_advance_none _ hb] at hj
      cases hj
    | some b =>
      rw [Flights.body_advance_self _ hb] at hj
      exact hstage d (Prod.mk.inj (Option.some.inj hj)).2
  · rw [Flights.body_advance_ne _ hij] at hj
    exact h.fetched j k d hj

theorem Sound.finish (h : Sound std s) (hexact : Exact std ⟨doFetch std f, s.now, f⟩) :
    Sound std (s.finish std i gen f) where
  fetched := by
    intro j k d hj
    rw [State.finish, Flights.body_land] at hj
    exact h.advance (fun d hd ↦ by cases hd; exact hexact) j k d hj
  cached := by
    intro d hd
    dsimp only [State.finish] at hd
    split at hd
    · cases hd
      exact hexact
    · exact h.cached d hd
  returned := h.returned
  answered := h.answered
  stored := h.stored

theorem Sound.step (h : Sound std s) (hok : LosesNothing std s a) (ht : step std s a = some t) : Sound std t := by
  cases a with
  | check i =>
    simp only [Protocol.step] at ht
    split at ht
    · split at ht
      · next d hfresh =>
        cases ht
        have hcache := (Option.filter_eq_some_iff.mp hfresh).1
        exact h.setCall fun d' hd ↦ by cases hd; exact h.cached d hcache
      · cases ht
        exact h.setCall fun d' hd ↦ by cases hd
    · cases ht
  | enter i =>
    simp only [Protocol.step] at ht
    split at ht
    · split at ht
      · cases ht
        exact h.setCall fun d' hd ↦ by cases hd
      · cases ht
        have hset : Sound std (s.setCall i (.waiting i)) := h.setCall fun d' hd ↦ by cases hd
        apply hset.of_group
        intro j k d hj
        by_cases hij : j = i
        · subst hij
          rw [Flights.body_lead_self] at hj
          cases hj
        · rw [Flights.body_lead_ne _ hij] at hj
          exact h.fetched j k d hj
    · cases ht
  | start i =>
    simp only [Protocol.step] at ht
    split at ht
    · cases ht
      exact h.of_group (h.advance fun d hd ↦ by cases hd)
    · cases ht
  | fetch i f =>
    simp only [Protocol.step] at ht
    split at ht
    · cases ht
      exact h.finish ((exact_iff s.now).mpr hok)
    · cases ht
  | wake i =>
    simp only [Protocol.step] at ht
    split at ht
    · split at ht
      · next k d hj =>
        cases ht
        exact h.setCall fun d' hd ↦ by cases hd; exact h.fetched _ k d hj
      · cases ht
    · cases ht
  | respond i viewer scope =>
    simp only [Protocol.step] at ht
    split at ht
    · next d hd =>
      cases ht
      have hset : Sound std (s.setCall i .ended) := h.setCall fun d' hd' ↦ by cases hd'
      refine ⟨hset.fetched, hset.cached, hset.returned, ?_, hset.stored⟩
      intro x hx
      obtain rfl | hx := List.mem_cons.mp hx
      · exact h.returned i d hd _ _ _
      · exact h.answered x hx
    · cases ht
  | record i date =>
    simp only [Protocol.step] at ht
    split at ht
    · next d hd =>
      cases ht
      have hset : Sound std (s.setCall i .ended) := h.setCall fun d' hd' ↦ by cases hd'
      refine ⟨hset.fetched, hset.cached, hset.returned, hset.answered, ?_⟩
      intro date' x hx
      by_cases hdate : date' = date
      · subst hdate
        rw [State.insertSnapshot, AList.lookup_insert] at hx
        cases hx
        exact congrArg ComplianceSnapshot.ofScore (h.returned i d hd).recorded
      · rw [State.insertSnapshot, AList.lookup_insert_ne hdate] at hx
        exact h.stored date' x hx
    · cases ht
  | cleanup today =>
    cases ht
    refine ⟨h.fetched, h.cached, h.returned, h.answered, ?_⟩
    intro date x hx
    rw [GoMap.lookup_filter] at hx
    split at hx
    · exact h.stored date x hx
    · cases hx
  | invalidateCache =>
    cases ht
    exact ⟨h.fetched, fun d hd ↦ (by cases hd), h.returned, h.answered, h.stored⟩
  | advance n =>
    cases ht
    exact ⟨h.fetched, h.cached, h.returned, h.answered, h.stored⟩

/-- A fetch that loses something returns data whose scores are not those of the complete data. -/
theorem not_sound_of_loss (hok : ¬ LosesNothing std s a) (ht : step std s a = some t) : ¬ Sound std t := by
  cases a with
  | fetch i f =>
    intro h
    simp only [Protocol.step] at ht
    split at ht
    · next k gen hbody =>
      cases ht
      apply hok
      apply (exact_iff s.now).mp
      apply h.fetched i k
      rw [State.finish, Flights.body_land, Flights.body_advance_self _ hbody]
    · cases ht
  | _ => exact absurd trivial hok

/-- The runs in which every score that is returned, cached or stored is that of the complete data are those whose
fetches lose nothing. -/
theorem compliance_exact_iff (std : Stdlib) (run : List Act) :
    Throughout (step std) (Sound std) {} run ↔ EachStep (step std) (LosesNothing std) {} run :=
  throughout_iff_eachStep (fun _ h ↦ h) (fun _ _ _ h hok ht ↦ h.step hok ht)
    (fun _ _ _ _ hok ht ↦ not_sound_of_loss hok ht) sound_init run

/-- ASCII texts in lower case and no times. -/
def plainStd : Stdlib := ⟨Char.toLower, fun _ _ ↦ ""⟩

/-- A policy that a Pod fails by the only report, which the server cannot list. -/
def unlistedReport : Fetch where
  kyverno := true
  gatekeeper := false
  clusterPolicies := { items := [.object [("metadata", .object [("name", .string "require-labels")])]] }
  policies := { items := [] }
  policyReports :=
    { items := [.object [("results", .array [.object [("policy", .string "require-labels"), ("result", .string "fail")]])]]
      fails := true }
  clusterPolicyReports := { items := [] }
  constraints := []
  arrivals := []
  arrives := .refl _

def unlistedRun : List Act := [.check 0, .enter 0, .start 0, .fetch 0 unlistedReport, .wake 0, .record 0 20000]

/-- The recorder stores a snapshot without failures where the complete data has one. -/
theorem compliance_overstated : ¬ Throughout (step plainStd) (Sound plainStd) {} unlistedRun := by
  intro h
  have hfails : ((exec (step plainStd) {} unlistedRun).bind (fun s ↦ s.snapshots.lookup 20000)).map
      (fun x ↦ (x.snapshot.fail, (recordedScore (completeData plainStd x.fetch)).fail)) = some (0, 1) := rfl
  obtain ⟨x, hx, hfail⟩ := Option.map_eq_some_iff.mp hfails
  obtain ⟨s, hs, hlookup⟩ := Option.bind_eq_some_iff.mp hx
  have hstored := congrArg ComplianceSnapshot.fail ((h.last hs).stored 20000 x hlookup)
  obtain ⟨hzero, hone⟩ := Prod.mk.inj hfail
  rw [hzero] at hstored
  have hcomplete : (recordedScore (completeData plainStd x.fetch)).fail = 0 := hstored.symm
  omega

end Safety

end KubeCenter.Policy.Protocol
