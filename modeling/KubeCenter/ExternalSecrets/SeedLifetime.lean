import KubeCenter.ExternalSecrets.TransitionSpec

/-! What becomes of the restart seeds in the runs of the poller. -/

namespace KubeCenter.ExternalSecrets.SeedLifetime

open KubeCenter.Core Function
open KubeCenter.Notifications (Notification)
open TransitionSpec (Knows check_unknown)

section InTurn

variable {α : Type} {ok : List α → α → Prop} {seen l m : List α} {x : α}

/-- Each item of a list is in order after `seen` and the items before it. -/
def InTurn (ok : List α → α → Prop) (seen l : List α) : Prop :=
  ∀ before x after, l = before ++ x :: after → ok (seen ++ before) x

theorem inTurn_nil : InTurn ok seen [] := by
  intro before x after h
  cases before <;> cases h

theorem inTurn_append : InTurn ok seen (l ++ m) ↔ InTurn ok seen l ∧ InTurn ok (seen ++ l) m := by
  constructor
  · intro h
    refine ⟨fun before x after hl ↦ ?_, fun before x after hm ↦ ?_⟩
    · exact h before x (after ++ m) (by rw [hl, List.append_assoc, List.cons_append])
    · rw [List.append_assoc]
      exact h (l ++ before) x after (by rw [hm, List.append_assoc])
  · rintro ⟨hl, hm⟩ before x after heq
    rcases List.append_eq_append_iff.mp heq with ⟨between, rfl, hbetween⟩ | ⟨between, rfl, hbetween⟩
    · rw [← List.append_assoc]
      exact hm between x after hbetween
    · cases between with
      | nil =>
        rw [List.append_nil] at hm
        exact List.append_nil (seen ++ before) ▸ hm [] x after hbetween.symm
      | cons y between =>
        obtain ⟨rfl, -⟩ := List.cons.inj hbetween
        exact hl before x between rfl

theorem inTurn_singleton : InTurn ok seen [x] ↔ ok seen x := by
  constructor
  · intro h
    exact List.append_nil seen ▸ h [] x [] rfl
  · intro h before y after heq
    cases before with
    | nil =>
      obtain ⟨rfl, -⟩ := List.cons.inj heq
      rwa [List.append_nil]
    | cons z before => exact absurd (List.cons.inj heq).2.symm (by simp)

theorem inTurn_cons : InTurn ok seen (x :: l) ↔ ok seen x ∧ InTurn ok (seen ++ [x]) l := by
  have happend : InTurn ok seen ([x] ++ l) ↔ InTurn ok seen [x] ∧ InTurn ok (seen ++ [x]) l := inTurn_append
  rwa [inTurn_singleton] at happend

end InTurn

def recoverySeedWindow : ℤ := 120 * minute

/-- The start of the window that ends at `now`, in the database's microseconds. -/
def since (now : ℤ) : ℤ := (now - recoverySeedWindow) / 1000

/-- An ExternalSecret met by `check` while its UID is not known: the seed taken up and the events, with the number
of successful listings before the tick. A UID's first sighting is its first observation of all. -/
structure Sighting where
  es : ExternalSecret
  seed : Option SeedEntry
  records : List EmitRecord
  initialized : Bool
  earlier : ℕ
  time : ℤ

/-- What a tick that never saw the ExternalSecret, and has no seed for it, emits. -/
def Sighting.asNew (x : Sighting) : List EmitRecord :=
  if x.initialized && alertOnLifecycle x.es then
    [lifecycleRecord x.es (if bucketFor x.es.status = .healthy then .firstSynced else .created)]
  else []

/-- The unknown ones of a list, one after the other, each with the poller that meets it. -/
def meets : Poller → List ExternalSecret → List (Poller × ExternalSecret)
  | _, [] => []
  | p, es :: ess =>
    (if p.prevBucket es.uid = none ∧ p.seen es.uid = false then [(p, es)] else []) ++ meets (p.check es).2 ess

/-- A run from `Start`. Two fields are history: the rows it was seeded from and all sightings. -/
structure State where
  base : StartUp.State
  rows : List Notification := []
  log : List Sighting := []

def init (now : ℤ) : State := { base := StartUp.init now }

def listed (s : State) : StartUp.Act → List ExternalSecret
  | .tick env => ((StartUp.handed s.base.handler env s.base.now).map CachedData.externalSecrets).getD []
  | _ => []

def sighting (s : State) (met : Poller × ExternalSecret) : Sighting where
  es := met.2
  seed := met.1.seed met.2
  records := (met.1.check met.2).1
  initialized := met.1.initialized
  earlier := s.base.listings.length
  time := s.base.now

def seeded : StartUp.Act → List Notification
  | .start (.ok rows) => rows
  | _ => []

/-- The statement seeds are read with keeps to the window that ends with it. -/
def step (s : State) (a : StartUp.Act) : Option State :=
  if ∀ row ∈ seeded a, since s.base.now ≤ row.createdAt then
    (StartUp.step s.base a).map (fun base ↦
      { base, rows := s.rows ++ seeded a, log := s.log ++ (meets s.base.poller (listed s a)).map (sighting s) })
  else none

/-- At its first sighting after the first successful listing an ExternalSecret is treated as new, and no sighting
takes up a seed that has left the window. -/
structure OnlyAtFirst (before : List Sighting) (x : Sighting) : Prop where
  later : (∀ y ∈ before, y.es.uid ≠ x.es.uid) → x.earlier ≠ 0 → x.seed = none ∧ x.records = x.asNew
  recent : ∀ e ∈ x.seed, since x.time ≤ e.notifTime

def SeedsOnce (s : State) : Prop := InTurn OnlyAtFirst [] s.log

def key (es : ExternalSecret) : String := seedKey es.ns es.name

/-- The row whose seed stands under the key: the last one. -/
def rowOf (rows : List Notification) (k : String) : Option Notification :=
  rows.reverse.find? (fun n ↦ seedKey n.resourceNS n.resourceName = k)

/-- An ExternalSecret with a row, the first of its namespace and name to be met since the start, is met in the row's
window, and by the first successful listing if its UID is new. -/
def InTime (rows : List Notification) (earlier : ℕ) (now : ℤ) (before : List ExternalSecret) (es : ExternalSecret) :
    Prop :=
  ∀ row ∈ rowOf rows (key es), (∀ y ∈ before, key y ≠ key es) →
    ((∀ y ∈ before, y.uid ≠ es.uid) → earlier = 0) ∧ since now ≤ row.createdAt

def MeetsInTime (s : State) (a : StartUp.Act) : Prop :=
  InTurn (InTime s.rows s.base.listings.length s.base.now) (s.log.map Sighting.es)
    ((meets s.base.poller (listed s a)).map Prod.snd)

variable {s t : State} {p : Poller} {es : ExternalSecret} {ess : List ExternalSecret} {rows : List Notification}
  {met : List ExternalSecret} {a : StartUp.Act} {k : String}

def seedOf (n : Notification) : SeedEntry := ⟨bucketFromNotification n, n.createdAt⟩

/-- The seed that stands under a key when some ExternalSecrets have been met. -/
def left (rows : List Notification) (met : List ExternalSecret) (k : String) : Option SeedEntry :=
  if k ∈ met.map key then none else (rowOf rows k).map seedOf

theorem seedNSName_foldl (rows : List Notification) (seeds : String → Option SeedEntry) (k : String) :
    rows.foldl (fun seeds n ↦ update seeds (seedKey n.resourceNS n.resourceName)
      (some ⟨bucketFromNotification n, n.createdAt⟩)) seeds k = ((rowOf rows k).map seedOf).or (seeds k) := by
  induction rows generalizing seeds with
  | nil => rfl
  | cons n rows ih =>
    rw [List.foldl_cons, ih, rowOf, rowOf, List.reverse_cons, List.find?_append, update_apply]
    by_cases hk : seedKey n.resourceNS n.resourceName = k
    · rw [if_pos hk.symm, List.find?_singleton, if_pos (by simpa using hk)]
      cases rows.reverse.find? _ <;> rfl
    · rw [if_neg (fun h ↦ hk h.symm), List.find?_singleton, if_neg (by simpa using hk), Option.or_none]

theorem left_concat (es : ExternalSecret) : left rows (met ++ [es]) k = if k = key es then none else left rows met k := by
  have hmem : k ∈ (met ++ [es]).map key ↔ k ∈ met.map key ∨ k = key es := by
    rw [List.map_append, List.mem_append, List.map_singleton, List.mem_singleton]
  by_cases hk : k = key es
  · rw [if_pos hk, left, if_pos (hmem.mpr (.inr hk))]
  · rw [if_neg hk, left, left]
    refine if_congr (hmem.trans (or_iff_left hk)) rfl rfl

theorem check_left (hseeds : ∀ k, p.seedNSName k = left rows met k)
    (hunknown : p.prevBucket es.uid = none ∧ p.seen es.uid = false) (k : String) :
    (p.check es).2.seedNSName k = left rows (met ++ [es]) k := by
  have hseed : p.seed es = p.seedNSName (key es) := if_pos hunknown
  rw [Poller.check_seedNSName, hseed, left_concat, ← hseeds k]
  split
  · exact update_apply _ _ _ _
  · next hnone =>
    split
    · next hk =>
      rw [hk]
      simpa using hnone
    · rfl

theorem check_left_known (hseeds : ∀ k, p.seedNSName k = left rows met k)
    (hknown : ¬ (p.prevBucket es.uid = none ∧ p.seen es.uid = false)) (k : String) :
    (p.check es).2.seedNSName k = left rows met k := by
  have hseed : p.seed es = none := if_neg hknown
  rw [Poller.check_seedNSName, hseed]
  exact hseeds k

/-- Over a list, the seeds that stand are those of the rows under whose key nothing has been met. -/
theorem checkAll_left (hseeds : ∀ k, p.seedNSName k = left rows met k) (k : String) :
    (p.checkAll ess).2.seedNSName k = left rows (met ++ (meets p ess).map Prod.snd) k := by
  induction ess generalizing p met with
  | nil => simpa [meets, Poller.checkAll] using hseeds k
  | cons es ess ih =>
    rw [meets]
    split
    · next hunknown =>
      rw [List.map_append, ← List.append_assoc]
      exact ih (check_left hseeds hunknown)
    · next hknown => exact ih (check_left_known hseeds hknown)

/-- One sighting is as it should be iff it comes in time. -/
theorem onlyAtFirst_iff {log : List Sighting} (hseeds : ∀ k, p.seedNSName k = left rows (log.map Sighting.es) k)
    (hunknown : p.prevBucket es.uid = none ∧ p.seen es.uid = false) :
    OnlyAtFirst log (sighting s (p, es)) ↔
      InTime rows s.base.listings.length s.base.now (log.map Sighting.es) es := by
  have hseed : p.seed es = p.seedNSName (key es) := if_pos hunknown
  have hmet : key es ∈ (log.map Sighting.es).map key ↔ ¬ ∀ y ∈ log.map Sighting.es, key y ≠ key es := by
    simp [eq_comm]
  have hfirst : (∀ y ∈ log.map Sighting.es, y.uid ≠ es.uid) ↔ ∀ y ∈ log, y.es.uid ≠ es.uid := List.forall_mem_map
  cases hleft : left rows (log.map Sighting.es) (key es) with
  | none =>
    rw [hseeds, hleft] at hseed
    refine iff_of_true ⟨fun _ _ ↦ ⟨hseed, ?_⟩, fun e he ↦ ?_⟩ (fun row hrow hkey ↦ ?_)
    · exact check_unknown hunknown ((hseeds (key es)).trans hleft)
    · rw [show (sighting s (p, es)).seed = none from hseed] at he
      cases he
    · rw [left, if_neg (fun h ↦ hmet.mp h hkey), hrow] at hleft
      cases hleft
  | some e =>
    rw [hseeds, hleft] at hseed
    unfold left at hleft
    split at hleft
    · cases hleft
    · next hkey =>
      obtain ⟨row, hrow, rfl⟩ := Option.map_eq_some_iff.mp hleft
      rw [hmet, not_not] at hkey
      unfold InTime
      rw [hfirst, hrow]
      constructor
      · rintro ⟨hlater, hrecent⟩ row' ⟨⟩ -
        refine ⟨fun hnew ↦ ?_, hrecent (seedOf row) hseed⟩
        by_contra hearlier
        exact absurd (hseed.symm.trans (hlater hnew hearlier).1) (by simp)
      · intro htime
        obtain ⟨hlater, hrecent⟩ := htime row rfl hkey
        refine ⟨fun hnew hearlier ↦ absurd (hlater hnew) hearlier, fun e he ↦ ?_⟩
        rw [show (sighting s (p, es)).seed = some (seedOf row) from hseed] at he
        cases he
        exact hrecent

theorem inTurn_meets {log : List Sighting} (hseeds : ∀ k, p.seedNSName k = left rows (log.map Sighting.es) k) :
    InTurn OnlyAtFirst log ((meets p ess).map (sighting s)) ↔
      InTurn (InTime rows s.base.listings.length s.base.now) (log.map Sighting.es) ((meets p ess).map Prod.snd) := by
  induction ess generalizing p log with
  | nil => exact iff_of_true inTurn_nil inTurn_nil
  | cons es ess ih =>
    rw [meets]
    split
    · next hunknown =>
      have hleft : ∀ k, (p.check es).2.seedNSName k = left rows ((log ++ [sighting s (p, es)]).map Sighting.es) k := by
        intro k
        rw [List.map_append]
        exact check_left hseeds hunknown k
      have hrest := ih hleft
      rw [List.map_append] at hrest
      exact inTurn_cons.trans ((and_congr (onlyAtFirst_iff hseeds hunknown) hrest).trans inTurn_cons.symm)
    · next hknown => exact ih (check_left_known hseeds hknown)

theorem process_seeds (env : PersistEnv) : (p.process env ess).poller.seedNSName = (p.checkAll ess).2.seedNSName := by
  obtain ⟨_, _, hpersist⟩ := Poller.persistAttempts_writes (p.checkAll ess).2 env ess
  change ((p.checkAll ess).2.persistAttempts env ess).2.seedNSName = _
  rw [hpersist]

/-! Runs. -/

structure Inv (s : State) : Prop where
  seeds : ∀ k, s.base.poller.seedNSName k = left s.rows (s.log.map Sighting.es) k
  notStarted : s.base.stage = .notStarted → s.rows = [] ∧ s.log = []
  once : SeedsOnce s

theorem inv_init (now : ℤ) : Inv (init now) where
  seeds _ := rfl
  notStarted _ := ⟨rfl, rfl⟩
  once := inTurn_nil

theorem tick_seeds (env : TickEnv) : (s.base.tick env).poller.seedNSName =
    (s.base.poller.checkAll (listed s (.tick env))).2.seedNSName := by
  rw [TransitionSpec.tick_poller, listed]
  cases StartUp.handed s.base.handler env s.base.now with
  | none => rfl
  | some data => exact process_seeds _

/-- A tick goes on from where it stood only after `Start` has seeded. -/
theorem step_notStarted {base : StartUp.State} (hbase : StartUp.step s.base a = some base)
    (hnot : base.stage = .notStarted) : s.base.stage = .notStarted ∧ seeded a = [] ∧ listed s a = [] := by
  cases a with
  | start recent =>
    simp only [StartUp.step] at hbase
    split at hbase <;> cases hbase
    cases hnot
  | tick env =>
    simp only [StartUp.step] at hbase
    split at hbase <;> cases hbase
    · cases hnot
    · next hstage => rw [show (s.base.tick env).stage = s.base.stage from rfl, hstage] at hnot; cases hnot
  | read env => cases hbase; exact ⟨hnot, rfl, rfl⟩
  | invalidateCache => cases hbase; exact ⟨hnot, rfl, rfl⟩
  | advance d => cases hbase; exact ⟨hnot, rfl, rfl⟩

/-- What a step makes of the seeds: those of the rows under whose key nothing has been met. -/
theorem step_left {base : StartUp.State} (h : Inv s) (hbase : StartUp.step s.base a = some base) (k : String) :
    base.poller.seedNSName k = left (s.rows ++ seeded a)
      (s.log.map Sighting.es ++ (meets s.base.poller (listed s a)).map Prod.snd) k := by
  have idle : left s.rows (s.log.map Sighting.es) k =
      left (s.rows ++ []) (s.log.map Sighting.es ++ (meets s.base.poller []).map Prod.snd) k := by
    rw [meets, List.map_nil, List.append_nil, List.append_nil]
  cases a with
  | start recent =>
    simp only [StartUp.step] at hbase
    split at hbase <;> cases hbase
    next hstage =>
    obtain ⟨hrows, hlog⟩ := h.notStarted hstage
    have hseeds := h.seeds k
    rw [hrows, hlog] at hseeds ⊢
    cases recent with
    | error err => exact hseeds
    | ok rows =>
      refine (seedNSName_foldl rows s.base.poller.seedNSName k).trans ?_
      rw [hseeds]
      exact Option.or_none
  | tick env =>
    have htick : base.poller.seedNSName = (s.base.tick env).poller.seedNSName := by
      simp only [StartUp.step] at hbase
      split at hbase <;> cases hbase <;> rfl
    rw [htick, tick_seeds, show seeded (.tick env) = [] from rfl, List.append_nil]
    exact checkAll_left h.seeds k
  | read env => cases hbase; exact (h.seeds k).trans idle
  | invalidateCache => cases hbase; exact (h.seeds k).trans idle
  | advance d => cases hbase; exact (h.seeds k).trans idle

/-- A step's sightings are as they should be iff they come in time, and the seeds stand as said after it. -/
theorem step_iff (h : Inv s) (hs : step s a = some t) :
    (SeedsOnce t ↔ MeetsInTime s a) ∧ (SeedsOnce t → Inv t) := by
  unfold step at hs
  split at hs
  · obtain ⟨base, hbase, rfl⟩ := Option.map_eq_some_iff.mp hs
    refine ⟨?_, fun honce ↦ ⟨?_, ?_, honce⟩⟩
    · refine inTurn_append.trans ((and_iff_right h.once).trans ?_)
      rw [List.nil_append]
      exact inTurn_meets h.seeds
    · rw [List.map_append, List.map_map]
      exact step_left h hbase
    · intro hnot
      obtain ⟨hstage, hrows, hlisted⟩ := step_notStarted hbase hnot
      obtain ⟨hold, hlog⟩ := h.notStarted hstage
      dsimp only
      rw [hrows, hlisted, hold, hlog]
      exact ⟨rfl, rfl⟩
  · cases hs

/-- In a run from `Start`, the seeds serve the first listing alone and in their window throughout iff every tick meets
the ExternalSecrets that have a row in time. -/
theorem seedsOnce_throughout_iff (now : ℤ) (as : List StartUp.Act) :
    Throughout step SeedsOnce (init now) as ↔ EachStep step MeetsInTime (init now) as :=
  throughout_iff_eachStep (fun _ ↦ Inv.once) (fun _ _ _ h hok hs ↦ (step_iff h hs).2 ((step_iff h hs).1.mpr hok))
    (fun _ _ _ h hbad hs ↦ mt (step_iff h hs).1.mp hbad) (inv_init now) as

section Run

def lists (ess : Except String (List ExternalSecret)) : StartUp.Act := .tick { fetch := { externalSecrets := ess } }

/-- The failure of an ExternalSecret that is gone by the first listing. -/
def failureRow : Notification :=
  let es : ExternalSecret := { ns := "shop", name := "db-password", uid := "uid-9", status := .syncFailed }
  { (failureRecord es .syncFailed).notification with createdAt := 7200000000 }

/-- A day after the start, an ExternalSecret of that name is created, and syncs at once. -/
def createdAnew : List StartUp.Act :=
  [.start (.ok [failureRow]), lists (.ok []), .advance 86400000000000,
    lists (.ok [{ ns := "shop", name := "db-password", uid := "uid-10", status := .synced, alertOnRecovery := some true }])]

theorem createdAnew_log : (exec step (init 7200000000000) createdAnew).map (fun s ↦
    s.log.map (fun x ↦ (x.earlier, x.seed, x.records.map EmitRecord.kind))) =
      some [(1, some ⟨.failed, 7200000000⟩, [.recovered])] := by
  decide

theorem not_seedsOnce_throughout : ¬ ∀ now as, Throughout step SeedsOnce (init now) as := by
  intro h
  obtain ⟨s, hs, hlog⟩ := Option.map_eq_some_iff.mp createdAnew_log
  have honce := (h 7200000000000 createdAnew).last hs
  obtain ⟨x, rest, hsplit, hx, -⟩ := List.map_eq_cons_iff.mp hlog
  obtain ⟨hearlier, hx⟩ := Prod.mk.inj hx
  have hnew := (honce [] x rest hsplit).later (fun _ hy ↦ by cases hy) (by omega)
  have hseed := (Prod.mk.inj hx).1
  rw [hnew.1] at hseed
  cases hseed

end Run

end KubeCenter.ExternalSecrets.SeedLifetime
