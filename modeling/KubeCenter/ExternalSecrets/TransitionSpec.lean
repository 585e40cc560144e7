import Mathlib.Data.List.Chain
import KubeCenter.ExternalSecrets.FailedList
import KubeCenter.ExternalSecrets.StartUp

/-! The events of one ExternalSecret against a reference automaton on the buckets. -/

namespace KubeCenter.ExternalSecrets.TransitionSpec

open KubeCenter.Core Function

/-- What the automaton emits when it goes from one bucket to another; `optIn` is for recoveries. -/
def react : StatusBucket → StatusBucket → Bool → List EventKind
  | .failed, .failed, _ | .stale, .stale, _ | .unknown, .unknown, _ | .healthy, .healthy, _ => []
  | _, .failed, _ => [.syncFailed]
  | _, .stale, _ => [.stale]
  | _, .unknown, _ => [.unhealthy]
  | _, .healthy, optIn => if optIn then [.recovered] else []

/-- The automaton's run over what is observed from a bucket on. -/
def automaton : StatusBucket → List (StatusBucket × Bool) → List EventKind
  | _, [] => []
  | prev, (current, optIn) :: rest => react prev current optIn ++ automaton current rest

/-- An ExternalSecret as a tick meets it, and what it emits for it. -/
abbrev Observation := ExternalSecret × List EmitRecord

namespace Observation

variable (x : Observation)

def bucket : StatusBucket := bucketFor x.1.status

def kinds : List EventKind := x.2.map EmitRecord.kind

end Observation

/-- What `checkAll` emits, item by item. -/
def observations : Poller → List ExternalSecret → List Observation
  | _, [] => []
  | p, es :: ess => (es, (p.check es).1) :: observations (p.check es).2 ess

/-- A run from `Start`; `log` is history, all observations of one UID. -/
structure State where
  base : StartUp.State
  log : List Observation := []

def ofUid (uid : String) (x : Observation) : Bool := x.1.uid = uid

/-- What a tick works on. -/
def worked (s : State) : StartUp.Act → Option CachedData
  | .tick env => StartUp.handed s.base.handler env s.base.now
  | _ => none

def logged (uid : String) (s : State) (a : StartUp.Act) : List Observation :=
  ((worked s a).map (fun data ↦ observations s.base.poller data.externalSecrets)).getD [] |>.filter (ofUid uid)

def step (uid : String) (s : State) (a : StartUp.Act) : Option State :=
  (StartUp.step s.base a).map (fun base ↦ { base, log := s.log ++ logged uid s a })

def init (now : ℤ) : State := { base := StartUp.init now }

/-- The later of two consecutive observations emits what the automaton does. -/
def Reacts (x y : Observation) : Prop := y.kinds = react x.bucket y.bucket (alertOnRecovery y.1)

/-- Each observation after the first emits what the automaton does there, so that the events are those of its run, and
the bucket changes between two events of one failure kind. -/
structure Refines (log : List Observation) : Prop where
  each : log.IsChain Reacts
  events : ∀ first rest, log = first :: rest →
    rest.flatMap Observation.kinds = automaton first.bucket (rest.map (fun x ↦ (x.bucket, alertOnRecovery x.1)))
  spaced : ∀ before x between y after, log = before ++ x :: (between ++ y :: after) → before ≠ [] →
    ∀ kind ∈ x.kinds, kind ∈ y.kinds → kind ≠ .recovered → ∃ z ∈ between, z.bucket ≠ x.bucket

/-- No restart seed is left for the ExternalSecret when a tick meets it. -/
def Unseeded (uid : String) (s : State) (a : StartUp.Act) : Prop :=
  ∀ data ∈ worked s a, ∀ es ∈ data.externalSecrets, es.uid = uid →
    s.base.poller.seedNSName (seedKey es.ns es.name) = none

/-- An ExternalSecret that has been observed, and forgotten when a tick worked on a list without it, is found again
in a bucket that the automaton emits nothing for, and not announced as new. -/
def FoundAsLeft (uid : String) (s : State) (a : StartUp.Act) : Prop :=
  ∀ last ∈ s.log.getLast?, s.base.poller.prevBucket uid = none →
    ∀ data ∈ worked s a, ∀ es ∈ data.externalSecrets.find? (·.uid = uid),
      react last.bucket (bucketFor es.status) (alertOnRecovery es) = [] ∧
        (s.base.poller.initialized && alertOnLifecycle es) = false

instance (uid : String) (s : State) (a : StartUp.Act) : Decidable (Unseeded uid s a) :=
  inferInstanceAs (Decidable (∀ data ∈ worked s a, ∀ es ∈ data.externalSecrets, es.uid = uid → _))

instance (uid : String) (s : State) (a : StartUp.Act) : Decidable (FoundAsLeft uid s a) :=
  inferInstanceAs (Decidable (∀ last ∈ s.log.getLast?, _ → ∀ data ∈ worked s a, ∀ es ∈ data.externalSecrets.find? _, _))

variable {uid : String} {s t : State} {a : StartUp.Act} {p : Poller} {es : ExternalSecret} {ess : List ExternalSecret}
  {b : StatusBucket} {log : List Observation}

theorem observations_records (p : Poller) (ess : List ExternalSecret) :
    (observations p ess).flatMap Prod.snd = (p.checkAll ess).1 := by
  induction ess generalizing p with
  | nil => rfl
  | cons es ess ih => rw [observations, List.flatMap_cons, ih, Poller.checkAll]

/-! The automaton. -/

theorem transition_kinds (es : ExternalSecret) (prev current : StatusBucket) :
    (Poller.transitionRecords es prev current).map EmitRecord.kind = react prev current (alertOnRecovery es) := by
  unfold Poller.transitionRecords
  cases prev <;> cases current <;>
    simp [react, isFailureBucket, failureRecord, failureEventKind, recoveryRecord, apply_ite]

theorem mem_react {prev current : StatusBucket} {optIn : Bool} {kind : EventKind} (h : kind ∈ react prev current optIn)
    (hkind : kind ≠ .recovered) : prev ≠ current ∧ kind = failureEventKind current := by
  cases prev <;> cases current <;> simp_all [react, failureEventKind]

theorem bucket_of_react {b b' : StatusBucket} {prev prev' : StatusBucket} {optIn optIn' : Bool}
    {kind : EventKind} (h : kind ∈ react prev b optIn) (h' : kind ∈ react prev' b' optIn') (hkind : kind ≠ .recovered) :
    b = b' := by
  cases prev <;> cases b <;> cases prev' <;> cases b' <;> simp_all [react]

theorem isLifecycle_not_mem_react {prev current : StatusBucket} {optIn : Bool} {kind : EventKind}
    (hkind : kind.isLifecycle = true) : kind ∉ react prev current optIn := by
  intro h
  cases prev <;> cases current <;> cases optIn <;> simp [react] at h <;> subst h <;> cases hkind

theorem events_of_chain {x : Observation} {rest : List Observation} (h : (x :: rest).IsChain Reacts) :
    rest.flatMap Observation.kinds = automaton x.bucket (rest.map (fun y ↦ (y.bucket, alertOnRecovery y.1))) := by
  induction rest generalizing x with
  | nil => rfl
  | cons y rest ih =>
    obtain ⟨hxy, hrest⟩ := List.isChain_cons_cons.mp h
    rw [List.flatMap_cons, ih hrest, List.map_cons, automaton]
    exact congrArg (· ++ _) hxy

theorem last_reacts {before after : List Observation} {y : Observation} (h : (before ++ y :: after).IsChain Reacts)
    (hbefore : before ≠ []) : Reacts (before.getLast hbefore) y :=
  (List.isChain_append.mp h).2.2 _ (List.getLast?_eq_some_getLast hbefore) y rfl

/-- Between two events of a failure kind there is an observation in another bucket: the one before the second. -/
theorem spaced_of_chain {before between after : List Observation} {x y : Observation}
    (h : (before ++ x :: (between ++ y :: after)).IsChain Reacts) (hbefore : before ≠ []) {kind : EventKind}
    (hx : kind ∈ x.kinds) (hy : kind ∈ y.kinds) (hkind : kind ≠ .recovered) : ∃ z ∈ between, z.bucket ≠ x.bucket := by
  rw [last_reacts h hbefore] at hx
  have hrest : (x :: between ++ y :: after).IsChain Reacts := (List.isChain_append.mp h).2.1
  have hlast := last_reacts hrest (List.cons_ne_nil x between)
  rw [hlast] at hy
  have hsame := bucket_of_react hx hy hkind
  have hne := (mem_react hy hkind).1
  rw [← hsame] at hne
  refine ⟨_, ?_, hne⟩
  refine (List.mem_cons.mp (List.getLast_mem (List.cons_ne_nil x between))).resolve_left (fun heq ↦ hne ?_)
  rw [heq]

theorem refines_iff : Refines log ↔ log.IsChain Reacts := by
  refine ⟨Refines.each, fun h ↦ ⟨h, ?_, ?_⟩⟩
  · rintro first rest rfl
    exact events_of_chain h
  · intro before x between y after hlog hbefore kind hx hy hkind
    rw [hlog] at h
    exact spaced_of_chain h hbefore hx hy hkind

/-! What a tick logs for the UID. -/

/-- What the poller remembers of the UID. -/
def Knows (p : Poller) (uid : String) : Option StatusBucket → Prop
  | some b => p.prevBucket uid = some b ∧ p.seen uid = true
  | none => p.prevBucket uid = none ∧ p.seen uid = false

theorem Knows.check_self (p : Poller) (es : ExternalSecret) : Knows (p.check es).2 es.uid (some (bucketFor es.status)) := by
  constructor
  · rw [Poller.check_prevBucket, update_self]
  · rw [Poller.check_seen, update_self]

theorem Knows.check_ne {o : Option StatusBucket} (h : Knows p uid o) (hne : es.uid ≠ uid) : Knows (p.check es).2 uid o := by
  cases o <;>
    simpa only [Knows, Poller.check_prevBucket, Poller.check_seen, update_of_ne hne.symm] using h

theorem check_unseeded {k : String} (h : p.seedNSName k = none) : (p.check es).2.seedNSName k = none := by
  rw [Poller.check_seedNSName]
  split
  · rw [update_apply]
    split
    · rfl
    · exact h
  · exact h

/-- What is emitted for an ExternalSecret that is unknown and has no seed. -/
theorem check_unknown (h : Knows p es.uid none) (hseed : p.seedNSName (seedKey es.ns es.name) = none) :
    (p.check es).1 = if p.initialized && alertOnLifecycle es then
      [lifecycleRecord es (if bucketFor es.status = .healthy then .firstSynced else .created)] else [] := by
  obtain ⟨hprev, hseen⟩ := h
  unfold Poller.check Poller.seed
  simp only [hprev, hseen, hseed, and_self, if_true, Option.isSome_none, Bool.or_self, Bool.not_false, Bool.true_and,
    Option.map_none, Option.none_or]
  split <;> rfl

theorem reacts_known {x : Observation} (h : Knows p es.uid (some x.bucket)) : Reacts x (es, (p.check es).1) := by
  unfold Reacts Observation.kinds
  rw [Poller.check_known h.2 h.1]
  exact transition_kinds es x.bucket (bucketFor es.status)

/-- From a known bucket on, the observations of a list are those of the automaton. -/
theorem observations_known {x : Observation} (h : Knows p uid (some x.bucket)) (ess : List ExternalSecret) :
    (x :: (observations p ess).filter (ofUid uid)).IsChain Reacts ∧
      ∃ last, (x :: (observations p ess).filter (ofUid uid)).getLast? = some last ∧
        Knows (p.checkAll ess).2 uid (some last.bucket) := by
  induction ess generalizing p x with
  | nil => exact ⟨.singleton x, x, rfl, h⟩
  | cons es ess ih =>
    rw [observations, List.filter_cons]
    by_cases huid : es.uid = uid
    · subst huid
      rw [if_pos (by simp [ofUid])]
      obtain ⟨hchain, last, hlast, hknows⟩ := ih (x := (es, (p.check es).1)) (Knows.check_self p es)
      exact ⟨List.isChain_cons_cons.mpr ⟨reacts_known h, hchain⟩, last, hlast, hknows⟩
    · rw [if_neg (by simpa [ofUid] using huid)]
      exact ih (h.check_ne huid)

/-- An unknown UID is met as new, if the list has it, and is known from there on. -/
theorem observations_unknown (h : Knows p uid none)
    (hseeds : ∀ es ∈ ess, es.uid = uid → p.seedNSName (seedKey es.ns es.name) = none) :
    match ess.find? (·.uid = uid) with
    | none => (observations p ess).filter (ofUid uid) = [] ∧ Knows (p.checkAll ess).2 uid none
    | some es => ∃ records rest, (observations p ess).filter (ofUid uid) = (es, records) :: rest ∧
        records.map EmitRecord.kind = (if p.initialized && alertOnLifecycle es then
          [if bucketFor es.status = .healthy then .firstSynced else .created] else []) ∧
        ((es, records) :: rest).IsChain Reacts ∧
        ∃ last : Observation, ((es, records) :: rest).getLast? = some last ∧ Knows (p.checkAll ess).2 uid (some last.bucket) := by
  induction ess generalizing p with
  | nil => exact ⟨rfl, h⟩
  | cons es ess ih =>
    rw [observations, List.filter_cons, List.find?_cons]
    by_cases huid : es.uid = uid
    · subst huid
      simp only [decide_true, ofUid, if_true]
      have hrecords := check_unknown h (hseeds es List.mem_cons_self rfl)
      have hself : Knows (p.check es).2 es.uid (some (Observation.bucket (es, (p.check es).1))) := Knows.check_self p es
      have hchain := observations_known hself ess
      refine ⟨(p.check es).1, _, rfl, ?_, hchain⟩
      rw [hrecords]
      split
      · by_cases hhealthy : bucketFor es.status = .healthy <;> simp [lifecycleRecord, hhealthy]
      · rfl
    · have hinit : (p.check es).2.initialized = p.initialized := (Poller.check_rest p es).2.2.2
      have hrest := ih (h.check_ne huid) (fun e he hu ↦ check_unseeded (hseeds e (List.mem_cons_of_mem _ he) hu))
      rw [hinit] at hrest
      rw [if_neg (by simpa [ofUid] using huid), decide_eq_false huid]
      exact hrest

theorem knows_prune {o : Option StatusBucket} (h : Knows p uid o) :
    Knows (p.prune ess) uid (if uid ∈ ess.map ExternalSecret.uid then o else none) := by
  split
  · next hmem =>
    obtain ⟨hprev, hseen, -, -⟩ := Poller.prune_listed (p := p) hmem
    cases o <;> simpa only [Knows, hprev, hseen] using h
  · next hmem =>
    refine ⟨Poller.prune_unlisted hmem, ?_⟩
    cases o with
    | none =>
      have hprunes : p.prunes ess uid = false := by rw [Poller.prunes, h.1]; rfl
      simp only [Poller.prune, hprunes, Bool.false_eq_true, if_false]
      exact h.2
    | some b =>
      have hprunes : p.prunes ess uid = true := by
        rw [Poller.prunes, h.1]
        simpa using hmem
      simp only [Poller.prune, hprunes, if_true]

theorem knows_process {o : Option StatusBucket} (h : Knows (p.checkAll ess).2 uid o) (env : PersistEnv) :
    Knows (p.process env ess).poller uid (if uid ∈ ess.map ExternalSecret.uid then o else none) := by
  rw [Poller.process_poller]
  apply knows_prune
  obtain ⟨hprev, hseen⟩ := Poller.persistAttempts_rest (p.checkAll ess).2 env ess
  cases o <;> simpa only [Knows, hprev, hseen] using h

/-! Runs. -/

structure Inv (uid : String) (s : State) : Prop where
  chain : s.log.IsChain Reacts
  knows : ∃ o, Knows s.base.poller uid o ∧ ∀ b, o = some b → ∃ last, s.log.getLast? = some last ∧ last.bucket = b

theorem inv_init (now : ℤ) : Inv uid (init now) where
  chain := .nil
  knows := ⟨none, ⟨rfl, rfl⟩, fun _ h ↦ by cases h⟩

theorem Inv.idle (h : Inv uid s) {poller : Poller} (hprev : poller.prevBucket = s.base.poller.prevBucket)
    (hseen : poller.seen = s.base.poller.seen) (hpoller : t.base.poller = poller) (hlog : t.log = s.log) : Inv uid t where
  chain := hlog ▸ h.chain
  knows := by
    obtain ⟨o, hknows, hlast⟩ := h.knows
    refine ⟨o, ?_, by rwa [hlog]⟩
    rw [hpoller]
    cases o <;> simpa only [Knows, hprev, hseen] using hknows

theorem mem_uids_of_find (h : ess.find? (·.uid = uid) = some es) : es.uid = uid ∧ uid ∈ ess.map ExternalSecret.uid := by
  have huid : es.uid = uid := by simpa using List.find?_some h
  exact ⟨huid, List.mem_map.mpr ⟨es, List.mem_of_find?_eq_some h, huid⟩⟩

/-- A first event of a list that comes after a forgotten observation is the automaton's iff there is none. -/
theorem reacts_new {last : Observation} {records : List EmitRecord} {announced : Bool}
    (hkinds : records.map EmitRecord.kind = (if announced then
      [if bucketFor es.status = .healthy then .firstSynced else .created] else [])) :
    Reacts last (es, records) ↔ react last.bucket (bucketFor es.status) (alertOnRecovery es) = [] ∧ announced = false := by
  unfold Reacts Observation.kinds
  dsimp only [Observation.bucket]
  rw [hkinds]
  cases announced with
  | false => exact ⟨fun heq ↦ ⟨heq.symm, rfl⟩, fun heq ↦ heq.1.symm⟩
  | true =>
    simp only [if_true, Bool.true_eq_false, and_false, iff_false]
    intro heq
    have hmem : (if bucketFor es.status = .healthy then EventKind.firstSynced else .created) ∈
        react (bucketFor last.1.status) (bucketFor es.status) (alertOnRecovery es) := by
      rw [← heq]
      exact List.mem_cons_self
    refine isLifecycle_not_mem_react ?_ hmem
    split <;> rfl

theorem getLast?_append_of_last {x : Observation} (h : log.getLast? = some x) (more : List Observation) :
    (log ++ more).getLast? = (x :: more).getLast? := by
  rw [List.getLast?_append, h, List.getLast?_cons]
  cases more.getLast? <;> rfl

/-- What a tick over a list makes of the log, and when its events are the automaton's. -/
theorem work (h : Inv uid s) (ess : List ExternalSecret) (env : PersistEnv)
    (hseeds : ∀ es ∈ ess, es.uid = uid → s.base.poller.seedNSName (seedKey es.ns es.name) = none) :
    ((s.log ++ (observations s.base.poller ess).filter (ofUid uid)).IsChain Reacts ↔
      (∀ last ∈ s.log.getLast?, s.base.poller.prevBucket uid = none → ∀ es ∈ ess.find? (·.uid = uid),
        react last.bucket (bucketFor es.status) (alertOnRecovery es) = [] ∧
          (s.base.poller.initialized && alertOnLifecycle es) = false)) ∧
    ∃ o, Knows (s.base.poller.process env ess).poller uid o ∧
      ∀ b, o = some b → ∃ last, (s.log ++ (observations s.base.poller ess).filter (ofUid uid)).getLast? = some last ∧
        last.bucket = b := by
  obtain ⟨o, hknows, hlast⟩ := h.knows
  cases o with
  | some b =>
    obtain ⟨x, hx, rfl⟩ := hlast b rfl
    obtain ⟨hchain, last, hgetLast, hafter⟩ := observations_known hknows ess
    refine ⟨iff_of_true ?_ (fun _ _ hnone ↦ ?_), _, knows_process hafter env, fun b hb ↦ ?_⟩
    · refine List.isChain_append.mpr ⟨h.chain, hchain.tail, fun y hy z hz ↦ ?_⟩
      rw [hx] at hy
      cases hy
      exact hchain.rel_head? hz
    · rw [hknows.1] at hnone
      cases hnone
    · split at hb
      · cases hb
        exact ⟨last, (getLast?_append_of_last hx _).trans hgetLast, rfl⟩
      · cases hb
  | none =>
    have hunknown := observations_unknown hknows hseeds
    cases hfind : ess.find? (·.uid = uid) with
    | none =>
      rw [hfind] at hunknown
      obtain ⟨hnil, hafter⟩ := hunknown
      rw [hnil, List.append_nil]
      refine ⟨iff_of_true h.chain (fun _ _ _ _ hes ↦ by cases hes), none, ?_, fun _ hb ↦ by cases hb⟩
      simpa only [ite_self] using knows_process hafter env
    | some es =>
      rw [hfind] at hunknown
      obtain ⟨records, rest, hfilter, hkinds, hchain, last, hgetLast, hafter⟩ := hunknown
      have hmem := (mem_uids_of_find hfind).2
      have hprocess := knows_process hafter env
      rw [if_pos hmem] at hprocess
      rw [hfilter]
      refine ⟨?_, _, hprocess, fun b hb ↦ ⟨last, ?_, Option.some.inj hb⟩⟩
      · rw [List.isChain_append]
        constructor
        · rintro ⟨-, -, hjoin⟩ x hx - es' hes'
          cases hes'
          exact (reacts_new hkinds).mp (hjoin x hx _ rfl)
        · intro hcond
          refine ⟨h.chain, hchain, fun x hx y hy ↦ ?_⟩
          cases hy
          exact (reacts_new hkinds).mpr (hcond x hx hknows.1 es rfl)
      · rw [List.getLast?_append, hgetLast]
        rfl

theorem tick_poller (r : StartUp.State) (env : TickEnv) : (r.tick env).poller =
    match StartUp.handed r.handler env r.now with
    | none => r.poller
    | some data => (r.poller.process env.persist data.externalSecrets).poller := by
  change (r.poller.tick r.handler env r.now).1.poller = _
  rw [StartUp.tick_handed]
  cases StartUp.handed r.handler env r.now <;> rfl

/-- A tick after seeding keeps the invariant iff it finds the ExternalSecret as it was left. -/
theorem tick_inv (h : Inv uid s) {env : TickEnv} (hunseeded : Unseeded uid s (.tick env))
    (hpoller : ∀ o, Knows (s.base.tick env).poller uid o → Knows t.base.poller uid o)
    (hlog : t.log = s.log ++ logged uid s (.tick env)) :
    (t.log.IsChain Reacts ↔ FoundAsLeft uid s (.tick env)) ∧ (t.log.IsChain Reacts → Inv uid t) := by
  have htick := tick_poller s.base env
  unfold logged at hlog
  cases hworked : worked s (.tick env) with
  | none =>
    have hhanded : StartUp.handed s.base.handler env s.base.now = none := hworked
    rw [hhanded] at htick
    simp only [hworked, Option.map_none, Option.getD_none, List.filter_nil, List.append_nil] at hlog
    refine ⟨iff_of_true (hlog ▸ h.chain) (fun _ _ _ _ hdata ↦ ?_), fun hchain ↦ ⟨hchain, ?_⟩⟩
    · rw [hworked] at hdata
      cases hdata
    obtain ⟨o, hknows, hlast⟩ := h.knows
    exact ⟨o, hpoller o (htick ▸ hknows), hlog ▸ hlast⟩
  | some data =>
    have hhanded : StartUp.handed s.base.handler env s.base.now = some data := hworked
    rw [hhanded] at htick
    simp only [hworked, Option.map_some, Option.getD_some] at hlog
    obtain ⟨hiff, o, hknows, hlast⟩ := work h data.externalSecrets env.persist (hunseeded data hworked)
    rw [← hlog] at hiff hlast
    refine ⟨hiff.trans ⟨fun hcond last hl hforgot data' hdata ↦ ?_, fun hcond last hl hforgot ↦ ?_⟩,
      fun hchain ↦ ⟨hchain, o, hpoller o (htick ▸ hknows), hlast⟩⟩
    · rw [hworked] at hdata
      cases hdata
      exact hcond last hl hforgot
    · exact hcond last hl hforgot data hworked

theorem seed_memory (p : Poller) (recent : Except String (List Notifications.Notification)) :
    (p.seedFromNotifications recent).prevBucket = p.prevBucket ∧ (p.seedFromNotifications recent).seen = p.seen := by
  cases recent <;> exact ⟨rfl, rfl⟩

/-- Every step logs on as the automaton does iff it finds the ExternalSecret as it was left. -/
theorem step_iff (h : Inv uid s) (hunseeded : Unseeded uid s a) (hs : step uid s a = some t) :
    (t.log.IsChain Reacts ↔ FoundAsLeft uid s a) ∧ (t.log.IsChain Reacts → Inv uid t) := by
  obtain ⟨base, hbase, rfl⟩ := Option.map_eq_some_iff.mp hs
  have idle : worked s a = none → base.poller.prevBucket = s.base.poller.prevBucket →
      base.poller.seen = s.base.poller.seen → ((s.log ++ logged uid s a).IsChain Reacts ↔ FoundAsLeft uid s a) ∧
        ((s.log ++ logged uid s a).IsChain Reacts → Inv uid ⟨base, s.log ++ logged uid s a⟩) := by
    intro hnone hprev hseen
    have hlog : s.log ++ logged uid s a = s.log := by simp [logged, hnone]
    have hinv : Inv uid ⟨base, s.log ++ logged uid s a⟩ := h.idle hprev hseen rfl hlog
    refine ⟨iff_of_true hinv.chain (fun _ _ _ data hdata ↦ ?_), fun _ ↦ hinv⟩
    rw [hnone] at hdata
    cases hdata
  cases a with
  | start recent =>
    simp only [StartUp.step] at hbase
    split at hbase <;> cases hbase
    exact idle rfl (seed_memory _ recent).1 (seed_memory _ recent).2
  | tick env =>
    simp only [StartUp.step] at hbase
    split at hbase <;> cases hbase <;> exact tick_inv h hunseeded (fun o ho ↦ by cases o <;> exact ho) rfl
  | read env =>
    cases hbase
    exact idle rfl rfl rfl
  | invalidateCache =>
    cases hbase
    exact idle rfl rfl rfl
  | advance d =>
    cases hbase
    exact idle rfl rfl rfl

section Run

def dbPassword (status : Status) : ExternalSecret := { ns := "shop", name := "db-password", uid := "uid-9", status }

def lists (ess : Except String (List ExternalSecret)) : StartUp.Act := .tick { fetch := { externalSecrets := ess } }

/-- Two ticks that list the ExternalSecret, the second one as failed. -/
def fails : List StartUp.Act :=
  [.start (.ok []), lists (.ok [dbPassword .synced]), .advance 60000000000, lists (.ok [dbPassword .syncFailed])]

/-- The same, with a tick in between whose list fails after an invalidation of the cache. -/
def failsUnseen : List StartUp.Act :=
  [.start (.ok []), lists (.ok [dbPassword .synced]), .invalidateCache,
    lists (.error "the server was unable to return a response"), .advance 60000000000,
    lists (.ok [dbPassword .syncFailed])]

theorem failsUnseen_log : (exec (step "uid-9") (init 0) failsUnseen).map (fun s ↦
    s.log.map (fun x ↦ (x.1.status, x.2))) = some [(.synced, []), (.syncFailed, [])] := by
  decide

end Run

end KubeCenter.ExternalSecrets.TransitionSpec
