import KubeCenter.ExternalSecrets.Poller

namespace KubeCenter.ExternalSecrets

open Function

namespace Poller

variable {p : Poller} {es : ExternalSecret} {ess : List ExternalSecret} {env : PersistEnv} {a : Attempt}
  {attempts : List Attempt} {uid : String} {b : StatusBucket}

theorem check_same (hseen : p.seen es.uid = true) (hprev : p.prevBucket es.uid = some (bucketFor es.status)) :
    p.check es = ([], p) := by
  have hrecords : (p.check es).1 = [] := by rw [check_known hseen hprev, transitionRecords, if_pos rfl]
  have hp : (p.check es).2 = p := by
    unfold check seed
    simp only [hprev, reduceCtorEq, false_and, if_false, Option.isSome_none, Bool.or_false, hseen, Bool.not_true,
      Bool.false_and, Bool.false_eq_true, Option.map_none, Option.none_or]
    rw [← hprev, ← hseen, update_eq_self, update_eq_self]
  exact Prod.ext hrecords hp

theorem transition_silent {prev current : StatusBucket} (h : transitionRecords es prev current = []) :
    prev = current ∨ isFailureBucket prev = true ∧ current = .healthy := by
  revert h
  unfold transitionRecords
  cases prev <;> cases current <;> simp [isFailureBucket]

theorem checkAll_seen :
    (p.checkAll ess).2.seen uid = true ↔ p.seen uid = true ∨ uid ∈ ess.map ExternalSecret.uid := by
  induction ess generalizing p with
  | nil => simp [checkAll]
  | cons es ess ih =>
    have hhead : (p.check es).2.seen uid = true ↔ p.seen uid = true ∨ uid = es.uid := by
      rw [check_seen, update_apply]
      split
      · next h => simp [h]
      · next h => simp [h]
    rw [List.map_cons, List.mem_cons, ← or_assoc, ← hhead]
    exact ih

theorem checkAll_same (h : ∀ es ∈ ess, p.seen es.uid = true ∧ p.prevBucket es.uid = some (bucketFor es.status)) :
    p.checkAll ess = ([], p) := by
  induction ess with
  | nil => rfl
  | cons es ess ih =>
    obtain ⟨hseen, hprev⟩ := h es List.mem_cons_self
    simp only [checkAll, check_same hseen hprev, ih (fun es hes ↦ h es (List.mem_cons_of_mem _ hes)), List.append_nil]

theorem checkAll_records_cons (h : (p.checkAll (es :: ess)).1 = []) :
    (p.check es).1 = [] ∧ ((p.check es).2.checkAll ess).1 = [] :=
  List.append_eq_nil_iff.mp h

theorem checkAll_some (h : (p.prevBucket uid).isSome = true) : ((p.checkAll ess).2.prevBucket uid).isSome = true := by
  induction ess generalizing p with
  | nil => exact h
  | cons es ess ih =>
    refine ih (p := (p.check es).2) ?_
    rw [check_prevBucket, update_apply]
    split
    · rfl
    · exact h

/-- From the healthy bucket nothing silent leads out. -/
theorem checkAll_healthy (hseen : p.seen uid = true) (hprev : p.prevBucket uid = some .healthy)
    (h : (p.checkAll ess).1 = []) : (p.checkAll ess).2.prevBucket uid = some .healthy := by
  induction ess generalizing p with
  | nil => exact hprev
  | cons es ess ih =>
    obtain ⟨hhead, htail⟩ := checkAll_records_cons h
    refine ih (p := (p.check es).2) ?_ ?_ htail
    · rw [check_seen, update_apply]
      split
      · rfl
      · exact hseen
    · rw [check_prevBucket, update_apply]
      split
      · next huid =>
        subst huid
        rw [check_known hseen hprev] at hhead
        rcases transition_silent hhead with heq | ⟨hfail, -⟩
        · rw [heq]
        · cases hfail
      · exact hprev

/-- A silent pass that leaves the buckets as they were met each one as it was. -/
theorem checkAll_silent (hseen : ∀ es ∈ ess, p.seen es.uid = true) (h : (p.checkAll ess).1 = [])
    (hsame : ∀ es ∈ ess, (p.checkAll ess).2.prevBucket es.uid = p.prevBucket es.uid) :
    ∀ es ∈ ess, p.prevBucket es.uid = some (bucketFor es.status) := by
  induction ess with
  | nil => exact fun es hes ↦ by cases hes
  | cons es ess ih =>
    have hs := hseen es List.mem_cons_self
    obtain ⟨hhead, htail⟩ := checkAll_records_cons h
    have hfinal : ((p.check es).2.checkAll ess).2.prevBucket es.uid = p.prevBucket es.uid :=
      hsame es List.mem_cons_self
    have hcurrent : (p.check es).2.prevBucket es.uid = some (bucketFor es.status) := by
      rw [check_prevBucket, update_self]
    have hprev : p.prevBucket es.uid = some (bucketFor es.status) := by
      cases hp : p.prevBucket es.uid with
      | none =>
        have hsome : (((p.check es).2.checkAll ess).2.prevBucket es.uid).isSome = true :=
          checkAll_some (by rw [hcurrent]; rfl)
        rw [hfinal, hp] at hsome
        cases hsome
      | some prev =>
        rw [check_known hs hp] at hhead
        rcases transition_silent hhead with heq | ⟨hfail, hhealthy⟩
        · rw [heq]
        · -- a silent recovery would be seen at the end, as nothing silent undoes it
          rw [hhealthy] at hcurrent
          have hend := checkAll_healthy (by rw [check_seen, update_self]) hcurrent htail
          rw [hfinal, hp] at hend
          cases hend
          cases hfail
    have hcheck := check_same hs hprev
    intro e he
    rcases List.mem_cons.mp he with rfl | he
    · exact hprev
    · refine ih (fun e he ↦ hseen e (List.mem_cons_of_mem _ he)) ?_ (fun e he ↦ ?_) e he
      · rwa [hcheck] at htail
      · have hkeep := hsame e (List.mem_cons_of_mem _ he)
        simpa only [checkAll, hcheck] using hkeep

theorem persistEach_prevAttemptAt (p : Poller) (env : PersistEnv) (attempts : List Attempt) (uid : String) :
    (p.persistEach env attempts).2.prevAttemptAt uid = p.prevAttemptAt uid ∨
      ∃ a ∈ attempts, a.es.uid = uid ∧ (p.persistEach env attempts).2.prevAttemptAt uid = some a.attemptAt := by
  induction attempts generalizing p with
  | nil => exact .inl rfl
  | cons a attempts ih =>
    rcases ih (p.persistOne env a).2 with h | ⟨a', ha', huid, h⟩
    · rw [persistOne_prevAttemptAt] at h
      by_cases hin : env.insertOk a.es.uid = true ∧ uid = a.es.uid
      · rw [if_pos hin.1, hin.2, update_self] at h
        exact .inr ⟨a, List.mem_cons_self, hin.2.symm, hin.2 ▸ h⟩
      · refine .inl (h.trans ?_)
        split
        · next hok => exact update_of_ne (fun huid ↦ hin ⟨hok, huid⟩) ..
        · rfl
    · exact .inr ⟨a', List.mem_cons_of_mem _ ha', huid, h⟩

/-- A successful INSERT leaves one of the attempts behind. -/
theorem persistEach_inserted (ha : a ∈ attempts) (hok : env.insertOk a.es.uid = true) :
    ∃ a' ∈ attempts, a'.es.uid = a.es.uid ∧
      (p.persistEach env attempts).2.prevAttemptAt a.es.uid = some a'.attemptAt := by
  induction attempts generalizing p with
  | nil => cases ha
  | cons b attempts ih =>
    rcases List.mem_cons.mp ha with rfl | ha
    · rcases persistEach_prevAttemptAt (p.persistOne env a).2 env attempts a.es.uid with h | ⟨a', ha', huid, h⟩
      · rw [persistOne_prevAttemptAt, if_pos hok, update_self] at h
        exact ⟨a, List.mem_cons_self, rfl, h⟩
      · exact ⟨a', List.mem_cons_of_mem _ ha', huid, h⟩
    · obtain ⟨a', ha', huid, h⟩ := ih (p := (p.persistOne env b).2) ha
      exact ⟨a', List.mem_cons_of_mem _ ha', huid, h⟩

theorem fetchedKeys_eq {es : ExternalSecret} {outcome : Outcome} {keys : KeyHashes}
    (h : fetchedKeys env es outcome = some keys) : env.secretKeys es.uid = some keys := by
  unfold fetchedKeys at h
  split at h
  · cases h
  · exact h

theorem persistEach_keeps_keys {keys : KeyHashes} (hkeys : env.secretKeys uid = some keys)
    (h : p.prevKeys uid = some keys) : (p.persistEach env attempts).2.prevKeys uid = some keys := by
  induction attempts generalizing p with
  | nil => exact h
  | cons a attempts ih =>
    refine ih (p := (p.persistOne env a).2) ?_
    rw [persistOne_prevKeys]
    split
    · exact h
    · next keys' hfetched =>
      rw [update_apply]
      split
      · next huid =>
        subst huid
        exact (fetchedKeys_eq hfetched).symm.trans hkeys
      · exact h

theorem persistEach_fetched {keys : KeyHashes} (ha : a ∈ attempts)
    (hkeys : fetchedKeys env a.es a.outcome = some keys) :
    (p.persistEach env attempts).2.prevKeys a.es.uid = some keys := by
  induction attempts generalizing p with
  | nil => cases ha
  | cons b attempts ih =>
    rcases List.mem_cons.mp ha with rfl | ha
    · refine persistEach_keeps_keys (p := (p.persistOne env a).2) (fetchedKeys_eq hkeys) ?_
      rw [persistOne_prevKeys, hkeys]
      exact update_self ..
    · exact ih (p := (p.persistOne env b).2) ha

theorem persistOne_same (hok : env.insertOk a.es.uid = false)
    (hkeys : ∀ keys, fetchedKeys env a.es a.outcome = some keys → p.prevKeys a.es.uid = some keys) :
    p.persistOne env a = ([], p) := by
  unfold persistOne resolveDiffKeys
  cases h : fetchedKeys env a.es a.outcome with
  | none => simp [hok]
  | some keys =>
    have hsame : update p.prevKeys a.es.uid (some keys) = p.prevKeys := by rw [← hkeys keys h, update_eq_self]
    simp [hok, hsame]

theorem persistEach_same (h : ∀ a ∈ attempts, env.insertOk a.es.uid = false ∧
    ∀ keys, fetchedKeys env a.es a.outcome = some keys → p.prevKeys a.es.uid = some keys) :
    p.persistEach env attempts = ([], p) := by
  induction attempts with
  | nil => rfl
  | cons a attempts ih =>
    obtain ⟨hok, hkeys⟩ := h a List.mem_cons_self
    simp only [persistEach, persistOne_same hok hkeys, ih (fun a ha ↦ h a (List.mem_cons_of_mem _ ha)), List.append_nil]

theorem prune_same (h : ∀ uid, p.prevBucket uid ≠ none → uid ∈ ess.map ExternalSecret.uid) : p.prune ess = p := by
  have hprunes : ∀ uid, p.prunes ess uid = false := by
    intro uid
    unfold prunes
    cases hb : p.prevBucket uid with
    | none => rfl
    | some b =>
      have hmem := h uid (by rw [hb]; exact Option.some_ne_none b)
      rw [List.contains_iff_mem.mpr hmem]
      rfl
  unfold prune
  simp only [hprunes, Bool.false_eq_true, if_false]

end Poller

/-- Nothing of the poller's memory moved and nothing was emitted. -/
structure Undisturbed (p : Poller) (r : Ticked) : Prop where
  prevBucket : r.poller.prevBucket = p.prevBucket
  seen : r.poller.seen = p.seen
  prevAttemptAt : r.poller.prevAttemptAt = p.prevAttemptAt
  prevKeys : r.poller.prevKeys = p.prevKeys
  records : r.records = []

/-- The list repeats what the poller remembers: every UID remembered is in it, each of its
ExternalSecrets was seen and is in the bucket it was in, and no attempt gets recorded for one. -/
structure Repeats (p : Poller) (env : PersistEnv) (ess : List ExternalSecret) : Prop where
  listed : ∀ uid, p.prevBucket uid ≠ none → uid ∈ ess.map ExternalSecret.uid
  known : ∀ es ∈ ess, p.seen es.uid = true ∧ p.prevBucket es.uid = some (bucketFor es.status)
  recorded : p.historyStore = true → ∀ es ∈ ess, ∀ a, p.attempt es = some a → env.insertOk es.uid = false ∧
    ∀ keys, Poller.fetchedKeys env es a.outcome = some keys → p.prevKeys es.uid = some keys

namespace Poller

variable {p : Poller} {ess : List ExternalSecret} {env : PersistEnv}

theorem process_repeated (h : Repeats p env ess) : p.process env ess = { poller := p } := by
  have hpersist : p.persistAttempts env ess = ([], p) := by
    unfold persistAttempts
    split
    · next hstore =>
      refine persistEach_same (fun a ha ↦ ?_)
      obtain ⟨es, hes, hattempt⟩ := List.mem_filterMap.mp ha
      obtain ⟨rfl, -⟩ := attempt_eq_some_iff.mp hattempt
      exact h.recorded hstore a.es hes a hattempt
    · rfl
  simp only [process, checkAll_same h.known, hpersist, prune_same h.listed]

theorem persistAttempts_rest (p : Poller) (env : PersistEnv) (ess : List ExternalSecret) :
    (p.persistAttempts env ess).2.prevBucket = p.prevBucket ∧ (p.persistAttempts env ess).2.seen = p.seen := by
  obtain ⟨_, _, hpersist⟩ := persistAttempts_writes p env ess
  rw [hpersist]
  exact ⟨rfl, rfl⟩

theorem prune_unlisted {uid : String} (h : uid ∉ ess.map ExternalSecret.uid) :
    (p.prune ess).prevBucket uid = none := by
  cases hb : p.prevBucket uid with
  | none => exact (ite_eq_left_iff.mpr (fun _ ↦ hb))
  | some b =>
    refine if_pos ?_
    rw [prunes, hb]
    simpa using h

theorem process_poller : (p.process env ess).poller = ((p.checkAll ess).2.persistAttempts env ess).2.prune ess := rfl

/-- A tick that moves nothing forgets nothing, so its list has every UID remembered. -/
theorem undisturbed_listed (h : Undisturbed p (p.process env ess)) {uid : String} (huid : p.prevBucket uid ≠ none) :
    uid ∈ ess.map ExternalSecret.uid := by
  by_contra hnot
  have hgone : (p.process env ess).poller.prevBucket uid = none := by rw [process_poller, prune_unlisted hnot]
  rw [h.prevBucket] at hgone
  exact huid hgone

theorem undisturbed_known (h : Undisturbed p (p.process env ess)) :
    ∀ es ∈ ess, p.seen es.uid = true ∧ p.prevBucket es.uid = some (bucketFor es.status) := by
  obtain ⟨hbucket, hseen⟩ := persistAttempts_rest (p.checkAll ess).2 env ess
  have hknown : ∀ es ∈ ess, p.seen es.uid = true := by
    intro es hes
    have hmem := List.mem_map_of_mem (f := ExternalSecret.uid) hes
    rw [← h.seen, process_poller, (prune_listed hmem).2.1, hseen]
    exact checkAll_seen.mpr (.inr hmem)
  have hsame : ∀ es ∈ ess, (p.checkAll ess).2.prevBucket es.uid = p.prevBucket es.uid := by
    intro es hes
    rw [← h.prevBucket, process_poller, (prune_listed (List.mem_map_of_mem hes)).1, hbucket]
  exact fun es hes ↦ ⟨hknown es hes, checkAll_silent hknown h.records hsame es hes⟩

theorem undisturbed_recorded (h : Undisturbed p (p.process env ess)) (hstore : p.historyStore = true)
    {es : ExternalSecret} (hes : es ∈ ess) {a : Attempt} (ha : p.attempt es = some a) :
    env.insertOk es.uid = false ∧
      ∀ keys, fetchedKeys env es a.outcome = some keys → p.prevKeys es.uid = some keys := by
  obtain ⟨hat, hkeys, hq, -⟩ := checkAll_rest p ess
  have hpersist : (p.checkAll ess).2.persistAttempts env ess =
      (p.checkAll ess).2.persistEach env (ess.filterMap p.attempt) := by
    rw [persistAttempts, hq, hstore, if_pos rfl, attempt_congr hat]
  obtain ⟨-, -, hkeptAt, hkeptKeys⟩ := prune_listed (p := ((p.checkAll ess).2.persistAttempts env ess).2)
    (List.mem_map_of_mem (f := ExternalSecret.uid) hes)
  rw [← process_poller, hpersist] at hkeptAt hkeptKeys
  rw [h.prevAttemptAt] at hkeptAt
  rw [h.prevKeys] at hkeptKeys
  have hmem : a ∈ ess.filterMap p.attempt := List.mem_filterMap.mpr ⟨es, hes, ha⟩
  obtain ⟨haes, -⟩ := attempt_eq_some_iff.mp ha
  constructor
  · by_contra hok
    rw [Bool.not_eq_false] at hok
    obtain ⟨a', ha', huid, hinserted⟩ :=
      persistEach_inserted (p := (p.checkAll ess).2) hmem (show env.insertOk a.es.uid = true by rw [haes]; exact hok)
    obtain ⟨e', -, hattempt⟩ := List.mem_filterMap.mp ha'
    obtain ⟨hes', -, -, hnew⟩ := attempt_eq_some_iff.mp hattempt
    rw [haes] at huid hinserted
    rw [← hes', huid] at hnew
    exact hnew (hkeptAt.trans hinserted)
  · intro keys hfetched
    rw [hkeptKeys, ← haes]
    exact persistEach_fetched hmem (by rw [haes]; exact hfetched)

theorem undisturbed_process_iff : Undisturbed p (p.process env ess) ↔ Repeats p env ess := by
  constructor
  · intro h
    exact ⟨fun _ ↦ undisturbed_listed h, undisturbed_known h,
      fun hstore _ hes _ ha ↦ undisturbed_recorded h hstore hes ha⟩
  · intro h
    rw [process_repeated h]
    exact ⟨rfl, rfl, rfl, rfl, rfl⟩

end Poller

/-- The list that stands in for the one that failed: what the cache has, thresholds resolved
again, or nothing. -/
def standIn (h : Handler) (env : FetchEnv) (now : ℤ) : List ExternalSecret :=
  applyThresholds (((h.prior env).map CachedData.externalSecrets).getD [])
    (lastKnownGood env.stores ((h.prior env).map CachedData.stores))
    (lastKnownGood env.clusterStores ((h.prior env).map CachedData.clusterStores)) now

/-- All of a fetch's lists come back. -/
structure FetchEnv.Succeeds (env : FetchEnv) : Prop where
  inTime : env.contextErr = none
  listed : ∃ ess stores clusterStores,
    env.externalSecrets = .ok ess ∧ env.stores = .ok stores ∧ env.clusterStores = .ok clusterStores

/-- The failed tick left no trace: memory, nothing emitted, and a later tick whose fetch
succeeds does what it would have done without it. -/
structure LeftNoTrace (p : Poller) (h : Handler) (r : Ticked × Handler) : Prop where
  undisturbed : Undisturbed p r.1
  next : ∀ env now, env.fetch.Succeeds → h.fresh now = none → r.2.fresh now = none →
    (r.1.poller.tick r.2 env now).1 = (p.tick h env now).1

variable {p : Poller} {h h' : Handler} {env : TickEnv} {now : ℤ}

theorem getCached_succeeds {env : FetchEnv} (henv : env.Succeeds) (hold : h.fresh now = none)
    (hold' : h'.fresh now = none) : (h'.getCached env now).1 = (h.getCached env now).1 := by
  obtain ⟨hin, ess, stores, clusterStores, hess, hstores, hcluster⟩ := henv
  simp only [Handler.getCached, hold, hold', Handler.fetchAll, hin, Handler.fetchedData, hess, hstores, hcluster,
    lastKnownGood]

theorem tick_succeeds (henv : env.fetch.Succeeds) (hold : h.fresh now = none) (hold' : h'.fresh now = none) :
    (p.tick h' env now).1 = (p.tick h env now).1 := by
  have hcached := getCached_succeeds henv hold hold'
  unfold Poller.tick
  split
  · revert hcached
    rcases h'.getCached env.fetch now with ⟨result', handler'⟩
    rcases h.getCached env.fetch now with ⟨result, handler⟩
    rintro rfl
    cases result' <;> rfl
  · rfl

/-- What a tick does whose list of ExternalSecrets fails. -/
theorem tick_failed (p : Poller) {err : String} (havail : env.available = true) (hold : h.fresh now = none)
    (hfail : env.fetch.externalSecrets = .error err) :
    (p.tick h env now).1 = if env.fetch.contextErr = none then p.process env.persist (standIn h env.fetch now)
      else { poller := p } := by
  unfold Poller.tick Handler.getCached Handler.fetchAll
  rw [if_pos havail, hold]
  cases hctx : env.fetch.contextErr with
  | some err => rfl
  | none =>
    have hdata : (h.fetchedData env.fetch now).externalSecrets = standIn h env.fetch now := by
      unfold Handler.fetchedData standIn
      rw [hfail]
      rfl
    simp only [hdata, if_true]

/-- A tick during which the ExternalSecret list fails leaves no trace iff its fetch as a whole
gives up, or the stand-in list repeats what the poller remembers. -/
theorem failedList_iff (p : Poller) (h : Handler) (env : TickEnv) (now : ℤ) (err : String)
    (havail : env.available = true) (hold : h.fresh now = none) (hfail : env.fetch.externalSecrets = .error err) :
    LeftNoTrace p h (p.tick h env now) ↔
      env.fetch.contextErr ≠ none ∨ Repeats p env.persist (standIn h env.fetch now) := by
  have htick := tick_failed p havail hold hfail
  have hsame : env.fetch.contextErr ≠ none ∨ Repeats p env.persist (standIn h env.fetch now) →
      (p.tick h env now).1 = { poller := p } := by
    rintro (hctx | hrepeats)
    · rw [htick, if_neg hctx]
    · rw [htick, Poller.process_repeated hrepeats, ite_self]
  constructor
  · rintro ⟨hund, -⟩
    by_cases hctx : env.fetch.contextErr = none
    · rw [htick, if_pos hctx] at hund
      exact .inr (Poller.undisturbed_process_iff.mp hund)
    · exact .inl hctx
  · intro hcond
    have hpoller := hsame hcond
    refine ⟨?_, fun env' now' henv hold' hold'' ↦ ?_⟩
    · rw [hpoller]
      exact ⟨rfl, rfl, rfl, rfl, rfl⟩
    · rw [hpoller]
      exact tick_succeeds henv hold' hold''

def vaultToken : ExternalSecret := { ns := "shop", name := "vault-token", uid := "uid-1", status := .syncFailed }

/-- The poller and the handler after a first tick that finds one failing ExternalSecret. -/
def afterFirstTick : Ticked × Handler := Poller.tick {} {} { fetch := { externalSecrets := .ok [vaultToken] } } 0

def watchedPoller : Poller := { afterFirstTick.1.poller with initialized := true }

def invalidatedHandler : Handler := afterFirstTick.2.invalidateCache

def apiDown : TickEnv := { fetch := { externalSecrets := .error "the server was unable to return a response" } }

theorem failedList_iff_vaultToken :
    apiDown.available = true ∧ invalidatedHandler.fresh minute = none ∧
      (LeftNoTrace watchedPoller invalidatedHandler (watchedPoller.tick invalidatedHandler apiDown minute) ↔
        apiDown.fetch.contextErr ≠ none ∨
          Repeats watchedPoller apiDown.persist (standIn invalidatedHandler apiDown.fetch minute)) :=
  ⟨rfl, rfl, failedList_iff watchedPoller invalidatedHandler apiDown minute _ rfl rfl rfl⟩

/-- After an invalidation the failed list comes in as an empty one, and the prune forgets everything. -/
theorem not_leftNoTrace :
    apiDown.available = true ∧ invalidatedHandler.fresh minute = none ∧
      ¬ LeftNoTrace watchedPoller invalidatedHandler (watchedPoller.tick invalidatedHandler apiDown minute) := by
  refine ⟨rfl, rfl, fun h ↦ ?_⟩
  have hbucket := congrFun h.undisturbed.prevBucket "uid-1"
  exact absurd hbucket (by decide)

end KubeCenter.ExternalSecrets
