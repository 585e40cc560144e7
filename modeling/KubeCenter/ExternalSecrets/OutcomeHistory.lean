import Mathlib.Data.List.Nodup
import Mathlib.Data.List.Sort
import KubeCenter.ExternalSecrets.BulkWorker
import KubeCenter.ExternalSecrets.Timeline

/-! Which outcomes the timeline records. -/

namespace KubeCenter.ExternalSecrets.OutcomeHistory

variable {s : Timeline} {t : Tick} {es : ExternalSecret} {outcome : Outcome} {attemptAt : ℤ}

def latestByUID (rows : List HistoryEntry) (uid : String) : Option HistoryEntry :=
  ((rows.filter (fun row ↦ row.uid = uid)).insertionSort (fun i j ↦ j.attemptAt ≤ i.attemptAt)).head?

/-- The tick stores a row for every outcome it observes that is not the one of the UID's latest row, given that the
database accepts the statement. -/
def RecordsChange (s : Timeline) (t : Tick) : Prop :=
  ∀ es ∈ t.ess, ∀ outcome, outcomeFor es.status = some outcome → t.env.insertOk es.uid = true →
    (latestByUID s.rows es.uid).map HistoryEntry.outcome ≠ some outcome →
      ∃ row ∈ s.newRows t es.uid, row.outcome = outcome

/-- A tick stores a row of the outcome it observes iff the second of the last sync is neither the attempt that the poller
recorded last for the UID nor that of a stored row, and it stores no second row. -/
theorem newRows_iff (hes : es ∈ t.ess) (hstore : s.poller.historyStore = true)
    (hok : t.env.insertOk es.uid = true) :
    ((∃ row ∈ s.newRows t es.uid, row.outcome = outcome ∧ row.attemptAt = attemptAt) ↔
      outcomeFor es.status = some outcome ∧ attemptTimeFor es = some attemptAt ∧
        s.poller.prevAttemptAt es.uid ≠ some attemptAt ∧ ¬ HasRow s.rows es.uid attemptAt) ∧
      (s.newRows t es.uid).length ≤ 1 := by
  cases ha : s.poller.attempt es with
  | none =>
    rw [Timeline.newRows_of_attempt_none hes hstore ha]
    refine ⟨⟨fun ⟨_, hrow, _⟩ ↦ (List.not_mem_nil hrow).elim, ?_⟩, Nat.zero_le 1⟩
    rintro ⟨houtcome, htime, hprev, -⟩
    have hsome : s.poller.attempt es = some ⟨es, outcome, attemptAt⟩ :=
      Poller.attempt_eq_some_iff.mpr ⟨rfl, houtcome, htime, hprev⟩
    rw [ha] at hsome
    cases hsome
  | some a =>
    obtain ⟨-, houtcome, htime, hprev⟩ := Poller.attempt_eq_some_iff.mp ha
    rw [Timeline.newRows_of_attempt hes hstore ha]
    by_cases hrow : HasRow s.rows es.uid a.attemptAt
    · rw [if_neg (fun h ↦ h.2 hrow)]
      refine ⟨⟨fun ⟨_, hmem, _⟩ ↦ (List.not_mem_nil hmem).elim, ?_⟩, Nat.zero_le 1⟩
      rintro ⟨-, htime', -, hrow'⟩
      cases htime.symm.trans htime'
      exact (hrow' hrow).elim
    · rw [if_pos ⟨hok, hrow⟩]
      refine ⟨⟨?_, ?_⟩, le_rfl⟩
      · rintro ⟨row, hmem, rfl, rfl⟩
        rw [List.mem_singleton.mp hmem]
        exact ⟨houtcome, htime, hprev, hrow⟩
      · rintro ⟨houtcome', htime', -, -⟩
        exact ⟨_, List.mem_singleton_self _, Option.some.inj (houtcome.symm.trans houtcome'),
          Option.some.inj (htime.symm.trans htime')⟩

/-- An ExternalSecret at a sync in the second after the epoch. -/
def observed (status : Status) : ExternalSecret := { ns := "team", name := "db", uid := "u1", status, lastSyncTime := some second }

def observation (status : Status) : Tick := ⟨[observed status], {}, List.nodup_singleton _⟩

theorem newRows_iff_first : ((∃ row ∈ Timeline.newRows {} (observation .syncFailed) "u1",
      row.outcome = .failure ∧ row.attemptAt = second) ↔
    outcomeFor .syncFailed = some .failure ∧ attemptTimeFor (observed .syncFailed) = some second ∧
      (none : Option ℤ) ≠ some second ∧ ¬ HasRow [] "u1" second) ∧
    (Timeline.newRows {} (observation .syncFailed) "u1").length ≤ 1 :=
  have hlisted : observed .syncFailed ∈ (observation .syncFailed).ess := List.mem_singleton_self _
  newRows_iff hlisted rfl rfl

/-- A sync that fails after a success leaves the time of the last sync where it was. -/
theorem not_recordsChange :
    ¬ ∀ (ticks : List Tick) (t : Tick), RecordsChange (ticks.foldl Timeline.tick {}) t := by
  intro h
  obtain ⟨row, hrow, -⟩ := h [observation .synced] (observation .syncFailed) (observed .syncFailed)
    (List.mem_singleton_self _) .failure rfl rfl (by decide)
  have hnone : (Timeline.tick {} (observation .synced)).newRows (observation .syncFailed) "u1" = [] := by
    have hlisted : observed .syncFailed ∈ (observation .syncFailed).ess := List.mem_singleton_self _
    apply Timeline.newRows_of_attempt_none hlisted
    · rfl
    · decide
  exact List.not_mem_nil (hnone ▸ hrow)

end KubeCenter.ExternalSecrets.OutcomeHistory

namespace KubeCenter.ExternalSecrets

open KubeCenter.Core KubeCenter.Store ForceSync

theorem classifyPatchError_ne_panic (err : RequestError) : classifyPatchError err ≠ "worker_panic" := by
  unfold classifyPatchError
  split
  · decide
  · split
    · decide
    · split
      · decide
      · split
        · decide
        · intro h
          have htext := congrArg String.toList h
          simp [String.toList_append] at htext

theorem failureReason_ne_panic (err : RequestError) : failureReason err ≠ "worker_panic" := by
  unfold failureReason
  split
  · decide
  · split
    · decide
    · split
      · decide
      · exact classifyPatchError_ne_panic err

/-- Whatever the outcome, it goes to one list under the target's uid. -/
theorem count_recordOutcome (batch : BulkOutcomeBatch) (uid : String) (err : Option PatchError) (u : String) :
    (recordOutcome batch uid err).targets.count u = batch.targets.count u + [uid].count u := by
  have happend : ∀ b : BulkOutcomeBatch, b.targets = [uid] →
      (batch.append b).targets.count u = batch.targets.count u + [uid].count u := by
    intro b hb
    rw [batch.count_targets_append, hb]
  have hfailed : ∀ reason, reason ≠ "worker_panic" →
      BulkOutcomeBatch.targets { failed := [⟨uid, reason⟩] } = [uid] := by
    intro reason hreason
    simp [BulkOutcomeBatch.targets, BulkOutcomeBatch.workerPanic, hreason]
  cases err with
  | none => simpa [recordOutcome, BulkOutcomeBatch.append] using happend { succeeded := [uid] } rfl
  | some err =>
    cases err with
    | alreadyRefreshing =>
      simpa [recordOutcome, BulkOutcomeBatch.append] using happend { skipped := [⟨uid, "already_refreshing"⟩] } rfl
    | uidDrifted =>
      simpa [recordOutcome, BulkOutcomeBatch.append] using happend _ (hfailed "uid_drifted" (by decide))
    | request err =>
      simpa [recordOutcome, BulkOutcomeBatch.append] using happend _ (hfailed _ (failureReason_ne_panic err))

namespace JobRun

/-- The targets still to be patched, where the worker is to go on. -/
def remaining (msg : BulkJobMessage) : WorkerAt → Option (List BulkScopeTarget)
  | .starting => some msg.targets
  | .top rest | .waiting rest | .patched _ _ rest | .flushing (.interCall rest) => some rest
  | .patching target rest => some (target :: rest)
  | _ => none

/-- Outside the loop and its last flush the batch is empty. -/
def flushed : WorkerAt → Bool
  | .top _ | .patching _ _ | .patched _ _ _ | .flushing _ | .waiting _ => false
  | _ => true

def afterComplete : WorkerAt → Bool
  | .finishing | .recovering | .recovered | .exited => true
  | _ => false

structure Inv (msg : BulkJobMessage) (s : JobRun) : Prop where
  order : s.processed <+: msg.uids
  rest : ∀ rest, remaining msg s.pos = some rest → msg.uids = s.processed ++ rest.map BulkScopeTarget.uid
  balance : ∀ uid, s.processed.count uid =
    s.recorded.count uid + s.batch.targets.count uid + (inFlight s.pos).count uid + s.dropped.count uid
  applied : ∀ uid ∈ s.applied, uid ∈ s.processed
  batch : flushed s.pos = true → s.batch = {}
  completed : s.row.active = false → afterComplete s.pos = true ∧ ∀ uid ∈ s.applied, uid ∉ s.dropped

variable {msg : BulkJobMessage} {s t : JobRun}

theorem inv_init (msg : BulkJobMessage) (createdAt : ℤ) : (init msg createdAt).Inv msg where
  order := List.nil_prefix
  rest rest h := by
    cases h
    rfl
  balance uid := rfl
  applied uid h := absurd h List.not_mem_nil
  batch _ := rfl
  completed h := by simp [init, BulkJobMessage.row, ESOBulkRefreshJob.active] at h

theorem flushed_of_afterComplete {pos : WorkerAt} (h : afterComplete pos = true) :
    flushed pos = true ∧ inFlight pos = [] := by
  cases pos <;> simp [afterComplete, flushed, inFlight] at h ⊢

/-- Once the row is completed, what is missing from it is what was lost. -/
theorem Inv.balance_completed (h : s.Inv msg) (hpos : afterComplete s.pos = true) (uid : String) :
    s.processed.count uid = s.recorded.count uid + s.dropped.count uid := by
  obtain ⟨hflushed, hflight⟩ := flushed_of_afterComplete hpos
  have hb := h.balance uid
  rw [h.batch hflushed, hflight] at hb
  simpa [BulkOutcomeBatch.targets] using hb

theorem Inv.conserved (h : s.Inv msg) : s.Conserved msg := by
  have hcounted : s.row.active = false → ∀ uid ∈ s.applied, s.recorded.count uid = s.processed.count uid := by
    intro hrow uid huid
    obtain ⟨hpos, hlost⟩ := h.completed hrow
    have hb := h.balance_completed hpos uid
    have hzero : s.dropped.count uid = 0 := List.count_eq_zero.mpr (hlost uid huid)
    omega
  refine ⟨fun hrow hnodup uid huid ↦ ?_, hcounted, fun hrow uid ↦ ?_⟩
  · rw [hcounted hrow uid huid]
    exact List.count_eq_one_of_mem (hnodup.sublist h.order.sublist) (h.applied uid huid)
  · have hb := h.balance_completed (h.completed hrow).1 uid
    omega

/-- A step that leaves row, outcomes and history alone need only say where it goes. -/
theorem Inv.move (h : s.Inv msg) {pos : WorkerAt} (hrow : s.row.active = true)
    (hremaining : ∀ rest, remaining msg pos = some rest → remaining msg s.pos = some rest)
    (hflight : inFlight pos = []) (hflight' : inFlight s.pos = [])
    (hflushed : flushed pos = true → flushed s.pos = true) :
    Inv msg { s with pos } where
  order := h.order
  rest rest hr := h.rest rest (hremaining rest hr)
  balance uid := by
    have hb := h.balance uid
    rw [hflight'] at hb
    rwa [hflight]
  applied := h.applied
  batch hf := h.batch (hflushed hf)
  completed hc := by simp [hrow] at hc

/-- The row is completed only after the loop. -/
theorem Inv.active (h : s.Inv msg) (hpos : afterComplete s.pos = false) : s.row.active = true := by
  by_contra hrow
  have hc := (h.completed (by simpa using hrow)).1
  simp [hpos] at hc

theorem Inv.start (h : s.Inv msg) {impersonates : Bool} (hs : s.step msg (.start impersonates) = some t) :
    t.Inv msg := by
  simp only [step] at hs
  split at hs
  · rename_i hpos
    have hrow : s.row.active = true := h.active (by rw [hpos]; rfl)
    have hrefuse : Inv msg { s with pos := .refusing } :=
      h.move hrow (by simp [JobRun.remaining]) rfl (by rw [hpos]; rfl) (by simp [hpos, flushed])
    have hloop : Inv msg { s with pos := .top msg.targets } :=
      h.move hrow (by simp [JobRun.remaining, hpos]) rfl (by rw [hpos]; rfl) (by simp [hpos, flushed])
    split at hs
    · cases hs
      exact hrefuse
    · split at hs
      · cases hs
        exact hloop
      · cases hs
        exact hrefuse
  · cases hs

theorem Inv.top (h : s.Inv msg) {cancelled : Bool} (hs : s.step msg (.top cancelled) = some t) : t.Inv msg := by
  simp only [step] at hs
  split at hs
  · rename_i hpos
    cases hs
    exact h.move (h.active (by rw [hpos]; rfl)) (by simp [JobRun.remaining]) rfl (by rw [hpos]; rfl)
      (by simp [flushed])
  · rename_i target rest hpos
    have hrow : s.row.active = true := h.active (by rw [hpos]; rfl)
    split at hs
    · cases hs
      exact h.move hrow (by simp [JobRun.remaining]) rfl (by rw [hpos]; rfl) (by simp [flushed])
    · cases hs
      exact h.move hrow (by simp [JobRun.remaining, hpos]) rfl (by rw [hpos]; rfl) (by simp [flushed])
  · cases hs

theorem Inv.wait (h : s.Inv msg) {cancelled : Bool} (hs : s.step msg (.wait cancelled) = some t) : t.Inv msg := by
  simp only [step] at hs
  split at hs
  · rename_i rest hpos
    have hrow : s.row.active = true := h.active (by rw [hpos]; rfl)
    cases hs
    cases cancelled with
    | true => exact h.move hrow (by simp [JobRun.remaining]) rfl (by rw [hpos]; rfl) (by simp [flushed])
    | false => exact h.move hrow (by simp [JobRun.remaining, hpos]) rfl (by rw [hpos]; rfl) (by simp [flushed])
  · cases hs

theorem Inv.patch (h : s.Inv msg) {applied : Bool} {err : Option PatchError}
    (hs : s.step msg (.patch applied err) = some t) : t.Inv msg := by
  simp only [step] at hs
  split at hs
  · rename_i target rest hpos
    split at hs
    · cases hs
      have hrow : s.row.active = true := h.active (by rw [hpos]; rfl)
      have huids : msg.uids = s.processed ++ target.uid :: rest.map BulkScopeTarget.uid :=
        h.rest (target :: rest) (by rw [hpos]; rfl)
      have hsplit : msg.uids = (s.processed ++ [target.uid]) ++ rest.map BulkScopeTarget.uid := by
        rw [huids, List.append_assoc, List.singleton_append]
      refine ⟨⟨_, hsplit.symm⟩, ?_, fun uid ↦ ?_, fun uid hu ↦ ?_, by simp [flushed], by simp [hrow]⟩
      · intro rest' hr
        cases hr
        exact hsplit
      · have hb := h.balance uid
        rw [hpos] at hb
        simp only [List.count_append, inFlight, List.count_nil] at hb ⊢
        show _ = s.recorded.count uid + _ + _ + _
        omega
      · cases applied with
        | true =>
          rcases List.mem_append.mp hu with hu | hu
          · exact List.mem_append_left _ (h.applied uid hu)
          · exact List.mem_append_right _ hu
        | false => exact List.mem_append_left _ (h.applied uid hu)
    · cases hs
  · cases hs

theorem remaining_interCall (rest : List BulkScopeTarget) : JobRun.remaining msg (interCall rest) = some rest := by
  cases rest <;> rfl

theorem inFlight_interCall (rest : List BulkScopeTarget) : inFlight (interCall rest) = [] := by
  cases rest <;> rfl

theorem flushed_interCall (rest : List BulkScopeTarget) : flushed (interCall rest) = false := by
  cases rest <;> rfl

theorem Inv.record (h : s.Inv msg) (hs : s.step msg .record = some t) : t.Inv msg := by
  simp only [step] at hs
  split at hs
  · rename_i target err rest hpos
    cases hs
    have hrow : s.row.active = true := h.active (by rw [hpos]; rfl)
    have hrest := h.rest rest (by rw [hpos]; rfl)
    have hb := h.balance
    simp only [hpos, inFlight] at hb
    have hbalance : ∀ uid, s.processed.count uid = s.recorded.count uid +
        (recordOutcome s.batch target.uid err).targets.count uid + ([] : List String).count uid +
        s.dropped.count uid := by
      intro uid
      have hbu := hb uid
      rw [count_recordOutcome, List.count_nil]
      omega
    split
    · exact ⟨h.order, by rintro _ ⟨⟩; exact hrest, hbalance, h.applied, by simp [flushed], by simp [hrow]⟩
    · refine ⟨h.order, ?_, ?_, h.applied, ?_, by simp [hrow]⟩
      · intro rest' hr
        rw [remaining_interCall] at hr
        cases hr
        exact hrest
      · rw [inFlight_interCall]
        exact hbalance
      · simp [flushed_interCall]
  · cases hs

/-- The flush moves the batch, to the row or among what is lost, and stops holding it. -/
structure Flushes (s t : JobRun) (next : AfterFlush) : Prop where
  pos : t.pos = next.resume
  batch : t.batch = {}
  active : t.row.active = s.row.active
  history : t.processed = s.processed ∧ t.applied = s.applied
  moved : ∀ uid, t.recorded.count uid + t.dropped.count uid =
    s.recorded.count uid + s.batch.targets.count uid + s.dropped.count uid

theorem flush_flushes (s : JobRun) (stored : Bool) (next : AfterFlush) : Flushes s (s.flush stored next) next := by
  unfold flush
  split
  · rename_i hsize
    have hempty : s.batch = {} := s.batch.eq_empty hsize
    refine ⟨rfl, hempty, rfl, ⟨rfl, rfl⟩, fun uid ↦ ?_⟩
    rw [hempty]
    simp [recorded, BulkOutcomeBatch.targets]
  · split
    · refine ⟨rfl, rfl, rfl, ⟨rfl, rfl⟩, fun uid ↦ ?_⟩
      simp only [recorded, ESOBulkRefreshJob.appendOutcomes, BulkOutcomeBatch.count_targets_append]
    · refine ⟨rfl, rfl, rfl, ⟨rfl, rfl⟩, fun uid ↦ ?_⟩
      simp only [recorded, List.count_append]
      omega

theorem inFlight_resume (next : AfterFlush) : inFlight next.resume = [] := by
  cases next with
  | interCall rest => exact inFlight_interCall rest
  | complete | exit => rfl

theorem remaining_resume {next : AfterFlush} {rest : List BulkScopeTarget}
    (h : JobRun.remaining msg next.resume = some rest) : JobRun.remaining msg (.flushing next) = some rest := by
  cases next with
  | interCall rest' => rwa [AfterFlush.resume, remaining_interCall] at h
  | complete | exit => exact h

theorem Inv.flush (h : s.Inv msg) {stored : Bool} (hs : s.step msg (.flush stored) = some t) : t.Inv msg := by
  simp only [step] at hs
  split at hs
  · rename_i next hpos
    cases hs
    have hrow : s.row.active = true := h.active (by rw [hpos]; rfl)
    obtain ⟨htpos, hbatch, hactive, ⟨hprocessed, happlied⟩, hmoved⟩ := flush_flushes s stored next
    constructor
    · rw [hprocessed]
      exact h.order
    · intro rest hr
      rw [htpos] at hr
      rw [hprocessed]
      exact h.rest rest (by rw [hpos]; exact remaining_resume hr)
    · intro uid
      have hb := h.balance uid
      have hm := hmoved uid
      rw [hpos] at hb
      rw [hprocessed, htpos, inFlight_resume, hbatch]
      simp only [inFlight, List.count_nil, BulkOutcomeBatch.targets, List.filter_nil, List.map_nil,
        List.append_nil] at hb ⊢
      simp only [BulkOutcomeBatch.targets] at hm
      omega
    · rw [happlied, hprocessed]
      exact h.applied
    · intro _
      exact hbatch
    · intro hc
      rw [hactive, hrow] at hc
      cases hc
  · cases hs

/-- `Complete` leaves outcomes and history as they are, and the worker in a state that writes no outcome again. -/
theorem complete_eq {now : Option ℤ} (hs : s.step msg (.complete now) = some t) :
    flushed s.pos = true ∧ inFlight s.pos = [] ∧ afterComplete t.pos = true ∧ JobRun.remaining msg t.pos = none ∧
      t = { s with row := s.completeRow now, pos := t.pos } := by
  simp only [step] at hs
  split at hs
  · rename_i hpos
    cases hs
    simp [hpos, flushed, inFlight, afterComplete, JobRun.remaining]
  · rename_i hpos
    cases hs
    simp [hpos, flushed, inFlight, afterComplete, JobRun.remaining]
  · rename_i hpos
    cases hs
    simp [hpos, flushed, inFlight, afterComplete, JobRun.remaining]
  · cases hs

theorem recorded_completeRow (now : Option ℤ) : (s.completeRow now).outcomes = s.row.outcomes := by
  cases now <;> rfl

theorem Inv.complete (h : s.Inv msg) {now : Option ℤ} (hok : s.NoneLost (.complete now))
    (hs : s.step msg (.complete now) = some t) : t.Inv msg := by
  obtain ⟨hflushed, hflight, hafter, hremaining, heq⟩ := complete_eq hs
  have hflight' := (flushed_of_afterComplete hafter).2
  rw [heq]
  constructor
  · exact h.order
  · intro rest hr
    rw [hremaining] at hr
    cases hr
  · intro uid
    have hb := h.balance uid
    rw [hflight] at hb
    simp only [recorded, recorded_completeRow, hflight']
    exact hb
  · exact h.applied
  · intro _
    exact h.batch hflushed
  · intro hc
    refine ⟨hafter, ?_⟩
    cases now with
    | none => exact (h.completed hc).2
    | some now => exact hok

theorem Inv.finish (h : s.Inv msg) (hs : s.step msg .finish = some t) : t.Inv msg := by
  simp only [step] at hs
  split at hs
  · rename_i hpos
    cases hs
    refine ⟨h.order, by simp [JobRun.remaining], fun uid ↦ ?_, h.applied, ?_, ?_⟩
    · have hb := h.balance uid
      rw [hpos] at hb
      exact hb
    · intro _
      exact h.batch (by rw [hpos]; rfl)
    · intro hc
      exact ⟨rfl, (h.completed hc).2⟩
  · cases hs

theorem Inv.panic (h : s.Inv msg) (hs : s.step msg .panic = some t) : t.Inv msg := by
  simp only [step] at hs
  split at hs
  · cases hs
    refine ⟨h.order, by simp [JobRun.remaining], fun uid ↦ ?_, h.applied, fun _ ↦ rfl, fun hc ↦ ⟨rfl, ?_⟩⟩
    · have hb := h.balance uid
      show _ = s.recorded.count uid + _ + _ + _
      simp only [inFlight, List.count_append, List.count_nil, BulkOutcomeBatch.targets, List.filter_nil,
        List.map_nil, List.append_nil] at hb ⊢
      omega
    · -- a completed job has nothing buffered that the panic could lose
      obtain ⟨hafter, hlost⟩ := h.completed hc
      obtain ⟨hflushed, hflight⟩ := flushed_of_afterComplete hafter
      rw [h.batch hflushed, hflight]
      simpa [BulkOutcomeBatch.targets] using hlost
  · cases hs

theorem Inv.appendPanic (h : s.Inv msg) {stored : Bool} (hs : s.step msg (.appendPanic stored) = some t) :
    t.Inv msg := by
  simp only [step] at hs
  split at hs
  · rename_i hpos
    cases hs
    have hrecorded : ∀ uid, (if stored = true then
        s.row.appendOutcomes { failed := [BulkOutcomeBatch.workerPanic] } else s.row).outcomes.targets.count uid =
        s.recorded.count uid := by
      intro uid
      cases stored with
      | false => rfl
      | true =>
        rw [if_pos rfl, ESOBulkRefreshJob.appendOutcomes, BulkOutcomeBatch.count_targets_append]
        simp [recorded, BulkOutcomeBatch.targets]
    refine ⟨h.order, by simp [JobRun.remaining], fun uid ↦ ?_, h.applied, ?_, ?_⟩
    · have hb := h.balance uid
      rw [hpos] at hb
      simp only [recorded, hrecorded]
      exact hb
    · intro _
      exact h.batch (by rw [hpos]; rfl)
    · intro hc
      have hc' : s.row.active = false := by
        cases stored <;> exact hc
      exact ⟨rfl, (h.completed hc').2⟩
  · cases hs

theorem Inv.step (h : s.Inv msg) {a : Act} (hok : s.NoneLost a) (hs : s.step msg a = some t) : t.Inv msg := by
  cases a with
  | start impersonates => exact h.start hs
  | top cancelled => exact h.top hs
  | patch applied err => exact h.patch hs
  | record => exact h.record hs
  | flush stored => exact h.flush hs
  | wait cancelled => exact h.wait hs
  | complete now => exact h.complete hok hs
  | finish => exact h.finish hs
  | panic => exact h.panic hs
  | appendPanic stored => exact h.appendPanic hs

/-- A `Complete` carried out after an outcome was lost closes a row that lacks it. -/
theorem Inv.noneLost (h : s.Inv msg) {a : Act} (hs : s.step msg a = some t) (ht : t.Conserved msg) :
    s.NoneLost a := by
  match a with
  | .complete (some now) =>
    intro uid happlied hdropped
    obtain ⟨hflushed, hflight, -, -, heq⟩ := complete_eq hs
    have hrow : t.row.active = false := by
      rw [heq]
      exact s.row.complete_active now
    have hcount : s.recorded.count uid = s.processed.count uid := by
      have hc := ht.counted hrow uid (by rw [heq]; exact happlied)
      rw [heq] at hc
      exact hc
    have hb := h.balance uid
    have hpos : 0 < s.dropped.count uid := List.count_pos_iff.mpr hdropped
    omega
  | .complete none | .start _ | .top _ | .patch _ _ | .record | .flush _ | .wait _ | .finish | .panic
  | .appendPanic _ => trivial

/-- The row of a job that the worker marks completed has each target whose patch was applied, once, and no target
that was not processed, exactly when no outcome of an applied patch was lost before. -/
theorem conserved_iff (msg : BulkJobMessage) (createdAt : ℤ) (run : List Act) :
    Throughout (step msg) (Conserved msg) (init msg createdAt) run ↔
      EachStep (step msg) NoneLost (init msg createdAt) run := by
  apply throughout_iff_eachStep (I := Inv msg)
  · intro s h
    exact h.conserved
  · intro s a t h hok hs
    exact h.step hok hs
  · intro s a t h hok hs ht
    exact hok (h.noneLost hs ht)
  · exact inv_init msg createdAt

def oneTarget : BulkJobMessage :=
  { jobID := 1
    scope := ⟨"local", .refreshNamespace, "payments"⟩
    targets := [⟨"payments", "db", "5d1c"⟩]
    username := "alice", groups := [], actorName := "alice" }

/-- The only patch is applied, its outcome is not stored, and the job is completed all the same. -/
def failedAppend : List Act :=
  [.start true, .top false, .patch true none, .record, .top false, .flush false, .complete (some 1)]

theorem not_conserved : ¬ ∀ run, Throughout (step oneTarget) (Conserved oneTarget) (init oneTarget 0) run := by
  intro h
  have hrun : (exec (step oneTarget) (init oneTarget 0) failedAppend).map
      (fun s ↦ (s.row.active, s.applied, s.recorded)) = some (false, ["5d1c"], []) := by
    decide
  obtain ⟨s, hs, heq⟩ := Option.map_eq_some_iff.mp hrun
  simp only [Prod.mk.injEq] at heq
  obtain ⟨hrow, happlied, hrecorded⟩ := heq
  have hone : s.recorded.count "5d1c" = 1 :=
    ((h failedAppend).last hs).once hrow (by decide) "5d1c" (by simp [happlied])
  simp [hrecorded] at hone

end JobRun

end KubeCenter.ExternalSecrets
