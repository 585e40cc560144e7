import KubeCenter.ExternalSecrets.BulkProtocol

namespace KubeCenter.ExternalSecrets

open KubeCenter.Core KubeCenter.Store KubeCenter.Auth ESOBulkJobStore Function

/-- The statements on jobs that are there: they make no row, and reopen none. -/
def Kept (rows rows' : List ESOBulkRefreshJob) : Prop :=
  ∀ j' ∈ rows', ∃ j ∈ rows, j'.id = j.id ∧ j'.scope = j.scope ∧ j'.targetUIDs = j.targetUIDs ∧
    (j.active = false → j'.active = false)

theorem kept_map {rows : List ESOBulkRefreshJob} {f : ESOBulkRefreshJob → ESOBulkRefreshJob}
    (hf : ∀ j, (f j).id = j.id ∧ (f j).scope = j.scope ∧ (f j).targetUIDs = j.targetUIDs ∧
      (j.active = false → (f j).active = false)) : Kept rows (rows.map f) := by
  intro j' hj'
  obtain ⟨j, hj, rfl⟩ := List.mem_map.mp hj'
  exact ⟨j, hj, hf j⟩

theorem kept_complete (rows : List ESOBulkRefreshJob) (id : ℕ) (now : ℤ) : Kept rows (complete rows id now) := by
  apply kept_map
  intro j
  split
  · exact ⟨rfl, rfl, rfl, fun _ ↦ j.complete_active now⟩
  · exact ⟨rfl, rfl, rfl, fun h ↦ h⟩

theorem kept_appendOutcomes (rows : List ESOBulkRefreshJob) (id : ℕ) (batch : BulkOutcomeBatch) :
    Kept rows (appendOutcomes rows id batch) := by
  apply kept_map
  intro j
  split <;> exact ⟨rfl, rfl, rfl, fun h ↦ h⟩

theorem kept_completeOrphans (rows : List ESOBulkRefreshJob) (now : ℤ) : Kept rows (completeOrphans rows now) :=
  kept_map (fun j ↦ ⟨rfl, rfl, rfl, fun _ ↦ j.complete_active now⟩)

theorem kept_cleanup (rows : List ESOBulkRefreshJob) (now : ℤ) (retentionDays : ℕ) :
    Kept rows (cleanup rows now retentionDays) := by
  intro j hj
  have hmem : j ∈ rows := by
    unfold cleanup at hj
    split at hj
    · exact hj
    · exact List.mem_of_mem_filter hj
  exact ⟨j, hmem, rfl, rfl, rfl, id⟩

theorem inactive_of_complete {rows : List ESOBulkRefreshJob} {id : ℕ} {now : ℤ} {j : ESOBulkRefreshJob}
    (hj : j ∈ complete rows id now) (hid : j.id = id) : j.active = false := by
  obtain ⟨j₀, -, rfl⟩ := List.mem_map.mp hj
  split
  · exact j₀.complete_active now
  · rename_i hne
    rw [if_neg hne] at hid
    exact absurd hid hne

namespace BulkService

structure Inv (s : BulkService) : Prop where
  fresh : ∀ c ∈ s.created, c.id < s.nextID
  enqueued : ∀ msg ∈ s.enqueued, ∃ c ∈ s.created, c.message = msg
  rows : ∀ j ∈ s.rows, ∃ c ∈ s.created, j.id = c.id ∧ j.scope = c.job.scope ∧ j.targetUIDs = c.job.targetUIDs
  oneActive : OneActive s.rows
  underway : ∀ i c, s.calls i = .enqueueing c → c ∈ s.created
  overflowed : ∀ c ∈ s.overflowed, c ∈ s.created
  fate : s.EnqueuedOrRefused

variable {s t : BulkService} {i : ℕ}

theorem inv_init (now : ℤ) : (init now).Inv where
  fresh := by simp [init]
  enqueued := by simp [init]
  rows := by simp [init]
  oneActive := List.Pairwise.nil
  underway i c h := by cases h
  overflowed := by simp [init]
  fate := ⟨by simp [init], by simp [init]⟩

theorem Inv.pinned (h : s.Inv) : s.Pinned where
  enqueued msg hmsg := by
    obtain ⟨c, hc, rfl⟩ := h.enqueued msg hmsg
    exact ⟨c, hc, rfl, rfl, c.confirmed, rfl⟩
  rows j hj := by
    obtain ⟨c, hc, hid, hscope, huids⟩ := h.rows j hj
    exact ⟨c, hc, hid, hscope, huids, c.confirmed⟩
  oneActive := h.oneActive

theorem calls_setCall_ne {k : ℕ} (hk : k ≠ i) (call : BulkCall) : (s.setCall i call).calls k = s.calls k :=
  update_of_ne hk ..

theorem calls_setCall_self (call : BulkCall) : (s.setCall i call).calls i = call := update_self ..

/-- Where a call stood it still stands, unless it is the one that moves. -/
theorem moves_or_stands {call₀ : BulkCall} (call : BulkCall) (h : ∃ k, s.calls k = call₀) :
    s.calls i = call₀ ∨ ∃ k, (s.setCall i call).calls k = call₀ := by
  obtain ⟨k, hk⟩ := h
  by_cases hki : k = i
  · subst k
    exact .inl hk
  · exact .inr ⟨k, (calls_setCall_ne hki call).trans hk⟩

theorem exists_call_setCall {call₀ : BulkCall} (hi : s.calls i ≠ call₀) (call : BulkCall)
    (h : ∃ k, s.calls k = call₀) : ∃ k, (s.setCall i call).calls k = call₀ :=
  (moves_or_stands call h).resolve_left hi

theorem enqueueing_of_setCall {call : BulkCall} (hcall : ∀ c, call ≠ .enqueueing c) {k : ℕ} {c : Creation}
    (hk : (s.setCall i call).calls k = .enqueueing c) : s.calls k = .enqueueing c := by
  by_cases hki : k = i
  · subst k
    rw [calls_setCall_self] at hk
    exact absurd hk (hcall c)
  · rwa [calls_setCall_ne hki] at hk

/-- A call moves on that neither has a row to enqueue nor comes to have one. -/
theorem Inv.setCall (h : s.Inv) {call : BulkCall} (henqueueing : ∀ c, s.calls i ≠ .enqueueing c)
    (hoverflowing : ∀ c, s.calls i ≠ .overflowing c) (hcall : ∀ c, call ≠ .enqueueing c) :
    (s.setCall i call).Inv where
  fresh := h.fresh
  enqueued := h.enqueued
  rows := h.rows
  oneActive := h.oneActive
  underway k c hk := h.underway k c (enqueueing_of_setCall hcall hk)
  overflowed := h.overflowed
  fate := by
    constructor
    · intro c hc
      rcases h.fate.created c hc with hf | hf | hf
      · exact .inl hf
      · exact .inr (.inl (exists_call_setCall (henqueueing c) call hf))
      · exact .inr (.inr hf)
    · intro c hc
      rcases h.fate.overflowed c hc with hf | hf
      · exact .inl (exists_call_setCall (hoverflowing c) call hf)
      · exact .inr hf

theorem Inv.setRows (h : s.Inv) {rows : List ESOBulkRefreshJob} (hk : Kept s.rows rows) (ho : OneActive rows) :
    Inv { s with rows } where
  fresh := h.fresh
  enqueued := h.enqueued
  rows j' hj' := by
    obtain ⟨j, hj, hid, hscope, huids, -⟩ := hk j' hj'
    rw [hid, hscope, huids]
    exact h.rows j hj
  oneActive := ho
  underway := h.underway
  overflowed := h.overflowed
  fate := by
    refine ⟨h.fate.created, fun c hc ↦ ?_⟩
    rcases h.fate.overflowed c hc with hf | hf | hf
    · exact .inl hf
    · exact .inr (.inl hf)
    · refine .inr (.inr fun j' hj' hid' ↦ ?_)
      obtain ⟨j, hj, hid, -, -, hactive⟩ := hk j' hj'
      exact hactive (hf j hj (hid.symm.trans hid'))

theorem startCall_ne (req : BulkRequest) (env : BulkEnv) (c : Creation) : startCall req env ≠ .enqueueing c := by
  unfold startCall
  split <;> simp

theorem afterFindActive_ne (a : Admitted) (fails : Bool) (c : Creation) :
    s.afterFindActive a fails ≠ .enqueueing c := by
  unfold afterFindActive
  split
  · simp
  · split <;> simp

/-- The row of a new job comes with its creation; `unconfirmed` tells whether the caller learns of it. -/
theorem Inv.create (h : s.Inv) {a : Admitted} {rows : List ESOBulkRefreshJob} {call : BulkCall}
    {unconfirmed : List Creation} (hi : s.calls i = .creating a)
    (hrows : ESOBulkJobStore.insert s.rows (s.newJob a).job = some rows)
    (hsub : ∀ c ∈ s.unconfirmed, c ∈ unconfirmed)
    (hcall : call = .enqueueing (s.newJob a) ∨ (∀ c, call ≠ .enqueueing c) ∧ s.newJob a ∈ unconfirmed) :
    Inv ({ s with
      rows
      nextID := s.nextID + 1
      created := s.created ++ [s.newJob a]
      unconfirmed }.setCall i call) where
  fresh c hc := by
    rcases List.mem_append.mp hc with hc | hc
    · exact Nat.lt_succ_of_lt (h.fresh c hc)
    · rw [List.mem_singleton.mp hc]
      exact Nat.lt_succ_self _
  enqueued msg hmsg := by
    obtain ⟨c, hc, heq⟩ := h.enqueued msg hmsg
    exact ⟨c, List.mem_append_left _ hc, heq⟩
  rows j hj := by
    rcases mem_insert hrows hj with hj | rfl
    · obtain ⟨c, hc, hrow⟩ := h.rows j hj
      exact ⟨c, List.mem_append_left _ hc, hrow⟩
    · exact ⟨_, List.mem_append_right _ (List.mem_singleton_self _), rfl, rfl, rfl⟩
  oneActive := oneActive_insert h.oneActive hrows
  underway k c hk := by
    by_cases hki : k = i
    · subst k
      rw [calls_setCall_self] at hk
      rcases hcall with hcall | ⟨hcall, -⟩
      · cases hcall.symm.trans hk
        exact List.mem_append_right _ (List.mem_singleton_self _)
      · exact absurd hk (hcall c)
    · rw [calls_setCall_ne hki] at hk
      exact List.mem_append_left _ (h.underway k c hk)
  overflowed c hc := List.mem_append_left _ (h.overflowed c hc)
  fate := by
    constructor
    · intro c hc
      rcases List.mem_append.mp hc with hc | hc
      · rcases h.fate.created c hc with hf | hf | hf | hf
        · exact .inl hf
        · exact .inr (.inl (exists_call_setCall (by simp [hi]) call hf))
        · exact .inr (.inr (.inl hf))
        · exact .inr (.inr (.inr (hsub c hf)))
      · rw [List.mem_singleton.mp hc]
        rcases hcall with hcall | ⟨-, hunconfirmed⟩
        · exact .inr (.inl ⟨i, (calls_setCall_self call).trans hcall⟩)
        · exact .inr (.inr (.inr hunconfirmed))
    · intro c hc
      rcases h.fate.overflowed c hc with hf | hf | hf
      · exact .inl (exists_call_setCall (by simp [hi]) call hf)
      · exact .inr (.inl hf)
      · refine .inr (.inr fun j hj hid ↦ ?_)
        rcases mem_insert hrows hj with hj | rfl
        · exact hf j hj hid
        · -- the new row has an id of its own
          exact absurd hid (Nat.ne_of_gt (h.fresh c (h.overflowed c hc)))

theorem Inv.setNextID (h : s.Inv) : Inv { s with nextID := s.nextID + 1 } :=
  { h with fresh := fun c hc ↦ Nat.lt_succ_of_lt (h.fresh c hc), fate := ⟨h.fate.created, h.fate.overflowed⟩ }

theorem Inv.insertStep (h : s.Inv) {a : Admitted} (hi : s.calls i = .creating a) (reply : InsertReply) :
    (s.insertStep i a reply).Inv := by
  have hother : ∀ call : BulkCall, (∀ c, call ≠ .enqueueing c) →
      Inv ({ s with nextID := s.nextID + 1 }.setCall i call) := fun call hcall ↦
    h.setNextID.setCall (by simp [hi]) (by simp [hi]) hcall
  unfold BulkService.insertStep
  dsimp only
  split
  · exact hother _ (by simp)
  · rename_i rows hrows
    exact h.create hi hrows (fun c hc ↦ hc) (.inl rfl)
  · rename_i rows hrows
    apply h.create hi hrows
    · intro c hc
      exact List.mem_append_left _ hc
    · exact .inr ⟨by simp, List.mem_append_right _ (List.mem_singleton_self _)⟩
  · exact hother _ (by simp)

theorem Inv.enqueueStep (h : s.Inv) {c : Creation} (hi : s.calls i = .enqueueing c)
    (ht : s.enqueueStep i c = some t) : t.Inv := by
  have hc : c ∈ s.created := h.underway i c hi
  have hmoved : ∀ c' call, (∃ k, s.calls k = .enqueueing c') →
      c = c' ∨ ∃ k, (s.setCall i call).calls k = .enqueueing c' := fun c' call hk ↦
    (moves_or_stands call hk).imp_left (fun he ↦ BulkCall.enqueueing.inj (hi.symm.trans he))
  have hoverflowing : ∀ c', s.calls i ≠ .overflowing c' := by simp [hi]
  unfold BulkService.enqueueStep at ht
  split at ht
  · cases ht
    refine ⟨h.fresh, ?_, h.rows, h.oneActive, fun k c' hk ↦ h.underway k c' (enqueueing_of_setCall (by simp) hk),
      h.overflowed, ⟨fun c' hc' ↦ ?_, fun c' hc' ↦ ?_⟩⟩
    · intro msg hmsg
      rcases List.mem_append.mp hmsg with hmsg | hmsg
      · exact h.enqueued msg hmsg
      · exact ⟨c, hc, (List.mem_singleton.mp hmsg).symm⟩
    · rcases h.fate.created c' hc' with hf | hf | hf
      · exact .inl (List.mem_append_left _ hf)
      · rcases hmoved c' _ hf with rfl | hf
        · exact .inl (List.mem_append_right _ (List.mem_singleton_self _))
        · exact .inr (.inl hf)
      · exact .inr (.inr hf)
    · rcases h.fate.overflowed c' hc' with hf | hf
      · exact .inl (exists_call_setCall (hoverflowing c') _ hf)
      · exact .inr hf
  · cases ht
    refine ⟨h.fresh, h.enqueued, h.rows, h.oneActive,
      fun k c' hk ↦ h.underway k c' (enqueueing_of_setCall (by simp) hk), ?_, ⟨fun c' hc' ↦ ?_, fun c' hc' ↦ ?_⟩⟩
    · intro c' hc'
      rcases List.mem_append.mp hc' with hc' | hc'
      · exact h.overflowed c' hc'
      · rw [List.mem_singleton.mp hc']
        exact hc
    · rcases h.fate.created c' hc' with hf | hf | hf | hf
      · exact .inl hf
      · rcases hmoved c' _ hf with rfl | hf
        · exact .inr (.inr (.inl (List.mem_append_right _ (List.mem_singleton_self _))))
        · exact .inr (.inl hf)
      · exact .inr (.inr (.inl (List.mem_append_left _ hf)))
      · exact .inr (.inr (.inr hf))
    · rcases List.mem_append.mp hc' with hc' | hc'
      · rcases h.fate.overflowed c' hc' with hf | hf
        · exact .inl (exists_call_setCall (hoverflowing c') _ hf)
        · exact .inr hf
      · rw [List.mem_singleton.mp hc']
        exact .inl ⟨i, calls_setCall_self _⟩
  · cases ht

theorem Inv.overflowStep (h : s.Inv) {c : Creation} (hi : s.calls i = .overflowing c) (stored : Bool) :
    (s.overflowStep i c stored).Inv := by
  have hcreated : ∀ call, ∀ c' ∈ s.created, c'.message ∈ s.enqueued ∨
      (∃ k, (s.setCall i call).calls k = .enqueueing c') ∨ c' ∈ s.overflowed ∨ c' ∈ s.unconfirmed := by
    intro call c' hc'
    rcases h.fate.created c' hc' with hf | hf | hf
    · exact .inl hf
    · exact .inr (.inl (exists_call_setCall (by simp [hi]) call hf))
    · exact .inr (.inr hf)
  have hmoved : ∀ c' call, (∃ k, s.calls k = .overflowing c') →
      c = c' ∨ ∃ k, (s.setCall i call).calls k = .overflowing c' := fun c' call hk ↦
    (moves_or_stands call hk).imp_left (fun he ↦ BulkCall.overflowing.inj (hi.symm.trans he))
  cases stored with
  | true =>
    have hrows := h.setRows (kept_complete s.rows c.id s.now) (oneActive_complete h.oneActive c.id s.now)
    refine ⟨h.fresh, h.enqueued, hrows.rows, hrows.oneActive,
      fun k c' hk ↦ h.underway k c' (enqueueing_of_setCall (by simp) hk), h.overflowed,
      ⟨hcreated _, fun c' hc' ↦ ?_⟩⟩
    rcases hrows.fate.overflowed c' hc' with hf | hf
    · rcases hmoved c' _ hf with rfl | hf
      · exact .inr (.inr fun j hj hid ↦ inactive_of_complete hj hid)
      · exact .inl hf
    · exact .inr hf
  | false =>
    refine ⟨h.fresh, h.enqueued, h.rows, h.oneActive,
      fun k c' hk ↦ h.underway k c' (enqueueing_of_setCall (by simp) hk), h.overflowed,
      ⟨hcreated _, fun c' hc' ↦ ?_⟩⟩
    rcases h.fate.overflowed c' hc' with hf | hf | hf
    · rcases hmoved c' _ hf with rfl | hf
      · exact .inr (.inl (List.mem_append_right _ (List.mem_singleton_self _)))
      · exact .inl hf
    · exact .inr (.inl (List.mem_append_left _ hf))
    · exact .inr (.inr hf)

theorem Inv.step (h : s.Inv) {a : Act} (ht : s.step a = some t) : t.Inv := by
  cases a with
  | start i req env =>
    simp only [BulkService.step] at ht
    split at ht
    · rename_i hi
      cases ht
      exact h.setCall (by simp [hi]) (by simp [hi]) (startCall_ne req env)
    · cases ht
  | findActive i fails =>
    simp only [BulkService.step] at ht
    split at ht
    · rename_i a hi
      cases ht
      exact h.setCall (by simp [hi]) (by simp [hi]) (afterFindActive_ne a fails)
    · cases ht
  | insert i reply =>
    simp only [BulkService.step] at ht
    split at ht
    · rename_i a hi
      cases ht
      exact h.insertStep hi reply
    · cases ht
  | conflict i fails =>
    simp only [BulkService.step] at ht
    split at ht
    · rename_i a hi
      cases ht
      exact h.setCall (by simp [hi]) (by simp [hi]) (by simp [afterConflict])
    · cases ht
  | enqueue i =>
    simp only [BulkService.step] at ht
    split at ht
    · rename_i c hi
      exact h.enqueueStep hi ht
    · cases ht
  | completeOverflow i stored =>
    simp only [BulkService.step] at ht
    split at ht
    · rename_i c hi
      cases ht
      exact h.overflowStep hi stored
    · cases ht
  | take =>
    simp only [BulkService.step] at ht
    split at ht
    · cases ht
      exact ⟨h.fresh, h.enqueued, h.rows, h.oneActive, h.underway, h.overflowed, h.fate.created, h.fate.overflowed⟩
    · cases ht
  | appendOutcomes msg batch =>
    simp only [BulkService.step] at ht
    split at ht
    · cases ht
      exact h.setRows (kept_appendOutcomes _ _ _) (oneActive_appendOutcomes h.oneActive _ _)
    · cases ht
  | complete msg =>
    simp only [BulkService.step] at ht
    split at ht
    · cases ht
      exact h.setRows (kept_complete _ _ _) (oneActive_complete h.oneActive _ _)
    · cases ht
  | completeOrphans =>
    cases ht
    exact h.setRows (kept_completeOrphans _ _) (oneActive_completeOrphans h.oneActive _)
  | cleanup retentionDays =>
    cases ht
    exact h.setRows (kept_cleanup _ _ _) (oneActive_cleanup h.oneActive _ _)
  | clock now =>
    cases ht
    exact ⟨h.fresh, h.enqueued, h.rows, h.oneActive, h.underway, h.overflowed, h.fate.created, h.fate.overflowed⟩

/-- Whatever requests come and however they interleave, jobs are made for confirmed scopes only, one at a time for
each. -/
theorem pinned_throughout (now : ℤ) (run : List Act) :
    Throughout step (fun s ↦ s.Pinned ∧ s.EnqueuedOrRefused) (init now) run :=
  (throughout_of_step (fun _ _ _ h ht ↦ h.step ht) (inv_init now) run).mono (fun _ h ↦ ⟨h.pinned, h.fate⟩)

theorem startCall_eq (a : Admitted) : startCall a.req a.env = .checking a := by
  unfold startCall
  split
  · rename_i h
    rw [a.vetted] at h
    cases h
  · rename_i user scope h
    obtain ⟨huser, hscope⟩ := Prod.mk.inj (Except.ok.inj (h.symm.trans a.vetted))
    subst huser hscope
    rfl

/-- The state once call `i` has made a row for an admitted request. -/
def withJob (s : BulkService) (i : ℕ) (a : Admitted) : BulkService :=
  { s with
    rows := s.rows ++ [(s.newJob a).job]
    nextID := s.nextID + 1
    created := s.created ++ [s.newJob a] }.setCall i (.enqueueing (s.newJob a))

theorem setCall_setCall (call call' : BulkCall) : (s.setCall i call).setCall i call' = s.setCall i call' := by
  simp [BulkService.setCall]

/-- An admitted request for a scope without an active job comes to its `INSERT`. -/
theorem exec_creating {a : Admitted} (hi : s.calls i = .idle)
    (hfree : ∀ j ∈ s.rows, j.active = true → j.scope ≠ a.bulkScope) :
    exec step s [.start i a.req a.env, .findActive i false] = some (s.setCall i (.creating a)) := by
  have hstart : s.step (.start i a.req a.env) = some (s.setCall i (.checking a)) := by
    simp only [BulkService.step, hi, startCall_eq]
  have hnone : findActive (s.setCall i (.checking a)).rows a.bulkScope = none := findActive_eq_none.mpr hfree
  have hfind : (s.setCall i (.checking a)).step (.findActive i false) = some (s.setCall i (.creating a)) := by
    simp only [BulkService.step, calls_setCall_self, afterFindActive, hnone, setCall_setCall]
    rfl
  rw [exec_cons hstart, exec_singleton hfind]

theorem insert_newJob {a : Admitted} (hfree : ∀ j ∈ s.rows, j.active = true → j.scope ≠ a.bulkScope) :
    ESOBulkJobStore.insert s.rows (s.newJob a).job = some (s.rows ++ [(s.newJob a).job]) := insert_eq_some hfree

theorem exec_withJob {a : Admitted} (hi : s.calls i = .idle)
    (hfree : ∀ j ∈ s.rows, j.active = true → j.scope ≠ a.bulkScope) :
    exec step s [.start i a.req a.env, .findActive i false, .insert i .answered] = some (s.withJob i a) := by
  have hrows := insert_newJob hfree
  simp only [newJob] at hrows
  have hinsert : (s.setCall i (.creating a)).step (.insert i .answered) = some (s.withJob i a) := by
    simp [BulkService.step, BulkService.insertStep, BulkService.setCall, newJob, hrows, withJob]
  exact exec_concat (exec_creating hi hfree) hinsert

/-- Where the reply to an `INSERT` is lost, the row may be there all the same. -/
theorem exec_lost {a : Admitted} (hi : s.calls i = .idle)
    (hfree : ∀ j ∈ s.rows, j.active = true → j.scope ≠ a.bulkScope) :
    ∃ t, exec step s [.start i a.req a.env, .findActive i false, .insert i (.failed true)] = some t ∧
      t.created = s.created ++ [s.newJob a] ∧ t.enqueued = s.enqueued ∧ t.overflowed = s.overflowed ∧
      ∃ refusal, t.calls = update s.calls i (.done (.error refusal)) := by
  have hrows := insert_newJob hfree
  simp only [newJob] at hrows
  have hinsert : (s.setCall i (.creating a)).step (.insert i (.failed true)) =
      some ((s.setCall i (.creating a)).insertStep i a (.failed true)) := by
    simp only [BulkService.step, calls_setCall_self]
  refine ⟨_, exec_concat (exec_creating hi hfree) hinsert, ?_⟩
  simp only [BulkService.insertStep, BulkService.setCall, newJob, hrows, update_idem]
  exact ⟨trivial, trivial, trivial, _, rfl⟩

theorem step_enqueue_sent {c : Creation} {queue : Chan BulkJobMessage} (hi : s.calls i = .enqueueing c)
    (h : s.queue.trySend c.message = .sent queue) :
    s.step (.enqueue i) = some ({ s with queue, enqueued := s.enqueued ++ [c.message] }.setCall i
      (.done (.ok (c.id, c.message.targets.length)))) := by
  simp only [BulkService.step, hi, BulkService.enqueueStep, h]

theorem step_enqueue_full {c : Creation} (hi : s.calls i = .enqueueing c) (h : s.queue.trySend c.message = .full) :
    s.step (.enqueue i) = some ({ s with overflowed := s.overflowed ++ [c] }.setCall i (.overflowing c)) := by
  simp only [BulkService.step, hi, BulkService.enqueueStep, h]

/-- Requests for `n` scopes, one after the other, while the worker takes none of their jobs. -/
def backlog (a : ℕ → Admitted) (n : ℕ) : List Act :=
  (List.range n).flatMap (fun k ↦
    [.start k (a k).req (a k).env, .findActive k false, .insert k .answered] ++ [.enqueue k])

theorem backlog_succ (a : ℕ → Admitted) (n : ℕ) : backlog a (n + 1) = backlog a n ++
    ([.start n (a n).req (a n).env, .findActive n false, .insert n .answered] ++ [.enqueue n]) := by
  simp [backlog, List.range_succ, List.flatMap_append]

structure Filled (a : ℕ → Admitted) (n : ℕ) (s : BulkService) : Prop where
  length : s.queue.buf.length = n
  room : s.queue.cap = queueDepth ∧ s.queue.closed = false
  rows : ∀ j ∈ s.rows, ∃ k < n, j.scope = (a k).bulkScope
  idle : ∀ i, n ≤ i → s.calls i = .idle
  settled : ∀ i c, s.calls i ≠ .enqueueing c

variable {a : ℕ → Admitted} {n : ℕ}

/-- The next request of a backlog comes to the queue. -/
theorem Filled.exec_withJob (h : Filled a n s) (ha : ∀ k < n, (a k).bulkScope ≠ (a n).bulkScope) :
    exec step s [.start n (a n).req (a n).env, .findActive n false, .insert n .answered] =
      some (s.withJob n (a n)) := by
  apply BulkService.exec_withJob (h.idle n (le_refl n))
  intro j hj _ hscope
  obtain ⟨k, hk, hk'⟩ := h.rows j hj
  exact ha k hk (hk'.symm.trans hscope)

theorem calls_withJob (s : BulkService) (i : ℕ) (a : Admitted) :
    (s.withJob i a).calls i = .enqueueing (s.newJob a) := calls_setCall_self _

theorem calls_withJob_ne {k : ℕ} (hk : k ≠ i) (a : Admitted) : (s.withJob i a).calls k = s.calls k :=
  calls_setCall_ne hk _

theorem Filled.settle (h : Filled a n s) {call : BulkCall} (hcall : ∀ c, call ≠ .enqueueing c) (k : ℕ) (c : Creation) :
    ((s.withJob n (a n)).setCall n call).calls k ≠ .enqueueing c := by
  intro hk
  by_cases hkn : k = n
  · subst k
    rw [calls_setCall_self] at hk
    exact hcall c hk
  · rw [calls_setCall_ne hkn, calls_withJob_ne hkn] at hk
    exact h.settled k c hk

theorem Filled.next (h : Filled a n s) (ha : ∀ k < n, (a k).bulkScope ≠ (a n).bulkScope) (hn : n < queueDepth) :
    ∃ t, exec step s ([.start n (a n).req (a n).env, .findActive n false, .insert n .answered] ++ [.enqueue n]) =
      some t ∧ Filled a (n + 1) t := by
  have hsent : s.queue.trySend (s.newJob (a n)).message =
      .sent { s.queue with buf := s.queue.buf ++ [(s.newJob (a n)).message] } := by
    simp [Chan.trySend, h.room, h.length, hn]
  refine ⟨_, exec_concat (h.exec_withJob ha) (step_enqueue_sent (calls_withJob s n (a n)) hsent), ?_, h.room, ?_, ?_,
    h.settle (by simp)⟩
  · simp [BulkService.setCall, h.length]
  · intro j hj
    rcases List.mem_append.mp hj with hj | hj
    · obtain ⟨k, hk, hk'⟩ := h.rows j hj
      exact ⟨k, Nat.lt_succ_of_lt hk, hk'⟩
    · rw [List.mem_singleton.mp hj]
      exact ⟨n, Nat.lt_succ_self n, rfl⟩
  · intro i hi
    have hne : i ≠ n := by omega
    rw [calls_setCall_ne hne]
    exact (calls_withJob_ne hne (a n)).trans (h.idle i (by omega))

theorem filled_backlog (ha : Injective (fun n ↦ (a n).bulkScope)) (now : ℤ) (hn : n ≤ queueDepth) :
    ∃ s, exec step (init now) (backlog a n) = some s ∧ Filled a n s := by
  induction n with
  | zero => exact ⟨init now, rfl, rfl, ⟨rfl, rfl⟩, by simp [init], fun _ _ ↦ rfl, by simp [init]⟩
  | succ n ih =>
    obtain ⟨s, hs, hfilled⟩ := ih (by omega)
    obtain ⟨t, ht, hnext⟩ := hfilled.next (fun k hk he ↦ absurd (ha he) (by omega)) (by omega)
    refine ⟨t, ?_, hnext⟩
    rw [backlog_succ, exec_append, hs]
    exact ht

/-- With the queue full of jobs for other scopes, the next request's row is made and not enqueued. -/
theorem backlog_overflows (ha : Injective (fun n ↦ (a n).bulkScope)) (now : ℤ) :
    ∃ s, exec step (init now) (backlog a (queueDepth + 1)) = some s ∧
      ∃ c ∈ s.created, c.message ∉ s.enqueued ∧ ∀ i, s.calls i ≠ .enqueueing c := by
  obtain ⟨s, hs, hfilled⟩ := filled_backlog ha now (le_refl queueDepth)
  have hinv : s.Inv := (throughout_of_step (fun _ _ _ h ht ↦ h.step ht) (inv_init now) _).last hs
  have hfull : s.queue.trySend (s.newJob (a queueDepth)).message = .full := by
    simp [Chan.trySend, hfilled.room, hfilled.length]
  have hrun := hfilled.exec_withJob (fun k hk he ↦ absurd (ha he) (by omega))
  refine ⟨({ s.withJob queueDepth (a queueDepth) with
      overflowed := s.overflowed ++ [s.newJob (a queueDepth)] } : BulkService).setCall queueDepth
        (.overflowing (s.newJob (a queueDepth))), ?_, s.newJob (a queueDepth),
    List.mem_append_right _ (List.mem_singleton_self _), ?_, fun i ↦ hfilled.settle (by simp) i _⟩
  · rw [backlog_succ, exec_append, hs, Option.bind_some]
    exact exec_concat hrun (step_enqueue_full (calls_withJob s queueDepth (a queueDepth)) hfull)
  · intro hmem
    obtain ⟨c, hc, heq⟩ := hinv.enqueued _ hmem
    have hid : c.id = s.nextID := congrArg BulkJobMessage.jobID heq
    have hlt := hinv.fresh c hc
    omega

def operator : User := ⟨"1", "alice", "local", "alice", [], []⟩

def nthNamespace (n : ℕ) : PathParam where
  text := String.ofList (List.replicate n 'a')
  segment := by simp [List.mem_replicate]

/-- A request for a namespace with one ExternalSecret, by a user who may patch it. -/
def nthRequest (n : ℕ) : Admitted where
  req := { user := some operator, route := .refreshNamespace (nthNamespace n), body := some ["5d1c"] }
  env :=
    { cached := .ok [{ ns := (nthNamespace n).text, name := "db", uid := "5d1c", status := .synced }]
      checker := fun _ _ _ _ _ ↦ some true }
  user := operator
  scope :=
    { action := .refreshNamespace
      scopeTarget := (nthNamespace n).text
      totalCount := 1
      totalNamespaces := 1
      visibleCount := 1
      restricted := false
      targets := [⟨(nthNamespace n).text, "db", "5d1c"⟩]
      byNamespace := [⟨(nthNamespace n).text, 1⟩] }
  vetted := by
    simp [vet, resolveScope, matchScope, BulkRoute.action, BulkRoute.scopeTarget, BulkEnv.canAccess, countNamespaces,
      compareUIDs, ExternalSecret.target, maxBulkTargets]

theorem bulkScope_nthRequest : Injective (fun n ↦ (nthRequest n).bulkScope) := by
  intro n m h
  have htext : String.ofList (List.replicate n 'a') = String.ofList (List.replicate m 'a') :=
    congrArg BulkScope.scopeTarget h
  have hlength := congrArg (fun text : String ↦ text.toList.length) htext
  simpa using hlength

/-- Neither a full queue nor a lost reply can be left out. -/
theorem not_onlyEnqueued :
    (¬ ∀ now run, Throughout step (fun s ↦ s.Pinned ∧ s.OnlyEnqueued) (init now) run) ∧
    ¬ ∀ now run, Throughout step (fun s ↦ ∀ c ∈ s.created,
      c.message ∈ s.enqueued ∨ (∃ i, s.calls i = .enqueueing c) ∨ c ∈ s.overflowed) (init now) run := by
  constructor
  · intro h
    obtain ⟨s, hs, c, hc, hmessage, hcalls⟩ := backlog_overflows bulkScope_nthRequest 0
    rcases ((h 0 _).last hs).2 c hc with hmem | ⟨i, hi⟩
    · exact hmessage hmem
    · exact hcalls i hi
  · intro h
    have hidle : (init 0).calls 0 = .idle := rfl
    obtain ⟨t, ht, hcreated, henqueued, hoverflowed, refusal, hcalls⟩ :=
      exec_lost (a := nthRequest 0) hidle (by simp [init])
    rcases (h 0 _).last ht ((init 0).newJob (nthRequest 0)) (by simp [hcreated]) with hmem | ⟨i, hi⟩ | hmem
    · simp [henqueued, init] at hmem
    · rw [hcalls] at hi
      by_cases hi0 : i = 0
      · simp [hi0] at hi
      · simp [update_of_ne hi0, init] at hi
    · simp [hoverflowed, init] at hmem

end BulkService

end KubeCenter.ExternalSecrets
