import KubeCenter.ExternalSecrets.Poller

namespace KubeCenter.ExternalSecrets

/-! The sync history as it is stored, and what a tick does to the history of one UID. -/

def HasRow (rows : List HistoryEntry) (uid : String) (attemptAt : ℤ) : Prop :=
  ∃ row ∈ rows, row.uid = uid ∧ row.attemptAt = attemptAt

instance (rows : List HistoryEntry) (uid : String) (attemptAt : ℤ) : Decidable (HasRow rows uid attemptAt) :=
  inferInstanceAs (Decidable (∃ row ∈ rows, row.uid = uid ∧ row.attemptAt = attemptAt))

/-- `ON CONFLICT (uid, attempt_at) DO NOTHING`; a conflict is no error. -/
def insertRow (rows : List HistoryEntry) (entry : HistoryEntry) : List HistoryEntry :=
  if HasRow rows entry.uid entry.attemptAt then rows else rows ++ [entry]

def insertRows (rows entries : List HistoryEntry) : List HistoryEntry := entries.foldl insertRow rows

/-- What a tick over a fetched list works with; a UID is listed once. -/
structure Tick where
  ess : List ExternalSecret
  env : PersistEnv := {}
  distinct : (ess.map ExternalSecret.uid).Nodup

/-- The poller and the table of its history store. -/
structure Timeline where
  poller : Poller := {}
  rows : List HistoryEntry := []

namespace Timeline

def tick (s : Timeline) (t : Tick) : Timeline :=
  let ticked := s.poller.process t.env t.ess
  ⟨ticked.poller, insertRows s.rows ticked.history⟩

/-- The rows of a UID that a tick adds to the table. -/
def newRows (s : Timeline) (t : Tick) (uid : String) : List HistoryEntry :=
  ((s.tick t).rows.drop s.rows.length).filter (fun row ↦ row.uid = uid)

/-- `Cleanup`: the rows of attempts before the retention window go. -/
def cleanup (s : Timeline) (before : ℤ) : Timeline :=
  { s with rows := s.rows.filter (fun row ↦ before ≤ row.attemptAt) }

end Timeline

namespace Poller

variable {p q : Poller} {es : ExternalSecret} {ess : List ExternalSecret} {env : PersistEnv} {a : Attempt}
  {attempts : List Attempt} {uid : String}

/-- Two pollers that have the same memory of a UID's attempts. -/
structure SameTrack (uid : String) (p q : Poller) : Prop where
  attemptAt : p.prevAttemptAt uid = q.prevAttemptAt uid
  keys : p.prevKeys uid = q.prevKeys uid

theorem SameTrack.trans {p q r : Poller} (h : SameTrack uid p q) (h' : SameTrack uid q r) : SameTrack uid p r :=
  ⟨h.attemptAt.trans h'.attemptAt, h.keys.trans h'.keys⟩

theorem persistOne_uid {entry : HistoryEntry} (h : entry ∈ (p.persistOne env a).1) : entry.uid = a.es.uid := by
  unfold persistOne at h
  dsimp only at h
  split at h
  · rw [List.mem_singleton.mp h]
  · cases h

/-- An attempt of another UID leaves a UID's memory alone. -/
theorem persistOne_other (p : Poller) (env : PersistEnv) (h : a.es.uid ≠ uid) : SameTrack uid (p.persistOne env a).2 p where
  attemptAt := by
    rw [persistOne_prevAttemptAt]
    split
    · exact Function.update_of_ne (Ne.symm h) _ _
    · rfl
  keys := by
    rw [persistOne_prevKeys]
    split
    · rfl
    · exact Function.update_of_ne (Ne.symm h) _ _

/-- An attempt goes by the memory of its own UID alone. -/
theorem persistOne_congr (env : PersistEnv) (h : SameTrack a.es.uid p q) : (p.persistOne env a).1 = (q.persistOne env a).1 ∧
    SameTrack a.es.uid (p.persistOne env a).2 (q.persistOne env a).2 := by
  unfold persistOne resolveDiffKeys
  cases fetchedKeys env a.es a.outcome <;> cases env.insertOk a.es.uid <;>
    refine ⟨?_, ⟨?_, ?_⟩⟩ <;> simp [h.attemptAt, h.keys]

theorem filter_persistOne_other (h : a.es.uid ≠ uid) :
    (p.persistOne env a).1.filter (fun row ↦ row.uid = uid) = [] := by
  refine List.filter_eq_nil_iff.mpr (fun entry hentry heq ↦ h ?_)
  rw [← persistOne_uid hentry]
  exact of_decide_eq_true heq

theorem filter_persistOne_self : (p.persistOne env a).1.filter (fun row ↦ row.uid = a.es.uid) = (p.persistOne env a).1 :=
  List.filter_eq_self.mpr (fun _ hentry ↦ decide_eq_true (persistOne_uid hentry))

theorem persistEach_other (p : Poller) (env : PersistEnv) (h : ∀ a ∈ attempts, a.es.uid ≠ uid) :
    (p.persistEach env attempts).1.filter (fun row ↦ row.uid = uid) = [] ∧
      SameTrack uid (p.persistEach env attempts).2 p := by
  induction attempts generalizing p with
  | nil => exact ⟨rfl, ⟨rfl, rfl⟩⟩
  | cons a attempts ih =>
    obtain ⟨hrows, htrack⟩ := ih (p.persistOne env a).2 (fun b hb ↦ h b (List.mem_cons_of_mem a hb))
    have ha := h a List.mem_cons_self
    refine ⟨?_, htrack.trans (persistOne_other p env ha)⟩
    change ((p.persistOne env a).1 ++ ((p.persistOne env a).2.persistEach env attempts).1).filter _ = []
    rw [List.filter_append, filter_persistOne_other ha, hrows, List.append_nil]

theorem persistEach_of_mem (p : Poller) (env : PersistEnv) (hnodup : (attempts.map (fun a ↦ a.es.uid)).Nodup) (ha : a ∈ attempts) :
    (p.persistEach env attempts).1.filter (fun row ↦ row.uid = a.es.uid) = (p.persistOne env a).1 ∧
      SameTrack a.es.uid (p.persistEach env attempts).2 (p.persistOne env a).2 := by
  induction attempts generalizing p with
  | nil => cases ha
  | cons b attempts ih =>
    obtain ⟨hb, hnodup⟩ := List.nodup_cons.mp hnodup
    change ((p.persistOne env b).1 ++ ((p.persistOne env b).2.persistEach env attempts).1).filter _ = _ ∧
      SameTrack a.es.uid ((p.persistOne env b).2.persistEach env attempts).2 _
    rw [List.filter_append]
    rcases List.mem_cons.mp ha with rfl | ha
    · have hother : ∀ b ∈ attempts, b.es.uid ≠ a.es.uid :=
        fun c hc heq ↦ hb (List.mem_map.mpr ⟨c, hc, heq⟩)
      obtain ⟨hrows, htrack⟩ := persistEach_other (p.persistOne env a).2 env hother
      rw [hrows, filter_persistOne_self, List.append_nil]
      exact ⟨rfl, htrack⟩
    · have hne : b.es.uid ≠ a.es.uid := fun heq ↦ hb (List.mem_map.mpr ⟨a, ha, heq.symm⟩)
      obtain ⟨hrows, htrack⟩ := ih (p.persistOne env b).2 hnodup ha
      obtain ⟨hsame, hsameTrack⟩ := persistOne_congr env (persistOne_other p env hne)
      rw [filter_persistOne_other hne, hrows, hsame, List.nil_append]
      exact ⟨rfl, htrack.trans hsameTrack⟩

theorem attempts_uid_sublist (p : Poller) (ess : List ExternalSecret) :
    ((ess.filterMap p.attempt).map (fun a ↦ a.es.uid)).Sublist (ess.map ExternalSecret.uid) := by
  induction ess with
  | nil => exact List.Sublist.slnil
  | cons es ess ih =>
    cases h : p.attempt es with
    | none =>
      rw [List.filterMap_cons_none h]
      exact ih.cons _
    | some a =>
      rw [List.filterMap_cons_some h, List.map_cons, (attempt_eq_some_iff.mp h).1]
      exact ih.cons_cons _

theorem prune_sameTrack (h : es ∈ ess) : SameTrack es.uid (p.prune ess) p :=
  have hlisted := prune_listed (p := p) (List.mem_map_of_mem h)
  ⟨hlisted.2.2.1, hlisted.2.2.2⟩

/-- What a tick does for a UID that it lists is what the attempt of that ExternalSecret does, taken alone. -/
theorem process_of_mem (env : PersistEnv) (hdistinct : (ess.map ExternalSecret.uid).Nodup) (hes : es ∈ ess)
    (hstore : p.historyStore = true) :
    (p.process env ess).history.filter (fun row ↦ row.uid = es.uid) =
        ((p.attempt es).map (fun a ↦ (p.persistOne env a).1)).getD [] ∧
      SameTrack es.uid (p.process env ess).poller (((p.attempt es).map (fun a ↦ (p.persistOne env a).2)).getD p) := by
  obtain ⟨hattemptAt, hkeys, hstore', -⟩ := checkAll_rest p ess
  have hcheck : SameTrack es.uid (p.checkAll ess).2 p := ⟨congrFun hattemptAt _, congrFun hkeys _⟩
  have hattempt : (p.checkAll ess).2.attempt = p.attempt := attempt_congr hattemptAt
  have hpersist : (p.checkAll ess).2.persistAttempts env ess =
      (p.checkAll ess).2.persistEach env (ess.filterMap p.attempt) := by
    rw [persistAttempts, hstore', hstore, hattempt]; rfl
  change ((p.checkAll ess).2.persistAttempts env ess).1.filter _ = _ ∧
    SameTrack es.uid (((p.checkAll ess).2.persistAttempts env ess).2.prune ess) _
  rw [hpersist]
  have hprune := prune_sameTrack (p := ((p.checkAll ess).2.persistEach env (ess.filterMap p.attempt)).2) hes
  have hnodup := hdistinct.sublist (attempts_uid_sublist p ess)
  cases ha : p.attempt es with
  | none =>
    have hother : ∀ a ∈ ess.filterMap p.attempt, a.es.uid ≠ es.uid := by
      intro a hmem heq
      obtain ⟨es', hes', ha'⟩ := List.mem_filterMap.mp hmem
      rw [(attempt_eq_some_iff.mp ha').1] at heq
      rw [List.inj_on_of_nodup_map hdistinct hes' hes heq, ha] at ha'
      cases ha'
    obtain ⟨hrows, htrack⟩ := persistEach_other (p.checkAll ess).2 env hother
    exact ⟨hrows, (hprune.trans htrack).trans hcheck⟩
  | some a =>
    have hmem : a ∈ ess.filterMap p.attempt := List.mem_filterMap.mpr ⟨es, hes, ha⟩
    obtain rfl : a.es = es := (attempt_eq_some_iff.mp ha).1
    obtain ⟨hrows, htrack⟩ := persistEach_of_mem (p.checkAll ess).2 env hnodup hmem
    obtain ⟨hsame, hsameTrack⟩ := persistOne_congr env hcheck
    exact ⟨hrows.trans hsame, (hprune.trans htrack).trans hsameTrack⟩

/-- The row an attempt brings to the store. -/
def entryOf (p : Poller) (env : PersistEnv) (a : Attempt) : HistoryEntry :=
  ⟨a.es.uid, a.es.ns, a.es.name, a.attemptAt, a.outcome, a.es.readyReason, a.es.readyMessage,
    (p.resolveDiffKeys env a.es a.outcome).1, a.es.syncedResourceVersion⟩

theorem persistOne_rows (p : Poller) (env : PersistEnv) (a : Attempt) :
    (p.persistOne env a).1 = if env.insertOk a.es.uid then [p.entryOf env a] else [] := by
  unfold persistOne
  dsimp only
  split <;> rfl

theorem persistOne_prevKeys_self (p : Poller) (env : PersistEnv) (a : Attempt) :
    (p.persistOne env a).2.prevKeys a.es.uid = (fetchedKeys env a.es a.outcome).or (p.prevKeys a.es.uid) := by
  rw [persistOne_prevKeys]
  cases fetchedKeys env a.es a.outcome <;> simp

end Poller

theorem filter_insertRow (rows : List HistoryEntry) (entry : HistoryEntry) (uid : String) :
    (insertRow rows entry).filter (fun row ↦ row.uid = uid) =
      if entry.uid = uid then insertRow (rows.filter (fun row ↦ row.uid = uid)) entry
      else rows.filter (fun row ↦ row.uid = uid) := by
  unfold insertRow
  by_cases huid : entry.uid = uid
  · subst huid
    have hrow : HasRow (rows.filter (fun row ↦ row.uid = entry.uid)) entry.uid entry.attemptAt ↔
        HasRow rows entry.uid entry.attemptAt := by
      unfold HasRow
      constructor
      · rintro ⟨row, hmem, h⟩
        exact ⟨row, List.mem_of_mem_filter hmem, h⟩
      · rintro ⟨row, hmem, h⟩
        exact ⟨row, List.mem_filter.mpr ⟨hmem, decide_eq_true h.1⟩, h⟩
    simp only [hrow, if_true]
    split
    · rfl
    · simp
  · rw [if_neg huid]
    split
    · rfl
    · simp [huid]

theorem filter_insertRows (rows entries : List HistoryEntry) (uid : String) :
    (insertRows rows entries).filter (fun row ↦ row.uid = uid) =
      insertRows (rows.filter (fun row ↦ row.uid = uid)) (entries.filter (fun row ↦ row.uid = uid)) := by
  induction entries generalizing rows with
  | nil => rfl
  | cons entry entries ih =>
    change (insertRows (insertRow rows entry) entries).filter _ = _
    rw [ih, filter_insertRow, List.filter_cons]
    split <;> simp_all [insertRows]

theorem prefix_insertRows (rows entries : List HistoryEntry) : rows <+: insertRows rows entries := by
  induction entries generalizing rows with
  | nil => exact List.prefix_rfl
  | cons entry entries ih =>
    refine List.IsPrefix.trans ?_ (ih (insertRow rows entry))
    unfold insertRow
    split
    · exact List.prefix_rfl
    · exact List.prefix_append rows [entry]

namespace Timeline

variable {s : Timeline} {t : Tick} {es : ExternalSecret} {a : Attempt}

/-- The table only grows by a tick, and what it grows by for a UID goes by the UID's own rows and entries. -/
theorem append_newRows (s : Timeline) (t : Tick) (uid : String) :
    s.rows.filter (fun row ↦ row.uid = uid) ++ s.newRows t uid =
      insertRows (s.rows.filter (fun row ↦ row.uid = uid))
        ((s.poller.process t.env t.ess).history.filter (fun row ↦ row.uid = uid)) := by
  obtain ⟨added, hadded⟩ := prefix_insertRows s.rows (s.poller.process t.env t.ess).history
  rw [← filter_insertRows, newRows, tick, ← hadded, List.drop_left, List.filter_append]

theorem newRows_of_attempt_none (hes : es ∈ t.ess) (hstore : s.poller.historyStore = true)
    (ha : s.poller.attempt es = none) : s.newRows t es.uid = [] := by
  have h := append_newRows s t es.uid
  rw [(Poller.process_of_mem t.env t.distinct hes hstore).1, ha] at h
  exact List.append_cancel_left (h.trans (List.append_nil _).symm)

/-- An attempt adds its row when the INSERT succeeds and meets no conflict, and none otherwise. -/
theorem newRows_of_attempt (hes : es ∈ t.ess) (hstore : s.poller.historyStore = true)
    (ha : s.poller.attempt es = some a) : s.newRows t es.uid =
      if t.env.insertOk es.uid = true ∧ ¬ HasRow s.rows es.uid a.attemptAt then [s.poller.entryOf t.env a] else [] := by
  have h := append_newRows s t es.uid
  obtain rfl : a.es = es := (Poller.attempt_eq_some_iff.mp ha).1
  rw [(Poller.process_of_mem t.env t.distinct hes hstore).1, ha, Option.map_some, Option.getD_some,
    Poller.persistOne_rows] at h
  by_cases hok : t.env.insertOk a.es.uid = true
  · have hentry := filter_insertRow s.rows (s.poller.entryOf t.env a) a.es.uid
    rw [if_pos hok, insertRows, List.foldl_cons, List.foldl_nil] at h
    rw [if_pos (show (s.poller.entryOf t.env a).uid = a.es.uid from rfl), ← h] at hentry
    by_cases hrow : HasRow s.rows a.es.uid a.attemptAt
    · rw [insertRow, if_pos (show HasRow s.rows (s.poller.entryOf t.env a).uid (s.poller.entryOf t.env a).attemptAt
        from hrow)] at hentry
      rw [if_neg (fun h ↦ h.2 hrow)]
      exact List.append_cancel_left (hentry.symm.trans (List.append_nil _).symm)
    · rw [insertRow, if_neg (show ¬ HasRow s.rows (s.poller.entryOf t.env a).uid (s.poller.entryOf t.env a).attemptAt
        from hrow), List.filter_append] at hentry
      rw [if_pos ⟨hok, hrow⟩, ← List.append_cancel_left hentry]
      exact List.filter_eq_self.mpr (fun row hmem ↦ by rw [List.mem_singleton.mp hmem]; exact decide_eq_true rfl)
  · rw [if_neg (fun h ↦ hok h.1)]
    rw [if_neg hok] at h
    exact List.append_cancel_left (h.trans (List.append_nil _).symm)

end Timeline

end KubeCenter.ExternalSecrets
