import KubeCenter.Alerting.Store

/-! The store against the stream of webhook alerts. -/

namespace KubeCenter.Alerting

open KubeCenter.Core

structure WebhookAlert where
  status : String
  labels : GoMap String String := ∅
  startsAt : ℤ := 0
  endsAt : Option ℤ := none
  fingerprint : String

/-- The event that `ProcessWebhook` records of a firing alert. -/
def WebhookAlert.event (alert : WebhookAlert) (now : Instant) : AlertEvent :=
  { fingerprint := alert.fingerprint
    status := "firing"
    alertName := (alert.labels.lookup "alertname").getD ""
    ns := (alert.labels.lookup "namespace").getD ""
    severity := (alert.labels.lookup "severity").getD ""
    startsAt := alert.startsAt
    endsAt := alert.endsAt
    receivedAt := now }

/-- Payloads that are processed at once take turns with their alerts, and `Prune` comes in between. -/
inductive Step
  | alert (alert : WebhookAlert) (now : Instant)
  | prune (olderThan : ℤ)

namespace MemoryStore

variable (s : MemoryStore)

def process : Step → MemoryStore
  | .alert alert now =>
    if alert.status = "firing" then s.record (alert.event now) now
    else if alert.status = "resolved" then s.resolve alert.fingerprint alert.endsAt now
    else s
  | .prune olderThan => s.prune olderThan

/-- The loop of `ProcessWebhook`, on alerts with the clock as each is stored. -/
def processWebhook (alerts : List (WebhookAlert × Instant)) : MemoryStore :=
  alerts.foldl (fun s alert ↦ s.process (.alert alert.1 alert.2)) s

/-- The event of a firing alert as the store keeps it. -/
def recorded (alert : WebhookAlert) (now : Instant) : AlertEvent :=
  { alert.event now with id := alertID (s.nextID + 1) }

/-- The entry of an alert that ends, made of the one that was active. -/
def ended (active : AlertEvent) (alert : WebhookAlert) (now : Instant) : AlertEvent :=
  { active with
    status := "resolved", endsAt := alert.endsAt, resolvedAt := some now.nanos, receivedAt := now
    id := alertID (s.nextID + 1) }

end MemoryStore

def after (run : List Step) : MemoryStore := run.foldl MemoryStore.process {}

theorem after_concat (run : List Step) (step : Step) : after (run ++ [step]) = (after run).process step :=
  List.foldl_concat _ _ _ _

theorem after_webhook (run : List Step) (alerts : List (WebhookAlert × Instant)) :
    after (run ++ alerts.map (fun alert ↦ .alert alert.1 alert.2)) = (after run).processWebhook alerts := by
  rw [after, List.foldl_append, List.foldl_map]
  rfl

variable {s : MemoryStore} {run post : List Step} {step : Step} {e : AlertEvent} {fp : String}

/-- Neither a newer status for the fingerprint nor a prune that takes the event. -/
def Spares (e : AlertEvent) : Step → Prop
  | .alert b _ => b.fingerprint = e.fingerprint → b.status ≠ "firing" ∧ b.status ≠ "resolved"
  | .prune olderThan => olderThan ≤ e.receivedAt.nanos

/-- Each active event stands under its fingerprint. -/
def Keyed (s : MemoryStore) : Prop := ∀ fp e, s.active.lookup fp = some e → e.fingerprint = fp

theorem lookup_record {event : AlertEvent} {now : Instant} (h : event.status = "firing") :
    (s.record event now).active.lookup fp =
      if fp = event.fingerprint then some { event with id := alertID (s.nextID + 1), receivedAt := now }
      else s.active.lookup fp := by
  simp only [MemoryStore.record, h, if_true]
  split
  · next he => rw [he, AList.lookup_insert]
  · next he => rw [AList.lookup_insert_ne he]

theorem lookup_resolve {fingerprint : String} {endsAt : Option ℤ} {now : Instant} :
    (s.resolve fingerprint endsAt now).active.lookup fp =
      if fp = fingerprint then none else s.active.lookup fp := by
  unfold MemoryStore.resolve
  split
  · next h =>
    split
    · next he => rw [he, h]
    · rfl
  · split
    · next he => rw [he, AList.lookup_erase]
    · next he => rw [AList.lookup_erase_ne he]

theorem lookup_prune {olderThan : ℤ} :
    (s.prune olderThan).active.lookup fp = some e ↔ s.active.lookup fp = some e ∧ olderThan ≤ e.receivedAt.nanos := by
  simp only [MemoryStore.prune, GoMap.lookup_sift, Option.filter_eq_some_iff, decide_eq_true_eq, Int.not_lt]

theorem lookup_firing {alert : WebhookAlert} {now : Instant} (h : Keyed s) (hs : alert.status = "firing") :
    (s.process (.alert alert now)).active.lookup fp = some e ↔
      alert.fingerprint = fp ∧ e = s.recorded alert now ∨ s.active.lookup fp = some e ∧ Spares e (.alert alert now) := by
  have hlookup : (s.process (.alert alert now)).active.lookup fp =
      if fp = alert.fingerprint then some (s.recorded alert now) else s.active.lookup fp := by
    simp only [MemoryStore.process, hs, if_true]
    exact lookup_record rfl
  rw [hlookup]
  by_cases hfp : fp = alert.fingerprint
  · have hnot : ¬ (s.active.lookup fp = some e ∧ Spares e (.alert alert now)) := by
      intro hold
      exact (hold.2 (hfp.symm.trans (h fp e hold.1).symm)).1 hs
    rw [if_pos hfp, Option.some_inj, or_iff_left hnot]
    exact ⟨fun he ↦ ⟨hfp.symm, he.symm⟩, fun he ↦ he.2.symm⟩
  · have hnot : ¬ (alert.fingerprint = fp ∧ e = s.recorded alert now) := fun hnew ↦ hfp hnew.1.symm
    rw [if_neg hfp, or_iff_right hnot]
    exact ⟨fun he ↦ ⟨he, fun hb ↦ absurd ((h fp e he).symm.trans hb.symm) hfp⟩, fun he ↦ he.1⟩

theorem lookup_resolved {alert : WebhookAlert} {now : Instant} (h : Keyed s) (hs : alert.status = "resolved") :
    (s.process (.alert alert now)).active.lookup fp = some e ↔
      s.active.lookup fp = some e ∧ Spares e (.alert alert now) := by
  have hf : alert.status ≠ "firing" := by
    rw [hs]
    decide
  have hprocess : s.process (.alert alert now) = s.resolve alert.fingerprint alert.endsAt now := by
    rw [MemoryStore.process, if_neg hf, if_pos hs]
  rw [hprocess, lookup_resolve]
  by_cases hfp : fp = alert.fingerprint
  · rw [if_pos hfp]
    constructor
    · exact fun he ↦ by cases he
    · exact fun he ↦ absurd hs (he.2 (hfp.symm.trans (h fp e he.1).symm)).2
  · rw [if_neg hfp]
    exact ⟨fun he ↦ ⟨he, fun hb ↦ absurd ((h fp e he).symm.trans hb.symm) hfp⟩, fun he ↦ he.1⟩

/-- What a step leaves active: the alert it records, and what it spares. -/
theorem lookup_process (h : Keyed s) : (s.process step).active.lookup fp = some e ↔
    (∃ alert now, step = .alert alert now ∧ alert.status = "firing" ∧ alert.fingerprint = fp ∧
      e = s.recorded alert now) ∨ s.active.lookup fp = some e ∧ Spares e step := by
  cases step with
  | prune olderThan =>
    rw [MemoryStore.process, lookup_prune, or_iff_right (fun ⟨_, _, he, _⟩ ↦ by cases he)]
    rfl
  | alert alert now =>
    by_cases hf : alert.status = "firing"
    · rw [lookup_firing h hf]
      apply or_congr_left
      constructor
      · exact fun hnew ↦ ⟨alert, now, rfl, hf, hnew⟩
      · rintro ⟨_, _, he, -, hnew⟩
        cases he
        exact hnew
    · have hno : ¬ ∃ alert' now', Step.alert alert now = .alert alert' now' ∧ alert'.status = "firing" ∧
          alert'.fingerprint = fp ∧ e = s.recorded alert' now' := by
        rintro ⟨_, _, he, hf', -⟩
        cases he
        exact hf hf'
      rw [or_iff_right hno]
      by_cases hr : alert.status = "resolved"
      · exact lookup_resolved h hr
      · simp only [MemoryStore.process, hf, hr, if_false]
        exact ⟨fun he ↦ ⟨he, fun _ ↦ ⟨hf, hr⟩⟩, fun he ↦ he.1⟩

theorem Keyed.process (h : Keyed s) (step : Step) : Keyed (s.process step) := by
  intro fp e he
  obtain ⟨alert, now, -, -, hfp, rfl⟩ | ⟨he, -⟩ := (lookup_process h).mp he
  · exact hfp
  · exact h fp e he

theorem keyed_after (run : List Step) : Keyed (after run) := by
  induction run using List.reverseRecOn with
  | nil => exact fun _ _ h ↦ by cases h
  | append_singleton run step ih =>
    rw [after_concat]
    exact ih.process step

/-- The run ends on `post`, which has no status for the fingerprint of the event, recorded just before it. -/
def LastFiring (run : List Step) (e : AlertEvent) (post : List Step) : Prop :=
  ∃ pre alert now, run = pre ++ .alert alert now :: post ∧ alert.status = "firing" ∧
    e = (after pre).recorded alert now ∧
      ∀ b now', Step.alert b now' ∈ post → b.fingerprint = e.fingerprint → b.status ≠ "firing" ∧ b.status ≠ "resolved"

/-- The last status of the fingerprint is firing, and no prune since has taken the event. -/
def Live (run : List Step) (e : AlertEvent) : Prop :=
  ∃ post, LastFiring run e post ∧ ∀ olderThan, Step.prune olderThan ∈ post → olderThan ≤ e.receivedAt.nanos

theorem live_concat : Live (run ++ [step]) e ↔
    (∃ alert now, step = .alert alert now ∧ alert.status = "firing" ∧ e = (after run).recorded alert now) ∨
      Live run e ∧ Spares e step := by
  constructor
  · rintro ⟨post, ⟨pre, alert, now, hrun, hf, he, hno⟩, hprune⟩
    obtain rfl | ⟨post, step', rfl⟩ := List.eq_nil_or_concat post
    · obtain ⟨rfl, hstep⟩ := List.append_inj' hrun rfl
      exact .inl ⟨alert, now, List.singleton_inj.mp hstep, hf, he⟩
    · simp only [List.concat_eq_append] at hrun hno hprune
      rw [← List.cons_append, ← List.append_assoc] at hrun
      obtain ⟨rfl, hstep⟩ := List.append_inj' hrun rfl
      cases List.singleton_inj.mp hstep
      refine .inr ⟨⟨post, ⟨pre, alert, now, rfl, hf, he, ?_⟩, ?_⟩, ?_⟩
      · exact fun b now' hb ↦ hno b now' (List.mem_append_left _ hb)
      · exact fun olderThan hp ↦ hprune olderThan (List.mem_append_left _ hp)
      · cases step with
        | alert b now' => exact hno b now' (List.mem_append_right _ List.mem_cons_self)
        | prune olderThan => exact hprune olderThan (List.mem_append_right _ List.mem_cons_self)
  · rintro (⟨alert, now, rfl, hf, he⟩ | ⟨⟨post, ⟨pre, alert, now, rfl, hf, he, hno⟩, hprune⟩, hspares⟩)
    · exact ⟨[], ⟨run, alert, now, rfl, hf, he, fun _ _ h ↦ by cases h⟩, fun _ h ↦ by cases h⟩
    · refine ⟨post ++ [step], ⟨pre, alert, now, ?_, hf, he, ?_⟩, ?_⟩
      · rw [List.append_assoc, List.cons_append]
      · intro b now' hb
        obtain hb | hb := List.mem_append.mp hb
        · exact hno b now' hb
        · cases List.mem_singleton.mp hb
          exact hspares
      · intro olderThan hp
        obtain hp | hp := List.mem_append.mp hp
        · exact hprune olderThan hp
        · cases List.mem_singleton.mp hp
          exact hspares

theorem lookup_after : (after run).active.lookup fp = some e ↔ e.fingerprint = fp ∧ Live run e := by
  induction run using List.reverseRecOn generalizing e with
  | nil =>
    constructor
    · exact fun h ↦ by cases h
    · rintro ⟨-, post, ⟨pre, alert, now, h, -⟩, -⟩
      simp at h
  | append_singleton run step ih =>
    rw [after_concat, lookup_process (keyed_after run), live_concat, ih]
    constructor
    · rintro (⟨alert, now, rfl, hf, hfp, rfl⟩ | ⟨⟨hfp, hlive⟩, hspares⟩)
      · exact ⟨hfp, .inl ⟨alert, now, rfl, hf, rfl⟩⟩
      · exact ⟨hfp, .inr ⟨hlive, hspares⟩⟩
    · rintro ⟨hfp, ⟨alert, now, rfl, hf, rfl⟩ | ⟨hlive, hspares⟩⟩
      · exact .inl ⟨alert, now, rfl, hf, hfp, rfl⟩
      · exact .inr ⟨⟨hfp, hlive⟩, hspares⟩

theorem mem_activeAlerts : e ∈ (after run).activeAlerts ↔ Live run e := by
  rw [MemoryStore.activeAlerts, (List.mergeSort_perm _ _).mem_iff, List.mem_map]
  constructor
  · rintro ⟨⟨fp, e⟩, he, rfl⟩
    exact (lookup_after.mp (GoMap.mem_entries_iff.mp he)).2
  · intro h
    exact ⟨⟨e.fingerprint, e⟩, GoMap.mem_entries_iff.mpr (lookup_after.mpr ⟨rfl, h⟩), rfl⟩

theorem nodup_activeAlerts (run : List Step) : ((after run).activeAlerts.map AlertEvent.fingerprint).Nodup := by
  have hkeys : (after run).active.entries.map (fun e ↦ e.2.fingerprint) = (after run).active.keys := by
    apply List.map_congr_left
    intro e he
    exact keyed_after run e.1 e.2 (GoMap.mem_entries_iff.mp he)
  rw [MemoryStore.activeAlerts, ((List.mergeSort_perm _ _).map _).nodup_iff, List.map_map]
  change ((after run).active.entries.map (fun e ↦ e.2.fingerprint)).Nodup
  rw [hkeys]
  exact AList.keys_nodup _

/-! The history. -/

/-- What a step adds to the history. -/
def MemoryStore.added (s : MemoryStore) : Step → List AlertEvent
  | .alert alert now =>
    if alert.status = "firing" then [s.recorded alert now]
    else if alert.status = "resolved" then
      (s.active.lookup alert.fingerprint).toList.map (fun active ↦ s.ended active alert now)
    else []
  | .prune _ => []

/-- The number in the id of the first event is less than that in the id of the second. -/
def NumberedBefore (a b : AlertEvent) : Prop := ∃ n m, a.id = alertID n ∧ b.id = alertID m ∧ n < m

/-- The ids of the history count up, and it holds no more than its cap. -/
structure Counted (s : MemoryStore) : Prop where
  increasing : s.history.Pairwise NumberedBefore
  issued : ∀ e ∈ s.history, ∃ n ≤ s.nextID, e.id = alertID n
  cap : s.history.length ≤ maxHistoryEntries

theorem length_trimmed (history : List AlertEvent) : (trimmed history).length = min history.length maxHistoryEntries := by
  rw [trimmed, List.length_drop]
  omega

theorem Counted.append (h : Counted s) {event : AlertEvent} (hid : event.id = alertID (s.nextID + 1))
    (active : GoMap String AlertEvent) : Counted ⟨active, trimmed (s.history ++ [event]), s.nextID + 1⟩ := by
  have hsub := trimmed_sublist (s.history ++ [event])
  constructor <;> dsimp only
  · refine List.Pairwise.sublist hsub (List.pairwise_append.mpr ⟨h.increasing, List.pairwise_singleton _ _, ?_⟩)
    intro old hold new hnew
    obtain ⟨n, hn, hidn⟩ := h.issued old hold
    rw [List.mem_singleton.mp hnew]
    exact ⟨n, s.nextID + 1, hidn, hid, Nat.lt_succ_of_le hn⟩
  · intro old hold
    obtain hold | hold := List.mem_append.mp (hsub.subset hold)
    · obtain ⟨n, hn, hidn⟩ := h.issued old hold
      exact ⟨n, Nat.le_succ_of_le hn, hidn⟩
    · rw [List.mem_singleton.mp hold]
      exact ⟨_, Nat.le_refl _, hid⟩
  · rw [length_trimmed]
    exact Nat.min_le_right _ _

theorem trimmed_eq_self {history : List AlertEvent} (h : history.length ≤ maxHistoryEntries) :
    trimmed history = history := by
  rw [trimmed, Nat.sub_eq_zero_of_le h, List.drop_zero]

theorem history_alert (h : Counted s) (alert : WebhookAlert) (now : Instant) :
    (s.process (.alert alert now)).history = trimmed (s.history ++ s.added (.alert alert now)) := by
  unfold MemoryStore.process MemoryStore.added
  dsimp only
  split
  · simp only [MemoryStore.record, MemoryStore.recorded, WebhookAlert.event]
  · split
    · unfold MemoryStore.resolve
      cases hlookup : s.active.lookup alert.fingerprint with
      | none =>
        rw [Option.toList_none, List.map_nil, List.append_nil, trimmed_eq_self h.cap]
      | some active => simp only [Option.toList_some, List.map_singleton, MemoryStore.ended]
    · rw [List.append_nil, trimmed_eq_self h.cap]

theorem Counted.process (h : Counted s) (step : Step) : Counted (s.process step) := by
  cases step with
  | prune olderThan =>
    have hsub := List.filter_sublist (p := fun event : AlertEvent ↦ decide ¬ event.receivedAt.nanos < olderThan)
      (l := s.history)
    exact ⟨h.increasing.sublist hsub, fun e he ↦ h.issued e (hsub.subset he), hsub.length_le.trans h.cap⟩
  | alert alert now =>
    unfold MemoryStore.process
    dsimp only
    split
    · exact h.append rfl _
    · split
      · unfold MemoryStore.resolve
        split
        · exact h
        · exact h.append rfl _
      · exact h

theorem counted_after (run : List Step) : Counted (after run) := by
  induction run using List.reverseRecOn with
  | nil => exact ⟨List.Pairwise.nil, (fun _ h ↦ by cases h), Nat.zero_le _⟩
  | append_singleton run step ih =>
    rw [after_concat]
    exact ih.process step

/-- What one step does to the history: at most one entry is added at the end, the oldest go when the cap is
passed, a prune takes what was received before its cutoff, and an entry is a resolved one exactly when the
step resolves an active fingerprint. -/
structure StepAgrees (s : MemoryStore) (step : Step) : Prop where
  dropsOldest : ∀ alert now, step = .alert alert now → ∃ k, (s.process step).history =
    (s.history ++ s.added step).drop k ∧ (0 < k → (s.process step).history.length = maxHistoryEntries)
  prunes : ∀ olderThan, step = .prune olderThan → (s.process step).history =
    s.history.filter (fun event ↦ olderThan ≤ event.receivedAt.nanos)
  single : (s.added step).length ≤ 1
  resolved : ∀ fp, (∃ e ∈ s.added step, e.status = "resolved" ∧ e.fingerprint = fp) ↔
    ∃ alert now, step = .alert alert now ∧ alert.status = "resolved" ∧ alert.fingerprint = fp ∧
      (s.active.lookup fp).isSome = true

theorem resolved_added (h : Keyed s) : (∃ e ∈ s.added step, e.status = "resolved" ∧ e.fingerprint = fp) ↔
    ∃ alert now, step = .alert alert now ∧ alert.status = "resolved" ∧ alert.fingerprint = fp ∧
      (s.active.lookup fp).isSome = true := by
  have hne : "resolved" ≠ "firing" := by decide
  constructor
  · rintro ⟨e, he, hs, rfl⟩
    cases step with
    | prune olderThan => cases he
    | alert alert now =>
      simp only [MemoryStore.added] at he
      split at he
      · rw [List.mem_singleton.mp he] at hs
        exact absurd hs.symm hne
      · split at he
        · next hr =>
          obtain ⟨active, hactive, rfl⟩ := List.mem_map.mp he
          have hlookup := Option.mem_toList.mp hactive
          have hfp : active.fingerprint = alert.fingerprint := h _ _ hlookup
          refine ⟨alert, now, rfl, hr, hfp.symm, ?_⟩
          change (s.active.lookup active.fingerprint).isSome = true
          rw [hfp, hlookup]
          rfl
        · cases he
  · rintro ⟨alert, now, rfl, hs, rfl, hactive⟩
    obtain ⟨active, hlookup⟩ := Option.isSome_iff_exists.mp hactive
    have hfp : active.fingerprint = alert.fingerprint := h _ _ hlookup
    refine ⟨s.ended active alert now, ?_, rfl, hfp⟩
    have hf : alert.status ≠ "firing" := hs ▸ hne
    rw [MemoryStore.added, if_neg hf, if_pos hs, hlookup]
    exact List.mem_cons_self

theorem length_added (s : MemoryStore) (step : Step) : (s.added step).length ≤ 1 := by
  cases step with
  | prune olderThan => exact Nat.zero_le 1
  | alert alert now =>
    unfold MemoryStore.added
    dsimp only
    split
    · exact Nat.le_refl 1
    · split
      · rw [List.length_map]
        exact Option.length_toList_le
      · exact Nat.zero_le 1

theorem stepAgrees (hk : Keyed s) (hc : Counted s) (step : Step) : StepAgrees s step where
  dropsOldest := by
    rintro alert now rfl
    refine ⟨_, history_alert hc alert now, fun hpos ↦ ?_⟩
    rw [history_alert hc, length_trimmed]
    omega
  prunes := by
    rintro olderThan rfl
    apply List.filter_congr
    intro event _
    simp only [Int.not_lt]
  single := length_added s step
  resolved := fun _ ↦ resolved_added hk

/-- As the clock does not go back and `RunPruner` counts back from it: no cutoff is after what is stored
behind its prune. -/
def Timely (run : List Step) : Prop :=
  ∀ pre olderThan post, run = pre ++ .prune olderThan :: post →
    ∀ alert now, Step.alert alert now ∈ post → olderThan ≤ now.nanos

theorem live_iff_of_timely (h : Timely run) : Live run e ↔
    ∃ post, LastFiring run e post ∧ ∀ olderThan, Step.prune olderThan ∈ run → olderThan ≤ e.receivedAt.nanos := by
  constructor
  · rintro ⟨post, hfiring, hprune⟩
    refine ⟨post, hfiring, fun olderThan hp ↦ ?_⟩
    obtain ⟨pre, alert, now, rfl, -, rfl, -⟩ := hfiring
    obtain hp | hp := List.mem_append.mp hp
    · obtain ⟨before, between, rfl⟩ := List.mem_iff_append.mp hp
      refine h before olderThan (between ++ .alert alert now :: post) ?_ alert now ?_
      · rw [List.append_assoc, List.cons_append]
      · exact List.mem_append_right _ List.mem_cons_self
    · obtain hp | hp := List.mem_cons.mp hp
      · cases hp
      · exact hprune olderThan hp
  · rintro ⟨post, hfiring, hprune⟩
    refine ⟨post, hfiring, fun olderThan hp ↦ hprune olderThan ?_⟩
    obtain ⟨pre, alert, now, rfl, -⟩ := hfiring
    exact List.mem_append_right _ (List.mem_cons_of_mem _ hp)

/-- The store agrees with the stream of alerts and prunes it was fed. -/
structure Agrees (run : List Step) : Prop where
  active : ∀ e, e ∈ (after run).activeAlerts ↔ Live run e
  latestCutoff : Timely run → ∀ e, e ∈ (after run).activeAlerts ↔ ∃ post, LastFiring run e post ∧
    ∀ olderThan, Step.prune olderThan ∈ run → olderThan ≤ e.receivedAt.nanos
  once : ((after run).activeAlerts.map AlertEvent.fingerprint).Nodup
  increasing : (after run).history.Pairwise NumberedBefore
  cap : (after run).history.length ≤ maxHistoryEntries
  step : ∀ step, StepAgrees (after run) step

theorem alertStore_agrees (run : List Step) : Agrees run where
  active := fun _ ↦ mem_activeAlerts
  latestCutoff := fun h _ ↦ mem_activeAlerts.trans (live_iff_of_timely h)
  once := nodup_activeAlerts run
  increasing := (counted_after run).increasing
  cap := (counted_after run).cap
  step := stepAgrees (keyed_after run) (counted_after run)

end KubeCenter.Alerting
