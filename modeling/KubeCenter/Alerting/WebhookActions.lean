import KubeCenter.Alerting.Notifier

/-! The actions that `ProcessWebhook` returns, against what it changes in the store. -/

namespace KubeCenter.Alerting

open KubeCenter.Core

/-- What an action tells of an event: the store stamps id and receipt on a copy of its own. -/
structure EventContent where
  fingerprint : String
  status : String
  alertName : String
  ns : String
  severity : String
  startsAt : ℤ
  endsAt : Option ℤ
  resolvedAt : Option ℤ
  deriving DecidableEq

def AlertEvent.content (e : AlertEvent) : EventContent where
  fingerprint := e.fingerprint
  status := e.status
  alertName := e.alertName
  ns := e.ns
  severity := e.severity
  startsAt := e.startsAt
  endsAt := e.endsAt
  resolvedAt := e.resolvedAt

/-- An `AlertAction` with the event that is broadcast of it. -/
structure BroadcastAction extends AlertAction where
  event : EventContent

/-- An alert of a payload with what the store does not read of it, and the clock as it is stored and as its action is
made. -/
structure Delivery where
  alert : WebhookAlert
  annotations : GoMap String String := ∅
  generatorURL : String := ""
  storedAt : Instant
  sentAt : Instant

def Delivery.step (d : Delivery) : Step := .alert d.alert d.storedAt

/-- What one turn of the loop appends to the actions. -/
def Delivery.action (d : Delivery) : Option BroadcastAction :=
  if d.alert.status = "firing" then
    some
      { type := "new", alert := d.alert, annotations := d.annotations, generatorURL := d.generatorURL
        event := (d.alert.event d.storedAt).content }
  else if d.alert.status = "resolved" then
    some
      { type := "resolved", alert := d.alert, annotations := d.annotations, generatorURL := d.generatorURL
        event := { (d.alert.event d.storedAt).content with status := "resolved", resolvedAt := some d.sentAt.nanos } }
  else none

/-- `ProcessWebhook`; the store in memory refuses nothing. -/
def MemoryStore.processPayload (s : MemoryStore) (payload : List Delivery) : MemoryStore × List BroadcastAction :=
  payload.foldl (fun acc d ↦ (acc.1.process d.step, acc.2 ++ d.action.toList)) (s, [])

/-! What the actions ought to say. -/

def MemoryStore.isActive (s : MemoryStore) (fp : String) : Bool := (s.active.lookup fp).isSome

/-- What a turn changes for the fingerprint of its alert. -/
def MemoryStore.change (s : MemoryStore) (d : Delivery) : Option String :=
  match s.isActive d.alert.fingerprint, (s.process d.step).isActive d.alert.fingerprint with
  | false, true => some "new"
  | true, true => if d.alert.status = "firing" then some "updated" else none
  | true, false => some "resolved"
  | false, false => none

/-- Each delivery of a payload with the store as it stands at its turn. -/
def turns : MemoryStore → List Delivery → List (MemoryStore × Delivery)
  | _, [] => []
  | s, d :: payload => (s, d) :: turns (s.process d.step) payload

/-- The list of a client that takes every action at its word. -/
def BroadcastAction.apply (view : List EventContent) (a : BroadcastAction) : List EventContent :=
  if a.type = "new" then a.event :: view
  else if a.type = "updated" then view.map (fun e ↦ if e.fingerprint = a.event.fingerprint then a.event else e)
  else view.filter (fun e ↦ e.fingerprint ≠ a.event.fingerprint)

def MemoryStore.view (s : MemoryStore) : List EventContent := s.activeAlerts.map AlertEvent.content

/-- The actions name the changes, in order, and turn the list before the payload into the one after it. -/
structure DescribesChanges (s : MemoryStore) (payload : List Delivery) : Prop where
  types : (s.processPayload payload).2.map (fun a ↦ (a.type, a.alert)) =
    (turns s payload).filterMap (fun t ↦ (t.1.change t.2).map (·, t.2.alert))
  replays : ∀ view, view.Perm s.view →
    ((s.processPayload payload).2.foldl BroadcastAction.apply view).Perm (s.processPayload payload).1.view

/-- Whether a fingerprint is active behind the first deliveries of a payload: the last of its statuses decides. -/
def activeBehind (s : MemoryStore) (earlier : List Delivery) (fp : String) : Bool :=
  match (earlier.map Delivery.alert).reverse.find? (fun a ↦
      a.fingerprint = fp && (a.status = "firing" || a.status = "resolved")) with
  | some a => a.status = "firing"
  | none => s.isActive fp

/-- No alert of the payload repeats what the store holds already: none fires that is active at its turn, and none
resolves that is not. -/
def Fresh (s : MemoryStore) (payload : List Delivery) : Prop :=
  ∀ earlier d later, payload = earlier ++ d :: later →
    (d.alert.status = "firing" → activeBehind s earlier d.alert.fingerprint = false) ∧
      (d.alert.status = "resolved" → activeBehind s earlier d.alert.fingerprint = true)

variable {s : MemoryStore} {d : Delivery} {payload : List Delivery} {fp : String} {view : List EventContent}

def runOf (payload : List Delivery) : List Step := payload.map Delivery.step

theorem after_append (run : List Step) (payload : List Delivery) :
    after (run ++ runOf payload) = payload.foldl (fun s d ↦ s.process d.step) (after run) := by
  rw [after, List.foldl_append, runOf, List.foldl_map]
  rfl

theorem processPayload_eq : s.processPayload payload =
    (payload.foldl (fun s d ↦ s.process d.step) s, payload.filterMap Delivery.action) := by
  unfold MemoryStore.processPayload
  induction payload using List.reverseRecOn with
  | nil => rfl
  | append_singleton payload d ih =>
    rw [List.foldl_concat, List.foldl_concat, ih, List.filterMap_append]
    cases h : d.action <;> simp [h]

/-! The turns of a payload. -/

theorem turns_append (earlier later : List Delivery) : turns s (earlier ++ later) =
    turns s earlier ++ turns (earlier.foldl (fun s d ↦ s.process d.step) s) later := by
  induction earlier generalizing s with
  | nil => rfl
  | cons d earlier ih => rw [List.cons_append, turns, ih, turns, List.cons_append, List.foldl_cons]

theorem map_turns (s : MemoryStore) (payload : List Delivery) : (turns s payload).map Prod.snd = payload := by
  induction payload generalizing s with
  | nil => rfl
  | cons d payload ih => rw [turns, List.map_cons, ih]

theorem mem_turns {t : MemoryStore × Delivery} : t ∈ turns s payload ↔
    ∃ earlier later, payload = earlier ++ t.2 :: later ∧ t.1 = earlier.foldl (fun s d ↦ s.process d.step) s := by
  induction payload generalizing s with
  | nil => simp [turns]
  | cons d payload ih =>
    rw [turns, List.mem_cons, ih]
    constructor
    · rintro (rfl | ⟨earlier, later, rfl, h⟩)
      · exact ⟨[], payload, rfl, rfl⟩
      · exact ⟨d :: earlier, later, rfl, h⟩
    · rintro ⟨earlier, later, hpayload, h⟩
      cases earlier with
      | nil =>
        obtain ⟨rfl, rfl⟩ := List.cons.inj hpayload
        exact .inl (Prod.ext h rfl)
      | cons d' earlier =>
        obtain ⟨rfl, rfl⟩ := List.cons.inj hpayload
        exact .inr ⟨earlier, later, rfl, h⟩

/-- Where a list of answers leaves out nothing that a second one has, the two agree only answer by answer. -/
theorem filterMap_eq_iff {α β : Type} {f g : α → Option β} {l : List α} (h : ∀ a ∈ l, (g a).isSome → (f a).isSome) :
    l.filterMap f = l.filterMap g ↔ ∀ a ∈ l, f a = g a := by
  have hlength : ∀ l : List α, (∀ a ∈ l, (g a).isSome → (f a).isSome) →
      (l.filterMap g).length ≤ (l.filterMap f).length := by
    intro l hl
    rw [List.length_filterMap_eq_countP, List.length_filterMap_eq_countP]
    exact List.countP_mono_left hl
  refine ⟨fun he ↦ ?_, fun he ↦ List.filterMap_congr he⟩
  induction l with
  | nil => exact fun a ha ↦ absurd ha List.not_mem_nil
  | cons a l ih =>
    have hl := fun b hb ↦ h b (List.mem_cons_of_mem a hb)
    have hle := hlength l hl
    have ha := h a List.mem_cons_self
    rw [List.forall_mem_cons]
    cases hf : f a with
    | none =>
      cases hg : g a with
      | none =>
        rw [List.filterMap_cons_none hf, List.filterMap_cons_none hg] at he
        exact ⟨rfl, ih hl he⟩
      | some b =>
        rw [hf, hg] at ha
        cases ha rfl
    | some b =>
      cases hg : g a with
      | none =>
        rw [List.filterMap_cons_some hf, List.filterMap_cons_none hg] at he
        rw [← he, List.length_cons] at hle
        omega
      | some c =>
        rw [List.filterMap_cons_some hf, List.filterMap_cons_some hg] at he
        obtain ⟨rfl, htail⟩ := List.cons.inj he
        exact ⟨rfl, ih hl htail⟩

/-! Which fingerprints are active. -/

theorem isActive_process (s : MemoryStore) (d : Delivery) (fp : String) : (s.process d.step).isActive fp =
    if d.alert.fingerprint = fp ∧ (d.alert.status = "firing" ∨ d.alert.status = "resolved") then
      decide (d.alert.status = "firing") else s.isActive fp := by
  unfold Delivery.step MemoryStore.process MemoryStore.isActive
  dsimp only
  by_cases hf : d.alert.status = "firing"
  · rw [if_pos hf, lookup_record rfl]
    by_cases hfp : fp = d.alert.fingerprint
    · simp [hf, hfp, WebhookAlert.event]
    · simp [hf, hfp, Ne.symm hfp, WebhookAlert.event]
  · rw [if_neg hf]
    by_cases hr : d.alert.status = "resolved"
    · rw [if_pos hr, lookup_resolve]
      by_cases hfp : fp = d.alert.fingerprint
      · simp [hr, hfp]
      · simp [hfp, Ne.symm hfp]
    · simp [hf, hr]

theorem activeBehind_concat (s : MemoryStore) (earlier : List Delivery) (d : Delivery) (fp : String) :
    activeBehind s (earlier ++ [d]) fp =
      if d.alert.fingerprint = fp ∧ (d.alert.status = "firing" ∨ d.alert.status = "resolved") then
        decide (d.alert.status = "firing") else activeBehind s earlier fp := by
  unfold activeBehind
  rw [List.map_append, List.map_singleton, List.reverse_concat, List.find?_cons]
  by_cases h : d.alert.fingerprint = fp ∧ (d.alert.status = "firing" ∨ d.alert.status = "resolved")
  · have hfound : (decide (d.alert.fingerprint = fp) &&
        (decide (d.alert.status = "firing") || decide (d.alert.status = "resolved"))) = true := by simpa using h
    rw [hfound, if_pos h]
  · have hskipped : (decide (d.alert.fingerprint = fp) &&
        (decide (d.alert.status = "firing") || decide (d.alert.status = "resolved"))) = false := by
      simpa using h
    rw [hskipped, if_neg h]

theorem isActive_behind (s : MemoryStore) (earlier : List Delivery) (fp : String) :
    (earlier.foldl (fun s d ↦ s.process d.step) s).isActive fp = activeBehind s earlier fp := by
  induction earlier using List.reverseRecOn with
  | nil => rfl
  | append_singleton earlier d ih => rw [List.foldl_concat, isActive_process, activeBehind_concat, ih]

theorem fresh_iff : Fresh s payload ↔ ∀ t ∈ turns s payload,
    (t.2.alert.status = "firing" → t.1.isActive t.2.alert.fingerprint = false) ∧
      (t.2.alert.status = "resolved" → t.1.isActive t.2.alert.fingerprint = true) := by
  constructor
  · rintro h ⟨s', d⟩ ht
    obtain ⟨earlier, later, hpayload, rfl⟩ := mem_turns.mp ht
    rw [isActive_behind]
    exact h earlier d later hpayload
  · intro h earlier d later hpayload
    rw [← isActive_behind]
    exact h (_, d) (mem_turns.mpr ⟨earlier, later, hpayload, rfl⟩)

/-! The types of the actions. -/

theorem change_eq (s : MemoryStore) (d : Delivery) : s.change d =
    if d.alert.status = "firing" then some (if s.isActive d.alert.fingerprint then "updated" else "new")
    else if d.alert.status = "resolved" ∧ s.isActive d.alert.fingerprint = true then some "resolved" else none := by
  unfold MemoryStore.change
  rw [isActive_process]
  by_cases hf : d.alert.status = "firing"
  · cases s.isActive d.alert.fingerprint <;> simp [hf]
  · by_cases hr : d.alert.status = "resolved"
    · cases s.isActive d.alert.fingerprint <;> simp [hr]
    · cases s.isActive d.alert.fingerprint <;> simp [hf, hr]

theorem action_type (d : Delivery) : d.action.map (fun a ↦ (a.type, a.alert)) =
    if d.alert.status = "firing" then some ("new", d.alert)
    else if d.alert.status = "resolved" then some ("resolved", d.alert) else none := by
  unfold Delivery.action
  split_ifs <;> rfl

/-- The code names a change exactly where a firing alert was not active and a resolved one was. -/
theorem action_eq_change_iff : d.action.map (fun a ↦ (a.type, a.alert)) = (s.change d).map (·, d.alert) ↔
    (d.alert.status = "firing" → s.isActive d.alert.fingerprint = false) ∧
      (d.alert.status = "resolved" → s.isActive d.alert.fingerprint = true) := by
  rw [action_type, change_eq]
  by_cases hf : d.alert.status = "firing"
  · cases s.isActive d.alert.fingerprint <;> simp [hf]
  · by_cases hr : d.alert.status = "resolved"
    · cases s.isActive d.alert.fingerprint <;> simp [hr]
    · simp [hf, hr]

theorem types_iff : (s.processPayload payload).2.map (fun a ↦ (a.type, a.alert)) =
      (turns s payload).filterMap (fun t ↦ (t.1.change t.2).map (·, t.2.alert)) ↔ Fresh s payload := by
  have hactions : (s.processPayload payload).2.map (fun a ↦ (a.type, a.alert)) =
      (turns s payload).filterMap (fun t ↦ t.2.action.map (fun a ↦ (a.type, a.alert))) := by
    rw [processPayload_eq, List.map_filterMap]
    nth_rewrite 1 [← map_turns s payload]
    rw [List.filterMap_map]
    rfl
  rw [hactions, filterMap_eq_iff, fresh_iff]
  · exact forall₂_congr fun t _ ↦ action_eq_change_iff
  · rintro ⟨s', d⟩ - hsome
    rw [Option.isSome_map, change_eq] at hsome
    rw [action_type]
    split_ifs at hsome ⊢ <;> simp_all

/-! The list of a client. -/

/-- The list has the content of every active event, once for each fingerprint. -/
structure Shows (view : List EventContent) (s : MemoryStore) : Prop where
  once : (view.map EventContent.fingerprint).Nodup
  active : ∀ e, e ∈ view ↔ (s.active.lookup e.fingerprint).map AlertEvent.content = some e

theorem shows_view (h : Keyed s) : Shows s.view s := by
  have hperm := List.mergeSort_perm (s.active.entries.map Sigma.snd) (fun a b ↦ b.startsAt ≤ a.startsAt)
  constructor
  · have hkeys : s.active.entries.map (fun e ↦ e.2.content.fingerprint) = s.active.keys := by
      apply List.map_congr_left
      intro e he
      exact h e.1 e.2 (GoMap.mem_entries_iff.mp he)
    unfold MemoryStore.view MemoryStore.activeAlerts
    rw [((hperm.map _).map _).nodup_iff, List.map_map, List.map_map]
    change (s.active.entries.map (fun e ↦ e.2.content.fingerprint)).Nodup
    rw [hkeys]
    exact AList.keys_nodup _
  · intro e
    unfold MemoryStore.view MemoryStore.activeAlerts
    rw [(hperm.map _).mem_iff, List.map_map, List.mem_map, Option.map_eq_some_iff]
    constructor
    · rintro ⟨⟨fp, event⟩, hentry, rfl⟩
      have hlookup := GoMap.mem_entries_iff.mp hentry
      exact ⟨event, (h fp event hlookup).symm ▸ hlookup, rfl⟩
    · rintro ⟨event, hlookup, rfl⟩
      exact ⟨⟨event.fingerprint, event⟩, GoMap.mem_entries_iff.mpr hlookup, rfl⟩

theorem Shows.perm {view' : List EventContent} (h : Shows view s) (h' : Shows view' s) : view.Perm view' :=
  (List.perm_ext_iff_of_nodup (List.Nodup.of_map _ h.once) (List.Nodup.of_map _ h'.once)).mpr
    fun e ↦ (h.active e).trans (h'.active e).symm

theorem Shows.of_perm {view' : List EventContent} (h : Shows view s) (hperm : view'.Perm view) : Shows view' s where
  once := (hperm.map _).nodup_iff.mpr h.once
  active := fun e ↦ hperm.mem_iff.trans (h.active e)

theorem Shows.firing (h : Shows view s) (hf : d.alert.status = "firing")
    (hinactive : s.isActive d.alert.fingerprint = false) :
    Shows ((d.alert.event d.storedAt).content :: view) (s.process d.step) := by
  have hnone : s.active.lookup d.alert.fingerprint = none := by
    rw [← Option.isNone_iff_eq_none, ← Option.isSome_eq_false_iff]
    exact hinactive
  have hlookup : ∀ fp, (s.process d.step).active.lookup fp =
      if fp = d.alert.fingerprint then some (s.recorded d.alert d.storedAt) else s.active.lookup fp := by
    intro fp
    unfold Delivery.step MemoryStore.process
    dsimp only
    rw [if_pos hf]
    exact lookup_record rfl
  have hcontent : (s.recorded d.alert d.storedAt).content = (d.alert.event d.storedAt).content := rfl
  constructor
  · rw [List.map_cons, List.nodup_cons]
    refine ⟨fun hmem ↦ ?_, h.once⟩
    obtain ⟨e, he, hfp⟩ := List.mem_map.mp hmem
    have hactive := (h.active e).mp he
    have hname : e.fingerprint = d.alert.fingerprint := hfp
    rw [hname, hnone] at hactive
    cases hactive
  · intro e
    rw [List.mem_cons, h.active, hlookup]
    by_cases hfp : e.fingerprint = d.alert.fingerprint
    · rw [if_pos hfp, hfp, hnone, Option.map_some, hcontent, Option.some_inj]
      exact ⟨fun he ↦ (he.resolve_right (fun hn ↦ by cases hn)).symm, fun he ↦ .inl he.symm⟩
    · rw [if_neg hfp]
      exact or_iff_right (fun he ↦ hfp (congrArg EventContent.fingerprint he))

theorem Shows.resolved (h : Shows view s) (hr : d.alert.status = "resolved") :
    Shows (view.filter (fun e ↦ e.fingerprint ≠ d.alert.fingerprint)) (s.process d.step) := by
  have hf : d.alert.status ≠ "firing" := by
    rw [hr]
    decide
  constructor
  · exact h.once.sublist (List.filter_sublist.map _)
  · intro e
    unfold Delivery.step MemoryStore.process
    dsimp only
    rw [if_neg hf, if_pos hr, lookup_resolve, List.mem_filter, h.active, decide_eq_true_eq]
    by_cases hfp : e.fingerprint = d.alert.fingerprint
    · rw [if_pos hfp]
      exact ⟨fun he ↦ absurd hfp he.2, fun he ↦ by cases he⟩
    · rw [if_neg hfp]
      exact and_iff_left hfp

/-- One turn: where the action names the change, the client keeps up with the store. -/
theorem Shows.turn (h : Shows view s) (hd : (d.alert.status = "firing" → s.isActive d.alert.fingerprint = false) ∧
      (d.alert.status = "resolved" → s.isActive d.alert.fingerprint = true)) :
    Shows (d.action.toList.foldl BroadcastAction.apply view) (s.process d.step) := by
  unfold Delivery.action
  by_cases hf : d.alert.status = "firing"
  · rw [if_pos hf]
    exact h.firing hf (hd.1 hf)
  · rw [if_neg hf]
    by_cases hr : d.alert.status = "resolved"
    · rw [if_pos hr]
      exact h.resolved hr
    · rw [if_neg hr]
      have hsame : s.process d.step = s := by
        unfold Delivery.step MemoryStore.process
        dsimp only
        rw [if_neg hf, if_neg hr]
      rw [hsame]
      exact h

theorem Shows.afterPayload (h : Shows view s) (hfresh : Fresh s payload) :
    Shows ((s.processPayload payload).2.foldl BroadcastAction.apply view) (s.processPayload payload).1 := by
  rw [processPayload_eq]
  rw [fresh_iff] at hfresh
  induction payload generalizing s view with
  | nil => exact h
  | cons d payload ih =>
    rw [turns, List.forall_mem_cons] at hfresh
    have hnext := ih (h.turn hfresh.1) hfresh.2
    rw [List.foldl_cons]
    cases ha : d.action with
    | none =>
      rw [ha] at hnext
      rw [List.filterMap_cons_none ha]
      exact hnext
    | some a =>
      rw [ha] at hnext
      rw [List.filterMap_cons_some ha]
      exact hnext

theorem keyed_payload (h : Keyed s) (payload : List Delivery) : Keyed (s.processPayload payload).1 := by
  rw [processPayload_eq]
  induction payload generalizing s with
  | nil => exact h
  | cons d payload ih => exact ih (h.process d.step)

/-- Of every store that a run of webhooks and prunes leaves: the actions of a payload describe its changes exactly if it
repeats nothing. -/
theorem describesChanges_iff (run : List Step) (payload : List Delivery) :
    DescribesChanges (after run) payload ↔ Fresh (after run) payload := by
  constructor
  · exact fun h ↦ types_iff.mp h.types
  · intro hfresh
    refine ⟨types_iff.mpr hfresh, fun view hview ↦ ?_⟩
    have hbefore := (shows_view (keyed_after run)).of_perm hview
    exact (hbefore.afterPayload hfresh).perm (shows_view (keyed_payload (keyed_after run) payload))

theorem epoch_lower : -2 ^ 63 ≤ (0 : ℤ) := by omega

theorem epoch_upper : (0 : ℤ) < 2 ^ 63 := by omega

/-- Alertmanager sends a firing alert again at every interval. -/
def repeated : Delivery where
  alert := { status := "firing", fingerprint := "f" }
  storedAt := ⟨0, epoch_lower, epoch_upper⟩
  sentAt := ⟨0, epoch_lower, epoch_upper⟩

theorem not_describesChanges : ¬ ∀ run payload, DescribesChanges (after run) payload := by
  intro h
  have htypes := (h [repeated.step] [repeated]).types
  have hfirst := congrArg (List.map Prod.fst) htypes
  exact absurd hfirst (by decide)

end KubeCenter.Alerting
