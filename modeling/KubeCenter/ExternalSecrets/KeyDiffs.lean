import Mathlib.Data.List.Chain
import KubeCenter.Core.Runs
import KubeCenter.ExternalSecrets.Timeline

/-! Whether the key diffs of the stored rows tell every change of a Secret's key set. -/

namespace KubeCenter.ExternalSecrets.KeyDiffs

open KubeCenter.Core

def keys (hashes : KeyHashes) : List String := hashes.map Prod.fst

theorem lookup_isNone_iff {hashes : KeyHashes} {key : String} : (hashes.lookup key).isNone = true ↔ key ∉ keys hashes := by
  rw [Option.isNone_iff_eq_none, List.lookup_eq_none_iff, keys, List.mem_map]
  constructor
  · rintro h ⟨entry, hentry, rfl⟩
    simpa using h entry hentry
  · intro h entry hentry
    simpa using fun heq : key = entry.1 ↦ h ⟨entry, hentry, heq.symm⟩

theorem mem_sortKeys {ks : List String} {key : String} : key ∈ sortKeys ks ↔ key ∈ ks :=
  (List.perm_insertionSort (· ≤ ·) ks).mem_iff

theorem mem_added {prev current : KeyHashes} {key : String} (h : key ∈ keys current) (hnew : key ∉ keys prev) :
    key ∈ (diffKeySets prev current).added := by
  obtain ⟨entry, hentry, rfl⟩ := List.mem_map.mp h
  refine mem_sortKeys.mpr (List.mem_map_of_mem (List.mem_filter.mpr ⟨hentry, ?_⟩))
  exact lookup_isNone_iff.mpr hnew

theorem mem_removed {prev current : KeyHashes} {key : String} (h : key ∈ keys prev) (hgone : key ∉ keys current) :
    key ∈ (diffKeySets prev current).removed := by
  obtain ⟨entry, hentry, rfl⟩ := List.mem_map.mp h
  refine mem_sortKeys.mpr (List.mem_map_of_mem (List.mem_filter.mpr ⟨hentry, ?_⟩))
  exact lookup_isNone_iff.mpr hgone

def SameKeys (a b : KeyHashes) : Prop := keys a ⊆ keys b ∧ keys b ⊆ keys a

instance (a b : KeyHashes) : Decidable (SameKeys a b) :=
  decidable_of_iff ((∀ key ∈ keys a, key ∈ keys b) ∧ ∀ key ∈ keys b, key ∈ keys a) Iff.rfl

theorem SameKeys.symm {a b : KeyHashes} (h : SameKeys a b) : SameKeys b a := ⟨h.2, h.1⟩

theorem SameKeys.trans {a b c : KeyHashes} (h : SameKeys a b) (h' : SameKeys b c) : SameKeys a c :=
  ⟨List.Subset.trans h.1 h'.1, List.Subset.trans h'.2 h.2⟩

/-- A tick that lists the ExternalSecret of the UID. -/
structure TickOf (uid : String) extends Tick where
  es : ExternalSecret
  listed : es ∈ ess
  uid_eq : es.uid = uid

/-- The keys that an attempt of the tick reads of the synced Secret. -/
def TickOf.reading {uid : String} (t : TickOf uid) : Option KeyHashes :=
  (outcomeFor t.es.status).bind (Poller.fetchedKeys t.env t.es)

/-- `skipped` is a tick whose fetch fails. -/
inductive Act (uid : String)
  | tick (t : TickOf uid)
  | skipped
  | cleanup (before : ℤ)

/-- `log` is history: the rows of the UID in the order they were stored, each with what its tick read of the Secret. -/
structure State where
  timeline : Timeline := {}
  log : List (HistoryEntry × Option KeyHashes) := []

variable {uid : String} {s s' : State} {a : Act uid}

def step (s : State) : Act uid → Option State
  | .tick t => some
    { timeline := s.timeline.tick t.toTick
      log := s.log ++ (s.timeline.newRows t.toTick uid).map (fun row ↦ (row, t.reading)) }
  | .skipped => some s
  | .cleanup before => some { s with timeline := s.timeline.cleanup before }

/-- The start of a process, on the table as it was left. -/
def init (rows : List HistoryEntry) : State := { timeline := { rows } }

/-- The stored rows whose tick read the Secret, in order. -/
def readings (log : List (HistoryEntry × Option KeyHashes)) : List (HistoryEntry × KeyHashes) :=
  log.filterMap (fun stored ↦ stored.2.map (fun read ↦ (stored.1, read)))

/-- The later row reports every key that came or went since the earlier one. -/
def Reported (earlier later : HistoryEntry × KeyHashes) : Prop :=
  (∀ key ∈ keys later.2, key ∉ keys earlier.2 → key ∈ later.1.diff.added) ∧
    ∀ key ∈ keys earlier.2, key ∉ keys later.2 → key ∈ later.1.diff.removed

instance (earlier later : HistoryEntry × KeyHashes) : Decidable (Reported earlier later) :=
  inferInstanceAs (Decidable (_ ∧ _))

/-- No change between two rows stored one after the other is missing. -/
def Complete (s : State) : Prop := (readings s.log).IsChain Reported

/-- Once a reading is stored, a tick that reads another key set than the one remembered stores its row. -/
def StoresReading (s : State) : Act uid → Prop
  | .tick t => readings s.log ≠ [] → ∀ attempt ∈ s.timeline.poller.attempt t.es,
      ∀ current ∈ Poller.fetchedKeys t.env t.es attempt.outcome, ∀ prev ∈ s.timeline.poller.prevKeys uid,
        SameKeys prev current ∨ t.env.insertOk uid = true ∧ ¬ HasRow s.timeline.rows uid attempt.attemptAt
  | .skipped | .cleanup _ => True

/-- The diff with a baseline of the earlier row's keys reports what the later row has to. -/
theorem reported_diff {earlier : HistoryEntry × KeyHashes} {row : HistoryEntry} {prev current : KeyHashes}
    (h : SameKeys prev earlier.2) (hdiff : row.diff = diffKeySets prev current) : Reported earlier (row, current) := by
  constructor
  · intro key hkey hnew
    rw [hdiff]
    exact mem_added hkey (fun hprev ↦ hnew (h.1 hprev))
  · intro key hkey hgone
    rw [hdiff]
    exact mem_removed (h.2 hkey) hgone

theorem readings_append (log log' : List (HistoryEntry × Option KeyHashes)) :
    readings (log ++ log') = readings log ++ readings log' := List.filterMap_append

theorem entryOf_diff {p : Poller} {env : PersistEnv} {x : Attempt} {prev current : KeyHashes}
    (hcurrent : Poller.fetchedKeys env x.es x.outcome = some current) (hprev : p.prevKeys x.es.uid = some prev) :
    (p.entryOf env x).diff = diffKeySets prev current := by
  rw [Poller.entryOf, Poller.resolveDiffKeys, hcurrent]
  simp only [hprev, Option.map_some, Option.getD_some]

theorem readings_unread (rows : List HistoryEntry) : readings (rows.map (fun row ↦ (row, none))) = [] := by
  induction rows with
  | nil => rfl
  | cons row rows ih => exact ih

instance (s : State) : (a : Act uid) → Decidable (StoresReading s a)
  | .tick t => inferInstanceAs (Decidable (readings s.log ≠ [] → ∀ attempt ∈ s.timeline.poller.attempt t.es,
      ∀ current ∈ Poller.fetchedKeys t.env t.es attempt.outcome, ∀ prev ∈ s.timeline.poller.prevKeys uid,
        SameKeys prev current ∨ t.env.insertOk uid = true ∧ ¬ HasRow s.timeline.rows uid attempt.attemptAt))
  | .skipped | .cleanup _ => .isTrue trivial

/-- The log is complete, and the keys remembered are those of its last row. -/
def Follows (log : List (HistoryEntry × KeyHashes)) (prevKeys : Option KeyHashes) : Prop :=
  log.IsChain Reported ∧ ∀ last ∈ log.getLast?, ∃ prev, prevKeys = some prev ∧ SameKeys prev last.2

structure Inv (uid : String) (s : State) : Prop where
  store : s.timeline.poller.historyStore = true
  follows : Follows (readings s.log) (s.timeline.poller.prevKeys uid)

theorem Follows.store {log : List (HistoryEntry × KeyHashes)} {prevKeys : Option KeyHashes} {row : HistoryEntry}
    {current : KeyHashes} (h : Follows log prevKeys)
    (hdiff : ∀ prev, prevKeys = some prev → row.diff = diffKeySets prev current) :
    Follows (log ++ [(row, current)]) (some current) := by
  constructor
  · refine List.isChain_append.mpr ⟨h.1, List.isChain_singleton _, ?_⟩
    intro last hlast later hlater
    obtain rfl : (row, current) = later := Option.some.inj hlater
    obtain ⟨prev, hprev, hsame⟩ := h.2 last hlast
    exact reported_diff hsame (hdiff prev hprev)
  · intro last hlast
    rw [List.getLast?_concat] at hlast
    obtain rfl : (row, current) = last := Option.some.inj hlast
    exact ⟨current, rfl, fun _ hkey ↦ hkey, fun _ hkey ↦ hkey⟩

/-- A reading whose row is lost does no harm when it has the keys that are remembered. -/
theorem Follows.replace {log : List (HistoryEntry × KeyHashes)} {prevKeys : Option KeyHashes} {current : KeyHashes}
    (h : Follows log prevKeys) (hsame : log ≠ [] → ∀ prev, prevKeys = some prev → SameKeys prev current) :
    Follows log (some current) := by
  refine ⟨h.1, fun last hlast ↦ ⟨current, rfl, ?_⟩⟩
  obtain ⟨prev, hprev, hlastKeys⟩ := h.2 last hlast
  have hne : log ≠ [] := by
    rintro rfl
    cases hlast
  exact (hsame hne prev hprev).symm.trans hlastKeys

/-- The step lemma for a tick that attempts the ExternalSecret. -/
theorem follows_attempt {t : TickOf uid} {x : Attempt} (h : Inv uid s) (hok : StoresReading s (.tick t))
    (hx : s.timeline.poller.attempt t.es = some x) :
    Follows (readings (s.log ++ (s.timeline.newRows t.toTick uid).map (fun row ↦ (row, t.reading))))
      ((s.timeline.tick t.toTick).poller.prevKeys uid) := by
  obtain ⟨tick, es, hlisted, rfl⟩ := t
  obtain ⟨rfl, houtcome, -, -⟩ := Poller.attempt_eq_some_iff.mp hx
  have hkeys : (s.timeline.tick tick).poller.prevKeys x.es.uid =
      (Poller.fetchedKeys tick.env x.es x.outcome).or (s.timeline.poller.prevKeys x.es.uid) := by
    have htrack := (Poller.process_of_mem tick.env tick.distinct hlisted h.store).2.keys
    rwa [hx, Option.map_some, Option.getD_some, Poller.persistOne_prevKeys_self] at htrack
  have hreading : TickOf.reading ⟨tick, x.es, hlisted, rfl⟩ = Poller.fetchedKeys tick.env x.es x.outcome := by
    rw [TickOf.reading, houtcome, Option.bind_some]
  rw [readings_append, hreading, hkeys]
  cases hcurrent : Poller.fetchedKeys tick.env x.es x.outcome with
  | none =>
    rw [readings_unread, List.append_nil, Option.none_or]
    exact h.follows
  | some current =>
    rw [Option.some_or, Timeline.newRows_of_attempt hlisted h.store hx]
    split
    · exact h.follows.store (fun prev hprev ↦ entryOf_diff hcurrent hprev)
    · next hlost =>
      rw [List.map_nil, readings, readings, List.filterMap_nil, List.append_nil]
      refine h.follows.replace (fun hne prev hprev ↦ ?_)
      rcases hok hne x hx current hcurrent prev hprev with hsame | hstored
      · exact hsame
      · exact (hlost hstored).elim

theorem inv_step (h : Inv uid s) (hok : StoresReading s a) (hstep : step s a = some s') : Inv uid s' := by
  cases a with
  | skipped => cases hstep; exact h
  | cleanup before => cases hstep; exact ⟨h.store, h.follows⟩
  | tick t =>
    cases hstep
    refine ⟨Poller.process_historyStore.trans h.store, ?_⟩
    cases hx : s.timeline.poller.attempt t.es with
    | some x => exact follows_attempt h hok hx
    | none =>
      obtain ⟨tick, es, hlisted, rfl⟩ := t
      have htrack := (Poller.process_of_mem tick.env tick.distinct hlisted h.store).2.keys
      rw [hx] at htrack
      change Follows (readings (s.log ++ (s.timeline.newRows tick es.uid).map _)) _
      rw [Timeline.newRows_of_attempt_none hlisted h.store hx, List.map_nil, List.append_nil]
      rw [show (s.timeline.tick tick).poller.prevKeys es.uid = s.timeline.poller.prevKeys es.uid from htrack]
      exact h.follows

/-- In a run whose ticks all store what they read, the stored diffs miss no key that came or went. -/
theorem complete_throughout (rows : List HistoryEntry) {acts : List (Act uid)}
    (h : EachStep step StoresReading (init rows) acts) : Throughout step Complete (init rows) acts := by
  refine (h.throughout (fun _ _ _ hinv hok hstep ↦ inv_step hinv hok hstep) ?_).mono (fun _ (hinv : Inv uid _) ↦ hinv.follows.1)
  exact ⟨rfl, List.isChain_nil, fun _ hlast ↦ by cases hlast⟩

/-- A sync at a second after the epoch, with what the Secret then holds. -/
def syncTick (sec : ℤ) (names : List String) (insertOk : Bool) : TickOf "u1" :=
  let es := { ns := "team", name := "db", uid := "u1", status := .synced, targetSecretName := "db",
              lastSyncTime := some (sec * second) }
  { ess := [es], env := ⟨fun _ ↦ some (names.map (fun name ↦ (name, []))), fun _ ↦ insertOk⟩
    distinct := List.nodup_singleton _, es, listed := List.mem_singleton_self _, uid_eq := rfl }

theorem complete_throughout_added :
    EachStep step StoresReading (init []) [.tick (syncTick 1 ["a"] true), .tick (syncTick 2 ["a", "b"] true)] ∧
    Throughout step Complete (init []) [.tick (syncTick 1 ["a"] true), .tick (syncTick 2 ["a", "b"] true)] :=
  have h : EachStep step StoresReading (init []) [.tick (syncTick 1 ["a"] true), .tick (syncTick 2 ["a", "b"] true)] := by
    decide
  ⟨h, complete_throughout [] h⟩

/-- The row with the new key is lost, and its retry compares the Secret with itself. -/
theorem not_complete_throughout : ¬ ∀ acts : List (Act "u1"), Throughout step Complete (init []) acts := by
  intro h
  have hlast := h [.tick (syncTick 1 ["a"] true), .tick (syncTick 2 ["a", "b"] false), .tick (syncTick 2 ["a", "b"] true)]
  have hany : (exec step (init []) [.tick (syncTick 1 ["a"] true), .tick (syncTick 2 ["a", "b"] false),
      .tick (syncTick 2 ["a", "b"] true)]).any (fun s ↦ decide (¬ (readings s.log).IsChain Reported)) = true := by
    decide
  obtain ⟨s, hs, hbad⟩ := (Option.any_eq_true _ _).mp hany
  exact of_decide_eq_true hbad (hlast.last hs)

end KubeCenter.ExternalSecrets.KeyDiffs
