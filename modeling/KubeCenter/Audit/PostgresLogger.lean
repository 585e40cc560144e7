import KubeCenter.Core.Channel
import KubeCenter.Core.GoString
import KubeCenter.Core.Runs

/-! The audit logger: `Log` never waits, one writer inserts what it queues, and `Close` lets the queue run out. -/

namespace KubeCenter.Audit

open KubeCenter.Core Function

def asyncBufferSize : ℕ := 1000
def maxRetries : ℕ := 3
/-- In milliseconds. -/
def initialBackoff : ℕ := 100

structure Entry where
  timestamp : ℤ
  clusterID : String
  user : String
  sourceIP : String
  connectionIP : String := ""
  action : String
  resourceKind : String := ""
  resourceNamespace : String := ""
  resourceName : String := ""
  result : String
  detail : String := ""
  deriving DecidableEq

/-- An error of `Insert`: whether it wraps `context.DeadlineExceeded`, and its text. -/
structure InsertError where
  deadlineExceeded : Bool := false
  text : String
  deriving DecidableEq

def isRetryable : Option InsertError → Bool
  | none => false
  | some err => err.deadlineExceeded || ["connection", "timeout", "reset", "refused"].any (hasInfix · err.text)

/-- An entry, with the number of the call of `Log` it comes from. -/
abbrev Ticket := ℕ × Entry

/-- What `Insert` writes of an entry: the table has no column for the address of the connection. -/
def Ticket.row (t : Ticket) : Ticket := (t.1, { t.2 with connectionIP := "" })

/-- A call of `Log`: `noted` is between its structured log line and its select. -/
inductive Call
  | idle
  | noted (e : Entry)
  | queued
  | dropped
  | panicked
  deriving DecidableEq

/-- `asyncWriter`, inside `insertWithRetry` for the entry it has taken. -/
inductive Writer
  | idle
  | inserting (t : Ticket) (attempt backoff : ℕ)
  | sleeping (t : Ticket) (attempt backoff : ℕ)
  | stopped
  deriving DecidableEq

def Writer.inHand : Writer → List Ticket
  | .inserting t _ _ | .sleeping t _ _ => [t]
  | .idle | .stopped => []

/-- The logger, with its structured log and its table. `accepted`, `drops` and `settled` are history: what was queued
and what was dropped, in the order of the selects, and what `insertWithRetry` returned for each entry it took. -/
structure State where
  entryCh : Chan Ticket := { cap := asyncBufferSize }
  droppedCount : ℕ := 0
  calls : ℕ → Call := fun _ ↦ .idle
  writer : Writer := .idle
  structured : List Ticket := []
  rows : List Ticket := []
  accepted : List Ticket := []
  drops : List Ticket := []
  settled : List (Ticket × Option InsertError) := []

/-- `insert` is an attempt and what the database made of it: whether the row is in the table, and the error. -/
inductive Act
  | log (i : ℕ) (e : Entry)
  | select (i : ℕ)
  | receive
  | insert (stored : Bool) (err : Option InsertError)
  | wake
  | close

namespace State

variable (s : State)

def log (i : ℕ) (e : Entry) : State :=
  { s with calls := update s.calls i (.noted e), structured := s.structured ++ [(i, e)] }

/-- `select { case l.entryCh <- e: default: }`. -/
def select (i : ℕ) (e : Entry) : State :=
  match s.entryCh.trySend (i, e) with
  | .sent c => { s with entryCh := c, calls := update s.calls i .queued, accepted := s.accepted ++ [(i, e)] }
  | .full =>
    { s with droppedCount := s.droppedCount + 1, calls := update s.calls i .dropped, drops := s.drops ++ [(i, e)] }
  | .panic => { s with calls := update s.calls i .panicked }

/-- `insertWithRetry` returns, and the loop goes on. -/
def settle (t : Ticket) (err : Option InsertError) : State :=
  { s with writer := .idle, settled := s.settled ++ [(t, err)] }

def store (t : Ticket) (stored : Bool) : State :=
  { s with rows := if stored then s.rows ++ [t.row] else s.rows }

/-- What follows an attempt. Behind the last one there is no pause: the loop ends with its error. -/
def attempted (t : Ticket) (attempt backoff : ℕ) (err : Option InsertError) : State :=
  if isRetryable err = false then s.settle t err
  else if attempt < maxRetries - 1 then { s with writer := .sleeping t attempt backoff }
  else s.settle t err

end State

def step (s : State) : Act → Option State
  | .log i e => if s.calls i = .idle then some (s.log i e) else none
  | .select i =>
    match s.calls i with
    | .noted e => some (s.select i e)
    | _ => none
  | .receive =>
    match s.writer, s.entryCh.buf with
    | .idle, t :: buf =>
      some { s with entryCh := { s.entryCh with buf }, writer := .inserting t 0 initialBackoff }
    | .idle, [] => if s.entryCh.closed then some { s with writer := .stopped } else none
    | _, _ => none
  | .insert stored err =>
    match s.writer with
    -- an insert that returns no error has written its row
    | .inserting t attempt backoff =>
      if stored = false ∧ err = none then none else some ((s.store t stored).attempted t attempt backoff err)
    | _ => none
  | .wake =>
    match s.writer with
    | .sleeping t attempt backoff => some { s with writer := .inserting t (attempt + 1) (backoff * 2) }
    | _ => none
  | .close => some (if s.entryCh.closed then s else { s with entryCh := s.entryCh.close })

def init : State := {}

/-- The attempts that may have written a row of the entry in hand. -/
def Writer.tried : Writer → ℕ
  | .inserting _ attempt _ => attempt
  | .sleeping _ attempt _ => attempt + 1
  | .idle | .stopped => 0

def rowsOf (i : ℕ) (rows : List Ticket) : ℕ := rows.countP (·.1 = i)

/-- What becomes of entries. `order`: the writer takes them as they were queued, and none is lost between the queue and
the table. `logged`: one that is in the structured log has been queued or counted as dropped, once its select is over.
`genuine` and `repeated`: a row is of an entry the writer has taken, and each entry has at most one for each attempt. -/
structure Conserved (s : State) : Prop where
  order : s.accepted = s.settled.map Prod.fst ++ s.writer.inHand ++ s.entryCh.buf
  counted : s.droppedCount = s.drops.length
  once : ((s.accepted ++ s.drops).map Prod.fst).Nodup
  logged : ∀ t ∈ s.structured, s.calls t.1 = .noted t.2 ∨ s.calls t.1 = .panicked ∨ t ∈ s.accepted ++ s.drops
  bounded : s.entryCh.buf.length ≤ asyncBufferSize
  persisted : ∀ t, (t, none) ∈ s.settled → t.row ∈ s.rows
  genuine : ∀ r ∈ s.rows, ∃ t ∈ s.settled.map Prod.fst ++ s.writer.inHand, r = t.row
  repeated : ∀ i, rowsOf i s.rows ≤ maxRetries
  panicked : ∀ i, s.calls i = .panicked → s.entryCh.closed = true

structure Inv (s : State) : Prop extends Conserved s where
  cap : s.entryCh.cap = asyncBufferSize
  queued : ∀ t ∈ s.accepted, s.calls t.1 = .queued
  dropped : ∀ t ∈ s.drops, s.calls t.1 = .dropped
  attempts : s.writer.tried < maxRetries
  tried : ∀ t ∈ s.writer.inHand, rowsOf t.1 s.rows ≤ s.writer.tried
  stopped : s.writer = .stopped → s.entryCh.closed = true ∧ s.entryCh.buf = []

theorem inv_init : Inv init where
  order := rfl
  counted := rfl
  once := List.nodup_nil
  logged := List.forall_mem_nil _
  bounded := Nat.zero_le _
  persisted _ h := absurd h List.not_mem_nil
  genuine := List.forall_mem_nil _
  repeated _ := Nat.zero_le _
  panicked _ h := Call.noConfusion h
  cap := rfl
  queued := List.forall_mem_nil _
  dropped := List.forall_mem_nil _
  attempts := by decide
  tried := List.forall_mem_nil _
  stopped h := Writer.noConfusion h

variable {s s' : State}

theorem ne_of_calls {i j : ℕ} {c c' : Call} (hi : s.calls i = c) (hj : s.calls j = c') (h : c' ≠ c) : j ≠ i := by
  rintro rfl
  exact h (hj.symm.trans hi)

/-- A call that is not settled yet has no entry in the queue's history. -/
theorem Inv.fresh (h : Inv s) {i : ℕ} (hq : s.calls i ≠ .queued) (hd : s.calls i ≠ .dropped) :
    i ∉ (s.accepted ++ s.drops).map Prod.fst := by
  intro hi
  obtain ⟨t, ht, rfl⟩ := List.mem_map.mp hi
  rcases List.mem_append.mp ht with ht | ht
  · exact hq (h.queued t ht)
  · exact hd (h.dropped t ht)

theorem Inv.log (h : Inv s) {i : ℕ} {e : Entry} (hi : s.calls i = .idle) : Inv (s.log i e) := by
  have hcalls {j : ℕ} {c : Call} (hj : s.calls j = c) (hc : c ≠ .idle) : (s.log i e).calls j = c := by
    show update s.calls i (.noted e) j = c
    rw [update_of_ne (ne_of_calls hi hj hc), hj]
  refine { h with
    logged := ?_
    panicked := ?_
    queued := fun t ht ↦ hcalls (h.queued t ht) (by decide)
    dropped := fun t ht ↦ hcalls (h.dropped t ht) (by decide) }
  · intro t ht
    rcases List.mem_append.mp ht with ht | ht
    · rcases h.logged t ht with hc | hc | hc
      · exact .inl (hcalls hc Call.noConfusion)
      · exact .inr (.inl (hcalls hc Call.noConfusion))
      · exact .inr (.inr hc)
    · obtain rfl := List.mem_singleton.mp ht
      exact .inl (update_self ..)
  · intro j hj
    change update s.calls i (.noted e) j = .panicked at hj
    by_cases hji : j = i
    · subst hji
      rw [update_self] at hj
      cases hj
    · rw [update_of_ne hji] at hj
      exact h.panicked j hj

theorem Inv.logged_update (h : Inv s) {i : ℕ} {e : Entry} (hi : s.calls i = .noted e) {c : Call} {l : List Ticket}
    (hl : s.accepted ++ s.drops ⊆ l) (hc : c = .panicked ∨ (i, e) ∈ l) {t : Ticket} (ht : t ∈ s.structured) :
    update s.calls i c t.1 = .noted t.2 ∨ update s.calls i c t.1 = .panicked ∨ t ∈ l := by
  by_cases hti : t.1 = i
  · rcases h.logged t ht with hn | hn | hn
    · obtain rfl : e = t.2 := Call.noted.inj (hi.symm.trans (hti ▸ hn))
      obtain rfl := hti
      rw [update_self]
      exact .inr (hc.imp_right id)
    · rw [hti, hi] at hn
      cases hn
    · exact .inr (.inr (hl hn))
  · rw [update_of_ne hti]
    exact (h.logged t ht).imp_right (Or.imp_right (@hl t))

theorem Inv.select (h : Inv s) {i : ℕ} {e : Entry} (hi : s.calls i = .noted e) : Inv (s.select i e) := by
  have hfresh := h.fresh (i := i) (by simp [hi]) (by simp [hi])
  have hcalls (c : Call) {j : ℕ} {c' : Call} (hj : s.calls j = c') (hc : c' ≠ .noted e) :
      update s.calls i c j = c' := by
    rw [update_of_ne (ne_of_calls hi hj hc), hj]
  have hnodup {l : List Ticket} (hl : l.Perm ((i, e) :: (s.accepted ++ s.drops))) : (l.map Prod.fst).Nodup :=
    (hl.map Prod.fst).nodup_iff.mpr (List.nodup_cons.mpr ⟨hfresh, h.once⟩)
  have hpanicked {c : Call} (hc : c ≠ .panicked) {j : ℕ} (hj : update s.calls i c j = .panicked) :
      s.calls j = .panicked := by
    by_cases hji : j = i
    · subst hji
      exact absurd ((update_self ..).symm.trans hj) hc
    · rwa [update_of_ne hji] at hj
  unfold State.select
  rcases s.entryCh.trySend_cases (i, e) with ⟨hclosed, hr⟩ | ⟨hopen, hlen, hr⟩ | ⟨hopen, hr⟩ <;> simp only [hr]
  · exact { h with
      logged := fun t ht ↦ h.logged_update hi (List.Subset.refl _) (.inl rfl) ht
      panicked := fun _ _ ↦ hclosed
      queued := fun t ht ↦ hcalls _ (h.queued t ht) Call.noConfusion
      dropped := fun t ht ↦ hcalls _ (h.dropped t ht) Call.noConfusion }
  · exact { h with
      order := by rw [h.order, List.append_assoc]
      once := hnodup (by rw [List.append_assoc]; exact List.perm_middle)
      logged := fun t ht ↦ h.logged_update hi (by simp) (.inr (by simp)) ht
      bounded := by
        rw [List.length_append]
        exact h.cap ▸ hlen
      panicked := fun j hj ↦ h.panicked j (hpanicked Call.noConfusion hj)
      queued := by
        refine List.forall_mem_append.mpr ⟨fun t ht ↦ hcalls _ (h.queued t ht) Call.noConfusion, ?_⟩
        exact List.forall_mem_singleton.mpr (update_self ..)
      dropped := fun t ht ↦ hcalls _ (h.dropped t ht) Call.noConfusion
      stopped := fun hw ↦ absurd (hopen.symm.trans (h.stopped hw).1) Bool.false_ne_true }
  · exact { h with
      counted := by rw [h.counted, List.length_append, List.length_singleton]
      once := hnodup (by rw [← List.append_assoc]; exact List.perm_append_singleton _ _)
      logged := fun t ht ↦ h.logged_update hi (by simp) (.inr (by simp)) ht
      panicked := fun j hj ↦ h.panicked j (hpanicked Call.noConfusion hj)
      queued := fun t ht ↦ hcalls _ (h.queued t ht) Call.noConfusion
      dropped := by
        refine List.forall_mem_append.mpr ⟨fun t ht ↦ hcalls _ (h.dropped t ht) Call.noConfusion, ?_⟩
        exact List.forall_mem_singleton.mpr (update_self ..) }

/-- The entries the writer has not taken yet have no row. -/
theorem Inv.rowsOf_buf (h : Inv s) {t : Ticket} (ht : t ∈ s.entryCh.buf) : rowsOf t.1 s.rows = 0 := by
  have hnodup : (s.accepted.map Prod.fst).Nodup := (List.map_append ▸ h.once).of_append_left
  rw [h.order, List.map_append] at hnodup
  rw [rowsOf, List.countP_eq_zero]
  intro r hr heq
  obtain ⟨u, hu, rfl⟩ := h.genuine r hr
  refine List.disjoint_of_nodup_append hnodup (List.mem_map_of_mem hu) ?_
  have hid : u.1 = t.1 := of_decide_eq_true heq
  exact hid ▸ List.mem_map_of_mem ht

theorem Inv.receive (h : Inv s) {t : Ticket} {buf : List Ticket} (hw : s.writer = .idle)
    (hb : s.entryCh.buf = t :: buf) :
    Inv { s with entryCh := { s.entryCh with buf }, writer := .inserting t 0 initialBackoff } where
  order := by
    rw [h.order, hw, hb]
    simp [Writer.inHand]
  counted := h.counted
  once := h.once
  logged := h.logged
  bounded := by
    have hlen := h.bounded
    rw [hb] at hlen
    exact Nat.le_of_succ_le hlen
  persisted := h.persisted
  genuine r hr := by
    obtain ⟨u, hu, rfl⟩ := h.genuine r hr
    rw [hw, Writer.inHand, List.append_nil] at hu
    exact ⟨u, List.mem_append_left _ hu, rfl⟩
  repeated := h.repeated
  panicked := h.panicked
  cap := h.cap
  queued := h.queued
  dropped := h.dropped
  attempts := Nat.succ_pos 2
  tried := List.forall_mem_singleton.mpr (h.rowsOf_buf (hb ▸ List.mem_cons_self)).le
  stopped hs := Writer.noConfusion hs

theorem rowsOf_append (i : ℕ) (rows : List Ticket) (t : Ticket) :
    rowsOf i (rows ++ [t.row]) = rowsOf i rows + if t.1 = i then 1 else 0 := by
  rw [rowsOf, rowsOf, List.countP_append]
  simp [Ticket.row]

/-- What an attempt, with its row or without, leaves in the table. -/
theorem Inv.store (h : Inv s) {t : Ticket} {attempt backoff : ℕ} (hw : s.writer = .inserting t attempt backoff)
    (stored : Bool) :
    (∀ r ∈ (s.store t stored).rows, ∃ u ∈ s.settled.map Prod.fst ++ [t], r = u.row) ∧
    (∀ i, rowsOf i (s.store t stored).rows ≤ maxRetries) ∧ rowsOf t.1 (s.store t stored).rows ≤ attempt + 1 := by
  have hgenuine := h.genuine
  have htried := h.tried t
  have hattempt := h.attempts
  rw [hw] at hgenuine htried hattempt
  replace htried : rowsOf t.1 s.rows ≤ attempt := htried List.mem_cons_self
  cases stored with
  | false => exact ⟨hgenuine, h.repeated, Nat.le_succ_of_le htried⟩
  | true =>
    have hself : rowsOf t.1 (s.rows ++ [t.row]) ≤ attempt + 1 := by
      rw [rowsOf_append, if_pos rfl]
      exact Nat.succ_le_succ htried
    refine ⟨List.forall_mem_append.mpr ⟨hgenuine, ?_⟩, fun i ↦ ?_, hself⟩
    · exact List.forall_mem_singleton.mpr ⟨t, List.mem_append_right _ List.mem_cons_self, rfl⟩
    · by_cases hi : t.1 = i
      · exact hi ▸ hself.trans hattempt
      · show rowsOf i (s.rows ++ [t.row]) ≤ maxRetries
        rw [rowsOf_append, if_neg hi]
        exact h.repeated i

theorem Inv.settle (h : Inv s) {t : Ticket} {attempt backoff : ℕ} (hw : s.writer = .inserting t attempt backoff)
    {stored : Bool} {err : Option InsertError} (herr : ¬ (stored = false ∧ err = none)) :
    Inv ((s.store t stored).settle t err) := by
  obtain ⟨hgenuine, hrepeated, -⟩ := h.store hw stored
  have hkept : s.rows ⊆ (s.store t stored).rows := by
    cases stored
    · exact List.Subset.refl _
    · exact List.subset_append_left _ _
  exact {
    order := by
      show s.accepted = (s.settled ++ [(t, err)]).map Prod.fst ++ [] ++ s.entryCh.buf
      rw [h.order, hw]
      simp [Writer.inHand]
    counted := h.counted
    once := h.once
    logged := h.logged
    bounded := h.bounded
    persisted := by
      intro u hu
      rcases List.mem_append.mp hu with hu | hu
      · exact hkept (h.persisted u hu)
      · obtain ⟨rfl, rfl⟩ := Prod.mk.inj (List.mem_singleton.mp hu)
        cases stored with
        | false => exact absurd ⟨rfl, rfl⟩ herr
        | true => exact List.mem_append_right _ List.mem_cons_self
    genuine := by
      intro r hr
      obtain ⟨u, hu, rfl⟩ := hgenuine r hr
      refine ⟨u, ?_, rfl⟩
      show u ∈ (s.settled ++ [(t, err)]).map Prod.fst ++ []
      rwa [List.map_append, List.append_nil]
    repeated := hrepeated
    panicked := h.panicked
    cap := h.cap
    queued := h.queued
    dropped := h.dropped
    attempts := Nat.succ_pos 2
    tried := List.forall_mem_nil _
    stopped := fun hs ↦ Writer.noConfusion hs }

theorem Inv.sleep (h : Inv s) {t : Ticket} {attempt backoff : ℕ} (hw : s.writer = .inserting t attempt backoff)
    (stored : Bool) (hlast : attempt < maxRetries - 1) :
    Inv { s.store t stored with writer := .sleeping t attempt backoff } := by
  obtain ⟨hgenuine, hrepeated, htried⟩ := h.store hw stored
  have horder := h.order
  rw [hw] at horder
  exact { h with
    order := horder
    persisted := by
      intro u hu
      cases stored
      · exact h.persisted u hu
      · exact List.mem_append_left _ (h.persisted u hu)
    genuine := hgenuine
    repeated := hrepeated
    attempts := Nat.add_lt_of_lt_sub hlast
    tried := List.forall_mem_singleton.mpr htried
    stopped := fun hs ↦ Writer.noConfusion hs }

/-- Where a step leads, with what it finds there. -/
inductive Steps (s : State) : Act → State → Prop
  | log {i : ℕ} {e : Entry} (hi : s.calls i = .idle) : Steps s (.log i e) (s.log i e)
  | select {i : ℕ} {e : Entry} (hi : s.calls i = .noted e) : Steps s (.select i) (s.select i e)
  | receive {t : Ticket} {buf : List Ticket} (hw : s.writer = .idle) (hb : s.entryCh.buf = t :: buf) :
    Steps s .receive { s with entryCh := { s.entryCh with buf }, writer := .inserting t 0 initialBackoff }
  | stop (hw : s.writer = .idle) (hb : s.entryCh.buf = []) (hclosed : s.entryCh.closed = true) :
    Steps s .receive { s with writer := .stopped }
  | insert {t : Ticket} {attempt backoff : ℕ} {stored : Bool} {err : Option InsertError}
    (hw : s.writer = .inserting t attempt backoff) (herr : ¬ (stored = false ∧ err = none)) :
    Steps s (.insert stored err) ((s.store t stored).attempted t attempt backoff err)
  | wake {t : Ticket} {attempt backoff : ℕ} (hw : s.writer = .sleeping t attempt backoff) :
    Steps s .wake { s with writer := .inserting t (attempt + 1) (backoff * 2) }
  | close : Steps s .close (if s.entryCh.closed then s else { s with entryCh := s.entryCh.close })

theorem step_cases {a : Act} (hs : step s a = some s') : Steps s a s' := by
  cases a with
  | log i e =>
    obtain ⟨hi, hs⟩ := Option.ite_none_right_eq_some.mp hs
    cases hs
    exact .log hi
  | select i =>
    simp only [step] at hs
    split at hs
    · next hi =>
      cases hs
      exact .select hi
    · cases hs
  | receive =>
    simp only [step] at hs
    split at hs
    · next hw hb =>
      cases hs
      exact .receive hw hb
    · next hw hb =>
      obtain ⟨hclosed, hs⟩ := Option.ite_none_right_eq_some.mp hs
      cases hs
      exact .stop hw hb hclosed
    · cases hs
  | insert stored err =>
    simp only [step] at hs
    split at hs
    · next hw =>
      obtain ⟨herr, hs⟩ := Option.ite_none_left_eq_some.mp hs
      cases hs
      exact .insert hw herr
    · cases hs
  | wake =>
    simp only [step] at hs
    split at hs
    · next hw =>
      cases hs
      exact .wake hw
    · cases hs
  | close =>
    cases hs
    exact .close

theorem Inv.step {a : Act} (h : Inv s) (hs : step s a = some s') : Inv s' := by
  cases step_cases hs with
  | log hi => exact h.log hi
  | select hi => exact h.select hi
  | receive hw hb => exact h.receive hw hb
  | stop hw hb hclosed =>
    exact { h with
      order := by
        have horder := h.order
        rwa [hw] at horder
      genuine := by
        have hgenuine := h.genuine
        rwa [hw] at hgenuine
      attempts := Nat.succ_pos 2
      tried := List.forall_mem_nil _
      stopped := fun _ ↦ ⟨hclosed, hb⟩ }
  | @insert _ _ _ stored _ hw herr =>
    unfold State.attempted
    split
    · exact h.settle hw herr
    · split
      · next hlast => exact h.sleep hw stored hlast
      · exact h.settle hw herr
  | wake hw =>
    have hattempts := h.attempts
    have htried := h.tried
    have hgenuine := h.genuine
    rw [hw] at hattempts htried hgenuine
    exact { h with
      order := by
        have horder := h.order
        rwa [hw] at horder
      genuine := hgenuine
      attempts := hattempts
      tried := htried
      stopped := fun hs ↦ Writer.noConfusion hs }
  | close =>
    split
    · exact h
    · exact { h with
        panicked := fun _ _ ↦ rfl
        stopped := fun hw ↦ ⟨rfl, (h.stopped hw).2⟩ }

theorem inv_throughout (as : List Act) : Throughout step Inv init as :=
  throughout_of_step (fun _ _ _ h hs ↦ h.step hs) inv_init as

/-- Whatever the callers do, in whatever order they, the writer and the database take their turns. -/
theorem conserved_throughout (as : List Act) : Throughout step Conserved init as :=
  (inv_throughout as).mono (fun _ h ↦ h.toConserved)

/-- An attempt that ends with an error has written no row: no answer of the database was lost. -/
def Act.Reported : Act → Prop
  | .insert stored err => stored = true → err = none
  | _ => True

def State.persisted (s : State) : List Ticket := (s.settled.filter (·.2.isNone)).map Prod.fst

/-- The table has one row for each entry that was inserted, in the order of the entries, and no other. -/
def Exact (s : State) : Prop := s.rows = s.persisted.map Ticket.row

theorem rows_attempted (t : Ticket) (attempt backoff : ℕ) (err : Option InsertError) :
    (s.attempted t attempt backoff err).rows = s.rows := by
  unfold State.attempted
  split
  · rfl
  · split <;> rfl

theorem persisted_attempted (t : Ticket) (attempt backoff : ℕ) (err : Option InsertError) :
    (s.attempted t attempt backoff err).persisted = s.persisted ++ if err.isNone then [t] else [] := by
  have hsettle : (s.settle t err).persisted = s.persisted ++ if err.isNone then [t] else [] := by
    cases err <;> simp [State.persisted, State.settle]
  unfold State.attempted
  split
  · exact hsettle
  · next hretry =>
    split
    · cases err with
      | none => exact absurd rfl hretry
      | some err => exact (List.append_nil _).symm
    · exact hsettle

/-- One step breaks the table's exactness just when it is an insert whose answer got lost. -/
theorem Exact.step_iff {a : Act} (h : Exact s) (hs : step s a = some s') : Exact s' ↔ a.Reported := by
  cases step_cases hs with
  | @insert t attempt backoff stored err _ herr =>
    have hrows : (s.store t stored).rows = s.rows ++ if stored then [t.row] else [] := by
      cases stored
      · exact (List.append_nil _).symm
      · rfl
    have hpersisted : (s.store t stored).persisted = s.persisted := rfl
    rw [Exact, rows_attempted, hrows, persisted_attempted, hpersisted, List.map_append, ← show s.rows = _ from h,
      List.append_cancel_left_eq]
    cases stored <;> cases err <;> simp_all [Act.Reported]
  | select =>
    refine iff_of_true ?_ trivial
    unfold State.select
    split <;> exact h
  | close =>
    refine iff_of_true ?_ trivial
    split <;> exact h
  | log | receive | stop | wake => exact iff_of_true h trivial

theorem exact_throughout_iff (as : List Act) :
    Throughout step Exact init as ↔ EachStep step (fun _ a ↦ a.Reported) init as :=
  throughout_iff_eachStep (fun _ h ↦ h) (fun _ _ _ h ha hs ↦ (Exact.step_iff h hs).mpr ha)
    (fun _ _ _ h ha hs ht ↦ ha ((Exact.step_iff h hs).mp ht)) (show Exact init from rfl) as

/-- The steps that the goroutine of `asyncWriter` takes. -/
def Act.ofWriter : Act → Bool
  | .receive | .insert _ _ | .wake => true
  | .log _ _ | .select _ | .close => false

def Writer.work : Writer → ℕ
  | .idle => 1
  | .inserting _ attempt _ => 2 * (maxRetries - attempt)
  | .sleeping _ attempt _ => 2 * (maxRetries - attempt) - 1
  | .stopped => 0

/-- The steps that are left to the writer of a closed logger: six for each entry, and the last. -/
def State.work (s : State) : ℕ := s.writer.work + 2 * maxRetries * s.entryCh.buf.length

theorem work_attempted {t : Ticket} {attempt backoff : ℕ} {err : Option InsertError}
    (hlt : attempt < maxRetries) :
    (s.attempted t attempt backoff err).work + 1 ≤
      2 * (maxRetries - attempt) + 2 * maxRetries * s.entryCh.buf.length := by
  have hsettle : (s.settle t err).work = 1 + 2 * maxRetries * s.entryCh.buf.length := rfl
  unfold State.attempted
  split
  · omega
  · split
    · show 2 * (maxRetries - attempt) - 1 + 2 * maxRetries * s.entryCh.buf.length + 1 ≤ _
      omega
    · omega

/-- In a closed logger nothing more is queued, and the writer comes nearer to its end with each step. -/
theorem Inv.work_step {a : Act} (h : Inv s) (hclosed : s.entryCh.closed = true) (hs : Audit.step s a = some s') :
    s'.entryCh.closed = true ∧ s'.accepted = s.accepted ∧ s'.work + (if a.ofWriter then 1 else 0) ≤ s.work := by
  cases step_cases hs with
  | log => exact ⟨hclosed, rfl, le_rfl⟩
  | select =>
    rw [State.select, Chan.trySend, if_pos hclosed]
    exact ⟨hclosed, rfl, le_rfl⟩
  | receive hw hb =>
    refine ⟨hclosed, rfl, ?_⟩
    simp only [State.work, hw, hb, Writer.work, Act.ofWriter, maxRetries, List.length_cons]
    simp only [if_true]
    omega
  | stop hw hb =>
    refine ⟨hclosed, rfl, ?_⟩
    simp [State.work, hw, hb, Writer.work, Act.ofWriter]
  | @insert t attempt backoff stored err hw =>
    have hlt := h.attempts
    rw [hw] at hlt
    have hwork := @work_attempted (s.store t stored) t _ backoff err hlt
    refine ⟨?_, ?_, ?_⟩
    · unfold State.attempted
      split
      · exact hclosed
      · split <;> exact hclosed
    · unfold State.attempted
      split
      · rfl
      · split <;> rfl
    · have hbefore : s.work = 2 * (maxRetries - attempt) + 2 * maxRetries * s.entryCh.buf.length := by
        rw [State.work, hw]
        rfl
      rw [hbefore]
      exact hwork
  | wake hw =>
    have hlt := h.attempts
    rw [hw] at hlt
    refine ⟨hclosed, rfl, ?_⟩
    simp only [State.work, hw, Writer.work, Act.ofWriter, if_true]
    simp only [Writer.tried, maxRetries] at hlt ⊢
    omega
  | close =>
    rw [if_pos hclosed]
    exact ⟨hclosed, rfl, le_rfl⟩

theorem Inv.writer_enabled (h : Inv s) (hclosed : s.entryCh.closed = true) :
    (∃ a : Act, a.ofWriter = true ∧ (Audit.step s a).isSome) ∨
      s.writer = .stopped ∧ s.accepted = s.settled.map Prod.fst := by
  cases hw : s.writer with
  | idle =>
    refine .inl ⟨.receive, rfl, ?_⟩
    cases hb : s.entryCh.buf <;> simp [Audit.step, hw, hb, hclosed]
  | inserting t attempt backoff => exact .inl ⟨.insert true none, rfl, by simp [Audit.step, hw]⟩
  | sleeping t attempt backoff => exact .inl ⟨.wake, rfl, by simp [Audit.step, hw]⟩
  | stopped =>
    refine .inr ⟨rfl, ?_⟩
    rw [h.order, hw, (h.stopped hw).2]
    simp [Writer.inHand]

theorem work_exec {bs : List Act} {t : State} (h : Inv s) (hclosed : s.entryCh.closed = true)
    (ht : exec step s bs = some t) :
    t.entryCh.closed = true ∧ t.accepted = s.accepted ∧ t.work + bs.countP Act.ofWriter ≤ s.work := by
  induction bs generalizing s with
  | nil =>
    cases ht
    exact ⟨hclosed, rfl, le_rfl⟩
  | cons a bs ih =>
    obtain ⟨u, hu, ht⟩ := Option.bind_eq_some_iff.mp ht
    obtain ⟨hclosed', haccepted, hwork⟩ := h.work_step hclosed hu
    obtain ⟨hclosed, haccepted', hwork'⟩ := ih (h.step hu) hclosed' ht
    refine ⟨hclosed, haccepted'.trans haccepted, ?_⟩
    rw [List.countP_cons]
    omega

/-- `Close` returns, whatever the database answers: the writer has only so many steps left, and it does not get stuck
before each entry that was queued is in the table or reported as lost. -/
theorem close_drains {as bs : List Act} {s t : State} (hs : exec step init as = some s)
    (hclosed : s.entryCh.closed = true) (ht : exec step s bs = some t) :
    bs.countP Act.ofWriter ≤ s.work ∧
    ((∃ a : Act, a.ofWriter = true ∧ (step t a).isSome) ∨
      t.writer = .stopped ∧ s.accepted = t.settled.map Prod.fst) := by
  have hinv := (inv_throughout as).last hs
  obtain ⟨hclosed', haccepted, hwork⟩ := work_exec hinv hclosed ht
  have hinv' : Inv t := (throughout_of_step (fun _ _ _ h hs ↦ h.step hs) hinv bs).last ht
  refine ⟨by omega, ?_⟩
  rw [← haccepted]
  exact hinv'.writer_enabled hclosed'

def login : Entry where
  timestamp := 0
  clusterID := "local"
  user := "ada"
  sourceIP := "10.0.0.1"
  action := "login"
  result := "success"

theorem close_drains_login : ∃ s t, exec step init [.log 0 login, .select 0, .close] = some s ∧
    exec step s [.receive, .insert true none, .receive] = some t ∧
    [Act.receive, .insert true none, .receive].countP Act.ofWriter ≤ s.work ∧
    ((∃ a : Act, a.ofWriter = true ∧ (step t a).isSome) ∨
      t.writer = .stopped ∧ s.accepted = t.settled.map Prod.fst) :=
  ⟨_, _, rfl, rfl, @close_drains [.log 0 login, .select 0, .close] _ _ _ rfl rfl rfl⟩

end KubeCenter.Audit
