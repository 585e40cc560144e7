import Mathlib.Logic.Function.Basic
import KubeCenter.Core.Runs
import KubeCenter.Notifications.Store

namespace KubeCenter.Notifications.EmitProtocol

open KubeCenter.Core Function

/-- Where one `Emit` stands between its statements. A call that is past the check carries how
many rows had been inserted when the check was answered, if it was. -/
inductive Call
  | idle
  | called (n : Notification)
  | passed (n : Notification) (checked : Option ℕ)
  | suppressed
  | failed
  | stored

/-- The table, the service's dispatch queue and the broadcasts, with every `Emit` in flight.
`inserted` is history: each row ever inserted, with its call. -/
structure State where
  now : ℤ
  rows : List Notification := []
  queue : List Notification := []
  broadcasts : List (ℕ × Source × Severity × String) := []
  calls : ℕ → Call := fun _ ↦ .idle
  inserted : List (ℕ × Notification) := []

def init (now : ℤ) : State := { now }

/-- The atomic steps. `answered` and `ok` say whether the statement succeeds. -/
inductive Act
  | emit (i : ℕ) (n : Notification)
  | check (i : ℕ) (answered : Bool)
  | insert (i : ℕ) (ok : Bool)
  | dispatch
  | prune
  | advance (d : ℕ)

def queueSize : ℕ := 1000

namespace State

variable (s : State)

def setCall (i : ℕ) (c : Call) : State := { s with calls := update s.calls i c }

def persistAndBroadcast (i : ℕ) (n : Notification) : State :=
  let row := n.row s.inserted.length s.now
  { s with
    rows := s.rows ++ [row]
    inserted := s.inserted ++ [(i, row)]
    broadcasts := s.broadcasts ++ [(row.id, n.source, n.severity, n.title)] }

/-- Audit notifications are never dispatched; a full queue drops the dispatch. -/
def enqueue (n : Notification) : State :=
  if n.source = .audit ∨ queueSize ≤ s.queue.length then s else { s with queue := s.queue ++ [n] }

end State

/-- The steps of call `i`, which stands at the first argument. -/
def callStep (s : State) (i : ℕ) : Call → Act → Option State
  | .idle, .emit _ n =>
    -- audit → Emit → audit would loop, so this source skips the check
    if n.source = .audit then some (s.setCall i (.passed n none)) else some (s.setCall i (.called n))
  | .called n, .check _ true =>
    if dedupExists s.rows n dedupWindow s.now then some (s.setCall i .suppressed)
    else some (s.setCall i (.passed n (some s.inserted.length)))
  | .called n, .check _ false => some (s.setCall i (.passed n none))
  | .passed n _, .insert _ true => some (((s.persistAndBroadcast i n).enqueue n).setCall i .stored)
  | .passed _ _, .insert _ false => some (s.setCall i .failed)
  | _, _ => none

def step (s : State) (a : Act) : Option State :=
  match a with
  | .emit i _ | .check i _ | .insert i _ => callStep s i (s.calls i) a
  | .dispatch => some { s with queue := s.queue.tail }
  | .prune => some { s with rows := pruneOlderThan s.rows retention s.now }
  | .advance d => some { s with now := s.now + d }

/-- No two rows of one key were inserted within one window. -/
def Spaced (rows : List (ℕ × Notification)) : Prop :=
  rows.Pairwise (fun x y ↦ x.2.key = y.2.key → x.2.createdAt + dedupWindow ≤ y.2.createdAt)

instance (rows : List (ℕ × Notification)) : Decidable (Spaced rows) := inferInstanceAs (Decidable (List.Pairwise _ _))

/-- The call has returned without being suppressed. -/
def Call.Unsuppressed : Call → Prop
  | .failed | .stored => True
  | _ => False

def rowsOf (s : State) (i : ℕ) : ℕ := s.inserted.countP (fun x ↦ decide (x.1 = i))

structure Deduplicated (s : State) : Prop where
  spaced : Spaced s.inserted
  storedOnce : ∀ i, (s.calls i).Unsuppressed → rowsOf s i = 1

/-- An insert succeeds, and of the rows of its key inserted since its check, or of all of them
if no check was answered, none is within the window any more. -/
def InsertsAlone (s : State) : Act → Prop
  | .insert i ok => ok = true ∧ ∀ n checked, s.calls i = .passed n checked →
      ∀ x ∈ s.inserted.drop (checked.getD 0), x.2.key = n.key → x.2.createdAt + dedupWindow ≤ s.now
  | _ => True

/-- What holds of call `i` where it stands. -/
def CallOk (s : State) (i : ℕ) : Call → Prop
  | .passed n (some k) => rowsOf s i = 0 ∧ k ≤ s.inserted.length ∧
      ∀ x ∈ s.inserted.take k, x.2.key = n.key → x.2.createdAt + dedupWindow ≤ s.now
  | .stored => rowsOf s i = 1
  | .failed => False
  | _ => rowsOf s i = 0

structure Inv (s : State) : Prop where
  spaced : Spaced s.inserted
  past : ∀ x ∈ s.inserted, x.2.createdAt ≤ s.now
  kept : ∀ x ∈ s.inserted, s.now - retention ≤ x.2.createdAt → x.2 ∈ s.rows
  calls : ∀ i, CallOk s i (s.calls i)

variable {s t : State} {i : ℕ} {n : Notification} {c : Call}

theorem inv_init (now : ℤ) : Inv (init now) where
  spaced := .nil
  past _ h := by cases h
  kept _ h := by cases h
  calls _ := rfl

theorem Inv.deduplicated (h : Inv s) : Deduplicated s := by
  refine ⟨h.spaced, fun i hi ↦ ?_⟩
  have hok := h.calls i
  cases hc : s.calls i <;> rw [hc] at hi hok
  · cases hi
  · cases hi
  · cases hi
  · cases hi
  · cases hok
  · exact hok

@[simp] theorem setCall_self : (s.setCall i c).calls i = c := update_self ..

theorem setCall_ne {j : ℕ} (h : j ≠ i) : (s.setCall i c).calls j = s.calls j := update_of_ne h ..

theorem CallOk.mono {c : Call} (h : CallOk s i c) (hins : t.inserted = s.inserted) (hnow : s.now ≤ t.now) :
    CallOk t i c := by
  have hrows : rowsOf t i = rowsOf s i := by rw [rowsOf, hins, rowsOf]
  match c with
  | .passed n (some k) =>
    refine ⟨hrows.trans h.1, hins ▸ h.2.1, fun x hx hkey ↦ (h.2.2 x ?_ hkey).trans hnow⟩
    rwa [hins] at hx
  | .passed n none | .idle | .called n | .suppressed | .stored => exact hrows.trans h
  | .failed => exact h

theorem Inv.setCall (h : Inv s) (hc : CallOk s i c) : Inv (s.setCall i c) where
  spaced := h.spaced
  past := h.past
  kept := h.kept
  calls j := by
    by_cases hj : j = i
    · subst hj
      rw [setCall_self]
      exact hc.mono rfl le_rfl
    · rw [setCall_ne hj]
      exact (h.calls j).mono rfl le_rfl

/-- A check that finds no row of the key leaves none within the window. -/
theorem Inv.checked (h : Inv s) (hn : dedupExists s.rows n dedupWindow s.now = false) :
    ∀ x ∈ s.inserted, x.2.key = n.key → x.2.createdAt + dedupWindow ≤ s.now := by
  intro x hx hkey
  by_contra hlt
  have hretained : s.now - retention ≤ x.2.createdAt := by
    have : dedupWindow ≤ retention := by decide
    omega
  have hexists : dedupExists s.rows n dedupWindow s.now = true :=
    List.any_eq_true.mpr ⟨x.2, h.kept x hx hretained, decide_eq_true ⟨hkey, by omega⟩⟩
  rw [hn] at hexists
  cases hexists

theorem enqueue_eq (s : State) (n : Notification) : ∃ queue, s.enqueue n = { s with queue } := by
  unfold State.enqueue
  split
  · exact ⟨s.queue, rfl⟩
  · exact ⟨_, rfl⟩

theorem rowsOf_persist_self : rowsOf (s.persistAndBroadcast i n) i = rowsOf s i + 1 := by
  simp [rowsOf, State.persistAndBroadcast]

theorem rowsOf_persist_ne {j : ℕ} (h : j ≠ i) : rowsOf (s.persistAndBroadcast i n) j = rowsOf s j := by
  simp [rowsOf, State.persistAndBroadcast, h.symm]

theorem Inv.alone (h : Inv s) {checked : Option ℕ} (hi : s.calls i = .passed n checked)
    (hsince : ∀ x ∈ s.inserted.drop (checked.getD 0), x.2.key = n.key → x.2.createdAt + dedupWindow ≤ s.now) :
    ∀ x ∈ s.inserted, x.2.key = n.key → x.2.createdAt + dedupWindow ≤ s.now := by
  have hok := h.calls i
  rw [hi] at hok
  cases checked with
  | none => simpa using hsince
  | some k =>
    intro x hx hkey
    rw [← List.take_append_drop k s.inserted] at hx
    rcases List.mem_append.mp hx with hx | hx
    · exact hok.2.2 x hx hkey
    · exact hsince x hx hkey

theorem spaced_persist : Spaced (s.persistAndBroadcast i n).inserted ↔
    Spaced s.inserted ∧ ∀ x ∈ s.inserted, x.2.key = n.key → x.2.createdAt + dedupWindow ≤ s.now := by
  simp only [Spaced, State.persistAndBroadcast, List.pairwise_append, List.pairwise_singleton, true_and,
    List.mem_singleton, forall_eq]
  rfl

theorem Inv.insert (h : Inv s) {checked : Option ℕ} (hi : s.calls i = .passed n checked)
    (hsince : ∀ x ∈ s.inserted.drop (checked.getD 0), x.2.key = n.key → x.2.createdAt + dedupWindow ≤ s.now) :
    Inv (((s.persistAndBroadcast i n).enqueue n).setCall i .stored) := by
  obtain ⟨queue, hq⟩ := enqueue_eq (s.persistAndBroadcast i n) n
  have hi0 : rowsOf s i = 0 := by
    have hok := h.calls i
    rw [hi] at hok
    cases checked with
    | none => exact hok
    | some k => exact hok.1
  rw [hq]
  refine ⟨spaced_persist.mpr ⟨h.spaced, h.alone hi hsince⟩, fun x hx ↦ ?_, fun x hx hage ↦ ?_, fun j ↦ ?_⟩
  · rcases List.mem_append.mp hx with hx | hx
    · exact h.past x hx
    · cases List.mem_singleton.mp hx
      exact le_rfl
  · rcases List.mem_append.mp hx with hx | hx
    · exact List.mem_append_left _ (h.kept x hx hage)
    · cases List.mem_singleton.mp hx
      exact List.mem_append_right _ List.mem_cons_self
  · by_cases hj : j = i
    · subst hj
      rw [setCall_self]
      exact rowsOf_persist_self.trans (congrArg (· + 1) hi0)
    · rw [setCall_ne hj]
      have hrows : rowsOf (s.persistAndBroadcast i n) j = rowsOf s j := rowsOf_persist_ne hj
      have hok := h.calls j
      change CallOk { s.persistAndBroadcast i n with queue } j (s.calls j)
      match s.calls j, hok with
      | .passed m (some k), hok =>
        refine ⟨hrows.trans hok.1, ?_, fun x hx hkey ↦ hok.2.2 x ?_ hkey⟩
        · exact hok.2.1.trans (by simp [State.persistAndBroadcast])
        · rwa [State.persistAndBroadcast, List.take_append_of_le_length hok.2.1] at hx
      | .passed _ none, hok | .idle, hok | .called _, hok | .suppressed, hok | .stored, hok =>
        exact hrows.trans hok
      | .failed, hok => exact hok

theorem emit_cases (hs : step s (.emit i n) = some t) : s.calls i = .idle ∧
    (t = s.setCall i (.passed n none) ∨ t = s.setCall i (.called n)) := by
  simp only [step] at hs
  cases hc : s.calls i <;> rw [hc] at hs <;> simp only [callStep, reduceCtorEq] at hs
  split at hs <;> cases hs
  · exact ⟨rfl, .inl rfl⟩
  · exact ⟨rfl, .inr rfl⟩

theorem check_cases {answered : Bool} (hs : step s (.check i answered) = some t) :
    ∃ n, s.calls i = .called n ∧ (t = s.setCall i .suppressed ∨ t = s.setCall i (.passed n none) ∨
      dedupExists s.rows n dedupWindow s.now = false ∧ t = s.setCall i (.passed n (some s.inserted.length))) := by
  simp only [step] at hs
  cases hc : s.calls i <;> cases answered <;> rw [hc] at hs <;> simp only [callStep, reduceCtorEq] at hs
  · cases hs
    exact ⟨_, rfl, .inr (.inl rfl)⟩
  · split at hs <;> cases hs
    · exact ⟨_, rfl, .inl rfl⟩
    · next hno => exact ⟨_, rfl, .inr (.inr ⟨by simpa using hno, rfl⟩)⟩

theorem insert_cases {ok : Bool} (hs : step s (.insert i ok) = some t) :
    ∃ n checked, s.calls i = .passed n checked ∧
      (ok = true ∧ t = ((s.persistAndBroadcast i n).enqueue n).setCall i .stored ∨
        ok = false ∧ t = s.setCall i .failed) := by
  simp only [step] at hs
  cases hc : s.calls i <;> cases ok <;> rw [hc] at hs <;> simp only [callStep, reduceCtorEq] at hs
  · cases hs
    exact ⟨_, _, rfl, .inr ⟨rfl, rfl⟩⟩
  · cases hs
    exact ⟨_, _, rfl, .inl ⟨rfl, rfl⟩⟩

theorem step_emit (hi : s.calls i = .idle) (hn : n.source ≠ .audit) :
    step s (.emit i n) = some (s.setCall i (.called n)) := by
  simp only [step, hi, callStep, if_neg hn]

theorem step_check_suppressed (hi : s.calls i = .called n) (h : dedupExists s.rows n dedupWindow s.now = true) :
    step s (.check i true) = some (s.setCall i .suppressed) := by
  simp only [step, hi, callStep, if_pos h]

theorem step_check_passed {answered : Bool} (hi : s.calls i = .called n)
    (h : ¬ (answered = true ∧ dedupExists s.rows n dedupWindow s.now = true)) :
    ∃ checked, step s (.check i answered) = some (s.setCall i (.passed n checked)) := by
  cases answered with
  | false => exact ⟨none, by simp only [step, hi, callStep]⟩
  | true =>
    have hno : ¬ dedupExists s.rows n dedupWindow s.now = true := fun hexists ↦ h ⟨rfl, hexists⟩
    exact ⟨some s.inserted.length, by simp only [step, hi, callStep, if_neg hno]⟩

theorem step_insert {checked : Option ℕ} (hi : s.calls i = .passed n checked) (ok : Bool) :
    ∃ t, step s (.insert i ok) = some t ∧
      t.rows = if ok then s.rows ++ [n.row s.inserted.length s.now] else s.rows := by
  cases ok with
  | false => exact ⟨s.setCall i .failed, by simp only [step, hi, callStep], rfl⟩
  | true =>
    obtain ⟨queue, hq⟩ := enqueue_eq (s.persistAndBroadcast i n) n
    refine ⟨((s.persistAndBroadcast i n).enqueue n).setCall i .stored, by simp only [step, hi, callStep], ?_⟩
    rw [hq]
    rfl

/-- `emitAlone` is what an uninterrupted call makes of the table. -/
theorem emitAlone_runs (hi : s.calls i = .idle) (hn : n.source ≠ .audit) (answered ok : Bool) :
    ∃ acts t, acts <+: [.emit i n, .check i answered, .insert i ok] ∧ exec step s acts = some t ∧
      t.rows = emitAlone s.rows n s.inserted.length s.now answered ok := by
  have hemit := step_emit hi hn
  by_cases hsup : answered = true ∧ dedupExists s.rows n dedupWindow s.now = true
  · obtain ⟨rfl, hexists⟩ := hsup
    have hcheck := step_check_suppressed (s := s.setCall i (.called n)) setCall_self hexists
    refine ⟨[.emit i n, .check i true], _, ⟨[.insert i ok], rfl⟩, by rw [exec, hemit, Option.bind_some, exec, hcheck]; rfl, ?_⟩
    rw [emitAlone, if_pos ⟨hn, rfl, hexists⟩]
    rfl
  · obtain ⟨checked, hcheck⟩ := step_check_passed (s := s.setCall i (.called n)) setCall_self hsup
    obtain ⟨t, ht, hrows⟩ := step_insert (s := (s.setCall i (.called n)).setCall i (.passed n checked)) setCall_self ok
    refine ⟨[.emit i n, .check i answered, .insert i ok], t, List.prefix_rfl, ?_, hrows.trans (if_neg (fun h ↦ hsup h.2)).symm⟩
    rw [exec, hemit, Option.bind_some, exec, hcheck, Option.bind_some, exec, ht]
    rfl

theorem Inv.noRows (h : Inv s) (hi : s.calls i = .idle ∨ ∃ n, s.calls i = .called n) : rowsOf s i = 0 := by
  have hok := h.calls i
  rcases hi with hi | ⟨n, hi⟩ <;> rw [hi] at hok <;> exact hok

theorem Inv.prune (h : Inv s) : Inv { s with rows := pruneOlderThan s.rows retention s.now } where
  spaced := h.spaced
  past := h.past
  kept x hx hage := by
    refine List.mem_filter.mpr ⟨h.kept x hx hage, ?_⟩
    rw [Bool.not_eq_true', decide_eq_false_iff_not]
    exact Int.not_lt.mpr hage
  calls i := (h.calls i).mono rfl le_rfl

theorem Inv.advance (h : Inv s) (d : ℕ) : Inv { s with now := s.now + d } := by
  have hd : s.now ≤ s.now + (d : ℤ) := by omega
  exact {
    spaced := h.spaced
    past := fun x hx ↦ (h.past x hx).trans hd
    kept := fun x hx hage ↦ h.kept x hx (by simp only at hage; omega)
    calls := fun i ↦ (h.calls i).mono rfl hd }

theorem step_inv {a : Act} (h : Inv s) (hok : InsertsAlone s a) (hs : step s a = some t) : Inv t := by
  cases a with
  | emit i n =>
    obtain ⟨hi, rfl | rfl⟩ := emit_cases hs
    · exact h.setCall (c := .passed n none) (h.noRows (.inl hi))
    · exact h.setCall (c := .called n) (h.noRows (.inl hi))
  | check i answered =>
    obtain ⟨n, hi, rfl | rfl | ⟨hno, rfl⟩⟩ := check_cases hs
    · exact h.setCall (c := .suppressed) (h.noRows (.inr ⟨n, hi⟩))
    · exact h.setCall (c := .passed n none) (h.noRows (.inr ⟨n, hi⟩))
    · refine h.setCall (c := .passed n (some _)) ⟨h.noRows (.inr ⟨n, hi⟩), le_rfl, fun x hx ↦ ?_⟩
      exact h.checked hno x (List.mem_of_mem_take hx)
  | insert i ok =>
    obtain ⟨n, checked, hi, ⟨rfl, rfl⟩ | ⟨rfl, rfl⟩⟩ := insert_cases hs
    · exact h.insert hi (hok.2 n checked hi)
    · cases hok.1
  | dispatch =>
    cases hs
    exact ⟨h.spaced, h.past, h.kept, fun i ↦ (h.calls i).mono rfl le_rfl⟩
  | prune =>
    cases hs
    exact h.prune
  | advance d =>
    cases hs
    exact h.advance d

/-- A step that breaks the condition leaves a call unstored or two rows too close. -/
theorem not_deduplicated {a : Act} (h : Inv s) (hok : ¬ InsertsAlone s a) (hs : step s a = some t) :
    ¬ Deduplicated t := by
  cases a with
  | insert i ok =>
    obtain ⟨n, checked, hi, ⟨rfl, rfl⟩ | ⟨rfl, rfl⟩⟩ := insert_cases hs
    · intro hd
      obtain ⟨queue, hq⟩ := enqueue_eq (s.persistAndBroadcast i n) n
      have hspaced := hd.spaced
      rw [hq] at hspaced
      refine hok ⟨rfl, fun m k hm x hx hkey ↦ ?_⟩
      cases hi.symm.trans hm
      exact (spaced_persist.mp hspaced).2 x (List.mem_of_mem_drop hx) hkey
    · intro hd
      have hone : rowsOf s i = 1 := hd.storedOnce i (by rw [setCall_self]; trivial)
      have hok := h.calls i
      rw [hi] at hok
      cases checked with
      | none => exact absurd (hone.symm.trans hok) (by decide)
      | some k => exact absurd (hone.symm.trans hok.1) (by decide)
  | _ => exact absurd trivial hok

/-- Over every interleaving, rows of one key stay a window apart and every call that is not
suppressed is stored once, exactly as long as every insert succeeds and is alone in its window. -/
theorem deduplicated_throughout_iff (now : ℤ) (acts : List Act) :
    Throughout step Deduplicated (init now) acts ↔ EachStep step InsertsAlone (init now) acts :=
  throughout_iff_eachStep (fun _ ↦ Inv.deduplicated) (fun _ _ _ ↦ step_inv) (fun _ _ _ ↦ not_deduplicated)
    (inv_init now) acts

def imageVulnerable : Notification :=
  { source := .scan, severity := .critical, title := "Critical vulnerability found", resourceKind := "Pod",
    resourceNS := "shop", resourceName := "cart" }

/-- Two calls for one key, both checked before either inserts. -/
def race : List Act :=
  [.emit 0 imageVulnerable, .emit 1 imageVulnerable, .check 0 true, .check 1 true, .insert 0 true, .insert 1 true]

theorem not_deduplicated_throughout : ¬ Throughout step Deduplicated (init 0) race := by
  intro h
  have hspaced := (h.last (t := (exec step (init 0) race).get (by decide)) (by simp)).spaced
  exact absurd hspaced (by decide)

end KubeCenter.Notifications.EmitProtocol
