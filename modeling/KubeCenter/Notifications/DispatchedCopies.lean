import Mathlib.Logic.Function.Basic
import KubeCenter.Core.Runs
import KubeCenter.Notifications.Routing

/-! The copies of a notification that `Emit` makes, for its row, the broadcast and the dispatch. -/

namespace KubeCenter.Notifications.DispatchedCopies

open KubeCenter.Core Function

/-- The payload of a broadcast. -/
structure Stripped where
  id : ℕ
  source : Source
  severity : Severity
  title : String
  deriving DecidableEq

/-- Where one `Emit` stands; `inserted` has the id that only `persistAndBroadcast` knows. -/
inductive Call
  | idle
  | called (n : Notification)
  | passed (n : Notification)
  | inserted (n : Notification) (id : ℕ)
  | persisted (n : Notification)
  | returned

/-- Each copy goes with the number of its call. -/
structure State where
  rules : List Rule := []
  channels : List Channel := []
  stored : List (ℕ × Notification) := []
  broadcasts : List (ℕ × Stripped) := []
  queue : List (ℕ × Notification) := []
  matched : List (ℕ × Notification) := []
  dispatched : List (ℕ × Channel × Notification) := []
  calls : ℕ → Call := fun _ ↦ .idle

/-- What the database answers, it answers freely; an INSERT gives the id and the time of the row. -/
inductive Act
  | emit (i : ℕ) (n : Notification)
  | check (i : ℕ) (answer : Option Bool)
  | insert (i : ℕ) (generated : Option (ℕ × ℤ))
  | broadcast (i : ℕ)
  | enqueue (i : ℕ)
  | dispatch
  | refreshCache (rules : List Rule) (channels : List Channel)

def queueSize : ℕ := 1000

def strip (n : Notification) : Stripped := ⟨n.id, n.source, n.severity, n.title⟩

namespace State

variable (s : State)

def setCall (i : ℕ) (c : Call) : State := { s with calls := update s.calls i c }

/-- The select of `Emit`; audit notifications return before it. -/
def enqueue (i : ℕ) (n : Notification) : State :=
  if n.source = .audit ∨ queueSize ≤ s.queue.length then s else { s with queue := s.queue ++ [(i, n)] }

def dispatch (i : ℕ) (n : Notification) (queue : List (ℕ × Notification)) : State :=
  { s with
    queue
    matched := s.matched ++ [(i, n)]
    dispatched := s.dispatched ++ (dispatchToChannels s.rules s.channels n).map (fun ch ↦ (i, ch, n)) }

end State

/-- The steps of call `i`, which stands at the first argument. -/
def callStep (s : State) (i : ℕ) : Call → Act → Option State
  | .idle, .emit _ n => some (s.setCall i (if n.source = .audit then .passed n else .called n))
  | .called n, .check _ answer => some (s.setCall i (if answer = some true then .returned else .passed n))
  | .passed n, .insert _ (some (id, now)) =>
    some ({ s with stored := s.stored ++ [(i, n.row id now)] }.setCall i (.inserted n id))
  | .passed _, .insert _ none => some (s.setCall i .returned)
  | .inserted n id, .broadcast _ =>
    some ({ s with broadcasts := s.broadcasts ++ [(i, strip { n with id })] }.setCall i (.persisted n))
  | .persisted n, .enqueue _ => some ((s.enqueue i n).setCall i .returned)
  | _, _ => none

def step (s : State) (a : Act) : Option State :=
  match a with
  | .emit i _ | .check i _ | .insert i _ | .broadcast i | .enqueue i => callStep s i (s.calls i) a
  | .dispatch =>
    match s.queue with
    | [] => none
    | (i, n) :: queue => some (s.dispatch i n queue)
  | .refreshCache rules channels => some { s with rules, channels }

/-- The copies on their way to the channels, in the queue or taken from it. -/
def State.copies (s : State) : List (ℕ × Notification) :=
  s.queue ++ s.matched ++ s.dispatched.map (fun x ↦ (x.1, x.2.2))

/-- The row has no column for `suppressResourceFields`. -/
def SameAs (row n : Notification) : Prop := { n with suppressResourceFields := false } = row

/-- Every copy and every broadcast agrees with the one row that its call stored. -/
structure Agreeing (s : State) : Prop where
  copies : ∀ x ∈ s.copies, ∃ row, (x.1, row) ∈ s.stored ∧ SameAs row x.2
  broadcasts : ∀ x ∈ s.broadcasts, ∃ row, (x.1, row) ∈ s.stored ∧ x.2 = strip row
  once : ∀ i row row', (i, row) ∈ s.stored → (i, row') ∈ s.stored → row = row'

/-- What is queued had the id and the time of its row when `Emit` was called. -/
def Kept (s : State) : Act → Prop
  | .enqueue i => ∀ n, s.calls i = .persisted n → n.source ≠ .audit → s.queue.length < queueSize →
      ∀ row, (i, row) ∈ s.stored → n.id = row.id ∧ n.createdAt = row.createdAt
  | _ => True

/-- What holds of the rows of call `i` where it stands. -/
def CallOk (s : State) (i : ℕ) : Call → Prop
  | .idle | .called _ | .passed _ => ∀ row, (i, row) ∉ s.stored
  | .inserted n id => ∃ now, (i, n.row id now) ∈ s.stored
  | .persisted n => ∃ id now, (i, n.row id now) ∈ s.stored
  | .returned => True

structure Inv (s : State) : Prop extends Agreeing s where
  calls : ∀ i, CallOk s i (s.calls i)

variable {s t : State} {i : ℕ} {n : Notification} {c : Call} {a : Act}

theorem sameAs_row {id : ℕ} {now : ℤ} : SameAs (n.row id now) n ↔ n.id = id ∧ n.createdAt = now := by
  unfold SameAs Notification.row
  rw [Notification.mk.injEq]
  simp

@[simp] theorem setCall_self : (s.setCall i c).calls i = c := update_self ..

theorem setCall_ne {j : ℕ} (h : j ≠ i) : (s.setCall i c).calls j = s.calls j := update_of_ne h ..

theorem emit_cases (hs : step s (.emit i n) = some t) : s.calls i = .idle ∧
    t = s.setCall i (if n.source = .audit then .passed n else .called n) := by
  simp only [step] at hs
  cases hc : s.calls i <;> rw [hc] at hs <;> simp only [callStep, reduceCtorEq, Option.some.injEq] at hs
  exact ⟨rfl, hs.symm⟩

theorem check_cases {answer : Option Bool} (hs : step s (.check i answer) = some t) : ∃ n, s.calls i = .called n ∧
    t = s.setCall i (if answer = some true then .returned else .passed n) := by
  simp only [step] at hs
  cases hc : s.calls i <;> rw [hc] at hs <;> simp only [callStep, reduceCtorEq, Option.some.injEq] at hs
  exact ⟨_, rfl, hs.symm⟩

theorem insert_cases {generated : Option (ℕ × ℤ)} (hs : step s (.insert i generated) = some t) :
    ∃ n, s.calls i = .passed n ∧ (t = s.setCall i .returned ∨ ∃ id now,
      t = { s with stored := s.stored ++ [(i, n.row id now)] }.setCall i (.inserted n id)) := by
  simp only [step] at hs
  cases hc : s.calls i <;> cases generated <;> rw [hc] at hs <;>
    simp only [callStep, reduceCtorEq, Option.some.injEq] at hs
  · exact ⟨_, rfl, .inl hs.symm⟩
  · exact ⟨_, rfl, .inr ⟨_, _, hs.symm⟩⟩

theorem broadcast_cases (hs : step s (.broadcast i) = some t) : ∃ n id, s.calls i = .inserted n id ∧
    t = { s with broadcasts := s.broadcasts ++ [(i, strip { n with id })] }.setCall i (.persisted n) := by
  simp only [step] at hs
  cases hc : s.calls i <;> rw [hc] at hs <;> simp only [callStep, reduceCtorEq, Option.some.injEq] at hs
  exact ⟨_, _, rfl, hs.symm⟩

theorem enqueue_cases (hs : step s (.enqueue i) = some t) : ∃ n, s.calls i = .persisted n ∧
    t = (s.enqueue i n).setCall i .returned := by
  simp only [step] at hs
  cases hc : s.calls i <;> rw [hc] at hs <;> simp only [callStep, reduceCtorEq, Option.some.injEq] at hs
  exact ⟨_, rfl, hs.symm⟩

theorem dispatch_cases (hs : step s .dispatch = some t) : ∃ i n queue, s.queue = (i, n) :: queue ∧
    t = s.dispatch i n queue := by
  simp only [step] at hs
  split at hs
  · cases hs
  · next i n queue hq =>
    cases hs
    exact ⟨i, n, queue, hq, rfl⟩

theorem CallOk.mono {c : Call} (h : CallOk s i c) (ht : t.stored = s.stored) : CallOk t i c := by
  unfold CallOk at h ⊢
  rwa [ht]

theorem calls_setCall (hs : ∀ j, j ≠ i → CallOk s j (s.calls j)) (hi : CallOk s i c) :
    ∀ j, CallOk (s.setCall i c) j ((s.setCall i c).calls j) := by
  intro j
  by_cases hj : j = i
  · subst hj
    rw [setCall_self]
    exact hi.mono rfl
  · rw [setCall_ne hj]
    exact (hs j hj).mono rfl

theorem Inv.setCall (h : Inv s) (hc : CallOk s i c) : Inv (s.setCall i c) :=
  { h with calls := calls_setCall (fun j _ ↦ h.calls j) hc }

theorem Inv.insert (h : Inv s) (hi : s.calls i = .passed n) (id : ℕ) (now : ℤ) :
    Inv ({ s with stored := s.stored ++ [(i, n.row id now)] }.setCall i (.inserted n id)) := by
  have hnone : ∀ row, (i, row) ∉ s.stored := by
    have hok := h.calls i
    rw [hi] at hok
    exact hok
  refine
    { copies := fun x hx ↦ ?_
      broadcasts := fun x hx ↦ ?_
      once := fun j row row' hrow hrow' ↦ ?_
      calls := calls_setCall (fun j hj ↦ ?_) ⟨now, List.mem_append_right _ List.mem_cons_self⟩ }
  · obtain ⟨row, hrow, hsame⟩ := h.copies x hx
    exact ⟨row, List.mem_append_left _ hrow, hsame⟩
  · obtain ⟨row, hrow, hstrip⟩ := h.broadcasts x hx
    exact ⟨row, List.mem_append_left _ hrow, hstrip⟩
  · obtain hrow | hrow := List.mem_append.mp hrow <;> obtain hrow' | hrow' := List.mem_append.mp hrow'
    · exact h.once j row row' hrow hrow'
    · cases List.mem_singleton.mp hrow'
      exact absurd hrow (hnone row)
    · cases List.mem_singleton.mp hrow
      exact absurd hrow' (hnone row')
    · cases List.mem_singleton.mp hrow
      cases List.mem_singleton.mp hrow'
      rfl
  · have hok := h.calls j
    have hmem : ∀ row, (j, row) ∈ s.stored ++ [(i, n.row id now)] → (j, row) ∈ s.stored := by
      intro row hrow
      obtain hrow | hrow := List.mem_append.mp hrow
      · exact hrow
      · cases List.mem_singleton.mp hrow
        exact absurd rfl hj
    show CallOk _ j (s.calls j)
    cases hc : s.calls j with
    | idle | called _ | passed _ =>
      rw [hc] at hok
      exact fun row hrow ↦ hok row (hmem row hrow)
    | inserted m id =>
      rw [hc] at hok
      obtain ⟨now, hrow⟩ := hok
      exact ⟨now, List.mem_append_left _ hrow⟩
    | persisted m =>
      rw [hc] at hok
      obtain ⟨id, now, hrow⟩ := hok
      exact ⟨id, now, List.mem_append_left _ hrow⟩
    | returned => trivial

theorem Inv.broadcast (h : Inv s) {id : ℕ} (hi : s.calls i = .inserted n id) :
    Inv ({ s with broadcasts := s.broadcasts ++ [(i, strip { n with id })] }.setCall i (.persisted n)) := by
  have hok := h.calls i
  rw [hi] at hok
  obtain ⟨now, hrow⟩ := hok
  refine
    { h with
      broadcasts := fun x hx ↦ ?_
      calls := calls_setCall (fun j _ ↦ (h.calls j).mono rfl) ⟨id, now, hrow⟩ }
  obtain hx | hx := List.mem_append.mp hx
  · exact h.broadcasts x hx
  · cases List.mem_singleton.mp hx
    exact ⟨n.row id now, hrow, rfl⟩

theorem mem_copies {x : ℕ × Notification} : x ∈ s.copies ↔
    x ∈ s.queue ∨ x ∈ s.matched ∨ ∃ ch, (x.1, ch, x.2) ∈ s.dispatched := by
  simp only [State.copies, List.mem_append, List.mem_map, or_assoc]
  refine or_congr_right (or_congr_right ⟨?_, ?_⟩)
  · rintro ⟨⟨i, ch, n⟩, hmem, rfl⟩
    exact ⟨ch, hmem⟩
  · rintro ⟨ch, hmem⟩
    exact ⟨_, hmem, rfl⟩

theorem mem_copies_enqueue {x : ℕ × Notification} (hx : x ∈ (s.enqueue i n).copies) :
    x ∈ s.copies ∨ x = (i, n) ∧ n.source ≠ .audit ∧ s.queue.length < queueSize := by
  unfold State.enqueue at hx
  split at hx
  · exact .inl hx
  · next hroom =>
    rw [not_or, Nat.not_le] at hroom
    obtain hx | hx := mem_copies.mp hx
    · obtain hx | hx := List.mem_append.mp hx
      · exact .inl (mem_copies.mpr (.inl hx))
      · exact .inr ⟨List.mem_singleton.mp hx, hroom⟩
    · exact .inl (mem_copies.mpr (.inr hx))

/-- The dispatcher hands on what it took from the queue. -/
theorem mem_copies_dispatch {queue : List (ℕ × Notification)} (hq : s.queue = (i, n) :: queue) {x : ℕ × Notification}
    (hx : x ∈ (s.dispatch i n queue).copies) : x ∈ s.copies := by
  have hhead : (i, n) ∈ s.copies := mem_copies.mpr (.inl (hq ▸ List.mem_cons_self))
  obtain hx | hx | ⟨ch, hx⟩ := mem_copies.mp hx
  · exact mem_copies.mpr (.inl (hq ▸ List.mem_cons_of_mem _ hx))
  · obtain hx | hx := List.mem_append.mp hx
    · exact mem_copies.mpr (.inr (.inl hx))
    · cases List.mem_singleton.mp hx
      exact hhead
  · obtain hx | hx := List.mem_append.mp hx
    · exact mem_copies.mpr (.inr (.inr ⟨ch, hx⟩))
    · obtain ⟨ch', -, he⟩ := List.mem_map.mp hx
      obtain ⟨hi, -, hn⟩ := Prod.mk.inj he |>.imp id Prod.mk.inj
      rw [← Prod.mk.eta (p := x), ← hi, ← hn]
      exact hhead

theorem enqueue_eq (s : State) (i : ℕ) (n : Notification) : ∃ queue, s.enqueue i n = { s with queue } := by
  unfold State.enqueue
  split
  · exact ⟨s.queue, rfl⟩
  · exact ⟨_, rfl⟩

theorem Inv.enqueue (h : Inv s) (hi : s.calls i = .persisted n) (hk : Kept s (.enqueue i)) :
    Inv ((s.enqueue i n).setCall i .returned) := by
  have hrow := h.calls i
  rw [hi] at hrow
  obtain ⟨id, now, hrow⟩ := hrow
  have hcopies : ∀ x ∈ (s.enqueue i n).copies, ∃ row, (x.1, row) ∈ s.stored ∧ SameAs row x.2 := by
    intro x hx
    obtain hx | ⟨rfl, hsource, hroom⟩ := mem_copies_enqueue hx
    · exact h.copies x hx
    · exact ⟨n.row id now, hrow, sameAs_row.mpr (hk n hi hsource hroom _ hrow)⟩
  obtain ⟨queue, hq⟩ := enqueue_eq s i n
  rw [hq] at hcopies ⊢
  exact
    { h with
      copies := hcopies
      calls := calls_setCall (fun j _ ↦ (h.calls j).mono rfl) trivial }

theorem Inv.dispatch (h : Inv s) {queue : List (ℕ × Notification)} (hq : s.queue = (i, n) :: queue) :
    Inv (s.dispatch i n queue) :=
  { h with
    copies := fun x hx ↦ h.copies x (mem_copies_dispatch hq hx)
    calls := fun j ↦ (h.calls j).mono rfl }

theorem step_inv (h : Inv s) (hk : Kept s a) (hs : step s a = some t) : Inv t := by
  cases a with
  | emit i n =>
    obtain ⟨hi, rfl⟩ := emit_cases hs
    have hok := h.calls i
    rw [hi] at hok
    refine h.setCall ?_
    split <;> exact hok
  | check i answer =>
    obtain ⟨n, hi, rfl⟩ := check_cases hs
    have hok := h.calls i
    rw [hi] at hok
    refine h.setCall ?_
    split
    · trivial
    · exact hok
  | insert i generated =>
    obtain ⟨n, hi, rfl | ⟨id, now, rfl⟩⟩ := insert_cases hs
    · exact h.setCall trivial
    · exact h.insert hi id now
  | broadcast i =>
    obtain ⟨n, id, hi, rfl⟩ := broadcast_cases hs
    exact h.broadcast hi
  | enqueue i =>
    obtain ⟨n, hi, rfl⟩ := enqueue_cases hs
    exact h.enqueue hi hk
  | dispatch =>
    obtain ⟨i, n, queue, hq, rfl⟩ := dispatch_cases hs
    exact h.dispatch hq
  | refreshCache rules channels =>
    cases hs
    exact { h with calls := fun j ↦ (h.calls j).mono rfl }

/-- What is queued without the id or the time of its row agrees with no row. -/
theorem not_agreeing (h : Inv s) (hk : ¬ Kept s a) (hs : step s a = some t) : ¬ Agreeing t := by
  cases a with
  | enqueue i =>
    intro ht
    apply hk
    intro n hi hsource hroom row hrow
    obtain ⟨m, hm, rfl⟩ := enqueue_cases hs
    cases hi.symm.trans hm
    have hqueued : s.enqueue i n = { s with queue := s.queue ++ [(i, n)] } := by
      rw [State.enqueue, if_neg (not_or.mpr ⟨hsource, Nat.not_le.mpr hroom⟩)]
    rw [hqueued] at ht
    obtain ⟨row', hrow', hsame⟩ := ht.copies (i, n) (mem_copies.mpr (.inl (List.mem_append_right _ List.mem_cons_self)))
    cases h.once i row row' hrow hrow'
    rw [← hsame]
    exact ⟨rfl, rfl⟩
  | emit | check | insert | broadcast | dispatch | refreshCache => exact absurd trivial hk

theorem inv_init : Inv {} where
  copies _ hx := absurd hx List.not_mem_nil
  broadcasts _ hx := absurd hx List.not_mem_nil
  once _ _ _ hrow := absurd hrow List.not_mem_nil
  calls _ _ := List.not_mem_nil

def outdated : Notification := { source := .gitops, severity := .warning, title := "Out of sync" }

end KubeCenter.Notifications.DispatchedCopies
