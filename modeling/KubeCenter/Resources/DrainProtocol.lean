import KubeCenter.Core.Runs
import KubeCenter.Resources.Tasks

/-! Drain requests, the goroutines they start and the reaper, statement by statement. -/

namespace KubeCenter.Resources.Drain

open KubeCenter.Core

/-- Where a request stands: refused, past the check, with a task, its drain before a call, or ended. A failed drain
knows whether a call failed by itself (or ran out of time). -/
inductive Phase
  | refused
  | checked
  | created (task : String)
  | calling (task : String) (call : DrainCall)
  | complete (task : String)
  | failed (task : String) (byItself : Bool)

structure Request where
  node : String
  user : String
  req : DrainRequest
  phase : Phase
  cancelled : Bool := false

/-- The task of a drain that has not ended. -/
def Request.running (r : Request) : Option String :=
  match r.phase with
  | .created task | .calling task _ => some task
  | _ => none

/-- `issued` lists the ids given out, `ended` has each task as it was when it first ended. -/
structure State where
  tasks : Tasks := ∅
  requests : ℕ → Option Request := fun _ ↦ none
  issued : List String := []
  ended : String → Option Task := fun _ ↦ none

/-- `finish` is the handler's return, on which net/http cancels the request's context, as it does when the client
goes away. A call has no answer when it fails by itself or its timeout has expired. -/
inductive Act
  | request (i : ℕ) (node user : String) (body : Option DrainRequest)
  | create (i : ℕ) (id : String) (now : ℤ)
  | start (i : ℕ) (now : ℤ)
  | finish (i : ℕ)
  | disconnect (i : ℕ)
  | call (i : ℕ) (answer : Option (List DrainPod)) (now : ℤ)
  | reap (now : ℤ)

namespace State

variable (s : State)

def setRequest (i : ℕ) (r : Request) : State :=
  { s with requests := fun j ↦ if j = i then some r else s.requests j }

def update (id : String) (u : Update) (now : ℤ) : State :=
  let tasks := s.tasks.updateStatus id u now
  { s with
    tasks
    ended := fun j ↦ if j = id ∧ u.status.isActive = false ∧ (s.ended id).isNone then tasks.lookup id else s.ended j }

def createTask (i : ℕ) (r : Request) (id : String) (now : ℤ) : State :=
  { s.setRequest i { r with phase := .created id } with
    tasks := s.tasks.create id "drain" r.node "" r.user now
    issued := id :: s.issued }

end State

/-- The phase and the status that the answer to a call leads to; a cancelled context makes a call fail. -/
def Request.answered (r : Request) (task : String) (call : DrainCall) (answer : Option (List DrainPod)) :
    Phase × Update :=
  match answer with
  | none => (.failed task true, call.failure)
  | some pods =>
    if r.cancelled && call.usesContext then (.failed task false, call.failure)
    else match call.success r.req pods with
      | (some next, u) => (.calling task next, u)
      | (none, u) => (.complete task, u)

/-- Only requests that pass the access check are in the run. -/
def step (s : State) : Act → Option State
  | .request i node user body =>
    if (s.requests i).isNone then
      let phase := if s.tasks.hasActiveTask "drain" node then .refused else .checked
      some (s.setRequest i { node, user, req := drainRequest body, phase })
    else none
  | .create i id now =>
    match s.requests i with
    | some r =>
      match r.phase with
      | .checked => if id ∈ s.issued then none else some (s.createTask i r id now)
      | _ => none
    | none => none
  | .start i now =>
    match s.requests i with
    | some r =>
      match r.phase with
      | .created id => some ((s.setRequest i { r with phase := .calling id .client }).update id
          ⟨.running, "starting drain", 0⟩ now)
      | _ => none
    | none => none
  | .finish i =>
    match s.requests i with
    | some r =>
      match r.phase with
      | .checked | .created _ => none
      | _ => some (s.setRequest i { r with cancelled := true })
    | none => none
  | .disconnect i => (s.requests i).map (fun r ↦ s.setRequest i { r with cancelled := true })
  | .call i answer now =>
    match s.requests i with
    | some r =>
      match r.phase with
      | .calling id call =>
        let (phase, u) := r.answered id call answer
        some ((s.setRequest i { r with phase }).update id u now)
      | _ => none
    | none => none
  | .reap now => some { s with tasks := s.tasks.reapCompleted now }

/-- At most one drain of a node is pending or running, no ended task changes, and no drain fails unless a call
fails by itself. -/
structure Safe (s : State) : Prop where
  exclusive : ∀ id t id' t', s.tasks.lookup id = some t → s.tasks.lookup id' = some t' →
    t.status.isActive = true → t'.status.isActive = true → t.kind = t'.kind → t.name = t'.name → id = id'
  stable : ∀ id t t', s.tasks.lookup id = some t → s.ended id = some t' → t = t'
  byItself : ∀ i r task, s.requests i = some r → r.phase ≠ .failed task false

structure Inv (s : State) : Prop extends Safe s where
  owned : ∀ i r id, s.requests i = some r → r.running = some id →
    id ∈ s.issued ∧ s.ended id = none ∧ ∃ t, s.tasks.lookup id = some t ∧ t.status.isActive = true
  distinct : ∀ i j r r' id, s.requests i = some r → s.requests j = some r' → r.running = some id →
    r'.running = some id → i = j
  taskIssued : ∀ id t, s.tasks.lookup id = some t → id ∈ s.issued
  endedIssued : ∀ id t, s.ended id = some t → id ∈ s.issued

variable {s t : State} {a : Act} {i : ℕ} {r r' : Request} {id : String}

theorem Inv.init : Inv {} where
  exclusive := fun _ _ _ _ h ↦ by cases h
  stable := fun _ _ _ h ↦ by cases h
  byItself := fun _ _ _ h ↦ by cases h
  owned := fun _ _ _ h ↦ by cases h
  distinct := fun _ _ _ _ _ h ↦ by cases h
  taskIssued := fun _ _ h ↦ by cases h
  endedIssued := fun _ _ h ↦ by cases h

theorem requests_setRequest {j : ℕ} (h : (s.setRequest i r').requests j = some r) :
    j = i ∧ r = r' ∨ j ≠ i ∧ s.requests j = some r := by
  by_cases hj : j = i
  · refine .inl ⟨hj, ?_⟩
    simp only [State.setRequest, hj, if_true] at h
    exact (Option.some.inj h).symm
  · refine .inr ⟨hj, ?_⟩
    simpa only [State.setRequest, hj, if_false] using h

theorem running_setRequest {j : ℕ} (hr : ∀ id, r'.running = some id → ∃ r, s.requests i = some r ∧ r.running = some id)
    (h : (s.setRequest i r').requests j = some r) (hrun : r.running = some id) :
    ∃ r₀, s.requests j = some r₀ ∧ r₀.running = some id := by
  obtain ⟨rfl, rfl⟩ | ⟨-, hold⟩ := requests_setRequest h
  · exact hr id hrun
  · exact ⟨r, hold, hrun⟩

/-- A request may change as long as it takes up no task and fails for no other reason than a call. -/
theorem Inv.setRequest (h : Inv s) (hr : ∀ id, r'.running = some id → ∃ r, s.requests i = some r ∧ r.running = some id)
    (hf : ∀ task, r'.phase ≠ .failed task false) : Inv (s.setRequest i r') where
  exclusive := h.exclusive
  stable := h.stable
  byItself := by
    intro j r task hj
    obtain ⟨-, rfl⟩ | ⟨-, hold⟩ := requests_setRequest hj
    · exact hf task
    · exact h.byItself j r task hold
  owned := by
    intro j r id hj hrun
    obtain ⟨r₀, hj, hrun⟩ := running_setRequest hr hj hrun
    exact h.owned j r₀ id hj hrun
  distinct := by
    intro j k r r'' id hj hk hrun hrun'
    obtain ⟨r₀, hj, hrun⟩ := running_setRequest hr hj hrun
    obtain ⟨r₁, hk, hrun'⟩ := running_setRequest hr hk hrun'
    exact h.distinct j k r₀ r₁ id hj hk hrun hrun'
  taskIssued := h.taskIssued
  endedIssued := h.endedIssued

variable {task : Task} {u : Update} {now : ℤ}

/-- An active task takes a new status; nobody runs it any more when that one is not active. -/
theorem Inv.update (h : Inv s) (ht : s.tasks.lookup id = some task) (ha : task.status.isActive = true)
    (he : s.ended id = none)
    (hfree : u.status.isActive = false → ∀ j r, s.requests j = some r → r.running ≠ some id) :
    Inv (s.update id u now) := by
  have hlookup (j : String) : (s.update id u now).tasks.lookup j =
      if j = id then some (task.updated u now) else s.tasks.lookup j := Tasks.lookup_updateStatus ht
  have hended (j : String) : (s.update id u now).ended j =
      if j = id ∧ u.status.isActive = false then some (task.updated u now) else s.ended j := by
    have hself : (s.tasks.updateStatus id u now).lookup id = some (task.updated u now) := by
      rw [Tasks.lookup_updateStatus ht, if_pos rfl]
    simp only [State.update, he, Option.isNone_none, and_true, hself]
  have hactive {j : String} {t : Task} (hj : (s.update id u now).tasks.lookup j = some t)
      (hact : t.status.isActive = true) :
      ∃ t₀, s.tasks.lookup j = some t₀ ∧ t₀.status.isActive = true ∧ t₀.kind = t.kind ∧ t₀.name = t.name := by
    rw [hlookup] at hj
    split at hj
    · next hjid =>
      cases hj
      exact ⟨task, hjid ▸ ht, ha, rfl, rfl⟩
    · exact ⟨t, hj, hact, rfl, rfl⟩
  constructor
  · constructor
    · intro j t k t' hj hk hact hact' hkind hname
      obtain ⟨t₀, hj₀, ha₀, hk₀, hn₀⟩ := hactive hj hact
      obtain ⟨t₁, hj₁, ha₁, hk₁, hn₁⟩ := hactive hk hact'
      exact h.exclusive j t₀ k t₁ hj₀ hj₁ ha₀ ha₁ (hk₀.trans (hkind.trans hk₁.symm))
        (hn₀.trans (hname.trans hn₁.symm))
    · intro j t t' hj hj'
      rw [hlookup] at hj
      rw [hended] at hj'
      by_cases hjid : j = id
      · rw [if_pos hjid] at hj
        by_cases hact : u.status.isActive = false
        · rw [if_pos ⟨hjid, hact⟩] at hj'
          exact Option.some.inj (hj.symm.trans hj')
        · rw [if_neg (fun hand ↦ hact hand.2), hjid, he] at hj'
          cases hj'
      · rw [if_neg hjid] at hj
        rw [if_neg (fun hand ↦ hjid hand.1)] at hj'
        exact h.stable j t t' hj hj'
    · exact h.byItself
  · intro j r k hj hrun
    obtain ⟨hissued, hnone, t, hk, hact⟩ := h.owned j r k hj hrun
    refine ⟨hissued, ?_⟩
    rw [hended, hlookup]
    by_cases hkid : k = id
    · have hu : u.status.isActive = true := by
        by_contra hu
        exact hfree (Bool.eq_false_iff.mpr hu) j r hj (hkid ▸ hrun)
      rw [if_neg (fun hand ↦ by rw [hu] at hand; cases hand.2), if_pos hkid]
      exact ⟨hnone, _, rfl, hu⟩
    · rw [if_neg (fun hand ↦ hkid hand.1), if_neg hkid]
      exact ⟨hnone, t, hk, hact⟩
  · exact h.distinct
  · intro j t hj
    rw [hlookup] at hj
    split at hj
    · next hjid => exact hjid ▸ h.taskIssued id task ht
    · exact h.taskIssued j t hj
  · intro j t hj
    rw [hended] at hj
    split at hj
    · next hand => exact hand.1 ▸ h.taskIssued id task ht
    · exact h.endedIssued j t hj

/-- The handler or the goroutine of a drain writes the status of its task and goes on or ends. -/
theorem Inv.advance (h : Inv s) (hi : s.requests i = some r) (hrun : r.running = some id)
    (hrun' : r'.running = if u.status.isActive then some id else none)
    (hf : ∀ task, r'.phase ≠ .failed task false) : Inv ((s.setRequest i r').update id u now) := by
  obtain ⟨-, hnone, t, ht, hact⟩ := h.owned i r id hi hrun
  have hset : Inv (s.setRequest i r') := by
    apply h.setRequest _ hf
    intro id' hid'
    refine ⟨r, hi, ?_⟩
    rw [hrun'] at hid'
    split at hid' <;> cases hid'
    exact hrun
  apply hset.update ht hact hnone
  intro hu j r'' hj hj'
  obtain ⟨rfl, rfl⟩ | ⟨hne, hold⟩ := requests_setRequest hj
  · rw [hrun', hu] at hj'
    cases hj'
  · exact hne (h.distinct j i r'' r id hold hi hj' hrun)

theorem lookup_createTask (r : Request) (id' : String) :
    (s.createTask i r id now).tasks.lookup id' =
      if id' = id then some { id, kind := "drain", name := r.node, ns := "", status := .pending, startedAt := now, user := r.user }
      else s.tasks.lookup id' := Tasks.lookup_create

theorem Inv.create (h : Inv s) (hi : s.requests i = some r) (hid : id ∉ s.issued)
    (hok : s.tasks.hasActiveTask "drain" r.node = false) : Inv (s.createTask i r id now) := by
  have hno {j : String} {t : Task} (hj : s.tasks.lookup j = some t) (hact : t.status.isActive = true)
      (hk : t.kind = "drain") (hn : t.name = r.node) : False := by
    have htrue := Tasks.hasActiveTask_iff.mpr ⟨j, t, hj, hk, hn, hact⟩
    rw [hok] at htrue
    cases htrue
  constructor
  · constructor
    · intro j t k t' hj hk hact hact' hkind hname
      rw [lookup_createTask] at hj hk
      split at hj
      · next hjid =>
        split at hk
        · next hkid => exact hjid.trans hkid.symm
        · cases hj
          exact (hno hk hact' hkind.symm hname.symm).elim
      · split at hk
        · cases hk
          exact (hno hj hact hkind hname).elim
        · exact h.exclusive j t k t' hj hk hact hact' hkind hname
    · intro j t t' hj hj'
      rw [lookup_createTask] at hj
      split at hj
      · next hjid => exact absurd (hjid ▸ h.endedIssued j t' hj') hid
      · exact h.stable j t t' hj hj'
    · intro j r' task hj
      obtain ⟨-, rfl⟩ | ⟨-, hold⟩ := requests_setRequest hj
      · exact fun he ↦ by cases he
      · exact h.byItself j r' task hold
  · intro j r' k hj hrun
    rw [lookup_createTask]
    obtain ⟨-, rfl⟩ | ⟨-, hold⟩ := requests_setRequest hj
    · cases hrun
      refine ⟨List.mem_cons_self, ?_, _, if_pos rfl, rfl⟩
      cases hend : s.ended id with
      | none => exact hend
      | some t => exact absurd (h.endedIssued id t hend) hid
    · obtain ⟨hissued, hnone, t, ht, hact⟩ := h.owned j r' k hold hrun
      refine ⟨List.mem_cons_of_mem id hissued, hnone, t, ?_, hact⟩
      rw [if_neg (fun he : k = id ↦ hid (he ▸ hissued)), ht]
  · intro j k r' r'' id' hj hk hrun hrun'
    obtain ⟨rfl, rfl⟩ | ⟨-, hold⟩ := requests_setRequest hj
    · obtain ⟨rfl, -⟩ | ⟨-, hold'⟩ := requests_setRequest hk
      · rfl
      · cases hrun
        exact absurd (h.owned k r'' id hold' hrun').1 hid
    · obtain ⟨rfl, rfl⟩ | ⟨-, hold'⟩ := requests_setRequest hk
      · cases hrun'
        exact absurd (h.owned j r' id hold hrun).1 hid
      · exact h.distinct j k r' r'' id' hold hold' hrun hrun'
  · intro j t hj
    rw [lookup_createTask] at hj
    split at hj
    · next hjid => exact hjid ▸ List.mem_cons_self
    · exact List.mem_cons_of_mem id (h.taskIssued j t hj)
  · exact fun j t hj ↦ List.mem_cons_of_mem id (h.endedIssued j t hj)

theorem Inv.reap (h : Inv s) (now : ℤ) : Inv { s with tasks := s.tasks.reapCompleted now } where
  exclusive := fun j t k t' hj hk ↦
    h.exclusive j t k t' (Tasks.lookup_reapCompleted hj) (Tasks.lookup_reapCompleted hk)
  stable := fun j t t' hj ↦ h.stable j t t' (Tasks.lookup_reapCompleted hj)
  byItself := h.byItself
  owned := by
    intro j r k hj hrun
    obtain ⟨hissued, hnone, t, ht, hact⟩ := h.owned j r k hj hrun
    exact ⟨hissued, hnone, t, Tasks.lookup_reapCompleted_active ht hact, hact⟩
  distinct := h.distinct
  taskIssued := fun j t hj ↦ h.taskIssued j t (Tasks.lookup_reapCompleted hj)
  endedIssued := h.endedIssued

/-- A task is created while no drain of the node is active, and a call that the cluster would answer is made before
the context of the request is cancelled. -/
def Uninterrupted (s : State) : Act → Prop
  | .create i _ _ => ∀ r, s.requests i = some r → s.tasks.hasActiveTask "drain" r.node = false
  | .call i answer _ => ∀ r id call, s.requests i = some r → r.phase = .calling id call →
      answer.isSome = true → call.usesContext = true → r.cancelled = false
  | _ => True

/-- What the answer leads to: the task runs on exactly when the written status is active. -/
theorem answered_running (r : Request) (id : String) (call : DrainCall) (answer : Option (List DrainPod)) :
    ({ r with phase := (r.answered id call answer).1 } : Request).running =
      if (r.answered id call answer).2.status.isActive then some id else none := by
  cases answer with
  | none => simp [Request.answered, Request.running, call.failure_status]
  | some pods =>
    by_cases hcancel : (r.cancelled && call.usesContext) = true
    · simp [Request.answered, Request.running, hcancel, call.failure_status]
    · have hstatus := call.success_status r.req pods
      simp only [Request.answered, hcancel]
      cases hnext : call.success r.req pods with
      | mk next u =>
        rw [hnext] at hstatus
        cases next <;> simp [Request.running, hstatus]

theorem answered_ne_failed {call : DrainCall} {answer : Option (List DrainPod)}
    (hok : answer.isSome = true → call.usesContext = true → r.cancelled = false) (id task : String) :
    (r.answered id call answer).1 ≠ .failed task false := by
  cases answer with
  | none => exact fun he ↦ by cases he
  | some pods =>
    have hcancel : (r.cancelled && call.usesContext) = false := by
      cases huses : call.usesContext with
      | false => exact Bool.and_false _
      | true => rw [hok rfl huses, Bool.false_and]
    simp only [Request.answered, hcancel, Bool.false_eq_true, if_false]
    cases hnext : call.success r.req pods with
    | mk next u => cases next <;> exact fun he ↦ by cases he

theorem Inv.step (h : Inv s) (hok : Uninterrupted s a) (hs : step s a = some t) : Inv t := by
  cases a with
  | request i node user body =>
    simp only [Drain.step] at hs
    split at hs <;> cases hs
    apply h.setRequest
    · intro id hid
      simp only [Request.running] at hid
      split at hid
      · next he => split at he <;> cases he
      · next he => split at he <;> cases he
      · cases hid
    · intro task
      split <;> exact fun he ↦ by cases he
  | create i id now =>
    simp only [Drain.step] at hs
    split at hs
    · next r hi =>
      split at hs
      · split at hs <;> cases hs
        next hid => exact h.create hi hid (hok r hi)
      · cases hs
    · cases hs
  | start i now =>
    simp only [Drain.step] at hs
    split at hs
    · next r hi =>
      split at hs
      · next id hphase =>
        cases hs
        refine h.advance hi (by rw [Request.running, hphase]) rfl (fun task he ↦ by cases he)
      · cases hs
    · cases hs
  | finish i =>
    simp only [Drain.step] at hs
    split at hs
    · next r hi =>
      have hset : Inv (s.setRequest i { r with cancelled := true }) :=
        h.setRequest (fun id hid ↦ ⟨r, hi, hid⟩) (fun task ↦ h.byItself i r task hi)
      split at hs <;> cases hs
      exact hset
    · cases hs
  | disconnect i =>
    obtain ⟨r, hi, rfl⟩ := Option.map_eq_some_iff.mp hs
    exact h.setRequest (fun id hid ↦ ⟨r, hi, hid⟩) (fun task ↦ h.byItself i r task hi)
  | call i answer now =>
    simp only [Drain.step] at hs
    split at hs
    · next r hi =>
      split at hs
      · next id call hphase =>
        cases hs
        exact h.advance hi (by rw [Request.running, hphase]) (answered_running r id call answer)
          (answered_ne_failed (hok r id call hi hphase) id)
      · cases hs
    · cases hs
  | reap now =>
    cases hs
    exact h.reap now

theorem not_safe_of_create (h : Inv s) (hid : id ∉ s.issued)
    (hactive : s.tasks.hasActiveTask "drain" r.node = true) : ¬ Safe (s.createTask i r id now) := by
  intro hsafe
  obtain ⟨id', t, ht, hk, hn, hact⟩ := Tasks.hasActiveTask_iff.mp hactive
  have hne : id' ≠ id := fun he ↦ hid (he ▸ h.taskIssued id' t ht)
  have hold : (s.createTask i r id now).tasks.lookup id' = some t := by rw [lookup_createTask, if_neg hne, ht]
  have hnew : (s.createTask i r id now).tasks.lookup id = some _ := (lookup_createTask r id).trans (if_pos rfl)
  exact hne (hsafe.exclusive id' t id _ hold hnew hact rfl hk hn)

theorem not_safe_of_interrupted (h : Inv s) (hbad : ¬ Uninterrupted s a) (hs : step s a = some t) : ¬ Safe t := by
  cases a with
  | create i id now =>
    simp only [Uninterrupted, not_forall, Bool.not_eq_false] at hbad
    obtain ⟨r, hi, hactive⟩ := hbad
    simp only [Drain.step, hi] at hs
    split at hs
    · split at hs <;> cases hs
      next hid => exact not_safe_of_create h hid hactive
    · cases hs
  | call i answer now =>
    simp only [Uninterrupted, not_forall, Bool.not_eq_false] at hbad
    obtain ⟨r, id, call, hi, hphase, hanswer, huses, hcancel⟩ := hbad
    obtain ⟨pods, rfl⟩ := Option.isSome_iff_exists.mp hanswer
    simp only [Drain.step, hi, hphase] at hs
    cases hs
    intro hsafe
    apply hsafe.byItself i { r with phase := (r.answered id call (some pods)).1 } id
    · exact if_pos rfl
    · simp [Request.answered, hcancel, huses]
  | request i node user body => exact absurd trivial hbad
  | start i now => exact absurd trivial hbad
  | finish i => exact absurd trivial hbad
  | disconnect i => exact absurd trivial hbad
  | reap now => exact absurd trivial hbad

/-- The handler returns before the node is cordoned. -/
def returnedHandler : List Act :=
  [.request 0 "node-1" "ann" none, .create 0 "task-a" 0, .start 0 0, .call 0 (some []) 1, .finish 0,
    .call 0 (some []) 2]

/-- Two requests for a node are checked before either has its task. -/
def racingRequests : List Act :=
  [.request 0 "node-1" "ann" none, .request 1 "node-1" "bob" none, .create 0 "task-a" 0, .create 1 "task-b" 0]

theorem returnedHandler_phase :
    (exec step {} returnedHandler).bind (fun s ↦ (s.requests 0).map Request.phase) = some (.failed "task-a" false) :=
  rfl

theorem racingRequests_tasks (id : String) (h : id ∈ ["task-a", "task-b"]) :
    ((exec step {} racingRequests).bind (fun s ↦ s.tasks.lookup id)).map (fun t ↦ (t.kind, t.name, t.status)) =
      some ("drain", "node-1", .pending) := by
  revert id
  decide

end KubeCenter.Resources.Drain
