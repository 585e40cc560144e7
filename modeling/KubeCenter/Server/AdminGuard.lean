import KubeCenter.Auth.LocalUsers
import KubeCenter.Core.Runs

/-! Requests that set up, create and delete local users, statement by statement. -/

namespace KubeCenter.Server.AdminGuard

open KubeCenter.Core KubeCenter.Auth

/-- Where a request stands between two statements; a finished one has answered with a status. -/
inductive Call
  | deleting (id : String)
  | creating (record : UserRecord)
  | settingUp (record : UserRecord)
  | locked (record : UserRecord)
  | counted (record : UserRecord)
  | done (status : ℕ)

/-- `lock` is the request that holds the advisory lock, `setups` counts the setups that succeeded. -/
structure State where
  users : LocalUsers
  calls : ℕ → Option Call := fun _ ↦ none
  lock : Option ℕ := none
  setups : ℕ := 0

inductive Act
  | requestDelete (i : ℕ) (caller : User) (id : String)
  | delete (i : ℕ)
  | requestCreate (i : ℕ) (caller : User) (body : RequestBody CreateUserRequest) (drawn : Option Drawn)
  | insert (i : ℕ)
  | requestSetup (i : ℕ) (gate : SetupGate) (body : RequestBody SetupRequest) (drawn : Option Drawn)
  | lock (i : ℕ)
  | count (i : ℕ)
  | commit (i : ℕ)
  | fail (i : ℕ)

namespace State

variable (s : State)

def setCall (i : ℕ) (c : Call) : State := { s with calls := fun j ↦ if j = i then some c else s.calls j }

def unlock (i : ℕ) : State := { s with lock := if s.lock = some i then none else s.lock }

/-- A request enters under an id of its own; one that is refused is answered at once. -/
def enter (i : ℕ) (result : Except APIError Call) : State :=
  s.setCall i (match result with
    | .ok c => c
    | .error e => .done e.code)

/-- `handleDeleteUser` up to its second statement: the List and the two guards. -/
def guardDelete (caller : User) (id : String) : Except APIError Call :=
  if caller.id = id then .error ⟨409, "cannot delete your own account"⟩
  else if s.users.lastAdmin id then .error ⟨409, "cannot delete the last admin user"⟩
  else .ok (.deleting id)

def deleteRow (i : ℕ) (id : String) : State :=
  match s.users.delete id with
  | none => s.setCall i (.done 404)
  | some users => { s.setCall i (.done 204) with users }

def insertRow (i : ℕ) (record : UserRecord) : State :=
  match s.users.create record with
  | none => s.setCall i (.done 409)
  | some users => { s.setCall i (.done 201) with users }

/-- The INSERT of `CreateFirstUser` and its commit; a row that conflicts makes it fail. -/
def insertFirst (i : ℕ) (record : UserRecord) : State :=
  match s.users.create record with
  | none => (s.setCall i (.done 500)).unlock i
  | some users => { (s.setCall i (.done 201)).unlock i with users, setups := s.setups + 1 }

end State

/-- The one statement of the database each act stands for. Only administrators reach the first two
handlers; the account a caller logged in with may be gone. -/
def step (s : State) : Act → Option State
  | .requestDelete i caller id =>
    if s.calls i = none ∧ "admin" ∈ caller.roles then
      some (s.enter i (s.guardDelete caller id))
    else none
  | .delete i =>
    match s.calls i with
    | some (.deleting id) => some (s.deleteRow i id)
    | _ => none
  | .requestCreate i caller body drawn =>
    if s.calls i = none ∧ "admin" ∈ caller.roles then
      some (s.enter i ((createUserRecord body drawn).map .creating))
    else none
  | .insert i =>
    match s.calls i with
    | some (.creating record) => some (s.insertRow i record)
    | _ => none
  | .requestSetup i gate body drawn =>
    if s.calls i = none then some (s.enter i ((setupRecord gate body drawn).map .settingUp)) else none
  | .lock i =>
    match s.calls i with
    | some (.settingUp record) => if s.lock = none then some { s.setCall i (.locked record) with lock := some i } else none
    | _ => none
  | .count i =>
    match s.calls i with
    | some (.locked record) =>
      some (if s.users = [] then s.setCall i (.counted record) else (s.setCall i (.done 410)).unlock i)
    | _ => none
  | .commit i =>
    match s.calls i with
    | some (.counted record) => some (s.insertFirst i record)
    | _ => none
  | .fail i =>
    match s.calls i with
    | none | some (.done _) => none
    | some _ => some ((s.setCall i (.done 500)).unlock i)

variable {s t : State} {a : Act} {i : ℕ} {c : Call}

/-- A step that touches no row and counts no user. -/
structure Kept (s t : State) : Prop where
  users : t.users = s.users
  setups : t.setups = s.setups
  counted : ∀ i record, t.calls i = some (.counted record) → s.calls i = some (.counted record)

theorem kept_setCall (hc : ∀ record, c ≠ .counted record) : Kept s (s.setCall i c) where
  users := rfl
  setups := rfl
  counted := by
    intro j record h
    simp only [State.setCall] at h
    split at h
    · cases h
      exact absurd rfl (hc record)
    · exact h

theorem kept_unlock : Kept s (s.unlock i) := ⟨rfl, rfl, fun _ _ h ↦ h⟩

theorem Kept.trans {u : State} (h : Kept s t) (h' : Kept t u) : Kept s u :=
  ⟨h'.users.trans h.users, h'.setups.trans h.setups, fun i record hc ↦ h.counted i record (h'.counted i record hc)⟩

theorem kept_enter {result : Except APIError Call} (h : ∀ c, result = .ok c → ∀ record, c ≠ .counted record) :
    Kept s (s.enter i result) := by
  apply kept_setCall
  cases result with
  | error e => exact fun record he ↦ by cases he
  | ok c => exact h c rfl

theorem map_ne_counted {x : Except APIError UserRecord} {f : UserRecord → Call}
    (hf : ∀ record record', f record ≠ .counted record') :
    ∀ c, x.map f = .ok c → ∀ record, c ≠ .counted record := by
  intro c h record
  cases x with
  | error e => cases h
  | ok r =>
    cases h
    exact hf r record

theorem guardDelete_ne_counted {caller : User} {id : String} :
    ∀ c, s.guardDelete caller id = .ok c → ∀ record, c ≠ .counted record := by
  intro c h record
  rw [State.guardDelete, ite_error_eq_ok, ite_error_eq_ok] at h
  cases h.2.2
  exact fun he ↦ by cases he

/-- There is an administrator, ids are unique, and no setup has seen an empty table. -/
structure Inv (s : State) : Prop where
  admin : ∃ u ∈ s.users, u.isAdmin = true
  ids : (s.users.map UserRecord.id).Nodup
  uncounted : ∀ i record, s.calls i ≠ some (.counted record)
  setups : s.setups = 0

theorem Inv.kept (h : Inv s) (hk : Kept s t) : Inv t where
  admin := hk.users ▸ h.admin
  ids := hk.users ▸ h.ids
  uncounted := fun i record hc ↦ h.uncounted i record (hk.counted i record hc)
  setups := hk.setups.trans h.setups

theorem Inv.rows (h : Inv s) (hk : Kept s t) {users : LocalUsers} (hadmin : ∃ u ∈ users, u.isAdmin = true)
    (hids : (users.map UserRecord.id).Nodup) : Inv { t with users } where
  admin := hadmin
  ids := hids
  uncounted := fun i record hc ↦ h.uncounted i record (hk.counted i record hc)
  setups := hk.setups.trans h.setups

theorem create_eq_some {users users' : LocalUsers} {record : UserRecord} (h : users.create record = some users') :
    users' = users ++ [record] ∧ ∀ u ∈ users, u.id ≠ record.id := by
  unfold LocalUsers.create at h
  split at h <;> cases h
  next hany =>
  refine ⟨rfl, fun u hu he ↦ hany (List.any_eq_true.mpr ⟨u, hu, by simp [he]⟩)⟩

theorem delete_eq_some {users users' : LocalUsers} {id : String} (h : users.delete id = some users') :
    users' = users.filter (fun u ↦ u.id ≠ id) := by
  unfold LocalUsers.delete at h
  split at h <;> cases h
  rfl

theorem lastAdmin_iff {users : LocalUsers} {id : String} (hadmin : ∃ u ∈ users, u.isAdmin = true)
    (hids : (users.map UserRecord.id).Nodup) :
    users.lastAdmin id = true ↔ ¬ ∃ u ∈ users.filter (fun u ↦ u.id ≠ id), u.isAdmin = true := by
  have hsplit : users.countP UserRecord.isAdmin =
      (users.filter (fun u ↦ u.id ≠ id)).countP UserRecord.isAdmin +
        users.countP (fun u ↦ u.isAdmin && u.id = id) := by
    rw [List.countP_filter, List.countP_eq_countP_filter_add users _ (fun u ↦ decide (u.id ≠ id)),
      List.countP_filter, List.countP_filter]
    simp
  have htarget : users.countP (fun u ↦ u.isAdmin && u.id = id) ≤ 1 := by
    have hle : users.countP (fun u ↦ u.isAdmin && u.id = id) ≤ (users.map UserRecord.id).count id := by
      rw [List.count, List.countP_map]
      apply List.countP_mono_left
      intro u _ hu
      simpa using (Bool.and_eq_true_iff.mp hu).2
    exact Nat.le_trans hle (List.nodup_iff_count_le_one.mp hids id)
  have hnone : (¬ ∃ u ∈ users.filter (fun u ↦ u.id ≠ id), u.isAdmin = true) ↔
      (users.filter (fun u ↦ u.id ≠ id)).countP UserRecord.isAdmin = 0 := by
    rw [List.countP_eq_zero]
    exact ⟨fun h u hu hadmin ↦ h ⟨u, hu, hadmin⟩, fun h ⟨u, hu, hadmin⟩ ↦ h u hu hadmin⟩
  have hpos : 0 < users.countP UserRecord.isAdmin := List.countP_pos_iff.mpr hadmin
  rw [hnone]
  unfold LocalUsers.lastAdmin
  rw [Bool.and_eq_true, decide_eq_true_eq, List.any_eq_true, ← List.countP_pos_iff]
  omega

/-- The guard of `handleDeleteUser`, asked of the rows as the DELETE finds them, lets it through. -/
def StillGuarded (s : State) (a : Act) : Prop :=
  ∀ i id, a = .delete i → s.calls i = some (.deleting id) → s.users.lastAdmin id = false

theorem Inv.insert (h : Inv s) (hk : Kept s t) {users : LocalUsers} {record : UserRecord}
    (hc : s.users.create record = some users) : Inv { t with users } := by
  obtain ⟨rfl, hnew⟩ := create_eq_some hc
  obtain ⟨u, hu, hadmin⟩ := h.admin
  refine h.rows hk ⟨u, List.mem_append_left _ hu, hadmin⟩ ?_
  rw [List.map_append, List.nodup_append']
  refine ⟨h.ids, List.nodup_singleton _, ?_⟩
  intro id hid hmem
  obtain ⟨v, hv, rfl⟩ := List.mem_map.mp hid
  exact hnew v hv (List.mem_singleton.mp hmem)

theorem Inv.remove (h : Inv s) (hk : Kept s t) {users : LocalUsers} {id : String}
    (hd : s.users.delete id = some users) (hlast : s.users.lastAdmin id = false) : Inv { t with users } := by
  rw [delete_eq_some hd]
  apply h.rows hk
  · by_contra hnone
    rw [(lastAdmin_iff h.admin h.ids).mpr hnone] at hlast
    cases hlast
  · exact h.ids.sublist (List.filter_sublist.map _)

theorem Inv.step (h : Inv s) (hok : StillGuarded s a) (hs : step s a = some t) : Inv t := by
  cases a with
  | requestDelete i caller id =>
    simp only [AdminGuard.step] at hs
    split at hs <;> cases hs
    exact h.kept (kept_enter guardDelete_ne_counted)
  | requestCreate i caller body drawn =>
    simp only [AdminGuard.step] at hs
    split at hs <;> cases hs
    exact h.kept (kept_enter (map_ne_counted fun _ _ h ↦ by cases h))
  | requestSetup i gate body drawn =>
    simp only [AdminGuard.step] at hs
    split at hs <;> cases hs
    exact h.kept (kept_enter (map_ne_counted fun _ _ h ↦ by cases h))
  | delete i =>
    simp only [AdminGuard.step] at hs
    split at hs
    · next id hc =>
      cases hs
      unfold State.deleteRow
      split
      · exact h.kept (kept_setCall fun _ h ↦ by cases h)
      · next hd => exact h.remove (kept_setCall fun _ h ↦ by cases h) hd (hok i id rfl hc)
    · cases hs
  | insert i =>
    simp only [AdminGuard.step] at hs
    split at hs
    · cases hs
      unfold State.insertRow
      split
      · exact h.kept (kept_setCall fun _ h ↦ by cases h)
      · next hc => exact h.insert (kept_setCall fun _ h ↦ by cases h) hc
    · cases hs
  | lock i =>
    simp only [AdminGuard.step] at hs
    split at hs
    · split at hs <;> cases hs
      exact h.kept ⟨rfl, rfl, (kept_setCall fun _ h ↦ by cases h).counted⟩
    · cases hs
  | count i =>
    simp only [AdminGuard.step] at hs
    split at hs
    · cases hs
      obtain ⟨u, hu, -⟩ := h.admin
      rw [if_neg (List.ne_nil_of_mem hu)]
      exact h.kept ((kept_setCall fun _ h ↦ by cases h).trans kept_unlock)
    · cases hs
  | commit i =>
    simp only [AdminGuard.step] at hs
    split at hs
    · next hc => exact absurd hc (h.uncounted i _)
    · cases hs
  | fail i =>
    simp only [AdminGuard.step] at hs
    split at hs
    · cases hs
    · cases hs
    · cases hs
      exact h.kept ((kept_setCall fun _ h ↦ by cases h).trans kept_unlock)

theorem not_admin_of_unguarded (h : Inv s) (hbad : ¬ StillGuarded s a) (hs : step s a = some t) :
    ¬ ∃ u ∈ t.users, u.isAdmin = true := by
  simp only [StillGuarded, not_forall, Bool.not_eq_false] at hbad
  obtain ⟨i, id, rfl, hc, hlast⟩ := hbad
  have htarget : s.users.any (fun u ↦ u.id = id) = true := by
    obtain ⟨u, hu, hid⟩ := List.any_eq_true.mp (Bool.and_eq_true_iff.mp hlast).1
    exact List.any_eq_true.mpr ⟨u, hu, (Bool.and_eq_true_iff.mp hid).2⟩
  simp only [AdminGuard.step, hc, State.deleteRow, LocalUsers.delete, htarget, if_true] at hs
  cases hs
  exact (lastAdmin_iff h.admin h.ids).mp hlast

def ann : UserRecord :=
  { id := "a1", username := "ann", passwordPHC := "", k8sUsername := "ann", k8sGroups := [], roles := ["admin"] }

def bob : UserRecord := { ann with id := "b1", username := "bob", k8sUsername := "bob" }

/-- Two administrators delete each other; both Lists come before both DELETEs. -/
def mutualDeletion : List Act :=
  [.requestDelete 0 ann.toUser "b1", .requestDelete 1 bob.toUser "a1", .delete 0, .delete 1]

theorem mutualDeletion_users : (exec step { users := [ann, bob] } mutualDeletion).map State.users = some [] := by
  decide

end KubeCenter.Server.AdminGuard
