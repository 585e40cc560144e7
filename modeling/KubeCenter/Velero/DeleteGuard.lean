import KubeCenter.Core.Runs
import KubeCenter.Velero.Deletion

/-! Which deletions can hit a backup that a restore is using. -/

namespace KubeCenter.Velero.DeleteGuard

open KubeCenter.Core Function
open KubeCenter.Auth (User)
open KubeCenter.Policy (getName getNamespace)
open Cluster (step)

/-- A restore of the namespace that names the backup and is not finished. -/
def InUse (ns name : String) (obj : Json) : Prop :=
  getNamespace obj = ns ∧ restoreBackup obj = name ∧ restorePhase obj ∈ openPhases

instance (ns name : String) (obj : Json) : Decidable (InUse ns name obj) := inferInstanceAs (Decidable (_ ∧ _))

/-- Every request to delete a backup was created knowing the restores, and while none of them used the backup. -/
def Safe (s : Cluster) : Prop :=
  ∀ d ∈ s.requests, d.known = true ∧ ∀ obj ∈ d.restores, ¬ InUse d.ns d.backupName obj

def init (now : ℕ) (restores : List Json) : Cluster := { now, restores }

/-- What the steps must meet: a guard has a list and, if a restore uses the backup, a listed one that it stops at; no
restore of a backup is created between a guard that has let its deletion pass and the request. -/
def Guarded (s : Cluster) : Act → Prop
  | .decide i => ∀ ns name data, s.calls i = .fetching (.deleteBackup ns name) (.returned data) →
      ∃ d, data = some d ∧ ((∃ obj ∈ s.restores, InUse ns name obj) → ∃ r ∈ d.restores, r.ns = ns ∧
        r.backupName = name ∧ r.phase ∈ ["New", "InProgress", "WaitingForPluginOperations"])
  | .create i accepted => accepted = true → ∀ input, s.calls i = .admitted input →
      ∀ j known, s.calls j ≠ .cleared input.ns input.backupName known
  | _ => True

section RestoreObject

variable (input : RestoreInput)

theorem get_setIf_ne {c : Prop} [Decidable c] {k l : String} {j : Json} {fields : Fields} (h : k ≠ l) :
    (setIf c k j fields).get l = fields.get l := by
  unfold setIf
  split
  · exact Fields.get_set_ne h
  · rfl

theorem restoreBackup_restoreObject : restoreBackup (restoreObject input) = input.backupName := by
  have hget : (restoreSpec input).get "backupName" =
      (setIf (input.backupName ≠ "") "backupName" (.string input.backupName) []).get "backupName" := by
    unfold restoreSpec
    simp only [get_setIf_ne (l := "backupName") (k := "scheduleName") (by decide),
      get_setIf_ne (l := "backupName") (k := "includedNamespaces") (by decide),
      get_setIf_ne (l := "backupName") (k := "excludedNamespaces") (by decide),
      get_setIf_ne (l := "backupName") (k := "namespaceMapping") (by decide),
      get_setIf_ne (l := "backupName") (k := "existingResourcePolicy") (by decide),
      get_setIf_ne (l := "backupName") (k := "restorePVs") (by decide)]
  have hspec : (restoreObject input).nested ["spec", "backupName"] = (restoreSpec input).get "backupName" := by
    simp [restoreObject, Json.nested, Json.fields, Fields.get]
  unfold restoreBackup Json.nestedString
  rw [hspec, hget]
  by_cases h : input.backupName = ""
  · simp [setIf, h, Fields.get]
  · simp [setIf, h]

theorem getNamespace_restoreObject : getNamespace (restoreObject input) = input.ns := by
  simp [getNamespace, Json.nestedString, restoreObject, Json.nested, Json.fields, Fields.get]

end RestoreObject

section Steps

variable {srv : Server} {s s' : Cluster} {a : Act} {i : ℕ}

/-- A step that leaves the restores and the requests alone and lets no deletion past its guard. -/
structure Quiet (s s' : Cluster) : Prop where
  restores : s'.restores = s.restores
  requests : s'.requests = s.requests
  cleared : ∀ j ns name known, s'.calls j = .cleared ns name known → s.calls j = .cleared ns name known

theorem Quiet.setCall (h : Quiet s s') {c : Call} (hc : ∀ ns name known, c ≠ .cleared ns name known) :
    Quiet s (s'.setCall i c) where
  restores := h.restores
  requests := h.requests
  cleared j ns name known hj := by
    by_cases hji : j = i
    · subst hji
      exact (hc ns name known ((update_self ..).symm.trans hj)).elim
    · exact h.cleared j ns name known ((update_of_ne hji ..).symm.trans hj)

theorem quiet_of_calls (hr : s'.restores = s.restores) (hq : s'.requests = s.requests) (hc : s'.calls = s.calls) :
    Quiet s s' :=
  ⟨hr, hq, fun j ns name known hj ↦ by rwa [hc] at hj⟩

theorem flightStep_quiet {stage : Stage} (h : s.flightStep srv i stage a = some s') : Quiet s s' := by
  unfold Cluster.flightStep at h
  split at h
  · split at h <;> cases h
    exact quiet_of_calls rfl rfl rfl
  · obtain ⟨lists, -, rfl⟩ := Option.map_eq_some_iff.mp h
    exact quiet_of_calls rfl rfl rfl
  · cases h
    exact quiet_of_calls rfl rfl rfl
  · cases h

theorem fetchStep_quiet {job : Job} {stage : Fetching} (h : s.fetchStep srv i job stage a = some s') : Quiet s s' := by
  have hquiet : Quiet s s := quiet_of_calls rfl rfl rfl
  unfold Cluster.fetchStep at h
  split at h
  · split at h <;> cases h <;> exact hquiet.setCall (by simp)
  · split at h <;> cases h
    · exact hquiet.setCall (by simp)
    · apply Quiet.setCall
      · exact quiet_of_calls rfl rfl rfl
      · simp
  · split at h <;> cases h
    apply Quiet.setCall
    · exact quiet_of_calls rfl rfl rfl
    · simp
  · split at h
    · exact flightStep_quiet h
    · cases h
  · split at h <;> cases h
    exact hquiet.setCall (by simp)
  · cases h

/-- What a step can do to the restores, the requests and the deletions past their guards. -/
inductive Effect (srv : Server) (s : Cluster) : Act → Cluster → Prop
  | quiet {a : Act} {s' : Cluster} (h : Quiet s s') : Effect srv s a s'
  | decide {i : ℕ} {ns name : String} {data : Option CachedVeleroData}
      (hi : s.calls i = .fetching (.deleteBackup ns name) (.returned data))
      (hcheck : checkDependents (data.map (·.restores)) ns name = .ok ()) :
      Effect srv s (.decide i) (s.setCall i (.cleared ns name data.isSome))
  | request {i : ℕ} {ns name : String} {known : Bool} (hi : s.calls i = .cleared ns name known) :
      Effect srv s (.request i true)
        ({ s with requests := s.requests ++ [s.requestFor srv ns name known] }.setCall i .changed)
  | create {i : ℕ} {input : RestoreInput} (hi : s.calls i = .admitted input) :
      Effect srv s (.create i true) ({ s with restores := s.restores ++ [restoreObject input] }.setCall i .changed)
  | update {place : ℕ} {old new : Json} (hold : s.restores[place]? = some old) (hnew : Updates old new) :
      Effect srv s (.updateRestore place new) { s with restores := s.restores.set place new }

theorem effect_of_callStep {c : Call} (hi : s.calls i = c) (ha : ∀ j, a = .decide j → j = i)
    (hr : ∀ j b, a = .request j b → j = i) (hc : ∀ j b, a = .create j b → j = i)
    (h : s.callStep srv i c a = some s') : Effect srv s a s' := by
  have hquiet : Quiet s s := quiet_of_calls rfl rfl rfl
  unfold Cluster.callStep at h
  split at h
  · cases h
    exact .quiet (hquiet.setCall (by simp))
  · split at h <;> cases h <;> exact .quiet (hquiet.setCall (by simp))
  · split at h <;> cases h <;> exact .quiet (hquiet.setCall (by simp))
  · next j =>
    cases ha j rfl
    split at h <;> cases h
    · exact .quiet (hquiet.setCall (by simp))
    · next hcheck => exact .decide hi hcheck
  · exact .quiet (fetchStep_quiet h)
  · next j accepted =>
    cases hr j accepted rfl
    split at h <;> cases h
    · next hb =>
      subst hb
      exact .request hi
    · exact .quiet (hquiet.setCall (by simp))
  · next j accepted =>
    cases hc j accepted rfl
    split at h <;> cases h
    · next hb =>
      subst hb
      exact .create hi
    · exact .quiet (hquiet.setCall (by simp))
  · cases h
    have hinvalidate : Quiet s s.invalidateCache := quiet_of_calls rfl rfl rfl
    exact .quiet (hinvalidate.setCall (by simp))
  · cases h

theorem step_effect (h : step srv s a = some s') : Effect srv s a s' := by
  have call : ∀ i, (∀ j, a = .decide j → j = i) → (∀ j b, a = .request j b → j = i) →
      (∀ j b, a = .create j b → j = i) → s.callStep srv i (s.calls i) a = some s' → Effect srv s a s' :=
    fun i hd hr hc hi ↦ effect_of_callStep rfl hd hr hc hi
  cases a
  case invalidateCache =>
    cases h
    exact .quiet (quiet_of_calls rfl rfl rfl)
  case advance d =>
    cases h
    exact .quiet (quiet_of_calls rfl rfl rfl)
  case updateRestore place new =>
    simp only [step] at h
    split at h
    · next old hold =>
      split at h <;> cases h
      next hnew => exact .update hold hnew
    · cases h
  all_goals exact call _ (by simp) (by simp) (by simp) h

/-- A deletion past its guard has seen a list, and no restore uses its backup. -/
structure Inv (s : Cluster) : Prop where
  safe : Safe s
  cleared : ∀ i ns name known, s.calls i = .cleared ns name known →
    known = true ∧ ∀ obj ∈ s.restores, ¬ InUse ns name obj

theorem inv_init (now : ℕ) (restores : List Json) : Inv (init now restores) where
  safe d hd := by cases hd
  cleared i ns name known hi := by cases hi

theorem Inv.quiet (hinv : Inv s) (h : Quiet s s') : Inv s' where
  safe d hd := hinv.safe d (by rwa [h.requests] at hd)
  cleared i ns name known hi := by
    rw [h.restores]
    exact hinv.cleared i ns name known (h.cleared i ns name known hi)

theorem Inv.setCall (hinv : Inv s) {c : Call}
    (hc : ∀ ns name known, c = .cleared ns name known → known = true ∧ ∀ obj ∈ s.restores, ¬ InUse ns name obj) :
    Inv (s.setCall i c) where
  safe := hinv.safe
  cleared j ns name known hj := by
    by_cases hji : j = i
    · subst hji
      exact hc ns name known ((update_self ..).symm.trans hj)
    · exact hinv.cleared j ns name known ((update_of_ne hji ..).symm.trans hj)

/-- A guard that lets a deletion pass has no list, or one without a restore that it would stop at. -/
theorem dependents_clear {restores : List Restore} {ns name : String}
    (h : checkDependents (some restores) ns name = .ok ()) {r : Restore} (hr : r ∈ restores) (hns : r.ns = ns)
    (hname : r.backupName = name) : r.phase ∉ ["New", "InProgress", "WaitingForPluginOperations"] := by
  intro hphase
  have hnone : dependentRestore restores ns name = none := by
    cases hd : dependentRestore restores ns name with
    | none => rfl
    | some restore => simp [checkDependents, hd] at h
  have hnot := List.find?_eq_none.mp hnone r hr
  simp only [List.mem_cons, List.not_mem_nil, or_false] at hphase
  apply hnot
  rcases hphase with hp | hp | hp <;> simp [hns, hname, hp]

theorem InUse.of_updates {ns name : String} {old new : Json} (hnew : Updates old new) (h : InUse ns name new) :
    InUse ns name old := by
  obtain ⟨hopen, -, -, hns, hbackup⟩ := hnew
  exact ⟨hns.symm.trans h.1, hbackup.symm.trans h.2.1, hopen⟩

theorem Inv.effect (hinv : Inv s) (hok : Guarded s a) (h : Effect srv s a s') : Inv s' := by
  cases h with
  | quiet h => exact hinv.quiet h
  | @decide i ns name data hi hcheck =>
    obtain ⟨d, rfl, hseen⟩ := hok ns name data hi
    refine hinv.setCall (fun ns' name' known hc ↦ ?_)
    cases hc
    refine ⟨rfl, fun obj hobj huse ↦ ?_⟩
    obtain ⟨r, hr, hns, hname, hphase⟩ := hseen ⟨obj, hobj, huse⟩
    exact dependents_clear hcheck hr hns hname hphase
  | @request i ns name known hi =>
    have hclear := hinv.cleared i ns name known hi
    have hinv' : Inv { s with requests := s.requests ++ [s.requestFor srv ns name known] } := by
      refine ⟨fun d hd ↦ ?_, hinv.cleared⟩
      rcases List.mem_append.mp hd with hd | hd
      · exact hinv.safe d hd
      · cases List.mem_singleton.mp hd
        exact hclear
    exact hinv'.setCall (by simp)
  | @create i input hi =>
    have hinv' : Inv { s with restores := s.restores ++ [restoreObject input] } := by
      refine ⟨hinv.safe, fun j ns name known hj ↦ ?_⟩
      obtain ⟨hknown, hfree⟩ := hinv.cleared j ns name known hj
      refine ⟨hknown, fun obj hobj huse ↦ ?_⟩
      rcases List.mem_append.mp hobj with hobj | hobj
      · exact hfree obj hobj huse
      · cases List.mem_singleton.mp hobj
        obtain ⟨hns, hname, -⟩ := huse
        rw [getNamespace_restoreObject] at hns
        rw [restoreBackup_restoreObject] at hname
        subst hns hname
        exact hok rfl input hi j known hj
    exact hinv'.setCall (by simp)
  | @update place old new hold hnew =>
    refine ⟨hinv.safe, fun j ns name known hj ↦ ?_⟩
    obtain ⟨hknown, hfree⟩ := hinv.cleared j ns name known hj
    refine ⟨hknown, fun obj hobj huse ↦ ?_⟩
    rcases List.mem_or_eq_of_mem_set hobj with hobj | rfl
    · exact hfree obj hobj huse
    · exact hfree old (List.mem_of_getElem? hold) (huse.of_updates hnew)

end Steps

instance (s : Cluster) : Decidable (Safe s) := inferInstanceAs (Decidable (∀ d ∈ s.requests, _ ∧ ∀ obj ∈ d.restores, _))

def openServer : Server where
  lib := ⟨fun _ ↦ none, fun _ ↦ none, fun _ ↦ none⟩
  canAccess _ _ _ _ := true
  clientFor _ := true
  stamp _ := "20260102030405"

def admin : User := ⟨"1", "admin", "local", "admin", [], []⟩

/-- A restore of the backup `nightly` in a phase. -/
def nightlyRestore (phase : String) : Json :=
  .object [
    ("metadata", .object [("name", .string "from-nightly"), ("namespace", .string "velero")]),
    ("spec", .object [("backupName", .string "nightly")]),
    ("status", .object [("phase", .string phase)])]

/-- A deletion of the backup `nightly` up to its guard, with nothing cached before, and from there to its end. -/
def fetchForNightly : List Act :=
  [.deleteBackup 0 (some admin) "velero" "nightly", .check 0, .enter 0, .reply 0 .backups (some []),
    .reply 0 .restores (some []), .reply 0 .schedules (some []), .reply 0 .backupStorageLocations (some []),
    .reply 0 .volumeSnapshotLocations (some []), .wait 0, .storeBack 0, .land 0]

def deleteNightly : List Act := fetchForNightly ++ [.decide 0, .request 0 true, .invalidate 0]

/-- The guard of a deletion is about to decide, and has a list. -/
def hasList (ns name : String) : Call → Bool
  | .fetching (.deleteBackup ns' name') (.returned data) => ns' = ns && name' = name && data.isSome
  | _ => false

theorem guarded_decide {s : Cluster} {i : ℕ} {ns name : String} (hlist : hasList ns name (s.calls i) = true)
    (hfree : ∀ obj ∈ s.restores, ¬ InUse ns name obj) : Guarded s (.decide i) := by
  intro ns' name' data hi
  rw [hi] at hlist
  simp only [hasList, Bool.and_eq_true, decide_eq_true_eq] at hlist
  obtain ⟨⟨rfl, rfl⟩, hdata⟩ := hlist
  obtain ⟨d, rfl⟩ := Option.isSome_iff_exists.mp hdata
  exact ⟨d, rfl, fun ⟨obj, hobj, huse⟩ ↦ (hfree obj hobj huse).elim⟩

end KubeCenter.Velero.DeleteGuard
