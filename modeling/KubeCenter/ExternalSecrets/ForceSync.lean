import Mathlib.Data.Nat.Notation
import KubeCenter.Core.Runs
import KubeCenter.ExternalSecrets.Types

/-! One force-sync of an ExternalSecret: read it, compare its uid with the pinned one, patch it. -/

namespace KubeCenter.ExternalSecrets

open KubeCenter.Core

def inFlightWindow : ℤ := 30 * second

def maxPatchRetries : ℕ := 3

/-- An error of a request to the API server: what the predicates of `apierrors` answer for it, and its
reason, empty when unknown. -/
structure RequestError where
  isForbidden : Bool := false
  isNotFound : Bool := false
  isConflict : Bool := false
  isTimeout : Bool := false
  isServerTimeout : Bool := false
  isTooManyRequests : Bool := false
  isServiceUnavailable : Bool := false
  reason : String := ""
  deriving DecidableEq

def RequestError.notFound : RequestError := { isNotFound := true, reason := "NotFound" }

def RequestError.conflict : RequestError := { isConflict := true, reason := "Conflict" }

inductive PatchError
  | alreadyRefreshing
  | uidDrifted
  | request (err : RequestError)
  deriving DecidableEq

def isTransientPatchError : PatchError → Bool
  | .request err => err.isTimeout || err.isServerTimeout || err.isTooManyRequests || err.isServiceUnavailable
  | _ => false

def classifyPatchError (err : RequestError) : String :=
  if err.isTimeout || err.isServerTimeout then "transient_timeout"
  else if err.isTooManyRequests then "transient_throttled"
  else if err.isServiceUnavailable then "transient_unavailable"
  else if err.reason = "" then "patch_error"
  else "patch_error:" ++ err.reason.toLower

/-- What the API server holds under a namespace and name. `refreshTime` is `none` when the status has none
that parses, `forceSync` is the annotation's time in seconds. -/
structure LiveObject where
  uid : String
  assigned : uid ≠ ""
  resourceVersion : ℕ := 1
  refreshTime : Option ℤ := none
  forceSync : Option ℤ := none
  deriving DecidableEq

def LiveObject.inFlight (o : LiveObject) (now : ℤ) : Bool :=
  match o.refreshTime with
  | some parsed => decide (0 ≤ now - parsed ∧ now - parsed < inFlightWindow)
  | none => false

/-- A merge patch, with the metadata it may name of the object it is meant for. -/
structure MergePatch where
  uid : Option String := none
  resourceVersion : Option ℕ := none
  forceSync : ℤ
  deriving DecidableEq

namespace MergePatch

variable (patch : MergePatch) (o : LiveObject)

/-- The server's test: a patch that names another uid or version is refused with a conflict. -/
def admits : Bool := patch.uid.all (· = o.uid) && patch.resourceVersion.all (· = o.resourceVersion)

def apply : LiveObject :=
  { o with forceSync := some patch.forceSync, resourceVersion := o.resourceVersion + 1 }

end MergePatch

def forceSyncPatch (now : ℤ) : MergePatch := { forceSync := now / second }

theorem forceSyncPatch_admits (now : ℤ) (o : LiveObject) : (forceSyncPatch now).admits o = true := rfl

/-- A call of `patchForceSyncPinned` beside the object it is about. `touched` is history: the uids of the
objects that its patches were applied to. -/
inductive PatchCall
  | get (attempt : ℕ)
  | patch (attempt : ℕ) (uid : String) (patch : MergePatch)
  | waiting (attempt : ℕ) (uid : String) (err : PatchError)
  | done (uid : String) (err : Option PatchError)
  deriving DecidableEq

structure ForceSync where
  live : Option LiveObject
  now : ℤ
  call : PatchCall := .get 0
  touched : List String := []
  deriving DecidableEq

namespace ForceSync

/-- `get` and `patch` carry the error the caller sees in place of the server's reply; a patch `arrives` at
the server or is lost on the way. The last four are what others do. -/
inductive Act
  | get (err : Option RequestError)
  | patch (arrives : Bool) (err : Option RequestError)
  | backoff (cancelled : Bool)
  | delete
  | create (o : LiveObject)
  | update (o : LiveObject)
  | clock (now : ℤ)
  deriving DecidableEq

/-- What follows an attempt that ended in `err`. -/
def finish (attempt : ℕ) (uid : String) : Option PatchError → PatchCall
  | none => .done uid none
  | some err =>
    if isTransientPatchError err = true ∧ attempt + 1 < maxPatchRetries then .waiting attempt uid err
    else .done uid (some err)

variable (expectedUID : String) (s : ForceSync)

def afterGet (attempt : ℕ) : Option RequestError → PatchCall
  | some err => finish attempt "" (some (.request err))
  | none =>
    match s.live with
    | none => finish attempt "" (some (.request .notFound))
    | some o =>
      if expectedUID ≠ "" ∧ o.uid ≠ expectedUID then finish attempt o.uid (some .uidDrifted)
      else if o.inFlight s.now then finish attempt o.uid (some .alreadyRefreshing)
      else .patch attempt o.uid (forceSyncPatch s.now)

/-- The server's side of a patch, with its reply. -/
def serve (patch : MergePatch) : ForceSync × Option RequestError :=
  match s.live with
  | none => (s, some .notFound)
  | some o =>
    if patch.admits o then
      ({ s with live := some (patch.apply o), touched := s.touched ++ [o.uid] }, none)
    else (s, some .conflict)

def stepPatch (attempt : ℕ) (uid : String) (patch : MergePatch) (arrives : Bool) (err : Option RequestError) :
    Option ForceSync :=
  if arrives then
    some { (s.serve patch).1 with call := finish attempt uid ((err.or (s.serve patch).2).map .request) }
  else err.map (fun err ↦ { s with call := finish attempt uid (some (.request err)) })

def step : Act → Option ForceSync
  | .get err =>
    match s.call with
    | .get attempt => some { s with call := s.afterGet expectedUID attempt err }
    | _ => none
  | .patch arrives err =>
    match s.call with
    | .patch attempt uid patch => s.stepPatch attempt uid patch arrives err
    | _ => none
  | .backoff cancelled =>
    match s.call with
    | .waiting attempt uid err =>
      some { s with call := if cancelled then .done uid (some err) else .get (attempt + 1) }
    | _ => none
  | .delete => some { s with live := none }
  | .create o => if s.live = none then some { s with live := some o } else none
  | .update o => if s.live.map LiveObject.uid = some o.uid then some { s with live := some o } else none
  | .clock now => some { s with now }

def OnlyPinned : Prop := ∀ uid ∈ s.touched, uid = expectedUID

/-- A patch reaches the server while the object live there is the one its attempt has read, and a uid was
pinned. -/
def ReadStillLive : Act → Prop
  | .patch true _ =>
    match s.call, s.live with
    | .patch _ uid _, some o => expectedUID ≠ "" ∧ o.uid = uid
    | _, _ => True
  | _ => True

/-- What holds of every call, whatever others do: the object it is about to patch is, with a uid pinned, one of
that uid, and its patch names no object; and a call ends well only after a patch was applied. -/
structure Running : Prop where
  patch : ∀ attempt uid patch, s.call = .patch attempt uid patch →
    (expectedUID = "" ∨ uid = expectedUID) ∧ ∃ now, patch = forceSyncPatch now
  done : ∀ uid, s.call = .done uid none → s.touched ≠ []

variable {expectedUID : String} {s t : ForceSync} {attempt : ℕ} {uid : String}

theorem finish_ne_patch (err : Option PatchError) (n : ℕ) (u : String) (p : MergePatch) :
    finish attempt uid err ≠ .patch n u p := by
  cases err with
  | none => simp [finish]
  | some err =>
    simp only [finish]
    split <;> simp

theorem finish_some_ne_done (err : PatchError) (u : String) : finish attempt uid (some err) ≠ .done u none := by
  simp only [finish]
  split <;> simp

theorem afterGet_ne_done (err : Option RequestError) (u : String) :
    s.afterGet expectedUID attempt err ≠ .done u none := by
  unfold afterGet
  split
  · exact finish_some_ne_done _ u
  · split
    · exact finish_some_ne_done _ u
    · split
      · exact finish_some_ne_done _ u
      · split
        · exact finish_some_ne_done _ u
        · simp

/-- A `Get` leads on to a patch only of an object with the pinned uid. -/
theorem afterGet_patch {err : Option RequestError} {n : ℕ} {u : String} {p : MergePatch}
    (h : s.afterGet expectedUID attempt err = .patch n u p) :
    (expectedUID = "" ∨ u = expectedUID) ∧ p = forceSyncPatch s.now := by
  unfold afterGet at h
  split at h
  · exact absurd h (finish_ne_patch _ n u p)
  · split at h
    · exact absurd h (finish_ne_patch _ n u p)
    · rename_i o ho
      split at h
      · exact absurd h (finish_ne_patch _ n u p)
      · rename_i hpin
        split at h
        · exact absurd h (finish_ne_patch _ n u p)
        · cases h
          refine ⟨?_, rfl⟩
          by_cases he : expectedUID = ""
          · exact .inl he
          · exact .inr (by_contra fun hu ↦ hpin ⟨he, hu⟩)

/-- The server applies the patch to whatever object is live. -/
theorem serve_touched (now : ℤ) :
    (s.serve (forceSyncPatch now)).1.touched = s.touched ++ (s.live.map LiveObject.uid).toList := by
  unfold serve
  cases s.live with
  | none => simp
  | some o => simp [forceSyncPatch_admits]

theorem serve_reply (now : ℤ) (h : (s.serve (forceSyncPatch now)).2 = none) :
    (s.serve (forceSyncPatch now)).1.touched ≠ [] := by
  rw [serve_touched]
  unfold serve at h
  cases hl : s.live with
  | none => simp [hl] at h
  | some o => simp

theorem stepPatch_touched {now : ℤ} {arrives : Bool} {err : Option RequestError}
    (h : s.stepPatch attempt uid (forceSyncPatch now) arrives err = some t) :
    t.touched = s.touched ++ (if arrives then (s.live.map LiveObject.uid).toList else []) := by
  cases arrives with
  | true =>
    cases h
    exact serve_touched now
  | false =>
    obtain ⟨err, -, rfl⟩ := Option.map_eq_some_iff.mp h
    simp

theorem stepPatch_running {now : ℤ} {arrives : Bool} {err : Option RequestError}
    (h : s.stepPatch attempt uid (forceSyncPatch now) arrives err = some t) : t.Running expectedUID := by
  cases arrives with
  | true =>
    cases h
    refine ⟨fun n u p hp ↦ absurd hp (finish_ne_patch _ n u p), fun u hu ↦ ?_⟩
    have hreply : (s.serve (forceSyncPatch now)).2 = none := by
      cases herr : err.or (s.serve (forceSyncPatch now)).2 with
      | none => exact (Option.or_eq_none_iff.mp herr).2
      | some e =>
        rw [herr] at hu
        exact absurd hu (finish_some_ne_done _ u)
    exact serve_reply now hreply
  | false =>
    obtain ⟨err, -, rfl⟩ := Option.map_eq_some_iff.mp h
    constructor
    · intro n u p hp
      exact (finish_ne_patch (some (.request err)) n u p hp).elim
    · intro u hu
      exact (finish_some_ne_done (.request err) u hu).elim

/-- Only a patch that arrives touches an object. -/
theorem step_touched (hr : s.Running expectedUID) {a : Act} (h : s.step expectedUID a = some t)
    (ha : ∀ err, a ≠ .patch true err) : t.touched = s.touched := by
  cases a with
  | patch arrives err =>
    simp only [step] at h
    split at h
    · rename_i attempt uid patch hcall
      obtain ⟨now, rfl⟩ := (hr.patch _ _ _ hcall).2
      cases arrives with
      | true => exact absurd rfl (ha err)
      | false => simpa using stepPatch_touched h
    · cases h
  | get err | backoff cancelled =>
    simp only [step] at h
    split at h
    · cases h
      rfl
    · cases h
  | create o | update o =>
    simp only [step] at h
    split at h
    · cases h
      rfl
    · cases h
  | delete | clock now =>
    cases h
    rfl

theorem step_running (hr : s.Running expectedUID) {a : Act} (h : s.step expectedUID a = some t) :
    t.Running expectedUID := by
  cases a with
  | patch arrives err =>
    simp only [step] at h
    split at h
    · rename_i attempt uid patch hcall
      obtain ⟨now, rfl⟩ := (hr.patch _ _ _ hcall).2
      exact stepPatch_running h
    · cases h
  | get err =>
    simp only [step] at h
    split at h
    · cases h
      refine ⟨fun n u p hp ↦ ?_, fun u hu ↦ absurd hu (afterGet_ne_done err u)⟩
      have hget := afterGet_patch hp
      exact ⟨hget.1, _, hget.2⟩
    · cases h
  | backoff cancelled =>
    simp only [step] at h
    split at h
    · cases h
      constructor <;> cases cancelled <;> simp
    · cases h
  | create o | update o =>
    simp only [step] at h
    split at h
    · cases h
      exact ⟨hr.patch, hr.done⟩
    · cases h
  | delete | clock now =>
    cases h
    exact ⟨hr.patch, hr.done⟩

/-- The step that counts: a patch that arrives touches the object that is live, whichever that is. -/
theorem step_patch_touched (hr : s.Running expectedUID) {err : Option RequestError}
    (h : s.step expectedUID (.patch true err) = some t) :
    ∃ attempt uid patch, s.call = .patch attempt uid patch ∧ (expectedUID = "" ∨ uid = expectedUID) ∧
      t.touched = s.touched ++ (s.live.map LiveObject.uid).toList := by
  simp only [step] at h
  split at h
  · rename_i attempt uid patch hcall
    obtain ⟨hpin, now, rfl⟩ := hr.patch _ _ _ hcall
    exact ⟨attempt, uid, _, hcall, hpin, by simpa using stepPatch_touched h⟩
  · cases h

def init (live : Option LiveObject) (now : ℤ) : ForceSync := { live, now }

theorem running_init (live : Option LiveObject) (now : ℤ) : (init live now).Running expectedUID :=
  ⟨by simp [init], by simp [init]⟩

theorem step_onlyPinned (hr : s.Running expectedUID) (hp : s.OnlyPinned expectedUID) {a : Act}
    (hok : s.ReadStillLive expectedUID a) (h : s.step expectedUID a = some t) : t.OnlyPinned expectedUID := by
  intro u hu
  by_cases ha : ∃ err, a = .patch true err
  · obtain ⟨err, rfl⟩ := ha
    obtain ⟨attempt, uid, patch, hcall, hpin, ht⟩ := step_patch_touched hr h
    rw [ht, List.mem_append] at hu
    rcases hu with hu | hu
    · exact hp u hu
    · cases hl : s.live with
      | none => simp [hl] at hu
      | some o =>
        simp only [ReadStillLive, hcall, hl] at hok
        simp only [hl, Option.map_some, Option.toList_some, List.mem_singleton] at hu
        rw [hu, hok.2]
        exact hpin.resolve_left hok.1
  · rw [step_touched hr h (fun err he ↦ ha ⟨err, he⟩)] at hu
    exact hp u hu

theorem readStillLive_of_step (hr : s.Running expectedUID) {a : Act} (h : s.step expectedUID a = some t)
    (ht : t.OnlyPinned expectedUID) : s.ReadStillLive expectedUID a := by
  match a with
  | .patch true err =>
    obtain ⟨attempt, uid, patch, hcall, hpin, htouched⟩ := step_patch_touched hr h
    cases hl : s.live with
    | none => simp [ReadStillLive, hcall, hl]
    | some o =>
      simp only [ReadStillLive, hcall, hl]
      have ho : o.uid = expectedUID := ht o.uid (by simp [htouched, hl])
      -- the server assigned the uid, so a call without a pin cannot have touched its own
      have hne : expectedUID ≠ "" := fun he ↦ o.assigned (ho.trans he)
      exact ⟨hne, ho.trans (hpin.resolve_left hne).symm⟩
  | .patch false _ | .get _ | .backoff _ | .delete | .create _ | .update _ | .clock _ => trivial

/-- A call patches objects of the pinned uid only, whatever others do meanwhile, exactly when each of its patches
reaches the server while the object its attempt has read is still the live one. -/
theorem onlyPinned_iff (expectedUID : String) (live : Option LiveObject) (now : ℤ) (run : List Act) :
    Throughout (step expectedUID) (OnlyPinned expectedUID) (init live now) run ↔
      EachStep (step expectedUID) (ReadStillLive expectedUID) (init live now) run := by
  have hinit : (init live now).Running expectedUID ∧ (init live now).OnlyPinned expectedUID :=
    ⟨running_init live now, by simp [OnlyPinned, init]⟩
  apply throughout_iff_eachStep (I := fun s ↦ s.Running expectedUID ∧ s.OnlyPinned expectedUID)
  · intro s h
    exact h.2
  · intro s a t h hok ht
    exact ⟨step_running h.1 ht, step_onlyPinned h.1 h.2 hok ht⟩
  · intro s a t h hok ht hp
    exact hok (readStillLive_of_step h.1 ht hp)
  · exact hinit

def confirmed : LiveObject := { uid := "5d1c", assigned := by decide }

def recreated : LiveObject := { uid := "9fe0", assigned := by decide }

/-- Between the `Get` of a pinned object and the patch it is deleted and made anew. -/
def recreation : List Act := [.get none, .delete, .create recreated, .patch true none]

theorem not_onlyPinned :
    ¬ ∀ run, Throughout (step confirmed.uid) (OnlyPinned confirmed.uid) (init (some confirmed) 0) run := by
  intro h
  have hrun : (exec (step confirmed.uid) (init (some confirmed) 0) recreation).map touched = some [recreated.uid] := by
    decide
  obtain ⟨t, ht, htouched⟩ := Option.map_eq_some_iff.mp hrun
  have huid : recreated.uid = confirmed.uid := (h recreation).last ht recreated.uid (by simp [htouched])
  exact absurd huid (by decide)

/-- How the patch of one target can end: whether a patch was applied in the cluster, and the error returned. -/
def PatchResult (applied : Bool) (err : Option PatchError) : Prop := err = none → applied = true

/-- What the bulk worker is given: every call that has ended ended so. -/
theorem patchResult {live : Option LiveObject} {now : ℤ} {run : List Act} {err : Option PatchError}
    (h : exec (step expectedUID) (init live now) run = some t) (hd : t.call = .done uid err) :
    PatchResult (decide (t.touched ≠ [])) err := by
  have ht : t.Running expectedUID :=
    (throughout_of_step (fun _ _ _ hr ha ↦ step_running hr ha) (running_init live now) run).last h
  rintro rfl
  exact decide_eq_true (ht.done uid hd)

end ForceSync

end KubeCenter.ExternalSecrets
