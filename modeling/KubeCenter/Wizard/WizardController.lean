import KubeCenter.Core.Runs

/-! The wizard controller of the mobile app, with the requests that it has in flight. -/

namespace KubeCenter.Wizard.WizardController

open KubeCenter.Core Function

inductive WizardStatus
  | formEditing
  | previewing
  | reviewing
  | applying
  | applied
  | failed
  deriving DecidableEq

structure WizardFieldError where
  field : String
  message : String

/-- A map from field paths to messages, in the order in which the paths came. -/
abbrev StepFieldErrors := List (String × String)

def StepFieldErrors.set (field message : String) : StepFieldErrors → StepFieldErrors
  | [] => [(field, message)]
  | (f, m) :: errors => if f = field then (f, message) :: errors else (f, m) :: set field message errors

structure WizardApplyOutcome where
  created : ℤ
  configured : ℤ
  unchanged : ℤ
  failed : ℤ
  firstResultName : String
  firstResultKind : String
  firstResultNamespace : Option String

def WizardApplyOutcome.allSucceeded (o : WizardApplyOutcome) : Bool := o.failed == 0

inductive PreviewResult
  | yaml (yaml : String)
  | errors (errors : List WizardFieldError)

/-- How an awaited request ends: with a value, with an `ApiError`, or with anything else that is thrown. -/
inductive Answer (α : Type)
  | ok (a : α)
  | apiError (message : String)
  | thrown (runtimeType : String)

/-- What a subclass overrides, with the cluster that its key pins it to. A step without errors has none in the map. -/
structure Overrides (Form Body : Type) where
  clusterId : String
  steps : ℕ
  form_and_review : 2 ≤ steps := by decide
  buildInitialForm : Form
  toPreviewBody : Form → Body
  errorRouter : String → Option ℤ
  validateLocally : Form → ℕ → StepFieldErrors := fun _ _ ↦ []

structure WizardState (Form : Type) where
  status : WizardStatus
  currentStep : ℕ
  form : Form
  stepErrors : ℕ → StepFieldErrors := fun _ ↦ []
  previewYaml : Option String := none
  applyOutcome : Option WizardApplyOutcome := none
  errorMessage : Option String := none
  clusterMismatch : Bool := false
  unrouted : StepFieldErrors := []

/-- A request in flight, with the dispatch it belongs to. -/
inductive Request (Form : Type)
  | preview (dispatchId : ℕ) (form : Form)
  | apply (dispatchId : ℕ) (yaml : String)

def Request.dispatchId {Form : Type} : Request Form → ℕ
  | preview dispatchId _ | apply dispatchId _ => dispatchId

/-- The two last fields are history: what the backend has rendered of which body, and what was posted to be applied,
with the form that was shown at the time. -/
structure State (Form Body : Type) where
  state : WizardState Form
  dispatchId : ℕ := 0
  disposed : Bool := false
  activeCluster : String
  requests : ℕ → Option (Request Form) := fun _ ↦ none
  made : ℕ := 0
  previews : List (Body × String) := []
  applies : List (Form × String) := []

inductive PinPhase
  | preEmission
  | postEmission

def PinPhase.message (clusterId : String) : PinPhase → String
  | preEmission =>
    "Cluster changed during this wizard. Aborted to avoid mutating the wrong cluster. " ++
      "Discard and re-open from the new cluster."
  | postEmission =>
    "Cluster changed mid-request. The resource WAS applied to the pinned cluster (" ++ clusterId ++
      "). Switch back to that cluster to view it; do NOT re-create it on the new cluster or you will end up with " ++
      "duplicates."

variable {Form Body : Type}

namespace Overrides

variable (w : Overrides Form Body)

/-- The step that owns a field path; the last form step takes what is routed behind it. -/
def owner (field : String) : Option ℕ :=
  (w.errorRouter field).map (fun step ↦ min step.toNat (w.steps - 2))

/-- The errors of each step, those of no step, and the lowest step with any. -/
abbrev Routed := (ℕ → StepFieldErrors) × StepFieldErrors × ℕ

def routeFieldError (acc : Routed) (err : WizardFieldError) : Routed :=
  match w.owner err.field with
  | none => (acc.1, acc.2.1.set err.field err.message, acc.2.2)
  | some step =>
    (update acc.1 step ((acc.1 step).set err.field err.message), acc.2.1, min step acc.2.2)

/-- The loop of `_routeFieldErrors`. -/
def routeFieldErrors (errors : List WizardFieldError) : Routed :=
  errors.foldl w.routeFieldError (fun _ ↦ [], [], w.steps - 2)

def initialState : WizardState Form where
  status := .formEditing
  currentStep := 0
  form := w.buildInitialForm

end Overrides

namespace State

variable (w : Overrides Form Body) (s : State Form Body)

/-- `_safeSet`. -/
def safeSet (state : WizardState Form) : State Form Body := if s.disposed then s else { s with state }

def bump : State Form Body := { s with dispatchId := s.dispatchId + 1 }

/-- What `_clusterStillPinned` does when it returns false. -/
def unpin (phase : PinPhase) : State Form Body :=
  s.safeSet { s.state with
    status := .failed, clusterMismatch := true, previewYaml := none, errorMessage := some (phase.message w.clusterId) }

def send (r : Request Form) : State Form Body :=
  { s with requests := update s.requests s.made (some r), made := s.made + 1 }

def fail (message : String) : State Form Body :=
  s.safeSet { s.state with status := .failed, errorMessage := some message }

def updateForm (f : Form → Form) : State Form Body :=
  s.bump.safeSet { s.state with
    status := if s.state.status = .previewing ∨ s.state.status = .reviewing then .formEditing else s.state.status
    form := f s.state.form
    stepErrors := update s.state.stepErrors s.state.currentStep []
    previewYaml := none
    applyOutcome := none
    errorMessage := none
    unrouted := [] }

/-- What `back` and `goToStep` do to get to a step. -/
def rewind (step : ℕ) : State Form Body :=
  s.bump.safeSet { s.state with
    currentStep := step
    status := .formEditing
    previewYaml := none
    applyOutcome := none
    errorMessage := none
    unrouted := []
    clusterMismatch := false }

/-- `goToStep` of a step that is not negative; it does nothing for one that is. -/
def goToStep (step : ℕ) : State Form Body :=
  if w.steps ≤ step then s
  else if s.state.currentStep < step then s
  else if s.state.status ≠ .formEditing then s.rewind step
  else s.safeSet { s.state with currentStep := step, errorMessage := none }

def back : State Form Body :=
  if s.state.currentStep = 0 then s else s.rewind (s.state.currentStep - 1)

/-- `_runPreview`, up to the request. -/
def runPreview : State Form Body :=
  if s.activeCluster ≠ w.clusterId then s.unpin w .preEmission
  else
    (s.bump.safeSet { s.state with
      status := .previewing, previewYaml := none, errorMessage := none, unrouted := [] }).send
        (.preview (s.dispatchId + 1) s.state.form)

def next : State Form Body :=
  if s.state.status = .previewing ∨ s.state.status = .applying then s
  else
    let localErrors := w.validateLocally s.state.form s.state.currentStep
    if localErrors ≠ [] then
      s.safeSet { s.state with stepErrors := update s.state.stepErrors s.state.currentStep localErrors }
    else if s.state.currentStep + 2 = w.steps then s.runPreview w
    else s.safeSet { s.state with currentStep := s.state.currentStep + 1, errorMessage := none }

/-- `_runPreview`, from the result on. -/
def previewed (dispatchId : ℕ) : Answer PreviewResult → State Form Body
  | .ok result =>
    if s.disposed = true ∨ dispatchId ≠ s.dispatchId then s
    else if s.activeCluster ≠ w.clusterId then s.unpin w .postEmission
    else
      match result with
      | .yaml yaml =>
        s.safeSet { s.state with
          status := .reviewing, currentStep := w.steps - 1, previewYaml := some yaml, stepErrors := fun _ ↦ [],
          unrouted := [] }
      | .errors errors =>
        let (byStep, unrouted, lowestStep) := w.routeFieldErrors errors
        s.safeSet { s.state with
          status := .formEditing, currentStep := lowestStep, stepErrors := byStep, unrouted, previewYaml := none }
  | .apiError message => if s.disposed = true ∨ dispatchId ≠ s.dispatchId then s else s.fail message
  | .thrown runtimeType =>
    if s.disposed = true ∨ dispatchId ≠ s.dispatchId then s
    else s.fail ("Preview failed unexpectedly (" ++ runtimeType ++
      "). Please retry. If this persists, check the backend logs.")

/-- `apply`, up to the request. -/
def apply : State Form Body :=
  match s.state.previewYaml with
  | none => s
  | some yaml =>
    if yaml = "" then s
    else if s.state.status = .applying then s
    else if s.activeCluster ≠ w.clusterId then s.unpin w .preEmission
    else
      { (s.bump.safeSet { s.state with status := .applying, applyOutcome := none, errorMessage := none }).send
          (.apply (s.dispatchId + 1) yaml) with
        applies := s.applies ++ [(s.state.form, yaml)] }

/-- `apply`, from the outcome on. -/
def applied (dispatchId : ℕ) : Answer WizardApplyOutcome → State Form Body
  | .ok outcome =>
    if s.disposed = true ∨ dispatchId ≠ s.dispatchId then s
    else if s.activeCluster ≠ w.clusterId then s.unpin w .postEmission
    else if outcome.allSucceeded = false then
      s.safeSet { s.state with
        status := .failed
        applyOutcome := some outcome
        errorMessage := some ("Apply partially failed: " ++ toString outcome.failed ++ " of " ++
          toString (outcome.created + outcome.configured + outcome.unchanged + outcome.failed) ++
          " document(s) did not apply. Review the YAML and retry.") }
    else s.safeSet { s.state with status := .applied, applyOutcome := some outcome }
  | .apiError message => if s.disposed = true ∨ dispatchId ≠ s.dispatchId then s else s.fail message
  | .thrown runtimeType =>
    if s.disposed = true ∨ dispatchId ≠ s.dispatchId then s
    else s.fail ("Apply failed unexpectedly (" ++ runtimeType ++ "). The resource may or may not exist on the " ++
      "cluster — check the resource list to confirm before retrying.")

def discardAndReset : State Form Body := s.bump.safeSet w.initialState

end State

/-- `previewed` and `applied` end a request; `dispose` is the provider's, `switchCluster` the rest of the app's. -/
inductive Act (Form : Type)
  | updateForm (f : Form → Form)
  | goToStep (step : ℕ)
  | next
  | back
  | retryPreview
  | apply
  | discardAndReset
  | previewed (k : ℕ) (answer : Answer PreviewResult)
  | applied (k : ℕ) (answer : Answer WizardApplyOutcome)
  | switchCluster (clusterId : String)
  | dispose

/-- What the backend rendered, with the body it was asked to render. -/
def rendered (w : Overrides Form Body) (form : Form) : Answer PreviewResult → List (Body × String)
  | .ok (.yaml yaml) => [(w.toPreviewBody form, yaml)]
  | _ => []

def step (w : Overrides Form Body) (s : State Form Body) : Act Form → Option (State Form Body)
  | .updateForm f => some (s.updateForm f)
  | .goToStep step => some (s.goToStep w step)
  | .next => some (s.next w)
  | .back => some s.back
  | .retryPreview => some (s.runPreview w)
  | .apply => some (s.apply w)
  | .discardAndReset => some (s.discardAndReset w)
  | .previewed k answer =>
    match s.requests k with
    | some (.preview dispatchId form) =>
      some ({ s with requests := update s.requests k none, previews := s.previews ++ rendered w form answer }.previewed
        w dispatchId answer)
    | _ => none
  | .applied k answer =>
    match s.requests k with
    | some (.apply dispatchId _) =>
      some ({ s with requests := update s.requests k none }.applied w dispatchId answer)
    | _ => none
  | .switchCluster activeCluster => some { s with activeCluster }
  | .dispose => some { s with disposed := true }

/-- `build`, which the operator opens on the cluster that the wizard is pinned to. -/
def start (w : Overrides Form Body) : State Form Body where
  state := w.initialState
  activeCluster := w.clusterId

/-- What the operator applies is what was rendered of the form as it stands. -/
structure Inv (w : Overrides Form Body) (s : State Form Body) : Prop where
  preview : ∀ yaml, s.state.previewYaml = some yaml → (w.toPreviewBody s.state.form, yaml) ∈ s.previews
  shown : s.state.previewYaml.isSome → s.state.status ≠ .formEditing ∧ s.state.status ≠ .previewing
  older : ∀ k r, s.requests k = some r → r.dispatchId ≤ s.dispatchId
  current : ∀ k form, s.requests k = some (.preview s.dispatchId form) → form = s.state.form
  unmade : ∀ k, s.made ≤ k → s.requests k = none
  applies : ∀ a ∈ s.applies, (w.toPreviewBody a.1, a.2) ∈ s.previews

variable {w : Overrides Form Body} {s t : State Form Body}

theorem inv_start (w : Overrides Form Body) : Inv w (start w) where
  preview yaml h := by cases h
  shown h := by cases h
  older k r h := by cases h
  current k form h := by cases h
  unmade _ _ := rfl
  applies _ h := absurd h List.not_mem_nil

/-- No request in flight is of the current dispatch. -/
def Superseded (s : State Form Body) : Prop := ∀ k r, s.requests k = some r → r.dispatchId < s.dispatchId

theorem Superseded.not_current (h : Superseded s) {k : ℕ} {form : Form} :
    s.requests k ≠ some (.preview s.dispatchId form) := fun hk ↦ absurd (h k _ hk) (Nat.lt_irrefl _)

theorem Inv.bump (h : Inv w s) : Inv w s.bump ∧ Superseded s.bump := by
  have hsuperseded : Superseded s.bump := fun k r hk ↦ Nat.lt_succ_of_le (h.older k r hk)
  refine ⟨⟨h.preview, h.shown, fun k r hk ↦ (hsuperseded k r hk).le, ?_, h.unmade, h.applies⟩, hsuperseded⟩
  exact fun k form hk ↦ absurd hk hsuperseded.not_current

theorem Inv.safeSet (h : Inv w s) {state : WizardState Form}
    (hpreviewed : ∀ yaml, state.previewYaml = some yaml → (w.toPreviewBody state.form, yaml) ∈ s.previews)
    (hshown : state.previewYaml.isSome → state.status ≠ .formEditing ∧ state.status ≠ .previewing)
    (hcurrent : ∀ k form, s.requests k = some (.preview s.dispatchId form) → form = state.form) :
    Inv w (s.safeSet state) := by
  unfold State.safeSet
  split
  · exact h
  · exact ⟨hpreviewed, hshown, h.older, hcurrent, h.unmade, h.applies⟩

/-- A state without a preview may be set as long as the form stays, or no preview is under way. -/
theorem Inv.safeSet_none (h : Inv w s) {state : WizardState Form} (hnone : state.previewYaml = none)
    (hform : state.form = s.state.form ∨ Superseded s) : Inv w (s.safeSet state) := by
  refine h.safeSet (fun yaml hyaml ↦ ?_) (fun hsome ↦ ?_) (fun k form hk ↦ ?_)
  · rw [hnone] at hyaml
    cases hyaml
  · rw [hnone] at hsome
    cases hsome
  · obtain hform | hsuperseded := hform
    · rw [hform]
      exact h.current k form hk
    · exact absurd hk hsuperseded.not_current

/-- Nor does a state matter that keeps preview and form, where the operator goes on looking at it. -/
theorem Inv.safeSet_kept (h : Inv w s) {state : WizardState Form} (hform : state.form = s.state.form)
    (hyaml : state.previewYaml = s.state.previewYaml)
    (hstatus : state.status = s.state.status ∨ state.status ≠ .formEditing ∧ state.status ≠ .previewing) :
    Inv w (s.safeSet state) := by
  refine h.safeSet ?_ ?_ ?_
  · rw [hyaml, hform]
    exact h.preview
  · rw [hyaml]
    obtain hstatus | hstatus := hstatus
    · rw [hstatus]
      exact h.shown
    · exact fun _ ↦ hstatus
  · rw [hform]
    exact h.current

theorem Inv.unpin (h : Inv w s) (phase : PinPhase) : Inv w (s.unpin w phase) := h.safeSet_none rfl (.inl rfl)

theorem Inv.fail (h : Inv w s) (message : String) : Inv w (s.fail message) :=
  h.safeSet_kept rfl rfl (.inr ⟨WizardStatus.noConfusion, WizardStatus.noConfusion⟩)

theorem Inv.rewind (h : Inv w s) (step : ℕ) : Inv w (s.rewind step) := h.bump.1.safeSet_none rfl (.inl rfl)

theorem safeSet_eq (s : State Form Body) (state : WizardState Form) :
    s.safeSet state = { s with state := (s.safeSet state).state } := by
  unfold State.safeSet
  split <;> rfl

theorem Inv.send (h : Inv w s) {r : Request Form} (hr : r.dispatchId = s.dispatchId)
    (hform : ∀ form, r = .preview s.dispatchId form → form = s.state.form) : Inv w (s.send r) := by
  have hrequests {k : ℕ} {r' : Request Form} (hk : (s.send r).requests k = some r') :
      r' = r ∨ s.requests k = some r' := by
    by_cases hkm : k = s.made
    · subst hkm
      left
      simpa [State.send] using hk.symm
    · right
      simpa [State.send, update_of_ne hkm] using hk
  refine ⟨h.preview, h.shown, fun k r' hk ↦ ?_, fun k form hk ↦ ?_, fun k hk ↦ ?_, h.applies⟩
  · obtain rfl | hk := hrequests hk
    · exact hr.le
    · exact h.older k r' hk
  · obtain hnew | hk := hrequests hk
    · exact hform form hnew.symm
    · exact h.current k form hk
  · have hkm : k ≠ s.made := Nat.ne_of_gt hk
    simpa [State.send, update_of_ne hkm] using h.unmade k (Nat.le_of_succ_le hk)

theorem Inv.goToStep (h : Inv w s) (step : ℕ) : Inv w (s.goToStep w step) := by
  unfold State.goToStep
  split
  · exact h
  · split
    · exact h
    · split
      · exact h.rewind step
      · exact h.safeSet_kept rfl rfl (.inl rfl)

theorem Inv.back (h : Inv w s) : Inv w s.back := by
  unfold State.back
  split
  · exact h
  · exact h.rewind _

theorem Inv.runPreview (h : Inv w s) : Inv w (s.runPreview w) := by
  unfold State.runPreview
  split
  · exact h.unpin _
  · have hset : Inv w (s.bump.safeSet { s.state with
        status := .previewing, previewYaml := none, errorMessage := none, unrouted := [] }) :=
      h.bump.1.safeSet_none rfl (.inl rfl)
    refine hset.send ?_ (fun form hform ↦ ?_)
    · rw [safeSet_eq]
      rfl
    · obtain ⟨-, rfl⟩ := Request.preview.inj hform
      unfold State.safeSet
      split <;> rfl

theorem Inv.next (h : Inv w s) : Inv w (s.next w) := by
  unfold State.next
  split
  · exact h
  · dsimp only
    split
    · exact h.safeSet_kept rfl rfl (.inl rfl)
    · split
      · exact h.runPreview
      · exact h.safeSet_kept rfl rfl (.inl rfl)

theorem Inv.apply (h : Inv w s) : Inv w (s.apply w) := by
  unfold State.apply
  split
  · exact h
  · next yaml hyaml =>
    split
    · exact h
    · split
      · exact h
      · split
        · exact h.unpin _
        · have hset : Inv w (s.bump.safeSet { s.state with
              status := .applying, applyOutcome := none, errorMessage := none }) :=
            h.bump.1.safeSet_kept rfl rfl (.inr ⟨WizardStatus.noConfusion, WizardStatus.noConfusion⟩)
          have hsend := hset.send (r := .apply (s.dispatchId + 1) yaml) (by rw [safeSet_eq]; rfl)
            (fun form hform ↦ by cases hform)
          refine { hsend with applies := fun a ha ↦ ?_ }
          have hpreviews : s.previews = ((s.bump.safeSet { s.state with
              status := .applying, applyOutcome := none, errorMessage := none }).send
                (.apply (s.dispatchId + 1) yaml)).previews := by
            rw [safeSet_eq]
            rfl
          obtain ha | ha := List.mem_append.mp ha
          · exact hpreviews ▸ h.applies a ha
          · obtain rfl := List.mem_singleton.mp ha
            exact hpreviews ▸ h.preview yaml hyaml

/-- A request that has ended is forgotten, and a preview that came with it remembered. -/
theorem Inv.ended (h : Inv w s) (k : ℕ) (previews : List (Body × String)) :
    Inv w { s with requests := update s.requests k none, previews := s.previews ++ previews } := by
  have hrequests {j : ℕ} {r : Request Form} (hj : update s.requests k none j = some r) : s.requests j = some r := by
    by_cases hjk : j = k
    · subst hjk
      simp at hj
    · rwa [update_of_ne hjk] at hj
  refine ⟨fun yaml hyaml ↦ List.mem_append_left _ (h.preview yaml hyaml), h.shown,
    fun j r hj ↦ h.older j r (hrequests hj), fun j form hj ↦ h.current j form (hrequests hj), fun j hj ↦ ?_,
    fun a ha ↦ List.mem_append_left _ (h.applies a ha)⟩
  by_cases hjk : j = k
  · subst hjk
    exact update_self ..
  · exact (update_of_ne hjk ..).trans (h.unmade j hj)

theorem Inv.previewed (h : Inv w s) {dispatchId : ℕ} (form : Form) {answer : Answer PreviewResult}
    (hform : dispatchId = s.dispatchId → form = s.state.form)
    (hrendered : ∀ p ∈ rendered w form answer, p ∈ s.previews) : Inv w (s.previewed w dispatchId answer) := by
  unfold State.previewed
  split
  · split
    · exact h
    · next hcurrent =>
      split
      · exact h.unpin _
      · split
        · next yaml =>
          obtain rfl : form = s.state.form := hform (by_contra (fun hne ↦ hcurrent (.inr hne)))
          refine h.safeSet (fun y hy ↦ ?_) (fun _ ↦ ⟨WizardStatus.noConfusion, WizardStatus.noConfusion⟩) h.current
          cases hy
          exact hrendered _ (List.mem_singleton.mpr rfl)
        · exact h.safeSet_none rfl (.inl rfl)
  · split
    · exact h
    · exact h.fail _
  · split
    · exact h
    · exact h.fail _

theorem Inv.applied (h : Inv w s) (dispatchId : ℕ) (answer : Answer WizardApplyOutcome) :
    Inv w (s.applied w dispatchId answer) := by
  unfold State.applied
  split
  · split
    · exact h
    · split
      · exact h.unpin _
      · split
        · exact h.safeSet_kept rfl rfl (.inr ⟨WizardStatus.noConfusion, WizardStatus.noConfusion⟩)
        · exact h.safeSet_kept rfl rfl (.inr ⟨WizardStatus.noConfusion, WizardStatus.noConfusion⟩)
  · split
    · exact h
    · exact h.fail _
  · split
    · exact h
    · exact h.fail _

theorem Inv.step {a : Act Form} (h : Inv w s) (ht : step w s a = some t) : Inv w t := by
  cases a with
  | updateForm f =>
    cases ht
    exact h.bump.1.safeSet_none rfl (.inr h.bump.2)
  | goToStep step =>
    cases ht
    exact h.goToStep step
  | next =>
    cases ht
    exact h.next
  | back =>
    cases ht
    exact h.back
  | retryPreview =>
    cases ht
    exact h.runPreview
  | apply =>
    cases ht
    exact h.apply
  | discardAndReset =>
    cases ht
    exact h.bump.1.safeSet_none rfl (.inr h.bump.2)
  | previewed k answer =>
    rw [WizardController.step] at ht
    split at ht
    · next dispatchId form hk =>
      cases ht
      refine (h.ended k (rendered w form answer)).previewed form (fun hid ↦ ?_) (fun p hp ↦ ?_)
      · subst hid
        exact h.current k form hk
      · exact List.mem_append_right _ hp
    · cases ht
  | applied k answer =>
    rw [WizardController.step] at ht
    split at ht
    · cases ht
      have hended := h.ended k []
      rw [List.append_nil] at hended
      exact hended.applied _ answer
    · cases ht
  | switchCluster activeCluster =>
    cases ht
    exact { h with }
  | dispose =>
    cases ht
    exact { h with }

/-- Every document that is posted to be applied was rendered of the form that the operator sees at that moment: no answer
to an earlier form, and no edit since, comes in between. -/
theorem applies_throughout (w : Overrides Form Body) (as : List (Act Form)) :
    Throughout (step w) (fun s ↦ ∀ a ∈ s.applies, (w.toPreviewBody a.1, a.2) ∈ s.previews) (start w) as :=
  (throughout_of_step (fun _ _ _ h ht ↦ h.step ht) (inv_start w) as).mono (fun _ h ↦ h.applies)

/-- The operator waits for a request that is in flight. -/
def Waiting (s : State Form Body) : Prop :=
  s.disposed = false →
  (s.state.status = .previewing → ∃ k form, s.requests k = some (.preview s.dispatchId form)) ∧
  (s.state.status = .applying → ∃ k yaml, s.requests k = some (.apply s.dispatchId yaml))

/-- The form is not edited while a document is being applied. -/
def Act.Settled (s : State Form Body) : Act Form → Prop
  | .updateForm _ => s.disposed = false → s.state.status ≠ .applying
  | _ => True

theorem waiting_of_status (h : s.disposed = false → s.state.status ≠ .previewing ∧ s.state.status ≠ .applying) :
    Waiting s :=
  fun hd ↦ ⟨fun hstatus ↦ absurd hstatus (h hd).1, fun hstatus ↦ absurd hstatus (h hd).2⟩

theorem waiting_safeSet {state : WizardState Form} (h : state.status ≠ .previewing ∧ state.status ≠ .applying) :
    Waiting (s.safeSet state) := by
  unfold State.safeSet
  split
  · next hd => exact fun hd' ↦ absurd (hd'.symm.trans hd) Bool.false_ne_true
  · exact waiting_of_status (fun _ ↦ h)

theorem Waiting.safeSet_kept (h : Waiting s) {state : WizardState Form} (hstatus : state.status = s.state.status) :
    Waiting (s.safeSet state) := by
  unfold State.safeSet
  split
  · exact h
  · intro hd
    rw [hstatus]
    exact h hd

/-- After a step that sends a request of its dispatch, that is what the operator waits for. -/
theorem waiting_send {r : Request Form} (hr : r.dispatchId = s.dispatchId)
    (hpreviewing : s.disposed = false → s.state.status = .previewing → ∃ form, r = .preview s.dispatchId form)
    (happlying : s.disposed = false → s.state.status = .applying → ∃ yaml, r = .apply s.dispatchId yaml) :
    Waiting (s.send r) := by
  intro hd
  refine ⟨fun hstatus ↦ ?_, fun hstatus ↦ ?_⟩
  · obtain ⟨form, rfl⟩ := hpreviewing hd hstatus
    exact ⟨s.made, form, update_self ..⟩
  · obtain ⟨yaml, rfl⟩ := happlying hd hstatus
    exact ⟨s.made, yaml, update_self ..⟩

theorem safeSet_status {state : WizardState Form} (hd : (s.safeSet state).disposed = false) :
    (s.safeSet state).state = state := by
  unfold State.safeSet at hd ⊢
  split
  · next hdisposed =>
    rw [if_pos hdisposed] at hd
    exact absurd (hd.symm.trans hdisposed) Bool.false_ne_true
  · rfl

theorem waiting_runPreview (s : State Form Body) : Waiting (s.runPreview w) := by
  unfold State.runPreview
  split
  · exact waiting_safeSet ⟨WizardStatus.noConfusion, WizardStatus.noConfusion⟩
  · have hid (state : WizardState Form) : (s.bump.safeSet state).dispatchId = s.dispatchId + 1 := by
      rw [safeSet_eq]
      rfl
    refine waiting_send (hid _).symm (fun _ _ ↦ ⟨s.state.form, by rw [hid]⟩) (fun hd hstatus ↦ ?_)
    rw [safeSet_status hd] at hstatus
    exact WizardStatus.noConfusion hstatus

theorem Waiting.next (h : Waiting s) : Waiting (s.next w) := by
  unfold State.next
  split
  · exact h
  · dsimp only
    split
    · exact h.safeSet_kept rfl
    · split
      · exact waiting_runPreview s
      · exact h.safeSet_kept rfl

theorem Waiting.apply (h : Waiting s) : Waiting (s.apply w) := by
  unfold State.apply
  split
  · exact h
  · next yaml _ =>
    split
    · exact h
    · split
      · exact h
      · split
        · exact waiting_safeSet ⟨WizardStatus.noConfusion, WizardStatus.noConfusion⟩
        · have hid (state : WizardState Form) : (s.bump.safeSet state).dispatchId = s.dispatchId + 1 := by
            rw [safeSet_eq]
            rfl
          have hwaiting : Waiting ((s.bump.safeSet { s.state with
              status := .applying, applyOutcome := none, errorMessage := none }).send
                (.apply (s.dispatchId + 1) yaml)) := by
            refine waiting_send (hid _).symm (fun hd hstatus ↦ ?_) (fun _ _ ↦ ⟨yaml, by rw [hid]⟩)
            rw [safeSet_status hd] at hstatus
            exact WizardStatus.noConfusion hstatus
          exact hwaiting

theorem Waiting.goToStep (h : Waiting s) (step : ℕ) : Waiting (s.goToStep w step) := by
  unfold State.goToStep
  split
  · exact h
  · split
    · exact h
    · split
      · exact waiting_safeSet ⟨WizardStatus.noConfusion, WizardStatus.noConfusion⟩
      · exact h.safeSet_kept rfl

theorem Waiting.back (h : Waiting s) : Waiting s.back := by
  unfold State.back
  split
  · exact h
  · exact waiting_safeSet ⟨WizardStatus.noConfusion, WizardStatus.noConfusion⟩

/-- A request that ends is not the one waited for, if it is of an earlier dispatch. -/
theorem Waiting.ended (h : Waiting s) {k : ℕ} {r : Request Form} (hk : s.requests k = some r)
    (hid : r.dispatchId ≠ s.dispatchId) (previews : List (Body × String)) :
    Waiting { s with requests := update s.requests k none, previews } := by
  intro hd
  have hother {j : ℕ} {r' : Request Form} (hj : s.requests j = some r') (hid' : r'.dispatchId = s.dispatchId) :
      update s.requests k none j = some r' := by
    have hjk : j ≠ k := by
      rintro rfl
      exact hid (Option.some.inj (hk.symm.trans hj) ▸ hid')
    exact (update_of_ne hjk ..).trans hj
  obtain ⟨hpreviewing, happlying⟩ := h hd
  refine ⟨fun hstatus ↦ ?_, fun hstatus ↦ ?_⟩
  · obtain ⟨j, form, hj⟩ := hpreviewing hstatus
    exact ⟨j, form, hother hj rfl⟩
  · obtain ⟨j, yaml, hj⟩ := happlying hstatus
    exact ⟨j, yaml, hother hj rfl⟩

theorem waiting_previewed {dispatchId : ℕ} (answer : Answer PreviewResult)
    (h : dispatchId ≠ s.dispatchId → Waiting s) : Waiting (s.previewed w dispatchId answer) := by
  have hlate (hlate : s.disposed = true ∨ dispatchId ≠ s.dispatchId) : Waiting s := by
    obtain hdisposed | hid := hlate
    · exact fun hd ↦ absurd (hd.symm.trans hdisposed) Bool.false_ne_true
    · exact h hid
  unfold State.previewed
  split
  · split
    · next hl => exact hlate hl
    · split
      · exact waiting_safeSet ⟨WizardStatus.noConfusion, WizardStatus.noConfusion⟩
      · split
        · exact waiting_safeSet ⟨WizardStatus.noConfusion, WizardStatus.noConfusion⟩
        · exact waiting_safeSet ⟨WizardStatus.noConfusion, WizardStatus.noConfusion⟩
  · split
    · next hl => exact hlate hl
    · exact waiting_safeSet ⟨WizardStatus.noConfusion, WizardStatus.noConfusion⟩
  · split
    · next hl => exact hlate hl
    · exact waiting_safeSet ⟨WizardStatus.noConfusion, WizardStatus.noConfusion⟩

theorem waiting_applied {dispatchId : ℕ} (answer : Answer WizardApplyOutcome)
    (h : dispatchId ≠ s.dispatchId → Waiting s) : Waiting (s.applied w dispatchId answer) := by
  have hlate (hlate : s.disposed = true ∨ dispatchId ≠ s.dispatchId) : Waiting s := by
    obtain hdisposed | hid := hlate
    · exact fun hd ↦ absurd (hd.symm.trans hdisposed) Bool.false_ne_true
    · exact h hid
  unfold State.applied
  split
  · split
    · next hl => exact hlate hl
    · split
      · exact waiting_safeSet ⟨WizardStatus.noConfusion, WizardStatus.noConfusion⟩
      · split
        · exact waiting_safeSet ⟨WizardStatus.noConfusion, WizardStatus.noConfusion⟩
        · exact waiting_safeSet ⟨WizardStatus.noConfusion, WizardStatus.noConfusion⟩
  · split
    · next hl => exact hlate hl
    · exact waiting_safeSet ⟨WizardStatus.noConfusion, WizardStatus.noConfusion⟩
  · split
    · next hl => exact hlate hl
    · exact waiting_safeSet ⟨WizardStatus.noConfusion, WizardStatus.noConfusion⟩

theorem waiting_updateForm (hok : s.disposed = false → s.state.status ≠ .applying) (f : Form → Form) :
    Waiting (s.updateForm f) := by
  unfold State.updateForm State.safeSet
  split
  · next hd => exact fun hd' ↦ absurd (hd'.symm.trans hd) Bool.false_ne_true
  · refine waiting_of_status (fun hd ↦ ?_)
    dsimp only
    split
    · exact ⟨WizardStatus.noConfusion, WizardStatus.noConfusion⟩
    · next hstatus => exact ⟨fun hp ↦ hstatus (.inl hp), hok hd⟩

/-- An edit while a document is being applied leaves the operator waiting for nothing. -/
theorem Inv.not_waiting (h : Inv w s) (hd : s.disposed = false) (hstatus : s.state.status = .applying)
    (f : Form → Form) : ¬ Waiting (s.updateForm f) := by
  intro hwaiting
  have hnot : ¬ s.bump.disposed = true := by
    show ¬ s.disposed = true
    rw [hd]
    exact Bool.false_ne_true
  unfold State.updateForm State.safeSet at hwaiting
  rw [if_neg hnot, if_neg (by rw [hstatus]; simp)] at hwaiting
  obtain ⟨k, yaml, hk⟩ := (hwaiting hd).2 hstatus
  exact absurd (h.bump.2 k _ hk) (Nat.lt_irrefl _)

theorem Waiting.step {a : Act Form} (h : Waiting s) (hok : a.Settled s) (ht : step w s a = some t) : Waiting t := by
  cases a with
  | updateForm f =>
    cases ht
    exact waiting_updateForm hok f
  | goToStep step =>
    cases ht
    exact h.goToStep step
  | next =>
    cases ht
    exact h.next
  | back =>
    cases ht
    exact h.back
  | retryPreview =>
    cases ht
    exact waiting_runPreview s
  | apply =>
    cases ht
    exact h.apply
  | discardAndReset =>
    cases ht
    exact waiting_safeSet ⟨WizardStatus.noConfusion, WizardStatus.noConfusion⟩
  | previewed k answer =>
    rw [WizardController.step] at ht
    split at ht
    · next hk =>
      cases ht
      exact waiting_previewed answer (fun hid ↦ h.ended hk hid _)
    · cases ht
  | applied k answer =>
    rw [WizardController.step] at ht
    split at ht
    · next hk =>
      cases ht
      exact waiting_applied answer (fun hid ↦ h.ended hk hid _)
    · cases ht
  | switchCluster activeCluster =>
    cases ht
    exact h
  | dispose =>
    cases ht
    exact fun hd ↦ absurd hd.symm Bool.false_ne_true

/-- The wizard is never stuck on its spinner, in the runs in which the form stays as it is while a document is applied, and
in no others. -/
theorem waiting_throughout_iff (w : Overrides Form Body) (as : List (Act Form)) :
    Throughout (step w) Waiting (start w) as ↔ EachStep (step w) (fun s a ↦ a.Settled s) (start w) as := by
  refine throughout_iff_eachStep (I := fun s ↦ Inv w s ∧ Waiting s) (fun _ h ↦ h.2) (fun s a t h hok ht ↦ ?_)
    (fun s a t h hbad ht ↦ ?_) ⟨inv_start w, ?_⟩ as
  · exact ⟨h.1.step ht, h.2.step hok ht⟩
  · cases a with
    | updateForm f =>
      cases ht
      rw [Act.Settled, Classical.not_imp, not_not] at hbad
      exact h.1.not_waiting hbad.1 hbad.2 f
    | _ => exact absurd trivial hbad
  · exact waiting_of_status (fun _ ↦ ⟨WizardStatus.noConfusion, WizardStatus.noConfusion⟩)

/-- The message of the last error for a field path. -/
def lastMessage (errors : List WizardFieldError) (field : String) : Option String :=
  (errors.reverse.find? (fun err ↦ err.field = field)).map WizardFieldError.message

theorem lookup_set (field message f : String) (errors : StepFieldErrors) :
    (errors.set field message).lookup f = if f = field then some message else errors.lookup f := by
  induction errors with
  | nil =>
    by_cases hf : f = field
    · simp [StepFieldErrors.set, hf]
    · simp [StepFieldErrors.set, hf, List.lookup_cons, beq_eq_false_iff_ne.mpr hf]
  | cons e errors ih =>
    obtain ⟨g, m⟩ := e
    unfold StepFieldErrors.set
    split
    · next hg =>
      subst hg
      by_cases hf : f = g
      · simp [hf]
      · simp [List.lookup_cons, hf, beq_eq_false_iff_ne.mpr hf]
    · next hg =>
      by_cases hf : f = g
      · subst hf
        simp [hg]
      · simp only [List.lookup_cons, beq_eq_false_iff_ne.mpr hf, ih]

theorem lastMessage_concat (errors : List WizardFieldError) (err : WizardFieldError) (field : String) :
    lastMessage (errors ++ [err]) field = if field = err.field then some err.message else lastMessage errors field := by
  by_cases hf : field = err.field
  · simp [lastMessage, hf]
  · simp [lastMessage, hf, Ne.symm hf]

/-- No field error of the server is lost, and none is shown at a step that does not own it: the last message for each path
is at the step that owns the path or in the banner, and the operator is taken back to the lowest step with any. -/
theorem routeFieldErrors_exact (w : Overrides Form Body) (errors : List WizardFieldError) :
    (∀ step field, ((w.routeFieldErrors errors).1 step).lookup field =
      if w.owner field = some step then lastMessage errors field else none) ∧
    (∀ field, (w.routeFieldErrors errors).2.1.lookup field =
      if w.owner field = none then lastMessage errors field else none) ∧
    (w.routeFieldErrors errors).2.2 ∈ (w.steps - 2) :: errors.filterMap (fun err ↦ w.owner err.field) ∧
    ∀ step ∈ (w.steps - 2) :: errors.filterMap (fun err ↦ w.owner err.field),
      (w.routeFieldErrors errors).2.2 ≤ step := by
  induction errors using List.reverseRecOn with
  | nil =>
    refine ⟨fun step field ↦ ?_, fun field ↦ ?_, List.mem_singleton.mpr rfl, fun step hstep ↦ ?_⟩
    · exact (ite_self none).symm
    · exact (ite_self none).symm
    · rw [List.mem_singleton.mp hstep]
      exact le_rfl
  | append_singleton errors err ih =>
    obtain ⟨hstep, hunrouted, hmem, hle⟩ := ih
    rw [Overrides.routeFieldErrors, List.foldl_concat, ← Overrides.routeFieldErrors]
    generalize w.routeFieldErrors errors = acc at hstep hunrouted hmem hle ⊢
    rw [List.filterMap_append, ← List.cons_append]
    unfold Overrides.routeFieldError
    cases howner : w.owner err.field with
    | none =>
      refine ⟨fun step field ↦ ?_, fun field ↦ ?_, ?_, ?_⟩
      · rw [hstep, lastMessage_concat]
        by_cases hf : field = err.field
        · simp [hf, howner]
        · simp [hf]
      · rw [lookup_set, hunrouted, lastMessage_concat]
        by_cases hf : field = err.field
        · simp [hf, howner]
        · simp [hf]
      · simpa [howner] using hmem
      · simpa [howner] using hle
    | some owner =>
      refine ⟨fun step field ↦ ?_, fun field ↦ ?_, ?_, fun step hmem' ↦ ?_⟩
      · rw [lastMessage_concat]
        by_cases hf : field = err.field
        · subst hf
          by_cases hs : step = owner
          · subst hs
            simp [lookup_set, howner]
          · simp [update_of_ne hs, hstep, howner, Ne.symm hs]
        · by_cases hs : step = owner
          · subst hs
            simp [lookup_set, hf, hstep]
          · simp [update_of_ne hs, hstep, hf]
      · rw [hunrouted, lastMessage_concat]
        by_cases hf : field = err.field
        · simp [hf, howner]
        · simp [hf]
      · have hsingle : [err].filterMap (fun err ↦ w.owner err.field) = [owner] := by simp [howner]
        rw [hsingle]
        obtain hle' | hle' := Nat.le_total owner acc.2.2
        · exact List.mem_append_right _ (List.mem_singleton.mpr (Nat.min_eq_left hle'))
        · refine List.mem_append_left _ ?_
          show min owner acc.2.2 ∈ _
          rw [Nat.min_eq_right hle']
          exact hmem
      · have hsingle : [err].filterMap (fun err ↦ w.owner err.field) = [owner] := by simp [howner]
        rw [hsingle] at hmem'
        obtain hmem' | hmem' := List.mem_append.mp hmem'
        · exact (Nat.min_le_right _ _).trans (hle step hmem')
        · exact (List.mem_singleton.mp hmem').symm ▸ Nat.min_le_left _ _

/-- What the screen lets the operator do: the form of the step that is shown, the chips of the steps before it, and the
buttons of the footer. The rest of the app and the network do what they want. -/
def Act.Offered (w : Overrides Form Body) (s : State Form Body) : Act Form → Prop
  | .updateForm _ => s.state.currentStep + 1 < w.steps
  | .goToStep step => step < s.state.currentStep
  | .next => s.state.status = .formEditing
  | .back => s.state.status = .reviewing ∨ s.state.status = .formEditing ∧ s.state.currentStep ≠ 0
  | .retryPreview => s.state.status = .failed ∧ s.state.clusterMismatch = false ∧ s.state.previewYaml = none
  | .apply =>
    s.state.status = .reviewing ∨
    s.state.status = .failed ∧ s.state.clusterMismatch = false ∧ s.state.previewYaml.isSome
  | .discardAndReset => s.state.status = .failed ∧ s.state.clusterMismatch = true
  | .previewed _ _ | .applied _ _ | .switchCluster _ | .dispose => True

/-- The step that is shown exists; the form is edited before the review step, and what was rendered is reviewed, applied
and retried on it. -/
structure Shown (w : Overrides Form Body) (state : WizardState Form) : Prop where
  exists_step : state.currentStep < w.steps
  form : state.status = .formEditing → state.currentStep + 1 < w.steps
  review : state.status = .reviewing ∨ state.status = .applying ∨ state.status = .applied ∨
    state.status = .failed ∧ state.previewYaml.isSome → state.currentStep + 1 = w.steps

/-- What the operator is shown while a request is in flight. -/
def Request.status : Request Form → WizardStatus
  | preview _ _ => .previewing
  | apply _ _ => .applying

/-- A request of the current dispatch is what the status is about, and there is one at most. -/
structure Screens (w : Overrides Form Body) (s : State Form Body) : Prop where
  shown : Shown w s.state
  older : ∀ k r, s.requests k = some r → r.dispatchId ≤ s.dispatchId
  previewing : s.disposed = false → ∀ k form, s.requests k = some (.preview s.dispatchId form) →
    s.state.status = .previewing
  applying : s.disposed = false → ∀ k yaml, s.requests k = some (.apply s.dispatchId yaml) →
    s.state.status = .applying
  single : ∀ j k r r', s.requests j = some r → s.requests k = some r' → r.dispatchId = s.dispatchId →
    r'.dispatchId = s.dispatchId → j = k
  unmade : ∀ k, s.made ≤ k → s.requests k = none

theorem Superseded.ne (h : Superseded s) (k : ℕ) (r : Request Form) (hk : s.requests k = some r) :
    r.dispatchId ≠ s.dispatchId := Nat.ne_of_lt (h k r hk)

theorem Screens.bump (h : Screens w s) : Screens w s.bump ∧ Superseded s.bump := by
  have hsuperseded : Superseded s.bump := fun k r hk ↦ Nat.lt_succ_of_le (h.older k r hk)
  refine ⟨⟨h.shown, fun k r hk ↦ (hsuperseded k r hk).le, fun _ k form hk ↦ ?_, fun _ k yaml hk ↦ ?_,
    fun j k r r' hj _ hr ↦ ?_, h.unmade⟩, hsuperseded⟩
  · exact absurd rfl (hsuperseded.ne k _ hk)
  · exact absurd rfl (hsuperseded.ne k _ hk)
  · exact absurd hr (hsuperseded.ne j r hj)

/-- The state may change when no request is waited for, or the status stays. -/
theorem Screens.safeSet (h : Screens w s) {state : WizardState Form} (hshown : Shown w state)
    (hstatus : s.disposed = false → (∀ k r, s.requests k = some r → r.dispatchId ≠ s.dispatchId) ∨
      state.status = s.state.status) : Screens w (s.safeSet state) := by
  unfold State.safeSet
  split
  · exact h
  · next hd =>
    refine ⟨hshown, h.older, fun hd' k form hk ↦ ?_, fun hd' k yaml hk ↦ ?_, h.single, h.unmade⟩
    · obtain hnone | hstatus := hstatus hd'
      · exact absurd rfl (hnone k _ hk)
      · exact hstatus.trans (h.previewing hd' k form hk)
    · obtain hnone | hstatus := hstatus hd'
      · exact absurd rfl (hnone k _ hk)
      · exact hstatus.trans (h.applying hd' k yaml hk)

/-- Where nothing is being awaited, no request is of the current dispatch. -/
theorem Screens.idle (h : Screens w s) (hd : s.disposed = false)
    (hstatus : s.state.status ≠ .previewing ∧ s.state.status ≠ .applying) (k : ℕ) (r : Request Form)
    (hk : s.requests k = some r) : r.dispatchId ≠ s.dispatchId := by
  rintro hid
  cases r with
  | preview dispatchId form =>
    obtain rfl : dispatchId = s.dispatchId := hid
    exact hstatus.1 (h.previewing hd k form hk)
  | apply dispatchId yaml =>
    obtain rfl : dispatchId = s.dispatchId := hid
    exact hstatus.2 (h.applying hd k yaml hk)

theorem Screens.send (h : Screens w s) (hsuperseded : Superseded s) {r : Request Form}
    (hr : r.dispatchId = s.dispatchId)
    (hstatus : s.disposed = false → s.state.status = r.status) : Screens w (s.send r) := by
  have hrequests {k : ℕ} {r' : Request Form} (hk : (s.send r).requests k = some r') :
      k = s.made ∧ r' = r ∨ s.requests k = some r' := by
    by_cases hkm : k = s.made
    · subst hkm
      exact .inl ⟨rfl, by simpa [State.send] using hk.symm⟩
    · right
      simpa [State.send, update_of_ne hkm] using hk
  refine ⟨h.shown, fun k r' hk ↦ ?_, fun hd k form hk ↦ ?_, fun hd k yaml hk ↦ ?_, fun j k r₁ r₂ hj hk hr₁ hr₂ ↦ ?_,
    fun k hk ↦ ?_⟩
  · obtain ⟨-, rfl⟩ | hk := hrequests hk
    · exact hr.le
    · exact h.older k r' hk
  · obtain ⟨-, hnew⟩ | hk := hrequests hk
    · exact (hstatus hd).trans (congrArg Request.status hnew.symm)
    · exact absurd rfl (hsuperseded.ne k _ hk)
  · obtain ⟨-, hnew⟩ | hk := hrequests hk
    · exact (hstatus hd).trans (congrArg Request.status hnew.symm)
    · exact absurd rfl (hsuperseded.ne k _ hk)
  · obtain ⟨rfl, -⟩ | hj := hrequests hj
    · obtain ⟨rfl, -⟩ | hk := hrequests hk
      · rfl
      · exact absurd hr₂ (hsuperseded.ne k r₂ hk)
    · exact absurd hr₁ (hsuperseded.ne j r₁ hj)
  · have hkm : k ≠ s.made := Nat.ne_of_gt hk
    simpa [State.send, update_of_ne hkm] using h.unmade k (Nat.le_of_succ_le hk)

theorem Shown.of_failed (h : Shown w s.state) {state : WizardState Form} (hstatus : state.status = .failed)
    (hstep : state.currentStep = s.state.currentStep)
    (hyaml : state.previewYaml.isSome → state.currentStep + 1 = w.steps) : Shown w state := by
  refine ⟨hstep ▸ h.exists_step, fun hform ↦ ?_, fun hreview ↦ ?_⟩
  · rw [hstatus] at hform
    cases hform
  · obtain hr | hr | hr | hr := hreview
    · cases hstatus.symm.trans hr
    · cases hstatus.symm.trans hr
    · cases hstatus.symm.trans hr
    · exact hyaml hr.2

theorem Shown.of_form {state : WizardState Form} (hstatus : state.status = .formEditing)
    (hstep : state.currentStep + 1 < w.steps) : Shown w state := by
  refine ⟨Nat.lt_of_succ_lt hstep, fun _ ↦ hstep, fun hreview ↦ ?_⟩
  obtain hr | hr | hr | ⟨hr, -⟩ := hreview
  all_goals cases hstatus.symm.trans hr

theorem Shown.of_review {state : WizardState Form} (hstatus : state.status ≠ .formEditing)
    (hstep : state.currentStep + 1 = w.steps) : Shown w state :=
  ⟨hstep ▸ Nat.lt_succ_self _, fun hform ↦ absurd hform hstatus, fun _ ↦ hstep⟩

theorem Screens.unpin (h : Screens w s)
    (hidle : s.disposed = false → ∀ k r, s.requests k = some r → r.dispatchId ≠ s.dispatchId) (phase : PinPhase) :
    Screens w (s.unpin w phase) :=
  h.safeSet (h.shown.of_failed rfl rfl (fun hsome ↦ Bool.noConfusion hsome)) (fun hd ↦ .inl (hidle hd))

theorem Screens.rewind (h : Screens w s) {step : ℕ} (hstep : step + 1 < w.steps) : Screens w (s.rewind step) :=
  h.bump.1.safeSet (.of_form rfl hstep) (fun _ ↦ .inl h.bump.2.ne)

theorem Screens.updateForm (h : Screens w s) (hstep : s.state.currentStep + 1 < w.steps) (f : Form → Form) :
    Screens w (s.updateForm f) := by
  refine h.bump.1.safeSet ⟨h.shown.exists_step, fun _ ↦ hstep, fun hreview ↦ ?_⟩ (fun _ ↦ .inl h.bump.2.ne)
  have hne : s.state.currentStep + 1 ≠ w.steps := Nat.ne_of_lt hstep
  dsimp only at hreview
  split at hreview
  · simp at hreview
  · obtain hr | hr | hr | ⟨-, hr⟩ := hreview
    · exact absurd (h.shown.review (.inl hr)) hne
    · exact absurd (h.shown.review (.inr (.inl hr))) hne
    · exact absurd (h.shown.review (.inr (.inr (.inl hr)))) hne
    · cases hr

theorem Screens.runPreview (h : Screens w s) (hstatus : s.state.status ≠ .previewing ∧ s.state.status ≠ .applying) :
    Screens w (s.runPreview w) := by
  unfold State.runPreview
  split
  · exact h.unpin (fun hd ↦ h.idle hd hstatus) _
  · have hset : Screens w (s.bump.safeSet { s.state with
        status := .previewing, previewYaml := none, errorMessage := none, unrouted := [] }) := h.bump.1.safeSet
      ⟨h.shown.exists_step, fun hform ↦ WizardStatus.noConfusion hform, fun hreview ↦ by simp at hreview⟩
      (fun _ ↦ .inl h.bump.2.ne)
    refine hset.send ?_ ?_ (fun hd ↦ ?_)
    · rw [safeSet_eq]
      exact h.bump.2
    · rw [safeSet_eq]
      rfl
    · rw [safeSet_status hd]
      rfl

theorem Screens.goToStep (h : Screens w s) {step : ℕ} (hstep : step < s.state.currentStep) :
    Screens w (s.goToStep w step) := by
  have hform : step + 1 < w.steps := Nat.lt_of_le_of_lt hstep h.shown.exists_step
  unfold State.goToStep
  split
  · exact h
  · split
    · exact h
    · split
      · exact h.rewind hform
      · next hstatus => exact h.safeSet (.of_form (not_not.mp hstatus) hform) (fun _ ↦ .inr rfl)

theorem Screens.back (h : Screens w s) : Screens w s.back := by
  unfold State.back
  split
  · exact h
  · have hstep := h.shown.exists_step
    exact h.rewind (by omega)

theorem Screens.next (h : Screens w s) (hstatus : s.state.status = .formEditing) : Screens w (s.next w) := by
  have hform := h.shown.form hstatus
  unfold State.next
  split
  · exact h
  · dsimp only
    split
    · exact h.safeSet (.of_form hstatus hform) (fun _ ↦ .inr rfl)
    · split
      · exact h.runPreview (by rw [hstatus]; exact ⟨WizardStatus.noConfusion, WizardStatus.noConfusion⟩)
      · refine h.safeSet (.of_form hstatus ?_) (fun _ ↦ .inr rfl)
        show s.state.currentStep + 1 + 1 < w.steps
        omega

theorem Screens.apply (h : Screens w s) (hstep : s.state.currentStep + 1 = w.steps)
    (hstatus : s.state.status ≠ .previewing ∧ s.state.status ≠ .applying) : Screens w (s.apply w) := by
  unfold State.apply
  split
  · exact h
  · next yaml hyaml =>
    split
    · exact h
    · split
      · exact h
      · split
        · exact h.unpin (fun hd ↦ h.idle hd hstatus) _
        · have hset : Screens w (s.bump.safeSet { s.state with
              status := .applying, applyOutcome := none, errorMessage := none }) := h.bump.1.safeSet
            (.of_review WizardStatus.noConfusion hstep) (fun _ ↦ .inl h.bump.2.ne)
          have hsend := hset.send (r := .apply (s.dispatchId + 1) yaml) (by rw [safeSet_eq]; exact h.bump.2)
            (by rw [safeSet_eq]; rfl) (fun hd ↦ by rw [safeSet_status hd]; rfl)
          exact { hsend with }

/-- Of a request that ends nothing is left to wait for. -/
theorem Screens.ended (h : Screens w s) {k : ℕ} {r : Request Form} (hk : s.requests k = some r)
    (previews : List (Body × String)) :
    Screens w { s with requests := update s.requests k none, previews } ∧
    (r.dispatchId = s.dispatchId → ∀ j r', update s.requests k none j = some r' → r'.dispatchId ≠ s.dispatchId) := by
  have hrequests {j : ℕ} {r' : Request Form} (hj : update s.requests k none j = some r') :
      j ≠ k ∧ s.requests j = some r' := by
    by_cases hjk : j = k
    · subst hjk
      simp at hj
    · exact ⟨hjk, by rwa [update_of_ne hjk] at hj⟩
  refine ⟨⟨h.shown, fun j r' hj ↦ h.older j r' (hrequests hj).2,
    fun hd j form hj ↦ h.previewing hd j form (hrequests hj).2, fun hd j yaml hj ↦ h.applying hd j yaml (hrequests hj).2,
    fun i j r₁ r₂ hi hj ↦ h.single i j r₁ r₂ (hrequests hi).2 (hrequests hj).2, fun j hj ↦ ?_⟩,
    fun hr j r' hj hr' ↦ ?_⟩
  · by_cases hjk : j = k
    · subst hjk
      exact update_self ..
    · exact (update_of_ne hjk ..).trans (h.unmade j hj)
  · exact (hrequests hj).1 (h.single j k r' r (hrequests hj).2 hk hr' hr)

theorem lowestStep_le (w : Overrides Form Body) (errors : List WizardFieldError) :
    (w.routeFieldErrors errors).2.2 ≤ w.steps - 2 := by
  induction errors using List.reverseRecOn with
  | nil => exact le_rfl
  | append_singleton errors err ih =>
    rw [Overrides.routeFieldErrors, List.foldl_concat, ← Overrides.routeFieldErrors, Overrides.routeFieldError]
    split
    · exact ih
    · exact (Nat.min_le_right _ _).trans ih

theorem Screens.previewed (h : Screens w s) {dispatchId : ℕ}
    (hidle : dispatchId = s.dispatchId → ∀ k r, s.requests k = some r → r.dispatchId ≠ s.dispatchId)
    (hyaml : s.disposed = false → dispatchId = s.dispatchId → s.state.previewYaml = none)
    (answer : Answer PreviewResult) : Screens w (s.previewed w dispatchId answer) := by
  have hsteps := w.form_and_review
  have hset {state : WizardState Form} (hcurrent : ¬ (s.disposed = true ∨ dispatchId ≠ s.dispatchId))
      (hshown : Shown w state) : Screens w (s.safeSet state) :=
    h.safeSet hshown (fun _ ↦ .inl (hidle (by_contra (fun hne ↦ hcurrent (.inr hne)))))
  have hfail (hcurrent : ¬ (s.disposed = true ∨ dispatchId ≠ s.dispatchId)) (message : String) :
      Screens w (s.fail message) := by
    refine hset hcurrent (h.shown.of_failed rfl rfl (fun hsome ↦ ?_))
    rw [not_or, Bool.not_eq_true, not_not] at hcurrent
    rw [show s.state.previewYaml = none from hyaml hcurrent.1 hcurrent.2] at hsome
    cases hsome
  unfold State.previewed
  split
  · split
    · exact h
    · next hcurrent =>
      split
      · exact hset hcurrent (h.shown.of_failed rfl rfl (fun hsome ↦ Bool.noConfusion hsome))
      · split
        · refine hset hcurrent (.of_review WizardStatus.noConfusion ?_)
          show w.steps - 1 + 1 = w.steps
          omega
        · next errors =>
          refine hset hcurrent (.of_form rfl ?_)
          have hle := lowestStep_le w errors
          show (w.routeFieldErrors errors).2.2 + 1 < w.steps
          omega
  · split
    · exact h
    · next hcurrent => exact hfail hcurrent _
  · split
    · exact h
    · next hcurrent => exact hfail hcurrent _

theorem Screens.applied (h : Screens w s) {dispatchId : ℕ}
    (hidle : dispatchId = s.dispatchId → ∀ k r, s.requests k = some r → r.dispatchId ≠ s.dispatchId)
    (hstep : s.disposed = false → dispatchId = s.dispatchId → s.state.currentStep + 1 = w.steps)
    (answer : Answer WizardApplyOutcome) : Screens w (s.applied w dispatchId answer) := by
  have hset {state : WizardState Form} (hcurrent : ¬ (s.disposed = true ∨ dispatchId ≠ s.dispatchId))
      (hstatus : state.status ≠ .formEditing) (hkept : state.currentStep = s.state.currentStep) :
      Screens w (s.safeSet state) := by
    rw [not_or, Bool.not_eq_true, not_not] at hcurrent
    exact h.safeSet (.of_review hstatus (hkept ▸ hstep hcurrent.1 hcurrent.2)) (fun _ ↦ .inl (hidle hcurrent.2))
  unfold State.applied
  split
  · split
    · exact h
    · next hcurrent =>
      split
      · exact hset hcurrent WizardStatus.noConfusion rfl
      · split
        · exact hset hcurrent WizardStatus.noConfusion rfl
        · exact hset hcurrent WizardStatus.noConfusion rfl
  · split
    · exact h
    · next hcurrent => exact hset hcurrent WizardStatus.noConfusion rfl
  · split
    · exact h
    · next hcurrent => exact hset hcurrent WizardStatus.noConfusion rfl

theorem Screens.step {a : Act Form} (h : Screens w s) (hinv : Inv w s) (hok : a.Offered w s)
    (ht : step w s a = some t) : Screens w t := by
  have hediting : s.state.status = .formEditing ∨ s.state.status = .reviewing ∨ s.state.status = .failed →
      s.state.status ≠ .previewing ∧ s.state.status ≠ .applying := by
    rintro (hstatus | hstatus | hstatus) <;> rw [hstatus] <;>
      exact ⟨WizardStatus.noConfusion, WizardStatus.noConfusion⟩
  cases a with
  | updateForm f =>
    cases ht
    exact h.updateForm hok f
  | goToStep step =>
    cases ht
    exact h.goToStep hok
  | next =>
    cases ht
    exact h.next hok
  | back =>
    cases ht
    exact h.back
  | retryPreview =>
    cases ht
    exact h.runPreview (hediting (.inr (.inr hok.1)))
  | apply =>
    cases ht
    obtain hstatus | ⟨hstatus, -, hyaml⟩ := hok
    · exact h.apply (h.shown.review (.inl hstatus)) (hediting (.inr (.inl hstatus)))
    · exact h.apply (h.shown.review (.inr (.inr (.inr ⟨hstatus, hyaml⟩)))) (hediting (.inr (.inr hstatus)))
  | discardAndReset =>
    cases ht
    refine h.bump.1.safeSet (.of_form rfl ?_) (fun _ ↦ .inl h.bump.2.ne)
    exact Nat.lt_of_lt_of_le Nat.one_lt_two w.form_and_review
  | previewed k answer =>
    rw [WizardController.step] at ht
    split at ht
    · next dispatchId form hk =>
      cases ht
      obtain ⟨hended, hidle⟩ := h.ended hk (s.previews ++ rendered w form answer)
      refine hended.previewed hidle (fun hd hid ↦ ?_) answer
      obtain rfl : dispatchId = s.dispatchId := hid
      have hstatus : s.state.status = .previewing := h.previewing hd k form hk
      exact Option.not_isSome_iff_eq_none.mp (fun hsome ↦ (hinv.shown hsome).2 hstatus)
    · cases ht
  | applied k answer =>
    rw [WizardController.step] at ht
    split at ht
    · next dispatchId yaml hk =>
      cases ht
      obtain ⟨hended, hidle⟩ := h.ended hk s.previews
      refine hended.applied hidle (fun hd hid ↦ ?_) answer
      obtain rfl : dispatchId = s.dispatchId := hid
      exact h.shown.review (.inr (.inl (h.applying hd k yaml hk)))
    · cases ht
  | switchCluster activeCluster =>
    cases ht
    exact { h with }
  | dispose =>
    cases ht
    exact ⟨h.shown, h.older, fun hd ↦ absurd hd.symm Bool.false_ne_true, fun hd ↦ absurd hd.symm Bool.false_ne_true,
      h.single, h.unmade⟩

theorem screens_start (w : Overrides Form Body) : Screens w (start w) where
  shown := .of_form rfl (Nat.lt_of_lt_of_le Nat.one_lt_two w.form_and_review)
  older k r h := by cases h
  previewing _ k form h := by cases h
  applying _ k yaml h := by cases h
  single j k r r' h := by cases h
  unmade _ _ := rfl

/-- An operator who does what the screen offers is never shown a step that does not exist, and never waits for nothing. -/
theorem screens_throughout (w : Overrides Form Body) (as : List (Act Form))
    (hoffered : EachStep (step w) (fun s a ↦ a.Offered w s) (start w) as) :
    Throughout (step w) (fun s ↦ Shown w s.state ∧ Waiting s) (start w) as := by
  refine (hoffered.throughout (I := fun s ↦ Inv w s ∧ Screens w s ∧ Waiting s) (fun s a t h hok ht ↦ ?_) ?_).mono
    (fun s h ↦ ⟨h.2.1.shown, h.2.2⟩)
  · obtain ⟨hinv, hscreens, hwaiting⟩ := h
    refine ⟨hinv.step ht, hscreens.step hinv hok ht, hwaiting.step ?_ ht⟩
    cases a with
    | updateForm f =>
      -- the form is not shown while a document is applied
      intro _ hstatus
      have hreview := hscreens.shown.review (.inr (.inl hstatus))
      exact absurd hreview (Nat.ne_of_lt hok)
    | _ => trivial
  · refine ⟨inv_start w, screens_start w, waiting_of_status (fun _ ↦ ?_)⟩
    exact ⟨WizardStatus.noConfusion, WizardStatus.noConfusion⟩

/-- A wizard whose form is a name. -/
def named : Overrides String String where
  clusterId := "local"
  steps := 2
  buildInitialForm := ""
  toPreviewBody name := name
  errorRouter _ := some 0

theorem screens_throughout_named :
    Throughout (step named) (fun s ↦ Shown named s.state ∧ Waiting s) (start named)
      [.updateForm (fun _ ↦ "web"), .next, .previewed 0 (.ok (.yaml "kind: ConfigMap")), .apply] := by
  refine screens_throughout named _ (fun t ht ↦ ?_)
  cases ht
  refine ⟨Nat.one_lt_two, fun t ht ↦ ?_⟩
  cases ht
  refine ⟨rfl, fun t ht ↦ ?_⟩
  cases ht
  refine ⟨trivial, fun t ht ↦ ?_⟩
  cases ht
  exact ⟨.inl rfl, trivial⟩

end KubeCenter.Wizard.WizardController
