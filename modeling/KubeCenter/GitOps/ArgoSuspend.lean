import KubeCenter.Core.Http
import KubeCenter.Core.MergePatch
import KubeCenter.Core.Runs

/-! Suspending and resuming the automated sync of an Argo CD Application. -/

namespace KubeCenter.GitOps

open KubeCenter.Core

def preSuspendSyncPolicy : String := "kubecenter.io/pre-suspend-sync-policy"

def automatedPath : List String := ["spec", "syncPolicy", "automated"]

def annotationsPath : List String := ["metadata", "annotations"]

def savedPath : List String := annotationsPath ++ [preSuspendSyncPolicy]

/-- The text of an annotation; a null counts as empty. -/
def annotationText : Json → Option String
  | .string s => some s
  | .null => some ""
  | _ => none

/-- An entry of `GetAnnotations`: of annotations that are not all texts there is none. -/
def annotationOf (app : Json) (k : String) : Option String :=
  match app.nested annotationsPath with
  | some (.object fields) =>
    if fields.all (fun f ↦ (annotationText f.2).isSome) then (Fields.get k fields).bind annotationText else none
  | _ => none

/-- The patch of both directions: what the annotation and the automated policy are to become. -/
def syncPolicyPatch (saved automated : Json) : Json :=
  .object [
    ("metadata", .object [("annotations", .object [(preSuspendSyncPolicy, saved)])]),
    ("spec", .object [("syncPolicy", .object [("automated", automated)])])]

/-- The Application after the API server has merged the bytes of a patch into it. -/
def patchApplication (app : Json) (patchBytes : Text) : Option Json :=
  (Json.decode patchBytes).map (mergePatch app)

def suspendArgoApp (app : Json) : Option Json :=
  match app.nested automatedPath with
  | some (.object automated) =>
    let policyJSON := (Json.object automated).encode
    patchApplication app (syncPolicyPatch (.string (String.ofList policyJSON)) .null).encode
  | _ => some app

def defaultPolicy : Json := .object [("prune", .bool true), ("selfHeal", .bool true)]

def resumeArgoApp (F : Float64Format) (app : Json) : Option Json :=
  match annotationOf app preSuspendSyncPolicy with
  | some saved =>
    (Json.unmarshalMap F saved.toList).bind (fun automatedPolicy ↦
      patchApplication app (syncPolicyPatch .null automatedPolicy).encode)
  | none => patchApplication app (syncPolicyPatch .null defaultPolicy).encode

/-- The Argo branch of `HandleSuspend`. -/
def setSuspended (F : Float64Format) (app : Json) (suspend : Bool) : Option Json :=
  if suspend then suspendArgoApp app else resumeArgoApp F app

def handleSuspend (F : Float64Format) (app : Json) (body : RequestBody Bool) : Except APIError Json :=
  match body.decode 1024 with
  | none => .error ⟨400, "invalid request body"⟩
  | some suspend =>
    match setSuspended F app suspend with
    | none => .error ⟨500, "failed to update suspend state"⟩
    | some app => .ok app

theorem handleSuspend_eq_ok {F : Float64Format} {app t : Json} {body : RequestBody Bool} :
    handleSuspend F app body = .ok t ↔ ∃ suspend, body.decode 1024 = some suspend ∧ setSuspended F app suspend = some t := by
  unfold handleSuspend
  cases body.decode 1024 with
  | none => simp
  | some suspend =>
    cases hs : setSuspended F app suspend with
    | none => simp [hs]
    | some t => simp [hs]

variable {F : Float64Format} {app saved automated : Json}

theorem syncPolicyPatch_wellFormed (hs : saved.WellFormed) (ha : automated.WellFormed) :
    (syncPolicyPatch saved automated).WellFormed := by
  have hsingle (k : String) (j : Json) (h : j.WellFormed) : (Json.object [(k, j)]).WellFormed :=
    ⟨List.pairwise_singleton _ _, h, trivial⟩
  refine ⟨?_, hsingle _ _ (hsingle _ _ hs), hsingle _ _ (hsingle _ _ ha), trivial⟩
  apply List.pairwise_pair.mpr
  change "metadata" < "spec"
  decide

theorem patchApplication_encode {patch : Json} (h : patch.WellFormed) :
    patchApplication app patch.encode = some (mergePatch app patch) := by
  rw [patchApplication, Json.decode_encode h, Option.map_some]

theorem nested_syncPolicyPatch (saved automated : Json) (path : List String) :
    (mergePatch app (syncPolicyPatch saved automated)).nested ("metadata" :: path) =
        (mergePatch ((app.fields.get "metadata").getD .null)
          (saved.atPath ["annotations", preSuspendSyncPolicy])).nested path ∧
      (mergePatch app (syncPolicyPatch saved automated)).nested ("spec" :: path) =
        (mergePatch ((app.fields.get "spec").getD .null)
          (automated.atPath ["syncPolicy", "automated"])).nested path :=
  Json.nested_mergePatch_pair (by decide) (fun h ↦ by cases h) (fun h ↦ by cases h) app path

theorem saved_of_null : (mergePatch app (syncPolicyPatch .null automated)).nested savedPath = none :=
  (nested_syncPolicyPatch _ _ _).1.trans (Json.nested_mergePatch_null _ _ _)

theorem automated_of_null : (mergePatch app (syncPolicyPatch saved .null)).nested automatedPath = none :=
  (nested_syncPolicyPatch _ _ _).2.trans (Json.nested_mergePatch_null _ _ _)

theorem automated_of_value (h : automated ≠ .null) (hw : automated.WellFormed)
    (hnone : ∀ fields, app.nested automatedPath ≠ some (.object fields)) :
    (mergePatch app (syncPolicyPatch saved automated)).nested automatedPath = some automated.dropNulls := by
  have hfields : ((app.nested automatedPath).getD .null).fields = [] := by
    cases ht : app.nested automatedPath with
    | none => rfl
    | some t =>
      cases t with
      | object fields => exact absurd ht (hnone fields)
      | _ => rfl
  refine (nested_syncPolicyPatch _ _ _).2.trans ?_
  rw [Json.nested_mergePatch_atPath h, Json.nested_getD_null]
  exact congrArg some (mergePatch_eq_dropNulls automated _ hw hfields)

/-- The API server keeps nothing but texts in the annotations. -/
def TextAnnotations (app : Json) : Prop :=
  ∀ f ∈ ((app.nested annotationsPath).getD .null).fields, (annotationText f.2).isSome = true

theorem annotation_of_string (hann : TextAnnotations app) (text : String) :
    annotationOf (mergePatch app (syncPolicyPatch (.string text) automated)) preSuspendSyncPolicy = some text := by
  have hnested : (mergePatch app (syncPolicyPatch (.string text) automated)).nested annotationsPath =
      some (.object (((app.nested annotationsPath).getD .null).fields.set preSuspendSyncPolicy (.string text))) := by
    refine (nested_syncPolicyPatch _ _ _).1.trans ?_
    change Json.nested (mergePatch _ (Json.atPath ["annotations"]
      (.object [(preSuspendSyncPolicy, .string text)]))) ["annotations"] = _
    rw [Json.nested_mergePatch_atPath (fun h ↦ by cases h), Json.nested_getD_null]
    rfl
  rw [annotationOf, hnested]
  dsimp only
  rw [if_pos, Fields.get_set_self]
  · rfl
  · rw [List.all_eq_true]
    intro f hf
    obtain rfl | hf := Fields.mem_set hf
    · rfl
    · exact hann f hf

theorem annotation_of_none (h : app.nested savedPath = none) : annotationOf app preSuspendSyncPolicy = none := by
  have hget : ∀ fields, app.nested annotationsPath = some (.object fields) →
      Fields.get preSuspendSyncPolicy fields = none := by
    intro fields hfields
    rw [savedPath, Json.nested_append, hfields] at h
    cases hget : Fields.get preSuspendSyncPolicy fields with
    | none => rfl
    | some j => simp [Json.nested, Json.fields, hget] at h
  unfold annotationOf
  split
  · next fields hfields =>
    rw [hget fields hfields, Option.bind_none, ite_self]
  · rfl

theorem exec_suspends (h : suspendArgoApp app = some app) (n : ℕ) :
    exec (setSuspended F) app (List.replicate n true) = some app := by
  induction n with
  | zero => rfl
  | succ n ih => exact (exec_cons h _).trans ih

/-- What resuming brings back: the policy as it was, read and written again and without null members, or
the default where there was none. -/
def restored (F : Float64Format) (app : Json) : Option Json :=
  match app.nested automatedPath with
  | some (.object automated) => ((Json.object automated).reread F).map Json.dropNulls
  | _ => some defaultPolicy

theorem resume_of_none (hnew : app.nested savedPath = none)
    (hnone : ∀ fields, app.nested automatedPath ≠ some (.object fields)) :
    ∃ t, resumeArgoApp F app = some t ∧ t.nested automatedPath = some defaultPolicy ∧ t.nested savedPath = none := by
  have hdefault : defaultPolicy.WellFormed :=
    ⟨List.pairwise_pair.mpr (by change "prune" < "selfHeal"; decide), trivial, trivial, trivial⟩
  refine ⟨_, ?_, automated_of_value (fun h ↦ by cases h) hdefault hnone, saved_of_null⟩
  rw [resumeArgoApp, annotation_of_none hnew]
  exact patchApplication_encode (syncPolicyPatch_wellFormed trivial hdefault)

theorem suspend_of_object {fields : Fields} (hann : TextAnnotations app)
    (hauto : app.nested automatedPath = some (.object fields)) :
    ∃ t, suspendArgoApp app = some t ∧ t.nested automatedPath = none ∧
      annotationOf t preSuspendSyncPolicy = some (String.ofList (Json.object fields).encode) := by
  refine ⟨_, ?_, automated_of_null, annotation_of_string hann _⟩
  rw [suspendArgoApp, hauto]
  exact patchApplication_encode (syncPolicyPatch_wellFormed trivial trivial)

theorem resume_of_saved {fields : Fields} {j : Json} (hw : (Json.object fields).WellFormed)
    (hauto : app.nested automatedPath = none)
    (hsaved : annotationOf app preSuspendSyncPolicy = some (String.ofList (Json.object fields).encode))
    (hj : (Json.object fields).reread F = some j) :
    ∃ t, resumeArgoApp F app = some t ∧ t.nested automatedPath = some j.dropNulls ∧ t.nested savedPath = none := by
  have hjw := hw.reread hj
  obtain ⟨fields', -, rfl⟩ := Option.map_eq_some_iff.mp hj
  have hpolicy : Json.unmarshalMap F (String.ofList (Json.object fields).encode).toList =
      some (.object fields') := by
    rw [Json.unmarshalMap, String.toList_ofList, Json.decode_encode hw, Option.bind_some, hj]
  have hnone (fields : List (String × Json)) : app.nested automatedPath ≠ some (.object fields) := by
    rw [hauto]
    exact fun h ↦ by cases h
  refine ⟨mergePatch app (syncPolicyPatch .null (.object fields')), ?_,
    automated_of_value (fun h ↦ by cases h) hjw hnone, saved_of_null⟩
  rw [resumeArgoApp, hsaved]
  dsimp only
  rw [hpolicy, Option.bind_some]
  exact patchApplication_encode (syncPolicyPatch_wellFormed trivial hjw)

theorem suspend_of_not_object (h : ∀ fields, app.nested automatedPath ≠ some (.object fields)) :
    suspendArgoApp app = some app := by
  unfold suspendArgoApp
  split
  · next fields hfields => exact absurd hfields (h fields)
  · rfl

theorem exec_suspends_resume {t : Json} (h : suspendArgoApp app = some t) (hagain : suspendArgoApp t = some t)
    (n : ℕ) :
    exec (setSuspended F) app (List.replicate (n + 1) true ++ [false]) = resumeArgoApp F t := by
  have hresume : exec (setSuspended F) t [false] = resumeArgoApp F t := by
    simp only [exec, setSuspended, Bool.false_eq_true, if_false, Option.bind_fun_some]
  have hstep : setSuspended F app true = some t := h
  rw [exec_append, List.replicate_succ, exec_cons hstep, exec_suspends hagain,
    Option.bind_some, hresume]

/-- An Application that was never suspended and whose automated policy, if any, is an object. -/
structure Unsuspended (app : Json) : Prop where
  wellFormed : app.WellFormed
  annotations : TextAnnotations app
  unsaved : app.nested savedPath = none
  automated : ∀ j, app.nested automatedPath = some j → ∃ fields, j = .object fields

theorem suspended_resume (h : Unsuspended app) {policy : Json} (hpolicy : restored F app = some policy) (n : ℕ) :
    ∃ t, exec (setSuspended F) app (List.replicate (n + 1) true ++ [false]) = some t ∧
      t.nested automatedPath = some policy ∧ t.nested savedPath = none := by
  unfold restored at hpolicy
  split at hpolicy
  · next fields hauto =>
    obtain ⟨j, hj, rfl⟩ := Option.map_eq_some_iff.mp hpolicy
    obtain ⟨t, hsuspend, ht, hsaved⟩ := suspend_of_object h.annotations hauto
    have hagain : suspendArgoApp t = some t := suspend_of_not_object (by rw [ht]; exact fun _ h ↦ by cases h)
    rw [exec_suspends_resume hsuspend hagain]
    exact resume_of_saved (h.wellFormed.nested hauto) ht hsaved hj
  · next hnone =>
    cases hpolicy
    have hsuspend := suspend_of_not_object hnone
    rw [exec_suspends_resume hsuspend hsuspend]
    exact resume_of_none h.unsaved hnone

/-- Suspending `n + 1` times and resuming leaves the automated policy as it was, and no annotation. -/
def Lossless (F : Float64Format) (app : Json) (n : ℕ) : Prop :=
  ∃ t, exec (setSuspended F) app (List.replicate (n + 1) true ++ [false]) = some t ∧
    t.nested automatedPath = app.nested automatedPath ∧ t.nested savedPath = none

theorem lossless_iff (h : Unsuspended app) {policy : Json} (hpolicy : restored F app = some policy) (n : ℕ) :
    Lossless F app n ↔ app.nested automatedPath = some policy := by
  obtain ⟨t, hexec, hauto, hsaved⟩ := suspended_resume h hpolicy n
  constructor
  · rintro ⟨t', hexec', hauto', -⟩
    rw [hexec] at hexec'
    cases hexec'
    rw [← hauto', hauto]
  · intro he
    exact ⟨t, hexec, hauto.trans he.symm, hsaved⟩

/-- Any number of suspends and a resume bring the automated policy back, its numbers read and written again
and its null members left out, and enable the default policy where there was none; the annotation is gone. -/
theorem suspend_resume (F : Float64Format) (app : Json) (h : Unsuspended app) (policy : Json)
    (hpolicy : restored F app = some policy) (n : ℕ) :
    ∃ t, exec (setSuspended F) app (List.replicate (n + 1) true ++ [false]) = some t ∧
      t.nested automatedPath = some policy ∧ t.nested savedPath = none :=
  suspended_resume h hpolicy n

/-- float64 on the integers up to 2^53 and on 2^53 + 1, which it does not have. -/
def nearInteger : Float64Format where
  reread n :=
    if n = "9007199254740993" then some "9007199254740992"
    else if isNumber n.toList then some n
    else none
  isNumber := by
    intro n m h
    split at h
    · cases h
      decide
    · split at h
      · next hn =>
        cases h
        exact hn
      · cases h

/-- An Application with nothing but an automated policy. -/
def appWith (automated : Json) : Json := automated.atPath automatedPath

def bareApp : Json := .object []

theorem unsuspended_bareApp : Unsuspended bareApp where
  wellFormed := ⟨List.Pairwise.nil, trivial⟩
  annotations := fun _ h ↦ by cases h
  unsaved := rfl
  automated := fun _ h ↦ by cases h

theorem unsuspended_appWith {k : String} {j : Json} (h : j.WellFormed) :
    Unsuspended (appWith (.object [(k, j)])) where
  wellFormed := by
    have hsingle (k : String) (j : Json) (h : j.WellFormed) : (Json.object [(k, j)]).WellFormed :=
      ⟨List.pairwise_singleton _ _, h, trivial⟩
    exact hsingle _ _ (hsingle _ _ (hsingle _ _ (hsingle _ _ h)))
  annotations := fun _ h ↦ by cases h
  unsaved := rfl
  automated := by
    intro t ht
    cases ht
    exact ⟨_, rfl⟩

theorem suspend_resume_pruning : ∃ t,
    exec (setSuspended nearInteger) (appWith (.object [("prune", .bool true)])) [true, true, false] = some t ∧
      t.nested automatedPath = some (.object [("prune", .bool true)]) ∧ t.nested savedPath = none :=
  suspend_resume nearInteger _ (unsuspended_appWith (j := .bool true) trivial) _ rfl 1

theorem not_lossless : ¬ ∀ (F : Float64Format) (app : Json) (n : ℕ), Unsuspended app → Lossless F app n := by
  intro h
  have hauto := (lossless_iff (F := nearInteger) unsuspended_bareApp rfl 0).mp (h nearInteger bareApp 0 unsuspended_bareApp)
  cases hauto

/-- A null member is lost, and 2^53 + 1 comes back as 2^53. -/
theorem lossy_members :
    ¬ Lossless nearInteger (appWith (.object [("prune", .null)])) 0 ∧
      ¬ Lossless nearInteger (appWith (.object [("retries", .number "9007199254740993")])) 0 := by
  constructor
  · rw [lossless_iff (unsuspended_appWith (j := .null) trivial) rfl]
    exact fun h ↦ by cases h
  · rw [lossless_iff (unsuspended_appWith (by change isNumber _ = true; decide)) rfl]
    intro h
    simp [appWith, Json.atPath, automatedPath, Json.nested, Json.fields, Fields.get, Json.dropNulls, dropNullFields] at h

end KubeCenter.GitOps
