import Mathlib.Data.List.Nodup
import KubeCenter.Diagnostics.Handler

/-! What a diagnosis says when the pods of its target are hidden from the user. -/

namespace KubeCenter.Diagnostics

open KubeCenter.Core

/-! What the rules about pods look at. -/

namespace Pod

def statuses (pod : Pod) : List ContainerStatus := pod.containerStatuses ++ pod.initContainerStatuses

def crashLoops (pod : Pod) : Bool := pod.statuses.any crashLooping

def pullFails (pod : Pod) : Bool := pod.statuses.any fun cs ↦ (pullError pod.name cs).isSome

def isPending (pod : Pod) : Bool := pod.phase = .pending

/-- None of the rules about pods has something to say of it. -/
def unremarkable (pod : Pod) : Bool := !pod.crashLoops && !pod.pullFails && !pod.isPending

end Pod

def Result.IsVerdict (r : Result) : Prop := ∀ status, r.status ≠ .other status

/-- The target, had it no pods. -/
def DiagnosticTarget.bare (target : DiagnosticTarget) : DiagnosticTarget := { target with pods := [] }

/-- A check that fails a target for its sick pods, and otherwise passes it as if it had none. -/
structure JudgesPods (check : DiagnosticTarget → Result) (sick : Pod → Bool) : Prop where
  bare : ∀ target : DiagnosticTarget, (check target.bare).status = .pass
  pass : ∀ target : DiagnosticTarget, (∀ pod ∈ target.pods, sick pod = false) → check target = check target.bare
  fail : ∀ target : DiagnosticTarget, (∃ pod ∈ target.pods, sick pod) → (check target).status = .fail

namespace JudgesPods

variable {check : DiagnosticTarget → Result} {sick : Pod → Bool} (h : JudgesPods check sick) (target : DiagnosticTarget)
include h

theorem eq_bare_iff : check target.bare = check target ↔ ∀ pod ∈ target.pods, sick pod = false := by
  constructor
  · intro heq pod hpod
    refine Bool.eq_false_iff.mpr fun hsick ↦ ?_
    have hfail := h.fail target ⟨pod, hpod, hsick⟩
    rw [← heq, h.bare] at hfail
    cases hfail
  · exact fun hwell ↦ (h.pass target hwell).symm

theorem fail_iff : (check target).status = .fail ↔ ∃ pod ∈ target.pods, sick pod := by
  constructor
  · intro hfail
    by_contra hnone
    rw [h.pass target fun pod hpod ↦ Bool.eq_false_iff.mpr fun hsick ↦ hnone ⟨pod, hpod, hsick⟩, h.bare] at hfail
    cases hfail
  · exact h.fail target

theorem status : (check target).status = .pass ∨ (check target).status = .fail := by
  by_cases hsick : ∃ pod ∈ target.pods, sick pod
  · exact .inr (h.fail target hsick)
  · refine .inl ?_
    rw [h.pass target fun pod hpod ↦ Bool.eq_false_iff.mpr fun hs ↦ hsick ⟨pod, hpod, hs⟩, h.bare]

end JudgesPods

/-- A check of which a list, empty when no pod is sick, decides the branch. -/
theorem judgesPods_of_found {α : Type} {check : DiagnosticTarget → Result} {sick : Pod → Bool} {passed : Result}
    {failed : DiagnosticTarget → Result} (found : DiagnosticTarget → List α) [∀ t, Decidable (found t = [])]
    (hcheck : ∀ t, check t = if found t = [] then passed else failed t) (hpassed : passed.status = .pass)
    (hfailed : ∀ t, (failed t).status = .fail) (hfound : ∀ t, found t = [] ↔ ∀ pod ∈ t.pods, sick pod = false) :
    JudgesPods check sick := by
  have hbare : ∀ t : DiagnosticTarget, check t.bare = passed := fun t ↦ by
    rw [hcheck, if_pos ((hfound _).mpr (List.forall_mem_nil _))]
  refine ⟨fun t ↦ ?_, fun t hwell ↦ ?_, fun t hsick ↦ ?_⟩
  · rw [hbare, hpassed]
  · rw [hbare, hcheck, if_pos ((hfound t).mpr hwell)]
  · obtain ⟨pod, hpod, hs⟩ := hsick
    rw [hcheck, if_neg fun hnil ↦ Bool.eq_false_iff.mp ((hfound t).mp hnil pod hpod) hs, hfailed]

theorem any_eq_isSome_find? {α : Type} (p : α → Bool) (l : List α) : l.any p = (l.find? p).isSome := by
  rw [Bool.eq_iff_iff, List.any_eq_true, List.find?_isSome]

theorem crashLoopStep_eq_nil {found : List String × Int32} {pod : Pod} :
    (crashLoopStep found pod).1 = [] ↔ found.1 = [] ∧ pod.crashLoops = false := by
  unfold crashLoopStep Pod.crashLoops Pod.statuses
  rw [List.any_append, any_eq_isSome_find?, any_eq_isSome_find?]
  cases pod.containerStatuses.find? crashLooping with
  | some main =>
    cases pod.initContainerStatuses.find? crashLooping with
    | some init => simp
    | none => simp
  | none =>
    cases pod.initContainerStatuses.find? crashLooping with
    | some init =>
      refine iff_of_false ?_ (by simp)
      dsimp only
      split_ifs with hmem
      · exact List.ne_nil_of_mem hmem
      · simp
    | none => simp

theorem foldl_crashLoopStep_eq_nil {pods : List Pod} {found : List String × Int32} :
    (pods.foldl crashLoopStep found).1 = [] ↔ found.1 = [] ∧ ∀ pod ∈ pods, pod.crashLoops = false := by
  induction pods generalizing found with
  | nil => simp
  | cons pod pods ih => rw [List.foldl_cons, ih, crashLoopStep_eq_nil, List.forall_mem_cons, and_assoc]

theorem judgesPods_checkCrashLoop : JudgesPods checkCrashLoop Pod.crashLoops := by
  refine judgesPods_of_found (fun t ↦ (t.pods.foldl crashLoopStep ([], 0)).1) (fun t ↦ rfl) rfl (fun t ↦ rfl) fun t ↦ ?_
  exact foldl_crashLoopStep_eq_nil.trans (and_iff_right rfl)

theorem pullErrors_eq_nil {pod : Pod} : pullErrors pod = [] ↔ pod.pullFails = false := by
  unfold pullErrors Pod.pullFails Pod.statuses
  rw [List.append_eq_nil_iff, List.any_append, Bool.or_eq_false_iff]
  simp

theorem judgesPods_checkImagePull (range : MapRange) : JudgesPods (checkImagePull range) Pod.pullFails := by
  refine judgesPods_of_found (fun t ↦ t.pods.flatMap pullErrors) (fun t ↦ rfl) rfl (fun t ↦ rfl) fun t ↦ ?_
  simp only [List.flatMap_eq_nil_iff, pullErrors_eq_nil]

theorem judgesPods_checkPendingPod : JudgesPods checkPendingPod Pod.isPending := by
  refine judgesPods_of_found (fun t ↦ (t.pods.filter fun pod ↦ pod.phase = .pending).map Pod.name) (fun t ↦ rfl) rfl
    (fun t ↦ rfl) fun t ↦ ?_
  rw [List.map_eq_nil_iff, List.filter_eq_nil_iff]
  simp only [Pod.isPending, decide_eq_true_eq, decide_eq_false_iff_not]

variable {target : DiagnosticTarget} {range : MapRange}

theorem JudgesPods.verdict {check : DiagnosticTarget → Result} {sick : Pod → Bool} (h : JudgesPods check sick)
    (target : DiagnosticTarget) : (check target).IsVerdict := by
  intro status
  rcases h.status target with hstatus | hstatus
  · rw [hstatus]
    exact nofun
  · rw [hstatus]
    exact nofun

theorem checkReplicaMismatch_verdict : (checkReplicaMismatch target).IsVerdict := by
  unfold checkReplicaMismatch
  cases replicaCounts target.object with
  | none => exact nofun
  | some counts =>
    dsimp only
    split_ifs <;> exact nofun

theorem checkZeroEndpoints_verdict : (checkZeroEndpoints range target).IsVerdict := by
  unfold checkZeroEndpoints
  split
  · split_ifs <;> exact nofun
  · exact nofun

theorem checkPendingPVC_verdict : (checkPendingPVC target).IsVerdict := by
  unfold checkPendingPVC
  split
  · split_ifs <;> exact nofun
  · exact nofun

/-- No rule abstains. -/
theorem isVerdict_of_mem {rule : RuleEntry} (h : rule ∈ rules range) : (runSafeCheck rule target).IsVerdict := by
  unfold rules at h
  simp only [List.mem_cons, List.not_mem_nil, or_false] at h
  rcases h with rfl | rfl | rfl | rfl | rfl | rfl
  · exact judgesPods_checkCrashLoop.verdict target
  · exact (judgesPods_checkImagePull range).verdict target
  · exact judgesPods_checkPendingPod.verdict target
  · exact checkReplicaMismatch_verdict
  · exact checkZeroEndpoints_verdict
  · exact checkPendingPVC_verdict

theorem rule_eq {rule rule' : RuleEntry} (h : rule ∈ rules range) (h' : rule' ∈ rules range)
    (hname : rule.name = rule'.name) : rule = rule' := by
  have hnames : (rules range).map RuleEntry.name =
      ["CrashLoopBackOff", "ImagePullBackOff", "PendingPod", "ReplicaMismatch", "ZeroEndpoints", "PendingPVC"] := rfl
  have hnodup : ((rules range).map RuleEntry.name).Nodup := by
    rw [hnames]
    decide
  exact List.inj_on_of_nodup_map hnodup h h' hname

theorem mem_runDiagnostics {r : Result} : r ∈ runDiagnostics range target ↔
    ∃ rule ∈ rules range, target.kind ∈ rule.appliesTo ∧ runSafeCheck rule target = r := by
  unfold runDiagnostics
  simp only [List.mem_mergeSort, List.mem_map, List.mem_filter, decide_eq_true_eq, and_assoc]

/-- A result of the one target is one of the other exactly when its rule says the same of both. -/
theorem runSafeCheck_mem_iff {rule : RuleEntry} {target' : DiagnosticTarget} (h : rule ∈ rules range)
    (hkind : target'.kind ∈ rule.appliesTo) :
    runSafeCheck rule target ∈ runDiagnostics range target' ↔ runSafeCheck rule target = runSafeCheck rule target' := by
  rw [mem_runDiagnostics]
  constructor
  · rintro ⟨rule', h', -, heq⟩
    obtain rfl := rule_eq h' h (congrArg Result.ruleName heq)
    exact heq.symm
  · exact fun heq ↦ ⟨rule, h, hkind, heq.symm⟩

theorem JudgesPods.runSafeCheck {rule : RuleEntry} {sick : Pod → Bool} (h : JudgesPods rule.check sick) :
    JudgesPods (runSafeCheck rule) sick where
  bare := h.bare
  pass t hwell := by
    unfold Diagnostics.runSafeCheck
    rw [h.pass t hwell]
  fail := h.fail

/-! The target with and without its pods. -/

namespace DiagnosticTarget

/-- Without its pods the target is judged the same. -/
def hidesNothing (t : DiagnosticTarget) : Bool :=
  match t.kind with
  | .service => t.pods.isEmpty
  | .persistentVolumeClaim => true
  | _ => t.pods.all Pod.unremarkable

/-- Only a Service that selects pods has any. -/
def WellResolved (t : DiagnosticTarget) : Prop :=
  t.kind = .service → t.pods ≠ [] → ∃ svc, t.object = .service svc ∧ svc.selector.entries ≠ []

def Agrees (range : MapRange) (t : DiagnosticTarget) : Prop :=
  ∀ rule ∈ rules range, t.kind ∈ rule.appliesTo → runSafeCheck rule t.bare = runSafeCheck rule t

end DiagnosticTarget

theorem all_unremarkable {pods : List Pod} : pods.all Pod.unremarkable = true ↔
    (∀ pod ∈ pods, pod.crashLoops = false) ∧ (∀ pod ∈ pods, pod.pullFails = false) ∧
      ∀ pod ∈ pods, pod.isPending = false := by
  simp only [List.all_eq_true, Pod.unremarkable, Bool.and_eq_true, Bool.not_eq_true', and_assoc, forall_and]

section Rules

variable (range target)

theorem crashLoop_bare_iff :
    runSafeCheck ⟨"CrashLoopBackOff", .critical, podKinds, checkCrashLoop⟩ target.bare =
        runSafeCheck ⟨"CrashLoopBackOff", .critical, podKinds, checkCrashLoop⟩ target ↔
      ∀ pod ∈ target.pods, pod.crashLoops = false :=
  JudgesPods.eq_bare_iff (JudgesPods.runSafeCheck judgesPods_checkCrashLoop) target

theorem imagePull_bare_iff :
    runSafeCheck ⟨"ImagePullBackOff", .critical, podKinds, checkImagePull range⟩ target.bare =
        runSafeCheck ⟨"ImagePullBackOff", .critical, podKinds, checkImagePull range⟩ target ↔
      ∀ pod ∈ target.pods, pod.pullFails = false :=
  JudgesPods.eq_bare_iff (JudgesPods.runSafeCheck (judgesPods_checkImagePull range)) target

theorem pendingPod_bare_iff :
    runSafeCheck ⟨"PendingPod", .critical, podKinds, checkPendingPod⟩ target.bare =
        runSafeCheck ⟨"PendingPod", .critical, podKinds, checkPendingPod⟩ target ↔
      ∀ pod ∈ target.pods, pod.isPending = false :=
  JudgesPods.eq_bare_iff (JudgesPods.runSafeCheck judgesPods_checkPendingPod) target

end Rules

theorem agrees_podKinds (hkind : target.kind ∈ podKinds) :
    target.Agrees range ↔ target.pods.all Pod.unremarkable = true := by
  rw [all_unremarkable]
  constructor
  · intro h
    refine ⟨(crashLoop_bare_iff target).mp (h _ ?_ hkind), (imagePull_bare_iff target range).mp (h _ ?_ hkind),
      (pendingPod_bare_iff target).mp (h _ ?_ hkind)⟩
    all_goals simp [rules]
  · rintro ⟨hcrash, hpull, hpending⟩ rule hrule happlies
    unfold rules at hrule
    simp only [List.mem_cons, List.not_mem_nil, or_false] at hrule
    rcases hrule with rfl | rfl | rfl | rfl | rfl | rfl
    · exact (crashLoop_bare_iff target).mpr hcrash
    · exact (imagePull_bare_iff target range).mpr hpull
    · exact (pendingPod_bare_iff target).mpr hpending
    · rfl
    · rw [List.mem_singleton.mp happlies] at hkind
      exact absurd hkind (by decide)
    · rfl

theorem agrees_service (hkind : target.kind = .service) (hresolved : target.WellResolved) :
    target.Agrees range ↔ target.pods = [] := by
  constructor
  · intro h
    by_contra hne
    obtain ⟨svc, hobject, hselector⟩ := hresolved hkind hne
    have heq := congrArg Result.status (h ⟨"ZeroEndpoints", .warning, [.service], checkZeroEndpoints range⟩
      (by simp [rules]) (List.mem_singleton.mpr hkind))
    simp [runSafeCheck, checkZeroEndpoints, DiagnosticTarget.bare, hobject, hselector, hne] at heq
  · intro hnil rule _ _
    have hbare : target.bare = target := by
      unfold DiagnosticTarget.bare
      rw [← hnil]
    rw [hbare]

theorem agrees_persistentVolumeClaim (hkind : target.kind = .persistentVolumeClaim) : target.Agrees range := by
  intro rule hrule happlies
  unfold rules at hrule
  rw [hkind] at happlies
  have hpods : Kind.persistentVolumeClaim ∉ podKinds := by decide
  simp only [List.mem_cons, List.not_mem_nil, or_false] at hrule
  rcases hrule with rfl | rfl | rfl | rfl | rfl | rfl
  · exact absurd happlies hpods
  · exact absurd happlies hpods
  · exact absurd happlies hpods
  · rfl
  · cases List.mem_singleton.mp happlies
  · rfl

theorem agrees_iff (hresolved : target.WellResolved) : target.Agrees range ↔ target.hidesNothing = true := by
  unfold DiagnosticTarget.hidesNothing
  cases hkind : target.kind with
  | service => exact (agrees_service hkind hresolved).trans List.isEmpty_iff.symm
  | persistentVolumeClaim => exact iff_of_true (agrees_persistentVolumeClaim hkind) rfl
  | _ => exact agrees_podKinds (by rw [hkind]; decide)

/-- What fails without the pods fails with them. -/
theorem eq_of_bare_fail {rule : RuleEntry} (h : rule ∈ rules range)
    (hfail : (runSafeCheck rule target.bare).status = .fail) : runSafeCheck rule target.bare = runSafeCheck rule target := by
  unfold rules at h
  simp only [List.mem_cons, List.not_mem_nil, or_false] at h
  rcases h with rfl | rfl | rfl | rfl | rfl | rfl
  · cases (judgesPods_checkCrashLoop.bare target).symm.trans hfail
  · cases ((judgesPods_checkImagePull range).bare target).symm.trans hfail
  · cases (judgesPods_checkPendingPod.bare target).symm.trans hfail
  · rfl
  · have hne : (checkZeroEndpoints range target.bare).status ≠ .fail := by
      unfold checkZeroEndpoints
      split
      · split_ifs <;> exact nofun
      · exact nofun
    exact absurd hfail hne
  · rfl

/-! The request. -/

/-- The pods of a target, as a namespace has them. -/
def relatedPods (c : Content) (kind : Kind) (name : String) (obj : Object) : List Pod :=
  match kind with
  | .pod => (c.pods.find? fun p ↦ p.name = name).toList
  | .deployment => deploymentPods name c.replicaSets c.pods
  | .service => servicePods obj c.pods
  | .persistentVolumeClaim => []
  | kind => c.pods.filter fun p ↦ ownedBy kind.name name p.ownerReferences

def Response.results : Response → List Result
  | .diagnostics _ _ _ results _ => results
  | .error _ _ => []

namespace Request

variable (req : Request)

/-- The same request of a user with every permission, when no call fails. -/
def unrestricted : Request :=
  { req with canAccess := fun _ ↦ .ok true, canAccessRelated := fun _ ↦ .ok true, failing := fun _ ↦ none
             failingRelated := fun _ ↦ none }

/-- No verdict and no notification but those of the unrestricted request. -/
structure Honest : Prop where
  results : ∀ r ∈ (handleDiagnostics req).1.results,
    r ∈ (handleDiagnostics req.unrestricted).1.results ∨ ¬r.IsVerdict
  notifications : ∀ n ∈ (handleDiagnostics req).2, n ∈ (handleDiagnostics req.unrestricted).2

/-- The request gets as far as its target. -/
structure Reaches (kind : Kind) (obj : Object) : Prop where
  authenticated : req.authenticated
  known : Kind.ofName req.kind = some kind
  canAccess : req.canAccess kind.resource = .ok true
  fetched : fetchObject ⟨req.content, req.failing⟩ kind req.name = .ok (some obj)

/-- The pods of a target of this kind may be listed, along with the ReplicaSets that lead to them, and no call fails. -/
def seesPods (kind : Kind) : Bool :=
  allowed (req.canAccessRelated "pods") && (req.failingRelated "pods").isNone &&
    (kind ≠ .deployment ||
      allowed (req.canAccessRelated "replicasets") && (req.failingRelated "replicasets").isNone)

def fullTarget (kind : Kind) (obj : Object) : DiagnosticTarget where
  kind := kind
  name := req.name
  ns := req.ns
  object := obj
  pods := relatedPods req.content kind req.name obj

variable {req} {kind : Kind} {obj : Object}

theorem wellResolved_fullTarget : (req.fullTarget kind obj).WellResolved := by
  rintro (rfl : kind = .service) hne
  unfold fullTarget relatedPods servicePods at hne ⊢
  cases obj with
  | service svc =>
    refine ⟨svc, rfl, fun hnil ↦ ?_⟩
    dsimp only at hne
    rw [if_pos hnil] at hne
    exact hne rfl
  | _ => exact absurd rfl hne

theorem listPods_eq (l : Lister) (h : l.failing "pods" = none) : l.listPods = .ok l.content.pods := by
  unfold Lister.listPods Lister.list
  rw [h]

theorem listReplicaSets_eq (l : Lister) (h : l.failing "replicasets" = none) :
    l.listReplicaSets = .ok l.content.replicaSets := by
  unfold Lister.listReplicaSets Lister.list
  rw [h]

/-- The resolution that `Resolve` makes of the pods. -/
def resolvedPods (req : Request) (kind : Kind) (obj : Object) : List Pod :=
  let related := some (resolveRelatedRBAC req.canAccessRelated kind)
  if allowsPods related then
    (resolveRelatedPods ⟨req.content, req.failingRelated⟩ kind req.name obj related).toOption.getD []
  else []

theorem resolvedPods_of_seesPods (hsees : req.seesPods kind = true) :
    req.resolvedPods kind obj = relatedPods req.content kind req.name obj := by
  unfold seesPods at hsees
  simp only [Bool.and_eq_true, Option.isNone_iff_eq_none] at hsees
  obtain ⟨⟨hpods, hlist⟩, hreplicaSets⟩ := hsees
  have hcall := listPods_eq ⟨req.content, req.failingRelated⟩ hlist
  unfold resolvedPods resolveRelatedPods
  cases kind with
  | deployment =>
    have hallowed : allowed (req.canAccessRelated "replicasets") = true ∧ req.failingRelated "replicasets" = none := by
      simpa using hreplicaSets
    have hcall' := listReplicaSets_eq ⟨req.content, req.failingRelated⟩ hallowed.2
    rw [hcall]
    simp [allowsPods, allowsReplicaSets, resolveRelatedRBAC, kindNeedsPods, kindNeedsReplicaSets, hpods, hallowed.1, hcall',
      relatedPods, Bind.bind, Except.bind, pure, Except.pure, Except.toOption]
  | persistentVolumeClaim => rfl
  | _ =>
    rw [hcall]
    simp [allowsPods, resolveRelatedRBAC, kindNeedsPods, hpods, relatedPods, Bind.bind, Except.bind, pure, Except.pure,
      Except.toOption]

theorem resolvedPods_of_not_seesPods (hsees : req.seesPods kind = false) : req.resolvedPods kind obj = [] := by
  unfold resolvedPods allowsPods resolveRelatedRBAC
  dsimp only [Option.all_some]
  split
  · next hpods =>
    rw [Bool.and_eq_true] at hpods
    unfold seesPods at hsees
    rw [hpods.2, Bool.true_and] at hsees
    unfold resolveRelatedPods
    cases hlist : req.failingRelated "pods" with
    | some err => simp [Lister.listPods, Lister.list, hlist, Bind.bind, Except.bind, Except.toOption]
    | none =>
      rw [hlist, Option.isNone_none, Bool.true_and, Bool.or_eq_false_iff, decide_eq_false_iff_not, not_not] at hsees
      obtain ⟨rfl, hreplicaSets⟩ := hsees
      rw [listPods_eq _ hlist]
      rw [Bool.and_eq_false_iff] at hreplicaSets
      rcases hreplicaSets with hdenied | hfails
      · simp [allowsReplicaSets, kindNeedsReplicaSets, hdenied, Bind.bind, Except.bind, pure, Except.pure, Except.toOption]
      · obtain ⟨err, herr⟩ := Option.isSome_iff_exists.mp (Option.isNone_eq_false_iff.mp hfails)
        simp only [Bind.bind, Except.bind]
        split
        · simp [Lister.listReplicaSets, Lister.list, herr, Except.toOption]
        · rfl
  · rfl

/-- What is resolved are the pods of the target or none. -/
theorem resolve_eq (h : req.Reaches kind obj) :
    resolve ⟨req.content, req.failing⟩ ⟨req.content, req.failingRelated⟩ req.ns kind req.name
        (some (resolveRelatedRBAC req.canAccessRelated kind)) =
      .ok (if req.seesPods kind then req.fullTarget kind obj else (req.fullTarget kind obj).bare) := by
  have hresolved : resolve ⟨req.content, req.failing⟩ ⟨req.content, req.failingRelated⟩ req.ns kind req.name
      (some (resolveRelatedRBAC req.canAccessRelated kind)) =
        .ok { kind, name := req.name, ns := req.ns, object := obj, pods := req.resolvedPods kind obj } := by
    unfold resolve
    rw [h.fetched]
    rfl
  rw [hresolved]
  cases hsees : req.seesPods kind with
  | true => rw [resolvedPods_of_seesPods hsees, if_pos rfl, fullTarget]
  | false => rw [resolvedPods_of_not_seesPods hsees, if_neg Bool.false_ne_true, fullTarget, DiagnosticTarget.bare]

theorem handleDiagnostics_of_reaches (h : req.Reaches kind obj) :
    let target := if req.seesPods kind then req.fullTarget kind obj else (req.fullTarget kind obj).bare
    (handleDiagnostics req).1.results = runDiagnostics req.range target ∧
      (handleDiagnostics req).2 = ((runDiagnostics req.range target).filter fun result ↦ result.status = .fail).map
        (notification req.ns req.kind req.name) := by
  unfold handleDiagnostics
  rw [h.authenticated, h.known]
  simp only [Bool.not_true, Bool.false_eq_true, if_false, h.canAccess, resolve_eq h]
  exact ⟨rfl, trivial⟩

theorem resolve_error {l : Lister} {name : String} (h : ∀ obj, fetchObject l kind name ≠ .ok (some obj)) (l' : Lister)
    (ns : String) (related : Option RelatedRBAC) : ∃ err, resolve l l' ns kind name related = .error err := by
  unfold resolve
  cases hfetched : fetchObject l kind name with
  | error err => exact ⟨_, rfl⟩
  | ok found =>
    cases found with
    | none => exact ⟨_, rfl⟩
    | some obj => exact absurd hfetched (h obj)

theorem handleDiagnostics_of_not_reaches (h : ∀ kind obj, ¬req.Reaches kind obj) :
    (handleDiagnostics req).1.results = [] ∧ (handleDiagnostics req).2 = [] := by
  unfold handleDiagnostics
  cases hauthenticated : req.authenticated with
  | false => exact ⟨rfl, rfl⟩
  | true =>
    cases hknown : Kind.ofName req.kind with
    | none => exact ⟨rfl, rfl⟩
    | some kind =>
      dsimp only
      cases haccess : req.canAccess kind.resource with
      | error err => exact ⟨rfl, rfl⟩
      | ok answer =>
        cases answer with
        | false => exact ⟨rfl, rfl⟩
        | true =>
          have hfetched : ∀ obj, fetchObject ⟨req.content, req.failing⟩ kind req.name ≠ .ok (some obj) :=
            fun obj hobj ↦ h kind obj ⟨hauthenticated, hknown, haccess, hobj⟩
          obtain ⟨err, herr⟩ := resolve_error hfetched ⟨req.content, req.failingRelated⟩ req.ns
            (some (resolveRelatedRBAC req.canAccessRelated kind))
          simp only [Bool.not_true, Bool.false_eq_true, if_false, herr]
          split_ifs
          · exact ⟨rfl, rfl⟩
          · exact ⟨rfl, rfl⟩

/-- A call that answers answers the same when no call fails. -/
theorem list_bind_ok {α β : Type} {l : Lister} {resource : String} {items : Content → List α}
    {f : List α → Except String β} {b : β} (h : l.list resource items >>= f = .ok b) :
    (⟨l.content, fun _ ↦ none⟩ : Lister).list resource items >>= f = .ok b := by
  unfold Lister.list at h ⊢
  cases hfailing : l.failing resource with
  | some err =>
    rw [hfailing] at h
    cases h
  | none =>
    rw [hfailing] at h
    exact h

theorem fetchObject_ok {l : Lister} {name : String} (h : fetchObject l kind name = .ok (some obj)) :
    fetchObject ⟨l.content, fun _ ↦ none⟩ kind name = .ok (some obj) := by
  cases kind with
  | _ => exact list_bind_ok h

theorem reaches_unrestricted (h : req.Reaches kind obj) : req.unrestricted.Reaches kind obj :=
  ⟨h.authenticated, h.known, rfl, fetchObject_ok h.fetched⟩

theorem seesPods_unrestricted : req.unrestricted.seesPods kind = true := by
  unfold seesPods unrestricted allowed
  simp [Except.toOption]

theorem handleDiagnostics_unrestricted (h : req.Reaches kind obj) :
    (handleDiagnostics req.unrestricted).1.results = runDiagnostics req.range (req.fullTarget kind obj) ∧
      (handleDiagnostics req.unrestricted).2 = ((runDiagnostics req.range (req.fullTarget kind obj)).filter
        fun result ↦ result.status = .fail).map (notification req.ns req.kind req.name) := by
  have hanswer := handleDiagnostics_of_reaches (reaches_unrestricted h)
  rwa [seesPods_unrestricted, if_pos rfl] at hanswer

/-- A notification never says more than the unrestricted diagnosis: what fails without pods fails with them. -/
theorem notifications_subset (req : Request) : ∀ n ∈ (handleDiagnostics req).2, n ∈ (handleDiagnostics req.unrestricted).2 := by
  by_cases hreach : ∃ kind obj, req.Reaches kind obj
  · obtain ⟨kind, obj, hreaches⟩ := hreach
    rw [(handleDiagnostics_of_reaches hreaches).2, (handleDiagnostics_unrestricted hreaches).2]
    cases hsees : req.seesPods kind with
    | true => exact fun n hn ↦ hn
    | false =>
      intro n hn
      obtain ⟨r, hr, rfl⟩ := List.mem_map.mp hn
      obtain ⟨hmem, hfail⟩ := List.mem_filter.mp hr
      obtain ⟨rule, hrule, happlies, rfl⟩ := mem_runDiagnostics.mp hmem
      have heq := eq_of_bare_fail hrule (of_decide_eq_true hfail)
      refine List.mem_map_of_mem (List.mem_filter.mpr ⟨mem_runDiagnostics.mpr ⟨rule, hrule, happlies, heq.symm⟩, hfail⟩)
  · rw [(handleDiagnostics_of_not_reaches fun kind obj hreaches ↦ hreach ⟨kind, obj, hreaches⟩).2]
    exact fun _ hn ↦ absurd hn List.not_mem_nil

/-- A diagnosis says what the unrestricted one says exactly where the pods of the target are seen, or it has none
that a rule has something to say of. -/
theorem honest_iff (req : Request) : req.Honest ↔ ∀ kind obj, req.Reaches kind obj →
    req.seesPods kind = true ∨ (req.fullTarget kind obj).hidesNothing = true := by
  constructor
  · intro h kind obj hreaches
    cases hsees : req.seesPods kind with
    | true => exact .inl rfl
    | false =>
      have hhonest := h.results
      rw [(handleDiagnostics_of_reaches hreaches).1, (handleDiagnostics_unrestricted hreaches).1, hsees,
        if_neg Bool.false_ne_true] at hhonest
      have hagrees : (req.fullTarget kind obj).Agrees req.range := by
        intro rule hrule happlies
        rcases hhonest _ (mem_runDiagnostics.mpr ⟨rule, hrule, happlies, rfl⟩) with hsame | hno
        · exact (runSafeCheck_mem_iff hrule happlies).mp hsame
        · exact absurd (isVerdict_of_mem hrule) hno
      exact .inr ((agrees_iff wellResolved_fullTarget).mp hagrees)
  · intro h
    refine ⟨?_, notifications_subset req⟩
    by_cases hreach : ∃ kind obj, req.Reaches kind obj
    · obtain ⟨kind, obj, hreaches⟩ := hreach
      rw [(handleDiagnostics_of_reaches hreaches).1, (handleDiagnostics_unrestricted hreaches).1]
      cases hsees : req.seesPods kind with
      | true => exact fun r hr ↦ .inl hr
      | false =>
        have hhides := (h kind obj hreaches).resolve_left (Bool.eq_false_iff.mp hsees)
        have hagrees : (req.fullTarget kind obj).Agrees req.range := (agrees_iff wellResolved_fullTarget).mpr hhides
        intro r hr
        obtain ⟨rule, hrule, happlies, rfl⟩ := mem_runDiagnostics.mp hr
        exact .inl (mem_runDiagnostics.mpr ⟨rule, hrule, happlies, (hagrees rule hrule happlies).symm⟩)
    · rw [(handleDiagnostics_of_not_reaches fun kind obj hreaches ↦ hreach ⟨kind, obj, hreaches⟩).1]
      exact fun _ hr ↦ absurd hr List.not_mem_nil

/-- A Deployment whose Pod crashes, asked for by a user who may list Deployments only. -/
def deploymentsOnly : Request where
  ns := "shop"
  kind := "Deployment"
  name := "cart"
  content :=
    { deployments := [{ name := "cart", replicas := some 1 }]
      replicaSets := [{ name := "cart-6d4b7", ownerReferences := [⟨"Deployment", "cart"⟩] }]
      pods := [{ name := "cart-6d4b7-x2", ownerReferences := [⟨"ReplicaSet", "cart-6d4b7"⟩]
                 containerStatuses := [{ waiting := some "CrashLoopBackOff" }] }] }
  canAccessRelated _ := .ok false
  range := ⟨id, List.Perm.refl⟩

/-- The user is told that no pod crashes. -/
theorem not_honest : ¬ ∀ req : Request, req.Honest := by
  intro h
  have hreaches : deploymentsOnly.Reaches .deployment (.deployment { name := "cart", replicas := some 1 }) :=
    ⟨rfl, by decide, rfl, rfl⟩
  have hresults := (h deploymentsOnly).results
  rw [(handleDiagnostics_of_reaches hreaches).1, (handleDiagnostics_unrestricted hreaches).1,
    if_neg (by decide)] at hresults
  have hrule : (⟨"CrashLoopBackOff", .critical, podKinds, checkCrashLoop⟩ : RuleEntry) ∈ rules deploymentsOnly.range :=
    List.mem_cons_self
  rcases hresults _ (mem_runDiagnostics.mpr ⟨_, hrule, by decide, rfl⟩) with hsame | hno
  · have hnone := (crashLoop_bare_iff _).mp ((runSafeCheck_mem_iff hrule (by decide)).mp hsame)
    have hcrash : (deploymentsOnly.fullTarget .deployment
      (.deployment { name := "cart", replicas := some 1 })).pods.any Pod.crashLoops = true := by decide
    obtain ⟨pod, hpod, hs⟩ := List.any_eq_true.mp hcrash
    exact Bool.eq_false_iff.mp (hnone pod hpod) hs
  · exact hno (isVerdict_of_mem hrule)

end Request

end KubeCenter.Diagnostics
