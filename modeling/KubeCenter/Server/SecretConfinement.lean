import KubeCenter.Core.Http
import KubeCenter.Resources.ClusterScope
import KubeCenter.Server.SecretRuns

/-! What the values of stored Secrets show through in, short of a reveal: two runs of the same requests on clusters that
differ in the values alone. -/

namespace KubeCenter.Server.SecretConfinement

open KubeCenter.Core KubeCenter.Resources KubeCenter.K8s Function
open List (Forall₂)

variable {ρ : Type} {lib : Yaml.Library} {serve : APIServer ρ} {r r' : Reply} {q : ClientCall} {s s' : State ρ}

theorem Lawful.answers (h : Lawful serve) (hs : Alike s s')
    (hobs : ∀ f ∈ observe q, f (serve q s).1 = f (serve q s').1) :
    SameAnswer q (serve q s).1 (serve q s').1 ∧ Alike (serve q s).2 (serve q s').2 := by
  unfold SameAnswer
  cases hq : access q with
  | elsewhere => exact h.elsewhere hq hs
  | read => exact h.read hq hs
  | list => exact h.list hq hs
  | write =>
    have houtcome : outcome (serve q s).1 = outcome (serve q s').1 := by
      refine hobs outcome ?_
      rw [observe, if_pos hq]
      rfl
    exact ⟨⟨houtcome, fun htyped ↦ h.submitted hq htyped hs houtcome⟩, h.write hq hs houtcome⟩

theorem sameAnswer_cancelled (q : ClientCall) : SameAnswer q cancelled cancelled := by
  unfold SameAnswer
  split
  · rfl
  · exact rfl
  · exact rfl
  · exact ⟨rfl, fun _ ↦ rfl⟩

/-! The scripts, each against itself. -/

abbrev Blind {α : Type} (p : Core.Script ClientCall Reply α) : Prop := Core.Script.Related SameAnswer p p

theorem blind_map {α β : Type} {p : Core.Script ClientCall Reply α} (h : Blind p) (f : α → β) : Blind (p.map f) := h.map f

/-- What every adapter's create, update and delete is: no call, or one write. -/
def OneWrite (p : AdapterScript) : Prop :=
  (∃ a, p = .done a) ∨ ∃ q, p = send q ∧ (access (.typed q) = .elsewhere ∨ access (.typed q) = .write)

theorem OneWrite.blind {p : AdapterScript} (h : OneWrite p) : Blind (p.mapCalls ClientCall.typed) := by
  obtain ⟨a, rfl⟩ | ⟨q, rfl, hq⟩ := h
  · exact .done a
  · refine .call (ClientCall.typed q) (fun r r' hr ↦ ?_)
    have heq : r = r' := by
      unfold SameAnswer at hr
      rcases hq with hq | hq <;> rw [hq] at hr
      · exact hr
      · exact hr.2 rfl
    rw [heq]
    exact .done _

structure WritesOnce (a : Adapter) : Prop where
  create : ∀ ns body, OneWrite (a.create ns body)
  update : ∀ ns name body, OneWrite (a.update ns name body)
  delete : ∀ ns name, OneWrite (a.delete ns name)

section Adapters

variable (mach : Apimachinery) (restartedAt kind resource displayName : String) (clusterScoped : Bool)

theorem access_write {resource : String} : (if resource = kindSecret then Access.write else .elsewhere) = .elsewhere ∨
    (if resource = kindSecret then Access.write else .elsewhere) = .write := by
  split
  · exact .inr rfl
  · exact .inl rfl

theorem oneWrite_createTyped (ns : String) (body : Bytes) : OneWrite (createTyped mach resource clusterScoped ns body) := by
  unfold createTyped
  split
  · exact .inl ⟨_, rfl⟩
  · exact .inr ⟨_, rfl, access_write⟩

theorem oneWrite_updateTyped (ns name : String) (body : Bytes) :
    OneWrite (updateTyped mach resource clusterScoped ns name body) := by
  unfold updateTyped
  split
  · exact .inl ⟨_, rfl⟩
  · exact .inr ⟨_, rfl, access_write⟩

theorem oneWrite_delete (ns name : String) (propagation : Option String) :
    OneWrite (send (.delete resource ns name propagation)) := .inr ⟨_, rfl, access_write⟩

theorem writesOnce_readOnly : WritesOnce (readOnlyAdapter kind resource displayName clusterScoped) where
  create _ _ := .inl ⟨_, rfl⟩
  update _ _ _ := .inl ⟨_, rfl⟩
  delete _ _ := .inl ⟨_, rfl⟩

theorem writesOnce_createDelete : WritesOnce (createDeleteAdapter mach kind resource displayName clusterScoped) where
  create := oneWrite_createTyped mach resource clusterScoped
  update _ _ _ := .inl ⟨_, rfl⟩
  delete ns name := oneWrite_delete resource ns name none

theorem writesOnce_crud : WritesOnce (crudAdapter mach kind resource displayName clusterScoped) where
  create := oneWrite_createTyped mach resource clusterScoped
  update := oneWrite_updateTyped mach resource clusterScoped
  delete ns name := oneWrite_delete resource ns name none

/-- The capabilities of an adapter are beside the point. -/
theorem WritesOnce.of_eq {a b : Adapter} (h : WritesOnce a) (hcreate : b.create = a.create) (hupdate : b.update = a.update)
    (hdelete : b.delete = a.delete) : WritesOnce b where
  create := hcreate ▸ h.create
  update := hupdate ▸ h.update
  delete := hdelete ▸ h.delete

theorem writesOnce_of_mem {a : Adapter} (h : a ∈ registry mach restartedAt) : WritesOnce a := by
  have hjob : WritesOnce (jobAdapter mach) :=
    ⟨oneWrite_createTyped mach "jobs" false, fun _ _ _ ↦ .inl ⟨_, rfl⟩, fun ns name ↦ oneWrite_delete _ ns name _⟩
  have hpod : WritesOnce podAdapter :=
    ⟨fun _ _ ↦ .inl ⟨_, rfl⟩, fun _ _ _ ↦ .inl ⟨_, rfl⟩, fun ns name ↦ oneWrite_delete _ ns name _⟩
  have hall : ∀ a ∈ registry mach restartedAt, WritesOnce a := by
    simp only [registry, List.forall_mem_cons]
    exact ⟨writesOnce_crud .., writesOnce_readOnly .., writesOnce_crud ..,
      (writesOnce_createDelete mach "cronjobs" "cronjobs" "CronJob" false).of_eq rfl rfl rfl,
      (writesOnce_crud mach "daemonsets" "daemonsets" "DaemonSet" false).of_eq rfl rfl rfl,
      (writesOnce_crud mach "deployments" "deployments" "Deployment" false).of_eq rfl rfl rfl, writesOnce_readOnly .., writesOnce_readOnly ..,
      writesOnce_readOnly .., writesOnce_crud .., writesOnce_crud .., hjob, writesOnce_readOnly ..,
      writesOnce_createDelete .., writesOnce_crud .., writesOnce_readOnly .., writesOnce_createDelete .., hpod,
      writesOnce_createDelete .., writesOnce_readOnly .., writesOnce_readOnly .., writesOnce_readOnly ..,
      writesOnce_crud .., writesOnce_readOnly .., (writesOnce_crud mach "secrets" "secrets" "Secret" false).of_eq rfl rfl rfl,
      writesOnce_readOnly .., writesOnce_crud .., (writesOnce_crud mach "statefulsets" "statefulsets" "StatefulSet" false).of_eq rfl rfl rfl,
      writesOnce_readOnly .., writesOnce_readOnly .., writesOnce_readOnly .., List.forall_mem_nil _⟩
  exact hall a h

end Adapters

variable {env : Env} {c : String} {req : Request}

theorem resolveAdapter_mem {a : Adapter} (h : resolveAdapter env req = .ok a) : WritesOnce a := by
  unfold resolveAdapter at h
  split at h
  · next hget =>
    cases h
    exact writesOnce_of_mem _ _ (List.mem_of_find?_eq_some hget)
  · cases h

theorem oneWrite_create {write : Write} (h : createResource env c req = .ok write) : OneWrite write.script := by
  obtain ⟨a, ha, h⟩ := bind_eq_ok.mp h
  obtain ⟨user, -, h⟩ := bind_eq_ok.mp h
  obtain ⟨-, -, h⟩ := bind_eq_ok.mp h
  obtain ⟨body, -, h⟩ := bind_eq_ok.mp h
  cases h
  exact (resolveAdapter_mem ha).create _ _

theorem oneWrite_update {write : Write} (h : updateResource env c req = .ok write) : OneWrite write.script := by
  obtain ⟨a, ha, h⟩ := bind_eq_ok.mp h
  obtain ⟨user, -, h⟩ := bind_eq_ok.mp h
  obtain ⟨-, -, h⟩ := bind_eq_ok.mp h
  obtain ⟨body, -, h⟩ := bind_eq_ok.mp h
  cases h
  exact (resolveAdapter_mem ha).update _ _ _

theorem oneWrite_deleteResource {write : Write} (h : deleteResource env c req = .ok write) : OneWrite write.script := by
  obtain ⟨a, ha, h⟩ := bind_eq_ok.mp h
  obtain ⟨user, -, h⟩ := bind_eq_ok.mp h
  obtain ⟨-, -, h⟩ := bind_eq_ok.mp h
  cases h
  exact (resolveAdapter_mem ha).delete _ _

theorem writeJob_blind {asked : Except Response Write} (h : ∀ write, asked = .ok write → OneWrite write.script) {job : Job}
    (hjob : writeJob asked = .ok job) : Blind job.script := by
  unfold writeJob at hjob
  split at hjob
  · cases hjob
  · next write =>
    cases hjob
    exact blind_map (h write rfl).blind _

theorem sameReply_read {q : ClientCall} (hq : access q = .read) {r r' : Reply} (h : SameAnswer q r r') :
    SameReply SameButValues r r' := by
  unfold SameAnswer at h
  rwa [hq] at h

theorem secretJob_blind {asked : Except Response (Core.Script ClientCall Reply SecretResponse)}
    (h : ∀ p, asked = .ok p → Blind p) {job : Job} (hjob : secretJob asked = .ok job) : Blind job.script := by
  unfold secretJob at hjob
  split at hjob
  · cases hjob
  · next p =>
    cases hjob
    exact blind_map (h p rfl) _

theorem map_masked {l l' : List Json} (h : Forall₂ SameButValues l l') : l.map maskedSecret = l'.map maskedSecret := by
  induction h with
  | nil => rfl
  | cons hj _ ih => rw [List.map_cons, List.map_cons, hj.masked, ih]

/-- The list shows what masking leaves. -/
theorem handleListSecrets_blind {p : Core.Script ClientCall Reply SecretResponse}
    (h : handleListSecrets env c req = .ok p) : Blind p := by
  obtain ⟨user, -, h⟩ := bind_eq_ok.mp h
  obtain ⟨-, -, h⟩ := bind_eq_ok.mp h
  cases h
  refine .call _ (fun r r' hr ↦ ?_)
  have hlist : SameReply SameList r r' := hr
  cases r <;> cases r'
  · cases hlist
    exact .done _
  · cases hlist
  · cases hlist
  · dsimp only
    rw [map_masked (SameList.items hlist), SameList.token hlist]
    exact .done _

theorem handleGetSecret_blind {p : Core.Script ClientCall Reply SecretResponse}
    (h : handleGetSecret env c req = .ok p) : Blind p := by
  obtain ⟨user, -, h⟩ := bind_eq_ok.mp h
  obtain ⟨-, -, h⟩ := bind_eq_ok.mp h
  cases h
  refine .call _ (fun r r' hr ↦ ?_)
  have hread : SameReply SameButValues r r' := sameReply_read rfl hr
  cases r <;> cases r'
  · cases hread
    exact .done _
  · cases hread
  · cases hread
  · dsimp only
    rw [SameButValues.masked hread]
    exact .done _

/-! The YAML handlers. Of a Secret they pass on errors and resource versions. -/

open Yaml

theorem outcome_cases (h : outcome r = outcome r') : (∃ err, r = .error err ∧ r' = .error err) ∨
    ∃ j j', r = .ok j ∧ r' = .ok j' ∧ resourceVersion j = resourceVersion j' := by
  cases r with
  | error err =>
    cases r' with
    | error err' => exact .inl ⟨err, rfl, by cases h; rfl⟩
    | ok j' => cases h
  | ok j =>
    cases r' with
    | error err' => cases h
    | ok j' => exact .inr ⟨j, j', rfl, rfl, Except.ok.inj h⟩

theorem eq_of_elsewhere (hq : access q = .elsewhere) (h : SameAnswer q r r') : r = r' := by
  unfold SameAnswer at h
  rwa [hq] at h

theorem outcome_get {gvr : GVR} {ns name : String} (h : SameAnswer (.get gvr ns name) r r') : outcome r = outcome r' := by
  by_cases hgvr : GVR.isSecrets gvr = true
  · have hq : access (.get gvr ns name) = .read := if_pos hgvr
    have hread := sameReply_read hq h
    cases r <;> cases r'
    · exact congrArg Except.error hread.symm
    · cases hread
    · cases hread
    · exact congrArg Except.ok (SameButValues.nestedString hread (by decide))
  · have hq : access (.get gvr ns name) = .elsewhere := if_neg hgvr
    exact congrArg outcome (eq_of_elsewhere hq h)

theorem outcome_apply {gvr : GVR} {ns name : String} {obj : Json} {force dryRun : Bool}
    (h : SameAnswer (.apply gvr ns name obj force dryRun) r r') : outcome r = outcome r' := by
  by_cases hgvr : GVR.isSecrets gvr = true
  · have hq : access (.apply gvr ns name obj force dryRun) = .write := if_pos hgvr
    unfold SameAnswer at h
    rw [hq] at h
    exact h.1
  · have hq : access (.apply gvr ns name obj force dryRun) = .elsewhere := if_neg hgvr
    exact congrArg outcome (eq_of_elsewhere hq h)

theorem applyAction_congr {j j' : Json} (h : outcome r = outcome r') (hj : resourceVersion j = resourceVersion j') :
    applyAction r j = applyAction r' j' := by
  obtain ⟨err, rfl, rfl⟩ | ⟨i, i', rfl, rfl, hi⟩ := outcome_cases h
  · cases err with
    | status kind message => cases kind <;> rfl
    | other message => rfl
  · simp only [applyAction, hi, hj]

theorem applyOne_blind (ctxDone : ℕ → Bool) (force : Bool) (i : ℕ) (obj : Json) : Blind (applyOne lib ctxDone force i obj) := by
  unfold applyOne
  dsimp only
  split
  · exact .done _
  · refine .call _ (fun existing existing' hget ↦ .call _ (fun r r' happly ↦ ?_))
    obtain ⟨err, rfl, rfl⟩ | ⟨j, j', rfl, rfl, hj⟩ := outcome_cases (outcome_apply happly)
    · exact .done _
    · dsimp only
      rw [applyAction_congr (outcome_get hget) hj]
      exact .done _

/-- The diff of a document whose kind is not a Secret's. -/
theorem diffOne_blind {obj : Json} (i : ℕ)
    (hobj : ∀ mapping, lib.restMapping (gvkOf obj) 0 = .ok mapping → GVR.isSecrets mapping.resource ≠ true) :
    Blind (diffOne lib i obj) := by
  have hdry : ∀ {mapping : Mapping}, GVR.isSecrets mapping.resource ≠ true → ∀ doc current,
      Blind (dryRunApply lib mapping obj doc current) := by
    intro mapping hmapping doc current
    refine .call _ (fun r r' happly ↦ ?_)
    have hq : access (.apply mapping.resource (scopeFor mapping obj) (objectName obj) obj false true) = .elsewhere :=
      if_neg hmapping
    rw [eq_of_elsewhere hq happly]
    cases r' <;> exact .done _
  unfold diffOne
  dsimp only
  split
  · exact .done _
  · next mapping hmapping =>
    refine .call _ (fun r r' hget ↦ ?_)
    have hq : access (.get mapping.resource (scopeFor mapping obj) (objectName obj)) = .elsewhere :=
      if_neg (hobj mapping hmapping)
    rw [eq_of_elsewhere hq hget]
    split
    · exact hdry (hobj mapping hmapping) _ _
    · exact .done _
    · exact hdry (hobj mapping hmapping) _ _

theorem serialized_error (hlib : Discovers lib) (doc : DiffDocument) (current : Option Json) (proposed : Json) :
    (serialized lib doc current proposed).error = doc.error := by
  obtain ⟨text, htext⟩ := hlib.marshal (cleanForExport proposed)
  have hcurrent : ∃ text, current.mapM (exportToYAML lib) = .ok text := by
    cases current with
    | none => exact ⟨none, rfl⟩
    | some j =>
      obtain ⟨text, htext⟩ := hlib.marshal (cleanForExport j)
      exact ⟨some text, by simp only [Option.mapM_some, exportToYAML, htext]; rfl⟩
  obtain ⟨there, hthere⟩ := hcurrent
  simp only [serialized, hthere, exportToYAML, htext]

/-- Whether a document is valid does not hang on what there is, nor on what the dry run makes of it. -/
theorem validateOne_blind (hlib : Discovers lib) (i : ℕ) (obj : Json) : Blind (validateOne lib i obj) := by
  have hdry : ∀ mapping doc current current', Core.Script.Related SameAnswer
      ((dryRunApply lib mapping obj doc current).map (fun doc ↦ docResult i obj doc.error))
      ((dryRunApply lib mapping obj doc current').map (fun doc ↦ docResult i obj doc.error)) := by
    intro mapping doc current current'
    refine .call _ (fun r r' happly ↦ ?_)
    obtain ⟨err, rfl, rfl⟩ | ⟨j, j', rfl, rfl, -⟩ := outcome_cases (outcome_apply happly)
    · exact .done _
    · simp only [Core.Script.bind, serialized_error hlib]
      exact .done _
  unfold validateOne diffOne
  dsimp only
  split
  · exact .done _
  · refine .call _ (fun r r' hget ↦ ?_)
    obtain ⟨err, rfl, rfl⟩ | ⟨j, j', rfl, rfl, -⟩ := outcome_cases (outcome_get hget)
    · dsimp only
      split
      · exact hdry _ _ _ _
      · exact .done _
      · exact hdry _ _ _ _
    · exact hdry _ _ _ _

theorem exportScript_blind {kind ns name : String}
    (hkind : ∀ gvr, resolveGVR lib kind = .ok gvr → GVR.isSecrets gvr ≠ true) : Blind (exportScript lib kind ns name) := by
  unfold exportScript
  split
  · exact .done _
  · next gvr hgvr =>
    refine .call _ (fun r r' hget ↦ ?_)
    have hq : access (.get gvr ns name) = .elsewhere := if_neg (hkind gvr hgvr)
    rw [eq_of_elsewhere hq hget]
    split
    · exact .done _
    · split <;> exact .done _

theorem forEachDoc_blind {α : Type} {f : ℕ → Json → Yaml.Script α} {docs : List Json}
    (h : ∀ i, ∀ obj ∈ docs, Blind (f i obj)) (i : ℕ) : Blind (forEachDoc f i docs) := by
  induction docs generalizing i with
  | nil => exact .done _
  | cons obj docs ih =>
    refine Core.Script.Related.bind (h i obj List.mem_cons_self) (fun a ↦ blind_map ?_ _)
    exact ih (fun i obj hobj ↦ h i obj (List.mem_cons_of_mem _ hobj)) (i + 1)

/-- A kind that is resolved to the Secrets is a spelling of their name. -/
theorem resolveGVR_secrets (hlib : Discovers lib) {kind : String} {gvr : GVR} (h : resolveGVR lib kind = .ok gvr)
    (hgvr : GVR.isSecrets gvr = true) : lib.equalFold kind kindSecret = true := by
  have hresource : gvr.resource = kindSecret := (of_decide_eq_true hgvr).2
  have hname : lib.equalFold gvr.resource (lib.lower kind) = true := by
    unfold resolveGVR at h
    split at h
    · cases h
    · next lists hlists =>
      dsimp only at h
      split at h
      · next found hfound =>
        cases h
        obtain ⟨⟨gv, names⟩, -, hgv⟩ := List.exists_of_findSome?_eq_some hfound
        obtain ⟨⟨group, version⟩, -, hmap⟩ := Option.bind_eq_some_iff.mp hgv
        obtain ⟨name, hfind, rfl⟩ := Option.map_eq_some_iff.mp hmap
        have hfolds := List.find?_some hfind
        exact hfolds
      · cases h
  have hfold : kindSecret.toList.map lib.fold = (kind.toList.map lib.toLower).map lib.fold := by
    have hfold := of_decide_eq_true hname
    rwa [hresource, Yaml.Library.lower, String.toList_ofList] at hfold
  have hmem : ∀ ch ∈ kind.toList, lib.fold (lib.toLower ch) ∈ kindSecret.toList.map lib.fold := by
    intro ch hch
    rw [hfold]
    exact List.mem_map_of_mem (List.mem_map_of_mem hch)
  refine decide_eq_true ?_
  rw [hfold, List.map_map]
  exact List.map_congr_left (fun ch hch ↦ hlib.lower ch (hmem ch hch))

theorem yamlJob_blind {asked : Except Response Ask} (h : ∀ ask, asked = .ok ask → Blind ask.script) {job : Job}
    (hjob : yamlJob c asked = .ok job) : Blind job.script := by
  unfold yamlJob at hjob
  split at hjob
  · cases hjob
  · next ask =>
    cases hjob
    exact blind_map (h ask rfl) _

variable {body : Except String Bytes} {ask : Ask}

theorem handleValidate_blind (hlib : Discovers lib) (h : handleValidate lib env body = .ok ask) : Blind ask.script := by
  obtain ⟨user, -, h⟩ := bind_eq_ok.mp h
  obtain ⟨docs, -, h⟩ := bind_eq_ok.mp h
  cases h
  exact blind_map (forEachDoc_blind (fun i obj _ ↦ validateOne_blind hlib i obj) 0) _

theorem handleApply_blind {force : Bool} {ctxDone : ℕ → ℕ → Bool} (h : handleApply lib env body force ctxDone = .ok ask) :
    Blind ask.script := by
  obtain ⟨user, -, h⟩ := bind_eq_ok.mp h
  obtain ⟨docs, -, h⟩ := bind_eq_ok.mp h
  cases h
  exact blind_map (blind_map (forEachDoc_blind (fun i obj _ ↦ applyOne_blind (ctxDone i) force i obj) 0) _) _

theorem gvkOf_kind {obj : Json} {kind : String} (hkind : kind ≠ "") (h : (gvkOf obj).kind = kind) : kindOf obj = kind := by
  unfold gvkOf at h
  split at h
  · exact h
  · exact absurd h.symm hkind

/-- No Secret is diffed, however its kind is spelled. -/
theorem handleDiff_blind (hlib : Discovers lib) (h : handleDiff lib env body = .ok ask) : Blind ask.script := by
  obtain ⟨user, -, h⟩ := bind_eq_ok.mp h
  obtain ⟨docs, -, h⟩ := bind_eq_ok.mp h
  split at h
  · cases h
  · next hsecret =>
    cases h
    refine blind_map (forEachDoc_blind (fun i obj hobj ↦ diffOne_blind i (fun mapping hmapping hgvr ↦ hsecret ?_)) 0) _
    have hkind : kindOf obj = "Secret" := gvkOf_kind (by decide) (hlib.mapping hmapping hgvr)
    refine List.any_eq_true.mpr ⟨obj, hobj, ?_⟩
    rw [isSecretKind, hkind, Yaml.Library.equalFold]
    exact decide_eq_true rfl

/-- Nor is one exported. -/
theorem handleExport_blind (hlib : Discovers lib) {kind ns name : String} (h : handleExport lib env kind ns name = .ok ask) :
    Blind ask.script := by
  obtain ⟨user, -, h⟩ := bind_eq_ok.mp h
  split at h
  · cases h
  split at h
  · cases h
  split at h
  · cases h
  split at h
  · cases h
  · next hkind =>
    cases h
    exact exportScript_blind (fun gvr hgvr hsecrets ↦ hkind (.inl (resolveGVR_secrets hlib hgvr hsecrets)))

theorem Endpoint.job_blind (hlib : Discovers lib) {endpoint : Endpoint} {job : Job}
    (h : endpoint.job lib env c req = .ok job) : Blind job.script := by
  cases endpoint with
  | listSecrets => exact secretJob_blind (fun _ hp ↦ handleListSecrets_blind hp) h
  | getSecret => exact secretJob_blind (fun _ hp ↦ handleGetSecret_blind hp) h
  | create => exact writeJob_blind (fun _ hwrite ↦ oneWrite_create hwrite) h
  | update => exact writeJob_blind (fun _ hwrite ↦ oneWrite_update hwrite) h
  | delete => exact writeJob_blind (fun _ hwrite ↦ oneWrite_deleteResource hwrite) h
  | validate body => exact yamlJob_blind (fun _ hask ↦ handleValidate_blind hlib hask) h
  | apply body force ctxDone => exact yamlJob_blind (fun _ hask ↦ handleApply_blind hask) h
  | diff body => exact yamlJob_blind (fun _ hask ↦ handleDiff_blind hlib hask) h
  | «export» => exact yamlJob_blind (fun _ hask ↦ handleExport_blind hlib hask) h

/-! The runs. -/

/-- Two sets of clusters: the same clients, on clusters that differ only in the values of their Secrets. -/
structure AlikeClusters (w w' : Clusters ρ) : Prop where
  client : ∀ i, (w' i).client = (w i).client
  api : ∀ i, Alike (w i).api (w' i).api

theorem AlikeClusters.update {w w' : Clusters ρ} (h : AlikeClusters w w') (cluster : String) {s s' : State ρ}
    (hs : Alike s s') : AlikeClusters (update w cluster ⟨none, s⟩) (Function.update w' cluster ⟨none, s'⟩) where
  client i := by
    by_cases hi : i = cluster
    · subst hi
      rw [update_self, update_self]
    · rw [update_of_ne hi, update_of_ne hi, h.client]
  api i := by
    by_cases hi : i = cluster
    · subst hi
      rw [update_self, update_self]
      exact hs
    · rw [update_of_ne hi, update_of_ne hi]
      exact h.api i

variable {w w' : Clusters ρ} {rest rest' : List Outcome}

theorem Job.run_same (hserve : Lawful serve) {job : Job} (hjob : Blind job.script) (hw : AlikeClusters w w') {live : ℕ}
    {cluster : String}
    (hobs : Core.Script.observations observe (job.run serve live cluster w).replies ++ rest =
      Core.Script.observations observe (job.run serve live cluster w').replies ++ rest') :
    (job.run serve live cluster w).answer = (job.run serve live cluster w').answer ∧
      AlikeClusters (job.run serve live cluster w).clusters (job.run serve live cluster w').clusters ∧ rest = rest' := by
  unfold Job.run at hobs ⊢
  rw [hw.client cluster] at hobs ⊢
  cases hclient : (w cluster).client with
  | some err =>
    rw [hclient] at hobs
    exact ⟨rfl, hw, hobs⟩
  | none =>
    rw [hclient] at hobs
    cases hrefused : job.refused with
    | some answer =>
      rw [hrefused] at hobs
      exact ⟨rfl, hw, hobs⟩
    | none =>
      rw [hrefused] at hobs
      obtain ⟨hanswer, hstate, hrest⟩ := hjob.run (fun q s s' hs ↦ hserve.answers hs) sameAnswer_cancelled
        (hw.api cluster) hobs
      exact ⟨hanswer, hw.update cluster hstate, hrest⟩

/-- One request: as long as the writes to Secrets come out the same, so does the answer. -/
theorem Turn.run_same (hserve : Lawful serve) (hlib : Discovers lib) (hw : AlikeClusters w w') (t : Turn)
    (hobs : Core.Script.observations observe (t.run lib serve w).replies ++ rest =
      Core.Script.observations observe (t.run lib serve w').replies ++ rest') :
    (t.run lib serve w).answer = (t.run lib serve w').answer ∧
      AlikeClusters (t.run lib serve w).clusters (t.run lib serve w').clusters ∧ rest = rest' := by
  unfold Turn.run at hobs ⊢
  split at hobs
  · exact ⟨rfl, hw, hobs⟩
  · next c hc =>
    split at hobs
    · exact ⟨rfl, hw, hobs⟩
    · next job hjob => exact Job.run_same hserve (Endpoint.job_blind hlib hjob) hw hobs

theorem answers_unchanged (hserve : Lawful serve) (hlib : Discovers lib) (hw : AlikeClusters w w') (ts : List Turn)
    (houtcomes : outcomes lib serve w ts = outcomes lib serve w' ts) :
    answers lib serve w ts = answers lib serve w' ts := by
  induction ts generalizing w w' with
  | nil => rfl
  | cons t ts ih =>
    obtain ⟨hanswer, hclusters, hrest⟩ := t.run_same hserve hlib hw houtcomes
    rw [answers, answers, hanswer, ih hclusters hrest]

/-! A server on which the password of every Secret belongs to a manager other than the one that applies. -/

def isNamed (ns name : String) (j : Json) : Bool := decide (objectNamespace j = ns) && decide (objectName j = name)

def passwordOf (j : Json) : String := j.nestedString ["data", "password"]

def getSecret (ns name : String) (s : State Unit) : Reply :=
  match s.secrets.find? (isNamed ns name) with
  | some j => .ok j
  | none => .error (.status .notFound "secrets not found")

def applySecret (ns name : String) (obj : Json) (s : State Unit) : Reply :=
  match s.secrets.find? (isNamed ns name) with
  | some j =>
    if passwordOf j = passwordOf obj then .ok j
    else .error (.status .conflict "Apply failed with 1 conflict: conflict with \"vault\": .data.password")
  | none => .error (.status .forbidden "secrets is forbidden")

def forbidden : Reply := .error (.status .forbidden "forbidden")

/-- Secrets can be read, and applied without force; nothing else is allowed. -/
def vault : APIServer Unit := fun q s ↦
  (match q with
    | .typed (.get resource ns name) => if resource = kindSecret then getSecret ns name s else forbidden
    | .listSecrets ns _ _ _ => .ok (.object [("items", .array (s.secrets.filter (fun j ↦ decide (objectNamespace j = ns))))])
    | .get gvr ns name => if GVR.isSecrets gvr then getSecret ns name s else forbidden
    | .apply gvr ns name obj false _ => if GVR.isSecrets gvr then applySecret ns name obj s else forbidden
    | _ => forbidden, s)

theorem isNamed_congr {j j' : Json} (h : SameButValues j j') (ns name : String) : isNamed ns name j = isNamed ns name j' := by
  have hns : objectNamespace j = objectNamespace j' := h.nestedString (by decide)
  have hname : objectName j = objectName j' := h.nestedString (by decide)
  rw [isNamed, isNamed, hns, hname]

theorem getSecret_same {s s' : State Unit} (h : Alike s s') (ns name : String) :
    SameReply SameButValues (getSecret ns name s) (getSecret ns name s') := by
  have hfind : ∀ {l l' : List Json}, Forall₂ SameButValues l l' →
      Option.Rel SameButValues (l.find? (isNamed ns name)) (l'.find? (isNamed ns name)) := by
    intro l l' hl
    induction hl with
    | nil => exact .none
    | cons hj _ ih =>
      rw [List.find?_cons, List.find?_cons, isNamed_congr hj]
      split
      · exact .some hj
      · exact ih
  have hrel := hfind h.secrets
  unfold getSecret
  generalize s.secrets.find? (isNamed ns name) = j, s'.secrets.find? (isNamed ns name) = j' at hrel ⊢
  cases hrel with
  | some hj => exact hj
  | none => rfl

theorem filter_same {l l' : List Json} (h : Forall₂ SameButValues l l') (ns : String) :
    Forall₂ SameButValues (l.filter (fun j ↦ decide (objectNamespace j = ns)))
      (l'.filter (fun j ↦ decide (objectNamespace j = ns))) := by
  induction h with
  | nil => exact .nil
  | @cons j j' l l' hj _ ih =>
    have hns : objectNamespace j = objectNamespace j' := hj.nestedString (by decide)
    rw [List.filter_cons, List.filter_cons, hns]
    split
    · exact .cons hj ih
    · exact ih

theorem vault_cases (q : ClientCall) : (∃ ns name, access q = .read ∧ ∀ s, (vault q s).1 = getSecret ns name s) ∨
    (∃ ns labelSelector limit token, q = .listSecrets ns labelSelector limit token) ∨
    (access q = .write ∧ isTyped q = false) ∨ ∀ s, (vault q s).1 = forbidden := by
  cases q with
  | typed q =>
    cases q with
    | get resource ns name =>
      by_cases hresource : resource = kindSecret
      · exact .inl ⟨ns, name, if_pos hresource, fun s ↦ if_pos hresource⟩
      · exact .inr (.inr (.inr (fun s ↦ if_neg hresource)))
    | _ => exact .inr (.inr (.inr (fun s ↦ rfl)))
  | listSecrets ns labelSelector limit token => exact .inr (.inl ⟨ns, labelSelector, limit, token, rfl⟩)
  | get gvr ns name =>
    by_cases hgvr : GVR.isSecrets gvr = true
    · exact .inl ⟨ns, name, if_pos hgvr, fun s ↦ if_pos hgvr⟩
    · exact .inr (.inr (.inr (fun s ↦ if_neg hgvr)))
  | apply gvr ns name obj force dryRun =>
    by_cases hgvr : GVR.isSecrets gvr = true
    · exact .inr (.inr (.inl ⟨if_pos hgvr, rfl⟩))
    · cases force with
      | true => exact .inr (.inr (.inr (fun s ↦ rfl)))
      | false => exact .inr (.inr (.inr (fun s ↦ if_neg hgvr)))

/-- Whatever it is asked, nothing changes. -/
theorem vault_lawful : Lawful vault where
  elsewhere {q s s'} hq hs := by
    refine ⟨?_, hs⟩
    obtain ⟨ns, name, hread, -⟩ | ⟨ns, labelSelector, limit, token, rfl⟩ | ⟨hwrite, -⟩ | hforbidden := vault_cases q
    · rw [hq] at hread
      cases hread
    · cases hq
    · rw [hq] at hwrite
      cases hwrite
    · rw [hforbidden, hforbidden]
  read {q s s'} hq hs := by
    refine ⟨?_, hs⟩
    obtain ⟨ns, name, -, hget⟩ | ⟨ns, labelSelector, limit, token, rfl⟩ | ⟨hwrite, -⟩ | hforbidden := vault_cases q
    · rw [hget, hget]
      exact getSecret_same hs ns name
    · cases hq
    · rw [hq] at hwrite
      cases hwrite
    · rw [hforbidden, hforbidden]
      rfl
  list {q s s'} hq hs := by
    refine ⟨?_, hs⟩
    obtain ⟨ns, name, hread, -⟩ | ⟨ns, labelSelector, limit, token, rfl⟩ | ⟨hwrite, -⟩ | hforbidden := vault_cases q
    · rw [hq] at hread
      cases hread
    · exact ⟨filter_same hs.secrets ns, rfl⟩
    · rw [hq] at hwrite
      cases hwrite
    · rw [hforbidden, hforbidden]
      rfl
  write _ hs _ := hs
  submitted {q s s'} hq htyped _ _ := by
    obtain ⟨ns, name, hread, -⟩ | ⟨ns, labelSelector, limit, token, rfl⟩ | ⟨-, hdynamic⟩ | hforbidden := vault_cases q
    · rw [hq] at hread
      cases hread
    · cases hq
    · rw [htyped] at hdynamic
      cases hdynamic
    · rw [hforbidden, hforbidden]

/-! A Secret with a password, read and validated by an administrator. -/

def secretFields (data : Fields) : Fields :=
  [("apiVersion", .string "v1"), ("data", .object data), ("kind", .string "Secret"),
    ("metadata", .object [("name", .string "db"), ("namespace", .string "shop")])]

def secretOf (data : Fields) : Json := .object (secretFields data)

def passwordSecret (value : String) : Json := secretOf [("password", .string value)]

def vaults (secret : Json) : Clusters Unit := fun _ ↦ ⟨none, ⟨[secret], ()⟩⟩

/-- A body is one document, written as JSON. -/
def jsonLibrary (doc : Json) : Yaml.Library where
  documents _ := ([doc], none)
  notAMap _ := ""
  ratioText _ _ := ""
  lowerBytes data := data
  restMapping gvk _ :=
    if gvk = ⟨"", "v1", "Secret"⟩ then .ok ⟨⟨"", "v1", kindSecret⟩, true⟩ else .error "no matches for kind"
  discovery := .ok [("v1", [kindSecret])]
  marshalYAML j := .ok (String.ofList j.encode)
  toLower c := c
  fold := Char.toLower

theorem jsonLibrary_discovers (doc : Json) : Discovers (jsonLibrary doc) where
  mapping {gvk attempt mapping} h _ := by
    simp only [jsonLibrary] at h
    split at h
    · next hgvk => rw [hgvk]
    · cases h
  lower _ _ := rfl
  marshal j := ⟨String.ofList j.encode, rfl⟩

def askSecret (endpoint : Endpoint) : Turn :=
  { env := adminEnv, req := { clusterID := "local", kind := kindSecret, ns := "shop", name := "db" }, endpoint, live := 10 }

def validateSecret (doc : Json) : Turn := askSecret (.validate (.ok (utf8 doc.encode)))

theorem passwordSecret_alike (value value' : String) : AlikeClusters (vaults (passwordSecret value))
    (vaults (passwordSecret value')) where
  client _ := rfl
  api _ := ⟨rfl, .cons ⟨rfl, rfl, rfl, rfl, rfl⟩ .nil⟩

/-- The list, the Secret, a refused diff and a document that is found invalid on either cluster. -/
theorem answers_unchanged_password :
    answers (jsonLibrary (passwordSecret "Z3Vlc3M=")) vault (vaults (passwordSecret "czNjcmV0"))
        [askSecret .listSecrets, askSecret .getSecret, askSecret .export, validateSecret (passwordSecret "Z3Vlc3M=")] =
      answers (jsonLibrary (passwordSecret "Z3Vlc3M=")) vault (vaults (passwordSecret "aHVudGVyMg=="))
        [askSecret .listSecrets, askSecret .getSecret, askSecret .export, validateSecret (passwordSecret "Z3Vlc3M=")] :=
  answers_unchanged vault_lawful (jsonLibrary_discovers _) (passwordSecret_alike _ _) _ (by decide +kernel)

/-- Two Secrets that may differ in their keys as well. -/
structure SameButData (j j' : Json) : Prop where
  fields : otherFields j = otherFields j'
  metadata : (metadataOf j).fields.erase "annotations" = (metadataOf j').fields.erase "annotations"
  annotations : (annotationsOf (metadataOf j)).erase annotationLastAppliedConfig =
    (annotationsOf (metadataOf j')).erase annotationLastAppliedConfig

def shownKeys : Answer → List String
  | .secret (.data item) => keysAt "data" item
  | _ => []

def foundValid : Answer → Bool
  | .yaml (.validated _ valid) => valid
  | _ => false

/-- The keys of a Secret are shown, and a guess at a password is told from the password. -/
theorem not_answers_unchanged :
    (SameButData (secretOf [("password", .string "czNjcmV0")]) (secretOf [("token", .string "czNjcmV0")]) ∧
      answers (jsonLibrary .null) vault (vaults (secretOf [("password", .string "czNjcmV0")])) [askSecret .getSecret] ≠
        answers (jsonLibrary .null) vault (vaults (secretOf [("token", .string "czNjcmV0")])) [askSecret .getSecret]) ∧
      SameButValues (passwordSecret "czNjcmV0") (passwordSecret "aHVudGVyMg==") ∧
      answers (jsonLibrary (passwordSecret "czNjcmV0")) vault (vaults (passwordSecret "czNjcmV0"))
          [validateSecret (passwordSecret "czNjcmV0")] ≠
        answers (jsonLibrary (passwordSecret "czNjcmV0")) vault (vaults (passwordSecret "aHVudGVyMg=="))
          [validateSecret (passwordSecret "czNjcmV0")] := by
  refine ⟨⟨⟨rfl, rfl, rfl⟩, fun h ↦ ?_⟩, ⟨rfl, rfl, rfl, rfl, rfl⟩, fun h ↦ ?_⟩
  · exact absurd (congrArg (List.map shownKeys) h) (by decide +kernel)
  · exact absurd (congrArg (List.map foundValid) h) (by decide +kernel)

end KubeCenter.Server.SecretConfinement
