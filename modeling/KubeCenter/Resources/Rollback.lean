import KubeCenter.Core.MergePatch
import KubeCenter.Resources.Adapters

/-! What a rollback of a Deployment leaves as its pod template. -/

namespace KubeCenter.Resources

open KubeCenter.Core

/-- The Deployments of a cluster by namespace and name, and its ReplicaSets by namespace. -/
structure Apps where
  deployments : String → String → Option Json
  replicaSets : String → List Json

/-- An API server: which objects a selector takes, what is refused, and how patches merge. -/
structure AppsServer where
  schema : MergeSchema
  selects : String → Json → Bool
  refuses : KubeCall → Option CallError

namespace AppsServer

variable (srv : AppsServer)

def listed (s : Apps) (ns labelSelector : String) : List Json := (s.replicaSets ns).filter (srv.selects labelSelector)

def notFound : Reply := .error (.status .notFound "")

def setDeployment (s : Apps) (ns name : String) (dep : Json) : Apps :=
  { s with deployments := fun ns' name' ↦ if ns' = ns ∧ name' = name then some dep else s.deployments ns' name' }

def answer (s : Apps) : KubeCall → Reply × Apps
  | .get _ ns name => ((s.deployments ns name).elim notFound .ok, s)
  | .list _ ns labelSelector _ => (.ok (.object [("items", .array (srv.listed s ns labelSelector))]), s)
  | .patch _ ns name data =>
    match s.deployments ns name, Json.decode data with
    | some dep, some patch =>
      let dep := strategicMerge srv.schema [] dep patch
      (.ok dep, setDeployment s ns name dep)
    | _, _ => (notFound, s)
  | _ => (notFound, s)

def serve (q : KubeCall) (s : Apps) : Reply × Apps :=
  match srv.refuses q with
  | some err => (.error err, s)
  | none => srv.answer s q

end AppsServer

def podTemplate (obj : Json) : Json := (obj.nested ["spec", "template"]).getD .null

/-- A template without the label that the Deployment controller adds to those of its ReplicaSets. -/
def withoutHash (template : Json) : Json := template.eraseAt "pod-template-hash" ["metadata", "labels"]

def HasRevision (name : String) (revision : ℤ) (rs : Json) : Prop :=
  rs.nestedString revisionAnnotation = toString revision ∧ ownedBy "Deployment" name rs

/-- A Deployment that is asked to go back to the revision of one of its ReplicaSets. Templates are as `json.Marshal`
writes them: maps in the order of their keys, and no null. -/
structure RollbackAsk (lib : Apimachinery) where
  srv : AppsServer
  apps : Apps
  ns : String
  name : String
  revision : ℤ
  live : ℕ
  dep : Json
  rs : Json
  found : apps.deployments ns name = some dep
  listed : rs ∈ srv.listed apps ns (lib.formatLabelSelector ((dep.nested ["spec", "selector"]).getD .null))
  revised : HasRevision name revision rs
  unique : ∀ rs' ∈ apps.replicaSets ns, HasRevision name revision rs' → rs' = rs
  current : (podTemplate dep).WellFormed
  typed : (podTemplate rs).WellFormed
  nullFree : (podTemplate rs).NullFree

namespace RollbackAsk

variable {lib : Apimachinery} (a : RollbackAsk lib)

def ran : Script.Ran KubeCall (Except AdapterError Json) Apps :=
  (rollback lib a.ns a.name a.revision).run a.srv.serve (.error (.other "context canceled")) a.live a.apps

/-- The rollback comes to an end, and without an error. -/
def Succeeds : Prop := ∃ obj, a.ran.value = .ok obj

/-- The Deployment has the template of the ReplicaSet. -/
def Exact : Prop := podTemplate ((a.ran.state.deployments a.ns a.name).getD .null) = withoutHash (podTemplate a.rs)

/-- The ReplicaSet has no hash label, and the Deployment has nothing in its template that the ReplicaSet has not. -/
def NothingLater : Prop := (podTemplate a.rs).nested ["metadata", "labels", "pod-template-hash"] = none ∧
  Mentions a.srv.schema ["spec", "template"] (podTemplate a.dep) (podTemplate a.rs)

variable {a}

theorem targetRS_listed : targetRS (.object [("items", .array (a.srv.listed a.apps a.ns
    (lib.formatLabelSelector ((a.dep.nested ["spec", "selector"]).getD .null))))]) a.name a.revision = some a.rs := by
  unfold targetRS
  have hitems : ∀ items, listItems (.object [("items", .array items)]) = items := fun _ ↦ rfl
  rw [hitems]
  cases hfind : List.find? (fun rs : Json ↦ rs.nestedString revisionAnnotation = toString a.revision &&
      ownedBy "Deployment" a.name rs) (a.srv.listed a.apps a.ns
        (lib.formatLabelSelector ((a.dep.nested ["spec", "selector"]).getD .null))) with
  | none =>
    have hnot := List.find?_eq_none.mp hfind a.rs a.listed
    exact absurd (by simpa [HasRevision] using a.revised) hnot
  | some rs =>
    have hrs : HasRevision a.name a.revision rs := by simpa [HasRevision] using List.find?_some hfind
    rw [a.unique rs (List.mem_of_mem_filter (List.mem_of_find?_eq_some hfind)) hrs]

theorem wellFormed_atPath {j : Json} (h : j.WellFormed) (path : List String) : (j.atPath path).WellFormed := by
  induction path with
  | nil => exact h
  | cons k path ih => exact ⟨List.pairwise_singleton _ _, ih, trivial⟩

theorem decode_patchText {j : Json} (h : j.WellFormed) (path : List String) :
    Json.decode (patchText path j) = some (j.atPath path) := Json.decode_encode (wellFormed_atPath h path)

theorem answer_patch (srv : AppsServer) {apps : Apps} {ns name : String} {data : Text} {dep patch : Json}
    (resource : String) (hdep : apps.deployments ns name = some dep) (hpatch : Json.decode data = some patch) :
    srv.answer apps (.patch resource ns name data) = (.ok (strategicMerge srv.schema [] dep patch),
      AppsServer.setDeployment apps ns name (strategicMerge srv.schema [] dep patch)) := by
  rw [AppsServer.answer, hdep, hpatch]

theorem serve_of_ok {srv : AppsServer} {q : KubeCall} {apps : Apps} {r : Json} (h : (srv.serve q apps).1 = .ok r) :
    srv.serve q apps = srv.answer apps q := by
  unfold AppsServer.serve at h ⊢
  split at h
  · cases h
  · rfl

/-- A script that ends well although it gives up at an error has had an answer to its call. -/
theorem run_call_ok {srv : AppsServer} {q : KubeCall} {next : Reply → AdapterScript} {live : ℕ} {apps : Apps}
    {obj : Json} {c : CallError}
    (h : ((Script.call q next).run srv.serve (.error c) live apps).value = .ok obj)
    (herr : ∀ err n s, ((next (.error err)).run srv.serve (.error c) n s).value ≠ .ok obj) :
    ∃ n r, (srv.answer apps q).1 = .ok r ∧
      ((Script.call q next).run srv.serve (.error c) live apps).state =
        ((next (.ok r)).run srv.serve (.error c) n (srv.answer apps q).2).state ∧
      ((next (.ok r)).run srv.serve (.error c) n (srv.answer apps q).2).value = .ok obj := by
  cases live with
  | zero => exact absurd h (herr c 0 apps)
  | succ n =>
    simp only [Script.run] at h ⊢
    cases hserve : (srv.serve q apps).1 with
    | error err =>
      rw [hserve] at h
      exact absurd h (herr err n _)
    | ok r =>
      have hanswer := serve_of_ok hserve
      rw [hanswer] at hserve h ⊢
      rw [hserve] at h ⊢
      exact ⟨n, r, rfl, rfl, h⟩

theorem value_done {srv : AppsServer} {cancelled : Reply} {n : ℕ} {apps : Apps} {e : AdapterError} {obj : Json} :
    (Script.run srv.serve cancelled n (.done (.error e) : AdapterScript) apps).value ≠ .ok obj := by
  cases n <;> exact nofun

/-- A rollback that succeeds has sent the template of the ReplicaSet as a patch. -/
theorem Succeeds.deployment (h : a.Succeeds) : a.ran.state.deployments a.ns a.name =
    some (strategicMerge a.srv.schema [] a.dep ((podTemplate a.rs).atPath ["spec", "template"])) := by
  obtain ⟨obj, hobj⟩ := h
  unfold ran rollback at hobj ⊢
  obtain ⟨n, dep, hdep, hstate, hobj⟩ := run_call_ok hobj fun _ _ _ ↦ value_done
  rw [hstate]
  rw [AppsServer.answer, a.found] at hdep hobj ⊢
  obtain rfl := Except.ok.inj hdep
  obtain ⟨n', rsList, hlist, hstate, hobj⟩ := run_call_ok hobj fun _ _ _ ↦ value_done
  rw [hstate]
  rw [AppsServer.answer] at hlist hobj ⊢
  obtain rfl := Except.ok.inj hlist
  simp only [targetRS_listed] at hobj ⊢
  obtain ⟨n'', r, hpatch, hstate, -⟩ := run_call_ok hobj fun _ _ _ ↦ value_done
  rw [send, hstate]
  have hdone : ∀ (n : ℕ) (apps : Apps) (e : Except AdapterError Json),
      (Script.run a.srv.serve (.error (.other "context canceled")) n (.done e) apps).state = apps := by
    intro n apps e
    cases n <;> rfl
  have hanswer := answer_patch a.srv "deployments" a.found (decode_patchText a.typed ["spec", "template"])
  rw [hdone]
  exact (congrArg (fun p : Reply × Apps ↦ p.2.deployments a.ns a.name) hanswer).trans (if_pos ⟨rfl, rfl⟩)

theorem Succeeds.podTemplate (h : a.Succeeds) :
    Resources.podTemplate ((a.ran.state.deployments a.ns a.name).getD .null) =
      strategicMerge a.srv.schema ["spec", "template"] (Resources.podTemplate a.dep) (Resources.podTemplate a.rs) := by
  rw [h.deployment, Option.getD_some, Resources.podTemplate,
    nested_strategicMerge_atPath a.nullFree.ne_null ["spec", "template"] [] a.dep, Option.getD_some]
  rfl

/-- After a rollback that succeeds the Deployment has the template of the ReplicaSet exactly where the ReplicaSet has no
hash label and the Deployment had nothing that the ReplicaSet has not. -/
theorem rollbackExact_iff (a : RollbackAsk lib) (h : a.Succeeds) : a.Exact ↔ a.NothingLater := by
  have hmerge := strategicMerge_eq_iff (S := a.srv.schema) _ ["spec", "template"] _ a.typed a.nullFree a.current
  unfold Exact NothingLater
  rw [h.podTemplate]
  constructor
  · intro hexact
    have hhash : (Resources.podTemplate a.rs).nested ["metadata", "labels", "pod-template-hash"] = none := by
      cases hv : (Resources.podTemplate a.rs).nested ["metadata", "labels", "pod-template-hash"] with
      | none => rfl
      | some v =>
        refine absurd ?_ (nested_strategicMerge (S := a.srv.schema) ["spec", "template"]
          (Resources.podTemplate a.dep) a.typed a.nullFree hv)
        rw [hexact]
        exact Json.nested_eraseAt
    rw [withoutHash, Json.eraseAt_eq_self a.typed hhash] at hexact
    exact ⟨hhash, hmerge.mp hexact⟩
  · rintro ⟨hhash, hmentions⟩
    rw [withoutHash, Json.eraseAt_eq_self a.typed hhash]
    exact hmerge.mpr hmentions

theorem run_call_served {srv : AppsServer} {q : KubeCall} {next : Reply → AdapterScript} {cancelled : Reply} {n : ℕ}
    {apps : Apps} (h : srv.refuses q = none) :
    ((Script.call q next).run srv.serve cancelled (n + 1) apps).value =
      ((next (srv.answer apps q).1).run srv.serve cancelled n (srv.answer apps q).2).value := by
  simp only [Script.run, AppsServer.serve, h]

theorem succeeds_of_served (hlive : 3 ≤ a.live) (h : ∀ q, a.srv.refuses q = none) : a.Succeeds := by
  obtain ⟨n, hn⟩ := Nat.exists_eq_add_of_le' hlive
  have hanswer := answer_patch a.srv "deployments" a.found (decode_patchText a.typed ["spec", "template"])
  refine ⟨strategicMerge a.srv.schema [] a.dep ((Resources.podTemplate a.rs).atPath ["spec", "template"]), ?_⟩
  unfold ran rollback
  rw [hn, run_call_served (h _), AppsServer.answer, a.found, Option.elim_some]
  simp only
  rw [run_call_served (h _), AppsServer.answer]
  simp only [targetRS_listed]
  rw [send, run_call_served (h _)]
  rw [Resources.podTemplate] at hanswer
  rw [hanswer]
  cases n <;> rfl

end RollbackAsk

/-! A web server with an image, and one that has got a second container since. -/

/-- Containers, environment entries and volumes merge by name. -/
def namedLists : MergeSchema where
  mergeKey path := if path.getLast?.any (· ∈ ["containers", "env", "volumes"]) then some "name" else none
  weave kept patched := kept ++ patched
  weave_perm _ _ := .refl _
  weave_nil _ := rfl

def container (name image : String) : Json := .object [("image", .string image), ("name", .string name)]

def webTemplate (containers : List Json) : Json :=
  .object [("metadata", .object [("labels", .object [("app", .string "web")])]),
    ("spec", .object [("containers", .array containers)])]

def webDeployment (containers : List Json) : Json := .object [("spec", .object [("template", webTemplate containers)])]

def webReplicaSet : Json :=
  .object [
    ("metadata", .object [
      ("annotations", .object [("deployment.kubernetes.io/revision", .string "1")]),
      ("ownerReferences", .array [.object [("kind", .string "Deployment"), ("name", .string "web")]])]),
    ("spec", .object [("template", webTemplate [container "web" "web:1"])])]

theorem podTemplate_webReplicaSet : podTemplate webReplicaSet = webTemplate [container "web" "web:1"] := rfl

theorem wellFormed_webTemplate {containers : List Json} (h : itemsWellFormed containers) :
    (webTemplate containers).WellFormed :=
  ⟨List.pairwise_pair.mpr (show "metadata" < "spec" by decide), ⟨by decide, ⟨by decide, trivial, trivial⟩, trivial⟩,
    ⟨List.pairwise_singleton _ _, h, trivial⟩, trivial⟩

theorem nullFree_webTemplate {containers : List Json} (h : itemsNullFree containers) :
    (webTemplate containers).NullFree :=
  ⟨⟨⟨trivial, trivial⟩, trivial⟩, ⟨h, trivial⟩, trivial⟩

theorem wellFormed_container (name image : String) : (container name image).WellFormed :=
  ⟨List.pairwise_pair.mpr (show "image" < "name" by decide), trivial, trivial, trivial⟩

def noSelector : Apimachinery where
  typed _ _ := .error ""
  parseSelector _ := .error ""
  formatLabelSelector _ := ""
  notFound _ _ := ""

/-- Back to the first revision, from these containers. -/
def webRollback (containers : List Json) (h : itemsWellFormed containers) : RollbackAsk noSelector where
  srv := ⟨namedLists, fun _ _ ↦ true, fun _ ↦ none⟩
  apps := ⟨fun _ _ ↦ some (webDeployment containers), fun _ ↦ [webReplicaSet]⟩
  ns := "default"
  name := "web"
  revision := 1
  live := 3
  dep := webDeployment containers
  rs := webReplicaSet
  found := rfl
  listed := List.mem_cons_self
  revised := ⟨by decide, by decide⟩
  unique _ h _ := List.mem_singleton.mp h
  current := wellFormed_webTemplate h
  typed := podTemplate_webReplicaSet ▸ wellFormed_webTemplate ⟨wellFormed_container _ _, trivial⟩
  nullFree := podTemplate_webReplicaSet ▸ nullFree_webTemplate ⟨⟨trivial, trivial, trivial⟩, trivial⟩

theorem RollbackAsk.exact_iff_web : (webRollback [container "web" "web:2"] ⟨wellFormed_container _ _, trivial⟩).Exact ↔
    (webRollback [container "web" "web:2"] ⟨wellFormed_container _ _, trivial⟩).NothingLater :=
  RollbackAsk.rollbackExact_iff _ (RollbackAsk.succeeds_of_served (by decide) fun _ ↦ rfl)

/-- The second container is there after the rollback too. -/
theorem RollbackAsk.not_exact : ¬∀ (lib : Apimachinery) (a : RollbackAsk lib), a.Succeeds → a.Exact := by
  intro h
  have hsucceeds : (webRollback [container "web" "web:2", container "sidecar" "proxy:1"]
      ⟨wellFormed_container _ _, wellFormed_container _ _, trivial⟩).Succeeds :=
    RollbackAsk.succeeds_of_served (by decide) fun _ ↦ rfl
  have hexact := h _ _ hsucceeds
  rw [Exact, hsucceeds.podTemplate] at hexact
  have hlength := congrArg (fun j : Json ↦ ((j.nested ["spec", "containers"]).getD .null).items.length) hexact
  exact absurd hlength (by decide)

end KubeCenter.Resources
