import KubeCenter.Resources.Crud

/-! Which cluster a request reads from and writes to. -/

namespace KubeCenter.Resources

open KubeCenter.Core Auth K8s

variable {σ : Type} {serve : KubeCall → σ → Reply × σ} {env : Env} {req : Request} {endpoint : Endpoint}
  {live : ℕ} {w w' : World σ} {c cluster : String}

/-- Two worlds alike in what belongs to one cluster, the informer cache belonging to the local one. -/
structure World.AgreeOn (cluster : String) (w w' : World σ) : Prop where
  same : w.clusters cluster = w'.clusters cluster
  informers : cluster = localClusterID → w.informers = w'.informers
  tasks : w.tasks = w'.tasks

/-- Every call goes to one cluster and nothing happens to the others. -/
structure Outcome.Within (cluster : String) (w : World σ) (o : Outcome σ) : Prop where
  sent : ∀ q ∈ o.sent, q.1 = cluster
  frame : ∀ d ≠ cluster, o.world.clusters d = w.clusters d

theorem Outcome.Within.refused (response : Response) : Outcome.Within cluster w { response, world := w } where
  sent := fun _ h ↦ absurd h List.not_mem_nil
  frame := fun _ _ ↦ rfl

theorem runAt_within {α : Type} {p : Script α} {a : α} {sent : List (String × KubeCall)} (response : Response)
    (audits : List AuditEntry) (h : w.runAt serve live cluster p = .ok (a, w', sent)) :
    Outcome.Within cluster w { response, world := w', sent, audits } := by
  unfold World.runAt at h
  split at h
  · cases h
  · cases h
    constructor
    · intro q hq
      dsimp only at hq
      exact Script.runAt_sent _ _ _ _ _ q hq
    · intro d hd
      dsimp only
      rw [Script.runAt_frame _ _ _ _ _ hd]

/-- What a script returns depends on its own cluster only. -/
theorem runAt_agree {α : Type} {p : Script α} (h : w.clusters cluster = w'.clusters cluster) :
    (w.runAt serve live cluster p).map Prod.fst = (w'.runAt serve live cluster p).map Prod.fst := by
  have hvalue : (p.runAt serve cancelled live cluster (fun d ↦ (w.clusters d).api)).value =
      (p.runAt serve cancelled live cluster (fun d ↦ (w'.clusters d).api)).value :=
    Script.runAt_value (congrArg Cluster.api h)
  unfold World.runAt
  rw [h]
  split
  · rfl
  · exact congrArg Except.ok hvalue

theorem perform_within (asked : Except Response Write) :
    (perform serve c live w asked).Within (normalizedClusterID c) w := by
  unfold perform
  split
  · exact .refused _
  · split
    · exact .refused _
    · next hran =>
      dsimp only
      split
      · exact runAt_within _ _ hran
      · exact runAt_within _ _ hran
      · exact runAt_within _ _ hran

theorem perform_agree (asked : Except Response Write) (h : w.clusters (normalizedClusterID c) =
    w'.clusters (normalizedClusterID c)) :
    (perform serve c live w asked).response = (perform serve c live w' asked).response := by
  cases asked with
  | error response => rfl
  | ok write =>
    have hran : (w.runAt serve live (normalizedClusterID c) write.script).map Prod.fst =
        (w'.runAt serve live (normalizedClusterID c) write.script).map Prod.fst := runAt_agree h
    simp only [perform]
    cases hw : w.runAt serve live (normalizedClusterID c) write.script with
    | error err =>
      cases hw' : w'.runAt serve live (normalizedClusterID c) write.script with
      | error err' =>
        rw [hw, hw'] at hran
        cases hran
        rfl
      | ok ran =>
        rw [hw, hw'] at hran
        cases hran
    | ok ran =>
      cases hw' : w'.runAt serve live (normalizedClusterID c) write.script with
      | error err =>
        rw [hw, hw'] at hran
        cases hran
      | ok ran' =>
        rw [hw, hw'] at hran
        obtain ⟨result, w₁, sent⟩ := ran
        obtain ⟨result', w₁', sent'⟩ := ran'
        cases hran
        cases result with
        | ok item => rfl
        | error err => cases err <;> rfl

theorem handleDrainNode_within : (handleDrainNode serve env c req live w).Within localClusterID w := by
  unfold handleDrainNode
  split
  · exact .refused _
  · split
    · exact .refused _
    · cases hran : w.runAt serve live localClusterID (executeDrain req.name (drainRequest req.body.drain)) with
      | error err =>
        constructor
        · intro q hq
          exact absurd hq List.not_mem_nil
        · intro d hd
          rfl
      | ok ran =>
        obtain ⟨update, w₁, sent⟩ := ran
        have hwithin := runAt_within (.accepted env.taskID) [] hran
        exact ⟨hwithin.sent, hwithin.frame⟩

theorem handleDrainNode_agree (h : w.tasks = w'.tasks) :
    (handleDrainNode serve env c req live w).response = (handleDrainNode serve env c req live w').response := by
  unfold handleDrainNode
  rw [h]
  split
  · rfl
  · split
    · rfl
    · rfl

/-- The requests that pass their checks and then go to the informer cache or to `executeDrain`. A list whose selector
no labels match, or whose page starts below zero, shows nothing of the cache. -/
def Endpoint.UsesLocal (env : Env) (c : String) (req : Request) : Endpoint → Prop
  | .list => ∃ ask, listAsk env c req = .ok ask ∧ ask.adapter.cached = true ∧ (∃ labels, ask.sel labels = true) ∧
      0 ≤ pageStart req.token
  | .get => ∃ ask, getAsk env c req = .ok ask ∧ ask.adapter.cached = true
  | .drain => ∃ user, env.user = some user ∧ checkAccess env c user "update" "nodes" "" = .ok ()
  | _ => False

/-- A request acts on its cluster: all its calls go there, and what it returns depends on that cluster only. -/
structure Confined (serve : KubeCall → σ → Reply × σ) (env : Env) (req : Request) (endpoint : Endpoint)
    (cluster : String) : Prop where
  within : ∀ live (w : World σ), (endpoint.serveHTTP serve env req live w).Within cluster w
  returned : ∀ live (w w' : World σ), w.AgreeOn cluster w' →
    (endpoint.serveHTTP serve env req live w).response = (endpoint.serveHTTP serve env req live w').response

theorem clusterContext_eq {user : Option User} {id : String} (h : clusterContext user id = .ok c) :
    c = normalizedClusterID id := by
  unfold clusterContext at h
  split at h
  · next hlocal =>
    cases h
    obtain rfl | rfl := hlocal
    · rfl
    · rfl
  · next hremote =>
    have hid : normalizedClusterID id = id := by
      rw [normalizedClusterID, if_neg]
      intro hlocal
      exact hremote (of_decide_eq_true hlocal)
    rw [hid]
    split at h
    · cases h
    · split at h
      · cases h
      · split at h
        · cases h
          rfl
        · cases h

theorem normalizedClusterID_idem (id : String) :
    normalizedClusterID (normalizedClusterID id) = normalizedClusterID id := by
  by_cases h : isLocalClusterID id = true
  · rw [normalizedClusterID, normalizedClusterID, if_pos h]
    rfl
  · rw [normalizedClusterID, normalizedClusterID, if_neg h, if_neg h]

section Reads

variable {inf : Informers} {ns name : String} {labels : Labels}

theorem paginateAny_panicked {items : List Json} {limit : ℕ} {token : String} (h : pageStart token < 0) :
    paginateAny items limit token = .panicked := by
  unfold paginateAny
  dsimp only
  rw [if_neg (by omega), if_pos h]

def Response.total : Response → Option ℕ
  | .list _ total _ => some total
  | _ => none

theorem total_paginateAny {items : List Json} {limit : ℕ} {token : String} (h : 0 ≤ pageStart token) :
    (paginateAny items limit token).total = some items.length := by
  unfold paginateAny
  dsimp only
  rw [List.length_insertionSort]
  split
  · rfl
  · rw [if_neg (by omega)]
    rfl

theorem handleListResource_const (h : ¬ Endpoint.list.UsesLocal env c req) (inf inf' : Informers) :
    handleListResource env c req inf = handleListResource env c req inf' := by
  unfold handleListResource
  cases hask : listAsk env c req with
  | error response => rfl
  | ok ask =>
    by_cases hcached : ask.adapter.cached = true
    · by_cases hstart : 0 ≤ pageStart req.token
      · have hsel : ∀ labels, ask.sel labels = false := by
          intro labels
          apply Bool.eq_false_iff.mpr
          intro hl
          exact h ⟨ask, hask, hcached, ⟨labels, hl⟩, hstart⟩
        simp [bind, Except.bind, Adapter.listFromCache, hcached, hsel]
      · simp [bind, Except.bind, pure, Except.pure, respond, Adapter.listFromCache, hcached,
          paginateAny_panicked (by omega : pageStart req.token < 0)]
    · simp [bind, Except.bind, Adapter.listFromCache, hcached]

theorem handleGetResource_const (h : ¬ Endpoint.get.UsesLocal env c req) (inf inf' : Informers) :
    handleGetResource env c req inf = handleGetResource env c req inf' := by
  unfold handleGetResource
  cases hask : getAsk env c req with
  | error response => rfl
  | ok ask =>
    have hcached : ¬ ask.adapter.cached = true := fun hcached ↦ h ⟨ask, hask, hcached⟩
    simp [bind, Except.bind, Adapter.getFromCache, hcached]

/-- An object of the given name and labels. -/
def sampleObject (ns name : String) (labels : Labels) : Json :=
  .object [("metadata", .object [("labels", .object (labels.map (fun l ↦ (l.1, .string l.2)))),
    ("name", .string name), ("namespace", .string ns)])]

theorem objectLabels_sampleObject : objectLabels (sampleObject ns name labels) = labels := by
  have hmap : (labels.map (fun l ↦ (l.1, Json.string l.2))).mapM Json.stringField = some labels := by
    induction labels with
    | nil => rfl
    | cons l labels ih =>
      rw [List.map_cons, List.mapM_cons, ih]
      rfl
  change ((labels.map (fun l ↦ (l.1, Json.string l.2))).mapM Json.stringField).getD [] = labels
  rw [hmap]
  rfl

theorem handleListResource_differs (h : Endpoint.list.UsesLocal env c req) :
    ∃ inf inf', handleListResource env c req inf ≠ handleListResource env c req inf' := by
  obtain ⟨ask, hask, hcached, ⟨labels, hsel⟩, hstart⟩ := h
  refine ⟨fun _ ↦ [], fun _ ↦ [sampleObject ask.ns "" labels], ?_⟩
  have htotal : ∀ inf, (handleListResource env c req inf).total =
      (ask.adapter.listFromCache inf ask.ns ask.sel).toOption.map List.length := by
    intro inf
    unfold handleListResource
    rw [hask]
    simp only [bind, Except.bind, Adapter.listFromCache, hcached, if_true, pure, Except.pure, respond,
      total_paginateAny hstart, Except.toOption, Option.map_some]
  intro he
  have hlength := congrArg Response.total he
  rw [htotal, htotal] at hlength
  have hns : objectNamespace (sampleObject ask.ns "" labels) = ask.ns := rfl
  simp [Adapter.listFromCache, hcached, Except.toOption, objectLabels_sampleObject, hsel, hns] at hlength

theorem handleGetResource_differs (h : Endpoint.get.UsesLocal env c req) :
    ∃ inf inf', handleGetResource env c req inf ≠ handleGetResource env c req inf' := by
  obtain ⟨ask, hask, hcached⟩ := h
  refine ⟨fun _ ↦ [], fun _ ↦ [sampleObject ask.ns ask.name []], ?_⟩
  have hns : objectNamespace (sampleObject ask.ns ask.name []) = ask.ns := rfl
  have hname : objectName (sampleObject ask.ns ask.name []) = ask.name := rfl
  intro he
  unfold handleGetResource at he
  rw [hask] at he
  simp [bind, Except.bind, pure, Except.pure, respond, Adapter.getFromCache, hcached, hns, hname, mapK8sError,
    writeError] at he

end Reads

/-- The world of empty clusters, with a client for each. -/
def emptyWorld (σ : Type) [Inhabited σ] (inf : Informers) : World σ :=
  { informers := inf, clusters := fun _ ↦ ⟨none, default⟩, tasks := ∅ }

theorem emptyWorld_agreeOn [Inhabited σ] (h : cluster ≠ localClusterID) (inf inf' : Informers) :
    (emptyWorld σ inf).AgreeOn cluster (emptyWorld σ inf') where
  same := rfl
  informers := fun he ↦ absurd he h
  tasks := rfl

/-- A drain that gets to its first call cordons the node of the local cluster. -/
theorem handleDrainNode_sent [Inhabited σ] (h : Endpoint.drain.UsesLocal env c req) :
    (localClusterID, KubeCall.patch "nodes" "" req.name (cordonPatch true)) ∈
      (handleDrainNode serve env c req 1 (emptyWorld σ (fun _ ↦ []))).sent := by
  obtain ⟨user, huser, haccess⟩ := h
  have hidle : (emptyWorld σ (fun _ ↦ [])).tasks.hasActiveTask "drain" req.name = false := rfl
  unfold handleDrainNode
  simp only [requireUser, huser, haccess, bind, Except.bind, Except.map, hidle, Bool.false_eq_true, if_false]
  exact List.mem_cons_self

/-- What a handler does whose request is not for the local cluster and does not use it. -/
theorem handle_confined (h : c = localClusterID ∨ ¬ endpoint.UsesLocal env c req) (live : ℕ) (w : World σ) :
    (endpoint.handle serve env c req live w).Within (normalizedClusterID c) w ∧
      ∀ w' : World σ, w.AgreeOn (normalizedClusterID c) w' →
        (endpoint.handle serve env c req live w).response = (endpoint.handle serve env c req live w').response := by
  cases endpoint with
  | list =>
    refine ⟨.refused _, fun w' hagree ↦ ?_⟩
    obtain rfl | h := h
    · exact congrArg (handleListResource env localClusterID req) (hagree.informers rfl)
    · exact handleListResource_const h _ _
  | get =>
    refine ⟨.refused _, fun w' hagree ↦ ?_⟩
    obtain rfl | h := h
    · exact congrArg (handleGetResource env localClusterID req) (hagree.informers rfl)
    · exact handleGetResource_const h _ _
  | drain =>
    refine ⟨?_, fun w' hagree ↦ handleDrainNode_agree hagree.tasks⟩
    obtain rfl | h := h
    · exact handleDrainNode_within
    · have hrefused : ∃ response, handleDrainNode serve env c req live w = { response, world := w } := by
        unfold handleDrainNode requireUser
        cases huser : env.user with
        | none => exact ⟨_, rfl⟩
        | some user =>
          cases haccess : checkAccess env c user "update" "nodes" "" with
          | error response => exact ⟨response, by simp [bind, Except.bind, Except.map, haccess]⟩
          | ok _ => exact absurd ⟨user, huser, haccess⟩ h
      obtain ⟨response, hrefused⟩ := hrefused
      change (handleDrainNode serve env c req live w).Within (normalizedClusterID c) w
      rw [hrefused]
      exact .refused response
  | create => exact ⟨perform_within _, fun w' hagree ↦ perform_agree _ hagree.same⟩
  | update => exact ⟨perform_within _, fun w' hagree ↦ perform_agree _ hagree.same⟩
  | delete => exact ⟨perform_within _, fun w' hagree ↦ perform_agree _ hagree.same⟩
  | scale => exact ⟨perform_within _, fun w' hagree ↦ perform_agree _ hagree.same⟩
  | restart => exact ⟨perform_within _, fun w' hagree ↦ perform_agree _ hagree.same⟩
  | suspend => exact ⟨perform_within _, fun w' hagree ↦ perform_agree _ hagree.same⟩
  | trigger => exact ⟨perform_within _, fun w' hagree ↦ perform_agree _ hagree.same⟩
  | rollback => exact ⟨perform_within _, fun w' hagree ↦ perform_agree _ hagree.same⟩
  | cordon => exact ⟨perform_within _, fun w' hagree ↦ perform_agree _ hagree.same⟩
  | uncordon => exact ⟨perform_within _, fun w' hagree ↦ perform_agree _ hagree.same⟩

/-- The requests that act on their cluster: those for the local one, and those that do not get to the informer cache
or to `executeDrain`, which serve the local one whatever the request says. -/
theorem request_confined_iff [Inhabited σ] (serve : KubeCall → σ → Reply × σ) (env : Env) (req : Request)
    (endpoint : Endpoint) :
    Confined serve env req endpoint (normalizedClusterID req.clusterID) ↔
      ∀ c, clusterContext env.user req.clusterID = .ok c →
        c = localClusterID ∨ ¬ endpoint.UsesLocal env c req := by
  constructor
  · intro hconfined c hc
    by_contra hnot
    obtain ⟨hremote, huses⟩ := not_or.mp hnot
    rw [not_not] at huses
    have hne : normalizedClusterID req.clusterID ≠ localClusterID := by
      rw [← clusterContext_eq hc]
      exact hremote
    have hserve : ∀ live w, endpoint.serveHTTP serve env req live w = endpoint.handle serve env c req live w := by
      intro live w
      rw [Endpoint.serveHTTP, hc]
    have hreturned : ∀ inf inf', (endpoint.handle serve env c req 1 (emptyWorld σ inf)).response =
        (endpoint.handle serve env c req 1 (emptyWorld σ inf')).response := by
      intro inf inf'
      rw [← hserve, ← hserve]
      exact hconfined.returned 1 _ _ (emptyWorld_agreeOn hne inf inf')
    cases endpoint with
    | list =>
      obtain ⟨inf, inf', hdiffers⟩ := handleListResource_differs huses
      exact hdiffers (hreturned inf inf')
    | get =>
      obtain ⟨inf, inf', hdiffers⟩ := handleGetResource_differs huses
      exact hdiffers (hreturned inf inf')
    | drain =>
      have hsent := (hconfined.within 1 (emptyWorld σ (fun _ ↦ []))).sent
      rw [hserve] at hsent
      exact hne (hsent _ (handleDrainNode_sent huses)).symm
    | _ => exact huses
  · intro h
    cases hc : clusterContext env.user req.clusterID with
    | error response =>
      have hserve : ∀ live w, endpoint.serveHTTP serve env req live w = { response, world := w } := by
        intro live w
        rw [Endpoint.serveHTTP, hc]
      constructor
      · intro live w
        rw [hserve]
        exact .refused response
      · intro live w w' _
        rw [hserve, hserve]
    | ok c =>
      have hserve : ∀ live w, endpoint.serveHTTP serve env req live w = endpoint.handle serve env c req live w := by
        intro live w
        rw [Endpoint.serveHTTP, hc]
      have hcluster : normalizedClusterID req.clusterID = normalizedClusterID c := by
        rw [clusterContext_eq hc, normalizedClusterID_idem]
      rw [hcluster]
      constructor
      · intro live w
        rw [hserve]
        exact (handle_confined (h c hc) live w).1
      · intro live w w' hagree
        rw [hserve, hserve]
        exact (handle_confined (h c hc) live w).2 w' hagree

def administrator : User :=
  { id := "u1", username := "ann", provider := "local", kubernetesUsername := "ann", kubernetesGroups := []
    roles := ["admin"] }

/-- A server whose access checks all succeed, asked by an administrator. -/
def adminEnv : Env :=
  { lib := ⟨fun _ _ ↦ .ok .null, fun _ ↦ .ok (fun _ ↦ true), fun _ ↦ "", fun _ _ ↦ ""⟩
    restartedAt := ""
    user := some administrator
    authorizer := fun _ ↦ .ok true
    checker := { clusterRouter := true }
    clock := ⟨0, 0⟩
    taskID := "t1"
    now := 0 }

def answerNull : KubeCall → Unit → Reply × Unit := fun _ s ↦ (.ok .null, s)

/-- Asked for the pods of another cluster, the server lists the local ones; asked to drain a node there, it cordons
and drains the local node of that name. -/
theorem request_not_confined :
    ¬ Confined answerNull adminEnv { clusterID := "edge", kind := "pods" } .list "edge" ∧
      ¬ Confined answerNull adminEnv { clusterID := "edge", name := "node-1" } .drain "edge" := by
  have hremote : "edge" ≠ localClusterID := by decide
  constructor
  · intro h
    have hresponse := h.returned 0 _ _ (emptyWorld_agreeOn hremote (fun _ ↦ [])
      (fun _ ↦ [sampleObject "default" "web" []]))
    have htotal : some 0 = some 1 := congrArg Response.total hresponse
    cases htotal
  · intro h
    have huses : Endpoint.drain.UsesLocal adminEnv "edge" { clusterID := "edge", name := "node-1" } :=
      ⟨administrator, rfl, rfl⟩
    exact hremote ((h.within 1 _).sent _ (handleDrainNode_sent huses)).symm

end KubeCenter.Resources
