import KubeCenter.Topology.Survivors

/-! What the graph of a build consists of, over the resources it keeps. -/

namespace KubeCenter.Topology

open KubeCenter.Core Resources

/-! ## The overlays' edges -/

def Edge.Proper (e : Edge) : Prop := e.source ≠ "" ∧ e.target ≠ ""

instance (e : Edge) : Decidable e.Proper := inferInstanceAs (Decidable (_ ∧ _))

/-- The links that an overlay draws: the first `maxEdges` distinct ones with two ends. -/
def drawnLinks (maxEdges : ℕ) (links : List Edge) : List Edge :=
  (distinctBy Edge.key (links.filter (fun e ↦ e.Proper))).take maxEdges

theorem add_edges {maxEdges : ℕ} (hmax : 0 < maxEdges) {s : EdgeSet}
    (hcap : s.capped = true → maxEdges ≤ s.edges.length) (e : Edge) :
    (s.add maxEdges e).edges = (if e.Proper then insertCapped Edge.key maxEdges s.edges e else s.edges) ∧
      ((s.add maxEdges e).capped = true → maxEdges ≤ (s.add maxEdges e).edges.length) := by
  unfold EdgeSet.add insertCapped
  by_cases hcapped : s.capped = true
  · simp [hcapped, hcap hcapped]
  · by_cases hproper : e.Proper
    · rw [if_neg hcapped, if_neg (by simpa [Edge.Proper] using hproper), if_pos hproper]
      by_cases hkey : e.key ∈ s.edges.map Edge.key
      · rw [if_pos hkey, insertNew_old hkey, ite_self]
        exact ⟨rfl, hcap⟩
      · rw [if_neg hkey, insertNew_new hkey]
        by_cases hfull : maxEdges ≤ s.edges.length
        · simp [hmax, hfull]
        · simp [hfull, hcapped]
    · rw [if_neg hcapped, if_pos (by simpa [Edge.Proper, imp_iff_not_or] using hproper), if_neg hproper]
      exact ⟨rfl, hcap⟩

theorem foldl_add_edges {maxEdges : ℕ} (hmax : 0 < maxEdges) (links : List Edge) {s : EdgeSet}
    (hcap : s.capped = true → maxEdges ≤ s.edges.length) : (links.foldl (EdgeSet.add maxEdges) s).edges =
      (links.filter (fun e ↦ e.Proper)).foldl (insertCapped Edge.key maxEdges) s.edges := by
  induction links generalizing s with
  | nil => rfl
  | cons e links ih =>
    obtain ⟨hedges, hcap'⟩ := add_edges hmax hcap e
    rw [List.foldl_cons, ih hcap', hedges]
    by_cases hproper : e.Proper
    · simp [hproper]
    · simp [hproper]

theorem foldl_add_empty {maxEdges : ℕ} (hmax : 0 < maxEdges) (links : List Edge) :
    (links.foldl (EdgeSet.add maxEdges) {}).edges = drawnLinks maxEdges links := by
  rw [foldl_add_edges hmax links (fun h ↦ absurd h Bool.false_ne_true)]
  exact foldl_insertCapped (Nat.zero_le _)

/-- `P` holds of both ends. -/
def Edge.Ends (P : String → Prop) (e : Edge) : Prop := P e.source ∧ P e.target

theorem add_ends {P : String → Prop} {maxEdges : ℕ} {s : EdgeSet} (hs : ∀ e ∈ s.edges, e.Ends P) {e : Edge}
    (he : e.Ends P) : ∀ e' ∈ (s.add maxEdges e).edges, e'.Ends P := by
  unfold EdgeSet.add
  split
  · exact hs
  · split
    · exact hs
    · split
      · exact hs
      · split
        · exact hs
        · intro e' he'
          rcases List.mem_append.mp he' with he' | he'
          · exact hs e' he'
          · exact List.mem_singleton.mp he' ▸ he

/-! ## The mesh draws between indexed Services -/

section

variable {P : String → Prop} {rt : Runtime} {ns : String} {nameIndex : GoMap String String} {maxEdges : ℕ}

theorem resolveServiceHost_mem (hindex : ∀ key uid, nameIndex.lookup key = some uid → P uid) {host uid : String}
    (h : resolveServiceHost rt host ns nameIndex = some uid) : P uid := by
  unfold resolveServiceHost at h
  split at h
  · cases h
  · split at h
    · exact hindex _ _ h
    · split at h
      · cases h
      · exact hindex _ _ h
    · cases h

theorem meshDestination_ends (hindex : ∀ key uid, nameIndex.lookup key = some uid → P uid) {sourceUID : String}
    (hsource : P sourceUID) {edgeType : EdgeType} {s : MeshState} (hs : ∀ e ∈ s.set.edges, e.Ends P)
    (dest : RouteDestination) :
    ∀ e ∈ (meshDestination rt ns nameIndex maxEdges sourceUID edgeType s dest).set.edges, e.Ends P := by
  unfold meshDestination
  split
  · exact hs
  · split
    · exact hs
    · rename_i targetUID htarget
      exact add_ends hs ⟨hsource, resolveServiceHost_mem hindex htarget⟩

theorem meshRoute_ends (hindex : ∀ key uid, nameIndex.lookup key = some uid → P uid) {s : MeshState}
    (hs : ∀ e ∈ s.set.edges, e.Ends P) (r : TrafficRoute) :
    ∀ e ∈ (meshRoute rt ns nameIndex maxEdges s r).set.edges, e.Ends P := by
  unfold meshRoute
  split
  · exact hs
  split
  · exact hs
  split
  · exact hs
  rename_i edgeType _
  dsimp only
  split
  · exact hs
  rename_i hsome
  obtain ⟨uid, hfound⟩ : ∃ uid, r.hosts.findSome? (fun host ↦ resolveServiceHost rt host ns nameIndex) = some uid := by
    refine Option.ne_none_iff_exists'.mp (fun hnone ↦ hsome ?_)
    rw [hnone]
    rfl
  obtain ⟨host, -, hhost⟩ := List.exists_of_findSome?_eq_some hfound
  have hsource : P uid := resolveServiceHost_mem hindex hhost
  rw [hfound, Option.getD_some]
  exact List.foldlRecOn (motive := fun s : MeshState ↦ ∀ e ∈ s.set.edges, e.Ends P) _ _ hs
    (fun _ hs' dest _ ↦ meshDestination_ends hindex hsource hs' dest)

theorem buildMeshEdges_ends (hindex : ∀ key uid, nameIndex.lookup key = some uid → P uid)
    (routes : List TrafficRoute) : ∀ e ∈ (buildMeshEdges rt ns nameIndex maxEdges routes).set.edges, e.Ends P := by
  have hnil : ∀ e ∈ ({} : MeshState).set.edges, e.Ends P := fun e he ↦ absurd he List.not_mem_nil
  unfold buildMeshEdges
  split
  · exact hnil
  · exact List.foldlRecOn (motive := fun s : MeshState ↦ ∀ e ∈ s.set.edges, e.Ends P) _ _ hnil
      (fun _ hs r _ ↦ meshRoute_ends hindex hs r)

end

/-! ## The built graph -/

section

variable (b : Builder) (rt : Runtime) (can : Permissions) (ns overlay : String)

/-- The snapshot whose chain is drawn. -/
def chainSnapshot : Option ESOChainSnapshot :=
  if overlay = "eso-chain" ∧ can (.grouped esoGroup "externalsecrets") ns = true then
    ESOChainProvider.available b.esoChainProvider
  else none

/-- What the overlay calls `addNode` for. -/
def overlayNodes : List Node :=
  (chainSnapshot b can ns overlay).elim [] (fun snapshot ↦ esoChainNodes rt snapshot ns (esoChainAccess can ns))

/-- The links of the chain in the order in which it is drawn. -/
def overlayLinks : List Edge :=
  if ns = "" then []
  else (chainSnapshot b can ns overlay).elim [] (fun snapshot ↦
    let inv := b.lister.inventory can ns
    esoChainLinks rt snapshot ns (indexRefs inv.kept) inv.pods (esoChainAccess can ns))

/-- The resources whose nodes the graph has. -/
def survivors : List ResourceRef :=
  (collect ResourceRef.id (b.lister.inventory can ns).kept (properRefs (overlayNodes b rt can ns overlay))).take maxNodes

def baseEdges : List Edge :=
  let inv := b.lister.inventory can ns
  buildEdges rt inv (addKinds inv).graph.nodes (indexRefs inv.kept)

/-- `drawn` are the mesh's edges. -/
structure Built (g : Graph) : Prop where
  refs : g.refs = survivors b rt can ns overlay
  truncated : g.truncated = true ↔ maxNodes ≤ (b.lister.inventory can ns).refs.length ∨
    (∃ n ∈ overlayNodes b rt can ns overlay, n.id = "") ∨
    ReachedFull ResourceRef.id maxNodes (b.lister.inventory can ns).kept (properRefs (overlayNodes b rt can ns overlay))
  edges : ∃ drawn, g.edges = baseEdges b rt can ns ++
      (drawnLinks maxESOChainEdges (overlayLinks b rt can ns overlay) ++ drawn) ∧
    ∀ e ∈ drawn, e.Ends (· ∈ (b.lister.inventory can ns).kept.map ResourceRef.id)

variable {b rt can ns overlay}

theorem lookup_kept_mem {inv : Inventory} {key uid : String} (h : (indexRefs inv.kept).lookup key = some uid) :
    uid ∈ inv.kept.map ResourceRef.id := by
  obtain ⟨r, hr, -, hid⟩ := GoMap.mem_of_lookup_indexBy h
  exact hid ▸ List.mem_map_of_mem hr

theorem survivors_of_nil (h : chainSnapshot b can ns overlay = none) :
    survivors b rt can ns overlay = (b.lister.inventory can ns).kept := by
  rw [survivors, overlayNodes, h, Option.elim_none, properRefs_nil, collect_nil,
    List.take_of_length_le (kept_length_le _)]

/-- A graph that differs from the base by edges the mesh draws. -/
theorem built_of_base (drawn : List Edge) (h : chainSnapshot b can ns overlay = none) {g : Graph}
    (hnodes : g.nodes = (buildBase rt (b.lister.inventory can ns)).graph.nodes)
    (htruncated : g.truncated = (buildBase rt (b.lister.inventory can ns)).graph.truncated)
    (hedges : g.edges = (buildBase rt (b.lister.inventory can ns)).graph.edges ++ drawn)
    (hdrawn : ∀ e ∈ drawn, e.Ends (· ∈ (b.lister.inventory can ns).kept.map ResourceRef.id)) :
    Built b rt can ns overlay g where
  refs := by
    rw [survivors_of_nil h, Graph.refs, hnodes]
    exact buildBase_refs rt _
  truncated := by
    rw [htruncated, buildBase_truncated]
    simp [overlayNodes, h, properRefs, not_reachedFull_nil]
  edges := by
    have hlinks : overlayLinks b rt can ns overlay = [] := by
      unfold overlayLinks
      rw [h]
      exact ite_self _
    refine ⟨drawn, ?_, hdrawn⟩
    rw [hedges, buildBase_edges, hlinks]
    rfl

theorem built_mesh (h : chainSnapshot b can ns overlay = none) :
    Built b rt can ns overlay
      (applyMeshOverlay rt can ns b.meshProvider (buildBase rt (b.lister.inventory can ns))) := by
  unfold applyMeshOverlay
  split
  · exact built_of_base [] h rfl rfl (List.append_nil _).symm (fun e he ↦ absurd he List.not_mem_nil)
  · have hindex : ∀ key uid, (buildBase rt (b.lister.inventory can ns)).nameIndex.lookup key = some uid →
        uid ∈ (b.lister.inventory can ns).kept.map ResourceRef.id := by
      rw [buildBase_nameIndex]
      exact fun key uid hk ↦ lookup_kept_mem hk
    exact built_of_base _ h rfl rfl rfl (buildMeshEdges_ends hindex _)

theorem maxESOChainEdges_pos : 0 < maxESOChainEdges := by decide

theorem drawnLinks_overlayLinks {snapshot : ESOChainSnapshot} (h : chainSnapshot b can ns overlay = some snapshot) :
    drawnLinks maxESOChainEdges (overlayLinks b rt can ns overlay) =
      (buildESOChainEdges rt snapshot ns (buildBase rt (b.lister.inventory can ns)).nameIndex
        (b.lister.inventory can ns).pods (esoChainAccess can ns) maxESOChainEdges).edges := by
  rw [buildBase_nameIndex]
  unfold overlayLinks buildESOChainEdges
  split
  · rfl
  · rw [foldl_add_empty maxESOChainEdges_pos, h]
    rfl

/-- A graph that differs from the base by the nodes and the edges of the chain. The edges are
computed from the base graph's index, before the nodes are added. -/
theorem built_of_chain {snapshot : ESOChainSnapshot} (h : chainSnapshot b can ns overlay = some snapshot)
    {g chained : Graph} (hnodes : g.nodes = (buildBase rt (b.lister.inventory can ns)).graph.nodes)
    (htruncated : g.truncated = (buildBase rt (b.lister.inventory can ns)).graph.truncated)
    (hedges : g.edges = (buildBase rt (b.lister.inventory can ns)).graph.edges)
    (hchained : chained = (esoChainNodes rt snapshot ns (esoChainAccess can ns)).foldl addNode g) :
    Built b rt can ns overlay { chained with
      edges := chained.edges ++ (buildESOChainEdges rt snapshot ns (buildBase rt (b.lister.inventory can ns)).nameIndex
        (b.lister.inventory can ns).pods (esoChainAccess can ns) maxESOChainEdges).edges } := by
  have hadded : overlayNodes b rt can ns overlay = esoChainNodes rt snapshot ns (esoChainAccess can ns) := by
    simp [overlayNodes, h]
  have hrefs : g.refs = (b.lister.inventory can ns).kept := by
    rw [Graph.refs, hnodes]
    exact buildBase_refs rt _
  refine ⟨?_, ?_, [], ?_, fun e he ↦ absurd he List.not_mem_nil⟩
  · rw [survivors, hadded, ← hrefs, ← foldl_insertCapped (hrefs ▸ kept_length_le _), ← foldl_addNode_refs, ← hchained]
    rfl
  · rw [hadded, ← hrefs, hchained, foldl_addNode_truncated, htruncated, buildBase_truncated, decide_eq_true_eq]
  · rw [drawnLinks_overlayLinks h, List.append_nil, hchained, foldl_addNode_edges, hedges, buildBase_edges]
    rfl

theorem built_chain : Built b rt can ns "eso-chain"
    (applyESOChainOverlay rt can ns b.esoChainProvider (b.lister.inventory can ns).pods
      (buildBase rt (b.lister.inventory can ns))) := by
  have hnone : ∀ {g : Graph}, chainSnapshot b can ns "eso-chain" = none →
      g.nodes = (buildBase rt (b.lister.inventory can ns)).graph.nodes →
      g.truncated = (buildBase rt (b.lister.inventory can ns)).graph.truncated →
      g.edges = (buildBase rt (b.lister.inventory can ns)).graph.edges → Built b rt can ns "eso-chain" g :=
    fun h hnodes htruncated hedges ↦
      built_of_base [] h hnodes htruncated (hedges.trans (List.append_nil _).symm)
        (fun e he ↦ absurd he List.not_mem_nil)
  unfold applyESOChainOverlay
  split
  · rename_i havailable
    exact hnone (by simp [chainSnapshot, havailable]) rfl rfl rfl
  · rename_i snapshot havailable
    dsimp only
    by_cases hcan : can (.grouped esoGroup "externalsecrets") ns = true
    · rw [if_pos hcan]
      apply built_of_chain (by simp [chainSnapshot, hcan, havailable]) _ _ _ rfl
      all_goals rfl
    · rw [if_neg hcan]
      exact hnone (by simp [chainSnapshot, hcan]) rfl rfl rfl

theorem built_of_ok {quoted : String → String} {g : Graph}
    (h : b.buildNamespaceGraphWithOverlay rt can ns quoted overlay = .ok g) : Built b rt can ns overlay g := by
  have hsnapshot : overlay ≠ "eso-chain" → chainSnapshot b can ns overlay = none :=
    fun hne ↦ if_neg (fun hand ↦ hne hand.1)
  unfold Builder.buildNamespaceGraphWithOverlay Builder.applyOverlay at h
  by_cases hnone : overlay = ""
  · rw [if_pos hnone] at h
    cases h
    exact built_of_base [] (hsnapshot (by rw [hnone]; decide)) rfl rfl (List.append_nil _).symm
      (fun e he ↦ absurd he List.not_mem_nil)
  · rw [if_neg hnone] at h
    by_cases hmesh : overlay = "mesh"
    · rw [if_pos hmesh] at h
      cases h
      exact built_mesh (hsnapshot (by rw [hmesh]; decide))
    · rw [if_neg hmesh] at h
      split at h
      · rename_i heso
        subst heso
        cases h
        exact built_chain
      · cases h

end

end KubeCenter.Topology

/-! When a graph shows exactly the resources the cap admits, and its flag says so. -/

namespace KubeCenter.Topology

open KubeCenter.Core Resources

section

variable (b : Builder) (rt : Runtime) (can : Permissions) (ns overlay : String)

/-- The permitted resources that a node can stand for, in the builder's order. -/
def candidates : List ResourceRef :=
  (b.lister.inventory can ns).refs ++ properRefs (overlayNodes b rt can ns overlay)

structure TruncationExact (g : Graph) : Prop where
  nodes : g.refs = (distinctBy ResourceRef.id (candidates b rt can ns overlay)).take maxNodes
  truncated : g.truncated = true ↔
    ∃ r ∈ candidates b rt can ns overlay, r.id ∉ g.refs.map ResourceRef.id

/-- `flag` says that the cap leaves a resource out, or that none of the calls that raise the flag
without leaving one out is made: the check after the last kind, a store without a UID, a reference
that finds the graph full. -/
structure TruncationSharp : Prop where
  distinct : ((b.lister.inventory can ns).kept.map ResourceRef.id).Nodup
  flag : maxNodes < (distinctBy ResourceRef.id (candidates b rt can ns overlay)).length ∨
    (b.lister.inventory can ns).refs.length < maxNodes ∧
      (∀ n ∈ overlayNodes b rt can ns overlay, n.id ≠ "") ∧
      ¬ ReachedFull ResourceRef.id maxNodes (b.lister.inventory can ns).kept
        (properRefs (overlayNodes b rt can ns overlay))

variable {b rt can ns overlay}

theorem kept_eq_refs {inv : Inventory} (h : inv.refs.length ≤ maxNodes) : inv.kept = inv.refs :=
  List.take_of_length_le h

theorem kept_full {inv : Inventory} (h : maxNodes ≤ inv.refs.length) : maxNodes = inv.kept.length := by
  rw [Inventory.kept, List.length_take, min_eq_left h]

theorem kept_prefix_survivors : (b.lister.inventory can ns).kept <+: survivors b rt can ns overlay :=
  List.prefix_take_iff.mpr ⟨prefix_collect, kept_length_le _⟩

theorem distinctBy_candidates (hdistinct : ((b.lister.inventory can ns).kept.map ResourceRef.id).Nodup)
    (hroom : (b.lister.inventory can ns).refs.length ≤ maxNodes) :
    distinctBy ResourceRef.id (candidates b rt can ns overlay) =
      collect ResourceRef.id (b.lister.inventory can ns).kept (properRefs (overlayNodes b rt can ns overlay)) := by
  rw [candidates, ← kept_eq_refs hroom, distinctBy_append, distinctBy_eq_self hdistinct]

theorem survivors_eq (hdistinct : ((b.lister.inventory can ns).kept.map ResourceRef.id).Nodup) :
    survivors b rt can ns overlay =
      (distinctBy ResourceRef.id (candidates b rt can ns overlay)).take maxNodes := by
  rcases le_or_gt (b.lister.inventory can ns).refs.length maxNodes with hroom | hover
  · rw [distinctBy_candidates hdistinct hroom]
    rfl
  · have hsplit : candidates b rt can ns overlay = (b.lister.inventory can ns).kept ++
        ((b.lister.inventory can ns).refs.drop maxNodes ++ properRefs (overlayNodes b rt can ns overlay)) := by
      rw [candidates, Inventory.kept, ← List.append_assoc, List.take_append_drop]
    rw [survivors, take_collect (kept_full hover.le), hsplit, distinctBy_append,
      distinctBy_eq_self hdistinct, take_collect (kept_full hover.le)]

theorem distinct_of_exact {g : Graph} (hb : Built b rt can ns overlay g)
    (h : TruncationExact b rt can ns overlay g) : ((b.lister.inventory can ns).kept.map ResourceRef.id).Nodup := by
  have hnodup : (g.refs.map ResourceRef.id).Nodup := by
    rw [h.nodes, List.map_take]
    exact nodup_distinctBy.sublist (List.take_sublist _ _)
  rw [hb.refs] at hnodup
  exact hnodup.sublist (kept_prefix_survivors.sublist.map _)

/-- Leaving a resource out raises the flag. -/
theorem flagged_of_left_out (hdistinct : ((b.lister.inventory can ns).kept.map ResourceRef.id).Nodup)
    (hout : maxNodes < (distinctBy ResourceRef.id (candidates b rt can ns overlay)).length) :
    maxNodes ≤ (b.lister.inventory can ns).refs.length ∨
      ReachedFull ResourceRef.id maxNodes (b.lister.inventory can ns).kept
        (properRefs (overlayNodes b rt can ns overlay)) := by
  rcases le_or_gt maxNodes (b.lister.inventory can ns).refs.length with hfull | hroom
  · exact .inl hfull
  · rw [distinctBy_candidates hdistinct hroom.le] at hout
    exact .inr (reachedFull_of_lt (kept_length_le _) hout)

theorem exact_iff {g : Graph} (hb : Built b rt can ns overlay g) :
    TruncationExact b rt can ns overlay g ↔ TruncationSharp b rt can ns overlay := by
  have hout : g.refs = (distinctBy ResourceRef.id (candidates b rt can ns overlay)).take maxNodes →
      ((∃ r ∈ candidates b rt can ns overlay, r.id ∉ g.refs.map ResourceRef.id) ↔
        maxNodes < (distinctBy ResourceRef.id (candidates b rt can ns overlay)).length) :=
    fun hnodes ↦ by rw [hnodes]; exact left_out_iff
  constructor
  · intro h
    refine ⟨distinct_of_exact hb h, ?_⟩
    rcases lt_or_ge maxNodes (distinctBy ResourceRef.id (candidates b rt can ns overlay)).length with hlt | hle
    · exact .inl hlt
    · have hdown : ¬ g.truncated = true := fun hup ↦ not_lt.mpr hle ((hout h.nodes).mp (h.truncated.mp hup))
      rw [hb.truncated, not_or, not_or] at hdown
      obtain ⟨hroom, hempty, hreached⟩ := hdown
      exact .inr ⟨not_le.mp hroom, fun n hn hid ↦ hempty ⟨n, hn, hid⟩, hreached⟩
  · rintro ⟨hdistinct, hflag⟩
    have hnodes := hb.refs.trans (survivors_eq hdistinct)
    refine ⟨hnodes, ?_⟩
    rw [hout hnodes, hb.truncated]
    refine ⟨fun hup ↦ ?_, fun hlt ↦ (flagged_of_left_out hdistinct hlt).imp id Or.inr⟩
    rcases hflag with hlt | ⟨hroom, hempty, hreached⟩
    · exact hlt
    · rcases hup with hfull | ⟨n, hn, hid⟩ | hfull
      · exact absurd hfull (not_le.mpr hroom)
      · exact absurd hid (hempty n hn)
      · exact absurd hfull hreached

/-- A graph shows the first `maxNodes` permitted resources and its flag that some are left out exactly
where the first `maxNodes` have UIDs of their own and the flag does not go up for another reason. -/
theorem truncation_exact_iff {quoted : String → String} {g : Graph}
    (h : b.buildNamespaceGraphWithOverlay rt can ns quoted overlay = .ok g) :
    TruncationExact b rt can ns overlay g ↔ TruncationSharp b rt can ns overlay := exact_iff (built_of_ok h)

end

def allowAll : Permissions := fun _ _ ↦ true

/-- A lister that finds only Services and Ingresses. -/
def webLister (services : List Service) (ingresses : List Ingress) : ResourceLister :=
  { emptyLister with listServices := fun _ ↦ some services, listIngresses := fun _ ↦ some ingresses }

def shopService (i : ℕ) : Service := { uid := "svc-" ++ toString i, name := "s" ++ toString i, ns := "shop" }

def webBuilder (n : ℕ) (ingresses : List Ingress) : Builder :=
  { lister := webLister ((List.range n).map shopService) ingresses }

theorem webBuilder_refs (n : ℕ) (ingresses : List Ingress) :
    ((webBuilder n ingresses).lister.inventory allowAll "shop").refs =
      refsOf "Service" Service.toObjectMeta ((List.range n).map shopService) ++
        refsOf "Ingress" Ingress.toObjectMeta ingresses := by
  simp [Inventory.refs, refsOf, ResourceLister.inventory, webBuilder, webLister, emptyLister, listIf, allowAll]

def webGraph (n : ℕ) (ingresses : List Ingress) : Graph :=
  (buildBase inOrder ((webBuilder n ingresses).lister.inventory allowAll "shop")).graph

theorem webBuilder_build (n : ℕ) (ingresses : List Ingress) :
    (webBuilder n ingresses).buildNamespaceGraphWithOverlay inOrder allowAll "shop" id "" =
      .ok (webGraph n ingresses) := rfl

theorem truncation_exact_iff_two : TruncationSharp (webBuilder 2 []) inOrder allowAll "shop" "" ∧
    TruncationExact (webBuilder 2 []) inOrder allowAll "shop" "" (webGraph 2 []) := by
  have hsharp : TruncationSharp (webBuilder 2 []) inOrder allowAll "shop" "" := by
    refine ⟨?_, .inr ⟨?_, fun n hn ↦ absurd hn List.not_mem_nil, not_reachedFull_nil⟩⟩
    · rw [kept_eq_refs (by rw [webBuilder_refs]; decide), webBuilder_refs]
      decide
    · rw [webBuilder_refs]
      decide
  exact ⟨hsharp, (truncation_exact_iff (webBuilder_build 2 [])).mpr hsharp⟩

/-- At exactly `maxNodes` resources the flag is up and none is left out. -/
theorem not_truncation_exact : ¬ ∀ (b : Builder) (rt : Runtime) (can : Permissions) (ns overlay : String)
    (quoted : String → String) (g : Graph), b.buildNamespaceGraphWithOverlay rt can ns quoted overlay = .ok g →
      TruncationExact b rt can ns overlay g := by
  intro h
  have hexact := h _ _ _ _ _ _ _ (webBuilder_build maxNodes [])
  have hlength : ((webBuilder maxNodes []).lister.inventory allowAll "shop").refs.length = maxNodes := by
    rw [webBuilder_refs]
    simp [refsOf]
  have hup : (webGraph maxNodes []).truncated = true :=
    (buildBase_truncated _ _).trans (decide_eq_true hlength.ge)
  have hcandidates : candidates (webBuilder maxNodes []) inOrder allowAll "shop" "" =
      ((webBuilder maxNodes []).lister.inventory allowAll "shop").refs := List.append_nil _
  have hout := hexact.truncated.mp hup
  rw [hexact.nodes, left_out_iff, hcandidates] at hout
  exact absurd (hout.trans_le length_distinctBy_le) (by rw [hlength]; exact lt_irrefl _)

end KubeCenter.Topology
