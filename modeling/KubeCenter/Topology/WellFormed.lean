import KubeCenter.Topology.Built

/-! When every node of a graph has an ID of its own and every edge ends at nodes. -/

namespace KubeCenter.Topology

open KubeCenter.Core Resources

def Graph.ids (g : Graph) : List String := g.nodes.map Node.id

structure WellFormed (g : Graph) : Prop where
  unique : g.ids.Nodup
  closed : ∀ e ∈ g.edges, e.Ends (· ∈ g.ids)

theorem Graph.ids_eq (g : Graph) : g.ids = g.refs.map ResourceRef.id := by
  rw [Graph.ids, Graph.refs, List.map_map]
  rfl

/-! ## Keys name kinds -/

def baseKinds : List String :=
  ["Pod", "Service", "Deployment", "ReplicaSet", "StatefulSet", "DaemonSet", "Job", "CronJob", "Ingress",
    "ConfigMap", "PersistentVolumeClaim", "HorizontalPodAutoscaler"]

theorem kind_of_mem_refsOf {O : Type} {kind : String} {toMeta : O → ObjectMeta} {items : List O} {r : ResourceRef}
    (h : r ∈ refsOf kind toMeta items) : r.kind = kind := by
  obtain ⟨item, -, rfl⟩ := List.mem_map.mp h
  rfl

theorem kind_of_mem_refs {inv : Inventory} {r : ResourceRef} (h : r ∈ inv.refs) : r.kind ∈ baseKinds := by
  simp only [Inventory.refs, List.mem_append] at h
  rcases h with (((((((((((h | h) | h) | h) | h) | h) | h) | h) | h) | h) | h) | h)
  all_goals
    rw [kind_of_mem_refsOf h]
    decide

theorem baseKinds_slash {kind : String} (h : kind ∈ baseKinds) : '/' ∉ kind.toList := by
  revert kind
  decide

theorem kind_of_key {r : ResourceRef} {kind name : String} (hr : '/' ∉ r.kind.toList) (hkind : '/' ∉ kind.toList)
    (h : r.key = kind ++ "/" ++ name) : r.kind = kind := by
  have htext := congrArg String.toList h
  simp only [ResourceRef.key, String.toList_append, show "/".toList = ['/'] from rfl, List.append_assoc,
    List.singleton_append] at htext
  have hcut := congrArg (cut '/') htext
  rw [cut_append hr, cut_append hkind, Option.some.injEq, Prod.mk.injEq] at hcut
  exact String.toList_inj.mp hcut.1

/-! ## The edges that are always closed -/

theorem ownerEdge_ends {nodes : List Node} {childUID : String} {refs : List OwnerReference} {e : Edge}
    (h : e ∈ ownerEdge nodes childUID refs) : e.Ends (· ∈ nodes.map Node.id) := by
  obtain ⟨ref, -, href⟩ := List.mem_filterMap.mp h
  split at href
  · rename_i hboth
    rw [Bool.and_eq_true] at hboth
    cases href
    exact ⟨nodeMap_isSome_iff.mp hboth.1, nodeMap_isSome_iff.mp hboth.2⟩
  · cases href

theorem buildOwnerEdges_ends {pods : List Pod} {replicaSets : List ReplicaSet} {jobs : List Job}
    {nodes : List Node} {e : Edge} (h : e ∈ buildOwnerEdges pods replicaSets jobs nodes) :
    e.Ends (· ∈ nodes.map Node.id) := by
  simp only [buildOwnerEdges, List.mem_append, List.mem_flatMap] at h
  rcases h with (⟨_, _, h⟩ | ⟨_, _, h⟩) | ⟨_, _, h⟩
  all_goals exact ownerEdge_ends h

theorem buildServiceSelectorEdges_ends {rt : Runtime} {services : List Service} {pods : List Pod}
    {nodes : List Node} {e : Edge} (h : e ∈ buildServiceSelectorEdges rt services pods nodes) :
    e.Ends (· ∈ nodes.map Node.id) := by
  obtain ⟨svc, -, h⟩ := List.mem_flatMap.mp h
  split at h
  · exact absurd h List.not_mem_nil
  · rename_i hsvc
    obtain ⟨pod, -, hpod⟩ := List.mem_filterMap.mp h
    split at hpod
    · rename_i hboth
      rw [Bool.and_eq_true] at hboth
      cases hpod
      refine ⟨nodeMap_isSome_iff.mp ?_, nodeMap_isSome_iff.mp hboth.1⟩
      rw [Option.isSome_iff_ne_none]
      exact fun hnone ↦ hsvc (by rw [hnone]; simp)
    · cases hpod

theorem mem_mountEdge {nameIndex : GoMap String String} {podUID kind : String} {name : Option String} {e : Edge}
    (h : e ∈ (mountEdge nameIndex podUID kind name).toList) :
    e.source = podUID ∧ ∃ name, nameIndex.lookup (kind ++ "/" ++ name) = some e.target := by
  rw [Option.mem_toList, mountEdge] at h
  obtain ⟨uid, huid, rfl⟩ := Option.map_eq_some_iff.mp h
  obtain ⟨name, -, hname⟩ := Option.bind_eq_some_iff.mp huid
  exact ⟨rfl, name, hname⟩

/-- The Pods come first: where a resource of another kind is kept, all Pods are. -/
theorem pod_kept {inv : Inventory} {r : ResourceRef} (hr : r ∈ inv.kept) (hkind : r.kind ≠ "Pod") {pod : Pod}
    (hpod : pod ∈ inv.pods) : pod.uid ∈ inv.kept.map ResourceRef.id := by
  obtain ⟨rest, hrest⟩ : ∃ rest, inv.refs = refsOf "Pod" Pod.toObjectMeta inv.pods ++ rest := by
    simp only [Inventory.refs, List.append_assoc]
    exact ⟨_, rfl⟩
  rw [Inventory.kept, hrest, List.take_append] at hr ⊢
  have hroom : (refsOf "Pod" Pod.toObjectMeta inv.pods).length ≤ maxNodes := by
    by_contra hfull
    rw [Nat.sub_eq_zero_of_le (not_le.mp hfull).le, List.take_zero, List.append_nil] at hr
    exact hkind (kind_of_mem_refsOf (List.mem_of_mem_take hr))
  rw [List.take_of_length_le hroom, List.map_append]
  refine List.mem_append_left _ ?_
  exact List.mem_map.mpr ⟨_, List.mem_map_of_mem hpod, rfl⟩

theorem buildMountEdges_ends {inv : Inventory} {e : Edge} (h : e ∈ buildMountEdges inv.pods (indexRefs inv.kept)) :
    e.Ends (· ∈ inv.kept.map ResourceRef.id) := by
  obtain ⟨pod, hpod, h⟩ := List.mem_flatMap.mp h
  obtain ⟨vol, -, h⟩ := List.mem_flatMap.mp h
  obtain ⟨kind, hkind, hne, name, hsource, hname⟩ : ∃ kind, '/' ∉ kind.toList ∧ kind ≠ "Pod" ∧ ∃ name,
      e.source = pod.uid ∧ (indexRefs inv.kept).lookup (kind ++ "/" ++ name) = some e.target := by
    rcases List.mem_append.mp h with h | h
    · rcases List.mem_append.mp h with h | h
      · obtain ⟨hsource, name, hname⟩ := mem_mountEdge h
        exact ⟨"ConfigMap", by decide, by decide, name, hsource, hname⟩
      · obtain ⟨hsource, name, hname⟩ := mem_mountEdge h
        exact ⟨"Secret", by decide, by decide, name, hsource, hname⟩
    · obtain ⟨hsource, name, hname⟩ := mem_mountEdge h
      exact ⟨"PersistentVolumeClaim", by decide, by decide, name, hsource, hname⟩
  obtain ⟨r, hr, hkey, -⟩ := GoMap.mem_of_lookup_indexBy hname
  have hbase := baseKinds_slash (kind_of_mem_refs (List.mem_of_mem_take hr))
  rw [← kind_of_key hbase hkind hkey] at hne
  exact ⟨hsource ▸ pod_kept hr hne hpod, lookup_kept_mem hname⟩

/-! ## The edges that need their source kept -/

theorem ingressLinks_target {inv : Inventory} {e : Edge} (h : e ∈ ingressLinks inv.ingresses (indexRefs inv.kept)) :
    e.target ∈ inv.kept.map ResourceRef.id := by
  obtain ⟨ing, -, h⟩ := List.mem_flatMap.mp h
  obtain ⟨backend, -, hbackend⟩ := List.mem_filterMap.mp h
  obtain ⟨svcUID, hsvc, rfl⟩ := Option.map_eq_some_iff.mp hbackend
  obtain ⟨name, -, hname⟩ := Option.bind_eq_some_iff.mp hsvc
  exact lookup_kept_mem hname

/-- An HPA draws an edge exactly where a resource is kept under its target's key. -/
theorem buildHPAEdges_iff {inv : Inventory} {P : String → Prop} (hP : ∀ uid ∈ inv.kept.map ResourceRef.id, P uid) :
    (∀ e ∈ buildHPAEdges inv.hpas (indexRefs inv.kept), e.Ends P) ↔
      ∀ hpa ∈ inv.hpas, (∃ r ∈ inv.kept, r.key = hpa.scaleTargetRef.key) → P hpa.uid := by
  constructor
  · intro h hpa hhpa htarget
    obtain ⟨uid, huid⟩ := Option.isSome_iff_exists.mp (lookup_indexRefs_isSome.mpr htarget)
    have hedge := h ⟨hpa.uid, uid, .selector⟩ (List.mem_filterMap.mpr ⟨hpa, hhpa, by rw [huid]; rfl⟩)
    exact hedge.1
  · intro h e he
    obtain ⟨hpa, hhpa, hedge⟩ := List.mem_filterMap.mp he
    obtain ⟨uid, huid, rfl⟩ := Option.map_eq_some_iff.mp hedge
    refine ⟨h hpa hhpa (lookup_indexRefs_isSome.mp (by rw [huid]; rfl)), hP _ (lookup_kept_mem huid)⟩

/-! ## The whole graph -/

section

variable (b : Builder) (rt : Runtime) (can : Permissions) (ns overlay : String)

/-- What the passes that do not check a source, or an end, against the kept nodes rely on. -/
structure EndsSurvive : Prop where
  distinct : ((b.lister.inventory can ns).kept.map ResourceRef.id).Nodup
  ingresses : ∀ link ∈ distinctBy Edge.pairKey
      (ingressLinks (b.lister.inventory can ns).ingresses (indexRefs (b.lister.inventory can ns).kept)),
    link.source ∈ (survivors b rt can ns overlay).map ResourceRef.id
  hpas : ∀ hpa ∈ (b.lister.inventory can ns).hpas,
    (∃ r ∈ (b.lister.inventory can ns).kept, r.key = hpa.scaleTargetRef.key) →
      hpa.uid ∈ (survivors b rt can ns overlay).map ResourceRef.id
  chain : ∀ link ∈ drawnLinks maxESOChainEdges (overlayLinks b rt can ns overlay),
    link.Ends (· ∈ (survivors b rt can ns overlay).map ResourceRef.id)

variable {b rt can ns overlay}

theorem Edge.Ends.mono {P Q : String → Prop} {e : Edge} (h : e.Ends P) (hPQ : ∀ uid, P uid → Q uid) : e.Ends Q :=
  ⟨hPQ _ h.1, hPQ _ h.2⟩

theorem kept_subset_survivors : ∀ uid ∈ (b.lister.inventory can ns).kept.map ResourceRef.id,
    uid ∈ (survivors b rt can ns overlay).map ResourceRef.id :=
  fun _ huid ↦ (kept_prefix_survivors.sublist.map _).subset huid

theorem addKinds_ids (inv : Inventory) : (addKinds inv).graph.nodes.map Node.id = inv.kept.map ResourceRef.id := by
  rw [Inventory.kept, ← (addKinds_filled inv).refs, List.map_map]
  rfl

/-- Of the base edges only the Ingresses' and the HPAs' can lose an end. -/
theorem baseEdges_iff : (∀ e ∈ baseEdges b rt can ns, e.Ends (· ∈ (survivors b rt can ns overlay).map ResourceRef.id)) ↔
    (∀ link ∈ distinctBy Edge.pairKey
        (ingressLinks (b.lister.inventory can ns).ingresses (indexRefs (b.lister.inventory can ns).kept)),
      link.source ∈ (survivors b rt can ns overlay).map ResourceRef.id) ∧
    ∀ hpa ∈ (b.lister.inventory can ns).hpas,
      (∃ r ∈ (b.lister.inventory can ns).kept, r.key = hpa.scaleTargetRef.key) →
        hpa.uid ∈ (survivors b rt can ns overlay).map ResourceRef.id := by
  have hkept : ∀ uid ∈ (b.lister.inventory can ns).kept.map ResourceRef.id,
      uid ∈ (survivors b rt can ns overlay).map ResourceRef.id := kept_subset_survivors
  have hids := addKinds_ids (b.lister.inventory can ns)
  rw [← buildHPAEdges_iff hkept]
  simp only [baseEdges, buildEdges, List.mem_append, buildIngressEdges]
  constructor
  · intro h
    exact ⟨fun link hlink ↦ (h link (.inl (.inl (.inr hlink)))).1, fun e he ↦ h e (.inr he)⟩
  · rintro ⟨hingresses, hhpas⟩ e ((((he | he) | he) | he) | he)
    · exact (buildOwnerEdges_ends he).mono (fun uid huid ↦ hkept uid (hids ▸ huid))
    · exact (buildServiceSelectorEdges_ends he).mono (fun uid huid ↦ hkept uid (hids ▸ huid))
    · exact ⟨hingresses e he, hkept _ (ingressLinks_target (mem_of_mem_distinctBy he))⟩
    · exact (buildMountEdges_ends he).mono hkept
    · exact hhpas e he

theorem unique_iff {g : Graph} (hb : Built b rt can ns overlay g) :
    g.ids.Nodup ↔ ((b.lister.inventory can ns).kept.map ResourceRef.id).Nodup := by
  rw [g.ids_eq, hb.refs]
  constructor
  · exact fun h ↦ h.sublist (kept_prefix_survivors.sublist.map _)
  · intro h
    rw [survivors_eq h, List.map_take]
    exact nodup_distinctBy.sublist (List.take_sublist _ _)

theorem wellFormed_iff_of_built {g : Graph} (hb : Built b rt can ns overlay g) :
    WellFormed g ↔ EndsSurvive b rt can ns overlay := by
  obtain ⟨drawn, hedges, hdrawn⟩ := hb.edges
  have hids : g.ids = (survivors b rt can ns overlay).map ResourceRef.id := by rw [g.ids_eq, hb.refs]
  constructor
  · rintro ⟨hunique, hclosed⟩
    rw [hedges, hids] at hclosed
    obtain ⟨hingresses, hhpas⟩ := baseEdges_iff.mp (fun e he ↦ hclosed e (List.mem_append_left _ he))
    exact ⟨(unique_iff hb).mp hunique, hingresses, hhpas,
      fun e he ↦ hclosed e (List.mem_append_right _ (List.mem_append_left _ he))⟩
  · rintro ⟨hdistinct, hingresses, hhpas, hchain⟩
    refine ⟨(unique_iff hb).mpr hdistinct, fun e he ↦ ?_⟩
    rw [hids]
    rw [hedges] at he
    rcases List.mem_append.mp he with he | he
    · exact baseEdges_iff.mpr ⟨hingresses, hhpas⟩ e he
    · rcases List.mem_append.mp he with he | he
      · exact hchain e he
      · exact (hdrawn e he).mono kept_subset_survivors

end

/-! ## Where everything fits -/

theorem ingressLinks_source {ingresses : List Ingress} {nameIndex : GoMap String String} {e : Edge}
    (h : e ∈ ingressLinks ingresses nameIndex) : ∃ ing ∈ ingresses, ing.uid = e.source := by
  obtain ⟨ing, hing, h⟩ := List.mem_flatMap.mp h
  obtain ⟨backend, -, hbackend⟩ := List.mem_filterMap.mp h
  obtain ⟨svcUID, -, rfl⟩ := Option.map_eq_some_iff.mp hbackend
  exact ⟨ing, hing, rfl⟩

theorem secretRef_ne {rt : Runtime} {fields : List (String × SpecValue)} {name : String}
    (h : name ∈ (secretRef rt fields).toList) : name ≠ "" := by
  rw [Option.mem_toList] at h
  unfold secretRef at h
  split at h
  · split at h
    · rename_i hname
      cases h
      exact hname.1
    · cases h
  · cases h

mutual

theorem walk_ne {rt : Runtime} {name : String} : (v : SpecValue) → name ∈ walk rt v → name ≠ ""
  | .map fields, h => by
    rw [walk] at h
    exact (List.mem_append.mp h).elim secretRef_ne (walkFields_ne fields)
  | .list items, h => walkItems_ne items (by rwa [walk] at h)
  | .text _, h => by simp [walk] at h
  | .other, h => by simp [walk] at h

theorem walkFields_ne {rt : Runtime} {name : String} : (fields : List (String × SpecValue)) →
    name ∈ walkFields rt fields → name ≠ ""
  | [], h => by simp [walkFields] at h
  | (_, child) :: fields, h => by
    rw [walkFields] at h
    exact (List.mem_append.mp h).elim (walk_ne child) (walkFields_ne fields)

theorem walkItems_ne {rt : Runtime} {name : String} : (items : List SpecValue) →
    name ∈ walkItems rt items → name ≠ ""
  | [], h => by simp [walkItems] at h
  | child :: items, h => by
    rw [walkItems] at h
    exact (List.mem_append.mp h).elim (walk_ne child) (walkItems_ne items)

end

theorem mem_storeAuthNames {rt : Runtime} {pass : ESOPass} {store : ESOChainStore} {name : String} :
    name ∈ storeAuthNames rt pass store ↔ name ∈ authSecretNames rt store.providerSpec :=
  (rt.authNames_perm pass store _).mem_iff

theorem authSecretNames_ne {rt : Runtime} {spec : List (String × SpecValue)} {name : String}
    (h : name ∈ authSecretNames rt spec) : name ≠ "" := walk_ne _ (mem_of_mem_distinctBy h)

section

variable {rt : Runtime} {snapshot : ESOChainSnapshot} {ns : String} {nameIndex : GoMap String String}
  {pods : List Pod} {access : ESOChainAccess} {es : ESOChainExternalSecret} {store : ESOChainStore}

theorem secretNodes_mem (hns : ns ≠ "") {name : String} (hname : name ≠ "") :
    secretNodeID ns name ∈ (secretNodes ns name).map Node.id := by
  rw [secretNodes, if_neg (not_or.mpr ⟨hns, hname⟩)]
  exact List.mem_singleton_self _

/-- Both passes read the same Secrets from a store, in whatever order. -/
theorem storeNodes_mem (rt : Runtime) (access : ESOChainAccess) (store : ESOChainStore) (hns : ns ≠ "")
    {kind nodeNs : String} :
    store.uid ∈ (storeNodes rt ns access kind nodeNs store).map Node.id ∧
      (access.secrets = true → ∀ name ∈ storeAuthNames rt .edges store,
        secretNodeID ns name ∈ (storeNodes rt ns access kind nodeNs store).map Node.id) := by
  refine ⟨List.mem_cons_self, fun hsecrets name hname ↦ ?_⟩
  rw [mem_storeAuthNames] at hname
  rw [storeNodes, if_pos hsecrets, List.map_cons, List.map_flatMap]
  refine List.mem_cons_of_mem _ (List.mem_flatMap.mpr ⟨name, mem_storeAuthNames.mpr hname, ?_⟩)
  exact secretNodes_mem hns (authSecretNames_ne hname)

/-- A store that an ExternalSecret resolves to is one whose nodes are added. -/
theorem resolveESOStore_nodes (rt : Runtime) (h : resolveESOStore snapshot ns access es = some store) :
    ∃ kind nodeNs, storeNodes rt ns access kind nodeNs store ⊆ esoChainNodes rt snapshot ns access := by
  unfold resolveESOStore at h
  split at h
  · split at h
    · rename_i hstores
      obtain ⟨found, hmem, -, rfl⟩ := GoMap.mem_of_lookup_indexBy (Option.filter_eq_some_iff.mp h).1
      refine ⟨"SecretStore", found.ns, fun n hn ↦ ?_⟩
      rw [esoChainNodes, if_pos hstores]
      exact List.mem_append_left _ (List.mem_append_left _ (List.mem_flatMap.mpr ⟨found, hmem, hn⟩))
    · cases h
  · split at h
    · split at h
      · rename_i hstores
        obtain ⟨found, hmem, -, rfl⟩ := GoMap.mem_of_lookup_indexBy (Option.filter_eq_some_iff.mp h).1
        refine ⟨"ClusterSecretStore", "", fun n hn ↦ ?_⟩
        rw [esoChainNodes, if_pos hstores]
        exact List.mem_append_left _ (List.mem_append_right _ (List.mem_flatMap.mpr ⟨found, hmem, hn⟩))
      · cases h
    · cases h

/-- Every link of the chain ends at resources that the overlay adds, or at Pods. -/
theorem esoChainLinks_ends (hns : ns ≠ "") {e : Edge} (h : e ∈ esoChainLinks rt snapshot ns nameIndex pods access) :
    e.Ends (fun uid ↦ uid ∈ (esoChainNodes rt snapshot ns access).map Node.id ∨ ∃ pod ∈ pods, pod.uid = uid) := by
  obtain ⟨es, hes, h⟩ := List.mem_flatMap.mp h
  have hnodes : ∀ uid ∈ (externalSecretNodes ns access es).map Node.id,
      uid ∈ (esoChainNodes rt snapshot ns access).map Node.id := by
    refine fun uid huid ↦ (List.map_subset _ (fun n hn ↦ ?_)) huid
    exact List.mem_append_right _ (List.mem_flatMap.mpr ⟨es, hes, hn⟩)
  have hself : es.uid ∈ (esoChainNodes rt snapshot ns access).map Node.id := hnodes _ List.mem_cons_self
  rcases List.mem_append.mp h with h | h
  · obtain ⟨store, hstore, h⟩ := List.mem_flatMap.mp h
    obtain ⟨kind, nodeNs, hsub⟩ := resolveESOStore_nodes rt (Option.mem_toList.mp hstore)
    obtain ⟨huid, hsecret⟩ := storeNodes_mem rt access store hns
    rcases List.mem_append.mp h with h | h
    · split at h
      · rename_i hsecrets
        obtain ⟨name, hname, rfl⟩ := List.mem_map.mp h
        exact ⟨.inl (List.map_subset _ hsub (hsecret hsecrets name hname)), .inl (List.map_subset _ hsub huid)⟩
      · exact absurd h List.not_mem_nil
    · cases List.mem_singleton.mp h
      exact ⟨.inl (List.map_subset _ hsub huid), .inl hself⟩
  · split at h
    · rename_i htarget
      have hsecret : secretNodeID ns es.targetSecretName ∈ (esoChainNodes rt snapshot ns access).map Node.id := by
        refine hnodes _ ?_
        rw [externalSecretNodes, if_pos htarget, List.map_cons]
        exact List.mem_cons_of_mem _ (secretNodes_mem hns htarget.2)
      rcases List.mem_cons.mp h with rfl | h
      · exact ⟨.inl hself, .inl hsecret⟩
      · split at h
        · obtain ⟨ref, href, rfl⟩ := List.mem_map.mp h
          obtain ⟨pod, hpod, hconsumer⟩ := List.mem_flatMap.mp (List.mem_of_mem_filter href)
          obtain ⟨-, -, rfl⟩ := List.mem_map.mp hconsumer
          exact ⟨.inl hsecret, .inr ⟨pod, hpod, rfl⟩⟩
        · exact absurd h List.not_mem_nil
    · exact absurd h List.not_mem_nil

end

section

variable {b : Builder} {rt : Runtime} {can : Permissions} {ns overlay : String}

theorem mem_ids_refs {inv : Inventory} {O : Type} (kind : String) {toMeta : O → ObjectMeta} {items : List O} {item : O}
    (h : item ∈ items) (hsub : refsOf kind toMeta items ⊆ inv.refs) : (toMeta item).uid ∈ inv.refs.map ResourceRef.id :=
  List.map_subset _ hsub (List.mem_map.mpr ⟨_, List.mem_map_of_mem h, rfl⟩)

theorem overlayLinks_ends {e : Edge} (h : e ∈ overlayLinks b rt can ns overlay) : e.Ends (fun uid ↦
    uid ∈ (overlayNodes b rt can ns overlay).map Node.id ∨ ∃ pod ∈ (b.lister.inventory can ns).pods, pod.uid = uid) := by
  unfold overlayLinks at h
  split at h
  · exact absurd h List.not_mem_nil
  · rename_i hns
    unfold overlayNodes
    cases hchain : chainSnapshot b can ns overlay with
    | none => simp [hchain] at h
    | some snapshot =>
      rw [hchain] at h
      exact esoChainLinks_ends hns h

/-- Where the permitted resources and the chain's references fit, nothing is lost. -/
theorem endsSurvive_of_fits (hdistinct : ((b.lister.inventory can ns).refs.map ResourceRef.id).Nodup)
    (hfits : (b.lister.inventory can ns).refs.length + (properRefs (overlayNodes b rt can ns overlay)).length ≤ maxNodes) :
    EndsSurvive b rt can ns overlay := by
  have hkept : (b.lister.inventory can ns).kept = (b.lister.inventory can ns).refs := kept_eq_refs (by omega)
  have hall : ∀ uid, uid ∈ (b.lister.inventory can ns).refs.map ResourceRef.id ∨
      uid ∈ (properRefs (overlayNodes b rt can ns overlay)).map ResourceRef.id →
        uid ∈ (survivors b rt can ns overlay).map ResourceRef.id := by
    intro uid huid
    rw [survivors, hkept, List.take_of_length_le (length_collect_le.trans hfits)]
    exact mem_keys_collect.mpr huid
  have hpods : ∀ pod ∈ (b.lister.inventory can ns).pods, pod.uid ∈ (survivors b rt can ns overlay).map ResourceRef.id :=
    fun pod hpod ↦ hall _ (.inl (mem_ids_refs "Pod" hpod (fun r hr ↦ by simp [Inventory.refs, hr])))
  have hnodes : ∀ uid, uid ≠ "" → (uid ∈ (overlayNodes b rt can ns overlay).map Node.id ∨
      ∃ pod ∈ (b.lister.inventory can ns).pods, pod.uid = uid) →
        uid ∈ (survivors b rt can ns overlay).map ResourceRef.id := by
    rintro uid hne (huid | ⟨pod, hpod, rfl⟩)
    · obtain ⟨n, hn, rfl⟩ := List.mem_map.mp huid
      refine hall _ (.inr (List.mem_map.mpr ⟨n.ref, ?_, rfl⟩))
      exact List.mem_map_of_mem (List.mem_filter.mpr ⟨hn, decide_eq_true hne⟩)
    · exact hpods pod hpod
  refine ⟨hkept ▸ hdistinct, fun link hlink ↦ ?_, fun hpa hhpa _ ↦ ?_, fun link hlink ↦ ?_⟩
  · obtain ⟨ing, hing, hsource⟩ := ingressLinks_source (mem_of_mem_distinctBy hlink)
    exact hsource ▸ hall _ (.inl (mem_ids_refs "Ingress" hing (fun r hr ↦ by simp [Inventory.refs, hr])))
  · exact hall _ (.inl (mem_ids_refs "HorizontalPodAutoscaler" hhpa
      (fun r hr ↦ by simp [Inventory.refs, hr])))
  · have hmem := mem_of_mem_distinctBy (List.mem_of_mem_take hlink)
    obtain ⟨hlinks, hproper⟩ := List.mem_filter.mp hmem
    obtain ⟨hsource, htarget⟩ := overlayLinks_ends hlinks
    exact ⟨hnodes _ (of_decide_eq_true hproper).1 hsource, hnodes _ (of_decide_eq_true hproper).2 htarget⟩

theorem wellFormed_of_fits (hdistinct : ((b.lister.inventory can ns).refs.map ResourceRef.id).Nodup)
    (hfits : (b.lister.inventory can ns).refs.length + (properRefs (overlayNodes b rt can ns overlay)).length ≤ maxNodes)
    {quoted : String → String} {g : Graph}
    (h : b.buildNamespaceGraphWithOverlay rt can ns quoted overlay = .ok g) : WellFormed g :=
  (wellFormed_iff_of_built (built_of_ok h)).mpr (endsSurvive_of_fits hdistinct hfits)

end

/-- An Ingress that routes everything to the first Service. -/
def shopIngress : Ingress :=
  { uid := "ing", name := "shop", ns := "shop", defaultBackend := some ⟨some "s0"⟩ }

theorem shopIngress_links {nameIndex : GoMap String String} {uid : String}
    (h : nameIndex.lookup "Service/s0" = some uid) :
    ingressLinks [shopIngress] nameIndex = [⟨"ing", uid, .ingress⟩] := by
  have hback : shopIngress.backends = [⟨some "s0"⟩] := rfl
  have huid : (⟨some "s0"⟩ : IngressBackend).svcUID nameIndex = some uid := h
  simp only [ingressLinks, List.flatMap_singleton, hback, List.filterMap_cons, huid, List.filterMap_nil,
    Option.map_some]
  rfl

end KubeCenter.Topology
