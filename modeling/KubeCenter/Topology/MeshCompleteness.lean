import KubeCenter.Topology.ServiceHosts
import KubeCenter.Topology.WellFormed

/-! Which edges the mesh draws between Services, up to the cap. -/

namespace KubeCenter.Topology

open KubeCenter.Core

/-! ## What is collected up to the cap -/

/-- The distinct proper links that fit, and whether one did not. -/
structure Collected (maxEdges : ℕ) (links : List Edge) (s : EdgeSet) : Prop where
  nodup : (s.edges.map Edge.key).Nodup
  sound : ∀ e ∈ s.edges, e ∈ links ∧ e.Proper
  cap : 0 < maxEdges → s.edges.length ≤ maxEdges
  capped : s.capped = true ↔ ∃ e ∈ links, e.Proper ∧ e.key ∉ s.edges.map Edge.key
  full : s.capped = true → 0 < maxEdges ∧ maxEdges ≤ s.edges.length

/-- The step that draws a link. -/
theorem collected_push {maxEdges : ℕ} {links : List Edge} {s : EdgeSet} (h : Collected maxEdges links s) {e : Edge}
    (hcapped : ¬s.capped = true) (hproper : e.Proper) (hkey : e.key ∉ s.edges.map Edge.key)
    (hfull : ¬(0 < maxEdges ∧ maxEdges ≤ s.edges.length)) :
    Collected maxEdges (links ++ [e]) { s with edges := s.edges ++ [e] } := by
  have hkeys : (s.edges ++ [e]).map Edge.key = s.edges.map Edge.key ++ [e.key] := List.map_append
  refine ⟨?_, ?_, ?_, iff_of_false hcapped ?_, fun hc ↦ absurd hc hcapped⟩
  · rw [hkeys, ← List.concat_eq_append]
    exact h.nodup.concat hkey
  · intro d hd
    obtain hd | hd := List.mem_append.mp hd
    · exact ⟨List.mem_append_left _ (h.sound d hd).1, (h.sound d hd).2⟩
    · exact ⟨List.mem_append_right _ hd, List.mem_singleton.mp hd ▸ hproper⟩
  · intro hmax
    have hroom : s.edges.length < maxEdges := not_le.mp (fun hle ↦ hfull ⟨hmax, hle⟩)
    rw [List.length_append]
    exact hroom
  · -- what came before is drawn already, as the set is not capped
    rintro ⟨d, hd, hd', hout⟩
    rw [hkeys, List.mem_append, not_or] at hout
    obtain hd | hd := List.mem_append.mp hd
    · exact hcapped (h.capped.mpr ⟨d, hd, hd', hout.1⟩)
    · exact hout.2 (List.mem_singleton.mpr (congrArg Edge.key (List.mem_singleton.mp hd)))

theorem collected_add {maxEdges : ℕ} {links : List Edge} {s : EdgeSet} (h : Collected maxEdges links s) (e : Edge) :
    Collected maxEdges (links ++ [e]) (s.add maxEdges e) := by
  have hsound : ∀ d ∈ s.edges, d ∈ links ++ [e] ∧ d.Proper := fun d hd ↦
    ⟨List.mem_append_left _ (h.sound d hd).1, (h.sound d hd).2⟩
  -- a link that adds nothing leaves everything as it was
  have hsame (hold : ¬(e.Proper ∧ e.key ∉ s.edges.map Edge.key)) : Collected maxEdges (links ++ [e]) s := by
    refine ⟨h.nodup, hsound, h.cap, h.capped.trans ⟨?_, ?_⟩, h.full⟩
    · exact fun ⟨d, hd, hout⟩ ↦ ⟨d, List.mem_append_left _ hd, hout⟩
    · rintro ⟨d, hd, hout⟩
      obtain hd | hd := List.mem_append.mp hd
      · exact ⟨d, hd, hout⟩
      · exact absurd (List.mem_singleton.mp hd ▸ hout) hold
  unfold EdgeSet.add
  by_cases hcapped : s.capped = true
  · rw [if_pos hcapped]
    obtain ⟨d, hd, hout⟩ := h.capped.mp hcapped
    exact ⟨h.nodup, hsound, h.cap, iff_of_true hcapped ⟨d, List.mem_append_left _ hd, hout⟩, h.full⟩
  · rw [if_neg hcapped]
    by_cases hproper : e.Proper
    · rw [if_neg (by simpa [Edge.Proper] using hproper)]
      by_cases hkey : e.key ∈ s.edges.map Edge.key
      · rw [if_pos hkey]
        exact hsame (fun hout ↦ hout.2 hkey)
      · rw [if_neg hkey]
        by_cases hfull : 0 < maxEdges ∧ maxEdges ≤ s.edges.length
        · rw [if_pos hfull]
          exact ⟨h.nodup, hsound, h.cap,
            iff_of_true rfl ⟨e, List.mem_append_right _ (List.mem_singleton_self e), hproper, hkey⟩, fun _ ↦ hfull⟩
        · rw [if_neg hfull]
          exact collected_push h hcapped hproper hkey hfull
    · rw [if_pos (by simpa [Edge.Proper, imp_iff_not_or] using hproper)]
      exact hsame (fun hout ↦ hproper hout.1)

theorem collected_foldl (maxEdges : ℕ) (links : List Edge) :
    Collected maxEdges links (links.foldl (EdgeSet.add maxEdges) {}) := by
  induction links using List.reverseRecOn with
  | nil => exact ⟨List.nodup_nil, nofun, fun _ ↦ Nat.zero_le _, by simp, nofun⟩
  | append_singleton links e ih =>
    rw [List.foldl_append]
    exact collected_add ih e

/-! ## The links of the routes -/

section

variable (rt : Runtime) (ns : String) (nameIndex : GoMap String String)

/-- The first host that is resolved gives the source. -/
def routeSource (r : TrafficRoute) : Option String :=
  r.hosts.findSome? (fun host ↦ resolveServiceHost rt host ns nameIndex)

def destinationLink (sourceUID : String) (edgeType : EdgeType) (dest : RouteDestination) : Option Edge :=
  (resolveServiceHost rt dest.host ns nameIndex).map (fun targetUID ↦ ⟨sourceUID, targetUID, edgeType⟩)

/-- What a route passes to `add`, in order. -/
def routeLinks (r : TrafficRoute) : List Edge :=
  if r.ns ≠ ns then []
  else match meshEdgeType r, routeSource rt ns nameIndex r with
    | some edgeType, some sourceUID => r.destinations.filterMap (destinationLink rt ns nameIndex sourceUID edgeType)
    | _, _ => []

variable {rt ns nameIndex} {maxEdges : ℕ}

theorem mem_routeLinks {r : TrafficRoute} {e : Edge} : e ∈ routeLinks rt ns nameIndex r ↔
    r.ns = ns ∧ meshEdgeType r = some e.type ∧ routeSource rt ns nameIndex r = some e.source ∧
      ∃ dest ∈ r.destinations, resolveServiceHost rt dest.host ns nameIndex = some e.target := by
  unfold routeLinks
  constructor
  · intro h
    split at h
    · exact absurd h List.not_mem_nil
    · rename_i hns
      split at h
      · rename_i edgeType sourceUID htype hsource
        obtain ⟨dest, hdest, hlink⟩ := List.mem_filterMap.mp h
        obtain ⟨targetUID, htarget, rfl⟩ := Option.map_eq_some_iff.mp hlink
        exact ⟨not_not.mp hns, htype, hsource, dest, hdest, htarget⟩
      · exact absurd h List.not_mem_nil
  · rintro ⟨hns, htype, hsource, dest, hdest, htarget⟩
    rw [if_neg (not_not.mpr hns), htype, hsource]
    refine List.mem_filterMap.mpr ⟨dest, hdest, ?_⟩
    rw [destinationLink, htarget]
    rfl

theorem foldl_add_capped {s : EdgeSet} (h : s.capped = true) (links : List Edge) :
    links.foldl (EdgeSet.add maxEdges) s = s :=
  List.foldlRecOn (motive := fun t ↦ t = s) links _ rfl (fun _ ht _ _ ↦ ht ▸ if_pos (ht ▸ h))

theorem foldl_add_improper {links : List Edge} (h : ∀ e ∈ links, e.source = "") (s : EdgeSet) :
    links.foldl (EdgeSet.add maxEdges) s = s :=
  List.foldlRecOn (motive := fun t ↦ t = s) links _ rfl
    (fun t ht e he ↦ by
      have hempty : e.source = "" ∨ e.target = "" := .inl (h e he)
      rw [EdgeSet.add, if_pos hempty, ite_self]
      exact ht)

theorem meshDestination_set (sourceUID : String) (edgeType : EdgeType) (s : MeshState) (dest : RouteDestination) :
    (meshDestination rt ns nameIndex maxEdges sourceUID edgeType s dest).set =
      (destinationLink rt ns nameIndex sourceUID edgeType dest).toList.foldl (EdgeSet.add maxEdges) s.set := by
  unfold meshDestination destinationLink
  by_cases hcapped : s.set.capped = true
  · rw [if_pos hcapped, foldl_add_capped hcapped]
  · rw [if_neg hcapped]
    cases resolveServiceHost rt dest.host ns nameIndex with
    | none => rfl
    | some targetUID => rfl

theorem meshDestinations_set (sourceUID : String) (edgeType : EdgeType) (dests : List RouteDestination) (s : MeshState) :
    (dests.foldl (meshDestination rt ns nameIndex maxEdges sourceUID edgeType) s).set =
      (dests.filterMap (destinationLink rt ns nameIndex sourceUID edgeType)).foldl (EdgeSet.add maxEdges) s.set := by
  induction dests generalizing s with
  | nil => rfl
  | cons dest dests ih =>
    rw [List.foldl_cons, ih, meshDestination_set]
    cases h : destinationLink rt ns nameIndex sourceUID edgeType dest with
    | none =>
      rw [List.filterMap_cons_none h]
      rfl
    | some e =>
      rw [List.filterMap_cons_some h]
      rfl

theorem meshRoute_set (s : MeshState) (r : TrafficRoute) :
    (meshRoute rt ns nameIndex maxEdges s r).set =
      (routeLinks rt ns nameIndex r).foldl (EdgeSet.add maxEdges) s.set := by
  unfold meshRoute
  by_cases hcapped : s.set.capped = true
  · rw [if_pos hcapped, foldl_add_capped hcapped]
  rw [if_neg hcapped]
  unfold routeLinks routeSource
  by_cases hns : r.ns ≠ ns
  · rw [if_pos hns, if_pos hns]
    rfl
  rw [if_neg hns, if_neg hns]
  cases meshEdgeType r with
  | none => rfl
  | some edgeType =>
    cases r.hosts.findSome? (fun host ↦ resolveServiceHost rt host ns nameIndex) with
    | none => rfl
    | some sourceUID =>
      dsimp only [Option.getD_some]
      by_cases hempty : sourceUID = ""
      · rw [if_pos hempty]
        refine (foldl_add_improper (fun e he ↦ ?_) s.set).symm
        obtain ⟨dest, -, hlink⟩ := List.mem_filterMap.mp he
        obtain ⟨targetUID, -, rfl⟩ := Option.map_eq_some_iff.mp hlink
        exact hempty
      · rw [if_neg hempty]
        exact meshDestinations_set sourceUID edgeType r.destinations _

theorem routeSource_empty (r : TrafficRoute) : routeSource rt "" nameIndex r = none := by
  refine List.findSome?_eq_none_iff.mpr (fun host _ ↦ ?_)
  rw [resolveServiceHost, if_pos (.inr rfl)]

theorem routeLinks_empty (r : TrafficRoute) : routeLinks rt "" nameIndex r = [] := by
  refine List.eq_nil_iff_forall_not_mem.mpr (fun e he ↦ ?_)
  obtain ⟨-, -, hsource, -⟩ := mem_routeLinks.mp he
  rw [routeSource_empty] at hsource
  cases hsource

theorem buildMeshEdges_set (routes : List TrafficRoute) :
    (buildMeshEdges rt ns nameIndex maxEdges routes).set =
      (routes.flatMap (routeLinks rt ns nameIndex)).foldl (EdgeSet.add maxEdges) {} := by
  unfold buildMeshEdges
  by_cases hns : ns = ""
  · subst hns
    rw [if_pos rfl, List.flatMap_eq_nil_iff.mpr (fun r _ ↦ routeLinks_empty r)]
    rfl
  · rw [if_neg hns, List.foldl_flatMap]
    exact (List.foldl_hom MeshState.set (fun s r ↦ (meshRoute_set s r).symm)).symm

end

/-! ## Distinct edges have distinct keys -/

theorem EdgeType.text_slash (t : EdgeType) : '/' ∉ t.text.toList := by
  cases t <;> decide

theorem EdgeType.text_injective : Function.Injective EdgeType.text := by
  intro s t h
  cases s <;> cases t <;> first | rfl | exact absurd h (by decide)

theorem Edge.key_injective {d e : Edge} (hd : '>' ∉ d.source.toList) (he : '>' ∉ e.source.toList)
    (h : d.key = e.key) : d = e := by
  have htext := congrArg String.toList h
  simp only [Edge.key, String.toList_append, show "->".toList = ['-', '>'] from rfl,
    show "/".toList = ['/'] from rfl, List.append_assoc, List.cons_append, List.nil_append] at htext
  have harrow : ∀ source : List Char, '>' ∉ source → ∀ rest,
      cut '>' (source ++ '-' :: '>' :: rest) = some (source ++ ['-'], rest) := by
    intro source hsource rest
    rw [List.append_cons]
    exact cut_append (by simp [hsource]) rest
  have hcut := congrArg (cut '>') htext
  rw [harrow _ hd, harrow _ he, Option.some.injEq, Prod.mk.injEq] at hcut
  have hsource := List.append_cancel_right hcut.1
  have hslash : ∀ (t : EdgeType) (target : List Char),
      cut '/' (target ++ '/' :: t.text.toList).reverse = some (t.text.toList.reverse, target.reverse) := by
    intro t target
    rw [List.reverse_append, List.reverse_cons, List.append_assoc, List.singleton_append]
    exact cut_append (by simp [t.text_slash]) target.reverse
  have hrest := congrArg (fun cs ↦ cut '/' cs.reverse) hcut.2
  rw [hslash, hslash, Option.some.injEq, Prod.mk.injEq] at hrest
  obtain ⟨htype, htarget⟩ := hrest
  obtain ⟨source, target, type⟩ := d
  obtain ⟨source', target', type'⟩ := e
  obtain rfl := String.toList_inj.mp hsource
  obtain rfl := String.toList_inj.mp (List.reverse_injective htarget)
  obtain rfl := EdgeType.text_injective (String.toList_inj.mp (List.reverse_injective htype))
  rfl

/-! ## The Services of the graph -/

/-- What the API server promises of the Services that it lists in a namespace. -/
structure ServicesListed (ns : String) (services : List Service) : Prop where
  inNs : ∀ svc ∈ services, svc.ns = ns
  named : ∀ svc ∈ services, ∀ svc' ∈ services, svc.name = svc'.name → svc.uid = svc'.uid
  uids : ∀ svc ∈ services, svc.uid ≠ "" ∧ '>' ∉ svc.uid.toList

/-- A Service node of `ns` with this UID. -/
def Graph.IsService (g : Graph) (ns uid : String) : Prop := ∃ n ∈ g.nodes, n.kind = "Service" ∧ n.ns = ns ∧ n.id = uid

/-- The host names the Service node of `ns` with this UID. -/
def Graph.Serves (g : Graph) (rt : Runtime) (ns host uid : String) : Prop :=
  ∃ n ∈ g.nodes, n.kind = "Service" ∧ n.ns = ns ∧ n.id = uid ∧ HostNames rt ns host n.name

theorem Graph.Serves.isService {g : Graph} {rt : Runtime} {ns host uid : String} (h : g.Serves rt ns host uid) :
    g.IsService ns uid := by
  obtain ⟨n, hn, hkind, hns, hid, -⟩ := h
  exact ⟨n, hn, hkind, hns, hid⟩

/-- A link from the first of the route's hosts that names a Service to one that a destination names. -/
structure RouteResolves (g : Graph) (rt : Runtime) (ns : String) (r : TrafficRoute) (e : Edge) : Prop where
  inNs : r.ns = ns
  type : meshEdgeType r = some e.type
  source : ∃ earlier host later, r.hosts = earlier ++ host :: later ∧ g.Serves rt ns host e.source ∧
    ∀ other ∈ earlier, ∀ uid, ¬g.Serves rt ns other uid
  target : ∃ dest ∈ r.destinations, g.Serves rt ns dest.host e.target

def Resolvable (g : Graph) (rt : Runtime) (ns : String) (routes : List TrafficRoute) (e : Edge) : Prop :=
  ∃ r ∈ routes, RouteResolves g rt ns r e

section

variable {ns : String} {inv : Inventory}

theorem service_of_ref {r : ResourceRef} (hr : r ∈ inv.kept) (hkind : r.kind = "Service") :
    ∃ svc ∈ inv.services, r = ⟨svc.uid, "Service", svc.name, svc.ns⟩ := by
  have hmem := List.mem_of_mem_take hr
  simp only [Inventory.refs, List.mem_append] at hmem
  have hother : ∀ {O : Type} {kind : String} {toMeta : O → ObjectMeta} {items : List O}, kind ≠ "Service" →
      r ∉ refsOf kind toMeta items := fun hne hin ↦ hne ((kind_of_mem_refsOf hin).symm.trans hkind)
  rcases hmem with (((((((((((h | h) | h) | h) | h) | h) | h) | h) | h) | h) | h) | h)
  case inl.inl.inl.inl.inl.inl.inl.inl.inl.inl.inr =>
    obtain ⟨svc, hsvc, rfl⟩ := List.mem_map.mp h
    exact ⟨svc, hsvc, rfl⟩
  all_goals exact absurd h (hother (by decide))

theorem service_key {r : ResourceRef} {name : String} (hr : r ∈ inv.kept) (hkey : r.key = "Service/" ++ name) :
    r.kind = "Service" ∧ r.name = name := by
  have hkind := kind_of_key (baseKinds_slash (kind_of_mem_refs (List.mem_of_mem_take hr)))
    (show '/' ∉ "Service".toList by decide) hkey
  refine ⟨hkind, ?_⟩
  rw [ResourceRef.key, hkind] at hkey
  exact (String.append_right_inj _).mp hkey

theorem lookup_service (h : ServicesListed ns inv.services) {name uid : String} :
    (indexRefs inv.kept).lookup ("Service/" ++ name) = some uid ↔
      ∃ r ∈ inv.kept, r.kind = "Service" ∧ r.ns = ns ∧ r.id = uid ∧ r.name = name := by
  constructor
  · intro hlookup
    obtain ⟨r, hr, hkey, hid⟩ := GoMap.mem_of_lookup_indexBy hlookup
    obtain ⟨hkind, hname⟩ := service_key hr hkey
    obtain ⟨svc, hsvc, rfl⟩ := service_of_ref hr hkind
    exact ⟨_, hr, rfl, h.inNs svc hsvc, hid, hname⟩
  · rintro ⟨r, hr, hkind, -, rfl, rfl⟩
    have hkey : r.key = "Service/" ++ r.name := by rw [ResourceRef.key, hkind]; rfl
    obtain ⟨uid, huid⟩ := Option.isSome_iff_exists.mp (lookup_indexRefs_isSome.mpr ⟨r, hr, hkey⟩)
    obtain ⟨r', hr', hkey', hid'⟩ := GoMap.mem_of_lookup_indexBy huid
    obtain ⟨hkind', hname'⟩ := service_key hr' hkey'
    obtain ⟨svc, hsvc, rfl⟩ := service_of_ref hr hkind
    obtain ⟨svc', hsvc', rfl⟩ := service_of_ref hr' hkind'
    rw [huid, ← hid']
    exact congrArg some (h.named svc' hsvc' svc hsvc hname')

theorem resolveServiceHost_serves (h : ServicesListed ns inv.services) {rt : Runtime} {host uid : String} :
    resolveServiceHost rt host ns (buildBase rt inv).nameIndex = some uid ↔
      (buildBase rt inv).graph.Serves rt ns host uid := by
  rw [resolveServiceHost_iff, buildBase_nameIndex]
  constructor
  · rintro ⟨name, hnames, hlookup⟩
    obtain ⟨r, hr, hkind, hns, hid, rfl⟩ := (lookup_service h).mp hlookup
    rw [← buildBase_refs rt] at hr
    obtain ⟨n, hn, rfl⟩ := List.mem_map.mp hr
    exact ⟨n, hn, hkind, hns, hid, hnames⟩
  · rintro ⟨n, hn, hkind, hns, hid, hnames⟩
    refine ⟨n.name, hnames, (lookup_service h).mpr ⟨n.ref, ?_, hkind, hns, hid, rfl⟩⟩
    rw [← buildBase_refs rt]
    exact List.mem_map_of_mem hn

theorem not_serves (h : ServicesListed ns inv.services) {rt : Runtime} {host : String} :
    resolveServiceHost rt host ns (buildBase rt inv).nameIndex = none ↔
      ∀ uid, ¬(buildBase rt inv).graph.Serves rt ns host uid := by
  rw [Option.eq_none_iff_forall_ne_some]
  exact forall_congr' (fun uid ↦ not_congr (resolveServiceHost_serves h))

theorem resolvable_iff (h : ServicesListed ns inv.services) {rt : Runtime} {routes : List TrafficRoute} {e : Edge} :
    e ∈ routes.flatMap (routeLinks rt ns (buildBase rt inv).nameIndex) ↔
      Resolvable (buildBase rt inv).graph rt ns routes e := by
  rw [List.mem_flatMap]
  refine exists_congr (fun r ↦ and_congr_right (fun _ ↦ ?_))
  rw [mem_routeLinks, routeSource, List.findSome?_eq_some_iff]
  constructor
  · rintro ⟨hns, htype, ⟨earlier, host, later, hhosts, hsource, hearlier⟩, dest, hdest, htarget⟩
    refine ⟨hns, htype, ⟨earlier, host, later, hhosts, (resolveServiceHost_serves h).mp hsource, ?_⟩,
      dest, hdest, (resolveServiceHost_serves h).mp htarget⟩
    exact fun other hother ↦ (not_serves h).mp (hearlier other hother)
  · rintro ⟨hns, htype, ⟨earlier, host, later, hhosts, hsource, hearlier⟩, dest, hdest, htarget⟩
    refine ⟨hns, htype, ⟨earlier, host, later, hhosts, (resolveServiceHost_serves h).mpr hsource, ?_⟩,
      dest, hdest, (resolveServiceHost_serves h).mpr htarget⟩
    exact fun other hother ↦ (not_serves h).mpr (hearlier other hother)

theorem uid_of_isService (h : ServicesListed ns inv.services) {rt : Runtime} {uid : String}
    (huid : (buildBase rt inv).graph.IsService ns uid) : uid ≠ "" ∧ '>' ∉ uid.toList := by
  obtain ⟨n, hn, hkind, -, rfl⟩ := huid
  have hr : n.ref ∈ inv.kept := by
    rw [← buildBase_refs rt]
    exact List.mem_map_of_mem hn
  obtain ⟨svc, hsvc, href⟩ := service_of_ref hr hkind
  have hid : n.id = svc.uid := congrArg ResourceRef.id href
  exact hid ▸ h.uids svc hsvc

theorem Resolvable.ends {g : Graph} {rt : Runtime} {routes : List TrafficRoute} {e : Edge}
    (h : Resolvable g rt ns routes e) : e.Ends (g.IsService ns) := by
  obtain ⟨r, -, -, -, ⟨_, _, _, -, hsource, -⟩, _, -, htarget⟩ := h
  exact ⟨hsource.isService, htarget.isService⟩

/-! ## What the mesh draws -/

/-- The resolvable edges that the cap leaves room for, each once, and whether one was dropped. -/
structure MeshExact (g : Graph) (rt : Runtime) (ns : String) (maxEdges : ℕ) (routes : List TrafficRoute)
    (s : EdgeSet) : Prop where
  nodup : s.edges.Nodup
  ends : ∀ e ∈ s.edges, e.Ends (g.IsService ns)
  sound : ∀ e ∈ s.edges, Resolvable g rt ns routes e
  cap : 0 < maxEdges → s.edges.length ≤ maxEdges
  underCap : maxEdges = 0 ∨ s.edges.length < maxEdges → ∀ e, Resolvable g rt ns routes e → e ∈ s.edges
  fitting : ∀ all : List Edge, all.length ≤ maxEdges → (∀ e, Resolvable g rt ns routes e → e ∈ all) →
    ∀ e, Resolvable g rt ns routes e → e ∈ s.edges
  truncated : s.capped = true ↔ ∃ e, Resolvable g rt ns routes e ∧ e ∉ s.edges

theorem buildMeshEdges_exact (h : ServicesListed ns inv.services) (rt : Runtime) (maxEdges : ℕ)
    (routes : List TrafficRoute) : MeshExact (buildBase rt inv).graph rt ns maxEdges routes
      (buildMeshEdges rt ns (buildBase rt inv).nameIndex maxEdges routes).set := by
  rw [buildMeshEdges_set]
  have hcollected := collected_foldl maxEdges (routes.flatMap (routeLinks rt ns (buildBase rt inv).nameIndex))
  generalize ((routes.flatMap (routeLinks rt ns (buildBase rt inv).nameIndex)).foldl (EdgeSet.add maxEdges) {}) = s
    at hcollected
  have hsound : ∀ e ∈ s.edges, Resolvable (buildBase rt inv).graph rt ns routes e :=
    fun e he ↦ (resolvable_iff h).mp (hcollected.sound e he).1
  have hproper : ∀ e, Resolvable (buildBase rt inv).graph rt ns routes e → e.Proper := fun e he ↦
    ⟨(uid_of_isService h he.ends.1).1, (uid_of_isService h he.ends.2).1⟩
  have hkey : ∀ e, Resolvable (buildBase rt inv).graph rt ns routes e →
      (e.key ∈ s.edges.map Edge.key ↔ e ∈ s.edges) := by
    refine fun e he ↦ ⟨fun hk ↦ ?_, List.mem_map_of_mem⟩
    obtain ⟨d, hd, hk⟩ := List.mem_map.mp hk
    have heq : d = e := Edge.key_injective (uid_of_isService h (hsound d hd).ends.1).2
      (uid_of_isService h he.ends.1).2 hk
    exact heq ▸ hd
  have hdropped : s.capped = true ↔ ∃ e, Resolvable (buildBase rt inv).graph rt ns routes e ∧ e ∉ s.edges := by
    refine hcollected.capped.trans (exists_congr (fun e ↦ ?_))
    rw [resolvable_iff h]
    constructor
    · exact fun ⟨he, _, hout⟩ ↦ ⟨he, fun hin ↦ hout ((hkey e he).mpr hin)⟩
    · exact fun ⟨he, hout⟩ ↦ ⟨he, hproper e he, fun hin ↦ hout ((hkey e he).mp hin)⟩
  refine ⟨hcollected.nodup.of_map _, fun e he ↦ (hsound e he).ends, hsound, hcollected.cap, ?_, ?_, hdropped⟩
  · intro hunder e he
    by_contra hout
    obtain ⟨hpos, hfull⟩ := hcollected.full (hdropped.mpr ⟨e, he, hout⟩)
    omega
  · intro all hall hcover e he
    by_contra hout
    obtain ⟨-, hfull⟩ := hcollected.full (hdropped.mpr ⟨e, he, hout⟩)
    have hnodup : (e :: s.edges).Nodup := List.nodup_cons.mpr ⟨hout, hcollected.nodup.of_map _⟩
    have hsub : e :: s.edges ⊆ all := List.cons_subset.mpr ⟨hcover e he, fun d hd ↦ hcover d (hsound d hd)⟩
    have hlength := (List.subperm_of_subset hnodup hsub).length_le
    rw [List.length_cons] at hlength
    omega

end

def shopInventory : Inventory := (webBuilder 2 []).lister.inventory allowAll "shop"

def canaryRoute : TrafficRoute where
  mesh := .istio
  kind := "VirtualService"
  ns := "shop"
  hosts := ["*.example.com", "S0.Shop.svc.k8s.example.com"]
  destinations := [⟨"s1"⟩, ⟨"s1.shop"⟩, ⟨"s0"⟩]

theorem buildMeshEdges_exact_shop : ServicesListed "shop" shopInventory.services ∧
    MeshExact (buildBase inOrder shopInventory).graph inOrder "shop" 1 [canaryRoute]
      (buildMeshEdges inOrder "shop" (buildBase inOrder shopInventory).nameIndex 1 [canaryRoute]).set := by
  have hlisted : ServicesListed "shop" shopInventory.services := ⟨by decide, by decide, by decide⟩
  exact ⟨hlisted, buildMeshEdges_exact hlisted inOrder 1 [canaryRoute]⟩

example : (buildMeshEdges inOrder "shop" (buildBase inOrder shopInventory).nameIndex 1 [canaryRoute]).set =
    ⟨[⟨"svc-0", "svc-1", .meshVS⟩], true⟩ := by rfl

end KubeCenter.Topology
