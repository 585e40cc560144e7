import KubeCenter.ServiceMesh.PeerAuth
import Mathlib.Data.Prod.Lex
import Mathlib.Data.List.Sort

/-! The rows of the workloads, and what the order of the pods decides about them. -/

namespace KubeCenter.ServiceMesh

open KubeCenter.Core

namespace WorkloadMTLS

/-- By what the rows are sorted. -/
def place (w : WorkloadMTLS) : String ×ₗ String := toLex (w.ns, w.workload)

/-- What the row of a workload has of all its pods. -/
def common (w : WorkloadMTLS) : WorkloadKey × MTLSState × Bool := (w.key, w.state, w.workloadKindConfident)

theorem less_eq_false {a b : WorkloadMTLS} : less b a = false ↔ a.place ≤ b.place := by
  unfold less place
  rw [Prod.Lex.toLex_le_toLex]
  by_cases hns : b.ns = a.ns
  · rw [if_neg (not_not.mpr hns), decide_eq_false_iff_not, not_lt, hns]
    exact ⟨fun h ↦ .inr ⟨rfl, h⟩, fun h ↦ h.elim (fun hlt ↦ absurd hlt (lt_irrefl _)) And.right⟩
  · rw [if_pos hns, decide_eq_false_iff_not, not_lt]
    exact ⟨fun h ↦ .inl (lt_of_le_of_ne h (Ne.symm hns)), fun h ↦ h.elim le_of_lt (fun h ↦ h.1.le)⟩

end WorkloadMTLS

/-- The row says what all of the workload's pods say. -/
structure RowCommon (postures : List WorkloadPosture) (w : WorkloadMTLS) : Prop where
  listed : ∃ pp ∈ postures, pp.key = w.key
  state : (∀ pp ∈ postures, pp.key = w.key → pp.state = w.state) ∨
    w.state = .mixed ∧ ∃ pp ∈ postures, ∃ qq ∈ postures, pp.key = w.key ∧ qq.key = w.key ∧ pp.state ≠ qq.state
  confident : w.workloadKindConfident = true ↔ ∀ pp ∈ postures, pp.key = w.key → pp.workloadKindConfident = true

/-- The rest of the row is what the first of them says. -/
structure RowOk (postures : List WorkloadPosture) (w : WorkloadMTLS) : Prop extends RowCommon postures w where
  first : ∃ pp, postures.find? (fun pp ↦ pp.key = w.key) = some pp ∧ w.mesh = pp.mesh ∧ w.source = pp.source ∧
    w.istioMode = pp.istioMode ∧ w.sourceDetail = pp.sourceDetail

section Members

variable {first pp : WorkloadPosture} {rest members : List WorkloadPosture} {agg w : WorkloadMTLS}

/-- Widening changes the state and the confidence only. -/
theorem foldl_widen (rest : List WorkloadPosture) (agg : WorkloadMTLS) :
    rest.foldl WorkloadMTLS.widen agg =
      { agg with
        state := if ∀ pp ∈ rest, pp.state = agg.state then agg.state else .mixed
        workloadKindConfident := agg.workloadKindConfident && rest.all WorkloadPosture.workloadKindConfident } := by
  induction rest generalizing agg with
  | nil => simp
  | cons pp rest ih =>
    rw [List.foldl_cons, ih]
    by_cases hpp : pp.state = agg.state
    · have hstate : (agg.widen pp).state = agg.state := if_neg (not_not.mpr hpp)
      rw [hstate]
      cases hconf : pp.workloadKindConfident <;> simp [WorkloadMTLS.widen, hpp, hconf]
    · have hstate : (agg.widen pp).state = .mixed := if_pos hpp
      rw [hstate, ite_self]
      cases hconf : pp.workloadKindConfident <;> simp [WorkloadMTLS.widen, hpp, hconf]

/-- What the row of a group says. -/
structure GroupRow (members : List WorkloadPosture) (first : WorkloadPosture) (w : WorkloadMTLS) : Prop where
  key : w.key = first.key
  mesh : w.mesh = first.mesh
  source : w.source = first.source
  istioMode : w.istioMode = first.istioMode
  sourceDetail : w.sourceDetail = first.sourceDetail
  state : w.state = if ∀ pp ∈ members, pp.state = first.state then first.state else .mixed
  confident : w.workloadKindConfident = members.all WorkloadPosture.workloadKindConfident

theorem aggregateMembers_eq_some (h : aggregateMembers members = some w) :
    ∃ first, members.head? = some first ∧ GroupRow members first w := by
  cases members with
  | nil => cases h
  | cons first rest =>
    refine ⟨first, rfl, ?_⟩
    rw [aggregateMembers, foldl_widen] at h
    cases h
    exact ⟨rfl, rfl, rfl, rfl, rfl, if_congr (by simp [WorkloadPosture.row]) rfl rfl, rfl⟩

theorem aggregateMembers_isSome : (aggregateMembers members).isSome ↔ members ≠ [] := by
  cases members <;> simp [aggregateMembers]

end Members

/-- The rows before they are sorted. -/
def unsortedRows (postures : List WorkloadPosture) : List WorkloadMTLS :=
  let groups := groupBy WorkloadPosture.key postures
  groups.order.filterMap (fun k ↦ aggregateMembers (groups.get k))

def membersOf (postures : List WorkloadPosture) (k : WorkloadKey) : List WorkloadPosture :=
  postures.filter (fun pp ↦ pp.key = k)

variable {postures postures' : List WorkloadPosture} {w w' : WorkloadMTLS} {k : WorkloadKey}

theorem mem_membersOf {pp : WorkloadPosture} : pp ∈ membersOf postures k ↔ pp ∈ postures ∧ pp.key = k := by
  simp [membersOf]

theorem mem_unsortedRows :
    w ∈ unsortedRows postures ↔ ∃ k ∈ postures.map WorkloadPosture.key, aggregateMembers (membersOf postures k) = some w := by
  unfold unsortedRows membersOf
  simp only [List.mem_filterMap, mem_order_groupBy, get_groupBy]

theorem key_of_aggregateMembers (h : aggregateMembers (membersOf postures k) = some w) : w.key = k := by
  obtain ⟨first, hfirst, hrow⟩ := aggregateMembers_eq_some h
  rw [hrow.key]
  exact (mem_membersOf.mp (List.mem_of_mem_head? hfirst)).2

/-- There is a row for each key, in the order of the groups. -/
theorem map_key_unsortedRows :
    (unsortedRows postures).map WorkloadMTLS.key = (groupBy WorkloadPosture.key postures).order := by
  unfold unsortedRows
  dsimp only
  have hall : ∀ k ∈ (groupBy WorkloadPosture.key postures).order,
      (aggregateMembers ((groupBy WorkloadPosture.key postures).get k)).map WorkloadMTLS.key = some k := by
    intro k hk
    rw [get_groupBy]
    obtain ⟨pp, hpp, hkey⟩ := List.mem_map.mp (mem_order_groupBy.mp hk)
    have hne : membersOf postures k ≠ [] := List.ne_nil_of_mem (mem_membersOf.mpr ⟨hpp, hkey⟩)
    obtain ⟨w, hw⟩ := Option.isSome_iff_exists.mp (aggregateMembers_isSome.mpr hne)
    rw [membersOf] at hw
    rw [hw, Option.map_some, key_of_aggregateMembers hw]
  rw [List.map_filterMap, List.filterMap_congr hall, List.filterMap_some]

/-! ## One row for each workload -/

structure OneRowEach (postures : List WorkloadPosture) (rows : List WorkloadMTLS) : Prop where
  nodup : (rows.map WorkloadMTLS.key).Nodup
  keys : ∀ k, k ∈ rows.map WorkloadMTLS.key ↔ k ∈ postures.map WorkloadPosture.key
  row : ∀ w ∈ rows, RowOk postures w
  sorted : rows.Pairwise (fun a b ↦ a.place ≤ b.place)

theorem GroupRow.rowOk {first : WorkloadPosture} (hfirst : (membersOf postures k).head? = some first)
    (h : GroupRow (membersOf postures k) first w) : RowOk postures w := by
  have hmem := mem_membersOf.mp (List.mem_of_mem_head? hfirst)
  obtain rfl : k = w.key := hmem.2.symm.trans h.key.symm
  refine ⟨⟨⟨first, hmem⟩, ?_, ?_⟩, first, ?_, h.mesh, h.source, h.istioMode, h.sourceDetail⟩
  · by_cases hall : ∀ pp ∈ membersOf postures w.key, pp.state = first.state
    · rw [h.state, if_pos hall]
      exact .inl (fun pp hpp hkey ↦ hall pp (mem_membersOf.mpr ⟨hpp, hkey⟩))
    · rw [h.state, if_neg hall]
      push Not at hall
      obtain ⟨pp, hpp, hne⟩ := hall
      exact .inr ⟨rfl, pp, (mem_membersOf.mp hpp).1, first, hmem.1, (mem_membersOf.mp hpp).2, hmem.2, hne⟩
  · rw [h.confident, List.all_eq_true]
    exact ⟨fun hall pp hpp hkey ↦ hall pp (mem_membersOf.mpr ⟨hpp, hkey⟩),
      fun hall pp hpp ↦ hall pp (mem_membersOf.mp hpp).1 (mem_membersOf.mp hpp).2⟩
  · rw [← hfirst, membersOf, List.head?_filter]

theorem rowOk_of_mem (h : w ∈ unsortedRows postures) : RowOk postures w := by
  obtain ⟨k, -, hw⟩ := mem_unsortedRows.mp h
  obtain ⟨first, hfirst, hrow⟩ := aggregateMembers_eq_some hw
  exact hrow.rowOk hfirst

theorem oneRowEach_aggregateWorkloads (slice : SliceSort WorkloadMTLS.less) (postures : List WorkloadPosture) :
    OneRowEach postures (aggregateWorkloads slice postures) := by
  have hperm : (aggregateWorkloads slice postures).Perm (unsortedRows postures) := slice.perm _
  refine ⟨?_, fun k ↦ ?_, fun w hw ↦ rowOk_of_mem (hperm.mem_iff.mp hw), ?_⟩
  · rw [(hperm.map _).nodup_iff, map_key_unsortedRows]
    exact nodup_order_groupBy _ _
  · rw [(hperm.map _).mem_iff, map_key_unsortedRows]
    exact mem_order_groupBy
  · exact (slice.sorted _).imp WorkloadMTLS.less_eq_false.mp

/-! ## Any order of the pods -/

/-- The pods of each workload have one mesh, source, mode and detail. -/
def Agree (postures : List WorkloadPosture) : Prop :=
  ∀ pp ∈ postures, ∀ qq ∈ postures, pp.key = qq.key →
    pp.mesh = qq.mesh ∧ pp.source = qq.source ∧ pp.istioMode = qq.istioMode ∧ pp.sourceDetail = qq.sourceDetail

/-- No two kinds of workload share a namespace and a name. -/
def UniqueKinds (postures : List WorkloadPosture) : Prop :=
  ∀ pp ∈ postures, ∀ qq ∈ postures, pp.ns = qq.ns → pp.workload = qq.workload → pp.workloadKind = qq.workloadKind

structure SameRows (postures : List WorkloadPosture) (rows rows' : List WorkloadMTLS) : Prop where
  places : rows.map WorkloadMTLS.place = rows'.map WorkloadMTLS.place
  commons : (rows.map WorkloadMTLS.common).Perm (rows'.map WorkloadMTLS.common)
  whole : Agree postures → rows.Perm rows'
  equal : Agree postures → UniqueKinds postures → rows = rows'

theorem RowCommon.perm (h : RowCommon postures w) (hperm : postures.Perm postures') : RowCommon postures' w := by
  obtain ⟨hlisted, hstate, hconfident⟩ := h
  simp only [hperm.mem_iff] at hlisted hstate hconfident
  exact ⟨hlisted, hstate, hconfident⟩

theorem RowCommon.state_eq (h : RowCommon postures w) (h' : RowCommon postures w') (hkey : w.key = w'.key) :
    w.state = w'.state := by
  obtain ⟨first, hmem, hfirstKey⟩ := h.listed
  obtain hall | ⟨hmixed, pp, hpp, qq, hqq, hppKey, hqqKey, hne⟩ := h.state
  · obtain hall' | ⟨-, pp, hpp, qq, hqq, hppKey, hqqKey, hne⟩ := h'.state
    · exact (hall first hmem hfirstKey).symm.trans (hall' first hmem (hfirstKey.trans hkey))
    · rw [← hkey] at hppKey hqqKey
      exact absurd ((hall pp hpp hppKey).trans (hall qq hqq hqqKey).symm) hne
  · obtain hall' | ⟨hmixed', -⟩ := h'.state
    · rw [hkey] at hppKey hqqKey
      exact absurd ((hall' pp hpp hppKey).trans (hall' qq hqq hqqKey).symm) hne
    · rw [hmixed, hmixed']

theorem RowCommon.common_eq (h : RowCommon postures w) (h' : RowCommon postures w') (hkey : w.key = w'.key) :
    w.common = w'.common := by
  have hconfident : w.workloadKindConfident = w'.workloadKindConfident := by
    rw [Bool.eq_iff_iff, h.confident, h'.confident, hkey]
  rw [WorkloadMTLS.common, WorkloadMTLS.common, hkey, h.state_eq h' hkey, hconfident]

theorem WorkloadMTLS.ext_common {a b : WorkloadMTLS} (hcommon : a.common = b.common) (hmesh : a.mesh = b.mesh)
    (hsource : a.source = b.source) (hmode : a.istioMode = b.istioMode) (hdetail : a.sourceDetail = b.sourceDetail) :
    a = b := by
  cases a
  cases b
  simp_all [WorkloadMTLS.common, WorkloadMTLS.key]

/-- Where the pods of a workload agree, any of them may come first. -/
theorem RowOk.eq (hagree : Agree postures) (hperm : postures'.Perm postures) (h : RowOk postures w)
    (h' : RowOk postures' w') (hkey : w.key = w'.key) : w = w' := by
  have hcommon := h.common_eq (h'.toRowCommon.perm hperm) hkey
  obtain ⟨pp, hpp, hmesh, hsource, hmode, hdetail⟩ := h.first
  obtain ⟨qq, hqq, hmesh', hsource', hmode', hdetail'⟩ := h'.first
  have hppKey : pp.key = w.key := by simpa using List.find?_some hpp
  have hqqKey : qq.key = w'.key := by simpa using List.find?_some hqq
  obtain ⟨amesh, asource, amode, adetail⟩ := hagree pp (List.mem_of_find?_eq_some hpp) qq
    (hperm.mem_iff.mp (List.mem_of_find?_eq_some hqq)) (hppKey.trans (hkey.trans hqqKey.symm))
  exact WorkloadMTLS.ext_common hcommon (hmesh.trans (amesh.trans hmesh'.symm))
    (hsource.trans (asource.trans hsource'.symm)) (hmode.trans (amode.trans hmode'.symm))
    (hdetail.trans (adetail.trans hdetail'.symm))

theorem RowCommon.key_eq (hunique : UniqueKinds postures) (h : RowCommon postures w) (h' : RowCommon postures w')
    (hplace : w.place = w'.place) : w.key = w'.key := by
  obtain ⟨pp, hpp, hppKey⟩ := h.listed
  obtain ⟨qq, hqq, hqqKey⟩ := h'.listed
  obtain ⟨hns, hname⟩ := Prod.mk.inj (toLex.injective hplace)
  rw [← hppKey, ← hqqKey]
  have hppNs : pp.ns = w.ns := congrArg WorkloadKey.ns hppKey
  have hqqNs : qq.ns = w'.ns := congrArg WorkloadKey.ns hqqKey
  have hppName : pp.workload = w.workload := congrArg WorkloadKey.name hppKey
  have hqqName : qq.workload = w'.workload := congrArg WorkloadKey.name hqqKey
  have hnsEq : pp.ns = qq.ns := hppNs.trans (hns.trans hqqNs.symm)
  have hnameEq : pp.workload = qq.workload := hppName.trans (hname.trans hqqName.symm)
  have hkindEq := hunique pp hpp qq hqq hnsEq hnameEq
  rw [WorkloadPosture.key, WorkloadPosture.key, hnsEq, hnameEq, hkindEq]

section Orders

variable {rows rows' : List WorkloadMTLS}

/-- Every row has its counterpart, of the same workload. -/
theorem OneRowEach.counterpart (h : OneRowEach postures rows) (h' : OneRowEach postures' rows')
    (hperm : postures'.Perm postures) (hw : w ∈ rows) : ∃ w' ∈ rows', w'.key = w.key := by
  have hkey : w.key ∈ rows'.map WorkloadMTLS.key := by
    rw [h'.keys, (hperm.map _).mem_iff, ← h.keys]
    exact List.mem_map_of_mem hw
  exact List.mem_map.mp hkey

theorem OneRowEach.common_subset (h : OneRowEach postures rows) (h' : OneRowEach postures' rows')
    (hperm : postures'.Perm postures) : rows.map WorkloadMTLS.common ⊆ rows'.map WorkloadMTLS.common := by
  intro x hx
  obtain ⟨w, hw, rfl⟩ := List.mem_map.mp hx
  obtain ⟨w', hw', hkey⟩ := h.counterpart h' hperm hw
  rw [(h.row w hw).common_eq ((h'.row w' hw').toRowCommon.perm hperm) hkey.symm]
  exact List.mem_map_of_mem hw'

theorem OneRowEach.nodup_common (h : OneRowEach postures rows) : (rows.map WorkloadMTLS.common).Nodup := by
  have hkeys : (rows.map WorkloadMTLS.common).map Prod.fst = rows.map WorkloadMTLS.key := by
    rw [List.map_map]
    rfl
  exact List.Nodup.of_map Prod.fst (hkeys ▸ h.nodup)

theorem OneRowEach.sameRows (h : OneRowEach postures rows) (h' : OneRowEach postures' rows')
    (hperm : postures'.Perm postures) : SameRows postures rows rows' := by
  have hcommons : (rows.map WorkloadMTLS.common).Perm (rows'.map WorkloadMTLS.common) := by
    rw [List.perm_ext_iff_of_nodup h.nodup_common h'.nodup_common]
    exact fun x ↦ ⟨fun hx ↦ h.common_subset h' hperm hx, fun hx ↦ h'.common_subset h hperm.symm hx⟩
  have hwhole : Agree postures → rows.Perm rows' := by
    intro hagree
    rw [List.perm_ext_iff_of_nodup (List.Nodup.of_map _ h.nodup) (List.Nodup.of_map _ h'.nodup)]
    intro w
    constructor
    · intro hw
      obtain ⟨w', hw', hkey⟩ := h.counterpart h' hperm hw
      rw [(h.row w hw).eq hagree hperm (h'.row w' hw') hkey.symm]
      exact hw'
    · intro hw
      obtain ⟨w', hw', hkey⟩ := h'.counterpart h hperm.symm hw
      rw [← (h.row w' hw').eq hagree hperm (h'.row w hw) hkey]
      exact hw'
  refine ⟨?_, hcommons, hwhole, fun hagree hunique ↦ ?_⟩
  · have hplaces : (rows.map WorkloadMTLS.place).Perm (rows'.map WorkloadMTLS.place) := by
      have hmap := hcommons.map (fun x ↦ toLex (x.1.ns, x.1.name))
      rwa [List.map_map, List.map_map] at hmap
    exact hplaces.eq_of_pairwise (fun _ _ _ _ hle hge ↦ le_antisymm hle hge)
      (List.pairwise_map.mpr h.sorted) (List.pairwise_map.mpr h'.sorted)
  · refine (hwhole hagree).eq_of_pairwise (fun a b ha hb hle hge ↦ ?_) h.sorted h'.sorted
    have hkey := (h.row a ha).key_eq hunique ((h'.row b hb).toRowCommon.perm hperm) (le_antisymm hle hge)
    exact (h.row a ha).eq hagree hperm (h'.row b hb) hkey

end Orders

/-- There is one row for each workload, and up to which pod comes first the order of the pods decides nothing. -/
theorem aggregateWorkloads_oneRowEach (slice : SliceSort WorkloadMTLS.less) (postures : List WorkloadPosture) :
    OneRowEach postures (aggregateWorkloads slice postures) ∧
      ∀ (slice' : SliceSort WorkloadMTLS.less) (postures' : List WorkloadPosture), postures'.Perm postures →
        SameRows postures (aggregateWorkloads slice postures) (aggregateWorkloads slice' postures') :=
  ⟨oneRowEach_aggregateWorkloads slice postures, fun slice' postures' hperm ↦
    (oneRowEach_aggregateWorkloads slice postures).sameRows (oneRowEach_aggregateWorkloads slice' postures') hperm⟩

/-- Go's sort of a short slice. -/
def insertionSlice : SliceSort WorkloadMTLS.less where
  sort := List.insertionSort (fun a b ↦ a.place ≤ b.place)
  perm := List.perm_insertionSort _
  sorted l := by
    have : Std.Total (fun a b : WorkloadMTLS ↦ a.place ≤ b.place) := ⟨fun a b ↦ le_total a.place b.place⟩
    have : IsTrans WorkloadMTLS (fun a b ↦ a.place ≤ b.place) := ⟨fun _ _ _ ↦ le_trans⟩
    exact (List.pairwise_insertionSort _ l).imp WorkloadMTLS.less_eq_false.mpr

/-- Two pods of a Deployment; a policy that disables mTLS has a selector that matches the first one only. -/
def cartPods : List Pod :=
  let pod (name track : String) : Pod :=
    { ns := "shop", name, ownerReferences := [⟨"ReplicaSet", "cart-6d4b7", some true⟩]
      labels := (∅ : GoMap String String).insert "track" track, containers := ["istio-proxy"] }
  [pod "cart-a" "canary", pod "cart-b" "stable"]

def canaryDisable : PeerAuthRef := ⟨"shop", "canary", "DISABLE", [("track", "canary")]⟩

/-- In the one order the row has the policy of the canary, in the other one none. -/
theorem not_orderFree : ¬ ∀ (slice : SliceSort WorkloadMTLS.less) (postures postures' : List WorkloadPosture),
    postures'.Perm postures → aggregateWorkloads slice postures' = aggregateWorkloads slice postures := by
  intro h
  have heq := h insertionSlice (computeWorkloadPostures cartPods [canaryDisable] none)
    (computeWorkloadPostures cartPods.reverse [canaryDisable] none) ((List.reverse_perm cartPods).map _)
  revert heq
  decide

end KubeCenter.ServiceMesh
