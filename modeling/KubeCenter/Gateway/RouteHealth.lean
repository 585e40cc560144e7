import KubeCenter.Gateway.Handler

/-! The health of a route that several controllers report on. -/

namespace KubeCenter.Gateway

open KubeCenter.Core
open KubeCenter.Policy (nestedSlice isObject)

/-! What the loop keeps of each type. -/

def parentsPath : List String := ["status", "parents"]

def parentConditions (pm : Json) : List Condition := extractConditions pm ["conditions"]

/-- The conditions of all parents, in the order of the parents. -/
def reported (u : Json) : List Condition := (objectsAt u parentsPath).flatMap parentConditions

def ofType (t : String) (cs : List Condition) : List Condition := cs.filter (·.type = t)

/-- Of the conditions of one type: those without a status and the first one with one. -/
def kept : List Condition → List Condition
  | [] => []
  | c :: cs => if c.status = "" then c :: kept cs else [c]

variable {u u' : Json} {t s v : String} {cs : List Condition} {c : Condition}

@[simp] theorem ofType_nil (t : String) : ofType t [] = [] := rfl

theorem ofType_append (t : String) (cs ds : List Condition) : ofType t (cs ++ ds) = ofType t cs ++ ofType t ds :=
  List.filter_append ..

theorem ofType_cons_self (c : Condition) (cs : List Condition) : ofType c.type (c :: cs) = c :: ofType c.type cs :=
  List.filter_cons_of_pos (decide_eq_true rfl)

theorem ofType_cons_ne (h : c.type ≠ t) : ofType t (c :: cs) = ofType t cs :=
  List.filter_cons_of_neg (by simpa using h)

theorem mem_ofType : c ∈ ofType t cs ↔ c ∈ cs ∧ c.type = t := by
  rw [ofType, List.mem_filter, decide_eq_true_eq]

theorem foldl_takeCondition (t : String) (cs : List Condition) (acc : List String × List Condition) :
    ofType t (cs.foldl takeCondition acc).2 =
      ofType t acc.2 ++ if t ∈ acc.1 then [] else kept (ofType t cs) := by
  induction cs generalizing acc with
  | nil => simp [kept]
  | cons c cs ih =>
    rw [List.foldl_cons, ih]
    unfold takeCondition
    by_cases hseen : c.type ∈ acc.1
    · rw [if_pos hseen]
      by_cases ht : c.type = t
      · rw [if_pos (ht ▸ hseen), if_pos (ht ▸ hseen)]
      · rw [ofType_cons_ne ht]
    · rw [if_neg hseen]
      dsimp only
      rw [ofType_append]
      by_cases ht : c.type = t
      · subst ht
        rw [ofType_cons_self, ofType_cons_self, ofType_nil, if_neg hseen, kept]
        by_cases hstatus : c.status = ""
        · rw [if_pos hstatus, if_pos hstatus, if_neg hseen, List.append_assoc, List.singleton_append]
        · rw [if_neg hstatus, if_neg hstatus, if_pos List.mem_cons_self, List.append_nil]
      · have hmem : t ∈ (if c.status = "" then acc.1 else c.type :: acc.1) ↔ t ∈ acc.1 := by
          split
          · rfl
          · rw [List.mem_cons, or_iff_right (Ne.symm ht)]
        rw [ofType_cons_ne ht, ofType_cons_ne ht, ofType_nil, List.append_nil]
        simp only [hmem]

theorem ofType_aggregate (t : String) (u : Json) : ofType t (aggregateRouteConditions u) = kept (ofType t (reported u)) := by
  unfold aggregateRouteConditions
  rw [foldl_takeCondition]
  simp only [ofType, List.filter_nil, List.nil_append, List.not_mem_nil, if_false]
  rfl

theorem kept_sublist (cs : List Condition) : (kept cs).Sublist cs := by
  induction cs with
  | nil => exact List.Sublist.refl []
  | cons c cs ih =>
    rw [kept]
    split
    · exact ih.cons_cons c
    · exact List.Sublist.cons_cons c (List.nil_sublist cs)

theorem kept_of_status (h : c.status ≠ "") : kept (c :: cs) = [c] := if_neg h

theorem mem_kept_head (c : Condition) (cs : List Condition) : c ∈ kept (c :: cs) := by
  rw [kept]
  split <;> exact List.mem_cons_self

theorem eq_of_length_le_one {d : Condition} (h : cs.length ≤ 1) (hc : c ∈ cs) (hd : d ∈ cs) : c = d := by
  match cs with
  | [] => cases hc
  | [e] => rw [List.mem_singleton.mp hc, List.mem_singleton.mp hd]
  | e :: e' :: cs => simp at h

/-- The loop keeps one condition alone where the first has a status, or where there is no second. -/
theorem length_kept_le : (kept cs).length ≤ 1 ↔ cs.length ≤ 1 ∨ ∀ c ∈ cs.head?, c.status ≠ "" := by
  match cs with
  | [] => simp [kept]
  | [c] => exact iff_of_true ((kept_sublist [c]).length_le) (.inl (Nat.le_refl 1))
  | c :: d :: cs =>
    have hhead : (∀ c' ∈ (c :: d :: cs).head?, c'.status ≠ "") ↔ c.status ≠ "" := by simp
    have hlong : ¬ (c :: d :: cs).length ≤ 1 := by simp
    rw [or_iff_right hlong, hhead]
    by_cases h : c.status = ""
    · have hpos := List.length_pos_of_mem (mem_kept_head d cs)
      rw [kept, if_pos h, List.length_cons]
      exact iff_of_false (by omega) (fun hne ↦ hne h)
    · rw [kept_of_status h]
      exact iff_of_true (Nat.le_refl 1) h

/-! What the merge ought to guarantee. -/

def parents (u : Json) : List Json := (nestedSlice u parentsPath).getD []

/-- The pairs that the conditions of a route give a reader. -/
def Reports (u : Json) (t s : String) : Prop := ∃ c ∈ aggregateRouteConditions u, c.type = t ∧ c.status = s

def GatewayAPISummary.route (summary : GatewayAPISummary) : RouteKind → KindSummary
  | .grpc => summary.grpcRoutes
  | .tcp => summary.tcpRoutes
  | .tls => summary.tlsRoutes
  | .udp => summary.udpRoutes

/-- Among any other objects, the summary has one healthy route more with this one. -/
def CountedHealthy (u : Json) : Option RouteKind → Prop
  | none => ∀ classes gateways before after routes,
    (computeSummary classes gateways (before ++ normalizeHTTPRoute u :: after) routes).httpRoutes.healthy =
      (computeSummary classes gateways (before ++ after) routes).httpRoutes.healthy + 1
  | some k => ∀ classes gateways httpRoutes before after,
    ((computeSummary classes gateways httpRoutes (before ++ normalizeRoute k.kindName u :: after)).route k).healthy =
      ((computeSummary classes gateways httpRoutes (before ++ after)).route k).healthy + 1

def KindSummary.Balanced (summary : KindSummary) : Prop := summary.healthy + summary.degraded = summary.total

structure GatewayAPISummary.Balanced (summary : GatewayAPISummary) : Prop where
  gatewayClasses : summary.gatewayClasses.Balanced
  gateways : summary.gateways.Balanced
  httpRoutes : summary.httpRoutes.Balanced
  routes : ∀ k, (summary.route k).Balanced

/-- The health of a route is told once for each type, whatever the order of its parents, and is not overstated. -/
structure HealthSound (u : Json) : Prop where
  single : ∀ t, (ofType t (aggregateRouteConditions u)).length ≤ 1
  orderFree : ∀ u', (parents u').Perm (parents u) → ∀ t s, Reports u' t s ↔ Reports u t s
  notOverstated : ∀ kind, CountedHealthy u kind →
    ∀ c ∈ reported u, c.type = "Accepted" → c.status = "True"
  balanced : ∀ classes gateways httpRoutes routes, (computeSummary classes gateways httpRoutes routes).Balanced

/-- All parents that report a type begin with the same status of it. -/
def FirstsAgree (u : Json) (t : String) : Prop :=
  ∃ v, v ≠ "" ∧ ∀ pm ∈ objectsAt u parentsPath, ∀ c ∈ (ofType t (parentConditions pm)).head?, c.status = v

/-- A type is reported once at most, or with one first status by all, and a parent that begins with having accepted the
route is not contradicted. -/
structure Unanimous (u : Json) : Prop where
  agree : ∀ t, (ofType t (reported u)).length ≤ 1 ∨ FirstsAgree u t
  accepted : ∀ pm ∈ objectsAt u parentsPath, ∀ c ∈ (ofType "Accepted" (parentConditions pm)).head?, c.status = "True" →
    ∀ d ∈ reported u, d.type = "Accepted" → d.status = "True"

theorem ofType_reported (t : String) (u : Json) :
    ofType t (reported u) = (objectsAt u parentsPath).flatMap (fun pm ↦ ofType t (parentConditions pm)) :=
  List.filter_flatMap ..

theorem reports_iff : Reports u t s ↔ ∃ c ∈ kept (ofType t (reported u)), c.status = s := by
  rw [← ofType_aggregate]
  unfold Reports
  simp only [mem_ofType, and_assoc]

/-- The first report of a type is the first one of some parent. -/
theorem mem_head_reported (h : c ∈ (ofType t (reported u)).head?) :
    ∃ pm ∈ objectsAt u parentsPath, c ∈ (ofType t (parentConditions pm)).head? := by
  rw [ofType_reported, List.head?_flatMap] at h
  exact List.exists_of_findSome?_eq_some h

theorem kept_eq_head (h : ∀ c ∈ cs.head?, c.status ≠ "") : kept cs = cs.head?.toList := by
  cases cs with
  | nil => rfl
  | cons c cs => exact kept_of_status (h c rfl)

/-- Where the first reports agree, their status is all that is kept of the type. -/
theorem FirstsAgree.kept (h : FirstsAgree u t) : ∃ v, v ≠ "" ∧
    Gateway.kept (ofType t (reported u)) = (ofType t (reported u)).head?.toList ∧
      (∀ c ∈ (ofType t (reported u)).head?, c.status = v) ∧
        ∀ pm ∈ objectsAt u parentsPath, ∀ c ∈ (ofType t (parentConditions pm)).head?, c.status = v := by
  obtain ⟨v, hv, hfirst⟩ := h
  have hhead : ∀ c ∈ (ofType t (reported u)).head?, c.status = v := by
    intro c hc
    obtain ⟨pm, hpm, hc⟩ := mem_head_reported hc
    exact hfirst pm hpm c hc
  exact ⟨v, hv, kept_eq_head fun c hc ↦ (hhead c hc).symm ▸ hv, hhead, hfirst⟩

theorem objectsAt_perm (h : (parents u').Perm (parents u)) : (objectsAt u' parentsPath).Perm (objectsAt u parentsPath) :=
  h.filter isObject

theorem reported_perm (h : (parents u').Perm (parents u)) : (reported u').Perm (reported u) :=
  (objectsAt_perm h).flatMap_right parentConditions

theorem FirstsAgree.perm (h : FirstsAgree u t) (hperm : (parents u').Perm (parents u)) : FirstsAgree u' t := by
  obtain ⟨v, hv, hfirst⟩ := h
  exact ⟨v, hv, fun pm hpm ↦ hfirst pm ((objectsAt_perm hperm).mem_iff.mp hpm)⟩

theorem reports_of_firstsAgree {v : String} (hv : v ≠ "")
    (hfirst : ∀ pm ∈ objectsAt u parentsPath, ∀ c ∈ (ofType t (parentConditions pm)).head?, c.status = v) :
    Reports u t s ↔ s = v ∧ ∃ c, c ∈ ofType t (reported u) := by
  have hhead : ∀ c ∈ (ofType t (reported u)).head?, c.status = v := by
    intro c hc
    obtain ⟨pm, hpm, hc⟩ := mem_head_reported hc
    exact hfirst pm hpm c hc
  rw [reports_iff, kept_eq_head fun c hc ↦ (hhead c hc).symm ▸ hv]
  cases hcs : ofType t (reported u) with
  | nil => simp
  | cons c cs =>
    have hc := hhead c (by rw [hcs]; rfl)
    rw [List.head?_cons, Option.toList_some]
    constructor
    · rintro ⟨d, hd, rfl⟩
      rw [List.mem_singleton.mp hd]
      exact ⟨hc, c, List.mem_cons_self⟩
    · rintro ⟨rfl, -⟩
      exact ⟨c, List.mem_singleton.mpr rfl, hc⟩

theorem reports_perm (hagree : (ofType t (reported u)).length ≤ 1 ∨ FirstsAgree u t) (h : (parents u').Perm (parents u)) :
    Reports u' t s ↔ Reports u t s := by
  have hperm : (ofType t (reported u')).Perm (ofType t (reported u)) := (reported_perm h).filter _
  obtain hshort | ⟨v, hv, hfirst⟩ := hagree
  · have hsame : ofType t (reported u') = ofType t (reported u) := by
      match hcs : ofType t (reported u) with
      | [] =>
        rw [hcs] at hperm
        exact hperm.eq_nil
      | [c] =>
        rw [hcs] at hperm
        exact List.perm_singleton.mp hperm
      | c :: d :: cs =>
        rw [hcs] at hshort
        simp at hshort
    rw [reports_iff, reports_iff, hsame]
  · have hfirst' := fun pm hpm ↦ hfirst pm ((objectsAt_perm h).mem_iff.mp hpm)
    rw [reports_of_firstsAgree hv hfirst, reports_of_firstsAgree hv hfirst']
    exact and_congr_right fun _ ↦ exists_congr fun c ↦ hperm.mem_iff

/-! What the summary counts. -/

theorem kindSummary_balanced {α : Type} (conditions : α → List Condition) (type : String) (l : List α) :
    (kindSummary conditions type l).Balanced := by
  unfold KindSummary.Balanced kindSummary
  dsimp only
  rw [← List.length_append, (List.filter_append_perm _ l).length_eq]

theorem computeSummary_balanced (classes : List GatewayClassSummary) (gateways : List GatewaySummary)
    (httpRoutes : List HTTPRouteSummary) (routes : List RouteSummary) :
    (computeSummary classes gateways httpRoutes routes).Balanced where
  gatewayClasses := kindSummary_balanced _ _ _
  gateways := kindSummary_balanced _ _ _
  httpRoutes := kindSummary_balanced _ _ _
  routes := fun k ↦ by cases k <;> exact kindSummary_balanced _ _ _

theorem route_computeSummary (classes : List GatewayClassSummary) (gateways : List GatewaySummary)
    (httpRoutes : List HTTPRouteSummary) (routes : List RouteSummary) (k : RouteKind) :
    (computeSummary classes gateways httpRoutes routes).route k = routeSummary routes k := by
  cases k <;> rfl

theorem healthy_insert {α : Type} (conditions : α → List Condition) (type : String) (a : α) (before after : List α) :
    (kindSummary conditions type (before ++ a :: after)).healthy =
        (kindSummary conditions type (before ++ after)).healthy + 1 ↔
      hasCondition (conditions a) type "True" = true := by
  unfold kindSummary
  dsimp only
  rw [List.filter_append, List.filter_append, List.length_append, List.length_append, List.filter_cons]
  cases hasCondition (conditions a) type "True" with
  | true =>
    rw [if_pos rfl, List.length_cons]
    exact iff_of_true (by omega) rfl
  | false =>
    rw [if_neg Bool.false_ne_true]
    exact iff_of_false (by omega) Bool.false_ne_true

theorem hasCondition_iff : hasCondition (aggregateRouteConditions u) t s = true ↔ Reports u t s := by
  unfold hasCondition Reports
  simp only [List.any_eq_true, Bool.and_eq_true, decide_eq_true_eq]

theorem countedHealthy_iff (u : Json) (kind : Option RouteKind) : CountedHealthy u kind ↔ Reports u "Accepted" "True" := by
  rw [← hasCondition_iff]
  cases kind with
  | none =>
    have hinsert := healthy_insert (·.conditions) "Accepted" (normalizeHTTPRoute u)
    exact ⟨fun h ↦ (hinsert [] []).mp (h [] [] [] [] []), fun h _ _ before after _ ↦ (hinsert before after).mpr h⟩
  | some k =>
    have hinsert := healthy_insert (·.conditions) "Accepted" (normalizeRoute k.kindName u)
    have hkind : ∀ before after : List RouteSummary,
        (before ++ normalizeRoute k.kindName u :: after).filter (fun rt ↦ rt.kind = k.kindName) =
          before.filter (fun rt ↦ rt.kind = k.kindName) ++
            normalizeRoute k.kindName u :: after.filter (fun rt ↦ rt.kind = k.kindName) := by
      intro before after
      have hown : decide ((normalizeRoute k.kindName u).kind = k.kindName) = true := decide_eq_true rfl
      rw [List.filter_append, List.filter_cons, if_pos hown]
    unfold CountedHealthy
    simp only [route_computeSummary, routeSummary, hkind, List.filter_append]
    exact ⟨fun h ↦ (hinsert [] []).mp (h [] [] [] [] []), fun h _ _ _ before after ↦ (hinsert _ _).mpr h⟩

/-! When the health is sound. -/

/-- A parent that is moved to the front has its first status of every type reported. -/
theorem reports_moved {pm : Json} (hpm : pm ∈ objectsAt u parentsPath) (hc : c ∈ (ofType t (parentConditions pm)).head?) :
    ∃ u', (parents u').Perm (parents u) ∧ Reports u' t c.status := by
  obtain ⟨hitem, hobject⟩ := List.mem_filter.mp hpm
  obtain ⟨before, after, hitems⟩ := List.append_of_mem hitem
  let u' : Json := .object [("status", .object [("parents", .array (pm :: (before ++ after)))])]
  have hparents : parents u' = pm :: (before ++ after) := rfl
  have hobjects : objectsAt u' parentsPath = pm :: (before ++ after).filter isObject := by
    change (parents u').filter isObject = _
    rw [hparents, List.filter_cons, if_pos hobject]
  have hfirst : (ofType t (reported u')).head? = some c := by
    rw [ofType_reported, hobjects, List.flatMap_cons, List.head?_append, Option.mem_def.mp hc]
    rfl
  obtain ⟨cs, hcs⟩ := List.head?_eq_some_iff.mp hfirst
  refine ⟨u', ?_, reports_iff.mpr ⟨c, ?_, rfl⟩⟩
  · rw [hparents]
    change _ = _ at hitems
    exact (List.perm_middle.symm).trans (List.Perm.of_eq hitems.symm)
  · rw [hcs]
    exact mem_kept_head c cs

theorem HealthSound.agree (h : HealthSound u) (t : String) : (ofType t (reported u)).length ≤ 1 ∨ FirstsAgree u t := by
  have hsingle := h.single t
  rw [ofType_aggregate, length_kept_le] at hsingle
  refine hsingle.imp_right fun hstatus ↦ ?_
  cases hcs : ofType t (reported u) with
  | nil =>
    refine ⟨"True", by decide, fun pm hpm c hc ↦ ?_⟩
    have hempty := (List.flatMap_eq_nil_iff.mp ((ofType_reported t u).symm.trans hcs)) pm hpm
    rw [hempty] at hc
    cases hc
  | cons c cs =>
    rw [hcs] at hstatus
    have hc := hstatus c rfl
    refine ⟨c.status, hc, fun pm hpm d hd ↦ ?_⟩
    obtain ⟨u', hperm, hreports⟩ := reports_moved hpm hd
    obtain ⟨e, he, hstatus⟩ := reports_iff.mp ((h.orderFree u' hperm t d.status).mp hreports)
    rw [hcs, kept_of_status hc] at he
    rw [← hstatus, List.mem_singleton.mp he]

/-- The health of a route is sound exactly if its parents are unanimous. -/
theorem healthSound_iff (u : Json) : HealthSound u ↔ Unanimous u := by
  constructor
  · intro h
    refine ⟨h.agree, fun pm hpm c hc htrue d hd htype ↦ ?_⟩
    obtain ⟨u', hperm, hreports⟩ := reports_moved hpm hc
    rw [htrue] at hreports
    have hcounted := (countedHealthy_iff u none).mpr ((h.orderFree u' hperm _ _).mp hreports)
    exact h.notOverstated none hcounted d hd htype
  · intro h
    refine ⟨fun t ↦ ?_, fun u' hperm t s ↦ reports_perm (h.agree t) hperm, fun kind hcounted d hd htype ↦ ?_,
      computeSummary_balanced⟩
    · rw [ofType_aggregate, length_kept_le]
      refine (h.agree t).imp_right fun hfirsts ↦ ?_
      obtain ⟨v, hv, -, hhead, -⟩ := hfirsts.kept
      exact fun c hc ↦ (hhead c hc).symm ▸ hv
    · have hreports := (countedHealthy_iff u kind).mp hcounted
      obtain hshort | ⟨v, hv, hfirst⟩ := h.agree "Accepted"
      · obtain ⟨c, hc, hstatus⟩ := reports_iff.mp hreports
        have hc := (kept_sublist _).subset hc
        have hd := mem_ofType.mpr ⟨hd, htype⟩
        rw [eq_of_length_le_one hshort hd hc]
        exact hstatus
      · obtain ⟨rfl, c, hc⟩ := (reports_of_firstsAgree hv hfirst).mp hreports
        cases hcs : (ofType "Accepted" (reported u)).head? with
        | none =>
          rw [List.head?_eq_none_iff.mp hcs] at hc
          cases hc
        | some e =>
          obtain ⟨pm, hpm, he⟩ := mem_head_reported hcs
          exact h.accepted pm hpm e he (hfirst pm hpm e he) d hd htype

def acceptedCondition (status : String) : Json := .object [("type", .string "Accepted"), ("status", .string status)]

def parentStatus (status : String) : Json := .object [("conditions", .array [acceptedCondition status])]

/-- One controller accepts the route, the next one rejects it. -/
def disputed : Json := .object [("status", .object [("parents", .array [parentStatus "True", parentStatus "False"])])]

theorem not_healthSound : ¬ ∀ u, HealthSound u := by
  intro h
  have hcounted := (countedHealthy_iff disputed none).mpr (hasCondition_iff.mp (by decide))
  have hall := (h disputed).notOverstated none hcounted
  exact absurd hall (by decide)

end KubeCenter.Gateway
