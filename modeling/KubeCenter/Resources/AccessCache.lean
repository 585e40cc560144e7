import KubeCenter.Resources.Access

namespace KubeCenter.Resources

open KubeCenter.Core K8s

inductive Target
  | core (resource : String)
  | grouped (apiGroup resource : String)
  deriving DecidableEq

def Target.text : Target → String
  | .core resource => resource
  | .grouped apiGroup resource => apiGroup ++ "/" ++ resource

structure Call where
  clusterID : String
  username : String
  groups : List String
  verb : String
  target : Target
  ns : String

namespace Call

variable (c : Call)

def key : AccessCacheKey :=
  { clusterID := c.clusterID, username := c.username, groups := sortedGroups c.groups
    resource := c.target.text, ns := c.ns, verb := c.verb }

def checked : String :=
  match c.target with
  | .core resource => c.verb ++ "/" ++ resource
  | .grouped apiGroup resource => c.verb ++ " " ++ apiGroup ++ "/" ++ resource

def review : Review :=
  match c.target with
  | .core resource =>
    { cluster := normalizedClusterID c.clusterID, username := c.username
      groups := c.groups.toFinset, ns := c.ns, verb := c.verb
      group := apiGroupForResource (splitResource resource).1
      resource := (splitResource resource).1, subresource := (splitResource resource).2 }
  | .grouped apiGroup resource =>
    { cluster := normalizedClusterID c.clusterID, username := c.username
      groups := c.groups.toFinset, ns := c.ns, verb := c.verb
      group := apiGroup, resource, subresource := "" }

theorem review_groups : c.review.groups = c.groups.toFinset := by
  unfold review
  split <;> rfl

def run (authorizer : Review → Except Failure Bool) (ac : AccessChecker) (clock : Clock) :
    Except AccessError Bool × AccessChecker :=
  match c.target with
  | .core resource =>
    ac.canAccess authorizer clock c.clusterID c.username c.groups c.verb resource c.ns
  | .grouped apiGroup resource =>
    ac.canAccessGroupResource authorizer clock c.clusterID c.username c.groups c.verb apiGroup resource c.ns

def direct (authorizer : Review → Except Failure Bool) : Except AccessError Bool :=
  (authorizer c.review).mapError (Failure.wrap c.checked c.ns c.clusterID)

/-- The authorizer's verdict, when it gives one. -/
def answer (authorizer : Review → Except Failure Bool) : Option Bool := (authorizer c.review).toOption

end Call

def runAll (authorizer : Review → Except Failure Bool) :
    AccessChecker → List (Call × Clock) → List (Except AccessError Bool)
  | _, [] => []
  | ac, (c, clock) :: cs =>
    (c.run authorizer ac clock).1 :: runAll authorizer (c.run authorizer ac clock).2 cs

/-- Every call is answered as if there were no cache. -/
def Transparent (authorizer : Review → Except Failure Bool) (cs : List (Call × Clock)) : Prop :=
  runAll authorizer (AccessChecker.setClusterRouter {}) cs = cs.map (fun x ↦ x.1.direct authorizer)

def WithinTTL (start : ℕ) (cs : List (Call × Clock)) : Prop :=
  ∀ x ∈ cs, start ≤ x.2.storedAt ∧ x.2.readAt < start + accessCacheTTL

instance (start : ℕ) (cs : List (Call × Clock)) : Decidable (WithinTTL start cs) :=
  inferInstanceAs (Decidable (∀ _ ∈ _, _ ∧ _))

variable {authorizer : Review → Except Failure Bool} {c d : Call} {clock : Clock} {start : ℕ}
  {cache : GoMap AccessCacheKey AccessCacheEntry} {ps : List Call}

theorem Call.direct_eq_ok {b : Bool} : c.direct authorizer = .ok b ↔ c.answer authorizer = some b := by
  unfold direct answer
  cases authorizer c.review <;> simp [Except.mapError, Except.toOption]

theorem Call.review_ok {allowed : Bool} (ha : c.answer authorizer = some allowed) :
    authorizer c.review = .ok allowed := by
  unfold answer at ha
  cases h : authorizer c.review with
  | error failure => simp [h, Except.toOption] at ha
  | ok b => simpa [h, Except.toOption] using ha

theorem Call.review_error (ha : c.answer authorizer = none) :
    ∃ failure, authorizer c.review = .error failure := by
  unfold answer at ha
  cases h : authorizer c.review with
  | error failure => exact ⟨failure, rfl⟩
  | ok b => simp [h, Except.toOption] at ha

/-- The checker as it serves: routed, with no test hook set. -/
def live (cache : GoMap AccessCacheKey AccessCacheEntry) : AccessChecker :=
  { clusterRouter := true, cache }

theorem run_live (c : Call) (clock : Clock) (cache : GoMap AccessCacheKey AccessCacheEntry) :
    c.run authorizer (live cache) clock = (live cache).cachedReview authorizer clock c.checked c.key c.review := by
  obtain ⟨clusterID, username, groups, verb, target, ns⟩ := c
  cases target <;> rfl

theorem run_hit {e : AccessCacheEntry} (he : cache.lookup c.key = some e) (ht : clock.readAt < e.expiresAt) :
    c.run authorizer (live cache) clock = (.ok e.allowed, live cache) := by
  rw [run_live, AccessChecker.cachedReview, show (live cache).cache = cache from rfl, he]
  simp only [if_pos ht]

theorem run_miss (hn : cache.lookup c.key = none) {allowed : Bool} (ha : c.answer authorizer = some allowed) :
    c.run authorizer (live cache) clock = (c.direct authorizer,
      live (cache.insert c.key ⟨allowed, clock.storedAt + accessCacheTTL⟩)) := by
  rw [run_live, AccessChecker.cachedReview, show (live cache).cache = cache from rfl, hn]
  simp [live, Call.direct, Call.review_ok ha, Except.mapError]

theorem run_fail (hn : cache.lookup c.key = none) (ha : c.answer authorizer = none) :
    c.run authorizer (live cache) clock = (c.direct authorizer, live cache) := by
  obtain ⟨failure, hf⟩ := Call.review_error ha
  rw [run_live, AccessChecker.cachedReview, show (live cache).cache = cache from rfl, hn]
  simp [live, Call.direct, hf, Except.mapError, Call.key]

def firstAnswer (authorizer : Review → Except Failure Bool) (ps : List Call) (k : AccessCacheKey) : Option Bool :=
  ps.findSome? (fun c ↦ if c.key = k then c.answer authorizer else none)

/-- The cache has the first answers to the calls `ps`, and none expires within the TTL. -/
structure Serves (authorizer : Review → Except Failure Bool) (start : ℕ) (ps : List Call)
    (cache : GoMap AccessCacheKey AccessCacheEntry) : Prop where
  answers : ∀ k, (cache.lookup k).map AccessCacheEntry.allowed = firstAnswer authorizer ps k
  lasting : ∀ k e, cache.lookup k = some e → start + accessCacheTTL ≤ e.expiresAt

theorem firstAnswer_concat (ps : List Call) (c : Call) (k : AccessCacheKey) :
    firstAnswer authorizer (ps ++ [c]) k =
      (firstAnswer authorizer ps k).or (if c.key = k then c.answer authorizer else none) := by
  unfold firstAnswer
  rw [List.findSome?_append]
  congr 1
  simp only [List.findSome?_cons, List.findSome?_nil]
  split <;> simp_all

def served (authorizer : Review → Except Failure Bool) (ps : List Call) (c : Call) : Except AccessError Bool :=
  match firstAnswer authorizer ps c.key with
  | some allowed => .ok allowed
  | none => c.direct authorizer

theorem Serves.run (h : Serves authorizer start ps cache)
    (ht : start ≤ clock.storedAt ∧ clock.readAt < start + accessCacheTTL) (c : Call) :
    ∃ cache', c.run authorizer (live cache) clock = (served authorizer ps c, live cache') ∧
      Serves authorizer start (ps ++ [c]) cache' := by
  have hanswer := h.answers c.key
  unfold served
  cases hl : cache.lookup c.key with
  | some e =>
    rw [hl, Option.map_some] at hanswer
    refine ⟨cache, ?_, fun k ↦ ?_, h.lasting⟩
    · rw [run_hit hl (ht.2.trans_le (h.lasting _ e hl)), ← hanswer]
    · rw [firstAnswer_concat, ← h.answers k]
      by_cases hk : c.key = k
      · subst hk
        rw [hl]
        rfl
      · simp [hk]
  | none =>
    rw [hl, Option.map_none] at hanswer
    rw [← hanswer]
    cases ha : c.answer authorizer with
    | none =>
      refine ⟨cache, run_fail hl ha, fun k ↦ ?_, h.lasting⟩
      rw [firstAnswer_concat, ← h.answers k, ha]
      simp
    | some allowed =>
      refine ⟨_, run_miss hl ha, fun k ↦ ?_, fun k e he ↦ ?_⟩
      · rw [firstAnswer_concat, ← h.answers k, ha]
        by_cases hk : c.key = k
        · subst hk
          rw [AList.lookup_insert, hl]
          simp
        · rw [AList.lookup_insert_ne (Ne.symm hk)]
          simp [hk]
      · by_cases hk : k = c.key
        · subst hk
          rw [AList.lookup_insert] at he
          cases he
          exact Nat.add_le_add_right ht.1 _
        · rw [AList.lookup_insert_ne hk] at he
          exact h.lasting k e he

/-- `d` after `c`, under one key, would be answered as `c` was. -/
def Agree (authorizer : Review → Except Failure Bool) (c d : Call) : Prop :=
  c.key = d.key → ∀ allowed, c.answer authorizer = some allowed → d.answer authorizer = some allowed

theorem served_iff (hps : ps.Pairwise (Agree authorizer)) (c : Call) :
    served authorizer ps c = c.direct authorizer ↔ ∀ p ∈ ps, Agree authorizer p c := by
  induction ps with
  | nil => simp [served, firstAnswer]
  | cons p ps ih =>
    obtain ⟨hp, hps⟩ := List.pairwise_cons.mp hps
    rw [List.forall_mem_cons, ← ih hps]
    by_cases hk : p.key = c.key
    · cases ha : p.answer authorizer with
      | none =>
        have hfirst : firstAnswer authorizer (p :: ps) c.key = firstAnswer authorizer ps c.key := by
          simp [firstAnswer, ha]
        have hagree : Agree authorizer p c := fun _ b hb ↦ by simp [ha] at hb
        simp [served, hfirst, hagree]
      | some allowed =>
        have hfirst : firstAnswer authorizer (p :: ps) c.key = some allowed := by
          simp [firstAnswer, hk, ha]
        have hagree : Agree authorizer p c ↔ c.answer authorizer = some allowed := by
          simp [Agree, hk, ha]
        rw [served, hfirst, eq_comm, Call.direct_eq_ok, hagree, ih hps]
        refine ⟨fun hc ↦ ⟨hc, fun q hq hqk b hb ↦ ?_⟩, fun h ↦ h.1⟩
        have hq' := hp q hq (hk.trans hqk.symm) allowed ha
        rw [hc, ← hb, hq']
    · have hfirst : firstAnswer authorizer (p :: ps) c.key = firstAnswer authorizer ps c.key := by
        simp [firstAnswer, hk]
      have hagree : Agree authorizer p c := fun h ↦ absurd h hk
      simp [served, hfirst, hagree]

theorem runAll_iff (hs : Serves authorizer start ps cache) (hps : ps.Pairwise (Agree authorizer))
    {cs : List (Call × Clock)} (ht : WithinTTL start cs) :
    runAll authorizer (live cache) cs = cs.map (fun x ↦ x.1.direct authorizer) ↔
      (ps ++ cs.map Prod.fst).Pairwise (Agree authorizer) := by
  induction cs generalizing ps cache with
  | nil => simpa [runAll] using hps
  | cons x cs ih =>
    obtain ⟨c, clock⟩ := x
    obtain ⟨cache', hrun, hs'⟩ := hs.run (ht _ List.mem_cons_self) c
    have htail : WithinTTL start cs := fun y hy ↦ ht y (List.mem_cons_of_mem _ hy)
    rw [runAll, hrun, List.map_cons, List.cons.injEq, served_iff hps, List.map_cons]
    by_cases hc : ∀ p ∈ ps, Agree authorizer p c
    · have hps' : (ps ++ [c]).Pairwise (Agree authorizer) :=
        List.pairwise_append.mpr ⟨hps, List.pairwise_singleton _ _, by simpa using hc⟩
      rw [ih hs' hps' htail, List.append_assoc, List.singleton_append]
      exact ⟨fun h ↦ h.2, fun h ↦ ⟨hc, h⟩⟩
    · refine ⟨fun h ↦ absurd h.1 hc, fun h ↦ absurd (fun p hp ↦ ?_) hc⟩
      exact (List.pairwise_append.mp h).2.2 p hp c List.mem_cons_self

/-- `c` and `d` differ as reviews and their keys do not show it: either two lists of groups
join to one text, or two resources are spelled alike. -/
structure Confusable (c d : Call) : Prop where
  clusterID : c.clusterID = d.clusterID
  username : c.username = d.username
  verb : c.verb = d.verb
  ns : c.ns = d.ns
  groups : sortedGroups c.groups = sortedGroups d.groups
  text : c.target.text = d.target.text
  differ : c.groups.toFinset ≠ d.groups.toFinset ∨ c.target ≠ d.target

theorem splitResource_eq {resource res sub : String} (h : splitResource resource = (res, sub)) :
    resource = res ∧ sub = "" ∨
      resource = res ++ "/" ++ sub ∧ res ≠ "" ∧ '/' ∉ res.toList := by
  unfold splitResource at h
  split at h
  · rename_i a as bs hcut
    obtain ⟨hcs, hsep⟩ := cut_eq_some hcut
    cases h
    refine .inr ⟨?_, ?_, ?_⟩
    · rw [← String.toList_inj]
      simp [hcs]
    · simp [← String.toList_inj]
    · simpa using hsep
  · cases h
    exact .inl ⟨rfl, rfl⟩

/-- The two entry points never ask the same review under one spelling. -/
theorem splitResource_ne (apiGroup resource : String) :
    splitResource (apiGroup ++ "/" ++ resource) ≠ (resource, "") := by
  intro h
  rcases splitResource_eq h with ⟨htext, -⟩ | ⟨htext, hne, hslash⟩
  · have := congrArg String.length htext
    simp at this
  · rw [← String.toList_inj] at htext
    simp only [String.toList_append, String.toList_empty, List.append_nil] at htext
    have hlength := congrArg List.length htext
    simp only [List.length_append] at hlength
    have hempty : apiGroup.toList = [] := List.eq_nil_of_length_eq_zero (by omega)
    rw [hempty, List.nil_append] at htext
    cases hres : resource.toList with
    | nil => exact hne (String.toList_inj.mp hres)
    | cons r rs =>
      rw [hres] at htext hslash
      have hr : '/' = r := (List.cons.inj htext).1
      exact hslash (hr ▸ List.mem_cons_self)

theorem key_eq_iff : c.key = d.key ↔ c.clusterID = d.clusterID ∧ c.username = d.username ∧
    sortedGroups c.groups = sortedGroups d.groups ∧ c.target.text = d.target.text ∧
    c.ns = d.ns ∧ c.verb = d.verb := by
  simp [Call.key]

theorem review_ne_of_target_ne (ht : c.target.text = d.target.text) (hne : c.target ≠ d.target) :
    c.review ≠ d.review := by
  intro h
  obtain ⟨clusterID, username, groups, verb, target, ns⟩ := c
  obtain ⟨clusterID', username', groups', verb', target', ns'⟩ := d
  cases target with
  | core resource =>
    cases target' with
    | core resource' => exact hne (congrArg Target.core ht)
    | grouped apiGroup' resource' =>
      cases (show resource = apiGroup' ++ "/" ++ resource' from ht)
      simp only [Call.review, Review.mk.injEq] at h
      exact splitResource_ne apiGroup' resource' (Prod.ext h.2.2.2.2.2.2.1 h.2.2.2.2.2.2.2)
  | grouped apiGroup resource =>
    cases target' with
    | core resource' =>
      cases (show apiGroup ++ "/" ++ resource = resource' from ht)
      simp only [Call.review, Review.mk.injEq] at h
      exact splitResource_ne apiGroup resource (Prod.ext h.2.2.2.2.2.2.1.symm h.2.2.2.2.2.2.2.symm)
    | grouped apiGroup' resource' =>
      simp only [Call.review, Review.mk.injEq] at h
      exact hne (by simp [h])

theorem confusable_iff : Confusable c d ↔ c.key = d.key ∧ c.review ≠ d.review := by
  constructor
  · intro h
    refine ⟨key_eq_iff.mpr ⟨h.clusterID, h.username, h.groups, h.text, h.ns, h.verb⟩, ?_⟩
    rcases h.differ with hgroups | htarget
    · exact fun hr ↦ hgroups (Call.review_groups c ▸ Call.review_groups d ▸ congrArg Review.groups hr)
    · exact review_ne_of_target_ne h.text htarget
  · rintro ⟨hkey, hreview⟩
    obtain ⟨hclusterID, husername, hgroups, htext, hns, hverb⟩ := key_eq_iff.mp hkey
    refine ⟨hclusterID, husername, hverb, hns, hgroups, htext, ?_⟩
    by_contra hsame
    obtain ⟨hset, htarget⟩ := not_or.mp hsame
    apply hreview
    unfold Call.review
    rw [hclusterID, husername, hns, hverb, not_not.mp hset, not_not.mp htarget]

theorem agree_iff : Agree authorizer c d ↔
    (Confusable c d → ∀ b, c.answer authorizer = some b → d.answer authorizer = some b) := by
  constructor
  · intro h hc
    exact h (confusable_iff.mp hc).1
  · intro h hkey
    by_cases hr : c.review = d.review
    · intro b hb
      rwa [Call.answer, ← hr]
    · exact h (confusable_iff.mpr ⟨hkey, hr⟩)

theorem transparent_iff {cs : List (Call × Clock)} (ht : WithinTTL start cs) :
    Transparent authorizer cs ↔ (cs.map Prod.fst).Pairwise (Agree authorizer) := by
  have hempty : Serves authorizer start [] ∅ :=
    ⟨fun k ↦ by simp [firstAnswer], fun k e he ↦ by simp at he⟩
  exact runAll_iff hempty List.Pairwise.nil ht

/-- For a fixed authorizer the cache shows exactly where a call is answered differently from
an earlier one that it is confused with; for all of them, wherever two calls are confusable. -/
theorem canAccess_transparent_iff (start : ℕ) (cs : List (Call × Clock)) (ht : WithinTTL start cs) :
    (∀ authorizer, Transparent authorizer cs ↔
      (cs.map Prod.fst).Pairwise (fun c d ↦ Confusable c d →
        ∀ b, c.answer authorizer = some b → d.answer authorizer = some b)) ∧
    ((∀ authorizer, Transparent authorizer cs) ↔
      (cs.map Prod.fst).Pairwise (fun c d ↦ ¬ Confusable c d)) := by
  have hfixed : ∀ authorizer, Transparent authorizer cs ↔
      (cs.map Prod.fst).Pairwise (fun c d ↦ Confusable c d →
        ∀ b, c.answer authorizer = some b → d.answer authorizer = some b) := by
    intro authorizer
    rw [transparent_iff ht]
    exact List.Pairwise.iff (fun c d ↦ agree_iff)
  refine ⟨hfixed, ?_, ?_⟩
  · intro h
    rw [List.pairwise_iff_forall_sublist]
    intro c d hcd hconf
    -- the authorizer that tells the two reviews apart
    have hsep := List.pairwise_iff_forall_sublist.mp
      ((hfixed (fun r ↦ .ok (decide (r = c.review)))).mp (h _)) hcd hconf true
      (by simp [Call.answer, Except.toOption])
    simp only [Call.answer, Except.toOption, Option.some.injEq, decide_eq_true_eq] at hsep
    exact (confusable_iff.mp hconf).2 hsep.symm
  · intro h authorizer
    rw [hfixed authorizer]
    exact h.imp (fun hc hconf ↦ absurd hconf hc)

def getPods (groups : List String) : Call :=
  { clusterID := "local", username := "eve", groups, verb := "get", target := .core "pods", ns := "" }

def askedTwice : List (Call × Clock) :=
  [(getPods ["dev"], ⟨0, 5⟩), (getPods ["admins", "dev"], ⟨8, 9⟩)]

theorem canAccess_transparent_iff_eve :
    (askedTwice.map Prod.fst).Pairwise (fun c d ↦ ¬ Confusable c d) ∧
      ∀ authorizer, Transparent authorizer askedTwice := by
  have hdistinct : (askedTwice.map Prod.fst).Pairwise (fun c d ↦ ¬ Confusable c d) :=
    List.pairwise_pair.mpr (fun hconf ↦ absurd hconf.groups (by decide))
  exact ⟨hdistinct, (canAccess_transparent_iff 0 askedTwice (by decide)).2.mpr hdistinct⟩

def askedAsAdmin : List (Call × Clock) :=
  [(getPods ["admins", "dev"], ⟨0, 5⟩), (getPods ["admins,dev"], ⟨8, 9⟩)]

theorem not_canAccess_transparent :
    ¬ ∀ authorizer start cs, WithinTTL start cs → Transparent authorizer cs := by
  intro h
  have := h (fun r ↦ .ok (decide ("admins" ∈ r.groups))) 0 askedAsAdmin (by decide)
  revert this
  unfold Transparent
  decide

end KubeCenter.Resources
