import KubeCenter.Core.Runs
import KubeCenter.Notifications.Store

namespace KubeCenter.Notifications

open KubeCenter.Core KubeCenter.Auth

section

variable (env : FeedEnv) (db : FeedTables) (rbac : String → List ResourceRule) (user : User) (cache : RBACCache)
  (now : ℤ)

/-- `HandleList` can return the notification to the user, whatever query it takes. -/
def CanReturn (n : Notification) : Prop :=
  ∃ query page total, handleList env db user cache query = .ok (page, total) ∧ n ∈ page.map Prod.fst

/-- Unread and less than 30 days old. -/
def RecentUnread (n : Notification) : Prop :=
  db.isRead user.kubernetesUsername n = false ∧ now - 30 * day < n.createdAt

open Classical in
/-- The feed of the user when RBAC grants `rbac ns` in each namespace. -/
structure FeedIsolated : Prop where
  listed : isAdmin user = false → ∀ query page total, handleList env db user cache query = .ok (page, total) →
    ∀ n ∈ page.map Prod.fst, n.resourceNS = "" ∨ Grants (rbac n.resourceNS)
  counted : ∀ count, handleUnreadCount env db user cache now = .ok count →
    count = db.rows.countP (fun n ↦ decide (RecentUnread db user now n ∧ CanReturn env db user cache n))

/-- The namespaces of the cached summary, or none when nothing live is cached. -/
def warmNamespaces : List String :=
  ((warm env.digest env.rbac user cache).map (fun s ↦ s.namespaces.entries.map Sigma.fst)).getD []

/-- The request is answered: the store replies, and no client has to be made or one can be. -/
def Answered : Prop :=
  env.answered = true ∧
    (isAdmin user = true ∨ (warm env.digest env.rbac user cache).isSome = true ∨ env.rbac.clientErr = none)

/-- An admin has no recent unread notification with a namespace. Of anyone else the cache holds a live
summary with a namespace, and those of its namespaces that have notifications are granted; or every
notification has no namespace or a granted one, and no recent unread one has any. -/
def FeedCovered : Prop :=
  if isAdmin user then ∀ n ∈ db.rows, RecentUnread db user now n → n.resourceNS = ""
  else if warmNamespaces env user cache = [] then
    ∀ n ∈ db.rows, (n.resourceNS = "" ∨ Grants (rbac n.resourceNS)) ∧ (RecentUnread db user now n → n.resourceNS = "")
  else ∀ n ∈ db.rows, n.resourceNS ∈ warmNamespaces env user cache → n.resourceNS = "" ∨ Grants (rbac n.resourceNS)

/-- The rows that pass the namespace filter of `ListNotifications`. -/
def Shown (namespaces : Option (List String)) (n : Notification) : Prop :=
  namespaces.getD [] = [] ∨ n.resourceNS ∈ namespaces.getD [] ∨ n.resourceNS = ""

end

variable {env : FeedEnv} {db : FeedTables} {rbac : String → List ResourceRule} {user : User} {cache : RBACCache}
  {now : ℤ} {namespaces : Option (List String)} {n : Notification}

theorem accessibleNamespaces_eq (h : Answered env user cache) : accessibleNamespaces env user cache =
    .ok (if isAdmin user then none else some (warmNamespaces env user cache)) := by
  unfold accessibleNamespaces
  by_cases ha : isAdmin user = true
  · simp [ha]
  · simp only [ha, Bool.false_eq_true, if_false]
    cases hw : warm env.digest env.rbac user cache with
    | some s =>
      rw [getSummary_warm hw]
      simp [warmNamespaces, hw]
    | none =>
      have hc : env.rbac.clientErr = none := by simpa [ha, hw] using h.2
      rw [getSummary_cold hw, hc]
      simp [warmNamespaces, hw, summarize_nil]

/-- What `accessibleNamespaces` hands to the store, when the request is answered. -/
theorem accessibleNamespaces_error (hans : env.answered = true) (h : ¬ Answered env user cache) :
    ∃ err, accessibleNamespaces env user cache = .error err := by
  simp only [Answered, hans, true_and, not_or, Bool.not_eq_true, Option.isSome_eq_false_iff,
    Option.isNone_iff_eq_none] at h
  obtain ⟨ha, hw, hc⟩ := h
  obtain ⟨err, herr⟩ := Option.ne_none_iff_exists'.mp hc
  refine ⟨"get RBAC summary: " ++ ("creating client for RBAC check: " ++ err), ?_⟩
  simp [accessibleNamespaces, ha, getSummary_cold hw, herr]

theorem handleList_of_not_answered (db : FeedTables) (h : ¬ Answered env user cache) (query : FeedQuery) :
    ∃ err, handleList env db user cache query = .error err := by
  unfold handleList
  by_cases hans : env.answered = true
  · obtain ⟨err, herr⟩ := accessibleNamespaces_error hans h
    exact ⟨_, by rw [herr]⟩
  · cases accessibleNamespaces env user cache with
    | error => exact ⟨_, rfl⟩
    | ok namespaces => exact ⟨⟨500, "failed to list notifications"⟩, by simp [hans]⟩

theorem handleUnreadCount_of_not_answered (db : FeedTables) (now : ℤ) (h : ¬ Answered env user cache) :
    ∃ err, handleUnreadCount env db user cache now = .error err := by
  unfold handleUnreadCount
  by_cases hans : env.answered = true
  · obtain ⟨err, herr⟩ := accessibleNamespaces_error hans h
    exact ⟨_, by rw [herr]⟩
  · cases accessibleNamespaces env user cache with
    | error => exact ⟨_, rfl⟩
    | ok namespaces => exact ⟨⟨500, "failed to count unread"⟩, by simp [hans]⟩

theorem shown_of_listWhere {query : FeedQuery} {userID : String} (h : listWhere db ⟨userID, namespaces, query⟩ n) :
    Shown namespaces n := by
  simp only [listWhere, Bool.and_eq_true, Bool.or_eq_true, decide_eq_true_eq, List.isEmpty_iff,
    List.contains_eq_mem] at h
  have := h.1.1.1.1.1
  simpa only [Shown, or_assoc] using this

theorem listWhere_of_shown {userID : String} (h : Shown namespaces n) (offset : ℤ) :
    listWhere db ⟨userID, namespaces, { offset := offset }⟩ n = true := by
  simpa [listWhere, Shown, or_assoc] using h

theorem handleList_eq (h : Answered env user cache) (query : FeedQuery) : handleList env db user cache query =
    match listNotifications db ⟨user.kubernetesUsername,
      if isAdmin user then none else some (warmNamespaces env user cache), query⟩ with
    | none => .error ⟨500, "failed to list notifications"⟩
    | some answer => .ok answer := by
  cases hlist : listNotifications db ⟨user.kubernetesUsername,
      if isAdmin user then none else some (warmNamespaces env user cache), query⟩ with
  | none => simp [handleList, accessibleNamespaces_eq h, h.1, hlist]
  | some answer => simp [handleList, accessibleNamespaces_eq h, h.1, hlist]

theorem mem_of_listNotifications {opts : ListOpts} {page : List (Notification × Bool)} {total : ℕ}
    (h : listNotifications db opts = some (page, total)) (hn : n ∈ page.map Prod.fst) :
    n ∈ db.rows ∧ listWhere db opts n := by
  unfold listNotifications at h
  split at h
  · contradiction
  · simp only [Option.some.injEq, Prod.mk.injEq] at h
    rw [← h.1, List.map_map, List.mem_map] at hn
    obtain ⟨m, hm, rfl⟩ := hn
    exact List.mem_filter.mp ((List.perm_insertionSort _ _).subset (List.mem_of_mem_drop (List.mem_of_mem_take hm)))

/-- The query that starts at the notification's place in the feed returns it. -/
theorem exists_listNotifications (userID : String) (hn : n ∈ db.rows) (h : Shown namespaces n) :
    ∃ offset page total, listNotifications db ⟨userID, namespaces, { offset := offset }⟩ = some (page, total) ∧
      n ∈ page.map Prod.fst := by
  set sorted := (db.rows.filter (listWhere db ⟨userID, namespaces, { offset := 0 }⟩)).insertionSort
    (fun n n' : Notification ↦ n'.createdAt ≤ n.createdAt) with hsorted
  have hmem : n ∈ sorted :=
    (List.perm_insertionSort _ _).symm.subset (List.mem_filter.mpr ⟨hn, listWhere_of_shown h 0⟩)
  obtain ⟨i, hi, hget⟩ := List.mem_iff_getElem.mp hmem
  refine ⟨i, _, _, if_neg (by simp), ?_⟩
  rw [List.map_map]
  refine List.mem_map.mpr ⟨n, ?_, rfl⟩
  change n ∈ (sorted.drop (i : ℤ).toNat).take 25
  rw [Int.toNat_natCast, List.drop_eq_getElem_cons hi, hget]
  exact List.mem_cons_self

theorem canReturn_iff (h : Answered env user cache) : CanReturn env db user cache n ↔
    n ∈ db.rows ∧ Shown (if isAdmin user then none else some (warmNamespaces env user cache)) n := by
  constructor
  · intro ⟨query, page, total, hlist, hn⟩
    rw [handleList_eq h] at hlist
    split at hlist
    · contradiction
    · next answer hrows =>
      obtain rfl : answer = (page, total) := by simpa using hlist
      obtain ⟨hmem, hwhere⟩ := mem_of_listNotifications hrows hn
      exact ⟨hmem, shown_of_listWhere hwhere⟩
  · intro ⟨hmem, hshown⟩
    obtain ⟨offset, page, total, hrows, hn⟩ := exists_listNotifications user.kubernetesUsername hmem hshown
    exact ⟨{ offset := offset }, page, total, by rw [handleList_eq h, hrows], hn⟩

theorem unreadWhere_iff : unreadWhere db user.kubernetesUsername namespaces now n ↔
    RecentUnread db user now n ∧ (n.resourceNS ∈ namespaces.getD [] ∨ n.resourceNS = "") := by
  simp [unreadWhere, RecentUnread]

theorem countP_eq_iff {α : Type*} {l : List α} {p q : α → Bool} (h : ∀ a ∈ l, p a → q a) :
    l.countP p = l.countP q ↔ ∀ a ∈ l, q a → p a := by
  constructor
  · induction l with
    | nil => simp
    | cons a l ih =>
      have hle : l.countP p ≤ l.countP q := List.countP_mono_left (fun b hb ↦ h b (List.mem_cons_of_mem a hb))
      have ha := h a List.mem_cons_self
      intro heq b hb hq
      rw [List.countP_cons, List.countP_cons] at heq
      rcases List.mem_cons.mp hb with rfl | hb
      · by_contra hp
        simp only [hp, hq, if_true, if_false] at heq
        omega
      · refine ih (fun b hb ↦ h b (List.mem_cons_of_mem a hb)) ?_ b hb hq
        by_cases hp : p a = true
        · simp only [hp, ha hp, if_true] at heq
          omega
        · by_cases hqa : q a = true <;> simp only [hp, hqa, if_true, Bool.false_eq_true, if_false] at heq <;> omega
  · intro hback
    exact List.countP_congr (fun a ha ↦ ⟨h a ha, hback a ha⟩)

open Classical in
/-- The count misses nothing exactly when the recent unread rows that are shown pass its own filter. -/
theorem counted_iff (h : Answered env user cache) :
    (∀ count, handleUnreadCount env db user cache now = .ok count →
      count = db.rows.countP (fun n ↦ decide (RecentUnread db user now n ∧ CanReturn env db user cache n))) ↔
    ∀ n ∈ db.rows, RecentUnread db user now n →
      Shown (if isAdmin user then none else some (warmNamespaces env user cache)) n →
      n.resourceNS ∈ (if isAdmin user then none else some (warmNamespaces env user cache)).getD [] ∨
        n.resourceNS = "" := by
  set namespaces := if isAdmin user then none else some (warmNamespaces env user cache) with hns
  have heq : handleUnreadCount env db user cache now =
      .ok (db.rows.countP (unreadWhere db user.kubernetesUsername namespaces now)) := by
    simp only [handleUnreadCount, accessibleNamespaces_eq h, h.1, if_true, unreadCount, ← hns]
  simp only [heq, Except.ok.injEq, forall_eq']
  rw [countP_eq_iff]
  · refine forall₂_congr (fun n hn ↦ ?_)
    rw [decide_eq_true_iff, canReturn_iff h, unreadWhere_iff]
    tauto
  · intro n hn hwhere
    obtain ⟨hrecent, hin⟩ := unreadWhere_iff.mp hwhere
    exact decide_eq_true ⟨hrecent, (canReturn_iff h).mpr ⟨hn, .inr hin⟩⟩

theorem listed_iff (h : Answered env user cache) (ha : isAdmin user = false) :
    (∀ query page total, handleList env db user cache query = .ok (page, total) →
      ∀ n ∈ page.map Prod.fst, n.resourceNS = "" ∨ Grants (rbac n.resourceNS)) ↔
    ∀ n ∈ db.rows, Shown (some (warmNamespaces env user cache)) n →
      n.resourceNS = "" ∨ Grants (rbac n.resourceNS) := by
  constructor
  · intro hlist n hn hshown
    have hcan : CanReturn env db user cache n := (canReturn_iff h).mpr ⟨hn, by simpa [ha] using hshown⟩
    obtain ⟨query, page, total, hok, hpage⟩ := hcan
    exact hlist query page total hok n hpage
  · intro hrows query page total hok n hpage
    obtain ⟨hn, hshown⟩ := (canReturn_iff h).mp ⟨query, page, total, hok, hpage⟩
    exact hrows n hn (by simpa [ha] using hshown)

open Classical in
theorem feedIsolated_iff_and : FeedIsolated env db rbac user cache now ↔
    (isAdmin user = false → ∀ query page total, handleList env db user cache query = .ok (page, total) →
      ∀ n ∈ page.map Prod.fst, n.resourceNS = "" ∨ Grants (rbac n.resourceNS)) ∧
    ∀ count, handleUnreadCount env db user cache now = .ok count →
      count = db.rows.countP (fun n ↦ decide (RecentUnread db user now n ∧ CanReturn env db user cache n)) :=
  ⟨fun h ↦ ⟨h.listed, h.counted⟩, fun h ↦ ⟨h.1, h.2⟩⟩

theorem feed_isolated_iff : FeedIsolated env db rbac user cache now ↔
    (Answered env user cache → FeedCovered env db rbac user cache now) := by
  by_cases h : Answered env user cache
  · rw [imp_iff_right h]
    rw [feedIsolated_iff_and, counted_iff h]
    by_cases ha : isAdmin user = true
    · simp [FeedCovered, ha, Shown]
    · simp only [Bool.not_eq_true] at ha
      rw [imp_iff_right ha, listed_iff h ha]
      by_cases hw : warmNamespaces env user cache = []
      · simp [FeedCovered, ha, hw, Shown, forall_and]
      · simp only [FeedCovered, ha, hw, Shown, Bool.false_eq_true, if_false, Option.getD_some, false_or]
        constructor
        · intro hboth n hn hin
          exact hboth.1 n hn (.inl hin)
        · intro hgranted
          refine ⟨fun n hn hin ↦ ?_, fun _ _ _ hin ↦ hin⟩
          rcases hin with hin | hns
          · exact hgranted n hn hin
          · exact .inl hns
  · refine iff_of_true ⟨fun _ query page total hok ↦ ?_, fun count hok ↦ ?_⟩ (fun hans ↦ absurd hans h)
    · obtain ⟨err, herr⟩ := handleList_of_not_answered db h query
      rw [herr] at hok
      contradiction
    · obtain ⟨err, herr⟩ := handleUnreadCount_of_not_answered db now h
      rw [herr] at hok
      contradiction

def outsider : User := ⟨"7", "mallory", "local", "mallory", [], ["viewer"]⟩

def paymentAlert : Notification where
  id := 1
  source := .alert
  severity := .critical
  title := "KubePodCrashLooping"
  resourceNS := "payments"

/-- Nothing is cached and every rules review answers that nothing is granted. -/
def coldFeed : FeedEnv where
  digest := id
  rbac := { readAt := 1, storedAt := 1, review := fun _ ↦ some [] }

theorem not_feed_isolated : ¬ FeedIsolated coldFeed ⟨[paymentAlert], ∅⟩ (fun _ ↦ []) outsider ∅ 0 := by
  intro h
  have hans : Answered coldFeed outsider ∅ := ⟨rfl, .inr (.inr rfl)⟩
  have hshown : Shown (if isAdmin outsider then none else some (warmNamespaces coldFeed outsider ∅)) paymentAlert :=
    .inl (by decide)
  have hcan : CanReturn coldFeed ⟨[paymentAlert], ∅⟩ outsider ∅ paymentAlert :=
    (canReturn_iff hans).mpr ⟨List.mem_singleton_self _, hshown⟩
  obtain ⟨query, page, total, hok, hpage⟩ := hcan
  rcases h.listed (by decide) query page total hok paymentAlert hpage with hns | ⟨rule, hrule, -⟩
  · exact absurd hns (by decide)
  · exact absurd hrule List.not_mem_nil

theorem mem_warmNamespaces {ns : String} (h : ns ∈ warmNamespaces env user cache) :
    ∃ summary, warm env.digest env.rbac user cache = some summary ∧ ns ∈ summary.namespaces := by
  unfold warmNamespaces at h
  cases hw : warm env.digest env.rbac user cache with
  | none => simp [hw] at h
  | some summary =>
    rw [hw] at h
    obtain ⟨e, he, rfl⟩ := List.mem_map.mp h
    exact ⟨summary, rfl, GoMap.mem_of_mem_entries he⟩

/-- While RBAC stays as it is, whatever lookups came before, the feed is isolated for a user of whom they left a
summary that names a namespace. -/
theorem feedCovered_of_lookups {rules : String → String → List ResourceRule} {lookups : List Lookup}
    (hl : ∀ l ∈ lookups, l.Honest env.digest rules) (ha : isAdmin user = false)
    (hw : warmNamespaces env user (afterLookups env.digest ∅ lookups) ≠ []) :
    FeedCovered env db (rules (rbacCacheKey env.digest user)) user (afterLookups env.digest ∅ lookups) now := by
  have hcached : CachesGrants rules (afterLookups env.digest ∅ lookups) :=
    cachesGrants_afterLookups hl (fun _ _ h ↦ by simp at h)
  rw [FeedCovered, if_neg (by simp [ha]), if_neg hw]
  intro n _ hn
  obtain ⟨summary, hsummary, hns⟩ := mem_warmNamespaces hn
  exact .inr (grants_of_warm hcached hsummary hns)

end KubeCenter.Notifications
