import KubeCenter.Core.GoString
import KubeCenter.Core.Runs
import KubeCenter.ExternalSecrets.StartUp
import KubeCenter.ExternalSecrets.SeedLifetime

/-! Two runs whose ExternalSecrets differ in their namespaces and names alone send the same payloads. -/

namespace KubeCenter.ExternalSecrets.TenantBlind

open KubeCenter.Core KubeCenter.Notifications AlertRuns Function
open List (Forall₂)
open StartUp (Stage)

/-- The namespace and the name of an ExternalSecret. -/
abbrev Name := String × String

/-- A namespace has no slash, and no name is empty. -/
def Name.Valid (a : Name) : Prop := '/' ∉ a.1.toList ∧ a.2 ≠ ""

/-- Which names of one run stand for which of the other: distinct ones for distinct ones. -/
structure Renaming (R : Name → Name → Prop) : Prop where
  valid : ∀ {a a'}, R a a' → a.Valid ∧ a'.Valid
  apart : ∀ {a a' b b'}, R a a' → R b b' → (a = b ↔ a' = b')

variable (R : Name → Name → Prop)

def esName (es : ExternalSecret) : Name := (es.ns, es.name)

def nameOf (n : Notification) : Name := (n.resourceNS, n.resourceName)

/-- One ExternalSecret but for its name. -/
def SameES (es es' : ExternalSecret) : Prop :=
  R (esName es) (esName es') ∧ es' = { es with ns := es'.ns, name := es'.name }

/-- One notification but for the name of an ExternalSecret. -/
def SameEvent (n n' : Notification) : Prop :=
  if n.source = .externalSecrets then R (nameOf n) (nameOf n') ∧ n' = n.rename n'.resourceNS n'.resourceName
  else n' = n

/-- As it is on its way to the channels, with the flag up. -/
def SameInFlight (n n' : Notification) : Prop :=
  SameEvent R n n' ∧ (n.source = .externalSecrets → n.suppressResourceFields = true)

/-- Two runs' actions: the ticks are handed the same ExternalSecrets but for their names. -/
def SameAct : Act → Act → Prop
  | .tick fetched persist, .tick fetched' persist' =>
    Option.Rel (Forall₂ (SameES R)) fetched fetched' ∧ persist' = persist
  | a, a' => a' = a

variable {R} {n n' m m' : Notification} {rows rows' : List Notification} {a a' : Name}

theorem SameEvent.source (h : SameEvent R n n') : n'.source = n.source := by
  unfold SameEvent at h
  split at h
  · rw [h.2]
    rfl
  · rw [h]

theorem SameEvent.cases (h : SameEvent R n n') : n' = n ∧ n.source ≠ .externalSecrets ∨
    n.source = .externalSecrets ∧ ∃ ns name, R (nameOf n) (ns, name) ∧ n' = n.rename ns name := by
  unfold SameEvent at h
  split at h
  · next hsource => exact .inr ⟨hsource, _, _, h.1, h.2⟩
  · next hsource => exact .inl ⟨h, hsource⟩

theorem sameEvent_rename {ns name : String} (hsource : n.source = .externalSecrets) (hname : R (nameOf n) (ns, name)) :
    SameEvent R n (n.rename ns name) := by
  rw [SameEvent, if_pos hsource]
  exact ⟨hname, rfl⟩

theorem sameEvent_other (hsource : n.source ≠ .externalSecrets) : SameEvent R n n := by rw [SameEvent, if_neg hsource]

/-- What a notification's own fields decide, its name apart, is decided alike. -/
theorem SameEvent.congr {β : Type} (f : Notification → β) (hf : ∀ n ns name, f (n.rename ns name) = f n)
    (h : SameEvent R n n') : f n' = f n := by
  obtain ⟨rfl, -⟩ | ⟨-, ns, name, -, rfl⟩ := h.cases
  · rfl
  · exact hf n ns name

theorem SameEvent.row (h : SameEvent R n n') (id : ℕ) (now : ℤ) : SameEvent R (n.row id now) (n'.row id now) := by
  obtain ⟨rfl, hsource⟩ | ⟨hsource, ns, name, hname, rfl⟩ := h.cases
  · exact sameEvent_other (by exact hsource)
  · exact sameEvent_rename (n := n.row id now) hsource hname

/-- Two notifications have one key in one run exactly if they have in the other. -/
theorem key_eq_iff (hR : Renaming R) (hn : SameEvent R n n') (hm : SameEvent R m m') : n.key = m.key ↔ n'.key = m'.key := by
  by_cases hsource : n.source = m.source
  · obtain ⟨rfl, hns⟩ | ⟨hns, ns, name, hname, rfl⟩ := hn.cases <;>
      obtain ⟨rfl, hms⟩ | ⟨hms, ns', name', hname', rfl⟩ := hm.cases
    · rfl
    · exact absurd (hsource.trans hms) hns
    · exact absurd (hsource.symm.trans hns) hms
    · have hapart := hR.apart hname hname'
      simp only [nameOf, Prod.mk.injEq] at hapart
      simp only [Notification.key, Notification.rename, Key.mk.injEq]
      tauto
  · refine iff_of_false (fun h ↦ hsource (congrArg Key.source h)) (fun h ↦ hsource ?_)
    rw [← hn.source, ← hm.source]
    exact congrArg Key.source h

theorem dedupExists_eq (hR : Renaming R) (hrows : Forall₂ (SameEvent R) rows rows') (hn : SameEvent R n n')
    (window now : ℤ) : dedupExists rows n window now = dedupExists rows' n' window now := by
  refine any_eq_of_forall₂ hrows (fun r r' hr ↦ ?_)
  rw [hr.congr Notification.createdAt (fun _ _ _ ↦ rfl), decide_eq_decide, key_eq_iff hR hr hn]

/-- A filter that does not look at the name of the resource keeps the same events. -/
theorem filter_related (hrows : Forall₂ (SameEvent R) rows rows') (p : Notification → Bool)
    (hp : ∀ n ns name, p (n.rename ns name) = p n) : Forall₂ (SameEvent R) (rows.filter p) (rows'.filter p) := by
  refine List.rel_filter (fun r r' hr ↦ ?_) hrows
  dsimp only
  rw [hr.congr p hp]

theorem pruneOlderThan_related (hrows : Forall₂ (SameEvent R) rows rows') (age now : ℤ) :
    Forall₂ (SameEvent R) (pruneOlderThan rows age now) (pruneOlderThan rows' age now) :=
  filter_related hrows _ (fun _ _ _ ↦ rfl)

theorem dispatchToChannels_eq (rules : List Rule) (channels : List Channel) (h : SameEvent R n n') :
    dispatchToChannels rules channels n' = dispatchToChannels rules channels n :=
  h.congr _ (fun _ _ _ ↦ rfl)

theorem digestNotifications_related (hrows : Forall₂ (SameEvent R) rows rows') (rules : List Rule) (ch : Channel)
    (now : ℤ) : Forall₂ (SameEvent R) (digestNotifications rules ch now rows) (digestNotifications rules ch now rows') := by
  have hfound := filter_related hrows
    (sinceWhere (digestSince ch now) (digestSourceFilter rules ch) (digestSevFilter rules ch)) (fun _ _ _ ↦ rfl)
  refine List.forall₂_take _ (forall₂_insertionSort (fun x x' y y' hx hy ↦ ?_) hfound)
  rw [hx.congr Notification.createdAt (fun _ _ _ ↦ rfl), hy.congr Notification.createdAt (fun _ _ _ ↦ rfl)]

theorem sanitize_eq (h : SameEvent R n n') : sanitizeForEmailDigest n = sanitizeForEmailDigest n' := by
  obtain ⟨rfl, -⟩ | ⟨hsource, ns, name, -, rfl⟩ := h.cases
  · rfl
  · exact (sanitize_rename (by rw [hsource]; rfl)).symm

theorem digestMail_eq {lib : Library} (h : Forall₂ (SameEvent R) rows rows') (now : ℤ) (ch : Channel) :
    digestMail lib now ch rows = digestMail lib now ch rows' := by
  refine digestMail_congr now ch ?_
  induction h with
  | nil => rfl
  | cons hn _ ih => rw [List.map_cons, List.map_cons, sanitize_eq hn, ih]

theorem dispatch_eq {lib : Library} {env : SendEnv} {ch : Channel} (h : SameInFlight R n n') :
    dispatch lib env ch n = dispatch lib env ch n' := by
  obtain ⟨rfl, -⟩ | ⟨hsource, ns, name, -, rfl⟩ := h.1.cases
  · rfl
  · exact (dispatch_rename (h.2 hsource)).symm

/-! The seeds of a restart. -/

theorem nameOf_valid (hR : Renaming R) (hrows : Forall₂ (SameEvent R) rows rows') :
    (∀ n ∈ rows, n.source = .externalSecrets → (nameOf n).Valid) ∧
      ∀ n' ∈ rows', n'.source = .externalSecrets → (nameOf n').Valid := by
  induction hrows with
  | nil => exact ⟨List.forall_mem_nil _, List.forall_mem_nil _⟩
  | @cons n n' _ _ hn _ ih =>
    have hboth : n.source = .externalSecrets → (nameOf n).Valid ∧ (nameOf n').Valid := by
      intro hsource
      rw [SameEvent, if_pos hsource] at hn
      exact hR.valid hn.1
    refine ⟨List.forall_mem_cons.mpr ⟨fun h ↦ (hboth h).1, ih.1⟩, List.forall_mem_cons.mpr ⟨fun h ↦ ?_, ih.2⟩⟩
    exact (hboth (hn.source ▸ h)).2

theorem seedKey_eq_iff (ha : a.Valid) (ha' : a'.Valid) : seedKey a.1 a.2 = seedKey a'.1 a'.2 ↔ a = a' := by
  refine ⟨fun h ↦ ?_, fun h ↦ h ▸ rfl⟩
  have hchars : a.1.toList ++ '/' :: a.2.toList = a'.1.toList ++ '/' :: a'.2.toList := by
    have htext := congrArg String.toList h
    simpa [seedKey] using htext
  have hcut := congrArg (cut '/') hchars
  rw [cut_append ha.1, cut_append ha'.1, Option.some.injEq, Prod.mk.injEq] at hcut
  exact Prod.ext (String.toList_inj.mp hcut.1) (String.toList_inj.mp hcut.2)

/-- Events of one ExternalSecret each. -/
def SameAt (R : Name → Name → Prop) (a a' : Name) (n n' : Notification) : Prop :=
  SameEvent R n n' ∧ nameOf n = a ∧ nameOf n' = a'

theorem resourceKey_eq (h : nameOf n = a) : resourceKey n = toLex (n.resourceKind, toLex a) := by
  rw [← h]
  rfl

theorem recentOrder_iff (hn : nameOf n = a) (hm : nameOf m = a) : recentOrder n m ↔
    n.resourceKind < m.resourceKind ∨ n.resourceKind = m.resourceKind ∧ m.createdAt ≤ n.createdAt := by
  rw [recentOrder, resourceKey_eq hn, resourceKey_eq hm]
  simp [Prod.Lex.toLex_le_toLex, Prod.Lex.toLex_lt_toLex]

theorem recentWhere_eq (hR : Renaming R) (clusterID : String) (since : ℤ) (h : SameEvent R n n') :
    recentWhere .externalSecrets clusterID since n = recentWhere .externalSecrets clusterID since n' := by
  obtain ⟨rfl, -⟩ | ⟨-, ns, name, hname, rfl⟩ := h.cases
  · rfl
  · obtain ⟨hvalid, hvalid'⟩ := hR.valid hname
    have hne : n.resourceName ≠ "" ↔ name ≠ "" := iff_of_true hvalid.2 hvalid'.2
    rw [recentWhere, recentWhere, decide_eq_decide]
    simp only [Notification.rename, hne]

def isAt (a : Name) (n : Notification) : Bool := decide (nameOf n = a)

theorem filter_isAt (hR : Renaming R) (ha : R a a') (hrows : Forall₂ (SameEvent R) rows rows') (clusterID : String)
    (since : ℤ) : Forall₂ (SameAt R a a') ((rows.filter (recentWhere .externalSecrets clusterID since)).filter (isAt a))
      ((rows'.filter (recentWhere .externalSecrets clusterID since)).filter (isAt a')) := by
  rw [List.filter_filter, List.filter_filter]
  induction hrows with
  | nil => exact .nil
  | @cons n n' _ _ hn _ ih =>
    have hwhere := recentWhere_eq hR clusterID since hn
    rw [List.filter_cons, List.filter_cons, ← hwhere]
    by_cases hw : recentWhere .externalSecrets clusterID since n = true
    · have hsource : n.source = .externalSecrets := (of_decide_eq_true hw).1
      have hname : R (nameOf n) (nameOf n') := by
        rw [SameEvent, if_pos hsource] at hn
        exact hn.1
      have hat : isAt a n = isAt a' n' := decide_eq_decide.mpr (hR.apart hname ha)
      rw [← hat]
      split
      · next hboth =>
        have hna : isAt a n = true := by simp only [Bool.and_eq_true] at hboth; exact hboth.1
        refine .cons ⟨hn, of_decide_eq_true hna, of_decide_eq_true (hat.symm.trans hna)⟩ ih
      · exact ih
    · simp only [hw, Bool.and_false, Bool.false_eq_true, if_false]
      exact ih

/-- The rows of one ExternalSecret among what `RecentBySource` answers. -/
theorem recentBySource_isAt (a : Name) (rows : List Notification) (clusterID : String) (since : ℤ) :
    (recentBySource rows .externalSecrets clusterID since).filter (isAt a) = distinctBy resourceKey
      (((rows.filter (recentWhere .externalSecrets clusterID since)).filter (isAt a)).insertionSort recentOrder) := by
  have htrans : IsTrans Notification recentOrder := ⟨fun _ _ _ h h' ↦ le_trans h h'⟩
  have htotal : Std.Total recentOrder := ⟨fun _ _ ↦ le_total _ _⟩
  rw [recentBySource, filter_distinctBy, filter_insertionSort]
  intro x y hxy
  have hname : nameOf x = nameOf y := congrArg (fun k : String ×ₗ String ×ₗ String ↦ ofLex (ofLex k).2) hxy
  rw [isAt, isAt, hname]

theorem recentBySource_related (hR : Renaming R) (ha : R a a') (hrows : Forall₂ (SameEvent R) rows rows')
    (clusterID : String) (since : ℤ) :
    Forall₂ (SameAt R a a') ((recentBySource rows .externalSecrets clusterID since).filter (isAt a))
      ((recentBySource rows' .externalSecrets clusterID since).filter (isAt a')) := by
  rw [recentBySource_isAt, recentBySource_isAt]
  refine forall₂_distinctBy (fun x x' y y' hx hy ↦ ?_)
    (forall₂_insertionSort (fun x x' y y' hx hy ↦ ?_) (filter_isAt hR ha hrows clusterID since))
  · have hkx := hx.1.congr Notification.resourceKind (fun _ _ _ ↦ rfl)
    have hky := hy.1.congr Notification.resourceKind (fun _ _ _ ↦ rfl)
    rw [resourceKey_eq hx.2.1, resourceKey_eq hx.2.2, resourceKey_eq hy.2.1, resourceKey_eq hy.2.2, hkx, hky]
    simp
  · have hkx := hx.1.congr Notification.resourceKind (fun _ _ _ ↦ rfl)
    have hky := hy.1.congr Notification.resourceKind (fun _ _ _ ↦ rfl)
    have htx := hx.1.congr Notification.createdAt (fun _ _ _ ↦ rfl)
    have hty := hy.1.congr Notification.createdAt (fun _ _ _ ↦ rfl)
    rw [recentOrder_iff hx.2.1 hy.2.1, recentOrder_iff hx.2.2 hy.2.2, hkx, hky, htx, hty]

theorem mem_recentBySource {clusterID : String} {since : ℤ}
    (h : n ∈ recentBySource rows .externalSecrets clusterID since) : n ∈ rows ∧ n.source = .externalSecrets := by
  have hfound := (List.mem_insertionSort recentOrder).mp (mem_of_mem_distinctBy h)
  obtain ⟨hrow, hwhere⟩ := List.mem_filter.mp hfound
  exact ⟨hrow, (of_decide_eq_true hwhere).1⟩

open SeedLifetime (rowOf seedOf seedNSName_foldl)

/-- The row that seeds a name is the last one of that name. -/
theorem rowOf_recent (ha : a.Valid) (hvalid : ∀ n ∈ rows, n.source = .externalSecrets → (nameOf n).Valid)
    (clusterID : String) (since : ℤ) : rowOf (recentBySource rows .externalSecrets clusterID since) (seedKey a.1 a.2) =
      ((recentBySource rows .externalSecrets clusterID since).filter (isAt a)).getLast? := by
  have hsame : (recentBySource rows .externalSecrets clusterID since).filter (isAt a) =
      (recentBySource rows .externalSecrets clusterID since).filter
        (fun n ↦ seedKey n.resourceNS n.resourceName = seedKey a.1 a.2) := by
    refine List.filter_congr (fun n hn ↦ decide_eq_decide.mpr ?_)
    obtain ⟨hrow, hsource⟩ := mem_recentBySource hn
    exact (seedKey_eq_iff (hvalid n hrow hsource) ha).symm
  rw [hsame, rowOf, ← List.head?_filter, List.filter_reverse, List.head?_reverse]

theorem seedOf_eq (h : SameEvent R n n') : seedOf n = seedOf n' := (h.congr seedOf (fun _ _ _ ↦ rfl)).symm

/-- The seeds that stand for a name in the two runs. -/
def SameSeeds (R : Name → Name → Prop) (seeds seeds' : String → Option SeedEntry) : Prop :=
  ∀ {a a' : Name}, R a a' → seeds (seedKey a.1 a.2) = seeds' (seedKey a'.1 a'.2)

theorem seeds_related (hR : Renaming R) (hrows : Forall₂ (SameEvent R) rows rows') (clusterID : String) (since : ℤ)
    {p : Poller} {seeds' : String → Option SeedEntry} (h : SameSeeds R p.seedNSName seeds') :
    SameSeeds R (p.seedFromNotifications (.ok (recentBySource rows .externalSecrets clusterID since))).seedNSName
      ({ p with seedNSName := seeds' }.seedFromNotifications
        (.ok (recentBySource rows' .externalSecrets clusterID since))).seedNSName := by
  intro a a' ha
  obtain ⟨hvalid, hvalid'⟩ := nameOf_valid hR hrows
  have hlast := forall₂_getLast? (recentBySource_related hR ha hrows clusterID since)
  simp only [Poller.seedFromNotifications, seedNSName_foldl, h ha, rowOf_recent (hR.valid ha).1 hvalid,
    rowOf_recent (hR.valid ha).2 hvalid']
  rw [map_eq_of_rel hlast (fun _ _ hn ↦ seedOf_eq hn.1)]

/-! The poller. -/

/-- One record but for the name of its ExternalSecret. -/
def SameRecord (R : Name → Name → Prop) (rec rec' : EmitRecord) : Prop :=
  SameES R rec.es rec'.es ∧ rec' = { rec with es := rec'.es }

/-- One poller but for the names its seeds stand under. -/
def SamePoller (R : Name → Name → Prop) (p p' : Poller) : Prop :=
  ∃ seeds', p' = { p with seedNSName := seeds' } ∧ SameSeeds R p.seedNSName seeds'

variable {es es' : ExternalSecret} {ess ess' : List ExternalSecret} {p p' : Poller} {env : PersistEnv}

theorem SameES.congr {β : Type} (f : ExternalSecret → β) (hf : ∀ es ns name, f { es with ns, name } = f es)
    (h : SameES R es es') : f es' = f es := by
  rw [h.2]
  exact hf _ _ _

theorem failureRecord_related (h : SameES R es es') (kind : EventKind) :
    SameRecord R (failureRecord es kind) (failureRecord es' kind) := by
  cases kind <;> exact ⟨h, rfl⟩

theorem recoveryRecord_related (h : SameES R es es') : SameRecord R (recoveryRecord es) (recoveryRecord es') := ⟨h, rfl⟩

theorem lifecycleRecord_related (h : SameES R es es') (kind : EventKind) :
    SameRecord R (lifecycleRecord es kind) (lifecycleRecord es' kind) := by
  cases kind <;> exact ⟨h, rfl⟩

theorem transitionRecords_related (h : SameES R es es') (prev current : StatusBucket) :
    Forall₂ (SameRecord R) (Poller.transitionRecords es prev current) (Poller.transitionRecords es' prev current) := by
  have hrecovery : alertOnRecovery es' = alertOnRecovery es := h.congr alertOnRecovery (fun _ _ _ ↦ rfl)
  unfold Poller.transitionRecords
  rw [hrecovery]
  split
  · exact .nil
  · split
    · exact .cons (failureRecord_related h _) .nil
    · split
      · split
        · exact .cons (recoveryRecord_related h) .nil
        · exact .nil
      · split
        · exact .cons (failureRecord_related h _) .nil
        · exact .nil

theorem seed_eq (hp : SamePoller R p p') (h : SameES R es es') : p'.seed es' = p.seed es := by
  obtain ⟨seeds', rfl, hseeds⟩ := hp
  have huid : es'.uid = es.uid := h.congr ExternalSecret.uid (fun _ _ _ ↦ rfl)
  have hkey := hseeds h.1
  simp only [Poller.seed, huid]
  rw [show seeds' (seedKey es'.ns es'.name) = p.seedNSName (seedKey es.ns es.name) from hkey.symm]

theorem check_poller_related (hR : Renaming R) (hp : SamePoller R p p') (h : SameES R es es') :
    SamePoller R (p.check es).2 (p'.check es').2 := by
  have hseed := seed_eq hp h
  obtain ⟨seeds', rfl, hseeds⟩ := hp
  have huid : es'.uid = es.uid := h.congr ExternalSecret.uid (fun _ _ _ ↦ rfl)
  have hstatus : es'.status = es.status := h.congr ExternalSecret.status (fun _ _ _ ↦ rfl)
  rw [Poller.check_poller, Poller.check_poller, hseed, huid, hstatus]
  refine ⟨_, rfl, fun {a a'} ha ↦ ?_⟩
  dsimp only
  split
  · rw [update_apply, update_apply]
    obtain ⟨hv, hv'⟩ := hR.valid ha
    obtain ⟨hes, hes'⟩ := hR.valid h.1
    refine if_congr ?_ rfl (hseeds ha)
    exact (seedKey_eq_iff hv hes).trans ((hR.apart ha h.1).trans (seedKey_eq_iff hv' hes').symm)
  · exact hseeds ha

theorem check_records_related (hp : SamePoller R p p') (h : SameES R es es') :
    Forall₂ (SameRecord R) (p.check es).1 (p'.check es').1 := by
  have hseed := seed_eq hp h
  obtain ⟨seeds', rfl, -⟩ := hp
  have huid : es'.uid = es.uid := h.congr ExternalSecret.uid (fun _ _ _ ↦ rfl)
  have hstatus : es'.status = es.status := h.congr ExternalSecret.status (fun _ _ _ ↦ rfl)
  have hlifecycle : alertOnLifecycle es' = alertOnLifecycle es := h.congr alertOnLifecycle (fun _ _ _ ↦ rfl)
  unfold Poller.check
  rw [hseed, huid, hstatus, hlifecycle]
  dsimp only
  split
  · exact .cons (lifecycleRecord_related h _) .nil
  · split
    · exact .nil
    · exact transitionRecords_related h _ _

theorem checkAll_related (hR : Renaming R) (hp : SamePoller R p p') (h : Forall₂ (SameES R) ess ess') :
    Forall₂ (SameRecord R) (p.checkAll ess).1 (p'.checkAll ess').1 ∧
      SamePoller R (p.checkAll ess).2 (p'.checkAll ess').2 := by
  induction h generalizing p p' with
  | nil => exact ⟨.nil, hp⟩
  | cons hes _ ih =>
    obtain ⟨hrest, hpoller⟩ := ih (check_poller_related hR hp hes)
    exact ⟨List.rel_append (check_records_related hp hes) hrest, hpoller⟩

def SameAttempt (R : Name → Name → Prop) (x x' : Attempt) : Prop := SameES R x.es x'.es ∧ x' = { x with es := x'.es }

theorem persistOne_related {x x' : Attempt} (hp : SamePoller R p p') (h : SameAttempt R x x') :
    SamePoller R (p.persistOne env x).2 (p'.persistOne env x').2 := by
  obtain ⟨seeds', rfl, hseeds⟩ := hp
  obtain ⟨hes, hx⟩ := h
  have huid : x'.es.uid = x.es.uid := hes.congr ExternalSecret.uid (fun _ _ _ ↦ rfl)
  have hfetched : Poller.fetchedKeys env x'.es x.outcome = Poller.fetchedKeys env x.es x.outcome :=
    hes.congr (fun es ↦ Poller.fetchedKeys env es x.outcome) (fun _ _ _ ↦ rfl)
  have houtcome : x'.outcome = x.outcome := by rw [hx]
  have hat : x'.attemptAt = x.attemptAt := by rw [hx]
  unfold Poller.persistOne Poller.resolveDiffKeys
  rw [houtcome, hat, hfetched, huid]
  dsimp only
  cases Poller.fetchedKeys env x.es x.outcome <;> cases env.insertOk x.es.uid <;> exact ⟨seeds', rfl, hseeds⟩

theorem persistEach_related {xs xs' : List Attempt} (hp : SamePoller R p p') (h : Forall₂ (SameAttempt R) xs xs') :
    SamePoller R (p.persistEach env xs).2 (p'.persistEach env xs').2 := by
  induction h generalizing p p' with
  | nil => exact hp
  | cons hx _ ih => exact ih (persistOne_related hp hx)

theorem attempt_related (hp : SamePoller R p p') (h : SameES R es es') :
    Option.Rel (SameAttempt R) (p.attempt es) (p'.attempt es') := by
  obtain ⟨seeds', rfl, -⟩ := hp
  have huid : es'.uid = es.uid := h.congr ExternalSecret.uid (fun _ _ _ ↦ rfl)
  have houtcome : outcomeFor es'.status = outcomeFor es.status := h.congr (fun es ↦ outcomeFor es.status) (fun _ _ _ ↦ rfl)
  have htime : attemptTimeFor es' = attemptTimeFor es := h.congr attemptTimeFor (fun _ _ _ ↦ rfl)
  unfold Poller.attempt
  rw [houtcome, htime, huid]
  cases outcomeFor es.status with
  | none => exact .none
  | some outcome =>
    cases attemptTimeFor es with
    | none => exact .none
    | some attemptAt =>
      dsimp only
      split
      · exact .none
      · exact .some ⟨h, rfl⟩

theorem persistAttempts_related (hp : SamePoller R p p') (h : Forall₂ (SameES R) ess ess') :
    SamePoller R (p.persistAttempts env ess).2 (p'.persistAttempts env ess').2 := by
  have hattempts : Forall₂ (SameAttempt R) (ess.filterMap p.attempt) (ess'.filterMap p'.attempt) :=
    List.rel_filterMap (fun _ _ hes ↦ attempt_related hp hes) h
  have hstore : p'.historyStore = p.historyStore := by
    obtain ⟨_, rfl, -⟩ := hp
    rfl
  unfold Poller.persistAttempts
  rw [hstore]
  split
  · exact persistEach_related hp hattempts
  · exact hp

theorem uids_eq (h : Forall₂ (SameES R) ess ess') : ess'.map ExternalSecret.uid = ess.map ExternalSecret.uid := by
  induction h with
  | nil => rfl
  | cons hes _ ih => rw [List.map_cons, List.map_cons, ih, hes.congr ExternalSecret.uid (fun _ _ _ ↦ rfl)]

theorem prune_related (hp : SamePoller R p p') (h : Forall₂ (SameES R) ess ess') :
    SamePoller R (p.prune ess) (p'.prune ess') := by
  obtain ⟨seeds', rfl, hseeds⟩ := hp
  unfold Poller.prune Poller.prunes
  rw [uids_eq h]
  exact ⟨seeds', rfl, hseeds⟩

/-- A tick over the same ExternalSecrets under other names emits the same events under those names. -/
theorem process_related (env : PersistEnv) (hR : Renaming R) (hp : SamePoller R p p') (h : Forall₂ (SameES R) ess ess') :
    Forall₂ (SameRecord R) (p.process env ess).records (p'.process env ess').records ∧
      SamePoller R (p.process env ess).poller (p'.process env ess').poller := by
  obtain ⟨hrecords, hchecked⟩ := checkAll_related hR hp h
  exact ⟨hrecords, prune_related (persistAttempts_related hchecked h) h⟩

/-! The service. -/

open EmitProtocol (Call)

/-- Two calls of `Emit` at one statement, with one notification but for the name. -/
inductive SameCall (R : Name → Name → Prop) : Call → Call → Prop
  | idle : SameCall R .idle .idle
  | called {n n' : Notification} (h : SameInFlight R n n') : SameCall R (.called n) (.called n')
  | passed {n n' : Notification} (h : SameInFlight R n n') (checked : Option ℕ) : SameCall R (.passed n checked) (.passed n' checked)
  | suppressed : SameCall R .suppressed .suppressed
  | failed : SameCall R .failed .failed
  | stored : SameCall R .stored .stored

structure SameService (R : Name → Name → Prop) (s s' : EmitProtocol.State) : Prop where
  now : s'.now = s.now
  rows : Forall₂ (SameEvent R) s.rows s'.rows
  queue : Forall₂ (SameInFlight R) s.queue s'.queue
  calls : ∀ i, SameCall R (s.calls i) (s'.calls i)
  inserted : s'.inserted.length = s.inserted.length

variable {s s' : EmitProtocol.State} {c c' : Call} {i : ℕ}

theorem SameService.setCall (h : SameService R s s') (hc : SameCall R c c') (i : ℕ) :
    SameService R (s.setCall i c) (s'.setCall i c') where
  now := h.now
  rows := h.rows
  queue := h.queue
  calls j := by
    by_cases hj : j = i
    · subst hj
      rw [EmitProtocol.setCall_self, EmitProtocol.setCall_self]
      exact hc
    · rw [EmitProtocol.setCall_ne hj, EmitProtocol.setCall_ne hj]
      exact h.calls j
  inserted := h.inserted

theorem SameService.persistAndBroadcast (h : SameService R s s') (hn : SameEvent R n n') (i : ℕ) :
    SameService R (s.persistAndBroadcast i n) (s'.persistAndBroadcast i n') where
  now := h.now
  rows := by
    change Forall₂ _ (s.rows ++ [_]) (s'.rows ++ [_])
    rw [h.inserted, h.now]
    exact List.rel_append h.rows (.cons (hn.row _ _) .nil)
  queue := h.queue
  calls := h.calls
  inserted := by simp [EmitProtocol.State.persistAndBroadcast, h.inserted]

theorem SameService.enqueue (h : SameService R s s') (hn : SameInFlight R n n') :
    SameService R (s.enqueue n) (s'.enqueue n') := by
  unfold EmitProtocol.State.enqueue
  rw [hn.1.source, ← h.queue.length_eq]
  split
  · exact h
  · exact ⟨h.now, h.rows, List.rel_append h.queue (.cons hn .nil), h.calls, h.inserted⟩

theorem step_emit_related (h : SameService R s s') (hn : SameInFlight R n n') (i : ℕ) :
    Option.Rel (SameService R) (EmitProtocol.step s (.emit i n)) (EmitProtocol.step s' (.emit i n')) := by
  have hcall := h.calls i
  unfold EmitProtocol.step
  dsimp only
  generalize s.calls i = c, s'.calls i = c' at hcall
  cases hcall with
  | idle =>
    dsimp only [EmitProtocol.callStep]
    rw [hn.1.source]
    split
    · exact .some (h.setCall (.passed hn none) i)
    · exact .some (h.setCall (.called hn) i)
  | _ => exact .none

theorem step_check_related (hR : Renaming R) (h : SameService R s s') (i : ℕ) (answered : Bool) :
    Option.Rel (SameService R) (EmitProtocol.step s (.check i answered)) (EmitProtocol.step s' (.check i answered)) := by
  have hcall := h.calls i
  unfold EmitProtocol.step
  dsimp only
  generalize s.calls i = c, s'.calls i = c' at hcall
  cases hcall with
  | called hn =>
    cases answered with
    | false => exact .some (h.setCall (.passed hn none) i)
    | true =>
      dsimp only [EmitProtocol.callStep]
      rw [h.now, ← dedupExists_eq hR h.rows hn.1, h.inserted]
      split
      · exact .some (h.setCall .suppressed i)
      · exact .some (h.setCall (.passed hn _) i)
  | _ => cases answered <;> exact .none

theorem step_insert_related (h : SameService R s s') (i : ℕ) (ok : Bool) :
    Option.Rel (SameService R) (EmitProtocol.step s (.insert i ok)) (EmitProtocol.step s' (.insert i ok)) := by
  have hcall := h.calls i
  unfold EmitProtocol.step
  dsimp only
  generalize s.calls i = c, s'.calls i = c' at hcall
  cases hcall with
  | passed hn checked =>
    cases ok with
    | false => exact .some (h.setCall .failed i)
    | true => exact .some (((h.persistAndBroadcast hn.1 i).enqueue hn).setCall .stored i)
  | _ => cases ok <;> exact .none

theorem dispatch_related (h : SameService R s s') :
    Option.Rel (SameService R) (EmitProtocol.step s .dispatch) (EmitProtocol.step s' .dispatch) := by
  refine .some ⟨h.now, h.rows, ?_, h.calls, h.inserted⟩
  dsimp only
  rw [← List.drop_one, ← List.drop_one]
  exact List.forall₂_drop 1 h.queue

theorem prune_service_related (h : SameService R s s') :
    Option.Rel (SameService R) (EmitProtocol.step s .prune) (EmitProtocol.step s' .prune) := by
  refine .some ⟨h.now, ?_, h.queue, h.calls, h.inserted⟩
  dsimp only
  rw [h.now]
  exact pruneOlderThan_related h.rows _ _

theorem advance_related (h : SameService R s s') (d : ℕ) :
    Option.Rel (SameService R) (EmitProtocol.step s (.advance d)) (EmitProtocol.step s' (.advance d)) :=
  .some ⟨by dsimp only; rw [h.now], h.rows, h.queue, h.calls, h.inserted⟩

/-! The runs. -/

inductive SamePhase (R : Name → Name → Prop) : Phase → Phase → Prop
  | idle : SamePhase R .idle .idle
  | running (rules : List Rule) (rest : List Channel) : SamePhase R (.running rules rest) (.running rules rest)
  | queried (rules : List Rule) (ch : Channel) {found found' : List Notification} (rest : List Channel)
    (h : Forall₂ (SameEvent R) found found') : SamePhase R (.queried rules ch found rest) (.queried rules ch found' rest)

/-- One dispatch but for the name. -/
def SamePending (R : Name → Name → Prop) (x x' : Channel × Notification) : Prop := x'.1 = x.1 ∧ SameInFlight R x.2 x'.2

/-- Two states but for the names; what has been sent is the same. -/
structure Same (R : Name → Name → Prop) (s s' : State) : Prop where
  stage : s'.stage = s.stage
  poller : SamePoller R s.poller s'.poller
  records : Forall₂ (SameRecord R) s.records s'.records
  emitted : s'.emitted = s.emitted
  service : SameService R s.service s'.service
  rules : s'.rules = s.rules
  channels : s'.channels = s.channels
  pending : Forall₂ (SamePending R) s.pending s'.pending
  phase : SamePhase R s.phase s'.phase
  sent : s'.sent = s.sent

variable {lib : Library} {clusterID : String} {s s' : State}

theorem same_init (now : ℤ) (hrows : Forall₂ (SameEvent R) rows rows') : Same R (init now rows) (init now rows') where
  stage := rfl
  poller := ⟨_, rfl, fun _ ↦ rfl⟩
  records := .nil
  emitted := rfl
  service := ⟨rfl, hrows, .nil, fun _ ↦ .idle, rfl⟩
  rules := rfl
  channels := rfl
  pending := .nil
  phase := .idle
  sent := rfl

theorem Same.onService (h : Same R s s') {a a' : EmitProtocol.Act}
    (hstep : Option.Rel (SameService R) (EmitProtocol.step s.service a) (EmitProtocol.step s'.service a')) :
    Option.Rel (Same R) (s.onService a) (s'.onService a') :=
  rel_map hstep (fun _ _ hservice ↦ { h with service := hservice })

theorem Same.emit (h : Same R s s') (hn : SameInFlight R n n') : Option.Rel (Same R) (s.emit n) (s'.emit n') := by
  unfold State.emit
  rw [h.emitted]
  refine rel_map (h.onService (step_emit_related h.service hn _)) (fun t t' ht ↦ { ht with emitted := ?_ })
  rw [ht.emitted]

/-- An event leaves the poller with the flag up. -/
theorem notification_related {rec rec' : EmitRecord} (h : SameRecord R rec rec') (now : ℤ) :
    SameInFlight R { rec.notification with createdAt := now } { rec'.notification with createdAt := now } := by
  obtain ⟨hes, hrec⟩ := h
  have hrenamed : { rec'.notification with createdAt := now } =
      Notification.rename { rec.notification with createdAt := now } rec'.es.ns rec'.es.name := by
    rw [hrec]
    rfl
  refine ⟨?_, fun _ ↦ rfl⟩
  rw [hrenamed]
  exact sameEvent_rename rfl hes.1

theorem recent_related (hR : Renaming R) (h : Same R s s') (appNow : ℤ) (answered : Bool) :
    SamePoller R (s.poller.seedFromNotifications (s.recent clusterID appNow answered))
      (s'.poller.seedFromNotifications (s'.recent clusterID appNow answered)) := by
  obtain ⟨seeds', hpoller, hseeds⟩ := h.poller
  rw [hpoller]
  cases answered with
  | false => exact ⟨seeds', rfl, hseeds⟩
  | true => exact ⟨_, rfl, seeds_related hR h.service.rows clusterID _ hseeds⟩

theorem Same.tick (hR : Renaming R) (h : Same R s s') {fetched fetched' : Option (List ExternalSecret)}
    (hfetched : Option.Rel (Forall₂ (SameES R)) fetched fetched') (persist : PersistEnv) :
    Same R (s.tick fetched persist) (s'.tick fetched' persist) := by
  cases hfetched with
  | none => exact h
  | some hess =>
    obtain ⟨hrecords, hpoller⟩ := process_related persist hR h.poller hess
    exact { h with poller := hpoller, records := List.rel_append h.records hrecords }

theorem start_related (hR : Renaming R) (h : Same R s s') (appNow : ℤ) (answered : Bool) :
    Option.Rel (Same R) (step lib clusterID s (.start appNow answered)) (step lib clusterID s' (.start appNow answered)) := by
  unfold step
  dsimp only
  rw [h.stage]
  split
  · exact .some { h with stage := rfl, poller := recent_related hR h appNow answered }
  · exact .none

theorem tick_related (hR : Renaming R) (h : Same R s s') {fetched fetched' : Option (List ExternalSecret)}
    (hfetched : Option.Rel (Forall₂ (SameES R)) fetched fetched') (persist : PersistEnv) :
    Option.Rel (Same R) (step lib clusterID s (.tick fetched persist)) (step lib clusterID s' (.tick fetched' persist)) := by
  unfold step
  dsimp only
  rw [h.stage]
  split
  · exact .none
  · have htick := h.tick hR hfetched persist
    obtain ⟨seeds', hpoller, hseeds⟩ := htick.poller
    refine .some { htick with stage := rfl, poller := ⟨seeds', ?_, hseeds⟩ }
    dsimp only
    rw [hpoller]

theorem launch_related (h : Same R s s') (k : ℕ) (appNow : ℤ) :
    Option.Rel (Same R) (step lib clusterID s (.launch k appNow)) (step lib clusterID s' (.launch k appNow)) := by
  refine rel_bind (forall₂_getElem? h.records k) (fun rec rec' hrec ↦ ?_)
  have hrest : Same R { s with records := s.records.eraseIdx k } { s' with records := s'.records.eraseIdx k } :=
    { h with records := forall₂_eraseIdx h.records k }
  exact hrest.emit (notification_related hrec appNow)

theorem dispatched_related (h : Same R s s') :
    Option.Rel (Same R) (step lib clusterID s .dispatch) (step lib clusterID s' .dispatch) := by
  have hhead := forall₂_getElem? h.service.queue 0
  rw [← List.head?_eq_getElem?, ← List.head?_eq_getElem?] at hhead
  refine rel_bind hhead (fun n n' hn ↦ ?_)
  have hchannels : dispatchToChannels s'.rules s'.channels n' = dispatchToChannels s.rules s.channels n := by
    rw [h.rules, h.channels, dispatchToChannels_eq _ _ hn.1]
  rw [hchannels]
  have hnew (chs : List Channel) : Forall₂ (SamePending R) (chs.map (fun ch ↦ (ch, n))) (chs.map (fun ch ↦ (ch, n'))) :=
    List.forall₂_map_left_iff.mpr (List.forall₂_map_right_iff.mpr (List.forall₂_same.mpr (fun _ _ ↦ ⟨rfl, hn⟩)))
  have hsent : Same R { s with pending := s.pending ++ (dispatchToChannels s.rules s.channels n).map (fun ch ↦ (ch, n)) }
      { s' with pending := s'.pending ++ (dispatchToChannels s.rules s.channels n).map (fun ch ↦ (ch, n')) } :=
    { h with pending := List.rel_append h.pending (hnew _) }
  exact hsent.onService (dispatch_related h.service)

/-- What leaves for a channel is what leaves in the other run. -/
theorem send_related (h : Same R s s') (k : ℕ) (env : SendEnv) :
    Option.Rel (Same R) (step lib clusterID s (.send k env)) (step lib clusterID s' (.send k env)) := by
  refine rel_map (forall₂_getElem? h.pending k) (fun (ch, n) (ch', n') hboth ↦ ?_)
  obtain ⟨rfl, hn⟩ := hboth
  refine { h with pending := forall₂_eraseIdx h.pending k, sent := ?_ }
  dsimp only
  rw [h.sent, dispatch_eq hn]

/-- A digest cycle reads the rows alike, and the mail it makes of them does not tell the names. -/
theorem digest_related (h : Same R s s') {a : Act} (ha : (∃ smtpConfigured, a = .sendDigests smtpConfigured) ∨
    (∃ appNow ok, a = .query appNow ok) ∨ (∃ appNow rendered queued, a = .mail appNow rendered queued) ∨ a = .finish) :
    Option.Rel (Same R) (step lib clusterID s a) (step lib clusterID s' a) := by
  have hphase := h.phase
  unfold step
  generalize s.phase = q, s'.phase = q' at hphase
  rcases ha with ⟨smtpConfigured, rfl⟩ | ⟨appNow, ok, rfl⟩ | ⟨appNow, rendered, queued, rfl⟩ | rfl
  · cases hphase with
    | idle =>
      cases smtpConfigured with
      | false => exact .some h
      | true => exact .some { h with phase := by rw [h.rules, h.channels]; exact .running _ _ }
    | _ => exact .none
  · cases hphase with
    | running rules rest =>
      cases rest with
      | nil => exact .none
      | cons ch rest =>
        dsimp only
        split
        · exact .some { h with phase := .running _ _ }
        · exact .some { h with phase := .queried _ _ _ (digestNotifications_related h.service.rows rules ch appNow) }
    | _ => exact .none
  · cases hphase with
    | @queried rules ch found found' rest hfound =>
      have hempty : found' = [] ↔ found = [] := by
        rw [← List.length_eq_zero_iff, ← List.length_eq_zero_iff, hfound.length_eq]
      refine .some { h with phase := .running _ _, sent := ?_ }
      simp only [h.sent, digestMail_eq hfound, ne_eq, hempty]
    | _ => exact .none
  · cases hphase with
    | running rules rest =>
      cases rest with
      | nil => exact .some { h with phase := .idle }
      | cons ch rest => exact .none
    | _ => exact .none

/-- One step of the two runs. -/
theorem step_related (hR : Renaming R) {a a' : Act} (h : Same R s s') (ha : SameAct R a a') :
    Option.Rel (Same R) (step lib clusterID s a) (step lib clusterID s' a') := by
  cases a with
  | tick fetched persist =>
    cases a' with
    | tick fetched' persist' =>
      obtain ⟨hfetched, rfl⟩ := ha
      exact tick_related hR h hfetched persist'
    | _ => cases ha
  | start appNow answered =>
    cases ha
    exact start_related hR h appNow answered
  | launch k appNow =>
    cases ha
    exact launch_related h k appNow
  | emit n =>
    cases ha
    unfold step
    dsimp only
    split
    · exact .none
    · next hsource => exact h.emit ⟨sameEvent_other hsource, fun hes ↦ absurd hes hsource⟩
  | check i answered =>
    cases ha
    exact h.onService (step_check_related hR h.service i answered)
  | insert i ok =>
    cases ha
    exact h.onService (step_insert_related h.service i ok)
  | refreshCache rules channels =>
    cases ha
    exact .some { h with rules := rfl, channels := rfl }
  | dispatch =>
    cases ha
    exact dispatched_related h
  | send k env =>
    cases ha
    exact send_related h k env
  | sendDigests smtpConfigured =>
    cases ha
    exact digest_related h (.inl ⟨_, rfl⟩)
  | query appNow ok =>
    cases ha
    exact digest_related h (.inr (.inl ⟨_, _, rfl⟩))
  | mail appNow rendered queued =>
    cases ha
    exact digest_related h (.inr (.inr (.inl ⟨_, _, _, rfl⟩)))
  | finish =>
    cases ha
    exact digest_related h (.inr (.inr (.inr rfl)))
  | prune =>
    cases ha
    exact h.onService (prune_service_related h.service)
  | advance d =>
    cases ha
    exact h.onService (advance_related h.service d)
  | restart =>
    cases ha
    have hservice : SameService R { s.service with queue := [], calls := fun _ ↦ .idle }
        { s'.service with queue := [], calls := fun _ ↦ .idle } :=
      ⟨h.service.now, h.service.rows, .nil, fun _ ↦ .idle, h.service.inserted⟩
    exact .some ⟨rfl, ⟨_, rfl, fun _ ↦ rfl⟩, .nil, h.emitted, hservice, rfl, rfl, .nil, .idle, h.sent⟩

/-- Two runs over the same ExternalSecrets under other names, equal where they were equal, send the same payloads. -/
theorem payloads_unchanged (lib : Library) (clusterID : String) (hR : Renaming R) (now : ℤ)
    (hrows : Forall₂ (SameEvent R) rows rows') {acts acts' : List Act} (hacts : Forall₂ (SameAct R) acts acts') :
    (schedule (step lib clusterID) (init now rows) acts).sent =
      (schedule (step lib clusterID) (init now rows') acts').sent := by
  have hsame : Same R (schedule (step lib clusterID) (init now rows) acts)
      (schedule (step lib clusterID) (init now rows') acts') :=
    schedule_rel (D := SameAct R) (fun _ _ _ _ hs ha ↦ step_related hR hs ha) (same_init now hrows) hacts
  exact hsame.sent.symm

section Run

def plain : Library where
  rfc3339 _ := "2026-01-01T00:00:00Z"
  digestTime _ := "Jan 1, 00:00 UTC"
  digestDate _ := "Jan 1, 2026"
  escape s := s
  toLower c := c
  sign _ _ := ""

def hook : Channel := { id := "hook", name := "hook", type := .webhook }

def everything : Rule := { sourceFilter := [], severityFilter := [], channelID := "hook", enabled := true }

def hookEnv : SendEnv := { config := AList.insert "url" (.string "https://hooks.example.com/alerts") ∅ }

/-- The emit of the one record of a tick, through all of its statements and to the channel. -/
def delivery (i : ℕ) : List Act := [.launch 0 0, .check i true, .insert i true, .dispatch, .send 0 hookEnv]

/-- An ExternalSecret fails; it is deleted and created anew, maybe under another name, and fails again. -/
def failsTwice (first second : Name) : List Act :=
  let es (a : Name) (uid : String) (status : Status) : ExternalSecret := { ns := a.1, name := a.2, uid, status }
  [.refreshCache [everything] [hook], .start 0 true, .tick (some [es first "uid-1" .synced]) {},
    .tick (some [es first "uid-1" .syncFailed]) {}] ++ delivery 0 ++
  [.tick (some [es second "uid-2" .synced]) {}, .tick (some [es second "uid-2" .syncFailed]) {}] ++ delivery 1

theorem failsTwice_related {first second first' second' : Name} (hfirst : R first first') (hsecond : R second second') :
    Forall₂ (SameAct R) (failsTwice first second) (failsTwice first' second') := by
  have htick {a a' : Name} (ha : R a a') (uid : String) (status : Status) :
      SameAct R (.tick (some [{ ns := a.1, name := a.2, uid, status }]) {})
        (.tick (some [{ ns := a'.1, name := a'.2, uid, status }]) {}) :=
    ⟨.some (.cons ⟨ha, rfl⟩ .nil), rfl⟩
  exact .cons rfl (.cons rfl (.cons (htick hfirst _ _) (.cons (htick hfirst _ _) (.cons rfl (.cons rfl (.cons rfl (.cons rfl
    (.cons rfl (.cons (htick hsecond _ _) (.cons (htick hsecond _ _) (.cons rfl (.cons rfl (.cons rfl (.cons rfl
    (.cons rfl .nil)))))))))))))))

/-- One ExternalSecret of the shop, under the name of one of the bank. -/
def shopAsBank (a a' : Name) : Prop := a = ("shop", "db-password") ∧ a' = ("bank", "vault-token")

theorem renaming_shopAsBank : Renaming shopAsBank where
  valid := by
    rintro a a' ⟨rfl, rfl⟩
    exact ⟨⟨by decide, by decide⟩, by decide, by decide⟩
  apart := by
    rintro a a' b b' ⟨rfl, rfl⟩ ⟨rfl, rfl⟩
    exact iff_of_true rfl rfl

theorem payloads_unchanged_shop : Renaming shopAsBank ∧
    Forall₂ (SameAct shopAsBank) (failsTwice ("shop", "db-password") ("shop", "db-password"))
      (failsTwice ("bank", "vault-token") ("bank", "vault-token")) ∧
    (schedule (step plain "") (init 0 []) (failsTwice ("shop", "db-password") ("shop", "db-password"))).sent =
      (schedule (step plain "") (init 0 []) (failsTwice ("bank", "vault-token") ("bank", "vault-token"))).sent :=
  ⟨renaming_shopAsBank, failsTwice_related ⟨rfl, rfl⟩ ⟨rfl, rfl⟩,
    payloads_unchanged plain "" renaming_shopAsBank 0 .nil (failsTwice_related ⟨rfl, rfl⟩ ⟨rfl, rfl⟩)⟩

/-- Under its old name, the second failure is a duplicate; under a new one, it is sent. -/
theorem not_payloads_unchanged : ¬ ∀ (lib : Library) (clusterID : String) (now : ℤ) (rows rows' : List Notification)
    (acts acts' : List Act), Forall₂ (SameEvent fun _ _ ↦ True) rows rows' →
      Forall₂ (SameAct fun _ _ ↦ True) acts acts' →
      (schedule (step lib clusterID) (init now rows) acts).sent.length =
        (schedule (step lib clusterID) (init now rows') acts').sent.length := by
  intro h
  have hruns : Forall₂ (SameAct fun _ _ ↦ True) (failsTwice ("shop", "db") ("shop", "db"))
      (failsTwice ("shop", "db") ("shop", "db2")) := failsTwice_related trivial trivial
  exact absurd (h plain "" 0 [] [] _ _ .nil hruns) (by decide)

end Run

end KubeCenter.ExternalSecrets.TenantBlind
