import KubeCenter.Core.GuardedCache

/-! The cached application list of the GitOps handler: what `doFetch` merges, and which calls of
`fetchApps` it reaches. -/

namespace KubeCenter.GitOps

open KubeCenter.Core Function

def cacheTTL : ℕ := 30 * 1000000000

inductive ListKind
  | applications
  | kustomizations
  | helmReleases
  deriving DecidableEq

/-- The engines that `doFetch` finds available. -/
structure GitOpsStatus where
  argoCD : Bool
  fluxCD : Bool
  deriving DecidableEq

/-- How a list call ends; a panic in it is recovered and logged. -/
inductive Outcome
  | listed
  | failed (err : String)
  | panicked
  deriving DecidableEq

/-- One list call. `issued` is history, the cache generation when the request was sent, and so is
`content`, what the cluster holds when the call ends, whether it comes back or not. -/
inductive Listing (O : Type)
  | unsent
  | sent (issued : ℕ)
  | returned (issued : ℕ) (content : List O) (outcome : Outcome)

structure Fetch (O : Type) where
  status : Option GitOpsStatus := none
  lists : ListKind → Listing O := fun _ ↦ .unsent

structure FetchResult (P : Type) where
  apps : List P := []
  err : Option String := none
  deriving DecidableEq

/-- Cached data with its history: the complete list of the available engines, and the generations
at which the lists in it were issued. -/
structure CachedApps (P : Type) where
  apps : List P
  fetchedAt : ℕ
  complete : List P
  listed : List ℕ

def Outcome.isFailed : Outcome → Bool
  | .failed _ => true
  | _ => false

inductive FetchAct (O : Type)
  | status (status : GitOpsStatus)
  | issue (kind : ListKind)
  | reply (kind : ListKind) (content : List O) (outcome : Outcome)

variable {O P : Type}

namespace Listing

def issued : Listing O → Option ℕ
  | .unsent => none
  | .sent issued | .returned issued _ _ => some issued

/-- When the items were asked for that the call has brought. -/
def listed : Listing O → Option ℕ
  | .returned issued _ .listed => some issued
  | _ => none

theorem issued_of_listed {l : Listing O} {g : ℕ} (h : l.listed = some g) : l.issued = some g := by
  unfold listed at h
  split at h
  · exact h
  · cases h

def content : Listing O → List O
  | .returned _ content _ => content
  | _ => []

def isReturned : Listing O → Bool
  | .returned .. => true
  | _ => false

def outcome : Listing O → Outcome
  | .returned _ _ outcome => outcome
  | _ => .listed

/-- `ListArgoApplications`, `ListFluxKustomizations` or `ListFluxHelmReleases`, with the text their
errors begin with; a recovered panic leaves the zero result. -/
def result (normalize : O → P) (text : String) : Listing O → FetchResult P
  | .returned _ content .listed => { apps := content.map normalize }
  | .returned _ _ (.failed err) => { err := some (text ++ err) }
  | _ => {}

end Listing

def ListKind.text : ListKind → String
  | .applications => "listing argo cd applications: "
  | .kustomizations => "listing flux kustomizations: "
  | .helmReleases => "listing flux helmreleases: "

/-- The Argo CD kind, and the two of Flux CD. -/
def ListKind.engine (status : GitOpsStatus) : ListKind → Bool
  | .applications => status.argoCD
  | .kustomizations | .helmReleases => status.fluxCD

/-- The two Flux lists are one result, of which the error of either is the error. -/
def fluxResult (ks hr : FetchResult P) : FetchResult P where
  apps := ks.apps ++ hr.apps
  err := ks.err.or hr.err

def FetchResult.merge (r : FetchResult P) : List P :=
  match r.err with
  | some _ => []
  | none => r.apps

namespace Fetch

variable (normalize : ListKind → O → P) (f : Fetch O)

def listResult (kind : ListKind) : FetchResult P := (f.lists kind).result (normalize kind) kind.text

def argo (status : GitOpsStatus) : FetchResult P :=
  if status.argoCD then f.listResult normalize .applications else {}

def flux (status : GitOpsStatus) : FetchResult P :=
  if status.fluxCD then
    fluxResult (f.listResult normalize .kustomizations) (f.listResult normalize .helmReleases)
  else {}

/-- What `doFetch` returns. It logs the errors of the two results and has none of its own. -/
def apps (status : GitOpsStatus) : List P := (f.argo normalize status).merge ++ (f.flux normalize status).merge

def items (kind : ListKind) : List P := (f.lists kind).content.map (normalize kind)

/-- All items of the kinds whose engine is available. -/
def complete (status : GitOpsStatus) : List P :=
  [.applications, .kustomizations, .helmReleases].flatMap (fun kind ↦
    if ListKind.engine status kind then f.items normalize kind else [])

def act (gen : ℕ) : FetchAct O → Option (Fetch O)
  | .status status =>
    match f.status with
    | none => some { f with status := some status }
    | some _ => none
  | .issue kind =>
    match f.status, f.lists kind with
    | some status, .unsent =>
      if kind.engine status then some { f with lists := update f.lists kind (.sent gen) } else none
    | _, _ => none
  | .reply kind content outcome =>
    match f.lists kind with
    | .sent issued => some { f with lists := update f.lists kind (.returned issued content outcome) }
    | _ => none

def waited (status : GitOpsStatus) : Bool :=
  [.applications, .kustomizations, .helmReleases].all (fun kind ↦
    !ListKind.engine status kind || (f.lists kind).isReturned)

/-- `wg.Wait` and what follows it up to the store-back. -/
def finish (now : ℕ) : Option (Except String (CachedApps P)) :=
  f.status.bind (fun status ↦
    if f.waited status then
      some (.ok
        { apps := f.apps normalize status
          fetchedAt := now
          complete := f.complete normalize status
          listed := [.applications, .kustomizations, .helmReleases].filterMap (fun kind ↦ (f.lists kind).listed) })
    else none)

def issued : List ℕ :=
  [.applications, .kustomizations, .helmReleases].filterMap (fun kind ↦ (f.lists kind).issued)

end Fetch

def appsFetcher (normalize : ListKind → O → P) : GuardedCache.Fetcher (Fetch O) (FetchAct O) (CachedApps P) where
  ttl := cacheTTL
  begin := {}
  act gen f a := f.act gen a
  result now f := f.finish normalize now
  fetchedAt := CachedApps.fetchedAt
  issued := Fetch.issued
  listed := CachedApps.listed

variable (normalize : ListKind → O → P)

/-- What a failing list call leaves out: its own items, and those of the other Flux kind unless it
panics. -/
def Fetch.LosesNothing (f : Fetch O) (status : GitOpsStatus) : Prop :=
  (status.argoCD → (f.lists .applications).outcome ≠ .listed → (f.lists .applications).content = []) ∧
    (status.fluxCD →
      ((f.lists .kustomizations).outcome = .panicked → (f.lists .kustomizations).content = []) ∧
      ((f.lists .helmReleases).outcome = .panicked → (f.lists .helmReleases).content = []) ∧
      ((f.lists .kustomizations).outcome.isFailed || (f.lists .helmReleases).outcome.isFailed →
        (f.lists .kustomizations).content = [] ∧ (f.lists .helmReleases).content = []))

abbrev State (O P : Type) := GuardedCache.State (Fetch O) (CachedApps P)

abbrev Act (O : Type) := GuardedCache.Act (FetchAct O)

instance (f : Fetch O) (status : GitOpsStatus) : Decidable (f.LosesNothing status) := by
  unfold Fetch.LosesNothing
  infer_instance

def StageLosesNothing : GuardedCache.Stage (Fetch O) (CachedApps P) → Prop
  | .fetching _ f => ∀ status ∈ f.status, f.LosesNothing status
  | _ => True

/-- The failing calls of a fetch that ends have nothing to lose. -/
def LosesNothing (s : State O P) : Act O → Prop
  | .finish i => ∀ b ∈ s.fetchGroup.body i, StageLosesNothing b.2
  | _ => True

instance (stage : GuardedCache.Stage (Fetch O) (CachedApps P)) : Decidable (StageLosesNothing stage) := by
  cases stage with
  | fetching gen f => exact inferInstanceAs (Decidable (∀ status ∈ f.status, f.LosesNothing status))
  | _ => exact .isTrue trivial

instance (s : State O P) (a : Act O) : Decidable (LosesNothing s a) := by
  cases a with
  | finish i => exact inferInstanceAs (Decidable (∀ b ∈ s.fetchGroup.body i, StageLosesNothing b.2))
  | _ => exact .isTrue trivial

def CachedApps.Complete (d : CachedApps P) : Prop := d.apps = d.complete

/-- No call of `fetchApps` has returned, and no cache holds, a list with applications missing. -/
def ServesComplete : State O P → Prop := GuardedCache.Serves CachedApps.Complete

section Merge

variable {normalize} {f : Fetch O} {status : GitOpsStatus}

theorem sublist_append_eq_iff {a a' b b' : List P} (ha : a.Sublist a') (hb : b.Sublist b') :
    a ++ b = a' ++ b' ↔ a = a' ∧ b = b' := by
  constructor
  · intro h
    have hlen := congrArg List.length h
    simp only [List.length_append] at hlen
    have hla := ha.length_le
    have hlb := hb.length_le
    exact ⟨ha.eq_of_length (by omega), hb.eq_of_length (by omega)⟩
  · rintro ⟨rfl, rfl⟩
    rfl

/-- Where the wait is over, the list call of an available kind has ended one way or another. -/
theorem Fetch.waited_returned (h : f.waited status) {kind : ListKind} (hk : kind.engine status = true) :
    ∃ issued content outcome, f.lists kind = .returned issued content outcome := by
  have hall : (f.lists kind).isReturned = true := by
    have hr := List.all_eq_true.mp h kind (by cases kind <;> simp)
    simpa [hk] using hr
  cases hl : f.lists kind with
  | returned issued content outcome => exact ⟨issued, content, outcome, rfl⟩
  | _ => simp [hl, Listing.isReturned] at hall

theorem complete_eq : f.complete normalize status =
    (if status.argoCD then f.items normalize .applications else []) ++
      (if status.fluxCD then f.items normalize .kustomizations ++ f.items normalize .helmReleases else []) := by
  obtain ⟨argo, flux⟩ := status
  cases argo <;> cases flux <;> simp [Fetch.complete, ListKind.engine]

theorem argo_merge (h : f.waited status) (ha : status.argoCD = true) :
    ((f.argo normalize status).merge).Sublist (f.items normalize .applications) ∧
      ((f.argo normalize status).merge = f.items normalize .applications ↔
        ((f.lists .applications).outcome ≠ .listed → (f.lists .applications).content = [])) := by
  have hk : ListKind.applications.engine status = true := ha
  obtain ⟨issued, content, outcome, hl⟩ := Fetch.waited_returned h hk
  cases outcome <;>
    simp [Fetch.argo, ha, Fetch.listResult, Fetch.items, hl, Listing.result, FetchResult.merge,
      Listing.content, Listing.outcome, eq_comm]

theorem flux_merge (h : f.waited status) (hf : status.fluxCD = true) :
    ((f.flux normalize status).merge).Sublist
        (f.items normalize .kustomizations ++ f.items normalize .helmReleases) ∧
      ((f.flux normalize status).merge = f.items normalize .kustomizations ++ f.items normalize .helmReleases ↔
        ((f.lists .kustomizations).outcome = .panicked → (f.lists .kustomizations).content = []) ∧
        ((f.lists .helmReleases).outcome = .panicked → (f.lists .helmReleases).content = []) ∧
        ((f.lists .kustomizations).outcome.isFailed || (f.lists .helmReleases).outcome.isFailed →
          (f.lists .kustomizations).content = [] ∧ (f.lists .helmReleases).content = [])) := by
  have hkk : ListKind.kustomizations.engine status = true := hf
  have hkh : ListKind.helmReleases.engine status = true := hf
  obtain ⟨i, ks, kout, hks⟩ := Fetch.waited_returned h hkk
  obtain ⟨j, hr, hout, hhr⟩ := Fetch.waited_returned h hkh
  cases kout <;> cases hout <;>
    simp [Fetch.flux, hf, Fetch.listResult, Fetch.items, hks, hhr, Listing.result, fluxResult,
      FetchResult.merge, Listing.content, Listing.outcome, Outcome.isFailed, eq_comm]

/-- The list that `doFetch` merges is complete exactly when its failing calls have nothing to lose. -/
theorem apps_eq_complete_iff (h : f.waited status) :
    f.apps normalize status = f.complete normalize status ↔ f.LosesNothing status := by
  have argo : ((f.argo normalize status).merge).Sublist
      (if status.argoCD then f.items normalize .applications else []) ∧
      ((f.argo normalize status).merge = (if status.argoCD then f.items normalize .applications else []) ↔
        (status.argoCD → (f.lists .applications).outcome ≠ .listed → (f.lists .applications).content = [])) := by
    by_cases ha : status.argoCD = true
    · simpa only [ha, if_true, true_implies] using argo_merge h ha
    · simp [Fetch.argo, ha, FetchResult.merge]
  rw [complete_eq, Fetch.apps]
  by_cases hf : status.fluxCD = true
  · obtain ⟨hsub, hiff⟩ := @flux_merge O P normalize f status h hf
    simp only [hf, if_true]
    rw [sublist_append_eq_iff argo.1 hsub, argo.2, hiff, Fetch.LosesNothing]
    simp only [hf, true_implies]
  · have hnil : (f.flux normalize status).merge = [] := by simp [Fetch.flux, hf, FetchResult.merge]
    rw [hnil]
    simp only [hf, List.append_nil]
    rw [Fetch.LosesNothing]
    simpa [hf] using argo.2

end Merge

section Runs

variable {normalize}

theorem mem_kinds {A : Type} {g : ListKind → Option A} {x : A} :
    x ∈ [ListKind.applications, .kustomizations, .helmReleases].filterMap g ↔ ∃ kind, g kind = some x := by
  rw [List.mem_filterMap]
  constructor
  · rintro ⟨kind, -, h⟩
    exact ⟨kind, h⟩
  · rintro ⟨kind, h⟩
    cases kind <;> exact ⟨_, by simp, h⟩

theorem issued_update {f : Fetch O} {kind : ListKind} {listing : Listing O} {n : ℕ}
    (h : ∀ g, listing.issued = some g → (f.lists kind).issued = some g ∨ g = n) :
    ∀ g ∈ Fetch.issued { f with lists := update f.lists kind listing }, g ∈ f.issued ∨ g = n := by
  intro g hg
  obtain ⟨kind', hk⟩ := mem_kinds.mp hg
  dsimp only at hk
  by_cases hkk : kind' = kind
  · subst hkk
    rw [update_self] at hk
    exact (h g hk).imp (fun h ↦ mem_kinds.mpr ⟨kind', h⟩) id
  · rw [update_of_ne hkk] at hk
    exact .inl (mem_kinds.mpr ⟨kind', hk⟩)

theorem appsFetcher_lawful : (appsFetcher normalize).Lawful where
  begin := rfl
  act n f a f' h g hg := by
    change f.act n a = some f' at h
    cases a with
    | status status =>
      simp only [Fetch.act] at h
      split at h <;> cases h
      exact .inl hg
    | issue kind =>
      simp only [Fetch.act] at h
      split at h
      · split at h <;> cases h
        exact issued_update (fun g hg ↦ .inr (by cases hg; rfl)) g hg
      · cases h
    | reply kind content outcome =>
      simp only [Fetch.act] at h
      split at h <;> cases h
      next hsent => exact issued_update (fun g hg ↦ .inl (by rwa [hsent])) g hg
  result now f d h g hg := by
    obtain ⟨status, -, h⟩ := Option.bind_eq_some_iff.mp h
    split at h <;> cases h
    obtain ⟨kind, hk⟩ : ∃ kind, (f.lists kind).listed = some g := mem_kinds.mp hg
    have hissued : ∃ kind, (f.lists kind).issued = some g := ⟨kind, Listing.issued_of_listed hk⟩
    exact mem_kinds.mpr hissued

theorem finishesGood_of_losesNothing {s : State O P} {a : Act O} (h : LosesNothing s a) :
    GuardedCache.FinishesGood (appsFetcher normalize) CachedApps.Complete s a := by
  cases a with
  | finish i =>
    intro b hb gen f hf d hd
    obtain ⟨status, hstatus, hd⟩ := Option.bind_eq_some_iff.mp hd
    split at hd <;> cases hd
    next hw =>
      have hloses : StageLosesNothing b.2 := h b hb
      rw [hf] at hloses
      exact (apps_eq_complete_iff hw).mpr (hloses status hstatus)
  | _ => trivial

/-- `fetchApps` serves and caches complete lists in every run whose failing list calls have nothing to
lose, and fresh ones in every run whose joins are recent. -/
theorem fetchApps_complete_and_fresh (normalize : ListKind → O → P) (now : ℕ) (as : List (Act O)) :
    (EachStep (GuardedCache.step (appsFetcher normalize)) LosesNothing (GuardedCache.init now) as →
        Throughout (GuardedCache.step (appsFetcher normalize)) ServesComplete (GuardedCache.init now) as) ∧
      (EachStep (GuardedCache.step (appsFetcher normalize)) (GuardedCache.JoinsRecent (appsFetcher normalize))
          (GuardedCache.init now) as →
        Throughout (GuardedCache.step (appsFetcher normalize)) (GuardedCache.Fresh (appsFetcher normalize))
          (GuardedCache.init now) as) := by
  refine ⟨fun h ↦ ?_, GuardedCache.fresh_throughout appsFetcher_lawful now as⟩
  exact GuardedCache.serves_throughout now as (h.mono (fun _ _ ↦ finishesGood_of_losesNothing))

def names : ListKind → String → String
  | .applications => ("argo:" ++ ·)
  | .kustomizations => ("flux-ks:" ++ ·)
  | .helmReleases => ("flux-hr:" ++ ·)

def reads (i : ℕ) : List (Act String) := [.start i, .check i, .enter i]

def issues (i : ℕ) : List (Act String) :=
  [.begin i, .act i (.status ⟨false, true⟩), .act i (.issue .kustomizations), .act i (.issue .helmReleases)]

def returns (i : ℕ) (helmReleases : Outcome) : List (Act String) :=
  [.act i (.reply .kustomizations ["web"] .listed), .act i (.reply .helmReleases [] helmReleases),
    .finish i, .storeBack i, .land i]

/-- Call 1 joins the flight of call 0 before a list is issued, and the cluster has no HelmRelease to lose. -/
def recentJoin : List (Act String) :=
  reads 0 ++ [.invalidate] ++ reads 1 ++ issues 0 ++ returns 0 .listed ++ [.wake 1]

/-- The HelmReleases of call 0 cannot be listed, which leaves out the Kustomization. -/
def partialFetch : List (Act String) := reads 0 ++ issues 0 ++ returns 0 (.failed "forbidden") ++ [.start 1, .check 1]

/-- The lists of call 0 are out when the cache is invalidated, and call 1 joins its flight. -/
def staleJoin : List (Act String) :=
  reads 0 ++ issues 0 ++ [.invalidate] ++ reads 1 ++ returns 0 .listed ++ [.wake 1]

theorem partialFetch_served :
    (exec (GuardedCache.step (appsFetcher names)) (GuardedCache.init 0) partialFetch).map (fun s ↦
      (match s.calls 1 with
        | .done _ d => (d.apps, d.complete)
        | _ => ([], []), s.cache.map CachedApps.apps)) = some (([], ["flux-ks:web"]), some []) := by
  decide

theorem staleJoin_served :
    (exec (GuardedCache.step (appsFetcher names)) (GuardedCache.init 0) staleJoin).map (fun s ↦
      match s.calls 1 with
      | .done need d => (need, d.listed)
      | _ => (0, [])) = some (1, [0, 0]) := by
  decide

/-- A cached list with the Kustomization missing, served to a later call; and a list that a call returns although
it was asked for before an invalidation that the call started after. -/
theorem not_complete_and_not_fresh :
    ¬ (∀ now as, Throughout (GuardedCache.step (appsFetcher names)) ServesComplete (GuardedCache.init now) as) ∧
      ¬ ∀ now as, Throughout (GuardedCache.step (appsFetcher names)) (GuardedCache.Fresh (appsFetcher names))
        (GuardedCache.init now) as := by
  constructor
  · intro h
    obtain ⟨s, hs, he⟩ := Option.map_eq_some_iff.mp partialFetch_served
    have hserves := (h 0 partialFetch).last hs
    cases hi : s.calls 1 with
    | done need d =>
      rw [hi] at he
      obtain ⟨⟨happs, hcomplete⟩, -⟩ : (d.apps = [] ∧ d.complete = ["flux-ks:web"]) ∧ _ := by simpa using he
      have heq : d.apps = d.complete := hserves.2 1 need d hi
      rw [happs, hcomplete] at heq
      cases heq
    | _ => simp [hi] at he
  · intro h
    obtain ⟨s, hs, he⟩ := Option.map_eq_some_iff.mp staleJoin_served
    have hfresh := (h 0 staleJoin).last hs
    cases hi : s.calls 1 with
    | done need d =>
      rw [hi] at he
      obtain ⟨rfl, hlisted⟩ : need = 1 ∧ d.listed = [0, 0] := by simpa using he
      have hle := hfresh 1 1 d hi 0 (by change 0 ∈ d.listed; simp [hlisted])
      omega
    | _ => simp [hi] at he

theorem fetchApps_complete_and_fresh_recentJoin :
    (exec (GuardedCache.step (appsFetcher names)) (GuardedCache.init 0) recentJoin).isSome ∧
      Throughout (GuardedCache.step (appsFetcher names)) ServesComplete (GuardedCache.init 0) recentJoin ∧
      Throughout (GuardedCache.step (appsFetcher names)) (GuardedCache.Fresh (appsFetcher names))
        (GuardedCache.init 0) recentJoin :=
  ⟨by decide, (fetchApps_complete_and_fresh names 0 recentJoin).1 (by decide),
    (fetchApps_complete_and_fresh names 0 recentJoin).2 (by decide)⟩

end Runs

end KubeCenter.GitOps
