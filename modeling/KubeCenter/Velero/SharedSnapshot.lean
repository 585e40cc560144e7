import KubeCenter.Velero.Handler

/-! One user's requests against what another is answered, over the one snapshot that all share. -/

namespace KubeCenter.Velero.SharedSnapshot

open KubeCenter.Core
open KubeCenter.Auth (User)

inductive Endpoint
  | backups
  | restores
  | schedules
  | locations
  deriving DecidableEq

structure Call where
  endpoint : Endpoint
  request : Request

section Runs

variable (env : Env)

def handle (c : Call) : Handler → Response × Handler :=
  match c.endpoint with
  | .backups => handleListBackups env c.request
  | .restores => handleListRestores env c.request
  | .schedules => handleListSchedules env c.request
  | .locations => handleListLocations env c.request

def respond (h : Handler) (c : Call) : Response := (handle env c h).1

def serve (h : Handler) (calls : List Call) : Handler := calls.foldl (fun h c ↦ (handle env c h).2) h

end Runs

/-- The same items in any order. -/
def SameItems : Payload → Payload → Prop
  | .backups l, .backups m => l.Perm m
  | .restores l, .restores m => l.Perm m
  | .schedules l, .schedules m => l.Perm m
  | .locations l, .locations m =>
    l.backupStorageLocations.Perm m.backupStorageLocations ∧
      l.volumeSnapshotLocations.Perm m.volumeSnapshotLocations
  | _, _ => False

def Same : Response → Response → Prop
  | .ok p, .ok q => SameItems p q
  | .error e, .error e' => e = e'
  | _, _ => False

theorem SameItems.refl (p : Payload) : SameItems p p := by
  cases p with
  | locations l => exact ⟨.refl _, .refl _⟩
  | _ => exact List.Perm.refl _

theorem SameItems.symm {p q : Payload} (h : SameItems p q) : SameItems q p := by
  cases p <;> cases q <;> first | exact h.elim | exact ⟨h.1.symm, h.2.symm⟩ | exact List.Perm.symm h

theorem SameItems.trans {p q r : Payload} (h : SameItems p q) (h' : SameItems q r) : SameItems p r := by
  cases p <;> cases q <;> first
    | exact h.elim
    | cases r <;> first | exact h'.elim | exact ⟨h.1.trans h'.1, h.2.trans h'.2⟩ | exact List.Perm.trans h h'

theorem Same.symm {a b : Response} (h : Same a b) : Same b a := by
  cases a <;> cases b <;> first | exact h.elim | exact Eq.symm h | exact SameItems.symm h

theorem Same.trans {a b c : Response} (h : Same a b) (h' : Same b c) : Same a c := by
  cases a <;> cases b <;> first
    | exact h.elim
    | cases c <;> first | exact h'.elim | exact Eq.trans h h' | exact SameItems.trans h h'

section Permitted

variable (env : Env)

def allowed {α : Type} (user : User) (resource : String) (l : List α) : List α :=
  if env.canAccess user "list" resource "" then l else []

/-- What a user is to see of a snapshot. -/
def visible (data : CachedVeleroData) (user : User) : Endpoint → Payload
  | .backups => .backups (allowed env user "backups" data.backups)
  | .restores => .restores (allowed env user "restores" data.restores)
  | .schedules => .schedules (allowed env user "schedules" data.schedules)
  | .locations => .locations
      { backupStorageLocations := allowed env user "backupstoragelocations" data.locations.backupStorageLocations
        volumeSnapshotLocations := allowed env user "volumesnapshotlocations" data.locations.volumeSnapshotLocations }

def nothing : Endpoint → Payload
  | .backups => .backups []
  | .restores => .restores []
  | .schedules => .schedules []
  | .locations => .locations ⟨[], []⟩

def permitted (data : CachedVeleroData) (c : Call) : Response :=
  match c.request.user with
  | none => .error ⟨401, "authentication required"⟩
  | some user => .ok (if c.request.detected then visible env data user c.endpoint else nothing c.endpoint)

/-- A request for the locations that reaches the snapshot, of a user whose right to list the kind is `right`. -/
def ListsLocations (resource : String) (right : Bool) (c : Call) : Prop :=
  c.endpoint = .locations ∧ c.request.detected = true ∧
    ∃ user, c.request.user = some user ∧ env.canAccess user "list" resource "" = right

/-- No user without the right to list a kind of location asks before one who has it. -/
def NoBlanking (resource : String) (calls : List Call) : Prop :=
  ∀ before c after, calls = before ++ c :: after → ListsLocations env resource true c →
    ∀ b ∈ before, ¬ ListsLocations env resource false b

end Permitted

section Tracking

variable {env : Env} {data d : CachedVeleroData} {h : Handler} {calls before : List Call} {c : Call}

def Blanked (env : Env) (resource : String) (before : List Call) : Prop :=
  ∃ b ∈ before, ListsLocations env resource false b

/-- A list in the cache that some requests empty: it is empty after one of them, and as fetched until then. -/
structure Cell {α : Type} (blanked : Prop) (fetched l : List α) : Prop where
  emptied : blanked → l = []
  kept : ¬ blanked → l = fetched

/-- The cached data against the data as it was fetched, after some requests. -/
structure Tracks (env : Env) (data : CachedVeleroData) (before : List Call) (d : CachedVeleroData) : Prop where
  fetchedAt : d.fetchedAt = data.fetchedAt
  backups : d.backups.Perm data.backups
  restores : d.restores.Perm data.restores
  schedules : d.schedules.Perm data.schedules
  storage : Cell (Blanked env "backupstoragelocations" before) data.locations.backupStorageLocations
    d.locations.backupStorageLocations
  volumes : Cell (Blanked env "volumesnapshotlocations" before) data.locations.volumeSnapshotLocations
    d.locations.volumeSnapshotLocations

theorem blanked_concat {resource : String} : Blanked env resource (before ++ [c]) ↔
    Blanked env resource before ∨ ListsLocations env resource false c := by
  simp [Blanked, or_and_right, exists_or]

theorem Cell.concat_of_not {α : Type} {resource : String} {fetched l : List α}
    (hcell : Cell (Blanked env resource before) fetched l) (hc : ¬ ListsLocations env resource false c) :
    Cell (Blanked env resource (before ++ [c])) fetched l := by
  have hsame : Blanked env resource (before ++ [c]) ↔ Blanked env resource before := by
    rw [blanked_concat, or_iff_left hc]
  exact ⟨fun hb ↦ hcell.emptied (hsame.mp hb), fun hb ↦ hcell.kept (fun hb' ↦ hb (hsame.mpr hb'))⟩

theorem Cell.concat_of_blanks {α : Type} {resource : String} {fetched : List α}
    (hc : ListsLocations env resource false c) : Cell (Blanked env resource (before ++ [c])) fetched [] :=
  ⟨fun _ ↦ rfl, fun hb ↦ (hb (blanked_concat.mpr (.inr hc))).elim⟩

theorem tracks_nil (env : Env) (data : CachedVeleroData) : Tracks env data [] data where
  fetchedAt := rfl
  backups := .refl _
  restores := .refl _
  schedules := .refl _
  storage := ⟨fun ⟨_, hb, _⟩ ↦ (by cases hb), fun _ ↦ rfl⟩
  volumes := ⟨fun ⟨_, hb, _⟩ ↦ (by cases hb), fun _ ↦ rfl⟩

theorem Tracks.concat_of_not (ht : Tracks env data before d)
    (hc : ∀ resource, ¬ ListsLocations env resource false c) : Tracks env data (before ++ [c]) d :=
  { ht with storage := ht.storage.concat_of_not (hc _), volumes := ht.volumes.concat_of_not (hc _) }

/-- The handler's own part for each endpoint. -/
def listing (env : Env) : Endpoint → Listing
  | .backups => listBackups env
  | .restores => listRestores env
  | .schedules => listSchedules env
  | .locations => listLocations env

theorem handle_eq : handle env c = handleList env (listing env c.endpoint) c.request := by
  unfold handle
  cases c.endpoint <;> rfl

theorem handle_noUser (hu : c.request.user = none) :
    handle env c h = (.error ⟨401, "authentication required"⟩, h) := by
  rw [handle_eq, handleList, hu]

theorem handle_undetected {user : User} (hu : c.request.user = some user) (hd : c.request.detected = false) :
    handle env c h = (.ok (nothing c.endpoint), h) := by
  rw [handle_eq, handleList, hu]
  simp only [hd]
  cases c.endpoint <;> rfl

theorem handle_detected {user : User} (hu : c.request.user = some user) (hd : c.request.detected = true)
    (hcached : h.cachedData = some d) (hfresh : d.fresh c.request.now = true) :
    handle env c h = (.ok ((listing env c.endpoint).filter user d).1,
      { h with cachedData := some ((listing env c.endpoint).filter user d).2 }) := by
  have hfetch : fetchAll env c.request.now h = (some d, h) := by
    simp only [fetchAll, hcached, Option.filter_some, hfresh, if_true]
  rw [handle_eq, handleList, hu]
  simp only [hd, hfetch, if_true]

theorem listsLocations_iff {user : User} {resource : String} {right : Bool} (hu : c.request.user = some user)
    (hd : c.request.detected = true) : ListsLocations env resource right c ↔
      c.endpoint = .locations ∧ env.canAccess user "list" resource "" = right := by
  simp [ListsLocations, hu, hd]

theorem not_listsLocations_of_noUser {resource : String} {right : Bool} (hu : c.request.user = none) :
    ¬ ListsLocations env resource right c := by
  simp [ListsLocations, hu]

theorem not_listsLocations_of_undetected {resource : String} {right : Bool} (hd : c.request.detected = false) :
    ¬ ListsLocations env resource right c := by
  simp [ListsLocations, hd]

theorem Cell.concat {α : Type} {user : User} {resource : String} {fetched l : List α}
    (hcell : Cell (Blanked env resource before) fetched l) (hu : c.request.user = some user)
    (hd : c.request.detected = true) (he : c.endpoint = .locations) :
    Cell (Blanked env resource (before ++ [c])) fetched (allowed env user resource l) := by
  unfold allowed
  split
  · next hcan => exact hcell.concat_of_not (by rw [listsLocations_iff hu hd, hcan]; simp)
  · next hcan => exact .concat_of_blanks ((listsLocations_iff hu hd).mpr ⟨he, by simpa using hcan⟩)

theorem filter_locations (user : User) : (listLocations env).filter user d =
    (visible env d user .locations, { d with locations :=
      { backupStorageLocations := allowed env user "backupstoragelocations" d.locations.backupStorageLocations
        volumeSnapshotLocations := allowed env user "volumesnapshotlocations" d.locations.volumeSnapshotLocations } }) := by
  simp only [listLocations, visible, allowed]
  cases env.canAccess user "list" "backupstoragelocations" "" <;>
    cases env.canAccess user "list" "volumesnapshotlocations" "" <;> rfl

theorem Tracks.filter {user : User} (ht : Tracks env data before d) (hu : c.request.user = some user)
    (hd : c.request.detected = true) :
    Tracks env data (before ++ [c]) ((listing env c.endpoint).filter user d).2 := by
  have hother : c.endpoint ≠ .locations → Tracks env data (before ++ [c]) d :=
    fun he ↦ ht.concat_of_not (fun resource hb ↦ he hb.1)
  cases he : c.endpoint with
  | backups =>
    have h := hother (by simp [he])
    simp only [listing, listBackups]
    split
    · exact { h with backups := (env.sort.perm _ _).trans h.backups }
    · exact h
  | restores =>
    have h := hother (by simp [he])
    simp only [listing, listRestores]
    split
    · exact { h with restores := (env.sort.perm _ _).trans h.restores }
    · exact h
  | schedules =>
    have h := hother (by simp [he])
    simp only [listing, listSchedules]
    split
    · exact { h with schedules := (env.sort.perm _ _).trans h.schedules }
    · exact h
  | locations =>
    rw [listing, filter_locations]
    exact { ht with storage := ht.storage.concat hu hd he, volumes := ht.volumes.concat hu hd he }

theorem Tracks.fresh (ht : Tracks env data before d) (now : Time) : d.fresh now = data.fresh now := by
  rw [CachedVeleroData.fresh, ht.fetchedAt, CachedVeleroData.fresh]

theorem Tracks.handle (ht : Tracks env data before d) (hcached : h.cachedData = some d)
    (hfresh : data.fresh c.request.now = true) :
    ∃ d', (SharedSnapshot.handle env c h).2.cachedData = some d' ∧ Tracks env data (before ++ [c]) d' := by
  cases hu : c.request.user with
  | none =>
    rw [handle_noUser hu]
    exact ⟨d, hcached, ht.concat_of_not (fun _ ↦ not_listsLocations_of_noUser hu)⟩
  | some user =>
    cases hd : c.request.detected with
    | false =>
      rw [handle_undetected hu hd]
      exact ⟨d, hcached, ht.concat_of_not (fun _ ↦ not_listsLocations_of_undetected hd)⟩
    | true =>
      rw [handle_detected hu hd hcached (by rw [ht.fresh, hfresh])]
      exact ⟨_, rfl, ht.filter hu hd⟩

theorem serve_tracks (hcached : h.cachedData = some data)
    (hserved : ∀ b ∈ before, data.fresh b.request.now = true) :
    ∃ d, (serve env h before).cachedData = some d ∧ Tracks env data before d := by
  induction before using List.reverseRecOn with
  | nil => exact ⟨data, hcached, tracks_nil env data⟩
  | append_singleton before c ih =>
    obtain ⟨d, hd, ht⟩ := ih (fun b hb ↦ hserved b (List.mem_append_left [c] hb))
    have hserve : serve env h (before ++ [c]) = (SharedSnapshot.handle env c (serve env h before)).2 := by
      simp [serve, List.foldl_append]
    rw [hserve]
    exact ht.handle hd (hserved c (by simp))

/-- The request that fills the cache is served from what it fetches. -/
theorem handle_cold (hcold : h.cachedData = none) (hfetch : env.cluster.data env.lib c.request.now = some data)
    (hfresh : data.fresh c.request.now = true) {user : User} (hu : c.request.user = some user)
    (hd : c.request.detected = true) : handle env c h = handle env c { h with cachedData := some data } := by
  have hall : fetchAll env c.request.now h = (some data, { h with cachedData := some data }) := by
    simp only [fetchAll, hcold, Option.filter_none, hfetch]
  rw [handle_detected (h := { h with cachedData := some data }) hu hd rfl hfresh, handle_eq, handleList, hu]
  simp only [hd, hall, if_true]

/-- A request that shows a kind of location does so in full: the snapshot has none, or none was emptied before. -/
def ShowsAll {α : Type} (env : Env) (resource : String) (fetched : List α) (before : List Call) (c : Call) : Prop :=
  ListsLocations env resource true c → fetched = [] ∨ ¬ Blanked env resource before

theorem Cell.shown_iff {α : Type} {user : User} {resource : String} {fetched l : List α}
    (hcell : Cell (Blanked env resource before) fetched l) (hu : c.request.user = some user)
    (hd : c.request.detected = true) (he : c.endpoint = .locations) :
    (allowed env user resource l).Perm (allowed env user resource fetched) ↔
      ShowsAll env resource fetched before c := by
  unfold ShowsAll allowed
  rw [listsLocations_iff hu hd]
  cases hcan : env.canAccess user "list" resource "" with
  | false => simp
  | true =>
    simp only [if_true, he, true_and, forall_const]
    by_cases hb : Blanked env resource before
    · rw [hcell.emptied hb]
      simp [hb]
    · rw [hcell.kept hb]
      simp [hb]

theorem same_permitted_iff (ht : Tracks env data before d) (hcached : h.cachedData = some d)
    (hfresh : data.fresh c.request.now = true) :
    Same (respond env h c) (permitted env data c) ↔
      ShowsAll env "backupstoragelocations" data.locations.backupStorageLocations before c ∧
        ShowsAll env "volumesnapshotlocations" data.locations.volumeSnapshotLocations before c := by
  have hnone : (∀ resource, ¬ ListsLocations env resource true c) →
      ShowsAll env "backupstoragelocations" data.locations.backupStorageLocations before c ∧
        ShowsAll env "volumesnapshotlocations" data.locations.volumeSnapshotLocations before c :=
    fun hc ↦ ⟨fun hl ↦ (hc _ hl).elim, fun hl ↦ (hc _ hl).elim⟩
  unfold respond permitted
  cases hu : c.request.user with
  | none =>
    rw [handle_noUser hu]
    exact iff_of_true rfl (hnone (fun _ ↦ not_listsLocations_of_noUser hu))
  | some user =>
    cases hd : c.request.detected with
    | false =>
      rw [handle_undetected hu hd]
      exact iff_of_true (SameItems.refl _) (hnone (fun _ ↦ not_listsLocations_of_undetected hd))
    | true =>
      rw [handle_detected hu hd hcached (by rw [ht.fresh, hfresh])]
      have hother : c.endpoint ≠ .locations → ∀ resource, ¬ ListsLocations env resource true c :=
        fun he resource hl ↦ he hl.1
      cases he : c.endpoint with
      | backups =>
        refine iff_of_true ?_ (hnone (hother (by simp [he])))
        cases hcan : env.canAccess user "list" "backups" "" with
        | false => simp [listing, listBackups, visible, allowed, hcan, Same, SameItems]
        | true => simpa [listing, listBackups, visible, allowed, hcan, Same, SameItems] using (env.sort.perm _ _).trans ht.backups
      | restores =>
        refine iff_of_true ?_ (hnone (hother (by simp [he])))
        cases hcan : env.canAccess user "list" "restores" "" with
        | false => simp [listing, listRestores, visible, allowed, hcan, Same, SameItems]
        | true => simpa [listing, listRestores, visible, allowed, hcan, Same, SameItems] using (env.sort.perm _ _).trans ht.restores
      | schedules =>
        refine iff_of_true ?_ (hnone (hother (by simp [he])))
        cases hcan : env.canAccess user "list" "schedules" "" with
        | false => simp [listing, listSchedules, visible, allowed, hcan, Same, SameItems]
        | true => simpa [listing, listSchedules, visible, allowed, hcan, Same, SameItems] using (env.sort.perm _ _).trans ht.schedules
      | locations =>
        rw [listing, filter_locations]
        exact and_congr (ht.storage.shown_iff hu hd he) (ht.volumes.shown_iff hu hd he)

end Tracking

/-- What a request is answered when others have come before it: what its user may see of the snapshot as it was
fetched, and what the request alone is answered. -/
def Unaffected (env : Env) (data : CachedVeleroData) (h : Handler) (calls : List Call) : Prop :=
  ∀ before c after, calls = before ++ c :: after →
    Same (respond env (serve env h before) c) (permitted env data c) ∧
      Same (respond env (serve env h before) c) (respond env h c)

theorem unaffected_iff_showsAll {env : Env} {data : CachedVeleroData} {h : Handler} {calls : List Call}
    (hcached : h.cachedData = some data) (hserved : ∀ c ∈ calls, data.fresh c.request.now = true) :
    Unaffected env data h calls ↔ ∀ before c after, calls = before ++ c :: after →
      ShowsAll env "backupstoragelocations" data.locations.backupStorageLocations before c ∧
        ShowsAll env "volumesnapshotlocations" data.locations.volumeSnapshotLocations before c := by
  refine forall₄_congr (fun before c after heq ↦ ?_)
  subst heq
  have hc : data.fresh c.request.now = true := hserved c (by simp)
  obtain ⟨d, hd, ht⟩ := serve_tracks hcached (fun b hb ↦ hserved b (List.mem_append_left _ hb))
  have halone : Same (respond env h c) (permitted env data c) := by
    rw [same_permitted_iff (tracks_nil env data) hcached hc]
    exact ⟨fun _ ↦ .inr (by simp [Blanked]), fun _ ↦ .inr (by simp [Blanked])⟩
  rw [← same_permitted_iff ht hd hc]
  exact and_iff_left_of_imp (fun h ↦ h.trans halone.symm)

theorem forall_showsAll_iff {α : Type} {env : Env} {resource : String} {fetched : List α} {calls : List Call} :
    (∀ before c after, calls = before ++ c :: after → ShowsAll env resource fetched before c) ↔
      fetched = [] ∨ NoBlanking env resource calls := by
  constructor
  · intro h
    by_cases hf : fetched = []
    · exact .inl hf
    · refine .inr (fun before c after heq hc b hb hblank ↦ ?_)
      rcases h before c after heq hc with hnil | hnot
      · exact hf hnil
      · exact hnot ⟨b, hb, hblank⟩
  · rintro (hf | h) before c after heq hc
    · exact .inl hf
    · exact .inr (fun ⟨b, hb, hblank⟩ ↦ h before c after heq hc b hb hblank)

/-- Requests served from one snapshot leave each other's answers alone exactly when, for either kind of location, there
is none or nobody who may not list it asks for the locations before somebody who may. -/
theorem unaffected_iff (env : Env) (data : CachedVeleroData) (h : Handler) (calls : List Call)
    (hcached : h.cachedData = some data) (hserved : ∀ c ∈ calls, data.fresh c.request.now = true) :
    Unaffected env data h calls ↔
      (data.locations.backupStorageLocations = [] ∨ NoBlanking env "backupstoragelocations" calls) ∧
        (data.locations.volumeSnapshotLocations = [] ∨ NoBlanking env "volumesnapshotlocations" calls) := by
  rw [unaffected_iff_showsAll hcached hserved, ← forall_showsAll_iff, ← forall_showsAll_iff]
  constructor
  · intro h
    exact ⟨fun before c after heq ↦ (h before c after heq).1, fun before c after heq ↦ (h before c after heq).2⟩
  · rintro ⟨hb, hv⟩ before c after heq
    exact ⟨hb before c after heq, hv before c after heq⟩

def stableSort : SortSlice where
  slice less l := l.mergeSort (fun a b ↦ !less b a)
  perm less l := l.mergeSort_perm (fun a b ↦ !less b a)

/-- A cluster in which operators may list everything and nobody else anything. -/
def operatorsOnly : Env where
  lib := ⟨fun _ ↦ none, fun _ ↦ none, fun _ ↦ none⟩
  sort := stableSort
  canAccess user _ _ _ := user.kubernetesGroups.contains "operators"
  cluster := ⟨some [], some [], some [], some [], some []⟩

def oneLocation : CachedVeleroData where
  backups := []
  restores := []
  schedules := []
  locations := ⟨[⟨"default", "velero", "aws", "backups", "", "Available", true, none, ""⟩], []⟩
  fetchedAt := ⟨0, 0⟩

def locationsOf (username : String) (groups : List String) : Call :=
  ⟨.locations, some ⟨username, username, "local", username, groups, []⟩, true, ⟨1000000000, 0⟩⟩

theorem unaffected_iff_operator_first :
    Unaffected operatorsOnly oneLocation ⟨some oneLocation, 0⟩ [locationsOf "olga" ["operators"], locationsOf "eve" []] := by
  refine (unaffected_iff operatorsOnly oneLocation ⟨some oneLocation, 0⟩ _ rfl (by decide)).mpr ⟨.inr ?_, .inl rfl⟩
  intro before c after heq hc b hb hblank
  rcases before with _ | ⟨x, _ | ⟨y, before⟩⟩
  · cases hb
  · cases heq
    obtain ⟨-, -, user, huser, hcan⟩ := hc
    cases huser
    revert hcan
    decide
  · simp at heq

/-- Eve may list no locations; after her request, Olga, who may, is shown none. -/
theorem not_unaffected : ¬ ∀ (env : Env) (data : CachedVeleroData) (h : Handler) (calls : List Call),
    h.cachedData = some data → (∀ c ∈ calls, data.fresh c.request.now = true) → Unaffected env data h calls := by
  intro hall
  have h := (hall operatorsOnly oneLocation ⟨some oneLocation, 0⟩
    [locationsOf "eve" [], locationsOf "olga" ["operators"]] rfl (by decide) [locationsOf "eve" []] _ [] rfl).1
  have hlength := h.1.length_eq
  revert hlength
  decide

end KubeCenter.Velero.SharedSnapshot
