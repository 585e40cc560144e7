import KubeCenter.Core.Runs
import KubeCenter.Core.GoMap
import KubeCenter.Resources.Crud

/-! The catalogue of custom resources and the counts of their instances, between the informer, the refreshes and the
requests. -/

namespace KubeCenter.Resources

open KubeCenter.Core Function

structure PrinterColumn where
  name : String
  type : String
  format : String
  description : String
  priority : ℤ
  jsonPath : String
  deriving DecidableEq

structure CRDVersion where
  name : String
  served : Bool
  storage : Bool
  columns : List PrinterColumn := []
  deriving DecidableEq

/-- A `CustomResourceDefinition`. -/
structure CRD where
  group : String
  plural : String
  kind : String
  clusterScoped : Bool
  versions : List CRDVersion

structure CRDInfo where
  group : String
  version : String
  resource : String
  kind : String
  scope : String
  served : Bool
  storageVersion : Bool
  columns : List PrinterColumn
  deriving DecidableEq

def coreAPIDenylist : List String :=
  ["", "apps", "batch", "autoscaling", "networking.k8s.io", "rbac.authorization.k8s.io", "storage.k8s.io",
    "apiextensions.k8s.io", "admissionregistration.k8s.io", "coordination.k8s.io", "discovery.k8s.io", "events.k8s.io",
    "flowcontrol.apiserver.k8s.io", "node.k8s.io", "policy", "scheduling.k8s.io", "certificates.k8s.io",
    "authentication.k8s.io", "authorization.k8s.io", "apiregistration.k8s.io", "resource.k8s.io",
    "internal.apiserver.k8s.io", "storagemigration.k8s.io"]

def crdKey (group resource : String) : String := String.join [group, "/", resource]

/-- The loop of `crdInfoFromSpec` over the versions. -/
def servedVersion : Option CRDVersion → List CRDVersion → Option CRDVersion
  | found, [] => found
  | found, v :: versions =>
    if v.served = false then servedVersion found versions
    else if v.storage then some v
    else servedVersion (found <|> some v) versions

def crdInfoFromSpec (crd : CRD) : Option CRDInfo :=
  (servedVersion none crd.versions).map fun v ↦
    { group := crd.group
      version := v.name
      resource := crd.plural
      kind := crd.kind
      scope := if crd.clusterScoped then "Cluster" else "Namespaced"
      served := v.served
      storageVersion := v.storage
      columns := v.columns }

/-- What the informer hands to a handler. -/
inductive Obj
  | crd (crd : CRD)
  | tombstone (obj : Obj)
  | other

/-- `onCRDAdd`, which an update goes to as well. -/
def onCRDAdd (crds : GoMap String CRDInfo) : Obj → GoMap String CRDInfo
  | .crd crd =>
    if crd.group ∈ coreAPIDenylist then crds
    else match crdInfoFromSpec crd with
      | none => crds
      | some info => crds.insert (crdKey info.group info.resource) info
  | _ => crds

/-- The definition that `onCRDDelete` finds in what it is handed. -/
def Obj.deleted : Obj → Option CRD
  | .tombstone (.crd c) | .crd c => some c
  | _ => none

def gvrOf (info : CRDInfo) : GVR := ⟨info.group, info.version, info.resource⟩

/-- A list of instances, with what it tells of those it leaves out. -/
structure ListAnswer where
  items : ℕ
  continued : Bool
  remaining : Option ℤ

/-- The count of one resource, from the lists with a given limit. -/
def countOf (list : ℕ → Option ListAnswer) : Option ℤ :=
  (list 1).map fun first ↦
    match first.remaining with
    | some remaining => remaining + first.items
    | none =>
      if first.continued then
        match list 10000 with
        | none => first.items
        | some full => if full.continued then 10000 else full.items
      else first.items

/-- The resources whose instances could be counted. -/
def fetchCounts (list : GVR → ℕ → Option ListAnswer) (gvrs : GoMap String GVR) : GoMap String ℤ :=
  gvrs.entries.foldl (fun counts e ↦ (countOf (list e.2)).elim counts (counts.insert e.1)) ∅

/-- A caller of `GetCounts`: one that found the cache too old, and one in the flight with a given number. -/
inductive Caller
  | idle
  | missed
  | waiting (n : ℕ)
  | answered (counts : GoMap String ℤ)

/-- How far the function of a flight has come. -/
inductive Refresh
  | started
  | fetching (gvrs : GoMap String GVR)
  | stored

inductive Resolved
  | refused (response : Response)
  | found (gvr : GVR) (info : Option CRDInfo)

/-- A request in `GenericCRDHandler.resolveGVR`, between whose two reads others have their turn. -/
inductive CRDRequest
  | idle
  | resolved (group resource : String) (gvr : GVR)
  | done (result : Resolved)

/-- `maps` has the count maps by their number, of which the cache is one; `left` is what the events so far have left of
each resource, and `deleting` the one whose deletion has reached the catalogue but not the counts. -/
structure CRDDiscovery where
  crds : GoMap String CRDInfo := ∅
  left : String → Option CRD := fun _ ↦ none
  deleting : Option String := none
  maps : ℕ → GoMap String ℤ := fun _ ↦ ∅
  cache : ℕ := 0
  flight : Option (ℕ × Refresh) := none
  next : ℕ := 1
  callers : ℕ → Caller := fun _ ↦ .idle
  requests : ℕ → CRDRequest := fun _ ↦ .idle

inductive CRDAct
  | added (obj : Obj)
  | deleted (obj : Obj)
  | uncount
  | getCounts (i : ℕ) (fresh : Bool)
  | enter (i : ℕ)
  | snapshot
  | store (list : GVR → ℕ → Option ListAnswer)
  | land
  | collect (i : ℕ)
  | resolve (i : ℕ) (group resource : String)
  | info (i : ℕ)

def dnsChar (c : Char) : Bool := 'a' ≤ c && c ≤ 'z' || '0' ≤ c && c ≤ '9'

/-- `dnsSubdomainRegexp`. -/
def isDNSSubdomain (s : String) : Bool :=
  match s.toList with
  | [] => false
  | c :: cs => dnsChar c && cs.all (fun c ↦ dnsChar c || c = '.' || c = '-') && cs.getLast?.all dnsChar

/-- A call of `GetCounts` looks at the cache. -/
def startCounts (fresh : Bool) (counts : GoMap String ℤ) : Caller :=
  if fresh ∧ counts.entries ≠ [] then .answered counts else .missed

namespace CRDDiscovery

variable (s : CRDDiscovery)

def resolveGVR (group resource : String) : Option GVR :=
  if group ∈ coreAPIDenylist then none else (s.crds.lookup (crdKey group resource)).map gvrOf

def getCRDInfo (group resource : String) : Option CRDInfo :=
  if group ∈ coreAPIDenylist then none else s.crds.lookup (crdKey group resource)

/-- The first read of a request. -/
def startRequest (group resource : String) : CRDRequest :=
  if isDNSSubdomain group = false then
    .done (.refused (writeError 400 "invalid API group name" ("group: " ++ group)))
  else if isDNSSubdomain resource = false then
    .done (.refused (writeError 400 "invalid resource name" ("resource: " ++ resource)))
  else match s.resolveGVR group resource with
    | none => .done (.refused (writeError 404 (String.join ["CRD not found: ", group, "/", resource]) ""))
    | some gvr => .resolved group resource gvr

def setCaller (i : ℕ) (c : Caller) : CRDDiscovery := { s with callers := update s.callers i c }

def setRequest (i : ℕ) (q : CRDRequest) : CRDDiscovery := { s with requests := update s.requests i q }

/-- The flight is over, and those in it have its counts. -/
def Landed (n : ℕ) : Prop := ∀ f ∈ s.flight, f.1 ≠ n

instance (n : ℕ) : Decidable (s.Landed n) := inferInstanceAs (Decidable (∀ f ∈ s.flight, f.1 ≠ n))

/-- The handlers of the informer run one after the other. -/
def step : CRDAct → Option CRDDiscovery
  | .added obj =>
    if s.deleting = none then
      let left := match obj with
        | .crd crd => update s.left (crdKey crd.group crd.plural) (some crd)
        | _ => s.left
      some { s with crds := onCRDAdd s.crds obj, left }
    else none
  | .deleted obj =>
    if s.deleting = none then
      match obj.deleted with
      | none => some s
      | some crd =>
        some { s with
          crds := s.crds.erase (crdKey crd.group crd.plural)
          left := update s.left (crdKey crd.group crd.plural) none
          deleting := some (crdKey crd.group crd.plural) }
    else none
  | .uncount =>
    s.deleting.map fun key ↦
      { s with maps := update s.maps s.cache ((s.maps s.cache).erase key), deleting := none }
  | .getCounts i fresh =>
    match s.callers i with
    | .idle | .answered _ => some (s.setCaller i (startCounts fresh (s.maps s.cache)))
    | _ => none
  | .enter i =>
    match s.callers i, s.flight with
    | .missed, some (n, _) => some (s.setCaller i (.waiting n))
    | .missed, none =>
      some { s.setCaller i (.waiting s.next) with flight := some (s.next, .started), next := s.next + 1 }
    | _, _ => none
  | .snapshot =>
    match s.flight with
    | some (n, .started) => some { s with flight := some (n, .fetching (GoMap.mapValues (fun _ ↦ gvrOf) s.crds)) }
    | _ => none
  | .store list =>
    match s.flight with
    | some (n, .fetching gvrs) =>
      some { s with maps := update s.maps n (fetchCounts list gvrs), cache := n, flight := some (n, .stored) }
    | _ => none
  | .land =>
    match s.flight with
    | some (_, .stored) => some { s with flight := none }
    | _ => none
  | .collect i =>
    match s.callers i with
    | .waiting n => if s.Landed n then some (s.setCaller i (.answered (s.maps n))) else none
    | _ => none
  | .resolve i group resource =>
    match s.requests i with
    | .idle | .done _ => some (s.setRequest i (s.startRequest group resource))
    | _ => none
  | .info i =>
    match s.requests i with
    | .resolved group resource gvr => some (s.setRequest i (.done (.found gvr (s.getCRDInfo group resource))))
    | _ => none

/-- The counts that a call of `GetCounts` can report next. -/
def Reports (counts : GoMap String ℤ) : Prop :=
  counts = s.maps s.cache ∨ ∃ i n, s.callers i = .waiting n ∧ s.Landed n ∧ counts = s.maps n

/-- The resource was not deleted, or is just being so. -/
def Kept (key : String) : Prop := s.left key ≠ none ∨ s.deleting = some key

end CRDDiscovery

def Catalogued (crd : CRD) : Prop := crd.group ∉ coreAPIDenylist ∧ ∃ v ∈ crd.versions, v.served = true

/-- `v` is a version to serve: one that is served, and the one in storage if that is. -/
structure ServedAs (crd : CRD) (v : CRDVersion) : Prop where
  mem : v ∈ crd.versions
  served : v.served = true
  storage : (∃ u ∈ crd.versions, u.served = true ∧ u.storage = true) → v.storage = true

structure Mirrors (s : CRDDiscovery) : Prop where
  entries : ∀ key, key ∈ s.crds ↔ ∃ crd, s.left key = some crd ∧ Catalogued crd
  resolves : ∀ group resource gvr, s.resolveGVR group resource = some gvr →
    ∃ crd v, s.left (crdKey group resource) = some crd ∧ ServedAs crd v ∧ gvr = ⟨crd.group, v.name, crd.plural⟩
  counts : ∀ counts, s.Reports counts → ∀ key ∈ counts, s.Kept key
  info : ∀ i gvr info, s.requests i = .done (.found gvr info) → info ≠ none

/-- No definition that is not to be catalogued replaces one that is; what a refresh has counted was not deleted since,
nor is what those have still to be handed who were in an earlier one; and what a request has resolved is there at its
second read. -/
def Undisturbed (s : CRDDiscovery) : CRDAct → Prop
  | .added obj => ∀ crd, obj = .crd crd → Catalogued crd ∨ crdKey crd.group crd.plural ∉ s.crds
  | .uncount => ∀ key ∈ s.deleting, ∀ i n, s.callers i = .waiting n → s.Landed n → n ≠ s.cache → key ∉ s.maps n
  | .store list => ∀ n gvrs, s.flight = some (n, .fetching gvrs) → ∀ key ∈ fetchCounts list gvrs, s.Kept key
  | .info i => ∀ group resource gvr, s.requests i = .resolved group resource gvr → crdKey group resource ∈ s.crds
  | _ => True

/-! The versions. -/

theorem servedVersion_spec {found : Option CRDVersion} {versions : List CRDVersion} {v : CRDVersion}
    (h : servedVersion found versions = some v) :
    (found = some v ∨ v ∈ versions ∧ v.served = true) ∧
      ((∃ u ∈ versions, u.served = true ∧ u.storage = true) → v.storage = true) := by
  induction versions generalizing found with
  | nil => exact ⟨.inl h, fun ⟨u, hu, _⟩ ↦ absurd hu List.not_mem_nil⟩
  | cons w versions ih =>
    rw [servedVersion] at h
    by_cases hserved : w.served = false
    · rw [if_pos hserved] at h
      obtain ⟨hmem, hstorage⟩ := ih h
      refine ⟨hmem.imp_right (fun hv ↦ ⟨List.mem_cons_of_mem _ hv.1, hv.2⟩), fun ⟨u, hu, hus, hst⟩ ↦ ?_⟩
      obtain rfl | hu := List.mem_cons.mp hu
      · cases hserved.symm.trans hus
      · exact hstorage ⟨u, hu, hus, hst⟩
    · rw [if_neg hserved] at h
      have hserved : w.served = true := by simpa using hserved
      by_cases hst : w.storage = true
      · rw [if_pos hst] at h
        cases h
        exact ⟨.inr ⟨List.mem_cons_self, hserved⟩, fun _ ↦ hst⟩
      · rw [if_neg hst] at h
        obtain ⟨hmem, hstorage⟩ := ih h
        refine ⟨?_, fun ⟨u, hu, hus, hust⟩ ↦ ?_⟩
        · obtain hfound | hv := hmem
          · cases found with
            | some u => exact .inl hfound
            | none =>
              cases hfound
              exact .inr ⟨List.mem_cons_self, hserved⟩
          · exact .inr ⟨List.mem_cons_of_mem _ hv.1, hv.2⟩
        · obtain rfl | hu := List.mem_cons.mp hu
          · exact absurd hust hst
          · exact hstorage ⟨u, hu, hus, hust⟩

theorem servedVersion_isSome {found : Option CRDVersion} {versions : List CRDVersion} :
    (servedVersion found versions).isSome ↔ found.isSome ∨ ∃ v ∈ versions, v.served = true := by
  induction versions generalizing found with
  | nil => simp [servedVersion]
  | cons w versions ih =>
    rw [servedVersion]
    cases hserved : w.served with
    | false => simp [ih, hserved]
    | true =>
      cases hst : w.storage with
      | true => simp [hserved]
      | false => simp [ih, hserved]

/-- The entry that a definition is to have. -/
def entryOf (crd : CRD) : Option CRDInfo := if crd.group ∈ coreAPIDenylist then none else crdInfoFromSpec crd

theorem entryOf_isSome {crd : CRD} : (entryOf crd).isSome ↔ Catalogued crd := by
  unfold entryOf Catalogued
  split
  · next h => simp [h]
  · next h => simp [h, crdInfoFromSpec, servedVersion_isSome]

theorem entryOf_spec {crd : CRD} {info : CRDInfo} (h : entryOf crd = some info) :
    ∃ v, ServedAs crd v ∧ gvrOf info = ⟨crd.group, v.name, crd.plural⟩ := by
  unfold entryOf crdInfoFromSpec at h
  split at h
  · cases h
  · obtain ⟨v, hv, rfl⟩ := Option.map_eq_some_iff.mp h
    obtain ⟨hmem, hstorage⟩ := servedVersion_spec hv
    obtain hnone | ⟨hmem, hserved⟩ := hmem
    · cases hnone
    · exact ⟨v, ⟨hmem, hserved, hstorage⟩, rfl⟩

theorem lookup_onCRDAdd (crds : GoMap String CRDInfo) (crd : CRD) (key : String) :
    (onCRDAdd crds (.crd crd)).lookup key =
      if key = crdKey crd.group crd.plural ∧ (entryOf crd).isSome then entryOf crd else crds.lookup key := by
  unfold onCRDAdd entryOf crdInfoFromSpec
  dsimp only
  by_cases hdenied : crd.group ∈ coreAPIDenylist
  · simp [hdenied]
  · rw [if_neg hdenied, if_neg hdenied]
    cases servedVersion none crd.versions with
    | none => simp
    | some v =>
      by_cases hkey : key = crdKey crd.group crd.plural
      · subst hkey
        simp [AList.lookup_insert]
      · simp [hkey, AList.lookup_insert_ne]

/-! The invariant. -/

namespace CRDDiscovery

variable {s t : CRDDiscovery}

/-- A flight that has stored its counts has them in the cache. -/
structure Inv (s : CRDDiscovery) : Prop where
  entries : ∀ key, s.crds.lookup key = (s.left key).bind entryOf
  gone : ∀ key, s.deleting = some key → s.left key = none
  cache : ∀ key ∈ s.maps s.cache, s.Kept key
  waiting : ∀ i n, s.callers i = .waiting n → n < s.next ∧ (s.Landed n → ∀ key ∈ s.maps n, s.Kept key)
  flight : ∀ n stage, s.flight = some (n, stage) → n < s.next ∧ (stage = .stored → n = s.cache)
  allowed : ∀ i group resource gvr, s.requests i = .resolved group resource gvr → group ∉ coreAPIDenylist
  info : ∀ i gvr info, s.requests i = .done (.found gvr info) → info ≠ none

theorem inv_init : Inv {} where
  entries _ := rfl
  gone _ h := by cases h
  cache _ h := absurd h (AList.notMem_empty _)
  waiting _ _ h := by cases h
  flight _ _ h := by cases h
  allowed _ _ _ _ h := by cases h
  info _ _ _ h := by cases h

theorem Inv.mem_crds (h : s.Inv) {key : String} : key ∈ s.crds ↔ ∃ crd, s.left key = some crd ∧ Catalogued crd := by
  rw [← AList.lookup_isSome, h.entries]
  cases s.left key with
  | none => simp
  | some crd => simp [entryOf_isSome]

theorem Inv.mirrors (h : s.Inv) : Mirrors s where
  entries _ := h.mem_crds
  resolves group resource gvr hgvr := by
    unfold resolveGVR at hgvr
    split at hgvr
    · cases hgvr
    · obtain ⟨info, hinfo, rfl⟩ := Option.map_eq_some_iff.mp hgvr
      rw [h.entries] at hinfo
      obtain ⟨crd, hcrd, hentry⟩ := Option.bind_eq_some_iff.mp hinfo
      obtain ⟨v, hv, hgvr⟩ := entryOf_spec hentry
      exact ⟨crd, v, hcrd, hv, hgvr⟩
  counts counts hcounts := by
    obtain rfl | ⟨i, n, hi, hlanded, rfl⟩ := hcounts
    · exact h.cache
    · exact (h.waiting i n hi).2 hlanded
  info := h.info

/-! What one step preserves. -/

/-- A change to the catalogue alone, after which what was kept is kept. -/
theorem Inv.change (h : s.Inv) {crds : GoMap String CRDInfo} {left : String → Option CRD} {deleting : Option String}
    (hentries : ∀ key, crds.lookup key = (left key).bind entryOf)
    (hgone : ∀ key, deleting = some key → left key = none)
    (hkept : ∀ key, s.Kept key → { s with crds, left, deleting }.Kept key) : { s with crds, left, deleting }.Inv where
  entries := hentries
  gone := hgone
  cache key hkey := hkept key (h.cache key hkey)
  waiting i n hi := ⟨(h.waiting i n hi).1, fun hlanded key hkey ↦ hkept key ((h.waiting i n hi).2 hlanded key hkey)⟩
  flight := h.flight
  allowed := h.allowed
  info := h.info

theorem Inv.setCaller (h : s.Inv) {i : ℕ} {c : Caller}
    (hc : ∀ n, c = .waiting n → n < s.next ∧ (s.Landed n → ∀ key ∈ s.maps n, s.Kept key)) : (s.setCaller i c).Inv where
  entries := h.entries
  gone := h.gone
  cache := h.cache
  waiting j n hj := by
    change update s.callers i c j = _ at hj
    rw [update_apply] at hj
    split at hj
    · exact hc n hj
    · exact h.waiting j n hj
  flight := h.flight
  allowed := h.allowed
  info := h.info

theorem Inv.setRequest (h : s.Inv) {i : ℕ} {q : CRDRequest}
    (hallowed : ∀ group resource gvr, q = .resolved group resource gvr → group ∉ coreAPIDenylist)
    (hinfo : ∀ gvr info, q = .done (.found gvr info) → info ≠ none) : (s.setRequest i q).Inv where
  entries := h.entries
  gone := h.gone
  cache := h.cache
  waiting := h.waiting
  flight := h.flight
  allowed j group resource gvr hj := by
    change update s.requests i q j = _ at hj
    rw [update_apply] at hj
    split at hj
    · exact hallowed group resource gvr hj
    · exact h.allowed j group resource gvr hj
  info j gvr info hj := by
    change update s.requests i q j = _ at hj
    rw [update_apply] at hj
    split at hj
    · exact hinfo gvr info hj
    · exact h.info j gvr info hj

theorem Inv.added (h : s.Inv) (hdeleting : s.deleting = none) {crd : CRD} (hok : Catalogued crd ∨ crdKey crd.group crd.plural ∉ s.crds) :
    { s with crds := onCRDAdd s.crds (.crd crd)
             left := update s.left (crdKey crd.group crd.plural) (some crd) }.Inv := by
  refine h.change (fun key ↦ ?_) (fun key hkey ↦ ?_) (fun key hkey ↦ ?_)
  · rw [lookup_onCRDAdd, update_apply]
    by_cases hkey : key = crdKey crd.group crd.plural
    · rw [if_pos hkey, Option.bind_some]
      by_cases hcatalogued : Catalogued crd
      · rw [if_pos ⟨hkey, entryOf_isSome.mpr hcatalogued⟩]
      · have hnone : entryOf crd = none := Option.not_isSome_iff_eq_none.mp (mt entryOf_isSome.mp hcatalogued)
        rw [if_neg (fun hc ↦ hcatalogued (entryOf_isSome.mp hc.2)), hnone, hkey]
        exact AList.lookup_eq_none.mpr (hok.resolve_left hcatalogued)
    · rw [if_neg hkey, if_neg (fun hc ↦ hkey hc.1), h.entries]
  · rw [hdeleting] at hkey
    cases hkey
  · refine hkey.imp_left (fun hleft ↦ ?_)
    change update s.left _ _ key ≠ none
    rw [update_apply]
    split
    · exact Option.some_ne_none crd
    · exact hleft

theorem Inv.deleted (h : s.Inv) (hdeleting : s.deleting = none) (key : String) :
    { s with crds := s.crds.erase key, left := update s.left key none, deleting := some key }.Inv := by
  refine h.change (fun k ↦ ?_) (fun k hk ↦ ?_) (fun k hk ↦ ?_)
  · rw [update_apply]
    split
    · next hkey => rw [hkey, AList.lookup_erase, Option.bind_none]
    · next hkey => rw [AList.lookup_erase_ne hkey, h.entries]
  · cases hk
    exact update_self _ _ _
  · by_cases hkey : k = key
    · exact .inr (congrArg some hkey.symm)
    · refine .inl ?_
      change update s.left _ _ k ≠ none
      rw [update_of_ne hkey]
      exact hk.resolve_right (fun hd ↦ by rw [hdeleting] at hd; cases hd)

/-- What is kept of other resources stays so as a deletion ends. -/
theorem Kept.of_ne {key k : String} (h : s.Kept k) (hdeleting : s.deleting = some key) (hne : k ≠ key) :
    s.left k ≠ none :=
  h.resolve_right (fun hd ↦ hne (Option.some.inj (hd.symm.trans hdeleting)))

theorem Inv.uncount (h : s.Inv) {key : String} (hdeleting : s.deleting = some key)
    (hok : ∀ i n, s.callers i = .waiting n → s.Landed n → n ≠ s.cache → key ∉ s.maps n) :
    { s with maps := update s.maps s.cache ((s.maps s.cache).erase key), deleting := none }.Inv where
  entries := h.entries
  gone _ hk := by cases hk
  cache k hk := by
    change k ∈ update s.maps s.cache _ s.cache at hk
    rw [update_self, AList.mem_erase] at hk
    exact .inl ((h.cache k hk.2).of_ne hdeleting hk.1)
  waiting i n hi := by
    obtain ⟨hlt, hkept⟩ := h.waiting i n hi
    refine ⟨hlt, fun hlanded k hk ↦ .inl ?_⟩
    change k ∈ update s.maps s.cache _ n at hk
    rw [update_apply] at hk
    split at hk
    · exact (h.cache k (AList.mem_erase.mp hk).2).of_ne hdeleting (AList.mem_erase.mp hk).1
    · next hn =>
      refine (hkept hlanded k hk).of_ne hdeleting ?_
      rintro rfl
      exact hok i n hi hlanded hn hk
  flight := h.flight
  allowed := h.allowed
  info := h.info

theorem Inv.enter (h : s.Inv) (i : ℕ) (hflight : s.flight = none) :
    { s.setCaller i (.waiting s.next) with flight := some (s.next, .started), next := s.next + 1 }.Inv where
  entries := h.entries
  gone := h.gone
  cache := h.cache
  waiting j n hj := by
    change update s.callers i (.waiting s.next) j = _ at hj
    rw [update_apply] at hj
    split at hj
    · cases hj
      exact ⟨Nat.lt_succ_self _, fun hlanded ↦ absurd rfl (hlanded _ rfl)⟩
    · obtain ⟨hlt, hkept⟩ := h.waiting j n hj
      refine ⟨Nat.lt_succ_of_lt hlt, fun _ ↦ hkept (fun f hf ↦ ?_)⟩
      rw [hflight] at hf
      cases hf
  flight n stage hn := by
    cases hn
    exact ⟨Nat.lt_succ_self _, fun hstored ↦ by cases hstored⟩
  allowed := h.allowed
  info := h.info

theorem Inv.snapshot (h : s.Inv) {n : ℕ} (hflight : s.flight = some (n, .started)) (gvrs : GoMap String GVR) :
    { s with flight := some (n, .fetching gvrs) }.Inv where
  entries := h.entries
  gone := h.gone
  cache := h.cache
  waiting i m hi := by
    obtain ⟨hlt, hkept⟩ := h.waiting i m hi
    refine ⟨hlt, fun hlanded ↦ hkept (fun f hf ↦ ?_)⟩
    cases hflight.symm.trans hf
    exact hlanded (n, .fetching gvrs) rfl
  flight m stage hm := by
    cases hm
    exact ⟨(h.flight n _ hflight).1, fun hstored ↦ by cases hstored⟩
  allowed := h.allowed
  info := h.info

theorem Inv.store (h : s.Inv) {n : ℕ} {gvrs : GoMap String GVR} (hflight : s.flight = some (n, .fetching gvrs))
    {counts : GoMap String ℤ} (hok : ∀ key ∈ counts, s.Kept key) :
    { s with maps := update s.maps n counts, cache := n, flight := some (n, .stored) }.Inv where
  entries := h.entries
  gone := h.gone
  cache key hkey := by
    change key ∈ update s.maps n counts n at hkey
    rw [update_self] at hkey
    exact hok key hkey
  waiting i m hi := by
    obtain ⟨hlt, hkept⟩ := h.waiting i m hi
    refine ⟨hlt, fun hlanded key hkey ↦ ?_⟩
    have hne : m ≠ n := fun heq ↦ hlanded _ rfl heq.symm
    change key ∈ update s.maps n counts m at hkey
    rw [update_of_ne hne] at hkey
    refine hkept (fun f hf ↦ ?_) key hkey
    cases hflight.symm.trans hf
    exact hne.symm
  flight m stage hm := by
    cases hm
    exact ⟨(h.flight n _ hflight).1, fun _ ↦ rfl⟩
  allowed := h.allowed
  info := h.info

theorem Inv.land (h : s.Inv) {n : ℕ} (hflight : s.flight = some (n, .stored)) : { s with flight := none }.Inv where
  entries := h.entries
  gone := h.gone
  cache := h.cache
  waiting i m hi := by
    obtain ⟨hlt, hkept⟩ := h.waiting i m hi
    refine ⟨hlt, fun _ key hkey ↦ ?_⟩
    by_cases hm : m = n
    · rw [hm, (h.flight n _ hflight).2 rfl] at hkey
      exact h.cache key hkey
    · refine hkept (fun f hf ↦ ?_) key hkey
      cases hflight.symm.trans hf
      exact Ne.symm hm
  flight m stage hm := by cases hm
  allowed := h.allowed
  info := h.info

theorem startRequest_resolved {group resource group' resource' : String} {gvr : GVR}
    (h : s.startRequest group resource = .resolved group' resource' gvr) : group' ∉ coreAPIDenylist := by
  unfold startRequest at h
  split at h
  · cases h
  · split at h
    · cases h
    · split at h
      · cases h
      · next hgvr =>
        cases h
        intro hdenied
        rw [resolveGVR, if_pos hdenied] at hgvr
        cases hgvr

theorem startRequest_ne_found {group resource : String} {gvr : GVR} {info : Option CRDInfo} :
    s.startRequest group resource ≠ .done (.found gvr info) := by
  unfold startRequest
  split
  · intro h
    cases h
  · split
    · intro h
      cases h
    · split <;> (intro h; cases h)

theorem startCounts_ne_waiting {fresh : Bool} {counts : GoMap String ℤ} {n : ℕ} :
    startCounts fresh counts ≠ .waiting n := by
  unfold startCounts
  split <;> (intro h; cases h)

theorem getCRDInfo_ne_none {group resource : String} (h : group ∉ coreAPIDenylist) :
    s.getCRDInfo group resource ≠ none ↔ crdKey group resource ∈ s.crds := by
  rw [getCRDInfo, if_neg h, ← AList.lookup_isSome, Option.isSome_iff_ne_none]

theorem inv_step {a : CRDAct} (h : s.Inv) (hok : Undisturbed s a) (hstep : s.step a = some t) : t.Inv := by
  cases a with
  | added obj =>
    simp only [step, Option.ite_none_right_eq_some] at hstep
    obtain ⟨hdeleting, ⟨⟩⟩ := hstep
    cases obj with
    | crd crd => exact h.added hdeleting (hok crd rfl)
    | tombstone obj => exact h
    | other => exact h
  | deleted obj =>
    simp only [step, Option.ite_none_right_eq_some] at hstep
    obtain ⟨hdeleting, hstep⟩ := hstep
    split at hstep
    · cases hstep
      exact h
    · cases hstep
      exact h.deleted hdeleting _
  | uncount =>
    obtain ⟨key, hdeleting, rfl⟩ := Option.map_eq_some_iff.mp hstep
    exact h.uncount hdeleting (hok key hdeleting)
  | getCounts i fresh =>
    simp only [step] at hstep
    split at hstep
    · cases hstep
      exact h.setCaller (fun n hn ↦ absurd hn startCounts_ne_waiting)
    · cases hstep
      exact h.setCaller (fun n hn ↦ absurd hn startCounts_ne_waiting)
    · cases hstep
  | enter i =>
    simp only [step] at hstep
    split at hstep
    · next n stage _ hflight =>
      cases hstep
      refine h.setCaller (fun m hm ↦ ?_)
      cases hm
      exact ⟨(h.flight n stage hflight).1, fun hlanded ↦ absurd rfl (hlanded _ hflight)⟩
    · next _ hflight =>
      cases hstep
      exact h.enter i hflight
    · cases hstep
  | snapshot =>
    simp only [step] at hstep
    split at hstep
    · next hflight =>
      cases hstep
      exact h.snapshot hflight _
    · cases hstep
  | store list =>
    simp only [step] at hstep
    split at hstep
    · next n gvrs hflight =>
      cases hstep
      exact h.store hflight (hok n gvrs hflight)
    · cases hstep
  | land =>
    simp only [step] at hstep
    split at hstep
    · next hflight =>
      cases hstep
      exact h.land hflight
    · cases hstep
  | collect i =>
    simp only [step] at hstep
    split at hstep
    · simp only [Option.ite_none_right_eq_some] at hstep
      obtain ⟨-, ⟨⟩⟩ := hstep
      exact h.setCaller (fun n hn ↦ by cases hn)
    · cases hstep
  | resolve i group resource =>
    have hset : (s.setRequest i (s.startRequest group resource)).Inv :=
      h.setRequest (fun _ _ _ ↦ startRequest_resolved) (fun gvr info hq ↦ absurd hq startRequest_ne_found)
    simp only [step] at hstep
    split at hstep
    · cases hstep
      exact hset
    · cases hstep
      exact hset
    · cases hstep
  | info i =>
    simp only [step] at hstep
    split at hstep
    · next group resource gvr hi =>
      cases hstep
      refine h.setRequest (fun _ _ _ hq ↦ by cases hq) (fun gvr' info hq ↦ ?_)
      cases hq
      exact (getCRDInfo_ne_none (h.allowed i group resource gvr hi)).mpr (hok group resource gvr hi)
    · cases hstep

/-- A step that is not undisturbed shows. -/
theorem not_mirrors_step {a : CRDAct} (h : s.Inv) (hok : ¬Undisturbed s a) (hstep : s.step a = some t) : ¬Mirrors t := by
  intro ht
  refine hok ?_
  cases a with
  | added obj =>
    rintro crd rfl
    simp only [step, Option.ite_none_right_eq_some] at hstep
    obtain ⟨-, ⟨⟩⟩ := hstep
    by_contra! hcrd
    have hmem : crdKey crd.group crd.plural ∈ onCRDAdd s.crds (.crd crd) := by
      rw [← AList.lookup_isSome, lookup_onCRDAdd, if_neg (fun hc ↦ hcrd.1 (entryOf_isSome.mp hc.2)),
        AList.lookup_isSome]
      exact hcrd.2
    obtain ⟨crd', hcrd', hcatalogued⟩ := (ht.entries _).mp hmem
    cases (update_self (crdKey crd.group crd.plural) (some crd) s.left).symm.trans hcrd'
    exact hcrd.1 hcatalogued
  | uncount =>
    obtain ⟨key, hdeleting, rfl⟩ := Option.map_eq_some_iff.mp hstep
    intro key' hkey' i n hi hlanded hn hmem
    cases hdeleting.symm.trans hkey'
    have hkept := ht.counts (s.maps n) (.inr ⟨i, n, hi, hlanded, (update_of_ne hn _ _).symm⟩) key hmem
    obtain hleft | hkey := hkept
    · exact hleft (h.gone key hdeleting)
    · cases hkey
  | store list =>
    intro n gvrs hflight key hkey
    simp only [step, hflight, Option.some.injEq] at hstep
    subst hstep
    exact ht.counts (fetchCounts list gvrs) (.inl (update_self n (fetchCounts list gvrs) s.maps).symm) key hkey
  | info i =>
    intro group resource gvr hi
    simp only [step, hi, Option.some.injEq] at hstep
    subst hstep
    have hne := ht.info i gvr _ (update_self i _ _)
    exact (getCRDInfo_ne_none (h.allowed i group resource gvr hi)).mp hne
  | deleted obj => trivial
  | getCounts i fresh => trivial
  | enter i => trivial
  | snapshot => trivial
  | land => trivial
  | collect i => trivial
  | resolve i group resource => trivial

def widgets (served : Bool) : CRD where
  group := "example.com"
  plural := "widgets"
  kind := "Widget"
  clusterScoped := false
  versions := [{ name := "v1", served, storage := true }]

end CRDDiscovery

end KubeCenter.Resources
