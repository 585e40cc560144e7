import KubeCenter.K8s.ClusterRouter

namespace KubeCenter.K8s.RouterProtocol

open KubeCenter.Core Function

variable {sum256 : String → BitVec 256} {s s' : State} {a : Act} {i : ℕ}

def Stage.rev : Stage → Option ℕ
  | .got rev _ => some rev
  | .built (.ok config) | .landed (.ok config) => some config.rev
  | _ => none

/-- The eviction has yet to range over the cache, or to visit the key there. -/
def Eviction.Owes (v : Eviction) (kind : ClientKind) (key : List Char) : Prop :=
  match v.ranging, kind with
  | .typed, .dynamic => True
  | .dynamic, .typed => False
  | _, _ => key ∈ v.owes

instance (v : Eviction) (kind : ClientKind) (key : List Char) : Decidable (v.Owes kind key) := by
  unfold Eviction.Owes
  cases v.ranging <;> cases kind <;> infer_instance

/-- A client of revision `rev` in the cache is no older than the evictions of the cluster make
it, those still on their way to its key aside. -/
def Current (s : State) (kind : ClientKind) (clusterID : String) (key : List Char) (rev : ℕ) : Prop :=
  s.evicted clusterID ≤ rev ∧
    ∀ x ∈ s.evictions.entries, x.2.clusterID = clusterID → x.2.target ≤ rev ∨ x.2.Owes kind key

instance (s : State) (kind : ClientKind) (clusterID : String) (key : List Char) (rev : ℕ) :
    Decidable (Current s kind clusterID key rev) := inferInstanceAs (Decidable (_ ∧ _))

def Recent (flight : Option (List Char × Stage)) (need : ℕ) : Prop :=
  ∀ rev ∈ flight.bind (fun b ↦ b.2.rev), need ≤ rev

instance (flight : Option (List Char × Stage)) (need : ℕ) : Decidable (Recent flight need) :=
  inferInstanceAs (Decidable (∀ rev ∈ flight.bind (fun b ↦ b.2.rev), need ≤ rev))

def Call.putting : Call → Option (ClientKind × Request × CachedClient)
  | .storing kind r _ entry => some (kind, r, entry)
  | _ => none

def Call.entering : Call → Option (Request × ℕ)
  | .configuring r need => some (r, need)
  | _ => none

/-- Nothing is stored behind an eviction's back, and no call joins a flight that read its row
before an eviction that the call starts after. -/
def Timely (sum256 : String → BitVec 256) (s : State) : Act → Prop
  | .put i => ∀ x ∈ (s.calls i).putting,
      Current s x.1 x.2.1.clusterID (x.2.1.key sum256) x.2.2.client.rev
  | .enter i => ∀ x ∈ (s.calls i).entering, ∀ j ∈ s.configSF.calls.lookup (x.1.key sum256),
      Recent (s.configSF.body j) x.2
  | _ => True

instance (s : State) (a : Act) : Decidable (Timely sum256 s a) := by
  cases a with
  | put i => exact inferInstanceAs (Decidable (∀ x ∈ (s.calls i).putting, _))
  | enter i => exact inferInstanceAs (Decidable (∀ x ∈ (s.calls i).entering, ∀ j ∈ _, Recent _ _))
  | _ => exact .isTrue trivial

/-- Every client returned was built from a row read after the changes whose evictions had
returned when the call started. -/
def UpToDate (s : State) : Prop :=
  ∀ i r need client, s.calls i = .done r need client → need ≤ client.rev

def Flies (sum256 : String → BitVec 256) (s : State) (j : ℕ) (r : Request) (need : ℕ) : Prop :=
  ∃ stage, s.configSF.body j = some (r.key sum256, stage) ∧ ∀ rev, stage.rev = some rev → need ≤ rev

/-- What holds of call `i` where it stands. -/
def CallOk (sum256 : String → BitVec 256) (s : State) (i : ℕ) : Call → Prop
  | .idle => s.configSF.body i = none
  | .looking _ r need | .stale _ r need | .configuring r need =>
    s.configSF.body i = none ∧ need ≤ s.evicted r.clusterID
  | .loaded _ r need entry =>
    s.configSF.body i = none ∧ need ≤ s.evicted r.clusterID ∧ need ≤ entry.client.rev
  | .leading r need => need ≤ s.evicted r.clusterID ∧ Flies sum256 s i r need
  | .waiting r need j => need ≤ s.evicted r.clusterID ∧ Flies sum256 s j r need
  | .building _ _ need client | .done _ need client => need ≤ client.rev
  | .storing _ _ need entry => need ≤ entry.client.rev
  | .localClient | .noClusterStore | .failed _ => True

structure Inv (sum256 : String → BitVec 256) (s : State) : Prop where
  evicted : ∀ c, s.evicted c ≤ (s.rows c).1
  targets : ∀ e v, s.evictions.lookup e = some v → v.target ≤ (s.rows v.clusterID).1
  cached : ∀ kind c u g entry, (s.caches kind).lookup (clientKey sum256 c u g) = some entry →
    Current s kind c (clientKey sum256 c u g) entry.client.rev
  keyed : s.configSF.Keyed
  calls : ∀ i, CallOk sum256 s i (s.calls i)

theorem inv_init (now : ℕ) (hasStore : Bool) : Inv sum256 (init now hasStore) where
  evicted _ := le_rfl
  targets _ _ h := by simp [init] at h
  cached _ _ _ _ _ h := by simp [init] at h
  keyed := Flights.keyed_empty
  calls _ := rfl

theorem Inv.upToDate (h : Inv sum256 s) : UpToDate s := by
  intro i r need client hi
  have hok := h.calls i
  rw [hi] at hok
  exact hok

theorem CallOk.mono {h : Call} (hok : CallOk sum256 s i h) (hevicted : ∀ c, s.evicted c ≤ s'.evicted c)
    (hbody : s.configSF.body i = none → s'.configSF.body i = none)
    (hflies : ∀ j r need, need ≤ s.evicted r.clusterID → Flies sum256 s j r need →
      Flies sum256 s' j r need) : CallOk sum256 s' i h := by
  cases h with
  | idle => exact hbody hok
  | looking kind r need => exact ⟨hbody hok.1, hok.2.trans (hevicted _)⟩
  | loaded kind r need entry => exact ⟨hbody hok.1, hok.2.1.trans (hevicted _), hok.2.2⟩
  | stale kind r need => exact ⟨hbody hok.1, hok.2.trans (hevicted _)⟩
  | configuring r need => exact ⟨hbody hok.1, hok.2.trans (hevicted _)⟩
  | leading r need => exact ⟨hok.1.trans (hevicted _), hflies i r need hok.1 hok.2⟩
  | waiting r need j => exact ⟨hok.1.trans (hevicted _), hflies j r need hok.1 hok.2⟩
  | building kind r need client => exact hok
  | storing kind r need entry => exact hok
  | done r need client => exact hok
  | localClient => trivial
  | noClusterStore => trivial
  | failed err => trivial

theorem Inv.calls_frame (h : Inv sum256 s) (hevicted : ∀ c, s.evicted c ≤ s'.evicted c)
    (hconfig : s'.configSF = s.configSF) (hcalls : s'.calls = s.calls) :
    ∀ i, CallOk sum256 s' i (s'.calls i) := by
  intro i
  rw [hcalls]
  refine (h.calls i).mono hevicted (fun hb ↦ by rwa [hconfig]) (fun j r need _ hf ↦ ?_)
  rwa [Flies, hconfig]

theorem Current.mono {kind : ClientKind} {c : String} {key : List Char} {rev : ℕ}
    (h : Current s kind c key rev) (hevicted : s'.evicted = s.evicted)
    (hevictions : s'.evictions = s.evictions) : Current s' kind c key rev := by
  rwa [Current, hevicted, hevictions]

theorem Inv.frame (h : Inv sum256 s) (hrows : s'.rows = s.rows) (hcaches : s'.caches = s.caches)
    (hconfig : s'.configSF = s.configSF) (hcalls : s'.calls = s.calls)
    (hevictions : s'.evictions = s.evictions) (hevicted : s'.evicted = s.evicted) : Inv sum256 s' := by
  refine ⟨?_, ?_, fun kind c u g entry hl ↦ (h.cached kind c u g entry ?_).mono hevicted hevictions, ?_,
    h.calls_frame (fun c ↦ (congrFun hevicted c).ge) hconfig hcalls⟩
  · rw [hevicted, hrows]
    exact h.evicted
  · rw [hevictions, hrows]
    exact h.targets
  · rwa [hcaches] at hl
  · rw [hconfig]
    exact h.keyed

theorem Inv.setCall (h : Inv sum256 s) {c : Call} (hc : CallOk sum256 s i c) : Inv sum256 (s.setCall i c) where
  evicted := h.evicted
  targets := h.targets
  cached := h.cached
  keyed := h.keyed
  calls j := by
    by_cases hj : j = i
    · subst hj
      rw [State.setCall_self]
      exact hc.mono (fun _ ↦ le_rfl) id (fun _ _ _ _ hf ↦ hf)
    · rw [State.setCall_ne _ hj]
      exact (h.calls j).mono (fun _ ↦ le_rfl) id (fun _ _ _ _ hf ↦ hf)

theorem Inv.erase (h : Inv sum256 s) (kind : ClientKind) (key : List Char) :
    Inv sum256 (s.erase kind key) where
  evicted := h.evicted
  targets := h.targets
  cached kind' c u g entry hl := (h.cached kind' c u g entry (State.lookup_of_erase hl).2).mono rfl rfl
  keyed := h.keyed
  calls := h.calls_frame (fun _ ↦ le_rfl) rfl rfl

theorem Inv.store (h : Inv sum256 s) {kind : ClientKind} {r : Request} {entry : CachedClient}
    (hc : Current s kind r.clusterID (r.key sum256) entry.client.rev) :
    Inv sum256 (s.store kind (r.key sum256) entry) where
  evicted := h.evicted
  targets := h.targets
  cached kind' c u g entry' hl := by
    rcases State.lookup_of_store hl with ⟨rfl, hkey, rfl⟩ | hl
    · rw [hkey, clientKey_clusterID hkey]
      exact hc.mono rfl rfl
    · exact (h.cached kind' c u g entry' hl).mono rfl rfl
  keyed := h.keyed
  calls := h.calls_frame (fun _ ↦ le_rfl) rfl rfl

theorem Inv.advance (h : Inv sum256 s) {key : List Char} {stage stage' : Stage}
    (hb : s.configSF.body i = some (key, stage))
    (hstage : ∀ r need, Request.key sum256 r = key → need ≤ s.evicted r.clusterID →
      (∀ rev, stage.rev = some rev → need ≤ rev) → ∀ rev, stage'.rev = some rev → need ≤ rev) :
    Inv sum256 { s with configSF := s.configSF.advance i stage' } where
  evicted := h.evicted
  targets := h.targets
  cached kind c u g entry hl := (h.cached kind c u g entry hl).mono rfl rfl
  keyed := h.keyed.advance i stage'
  calls j := by
    refine (h.calls j).mono (fun _ ↦ le_rfl) (Flights.body_advance_none _) (fun k r need hneed hf ↦ ?_)
    obtain ⟨st, hst, hrev⟩ := hf
    by_cases hk : k = i
    · subst hk
      rw [hb] at hst
      cases hst
      exact ⟨stage', Flights.body_advance_self _ hb, hstage r need rfl hneed hrev⟩
    · exact ⟨st, by rwa [Flights.body_advance_ne _ hk], hrev⟩

theorem Inv.land (h : Inv sum256 s) (i : ℕ) : Inv sum256 { s with configSF := s.configSF.land i } where
  evicted := h.evicted
  targets := h.targets
  cached kind c u g entry hl := (h.cached kind c u g entry hl).mono rfl rfl
  keyed := h.keyed.land i
  calls j := by
    refine (h.calls j).mono (fun _ ↦ le_rfl) (fun hn ↦ ?_) (fun k r need _ hf ↦ ?_)
    · rwa [Flights.body_land]
    · rwa [Flies, Flights.body_land]

theorem Inv.lead (h : Inv sum256 s) {r : Request} {need : ℕ} (hi : s.calls i = .configuring r need) :
    Inv sum256 ({ s with configSF := s.configSF.lead (r.key sum256) i .started }.setCall i
      (.leading r need)) := by
  have hok := h.calls i
  rw [hi] at hok
  obtain ⟨hbody, hneed⟩ := hok
  refine ⟨h.evicted, h.targets, fun kind c u g entry hl ↦ (h.cached kind c u g entry hl).mono rfl rfl,
    h.keyed.lead hbody _, fun j ↦ ?_⟩
  by_cases hj : j = i
  · subst hj
    rw [State.setCall_self]
    exact ⟨hneed, .started, Flights.body_lead_self _ _ _ _, fun rev hrev ↦ by cases hrev⟩
  · rw [State.setCall_ne _ hj]
    refine (h.calls j).mono (fun _ ↦ le_rfl) (fun hn ↦ ?_) (fun k r' need' _ hf ↦ ?_)
    · exact (Flights.body_lead_ne _ hj).trans hn
    · obtain ⟨st, hst, hrev⟩ := hf
      have hk : k ≠ i := by
        rintro rfl
        rw [hbody] at hst
        cases hst
      exact ⟨st, (Flights.body_lead_ne _ hk).trans hst, hrev⟩

theorem callOk_afterConfig {r : Request} {need : ℕ} {config : Except String Client}
    (h : ∀ client, config = .ok client → need ≤ client.rev) : CallOk sum256 s i (afterConfig r need config) := by
  unfold afterConfig
  split
  · trivial
  · split <;> exact h _ rfl

theorem callOk_begin (hi : s.configSF.body i = none) (r : Request) : CallOk sum256 s i (begin s r) := by
  unfold begin
  split
  · trivial
  · split
    · trivial
    · split <;> exact ⟨hi, le_rfl⟩

theorem rev_landed (config : Except String Client) : (Stage.landed config).rev = (Stage.built config).rev := by
  cases config <;> rfl

theorem flies_rev {j : ℕ} {r : Request} {need : ℕ} {key : List Char} {stage : Stage}
    {config : Except String Client} (hb : s.configSF.body j = some (key, stage))
    (hf : Flies sum256 s j r need) (hstage : stage.rev = (Stage.landed config).rev) :
    ∀ client, config = .ok client → need ≤ client.rev := by
  rintro client rfl
  obtain ⟨stage', hb', hrev⟩ := hf
  rw [hb] at hb'
  cases hb'
  exact hrev client.rev hstage

theorem callStep_inv {h : Call} (hinv : Inv sum256 s) (hi : s.calls i = h)
    (ha : ∀ j, a = .put j ∨ a = .enter j → j = i) (htimely : Timely sum256 s a)
    (hs : callStep sum256 s i h a = some s') : Inv sum256 s' := by
  have hok := hinv.calls i
  rw [hi] at hok
  unfold callStep at hs
  split at hs
  · cases hs
    exact hinv.setCall (callOk_begin hok _)
  · next kind r need _ =>
    split at hs <;> cases hs
    · next entry hl =>
      exact hinv.setCall ⟨hok.1, hok.2, hok.2.trans (hinv.cached kind _ _ _ entry hl).1⟩
    · exact hinv.setCall hok
  · split at hs <;> cases hs
    · exact hinv.setCall hok.2.2
    · exact hinv.setCall ⟨hok.1, hok.2.1⟩
  · next kind r need _ =>
    cases hs
    exact (hinv.erase kind _).setCall hok
  · next r need j =>
    cases ha j (.inr rfl)
    split at hs <;> cases hs
    · next k hk =>
      obtain ⟨stage, hb⟩ := hinv.keyed _ _ hk
      have hrecent := htimely (r, need) (by rw [hi]; rfl) k hk
      rw [hb] at hrecent
      exact hinv.setCall ⟨hok.2, stage, hb, fun rev hrev ↦ hrecent rev hrev⟩
    · exact hinv.lead hi
  · next r need _ err =>
    split at hs <;> cases hs
    next key hb =>
    obtain ⟨-, stage, hflies, -⟩ := hok
    rw [hb] at hflies
    cases hflies
    refine hinv.advance hb (fun r' need' hkey hneed _ rev hrev ↦ ?_)
    cases hrev
    rw [clientKey_clusterID hkey] at hneed
    exact hneed.trans (hinv.evicted _)
  · next r need _ services =>
    split at hs <;> cases hs
    next key rev row hb =>
    refine hinv.advance hb (fun r' need' _ _ hold rev' hrev' ↦ hold rev' ?_)
    cases hbuilt : buildRemoteConfig services r.clusterID r.username r.groups row with
    | error err => simp [hbuilt, Except.map, Stage.rev] at hrev'
    | ok config => simpa [hbuilt, Except.map, Stage.rev] using hrev'
  · next r need _ =>
    split at hs <;> cases hs
    next key config hb =>
    have hlanded : Inv sum256 { s with configSF := s.configSF.advance i (.landed config) } :=
      hinv.advance hb (fun _ _ _ _ hold ↦ rev_landed config ▸ hold)
    exact (hlanded.land i).setCall (callOk_afterConfig (flies_rev hb hok.2 (rev_landed config).symm))
  · next r need j _ =>
    split at hs <;> cases hs
    next key config hb =>
    exact hinv.setCall (callOk_afterConfig (flies_rev hb hok.2 rfl))
  · next kind r need config _ err =>
    split at hs <;> cases hs
    · exact hinv.setCall trivial
    · exact hinv.setCall hok
  · next kind r need entry j =>
    cases ha j (.inl rfl)
    cases hs
    exact (hinv.store (htimely (kind, r, entry) (by rw [hi]; rfl))).setCall hok
  · cases hs

theorem Eviction.Owes.erase {v : Eviction} {kind : ClientKind} {k key : List Char} (h : v.Owes kind k)
    (hne : kind = v.ranging → k ≠ key) : ({ v with owes := v.owes.erase key }).Owes kind k := by
  obtain ⟨clusterID, target, ranging, owes⟩ := v
  cases ranging <;> cases kind
  · exact Finset.mem_erase.mpr ⟨hne rfl, h⟩
  · exact h
  · exact h
  · exact Finset.mem_erase.mpr ⟨hne rfl, h⟩

theorem mem_matching {kind : ClientKind} {c u : String} {g : List String} {entry : CachedClient}
    (h : (s.caches kind).lookup (clientKey sum256 c u g) = some entry) :
    clientKey sum256 c u g ∈ s.matching kind c := by
  rw [State.matching, List.mem_toFinset, List.mem_filter]
  exact ⟨AList.mem_keys.mp (AList.lookup_isSome.mp (by rw [h]; rfl)), evicts_clientKey⟩

theorem Inv.setEviction (h : Inv sum256 s) {e : ℕ} {v : Eviction}
    (htarget : v.target ≤ (s.rows v.clusterID).1)
    (howes : ∀ kind u g entry, (s.caches kind).lookup (clientKey sum256 v.clusterID u g) = some entry →
      v.target ≤ entry.client.rev ∨ v.Owes kind (clientKey sum256 v.clusterID u g)) :
    Inv sum256 (s.setEviction e v) where
  evicted := h.evicted
  targets e' v' hv' := by
    by_cases he : e' = e
    · subst he
      rw [State.setEviction, AList.lookup_insert] at hv'
      cases hv'
      exact htarget
    · rw [State.setEviction, AList.lookup_insert_ne he] at hv'
      exact h.targets e' v' hv'
  cached kind c u g entry hl := by
    obtain ⟨hevicted, hevictions⟩ := h.cached kind c u g entry hl
    refine ⟨hevicted, fun x hx hc ↦ ?_⟩
    rcases GoMap.mem_entries_insert hx with rfl | hx
    · subst hc
      exact howes kind u g entry hl
    · exact hevictions x hx hc
  keyed := h.keyed
  calls := h.calls_frame (fun _ ↦ le_rfl) rfl rfl

theorem Inv.owes (h : Inv sum256 s) {e : ℕ} {v : Eviction} (hv : s.evictions.lookup e = some v)
    {kind : ClientKind} {u : String} {g : List String} {entry : CachedClient}
    (hl : (s.caches kind).lookup (clientKey sum256 v.clusterID u g) = some entry) :
    v.target ≤ entry.client.rev ∨ v.Owes kind (clientKey sum256 v.clusterID u g) :=
  (h.cached kind _ u g entry hl).2 ⟨e, v⟩ (GoMap.mem_entries_iff.mpr hv) rfl

theorem Inv.finishEviction (h : Inv sum256 s) {e : ℕ} {v : Eviction} (hv : s.evictions.lookup e = some v)
    (hranging : v.ranging = .dynamic) (howes : v.owes = ∅) : Inv sum256 (s.finishEviction e v) where
  evicted c := s.evicted_finishEviction_le.mpr ⟨h.evicted c, fun hc ↦ hc ▸ h.targets e v hv⟩
  targets e' v' hv' := by
    by_cases he : e' = e
    · rw [State.finishEviction, he, AList.lookup_erase] at hv'
      cases hv'
    · rw [State.finishEviction, AList.lookup_erase_ne he] at hv'
      exact h.targets e' v' hv'
  cached kind c u g entry hl := by
    obtain ⟨hevicted, hevictions⟩ := h.cached kind c u g entry hl
    refine ⟨s.evicted_finishEviction_le.mpr ⟨hevicted, ?_⟩,
      fun x hx ↦ hevictions x (GoMap.mem_entries_erase hx)⟩
    rintro rfl
    apply (h.owes hv hl).resolve_right
    cases kind <;> simp [Eviction.Owes, hranging, howes]
  keyed := h.keyed
  calls := h.calls_frame (fun _ ↦ (s.evicted_finishEviction_le.mp le_rfl).1) rfl rfl

theorem Inv.setRow (h : Inv sum256 s) (clusterID : String) (row : Option ClusterRecord) :
    Inv sum256 (s.setRow clusterID row) where
  evicted c := (h.evicted c).trans (s.rev_le_setRow clusterID c row)
  targets e v hv := (h.targets e v hv).trans (s.rev_le_setRow clusterID _ row)
  cached kind c u g entry hl := (h.cached kind c u g entry hl).mono rfl rfl
  keyed := h.keyed
  calls := h.calls_frame (fun _ ↦ le_rfl) rfl rfl

theorem evictStep_inv (h : Inv sum256 s) (hs : evictStep s a = some s') : Inv sum256 s' := by
  unfold evictStep at hs
  split at hs
  · next e clusterID =>
    split at hs <;> cases hs
    refine h.setEviction le_rfl (fun kind u g entry hl ↦ .inr ?_)
    cases kind with
    | typed => exact mem_matching hl
    | dynamic => trivial
  · next e key =>
    split at hs
    · next v hv =>
      split at hs <;> cases hs
      refine (h.erase v.ranging key).setEviction (h.targets e v hv) (fun kind u g entry hl ↦ ?_)
      obtain ⟨hne, hl⟩ := State.lookup_of_erase hl
      exact (h.owes hv hl).imp id (fun ho ↦ ho.erase hne)
    · cases hs
  · next e key =>
    split at hs
    · next v hv =>
      split at hs <;> cases hs
      next hkey =>
      refine h.setEviction (h.targets e v hv) (fun kind u g entry hl ↦ ?_)
      refine (h.owes hv hl).imp id (fun ho ↦ ho.erase ?_)
      rintro rfl rfl
      exact hkey (AList.lookup_isSome.mp (by rw [hl]; rfl))
    · cases hs
  · next e =>
    split at hs
    · next v hv =>
      split at hs <;> cases hs
      next hdone =>
      refine h.setEviction (h.targets e v hv) (fun kind u g entry hl ↦ ?_)
      cases kind with
      | typed =>
        refine (h.owes hv hl).imp id (fun ho ↦ ?_)
        simp [Eviction.Owes, hdone.1, hdone.2] at ho
      | dynamic => exact .inr (mem_matching hl)
    · cases hs
  · next e =>
    split at hs
    · next v hv =>
      split at hs <;> cases hs
      next hdone =>
      exact h.finishEviction hv hdone.1 hdone.2
    · cases hs
  · cases hs

theorem otherStep_inv (h : Inv sum256 s) (hs : otherStep s a = some s') : Inv sum256 s' := by
  unfold otherStep at hs
  split at hs
  · cases hs
    exact h.setRow _ _
  · split at hs <;> cases hs
    exact h.frame rfl rfl rfl rfl rfl rfl
  · split at hs
    · split at hs <;> cases hs
      exact h.frame rfl rfl rfl rfl rfl rfl
    · cases hs
  · split at hs <;> cases hs
    next kind key _ =>
    exact (h.erase kind key).frame rfl rfl rfl rfl rfl rfl
  · split at hs <;> cases hs
    exact h.frame rfl rfl rfl rfl rfl rfl
  · cases hs
    exact h.frame rfl rfl rfl rfl rfl rfl
  · cases hs

theorem inv_step (h : Inv sum256 s) (htimely : Timely sum256 s a) (hs : step sum256 s a = some s') :
    Inv sum256 s' := by
  have call : ∀ i, (∀ j, a = .put j ∨ a = .enter j → j = i) →
      callStep sum256 s i (s.calls i) a = some s' → Inv sum256 s' :=
    fun i ha hi ↦ callStep_inv h rfl ha htimely hi
  have evict : evictStep s a = some s' → Inv sum256 s' := evictStep_inv h
  have other : otherStep s a = some s' → Inv sum256 s' := otherStep_inv h
  cases a
  case evict | evictVisit | evictSkip | evictNext | evictReturn => exact evict hs
  case setCluster | sweepTick | sweepVisit | sweepDelete | sweepEnd | advance => exact other hs
  all_goals exact call _ (by simp) hs

/-- No client from before an eviction is handed out after it, in every run that keeps to
`Timely`. -/
theorem upToDate_throughout (now : ℕ) (hasStore : Bool) (as : List Act)
    (h : EachStep (step sum256) (Timely sum256) (init now hasStore) as) :
    Throughout (step sum256) UpToDate (init now hasStore) as :=
  (h.throughout (fun _ _ _ hinv hok hs ↦ inv_step hinv hok hs) (inv_init now hasStore)).mono
    (fun _ hinv ↦ hinv.upToDate)

section Run

def row (token : UInt8) : ClusterRecord :=
  { apiServerURL := "https://k8s.example.com:6443", caData := [1], authData := [token]
    allowInsecureTLS := false }

def services : Services := { validateRemoteURL := fun _ ↦ .ok (), decrypt := .ok }

def ann : Request := { kind := some .typed, clusterID := "prod", username := "ann", groups := ["dev"] }

def builds (i : ℕ) : List Act :=
  [.start i ann, .load i, .enter i, .get i none, .build i services, .land i, .newForConfig i none]

def evictsProd : List Act := [.evict 0 "prod", .evictNext 0, .evictReturn 0]

/-- Call 0 has read the old row when the credentials are rotated, and stores its client after
the eviction. -/
def latePut : List Act :=
  [.setCluster "prod" (some (row 1))] ++ builds 0 ++ [.setCluster "prod" (some (row 2))] ++ evictsProd ++
    [.put 0, .start 1 ann, .load 1, .check 1]

/-- The first client is stored before the eviction, which visits it; call 1 builds anew. -/
def timelyPut : List Act :=
  [.setCluster "prod" (some (row 1))] ++ builds 0 ++ [.put 0, .setCluster "prod" (some (row 2)),
    .evict 0 "prod", .evictVisit 0 (ann.key fun _ ↦ 0), .evictNext 0, .evictReturn 0] ++ builds 1 ++ [.put 1]

theorem upToDate_throughout_timelyPut :
    (exec (step fun _ ↦ 0) (init 1 true) timelyPut).isSome ∧
      Throughout (step fun _ ↦ 0) UpToDate (init 1 true) timelyPut :=
  ⟨by decide, upToDate_throughout 1 true timelyPut (by decide)⟩

theorem latePut_served :
    (exec (step fun _ ↦ 0) (init 1 true) latePut).map (fun s ↦
      match s.calls 1 with
      | .done _ need client => (need, client.rev, client.config.bearerToken)
      | _ => (0, 0, [])) = some (2, 1, [1]) := by
  decide

theorem not_upToDate_throughout : ¬ ∀ sum256 now hasStore as,
    Throughout (step sum256) UpToDate (init now hasStore) as := by
  intro h
  obtain ⟨s, hs, he⟩ := Option.map_eq_some_iff.mp latePut_served
  have hlast := (h (fun _ ↦ 0) 1 true latePut).last hs
  cases hi : s.calls 1 with
  | done r need client =>
    rw [hi] at he
    obtain ⟨rfl, hrev, -⟩ : need = 2 ∧ client.rev = 1 ∧ _ := by simpa using he
    have hle := hlast 1 r 2 client hi
    omega
  | _ => simp [hi] at he

end Run

end KubeCenter.K8s.RouterProtocol
