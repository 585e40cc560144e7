import KubeCenter.ExternalSecrets.Types

/-! How far a threshold in minutes means what it says. -/

namespace KubeCenter.ExternalSecrets

open KubeCenter.Core

variable {es : ExternalSecret} {stores clusterStores : List SecretStore} {n now lastSync : ℤ}

/-- The most minutes that fit into a `time.Duration`. -/
def maxDurationMinutes : ℤ := 153722867

/-! ## Times on 64 bits -/

theorem toDuration_lt (d : ℤ) : toDuration d < 2 ^ 63 := Int.bmod_lt (by decide)

theorem toDuration_eq {d : ℤ} (hlow : -2 ^ 63 ≤ d) (hhigh : d < 2 ^ 63) : toDuration d = d := by
  apply Int.bmod_eq_of_le
  · exact hlow
  · exact hhigh

theorem le_timeSub_iff {d t u : ℤ} (hlow : -2 ^ 63 < d) (hhigh : d < 2 ^ 63) : d ≤ timeSub t u ↔ d ≤ t - u := by
  unfold timeSub
  omega

/-! ## What decides an ExternalSecret's status -/

/-- The annotation decides the threshold: it is the ExternalSecret's own, or its store's where it has none that is
accepted. -/
def Governs (raw : Bytes) (stores clusterStores : List SecretStore) (es : ExternalSecret) : Prop :=
  es.staleAfterMinutes = parseStaleAfterAnnotation raw ∨
    es.staleAfterMinutes = none ∧ ∃ s source, referencedStore es stores clusterStores = some (s, source) ∧
      s.staleAfterMinutes = parseStaleAfterAnnotation raw

theorem min_le_of_parse {raw : Bytes} (h : parseStaleAfterAnnotation raw = some n) : minStaleAfterMinutes ≤ n := by
  unfold parseStaleAfterAnnotation at h
  split at h
  · cases h
  · split at h
    · cases h
    · split at h
      · cases h
      · cases h
        omega

theorem resolveThresholds_governed {raw : Bytes} (hraw : parseStaleAfterAnnotation raw = some n)
    (hgov : Governs raw stores clusterStores es) :
    (resolveThresholds stores clusterStores now es).staleAfterMinutes = some n := by
  have hmin : minStaleAfterMinutes ≤ n := min_le_of_parse hraw
  rw [resolveThresholds_staleAfterMinutes]
  obtain h | ⟨h, s, source, hstore, hs⟩ := hgov
  · rw [h, hraw, resolveIntKey_es hmin]
  · rw [h, hstore, resolveIntKey_store (hs.trans hraw) hmin]

/-- An ExternalSecret that is in sync apart from its age. -/
structure Watched (raw : Bytes) (stores clusterStores : List SecretStore) (lastSync : ℤ) (es : ExternalSecret) :
    Prop where
  governs : Governs raw stores clusterStores es
  synced : es.status = .synced
  lastSync : es.lastSyncTime = some lastSync

theorem deriveStatus_eq_stale_iff (hsync : es.status = .synced) :
    deriveStatus es now = .stale ↔ isStale es now = true := by
  rw [deriveStatus_synced hsync]
  by_cases hstale : isStale es now = true
  · rw [if_pos hstale]
    exact iff_of_true rfl hstale
  · rw [if_neg hstale]
    refine iff_of_false ?_ hstale
    split <;> nofun

theorem status_eq_stale_iff {raw : Bytes} (hraw : parseStaleAfterAnnotation raw = some n)
    (h : Watched raw stores clusterStores lastSync es) :
    (resolveThresholds stores clusterStores now es).status = .stale ↔
      toDuration (n * minute) ≤ timeSub now lastSync := by
  have hmin : minStaleAfterMinutes ≤ n := min_le_of_parse hraw
  have hpos : 0 < n := by
    unfold minStaleAfterMinutes at hmin
    omega
  rw [resolveThresholds_status, resolveThresholds_governed hraw h.governs]
  refine (deriveStatus_eq_stale_iff ?_).trans ?_
  · exact h.synced
  · simp [isStale, h.lastSync, hpos]

/-! ## Which thresholds mean what they say -/

/-- Whatever the age, it is `n` minutes or more that make an ExternalSecret stale. -/
def StaleFrom (raw : Bytes) (n : ℤ) : Prop :=
  ∀ (stores clusterStores : List SecretStore) (now lastSync : ℤ) (es : ExternalSecret),
    Watched raw stores clusterStores lastSync es →
      ((resolveThresholds stores clusterStores now es).status = .stale ↔ n * minute ≤ now - lastSync)

/-- What is not stale under a lower threshold is not under this one. -/
def RaisingKeepsFresh (raw : Bytes) (n : ℤ) : Prop :=
  ∀ (raw' : Bytes) (n' : ℤ), parseStaleAfterAnnotation raw' = some n' → n' ≤ n →
    ∀ (stores clusterStores stores' clusterStores' : List SecretStore) (now lastSync : ℤ) (es es' : ExternalSecret),
      Watched raw' stores' clusterStores' lastSync es' → Watched raw stores clusterStores lastSync es →
        (resolveThresholds stores' clusterStores' now es').status ≠ .stale →
          (resolveThresholds stores clusterStores now es).status ≠ .stale

theorem staleFrom_of_le {raw : Bytes} (hraw : parseStaleAfterAnnotation raw = some n) (hn : n ≤ maxDurationMinutes) :
    StaleFrom raw n := by
  intro stores clusterStores now lastSync es h
  have hmin : minStaleAfterMinutes ≤ n := min_le_of_parse hraw
  unfold minStaleAfterMinutes at hmin
  unfold maxDurationMinutes at hn
  have hlow : -2 ^ 63 < n * minute := by
    unfold minute second
    omega
  have hhigh : n * minute < 2 ^ 63 := by
    unfold minute second
    omega
  rw [status_eq_stale_iff hraw h, toDuration_eq (Int.le_of_lt hlow) hhigh, le_timeSub_iff hlow hhigh]

theorem raisingKeepsFresh_of_le {raw : Bytes} (hraw : parseStaleAfterAnnotation raw = some n)
    (hn : n ≤ maxDurationMinutes) : RaisingKeepsFresh raw n := by
  intro raw' n' hraw' hle stores clusterStores stores' clusterStores' now lastSync es es' h' h hfresh hstale
  have hage := (staleFrom_of_le hraw hn stores clusterStores now lastSync es h).mp hstale
  refine hfresh ((staleFrom_of_le hraw' (Int.le_trans hle hn) stores' clusterStores' now lastSync es' h').mpr ?_)
  have hmul : n' * minute ≤ n * minute := by
    unfold minute second
    omega
  exact Int.le_trans hmul hage

/-- The longest age a `time.Duration` can tell is one at which everything is stale. -/
theorem le_of_staleFrom {raw : Bytes} (hraw : parseStaleAfterAnnotation raw = some n) (h : StaleFrom raw n) :
    n ≤ maxDurationMinutes := by
  have hwatched : Watched raw [] [] 0
      { ns := "", name := "", uid := "", status := .synced, lastSyncTime := some 0,
        staleAfterMinutes := parseStaleAfterAnnotation raw } := ⟨.inl rfl, rfl, rfl⟩
  have hlong : toDuration (n * minute) ≤ timeSub (2 ^ 63 - 1) 0 := Int.le_of_lt_add_one (toDuration_lt (n * minute))
  have hstale := (status_eq_stale_iff hraw hwatched).mpr hlong
  have hage := (h [] [] (2 ^ 63 - 1) 0 _ hwatched).mp hstale
  unfold maxDurationMinutes
  unfold minute second at hage
  omega

/-- An annotation means as many minutes as it says exactly up to the longest `time.Duration`. -/
theorem staleFrom_iff {raw : Bytes} (hraw : parseStaleAfterAnnotation raw = some n) :
    (StaleFrom raw n ∧ RaisingKeepsFresh raw n) ↔ n ≤ maxDurationMinutes := by
  constructor
  · exact fun h ↦ le_of_staleFrom hraw h.1
  · exact fun hn ↦ ⟨staleFrom_of_le hraw hn, raisingKeepsFresh_of_le hraw hn⟩

theorem staleFrom_iff_hour : (StaleFrom [54, 48] 60 ∧ RaisingKeepsFresh [54, 48] 60) ↔ 60 ≤ maxDurationMinutes :=
  staleFrom_iff (by decide)

/-- Under 307445735 minutes, some 584 years, an ExternalSecret is stale 27 seconds after its sync. -/
theorem not_staleFrom : ¬ ∀ (raw : Bytes) (n : ℤ), parseStaleAfterAnnotation raw = some n →
    StaleFrom raw n ∧ RaisingKeepsFresh raw n := by
  intro hall
  have hraw : parseStaleAfterAnnotation [51, 48, 55, 52, 52, 53, 55, 51, 53] = some 307445735 := by decide
  have hwatched : Watched [51, 48, 55, 52, 52, 53, 55, 51, 53] [] [] 0
      { ns := "team", name := "db", uid := "u1", status := .synced, lastSyncTime := some 0,
        staleAfterMinutes := some 307445735 } := ⟨.inl hraw.symm, rfl, rfl⟩
  have hwrapped : toDuration (307445735 * minute) ≤ timeSub (27 * second) 0 := by decide
  have hstale := (status_eq_stale_iff hraw hwatched).mpr hwrapped
  have hage := ((hall _ _ hraw).1 [] [] (27 * second) 0 _ hwatched).mp hstale
  exact absurd hage (by decide)

end KubeCenter.ExternalSecrets
