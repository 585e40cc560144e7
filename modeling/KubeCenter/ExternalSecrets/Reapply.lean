import KubeCenter.ExternalSecrets.Types

/-! What resolving the thresholds of already resolved ExternalSecrets changes. -/

namespace KubeCenter.ExternalSecrets

section

variable {α : Type} {valid : α → Bool} {d : α} {esValue : Option α} {store : Option (SecretStore × ThresholdSource)}
  {extract : SecretStore → Option α}

variable (valid) in
theorem resolveKey_valid (hd : valid d = true) : valid (resolveKey valid esValue store extract d).1 = true := by
  unfold resolveKey
  split
  · next v hv => exact (Option.filter_eq_some_iff.mp hv).2
  · split
    · exact hd
    · split
      · next v hv => exact (Option.filter_eq_some_iff.mp hv).2
      · exact hd

theorem resolveKey_source (hstore : ∀ s source, store = some (s, source) → source ≠ .externalSecret) :
    (resolveKey valid esValue store extract d).2 = .externalSecret ↔ ∃ v ∈ esValue, valid v = true := by
  unfold resolveKey
  split
  · next v hv =>
    have hmem := Option.filter_eq_some_iff.mp hv
    exact ⟨fun _ ↦ ⟨v, hmem.1, hmem.2⟩, fun _ ↦ rfl⟩
  · next hnone =>
    have hno : ¬ ∃ v ∈ esValue, valid v = true := fun ⟨v, hv, hvalid⟩ ↦
      Option.filter_eq_none_iff.mp hnone v hv hvalid
    split
    · exact ⟨fun h ↦ (nomatch h), fun h ↦ (hno h).elim⟩
    · next s source =>
      split
      · exact ⟨fun h ↦ (hstore s source rfl h).elim, fun h ↦ (hno h).elim⟩
      · exact ⟨fun h ↦ (nomatch h), fun h ↦ (hno h).elim⟩

end

variable {es b : ExternalSecret} {stores clusterStores : List SecretStore} {now now' : ℤ}

theorem referencedStore_source {s : SecretStore} {source : ThresholdSource}
    (h : referencedStore es stores clusterStores = some (s, source)) : source ≠ .externalSecret := by
  unfold referencedStore at h
  split at h
  · obtain ⟨_, -, heq⟩ := Option.map_eq_some_iff.mp h
    cases heq
    exact nofun
  · split at h
    · obtain ⟨_, -, heq⟩ := Option.map_eq_some_iff.mp h
      cases heq
      exact nofun
    · cases h

theorem min_le_resolveIntKey {esValue : Option ℤ} {store : Option (SecretStore × ThresholdSource)}
    {extract : SecretStore → Option ℤ} {d : ℤ} (hd : minStaleAfterMinutes ≤ d) :
    minStaleAfterMinutes ≤ (resolveIntKey esValue store extract d).1 :=
  of_decide_eq_true (resolveKey_valid (fun v ↦ decide (minStaleAfterMinutes ≤ v)) (decide_eq_true hd))

theorem min_le_computeStaleDefault (refreshInterval : String) :
    minStaleAfterMinutes ≤ computeStaleDefault refreshInterval := by
  unfold computeStaleDefault
  split
  · decide
  · split
    · decide
    · exact Int.le_max_left _ _

/-! ## The status -/

/-- In sync when the clock says `now`, stale when it says `now'`. -/
def TurnsStale (now now' : ℤ) (es : ExternalSecret) : Prop :=
  es.status = .synced ∧ es.driftStatus ≠ .drifted ∧ isStale es now = false ∧ isStale es now' = true

instance : Decidable (TurnsStale now now' es) := inferInstanceAs (Decidable (_ ∧ _))

theorem deriveStatus_again :
    deriveStatus { b with status := deriveStatus b now } now' = deriveStatus b now ↔ ¬ TurnsStale now now' b := by
  by_cases hsync : b.status = .synced
  · have hstale : isStale { b with status := deriveStatus b now } now' = isStale b now' := rfl
    rw [deriveStatus_synced hsync] at hstale ⊢
    by_cases hnow : isStale b now = true
    · rw [if_pos hnow, deriveStatus_of_ne (show Status.stale ≠ .synced from nofun)]
      simp [TurnsStale, hnow]
    · rw [if_neg hnow] at hstale ⊢
      by_cases hdrift : b.driftStatus = .drifted
      · rw [if_pos hdrift, deriveStatus_of_ne (show Status.drifted ≠ .synced from nofun)]
        simp [TurnsStale, hdrift]
      · rw [if_neg hdrift] at hstale ⊢
        rw [deriveStatus_synced rfl, hstale]
        simp [TurnsStale, hsync, hdrift, hnow]
  · rw [deriveStatus_of_ne hsync, deriveStatus_of_ne hsync]
    exact ⟨fun _ h ↦ hsync h.1, fun _ ↦ rfl⟩

/-! ## One ExternalSecret -/

/-- The ExternalSecret sets every key itself. -/
structure SetsAll (es : ExternalSecret) : Prop where
  staleAfterMinutes : ∃ v ∈ es.staleAfterMinutes, minStaleAfterMinutes ≤ v
  alertOnRecovery : es.alertOnRecovery.isSome = true
  alertOnLifecycle : es.alertOnLifecycle.isSome = true

theorem resolveThresholds_of_set {r : ExternalSecret} {v : ℤ} {recovery lifecycle : Bool}
    (hstale : r.staleAfterMinutes = some v) (hv : minStaleAfterMinutes ≤ v) (hrecovery : r.alertOnRecovery = some recovery)
    (hlifecycle : r.alertOnLifecycle = some lifecycle) :
    resolveThresholds stores clusterStores now r =
      { r with
        staleAfterMinutesSource := some .externalSecret
        alertOnRecoverySource := some .externalSecret
        alertOnLifecycleSource := some .externalSecret
        status := deriveStatus r now } := by
  have hkeep (b : Bool) (store : Option (SecretStore × ThresholdSource)) (extract : SecretStore → Option Bool) (d : Bool) :
      resolveBoolKey (some b) store extract d = (b, .externalSecret) := resolveKey_es rfl
  cases r
  cases hstale
  cases hrecovery
  cases hlifecycle
  simp only [resolveThresholds, resolveIntKey_es hv, hkeep]
  rfl

/-- The second time every key is the ExternalSecret's own. -/
theorem resolveThresholds_again :
    resolveThresholds stores clusterStores now' (resolveThresholds stores clusterStores now es) =
      { resolveThresholds stores clusterStores now es with
        staleAfterMinutesSource := some .externalSecret
        alertOnRecoverySource := some .externalSecret
        alertOnLifecycleSource := some .externalSecret
        status := deriveStatus (resolveThresholds stores clusterStores now es) now' } := by
  refine resolveThresholds_of_set resolveThresholds_staleAfterMinutes ?_ rfl rfl
  exact min_le_resolveIntKey (min_le_computeStaleDefault es.refreshInterval)

theorem update_eq_self_iff {r : ExternalSecret} {source : Option ThresholdSource} {status : Status} :
    { r with
        staleAfterMinutesSource := source
        alertOnRecoverySource := source
        alertOnLifecycleSource := source
        status } = r ↔
      (r.staleAfterMinutesSource = source ∧ r.alertOnRecoverySource = source ∧ r.alertOnLifecycleSource = source) ∧
        status = r.status := by
  cases r
  simp only [ExternalSecret.mk.injEq, true_and]
  constructor
  · rintro ⟨rfl, rfl, rfl, rfl⟩
    exact ⟨⟨rfl, rfl, rfl⟩, rfl⟩
  · rintro ⟨⟨rfl, rfl, rfl⟩, rfl⟩
    exact ⟨rfl, rfl, rfl, rfl⟩

theorem setsAll_iff : SetsAll es ↔
    (resolveThresholds stores clusterStores now es).staleAfterMinutesSource = some .externalSecret ∧
      (resolveThresholds stores clusterStores now es).alertOnRecoverySource = some .externalSecret ∧
      (resolveThresholds stores clusterStores now es).alertOnLifecycleSource = some .externalSecret := by
  have hstore : ∀ s source, referencedStore es stores clusterStores = some (s, source) → source ≠ .externalSecret :=
    fun _ _ ↦ referencedStore_source
  have hstale : (∃ v ∈ es.staleAfterMinutes, minStaleAfterMinutes ≤ v) ↔
      (resolveThresholds stores clusterStores now es).staleAfterMinutesSource = some .externalSecret := by
    refine Iff.trans ?_ (Option.some_inj.trans (resolveKey_source hstore)).symm
    simp
  have hbool (esValue : Option Bool) (extract : SecretStore → Option Bool) (d : Bool) : esValue.isSome = true ↔
      some (resolveBoolKey esValue (referencedStore es stores clusterStores) extract d).2 = some .externalSecret := by
    refine Iff.trans ?_ (Option.some_inj.trans (resolveKey_source hstore)).symm
    simp [Option.isSome_iff_exists]
  constructor
  · exact fun h ↦ ⟨hstale.mp h.staleAfterMinutes, (hbool _ _ _).mp h.alertOnRecovery, (hbool _ _ _).mp h.alertOnLifecycle⟩
  · exact fun h ↦ ⟨hstale.mpr h.1, (hbool _ _ _).mpr h.2.1, (hbool _ _ _).mpr h.2.2⟩

/-- Where the ExternalSecret sets its threshold, that is the one its status goes by. -/
theorem resolveThresholds_status_again (hset : SetsAll es) :
    deriveStatus (resolveThresholds stores clusterStores now es) now' = (resolveThresholds stores clusterStores now es).status ↔
      ¬ TurnsStale now now' es := by
  obtain ⟨v, hv, hmin⟩ := hset.staleAfterMinutes
  have hv : es.staleAfterMinutes = some v := hv
  have hsame : (resolveThresholds stores clusterStores now es).staleAfterMinutes = es.staleAfterMinutes := by
    rw [resolveThresholds_staleAfterMinutes, hv, resolveIntKey_es hmin]
  have hself : ({ es with staleAfterMinutes := (resolveThresholds stores clusterStores now es).staleAfterMinutes } :
      ExternalSecret) = es := by
    rw [hsame]
  have hstatus : (resolveThresholds stores clusterStores now es).status = deriveStatus es now := by
    rw [resolveThresholds_status, hself]
  have hagain : deriveStatus (resolveThresholds stores clusterStores now es) now' =
      deriveStatus { es with
        status := deriveStatus es now
        staleAfterMinutes := (resolveThresholds stores clusterStores now es).staleAfterMinutes } now' := by
    rw [← hstatus]
    rfl
  rw [hagain, hstatus, hsame]
  exact deriveStatus_again

theorem resolveThresholds_again_iff :
    resolveThresholds stores clusterStores now' (resolveThresholds stores clusterStores now es) =
      resolveThresholds stores clusterStores now es ↔ SetsAll es ∧ ¬ TurnsStale now now' es := by
  rw [resolveThresholds_again, update_eq_self_iff, ← setsAll_iff]
  exact and_congr_right (fun hset ↦ resolveThresholds_status_again hset)

/-! ## Lists -/

/-- Applying the thresholds again changes nothing exactly where every ExternalSecret sets every key itself and none has
come of stale age since. -/
theorem applyThresholds_again_iff (ess : List ExternalSecret) (stores clusterStores : List SecretStore) (now now' : ℤ) :
    applyThresholds (applyThresholds ess stores clusterStores now) stores clusterStores now' =
      applyThresholds ess stores clusterStores now ↔ ∀ es ∈ ess, SetsAll es ∧ ¬ TurnsStale now now' es := by
  rw [applyThresholds, applyThresholds, List.map_map, List.map_inj_left]
  exact forall₂_congr (fun _ _ ↦ resolveThresholds_again_iff)

/-- The second time the default counts as the ExternalSecret's own. -/
theorem not_applyThresholds_again : ¬ ∀ (ess : List ExternalSecret) (stores clusterStores : List SecretStore) (now : ℤ),
    applyThresholds (applyThresholds ess stores clusterStores now) stores clusterStores now =
      applyThresholds ess stores clusterStores now := by
  intro h
  have hsame := h [{ ns := "team", name := "db", uid := "u1", status := .synced }] [] [] 0
  exact absurd hsame (by decide)

end KubeCenter.ExternalSecrets
