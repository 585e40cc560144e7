import KubeCenter.Core.GoString
import KubeCenter.CertManager.Thresholds

/-! What every certificate's thresholds come from, and that its status, the list of expiring certificates and the
poller's bucket agree on them. -/

namespace KubeCenter.CertManager

open KubeCenter.Core

/-- A certificate as it is listed, with the clock readings of its normalization. -/
structure Reading where
  object : CertificateObject
  untilNow : ℤ
  now : ℤ
  ordered : untilNow ≤ now

def Reading.base (r : Reading) : Certificate := normalizeCertificate r.untilNow r.now r.object

/-- What the API server lists: each object once, issuers under names without a slash. -/
structure Inventory where
  certificates : List Reading
  issuers : List IssuerObject
  clusterIssuers : List IssuerObject
  distinct : (certificates.map (fun r ↦ r.object.uid)).Nodup
  segment : ∀ iss ∈ issuers, '/' ∉ iss.ns.toList ∧ '/' ∉ iss.name.toList
  unique : ∀ iss ∈ issuers, ∀ iss' ∈ issuers, iss.ns = iss'.ns → iss.name = iss'.name → iss = iss'
  uniqueName : ∀ iss ∈ clusterIssuers, ∀ iss' ∈ clusterIssuers, iss.name = iss'.name → iss = iss'

namespace Inventory

variable (inv : Inventory)

/-- The certificate after `ApplyThresholds`. -/
def applied (r : Reading) : Certificate :=
  applyThreshold (inv.issuers.map normalizeIssuer) (inv.clusterIssuers.map normalizeIssuer) r.base

def certs : List Certificate :=
  applyThresholds (inv.certificates.map Reading.base) (inv.issuers.map normalizeIssuer)
    (inv.clusterIssuers.map normalizeIssuer)

/-- The certificate's reference names the issuer, at the layer of its kind. -/
def Refers (u : CertificateObject) (iss : IssuerObject) (source : ThresholdSource) : Prop :=
  u.issuerRef.kind = "Issuer" ∧ source = .issuer ∧ iss ∈ inv.issuers ∧ iss.ns = u.ns ∧ iss.name = u.issuerRef.name ∨
    u.issuerRef.kind = "ClusterIssuer" ∧ source = .clusterIssuer ∧ iss ∈ inv.clusterIssuers ∧
      iss.name = u.issuerRef.name

/-- The value and its source are those of the most specific layer whose annotation is accepted. -/
inductive Layered (u : CertificateObject) (key : String) (default : ℤ) : ℤ → ThresholdSource → Prop
  | certificate (v : ℤ) : readThresholdAnnotations u.annotations key = some v → Layered u key default v .certificate
  | issuer (v : ℤ) (iss : IssuerObject) (source : ThresholdSource) :
      readThresholdAnnotations u.annotations key = none → inv.Refers u iss source →
      readThresholdAnnotations iss.annotations key = some v → Layered u key default v source
  | default : readThresholdAnnotations u.annotations key = none →
      (∀ iss source, inv.Refers u iss source → readThresholdAnnotations iss.annotations key = none) →
      Layered u key default default .default

end Inventory

/-! ## Values -/

theorem readThresholdAnnotations_pos {annotations : GoMap String Bytes} {key : String} {v : ℤ}
    (h : readThresholdAnnotations annotations key = some v) : 0 < v := by
  unfold readThresholdAnnotations parseThresholdAnnotation at h
  split at h
  · cases h
  · split at h
    · cases h
    · cases h
      omega

theorem resolveThresholdKey_cases {certValue : Option ℤ} {iss : Option (Issuer × ThresholdSource)} {d : ℤ}
    {extract : Issuer → Option ℤ} (hcert : ∀ v ∈ certValue, 0 < v)
    (hiss : ∀ p ∈ iss, ∀ v ∈ extract p.1, 0 < v) :
    (∃ v, certValue = some v ∧ resolveThresholdKey (certValue.getD 0) iss d extract = (v, .certificate)) ∨
    certValue = none ∧ ((∃ p v, iss = some p ∧ extract p.1 = some v ∧
        resolveThresholdKey (certValue.getD 0) iss d extract = (v, p.2)) ∨
      (∀ p ∈ iss, extract p.1 = none) ∧ resolveThresholdKey (certValue.getD 0) iss d extract = (d, .default)) := by
  cases hc : certValue with
  | some v => exact .inl ⟨v, rfl, if_pos (hcert v hc)⟩
  | none =>
    refine .inr ⟨rfl, ?_⟩
    cases hi : iss with
    | none => exact .inr ⟨nofun, rfl⟩
    | some p =>
      cases he : extract p.1 with
      | none =>
        refine .inr ⟨fun q hq ↦ ?_, ?_⟩
        · cases hq
          exact he
        · simp [resolveThresholdKey, he]
      | some v =>
        have hpos : 0 < v := hiss p hi v he
        exact .inl ⟨p, v, rfl, he, by simp [resolveThresholdKey, he, Option.filter, hpos]⟩

/-! ## Days -/

/-- A certificate that has not expired has no negative number of days. -/
theorem daysUntil_nonneg {t untilNow now : ℤ} (hle : untilNow ≤ now) (ht : ¬t < now) : 0 ≤ daysUntil t untilNow := by
  refine Int.ediv_nonneg ?_ (by decide)
  unfold timeSub
  omega

theorem not_expired_of_ready {readyStatus reason : String} {notAfter : Option ℤ} {now : ℤ}
    (h : computeStatus readyStatus reason notAfter now = .ready) : ∀ t ∈ notAfter, ¬t < now := by
  intro t ht hlt
  unfold computeStatus at h
  rw [if_pos (Option.any_eq_true _ _ |>.mpr ⟨t, ht, decide_eq_true hlt⟩)] at h
  cases h

theorem deriveStatus_iff {c : Certificate} (hready : c.status = .ready) :
    deriveStatus c = .expiring ↔ ∃ days ∈ c.daysRemaining, days ≤ effectiveWarn c := by
  unfold deriveStatus
  rw [if_neg (fun h ↦ h hready), hready]
  cases c.daysRemaining with
  | none => simp
  | some days => simp

/-- Below the warning threshold the bucket is one of the two, as long as no day is negative. -/
theorem thresholdBucket_iff {c : Certificate} (hdays : ∀ days ∈ c.daysRemaining, 0 ≤ days)
    (hlt : effectiveCrit c < effectiveWarn c) :
    thresholdBucket c = .warning ∨ thresholdBucket c = .critical ↔
      ∃ days ∈ c.daysRemaining, days ≤ effectiveWarn c := by
  unfold thresholdBucket
  cases hc : c.daysRemaining with
  | none => simp
  | some days =>
    have hnonneg : ¬days < 0 := Int.not_lt.mpr (hdays days hc)
    simp only [if_neg hnonneg, Option.mem_def, Option.some.injEq, exists_eq_left']
    by_cases hcrit : days ≤ effectiveCrit c
    · simp only [if_pos hcrit, reduceCtorEq, or_true, true_iff]
      exact Int.le_of_lt (Int.lt_of_le_of_lt hcrit hlt)
    · by_cases hwarn : days ≤ effectiveWarn c
      · simp [if_neg hcrit, hwarn]
      · simp [if_neg hcrit, hwarn]

theorem mem_listExpiring {canAccess : String → Bool} {certificates : List Certificate} {e : ExpiringCertificate} :
    e ∈ listExpiring canAccess certificates ↔
      ∃ c ∈ certificates, canAccess c.ns ∧ expiringCertificate c = some e := by
  simp [listExpiring, and_assoc]

theorem exists_expiringCertificate {c : Certificate} :
    (∃ e, expiringCertificate c = some e) ↔ ∃ days ∈ c.daysRemaining, days ≤ effectiveWarn c := by
  unfold expiringCertificate
  cases c.daysRemaining with
  | none => simp
  | some days => simp [Option.filter_eq_some_iff]

theorem uid_expiringCertificate {c : Certificate} {e : ExpiringCertificate} (h : expiringCertificate c = some e) :
    e.uid = c.uid := by
  obtain ⟨days, -, rfl⟩ := Option.map_eq_some_iff.mp h
  rfl

/-! ## Layers -/

namespace Inventory

variable {inv : Inventory} {u : CertificateObject}

theorem issuerKey_iff {iss : IssuerObject} (hiss : iss ∈ inv.issuers) {ns name : String} :
    iss.ns ++ "/" ++ iss.name = ns ++ "/" ++ name ↔ iss.ns = ns ∧ iss.name = name :=
  key_inj (inv.segment iss hiss).1 (inv.segment iss hiss).2

theorem lookup_issuer {iss' : Issuer} (ns name : String) :
    (indexIssuersByNamespacedName (inv.issuers.map normalizeIssuer)).lookup (ns ++ "/" ++ name) = some iss' ↔
      ∃ iss ∈ inv.issuers, (iss.ns = ns ∧ iss.name = name) ∧ normalizeIssuer iss = iss' := by
  unfold indexIssuersByNamespacedName
  constructor
  · intro h
    obtain ⟨found, hfound, hkey, rfl⟩ := GoMap.mem_of_lookup_indexBy h
    obtain ⟨iss, hiss, rfl⟩ := List.mem_map.mp hfound
    exact ⟨iss, hiss, (issuerKey_iff hiss).mp hkey, rfl⟩
  · rintro ⟨iss, hiss, hnames, rfl⟩
    refine GoMap.lookup_indexBy_eq_some ?_ (List.mem_map_of_mem hiss) ((issuerKey_iff hiss).mpr hnames)
    intro i hi j hj hkey
    obtain ⟨a, ha, rfl⟩ := List.mem_map.mp hi
    obtain ⟨b, hb, rfl⟩ := List.mem_map.mp hj
    obtain ⟨hns, hname⟩ := (issuerKey_iff ha).mp hkey
    rw [inv.unique a ha b hb hns hname]

theorem lookup_clusterIssuer {iss' : Issuer} (name : String) :
    (indexByName (inv.clusterIssuers.map normalizeIssuer)).lookup name = some iss' ↔
      ∃ iss ∈ inv.clusterIssuers, iss.name = name ∧ normalizeIssuer iss = iss' := by
  unfold indexByName
  constructor
  · intro h
    obtain ⟨found, hfound, hkey, rfl⟩ := GoMap.mem_of_lookup_indexBy h
    obtain ⟨iss, hiss, rfl⟩ := List.mem_map.mp hfound
    exact ⟨iss, hiss, hkey, rfl⟩
  · rintro ⟨iss, hiss, hname, rfl⟩
    refine GoMap.lookup_indexBy_eq_some ?_ (List.mem_map_of_mem hiss) hname
    intro i hi j hj hkey
    obtain ⟨a, ha, rfl⟩ := List.mem_map.mp hi
    obtain ⟨b, hb, rfl⟩ := List.mem_map.mp hj
    rw [inv.uniqueName a ha b hb hkey]

theorem referencedIssuer_iff {p : Issuer × ThresholdSource} :
    referencedIssuer (inv.issuers.map normalizeIssuer) (inv.clusterIssuers.map normalizeIssuer) u.ns u.issuerRef =
      some p ↔ ∃ iss, inv.Refers u iss p.2 ∧ normalizeIssuer iss = p.1 := by
  obtain ⟨iss', source⟩ := p
  unfold referencedIssuer Refers
  by_cases hkind : u.issuerRef.kind = "Issuer"
  · have hcluster : u.issuerRef.kind ≠ "ClusterIssuer" := by
      rw [hkind]
      decide
    rw [if_pos hkind, Option.map_eq_some_iff]
    constructor
    · rintro ⟨found, hfound, heq⟩
      cases heq
      obtain ⟨iss, hiss, hnames, hnorm⟩ := (lookup_issuer _ _).mp hfound
      exact ⟨iss, .inl ⟨hkind, rfl, hiss, hnames⟩, hnorm⟩
    · rintro ⟨iss, ⟨-, rfl, hiss, hnames⟩ | ⟨hother, -⟩, hnorm⟩
      · exact ⟨iss', (lookup_issuer _ _).mpr ⟨iss, hiss, hnames, hnorm⟩, rfl⟩
      · exact (hcluster hother).elim
  · rw [if_neg hkind]
    by_cases hcluster : u.issuerRef.kind = "ClusterIssuer"
    · rw [if_pos hcluster, Option.map_eq_some_iff]
      constructor
      · rintro ⟨found, hfound, heq⟩
        cases heq
        obtain ⟨iss, hiss, hname, hnorm⟩ := (lookup_clusterIssuer _).mp hfound
        exact ⟨iss, .inr ⟨hcluster, rfl, hiss, hname⟩, hnorm⟩
      · rintro ⟨iss, ⟨hother, -⟩ | ⟨-, rfl, hiss, hname⟩, hnorm⟩
        · exact (hkind hother).elim
        · exact ⟨iss', (lookup_clusterIssuer _).mpr ⟨iss, hiss, hname, hnorm⟩, rfl⟩
    · rw [if_neg hcluster]
      constructor
      · exact nofun
      · rintro ⟨iss, ⟨hother, -⟩ | ⟨hother, -⟩, -⟩
        · exact (hkind hother).elim
        · exact (hcluster hother).elim

/-- Resolving a key walks the layers. -/
theorem layered_resolve (inv : Inventory) (u : CertificateObject) (key : String) (d : ℤ)
    (extract : Issuer → Option ℤ)
    (hextract : ∀ iss, extract (normalizeIssuer iss) = readThresholdAnnotations iss.annotations key) :
    let r := resolveThresholdKey ((readThresholdAnnotations u.annotations key).getD 0)
      (referencedIssuer (inv.issuers.map normalizeIssuer) (inv.clusterIssuers.map normalizeIssuer) u.ns u.issuerRef)
      d extract
    inv.Layered u key d r.1 r.2 := by
  intro r
  have hpos : ∀ p ∈ referencedIssuer (inv.issuers.map normalizeIssuer) (inv.clusterIssuers.map normalizeIssuer) u.ns
      u.issuerRef, ∀ v ∈ extract p.1, 0 < v := by
    intro p hp v hv
    obtain ⟨iss, -, hnorm⟩ := referencedIssuer_iff.mp hp
    rw [← hnorm, hextract] at hv
    exact readThresholdAnnotations_pos hv
  obtain ⟨v, hv, hr⟩ | ⟨hnone, ⟨p, v, hp, hv, hr⟩ | ⟨hno, hr⟩⟩ :=
    resolveThresholdKey_cases (d := d) (fun v hv ↦ readThresholdAnnotations_pos hv) hpos
  · rw [show r = _ from hr]
    exact .certificate v hv
  · rw [show r = _ from hr]
    obtain ⟨iss, hrefers, hnorm⟩ := referencedIssuer_iff.mp hp
    rw [← hnorm, hextract] at hv
    exact .issuer v iss p.2 hnone hrefers hv
  · rw [show r = _ from hr]
    refine .default hnone (fun iss source hrefers ↦ ?_)
    rw [← hextract]
    exact hno (normalizeIssuer iss, source) (referencedIssuer_iff.mpr ⟨iss, hrefers, rfl⟩)

theorem Layered.pos {key : String} {d v : ℤ} {source : ThresholdSource} (hd : 0 < d) (h : inv.Layered u key d v source) :
    0 < v := by
  cases h with
  | certificate _ hv => exact readThresholdAnnotations_pos hv
  | issuer _ _ _ _ _ hv => exact readThresholdAnnotations_pos hv
  | default => exact hd

/-- The thresholds are those of their layers where the critical one is the lower, and the defaults otherwise. -/
structure ThresholdsOk (inv : Inventory) (r : Reading) (c : Certificate) : Prop where
  crit_pos : 0 < c.criticalThresholdDays
  crit_lt_warn : c.criticalThresholdDays < c.warningThresholdDays
  layers : ∃ warn crit warnSource critSource,
    inv.Layered r.object annotationWarnThreshold defaultWarningThresholdDays warn warnSource ∧
    inv.Layered r.object annotationCriticalThreshold defaultCriticalThresholdDays crit critSource ∧
    (crit < warn ∧ c.warningThresholdDays = warn ∧ c.criticalThresholdDays = crit ∧
        c.warningThresholdSource = some warnSource ∧ c.criticalThresholdSource = some critSource ∧
        c.thresholdConflict = false ∨
      warn ≤ crit ∧ c.warningThresholdDays = defaultWarningThresholdDays ∧
        c.criticalThresholdDays = defaultCriticalThresholdDays ∧ c.thresholdConflict = true)

theorem thresholdsOk_applied (inv : Inventory) (r : Reading) : ThresholdsOk inv r (inv.applied r) := by
  have hwarn := layered_resolve inv r.object annotationWarnThreshold defaultWarningThresholdDays
    Issuer.warningThresholdDays (fun _ ↦ rfl)
  have hcrit := layered_resolve inv r.object annotationCriticalThreshold defaultCriticalThresholdDays
    Issuer.criticalThresholdDays (fun _ ↦ rfl)
  have hcritPos := hcrit.pos (by decide)
  change ThresholdsOk inv r (applyThreshold _ _ _)
  unfold applyThreshold resolveCertThresholdsDetailed
  by_cases hle : (resolveThresholdKey r.base.warningThresholdDays
      (referencedIssuer (inv.issuers.map normalizeIssuer) (inv.clusterIssuers.map normalizeIssuer) r.base.ns
        r.base.issuerRef) defaultWarningThresholdDays Issuer.warningThresholdDays).1 ≤
      (resolveThresholdKey r.base.criticalThresholdDays
      (referencedIssuer (inv.issuers.map normalizeIssuer) (inv.clusterIssuers.map normalizeIssuer) r.base.ns
        r.base.issuerRef) defaultCriticalThresholdDays Issuer.criticalThresholdDays).1
  · simp only [if_pos hle]
    have hpos : 0 < defaultCriticalThresholdDays := by decide
    have hlt : defaultCriticalThresholdDays < defaultWarningThresholdDays := by decide
    exact ⟨hpos, hlt, _, _, _, _, hwarn, hcrit, .inr ⟨hle, rfl, rfl, rfl⟩⟩
  · simp only [if_neg hle]
    have hlt := Int.not_le.mp hle
    exact ⟨hcritPos, hlt, _, _, _, _, hwarn, hcrit, .inl ⟨hlt, rfl, rfl, rfl, rfl, rfl⟩⟩

/-! ## Agreement -/

theorem uid_applied (r : Reading) : (inv.applied r).uid = r.object.uid := rfl

theorem daysRemaining_applied (r : Reading) :
    (inv.applied r).daysRemaining = r.object.notAfter.map (fun t ↦ daysUntil t r.untilNow) := rfl

theorem certs_eq : inv.certs = inv.certificates.map inv.applied :=
  List.map_map

/-- The status, the list of expiring certificates of whom may see it and the poller's bucket agree. -/
structure Agrees (inv : Inventory) (canAccess : String → Bool) (c : Certificate) : Prop where
  listed : c.status = .expiring ↔ ∃ e ∈ listExpiring canAccess inv.certs, e.uid = c.uid
  bucket : c.status = .expiring ↔ thresholdBucket c = .warning ∨ thresholdBucket c = .critical

theorem daysRemaining_nonneg {r : Reading} (hready : r.base.status = .ready) :
    ∀ days ∈ (inv.applied r).daysRemaining, 0 ≤ days := by
  intro days hdays
  rw [daysRemaining_applied, Option.mem_def, Option.map_eq_some_iff] at hdays
  obtain ⟨t, ht, rfl⟩ := hdays
  exact daysUntil_nonneg r.ordered (not_expired_of_ready hready t ht)

theorem effectiveCrit_lt_effectiveWarn (r : Reading) :
    effectiveCrit (inv.applied r) < effectiveWarn (inv.applied r) := by
  have h := thresholdsOk_applied inv r
  unfold effectiveCrit effectiveWarn
  rw [if_pos h.crit_pos, if_pos (Int.lt_trans h.crit_pos h.crit_lt_warn)]
  exact h.crit_lt_warn

/-- The overlay of a ready certificate's status. -/
theorem status_applied {r : Reading} (hready : r.base.status = .ready) :
    (inv.applied r).status = .expiring ↔
      ∃ days ∈ (inv.applied r).daysRemaining, days ≤ effectiveWarn (inv.applied r) :=
  deriveStatus_iff hready

theorem listed_iff {canAccess : String → Bool} {r : Reading} (hr : r ∈ inv.certificates)
    (haccess : canAccess r.object.ns) :
    (∃ e ∈ listExpiring canAccess inv.certs, e.uid = (inv.applied r).uid) ↔
      ∃ days ∈ (inv.applied r).daysRemaining, days ≤ effectiveWarn (inv.applied r) := by
  rw [← exists_expiringCertificate]
  constructor
  · rintro ⟨e, he, huid⟩
    obtain ⟨c, hc, -, hce⟩ := mem_listExpiring.mp he
    rw [certs_eq] at hc
    obtain ⟨r', hr', rfl⟩ := List.mem_map.mp hc
    rw [uid_expiringCertificate hce, uid_applied, uid_applied] at huid
    rw [← List.inj_on_of_nodup_map inv.distinct hr' hr huid]
    exact ⟨e, hce⟩
  · rintro ⟨e, he⟩
    refine ⟨e, mem_listExpiring.mpr ⟨inv.applied r, ?_, haccess, he⟩, uid_expiringCertificate he⟩
    rw [certs_eq]
    exact List.mem_map_of_mem hr

theorem agrees_applied {canAccess : String → Bool} {r : Reading} (hr : r ∈ inv.certificates)
    (hready : r.base.status = .ready) (haccess : canAccess r.object.ns) : Agrees inv canAccess (inv.applied r) where
  listed := (status_applied hready).trans (listed_iff hr haccess).symm
  bucket := (status_applied hready).trans
    (thresholdBucket_iff (daysRemaining_nonneg hready) (effectiveCrit_lt_effectiveWarn r)).symm

/-- Every certificate's thresholds are in order and from their layers, and where it is ready everything that goes by
them agrees. -/
theorem thresholds_agree (inv : Inventory) {r : Reading} (hr : r ∈ inv.certificates) :
    inv.applied r ∈ inv.certs ∧ ThresholdsOk inv r (inv.applied r) ∧
      (r.base.status = .ready → ∀ canAccess : String → Bool, canAccess r.object.ns →
        Agrees inv canAccess (inv.applied r)) := by
  refine ⟨?_, thresholdsOk_applied inv r, fun hready canAccess haccess ↦ agrees_applied hr hready haccess⟩
  rw [certs_eq]
  exact List.mem_map_of_mem hr

/-- A ready certificate with ten days left, and its issuer. -/
def tenDaysLeft : Reading where
  object :=
    { name := "web", ns := "shop", uid := "c1", issuerRef := { name := "ca", kind := "Issuer" }
      notAfter := some (10 * day), readyStatus := "True" }
  untilNow := 0
  now := 0
  ordered := Int.le_refl 0

def shopInventory : Inventory where
  certificates := [tenDaysLeft]
  issuers := [{ name := "ca", ns := "shop" }]
  clusterIssuers := []
  distinct := List.nodup_singleton _
  segment := by decide
  unique := by
    intro iss hiss iss' hiss' _ _
    rw [List.mem_singleton.mp hiss, List.mem_singleton.mp hiss']
  uniqueName := nofun

theorem thresholds_agree_shop :
    ThresholdsOk shopInventory tenDaysLeft (shopInventory.applied tenDaysLeft) ∧
      Agrees shopInventory (fun _ ↦ true) (shopInventory.applied tenDaysLeft) := by
  obtain ⟨-, hok, hagrees⟩ := thresholds_agree shopInventory (List.mem_singleton_self tenDaysLeft)
  exact ⟨hok, hagrees (by decide) _ rfl⟩

end Inventory

end KubeCenter.CertManager
