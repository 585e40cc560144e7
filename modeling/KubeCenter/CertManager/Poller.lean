import KubeCenter.CertManager.ThresholdAgreement
import KubeCenter.Core.Runs
import KubeCenter.Notifications.Store

/-! The poller that notifies of certificates as they come near their expiry. -/

namespace KubeCenter.CertManager

open KubeCenter.Core
open KubeCenter.Notifications (Notification)

structure EmitRecord where
  certificate : Certificate
  severity : String
  threshold : Bucket
  deriving DecidableEq

/-- `dedupe` goes by UID and has the bucket last emitted. -/
structure Poller where
  dedupe : GoMap String Bucket := ∅

namespace Poller

def check (p : Poller) (c : Certificate) : List EmitRecord × Poller :=
  if c.notAfter = none ∨ c.daysRemaining = none then ([], p)
  else
    let bucket := thresholdBucket c
    if bucket = .none then ([], { p with dedupe := p.dedupe.erase c.uid })
    else if p.dedupe.lookup c.uid = some bucket then ([], p)
    else ([⟨c, bucket.text, bucket⟩], { p with dedupe := p.dedupe.insert c.uid bucket })

/-- The loop of a tick over the listed certificates. -/
def checkAll (p : Poller) : List Certificate → List EmitRecord × Poller
  | [] => ([], p)
  | c :: certs =>
    let (records, p') := p.check c
    let (rest, p'') := checkAll p' certs
    (records ++ rest, p'')

def prune (p : Poller) (certs : List Certificate) : Poller :=
  { p with dedupe := GoMap.filter (fun uid ↦ certs.any (fun c ↦ c.uid = uid)) p.dedupe }

/-- There is no list where cert-manager is not available or the list call fails. -/
def tick (p : Poller) : Option (List Certificate) → List EmitRecord × Poller
  | none => ([], p)
  | some certs =>
    let (records, p') := p.checkAll certs
    (records, p'.prune certs)

end Poller

def emit (rec : EmitRecord) : Notification where
  source := .certmanager
  severity := if rec.threshold = .expired ∨ rec.threshold = .critical then .critical else .warning
  title :=
    if rec.threshold = .expired then "Certificate expired (critical)"
    else "Certificate expiring (" ++ rec.severity ++ ")"
  message :=
    if rec.threshold = .expired then "A certificate has already expired"
    else "A certificate expires in " ++ toString (rec.certificate.daysRemaining.getD 0) ++ " day(s)"
  resourceKind := if rec.threshold = .expired then "certificate.expired" else "certificate.expiring"
  resourceNS := rec.certificate.ns
  resourceName := rec.certificate.name

/-! ## Runs -/

/-- Every tick's listing, where it got one, with what it notified of for which UID. -/
structure PollerRun where
  poller : Poller := {}
  log : List (Option Inventory × List (String × Notification)) := []

namespace PollerRun

def step (s : PollerRun) (listing : Option Inventory) : Option PollerRun :=
  let (records, poller) := s.poller.tick (listing.map Inventory.certs)
  some { poller, log := s.log ++ [(listing, records.map (fun rec ↦ (rec.certificate.uid, emit rec)))] }

/-- The memory of a UID after a listing: its bucket, except where it is none or the UID is not listed. -/
def remember (uid : String) (memory : Option Bucket) : Option Inventory → Option Bucket
  | none => memory
  | some inv => ((inv.certs.find? (fun c ↦ c.uid = uid)).map thresholdBucket).filter (fun bucket ↦ bucket ≠ .none)

/-- What a listing is to be notified of for a UID, with the memory that the listings before it leave. -/
def due (uid : String) (memory : Option Bucket) : Option Inventory → List (String × Notification)
  | none => []
  | some inv =>
    match inv.certs.find? (fun c ↦ c.uid = uid) with
    | none => []
    | some c =>
      let bucket := thresholdBucket c
      if bucket ≠ .none ∧ memory ≠ some bucket then [(uid, emit ⟨c, bucket.text, bucket⟩)] else []

def EdgeTriggered (uid : String) :
    Option Bucket → List (Option Inventory × List (String × Notification)) → Prop
  | _, [] => True
  | memory, (listing, sent) :: log =>
    sent.filter (fun n ↦ n.1 = uid) = due uid memory listing ∧ EdgeTriggered uid (remember uid memory listing) log

instance decidableEdgeTriggered (uid : String) : (memory : Option Bucket) →
    (log : List (Option Inventory × List (String × Notification))) → Decidable (EdgeTriggered uid memory log)
  | _, [] => .isTrue trivial
  | memory, (listing, _) :: log =>
    haveI := decidableEdgeTriggered uid (remember uid memory listing) log
    inferInstanceAs (Decidable (_ ∧ _))

def memoryAfter (uid : String) (log : List (Option Inventory × List (String × Notification))) : Option Bucket :=
  (log.map Prod.fst).foldl (remember uid) none

/-- Every UID is notified of exactly at its changes of bucket. -/
def Emits (s : PollerRun) : Prop := ∀ uid, EdgeTriggered uid none s.log

/-- No certificate has lost its expiry time while the poller has a bucket of it. -/
def KeepsExpiry (s : PollerRun) (listing : Option Inventory) : Prop :=
  ∀ inv ∈ listing, ∀ c ∈ inv.certs, c.daysRemaining = none → s.poller.dedupe.lookup c.uid = none

instance (s : PollerRun) (listing : Option Inventory) : Decidable (KeepsExpiry s listing) :=
  inferInstanceAs (Decidable (∀ inv ∈ listing, ∀ c ∈ inv.certs, _))

end PollerRun

/-! ## One certificate -/

namespace Poller

variable {p : Poller} {c : Certificate} {uid : String}

theorem check_of_ne (h : c.uid ≠ uid) :
    (p.check c).2.dedupe.lookup uid = p.dedupe.lookup uid ∧
      (p.check c).1.filter (fun rec ↦ rec.certificate.uid = uid) = [] := by
  unfold check
  split
  · exact ⟨rfl, rfl⟩
  · dsimp only
    split
    · exact ⟨AList.lookup_erase_ne h.symm, rfl⟩
    · split
      · exact ⟨rfl, rfl⟩
      · refine ⟨AList.lookup_insert_ne h.symm, ?_⟩
        rw [List.filter_cons_of_neg (by simpa using h), List.filter_nil]

/-- A certificate of a bucket is emitted where the memory has another one, and remembered. -/
theorem check_spec (hexpiry : c.notAfter = none ↔ c.daysRemaining = none)
    (hkeeps : c.daysRemaining = none → p.dedupe.lookup c.uid = none) :
    (p.check c).2.dedupe.lookup c.uid = (some (thresholdBucket c)).filter (fun bucket ↦ bucket ≠ .none) ∧
      (p.check c).1 =
        if thresholdBucket c ≠ .none ∧ p.dedupe.lookup c.uid ≠ some (thresholdBucket c) then
          [⟨c, (thresholdBucket c).text, thresholdBucket c⟩]
        else [] := by
  unfold check
  by_cases hnone : c.daysRemaining = none
  · have hbucket : thresholdBucket c = .none := by
      unfold thresholdBucket
      rw [hnone]
    rw [if_pos (.inr hnone), hbucket, hkeeps hnone]
    exact ⟨rfl, rfl⟩
  · rw [if_neg (fun h ↦ hnone (h.elim hexpiry.mp id))]
    dsimp only
    by_cases hbucket : thresholdBucket c = .none
    · rw [if_pos hbucket, hbucket]
      exact ⟨AList.lookup_erase _ _, rfl⟩
    · rw [if_neg hbucket, Option.filter_some_pos (by simpa using hbucket)]
      by_cases hsame : p.dedupe.lookup c.uid = some (thresholdBucket c)
      · rw [if_pos hsame, if_neg (fun h ↦ h.2 hsame)]
        exact ⟨hsame, rfl⟩
      · rw [if_neg hsame, if_pos ⟨hbucket, hsame⟩]
        exact ⟨AList.lookup_insert _, rfl⟩

/-! ## One listing -/

variable {certs : List Certificate}

theorem checkAll_of_not_listed (h : ∀ c ∈ certs, c.uid ≠ uid) :
    (p.checkAll certs).2.dedupe.lookup uid = p.dedupe.lookup uid ∧
      (p.checkAll certs).1.filter (fun rec ↦ rec.certificate.uid = uid) = [] := by
  induction certs generalizing p with
  | nil => exact ⟨rfl, rfl⟩
  | cons c certs ih =>
    obtain ⟨hlookup, hrecords⟩ := check_of_ne (p := p) (h c List.mem_cons_self)
    obtain ⟨hlookup', hrecords'⟩ := ih (p := (p.check c).2) (fun d hd ↦ h d (List.mem_cons_of_mem c hd))
    refine ⟨hlookup'.trans hlookup, ?_⟩
    unfold checkAll
    rw [List.filter_append, hrecords, hrecords', List.append_nil]

/-- A listed certificate is checked once, with the memory the listing began with. -/
theorem checkAll_of_mem (hdistinct : (certs.map Certificate.uid).Nodup) (hc : c ∈ certs) :
    ∃ q : Poller, q.dedupe.lookup c.uid = p.dedupe.lookup c.uid ∧
      (p.checkAll certs).2.dedupe.lookup c.uid = (q.check c).2.dedupe.lookup c.uid ∧
      (p.checkAll certs).1.filter (fun rec ↦ rec.certificate.uid = c.uid) =
        (q.check c).1.filter (fun rec ↦ rec.certificate.uid = c.uid) := by
  induction certs generalizing p with
  | nil => cases hc
  | cons d certs ih =>
    rw [List.map_cons, List.nodup_cons] at hdistinct
    unfold checkAll
    rw [List.filter_append]
    obtain rfl | hc := List.mem_cons.mp hc
    · have hothers : ∀ e ∈ certs, e.uid ≠ c.uid := fun e he heq ↦
        hdistinct.1 (heq ▸ List.mem_map_of_mem he)
      obtain ⟨hlookup, hrecords⟩ := checkAll_of_not_listed (p := (p.check c).2) hothers
      exact ⟨p, rfl, hlookup, by rw [hrecords, List.append_nil]⟩
    · have hne : d.uid ≠ c.uid := fun heq ↦ hdistinct.1 (heq ▸ List.mem_map_of_mem hc)
      obtain ⟨hlookup, hrecords⟩ := check_of_ne (p := p) hne
      obtain ⟨q, hq, hlookup', hrecords'⟩ := ih (p := (p.check d).2) hdistinct.2 hc
      exact ⟨q, hq.trans hlookup, hlookup', by rw [hrecords, hrecords', List.nil_append]⟩

theorem lookup_prune (p : Poller) (certs : List Certificate) (uid : String) :
    (p.prune certs).dedupe.lookup uid = if certs.any (fun c ↦ c.uid = uid) then p.dedupe.lookup uid else none :=
  GoMap.lookup_filter _ _ _

end Poller

namespace Inventory

theorem distinct_certs (inv : Inventory) : (inv.certs.map Certificate.uid).Nodup := by
  rw [certs_eq, List.map_map]
  exact inv.distinct

theorem notAfter_eq_none_iff {inv : Inventory} {c : Certificate} (hc : c ∈ inv.certs) :
    c.notAfter = none ↔ c.daysRemaining = none := by
  rw [certs_eq] at hc
  obtain ⟨r, -, rfl⟩ := List.mem_map.mp hc
  rw [daysRemaining_applied, Option.map_eq_none_iff]
  rfl

end Inventory

namespace PollerRun

/-- A tick leaves the memory and sends the notifications that are due, for every UID. -/
theorem tick_spec {p : Poller} {inv : Inventory} (hkeeps : ∀ c ∈ inv.certs, c.daysRemaining = none →
    p.dedupe.lookup c.uid = none) (uid : String) :
    (p.tick (some inv.certs)).2.dedupe.lookup uid = remember uid (p.dedupe.lookup uid) (some inv) ∧
      ((p.tick (some inv.certs)).1.map (fun rec ↦ (rec.certificate.uid, emit rec))).filter (fun n ↦ n.1 = uid) =
        due uid (p.dedupe.lookup uid) (some inv) := by
  unfold Poller.tick remember due
  dsimp only
  rw [List.filter_map, Poller.lookup_prune]
  cases hfind : inv.certs.find? (fun c ↦ c.uid = uid) with
  | none =>
    have hothers : ∀ c ∈ inv.certs, c.uid ≠ uid := by simpa using List.find?_eq_none.mp hfind
    have hany : ¬inv.certs.any (fun c ↦ c.uid = uid) := by simpa using hothers
    refine ⟨if_neg hany, ?_⟩
    rw [show (fun n : String × Notification ↦ decide (n.1 = uid)) ∘ (fun rec ↦ (rec.certificate.uid, emit rec)) =
      fun rec ↦ decide (rec.certificate.uid = uid) from rfl, (Poller.checkAll_of_not_listed hothers).2]
    rfl
  | some c =>
    have hc := List.mem_of_find?_eq_some hfind
    obtain rfl : c.uid = uid := by simpa using List.find?_some hfind
    have hany : inv.certs.any (fun d ↦ d.uid = c.uid) := List.any_eq_true.mpr ⟨c, hc, decide_eq_true rfl⟩
    obtain ⟨q, hq, hlookup, hrecords⟩ := Poller.checkAll_of_mem (p := p) inv.distinct_certs hc
    obtain ⟨hmemory, hsent⟩ := Poller.check_spec (p := q) (Inventory.notAfter_eq_none_iff hc)
      (fun hnone ↦ hq.trans (hkeeps c hc hnone))
    rw [if_pos hany, hlookup, hmemory]
    refine ⟨rfl, ?_⟩
    rw [show (fun n : String × Notification ↦ decide (n.1 = c.uid)) ∘ (fun rec ↦ (rec.certificate.uid, emit rec)) =
      fun rec ↦ decide (rec.certificate.uid = c.uid) from rfl, hrecords, hsent, hq]
    by_cases hdue : thresholdBucket c ≠ .none ∧ p.dedupe.lookup c.uid ≠ some (thresholdBucket c)
    · rw [if_pos hdue]
      dsimp only
      rw [if_pos hdue]
      simp
    · rw [if_neg hdue]
      dsimp only
      rw [if_neg hdue]
      rfl

theorem edgeTriggered_append {uid : String} {memory : Option Bucket}
    {log : List (Option Inventory × List (String × Notification))} {listing : Option Inventory}
    {sent : List (String × Notification)} (h : EdgeTriggered uid memory log)
    (hsent : sent.filter (fun n ↦ n.1 = uid) = due uid ((log.map Prod.fst).foldl (remember uid) memory) listing) :
    EdgeTriggered uid memory (log ++ [(listing, sent)]) := by
  induction log generalizing memory with
  | nil => exact ⟨hsent, trivial⟩
  | cons e log ih => exact ⟨h.1, ih h.2 hsent⟩

/-- The poller's memory is that of the listings so far. -/
structure Inv (s : PollerRun) : Prop where
  memory : ∀ uid, s.poller.dedupe.lookup uid = memoryAfter uid s.log
  emits : Emits s

theorem inv_step {s s' : PollerRun} {listing : Option Inventory} (h : Inv s) (hkeeps : KeepsExpiry s listing)
    (hstep : step s listing = some s') : Inv s' := by
  cases hstep
  cases listing with
  | none =>
    refine ⟨fun uid ↦ ?_, fun uid ↦ edgeTriggered_append (h.emits uid) rfl⟩
    rw [memoryAfter, List.map_append, List.foldl_append]
    exact h.memory uid
  | some inv =>
    have hspec := tick_spec (hkeeps inv rfl)
    refine ⟨fun uid ↦ ?_, fun uid ↦ edgeTriggered_append (h.emits uid) ?_⟩
    · rw [memoryAfter, List.map_append, List.foldl_append]
      change _ = remember uid (memoryAfter uid s.log) (some inv)
      rw [← h.memory uid]
      exact (hspec uid).1
    · change _ = due uid (memoryAfter uid s.log) (some inv)
      rw [← h.memory uid]
      exact (hspec uid).2

/-- As long as no certificate the poller has a bucket of loses its expiry time, notifications are sent exactly where
they are due. -/
theorem emits_throughout {listings : List (Option Inventory)} (h : EachStep step KeepsExpiry {} listings) :
    Throughout step Emits {} listings :=
  (h.throughout (fun _ _ _ hinv hkeeps hstep ↦ inv_step hinv hkeeps hstep)
    ⟨fun _ ↦ rfl, fun _ ↦ trivial⟩).mono (fun _ hinv ↦ hinv.emits)

/-- A listing of one certificate, with this expiry time. -/
def listingOf (notAfter : Option ℤ) : Option Inventory :=
  some
    { Inventory.shopInventory with
      certificates := [{ Inventory.tenDaysLeft with object := { Inventory.tenDaysLeft.object with notAfter } }]
      distinct := List.nodup_singleton _ }

theorem emits_throughout_renewed :
    EachStep step KeepsExpiry {} [listingOf (some (10 * day)), listingOf (some (90 * day)), listingOf none] ∧
      Throughout step Emits {} [listingOf (some (10 * day)), listingOf (some (90 * day)), listingOf none] :=
  have h : EachStep step KeepsExpiry {} [listingOf (some (10 * day)), listingOf (some (90 * day)), listingOf none] := by
    decide
  ⟨h, emits_throughout h⟩

/-- The certificate is without an expiry time for a tick, and comes back with ten days left. -/
theorem not_emits_throughout : ¬ ∀ listings, Throughout step Emits {} listings := by
  intro h
  have hlast := h [listingOf (some (10 * day)), listingOf none, listingOf (some (10 * day))]
  have hany : (exec step {} [listingOf (some (10 * day)), listingOf none, listingOf (some (10 * day))]).any
      (fun s ↦ decide (¬EdgeTriggered "c1" none s.log)) = true := by
    decide
  obtain ⟨s, hs, hbad⟩ := (Option.any_eq_true _ _).mp hany
  exact of_decide_eq_true hbad (hlast.last hs "c1")

end PollerRun

end KubeCenter.CertManager
