import KubeCenter.Core.FieldFilter
import KubeCenter.Notifications.Store

namespace KubeCenter.Notifications

open KubeCenter.Core

def ruleMatches (rule : Rule) (n : Notification) : Bool :=
  if 0 < rule.sourceFilter.length && !rule.sourceFilter.contains n.source then false
  else if 0 < rule.severityFilter.length && !rule.severityFilter.contains n.severity then false
  else true

/-- The channels a notification is dispatched to, rule by rule; email is digest-only. -/
def dispatchToChannels (rules : List Rule) (channels : List Channel) (n : Notification) : List Channel :=
  rules.filterMap (fun rule ↦
    if !rule.enabled || !ruleMatches rule n then none
    else (channels.reverse.find? (fun ch ↦ ch.id == rule.channelID)).filter (fun ch ↦ ch.type != .email))

def attachedRules (rules : List Rule) (ch : Channel) : List Rule :=
  rules.filter (fun r ↦ !(r.channelID != ch.id || !r.enabled))

def digestSourceFilter (rules : List Rule) (ch : Channel) : List Source :=
  (attachedRules rules ch).flatMap Rule.sourceFilter

def digestSevFilter (rules : List Rule) (ch : Channel) : List Severity :=
  (attachedRules rules ch).flatMap Rule.severityFilter

/-- Since the last digest, or for the last 24 hours before the first one. -/
def digestSince (ch : Channel) (now : ℤ) : ℤ := ch.lastSentAt.getD (now - 24 * hour)

/-- The notifications `sendDigests` takes for one channel. -/
def digestNotifications (rules : List Rule) (ch : Channel) (now : ℤ) (rows : List Notification) : List Notification :=
  notificationsSince rows (digestSince ch now) (digestSourceFilter rules ch) (digestSevFilter rules ch)

def suppressResourceFieldsBySource : Source → Bool
  | .externalSecrets => true
  | _ => false

def sanitizeForEmailDigest (n : Notification) : Notification :=
  if suppressResourceFieldsBySource n.source then { n with resourceKind := "", resourceNS := "", resourceName := "" }
  else n

def digestInterval (ch : Channel) (now : ℤ) (rows : List Notification) : List Notification :=
  rows.filter (fun n ↦ decide (digestSince ch now < n.createdAt))

/-- Some enabled rule of the channel matches. -/
def routed (rules : List Rule) (ch : Channel) (n : Notification) : Bool :=
  (attachedRules rules ch).any (fun r ↦ ruleMatches r n)

/-- A rule of the channel matches without filtering a field that other rules of the channel
filter, none of which lists the notification's value for it. -/
def Lost (rules : List Rule) (ch : Channel) (n : Notification) : Prop :=
  FieldFilter.Lost Rule.sourceFilter Rule.severityFilter (attachedRules rules ch) n.source n.severity

/-- No rule of the channel matches (there may be none), but every field that one of them
filters is listed for the notification's value by one of them. -/
def Extra (rules : List Rule) (ch : Channel) (n : Notification) : Prop :=
  FieldFilter.Extra Rule.sourceFilter Rule.severityFilter (attachedRules rules ch) n.source n.severity

variable {rules : List Rule} {channels : List Channel} {ch : Channel} {rule : Rule} {now : ℤ}
  {n : Notification} {rows : List Notification}

theorem ruleMatches_iff : ruleMatches rule n = true ↔
    FieldFilter.Accepts rule.sourceFilter n.source ∧ FieldFilter.Accepts rule.severityFilter n.severity := by
  have hfield : ∀ {α : Type} [DecidableEq α] (l : List α) (x : α),
      (0 < l.length && !l.contains x) = true ↔ ¬ FieldFilter.Accepts l x := by
    intro α _ l x
    cases l <;> simp [FieldFilter.Accepts]
  unfold ruleMatches
  split
  · next h =>
    rw [hfield] at h
    simp [h]
  · next h =>
    rw [hfield, not_not] at h
    split
    · next h' =>
      rw [hfield] at h'
      simp [h']
    · next h' =>
      rw [hfield, not_not] at h'
      simp [h, h']

theorem mem_attachedRules :
    rule ∈ attachedRules rules ch ↔ rule ∈ rules ∧ rule.channelID = ch.id ∧ rule.enabled = true := by
  simp [attachedRules]

theorem routed_iff : routed rules ch n = true ↔
    FieldFilter.Routed Rule.sourceFilter Rule.severityFilter (attachedRules rules ch) n.source n.severity := by
  simp only [routed, List.any_eq_true, ruleMatches_iff, FieldFilter.Routed]

/-- Immediate dispatch reaches a channel exactly when a rule of it matches. -/
theorem mem_dispatchToChannels (hnodup : (channels.map Channel.id).Nodup) (hch : ch ∈ channels) :
    ch ∈ dispatchToChannels rules channels n ↔ ch.type ≠ .email ∧ routed rules ch n = true := by
  have hfind : ∀ id, channels.reverse.find? (fun c ↦ c.id == id) = some ch ↔ ch.id = id := by
    intro id
    constructor
    · intro h
      simpa using List.find?_some h
    · rintro rfl
      obtain ⟨c, hc⟩ : ∃ c, channels.reverse.find? (fun c ↦ c.id == ch.id) = some c :=
        Option.isSome_iff_exists.mp (List.find?_isSome.mpr ⟨ch, List.mem_reverse.mpr hch, by simp⟩)
      have hid : c.id = ch.id := by simpa using List.find?_some hc
      rw [hc, List.inj_on_of_nodup_map hnodup (List.mem_reverse.mp (List.mem_of_find?_eq_some hc)) hch hid]
  simp only [dispatchToChannels, List.mem_filterMap, routed, List.any_eq_true, mem_attachedRules]
  constructor
  · rintro ⟨r, hr, hrch⟩
    split at hrch
    · cases hrch
    · next hmatch =>
      obtain ⟨hsome, htype⟩ := Option.filter_eq_some_iff.mp hrch
      simp only [Bool.or_eq_true, Bool.not_eq_eq_eq_not, Bool.not_true, not_or, Bool.not_eq_false] at hmatch
      exact ⟨by simpa using htype, r, ⟨hr, ((hfind _).mp hsome).symm, hmatch.1⟩, hmatch.2⟩
  · rintro ⟨htype, r, ⟨hr, hid, henabled⟩, hmatch⟩
    refine ⟨r, hr, ?_⟩
    rw [if_neg (by simp [henabled, hmatch]), (hfind _).mpr hid.symm]
    simpa using htype

/-- The digest query accepts what the merged filters accept. -/
theorem sinceWhere_iff : sinceWhere (digestSince ch now) (digestSourceFilter rules ch) (digestSevFilter rules ch) n = true ↔
    digestSince ch now < n.createdAt ∧
      FieldFilter.Merged Rule.sourceFilter Rule.severityFilter (attachedRules rules ch) n.source n.severity := by
  simp only [sinceWhere, Bool.and_eq_true, decide_eq_true_eq, Bool.or_eq_true, List.isEmpty_iff,
    List.contains_iff_mem, and_assoc]
  rfl

def merged (rules : List Rule) (ch : Channel) (n : Notification) : Bool :=
  decide (FieldFilter.Merged Rule.sourceFilter Rule.severityFilter (attachedRules rules ch) n.source n.severity)

theorem digestNotifications_perm (rules : List Rule) (hlimit : (digestInterval ch now rows).length ≤ digestLimit) :
    (digestNotifications rules ch now rows).Perm ((digestInterval ch now rows).filter (merged rules ch)) := by
  have hwhere : rows.filter (sinceWhere (digestSince ch now) (digestSourceFilter rules ch) (digestSevFilter rules ch)) =
      (digestInterval ch now rows).filter (merged rules ch) := by
    rw [digestInterval, List.filter_filter]
    refine List.filter_congr (fun n _ ↦ ?_)
    rw [Bool.eq_iff_iff, sinceWhere_iff, Bool.and_eq_true, merged, decide_eq_true_eq, decide_eq_true_eq, and_comm]
  rw [digestNotifications, notificationsSince, hwhere, List.take_of_length_le]
  · exact List.perm_insertionSort _ _
  · rw [List.length_insertionSort]
    exact (List.length_filter_le _ _).trans hlimit

theorem filter_perm_filter {α : Type} {p q : α → Bool} {l : List α} :
    (l.filter p).Perm (l.filter q) ↔ ∀ x ∈ l, (q x = true ↔ p x = true) := by
  constructor
  · intro h x hx
    have hmem := h.mem_iff (a := x)
    simpa only [List.mem_filter, hx, true_and, eq_comm, iff_comm] using hmem.symm
  · intro h
    rw [List.filter_congr (fun x hx ↦ Bool.eq_iff_iff.mpr (h x hx).symm)]

/-- The digest holds what the channel's rules route, within the query's limit, iff no
notification of the interval is lost to the merge of the filters or let in by it. -/
theorem digest_routes_iff (rules : List Rule) (ch : Channel) (now : ℤ) (rows : List Notification)
    (hlimit : (digestInterval ch now rows).length ≤ digestLimit) :
    (digestNotifications rules ch now rows).Perm ((digestInterval ch now rows).filter (routed rules ch)) ↔
      ∀ n ∈ digestInterval ch now rows, ¬ Lost rules ch n ∧ ¬ Extra rules ch n := by
  have hperm := digestNotifications_perm rules hlimit
  rw [hperm.congr_left, filter_perm_filter]
  refine forall₂_congr (fun n _ ↦ ?_)
  rw [routed_iff, merged, decide_eq_true_eq]
  exact FieldFilter.routed_iff_merged

/-- The on-call team's mail channel: critical alerts, and warnings of the deployments. -/
def opsMail : Channel := { id := "ops", name := "ops", type := .email, recipients := ["ops@team.com"] }

def opsRules : List Rule :=
  [{ sourceFilter := [.alert], severityFilter := [.critical], channelID := "ops", enabled := true },
    { sourceFilter := [.gitops], severityFilter := [.warning], channelID := "ops", enabled := true }]

def alertWarning : Notification :=
  { id := 1, source := .alert, severity := .warning, title := "Disk space low", createdAt := 1 }

theorem digest_routes_iff_ops :
    (digestInterval opsMail 0 [alertWarning]).length ≤ digestLimit ∧
      ((digestNotifications opsRules opsMail 0 [alertWarning]).Perm
        ((digestInterval opsMail 0 [alertWarning]).filter (routed opsRules opsMail)) ↔
      ∀ n ∈ digestInterval opsMail 0 [alertWarning], ¬ Lost opsRules opsMail n ∧ ¬ Extra opsRules opsMail n) :=
  ⟨by decide, digest_routes_iff opsRules opsMail 0 [alertWarning] (by decide)⟩

/-- The warning of an alert, which neither rule matches, is in the digest. -/
theorem not_digest_routes :
    opsMail.type = .email ∧ (digestInterval opsMail 0 [alertWarning]).length ≤ digestLimit ∧
      ¬ (digestNotifications opsRules opsMail 0 [alertWarning]).Perm
        ((digestInterval opsMail 0 [alertWarning]).filter (routed opsRules opsMail)) := by
  refine ⟨rfl, by decide, fun h ↦ ?_⟩
  have hperm := digestNotifications_perm opsRules (show (digestInterval opsMail 0 [alertWarning]).length ≤ digestLimit by decide)
  have hlength := (hperm.symm.trans h).length_eq
  exact absurd hlength (by decide)

end KubeCenter.Notifications
