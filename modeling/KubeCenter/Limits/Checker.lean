import KubeCenter.Core.EdgeTrigger
import KubeCenter.Core.GoString
import KubeCenter.Core.Runs
import KubeCenter.Notifications.Store

/-! The checker that notifies of quotas as their use crosses a threshold. -/

namespace KubeCenter.Limits

open KubeCenter.Core
open KubeCenter.Notifications (Notification Severity)

inductive ThresholdStatus where
  | ok | warning | critical
  deriving DecidableEq

/-- A null byte cannot appear in a name. -/
def Plain (name : String) : Prop := '\x00' ∉ name.toList

/-- `Q` is the type of quantities. -/
structure ResourceQuota (Q : Type) where
  ns : String
  name : String
  plain : Plain ns ∧ Plain name
  annotations : GoMap String String := ∅
  hard : GoMap String Q
  used : GoMap String Q

structure ResourceUtilization (F : Type) where
  used : String
  hard : String
  percentage : F
  status : ThresholdStatus

structure QuotaThresholdEvent (F : Type) where
  ns : String
  quotaName : String
  resource : String
  status : ThresholdStatus
  usedPercent : F
  threshold : F
  used : String
  hard : String

/-- What the checker uses of `strconv`, of quantities and of `fmt`; `F` is the type of floats. -/
structure Library (F Q : Type) where
  parseFloat : String → Option F
  zeroQuantity : Q
  asApproximateFloat64 : Q → F
  quantityText : Q → String
  oneDecimal : F → String
  noDecimal : F → String

def annotationWarnThreshold : String := "k8scenter.io/warn-threshold"
def annotationCriticalThreshold : String := "k8scenter.io/critical-threshold"

section

variable {F Q : Type} [NatCast F] [Mul F] [Div F] [LE F] [DecidableLE F] [LT F] [DecidableLT F] (lib : Library F Q)

def parseThreshold (quota : ResourceQuota Q) (name : String) (default : F) : F :=
  match (quota.annotations.lookup name).bind lib.parseFloat with
  | some f => if (0 : ℕ) ≤ f ∧ f ≤ (100 : ℕ) then f else default
  | none => default

/-- The thresholds as percentages, for `warning` and for `critical`. -/
def parseThresholdAnnotations (quota : ResourceQuota Q) : F × F :=
  (parseThreshold lib quota annotationWarnThreshold (80 : ℕ),
    parseThreshold lib quota annotationCriticalThreshold (95 : ℕ))

def computeStatus (percentage warnThreshold criticalThreshold : F) : ThresholdStatus :=
  if criticalThreshold ≤ percentage then .critical
  else if warnThreshold ≤ percentage then .warning
  else .ok

/-- A limit that is not positive is never used up. -/
def percentage (hard used : Q) : F :=
  if (0 : ℕ) < lib.asApproximateFloat64 hard then
    lib.asApproximateFloat64 used / lib.asApproximateFloat64 hard * (100 : ℕ)
  else (0 : ℕ)

def computeUtilization (quota : ResourceQuota Q) : GoMap String (ResourceUtilization F) :=
  let (warn, critical) := parseThresholdAnnotations lib quota
  quota.hard.mapValues (fun resName hard ↦
    let used := (quota.used.lookup resName).getD lib.zeroQuantity
    let pct := percentage lib hard used
    { used := lib.quantityText used, hard := lib.quantityText hard, percentage := pct
      status := computeStatus pct warn critical })

def thresholdForStatus (status : ThresholdStatus) (warn critical : F) : F :=
  match status with
  | .critical => critical
  | .warning => warn
  | .ok => (0 : ℕ)

def stateKey (ns quotaName resource : String) : String := ns ++ "\x00" ++ quotaName ++ "\x00" ++ resource

/-- The event that a round of the inner loop of `check` hands on. -/
def thresholdEvent (quota : ResourceQuota Q) (resName : String) (util : ResourceUtilization F) :
    QuotaThresholdEvent F :=
  let (warn, critical) := parseThresholdAnnotations lib quota
  let currentStatus := computeStatus util.percentage warn critical
  { ns := quota.ns, quotaName := quota.name, resource := resName, status := currentStatus
    usedPercent := util.percentage, threshold := thresholdForStatus currentStatus warn critical
    used := util.used, hard := util.hard }

def notification (event : QuotaThresholdEvent F) : Notification where
  source := .limits
  severity := if event.status = .critical then .critical else .warning
  title := "Quota " ++ event.quotaName ++ " in " ++ event.ns ++ ": " ++ event.resource ++ " at " ++
    lib.oneDecimal event.usedPercent ++ "%"
  message := "Resource " ++ event.resource ++ " is at " ++ lib.oneDecimal event.usedPercent ++
    "% utilization (threshold: " ++ lib.noDecimal event.threshold ++ "%). Used: " ++ event.used ++
    ", Hard: " ++ event.hard
  resourceKind := "ResourceQuota"
  resourceNS := event.ns
  resourceName := event.quotaName

/-- `notifier` is whether there is one. -/
structure Checker where
  lastState : GoMap String ThresholdStatus := ∅
  notifier : Bool := true

namespace Checker

def dispatchIfChanged (c : Checker) (key : String) (current : ThresholdStatus) (event : QuotaThresholdEvent F) :
    List (QuotaThresholdEvent F) × Checker :=
  let previous := c.lastState.lookup key
  let c := { c with lastState := c.lastState.insert key current }
  if previous = some current then ([], c)
  else if current = .ok then ([], c)
  else if !c.notifier then ([], c)
  else ([event], c)

/-- The inner loop of `check`, over the resources of one quota. -/
def checkResources (quota : ResourceQuota Q) :
    Checker → List (Sigma fun _ : String ↦ ResourceUtilization F) → List (QuotaThresholdEvent F) × Checker
  | c, [] => ([], c)
  | c, ⟨resName, util⟩ :: utilization =>
    let event := thresholdEvent lib quota resName util
    let (sent, c) := c.dispatchIfChanged (stateKey quota.ns quota.name resName) event.status event
    let (rest, c) := checkResources quota c utilization
    (sent ++ rest, c)

def checkQuotas : Checker → List (ResourceQuota Q) → List (QuotaThresholdEvent F) × Checker
  | c, [] => ([], c)
  | c, quota :: quotas =>
    let (sent, c) := checkResources lib quota c (computeUtilization lib quota).entries
    let (rest, c) := checkQuotas c quotas
    (sent ++ rest, c)

def currentKeys (quotas : List (ResourceQuota Q)) : List String :=
  quotas.flatMap (fun quota ↦
    (computeUtilization lib quota).keys.map (fun resName ↦ stateKey quota.ns quota.name resName))

def prune (c : Checker) (currentKeys : List String) : Checker :=
  { c with lastState := GoMap.filter (fun key ↦ currentKeys.contains key) c.lastState }

/-- A cycle without informers, or whose list fails, has no quotas and returns at once. -/
def check (c : Checker) : Option (List (ResourceQuota Q)) → List (QuotaThresholdEvent F) × Checker
  | none => ([], c)
  | some quotas =>
    let (sent, c) := checkQuotas lib c quotas
    (sent, c.prune (currentKeys lib quotas))

end Checker

/-! ## Runs -/

/-- What the lister has; no quota is in it twice. -/
structure Listing (Q : Type) where
  quotas : List (ResourceQuota Q)
  distinct : (quotas.map (fun quota ↦ (quota.ns, quota.name))).Nodup

/-- What is checked on its own: a resource of a quota of a namespace. -/
structure Key where
  ns : String
  quotaName : String
  resource : String
  plain : Plain ns ∧ Plain quotaName

def Key.of (k : Key) (event : QuotaThresholdEvent F) : Bool :=
  event.ns = k.ns && event.quotaName = k.quotaName && event.resource = k.resource

/-- Every cycle's listing, where it got one, with what it notified of. -/
structure CheckerRun (F Q : Type) where
  checker : Checker := {}
  log : List (Option (Listing Q) × List (QuotaThresholdEvent F × Notification)) := []

namespace CheckerRun

def step (s : CheckerRun F Q) (listing : Option (Listing Q)) : Option (CheckerRun F Q) :=
  let (sent, checker) := s.checker.check lib (listing.map Listing.quotas)
  some { checker, log := s.log ++ [(listing, sent.map (fun event ↦ (event, notification lib event)))] }

/-- How a key stands in a listing, if it is there. -/
def reading (k : Key) (listing : Listing Q) : Option (QuotaThresholdEvent F) :=
  (listing.quotas.find? (fun quota ↦ (quota.ns, quota.name) = (k.ns, k.quotaName))).bind (fun quota ↦
    ((computeUtilization lib quota).lookup k.resource).map (thresholdEvent lib quota k.resource))

/-- The severity recorded for a key after a listing: warning or critical, none where it is ok or not there. -/
def record (k : Key) (memory : Option ThresholdStatus) : Option (Listing Q) → Option ThresholdStatus
  | none => memory
  | some listing => ((reading lib k listing).map QuotaThresholdEvent.status).filter (fun status ↦ status ≠ .ok)

/-- What a listing is to be notified of for a key, with the severity recorded before it. -/
def due (k : Key) (memory : Option ThresholdStatus) : Option (Listing Q) → List (QuotaThresholdEvent F × Notification)
  | none => []
  | some listing =>
    (((reading lib k listing).filter (fun event ↦ event.status ≠ .ok ∧ memory ≠ some event.status)).map
      (fun event ↦ (event, notification lib event))).toList

def EdgeTriggered (k : Key) : Option ThresholdStatus →
    List (Option (Listing Q) × List (QuotaThresholdEvent F × Notification)) → Prop
  | _, [] => True
  | memory, (listing, sent) :: log =>
    sent.filter (fun n ↦ k.of n.1) = due lib k memory listing ∧ EdgeTriggered k (record lib k memory listing) log

end CheckerRun

end

/-! ## One cycle -/

theorem plain_cut {ns rest ns' rest' : String} (hns : Plain ns) (hns' : Plain ns')
    (h : ns ++ "\x00" ++ rest = ns' ++ "\x00" ++ rest') : ns = ns' ∧ rest = rest' := by
  have htext := congrArg String.toList h
  simp only [String.toList_append, show "\x00".toList = ['\x00'] from rfl, List.append_assoc,
    List.singleton_append] at htext
  have hcut := congrArg (cut '\x00') htext
  rw [cut_append hns, cut_append hns', Option.some.injEq, Prod.mk.injEq] at hcut
  exact ⟨String.toList_inj.mp hcut.1, String.toList_inj.mp hcut.2⟩

/-- Keys of plain names are unambiguous. -/
theorem stateKey_inj {ns name resource ns' name' resource' : String} (h : Plain ns ∧ Plain name)
    (h' : Plain ns' ∧ Plain name') :
    stateKey ns name resource = stateKey ns' name' resource' ↔ ns = ns' ∧ name = name' ∧ resource = resource' := by
  have hassoc : ∀ a b c : String, stateKey a b c = a ++ "\x00" ++ (b ++ "\x00" ++ c) := by
    intro a b c
    simp only [stateKey, String.append_assoc]
  constructor
  · intro hkey
    rw [hassoc, hassoc] at hkey
    obtain ⟨hns, hrest⟩ := plain_cut h.1 h'.1 hkey
    exact ⟨hns, plain_cut h.2 h'.2 hrest⟩
  · rintro ⟨rfl, rfl, rfl⟩
    rfl

open EdgeTrigger (scan reports pruned)

def loud (status : ThresholdStatus) : Bool := status ≠ .ok

section

variable {F : Type} {c : Checker}

def QuotaThresholdEvent.stateKey (event : QuotaThresholdEvent F) : String :=
  Limits.stateKey event.ns event.quotaName event.resource

/-- The scan that a cycle makes of its readings. -/
def scanned (memory : GoMap String ThresholdStatus) (es : List (QuotaThresholdEvent F)) :
    List (QuotaThresholdEvent F) × GoMap String ThresholdStatus :=
  scan QuotaThresholdEvent.stateKey QuotaThresholdEvent.status loud memory es

theorem scanned_append (memory : GoMap String ThresholdStatus) (es es' : List (QuotaThresholdEvent F)) :
    scanned memory (es ++ es') = ((scanned memory es).1 ++ (scanned (scanned memory es).2 es').1,
      (scanned (scanned memory es).2 es').2) :=
  EdgeTrigger.scan_append memory es es'

theorem dispatchIfChanged_eq (hn : c.notifier = true) (event : QuotaThresholdEvent F) :
    c.dispatchIfChanged event.stateKey event.status event =
      ((scanned c.lastState [event]).1, { c with lastState := (scanned c.lastState [event]).2 }) := by
  unfold Checker.dispatchIfChanged scanned scan scan reports loud
  by_cases hprevious : c.lastState.lookup event.stateKey = some event.status
  · simp [hprevious]
  · by_cases hok : event.status = .ok
    · simp [hok]
    · simp [hprevious, hok, hn]

end

section

variable {F Q : Type} [NatCast F] [Mul F] [Div F] [LE F] [DecidableLE F] [LT F] [DecidableLT F] (lib : Library F Q)

/-- Every reading of a cycle, in the order of its loops. -/
def events (quotas : List (ResourceQuota Q)) : List (QuotaThresholdEvent F) :=
  quotas.flatMap (fun quota ↦ (computeUtilization lib quota).entries.map (fun e ↦ thresholdEvent lib quota e.1 e.2))

variable {lib} {c : Checker} {quota : ResourceQuota Q} {quotas : List (ResourceQuota Q)}

theorem checkResources_eq (hn : c.notifier = true) (es : List (Sigma fun _ : String ↦ ResourceUtilization F)) :
    Checker.checkResources lib quota c es =
      ((scanned c.lastState (es.map (fun e ↦ thresholdEvent lib quota e.1 e.2))).1,
        { c with lastState := (scanned c.lastState (es.map (fun e ↦ thresholdEvent lib quota e.1 e.2))).2 }) := by
  induction es generalizing c with
  | nil => rfl
  | cons e es ih =>
    have hfirst := dispatchIfChanged_eq hn (thresholdEvent lib quota e.1 e.2)
    have hcons : (e :: es).map (fun e ↦ thresholdEvent lib quota e.1 e.2) =
      [thresholdEvent lib quota e.1 e.2] ++ es.map (fun e ↦ thresholdEvent lib quota e.1 e.2) := rfl
    rw [hcons, scanned_append]
    unfold Checker.checkResources
    dsimp only
    rw [show stateKey quota.ns quota.name e.1 = (thresholdEvent lib quota e.1 e.2).stateKey from rfl, hfirst]
    dsimp only
    rw [ih]
    exact hn

theorem checkQuotas_eq (hn : c.notifier = true) (quotas : List (ResourceQuota Q)) :
    Checker.checkQuotas lib c quotas = ((scanned c.lastState (events lib quotas)).1,
      { c with lastState := (scanned c.lastState (events lib quotas)).2 }) := by
  induction quotas generalizing c with
  | nil => rfl
  | cons quota quotas ih =>
    rw [events, List.flatMap_cons, scanned_append]
    unfold Checker.checkQuotas
    rw [checkResources_eq hn]
    dsimp only
    rw [ih]
    · rfl
    · exact hn

theorem currentKeys_eq (quotas : List (ResourceQuota Q)) :
    Checker.currentKeys lib quotas = (events lib quotas).map QuotaThresholdEvent.stateKey := by
  rw [Checker.currentKeys, events, List.map_flatMap]
  refine List.flatMap_congr (fun quota _ ↦ ?_)
  rw [List.map_map, AList.keys, List.keys, List.map_map]
  rfl

/-- A cycle that gets a list is a scan of its readings with the pruning of the scan. -/
theorem check_eq (hn : c.notifier = true) (quotas : List (ResourceQuota Q)) : c.check lib (some quotas) =
    ((scanned c.lastState (events lib quotas)).1,
      { c with
        lastState := pruned QuotaThresholdEvent.stateKey (events lib quotas)
          (scanned c.lastState (events lib quotas)).2 }) := by
  have hkeys : (fun k ↦ ((events lib quotas).map QuotaThresholdEvent.stateKey).contains k) =
      fun k ↦ (events lib quotas).any (fun event ↦ event.stateKey = k) := by
    funext k
    rw [Bool.eq_iff_iff, List.contains_iff_mem, List.mem_map, List.any_eq_true]
    simp only [decide_eq_true_eq]
  simp only [Checker.check, checkQuotas_eq hn, currentKeys_eq, Checker.prune, hkeys]
  rfl

theorem check_notifier (hn : c.notifier = true) (quotas : List (ResourceQuota Q)) :
    (c.check lib (some quotas)).2.notifier = true := by
  rw [check_eq hn]
  exact hn

theorem mem_events {event : QuotaThresholdEvent F} : event ∈ events lib quotas ↔
    ∃ quota ∈ quotas, ∃ resName util, (computeUtilization lib quota).lookup resName = some util ∧
      thresholdEvent lib quota resName util = event := by
  simp only [events, List.mem_flatMap, List.mem_map]
  refine exists_congr (fun quota ↦ and_congr_right (fun _ ↦ ⟨?_, ?_⟩))
  · rintro ⟨⟨resName, util⟩, hmem, rfl⟩
    exact ⟨resName, util, GoMap.mem_entries_iff.mp hmem, rfl⟩
  · rintro ⟨resName, util, hlookup, rfl⟩
    exact ⟨⟨resName, util⟩, GoMap.mem_entries_iff.mpr hlookup, rfl⟩

variable (lib) in
theorem distinct_events (listing : Listing Q) :
    ((events lib listing.quotas).map QuotaThresholdEvent.stateKey).Nodup := by
  rw [← currentKeys_eq, Checker.currentKeys, List.nodup_flatMap]
  constructor
  · intro quota _
    refine List.Nodup.map_on (fun a _ b _ hab ↦ ?_) (computeUtilization lib quota).keys_nodup
    exact ((stateKey_inj quota.plain quota.plain).mp hab).2.2
  · refine (List.pairwise_map.mp listing.distinct).imp (fun {q q'} hne ↦ ?_)
    intro key hkey hkey'
    obtain ⟨a, -, rfl⟩ := List.mem_map.mp hkey
    obtain ⟨b, -, hb⟩ := List.mem_map.mp hkey'
    obtain ⟨hns, hname, -⟩ := (stateKey_inj q'.plain q.plain).mp hb
    exact hne (by rw [hns, hname])

namespace CheckerRun

def Key.text (k : Key) : String := stateKey k.ns k.quotaName k.resource

/-- The reading that a cycle finds for a key is the one of the quota and the resource it names. -/
theorem find_events (k : Key) (listing : Listing Q) :
    (events lib listing.quotas).find? (fun event ↦ event.stateKey = Key.text k) = reading lib k listing := by
  refine Option.ext (fun event ↦ ?_)
  rw [EdgeTrigger.find?_eq_some_iff (distinct_events lib listing), mem_events]
  simp only [reading, Option.bind_eq_some_iff, Option.map_eq_some_iff,
    EdgeTrigger.find?_eq_some_iff listing.distinct]
  simp only [Prod.mk.injEq]
  constructor
  · rintro ⟨⟨quota, hquota, resName, util, hlookup, rfl⟩, hkey⟩
    obtain ⟨hns, hname, hres⟩ := (stateKey_inj quota.plain k.plain).mp hkey
    rw [← hres]
    exact ⟨quota, ⟨hquota, hns, hname⟩, util, hlookup, rfl⟩
  · rintro ⟨quota, ⟨hquota, hns, hname⟩, util, hlookup, rfl⟩
    exact ⟨⟨quota, hquota, k.resource, util, hlookup, rfl⟩, (stateKey_inj quota.plain k.plain).mpr ⟨hns, hname, rfl⟩⟩

/-- The severity that the map of the checker stands for: `ok` is none. -/
def recorded (c : Checker) (k : Key) : Option ThresholdStatus := EdgeTrigger.remembered loud (c.lastState.lookup (Key.text k))

theorem of_iff {k : Key} {event : QuotaThresholdEvent F} (h : Plain event.ns ∧ Plain event.quotaName) :
    k.of event = true ↔ event.stateKey = Key.text k := by
  rw [QuotaThresholdEvent.stateKey, Key.text, stateKey_inj h k.plain]
  simp [Key.of, and_assoc]

variable (lib) in
/-- A cycle records of a key and sends for it what is due. -/
theorem check_spec (hn : c.notifier = true) (listing : Listing Q) (k : Key) :
    recorded (c.check lib (some listing.quotas)).2 k = record lib k (recorded c k) (some listing) ∧
      ((c.check lib (some listing.quotas)).1.map (fun event ↦ (event, notification lib event))).filter
        (fun n ↦ k.of n.1) = due lib k (recorded c k) (some listing) := by
  obtain ⟨hlookup, hsent⟩ := EdgeTrigger.scan_spec QuotaThresholdEvent.status loud (distinct_events lib listing)
    c.lastState (Key.text k)
  rw [find_events] at hlookup hsent
  rw [check_eq hn]
  constructor
  · unfold recorded record
    dsimp only
    rw [scanned, hlookup]
    rfl
  · have hof : ∀ event ∈ (scanned c.lastState (events lib listing.quotas)).1,
        k.of event = decide (event.stateKey = Key.text k) := by
      intro event hevent
      obtain ⟨quota, -, resName, util, -, rfl⟩ := mem_events.mp (EdgeTrigger.mem_of_mem_scan hevent)
      rw [Bool.eq_iff_iff, decide_eq_true_eq]
      exact of_iff quota.plain
    rw [List.filter_map]
    have hfilter := List.filter_congr hof
    have hcomp : (fun n : QuotaThresholdEvent F × Notification ↦ k.of n.1) ∘
      (fun event ↦ (event, notification lib event)) = k.of := rfl
    rw [hcomp, hfilter, scanned, hsent, due]
    cases hreading : reading lib k listing with
    | none => rfl
    | some event =>
      have hkey : event.stateKey = Key.text k :=
        ((EdgeTrigger.find?_eq_some_iff (distinct_events lib listing)).mp ((find_events k listing).trans hreading)).2
      have hdue : reports QuotaThresholdEvent.stateKey QuotaThresholdEvent.status loud c.lastState event =
          decide (event.status ≠ .ok ∧ recorded c k ≠ some event.status) := by
        rw [Bool.eq_iff_iff, EdgeTrigger.reports_iff, hkey, decide_eq_true_eq, loud, decide_eq_true_eq]
        rfl
      rw [Option.filter_some, Option.filter_some, hdue]
      split <;> rfl

/-! ## What every run keeps -/

variable (lib) in
/-- What the listings so far leave recorded of a key. -/
def recordAfter (k : Key) (log : List (Option (Listing Q) × List (QuotaThresholdEvent F × Notification))) :
    Option ThresholdStatus :=
  (log.map Prod.fst).foldl (record lib k) none

theorem edgeTriggered_append {k : Key} {memory : Option ThresholdStatus}
    {log : List (Option (Listing Q) × List (QuotaThresholdEvent F × Notification))} {listing : Option (Listing Q)}
    {sent : List (QuotaThresholdEvent F × Notification)} (h : EdgeTriggered lib k memory log)
    (hsent : sent.filter (fun n ↦ k.of n.1) = due lib k ((log.map Prod.fst).foldl (record lib k) memory) listing) :
    EdgeTriggered lib k memory (log ++ [(listing, sent)]) := by
  induction log generalizing memory with
  | nil => exact ⟨hsent, trivial⟩
  | cons e log ih => exact ⟨h.1, ih h.2 hsent⟩

variable (lib) in
/-- The checker's map stands for what the listings so far leave recorded. -/
structure Inv (s : CheckerRun F Q) : Prop where
  notifies : s.checker.notifier = true
  recorded : ∀ k, recorded s.checker k = recordAfter lib k s.log
  triggered : ∀ k, EdgeTriggered lib k none s.log

theorem step_inv {s t : CheckerRun F Q} {listing : Option (Listing Q)} (h : Inv lib s)
    (hs : step lib s listing = some t) : Inv lib t := by
  cases hs
  cases listing with
  | none =>
    refine ⟨h.notifies, fun k ↦ ?_, fun k ↦ edgeTriggered_append (h.triggered k) rfl⟩
    rw [recordAfter, List.map_append, List.foldl_append]
    exact h.recorded k
  | some listing =>
    have hspec := check_spec lib h.notifies listing
    refine ⟨?_, fun k ↦ ?_, fun k ↦ edgeTriggered_append (h.triggered k) ?_⟩
    · exact check_notifier h.notifies listing.quotas
    · rw [recordAfter, List.map_append, List.foldl_append]
      show recorded (s.checker.check lib (some listing.quotas)).2 k = record lib k (recordAfter lib k s.log) (some listing)
      rw [← h.recorded k]
      exact (hspec k).1
    · show _ = due lib k (recordAfter lib k s.log) (some listing)
      rw [← h.recorded k]
      exact (hspec k).2

/-- In every run a key is notified of exactly at its changes to warning or critical, against what the listings so far
leave recorded of it; a cycle without a list changes nothing. -/
theorem edgeTriggered_throughout (lib : Library F Q) (listings : List (Option (Listing Q))) :
    Throughout (step lib)
      (fun s ↦ ∀ k, EdgeTriggered lib k none s.log ∧ recorded s.checker k = recordAfter lib k s.log) {} listings ∧
    ∀ c : Checker, c.check lib none = ([], c) := by
  have hinit : Inv lib {} := ⟨rfl, fun _ ↦ rfl, fun _ ↦ trivial⟩
  have hrun : Throughout (step lib) (Inv lib) {} listings := throughout_of_step (fun _ _ _ ↦ step_inv) hinit listings
  exact ⟨hrun.mono (fun s h k ↦ ⟨h.triggered k, h.recorded k⟩), fun _ ↦ rfl⟩

end CheckerRun

end

end KubeCenter.Limits
