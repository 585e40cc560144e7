import Mathlib.Data.Finset.Basic
import Mathlib.Data.Int.Notation
import Mathlib.Data.List.Sort
import Mathlib.Data.Prod.Lex
import Mathlib.Data.String.Basic
import KubeCenter.Auth.RBACSummary
import KubeCenter.Core.FirstDistinct
import KubeCenter.Core.Http

/-! The notification center's data and the statements its store runs. Times are in
microseconds, as the database keeps them. -/

namespace KubeCenter.Notifications

inductive Source where
  | alert | policy | gitops | diagnostic | scan | cluster | audit | limits | velero | certmanager
  | externalSecrets
  deriving DecidableEq

inductive Severity where
  | info | warning | critical
  deriving DecidableEq

inductive ChannelType where
  | slack | email | webhook | mobilePush
  deriving DecidableEq

/-- `id` and `createdAt` are what the database fills in. -/
structure Notification where
  id : ℕ := 0
  source : Source
  severity : Severity
  title : String
  message : String := ""
  resourceKind : String := ""
  resourceNS : String := ""
  resourceName : String := ""
  clusterID : String := ""
  createdAt : ℤ := 0
  suppressResourceFields : Bool := false
  deriving DecidableEq

/-- `recipients` is what `channelRecipients` reads out of the configuration. -/
structure Channel where
  id : String
  name : String
  type : ChannelType
  recipients : List String := []
  lastSentAt : Option ℤ := none
  deriving DecidableEq

structure Rule where
  sourceFilter : List Source
  severityFilter : List Severity
  channelID : String
  enabled : Bool
  deriving DecidableEq

def second : ℤ := 1000000

def minute : ℤ := 60 * second

def hour : ℤ := 60 * minute

def day : ℤ := 24 * hour

def dedupWindow : ℤ := 15 * minute

def retention : ℤ := 90 * day

/-- What de-duplication goes by. -/
structure Key where
  source : Source
  resourceKind : String
  resourceNS : String
  resourceName : String
  title : String
  deriving DecidableEq

def Notification.key (n : Notification) : Key :=
  ⟨n.source, n.resourceKind, n.resourceNS, n.resourceName, n.title⟩

/-- The row `InsertNotification` adds; `suppressResourceFields` has no column. -/
def Notification.row (n : Notification) (id : ℕ) (now : ℤ) : Notification :=
  { n with id, createdAt := now, suppressResourceFields := false }

def dedupExists (rows : List Notification) (n : Notification) (window now : ℤ) : Bool :=
  rows.any (fun r ↦ decide (r.key = n.key ∧ now - window < r.createdAt))

/-- One `Emit` with no other between its statements; `answered` and `ok` say whether the check and
the INSERT succeed. -/
def emitAlone (rows : List Notification) (n : Notification) (id : ℕ) (now : ℤ) (answered ok : Bool) :
    List Notification :=
  if n.source ≠ .audit ∧ answered = true ∧ dedupExists rows n dedupWindow now = true then rows
  else if ok then rows ++ [n.row id now]
  else rows

def pruneOlderThan (rows : List Notification) (age now : ℤ) : List Notification :=
  rows.filter (fun r ↦ !decide (r.createdAt < now - age))

/-- An empty cluster selects the rows of all of them; rows without one belong to every cluster. -/
def recentWhere (source : Source) (clusterID : String) (since : ℤ) (n : Notification) : Bool :=
  decide (n.source = source ∧ since ≤ n.createdAt ∧ n.resourceKind ≠ "" ∧ n.resourceName ≠ "" ∧
    (clusterID = "" ∨ n.clusterID = clusterID ∨ n.clusterID = ""))

def resourceKey (n : Notification) : String ×ₗ String ×ₗ String :=
  toLex (n.resourceKind, toLex (n.resourceNS, n.resourceName))

/-- By resource, and for each resource the latest first. -/
def recentOrder (n n' : Notification) : Prop :=
  toLex (resourceKey n, OrderDual.toDual n.createdAt) ≤ toLex (resourceKey n', OrderDual.toDual n'.createdAt)

instance : DecidableRel recentOrder := fun _ _ ↦ inferInstanceAs (Decidable (_ ≤ _))

/-- `RecentBySource`: the latest row of each resource. -/
def recentBySource (rows : List Notification) (source : Source) (clusterID : String) (since : ℤ) : List Notification :=
  KubeCenter.Core.distinctBy resourceKey
    ((rows.filter (recentWhere source clusterID since)).insertionSort recentOrder)

def digestLimit : ℕ := 500

/-- `source = ANY(..)` and `severity = ANY(..)` are added only for filters that are not empty. -/
def sinceWhere (since : ℤ) (sourceFilter : List Source) (severityFilter : List Severity) (n : Notification) : Bool :=
  decide (since < n.createdAt) && (sourceFilter.isEmpty || sourceFilter.contains n.source) &&
    (severityFilter.isEmpty || severityFilter.contains n.severity)

/-- `NotificationsSince` as the digest calls it, for no namespaces. -/
def notificationsSince (rows : List Notification) (since : ℤ) (sourceFilter : List Source)
    (severityFilter : List Severity) : List Notification :=
  ((rows.filter (sinceWhere since sourceFilter severityFilter)).insertionSort
    (fun n n' ↦ n'.createdAt ≤ n.createdAt)).take digestLimit

end KubeCenter.Notifications

namespace KubeCenter.Notifications

open KubeCenter.Core KubeCenter.Auth

def Source.text : Source → String
  | .alert => "alert"
  | .policy => "policy"
  | .gitops => "gitops"
  | .diagnostic => "diagnostic"
  | .scan => "scan"
  | .cluster => "cluster"
  | .audit => "audit"
  | .limits => "limits"
  | .velero => "velero"
  | .certmanager => "certmanager"
  | .externalSecrets => "external_secrets"

def Severity.text : Severity → String
  | .info => "info"
  | .warning => "warning"
  | .critical => "critical"

/-- The query of a feed request: texts as sent, numbers and times where they parse. -/
structure FeedQuery where
  source : String := ""
  severity : String := ""
  read : String := ""
  limit : ℤ := 0
  offset : ℤ := 0
  since : Option ℤ := none
  upTo : Option ℤ := none

/-- `namespaces` is none for a nil slice. -/
structure ListOpts where
  userID : String
  namespaces : Option (List String)
  query : FeedQuery

/-- The tables of the feed: notifications and, per user, the ids read. -/
structure FeedTables where
  rows : List Notification
  reads : Finset (String × ℕ)

def FeedTables.isRead (db : FeedTables) (userID : String) (n : Notification) : Bool := (userID, n.id) ∈ db.reads

/-- The WHERE of `ListNotifications`: the namespace filter is there only for a slice that is not empty. -/
def listWhere (db : FeedTables) (opts : ListOpts) (n : Notification) : Bool :=
  let q := opts.query
  (((opts.namespaces.getD []).isEmpty || (opts.namespaces.getD []).contains n.resourceNS || n.resourceNS = "") &&
    (q.source = "" || n.source.text = q.source) && (q.severity = "" || n.severity.text = q.severity)) &&
  (q.since.all (· ≤ n.createdAt) && q.upTo.all (n.createdAt ≤ ·)) &&
  (q.read ≠ "read" || db.isRead opts.userID n) && (q.read ≠ "unread" || !db.isRead opts.userID n)

def effectiveLimit (limit : ℤ) : ℕ := if limit ≤ 0 then 25 else min limit.toNat 200

/-- `ListNotifications`, each row with its read flag; a negative OFFSET is an error. -/
def listNotifications (db : FeedTables) (opts : ListOpts) : Option (List (Notification × Bool) × ℕ) :=
  if opts.query.offset < 0 then none
  else
    let found := db.rows.filter (listWhere db opts)
    let page := ((found.insertionSort (fun n n' ↦ n'.createdAt ≤ n.createdAt)).drop opts.query.offset.toNat).take
      (effectiveLimit opts.query.limit)
    some (page.map (fun n ↦ (n, db.isRead opts.userID n)), found.length)

/-- The WHERE of `UnreadCount`: a nil slice is NULL, which no namespace equals. -/
def unreadWhere (db : FeedTables) (userID : String) (namespaces : Option (List String)) (now : ℤ) (n : Notification) :
    Bool :=
  !db.isRead userID n && decide (now - 30 * day < n.createdAt) &&
    ((namespaces.getD []).contains n.resourceNS || n.resourceNS = "")

def unreadCount (db : FeedTables) (userID : String) (namespaces : Option (List String)) (now : ℤ) : ℕ :=
  db.rows.countP (unreadWhere db userID namespaces now)

/-- What a feed request meets: the RBAC lookup, and whether the store's statements are answered. -/
structure FeedEnv where
  digest : String → String
  rbac : RBACEnv
  answered : Bool := true

/-- `accessibleNamespaces` asks for a summary without naming namespaces; nil is for admins. -/
def accessibleNamespaces (env : FeedEnv) (user : User) (cache : RBACCache) : Except String (Option (List String)) :=
  if isAdmin user then .ok none
  else match (getSummary env.digest env.rbac user [] cache).1 with
    | .error err => .error ("get RBAC summary: " ++ err)
    | .ok summary => .ok (some (summary.namespaces.entries.map Sigma.fst))

def handleList (env : FeedEnv) (db : FeedTables) (user : User) (cache : RBACCache) (query : FeedQuery) :
    Except APIError (List (Notification × Bool) × ℕ) :=
  match accessibleNamespaces env user cache with
  | .error _ => .error ⟨500, "failed to check RBAC"⟩
  | .ok namespaces =>
    match if env.answered then listNotifications db ⟨user.kubernetesUsername, namespaces, query⟩ else none with
    | none => .error ⟨500, "failed to list notifications"⟩
    | some answer => .ok answer

def handleUnreadCount (env : FeedEnv) (db : FeedTables) (user : User) (cache : RBACCache) (now : ℤ) :
    Except APIError ℕ :=
  match accessibleNamespaces env user cache with
  | .error _ => .error ⟨500, "failed to check RBAC"⟩
  | .ok namespaces =>
    if env.answered then .ok (unreadCount db user.kubernetesUsername namespaces now)
    else .error ⟨500, "failed to count unread"⟩

end KubeCenter.Notifications
