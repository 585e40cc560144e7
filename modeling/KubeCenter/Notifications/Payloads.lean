import KubeCenter.Notifications.Channels
import KubeCenter.Notifications.Store
import KubeCenter.Notifications.Routing

/-! What leaves the notification service: Slack messages, webhook bodies, push messages and digest mails. -/

namespace KubeCenter.Notifications

open KubeCenter.Core

/-- What the senders use of the library: the formats of a time, the escaping of HTML, the lower case of a rune, and the
signature of a body under a secret. -/
structure Library where
  rfc3339 : ℤ → String
  digestTime : ℤ → String
  digestDate : ℤ → String
  escape : String → String
  toLower : Char → Char
  sign : String → Json → String

/-- A request to an external channel, with its headers in the order they are set. -/
structure Post where
  url : String
  headers : List (String × String)
  body : Json

def severityColor : Severity → String
  | .critical => ":red_circle:"
  | .warning => ":large_orange_circle:"
  | .info => ":large_blue_circle:"

def contentType : String × String := ("Content-Type", "application/json")

def slackContextLine (n : Notification) : String :=
  String.join (["*Severity:* ", severityColor n.severity, " ", n.severity.text, "\n*Source:* ", n.source.text] ++
    if n.suppressResourceFields then []
    else ["\n*Resource:* ", n.resourceKind, "/", n.resourceNS, "/", n.resourceName])

def slackText (type text : String) : Json := .object [("text", .string text), ("type", .string type)]

def slackBlock (type : String) (text : Json) : Json := .object [("text", text), ("type", .string type)]

def slackPayload (n : Notification) : Json :=
  .object [
    ("blocks", .array ([slackBlock "header" (slackText "plain_text" n.title),
      slackBlock "section" (slackText "mrkdwn" (slackContextLine n))] ++
      if n.message = "" then [] else [slackBlock "section" (slackText "mrkdwn" n.message)])),
    ("text", .string (String.join ["[", n.severity.text, "] ", n.title]))]

def sendSlack (cfg : ChannelConfig) (n : Notification) : Option Post :=
  if cfg.stringAt "webhookUrl" = "" then none
  else some ⟨cfg.stringAt "webhookUrl", [contentType], slackPayload n⟩

def omitempty (key value : String) : Fields := if value = "" then [] else [(key, .string value)]

variable (lib : Library)

/-- What is queued has no id yet. -/
def webhookPayload (n : Notification) : Json :=
  .object ([("id", .string ""), ("source", .string n.source.text), ("severity", .string n.severity.text),
      ("title", .string n.title), ("message", .string n.message)] ++ omitempty "resourceKind" n.resourceKind ++
    (if n.suppressResourceFields then []
      else omitempty "resourceNamespace" n.resourceNS ++ omitempty "resourceName" n.resourceName) ++
    [("createdAt", .string (lib.rfc3339 n.createdAt))])

def blockedHeaders : List String :=
  ["host", "authorization", "cookie", "x-signature-256", "x-forwarded-for", "x-forwarded-host", "x-forwarded-proto",
    "content-type", "user-agent"]

def customHeaders (cfg : ChannelConfig) : List (String × String) :=
  match cfg.lookup "headers" with
  | some (.object headers) => headers.filterMap (fun (k, v) ↦
      match v with
      | .string sv => if blockedHeaders.contains (String.ofList (k.toList.map lib.toLower)) then none else some (k, sv)
      | _ => none)
  | _ => []

def signature (cfg : ChannelConfig) (payload : Json) : List (String × String) :=
  if cfg.stringAt "secret" = "" then []
  else [("X-Signature-256", "sha256=" ++ lib.sign (cfg.stringAt "secret") payload)]

def sendWebhook (cfg : ChannelConfig) (n : Notification) : Option Post :=
  if cfg.stringAt "url" = "" then none
  else some ⟨cfg.stringAt "url",
    [contentType, ("User-Agent", "k8sCenter-Webhook/1.0")] ++ signature lib cfg (webhookPayload lib n) ++
      customHeaders lib cfg,
    webhookPayload lib n⟩

/-- The data of a push message, as a map is written: by its keys. -/
def fcmData (n : Notification) : Fields :=
  [("clusterId", .string n.clusterID)] ++
    (if n.suppressResourceFields then []
      else [("resourceKind", .string n.resourceKind), ("resourceName", .string n.resourceName),
        ("resourceNamespace", .string n.resourceNS)]) ++
    [("severity", .string n.severity.text), ("source", .string n.source.text)]

def fcmMessage (deviceToken : String) (n : Notification) : Json :=
  .object [("message", .object [("token", .string deviceToken),
    ("notification", .object [("title", .string n.title), ("body", .string n.message)]),
    ("data", .object (fcmData n))])]

def sendToToken (projectID accessToken deviceToken : String) (n : Notification) : Post :=
  ⟨String.join ["https://fcm.googleapis.com/v1/projects/", projectID, "/messages:send"],
    [contentType, ("Authorization", "Bearer " ++ accessToken)], fcmMessage deviceToken n⟩

/-- What one dispatch meets: the channel's configuration, the FCM project if there is one, and the devices of the
channel's user, each with the access token its turn gets. -/
structure SendEnv where
  config : ChannelConfig := ∅
  projectID : Option String := none
  devices : List (String × Option String) := []

def sendMobilePush (env : SendEnv) (n : Notification) : List Post :=
  match env.projectID with
  | none => []
  | some projectID => env.devices.filterMap (fun (deviceToken, accessToken) ↦
      accessToken.map (fun tok ↦ sendToToken projectID tok deviceToken n))

/-- The requests one dispatch makes. -/
def dispatch (env : SendEnv) (ch : Channel) (n : Notification) : List Post :=
  match ch.type with
  | .slack => (sendSlack env.config n).toList
  | .webhook => (sendWebhook lib env.config n).toList
  | .mobilePush => sendMobilePush env n
  | .email => []

def severityEmoji : Severity → String
  | .critical => "🔴"
  | .warning => "🟡"
  | .info => "🔵"

def digestRow (n : Notification) : String :=
  String.join (["\n  <tr><td style=\"padding:12px;border-bottom:1px solid #333;\">\n    <strong>",
      lib.escape (severityEmoji n.severity), " ", lib.escape n.title,
      "</strong><br>\n    <span style=\"color:#888;font-size:13px;\">", lib.escape n.source.text, " · ",
      lib.escape n.resourceKind, "/", lib.escape n.resourceNS, "/", lib.escape n.resourceName, " · ",
      lib.escape (lib.digestTime n.createdAt), "</span>\n    "] ++
    (if n.message = "" then [] else ["<br><span style=\"font-size:13px;\">", lib.escape n.message, "</span>"]) ++
    ["\n  </td></tr>\n  "])

def digestHead (count : ℕ) : String :=
  String.join ["<!DOCTYPE html>\n<html><body>\n",
    "<table width=\"600\" style=\"margin:0 auto;font-family:sans-serif;border-collapse:collapse;\">\n",
    "  <tr><td style=\"background:#1a1b26;color:#c0caf5;padding:20px;\">\n",
    "    <h2 style=\"margin:0;\">k8sCenter — Notification Digest</h2>\n",
    "    <p style=\"margin:8px 0 0;\">", toString count, " notifications since last digest</p>\n  </td></tr>\n  "]

def digestFoot : String :=
  String.join ["\n  <tr><td style=\"padding:16px;text-align:center;font-size:13px;color:#888;\">\n",
    "    All times UTC · <a href=\"#\" style=\"color:#7aa2f7;\">Open k8sCenter</a>\n",
    "  </td></tr>\n</table>\n</body></html>"]

def renderDigestEmail (notifications : List Notification) : String :=
  String.join ([digestHead notifications.length] ++ notifications.map (digestRow lib) ++ [digestFoot])

/-- A mail as it is queued. -/
structure Mail where
  recipients : List String
  subject : String
  htmlBody : String

/-- The mail `sendDigests` makes of what its query found. -/
def digestMail (now : ℤ) (ch : Channel) (notifications : List Notification) : Mail where
  recipients := ch.recipients
  subject := String.join
    ["k8sCenter Notification Digest — ", lib.digestDate now, " — ", toString notifications.length, " notifications"]
  htmlBody := renderDigestEmail lib (notifications.map sanitizeForEmailDigest)

inductive Payload where
  | post (p : Post)
  | mail (m : Mail)

/-- A notification about a resource of another namespace and name. -/
def Notification.rename (n : Notification) (ns name : String) : Notification :=
  { n with resourceNS := ns, resourceName := name }

variable {lib} {env : SendEnv} {ch : Channel} {n : Notification} {ns name : String}

theorem slackPayload_rename (h : n.suppressResourceFields = true) : slackPayload (n.rename ns name) = slackPayload n := by
  simp only [slackPayload, slackContextLine, Notification.rename, h, if_true]

theorem webhookPayload_rename (h : n.suppressResourceFields = true) :
    webhookPayload lib (n.rename ns name) = webhookPayload lib n := by
  simp only [webhookPayload, Notification.rename, h, if_true]

theorem fcmMessage_rename (h : n.suppressResourceFields = true) (deviceToken : String) :
    fcmMessage deviceToken (n.rename ns name) = fcmMessage deviceToken n := by
  simp only [fcmMessage, fcmData, Notification.rename, h, if_true]

theorem sendToToken_rename (h : n.suppressResourceFields = true) (projectID accessToken deviceToken : String) :
    sendToToken projectID accessToken deviceToken (n.rename ns name) = sendToToken projectID accessToken deviceToken n := by
  unfold sendToToken
  rw [fcmMessage_rename h]

/-- The flag keeps the name of the resource out of every request. -/
theorem dispatch_rename (h : n.suppressResourceFields = true) :
    dispatch lib env ch (n.rename ns name) = dispatch lib env ch n := by
  have hslack : sendSlack env.config (n.rename ns name) = sendSlack env.config n := by
    rw [sendSlack, sendSlack, slackPayload_rename h]
  have hwebhook : sendWebhook lib env.config (n.rename ns name) = sendWebhook lib env.config n := by
    rw [sendWebhook, sendWebhook, webhookPayload_rename h]
  have hpush : sendMobilePush env (n.rename ns name) = sendMobilePush env n := by
    unfold sendMobilePush
    cases env.projectID with
    | none => rfl
    | some projectID => simp only [sendToToken_rename h]
  unfold dispatch
  rw [hslack, hwebhook, hpush]

/-- A row has no flag; its source keeps the name out of the digest. -/
theorem sanitize_rename (h : suppressResourceFieldsBySource n.source = true) :
    sanitizeForEmailDigest (n.rename ns name) = sanitizeForEmailDigest n := by
  have hrenamed : suppressResourceFieldsBySource (n.rename ns name).source = true := h
  unfold sanitizeForEmailDigest
  rw [if_pos h, if_pos hrenamed]
  rfl

theorem digestMail_congr {notifications notifications' : List Notification} (now : ℤ) (ch : Channel)
    (h : notifications.map sanitizeForEmailDigest = notifications'.map sanitizeForEmailDigest) :
    digestMail lib now ch notifications = digestMail lib now ch notifications' := by
  have hlength : notifications.length = notifications'.length := by simpa using congrArg List.length h
  rw [digestMail, digestMail, h, hlength]

end KubeCenter.Notifications
