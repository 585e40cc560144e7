import Mathlib.Data.List.Infix
import KubeCenter.Core.GoJson
import KubeCenter.Core.GoMap
import KubeCenter.Core.Http
import KubeCenter.Notifications.Store

namespace KubeCenter.Notifications

open KubeCenter.Core

abbrev ChannelConfig := GoMap String Json

/-- `cfg[key].(string)`, or the empty string. -/
def ChannelConfig.stringAt (cfg : ChannelConfig) (key : String) : String :=
  match cfg.lookup key with
  | some (.string s) => s
  | _ => ""

/-- A request body, as far as the channel handlers read it; `type` is free text here. -/
structure ChannelBody where
  name : String := ""
  type : String := ""
  config : ChannelConfig := ∅

/-- A row of `nc_channels`, its config decrypted. -/
structure ChannelRow where
  name : String
  type : ChannelType
  config : ChannelConfig
  createdBy : String
  updatedBy : String := ""

abbrev Channels := GoMap String ChannelRow

def maxRequestBody : ℕ := 64 * 1024

def ChannelType.text : ChannelType → String
  | .slack => "slack"
  | .email => "email"
  | .webhook => "webhook"
  | .mobilePush => "mobile_push"

def isValidChannelType (type : String) : Bool :=
  type = ChannelType.slack.text || type = ChannelType.email.text || type = ChannelType.webhook.text ||
    type = ChannelType.mobilePush.text

/-- The types that the CHECK of `nc_channels.type` lets in; it has no mobile push. -/
def columnType (type : String) : Option ChannelType :=
  [.slack, .email, .webhook].find? (fun t : ChannelType ↦ t.text = type)

/-- The URL that is vetted for a channel of this type, an empty one when it is missing. -/
def urlOf (type : String) (cfg : ChannelConfig) : Option String :=
  if type = ChannelType.slack.text then some (cfg.stringAt "webhookUrl")
  else if type = ChannelType.webhook.text then some (cfg.stringAt "url")
  else none

/-- The texts of `validateChannelURLs`: a URL that is missing, and the prefix of a rejection. -/
def urlErrors (type : String) : String × String :=
  if type = ChannelType.slack.text then ("Slack channel requires a webhookUrl", "invalid Slack webhook URL: ")
  else ("Webhook channel requires a url", "invalid webhook URL: ")

/-- `validateRemoteURL` answers as `k8s.ValidateRemoteURL` does during the request. -/
def validateChannelURLs (validateRemoteURL : String → Option String) (type : String) (cfg : ChannelConfig) :
    Option String :=
  match urlOf type cfg with
  | none => none
  | some url =>
    if url = "" then some (urlErrors type).1
    else (validateRemoteURL url).map ((urlErrors type).2 ++ ·)

/-- What a channel request meets: the resolver behind `ValidateRemoteURL`, the id the database draws,
and whether each of the handler's statements succeeds. -/
structure ChannelEnv where
  validateRemoteURL : String → Option String
  newID : String := ""
  fetched : Bool := true
  written : Bool := true

/-- `CreateChannel`; the name is unique. -/
def createChannel (env : ChannelEnv) (rows : Channels) (ch : ChannelBody) (createdBy : String) : Option Channels :=
  match columnType ch.type with
  | none => none
  | some type =>
    if env.written = true ∧ rows.lookup env.newID = none ∧ ∀ e ∈ rows.entries, e.2.name ≠ ch.name then
      some (rows.insert env.newID { name := ch.name, type, config := ch.config, createdBy })
    else none

/-- `UpdateChannel` sets the name and the config of the row, never its type. -/
def updateChannel (rows : Channels) (id : String) (row : ChannelRow) (ch : ChannelBody) (updatedBy : String) : Channels :=
  rows.insert id { row with name := ch.name, config := ch.config, updatedBy }

/-- `user` is none without a user in the context, `body` when it does not decode. -/
def handleCreateChannel (env : ChannelEnv) (user : Option String) (body : Option ChannelBody) (rows : Channels) :
    Except APIError Channels :=
  match user, body with
  | none, _ => .error ⟨401, "unauthorized"⟩
  | some _, none => .error ⟨400, "invalid request body"⟩
  | some user, some ch =>
    if ch.name = "" ∨ ch.type = "" then .error ⟨400, "name and type are required"⟩
    else if isValidChannelType ch.type = false then .error ⟨400, "type must be slack, email, or webhook"⟩
    else match validateChannelURLs env.validateRemoteURL ch.type ch.config with
      | some err => .error ⟨400, err⟩
      | none =>
        match createChannel env rows ch user with
        | none => .error ⟨500, "failed to create channel"⟩
        | some rows => .ok rows

/-- The type an update is vetted for: the body's, or the row's if the body names none. -/
def vettedType (row : ChannelRow) (ch : ChannelBody) : String :=
  if ch.type = "" then row.type.text else ch.type

def handleUpdateChannel (env : ChannelEnv) (user : Option String) (id : String) (body : Option ChannelBody)
    (rows : Channels) : Except APIError Channels :=
  match user with
  | none => .error ⟨401, "unauthorized"⟩
  | some user =>
    if env.fetched = false then .error ⟨500, "failed to get channel"⟩
    else match rows.lookup id, body with
      | none, _ => .error ⟨404, "channel not found"⟩
      | some _, none => .error ⟨400, "invalid request body"⟩
      | some row, some ch =>
        match validateChannelURLs env.validateRemoteURL (vettedType row ch) ch.config with
        | some err => .error ⟨400, err⟩
        | none =>
          if env.written = true ∧ ∀ e ∈ rows.entries, e.2.name = ch.name → e.1 = id then
            .ok (updateChannel rows id row ch user)
          else .error ⟨500, "failed to update channel"⟩

def sensitiveKeys : List String := ["url", "secret", "password", "token", "key", "authorization"]

/-- `toLower` is the lower case of a rune. -/
def isSensitiveKey (toLower : Char → Char) (key : String) : Bool :=
  sensitiveKeys.any (fun s ↦ decide (s.toList <:+: key.toList.map toLower))

/-- The last `n` bytes of a text whose characters come in reverse, as JSON writes them: each byte of a
character that is cut becomes a replacement character. -/
def lastBytes : ℕ → List Char → List Char
  | 0, _ | _, [] => []
  | n + 1, c :: cs =>
    if c.utf8Size ≤ n + 1 then c :: lastBytes (n + 1 - c.utf8Size) cs else List.replicate (n + 1) '\ufffd'

def maskValue : Json → Json
  | .string val =>
    if 4 < val.utf8ByteSize then .string ("****" ++ String.ofList (lastBytes 4 val.toList.reverse).reverse)
    else .string "****"
  | .object fields => .object (fields.map (fun f ↦ (f.1, .string "****")))
  | _ => .string "****"

def maskConfig (toLower : Char → Char) (cfg : ChannelConfig) : ChannelConfig :=
  cfg.mapValues (fun k v ↦ if isSensitiveKey toLower k then maskValue v else v)

end KubeCenter.Notifications
