import Mathlib.Algebra.Group.Nat.Defs
import KubeCenter.Core.Http
import KubeCenter.Notifications.Channels
import KubeCenter.Store.Settings

namespace KubeCenter.Server

open KubeCenter.Core KubeCenter.Store

def maxAuthBodySize : ℕ := 2 ^ 16

/-- What a settings update meets: `url.Parse`, as the scheme of what it parses, the resolver behind
`ValidateRemoteURL`, the nonce of `Encrypt`, the database's clock, and whether the statement succeeds. -/
structure SettingsEnv where
  parseScheme : String → Option String
  validateRemoteURL : String → Option String
  nonce : Bytes := []
  now : ℤ := 0
  written : Bool := true

/-- The error text for a URL that is turned down. -/
def validateSettingsURL (env : SettingsEnv) (raw : String) : Option String :=
  if raw = "" then none
  else match env.parseScheme raw with
    | none => some ("invalid URL: " ++ raw)
    | some scheme =>
      if scheme.toLower ≠ "http" ∧ scheme.toLower ≠ "https" then some "URL must use http or https scheme"
      else (env.validateRemoteURL raw).map ("URL rejected: " ++ ·)

/-- The first of the document's URLs that is turned down. -/
def settingsURLError (env : SettingsEnv) (patch : AppSettings) : Option String :=
  patch.monitoringPrometheusURL.bind (validateSettingsURL env) <|>
    patch.monitoringGrafanaURL.bind (validateSettingsURL env)

/-- `handleUpdateAppSettings` on the row, without the audit entry and the reply. -/
def handleUpdateAppSettings (svc : SettingsService) (env : SettingsEnv) (body : RequestBody AppSettings) (row : Row) :
    Except APIError Row :=
  match body.decode maxAuthBodySize with
  | none => .error ⟨400, "invalid request body"⟩
  | some patch =>
    match settingsURLError env patch with
    | some err => .error ⟨400, err⟩
    | none =>
      if env.written then .ok (svc.patched env.nonce env.now row patch)
      else .error ⟨500, "failed to update settings"⟩

end KubeCenter.Server

namespace KubeCenter.Server.MaskedReads

open KubeCenter.Core KubeCenter.Store KubeCenter.Notifications

section Settings

variable (svc : SettingsService) (env : SettingsEnv) (size : ℕ) (row : Row)

/-- What `handleGetAppSettings` answers, sent back; `size` is the length of its text. -/
def resubmitSettings : Except APIError Row :=
  handleUpdateAppSettings svc env ⟨size, some (maskedSettings (svc.load row)).reread⟩ row

/-- The stored secrets are as they were. The token is kept when its bytes are, or when what is
stored decrypts to the same text; an empty one is no token. -/
structure SettingsKept (row row' : Row) : Prop where
  grafanaToken : row'.monitoringGrafanaToken = row.monitoringGrafanaToken
  smtpUsername : row'.alertingSMTPUsername = row.alertingSMTPUsername
  smtpPassword : row'.alertingSMTPPassword = row.alertingSMTPPassword
  gitHubToken : row'.gitHubToken = row.gitHubToken ∨ (svc.load row).gitHubToken.isSome = true ∧
    (svc.load row').gitHubToken.getD "" = (svc.load row).gitHubToken.getD ""

/-- The endpoint carries the document out. -/
def SettingsTaken : Prop :=
  size ≤ maxAuthBodySize ∧ settingsURLError env (svc.load row) = none ∧ env.written = true

/-- The secret is not set, empty, or reads as its mask. -/
def Unmasked (secret : Option String) : Prop := ∀ v ∈ secret, v = "" ∨ v = "****"

def settingsSecrets : List (Option String) :=
  [(svc.load row).monitoringGrafanaToken, (svc.load row).alertingSMTPUsername,
    (svc.load row).alertingSMTPPassword, (svc.load row).gitHubToken]

variable {svc env size row}

theorem maskSecret_eq_iff {secret : Option String} : maskSecret secret = secret ↔ Unmasked secret := by
  cases secret with
  | none => simp [maskSecret, Unmasked]
  | some v =>
    by_cases hv : v = ""
    · simp [maskSecret, Unmasked, hv]
    · simp [maskSecret, Unmasked, hv, eq_comm]

theorem coalesce_mask_iff {secret : Option String} : coalesce (maskSecret secret) secret = secret ↔ Unmasked secret := by
  rw [← maskSecret_eq_iff]
  cases secret <;> simp [coalesce, maskSecret]

theorem load_congr {row row' : Row} (h : row'.gitHubToken = row.gitHubToken) :
    (svc.load row').gitHubToken = (svc.load row).gitHubToken := by
  simp only [SettingsService.load, h]

theorem cipher_of_load {text : String} (h : (svc.load row).gitHubToken = some text) : ∃ cipher, svc.cipher = some cipher := by
  cases hc : svc.cipher with
  | none => simp [SettingsService.load, hc] at h
  | some cipher => exact ⟨cipher, rfl⟩

theorem load_encrypted {cipher : Cipher} (hc : svc.cipher = some cipher) {nonce : Bytes} {text : String}
    (h : row.gitHubToken = some (cipher.encrypt nonce text)) : (svc.load row).gitHubToken = some text := by
  simp only [SettingsService.load, hc, h, if_neg (cipher.encrypt_ne nonce text), cipher.decrypt_encrypt]

/-- The document put on the row. -/
def resubmitted (svc : SettingsService) (env : SettingsEnv) (row : Row) : Row :=
  svc.patched env.nonce env.now row (maskedSettings (svc.load row)).reread

theorem resubmitted_token_none (h : (svc.load row).gitHubToken = none) :
    (resubmitted svc env row).gitHubToken = row.gitHubToken := by
  simp [resubmitted, SettingsService.patched, SettingsService.tokenParam, AppSettings.reread, maskedSettings, h,
    maskSecret, coalesce]

theorem resubmitted_token_empty (h : (svc.load row).gitHubToken = some "") :
    (svc.load (resubmitted svc env row)).gitHubToken = none := by
  obtain ⟨cipher, hc⟩ := cipher_of_load h
  have hmask : (maskedSettings (svc.load row)).reread.gitHubToken = some "" := by
    simp [AppSettings.reread, maskedSettings, h, maskSecret]
  have htoken : (resubmitted svc env row).gitHubToken = some [] := by
    simp [resubmitted, SettingsService.patched, SettingsService.tokenParam, hmask, hc, coalesce, utf8]
  simp [SettingsService.load, hc, htoken]

theorem resubmitted_token_text {text : String} (h : (svc.load row).gitHubToken = some text) (hne : text ≠ "") :
    (svc.load (resubmitted svc env row)).gitHubToken = some "****" := by
  obtain ⟨cipher, hc⟩ := cipher_of_load h
  have hmask : (maskedSettings (svc.load row)).reread.gitHubToken = some "****" := by
    simp [AppSettings.reread, maskedSettings, h, maskSecret, hne]
  refine load_encrypted hc (?_ : _ = some (cipher.encrypt env.nonce "****"))
  simp [resubmitted, SettingsService.patched, SettingsService.tokenParam, hmask, hc, coalesce]

theorem gitHubToken_kept_iff (svc : SettingsService) (env : SettingsEnv) (row : Row) :
    ((resubmitted svc env row).gitHubToken = row.gitHubToken ∨ (svc.load row).gitHubToken.isSome = true ∧
      (svc.load (resubmitted svc env row)).gitHubToken.getD "" = (svc.load row).gitHubToken.getD "") ↔
    Unmasked (svc.load row).gitHubToken := by
  cases h : (svc.load row).gitHubToken with
  | none => exact iff_of_true (.inl (resubmitted_token_none h)) (fun _ hv ↦ by cases hv)
  | some text =>
    by_cases hne : text = ""
    · subst hne
      rw [resubmitted_token_empty h]
      exact iff_of_true (.inr ⟨rfl, rfl⟩) (fun _ hv ↦ .inl (Option.some.inj hv).symm)
    · have hnew : (svc.load (resubmitted svc env row)).gitHubToken = some "****" := resubmitted_token_text h hne
      constructor
      · intro hkept v hv
        cases hv
        rcases hkept with hbytes | ⟨-, htext⟩
        · rw [load_congr hbytes, h] at hnew
          exact .inr (Option.some.inj hnew)
        · rw [hnew] at htext
          exact .inr htext.symm
      · intro hun
        rcases hun text rfl with he | rfl
        · exact absurd he hne
        · exact .inr ⟨rfl, by rw [hnew]⟩

theorem settingsKept_resubmitted_iff :
    SettingsKept svc row (resubmitted svc env row) ↔ ∀ secret ∈ settingsSecrets svc row, Unmasked secret := by
  have hcolumns : (∀ secret ∈ settingsSecrets svc row, Unmasked secret) ↔ Unmasked row.monitoringGrafanaToken ∧
      Unmasked row.alertingSMTPUsername ∧ Unmasked row.alertingSMTPPassword ∧ Unmasked (svc.load row).gitHubToken := by
    simp [settingsSecrets, SettingsService.load]
  rw [hcolumns, ← coalesce_mask_iff, ← coalesce_mask_iff, ← coalesce_mask_iff, ← gitHubToken_kept_iff svc env row]
  constructor
  · rintro ⟨hg, hu, hp, ht⟩
    exact ⟨hg, hu, hp, ht⟩
  · rintro ⟨hg, hu, hp, ht⟩
    exact ⟨hg, hu, hp, ht⟩

theorem settingsURLError_masked :
    settingsURLError env (maskedSettings (svc.load row)).reread = settingsURLError env (svc.load row) := rfl

/-- A document that is not carried out changes nothing; one that is writes the masks. -/
theorem settings_kept_iff :
    SettingsKept svc row ((resubmitSettings svc env size row).toOption.getD row) ↔
      (SettingsTaken svc env size row → ∀ secret ∈ settingsSecrets svc row, Unmasked secret) := by
  by_cases ht : SettingsTaken svc env size row
  · obtain ⟨hsize, hurl, hwritten⟩ := id ht
    have hok : resubmitSettings svc env size row = .ok (resubmitted svc env row) := by
      simp only [resubmitSettings, handleUpdateAppSettings, RequestBody.decode, if_pos hsize, settingsURLError_masked,
        hurl, hwritten, if_true]
      rfl
    rw [hok, imp_iff_right ht]
    exact settingsKept_resubmitted_iff
  · have herr : (resubmitSettings svc env size row).toOption = none := by
      simp only [resubmitSettings, handleUpdateAppSettings, RequestBody.decode]
      by_cases hsize : size ≤ maxAuthBodySize
      · simp only [if_pos hsize, settingsURLError_masked]
        cases hurl : settingsURLError env (svc.load row) with
        | some err => rfl
        | none =>
          have hw : env.written = false := by
            rw [Bool.eq_false_iff]
            exact fun hw ↦ ht ⟨hsize, hurl, hw⟩
          simp [hw, Except.toOption]
      · simp [if_neg hsize, Except.toOption]
    rw [herr]
    exact iff_of_true ⟨rfl, rfl, rfl, .inl rfl⟩ (fun h ↦ absurd h ht)

end Settings

section Channels

variable (env : ChannelEnv) (user : String) (id : String) (size : ℕ) (toLower : Char → Char) (rows : Channels)

/-- The channel as `HandleListChannels` shows it. -/
def maskedBody (row : ChannelRow) : ChannelBody :=
  { name := row.name, type := row.type.text, config := maskConfig toLower row.config }

def resubmitChannel : Except APIError Channels :=
  let body : RequestBody ChannelBody := ⟨size, (rows.lookup id).map (maskedBody toLower)⟩
  handleUpdateChannel env (some user) id (body.decode maxRequestBody) rows

def configAt (rows : Channels) (id key : String) : Option Json := (rows.lookup id).bind (fun row ↦ row.config.lookup key)

/-- The stored secrets of the channel, those under sensitive keys and the headers, are as they were. -/
def ChannelKept (rows rows' : Channels) : Prop :=
  ∀ key, isSensitiveKey toLower key = true ∨ key = "headers" → configAt rows' id key = configAt rows id key

def ChannelTaken (row : ChannelRow) : Prop :=
  env.fetched = true ∧ size ≤ maxRequestBody ∧
    validateChannelURLs env.validateRemoteURL row.type.text (maskConfig toLower row.config) = none ∧
    env.written = true ∧ ∀ e ∈ rows.entries, e.2.name = row.name → e.1 = id

variable {env user id size toLower rows} {row : ChannelRow}

theorem text_ne (type : ChannelType) : type.text ≠ "" := by cases type <;> decide

theorem vettedType_masked : vettedType row (maskedBody toLower row) = row.type.text :=
  if_neg (text_ne row.type)

theorem resubmitChannel_taken (hrow : rows.lookup id = some row) (ht : ChannelTaken env id size toLower rows row) :
    resubmitChannel env user id size toLower rows = .ok (updateChannel rows id row (maskedBody toLower row) user) := by
  obtain ⟨hfetched, hsize, hurl, hwritten⟩ := ht
  simp only [resubmitChannel, RequestBody.decode, if_pos hsize, hrow, Option.map_some, handleUpdateChannel, hfetched,
    Bool.true_eq_false, if_false, vettedType_masked]
  rw [show (maskedBody toLower row).config = maskConfig toLower row.config from rfl, hurl]
  exact if_pos hwritten

theorem resubmitChannel_refused (hrow : rows.lookup id = some row) (ht : ¬ ChannelTaken env id size toLower rows row) :
    (resubmitChannel env user id size toLower rows).toOption = none := by
  cases hr : resubmitChannel env user id size toLower rows with
  | error => rfl
  | ok rows' =>
    refine absurd ?_ ht
    simp only [resubmitChannel, handleUpdateChannel, hrow, RequestBody.decode, Option.map_some] at hr
    split at hr
    · cases hr
    · next hfetched =>
      by_cases hsize : size ≤ maxRequestBody
      · simp only [if_pos hsize, vettedType_masked] at hr
        cases hurl : validateChannelURLs env.validateRemoteURL row.type.text (maskedBody toLower row).config with
        | some err => simp only [hurl, reduceCtorEq] at hr
        | none =>
          simp only [hurl] at hr
          split at hr
          · next hwritten => exact ⟨by simpa using hfetched, hsize, hurl, hwritten⟩
          · cases hr
      · simp only [if_neg hsize, reduceCtorEq] at hr

theorem configAt_updated (hrow : rows.lookup id = some row) (key : String) :
    configAt (updateChannel rows id row (maskedBody toLower row) user) id key =
      (configAt rows id key).map (fun v ↦ if isSensitiveKey toLower key then maskValue v else v) := by
  simp [configAt, updateChannel, maskedBody, maskConfig, GoMap.lookup_mapValues, hrow]

/-- What the masks leave of the secrets of a channel, once the document is carried out. -/
theorem channelKept_updated_iff (hrow : rows.lookup id = some row) :
    ChannelKept id toLower rows (updateChannel rows id row (maskedBody toLower row) user) ↔
      ∀ key v, isSensitiveKey toLower key = true → row.config.lookup key = some v → maskValue v = v := by
  have hconfig (key : String) : configAt rows id key = row.config.lookup key := by simp [configAt, hrow]
  simp only [ChannelKept, configAt_updated hrow, hconfig]
  constructor
  · intro h key v hkey hv
    have hkept := h key (.inl hkey)
    rw [hv, Option.map_some, if_pos hkey] at hkept
    exact Option.some.inj hkept
  · intro h key _
    by_cases hkey : isSensitiveKey toLower key = true
    · cases hv : row.config.lookup key with
      | none => rfl
      | some v => simp [hkey, h key v hkey hv]
    · simp [hkey]

theorem channel_kept_iff :
    ChannelKept id toLower rows ((resubmitChannel env user id size toLower rows).toOption.getD rows) ↔
      ∀ row, rows.lookup id = some row → ChannelTaken env id size toLower rows row →
        ∀ key v, isSensitiveKey toLower key = true → row.config.lookup key = some v → maskValue v = v := by
  cases hrow : rows.lookup id with
  | none =>
    have herr : (resubmitChannel env user id size toLower rows).toOption = none := by
      simp only [resubmitChannel, handleUpdateChannel, hrow]
      split <;> rfl
    rw [herr]
    exact iff_of_true (fun _ _ ↦ rfl) (fun row h ↦ by cases h)
  | some row =>
    by_cases ht : ChannelTaken env id size toLower rows row
    · rw [resubmitChannel_taken hrow ht]
      refine (channelKept_updated_iff hrow).trans ⟨?_, fun h ↦ h row rfl ht⟩
      rintro h row' ⟨⟩ -
      exact h
    · rw [resubmitChannel_refused hrow ht]
      refine iff_of_true (fun _ _ ↦ rfl) ?_
      rintro row' ⟨⟩ ht'
      exact absurd ht' ht

end Channels

/-- Sending a masked read back keeps the stored secrets exactly when it is turned down or the secrets
read as their masks, for the settings as for every channel. -/
theorem masked_reads_kept_iff (svc : SettingsService) (settingsEnv : SettingsEnv) (row : Row)
    (channelEnv : ChannelEnv) (user id : String) (toLower : Char → Char) (rows : Channels) (size : ℕ) :
    (SettingsKept svc row ((resubmitSettings svc settingsEnv size row).toOption.getD row) ↔
        (SettingsTaken svc settingsEnv size row → ∀ secret ∈ settingsSecrets svc row, Unmasked secret)) ∧
      (ChannelKept id toLower rows ((resubmitChannel channelEnv user id size toLower rows).toOption.getD rows) ↔
        ∀ row, rows.lookup id = some row → ChannelTaken channelEnv id size toLower rows row →
          ∀ key v, isSensitiveKey toLower key = true → row.config.lookup key = some v → maskValue v = v) :=
  ⟨settings_kept_iff, channel_kept_iff⟩

def grafanaRow : Row := { monitoringGrafanaToken := some "glsa_4b1c" }

/-- The settings page, loaded and saved without a change, puts asterisks for the Grafana token. -/
theorem not_masked_reads_kept : ¬ SettingsKept ⟨none⟩ grafanaRow
    ((resubmitSettings ⟨none⟩ ⟨some, fun _ ↦ none, [], 1, true⟩ 200 grafanaRow).toOption.getD grafanaRow) := by
  intro h
  exact absurd h.grafanaToken (by decide)

end KubeCenter.Server.MaskedReads
