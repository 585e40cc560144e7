import Mathlib.Logic.Function.Basic
import KubeCenter.Core.Runs
import KubeCenter.Notifications.Channels

namespace KubeCenter.Notifications.ChannelVetting

open KubeCenter.Core Function

/-- The table, and as history for each row the URL that `ValidateRemoteURL` accepted in the request
that last wrote it. -/
structure State where
  channels : Channels := ∅
  accepted : String → Option String := fun _ ↦ none

def init : State := {}

inductive Act
  | create (env : ChannelEnv) (user : Option String) (body : Option ChannelBody)
  | update (env : ChannelEnv) (user : Option String) (id : String) (body : Option ChannelBody)
  | delete (id : String)

/-- The URL that `validateChannelURLs` hands to `ValidateRemoteURL`, if that accepts it. -/
def acceptedURL (env : ChannelEnv) (type : String) (cfg : ChannelConfig) : Option String :=
  (urlOf type cfg).filter (fun url ↦ env.validateRemoteURL url = none)

namespace State

variable (s : State)

def create (env : ChannelEnv) (user : Option String) (body : Option ChannelBody) : State :=
  match handleCreateChannel env user body s.channels, body with
  | .ok channels, some ch => ⟨channels, Function.update s.accepted env.newID (acceptedURL env ch.type ch.config)⟩
  | _, _ => s

def update (env : ChannelEnv) (user : Option String) (id : String) (body : Option ChannelBody) : State :=
  match handleUpdateChannel env user id body s.channels, s.channels.lookup id, body with
  | .ok channels, some row, some ch =>
    ⟨channels, Function.update s.accepted id (acceptedURL env (vettedType row ch) ch.config)⟩
  | _, _, _ => s

end State

def step (s : State) : Act → Option State
  | .create env user body => some (s.create env user body)
  | .update env user id body => some (s.update env user id body)
  | .delete id => some { s with channels := s.channels.erase id }

/-- The URL a stored channel is dispatched to, if it has one, was accepted in the request that wrote it. -/
def Vetted (s : State) : Prop :=
  ∀ id row, s.channels.lookup id = some row → ∀ url ∈ urlOf row.type.text row.config, s.accepted id = some url

/-- An update that goes through and leaves its channel with a URL to dispatch to has vetted this URL. -/
def VetsStored (s : State) : Act → Prop
  | .update env user id body => ∀ row ch, s.channels.lookup id = some row → body = some ch →
      (handleUpdateChannel env user id body s.channels).isOk = true →
      ∀ url ∈ urlOf row.type.text ch.config, urlOf (vettedType row ch) ch.config = some url
  | _ => True

variable {s t : State} {env : ChannelEnv} {user : Option String} {id : String} {body : Option ChannelBody}
  {rows rows' : Channels} {type : String} {cfg : ChannelConfig}

/-- The check passes only a URL that is there and accepted. -/
theorem acceptedURL_eq (h : validateChannelURLs env.validateRemoteURL type cfg = none) :
    acceptedURL env type cfg = urlOf type cfg := by
  unfold validateChannelURLs at h
  unfold acceptedURL
  cases hu : urlOf type cfg with
  | none => rfl
  | some url =>
    simp only [hu] at h
    split at h
    · cases h
    · rw [Option.map_eq_none_iff] at h
      exact Option.filter_eq_some_iff.mpr ⟨rfl, decide_eq_true h⟩

theorem columnType_text {t : ChannelType} (h : columnType type = some t) : t.text = type := by
  simpa using List.find?_some h

theorem handleCreateChannel_ok (h : handleCreateChannel env user body rows = .ok rows') :
    ∃ user' ch type', user = some user' ∧ body = some ch ∧ type'.text = ch.type ∧
      validateChannelURLs env.validateRemoteURL ch.type ch.config = none ∧
      rows' = rows.insert env.newID { name := ch.name, type := type', config := ch.config, createdBy := user' } := by
  unfold handleCreateChannel at h
  cases user with
  | none => cases h
  | some user' =>
    cases body with
    | none => cases h
    | some ch =>
      simp only [ite_error_eq_ok] at h
      obtain ⟨-, -, h⟩ := h
      cases hv : validateChannelURLs env.validateRemoteURL ch.type ch.config with
      | some err => simp only [hv, reduceCtorEq] at h
      | none =>
        simp only [hv, createChannel] at h
        cases ht : columnType ch.type with
        | none => simp only [ht, reduceCtorEq] at h
        | some type' =>
          simp only [ht] at h
          split at h
          · cases h
          · next heq =>
            cases h
            split at heq
            · cases heq
              exact ⟨user', ch, type', rfl, rfl, columnType_text ht, hv, rfl⟩
            · cases heq

theorem handleUpdateChannel_ok (h : handleUpdateChannel env user id body rows = .ok rows') :
    ∃ user' row ch, user = some user' ∧ rows.lookup id = some row ∧ body = some ch ∧
      validateChannelURLs env.validateRemoteURL (vettedType row ch) ch.config = none ∧
      rows' = updateChannel rows id row ch user' := by
  unfold handleUpdateChannel at h
  cases user with
  | none => cases h
  | some user' =>
    simp only [ite_error_eq_ok] at h
    obtain ⟨-, h⟩ := h
    cases hl : rows.lookup id with
    | none => simp only [hl, reduceCtorEq] at h
    | some row =>
      cases body with
      | none => simp only [hl, reduceCtorEq] at h
      | some ch =>
        simp only [hl] at h
        cases hv : validateChannelURLs env.validateRemoteURL (vettedType row ch) ch.config with
        | some err => simp only [hv, reduceCtorEq] at h
        | none =>
          simp only [hv] at h
          split at h <;> cases h
          exact ⟨user', row, ch, rfl, rfl, rfl, hv, rfl⟩

theorem create_cases (s : State) (env : ChannelEnv) (user : Option String) (body : Option ChannelBody) :
    s.create env user body = s ∨ ∃ row, s.create env user body =
        ⟨s.channels.insert env.newID row, Function.update s.accepted env.newID (urlOf row.type.text row.config)⟩ := by
  unfold State.create
  cases h : handleCreateChannel env user body s.channels with
  | error => exact .inl rfl
  | ok rows' =>
    obtain ⟨user', ch, type', -, rfl, ht, hv, rfl⟩ := handleCreateChannel_ok h
    refine .inr ⟨{ name := ch.name, type := type', config := ch.config, createdBy := user' }, ?_⟩
    dsimp only
    rw [acceptedURL_eq hv, ht]

theorem update_cases (s : State) (env : ChannelEnv) (user : Option String) (id : String) (body : Option ChannelBody) :
    s.update env user id body = s ∧ (handleUpdateChannel env user id body s.channels).isOk = false ∨
      ∃ user' row ch, s.channels.lookup id = some row ∧ body = some ch ∧
        (handleUpdateChannel env user id body s.channels).isOk = true ∧
        s.update env user id body = ⟨updateChannel s.channels id row ch user',
          Function.update s.accepted id (urlOf (vettedType row ch) ch.config)⟩ := by
  unfold State.update
  cases h : handleUpdateChannel env user id body s.channels with
  | error => exact .inl ⟨rfl, rfl⟩
  | ok rows' =>
    obtain ⟨user', row, ch, -, hl, rfl, hv, rfl⟩ := handleUpdateChannel_ok h
    refine .inr ⟨user', row, ch, hl, rfl, rfl, ?_⟩
    simp only [hl]
    rw [acceptedURL_eq hv]

theorem vetted_init : Vetted init := fun _ _ h ↦ by cases h

/-- Writing one row keeps the others vetted. -/
theorem Vetted.insert (h : Vetted s) {row : ChannelRow} {url : Option String}
    (hrow : ∀ u ∈ urlOf row.type.text row.config, url = some u) :
    Vetted ⟨s.channels.insert id row, Function.update s.accepted id url⟩ := by
  intro id' row' hl u hu
  by_cases hid : id' = id
  · subst hid
    rw [AList.lookup_insert] at hl
    cases hl
    simpa using hrow u hu
  · rw [AList.lookup_insert_ne hid] at hl
    simpa [Function.update_of_ne hid] using h id' row' hl u hu

theorem step_vetted {a : Act} (h : Vetted s) (hok : VetsStored s a) (hs : step s a = some t) : Vetted t := by
  cases a with
  | create env user body =>
    cases hs
    obtain hc | ⟨row, hc⟩ := create_cases s env user body <;> rw [hc]
    · exact h
    · exact h.insert (fun _ ↦ id)
  | update env user id body =>
    cases hs
    obtain ⟨hc, -⟩ | ⟨user', row, ch, hl, hb, hgo, hc⟩ := update_cases s env user id body <;> rw [hc]
    · exact h
    · exact h.insert (hok row ch hl hb hgo)
  | delete id =>
    cases hs
    intro id' row hl
    have hid : id' ≠ id := by
      rintro rfl
      simp at hl
    exact h id' row (by rwa [AList.lookup_erase_ne hid] at hl)

theorem not_vetted {a : Act} (hok : ¬ VetsStored s a) (hs : step s a = some t) : ¬ Vetted t := by
  cases a with
  | update env user id body =>
    cases hs
    intro hv
    apply hok
    intro row ch hl hb hgo url hurl
    obtain ⟨-, hno⟩ | ⟨user', row', ch', hl', hb', -, hc⟩ := update_cases s env user id body
    · rw [hgo] at hno
      cases hno
    · cases hl.symm.trans hl'
      cases hb.symm.trans hb'
      rw [hc] at hv
      simpa using hv id _ (AList.lookup_insert _) url hurl
  | create | delete => exact absurd trivial hok

/-- Over every sequence of requests, every stored URL is a vetted one exactly as long as no update
goes through that vets another URL than the one its channel is dispatched to. -/
theorem vetted_throughout_iff (acts : List Act) :
    Throughout step Vetted init acts ↔ EachStep step VetsStored init acts :=
  throughout_iff_eachStep (fun _ ↦ id) (fun _ _ _ ↦ step_vetted) (fun _ _ _ _ ↦ not_vetted) vetted_init acts

/-- The resolver knows one public host. -/
def publicOnly (url : String) : Option String :=
  if url = "https://hooks.example.com/ops" then none else some "URL resolves to link-local/metadata address"

/-- A Slack channel is created with a public URL and updated, as if it were an email channel, with the
address of the cloud's metadata service. -/
def retyped : List Act :=
  [.create { validateRemoteURL := publicOnly, newID := "ch-1" } (some "admin")
      (some { name := "ops", type := "slack",
              config := AList.singleton "webhookUrl" (.string "https://hooks.example.com/ops") }),
    .update { validateRemoteURL := publicOnly } (some "admin") "ch-1"
      (some { name := "ops", type := "email",
              config := AList.singleton "webhookUrl" (.string "http://169.254.169.254/latest/meta-data") })]

theorem retyped_stored : (exec step init retyped).map (fun s ↦ ((s.channels.lookup "ch-1").map (fun row ↦
      (row.type, row.config.stringAt "webhookUrl")), s.accepted "ch-1")) =
    some (some (.slack, "http://169.254.169.254/latest/meta-data"), none) := by
  decide

theorem not_vetted_throughout : ¬ Throughout step Vetted init retyped := by
  intro h
  obtain ⟨s, hs, he⟩ := Option.map_eq_some_iff.mp retyped_stored
  simp only [Prod.mk.injEq, Option.map_eq_some_iff] at he
  obtain ⟨⟨row, hl, htype, -⟩, hnone⟩ := he
  have hv := h.last hs "ch-1" row hl (row.config.stringAt "webhookUrl") (by simp [urlOf, htype])
  rw [hnone] at hv
  cases hv

end KubeCenter.Notifications.ChannelVetting
