import Mathlib.Data.Finset.Basic
import Mathlib.Data.Int.Notation
import Mathlib.Logic.Function.Basic
import KubeCenter.Core.GoString
import KubeCenter.Core.Runs

namespace KubeCenter.Store

open KubeCenter.Core

/-- The columns of `app_settings`, the GitHub token in the form `Token`. `none` is a value that
is not set: NULL in a row, nil in the service's structure, a missing field in a document. -/
structure Columns (Token : Type) where
  monitoringPrometheusURL : Option String := none
  monitoringGrafanaURL : Option String := none
  monitoringGrafanaToken : Option String := none
  monitoringNamespace : Option String := none
  alertingEnabled : Option Bool := none
  alertingSMTPHost : Option String := none
  alertingSMTPPort : Option ℤ := none
  alertingSMTPUsername : Option String := none
  alertingSMTPPassword : Option String := none
  alertingSMTPFrom : Option String := none
  alertingRateLimit : Option ℤ := none
  alertingRecipients : Option (List String) := none
  gitHubToken : Option Token := none
  updatedAt : ℤ := 0
  deriving DecidableEq

/-- The row keeps the token as bytes (`github_token_enc`). -/
abbrev Row := Columns Bytes

abbrev AppSettings := Columns String

/-- `Encrypt` and `Decrypt` under one master secret. The nonce comes first in what `Encrypt` returns. -/
structure Cipher where
  encrypt : Bytes → String → Bytes
  decrypt : Bytes → Option String
  decrypt_encrypt : ∀ nonce text, decrypt (encrypt nonce text) = some text
  encrypt_ne : ∀ nonce text, encrypt nonce text ≠ []

/-- `SettingsService`, without its pool and cache; an empty `encKey` is no cipher. -/
structure SettingsService where
  cipher : Option Cipher

/-- `COALESCE($i, column)`. -/
def coalesce {α : Type} (param column : Option α) : Option α := param <|> column

namespace SettingsService

variable (s : SettingsService)

def tokenParam (nonce : Bytes) (patch : AppSettings) : Option Bytes :=
  patch.gitHubToken.map (fun token ↦
    match s.cipher with
    | some cipher => if token = "" then utf8 token.toList else cipher.encrypt nonce token
    | none => utf8 token.toList)

/-- The UPDATE of `SettingsService.Update`. -/
def patched (nonce : Bytes) (now : ℤ) (row : Row) (patch : AppSettings) : Row where
  monitoringPrometheusURL := coalesce patch.monitoringPrometheusURL row.monitoringPrometheusURL
  monitoringGrafanaURL := coalesce patch.monitoringGrafanaURL row.monitoringGrafanaURL
  monitoringGrafanaToken := coalesce patch.monitoringGrafanaToken row.monitoringGrafanaToken
  monitoringNamespace := coalesce patch.monitoringNamespace row.monitoringNamespace
  alertingEnabled := coalesce patch.alertingEnabled row.alertingEnabled
  alertingSMTPHost := coalesce patch.alertingSMTPHost row.alertingSMTPHost
  alertingSMTPPort := coalesce patch.alertingSMTPPort row.alertingSMTPPort
  alertingSMTPUsername := coalesce patch.alertingSMTPUsername row.alertingSMTPUsername
  alertingSMTPPassword := coalesce patch.alertingSMTPPassword row.alertingSMTPPassword
  alertingSMTPFrom := coalesce patch.alertingSMTPFrom row.alertingSMTPFrom
  alertingRateLimit := coalesce patch.alertingRateLimit row.alertingRateLimit
  alertingRecipients := coalesce patch.alertingRecipients row.alertingRecipients
  gitHubToken := coalesce (s.tokenParam nonce patch) row.gitHubToken
  updatedAt := now

/-- What `refresh` makes of the row: a token that does not decrypt is left unset. -/
def load (row : Row) : AppSettings where
  monitoringPrometheusURL := row.monitoringPrometheusURL
  monitoringGrafanaURL := row.monitoringGrafanaURL
  monitoringGrafanaToken := row.monitoringGrafanaToken
  monitoringNamespace := row.monitoringNamespace
  alertingEnabled := row.alertingEnabled
  alertingSMTPHost := row.alertingSMTPHost
  alertingSMTPPort := row.alertingSMTPPort
  alertingSMTPUsername := row.alertingSMTPUsername
  alertingSMTPPassword := row.alertingSMTPPassword
  alertingSMTPFrom := row.alertingSMTPFrom
  alertingRateLimit := row.alertingRateLimit
  alertingRecipients := row.alertingRecipients
  gitHubToken :=
    match s.cipher, row.gitHubToken with
    | some cipher, some enc => if enc = [] then none else cipher.decrypt enc
    | _, _ => none
  updatedAt := row.updatedAt

end SettingsService

def maskSecret (secret : Option String) : Option String :=
  secret.map (fun v ↦ if v = "" then v else "****")

def maskedSettings (s : AppSettings) : AppSettings :=
  { s with
    monitoringGrafanaToken := maskSecret s.monitoringGrafanaToken
    alertingSMTPPassword := maskSecret s.alertingSMTPPassword
    alertingSMTPUsername := maskSecret s.alertingSMTPUsername
    gitHubToken := maskSecret s.gitHubToken }

/-- What decoding the JSON text of `s` gives: `omitempty` drops an empty list of recipients. -/
def AppSettings.reread (s : AppSettings) : AppSettings :=
  { s with alertingRecipients := s.alertingRecipients.filter (· ≠ []) }

end KubeCenter.Store

namespace KubeCenter.Store.SettingsCache

open KubeCenter.Core Function

/-- Where a `Get` or an `Update` stands. `later` is history: no `Update` has been in flight since
the `Get` was called. -/
inductive Call
  | idle
  | writing (patch : AppSettings)
  | refreshing
  | refreshed (v : AppSettings)
  | updated
  | updateFailed
  | reading (later : Bool)
  | read (v : AppSettings) (later : Bool)
  | got (v : AppSettings) (later : Bool)
  | getFailed

/-- The row of `app_settings`, the service's cache and all calls. `updating` is history: the
`Update` calls that have started and not returned. -/
structure State where
  row : Row
  cache : Option AppSettings := none
  calls : ℕ → Call := fun _ ↦ .idle
  updating : Finset ℕ := ∅

def init (row : Row) : State := { row }

/-- The atomic steps: one statement, or one stretch under the mutex. `ok` says whether the statement
succeeds. -/
inductive Act
  | update (i : ℕ) (patch : AppSettings)
  | write (i : ℕ) (nonce : Bytes) (now : ℤ) (ok : Bool)
  | get (i : ℕ)
  | read (i : ℕ) (ok : Bool)
  | store (i : ℕ)

def Call.overtaken : Call → Call
  | .reading _ => .reading false
  | .read v _ => .read v false
  | .got v _ => .got v false
  | c => c

namespace State

variable (s : State)

def setCall (i : ℕ) (c : Call) : State := { s with calls := update s.calls i c }

def start (i : ℕ) (patch : AppSettings) : State :=
  { s with calls := update (fun j ↦ (s.calls j).overtaken) i (.writing patch), updating := insert i s.updating }

def finish (i : ℕ) (c : Call) : State := { s.setCall i c with updating := s.updating.erase i }

end State

variable (svc : SettingsService)

/-- The steps of call `i`, which stands at the second argument. -/
def callStep (s : State) (i : ℕ) : Call → Act → Option State
  | .idle, .update _ patch => some (s.start i patch)
  | .writing patch, .write _ nonce now true =>
    some ({ s with row := svc.patched nonce now s.row patch }.setCall i .refreshing)
  | .writing _, .write _ _ _ false => some (s.finish i .updateFailed)
  | .refreshing, .read _ true => some (s.setCall i (.refreshed (svc.load s.row)))
  | .refreshing, .read _ false => some (s.finish i .updateFailed)
  | .refreshed v, .store _ => some ({ s with cache := some v }.finish i .updated)
  | .idle, .get _ =>
    match s.cache with
    | some v => some (s.setCall i (.got v (s.updating = ∅)))
    | none => some (s.setCall i (.reading (s.updating = ∅)))
  | .reading later, .read _ true => some (s.setCall i (.read (svc.load s.row) later))
  | .reading _, .read _ false => some (s.setCall i .getFailed)
  | .read v later, .store _ => some ({ s with cache := some v }.setCall i (.got v later))
  | _, _ => none

def Act.call : Act → ℕ
  | .update i _ | .write i _ _ _ | .get i | .read i _ | .store i => i

def step (s : State) (a : Act) : Option State := callStep svc s a.call (s.calls a.call) a

/-- What the cache holds is what a `Get` called now would return. -/
def CacheCurrent (s : State) : Prop := ∀ v ∈ s.cache, v = svc.load s.row

/-- When no `Update` is in flight a `Get` has the row to return, and every `Get` called since, and
returned, has returned it. -/
structure Coherent (s : State) : Prop where
  cached : s.updating = ∅ → CacheCurrent svc s
  returned : ∀ i v, s.calls i = .got v true → v = svc.load s.row

def Call.Updating : Call → Prop
  | .writing _ | .refreshing | .refreshed _ => True
  | _ => False

/-- What the call has read and not yet stored. -/
def Call.holds : Call → Option AppSettings
  | .refreshed v | .read v _ => some v
  | _ => none

/-- With no other `Update` in flight, a call that stores what it has read finds the row still saying
so, and an `Update` that fails finds the cache saying what the row does. -/
def StoresCurrent (s : State) : Act → Prop
  | .store i => s.updating ⊆ {i} → ∀ v ∈ (s.calls i).holds, v = svc.load s.row
  | .write i _ _ false | .read i false => (s.calls i).Updating → s.updating ⊆ {i} → CacheCurrent svc s
  | _ => True

/-- What holds of a call where it stands. -/
def CallOk (s : State) : Call → Prop
  | .reading later => later = true → s.updating = ∅
  | .read v later | .got v later => later = true → s.updating = ∅ ∧ v = svc.load s.row
  | _ => True

structure Inv (s : State) : Prop where
  cached : s.updating = ∅ → CacheCurrent svc s
  inFlight : ∀ i, i ∈ s.updating ↔ (s.calls i).Updating
  calls : ∀ i, CallOk svc s (s.calls i)

variable {svc} {s t : State} {i : ℕ} {c : Call}

theorem inv_init (row : Row) : Inv svc (init row) where
  cached _ _ h := by cases h
  inFlight i := by simp [init, Call.Updating]
  calls _ := trivial

theorem Inv.coherent (h : Inv svc s) : Coherent svc s where
  cached := h.cached
  returned i v hi := by
    have hok := h.calls i
    rw [hi] at hok
    exact (hok rfl).2

theorem Inv.ok (h : Inv svc s) (hi : s.calls i = c) : CallOk svc s c := hi ▸ h.calls i

theorem Inv.busy (h : Inv svc s) (hi : s.calls i = c) (hc : c.Updating) : i ∈ s.updating :=
  (h.inFlight i).mpr (hi ▸ hc)

@[simp] theorem setCall_self : (s.setCall i c).calls i = c := update_self ..

theorem setCall_ne {j : ℕ} (h : j ≠ i) : (s.setCall i c).calls j = s.calls j := update_of_ne h ..

theorem Inv.setCall (h : Inv svc s) (hc : CallOk svc s c) (hup : c.Updating ↔ (s.calls i).Updating) :
    Inv svc (s.setCall i c) where
  cached := h.cached
  inFlight j := by
    by_cases hj : j = i
    · subst hj
      rw [setCall_self]
      exact (h.inFlight j).trans hup.symm
    · rw [setCall_ne hj]
      exact h.inFlight j
  calls j := by
    by_cases hj : j = i
    · subst hj
      rw [setCall_self]
      exact hc
    · rw [setCall_ne hj]
      exact h.calls j

/-- While an `Update` is in flight no call claims to be later, so the row and the cache may change. -/
theorem CallOk.busy (h : CallOk svc s c) (hi : i ∈ s.updating) : CallOk svc t c := by
  have hbusy : s.updating ≠ ∅ := Finset.ne_empty_of_mem hi
  match c, h with
  | .reading _, h => exact fun hl ↦ absurd (h hl) hbusy
  | .read _ _, h | .got _ _, h => exact fun hl ↦ absurd (h hl).1 hbusy
  | .idle, _ | .writing _, _ | .refreshing, _ | .refreshed _, _ | .updated, _ | .updateFailed, _ | .getFailed, _ =>
    trivial

theorem Inv.start (h : Inv svc s) (patch : AppSettings) : Inv svc (s.start i patch) where
  cached hq := absurd hq (Finset.insert_ne_empty i s.updating)
  inFlight j := by
    by_cases hj : j = i
    · subst hj
      simp [State.start, Call.Updating]
    · have hin := h.inFlight j
      simp only [State.start, update_of_ne hj, Finset.mem_insert, hj, false_or]
      cases hc : s.calls j <;> rw [hc] at hin <;> exact hin
  calls j := by
    by_cases hj : j = i
    · subst hj
      simp [State.start, CallOk]
    · simp only [State.start, update_of_ne hj]
      cases hc : s.calls j <;> simp [Call.overtaken, CallOk]

theorem Inv.write (h : Inv svc s) (hi : i ∈ s.updating) (row : Row) :
    Inv svc ({ s with row }.setCall i .refreshing) := by
  refine Inv.setCall ⟨fun hq ↦ ?_, h.inFlight, fun j ↦ (h.calls j).busy hi⟩ trivial ?_
  · exact absurd hq (Finset.ne_empty_of_mem hi)
  · exact iff_of_true trivial ((h.inFlight i).mp hi)

/-- An `Update` returns: if it was the last in flight, the cache has to be current. -/
theorem Inv.finish (h : Inv svc s) (hi : i ∈ s.updating) {cache : Option AppSettings}
    (hcache : s.updating ⊆ {i} → CacheCurrent svc { s with cache }) (hend : c = .updated ∨ c = .updateFailed) :
    Inv svc ({ s with cache }.finish i c) where
  cached hq := by
    apply hcache
    intro j hj
    by_contra hne
    exact Finset.notMem_empty j (hq ▸ Finset.mem_erase.mpr ⟨by simpa using hne, hj⟩)
  inFlight j := by
    by_cases hj : j = i
    · subst hj
      rcases hend with rfl | rfl <;> simp [State.finish, Call.Updating]
    · have hcall : ({ s with cache }.finish i c).calls j = s.calls j := update_of_ne hj ..
      rw [hcall, ← h.inFlight j]
      exact Finset.mem_erase.trans (and_iff_right hj)
  calls j := by
    by_cases hj : j = i
    · subst hj
      rcases hend with rfl | rfl <;> simp [State.finish, CallOk]
    · have hcall : ({ s with cache }.finish i c).calls j = s.calls j := update_of_ne hj ..
      rw [hcall]
      exact (h.calls j).busy hi

theorem update_cases {patch : AppSettings} (hs : step svc s (.update i patch) = some t) : t = s.start i patch := by
  simp only [step, Act.call] at hs
  cases hc : s.calls i <;> rw [hc] at hs <;> simp only [callStep, reduceCtorEq] at hs
  cases hs
  rfl

theorem write_cases {nonce : Bytes} {now : ℤ} {ok : Bool} (hs : step svc s (.write i nonce now ok) = some t) :
    (s.calls i).Updating ∧
      ((∃ patch, ok = true ∧ t = { s with row := svc.patched nonce now s.row patch }.setCall i .refreshing) ∨
        ok = false ∧ t = s.finish i .updateFailed) := by
  simp only [step, Act.call] at hs
  cases hc : s.calls i <;> cases ok <;> rw [hc] at hs <;> simp only [callStep, reduceCtorEq] at hs
  · cases hs
    exact ⟨trivial, .inr ⟨rfl, rfl⟩⟩
  · cases hs
    exact ⟨trivial, .inl ⟨_, rfl, rfl⟩⟩

theorem get_cases (hs : step svc s (.get i) = some t) : s.calls i = .idle ∧
    ((∃ v, s.cache = some v ∧ t = s.setCall i (.got v (s.updating = ∅))) ∨
      t = s.setCall i (.reading (s.updating = ∅))) := by
  simp only [step, Act.call] at hs
  cases hc : s.calls i <;> rw [hc] at hs <;> simp only [callStep, reduceCtorEq] at hs
  split at hs <;> cases hs
  · exact ⟨rfl, .inl ⟨_, ‹_›, rfl⟩⟩
  · exact ⟨rfl, .inr rfl⟩

theorem read_cases {ok : Bool} (hs : step svc s (.read i ok) = some t) :
    (∃ later, s.calls i = .reading later ∧
        (t = s.setCall i (.read (svc.load s.row) later) ∨ t = s.setCall i .getFailed)) ∨
      (s.calls i).Updating ∧
        (ok = true ∧ t = s.setCall i (.refreshed (svc.load s.row)) ∨ ok = false ∧ t = s.finish i .updateFailed) := by
  simp only [step, Act.call] at hs
  cases hc : s.calls i <;> cases ok <;> rw [hc] at hs <;> simp only [callStep, reduceCtorEq] at hs <;> cases hs
  · exact .inr ⟨trivial, .inr ⟨rfl, rfl⟩⟩
  · exact .inr ⟨trivial, .inl ⟨rfl, rfl⟩⟩
  · exact .inl ⟨_, rfl, .inr rfl⟩
  · exact .inl ⟨_, rfl, .inl rfl⟩

theorem store_cases (hs : step svc s (.store i) = some t) :
    (∃ v, s.calls i = .refreshed v ∧ t = { s with cache := some v }.finish i .updated) ∨
      ∃ v later, s.calls i = .read v later ∧ t = { s with cache := some v }.setCall i (.got v later) := by
  simp only [step, Act.call] at hs
  cases hc : s.calls i <;> rw [hc] at hs <;> simp only [callStep, reduceCtorEq] at hs <;> cases hs
  · exact .inl ⟨_, rfl, rfl⟩
  · exact .inr ⟨_, _, rfl, rfl⟩

theorem step_inv {a : Act} (h : Inv svc s) (hok : StoresCurrent svc s a) (hs : step svc s a = some t) :
    Inv svc t := by
  cases a with
  | update i patch =>
    rw [update_cases hs]
    exact h.start patch
  | write i nonce now ok =>
    obtain ⟨hi, ⟨patch, rfl, rfl⟩ | ⟨rfl, rfl⟩⟩ := write_cases hs
    · exact h.write (h.busy rfl hi) _
    · exact h.finish (h.busy rfl hi) (hok hi) (.inr rfl)
  | get i =>
    obtain ⟨hi, ⟨v, hv, rfl⟩ | rfl⟩ := get_cases hs
    · refine h.setCall (c := .got v _) (fun hl ↦ ?_) (by simp [hi, Call.Updating])
      have hq : s.updating = ∅ := by simpa using hl
      exact ⟨hq, h.cached hq v hv⟩
    · exact h.setCall (fun hl ↦ by simpa using hl) (by simp [hi, Call.Updating])
  | read i ok =>
    rcases read_cases hs with ⟨later, hi, rfl | rfl⟩ | ⟨hi, ⟨rfl, rfl⟩ | ⟨rfl, rfl⟩⟩
    · exact h.setCall (c := .read _ later) (fun hl ↦ ⟨h.ok hi hl, rfl⟩) (by simp [hi, Call.Updating])
    · exact h.setCall (c := .getFailed) trivial (by simp [hi, Call.Updating])
    · exact h.setCall (c := .refreshed _) trivial (iff_of_true trivial hi)
    · exact h.finish (h.busy rfl hi) (hok hi) (.inr rfl)
  | store i =>
    rcases store_cases hs with ⟨v, hi, rfl⟩ | ⟨v, later, hi, rfl⟩
    · refine h.finish (h.busy hi trivial) (fun hlast ↦ ?_) (.inl rfl)
      rintro w ⟨⟩
      exact hok hlast v (by simp [hi, Call.holds])
    · refine Inv.setCall (s := { s with cache := some v }) ⟨fun hq ↦ ?_, h.inFlight, h.calls⟩ (h.ok hi) (by simp [hi, Call.Updating])
      rintro w ⟨⟩
      have hq : s.updating = ∅ := hq
      exact hok (hq ▸ Finset.empty_subset _) v (by simp [hi, Call.holds])

theorem erase_eq_empty (hi : s.updating ⊆ {i}) : s.updating.erase i = ∅ := by
  rwa [Finset.erase_eq_empty_iff, ← Finset.subset_singleton_iff]

/-- A step that breaks the condition leaves a stale cache with no `Update` in flight. -/
theorem not_coherent {a : Act} (h : Inv svc s) (hok : ¬ StoresCurrent svc s a) (hs : step svc s a = some t) :
    ¬ Coherent svc t := by
  intro hc
  apply hok
  cases a with
  | update i patch => trivial
  | write i nonce now ok =>
    obtain ⟨-, ⟨patch, rfl, rfl⟩ | ⟨rfl, rfl⟩⟩ := write_cases hs
    · trivial
    · exact fun _ hlast ↦ hc.cached (erase_eq_empty hlast)
  | get i => trivial
  | read i ok =>
    cases ok with
    | true => trivial
    | false =>
      intro hi hlast
      rcases read_cases hs with ⟨later, hr, -⟩ | ⟨-, ⟨hb, -⟩ | ⟨-, rfl⟩⟩
      · rw [hr] at hi
        cases hi
      · cases hb
      · exact hc.cached (erase_eq_empty hlast)
  | store i =>
    intro hlast v hv
    rcases store_cases hs with ⟨w, hi, rfl⟩ | ⟨w, later, hi, rfl⟩
    · rw [hi] at hv
      cases hv
      exact hc.cached (erase_eq_empty hlast) v rfl
    · rw [hi] at hv
      cases hv
      have hnot : i ∉ s.updating := by
        rw [h.inFlight, hi]
        exact id
      exact hc.cached (Finset.erase_eq_of_notMem hnot ▸ erase_eq_empty hlast) v rfl

/-- Two updates: the first reads the row before the second writes it, and stores what it read last. -/
def slowRefresh : List Act :=
  [.update 0 { monitoringNamespace := some "monitoring" }, .update 1 { monitoringNamespace := some "observability" },
    .write 0 [] 1 true, .read 0 true, .write 1 [] 2 true, .read 1 true, .store 1, .store 0, .get 2]

theorem slowRefresh_stale : (exec (step ⟨none⟩) (init {}) slowRefresh).map (fun s ↦
    (s.updating, s.cache.map (·.monitoringNamespace), s.row.monitoringNamespace)) =
    some (∅, some (some "monitoring"), some "observability") := by
  decide

end KubeCenter.Store.SettingsCache
