import KubeCenter.Core.Runs
import KubeCenter.ExternalSecrets.Poller
import KubeCenter.Notifications.EmitProtocol
import KubeCenter.Notifications.Payloads

namespace KubeCenter.ExternalSecrets.StartUp

open KubeCenter.Core
open KubeCenter.Notifications (Notification)

/-- Where `Start` stands: the tick it makes after seeding is the start-up tick. -/
inductive Stage where
  | notStarted | seeded | running
  deriving DecidableEq

/-- The poller with the handler it shares with the HTTP side. Two fields are history: `listings`,
the UIDs of each tick that listed ExternalSecrets successfully, and `announced`, each lifecycle
event's UID with the number of successful listings before its tick. -/
structure State where
  now : ℤ
  poller : Poller := {}
  handler : Handler := {}
  stage : Stage := .notStarted
  listings : List (List String) := []
  announced : List (String × ℕ) := []

def init (now : ℤ) : State := { now }

/-- `read` is an HTTP request that goes through the cache. A tick that panics before it has a list
counts as one whose fetch gives up. -/
inductive Act
  | start (recent : Except String (List Notification))
  | tick (env : TickEnv)
  | read (env : FetchEnv)
  | invalidateCache
  | advance (d : ℕ)

/-- The data a tick works on. -/
def handed (h : Handler) (env : TickEnv) (now : ℤ) : Option CachedData :=
  if env.available then (h.getCached env.fetch now).1.toOption else none

/-- The listing a tick adds: none, when it gets no data or the data carries an error for the list. -/
def listed (h : Handler) (env : TickEnv) (now : ℤ) : List (List String) :=
  ((handed h env now).filter (fun data ↦ (data.errors .externalSecrets).isNone)).toList.map
    (fun data ↦ data.externalSecrets.map ExternalSecret.uid)

def lifecycleUids (records : List EmitRecord) : List String :=
  (records.filter (fun rec ↦ rec.kind.isLifecycle)).map (fun rec ↦ rec.es.uid)

def State.tick (s : State) (env : TickEnv) : State :=
  let (ticked, handler) := s.poller.tick s.handler env s.now
  { s with
    poller := ticked.poller
    handler
    listings := s.listings ++ listed s.handler env s.now
    announced := s.announced ++ (lifecycleUids ticked.records).map (fun uid ↦ (uid, s.listings.length)) }

def step (s : State) (a : Act) : Option State :=
  match a with
  | .start recent =>
    if s.stage = .notStarted then
      some { s with poller := s.poller.seedFromNotifications recent, stage := .seeded }
    else none
  | .tick env =>
    match s.stage with
    | .notStarted => none
    | .seeded =>
      -- initialized is set whatever became of the tick
      let s' := s.tick env
      some { s' with poller := { s'.poller with initialized := true }, stage := .running }
    | .running => some (s.tick env)
  | .read env => some { s with handler := (s.handler.getCached env s.now).2 }
  | .invalidateCache => some { s with handler := s.handler.invalidateCache }
  | .advance d => some { s with now := s.now + d }

/-- No lifecycle event is about an ExternalSecret of the first successful listing, and each is
about one that an earlier successful listing lacks. -/
def InventorySilent (s : State) : Prop :=
  ∀ x ∈ s.announced, (∀ first ∈ s.listings.head?, x.1 ∉ first) ∧ ∃ l ∈ s.listings.take x.2, x.1 ∉ l

/-- Met by `check` for the first time, with lifecycle alerts on and no seed for its name. -/
def newcomer (p : Poller) (es : ExternalSecret) : Bool :=
  !p.seen es.uid && (p.seed es).isNone && alertOnLifecycle es

/-- The newcomers of a list, one after the other. -/
def newcomers : Poller → List ExternalSecret → List ExternalSecret
  | _, [] => []
  | p, es :: ess => (if newcomer p es then [es] else []) ++ newcomers (p.check es).2 ess

/-- After the start-up tick, a newcomer comes after the first successful listing and was not in it. -/
def ComesLater (s : State) : Act → Prop
  | .tick env => s.stage = .running → ∀ data, handed s.handler env s.now = some data →
      ∀ es ∈ newcomers s.poller data.externalSecrets, ∃ first, s.listings.head? = some first ∧ es.uid ∉ first
  | _ => True

structure Inv (s : State) : Prop where
  silent : InventorySilent s
  before : s.stage ≠ .running → s.poller.initialized = false
  after : s.stage = .running → s.poller.initialized = true

theorem inv_init (now : ℤ) : Inv (init now) where
  silent _ h := by cases h
  before _ := rfl
  after h := by cases h

variable {s t : State} {p : Poller} {es : ExternalSecret} {ess : List ExternalSecret} {env : TickEnv}

theorem transition_lifecycle (es : ExternalSecret) (prev current : StatusBucket) :
    lifecycleUids (Poller.transitionRecords es prev current) = [] := by
  unfold Poller.transitionRecords
  cases prev <;> cases current <;>
    simp [isFailureBucket, failureRecord, failureEventKind, lifecycleUids, EventKind.isLifecycle, recoveryRecord]

theorem check_lifecycle : lifecycleUids (p.check es).1 =
    if p.initialized && newcomer p es then [es.uid] else [] := by
  unfold Poller.check newcomer
  dsimp only
  have hcond : (!(p.seen es.uid || (p.seed es).isSome) && p.initialized && alertOnLifecycle es) =
      (p.initialized && (!p.seen es.uid && (p.seed es).isNone && alertOnLifecycle es)) := by
    cases p.seed es <;> cases p.seen es.uid <;> cases p.initialized <;> simp
  rw [hcond]
  split
  · by_cases hhealthy : bucketFor es.status = .healthy <;>
      simp [lifecycleRecord, hhealthy, lifecycleUids, EventKind.isLifecycle]
  · split
    · rfl
    · exact transition_lifecycle es _ _

theorem checkAll_lifecycle : lifecycleUids (p.checkAll ess).1 =
    if p.initialized then (newcomers p ess).map ExternalSecret.uid else [] := by
  induction ess generalizing p with
  | nil => simp [Poller.checkAll, lifecycleUids, newcomers]
  | cons es ess ih =>
    have hsplit : lifecycleUids (p.checkAll (es :: ess)).1 =
        lifecycleUids (p.check es).1 ++ lifecycleUids ((p.check es).2.checkAll ess).1 := by
      simp only [Poller.checkAll, lifecycleUids, List.filter_append, List.map_append]
    rw [hsplit, check_lifecycle, ih, (Poller.check_rest _ _).2.2.2, newcomers, List.map_append]
    cases p.initialized
    · rfl
    · cases newcomer p es <;> rfl

theorem tick_handed (p : Poller) (h : Handler) (env : TickEnv) (now : ℤ) : (p.tick h env now).1 =
    match handed h env now with
    | none => { poller := p }
    | some data => p.process env.persist data.externalSecrets := by
  unfold Poller.tick handed
  split
  · rcases h.getCached env.fetch now with ⟨_ | _, h'⟩ <;> rfl
  · rfl

theorem tick_lifecycle (s : State) (env : TickEnv) :
    lifecycleUids (s.poller.tick s.handler env s.now).1.records =
      match handed s.handler env s.now with
      | none => []
      | some data =>
        if s.poller.initialized then (newcomers s.poller data.externalSecrets).map ExternalSecret.uid else [] := by
  rw [tick_handed]
  cases handed s.handler env s.now with
  | none => rfl
  | some data => exact checkAll_lifecycle

theorem tick_initialized (s : State) (env : TickEnv) : (s.tick env).poller.initialized = s.poller.initialized := by
  change (s.poller.tick s.handler env s.now).1.poller.initialized = _
  rw [tick_handed]
  cases handed s.handler env s.now with
  | none => rfl
  | some data => exact Poller.process_initialized

/-- What holds of the events so far holds whatever is listed later. -/
theorem silent_grows (h : InventorySilent s) (new : List (List String)) :
    ∀ x ∈ s.announced, (∀ first ∈ (s.listings ++ new).head?, x.1 ∉ first) ∧
      ∃ l ∈ (s.listings ++ new).take x.2, x.1 ∉ l := by
  intro x hx
  obtain ⟨hfirst, l, hl, hnot⟩ := h x hx
  have hne : s.listings ≠ [] := fun hnil ↦ by rw [hnil, List.take_nil] at hl; cases hl
  refine ⟨fun first hf ↦ hfirst first ?_, l, ?_, hnot⟩
  · rwa [List.head?_append_of_ne_nil _ hne] at hf
  · rw [List.take_append]
    exact List.mem_append_left _ hl

theorem mem_announced_tick {x : String × ℕ} : x ∈ (s.tick env).announced ↔
    x ∈ s.announced ∨ x.2 = s.listings.length ∧ x.1 ∈ lifecycleUids (s.poller.tick s.handler env s.now).1.records := by
  change x ∈ s.announced ++ (lifecycleUids _).map _ ↔ _
  rw [List.mem_append, List.mem_map]
  refine or_congr_right ⟨?_, ?_⟩
  · rintro ⟨uid, hmem, rfl⟩
    exact ⟨rfl, hmem⟩
  · rintro ⟨hlength, hmem⟩
    exact ⟨x.1, hmem, Prod.ext rfl hlength.symm⟩

theorem silent_tick_quiet (env : TickEnv) (h : InventorySilent s) (hinit : s.poller.initialized = false) :
    InventorySilent (s.tick env) := by
  intro x hx
  rcases mem_announced_tick.mp hx with hold | ⟨-, hnew⟩
  · exact silent_grows h _ x hold
  · rw [tick_lifecycle, hinit] at hnew
    split at hnew <;> cases hnew

/-- After the start-up tick, a tick stays silent about the inventory exactly if its newcomers come later. -/
theorem silent_tick_iff (h : InventorySilent s) (hstage : s.stage = .running) (hinit : s.poller.initialized = true) :
    InventorySilent (s.tick env) ↔ ComesLater s (.tick env) := by
  constructor
  · intro hsilent _ data hdata es hes
    have hnew : (es.uid, s.listings.length) ∈ (s.tick env).announced := by
      refine mem_announced_tick.mpr (.inr ⟨rfl, ?_⟩)
      rw [tick_lifecycle, hdata, hinit]
      exact List.mem_map_of_mem hes
    obtain ⟨hfirst, l, hl, -⟩ := hsilent _ hnew
    change l ∈ (s.listings ++ _).take s.listings.length at hl
    rw [List.take_left] at hl
    cases hlistings : s.listings with
    | nil => rw [hlistings] at hl; cases hl
    | cons first rest =>
      refine ⟨first, rfl, hfirst first ?_⟩
      change first ∈ (s.listings ++ _).head?
      rw [hlistings]
      rfl
  · intro hok x hx
    rcases mem_announced_tick.mp hx with hold | ⟨hlength, hnew⟩
    · exact silent_grows h _ x hold
    · rw [tick_lifecycle, hinit] at hnew
      cases hdata : handed s.handler env s.now with
      | none => rw [hdata] at hnew; cases hnew
      | some data =>
        rw [hdata] at hnew
        obtain ⟨es, hes, hx1⟩ := List.mem_map.mp hnew
        obtain ⟨first, hhead, hnot⟩ := hok hstage data hdata es hes
        rw [hx1] at hnot
        have hmem := List.mem_of_mem_head? hhead
        refine ⟨fun f hf ↦ ?_, first, ?_, hnot⟩
        · change f ∈ (s.listings ++ _).head? at hf
          rw [List.head?_append_of_ne_nil _ (List.ne_nil_of_mem hmem), hhead] at hf
          cases hf
          exact hnot
        · rw [hlength]
          change first ∈ (s.listings ++ _).take s.listings.length
          rwa [List.take_left]

theorem seed_initialized (p : Poller) (recent : Except String (List Notification)) :
    (p.seedFromNotifications recent).initialized = p.initialized := by
  cases recent <;> rfl

/-- What a step that is not a tick leaves of an invariant about events and listings. -/
theorem Inv.frame (h : Inv s) (hann : t.announced = s.announced) (hlist : t.listings = s.listings)
    (hinit : t.poller.initialized = s.poller.initialized) (hstage : t.stage = .running ↔ s.stage = .running) : Inv t where
  silent x hx := by
    rw [hlist]
    exact h.silent x (hann ▸ hx)
  before hne := hinit.trans (h.before (mt hstage.mpr hne))
  after heq := hinit.trans (h.after (hstage.mp heq))

theorem step_inv {a : Act} (h : Inv s) (hok : ComesLater s a) (hs : step s a = some t) : Inv t := by
  cases a with
  | start recent =>
    simp only [step] at hs
    split at hs <;> cases hs
    next hstage => exact h.frame rfl rfl (seed_initialized _ _) (by simp [hstage])
  | tick env =>
    simp only [step] at hs
    split at hs
    · cases hs
    · next hstage =>
      cases hs
      have hquiet := silent_tick_quiet env h.silent (h.before (by simp [hstage]))
      exact ⟨hquiet, fun hne ↦ absurd rfl hne, fun _ ↦ rfl⟩
    · next hstage =>
      cases hs
      have hinit := h.after hstage
      refine ⟨(silent_tick_iff h.silent hstage hinit).mpr hok, fun hne ↦ absurd hstage hne, fun _ ↦ ?_⟩
      rw [tick_initialized, hinit]
  | read env =>
    cases hs
    exact h.frame rfl rfl rfl Iff.rfl
  | invalidateCache =>
    cases hs
    exact h.frame rfl rfl rfl Iff.rfl
  | advance d =>
    cases hs
    exact h.frame rfl rfl rfl Iff.rfl

theorem not_silent {a : Act} (h : Inv s) (hok : ¬ ComesLater s a) (hs : step s a = some t) : ¬ InventorySilent t := by
  cases a with
  | tick env =>
    simp only [step] at hs
    split at hs
    · cases hs
    · next hstage => exact absurd (fun hrun ↦ by rw [hstage] at hrun; cases hrun) hok
    · next hstage =>
      cases hs
      exact mt (silent_tick_iff h.silent hstage (h.after hstage)).mp hok
  | _ => exact absurd trivial hok

def apiKey : ExternalSecret :=
  { ns := "shop", name := "api-key", uid := "uid-7", status := .synced, alertOnLifecycle := some true }

/-- The start-up tick cannot list in time; the next one finds what was there all along. -/
def slowStart : List Act :=
  [.start (.ok []),
    .tick { fetch := { externalSecrets := .error "timeout", contextErr := some "context deadline exceeded" } },
    .advance 60000000000, .tick { fetch := { externalSecrets := .ok [apiKey] } }]

end KubeCenter.ExternalSecrets.StartUp

/-! The poller and the notification service together, from a tick to what leaves for a channel. The service keeps its
times in microseconds. -/

namespace KubeCenter.ExternalSecrets.AlertRuns

open KubeCenter.Core KubeCenter.Notifications
open StartUp (Stage)

/-- Where `sendDigests` stands, with the rules it read and the channels its loop has left. -/
inductive Phase
  | idle
  | running (rules : List Rule) (rest : List Channel)
  | queried (rules : List Rule) (ch : Channel) (notifications : List Notification) (rest : List Channel)

/-- The poller with the records its tick has yet to emit, and the service with its cached configuration, the dispatches
under way and the digest cycle. `sent` is history: all that left. -/
structure State where
  stage : Stage := .notStarted
  poller : Poller := {}
  records : List EmitRecord := []
  emitted : ℕ := 0
  service : EmitProtocol.State
  rules : List Rule := []
  channels : List Channel := []
  pending : List (Channel × Notification) := []
  phase : Phase := .idle
  sent : List Payload := []

/-- A first start, on the table as it was left. -/
def init (now : ℤ) (rows : List Notification) : State := { service := { now, rows } }

/-- The atomic steps. `appNow` is a reading of the application's clock, which is not the database's; `fetched` is what
the handler's cache hands to a tick, with thresholds resolved, and `launch` the start of one of its emits. -/
inductive Act
  | start (appNow : ℤ) (answered : Bool)
  | tick (fetched : Option (List ExternalSecret)) (persist : PersistEnv)
  | launch (k : ℕ) (appNow : ℤ)
  | emit (n : Notification)
  | check (i : ℕ) (answered : Bool)
  | insert (i : ℕ) (ok : Bool)
  | refreshCache (rules : List Rule) (channels : List Channel)
  | dispatch
  | send (k : ℕ) (env : SendEnv)
  | sendDigests (smtpConfigured : Bool)
  | query (appNow : ℤ) (ok : Bool)
  | mail (appNow : ℤ) (rendered queued : Bool)
  | finish
  | prune
  | advance (d : ℕ)
  | restart

def recoverySeedWindow : ℤ := 2 * hour

variable (lib : Library) (clusterID : String)

namespace State

variable (s : State)

/-- What `RecentBySource` answers to the poller. -/
def recent (appNow : ℤ) (answered : Bool) : Except String (List Notification) :=
  if answered then .ok (recentBySource s.service.rows .externalSecrets clusterID (appNow - recoverySeedWindow))
  else .error "recent notifications by source"

def tick (fetched : Option (List ExternalSecret)) (persist : PersistEnv) : State :=
  match fetched with
  | none => s
  | some ess =>
    let ticked := s.poller.process persist ess
    { s with poller := ticked.poller, records := s.records ++ ticked.records }

def onService (a : EmitProtocol.Act) : Option State :=
  (EmitProtocol.step s.service a).map (fun service ↦ { s with service })

def emit (n : Notification) : Option State :=
  (s.onService (.emit s.emitted n)).map (fun s ↦ { s with emitted := s.emitted + 1 })

/-- A new process on the same database. -/
def restart : State :=
  { emitted := s.emitted, service := { s.service with queue := [], calls := fun _ ↦ .idle }, sent := s.sent }

end State

def step (s : State) (a : Act) : Option State :=
  match a, s.phase with
  | .start appNow answered, _ =>
    if s.stage = .notStarted then
      some { s with stage := .seeded, poller := s.poller.seedFromNotifications (s.recent clusterID appNow answered) }
    else none
  | .tick fetched persist, _ =>
    if s.stage = .notStarted then none
    else
      -- from the first tick on the poller is initialized
      let s' := s.tick fetched persist
      some { s' with stage := .running, poller := { s'.poller with initialized := true } }
  | .launch k appNow, _ => s.records[k]?.bind (fun rec ↦
      { s with records := s.records.eraseIdx k }.emit { rec.notification with createdAt := appNow })
  | .emit n, _ => if n.source = .externalSecrets then none else s.emit n
  | .check i answered, _ => s.onService (.check i answered)
  | .insert i ok, _ => s.onService (.insert i ok)
  | .refreshCache rules channels, _ => some { s with rules, channels }
  | .dispatch, _ => s.service.queue.head?.bind (fun n ↦
      { s with pending := s.pending ++ (dispatchToChannels s.rules s.channels n).map (fun ch ↦ (ch, n)) }.onService .dispatch)
  | .send k env, _ => s.pending[k]?.map (fun (ch, n) ↦
      { s with pending := s.pending.eraseIdx k, sent := s.sent ++ (dispatch lib env ch n).map .post })
  | .sendDigests smtpConfigured, .idle =>
    some (if smtpConfigured then { s with phase := .running s.rules s.channels } else s)
  | .query appNow ok, .running rules (ch :: rest) =>
    if ch.type ≠ .email ∨ ch.recipients = [] ∨ ok = false then some { s with phase := .running rules rest }
    else some { s with phase := .queried rules ch (digestNotifications rules ch appNow s.service.rows) rest }
  | .mail appNow rendered queued, .queried rules ch notifications rest =>
    -- a digest with nothing in it is not sent
    let mails := if notifications ≠ [] ∧ rendered = true ∧ queued = true then [digestMail lib appNow ch notifications] else []
    some { s with phase := .running rules rest, sent := s.sent ++ mails.map .mail }
  | .finish, .running _ [] => some { s with phase := .idle }
  | .prune, _ => s.onService .prune
  | .advance d, _ => s.onService (.advance d)
  | .restart, _ => some s.restart
  | _, _ => none

end KubeCenter.ExternalSecrets.AlertRuns
