import Mathlib.Logic.Function.Basic
import KubeCenter.Core.Runs
import KubeCenter.Notifications.Routing

namespace KubeCenter.Notifications.DigestRuns

open KubeCenter.Core Function

/-- Where `sendDigests` stands, with the channels its loop has left. Past the query it holds the
notifications found and how many had been stored by then. -/
inductive Phase
  | idle
  | running (rest : List Channel)
  | queried (ch : Channel) (notifications : List Notification) (bound : ℕ) (rest : List Channel)
  | advanced (ch : Channel) (notifications : List Notification) (bound : ℕ) (rest : List Channel)

structure Mail where
  channel : String
  recipients : List String
  notifications : List Notification

/-- The tables and the service. The rules stay as they are during a run, so of the cached
configuration only the channels are state. Two fields are history: `mails`, what was handed to the
mail queue, and `succeeded`, how many notifications had been stored when the query of the channel's
last successful cycle ran. -/
structure State where
  now : ℤ
  channels : List Channel
  cached : List Channel := []
  rows : List Notification := []
  nextId : ℕ := 0
  phase : Phase := .idle
  mails : List Mail := []
  succeeded : String → ℕ := fun _ ↦ 0

/-- Before the first notification and the first digest. -/
def init (now : ℤ) (channels : List Channel) : State :=
  { now, channels := channels.map (fun ch ↦ { ch with lastSentAt := none }) }

/-- The atomic steps. A row becomes visible up to `lag` after its `created_at`; the application's
clock is not the database's. -/
inductive Act
  | arrive (n : Notification) (lag : ℕ)
  | refreshCache (ok : Bool)
  | sendDigests (smtpConfigured : Bool)
  | query (appNow : ℤ) (ok : Bool)
  | updateLastSent (ok : Bool)
  | send (rendered queued : Bool)
  | finish
  | restart
  | prune
  | advance (d : ℕ)

def updateChannelLastSent (channels : List Channel) (id : String) (now : ℤ) : List Channel :=
  channels.map (fun ch ↦ if ch.id = id then { ch with lastSentAt := some now } else ch)

variable (rules : List Rule)

/-- The end of a channel's turn: nothing to send, or the rendered mail to the queue. -/
def State.deliver (s : State) (ch : Channel) (notifications : List Notification) (bound : ℕ) (rendered queued : Bool) :
    State :=
  if notifications = [] then { s with succeeded := update s.succeeded ch.id bound }
  else if rendered && queued then
    { s with
      mails := s.mails ++ [⟨ch.id, ch.recipients, notifications.map sanitizeForEmailDigest⟩]
      succeeded := update s.succeeded ch.id bound }
  else s

def step (s : State) (a : Act) : Option State :=
  match a, s.phase with
  | .arrive n lag, _ => some { s with rows := s.rows ++ [n.row s.nextId (s.now - lag)], nextId := s.nextId + 1 }
  | .refreshCache ok, _ => some (if ok then { s with cached := s.channels } else s)
  | .restart, _ => some { s with cached := [], phase := .idle }
  | .prune, _ => some { s with rows := pruneOlderThan s.rows retention s.now }
  | .advance d, _ => some { s with now := s.now + d }
  | .sendDigests smtpConfigured, .idle => some (if smtpConfigured then { s with phase := .running s.cached } else s)
  | .query appNow ok, .running (ch :: rest) =>
    if ch.type ≠ .email ∨ ch.recipients = [] ∨ ok = false then some { s with phase := .running rest }
    else some { s with phase := .queried ch (digestNotifications rules ch appNow s.rows) s.nextId rest }
  | .updateLastSent ok, .queried ch notifications bound rest =>
    -- the cursor moves before anything is sent, and only in the database
    some { s with
      phase := .advanced ch notifications bound rest
      channels := if ok then updateChannelLastSent s.channels ch.id s.now else s.channels }
  | .send rendered queued, .advanced ch notifications bound rest =>
    some { s.deliver ch notifications bound rendered queued with phase := .running rest }
  | .finish, .running [] => some { s with phase := .idle }
  | _, _ => none

def Mail.has (id : ℕ) (m : Mail) : Bool := (m.notifications.map Notification.id).contains id

/-- How many digests of the channel contain the notification. -/
def mailed (s : State) (channel : String) (id : ℕ) : ℕ :=
  s.mails.countP (fun m ↦ decide (m.channel = channel) && m.has id)

/-- Every stored notification that passes the channel's filters is in at most one of its digests,
and in one as soon as a cycle that began after it was stored has succeeded. -/
def ExactlyOnce (s : State) : Prop :=
  ∀ ch, ∀ n ∈ s.rows, merged rules ch n = true →
    mailed s ch.id n.id ≤ 1 ∧ (n.id < s.succeeded ch.id → mailed s ch.id n.id = 1)

/-- The cycle took, of what was stored, what no earlier digest of the channel contains. -/
def TakesUnsent (s : State) (ch : Channel) (notifications : List Notification) (bound : ℕ) : Prop :=
  ∀ n ∈ s.rows, merged rules ch n = true → n.id < bound →
    (n.id ∈ notifications.map Notification.id ↔ mailed s ch.id n.id = 0)

/-- A cycle succeeds for a channel only if its cursor picks exactly the unsent notifications. -/
def CursorExact (s : State) : Act → Prop
  | .send rendered queued => ∀ ch notifications bound rest, s.phase = .advanced ch notifications bound rest →
      notifications = [] ∨ rendered = true ∧ queued = true → TakesUnsent rules s ch notifications bound
  | _ => True

def PhaseOk (nextId : ℕ) : Phase → Prop
  | .idle | .running _ => True
  | .queried _ notifications bound _ | .advanced _ notifications bound _ =>
    bound ≤ nextId ∧ ∀ n ∈ notifications, n.id < bound

structure Inv (s : State) : Prop where
  once : ExactlyOnce rules s
  rows : ∀ n ∈ s.rows, n.id < s.nextId
  mails : ∀ m ∈ s.mails, ∀ n ∈ m.notifications, n.id < s.nextId
  succeeded : ∀ channel, s.succeeded channel ≤ s.nextId
  phase : PhaseOk s.nextId s.phase

variable {rules} {s t : State} {ch : Channel} {notifications : List Notification} {bound : ℕ} {rest : List Channel}

theorem inv_init (now : ℤ) (channels : List Channel) : Inv rules (init now channels) where
  once _ _ h := by cases h
  rows _ h := by cases h
  mails _ h := by cases h
  succeeded _ := le_rfl
  phase := trivial

theorem mem_digest {now : ℤ} {rows : List Notification} {n : Notification}
    (h : n ∈ digestNotifications rules ch now rows) : n ∈ rows := by
  have hsorted := List.mem_of_mem_take h
  rw [List.mem_insertionSort] at hsorted
  exact List.mem_of_mem_filter hsorted

@[simp] theorem sanitize_id (n : Notification) : (sanitizeForEmailDigest n).id = n.id := by
  unfold sanitizeForEmailDigest
  split <;> rfl

/-- No digest has what is not stored yet. -/
theorem Inv.mailed_fresh (h : Inv rules s) (channel : String) : mailed s channel s.nextId = 0 := by
  refine List.countP_eq_zero.mpr (fun m hm hhas ↦ ?_)
  simp only [Mail.has, Bool.and_eq_true, List.contains_iff_mem, List.mem_map] at hhas
  obtain ⟨-, n, hn, hid⟩ := hhas
  exact absurd (h.mails m hm n hn) (by omega)

theorem Inv.frame (h : Inv rules s) (hrows : ∀ n ∈ t.rows, n ∈ s.rows) (hnext : t.nextId = s.nextId)
    (hmails : t.mails = s.mails) (hsucc : t.succeeded = s.succeeded) (hphase : PhaseOk t.nextId t.phase) :
    Inv rules t where
  once ch n hn hm := by
    have hold := h.once ch n (hrows n hn) hm
    rw [mailed, hmails, hsucc]
    exact hold
  rows n hn := hnext ▸ h.rows n (hrows n hn)
  mails m hm := by
    rw [hnext]
    exact h.mails m (hmails ▸ hm)
  succeeded channel := by
    rw [hsucc, hnext]
    exact h.succeeded channel
  phase := hphase

theorem Inv.arrive (h : Inv rules s) (n : Notification) (createdAt : ℤ) :
    Inv rules { s with rows := s.rows ++ [n.row s.nextId createdAt], nextId := s.nextId + 1 } where
  once ch m hm hmerged := by
    rcases List.mem_append.mp hm with hm | hm
    · exact h.once ch m hm hmerged
    · cases List.mem_singleton.mp hm
      have hnone : mailed s ch.id s.nextId = 0 := h.mailed_fresh ch.id
      have hsucc := h.succeeded ch.id
      refine ⟨hnone.le.trans (Nat.zero_le 1), fun hlt ↦ ?_⟩
      exact absurd hlt (not_lt.mpr hsucc)
  rows m hm := by
    rcases List.mem_append.mp hm with hm | hm
    · exact (h.rows m hm).trans (Nat.lt_succ_self _)
    · cases List.mem_singleton.mp hm
      exact Nat.lt_succ_self _
  mails m hm x hx := (h.mails m hm x hx).trans (Nat.lt_succ_self _)
  succeeded channel := (h.succeeded channel).trans (Nat.le_succ _)
  phase := by
    have hp := h.phase
    revert hp
    cases s.phase with
    | idle => exact id
    | running rest => exact id
    | queried ch found bound rest => exact fun hp ↦ ⟨hp.1.trans (Nat.le_succ _), hp.2⟩
    | advanced ch found bound rest => exact fun hp ↦ ⟨hp.1.trans (Nat.le_succ _), hp.2⟩

/-- What a channel's turn adds to the count of a notification's digests. -/
theorem mailed_append (s : State) (id : ℕ) (channel : String) :
    mailed { s with mails := s.mails ++ [⟨ch.id, ch.recipients, notifications.map sanitizeForEmailDigest⟩] } channel id =
      mailed s channel id +
        if ch.id = channel ∧ id ∈ notifications.map Notification.id then 1 else 0 := by
  have hids : (notifications.map sanitizeForEmailDigest).map Notification.id = notifications.map Notification.id := by
    rw [List.map_map]
    exact List.map_congr_left (fun n _ ↦ sanitize_id n)
  simp only [mailed, List.countP_append, List.countP_singleton, Mail.has, hids, Bool.and_eq_true, decide_eq_true_eq,
    List.contains_iff_mem]

/-- `t` is `s` after a successful turn of the channel. -/
structure Delivered (s t : State) (ch : Channel) (notifications : List Notification) (bound : ℕ) : Prop where
  rows : t.rows = s.rows
  nextId : t.nextId = s.nextId
  succeeded : t.succeeded = update s.succeeded ch.id bound
  mailed : ∀ channel id, mailed t channel id =
    mailed s channel id + if ch.id = channel ∧ id ∈ notifications.map Notification.id then 1 else 0
  mails : ∀ m ∈ t.mails, m ∈ s.mails ∨ m.notifications = notifications.map sanitizeForEmailDigest

theorem send_cases {rendered queued : Bool} (hs : step rules s (.send rendered queued) = some t) :
    ∃ ch notifications bound rest, s.phase = .advanced ch notifications bound rest ∧ t.phase = .running rest ∧
      ((notifications = [] ∨ rendered = true ∧ queued = true) ∧ Delivered s t ch notifications bound ∨
        ¬ (notifications = [] ∨ rendered = true ∧ queued = true) ∧ t = { s with phase := .running rest }) := by
  cases hphase : s.phase with
  | advanced ch notifications bound rest =>
    simp only [step, hphase, Option.some.injEq] at hs
    subst hs
    refine ⟨ch, notifications, bound, rest, rfl, rfl, ?_⟩
    unfold State.deliver
    split
    · next hnil =>
      subst hnil
      exact .inl ⟨.inl rfl, rfl, rfl, rfl, fun channel id ↦ by simp [mailed], fun m hm ↦ .inl hm⟩
    · next hne =>
      split
      · next hsent =>
        refine .inl ⟨.inr (by simpa using hsent), rfl, rfl, rfl, fun channel id ↦ mailed_append s id channel,
          fun m hm ↦ ?_⟩
        rcases List.mem_append.mp hm with hm | hm
        · exact .inl hm
        · exact .inr (by rw [List.mem_singleton.mp hm])
      · next hsent => exact .inr ⟨by simpa [hne] using hsent, rfl⟩
  | _ => simp only [step, hphase, reduceCtorEq] at hs

theorem merged_congr {ch ch' : Channel} (h : ch.id = ch'.id) (n : Notification) :
    merged rules ch n = merged rules ch' n := by
  have hrules : attachedRules rules ch = attachedRules rules ch' := by rw [attachedRules, h, attachedRules]
  rw [merged, merged, hrules]

theorem Inv.delivered (h : Inv rules s) (hphase : s.phase = .advanced ch notifications bound rest)
    (hrunning : t.phase = .running rest) (hd : Delivered s t ch notifications bound)
    (htakes : TakesUnsent rules s ch notifications bound) : Inv rules t := by
  obtain ⟨hbound, hids⟩ : bound ≤ s.nextId ∧ ∀ n ∈ notifications, n.id < bound := by
    have hp := h.phase
    rwa [hphase] at hp
  refine ⟨fun ch' n hn hm ↦ ?_, fun n hn ↦ ?_, fun m hm n hn ↦ ?_, fun channel ↦ ?_, by rw [hrunning]; trivial⟩
  · rw [hd.rows] at hn
    obtain ⟨hle, hone⟩ := h.once ch' n hn hm
    rw [hd.mailed, hd.succeeded]
    by_cases hch : ch.id = ch'.id
    · rw [← merged_congr hch] at hm
      rw [← hch, update_self]
      rw [← hch] at hle
      by_cases hlt : n.id < bound
      · -- stored before the query: taken now exactly if it was not taken before
        have hiff := htakes n hn hm hlt
        by_cases hin : n.id ∈ notifications.map Notification.id
        · simp [hin, hiff.mp hin]
        · have hne := mt hiff.mpr hin
          simp only [hin, and_false, if_false]
          omega
      · have hnot : n.id ∉ notifications.map Notification.id := by
          rintro hin
          obtain ⟨m, hmem, hid⟩ := List.mem_map.mp hin
          exact hlt (hid ▸ hids m hmem)
        simp only [hnot, and_false, if_false]
        exact ⟨hle, fun hlt' ↦ absurd hlt' hlt⟩
    · rw [update_of_ne (Ne.symm hch)]
      simpa [hch] using ⟨hle, hone⟩
  · rw [hd.nextId]
    exact h.rows n (hd.rows ▸ hn)
  · rw [hd.nextId]
    rcases hd.mails m hm with hold | hnew
    · exact h.mails m hold n hn
    · rw [hnew] at hn
      obtain ⟨x, hx, rfl⟩ := List.mem_map.mp hn
      rw [sanitize_id]
      exact (hids x hx).trans_le hbound
  · rw [hd.succeeded, hd.nextId]
    by_cases hch : channel = ch.id
    · rw [hch, update_self]
      exact hbound
    · rw [update_of_ne hch]
      exact h.succeeded channel

/-- A successful turn that takes a notification again, or leaves one out, breaks the property. -/
theorem Delivered.not_exactlyOnce (hd : Delivered s t ch notifications bound)
    (htakes : ¬ TakesUnsent rules s ch notifications bound) : ¬ ExactlyOnce rules t := by
  intro honce
  refine htakes (fun n hn hm hlt ↦ ?_)
  obtain ⟨hle, hone⟩ := honce ch n (hd.rows ▸ hn) hm
  rw [hd.succeeded, update_self] at hone
  rw [hd.mailed] at hle hone
  have heq := hone hlt
  by_cases hin : n.id ∈ notifications.map Notification.id
  · simp only [hin, and_self, if_true] at hle
    exact iff_of_true hin (by omega)
  · simp only [hin, and_false, if_false] at heq
    exact iff_of_false hin (by omega)

theorem step_inv {a : Act} (h : Inv rules s) (hok : CursorExact rules s a) (hs : step rules s a = some t) :
    Inv rules t := by
  cases a with
  | arrive n lag =>
    cases hs
    exact h.arrive n _
  | refreshCache ok =>
    cases hs
    split
    · exact h.frame (fun _ hn ↦ hn) rfl rfl rfl h.phase
    · exact h
  | restart =>
    cases hs
    exact h.frame (fun _ hn ↦ hn) rfl rfl rfl trivial
  | prune =>
    cases hs
    exact h.frame (fun _ hn ↦ List.mem_of_mem_filter hn) rfl rfl rfl h.phase
  | advance d =>
    cases hs
    exact h.frame (fun _ hn ↦ hn) rfl rfl rfl h.phase
  | sendDigests smtpConfigured =>
    cases hphase : s.phase <;> simp only [step, hphase, reduceCtorEq, Option.some.injEq] at hs
    subst hs
    split
    · exact h.frame (fun _ hn ↦ hn) rfl rfl rfl trivial
    · exact h
  | query appNow ok =>
    cases hphase : s.phase with
    | running rest =>
      cases rest with
      | nil => simp only [step, hphase, reduceCtorEq] at hs
      | cons ch rest =>
        simp only [step, hphase] at hs
        split at hs <;> cases hs
        · exact h.frame (fun _ hn ↦ hn) rfl rfl rfl trivial
        · exact h.frame (fun _ hn ↦ hn) rfl rfl rfl ⟨le_rfl, fun n hn ↦ h.rows n (mem_digest hn)⟩
    | _ => simp only [step, hphase, reduceCtorEq] at hs
  | updateLastSent ok =>
    cases hphase : s.phase with
    | queried ch notifications bound rest =>
      have hp := h.phase
      rw [hphase] at hp
      simp only [step, hphase, Option.some.injEq] at hs
      subst hs
      exact h.frame (fun _ hn ↦ hn) rfl rfl rfl hp
    | _ => simp only [step, hphase, reduceCtorEq] at hs
  | send rendered queued =>
    obtain ⟨ch, notifications, bound, rest, hphase, hrunning, ⟨hsent, hd⟩ | ⟨-, rfl⟩⟩ := send_cases hs
    · exact h.delivered hphase hrunning hd (hok ch notifications bound rest hphase hsent)
    · exact h.frame (fun _ hn ↦ hn) rfl rfl rfl trivial
  | finish =>
    cases hphase : s.phase with
    | running rest =>
      cases rest with
      | nil =>
        simp only [step, hphase, Option.some.injEq] at hs
        subst hs
        exact h.frame (fun _ hn ↦ hn) rfl rfl rfl trivial
      | cons ch rest => simp only [step, hphase, reduceCtorEq] at hs
    | _ => simp only [step, hphase, reduceCtorEq] at hs

theorem not_exactlyOnce {a : Act} (hok : ¬ CursorExact rules s a) (hs : step rules s a = some t) :
    ¬ ExactlyOnce rules t := by
  cases a with
  | send rendered queued =>
    obtain ⟨ch, notifications, bound, rest, hphase, -, ⟨-, hd⟩ | ⟨hfailed, -⟩⟩ := send_cases hs
    · refine hd.not_exactlyOnce (fun htakes ↦ hok (fun ch' notifications' bound' rest' hphase' _ ↦ ?_))
      cases hphase.symm.trans hphase'
      exact htakes
    · refine absurd (fun ch' notifications' bound' rest' hphase' hsent ↦ ?_) hok
      cases hphase.symm.trans hphase'
      exact absurd hsent hfailed
  | _ => exact absurd trivial hok

def cycle (appNow : ℤ) : List Act :=
  [.sendDigests true, .query appNow true, .updateLastSent true, .send true true, .finish]

def dayAlert : Notification := { source := .alert, severity := .critical, title := "Node down" }

/-- Three daily digests, an alert before the second. The configuration is saved after the first,
which caches the cursor of that day. -/
def staleCursor : List Act :=
  .refreshCache true :: cycle 0 ++ [.refreshCache true, .advance 3600000000, .arrive dayAlert 0,
    .advance 82800000000] ++ cycle day ++ [.advance 86400000000] ++ cycle (2 * day)

end KubeCenter.Notifications.DigestRuns
