import KubeCenter.Alerting.Webhook
import KubeCenter.Core.Channel
import KubeCenter.Core.Runs

/-! The notifier that mails alerts, with its gates before the queue. -/

namespace KubeCenter.Alerting

open KubeCenter.Core

def minute : ℤ := 60 * 1000000000
def hour : ℤ := 60 * minute
def cooldownDuration : ℤ := 15 * minute
def queueSize : ℕ := 100

/-- Of an `AlertAction` what the notifier reads; the store reads neither the annotations nor the URL. -/
structure AlertAction where
  type : String
  alert : WebhookAlert
  annotations : GoMap String String := ∅
  generatorURL : String := ""

structure EmailMessage where
  subject : String
  body : String
  recipients : List String := []
  deriving DecidableEq

structure TemplateData where
  alertName : String
  severity : String
  ns : String
  status : String
  labels : GoMap String String
  annotations : GoMap String String
  startsAt : ℤ
  endsAt : Option ℤ
  generatorURL : String

/-- Of the configuration the notifier's gates read the host only. -/
structure Notifier where
  host : String
  queue : Chan EmailMessage
  hourlyCount : ℤ := 0
  hourlyReset : ℤ
  hourlyLimit : ℤ
  alertCooldown : GoMap String ℤ := ∅

def newNotifier (host : String) (rateLimit now : ℤ) : Notifier where
  host := host
  queue := { cap := queueSize }
  hourlyReset := now
  hourlyLimit := rateLimit

/-- How a call of `QueueAlert` ends; the source tells its callers `queued` or not. -/
inductive Outcome
  | unconfigured
  | cooldown
  | rateLimited
  | renderFailed (err : String)
  | queueFull
  | queued
  deriving DecidableEq

def label (alert : WebhookAlert) (name : String) : String := (alert.labels.lookup name).getD ""

/-- Both calls of `ReplaceAll`, of CR and of LF. -/
def withoutCRLF (s : String) : String := String.ofList (s.toList.filter (fun c ↦ c ≠ '\r' ∧ c ≠ '\n'))

/-- `execute` is `html/template` on the embedded templates. -/
def renderAlert (execute : String → TemplateData → Except String String) (action : AlertAction) :
    Except String EmailMessage :=
  let alertName := label action.alert "alertname"
  let severity := label action.alert "severity"
  let data : TemplateData :=
    { alertName, severity, ns := label action.alert "namespace", status := action.alert.status
      labels := action.alert.labels, annotations := action.annotations
      startsAt := action.alert.startsAt, endsAt := action.alert.endsAt, generatorURL := action.generatorURL }
  let (tmplName, subject) :=
    if action.type = "resolved" then ("alert_resolved.html", "[KubeCenter] [RESOLVED] " ++ alertName)
    else ("alert_firing.html",
      "[KubeCenter] [" ++ (if severity = "" then "warning" else severity) ++ "] " ++ alertName)
  match execute tmplName data with
  | .error err => .error ("rendering template " ++ tmplName ++ ": " ++ err)
  | .ok body => .ok { subject := withoutCRLF subject, body }

namespace Notifier

variable (execute : String → TemplateData → Except String String) (n : Notifier)

def smtpConfigured : Bool := n.host ≠ ""

/-- The alert's last entry is younger than the cooldown. -/
def cooling (now : ℤ) (fingerprint : String) : Bool :=
  (n.alertCooldown.lookup fingerprint).any (fun last ↦ now - last < cooldownDuration)

def checkCooldown (now : ℤ) (fingerprint : String) : Bool × Notifier :=
  if n.cooling now fingerprint then (false, n)
  else (true, { n with alertCooldown := n.alertCooldown.insert fingerprint now })

/-- The counter begins anew once its hour is over. -/
def rolled (now : ℤ) : Notifier :=
  if hour ≤ now - n.hourlyReset then { n with hourlyCount := 0, hourlyReset := now } else n

def checkGlobalRate (now : ℤ) : Bool × Notifier :=
  let n := n.rolled now
  if n.hourlyLimit ≤ n.hourlyCount then (false, n) else (true, { n with hourlyCount := n.hourlyCount + 1 })

/-- `select { case n.queue <- msg: default: }`. -/
def trySend (msg : EmailMessage) : Option Notifier :=
  match n.queue.trySend msg with
  | .sent queue => some { n with queue }
  | _ => none

/-- `QueueAlert` from the global rate on. -/
def afterCooldown (now : ℤ) (action : AlertAction) : Outcome × Notifier :=
  let (passed, n) := n.checkGlobalRate now
  if ¬ passed then (.rateLimited, n)
  else
    match renderAlert execute action with
    | .error err => (.renderFailed err, n)
    | .ok msg =>
      match n.trySend msg with
      | some n => (.queued, n)
      | none => (.queueFull, n)

def queueAlert (now : ℤ) (action : AlertAction) : Outcome × Notifier :=
  if ¬ n.smtpConfigured then (.unconfigured, n)
  else
    let (passed, n) :=
      if action.type ≠ "resolved" then n.checkCooldown now action.alert.fingerprint else (true, n)
    if ¬ passed then (.cooldown, n) else n.afterCooldown execute now action

/-- `body` is what `alert_test.html` gives. -/
def queueTestEmail (body : Except String String) : Except String Notifier :=
  if ¬ n.smtpConfigured then .error "SMTP is not configured"
  else
    match body with
    | .error err => .error ("rendering test email: " ++ err)
    | .ok body =>
      match n.trySend { subject := "[KubeCenter] Test Email", body } with
      | some n => .ok n
      | none => .error "email queue is full"

def queueEmail (recipients : List String) (subject htmlBody : String) : Except String Notifier :=
  if ¬ n.smtpConfigured then .error "SMTP is not configured"
  else
    match n.trySend { subject, body := htmlBody, recipients } with
    | some n => .ok n
    | none => .error "email queue is full"

def cleanupCooldowns (now : ℤ) : Notifier :=
  { n with alertCooldown := n.alertCooldown.sift (fun _ last ↦ ¬ cooldownDuration ≤ now - last) }

end Notifier

/-! ## Runs -/

/-- An e-mail that went into the queue; a test or a digest has no alert. -/
structure Queued where
  time : ℤ
  action : Option AlertAction

/-- `queued` is history. -/
structure NotifierRun where
  now : ℤ
  notifier : Notifier
  queued : List Queued := []

/-- What happens to a notifier; its calls come one after another, and each reads the clock once. -/
inductive NotifierAct
  | wait (d : ℕ)
  | queueAlert (action : AlertAction)
  | queueTestEmail (body : Except String String)
  | queueEmail (recipients : List String) (subject htmlBody : String)
  | take
  | cleanupCooldowns
  | updateConfig (host : String)

/-- The mail tells that the alert of this fingerprint fires. -/
def Queued.fires (fingerprint : String) (q : Queued) : Bool :=
  q.action.any (fun action ↦ action.type ≠ "resolved" && action.alert.fingerprint = fingerprint)

namespace NotifierRun

variable (execute : String → TemplateData → Except String String) (s : NotifierRun)

def init (host : String) (rateLimit now : ℤ) : NotifierRun := { now, notifier := newNotifier host rateLimit now }

/-- A mail that is no alert's, put in the queue or not. -/
def other : Except String Notifier → NotifierRun
  | .error _ => s
  | .ok n => { s with notifier := n, queued := s.queued ++ [⟨s.now, none⟩] }

def alerted (action : AlertAction) : Outcome × Notifier → NotifierRun
  | (outcome, n) =>
    { s with
      notifier := n
      queued := if outcome = .queued then s.queued ++ [⟨s.now, some action⟩] else s.queued }

def step : NotifierAct → Option NotifierRun
  | .wait d => some { s with now := s.now + d }
  | .queueAlert action => some (s.alerted action (s.notifier.queueAlert execute s.now action))
  | .queueTestEmail body => some (s.other (s.notifier.queueTestEmail body))
  | .queueEmail recipients subject htmlBody => some (s.other (s.notifier.queueEmail recipients subject htmlBody))
  | .take =>
    match s.notifier.queue.buf with
    | [] => none
    | _ :: buf => some { s with notifier := { s.notifier with queue := { s.notifier.queue with buf } } }
  | .cleanupCooldowns => some { s with notifier := s.notifier.cleanupCooldowns s.now }
  | .updateConfig host => some { s with notifier := { s.notifier with host } }

/-- An alert that the cooldown would suppress now has been mailed within the cooldown. -/
def SuppressesMailed : Prop :=
  ∀ action, (s.notifier.queueAlert execute s.now action).1 = .cooldown →
    ∃ q ∈ s.queued, q.fires action.alert.fingerprint ∧ s.now - cooldownDuration < q.time ∧ q.time ≤ s.now

def inHour (reset : ℤ) (q : Queued) : Bool := reset ≤ q.time && q.time < reset + hour

/-- The counter is the number of alert mails of its hour. -/
def CountsMailed : Prop :=
  s.notifier.hourlyCount = s.queued.countP (fun q ↦ q.action.isSome && inHour s.notifier.hourlyReset q)

/-- No alert that gets past its cooldown is turned away by a later gate, and none that the rate gate counts is lost. -/
def Kept (s : NotifierRun) : NotifierAct → Prop
  | .queueAlert action =>
    let rateOpen := (s.notifier.rolled s.now).hourlyCount < s.notifier.hourlyLimit
    let sends := (renderAlert execute action).isOk ∧ s.notifier.queue.buf.length < s.notifier.queue.cap
    s.notifier.smtpConfigured →
      if action.type = "resolved" then rateOpen → sends
      else ¬ s.notifier.cooling s.now action.alert.fingerprint → rateOpen ∧ sends
  | _ => True

end NotifierRun

/-! ## What a call does -/

section

variable {execute : String → TemplateData → Except String String} {n : Notifier} {now : ℤ} {action : AlertAction}

namespace Notifier

/-- The entry that a call leaves as it passes the cooldown; of a resolved alert there is none. -/
def noted (n : Notifier) (now : ℤ) (action : AlertAction) : Notifier :=
  if action.type = "resolved" then n
  else { n with alertCooldown := n.alertCooldown.insert action.alert.fingerprint now }

/-- What a call leaves that passes both gates, before its mail is queued. -/
def counted (n : Notifier) (now : ℤ) (action : AlertAction) : Notifier :=
  { (n.rolled now).noted now action with hourlyCount := (n.rolled now).hourlyCount + 1 }

/-- The call gets as far as the rate gate. -/
def Passes (n : Notifier) (now : ℤ) (action : AlertAction) : Prop :=
  n.smtpConfigured ∧ (action.type ≠ "resolved" → ¬ n.cooling now action.alert.fingerprint)

theorem rolled_noted (n : Notifier) (now : ℤ) (action : AlertAction) :
    (n.noted now action).rolled now = (n.rolled now).noted now action := by
  unfold noted rolled
  split <;> split <;> rfl

theorem noted_hourlyCount (n : Notifier) (now : ℤ) (action : AlertAction) :
    (n.noted now action).hourlyCount = n.hourlyCount := by
  unfold noted
  split <;> rfl

theorem noted_hourlyLimit (n : Notifier) (now : ℤ) (action : AlertAction) :
    (n.noted now action).hourlyLimit = n.hourlyLimit := by
  unfold noted
  split <;> rfl

theorem rolled_hourlyLimit (n : Notifier) (now : ℤ) : (n.rolled now).hourlyLimit = n.hourlyLimit := by
  unfold rolled
  split <;> rfl

theorem noted_rolled_smtpConfigured (n : Notifier) (now : ℤ) (action : AlertAction) :
    ((n.rolled now).noted now action).smtpConfigured = n.smtpConfigured := by
  unfold noted rolled
  split <;> split <;> rfl

theorem queueAlert_unconfigured (h : ¬ n.smtpConfigured) : n.queueAlert execute now action = (.unconfigured, n) :=
  if_pos h

theorem queueAlert_cooling (h : n.smtpConfigured) (hr : action.type ≠ "resolved")
    (hc : n.cooling now action.alert.fingerprint) : n.queueAlert execute now action = (.cooldown, n) := by
  simp [queueAlert, checkCooldown, h, hr, hc]

theorem queueAlert_passes (h : n.Passes now action) :
    n.queueAlert execute now action = (n.noted now action).afterCooldown execute now action := by
  obtain ⟨hc, hp⟩ := h
  by_cases hr : action.type = "resolved"
  · simp [queueAlert, noted, hc, hr]
  · simp [queueAlert, checkCooldown, noted, hc, hr, hp hr]

theorem queueAlert_limited (h : n.Passes now action) (hl : n.hourlyLimit ≤ (n.rolled now).hourlyCount) :
    n.queueAlert execute now action = (.rateLimited, (n.rolled now).noted now action) := by
  rw [queueAlert_passes h]
  simp [afterCooldown, checkGlobalRate, rolled_noted, noted_hourlyCount, noted_hourlyLimit, rolled_hourlyLimit, hl]

theorem checkGlobalRate_open (h : (n.rolled now).hourlyCount < n.hourlyLimit) :
    (n.noted now action).checkGlobalRate now = (true, n.counted now action) := by
  simp [checkGlobalRate, rolled_noted, noted_hourlyCount, noted_hourlyLimit, rolled_hourlyLimit, h, counted]

theorem counted_queue (n : Notifier) (now : ℤ) (action : AlertAction) : (n.counted now action).queue = n.queue := by
  unfold counted noted rolled
  split <;> split <;> rfl

theorem counted_hourlyReset (n : Notifier) (now : ℤ) (action : AlertAction) :
    (n.counted now action).hourlyReset = (n.rolled now).hourlyReset := by
  unfold counted noted
  split <;> rfl

theorem lookup_noted (n : Notifier) (now : ℤ) (action : AlertAction) (fp : String) :
    (n.noted now action).alertCooldown.lookup fp =
      if action.type ≠ "resolved" ∧ action.alert.fingerprint = fp then some now else n.alertCooldown.lookup fp := by
  unfold noted
  by_cases hr : action.type = "resolved"
  · simp [hr]
  · rw [if_neg hr]
    by_cases hfp : action.alert.fingerprint = fp
    · rw [if_pos ⟨hr, hfp⟩, ← hfp, AList.lookup_insert]
    · rw [if_neg (fun h ↦ hfp h.2), AList.lookup_insert_ne (Ne.symm hfp)]

theorem lookup_rolled (n : Notifier) (now : ℤ) (fp : String) :
    (n.rolled now).alertCooldown.lookup fp = n.alertCooldown.lookup fp := by
  unfold rolled
  split <;> rfl

theorem lookup_counted (n : Notifier) (now : ℤ) (action : AlertAction) (fp : String) :
    (n.counted now action).alertCooldown.lookup fp =
      if action.type ≠ "resolved" ∧ action.alert.fingerprint = fp then some now else n.alertCooldown.lookup fp := by
  rw [← lookup_rolled n now fp]
  exact lookup_noted (n.rolled now) now action fp

theorem trySend_room {msg : EmailMessage} (ho : n.queue.closed = false) (h : n.queue.buf.length < n.queue.cap) :
    n.trySend msg = some { n with queue := { n.queue with buf := n.queue.buf ++ [msg] } } := by
  simp [trySend, Chan.trySend, ho, h]

theorem trySend_full {msg : EmailMessage} (h : ¬ n.queue.buf.length < n.queue.cap) : n.trySend msg = none := by
  simp only [trySend, Chan.trySend, if_neg h]
  cases n.queue.closed <;> rfl

theorem trySend_eq_some {msg : EmailMessage} {n' : Notifier} (h : n.trySend msg = some n') :
    n.queue.closed = false ∧ n' = { n with queue := { n.queue with buf := n.queue.buf ++ [msg] } } := by
  unfold trySend at h
  cases hs : n.queue.trySend msg with
  | sent queue =>
    rw [hs] at h
    cases h
    obtain ⟨ho, rfl⟩ := Chan.trySend_sent hs
    exact ⟨ho, rfl⟩
  | full | panic =>
    rw [hs] at h
    cases h

theorem queueAlert_queued (h : n.Passes now action) (hl : (n.rolled now).hourlyCount < n.hourlyLimit)
    (hm : (renderAlert execute action).isOk) (ho : n.queue.closed = false) (hq : n.queue.buf.length < n.queue.cap) :
    ∃ msg, n.queueAlert execute now action =
      (.queued, { n.counted now action with queue := { n.queue with buf := n.queue.buf ++ [msg] } }) := by
  rw [queueAlert_passes h, afterCooldown, checkGlobalRate_open hl]
  cases hmsg : renderAlert execute action with
  | error err =>
    rw [hmsg] at hm
    cases hm
  | ok msg =>
    have hsend : (n.counted now action).trySend msg =
        some { n.counted now action with queue := { n.queue with buf := n.queue.buf ++ [msg] } } := by
      rw [trySend_room (by rwa [counted_queue]) (by rwa [counted_queue]), counted_queue]
    refine ⟨msg, ?_⟩
    simp only [hsend]
    rfl

/-- What both gates let by and the queue does not get stays noted and counted. -/
theorem queueAlert_lost (h : n.Passes now action) (hl : (n.rolled now).hourlyCount < n.hourlyLimit)
    (hn : ¬ ((renderAlert execute action).isOk ∧ n.queue.buf.length < n.queue.cap)) :
    ∃ outcome, outcome ≠ .queued ∧ n.queueAlert execute now action = (outcome, n.counted now action) := by
  rw [queueAlert_passes h, afterCooldown, checkGlobalRate_open hl]
  cases hmsg : renderAlert execute action with
  | error err => exact ⟨.renderFailed err, nofun, rfl⟩
  | ok msg =>
    rw [hmsg] at hn
    have hfull : (n.counted now action).trySend msg = none := by
      apply trySend_full
      rw [counted_queue]
      exact fun hq ↦ hn ⟨rfl, hq⟩
    refine ⟨.queueFull, nofun, ?_⟩
    simp only [hfull]
    rfl

theorem afterCooldown_ne_cooldown (n : Notifier) (now : ℤ) (action : AlertAction) :
    (n.afterCooldown execute now action).1 ≠ .cooldown := by
  unfold afterCooldown
  split
  split
  · nofun
  · split
    · nofun
    · split <;> nofun

theorem queueAlert_eq_cooldown : (n.queueAlert execute now action).1 = .cooldown ↔
    n.smtpConfigured ∧ action.type ≠ "resolved" ∧ n.cooling now action.alert.fingerprint := by
  constructor
  · intro h
    by_cases hc : n.smtpConfigured
    · refine ⟨hc, ?_⟩
      by_contra hn
      rw [queueAlert_passes ⟨hc, fun hr hcool ↦ hn ⟨hr, hcool⟩⟩] at h
      exact afterCooldown_ne_cooldown _ now action h
    · rw [queueAlert_unconfigured hc] at h
      cases h
  · rintro ⟨hc, hr, hcool⟩
    rw [queueAlert_cooling hc hr hcool]

end Notifier

end

/-! ## What runs keep -/

namespace NotifierRun

open Notifier

variable {execute : String → TemplateData → Except String String} {s t : NotifierRun} {action : AlertAction}
  {act : NotifierAct}

structure Inv (s : NotifierRun) : Prop where
  unclosed : s.notifier.queue.closed = false
  begun : s.notifier.hourlyReset ≤ s.now
  counts : s.CountsMailed
  timed : ∀ q ∈ s.queued, q.time ≤ s.now ∧ (q.action.isSome → q.time < s.notifier.hourlyReset + hour)
  mailed : ∀ fp last, s.notifier.alertCooldown.lookup fp = some last → ∃ q ∈ s.queued, q.fires fp ∧ q.time = last
  entry : ∀ fp, ∀ q ∈ s.queued, q.fires fp → s.now - q.time < cooldownDuration →
    ∃ last, s.notifier.alertCooldown.lookup fp = some last ∧ q.time ≤ last

theorem fires_isSome {fp : String} {q : Queued} (h : q.fires fp) : q.action.isSome := by
  unfold Queued.fires at h
  cases hq : q.action with
  | none => simp [hq] at h
  | some action => rfl

theorem Inv.cooling (h : Inv s) {fp : String} (hc : s.notifier.cooling s.now fp) :
    ∃ q ∈ s.queued, q.fires fp ∧ s.now - cooldownDuration < q.time ∧ q.time ≤ s.now := by
  obtain ⟨last, hlast, hyoung⟩ := Option.any_eq_true _ _ |>.mp hc
  obtain ⟨q, hq, hfires, rfl⟩ := h.mailed fp last hlast
  refine ⟨q, hq, hfires, ?_, (h.timed q hq).1⟩
  have := of_decide_eq_true hyoung
  omega

theorem Inv.suppresses (h : Inv s) : s.SuppressesMailed execute := by
  intro action hcool
  exact h.cooling (queueAlert_eq_cooldown.mp hcool).2.2

theorem Inv.rolled (h : Inv s) : Inv { s with notifier := s.notifier.rolled s.now } := by
  unfold Notifier.rolled
  split
  · next hover =>
    have htime : ∀ q ∈ s.queued, q.action.isSome → q.time < s.now := by
      intro q hq hsome
      have := (h.timed q hq).2 hsome
      omega
    refine
      { h with
        begun := Int.le_refl _
        counts := ?_
        timed := fun q hq ↦ ⟨(h.timed q hq).1, fun hsome ↦ ?_⟩ }
    · -- the mails of the old hour are none of the new one's
      have hnone : s.queued.countP (fun q ↦ q.action.isSome && inHour s.now q) = 0 := by
        rw [List.countP_eq_zero]
        intro q hq hin
        simp only [inHour, Bool.and_eq_true, decide_eq_true_eq] at hin
        have := htime q hq hin.1
        omega
      show (0 : ℤ) = _
      rw [hnone]
      rfl
    · have := htime q hq hsome
      show q.time < s.now + hour
      unfold hour minute
      omega
  · exact h

theorem rolled_open (s : NotifierRun) : s.now < (s.notifier.rolled s.now).hourlyReset + hour := by
  unfold Notifier.rolled
  split
  · show s.now < s.now + hour
    unfold hour minute
    omega
  · omega

/-- A mail joins the queue that no gate has counted. -/
theorem Inv.join_other (h : Inv s) (buf : List EmailMessage) :
    Inv
      { s with
        notifier := { s.notifier with queue := { s.notifier.queue with buf } }
        queued := s.queued ++ [⟨s.now, none⟩] } where
  unclosed := h.unclosed
  begun := h.begun
  counts := by
    simp only [CountsMailed, List.countP_append, List.countP_singleton, Option.isSome_none, Bool.false_and]
    exact h.counts
  timed := by
    intro q hq
    obtain hq | hq := List.mem_append.mp hq
    · exact h.timed q hq
    · obtain rfl := List.mem_singleton.mp hq
      exact ⟨Int.le_refl _, nofun⟩
  mailed := by
    intro fp last hlast
    obtain ⟨q, hq, hfires⟩ := h.mailed fp last hlast
    exact ⟨q, List.mem_append_left _ hq, hfires⟩
  entry := by
    intro fp q hq hfires hyoung
    obtain hq | hq := List.mem_append.mp hq
    · exact h.entry fp q hq hfires hyoung
    · obtain rfl := List.mem_singleton.mp hq
      cases hfires

theorem fires_mail {fp : String} {time : ℤ} : (Queued.mk time (some action)).fires fp ↔
    action.type ≠ "resolved" ∧ action.alert.fingerprint = fp := by
  simp [Queued.fires]

/-- A mail of an alert joins the queue, noted and counted. -/
theorem Inv.join (h : Inv s) (action : AlertAction) (buf : List EmailMessage) :
    Inv
      { s with
        notifier := { s.notifier.counted s.now action with queue := { s.notifier.queue with buf } }
        queued := s.queued ++ [⟨s.now, some action⟩] } where
  unclosed := h.unclosed
  begun := by
    rw [counted_hourlyReset]
    exact h.rolled.begun
  counts := by
    have hin : inHour (s.notifier.rolled s.now).hourlyReset ⟨s.now, some action⟩ = true := by
      simp only [inHour, Bool.and_eq_true, decide_eq_true_eq]
      exact ⟨h.rolled.begun, rolled_open s⟩
    have hcount := h.rolled.counts
    simp only [CountsMailed, counted_hourlyReset, List.countP_append, List.countP_singleton, Option.isSome_some, hin,
      Bool.and_true, if_true] at hcount ⊢
    rw [Int.natCast_add, ← hcount]
    rfl
  timed := by
    intro q hq
    rw [counted_hourlyReset]
    obtain hq | hq := List.mem_append.mp hq
    · exact h.rolled.timed q hq
    · obtain rfl := List.mem_singleton.mp hq
      exact ⟨Int.le_refl _, fun _ ↦ rolled_open s⟩
  mailed := by
    intro fp last hlast
    rw [lookup_counted] at hlast
    split at hlast
    · next hfp =>
      cases hlast
      exact ⟨⟨s.now, some action⟩, List.mem_append_right _ List.mem_cons_self, fires_mail.mpr hfp, rfl⟩
    · obtain ⟨q, hq, hfires⟩ := h.mailed fp last hlast
      exact ⟨q, List.mem_append_left _ hq, hfires⟩
  entry := by
    intro fp q hq hfires hyoung
    rw [lookup_counted]
    obtain hq | hq := List.mem_append.mp hq
    · split
      · exact ⟨s.now, rfl, (h.timed q hq).1⟩
      · exact h.entry fp q hq hfires hyoung
    · obtain rfl := List.mem_singleton.mp hq
      rw [if_pos (fires_mail.mp hfires)]
      exact ⟨s.now, rfl, Int.le_refl _⟩

theorem Inv.cleanup (h : Inv s) : Inv { s with notifier := s.notifier.cleanupCooldowns s.now } :=
  { h with
    mailed := by
      intro fp last hlast
      rw [cleanupCooldowns, GoMap.lookup_sift, Option.filter_eq_some_iff] at hlast
      exact h.mailed fp last hlast.1
    entry := by
      intro fp q hq hfires hyoung
      obtain ⟨last, hlast, hle⟩ := h.entry fp q hq hfires hyoung
      refine ⟨last, ?_, hle⟩
      rw [cleanupCooldowns, GoMap.lookup_sift, Option.filter_eq_some_iff]
      refine ⟨hlast, decide_eq_true ?_⟩
      simp only at hyoung
      omega }

theorem Inv.wait (h : Inv s) (d : ℕ) : Inv { s with now := s.now + d } :=
  { h with
    begun := by
      have := h.begun
      simp only
      omega
    timed := by
      intro q hq
      obtain ⟨hle, hlt⟩ := h.timed q hq
      refine ⟨?_, hlt⟩
      simp only
      omega
    entry := by
      intro fp q hq hfires hyoung
      refine h.entry fp q hq hfires ?_
      simp only at hyoung
      omega }

theorem Inv.other (h : Inv s) {result : Except String Notifier}
    (hresult : ∀ n, result = .ok n → ∃ msg, s.notifier.trySend msg = some n) : Inv (s.other result) := by
  cases result with
  | error err => exact h
  | ok n =>
    obtain ⟨msg, hmsg⟩ := hresult n rfl
    obtain ⟨-, rfl⟩ := trySend_eq_some hmsg
    exact h.join_other _

theorem queueTestEmail_ok {n n' : Notifier} {body : Except String String} (h : n.queueTestEmail body = .ok n') :
    ∃ msg, n.trySend msg = some n' := by
  unfold queueTestEmail at h
  split at h
  · cases h
  · split at h
    · cases h
    · split at h
      · next hsend =>
        cases h
        exact ⟨_, hsend⟩
      · cases h

theorem queueEmail_ok {n n' : Notifier} {recipients : List String} {subject htmlBody : String}
    (h : n.queueEmail recipients subject htmlBody = .ok n') : ∃ msg, n.trySend msg = some n' := by
  unfold queueEmail at h
  split at h
  · cases h
  · split at h
    · next hsend =>
      cases h
      exact ⟨_, hsend⟩
    · cases h

/-- A resolved alert that the rate gate turns away leaves nothing but the rolled counter. -/
theorem Inv.resolved_limited (h : Inv s) (hr : action.type = "resolved") :
    Inv { s with notifier := (s.notifier.rolled s.now).noted s.now action } := by
  rw [Notifier.noted, if_pos hr]
  exact h.rolled

theorem Inv.alerted (h : Inv s) (hk : Kept execute s (.queueAlert action)) :
    Inv (s.alerted action (s.notifier.queueAlert execute s.now action)) := by
  by_cases hc : s.notifier.smtpConfigured
  · have hk := hk hc
    by_cases hcool : action.type ≠ "resolved" ∧ s.notifier.cooling s.now action.alert.fingerprint
    · rw [queueAlert_cooling hc hcool.1 hcool.2]
      exact h
    · have hp : s.notifier.Passes s.now action := ⟨hc, fun hr hcooling ↦ hcool ⟨hr, hcooling⟩⟩
      by_cases hl : (s.notifier.rolled s.now).hourlyCount < s.notifier.hourlyLimit
      · have hsends : (renderAlert execute action).isOk ∧ s.notifier.queue.buf.length < s.notifier.queue.cap := by
          split at hk
          · exact hk hl
          · next hr => exact (hk (hp.2 hr)).2
        obtain ⟨msg, hmsg⟩ := queueAlert_queued hp hl hsends.1 h.unclosed hsends.2
        rw [hmsg]
        exact h.join action _
      · have hr : action.type = "resolved" := by
          by_contra hr
          rw [if_neg hr] at hk
          exact hl (hk (hp.2 hr)).1
        rw [queueAlert_limited hp (Int.not_lt.mp hl)]
        exact h.resolved_limited hr
  · rw [queueAlert_unconfigured hc]
    exact h

theorem step_inv (s : NotifierRun) (act : NotifierAct) (t : NotifierRun) (h : Inv s) (hk : Kept execute s act)
    (hs : step execute s act = some t) : Inv t := by
  cases act with
  | wait d =>
    cases hs
    exact h.wait d
  | queueAlert action =>
    cases hs
    exact h.alerted hk
  | queueTestEmail body =>
    cases hs
    exact h.other (fun n ↦ queueTestEmail_ok)
  | queueEmail recipients subject htmlBody =>
    cases hs
    exact h.other (fun n ↦ queueEmail_ok)
  | take =>
    rw [step] at hs
    split at hs
    · cases hs
    · cases hs
      exact { h with }
  | cleanupCooldowns =>
    cases hs
    exact h.cleanup
  | updateConfig host =>
    cases hs
    exact { h with }

/-- A call that is not kept leaves a suppression with no mail behind it, or a count of a mail that there is not. -/
theorem not_faithful (h : Inv s) (hk : ¬ Kept execute s act) (hs : step execute s act = some t) :
    ¬ (t.SuppressesMailed execute ∧ t.CountsMailed) := by
  cases act with
  | queueAlert action =>
    cases hs
    obtain ⟨hc, hk⟩ := Classical.not_imp.mp hk
    have hp : s.notifier.Passes s.now action := by
      refine ⟨hc, fun hr hcool ↦ hk ?_⟩
      rw [if_neg hr]
      exact fun hn ↦ absurd hcool hn
    rintro ⟨hsuppresses, hcounts⟩
    by_cases hl : (s.notifier.rolled s.now).hourlyCount < s.notifier.hourlyLimit
    · have hlost : ¬ ((renderAlert execute action).isOk ∧ s.notifier.queue.buf.length < s.notifier.queue.cap) := by
        intro hsends
        apply hk
        split
        · exact fun _ ↦ hsends
        · exact fun _ ↦ ⟨hl, hsends⟩
      obtain ⟨outcome, hout, hq⟩ := queueAlert_lost hp hl hlost
      have hcount := h.rolled.counts
      rw [hq] at hcounts
      simp only [CountsMailed, NotifierRun.alerted, if_neg hout, counted_hourlyReset] at hcounts hcount
      rw [← hcount] at hcounts
      exact absurd hcounts (by show ¬ (_ + 1 = _); omega)
    · have hr : action.type ≠ "resolved" := by
        intro hr
        apply hk
        rw [if_pos hr]
        exact fun hopen ↦ absurd hopen hl
      rw [queueAlert_limited hp (Int.not_lt.mp hl)] at hsuppresses
      -- the same alert once more: it is suppressed for an entry that no mail stands behind
      have hcool : ((s.notifier.rolled s.now).noted s.now action).cooling s.now action.alert.fingerprint := by
        rw [Notifier.cooling, lookup_noted, if_pos ⟨hr, rfl⟩]
        simp [cooldownDuration, minute]
      obtain ⟨q, hq, hfires, hyoung, -⟩ := hsuppresses action
        (queueAlert_eq_cooldown.mpr ⟨(noted_rolled_smtpConfigured _ _ _).trans hc, hr, hcool⟩)
      obtain ⟨last, hlast, hle⟩ := h.entry _ q hq hfires (by simp only [NotifierRun.alerted] at hyoung; omega)
      apply hp.2 hr
      rw [Notifier.cooling, hlast]
      simp only [NotifierRun.alerted, Option.any_some, decide_eq_true_eq] at hyoung ⊢
      omega
  | wait | queueTestEmail | queueEmail | take | cleanupCooldowns | updateConfig => exact absurd trivial hk

theorem inv_init (host : String) (rateLimit now : ℤ) : Inv (init host rateLimit now) where
  unclosed := rfl
  begun := Int.le_refl _
  counts := rfl
  timed _ hq := absurd hq List.not_mem_nil
  mailed := nofun
  entry _ _ hq := absurd hq List.not_mem_nil

/-- The mail is neither a test nor a digest. -/
def AlertsOnly : NotifierAct → Prop
  | .queueTestEmail _ | .queueEmail _ _ _ => False
  | _ => True

theorem step_alerts (hs : step execute s act = some t) (ho : AlertsOnly act) (h : ∀ q ∈ s.queued, q.action.isSome) :
    ∀ q ∈ t.queued, q.action.isSome := by
  cases act with
  | queueAlert action =>
    cases hs
    intro q hq
    simp only [NotifierRun.alerted] at hq
    split at hq
    · obtain hq | hq := List.mem_append.mp hq
      · exact h q hq
      · obtain rfl := List.mem_singleton.mp hq
        rfl
    · exact h q hq
  | take =>
    rw [step] at hs
    split at hs
    · cases hs
    · cases hs
      exact h
  | queueTestEmail | queueEmail => exact ho.elim
  | wait | cleanupCooldowns | updateConfig =>
    cases hs
    exact h

/-- The counter against every mail that went into the queue. -/
def CountsEveryMail (s : NotifierRun) : Prop :=
  s.notifier.hourlyCount = s.queued.countP (inHour s.notifier.hourlyReset)

theorem Inv.countsEveryMail (h : Inv s) (ha : ∀ q ∈ s.queued, q.action.isSome) : s.CountsEveryMail := by
  rw [CountsEveryMail, h.counts]
  congr 1
  apply List.countP_congr
  intro q hq
  simp [ha q hq]

/-- A run suppresses for mails only and counts mails only exactly if each of its steps is kept. -/
theorem suppresses_and_counts_mailed_iff (execute : String → TemplateData → Except String String) (host : String)
    (rateLimit now : ℤ) (acts : List NotifierAct) :
    (Throughout (step execute) (fun s ↦ s.SuppressesMailed execute ∧ s.CountsMailed) (init host rateLimit now) acts ↔
      EachStep (step execute) (Kept execute) (init host rateLimit now) acts) ∧
    (EachStep (step execute) (fun s act ↦ Kept execute s act ∧ AlertsOnly act) (init host rateLimit now) acts →
      Throughout (step execute) CountsEveryMail (init host rateLimit now) acts) := by
  constructor
  · exact throughout_iff_eachStep (fun _ h ↦ ⟨h.suppresses, h.counts⟩) step_inv (fun _ _ _ ↦ not_faithful)
      (inv_init host rateLimit now) acts
  · intro h
    have hrun : Throughout (step execute) (fun s ↦ Inv s ∧ ∀ q ∈ s.queued, q.action.isSome)
        (init host rateLimit now) acts := by
      refine h.throughout (fun s act t hi hok hs ↦ ?_) ⟨inv_init host rateLimit now, fun _ hq ↦ absurd hq List.not_mem_nil⟩
      exact ⟨step_inv s act t hi.1 hok.1 hs, step_alerts hs hok.2 hi.2⟩
    exact hrun.mono (fun s hi ↦ hi.1.countsEveryMail hi.2)

def firing (fingerprint : String) : AlertAction :=
  { type := "new", alert := { status := "firing", fingerprint } }

/-- With one mail an hour: B is turned away at the rate limit, and suppressed in the next hour, though no mail of it
was ever queued. -/
theorem suppressed_unmailed :
    ¬ Throughout (step (fun _ _ ↦ .ok ""))
      (fun s ↦ s.SuppressesMailed (fun _ _ ↦ .ok "") ∧ s.CountsMailed) (init "smtp" 1 0)
      [.queueAlert (firing "A"), .wait 3000000000000, .queueAlert (firing "B"), .wait 660000000000] := by
  intro h
  obtain ⟨hsuppresses, -⟩ := h.last rfl
  obtain ⟨q, hq, hfires, -⟩ := hsuppresses (firing "B") (by decide)
  obtain rfl := List.mem_singleton.mp hq
  exact absurd hfires (by decide)

end NotifierRun

end KubeCenter.Alerting
