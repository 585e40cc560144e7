import KubeCenter.Core.FixedWindow
import KubeCenter.Core.GoMap

/-! The request throttle of the HTTP middleware. Times and durations are in nanoseconds. -/

namespace KubeCenter.Server

open KubeCenter.Core
open FixedWindow (Counter Call)

structure Bucket where
  tokens : ℕ
  lastReset : ℤ

structure RateLimiter where
  buckets : GoMap String Bucket
  rate : ℕ
  window : ℤ

def second : ℤ := 1000000000

def defaultRate : ℕ := 5

def defaultWindow : ℤ := 60 * second

def newRateLimiterWithRate (rate : ℕ) (window : ℤ) : RateLimiter := ⟨∅, rate, window⟩

def newRateLimiter : RateLimiter := newRateLimiterWithRate defaultRate defaultWindow

namespace RateLimiter

def setBucket (rl : RateLimiter) (key : String) (b : Bucket) : RateLimiter :=
  { rl with buckets := rl.buckets.insert key b }

/-- The verdict and the seconds to wait. `remaining.Seconds()` goes through a `float64`, exact
in its whole part for windows under 97 days; a longer one may wait a second more. -/
def checkKey (rl : RateLimiter) (key : String) (now : ℤ) : (Bool × ℤ) × RateLimiter :=
  match rl.buckets.lookup key with
  | none => ((true, 0), rl.setBucket key ⟨1, now⟩)
  | some b =>
    if rl.window ≤ now - b.lastReset then ((true, 0), rl.setBucket key ⟨1, now⟩)
    else
      let b := { b with tokens := b.tokens + 1 }
      let remaining := rl.window - (now - b.lastReset)
      if b.tokens ≤ rl.rate then ((true, 0), rl.setBucket key b)
      else if remaining ≤ 0 then ((true, 0), rl.setBucket key b)
      else ((false, remaining / second + 1), rl.setBucket key b)

def cleanup (rl : RateLimiter) (now : ℤ) : RateLimiter :=
  { rl with buckets := rl.buckets.sift (fun _ b ↦ !decide (rl.window * 2 ≤ now - b.lastReset)) }

/-- Whether `checkKey` starts a new bucket for the key. -/
def opens (rl : RateLimiter) (key : String) (now : ℤ) : Bool :=
  (rl.buckets.lookup key).all (fun b ↦ decide (rl.window ≤ now - b.lastReset))

end RateLimiter

inductive Action where
  | checkKey (key : String)
  | cleanup
  deriving DecidableEq

/-- One acquisition of the limiter's lock. -/
structure Event where
  time : ℤ
  action : Action
  deriving DecidableEq

structure Entry where
  key : String
  time : ℤ
  opens : Bool
  allowed : Bool
  retryAfterSec : ℤ
  deriving DecidableEq

/-- What the calls of a run answer, in order. -/
def RateLimiter.run : RateLimiter → List Event → List Entry
  | _, [] => []
  | rl, ⟨now, .checkKey key⟩ :: events =>
    let (verdict, rl') := rl.checkKey key now
    ⟨key, now, rl.opens key now, verdict.1, verdict.2⟩ :: rl'.run events
  | rl, ⟨now, .cleanup⟩ :: events => (rl.cleanup now).run events

def Entry.isFor (key : String) (x : Entry) : Bool := decide (x.key = key)

def Event.isFor (key : String) (e : Event) : Bool := decide (e.action = .checkKey key)

/-- Allowed in the half-open interval of length `window` from `t` on. -/
def Entry.inWindow (window t : ℤ) (x : Entry) : Bool :=
  x.allowed && decide (t ≤ x.time ∧ x.time < t + window)

def callTimes (key : String) (events : List Event) : List ℤ :=
  (events.filter (Event.isFor key)).map Event.time

def Bucket.counter (b : Bucket) : Counter := ⟨b.tokens, b.lastReset⟩

def entryOf (key : String) (c : Call) : Entry where
  key := key
  time := c.time
  opens := c.opens
  allowed := c.allowed
  retryAfterSec := if c.allowed then 0 else (c.closesAt - c.time) / second + 1

namespace RateLimiter

/-- The map holds the counter `s` for the key, or has dropped it after its window was over. -/
def Holds (key : String) (now : ℤ) (rl : RateLimiter) (s : Option Counter) : Prop :=
  (∀ c ∈ s, c.openedAt ≤ now) ∧
    ((rl.buckets.lookup key).map Bucket.counter = s ∨
      rl.buckets.lookup key = none ∧ ∀ c ∈ s, rl.window ≤ now - c.openedAt)

variable {rl : RateLimiter} {key key' : String} {now t : ℤ} {s : Option Counter} {b : Bucket}
  {events : List Event}

theorem lookup_setBucket_self : (rl.setBucket key b).buckets.lookup key = some b := AList.lookup_insert _

theorem lookup_setBucket_ne (h : key' ≠ key) :
    (rl.setBucket key b).buckets.lookup key' = rl.buckets.lookup key' :=
  AList.lookup_insert_ne h

theorem checkKey_state (rl : RateLimiter) (key : String) (now : ℤ) :
    ∃ b, (rl.checkKey key now).2 = rl.setBucket key b := by
  unfold checkKey
  split
  · exact ⟨_, rfl⟩
  · split
    · exact ⟨_, rfl⟩
    · dsimp only
      split
      · exact ⟨_, rfl⟩
      · split <;> exact ⟨_, rfl⟩

@[simp] theorem checkKey_rate : (rl.checkKey key now).2.rate = rl.rate := by
  obtain ⟨b, h⟩ := rl.checkKey_state key now
  rw [h, setBucket]

@[simp] theorem checkKey_window : (rl.checkKey key now).2.window = rl.window := by
  obtain ⟨b, h⟩ := rl.checkKey_state key now
  rw [h, setBucket]

theorem lookup_checkKey_ne (h : key' ≠ key) :
    (rl.checkKey key now).2.buckets.lookup key' = rl.buckets.lookup key' := by
  obtain ⟨b, hb⟩ := rl.checkKey_state key now
  rw [hb, lookup_setBucket_ne h]

theorem checkKey_opens (h : rl.opens key now = true) :
    rl.checkKey key now = ((true, 0), rl.setBucket key ⟨1, now⟩) := by
  unfold opens at h
  unfold checkKey
  cases hb : rl.buckets.lookup key with
  | none => rfl
  | some b =>
    rw [hb] at h
    exact if_pos (of_decide_eq_true h)

/-- Past the reset the time left is positive, so the branch for none left is never taken. -/
theorem checkKey_live (hb : rl.buckets.lookup key = some b) (hlive : now - b.lastReset < rl.window) :
    rl.checkKey key now =
      ((decide (b.tokens + 1 ≤ rl.rate),
        if b.tokens + 1 ≤ rl.rate then 0 else (b.lastReset + rl.window - now) / second + 1),
      rl.setBucket key ⟨b.tokens + 1, b.lastReset⟩) := by
  have hleft : ¬ rl.window - (now - b.lastReset) ≤ 0 := by omega
  have hsub : rl.window - (now - b.lastReset) = b.lastReset + rl.window - now := by omega
  unfold checkKey
  rw [hb]
  simp only [not_le.mpr hlive, hsub, if_false]
  rw [hsub] at hleft
  split <;> simp only [*, decide_true, decide_false]

/-- A call answers as the key's counter does, and leaves the map with the counter's next state. -/
theorem Holds.checkKey (h : Holds key t rl s) (hnow : t ≤ now) :
    (⟨key, now, rl.opens key now, (rl.checkKey key now).1.1, (rl.checkKey key now).1.2⟩ : Entry) =
        entryOf key (FixedWindow.arrive rl.rate rl.window now s).1 ∧
      Holds key now (rl.checkKey key now).2 (some (FixedWindow.arrive rl.rate rl.window now s).2) := by
  by_cases hfresh : rl.opens key now = true
  · have hs : ∀ c, s = some c → rl.window ≤ now - c.openedAt := by
      rintro c rfl
      rcases h.2 with hmap | ⟨-, hover⟩
      · obtain ⟨b, hb, rfl⟩ := Option.map_eq_some_iff.mp hmap
        rw [opens, hb] at hfresh
        exact of_decide_eq_true hfresh
      · exact (hover c rfl).trans (by omega)
    rw [hfresh, checkKey_opens hfresh, FixedWindow.arrive_fresh hs]
    refine ⟨rfl, ?_, .inl ?_⟩
    · rintro _ ⟨⟩
      exact le_rfl
    · rw [lookup_setBucket_self]
      rfl
  · obtain ⟨b, hb, hlive⟩ : ∃ b, rl.buckets.lookup key = some b ∧ now - b.lastReset < rl.window := by
      cases hb : rl.buckets.lookup key with
      | none =>
        rw [opens, hb] at hfresh
        exact absurd rfl hfresh
      | some b =>
        rw [opens, hb] at hfresh
        exact ⟨b, rfl, not_le.mp (fun hle ↦ hfresh (decide_eq_true hle))⟩
    obtain ⟨hopened, hmap | ⟨hnone, -⟩⟩ := h
    · rw [hb] at hmap
      subst hmap
      rw [Bool.not_eq_true] at hfresh
      rw [hfresh, checkKey_live hb hlive, Option.map_some, FixedWindow.arrive_live hlive]
      refine ⟨?_, ?_, .inl ?_⟩
      · by_cases hle : b.tokens + 1 ≤ rl.rate <;> simp [entryOf, Bucket.counter, hle]
      · rintro _ ⟨⟩
        exact (hopened _ rfl).trans hnow
      · rw [lookup_setBucket_self]
        rfl
    · rw [hb] at hnone
      cases hnone

theorem Holds.checkKey_ne (h : Holds key t rl s) (hnow : t ≤ now) (hne : key ≠ key') :
    Holds key now (rl.checkKey key' now).2 s := by
  refine ⟨fun c hc ↦ (h.1 c hc).trans hnow, ?_⟩
  rw [lookup_checkKey_ne hne, checkKey_window]
  exact h.2.imp id (fun h ↦ ⟨h.1, fun c hc ↦ (h.2 c hc).trans (by omega)⟩)

/-- A cleanup pass drops the key's bucket only after its window: twice the window is over. -/
theorem Holds.cleanup (h : Holds key t rl s) (hnow : t ≤ now) : Holds key now (rl.cleanup now) s := by
  refine ⟨fun c hc ↦ (h.1 c hc).trans hnow, ?_⟩
  rw [RateLimiter.cleanup, GoMap.lookup_sift]
  rcases h.2 with hmap | ⟨hnone, hover⟩
  · cases hb : rl.buckets.lookup key with
    | none =>
      rw [hb] at hmap
      exact .inl hmap
    | some b =>
      rw [hb] at hmap
      subst hmap
      by_cases hstale : rl.window * 2 ≤ now - b.lastReset
      · refine .inr ⟨by simp only [hstale, Option.filter_some, decide_true, Bool.not_true]; rfl, ?_⟩
        rintro _ ⟨⟩
        have hopened : b.lastReset ≤ t := h.1 _ rfl
        simp only [Bucket.counter]
        omega
      · exact .inl (by simp only [hstale, Option.filter_some, decide_false, Bool.not_false]; rfl)
  · rw [hnone]
    exact .inr ⟨rfl, fun c hc ↦ (hover c hc).trans (by omega)⟩

theorem callTimes_check : callTimes key (⟨now, .checkKey key⟩ :: events) = now :: callTimes key events := by
  simp [callTimes, Event.isFor]

theorem callTimes_check_ne (h : key ≠ key') :
    callTimes key (⟨now, .checkKey key'⟩ :: events) = callTimes key events := by
  simp [callTimes, Event.isFor, h.symm]

theorem callTimes_cleanup : callTimes key (⟨now, .cleanup⟩ :: events) = callTimes key events := by
  simp [callTimes, Event.isFor]

/-- What a run answers for one key is what the key's own counter answers. -/
theorem Holds.run (h : Holds key t rl s) (hs : events.Pairwise (fun e e' ↦ e.time ≤ e'.time))
    (ht : ∀ e ∈ events, t ≤ e.time) :
    (rl.run events).filter (Entry.isFor key) =
      (FixedWindow.serve rl.rate rl.window s (callTimes key events)).map (entryOf key) := by
  induction events generalizing rl t s with
  | nil => rfl
  | cons e events ih =>
    obtain ⟨hle, htail⟩ := List.pairwise_cons.mp hs
    have hnow := ht e List.mem_cons_self
    obtain ⟨now, action⟩ := e
    cases action with
    | cleanup =>
      rw [callTimes_cleanup, RateLimiter.run]
      exact ih (h.cleanup hnow) htail hle
    | checkKey key' =>
      rw [RateLimiter.run]
      by_cases hkey : key = key'
      · subst hkey
        obtain ⟨hentry, hnext⟩ := h.checkKey hnow
        have hrest := ih hnext htail hle
        rw [checkKey_rate, checkKey_window] at hrest
        rw [callTimes_check, FixedWindow.serve, List.map_cons, List.filter_cons_of_pos (by simp [Entry.isFor]),
          hrest, ← hentry]
      · have hrest := ih (h.checkKey_ne hnow hkey) htail hle
        rw [checkKey_rate, checkKey_window] at hrest
        rw [callTimes_check_ne hkey, List.filter_cons_of_neg, hrest]
        simpa [Entry.isFor] using Ne.symm hkey

theorem callTimes_filter : callTimes key (events.filter (Event.isFor key)) = callTimes key events := by
  simp only [callTimes, List.filter_filter, Bool.and_self]

theorem callTimes_pairwise (hs : events.Pairwise (fun e e' ↦ e.time ≤ e'.time)) :
    (callTimes key events).Pairwise (· ≤ ·) :=
  List.pairwise_map.mpr (hs.sublist List.filter_sublist)

variable {rate : ℕ} {window : ℤ}

/-- What a new limiter answers for the key in a run of checks for any keys and of cleanup passes. -/
def keyLog (rate : ℕ) (window : ℤ) (key : String) (events : List Event) : List Entry :=
  ((newRateLimiterWithRate rate window).run events).filter (Entry.isFor key)

theorem holds_new : Holds key now (newRateLimiterWithRate rate window) none :=
  ⟨fun _ h ↦ (by cases h), .inl rfl⟩

theorem keyLog_eq_serve (hs : events.Pairwise (fun e e' ↦ e.time ≤ e'.time)) :
    keyLog rate window key events =
      (FixedWindow.serve rate window none (callTimes key events)).map (entryOf key) := by
  cases events with
  | nil => rfl
  | cons e events =>
    refine holds_new.run hs (t := e.time) (fun e' he' ↦ ?_)
    rcases List.mem_cons.mp he' with rfl | he'
    · exact le_rfl
    · exact (List.pairwise_cons.mp hs).1 e' he'

theorem keyLog_filter (hs : events.Pairwise (fun e e' ↦ e.time ≤ e'.time)) :
    keyLog rate window key events = keyLog rate window key (events.filter (Event.isFor key)) := by
  rw [keyLog_eq_serve hs, keyLog_eq_serve (hs.sublist List.filter_sublist), callTimes_filter]

theorem countP_inWindow_keyLog (hrate : 1 ≤ rate) (hs : events.Pairwise (fun e e' ↦ e.time ≤ e'.time)) (t : ℤ) :
    (keyLog rate window key events).countP (Entry.inWindow window t) ≤ 2 * rate := by
  rw [keyLog_eq_serve hs, List.countP_map]
  exact FixedWindow.count_interval hrate (callTimes_pairwise hs)

theorem countP_allowed_bucket (hrate : 1 ≤ rate) (hs : events.Pairwise (fun e e' ↦ e.time ≤ e'.time))
    {calls : List Entry} (hin : calls <:+: keyLog rate window key events)
    (hopen : ∀ x ∈ calls.tail, x.opens = false) : calls.countP Entry.allowed ≤ rate := by
  rw [keyLog_eq_serve hs] at hin
  obtain ⟨seg, hseg, rfl⟩ := List.infix_map_iff.mp hin
  rw [List.countP_map]
  refine FixedWindow.count_segment hrate hseg (fun c hc ↦ ?_)
  rw [← List.map_tail] at hopen
  exact hopen _ (List.mem_map_of_mem hc)

theorem second_pos : 0 < second := by decide

theorem closesAt_le (c : Call) (h : c.allowed = false) :
    c.closesAt ≤ (entryOf key c).time + (entryOf key c).retryAfterSec * second := by
  have hdiv := Int.lt_ediv_add_one_mul_self (c.closesAt - c.time) second_pos
  simp only [entryOf, h, Bool.false_eq_true, if_false]
  omega

theorem allowed_after_retry (hs : events.Pairwise (fun e e' ↦ e.time ≤ e'.time)) {x y : Entry}
    (hin : [x, y] <:+: keyLog rate window key events) (hx : x.allowed = false)
    (hy : x.time + x.retryAfterSec * second ≤ y.time) : y.allowed = true := by
  rw [keyLog_eq_serve hs] at hin
  obtain ⟨seg, hseg, heq⟩ := List.infix_map_iff.mp hin
  obtain ⟨c, _, rfl, rfl, hrest⟩ := List.map_eq_cons_iff.mp heq.symm
  obtain ⟨d, _, rfl, rfl, hnil⟩ := List.map_eq_cons_iff.mp hrest
  cases List.map_eq_nil_iff.mp hnil
  exact FixedWindow.allowed_after hseg hx ((closesAt_le c hx).trans hy)

/-- The limiter's law for one key, over runs of checks for any keys and cleanup passes: the
bounds for an interval and for a bucket, independence of everything but the key's own checks,
and the promise of `retryAfterSec`. -/
theorem rate_law (rate : ℕ) (window : ℤ) (key : String) (events : List Event) (hrate : 1 ≤ rate)
    (hs : events.Pairwise (fun e e' ↦ e.time ≤ e'.time)) :
    (∀ t, (keyLog rate window key events).countP (Entry.inWindow window t) ≤ 2 * rate) ∧
    (∀ calls, calls <:+: keyLog rate window key events → (∀ x ∈ calls.tail, x.opens = false) →
      calls.countP Entry.allowed ≤ rate) ∧
    keyLog rate window key events = keyLog rate window key (events.filter (Event.isFor key)) ∧
    ∀ x y, [x, y] <:+: keyLog rate window key events → x.allowed = false →
      x.time + x.retryAfterSec * second ≤ y.time → y.allowed = true :=
  ⟨countP_inWindow_keyLog hrate hs, fun _ ↦ countP_allowed_bucket hrate hs, keyLog_filter hs,
    fun _ _ ↦ allowed_after_retry hs⟩

/-- Six checks and a retry, with another key and a cleanup between. -/
def sixChecks : List Event :=
  [⟨0, .checkKey "login:ann"⟩, ⟨1, .checkKey "login:ann"⟩, ⟨2, .checkKey "10.0.0.1"⟩,
    ⟨3, .checkKey "login:ann"⟩, ⟨4, .checkKey "login:ann"⟩, ⟨5, .checkKey "login:ann"⟩, ⟨6, .cleanup⟩,
    ⟨7, .checkKey "login:ann"⟩, ⟨7 + 60 * second, .checkKey "login:ann"⟩]

theorem sixChecks_sorted : sixChecks.Pairwise (fun e e' ↦ e.time ≤ e'.time) := by decide

theorem rate_law_sixChecks :
    (∀ t, (keyLog defaultRate defaultWindow "login:ann" sixChecks).countP (Entry.inWindow defaultWindow t) ≤
      2 * defaultRate) ∧
    (∀ calls, calls <:+: keyLog defaultRate defaultWindow "login:ann" sixChecks →
      (∀ x ∈ calls.tail, x.opens = false) → calls.countP Entry.allowed ≤ defaultRate) ∧
    keyLog defaultRate defaultWindow "login:ann" sixChecks =
      keyLog defaultRate defaultWindow "login:ann" (sixChecks.filter (Event.isFor "login:ann")) ∧
    ∀ x y, [x, y] <:+: keyLog defaultRate defaultWindow "login:ann" sixChecks → x.allowed = false →
      x.time + x.retryAfterSec * second ≤ y.time → y.allowed = true :=
  rate_law defaultRate defaultWindow "login:ann" sixChecks (by decide) sixChecks_sorted

example : (keyLog defaultRate defaultWindow "login:ann" sixChecks).map
    (fun x ↦ (x.allowed, x.retryAfterSec)) =
      [(true, 0), (true, 0), (true, 0), (true, 0), (true, 0), (false, 60), (true, 0)] := by decide

end RateLimiter

end KubeCenter.Server
