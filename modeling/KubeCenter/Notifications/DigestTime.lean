import Mathlib.Data.Int.Notation
import Mathlib.Order.Bounds.Basic

/-! When the digest loop wakes up. -/

namespace KubeCenter.Notifications.DigestTime

/-- A `time.Time`: the nanoseconds since the epoch, and those its zone is ahead of UTC. -/
structure Time where
  instant : ℤ
  offset : ℤ

def hour : ℤ := 3600 * 1000000000

def day : ℤ := 24 * hour

/-- What `Year`, `Month` and `Day` name in the time's own zone, as the number of the day since the epoch. -/
def Time.date (t : Time) : ℤ := (t.instant + t.offset) / day

/-- `time.Date` in UTC, at a full hour of a day. -/
def dateUTC (date hours : ℤ) : Time := ⟨date * day + hours * hour, 0⟩

def Time.add (t : Time) (d : ℤ) : Time := { t with instant := t.instant + d }

def Time.after (t u : Time) : Bool := decide (u.instant < t.instant)

def nextDigestTime (now : Time) : Time :=
  let t := dateUTC now.date 8
  if t.after now then t else t.add (24 * hour)

/-- The loop of `runDigest`, of which each turn waits for the next digest time, not at all when that has passed, and
takes a while to send: the instants at which the digests are sent. -/
def runDigest : Time → List ℕ → List ℤ
  | _, [] => []
  | now, took :: rest =>
    let wake := max now.instant (nextDigestTime now).instant
    wake :: runDigest { now with instant := wake + took } rest

/-- It is 08:00:00 UTC. -/
def IsDigestTime (instant : ℤ) : Prop := instant % day = 8 * hour

/-- The zone shows the date it is in UTC, or the next one when it is past eight in UTC, or the last one when it is not. -/
def ShowsDate (now : Time) : Prop :=
  now.date = now.instant / day ∨ (now.date = now.instant / day + 1 ∧ 8 * hour ≤ now.instant % day) ∨
    (now.date = now.instant / day - 1 ∧ now.instant % day < 8 * hour)

/-- The first digest time after an instant. -/
def IsNextDigest (now next : ℤ) : Prop := IsLeast {instant | now < instant ∧ IsDigestTime instant} next

variable {now : Time}

theorem isDigestTime_dateUTC (date : ℤ) : IsDigestTime (date * day + 8 * hour) := by
  unfold IsDigestTime day hour
  omega

/-- Two digest times are a whole number of days apart. -/
theorem IsDigestTime.eq_of_near {a b : ℤ} (ha : IsDigestTime a) (hb : IsDigestTime b) (h : a < b + day) (h' : b < a + day) :
    a = b := by
  unfold IsDigestTime day hour at *
  omega

/-- The next digest time comes within a day, and only it does. -/
theorem isNextDigest_iff {n next : ℤ} : IsNextDigest n next ↔ IsDigestTime next ∧ n < next ∧ next ≤ n + day := by
  constructor
  · rintro ⟨⟨hafter, hdigest⟩, hleast⟩
    refine ⟨hdigest, hafter, ?_⟩
    by_contra hlate
    have hbefore : next ≤ next - day := by
      apply hleast
      refine ⟨by omega, ?_⟩
      unfold IsDigestTime day hour at *
      omega
    unfold day hour at hbefore
    omega
  · rintro ⟨hdigest, hafter, hnear⟩
    refine ⟨⟨hafter, hdigest⟩, fun other hother ↦ ?_⟩
    obtain ⟨hafter', hdigest'⟩ := hother
    by_contra hless
    have heq : other = next := hdigest'.eq_of_near hdigest (by omega) (by omega)
    omega

theorem nextDigestTime_instant (now : Time) : (nextDigestTime now).instant =
    if now.instant < now.date * day + 8 * hour then now.date * day + 8 * hour
    else now.date * day + 8 * hour + day := by
  unfold nextDigestTime Time.after
  simp only [decide_eq_true_eq]
  split
  · next h => exact (if_pos h).symm
  · next h => exact (if_neg h).symm

theorem nextDigestTime_digest (now : Time) : IsDigestTime (nextDigestTime now).instant := by
  rw [nextDigestTime_instant]
  split
  · exact isDigestTime_dateUTC _
  · have hnext := isDigestTime_dateUTC (now.date + 1)
    unfold IsDigestTime day hour at *
    omega

theorem nextDigestTime_isNext (h : ShowsDate now) : IsNextDigest now.instant (nextDigestTime now).instant := by
  rw [isNextDigest_iff]
  refine ⟨nextDigestTime_digest now, ?_⟩
  rw [nextDigestTime_instant]
  unfold ShowsDate at h
  generalize now.date = date at *
  unfold day hour at *
  split <;> omega

/-- The time that is computed is the next digest time just when the zone shows a date that agrees with UTC's on it. -/
theorem nextDigestTime_isNext_iff (now : Time) :
    IsNextDigest now.instant (nextDigestTime now).instant ↔ ShowsDate now := by
  refine ⟨fun h ↦ ?_, nextDigestTime_isNext⟩
  obtain ⟨-, hafter, hnear⟩ := isNextDigest_iff.mp h
  rw [nextDigestTime_instant] at hafter hnear
  unfold ShowsDate
  generalize now.date = date at *
  unfold day hour at *
  split at hafter <;> omega

/-- Ten hours behind UTC, at half past nine in UTC: yesterday's date is shown, and the digest time computed is past. -/
theorem not_nextDigestTime_isNext :
    ¬ IsNextDigest (20249 * day + 9 * hour + hour / 2)
      (nextDigestTime ⟨20249 * day + 9 * hour + hour / 2, -10 * hour⟩).instant := by
  intro h
  have hpast : (nextDigestTime ⟨20249 * day + 9 * hour + hour / 2, -10 * hour⟩).instant = 20249 * day + 8 * hour := by
    decide
  have hafter := h.1.1
  rw [hpast] at hafter
  revert hafter
  decide

/-! The loop in one zone. -/

theorem showsDate_of_offset (h : -8 * hour ≤ now.offset) (h' : now.offset ≤ 16 * hour) : ShowsDate now := by
  unfold ShowsDate Time.date day hour at *
  omega

/-- Only in these zones is every time computed the next digest time. -/
theorem showsDate_always_iff (offset : ℤ) :
    (∀ instant, ShowsDate ⟨instant, offset⟩) ↔ -8 * hour ≤ offset ∧ offset ≤ 16 * hour := by
  constructor
  · intro h
    have height := h (8 * hour)
    have hbefore := h (8 * hour - 1)
    unfold ShowsDate Time.date day hour at *
    dsimp only at height hbefore
    omega
  · intro h instant
    exact showsDate_of_offset h.1 h.2

/-- There the loop wakes up at digest times alone, at each at most once. -/
theorem runDigest_daily (h : -8 * hour ≤ now.offset) (h' : now.offset ≤ 16 * hour) (took : List ℕ) :
    (∀ wake ∈ runDigest now took, IsDigestTime wake ∧ now.instant < wake) ∧ (runDigest now took).Pairwise (· < ·) := by
  induction took generalizing now with
  | nil => exact ⟨fun wake hwake ↦ (List.not_mem_nil hwake).elim, .nil⟩
  | cons d took ih =>
    have hnext := (isNextDigest_iff.mp (nextDigestTime_isNext (showsDate_of_offset h h'))).2.1
    have hwake : max now.instant (nextDigestTime now).instant = (nextDigestTime now).instant := max_eq_right hnext.le
    obtain ⟨hrest, hsorted⟩ := @ih { now with instant := (nextDigestTime now).instant + d } h h'
    have hlater : ∀ wake ∈ runDigest { now with instant := (nextDigestTime now).instant + d } took,
        (nextDigestTime now).instant < wake := by
      intro wake hmem
      have hafter := (hrest wake hmem).2
      dsimp only at hafter
      omega
    simp only [runDigest, hwake]
    constructor
    · intro wake hmem
      rcases List.mem_cons.mp hmem with rfl | hmem
      · exact ⟨nextDigestTime_digest now, hnext⟩
      · exact ⟨(hrest wake hmem).1, hnext.trans (hlater wake hmem)⟩
    · exact .cons hlater hsorted

end KubeCenter.Notifications.DigestTime
