import Mathlib.Algebra.Order.Group.Int
import Mathlib.Data.List.Infix

/-! A fixed-window counter, apart from who calls it and for what key. -/

namespace KubeCenter.Core.FixedWindow

structure Counter where
  used : ℕ
  openedAt : ℤ

structure Call where
  time : ℤ
  opens : Bool
  allowed : Bool
  closesAt : ℤ
  deriving DecidableEq

variable (rate : ℕ) (window : ℤ)

def arrive (now : ℤ) : Option Counter → Call × Counter
  | none => (⟨now, true, true, now + window⟩, ⟨1, now⟩)
  | some c =>
    if window ≤ now - c.openedAt then (⟨now, true, true, now + window⟩, ⟨1, now⟩)
    else (⟨now, false, decide (c.used + 1 ≤ rate), c.openedAt + window⟩, ⟨c.used + 1, c.openedAt⟩)

def serve : Option Counter → List ℤ → List Call
  | _, [] => []
  | s, now :: times => (arrive rate window now s).1 :: serve (some (arrive rate window now s).2) times

def inWindow (window t : ℤ) (c : Call) : Bool := c.allowed && decide (t ≤ c.time ∧ c.time < t + window)

variable {rate window} {c : Counter} {now t : ℤ} {times : List ℤ} {s : Option Counter}

theorem arrive_fresh (h : ∀ c, s = some c → window ≤ now - c.openedAt) :
    arrive rate window now s = (⟨now, true, true, now + window⟩, ⟨1, now⟩) := by
  cases s with
  | none => rfl
  | some c => exact if_pos (h c rfl)

theorem arrive_live (h : now - c.openedAt < window) : arrive rate window now (some c) =
    (⟨now, false, decide (c.used + 1 ≤ rate), c.openedAt + window⟩, ⟨c.used + 1, c.openedAt⟩) :=
  if_neg (not_le.mpr h)

theorem serve_fresh (h : ∀ c, s = some c → window ≤ now - c.openedAt) :
    serve rate window s (now :: times) = ⟨now, true, true, now + window⟩ :: serve rate window (some ⟨1, now⟩) times := by
  rw [serve, arrive_fresh h]

theorem serve_live (h : now - c.openedAt < window) : serve rate window (some c) (now :: times) =
    ⟨now, false, decide (c.used + 1 ≤ rate), c.openedAt + window⟩ :: serve rate window (some ⟨c.used + 1, c.openedAt⟩) times := by
  rw [serve, arrive_live h]

theorem arrive_time (s : Option Counter) : (arrive rate window now s).1.time = now := by
  unfold arrive
  split
  · rfl
  · split <;> rfl

theorem time_mem (s : Option Counter) : ∀ x ∈ serve rate window s times, x.time ∈ times := by
  induction times generalizing s with
  | nil => intro x hx; cases hx
  | cons now times ih =>
    intro x hx
    rcases List.mem_cons.mp hx with rfl | hx
    · rw [arrive_time]
      exact List.mem_cons_self
    · exact List.mem_cons_of_mem _ (ih _ x hx)

/-- What an open bucket still grants before it expires. -/
theorem count_bucket {p : Call → Bool} (hp : ∀ x, p x = true → x.allowed = true ∧ x.time < c.openedAt + window)
    (hs : times.Pairwise (· ≤ ·)) :
    (serve rate window (some c) times).countP p ≤ rate - c.used := by
  induction times generalizing c with
  | nil => exact Nat.zero_le _
  | cons now times ih =>
    obtain ⟨hle, hs⟩ := List.pairwise_cons.mp hs
    by_cases hnow : window ≤ now - c.openedAt
    · -- the bucket is over: no call from here on is in it
      have hnone : ∀ x ∈ serve rate window (some c) (now :: times), ¬ p x = true := by
        intro x hx hpx
        have htime : now ≤ x.time := by
          rcases List.mem_cons.mp (time_mem _ x hx) with h | h
          · exact h.ge
          · exact hle _ h
        have := (hp x hpx).2
        omega
      rw [List.countP_eq_zero.mpr hnone]
      exact Nat.zero_le _
    · rw [serve_live (not_le.mp hnow), List.countP_cons]
      have htail := ih (c := ⟨c.used + 1, c.openedAt⟩) hp hs
      simp only at htail
      split
      · next hpx =>
        have hused : c.used + 1 ≤ rate := of_decide_eq_true (hp _ hpx).1
        omega
      · omega

/-- Once the interval has begun, it meets the open bucket and at most one more. -/
theorem count_interval_le (hrate : 1 ≤ rate) (hs : times.Pairwise (· ≤ ·)) (ht : ∀ x ∈ times, t ≤ x) :
    (serve rate window s times).countP (inWindow window t) ≤ rate - (s.elim rate Counter.used) + rate := by
  induction times generalizing s with
  | nil => exact Nat.zero_le _
  | cons now times ih =>
    obtain ⟨-, hs'⟩ := List.pairwise_cons.mp hs
    have hnow : t ≤ now := ht now List.mem_cons_self
    by_cases hlive : ∀ c, s = some c → window ≤ now - c.openedAt
    · rw [serve_fresh hlive, List.countP_cons]
      have hrest : (serve rate window (some ⟨1, now⟩) times).countP (inWindow window t) ≤ rate - 1 := by
        refine count_bucket (fun x hx ↦ ?_) hs'
        simp only [inWindow, Bool.and_eq_true, decide_eq_true_eq] at hx
        exact ⟨hx.1, by simp only; omega⟩
      split <;> omega
    · push Not at hlive
      obtain ⟨c, rfl, hc⟩ := hlive
      rw [serve_live hc, List.countP_cons]
      have hrest := ih (s := some ⟨c.used + 1, c.openedAt⟩) hs' (fun x hx ↦ ht x (List.mem_cons_of_mem _ hx))
      simp only [Option.elim_some] at hrest ⊢
      split
      · next hx =>
        simp only [inWindow, Bool.and_eq_true, decide_eq_true_eq] at hx
        omega
      · omega

/-- An interval of one window meets at most two buckets. -/
theorem count_interval (hrate : 1 ≤ rate) (hs : times.Pairwise (· ≤ ·)) :
    (serve rate window s times).countP (inWindow window t) ≤ 2 * rate := by
  induction times generalizing s with
  | nil => exact Nat.zero_le _
  | cons now times ih =>
    by_cases hnow : t ≤ now
    · have hle : (serve rate window s (now :: times)).countP (inWindow window t) ≤
          rate - (s.elim rate Counter.used) + rate := by
        apply count_interval_le hrate hs
        intro x hx
        rcases List.mem_cons.mp hx with rfl | hx
        · exact hnow
        · exact hnow.trans ((List.pairwise_cons.mp hs).1 x hx)
      omega
    · rw [serve, List.countP_cons_of_neg]
      · exact ih (List.pairwise_cons.mp hs).2
      · simp only [inWindow, arrive_time, Bool.and_eq_true, decide_eq_true_eq]
        omega

/-- Calls of which none opens a bucket share the one that is open. -/
theorem count_unopened {seg : List Call} (hseg : seg <+: serve rate window s times)
    (hopen : ∀ x ∈ seg, x.opens = false) : seg.countP Call.allowed ≤ rate - s.elim 0 Counter.used := by
  induction times generalizing s seg with
  | nil => simp [List.prefix_nil.mp hseg]
  | cons now times ih =>
    cases seg with
    | nil => exact Nat.zero_le _
    | cons x seg =>
      obtain ⟨hx, hseg⟩ := List.cons_prefix_cons.mp hseg
      have hxo := hopen x List.mem_cons_self
      by_cases hlive : ∀ c, s = some c → window ≤ now - c.openedAt
      · rw [hx, arrive_fresh hlive] at hxo
        cases hxo
      · push Not at hlive
        obtain ⟨c, rfl, hc⟩ := hlive
        rw [arrive_live hc] at hx hseg
        have hrest := ih hseg (fun y hy ↦ hopen y (List.mem_cons_of_mem _ hy))
        simp only [Option.elim_some] at hrest ⊢
        rw [List.countP_cons]
        split
        · next hallowed =>
          rw [hx] at hallowed
          have := of_decide_eq_true hallowed
          omega
        · omega

/-- Within one bucket, the call that opens it included, at most `rate` calls are allowed. -/
theorem count_segment (hrate : 1 ≤ rate) {seg : List Call} (hseg : seg <:+: serve rate window s times)
    (hopen : ∀ x ∈ seg.tail, x.opens = false) : seg.countP Call.allowed ≤ rate := by
  induction times generalizing s with
  | nil => simp [List.infix_nil.mp hseg]
  | cons now times ih =>
    rcases List.infix_cons_iff.mp hseg with hpre | hin
    · cases seg with
      | nil => exact Nat.zero_le _
      | cons x seg =>
        obtain ⟨hx, hseg⟩ := List.cons_prefix_cons.mp hpre
        have hrest := count_unopened hseg hopen
        have hused : 1 ≤ (arrive rate window now s).2.used := by
          unfold arrive
          split
          · exact le_rfl
          · split
            · exact le_rfl
            · exact Nat.le_add_left _ _
        simp only [Option.elim_some] at hrest
        rw [List.countP_cons]
        split <;> omega
    · exact ih hin

/-- A refused call leaves the bucket open, so the next one is allowed once the bucket is over. -/
theorem allowed_after {x y : Call} (h : [x, y] <:+: serve rate window s times) (hx : x.allowed = false)
    (htime : x.closesAt ≤ y.time) : y.allowed = true := by
  induction times generalizing s with
  | nil => cases List.infix_nil.mp h
  | cons now times ih =>
    rcases List.infix_cons_iff.mp h with hpre | hin
    · obtain ⟨hxe, hrest⟩ := List.cons_prefix_cons.mp hpre
      cases times with
      | nil => cases List.prefix_nil.mp hrest
      | cons next times =>
        obtain ⟨hye, -⟩ := List.cons_prefix_cons.mp hrest
        by_cases hlive : ∀ c, s = some c → window ≤ now - c.openedAt
        · rw [hxe, arrive_fresh hlive] at hx
          cases hx
        · push Not at hlive
          obtain ⟨c, rfl, hc⟩ := hlive
          rw [hye, arrive_time, hxe, arrive_live hc] at htime
          rw [hye, arrive_live hc, arrive_fresh]
          rintro _ ⟨⟩
          simp only at htime ⊢
          omega
    · exact ih hin

end KubeCenter.Core.FixedWindow
