import Mathlib.Algebra.Order.BigOperators.Group.List
import Mathlib.Algebra.Order.Field.Rat
import Mathlib.Algebra.BigOperators.Ring.List
import Mathlib.Data.Rat.Floor
import Mathlib.Tactic.Linarith

namespace KubeCenter.Core

/-! Weighted means over the entries that are available, and rounding. -/

structure ScoreWeight where
  weight : ℚ
  available : Bool
  score : ℚ

namespace ScoreWeight

def totalWeight (ws : List ScoreWeight) : ℚ := ((ws.filter available).map weight).sum

/-- The mean, with the weights renormalised over the available entries. -/
def mean (ws : List ScoreWeight) : ℚ := ((ws.filter available).map fun w ↦ w.weight / totalWeight ws * w.score).sum

/-- The same entry with a score that is no higher. -/
structure Lowers (w v : ScoreWeight) : Prop where
  weight : v.weight = w.weight
  available : v.available = w.available
  score : w.available → v.score ≤ w.score

variable {ws vs : List ScoreWeight}

theorem totalWeight_nonneg (h : ∀ w ∈ ws, 0 ≤ w.weight) : 0 ≤ totalWeight ws := by
  refine List.sum_nonneg ?_
  simp only [List.mem_map, List.mem_filter]
  rintro _ ⟨w, ⟨hw, -⟩, rfl⟩
  exact h w hw

theorem totalWeight_pos (h : ∀ w ∈ ws, 0 ≤ w.weight) {w : ScoreWeight} (hw : w ∈ ws) (havailable : w.available)
    (hpos : 0 < w.weight) : 0 < totalWeight ws := by
  refine hpos.trans_le (List.single_le_sum ?_ _ (List.mem_map_of_mem (List.mem_filter.mpr ⟨hw, havailable⟩)))
  simp only [List.mem_map, List.mem_filter]
  rintro _ ⟨v, ⟨hv, -⟩, rfl⟩
  exact h v hv

theorem totalWeight_lowers (h : List.Forall₂ Lowers ws vs) : totalWeight vs = totalWeight ws := by
  unfold totalWeight
  induction h with
  | nil => rfl
  | cons hw _ ih =>
    rw [List.filter_cons, List.filter_cons, hw.available]
    split
    · rw [List.map_cons, List.map_cons, List.sum_cons, List.sum_cons, hw.weight, ih]
    · exact ih

/-- Lower scores have a lower mean. -/
theorem mean_lowers (hweight : ∀ w ∈ ws, 0 ≤ w.weight) (h : List.Forall₂ Lowers ws vs) : mean vs ≤ mean ws := by
  unfold mean
  rw [totalWeight_lowers h]
  have htotal := totalWeight_nonneg hweight
  generalize totalWeight ws = total at htotal
  induction h with
  | nil => exact le_refl _
  | cons hw _ ih =>
    obtain ⟨hhead, htail⟩ := List.forall_mem_cons.mp hweight
    rw [List.filter_cons, List.filter_cons, hw.available]
    split
    · next havailable =>
      rw [List.map_cons, List.map_cons, List.sum_cons, List.sum_cons, hw.weight]
      exact add_le_add (mul_le_mul_of_nonneg_left (hw.score havailable) (div_nonneg hhead htotal)) (ih htail)
    · exact ih htail

end ScoreWeight

/-- A flat deduction, with whether it is made. -/
def deduct (score : ℚ) (d : Bool × ℚ) : ℚ := if d.1 then score - d.2 else score

/-- More deductions leave less. -/
theorem foldl_deduct_le {ds es : List (Bool × ℚ)} (h : List.Forall₂ (fun d e ↦ e.2 = d.2 ∧ 0 ≤ d.2 ∧ (d.1 → e.1)) ds es)
    {x y : ℚ} (hxy : y ≤ x) : es.foldl deduct y ≤ ds.foldl deduct x := by
  induction h generalizing x y with
  | nil => exact hxy
  | @cons d e _ _ hde _ ih =>
    obtain ⟨heq, hnonneg, himp⟩ := hde
    refine ih ?_
    unfold deduct
    split_ifs with he hd hd
    · linarith
    · linarith
    · exact absurd (himp hd) he
    · exact hxy

/-- `math.Round`: to the nearest integer, half away from zero. -/
def mathRound (x : ℚ) : ℤ := if x < 0 then -⌊-x + 1 / 2⌋ else ⌊x + 1 / 2⌋

theorem mathRound_of_nonneg {x : ℚ} (h : 0 ≤ x) : mathRound x = ⌊x + 1 / 2⌋ := if_neg (not_lt.mpr h)

theorem mathRound_le {x y : ℚ} (hx : 0 ≤ x) (h : x ≤ y) : mathRound x ≤ mathRound y := by
  rw [mathRound_of_nonneg hx, mathRound_of_nonneg (hx.trans h)]
  exact Int.floor_le_floor (by linarith)

theorem mathRound_natCast (n : ℕ) : mathRound n = n := by
  rw [mathRound_of_nonneg (Nat.cast_nonneg n), Int.floor_eq_iff]
  constructor <;> push_cast <;> linarith

end KubeCenter.Core
