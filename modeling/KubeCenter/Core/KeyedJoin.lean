import Mathlib.Algebra.BigOperators.Group.List.Basic
import Mathlib.Algebra.GroupWithZero.Nat
import Mathlib.Data.List.Nodup
import Mathlib.Data.List.Count

namespace KubeCenter.Core

/-! Rows joined to the rows they belong to by a key that is less than an identity. -/

section

variable {α β ι κ : Type} [DecidableEq ι] [DecidableEq κ] (ident : α → ι) (key : α → κ) (owner : β → ι) (ref : β → κ)

/-- The rows a join by the key gives `x`. -/
def joined (ys : List β) (x : α) : ℕ := ys.countP (fun y ↦ ref y = key x)

/-- The rows that belong to `x`. -/
def owned (ys : List β) (x : α) : ℕ := ys.countP (fun y ↦ owner y = ident x)

variable {ident key owner ref} {xs : List α} {ys : List β} {x : α}

theorem countP_eq_iff {p q : β → Bool} (h : ∀ y ∈ ys, p y → q y) :
    ys.countP q = ys.countP p ↔ ∀ y ∈ ys, q y → p y := by
  induction ys with
  | nil => simp
  | cons y ys ih =>
    have hle : ys.countP p ≤ ys.countP q := List.countP_mono_left fun z hz ↦ h z (List.mem_cons_of_mem _ hz)
    rw [List.forall_mem_cons, ← ih fun z hz ↦ h z (List.mem_cons_of_mem _ hz), List.countP_cons, List.countP_cons]
    have hy := h y List.mem_cons_self
    cases hp : p y <;> cases hq : q y
    · simp
    · simp only [if_true, Bool.false_eq_true, if_false]
      constructor
      · omega
      · simp
    · exact absurd (hy hp) (by rw [hq]; exact Bool.false_ne_true)
    · simp

/-- A join by key is the join by owner only where no row of another owner has the key. -/
theorem joined_eq_owned_iff (h : ∀ y ∈ ys, owner y = ident x → ref y = key x) :
    joined key ref ys x = owned ident owner ys x ↔ ∀ y ∈ ys, ref y = key x → owner y = ident x := by
  have hle : ∀ y ∈ ys, decide (owner y = ident x) → decide (ref y = key x) := fun y hy ho ↦
    decide_eq_true (h y hy (of_decide_eq_true ho))
  refine (countP_eq_iff hle).trans (forall₂_congr fun y _ ↦ ?_)
  rw [decide_eq_true_iff, decide_eq_true_iff]

theorem countP_or_of_disjoint {p q : β → Bool} (h : ∀ y ∈ ys, p y → q y → False) :
    ys.countP (fun y ↦ p y || q y) = ys.countP p + ys.countP q := by
  induction ys with
  | nil => rfl
  | cons y ys ih =>
    have hy := h y List.mem_cons_self
    simp only [List.countP_cons, ih fun z hz ↦ h z (List.mem_cons_of_mem _ hz)]
    cases hp : p y <;> cases hq : q y
    · rfl
    · simp only [Bool.or_true, if_true, Bool.false_eq_true, if_false]
      omega
    · simp only [Bool.or_false, if_true, Bool.false_eq_true, if_false]
      omega
    · exact (hy hp hq).elim

theorem sum_owned_eq (hxs : (xs.map ident).Nodup) :
    (xs.map (owned ident owner ys)).sum = ys.countP (fun y ↦ owner y ∈ xs.map ident) := by
  induction xs with
  | nil => simp
  | cons x xs ih =>
    obtain ⟨hx, hnodup⟩ := List.nodup_cons.1 hxs
    have hdisjoint : ∀ y ∈ ys, decide (owner y = ident x) → decide (owner y ∈ xs.map ident) → False := by
      intro y _ hown hmem
      exact hx (of_decide_eq_true hown ▸ of_decide_eq_true hmem)
    rw [List.map_cons, List.sum_cons, ih hnodup, owned, ← countP_or_of_disjoint hdisjoint]
    refine List.countP_congr fun y _ ↦ ?_
    rw [Bool.or_eq_true, decide_eq_true_iff, decide_eq_true_iff, decide_eq_true_iff, List.map_cons, List.mem_cons]

/-- Rows with distinct identities own no row twice. -/
theorem sum_owned_le (hxs : (xs.map ident).Nodup) : (xs.map (owned ident owner ys)).sum ≤ ys.length := by
  rw [sum_owned_eq hxs]
  exact List.countP_le_length

/-- Rows of another owner may be taken away. -/
theorem owned_filter_ne {i : ι} (hi : ident x ≠ i) :
    owned ident owner (ys.filter (fun y ↦ owner y ≠ i)) x = owned ident owner ys x := by
  unfold owned
  rw [List.countP_filter]
  refine List.countP_congr fun y _ ↦ ?_
  rw [Bool.and_eq_true, decide_eq_true_iff, decide_eq_true_iff]
  exact ⟨And.left, fun h ↦ ⟨h, h ▸ hi⟩⟩

end

end KubeCenter.Core
