import Mathlib.Logic.Function.Basic
import Mathlib.Order.Lattice
import Mathlib.Order.Monotone.Basic
import Mathlib.Data.Nat.Notation

/-! Raising an assignment in place, one key after the other, to what a monotone rule asks of it; against rounds that raise
all keys at once, and against the assignments that ask for no more. -/

namespace KubeCenter.Core.Chaotic

open Function

variable {K L : Type} [SemilatticeSup L]

section Rounds

variable (rule : (K → L) → K → L)

/-- All keys raised at once. -/
def round (x : K → L) : K → L := fun k ↦ x k ⊔ rule x k

def rounds : ℕ → (K → L) → K → L
  | 0, x => x
  | n + 1, x => round rule (rounds n x)

/-- The rule asks for no more than is there. -/
def Stable (x : K → L) : Prop := ∀ k, rule x k ≤ x k

variable {rule} {x : K → L}

theorem le_rounds (n : ℕ) (x : K → L) : x ≤ rounds rule n x := by
  induction n with
  | zero => exact le_rfl
  | succ n ih => exact fun k ↦ (ih k).trans le_sup_left

theorem round_mono (hmono : Monotone rule) : Monotone (round rule) :=
  fun _ _ hxy k ↦ sup_le_sup (hxy k) (hmono hxy k)

theorem rounds_mono (hmono : Monotone rule) (n : ℕ) : Monotone (rounds rule n) := by
  induction n with
  | zero => exact fun _ _ h ↦ h
  | succ n ih => exact fun _ _ h ↦ round_mono hmono (ih h)

theorem rounds_round (n : ℕ) (x : K → L) : rounds rule n (round rule x) = round rule (rounds rule n x) := by
  induction n with
  | zero => rfl
  | succ n ih => rw [rounds, ih, rounds]

/-- Where a rule looks at the keys below a key alone, the rounds settle from below: after `n` of them nothing changes
up to height `n`. -/
theorem stable_rounds_of_height (children : K → List K) (height : K → ℕ) {n : ℕ}
    (hlocal : ∀ x y k, (∀ c ∈ children k, x c = y c) → rule x k = rule y k)
    (hleaf : ∀ x k, children k = [] → rule x k ≤ x k) (hheight : ∀ k, ∀ c ∈ children k, height c < height k)
    (hn : ∀ k, height k ≤ n) : Stable rule (rounds rule n x) := by
  have hsettled : ∀ n k, height k ≤ n → rule (rounds rule n x) k ≤ rounds rule n x k := by
    intro n
    induction n with
    | zero =>
      intro k hk
      refine hleaf _ k (List.eq_nil_iff_forall_not_mem.mpr (fun c hc ↦ ?_))
      have h := hheight k c hc
      omega
    | succ n ih =>
      intro k hk
      have hsame : rule (rounds rule (n + 1) x) k = rule (rounds rule n x) k := by
        refine hlocal _ _ k (fun c hc ↦ sup_eq_left.mpr (ih c ?_))
        have h := hheight k c hc
        omega
      rw [hsame]
      exact le_sup_right
  exact fun k ↦ hsettled n k (hn k)

end Rounds

variable [DecidableEq K]

section Defs

variable (rule : (K → L) → K → L)

/-- One key raised in place. -/
def raise (x : K → L) (k : K) : K → L := update x k (x k ⊔ rule x k)

/-- The keys of a list raised in their order. -/
def pass (x : K → L) (ks : List K) : K → L := ks.foldl (raise rule) x

def passes (x : K → L) (orders : List (List K)) : K → L := orders.foldl (pass rule) x

end Defs

variable {rule : (K → L) → K → L} {x y : K → L} {ks : List K} {orders : List (List K)} {k : K}

theorem le_raise (x : K → L) (k : K) : x ≤ raise rule x k := by
  intro l
  by_cases hl : l = k
  · subst hl
    simp [raise]
  · simp [raise, hl]

theorem raise_le (hmono : Monotone rule) (hy : Stable rule y) (hxy : x ≤ y) (k : K) : raise rule x k ≤ y := by
  intro l
  by_cases hl : l = k
  · subst hl
    rw [raise, update_self]
    exact sup_le (hxy l) ((hmono hxy l).trans (hy l))
  · rw [raise, update_of_ne hl]
    exact hxy l

theorem le_pass (x : K → L) (ks : List K) : x ≤ pass rule x ks := by
  induction ks generalizing x with
  | nil => exact le_rfl
  | cons k ks ih => exact (le_raise x k).trans (ih _)

theorem pass_le (hmono : Monotone rule) (hy : Stable rule y) (hxy : x ≤ y) (ks : List K) : pass rule x ks ≤ y := by
  induction ks generalizing x with
  | nil => exact hxy
  | cons k ks ih => exact ih (raise_le hmono hy hxy k)

theorem passes_le (hmono : Monotone rule) (hy : Stable rule y) (hxy : x ≤ y) (orders : List (List K)) :
    passes rule x orders ≤ y := by
  induction orders generalizing x with
  | nil => exact hxy
  | cons ks orders ih => exact ih (pass_le hmono hy hxy ks)

theorem le_passes (x : K → L) (orders : List (List K)) : x ≤ passes rule x orders := by
  induction orders generalizing x with
  | nil => exact le_rfl
  | cons ks orders ih => exact (le_pass x ks).trans (ih _)

/-- A key that is visited ends at least as high as a round from the start would lift it. -/
theorem round_le_pass_of_mem (hmono : Monotone rule) (hk : k ∈ ks) : round rule x k ≤ pass rule x ks k := by
  induction ks generalizing x with
  | nil => cases hk
  | cons l ks ih =>
    rcases List.mem_cons.mp hk with rfl | hk
    · have hraised : raise rule x k k = round rule x k := by rw [raise, update_self, round]
      exact hraised.ge.trans (le_pass (raise rule x k) ks k)
    · exact (sup_le_sup (le_raise x l k) (hmono (le_raise x l) k)).trans (ih hk)

/-- A rule that asks nothing of keys that a pass does not visit. -/
def Covers (rule : (K → L) → K → L) (ks : List K) : Prop := ∀ x k, k ∉ ks → rule x k ≤ x k

theorem round_le_pass (hmono : Monotone rule) (hks : Covers rule ks) (x : K → L) : round rule x ≤ pass rule x ks := by
  intro k
  by_cases hk : k ∈ ks
  · exact round_le_pass_of_mem hmono hk
  · have hidle : round rule x k = x k := sup_eq_left.mpr (hks x k hk)
    exact hidle.le.trans (le_pass x ks k)

/-- As many passes, in whatever orders, come at least as far as the rounds. -/
theorem rounds_le_passes (hmono : Monotone rule) (horders : ∀ ks ∈ orders, Covers rule ks) (x : K → L) :
    rounds rule orders.length x ≤ passes rule x orders := by
  induction orders generalizing x with
  | nil => exact le_rfl
  | cons ks orders ih =>
    have hround := round_le_pass hmono (horders ks List.mem_cons_self) x
    calc rounds rule (orders.length + 1) x = rounds rule orders.length (round rule x) := (rounds_round _ x).symm
      _ ≤ rounds rule orders.length (pass rule x ks) := rounds_mono hmono _ hround
      _ ≤ passes rule (pass rule x ks) orders := ih (fun l hl ↦ horders l (List.mem_cons_of_mem ks hl)) _

theorem Stable.raise_eq (h : Stable rule x) (k : K) : raise rule x k = x := by
  rw [raise, sup_eq_left.mpr (h k), update_eq_self]

theorem Stable.pass_eq (h : Stable rule x) (ks : List K) : pass rule x ks = x := by
  induction ks with
  | nil => rfl
  | cons k ks ih => rw [pass, List.foldl_cons, h.raise_eq]; exact ih

theorem Stable.passes_eq (h : Stable rule x) (orders : List (List K)) : passes rule x orders = x := by
  induction orders with
  | nil => rfl
  | cons ks orders ih => rw [passes, List.foldl_cons, h.pass_eq]; exact ih

/-- A pass that changes nothing shows that there is nothing left to do. -/
theorem stable_of_pass_eq (hmono : Monotone rule) (hks : Covers rule ks) (h : pass rule x ks = x) : Stable rule x :=
  fun k ↦ le_sup_right.trans ((round_le_pass hmono hks x k).trans (congrFun h k).le)

/-- Passes that end stable end at the least stable assignment above the start. -/
theorem eq_of_stable (hmono : Monotone rule) {orders orders' : List (List K)}
    (h : Stable rule (passes rule x orders)) (h' : Stable rule (passes rule x orders')) :
    passes rule x orders = passes rule x orders' :=
  le_antisymm (passes_le hmono h' (le_passes x orders') orders) (passes_le hmono h (le_passes x orders) orders')

/-- Where the rounds come to rest in time, so do the passes. -/
theorem passes_eq_rounds (hmono : Monotone rule) (horders : ∀ ks ∈ orders, Covers rule ks)
    (h : Stable rule (rounds rule orders.length x)) : passes rule x orders = rounds rule orders.length x :=
  le_antisymm (passes_le hmono h (le_rounds _ x) orders) (rounds_le_passes hmono horders x)

/-- What a pass leaves is what was there, with what the rule asks for in the end. -/
theorem raise_le_sup (hmono : Monotone rule) (h : ∀ k, y k ≤ x k ⊔ rule y k) (l : K) :
    ∀ k, raise rule y l k ≤ x k ⊔ rule (raise rule y l) k := by
  intro k
  have hrule : rule y k ≤ rule (raise rule y l) k := hmono (le_raise y l) k
  have hold : y k ≤ x k ⊔ rule (raise rule y l) k := (h k).trans (sup_le_sup_left hrule _)
  by_cases hk : k = l
  · subst hk
    rw [show raise rule y k k = y k ⊔ rule y k by rw [raise, update_self]]
    exact sup_le hold (hrule.trans le_sup_right)
  · rw [show raise rule y l k = y k by rw [raise, update_of_ne hk]]
    exact hold

theorem pass_le_sup (hmono : Monotone rule) (h : ∀ k, y k ≤ x k ⊔ rule y k) (ks : List K) :
    ∀ k, pass rule y ks k ≤ x k ⊔ rule (pass rule y ks) k := by
  induction ks generalizing y with
  | nil => exact h
  | cons l ks ih => exact ih (raise_le_sup hmono h l)

theorem passes_le_sup (hmono : Monotone rule) (orders : List (List K)) :
    ∀ k, passes rule x orders k ≤ x k ⊔ rule (passes rule x orders) k := by
  have hfrom : ∀ (orders : List (List K)) (y : K → L), (∀ k, y k ≤ x k ⊔ rule y k) →
      ∀ k, passes rule y orders k ≤ x k ⊔ rule (passes rule y orders) k := by
    intro orders
    induction orders with
    | nil => exact fun _ h ↦ h
    | cons ks orders ih => exact fun y h ↦ ih _ (pass_le_sup hmono h ks)
  exact hfrom orders x (fun _ ↦ le_sup_left)

end KubeCenter.Core.Chaotic
