import Mathlib.Data.List.Basic
import Mathlib.Data.List.Nodup

/-! Pages of a list that are found again by their last element: a page takes what is `before` the last
element of the page it follows. -/

namespace KubeCenter.Core.Keyset

variable {α : Type} (before : α → α → Bool) (l : List α) (n : ℕ)

/-- What is left behind a cursor. -/
def after : Option α → List α
  | none => l
  | some c => l.filter (fun x ↦ before x c)

/-- The pages of `n` that follow a cursor, until nothing is left. -/
inductive Pages : Option α → List (List α) → Prop
  | last {cursor : Option α} : (after before l cursor).length ≤ n → Pages cursor [after before l cursor]
  | next {cursor : Option α} {c : α} {pages : List (List α)} : n < (after before l cursor).length →
      ((after before l cursor).take n).getLast? = some c → Pages (some c) pages →
      Pages cursor ((after before l cursor).take n :: pages)

/-- The list can be parted at `m`: what comes up to there is not before the last of it, what comes later is. -/
def PartedAt (m : ℕ) : Prop :=
  ∀ c, (l.take m).getLast? = some c → (∀ x ∈ l.take m, before x c = false) ∧ ∀ x ∈ l.drop m, before x c = true

/-- The list can be parted wherever a page of `n` ends before it does. -/
def Parted : Prop := ∀ k, 0 < k → k * n < l.length → PartedAt before l (k * n)

variable {before l n}

theorem after_some (c : α) (m : ℕ) :
    after before l (some c) = (l.take m).filter (fun x ↦ before x c) ++ (l.drop m).filter (fun x ↦ before x c) := by
  rw [← List.filter_append, List.take_append_drop]
  rfl

theorem after_of_partedAt {m : ℕ} {c : α} (h : PartedAt before l m) (hc : (l.take m).getLast? = some c) :
    after before l (some c) = l.drop m := by
  obtain ⟨hearlier, hlater⟩ := h c hc
  have hnone : (l.take m).filter (fun x ↦ before x c) = [] :=
    List.filter_eq_nil_iff.mpr (fun x hx ↦ by simp [hearlier x hx])
  rw [after_some c m, hnone, List.filter_eq_self.mpr hlater, List.nil_append]

theorem getLast?_take_drop {m k : ℕ} (hk : 0 < k) (h : m < l.length) :
    ((l.drop m).take k).getLast? = (l.take (m + k)).getLast? := by
  rw [List.take_drop, List.getLast?_drop, if_neg]
  rw [List.length_take]
  omega

theorem exists_getLast?_take {m : ℕ} (hm : 0 < m) (h : m < l.length) : ∃ c, (l.take m).getLast? = some c := by
  apply Option.ne_none_iff_exists'.mp
  rw [Ne, List.getLast?_eq_none_iff, List.take_eq_nil_iff]
  rintro (rfl | rfl)
  · omega
  · simp at h

theorem pages_of_parted (hn : 0 < n) (h : Parted before l n) {k : ℕ} {cursor : Option α}
    (hcursor : after before l cursor = l.drop (k * n)) :
    ∃ pages, Pages before l n cursor pages ∧ pages.flatten = l.drop (k * n) := by
  induction hr : l.length - k * n using Nat.strongRecOn generalizing k cursor with
  | ind r ih =>
    by_cases hlast : (after before l cursor).length ≤ n
    · exact ⟨_, .last hlast, by simp [hcursor]⟩
    · have hnext : (k + 1) * n < l.length := by
        rw [hcursor, List.length_drop] at hlast
        rw [Nat.add_mul]
        omega
      obtain ⟨c, hc⟩ := exists_getLast?_take (Nat.mul_pos k.succ_pos hn) hnext
      have hafter := after_of_partedAt (h (k + 1) k.succ_pos hnext) hc
      obtain ⟨pages, hpages, hall⟩ := ih _ (by rw [Nat.add_mul] at hnext ⊢; omega) hafter rfl
      refine ⟨_, .next (Nat.lt_of_not_le hlast) ?_ hpages, ?_⟩
      · rw [hcursor, getLast?_take_drop hn (by rw [Nat.add_mul] at hnext; omega)]
        simpa [Nat.add_mul] using hc
      · rw [List.flatten_cons, hall, hcursor, Nat.add_mul, Nat.one_mul, ← List.drop_drop, List.take_append_drop]

/-- All that later pages hold lies before the cursor. -/
theorem mem_after_of_mem_pages (htrans : ∀ x y z, before x y = true → before y z = true → before x z = true)
    {cursor : Option α} {pages : List (List α)} (h : Pages before l n cursor pages) :
    ∀ x ∈ pages.flatten, x ∈ after before l cursor := by
  induction h with
  | last => simp
  | @next cursor c pages hlt hc hpages ih =>
    intro x hx
    rw [List.flatten_cons] at hx
    rcases List.mem_append.mp hx with hx | hx
    · exact List.mem_of_mem_take hx
    · obtain ⟨hxl, hxc⟩ := List.mem_filter.mp (ih x hx)
      have hcafter : c ∈ after before l cursor := List.mem_of_mem_take (List.mem_of_getLast? hc)
      cases cursor with
      | none => exact hxl
      | some d => exact List.mem_filter.mpr ⟨hxl, htrans x c d hxc (List.mem_filter.mp hcafter).2⟩

theorem head?_flatten_pages (hn : 0 < n) {cursor : Option α} {pages : List (List α)}
    (h : Pages before l n cursor pages) : pages.flatten.head? = (after before l cursor).head? := by
  cases h with
  | last => simp
  | next hlt hc hpages =>
    rw [List.flatten_cons, List.head?_append_of_ne_nil]
    · rw [List.head?_take, if_neg (by omega)]
    · intro hnil
      rw [List.take_eq_nil_iff] at hnil
      rcases hnil with hnil | hnil
      · omega
      · rw [hnil] at hlt
        exact Nat.not_lt_zero n hlt

/-- What the pages behind a cursor come to tells how it parts the list. -/
theorem partedAt_of_pages (hn : 0 < n)
    (htrans : ∀ x y z, before x y = true → before y z = true → before x z = true) (hnodup : l.Nodup) {m : ℕ} {c : α}
    {pages : List (List α)} (h : Pages before l n (some c) pages)
    (hc : (l.take m).getLast? = some c) (hall : pages.flatten = l.drop m) : PartedAt before l m := by
  intro d hd
  obtain rfl : c = d := Option.some.inj (hc.symm.trans hd)
  have hlater : ∀ x ∈ l.drop m, before x c = true := by
    intro x hx
    rw [← hall] at hx
    exact (List.mem_filter.mp (mem_after_of_mem_pages htrans h x hx)).2
  refine ⟨fun x hx ↦ ?_, hlater⟩
  by_contra hbefore
  have hhead := head?_flatten_pages hn h
  rw [hall, after_some c m, List.filter_eq_self.mpr hlater] at hhead
  cases hf : (l.take m).filter (fun x ↦ before x c) with
  | nil => exact List.filter_eq_nil_iff.mp hf x hx (by simpa using hbefore)
  | cons e es =>
    rw [hf, List.cons_append, List.head?_cons] at hhead
    have hetake : e ∈ l.take m := (List.mem_filter.mp (hf ▸ List.mem_cons_self)).1
    have hedrop : e ∈ l.drop m := List.mem_of_mem_head? hhead
    rw [← List.take_append_drop m l] at hnodup
    exact (List.nodup_append.mp hnodup).2.2 e hetake e hedrop rfl

theorem parted_of_pages (hn : 0 < n) (htrans : ∀ x y z, before x y = true → before y z = true → before x z = true)
    (hnodup : l.Nodup) {cursor : Option α} {pages : List (List α)} (h : Pages before l n cursor pages) {k : ℕ}
    (hcursor : after before l cursor = l.drop (k * n)) (hall : pages.flatten = l.drop (k * n)) :
    ∀ j, k < j → j * n < l.length → PartedAt before l (j * n) := by
  induction h generalizing k with
  | last hlast =>
    intro j hj hlt
    rw [hcursor, List.length_drop] at hlast
    have hle := Nat.mul_le_mul_right n (Nat.succ_le_of_lt hj)
    rw [Nat.succ_mul] at hle
    omega
  | @next cursor c pages hlt hc hpages ih =>
    have hnext : (k + 1) * n < l.length := by
      rw [hcursor, List.length_drop] at hlt
      rw [Nat.add_mul]
      omega
    have hrest : pages.flatten = l.drop ((k + 1) * n) := by
      have hsplit := List.take_append_drop n (l.drop (k * n))
      rw [List.flatten_cons, hcursor] at hall
      rw [Nat.add_mul, Nat.one_mul, ← List.drop_drop]
      exact List.append_cancel_left (hall.trans hsplit.symm)
    have hlastc : (l.take ((k + 1) * n)).getLast? = some c := by
      rw [hcursor, getLast?_take_drop hn (by rw [Nat.add_mul] at hnext; omega)] at hc
      simpa [Nat.add_mul] using hc
    have hparted := partedAt_of_pages hn htrans hnodup hpages hlastc hrest
    intro j hj hlt
    rcases Nat.lt_or_eq_of_le (Nat.succ_le_of_lt hj) with hj | rfl
    · exact ih (after_of_partedAt hparted hlastc) hrest j hj hlt
    · exact hparted

theorem lossless_iff (hn : 0 < n) (htrans : ∀ x y z, before x y = true → before y z = true → before x z = true)
    (hnodup : l.Nodup) : (∃ pages, Pages before l n none pages ∧ pages.flatten = l) ↔ Parted before l n := by
  constructor
  · intro ⟨pages, hpages, hall⟩ k hk hlt
    exact parted_of_pages hn htrans hnodup hpages (k := 0) (by simp [after]) (by simpa using hall) k hk hlt
  · intro h
    have hstart : after before l none = l.drop (0 * n) := by simp [after]
    obtain ⟨pages, hpages, hall⟩ := pages_of_parted hn h hstart
    exact ⟨pages, hpages, by simpa using hall⟩

/-- A list in the order of the comparison can be parted anywhere. -/
theorem parted_of_pairwise (hirrefl : ∀ x, before x x = false) (hasymm : ∀ x y, before x y = true → before y x = false)
    (h : l.Pairwise (fun x y ↦ before y x = true)) : Parted before l n := by
  intro k _ _ c hc
  rw [← List.take_append_drop (k * n) l, List.pairwise_append] at h
  obtain ⟨htake, -, hcross⟩ := h
  refine ⟨fun x hx ↦ ?_, fun x hx ↦ hcross c (List.mem_of_getLast? hc) x hx⟩
  obtain ⟨ys, hys⟩ := List.getLast?_eq_some_iff.mp hc
  rw [hys] at htake hx
  rcases List.mem_append.mp hx with hx | hx
  · exact hasymm c x ((List.pairwise_append.mp htake).2.2 x hx c (List.mem_singleton_self c))
  · rw [List.mem_singleton.mp hx]
    exact hirrefl c

end KubeCenter.Core.Keyset
