import Mathlib.Logic.Function.Basic
import KubeCenter.Core.GoMap

namespace KubeCenter.Core

open Function

variable {K V : Type}

/-- A singleflight group: `calls` has the flight each key is in, under the number of the call
that leads it, and `body` the key of every flight with what its function has come to. -/
structure Flights (K V : Type) where
  calls : GoMap K ℕ := ∅
  body : ℕ → Option (K × V) := fun _ ↦ none

namespace Flights

variable (f : Flights K V)

def advance (i : ℕ) (v : V) : Flights K V :=
  { f with body := update f.body i ((f.body i).map (fun b ↦ (b.1, v))) }

theorem body_advance_self {k : K} {i : ℕ} {u v : V} (h : f.body i = some (k, u)) :
    (f.advance i v).body i = some (k, v) := by
  simp [advance, h]

theorem body_advance_none {i j : ℕ} {v : V} (h : f.body j = none) : (f.advance i v).body j = none := by
  unfold advance
  by_cases hj : j = i
  · subst hj
    simp [h]
  · simp [hj, h]

theorem body_advance_ne {i j : ℕ} {v : V} (h : j ≠ i) : (f.advance i v).body j = f.body j :=
  update_of_ne h ..

variable [DecidableEq K]

/-- `Do` finds no flight for `k`, and call `i` leads one. -/
def lead (k : K) (i : ℕ) (v : V) : Flights K V where
  calls := f.calls.insert k i
  body := update f.body i (some (k, v))

/-- The function of flight `i` has returned: later calls of its key lead again. -/
def land (i : ℕ) : Flights K V :=
  match f.body i with
  | some (k, _) => if f.calls.lookup k = some i then { f with calls := f.calls.erase k } else f
  | none => f

@[simp] theorem body_land (i : ℕ) : (f.land i).body = f.body := by
  unfold land
  split
  · split <;> rfl
  · rfl

theorem body_lead_self (k : K) (i : ℕ) (v : V) : (f.lead k i v).body i = some (k, v) := update_self ..

theorem body_lead_ne {k : K} {i j : ℕ} {v : V} (h : j ≠ i) : (f.lead k i v).body j = f.body j :=
  update_of_ne h ..

variable {f}

theorem calls_of_land {k : K} {i j : ℕ} (h : (f.land i).calls.lookup k = some j) :
    f.calls.lookup k = some j := by
  unfold land at h
  split at h
  · split at h
    · next k' _ _ _ =>
      by_cases hk : k = k'
      · subst hk
        rw [AList.lookup_erase] at h
        cases h
      · rwa [AList.lookup_erase_ne hk] at h
    · exact h
  · exact h

def Keyed (f : Flights K V) : Prop :=
  ∀ k i, f.calls.lookup k = some i → ∃ v, f.body i = some (k, v)

theorem keyed_empty : Keyed ({} : Flights K V) := by
  intro k i h
  simp at h

theorem Keyed.lead (h : f.Keyed) {k : K} {i : ℕ} (hi : f.body i = none) (v : V) :
    (f.lead k i v).Keyed := by
  intro l j hj
  by_cases hl : l = k
  · subst hl
    rw [Flights.lead, AList.lookup_insert] at hj
    cases hj
    exact ⟨v, f.body_lead_self l i v⟩
  · rw [Flights.lead, AList.lookup_insert_ne hl] at hj
    obtain ⟨w, hw⟩ := h l j hj
    have hji : j ≠ i := by
      rintro rfl
      rw [hi] at hw
      cases hw
    exact ⟨w, by rw [body_lead_ne f hji, hw]⟩

theorem Keyed.advance (h : f.Keyed) (i : ℕ) (v : V) : (f.advance i v).Keyed := by
  intro k j hj
  obtain ⟨w, hw⟩ := h k j hj
  by_cases hji : j = i
  · subst hji
    exact ⟨v, body_advance_self f hw⟩
  · exact ⟨w, by rw [body_advance_ne f hji, hw]⟩

theorem Keyed.land (h : f.Keyed) (i : ℕ) : (f.land i).Keyed := by
  intro k j hj
  rw [body_land]
  exact h k j (calls_of_land hj)

end Flights

end KubeCenter.Core
