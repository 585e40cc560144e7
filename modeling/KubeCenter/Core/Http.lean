import Mathlib.Data.Nat.Notation

namespace KubeCenter.Core

structure APIError where
  code : ℕ
  message : String
  deriving DecidableEq

/-- A check that lets nothing but what passes through to the rest. -/
theorem ite_error_eq_ok {ε α : Type} {c : Prop} [Decidable c] {err : ε} {rest : Except ε α} {a : α} :
    (if c then .error err else rest) = .ok a ↔ ¬ c ∧ rest = .ok a := by
  by_cases hc : c
  · simp [hc]
  · simp [hc]

theorem bind_eq_ok {ε α β : Type} {x : Except ε α} {f : α → Except ε β} {b : β} :
    x.bind f = .ok b ↔ ∃ a, x = .ok a ∧ f a = .ok b := by
  cases x with
  | error e => simp [Except.bind]
  | ok a => simp [Except.bind]

/-- A JSON request body: the length of its text and what it decodes to. -/
structure RequestBody (α : Type) where
  size : ℕ
  value : Option α

/-- `json.NewDecoder(http.MaxBytesReader(..)).Decode`. -/
def RequestBody.decode {α : Type} (body : RequestBody α) (limit : ℕ) : Option α :=
  if body.size ≤ limit then body.value else none

end KubeCenter.Core
