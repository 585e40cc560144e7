import Mathlib.Data.List.Basic

namespace KubeCenter.Core

inductive Panic
  | sendOnClosedChannel
  | closeOfClosedChannel
  deriving DecidableEq

/-- A buffered Go channel. -/
structure Chan (α : Type) where
  cap : ℕ
  buf : List α := []
  closed : Bool := false

/-- The outcomes of `select { case c <- v: default: }`. -/
inductive Sent (α : Type)
  | sent (c : Chan α)
  | full
  | panic

namespace Chan

variable {α : Type}

def trySend (c : Chan α) (v : α) : Sent α :=
  if c.closed then .panic
  else if c.buf.length < c.cap then .sent { c with buf := c.buf ++ [v] }
  else .full

def close (c : Chan α) : Chan α := { c with closed := true }

theorem trySend_open {c : Chan α} (h : c.closed = false) (v : α) :
    c.trySend v = .sent { c with buf := c.buf ++ [v] } ∨ c.trySend v = .full := by
  unfold trySend
  rw [h]
  by_cases hb : c.buf.length < c.cap
  · exact .inl (by simp [hb])
  · exact .inr (by simp [hb])

theorem trySend_sent {c c' : Chan α} {v : α} (h : c.trySend v = .sent c') :
    c.closed = false ∧ c' = { c with buf := c.buf ++ [v] } := by
  unfold trySend at h
  split at h
  · cases h
  · split at h
    · cases h; exact ⟨by simpa using ‹¬ c.closed = true›, rfl⟩
    · cases h

theorem trySend_cases (c : Chan α) (v : α) :
    c.closed = true ∧ c.trySend v = .panic ∨
    c.closed = false ∧ c.buf.length < c.cap ∧ c.trySend v = .sent { c with buf := c.buf ++ [v] } ∨
    c.closed = false ∧ c.trySend v = .full := by
  unfold trySend
  cases c.closed with
  | true => exact .inl ⟨rfl, rfl⟩
  | false =>
    by_cases hb : c.buf.length < c.cap
    · exact .inr (.inl ⟨rfl, hb, by simp [hb]⟩)
    · exact .inr (.inr ⟨rfl, by simp [hb]⟩)

end Chan

end KubeCenter.Core
