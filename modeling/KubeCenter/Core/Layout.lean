import Mathlib.Data.List.Basic

namespace KubeCenter.Core.Layout

/-! Lines laid out by their columns: the lines that stand deeper under a line belong to it. -/

inductive Block (α : Type) where
  | mk (column : ℕ) (head : α) (below : List (Block α))

variable {α : Type}

def Block.column : Block α → ℕ
  | ⟨n, _, _⟩ => n

mutual

def Block.lines : Block α → List (ℕ × α)
  | ⟨n, a, below⟩ => (n, a) :: blockLines below

def blockLines : List (Block α) → List (ℕ × α)
  | [] => []
  | b :: bs => b.lines ++ blockLines bs

end

/-- A line before blocks takes those that stand deeper, up to the first that does not. -/
def attach (l : ℕ × α) (bs : List (Block α)) : List (Block α) :=
  ⟨l.1, l.2, bs.takeWhile (fun b ↦ l.1 < b.column)⟩ :: bs.dropWhile (fun b ↦ l.1 < b.column)

def blocks (ls : List (ℕ × α)) : List (Block α) := ls.foldr attach []

theorem blockLines_append (bs cs : List (Block α)) : blockLines (bs ++ cs) = blockLines bs ++ blockLines cs := by
  induction bs with
  | nil => rfl
  | cons b bs ih => simp only [List.cons_append, blockLines, ih, List.append_assoc]

/-- No line is lost and none changes its place. -/
theorem blockLines_blocks (ls : List (ℕ × α)) : blockLines (blocks ls) = ls := by
  induction ls with
  | nil => rfl
  | cons l ls ih =>
    have hlines (bs : List (Block α)) : blockLines (attach l bs) = l :: blockLines bs := by
      rw [attach, blockLines, Block.lines, List.cons_append, ← blockLines_append, List.takeWhile_append_dropWhile]
    calc
      blockLines (blocks (l :: ls)) = blockLines (attach l (blocks ls)) := rfl
      _ = l :: ls := by rw [hlines, ih]

/-! Blocks in one column, with what belongs to each in a deeper one, are read back from their lines. -/

mutual

def Block.Laid : Block α → Prop
  | ⟨n, _, below⟩ => ∃ m, n < m ∧ LaidAt m below

def LaidAt (n : ℕ) : List (Block α) → Prop
  | [] => True
  | b :: bs => b.column = n ∧ b.Laid ∧ LaidAt n bs

end

theorem LaidAt.column {n : ℕ} {bs : List (Block α)} (h : LaidAt n bs) : ∀ b ∈ bs, b.column = n := by
  induction bs with
  | nil => exact fun b hb ↦ absurd hb List.not_mem_nil
  | cons b bs ih => exact List.forall_mem_cons.mpr ⟨h.1, ih h.2.2⟩

theorem LaidAt.append {n : ℕ} {bs cs : List (Block α)} (hb : LaidAt n bs) (hc : LaidAt n cs) : LaidAt n (bs ++ cs) := by
  induction bs with
  | nil => exact hc
  | cons b bs ih => exact ⟨hb.1, hb.2.1, ih hb.2.2⟩

theorem attach_append {n m : ℕ} (a : α) {bs cs : List (Block α)} (hn : n < m) (hb : ∀ b ∈ bs, b.column = m)
    (hc : ∀ c ∈ cs.head?, c.column ≤ n) : attach (n, a) (bs ++ cs) = ⟨n, a, bs⟩ :: cs := by
  have htake : (bs ++ cs).takeWhile (fun b ↦ n < b.column) = bs ∧ (bs ++ cs).dropWhile (fun b ↦ n < b.column) = cs := by
    induction bs with
    | nil =>
      cases cs with
      | nil => exact ⟨rfl, rfl⟩
      | cons c cs =>
        have hle : ¬ n < c.column := Nat.not_lt.mpr (hc c rfl)
        simp [hle]
    | cons b bs ih =>
      have hlt : n < b.column := by rw [hb b List.mem_cons_self]; exact hn
      have hrest := ih (fun c h ↦ hb c (List.mem_cons_of_mem _ h))
      simp only [List.cons_append, List.takeWhile_cons, List.dropWhile_cons, hlt, decide_true, if_true, hrest, true_and]
  rw [attach, htake.1, htake.2]

mutual

theorem foldr_lines : (b : Block α) → b.Laid → {cs : List (Block α)} → (∀ c ∈ cs.head?, c.column ≤ b.column) →
    b.lines.foldr attach cs = b :: cs
  | ⟨n, a, below⟩, ⟨m, hn, hbelow⟩, cs, hc => by
    have hdeep : ∀ c ∈ cs.head?, c.column ≤ m := fun c h ↦ Nat.le_trans (hc c h) (Nat.le_of_lt hn)
    rw [Block.lines, List.foldr_cons, foldr_blockLines below hbelow hdeep]
    exact attach_append a hn hbelow.column hc

theorem foldr_blockLines : (bs : List (Block α)) → {n : ℕ} → LaidAt n bs → {cs : List (Block α)} →
    (∀ c ∈ cs.head?, c.column ≤ n) → (blockLines bs).foldr attach cs = bs ++ cs
  | [], _, _, _, _ => rfl
  | b :: bs, n, ⟨hb, hlaid, hbs⟩, cs, hc => by
    have hnext : ∀ c ∈ (bs ++ cs).head?, c.column ≤ b.column := by
      cases bs with
      | nil => rw [hb]; exact hc
      | cons d bs =>
        intro c h
        obtain rfl : d = c := Option.some.inj h
        exact Nat.le_of_eq (hbs.1.trans hb.symm)
    rw [blockLines, List.foldr_append, foldr_blockLines bs hbs hc, foldr_lines b hlaid hnext]
    rfl

end

theorem blocks_blockLines {n : ℕ} {bs : List (Block α)} (h : LaidAt n bs) : blocks (blockLines bs) = bs := by
  have hnil : ∀ c ∈ ([] : List (Block α)).head?, c.column ≤ n := fun c hc ↦ absurd hc (by simp)
  rw [blocks, foldr_blockLines bs h hnil, List.append_nil]

end KubeCenter.Core.Layout
