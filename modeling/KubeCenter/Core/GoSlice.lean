import KubeCenter.Core.GoMap

namespace KubeCenter.Core

/-! Sorting and grouping slices. -/

/-- `sort.Slice`; the order of elements of which none is less is its own. -/
structure SliceSort {α : Type} (less : α → α → Bool) where
  sort : List α → List α
  perm : ∀ l, (sort l).Perm l
  sorted : ∀ l, (sort l).Pairwise (fun a b ↦ less b a = false)

variable {α κ : Type} [DecidableEq κ]

/-- A map to the members so far, and its keys in the order they came. -/
structure Groups (κ α : Type) where
  members : GoMap κ (List α) := ∅
  order : List κ := []

namespace Groups

def get (g : Groups κ α) (k : κ) : List α := (g.members.lookup k).getD []

def add (key : α → κ) (g : Groups κ α) (a : α) : Groups κ α where
  members := g.members.insert (key a) (g.get (key a) ++ [a])
  order := if key a ∈ g.members then g.order else g.order ++ [key a]

end Groups

def groupBy (key : α → κ) (l : List α) : Groups κ α := l.foldl (Groups.add key) {}

theorem groupBy_append_singleton (key : α → κ) (l : List α) (a : α) :
    groupBy key (l ++ [a]) = (groupBy key l).add key a := by
  simp [groupBy]

/-- A group has the elements of its key in their order. -/
theorem get_groupBy (key : α → κ) (l : List α) (k : κ) : (groupBy key l).get k = l.filter (fun a ↦ key a = k) := by
  induction l using List.reverseRecOn with
  | nil => rfl
  | append_singleton l a ih =>
    rw [groupBy_append_singleton, List.filter_append]
    unfold Groups.add
    rw [Groups.get]
    by_cases hk : key a = k
    · subst hk
      rw [AList.lookup_insert, Option.getD_some, ih]
      simp
    · rw [AList.lookup_insert_ne (Ne.symm hk)]
      change (groupBy key l).get k = _
      simp [ih, hk]

theorem mem_members_groupBy {key : α → κ} {l : List α} {k : κ} : k ∈ (groupBy key l).members ↔ k ∈ l.map key := by
  induction l using List.reverseRecOn with
  | nil => simp [groupBy]
  | append_singleton l a ih =>
    rw [groupBy_append_singleton]
    unfold Groups.add
    simp [ih, or_comm]

theorem mem_order_groupBy {key : α → κ} {l : List α} {k : κ} : k ∈ (groupBy key l).order ↔ k ∈ l.map key := by
  induction l using List.reverseRecOn with
  | nil => simp [groupBy]
  | append_singleton l a ih =>
    rw [groupBy_append_singleton, List.map_append, List.mem_append, ← ih]
    unfold Groups.add
    dsimp only
    by_cases hold : key a ∈ (groupBy key l).members
    · rw [if_pos hold, ih]
      refine ⟨Or.inl, fun h ↦ h.elim id (fun hk ↦ ?_)⟩
      rw [List.mem_singleton.mp hk]
      exact mem_members_groupBy.mp hold
    · rw [if_neg hold]
      simp

theorem nodup_order_groupBy (key : α → κ) (l : List α) : (groupBy key l).order.Nodup := by
  induction l using List.reverseRecOn with
  | nil => exact List.nodup_nil
  | append_singleton l a ih =>
    rw [groupBy_append_singleton]
    unfold Groups.add
    dsimp only
    by_cases hold : key a ∈ (groupBy key l).members
    · rw [if_pos hold]
      exact ih
    · rw [if_neg hold]
      rw [mem_members_groupBy, ← mem_order_groupBy] at hold
      exact ih.append (List.nodup_singleton _) (List.disjoint_singleton.mpr hold)

end KubeCenter.Core
