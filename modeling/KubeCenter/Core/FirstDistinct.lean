import Mathlib.Data.List.Nodup
import Mathlib.Data.List.Infix

namespace KubeCenter.Core

/-! The first element of each key, collected in order and up to a cap. -/

section

variable {α κ : Type} [DecidableEq κ] (key : α → κ) (cap : ℕ)

def insertNew (acc : List α) (a : α) : List α :=
  if key a ∈ acc.map key then acc else acc ++ [a]

def insertCapped (acc : List α) (a : α) : List α :=
  if cap ≤ acc.length then acc else insertNew key acc a

def collect (acc l : List α) : List α := l.foldl (insertNew key) acc

def distinctBy (l : List α) : List α := collect key [] l

variable {key cap} {acc l : List α} {a : α}

theorem insertNew_old (h : key a ∈ acc.map key) : insertNew key acc a = acc := if_pos h

theorem insertNew_new (h : key a ∉ acc.map key) : insertNew key acc a = acc ++ [a] := if_neg h

theorem prefix_insertNew : acc <+: insertNew key acc a := by
  unfold insertNew
  split
  · exact List.prefix_rfl
  · exact List.prefix_append _ _

theorem prefix_collect : acc <+: collect key acc l := by
  induction l generalizing acc with
  | nil => exact List.prefix_rfl
  | cons a l ih => exact prefix_insertNew.trans ih

@[simp] theorem collect_nil (acc : List α) : collect key acc [] = acc := rfl

theorem collect_append (acc l m : List α) : collect key acc (l ++ m) = collect key (collect key acc l) m :=
  List.foldl_append

theorem distinctBy_append (l m : List α) : distinctBy key (l ++ m) = collect key (distinctBy key l) m :=
  collect_append _ _ _

theorem mem_keys_insertNew {k : κ} : k ∈ (insertNew key acc a).map key ↔ k ∈ acc.map key ∨ k = key a := by
  by_cases h : key a ∈ acc.map key
  · rw [insertNew_old h]
    exact ⟨Or.inl, fun hk ↦ hk.elim id (fun hk ↦ hk ▸ h)⟩
  · simp [insertNew_new h]

theorem mem_keys_collect {k : κ} : k ∈ (collect key acc l).map key ↔ k ∈ acc.map key ∨ k ∈ l.map key := by
  induction l generalizing acc with
  | nil => simp [collect]
  | cons a l ih =>
    rw [show collect key acc (a :: l) = collect key (insertNew key acc a) l from rfl, ih, mem_keys_insertNew,
      List.map_cons, List.mem_cons, or_assoc]

theorem nodup_insertNew (h : (acc.map key).Nodup) : ((insertNew key acc a).map key).Nodup := by
  by_cases ha : key a ∈ acc.map key
  · rwa [insertNew_old ha]
  · rw [insertNew_new ha, List.map_append, List.map_singleton]
    exact h.append (List.nodup_singleton _) (List.disjoint_singleton.mpr ha)

theorem nodup_collect (h : (acc.map key).Nodup) : ((collect key acc l).map key).Nodup := by
  induction l generalizing acc with
  | nil => exact h
  | cons a l ih => exact ih (nodup_insertNew h)

theorem nodup_distinctBy : ((distinctBy key l).map key).Nodup := nodup_collect List.nodup_nil

theorem mem_keys_distinctBy {k : κ} : k ∈ (distinctBy key l).map key ↔ k ∈ l.map key := by
  simp [distinctBy, mem_keys_collect]

theorem mem_of_mem_collect (h : a ∈ collect key acc l) : a ∈ acc ∨ a ∈ l := by
  induction l generalizing acc with
  | nil => exact .inl h
  | cons b l ih =>
    rcases ih h with hacc | hl
    · by_cases hb : key b ∈ acc.map key
      · rw [insertNew_old hb] at hacc
        exact .inl hacc
      · rw [insertNew_new hb, List.mem_append, List.mem_singleton] at hacc
        rcases hacc with hacc | rfl
        · exact .inl hacc
        · exact .inr List.mem_cons_self
    · exact .inr (List.mem_cons_of_mem _ hl)

theorem mem_of_mem_distinctBy (h : a ∈ distinctBy key l) : a ∈ l :=
  (mem_of_mem_collect h).elim (fun h ↦ absurd h List.not_mem_nil) id

/-- Where no key repeats, everything is collected. -/
theorem collect_eq_append (h : ((acc ++ l).map key).Nodup) : collect key acc l = acc ++ l := by
  induction l generalizing acc with
  | nil => simp [collect]
  | cons a l ih =>
    have hnew : key a ∉ acc.map key := by
      rw [List.map_append, List.map_cons] at h
      exact fun ha ↦ List.disjoint_of_nodup_append h ha List.mem_cons_self
    have hsplit : acc ++ a :: l = (acc ++ [a]) ++ l := by simp
    rw [show collect key acc (a :: l) = collect key (insertNew key acc a) l from rfl, insertNew_new hnew,
      ih (hsplit ▸ h), hsplit]

theorem distinctBy_eq_self (h : (l.map key).Nodup) : distinctBy key l = l := collect_eq_append h

theorem distinctBy_singleton (a : α) : distinctBy key [a] = [a] := distinctBy_eq_self (List.nodup_singleton (key a))

theorem take_collect (h : cap = acc.length) : (collect key acc l).take cap = acc := by
  obtain ⟨s, hs⟩ : acc <+: collect key acc l := prefix_collect
  rw [← hs, List.take_left' h.symm]

theorem length_collect_le : (collect key acc l).length ≤ acc.length + l.length := by
  induction l generalizing acc with
  | nil => exact le_rfl
  | cons a l ih =>
    have hstep : (insertNew key acc a).length ≤ acc.length + 1 := by
      unfold insertNew
      split <;> simp
    have hrest : (collect key (insertNew key acc a) l).length ≤ (insertNew key acc a).length + l.length := ih
    rw [show collect key acc (a :: l) = collect key (insertNew key acc a) l from rfl, List.length_cons]
    omega

theorem length_distinctBy_le : (distinctBy key l).length ≤ l.length := by
  have hle : (distinctBy key l).length ≤ ([] : List α).length + l.length := length_collect_le
  simpa using hle

/-- A collector that stops growing at the cap has the first `cap` of them. -/
theorem foldl_insertCapped (h : acc.length ≤ cap) :
    l.foldl (insertCapped key cap) acc = (collect key acc l).take cap := by
  induction l generalizing acc with
  | nil => exact (List.take_of_length_le h).symm
  | cons a l ih =>
    rw [List.foldl_cons]
    by_cases hcap : cap ≤ acc.length
    · have hlength : cap = acc.length := le_antisymm hcap h
      rw [insertCapped, if_pos hcap, ih h, take_collect hlength, take_collect hlength]
    · rw [insertCapped, if_neg hcap]
      refine ih ?_
      unfold insertNew
      split
      · exact h
      · simp
        omega

/-- Some element is reached once `cap` of them have been collected. -/
def ReachedFull (key : α → κ) (cap : ℕ) (acc l : List α) : Prop :=
  l ≠ [] ∧ cap ≤ (collect key acc l.dropLast).length

instance : Decidable (ReachedFull key cap acc l) := inferInstanceAs (Decidable (_ ∧ _))

theorem not_reachedFull_nil : ¬ ReachedFull key cap acc [] := fun h ↦ h.1 rfl

theorem reachedFull_cons : ReachedFull key cap acc (a :: l) ↔
    cap ≤ acc.length ∨ ReachedFull key cap (insertNew key acc a) l := by
  cases l with
  | nil => simp [ReachedFull, collect]
  | cons b l =>
    rw [ReachedFull, ReachedFull, List.dropLast_cons_cons]
    have hlength : acc.length ≤ (collect key (insertNew key acc a) (b :: l).dropLast).length :=
      (prefix_insertNew.trans prefix_collect).length_le
    constructor
    · exact fun h ↦ .inr ⟨List.cons_ne_nil _ _, h.2⟩
    · rintro (h | h)
      · exact ⟨List.cons_ne_nil _ _, h.trans hlength⟩
      · exact ⟨List.cons_ne_nil _ _, h.2⟩

/-- The cap leaves something out exactly where there are more keys than it admits. -/
theorem left_out_iff : (∃ a ∈ l, key a ∉ ((distinctBy key l).take cap).map key) ↔
    cap < (distinctBy key l).length := by
  constructor
  · rintro ⟨a, ha, hout⟩
    by_contra hle
    rw [List.take_of_length_le (not_lt.mp hle)] at hout
    exact hout (mem_keys_distinctBy.mpr (List.mem_map_of_mem ha))
  · intro hlt
    have hmem : (distinctBy key l)[cap] ∈ l := mem_of_mem_distinctBy (List.getElem_mem hlt)
    refine ⟨_, hmem, fun hin ↦ ?_⟩
    have hsplit : (distinctBy key l).take cap ++ (distinctBy key l).drop cap = distinctBy key l :=
      List.take_append_drop _ _
    have hnodup : ((distinctBy key l).map key).Nodup := nodup_distinctBy
    rw [← hsplit, List.map_append] at hnodup
    refine List.disjoint_of_nodup_append hnodup hin (List.mem_map_of_mem ?_)
    rw [List.drop_eq_getElem_cons hlt]
    exact List.mem_cons_self

/-- Collecting what the cap left out reaches the cap. -/
theorem reachedFull_of_lt (h : acc.length ≤ cap) (hlt : cap < (collect key acc l).length) :
    ReachedFull key cap acc l := by
  induction l generalizing acc with
  | nil => exact absurd hlt (not_lt.mpr h)
  | cons a l ih =>
    rw [reachedFull_cons]
    by_cases hcap : cap ≤ acc.length
    · exact .inl hcap
    · refine .inr (ih ?_ hlt)
      unfold insertNew
      split
      · exact h
      · simp
        omega

end

end KubeCenter.Core
