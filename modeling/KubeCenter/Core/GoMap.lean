import Mathlib.Data.List.AList
import Mathlib.Data.List.Induction

namespace KubeCenter.Core

/-- A Go map (or `sync.Map`): at most one value a key. -/
abbrev GoMap (K V : Type) := AList (fun _ : K ↦ V)

namespace GoMap

variable {K V : Type}

def filter (p : K → Bool) (m : GoMap K V) : GoMap K V where
  entries := m.entries.filter (fun e ↦ p e.1)
  nodupKeys := m.nodupKeys.sublist List.filter_sublist

@[simp] theorem entries_filter (p : K → Bool) (m : GoMap K V) :
    (filter p m).entries = m.entries.filter (fun e ↦ p e.1) := rfl

@[simp] theorem mem_filter {p : K → Bool} {m : GoMap K V} {k : K} :
    k ∈ filter p m ↔ k ∈ m ∧ p k = true := by
  simp only [AList.mem_keys, AList.keys, List.mem_keys, entries_filter, List.mem_filter]
  constructor
  · rintro ⟨v, hv, hp⟩; exact ⟨⟨v, hv⟩, hp⟩
  · rintro ⟨⟨v, hv⟩, hp⟩; exact ⟨v, hv, hp⟩

/-- What a loop that deletes the entries failing `p` leaves. -/
def sift (p : K → V → Bool) (m : GoMap K V) : GoMap K V where
  entries := m.entries.filter (fun e ↦ p e.1 e.2)
  nodupKeys := m.nodupKeys.sublist List.filter_sublist

theorem lookup_sift [DecidableEq K] (p : K → V → Bool) (m : GoMap K V) (k : K) :
    (sift p m).lookup k = (m.lookup k).filter (p k) := by
  refine Option.ext (fun v ↦ ?_)
  rw [← Option.mem_def, AList.mem_lookup_iff, Option.filter_eq_some_iff, ← Option.mem_def, AList.mem_lookup_iff]
  exact List.mem_filter

theorem lookup_filter [DecidableEq K] (p : K → Bool) (m : GoMap K V) (k : K) :
    (filter p m).lookup k = if p k then m.lookup k else none := by
  have h : filter p m = sift (fun k _ ↦ p k) m := rfl
  rw [h, lookup_sift]
  cases m.lookup k with
  | none => simp
  | some v => cases p k <;> simp

theorem mem_entries_iff [DecidableEq K] {m : GoMap K V} {k : K} {v : V} :
    (⟨k, v⟩ : Sigma fun _ : K ↦ V) ∈ m.entries ↔ m.lookup k = some v :=
  (AList.mem_lookup_iff).symm

theorem mem_of_mem_entries {m : GoMap K V} {e : Sigma fun _ : K ↦ V}
    (h : e ∈ m.entries) : e.1 ∈ m :=
  AList.mem_keys.mpr (List.mem_keys_of_mem h)

theorem mem_of_mem_insert [DecidableEq K] {m : GoMap K V} {k k' : K} {v : V}
    (h : k ∈ m.insert k' v) : k = k' ∨ k ∈ m := by
  simpa using h

theorem notMem_insert [DecidableEq K] {m : GoMap K V} {k k' : K} {v : V} (hne : k ≠ k') (h : k ∉ m) :
    k ∉ m.insert k' v := fun hmem ↦ (mem_of_mem_insert hmem).elim hne h

theorem mem_of_mem_erase [DecidableEq K] {m : GoMap K V} {k k' : K}
    (h : k ∈ m.erase k') : k ∈ m := (AList.mem_erase.mp h).2

theorem mem_entries_insert [DecidableEq K] {m : GoMap K V} {k : K} {v : V} {e : Sigma fun _ : K ↦ V}
    (h : e ∈ (m.insert k v).entries) : e = ⟨k, v⟩ ∨ e ∈ m.entries := by
  rw [AList.entries_insert] at h
  exact (List.mem_cons.mp h).imp id (fun h ↦ (List.kerase_sublist k m.entries).subset h)

theorem mem_entries_erase [DecidableEq K] {m : GoMap K V} {k : K} {e : Sigma fun _ : K ↦ V}
    (h : e ∈ (m.erase k).entries) : e ∈ m.entries :=
  (List.kerase_sublist k m.entries).subset h

/-- What a loop that copies the entries, the values through `f`, leaves. -/
def mapValues {V' : Type} (f : K → V → V') (m : GoMap K V) : GoMap K V' where
  entries := m.entries.map (fun e ↦ ⟨e.1, f e.1 e.2⟩)
  nodupKeys := by
    have hkeys : (m.entries.map (fun e ↦ (⟨e.1, f e.1 e.2⟩ : Sigma fun _ : K ↦ V'))).keys = m.entries.keys := by
      simp [List.keys, Function.comp_def]
    rw [List.NodupKeys, hkeys]
    exact m.nodupKeys

theorem lookup_mapValues {V' : Type} [DecidableEq K] (f : K → V → V') (m : GoMap K V) (k : K) :
    (mapValues f m).lookup k = (m.lookup k).map (f k) := by
  refine Option.ext (fun w ↦ ?_)
  rw [← mem_entries_iff, Option.map_eq_some_iff]
  simp only [mapValues, List.mem_map]
  constructor
  · rintro ⟨⟨k', v⟩, hv, he⟩
    cases he
    exact ⟨v, mem_entries_iff.mp hv, rfl⟩
  · rintro ⟨v, hv, rfl⟩
    exact ⟨⟨k, v⟩, mem_entries_iff.mpr hv, rfl⟩

/-- What a loop that stores each element under its key leaves: of those with one key the last. -/
def indexBy {α : Type} [DecidableEq K] (key : α → K) (val : α → V) (l : List α) : GoMap K V :=
  l.foldl (fun m a ↦ m.insert (key a) (val a)) ∅

section

variable {α : Type} [DecidableEq K] {key : α → K} {val : α → V} {l : List α} {k : K} {v : V}

theorem indexBy_concat (l : List α) (a : α) :
    indexBy key val (l ++ [a]) = (indexBy key val l).insert (key a) (val a) := List.foldl_concat _ _ _ _

theorem mem_of_lookup_indexBy (h : (indexBy key val l).lookup k = some v) : ∃ a ∈ l, key a = k ∧ val a = v := by
  induction l using List.reverseRecOn with
  | nil => simp [indexBy] at h
  | append_singleton l a ih =>
    rw [indexBy_concat] at h
    by_cases hk : k = key a
    · subst hk
      rw [AList.lookup_insert] at h
      exact ⟨a, by simp, rfl, Option.some.inj h⟩
    · rw [AList.lookup_insert_ne hk] at h
      obtain ⟨c, hc, hck⟩ := ih h
      exact ⟨c, by simp [hc], hck⟩

theorem lookup_indexBy_isSome : ((indexBy key val l).lookup k).isSome ↔ ∃ a ∈ l, key a = k := by
  induction l using List.reverseRecOn with
  | nil => simp [indexBy]
  | append_singleton l a ih =>
    rw [indexBy_concat]
    by_cases hk : k = key a
    · subst hk
      simp [AList.lookup_insert]
    · rw [AList.lookup_insert_ne hk, ih]
      simp [Ne.symm hk]

theorem lookup_indexBy_eq_some {a : α} (hunique : ∀ a ∈ l, ∀ b ∈ l, key a = key b → a = b) (ha : a ∈ l)
    (hk : key a = k) : (indexBy key val l).lookup k = some (val a) := by
  obtain ⟨v, hv⟩ := Option.isSome_iff_exists.mp (lookup_indexBy_isSome.mpr ⟨a, ha, hk⟩)
  obtain ⟨b, hb, hkey, hval⟩ := mem_of_lookup_indexBy hv
  rw [hv, ← hval, hunique b hb a ha (hkey.trans hk.symm)]

theorem lookup_indexBy_eq_none (h : ∀ a ∈ l, key a ≠ k) : (indexBy key val l).lookup k = none := by
  rw [← Option.not_isSome_iff_eq_none, lookup_indexBy_isSome]
  exact fun ⟨a, ha, hk⟩ ↦ h a ha hk

end

/-- How many keys pass `p`. -/
def countKeys (p : K → Bool) (m : GoMap K V) : ℕ := m.keys.countP p

theorem countKeys_filter {p q : K → Bool} {m : GoMap K V} (h : ∀ k, p k = true → q k = true) :
    (filter q m).countKeys p = m.countKeys p := by
  have hkeys : (filter q m).keys = m.keys.filter q := by
    simp only [AList.keys, List.keys, entries_filter, List.filter_map]
    rfl
  rw [countKeys, hkeys, List.countP_filter, countKeys]
  apply List.countP_congr
  intro k _
  rw [Bool.and_eq_true]
  exact and_iff_left_of_imp (h k)

theorem countKeys_erase [DecidableEq K] {m : GoMap K V} {k : K} (hk : k ∈ m) (p : K → Bool) :
    m.countKeys p = GoMap.countKeys p (m.erase k) + if p k then 1 else 0 := by
  rw [countKeys, (List.perm_cons_erase (AList.mem_keys.mp hk)).countP_eq, List.countP_cons, countKeys, AList.keys_erase]

theorem countKeys_erase_ne [DecidableEq K] (m : GoMap K V) {k : K} {p : K → Bool} (hp : p k = false) :
    GoMap.countKeys p (m.erase k) = m.countKeys p := by
  by_cases hk : k ∈ m
  · simp [countKeys_erase hk p, hp]
  · rw [countKeys, AList.keys_erase, List.erase_of_not_mem (fun h ↦ hk (AList.mem_keys.mpr h)), countKeys]

theorem countKeys_insert_ne [DecidableEq K] (m : GoMap K V) {k : K} {p : K → Bool} (hp : p k = false) (v : V) :
    GoMap.countKeys p (m.insert k v) = m.countKeys p := by
  rw [← countKeys_erase_ne m hp, countKeys, AList.keys_insert, List.countP_cons, countKeys, AList.keys_erase]
  simp [hp]

theorem countKeys_insert [DecidableEq K] {m : GoMap K V} {k : K} (hk : k ∉ m) (v : V) (p : K → Bool) :
    GoMap.countKeys p (m.insert k v) = m.countKeys p + if p k then 1 else 0 := by
  rw [countKeys, AList.keys_insert, List.erase_of_not_mem (fun h ↦ hk (AList.mem_keys.mpr h)), List.countP_cons,
    countKeys]

end GoMap

end KubeCenter.Core
