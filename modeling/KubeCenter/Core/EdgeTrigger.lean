import KubeCenter.Core.GoMap

/-! A scan that reports each reading whose level is loud and not the one remembered for its key. -/

namespace KubeCenter.Core.EdgeTrigger

variable {K L E : Type} [DecidableEq K] [DecidableEq L] (key : E → K) (level : E → L) (loud : L → Bool)

def reports (memory : GoMap K L) (e : E) : Bool := loud (level e) && memory.lookup (key e) ≠ some (level e)

def scan : GoMap K L → List E → List E × GoMap K L
  | memory, [] => ([], memory)
  | memory, e :: es =>
    let (reported, memory') := scan (memory.insert (key e) (level e)) es
    ((if reports key level loud memory e then [e] else []) ++ reported, memory')

/-- The keys that were not read are forgotten. -/
def pruned (es : List E) (memory : GoMap K L) : GoMap K L :=
  GoMap.filter (fun k ↦ es.any (fun e ↦ key e = k)) memory

/-- The last loud level of a key, none since it was quiet or not read. -/
def remembered (current : Option L) : Option L := current.filter loud

variable {key level loud} {memory : GoMap K L} {e : E} {es : List E} {k : K}

variable (level loud memory) in
theorem scan_of_not_read (h : ∀ e ∈ es, key e ≠ k) :
    (scan key level loud memory es).2.lookup k = memory.lookup k ∧
      (scan key level loud memory es).1.filter (fun e ↦ key e = k) = [] := by
  induction es generalizing memory with
  | nil => exact ⟨rfl, rfl⟩
  | cons e es ih =>
    have hne := h e List.mem_cons_self
    obtain ⟨hlookup, hreported⟩ := ih (memory.insert (key e) (level e))
      (fun e' he' ↦ h e' (List.mem_cons_of_mem e he'))
    refine ⟨hlookup.trans (AList.lookup_insert_ne hne.symm), ?_⟩
    rw [scan, List.filter_append, hreported, List.append_nil]
    split
    · rw [List.filter_cons_of_neg (by simpa using hne), List.filter_nil]
    · rfl

variable (level loud memory) in
/-- A reading is compared with the memory the scan began with, and remembered. -/
theorem scan_of_mem (hdistinct : (es.map key).Nodup) (he : e ∈ es) :
    (scan key level loud memory es).2.lookup (key e) = some (level e) ∧
      (scan key level loud memory es).1.filter (fun e' ↦ key e' = key e) =
        if reports key level loud memory e then [e] else [] := by
  induction es generalizing memory with
  | nil => cases he
  | cons e' es ih =>
    rw [List.map_cons, List.nodup_cons] at hdistinct
    rw [scan, List.filter_append]
    obtain rfl | he := List.mem_cons.mp he
    · have hothers : ∀ e' ∈ es, key e' ≠ key e := fun e' he' heq ↦
        hdistinct.1 (heq ▸ List.mem_map_of_mem he')
      obtain ⟨hlookup, hreported⟩ := scan_of_not_read level loud (memory.insert (key e) (level e)) hothers
      refine ⟨hlookup.trans (AList.lookup_insert _), ?_⟩
      rw [hreported, List.append_nil]
      split
      · rw [List.filter_cons_of_pos (by simp), List.filter_nil]
      · rfl
    · have hne : key e' ≠ key e := fun heq ↦ hdistinct.1 (heq ▸ List.mem_map_of_mem he)
      obtain ⟨hlookup, hreported⟩ := ih (memory.insert (key e') (level e')) hdistinct.2 he
      have hsame : reports key level loud (memory.insert (key e') (level e')) e = reports key level loud memory e := by
        rw [reports, reports, AList.lookup_insert_ne hne.symm]
      refine ⟨hlookup, ?_⟩
      rw [hreported, hsame]
      split
      · rw [List.filter_cons_of_neg (by simpa using hne), List.filter_nil, List.nil_append]
      · rfl

omit [DecidableEq L] in
theorem lookup_pruned (es : List E) (memory : GoMap K L) (k : K) :
    (pruned key es memory).lookup k = if es.any (fun e ↦ key e = k) then memory.lookup k else none :=
  GoMap.lookup_filter _ _ _

variable (level loud) in
/-- A scan of distinct keys with its pruning: what it remembers of a key and what it reports of it. -/
theorem scan_spec (hdistinct : (es.map key).Nodup) (memory : GoMap K L) (k : K) :
    (pruned key es (scan key level loud memory es).2).lookup k = (es.find? (fun e ↦ key e = k)).map level ∧
      (scan key level loud memory es).1.filter (fun e ↦ key e = k) =
        ((es.find? (fun e ↦ key e = k)).filter (reports key level loud memory)).toList := by
  rw [lookup_pruned]
  cases hfind : es.find? (fun e ↦ key e = k) with
  | none =>
    have hothers : ∀ e ∈ es, key e ≠ k := by simpa using List.find?_eq_none.mp hfind
    have hany : ¬ es.any (fun e ↦ key e = k) := by simpa using hothers
    exact ⟨if_neg hany, (scan_of_not_read level loud memory hothers).2⟩
  | some e =>
    have he := List.mem_of_find?_eq_some hfind
    obtain rfl : key e = k := by simpa using List.find?_some hfind
    have hany : es.any (fun e' ↦ key e' = key e) := List.any_eq_true.mpr ⟨e, he, decide_eq_true rfl⟩
    obtain ⟨hlookup, hreported⟩ := scan_of_mem level loud memory hdistinct he
    refine ⟨(if_pos hany).trans hlookup, ?_⟩
    rw [hreported]
    by_cases hr : reports key level loud memory e
    · rw [if_pos hr, Option.filter_some_pos hr, Option.toList_some]
    · rw [if_neg hr, Option.filter_some_neg (by simpa using hr), Option.toList_none]

theorem mem_of_mem_scan (h : e ∈ (scan key level loud memory es).1) : e ∈ es := by
  induction es generalizing memory with
  | nil => exact h
  | cons e' es ih =>
    rw [scan] at h
    obtain h | h := List.mem_append.mp h
    · split at h
      · exact List.mem_singleton.mp h ▸ List.mem_cons_self
      · cases h
    · exact List.mem_cons_of_mem e' (ih h)

theorem scan_append (memory : GoMap K L) (es es' : List E) : scan key level loud memory (es ++ es') =
    ((scan key level loud memory es).1 ++ (scan key level loud (scan key level loud memory es).2 es').1,
      (scan key level loud (scan key level loud memory es).2 es').2) := by
  induction es generalizing memory with
  | nil => rfl
  | cons e es ih =>
    rw [List.cons_append, scan, ih, scan]
    simp only [List.append_assoc]

omit [DecidableEq L] in
theorem find?_eq_some_iff (hdistinct : (es.map key).Nodup) :
    es.find? (fun e ↦ key e = k) = some e ↔ e ∈ es ∧ key e = k := by
  constructor
  · intro h
    exact ⟨List.mem_of_find?_eq_some h, by simpa using List.find?_some h⟩
  · rintro ⟨he, rfl⟩
    obtain ⟨e', he'⟩ : ∃ e', es.find? (fun e' ↦ key e' = key e) = some e' :=
      Option.isSome_iff_exists.mp (List.find?_isSome.mpr ⟨e, he, by simp⟩)
    have hkey : key e' = key e := by simpa using List.find?_some he'
    rw [he', List.inj_on_of_nodup_map hdistinct (List.mem_of_find?_eq_some he') he hkey]

/-- A quiet level in the memory counts as none. -/
theorem reports_iff : reports key level loud memory e = true ↔
    loud (level e) = true ∧ remembered loud (memory.lookup (key e)) ≠ some (level e) := by
  simp only [reports, Bool.and_eq_true, decide_eq_true_eq, remembered, ne_eq, Option.filter_eq_some_iff]
  exact and_congr_right (fun hloud ↦ not_congr ⟨fun h ↦ ⟨h, hloud⟩, fun h ↦ h.1⟩)

end KubeCenter.Core.EdgeTrigger
