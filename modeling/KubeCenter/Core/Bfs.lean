import Mathlib.Data.Finset.Card
import Mathlib.Data.Finset.SDiff
import Mathlib.Data.List.Infix
import Mathlib.Logic.Relation

namespace KubeCenter.Core.Bfs

/-! Breadth-first search along labelled successors, with a set of what was visited, a queue and a list of what was
found. -/

variable {ι L : Type}

structure State (ι L : Type) where
  visited : List ι
  queue : List ι
  found : List (ι × L) := []

def start (root : ι) : State ι L where
  visited := [root]
  queue := [root]

section

variable [DecidableEq ι]

def visit (s : State ι L) (e : ι × L) : State ι L :=
  if e.1 ∈ s.visited then s
  else { visited := e.1 :: s.visited, queue := s.queue ++ [e.1], found := s.found ++ [e] }

/-- Each round takes one element from the queue. -/
def search (next : ι → List (ι × L)) : ℕ → State ι L → Option (State ι L)
  | 0, s => if s.queue = [] then some s else none
  | fuel + 1, s =>
    match s.queue with
    | [] => some s
    | current :: queue => search next fuel ((next current).foldl visit { s with queue })

/-! ## The edges of one element -/

variable {next : ι → List (ι × L)} {s s' : State ι L} {edges : List (ι × L)} {root : ι}

/-- What a loop over edges adds: the first edge to each element that was not visited. -/
structure Adds (s s' : State ι L) (edges new : List (ι × L)) : Prop where
  found : s'.found = s.found ++ new
  queue : s'.queue = s.queue ++ new.map Prod.fst
  visited : ∀ x, x ∈ s'.visited ↔ x ∈ s.visited ∨ x ∈ new.map Prod.fst
  fresh : ∀ e ∈ new, e ∈ edges ∧ e.1 ∉ s.visited
  nodup : (new.map Prod.fst).Nodup
  covered : ∀ e ∈ edges, e.1 ∈ s'.visited

theorem adds_foldl_visit (edges : List (ι × L)) (s : State ι L) : ∃ new, Adds s (edges.foldl visit s) edges new := by
  induction edges generalizing s with
  | nil => exact ⟨[], by simp, by simp, by simp, nofun, List.nodup_nil, nofun⟩
  | cons e edges ih =>
    rw [List.foldl_cons]
    by_cases hold : e.1 ∈ s.visited
    · rw [visit, if_pos hold]
      obtain ⟨new, h⟩ := ih s
      refine ⟨new, h.found, h.queue, h.visited, fun d hd ↦ ?_, h.nodup, fun d hd ↦ ?_⟩
      · exact ⟨List.mem_cons_of_mem e (h.fresh d hd).1, (h.fresh d hd).2⟩
      · obtain rfl | hd := List.mem_cons.mp hd
        · exact (h.visited d.1).mpr (.inl hold)
        · exact h.covered d hd
    · rw [visit, if_neg hold]
      obtain ⟨new, h⟩ := ih { visited := e.1 :: s.visited, queue := s.queue ++ [e.1], found := s.found ++ [e] }
      refine ⟨e :: new, by simpa using h.found, by simpa using h.queue, fun x ↦ ?_, fun d hd ↦ ?_, ?_, fun d hd ↦ ?_⟩
      · rw [h.visited x, List.mem_cons, List.map_cons, List.mem_cons]
        tauto
      · obtain rfl | hd := List.mem_cons.mp hd
        · exact ⟨List.mem_cons_self, hold⟩
        · obtain ⟨hedge, hfresh⟩ := h.fresh d hd
          exact ⟨List.mem_cons_of_mem e hedge, fun hd ↦ hfresh (List.mem_cons_of_mem e.1 hd)⟩
      · rw [List.map_cons, List.nodup_cons]
        refine ⟨fun hmem ↦ ?_, h.nodup⟩
        obtain ⟨d, hd, heq⟩ := List.mem_map.mp hmem
        exact (h.fresh d hd).2 (heq ▸ List.mem_cons_self)
      · obtain rfl | hd := List.mem_cons.mp hd
        · exact (h.visited d.1).mpr (.inl List.mem_cons_self)
        · exact h.covered d hd

/-! ## Termination -/

/-- How many rounds there can be, where every successor is in `targets`. -/
def rounds (targets : Finset ι) (s : State ι L) : ℕ := (targets.filter (fun x ↦ x ∉ s.visited)).card + s.queue.length

theorem rounds_visit_le {targets : Finset ι} {e : ι × L} (he : e.1 ∈ targets) (s : State ι L) :
    rounds targets (visit s e) ≤ rounds targets s := by
  unfold visit rounds
  by_cases hold : e.1 ∈ s.visited
  · rw [if_pos hold]
  · rw [if_neg hold]
    have hlt : (targets.filter (fun x ↦ x ∉ e.1 :: s.visited)).card < (targets.filter (fun x ↦ x ∉ s.visited)).card := by
      refine Finset.card_lt_card (Finset.ssubset_iff_of_subset ?_ |>.mpr ⟨e.1, by simp [he, hold], by simp⟩)
      intro x hx
      simp only [Finset.mem_filter, List.mem_cons, not_or] at hx ⊢
      exact ⟨hx.1, hx.2.2⟩
    dsimp only
    rw [List.length_append, List.length_singleton]
    omega

theorem rounds_foldl_visit_le {targets : Finset ι} (h : ∀ e ∈ edges, e.1 ∈ targets) (s : State ι L) :
    rounds targets (edges.foldl visit s) ≤ rounds targets s := by
  induction edges generalizing s with
  | nil => exact Nat.le_refl _
  | cons e edges ih =>
    have hrest := ih (fun d hd ↦ h d (List.mem_cons_of_mem e hd)) (visit s e)
    exact Nat.le_trans hrest (rounds_visit_le (h e List.mem_cons_self) s)

/-- A search with a round for every element ends. -/
theorem isSome_search (targets : Finset ι) (h : ∀ u, ∀ e ∈ next u, e.1 ∈ targets) (fuel : ℕ) (s : State ι L)
    (hfuel : rounds targets s ≤ fuel) : (search next fuel s).isSome := by
  induction fuel generalizing s with
  | zero =>
    have hempty : s.queue = [] := by
      rw [rounds] at hfuel
      exact List.length_eq_zero_iff.mp (by omega)
    rw [search, if_pos hempty]
    rfl
  | succ fuel ih =>
    unfold search
    cases hqueue : s.queue with
    | nil => rfl
    | cons current queue =>
      refine ih _ (Nat.le_trans (rounds_foldl_visit_le (h current) _) ?_)
      unfold rounds at hfuel ⊢
      rw [hqueue, List.length_cons] at hfuel
      dsimp only
      omega

end

/-! ## What is found -/

variable {next : ι → List (ι × L)} {s s' : State ι L} {root : ι}

def Step (next : ι → List (ι × L)) (u v : ι) : Prop := ∃ label, (v, label) ∈ next u

/-- The element is at most so many steps from the root. -/
inductive Within (r : ι → ι → Prop) (root : ι) : ℕ → ι → Prop
  | root (n : ℕ) : Within r root n root
  | step {n : ℕ} {u v : ι} : Within r root n u → r u v → Within r root (n + 1) v

variable {r : ι → ι → Prop}

theorem Within.mono {n m : ℕ} {x : ι} (h : Within r root n x) (hle : n ≤ m) : Within r root m x := by
  induction h generalizing m with
  | root => exact .root m
  | step _ huv ih =>
    obtain ⟨m, rfl⟩ := Nat.exists_eq_add_of_le' (Nat.lt_of_lt_of_le (Nat.succ_pos _) hle)
    exact .step (ih (by omega)) huv

theorem exists_within_iff {x : ι} : (∃ n, Within r root n x) ↔ Relation.ReflTransGen r root x := by
  constructor
  · rintro ⟨n, h⟩
    induction h with
    | root => exact .refl
    | step _ huv ih => exact ih.tail huv
  · intro h
    induction h with
    | refl => exact ⟨0, .root 0⟩
    | tail _ huv ih =>
      obtain ⟨n, hn⟩ := ih
      exact ⟨n + 1, hn.step huv⟩

/-- The one is as close to the root as the other. -/
def Nearer (r : ι → ι → Prop) (root a b : ι) : Prop := ∀ n, Within r root n b → Within r root n a

/-- The elements in the order they were visited. -/
def State.order (root : ι) (s : State ι L) : List ι := root :: s.found.map Prod.fst

structure Inv (next : ι → List (ι × L)) (root : ι) (s : State ι L) : Prop where
  visited : ∀ x, x ∈ s.visited ↔ x ∈ s.order root
  nodup : (s.order root).Nodup
  suffix : s.queue <:+ s.order root
  reached : ∀ x ∈ s.visited, ∃ n, Within (Step next) root n x
  sources : ∀ e ∈ s.found, ∃ u ∈ s.visited, e ∈ next u
  closed : ∀ x ∈ s.visited, x ∉ s.queue → ∀ e ∈ next x, e.1 ∈ s.visited
  ordered : (s.order root).Pairwise (Nearer (Step next) root)
  near : ∀ current ∈ s.queue.head?, ∀ x ∈ s.visited, ∀ n, Within (Step next) root n current → Within (Step next) root (n + 1) x

theorem inv_start (next : ι → List (ι × L)) (root : ι) : Inv next root (start root) where
  visited x := by simp [start, State.order]
  nodup := List.nodup_singleton root
  suffix := List.suffix_rfl
  reached x hx := by
    rw [List.mem_singleton.mp hx]
    exact ⟨0, .root 0⟩
  sources := nofun
  closed x hx hnot := absurd hx hnot
  ordered := List.pairwise_singleton _ _
  near current _ x hx n _ := by
    rw [List.mem_singleton.mp hx]
    exact .root (n + 1)

/-- What is not visited is farther away than something in the queue. -/
theorem Inv.frontier (h : Inv next root s) {n : ℕ} {x : ι} (hx : Within (Step next) root n x) (hnew : x ∉ s.visited) :
    ∃ u ∈ s.queue, ∃ m < n, Within (Step next) root m u := by
  induction hx with
  | root => exact absurd ((h.visited root).mpr List.mem_cons_self) hnew
  | step hu hstep ih =>
    rename_i n u v
    obtain ⟨label, he⟩ := hstep
    by_cases hvisited : u ∈ s.visited
    · by_cases hqueue : u ∈ s.queue
      · exact ⟨u, hqueue, n, Nat.lt_succ_self n, hu⟩
      · exact absurd (h.closed u hvisited hqueue (v, label) he) hnew
    · obtain ⟨v, hv, m, hm, hwithin⟩ := ih hvisited
      exact ⟨v, hv, m, Nat.lt_succ_of_lt hm, hwithin⟩

/-- The new elements are all one step behind the first of the queue. -/
theorem Inv.adds {current : ι} {queue : List ι} {new : List (ι × L)} (h : Inv next root s)
    (hqueue : s.queue = current :: queue) (hadds : Adds { s with queue } s' (next current) new) : Inv next root s' := by
  have hcurrent : current ∈ s.visited := (h.visited current).mpr (h.suffix.subset (hqueue ▸ List.mem_cons_self))
  have horder : s'.order root = s.order root ++ new.map Prod.fst := by
    rw [State.order, hadds.found, List.map_append]
    rfl
  have hstep {x : ι} (hx : x ∈ new.map Prod.fst) {n : ℕ} (hn : Within (Step next) root n current) :
      Within (Step next) root (n + 1) x := by
    obtain ⟨e, he, rfl⟩ := List.mem_map.mp hx
    exact hn.step ⟨e.2, (hadds.fresh e he).1⟩
  have hfresh {x : ι} (hx : x ∈ new.map Prod.fst) : x ∉ s.visited := by
    obtain ⟨e, he, rfl⟩ := List.mem_map.mp hx
    exact (hadds.fresh e he).2
  -- the first of the queue is the closest of what is queued
  have hfirst {u : ι} (hu : u ∈ s.queue) {n : ℕ} (hn : Within (Step next) root n u) : Within (Step next) root n current := by
    have hsorted := h.ordered.sublist h.suffix.sublist
    rw [hqueue, List.pairwise_cons] at hsorted
    obtain rfl | hu := List.mem_cons.mp (hqueue ▸ hu)
    · exact hn
    · exact hsorted.1 u hu n hn
  have hfar {x : ι} (hx : x ∈ new.map Prod.fst) {n : ℕ} (hn : Within (Step next) root n x) :
      ∃ m, Within (Step next) root m current ∧ m + 1 ≤ n := by
    obtain ⟨u, hu, m, hm, hwithin⟩ := h.frontier hn (hfresh hx)
    exact ⟨m, hfirst hu hwithin, hm⟩
  have hnear : ∀ x ∈ s'.visited, ∀ n, Within (Step next) root n current → Within (Step next) root (n + 1) x := by
    intro x hx n hn
    obtain hx | hx := (hadds.visited x).mp hx
    · exact h.near current (by rw [hqueue]; rfl) x hx n hn
    · exact hstep hx hn
  refine ⟨?_, ?_, ?_, ?_, ?_, ?_, ?_, ?_⟩
  · intro x
    rw [hadds.visited, horder, List.mem_append, ← h.visited]
  · rw [horder]
    refine h.nodup.append hadds.nodup (fun x hold hx ↦ ?_)
    exact hfresh hx ((h.visited x).mpr hold)
  · rw [hadds.queue, horder]
    have hsuffix : queue <:+ s.order root := (List.suffix_cons current queue).trans (hqueue ▸ h.suffix)
    obtain ⟨before, hbefore⟩ := hsuffix
    exact ⟨before, by rw [← List.append_assoc, hbefore]⟩
  · intro x hx
    obtain hx | hx := (hadds.visited x).mp hx
    · exact h.reached x hx
    · obtain ⟨n, hn⟩ := h.reached current hcurrent
      exact ⟨n + 1, hstep hx hn⟩
  · intro e he
    rw [hadds.found, List.mem_append] at he
    obtain he | he := he
    · obtain ⟨u, hu, hedge⟩ := h.sources e he
      exact ⟨u, (hadds.visited u).mpr (.inl hu), hedge⟩
    · exact ⟨current, (hadds.visited current).mpr (.inl hcurrent), (hadds.fresh e he).1⟩
  · intro x hx hnot e he
    rw [hadds.queue, List.mem_append, not_or] at hnot
    obtain hx | hx := (hadds.visited x).mp hx
    · by_cases hxc : x = current
      · subst hxc
        exact hadds.covered e he
      · have hqueued : x ∉ s.queue := by
          rw [hqueue, List.mem_cons, not_or]
          exact ⟨hxc, hnot.1⟩
        exact (hadds.visited e.1).mpr (.inl (h.closed x hx hqueued e he))
    · exact absurd hx hnot.2
  · rw [horder, List.pairwise_append]
    refine ⟨h.ordered, List.pairwise_of_forall_mem_list ?_, ?_⟩
    · intro x hx y hy n hn
      obtain ⟨m, hm, hle⟩ := hfar hy hn
      exact (hstep hx hm).mono hle
    · intro x hx y hy n hn
      obtain ⟨m, hm, hle⟩ := hfar hy hn
      exact (h.near current (by rw [hqueue]; rfl) x ((h.visited x).mpr hx) m hm).mono hle
  · intro first hhead x hx n hn
    refine hnear x hx n ?_
    have hmem : first ∈ s'.queue := List.mem_of_mem_head? hhead
    rw [hadds.queue, List.mem_append] at hmem
    obtain hmem | hmem := hmem
    · exact hfirst (hqueue ▸ List.mem_cons_of_mem current hmem) hn
    · obtain ⟨m, hm, hle⟩ := hfar hmem hn
      exact hm.mono (by omega)

theorem Inv.search [DecidableEq ι] {fuel : ℕ} (h : Inv next root s) (hs : search next fuel s = some s') :
    Inv next root s' ∧ s'.queue = [] := by
  induction fuel generalizing s with
  | zero =>
    unfold Bfs.search at hs
    split at hs
    · cases hs
      exact ⟨h, ‹_›⟩
    · cases hs
  | succ fuel ih =>
    unfold Bfs.search at hs
    cases hqueue : s.queue with
    | nil =>
      rw [hqueue] at hs
      cases hs
      exact ⟨h, hqueue⟩
    | cons current queue =>
      rw [hqueue] at hs
      obtain ⟨new, hadds⟩ := adds_foldl_visit (next current) { s with queue }
      exact ih (h.adds hqueue hadds) hs

/-- What a search finds: everything that can be reached but the root, once, at an edge from something that can be
reached, and the closest first. -/
structure Finds (next : ι → List (ι × L)) (root : ι) (found : List (ι × L)) : Prop where
  nodup : (found.map Prod.fst).Nodup
  reachable : ∀ x, x ∈ found.map Prod.fst ↔ x ≠ root ∧ Relation.ReflTransGen (Step next) root x
  sources : ∀ e ∈ found, ∃ u, Relation.ReflTransGen (Step next) root u ∧ e ∈ next u
  closestFirst : (found.map Prod.fst).Pairwise (Nearer (Step next) root)

theorem finds_search [DecidableEq ι] {fuel : ℕ} (hs : search next fuel (start root) = some s) :
    Finds next root s.found := by
  obtain ⟨h, hempty⟩ := (inv_start next root).search hs
  have hreached {x : ι} (hx : x ∈ s.visited) : Relation.ReflTransGen (Step next) root x :=
    exists_within_iff.mp (h.reached x hx)
  have hnodup := List.nodup_cons.mp h.nodup
  refine ⟨hnodup.2, fun x ↦ ⟨fun hx ↦ ⟨?_, ?_⟩, fun ⟨hne, hx⟩ ↦ ?_⟩, fun e he ↦ ?_, (List.pairwise_cons.mp h.ordered).2⟩
  · rintro rfl
    exact hnodup.1 hx
  · exact hreached ((h.visited x).mpr (List.mem_cons_of_mem root hx))
  · by_contra hnot
    obtain ⟨n, hn⟩ := exists_within_iff.mpr hx
    have hnew : x ∉ s.visited := by
      rw [h.visited, State.order, List.mem_cons, not_or]
      exact ⟨hne, hnot⟩
    obtain ⟨u, hu, -⟩ := h.frontier hn hnew
    rw [hempty] at hu
    cases hu
  · obtain ⟨u, hu, hedge⟩ := h.sources e he
    exact ⟨u, hreached hu, hedge⟩

end KubeCenter.Core.Bfs
