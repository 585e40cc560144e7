import Mathlib.Data.List.Basic
import Mathlib.Data.List.Forall2
import Mathlib.Data.List.Sort
import KubeCenter.Core.FirstDistinct

namespace KubeCenter.Core

/-! Runs of a system whose atomic steps are given by a partial function. -/

variable {σ α : Type}

/-- The state a list of actions leads to; `none` when one of them is not enabled. -/
def exec (step : σ → α → Option σ) : σ → List α → Option σ
  | s, [] => some s
  | s, a :: as => (step s a).bind (fun t ↦ exec step t as)

/-- `P` holds in every state a run passes through. -/
def Throughout (step : σ → α → Option σ) (P : σ → Prop) : σ → List α → Prop
  | s, [] => P s
  | s, a :: as => P s ∧ ∀ t, step s a = some t → Throughout step P t as

/-- Every step a run takes meets `ok`, a condition on the action and the state before it. -/
def EachStep (step : σ → α → Option σ) (ok : σ → α → Prop) : σ → List α → Prop
  | _, [] => True
  | s, a :: as => ∀ t, step s a = some t → ok s a ∧ EachStep step ok t as

variable {step : σ → α → Option σ} {P I : σ → Prop} {ok : σ → α → Prop}

theorem eachStep_cons {s : σ} {a : α} {as : List α} : EachStep step ok s (a :: as) ↔
    match step s a with
    | none => True
    | some t => ok s a ∧ EachStep step ok t as := by
  rw [EachStep]
  cases step s a <;> simp

instance decidableEachStep [∀ s a, Decidable (ok s a)] : (s : σ) → (as : List α) →
    Decidable (EachStep step ok s as)
  | _, [] => .isTrue trivial
  | s, a :: as =>
    haveI : Decidable (match step s a with
        | none => True
        | some t => ok s a ∧ EachStep step ok t as) :=
      match step s a with
      | none => .isTrue trivial
      | some t => haveI := decidableEachStep t as; inferInstanceAs (Decidable (_ ∧ _))
    decidable_of_iff' _ eachStep_cons

theorem exec_append (s : σ) (as bs : List α) :
    exec step s (as ++ bs) = (exec step s as).bind (fun t ↦ exec step t bs) := by
  induction as generalizing s with
  | nil => rfl
  | cons a as ih =>
    simp only [List.cons_append, exec]
    cases step s a with
    | none => rfl
    | some t => exact ih t

theorem exec_cons {s t : σ} {a : α} (h : step s a = some t) (as : List α) :
    exec step s (a :: as) = exec step t as := by
  simp only [exec, h, Option.bind_some]

theorem exec_singleton {s t : σ} {a : α} (h : step s a = some t) : exec step s [a] = some t := by
  simp only [exec, h, Option.bind_some]

theorem exec_concat {s t u : σ} {as : List α} {a : α}
    (h : exec step s as = some t) (ha : step t a = some u) :
    exec step s (as ++ [a]) = some u := by
  rw [exec_append, h]
  simp [exec, ha]

/-- The induction rule for runs all of whose steps meet a condition. -/
theorem EachStep.throughout (hstep : ∀ s a t, I s → ok s a → step s a = some t → I t)
    {s : σ} {as : List α} (h : EachStep step ok s as) (hs : I s) :
    Throughout step I s as := by
  induction as generalizing s with
  | nil => exact hs
  | cons a as ih =>
    refine ⟨hs, fun t ht ↦ ?_⟩
    obtain ⟨hok, htail⟩ := h t ht
    exact ih htail (hstep s a t hs hok ht)

theorem EachStep.mono {ok' : σ → α → Prop} (h : ∀ s a, ok s a → ok' s a) {s : σ} {as : List α}
    (hs : EachStep step ok s as) : EachStep step ok' s as := by
  induction as generalizing s with
  | nil => trivial
  | cons a as ih => exact fun t ht ↦ ⟨h s a (hs t ht).1, ih (hs t ht).2⟩

/-- What a condition gives where an invariant holds, it gives along the runs that keep it. -/
theorem EachStep.of_invariant {ok' : σ → α → Prop} (hstep : ∀ s a t, I s → ok s a → step s a = some t → I t)
    (h : ∀ s a, I s → ok s a → ok' s a) {s : σ} {as : List α} (hs : EachStep step ok s as) (hi : I s) :
    EachStep step ok' s as := by
  induction as generalizing s with
  | nil => trivial
  | cons a as ih =>
    intro t ht
    obtain ⟨hok, htail⟩ := hs t ht
    exact ⟨h s a hi hok, ih htail (hstep s a t hi hok ht)⟩

theorem EachStep.and {ok' : σ → α → Prop} {s : σ} {as : List α} (h : EachStep step ok s as)
    (h' : EachStep step ok' s as) : EachStep step (fun s a ↦ ok s a ∧ ok' s a) s as := by
  induction as generalizing s with
  | nil => trivial
  | cons a as ih => exact fun t ht ↦ ⟨⟨(h t ht).1, (h' t ht).1⟩, ih (h t ht).2 (h' t ht).2⟩

/-- Steps that meet a condition in any state, followed by a run that is looked at from where they end. -/
theorem EachStep.append_of_forall {s : σ} {as bs : List α} (has : ∀ a ∈ as, ∀ s, ok s a)
    (hbs : ∀ t, exec step s as = some t → EachStep step ok t bs) : EachStep step ok s (as ++ bs) := by
  induction as generalizing s with
  | nil => exact hbs s rfl
  | cons a as ih =>
    intro t ht
    refine ⟨has a List.mem_cons_self s, ih (fun b hb ↦ has b (List.mem_cons_of_mem a hb)) (fun u hu ↦ hbs u ?_)⟩
    rw [exec_cons ht, hu]

theorem eachStep_true (s : σ) (as : List α) : EachStep step (fun _ _ ↦ True) s as := by
  induction as generalizing s with
  | nil => trivial
  | cons a as ih => exact fun t _ ↦ ⟨trivial, ih t⟩

theorem throughout_of_step (hstep : ∀ s a t, I s → step s a = some t → I t)
    {s : σ} (hs : I s) (as : List α) : Throughout step I s as :=
  (eachStep_true s as).throughout (fun s a t hi _ ht ↦ hstep s a t hi ht) hs

theorem Throughout.mono (h : ∀ s, I s → P s) {s : σ} {as : List α}
    (ht : Throughout step I s as) : Throughout step P s as := by
  induction as generalizing s with
  | nil => exact h s ht
  | cons a as ih => exact ⟨h s ht.1, fun t hs ↦ ih (ht.2 t hs)⟩

theorem Throughout.head {s : σ} {as : List α} (h : Throughout step P s as) : P s := by
  cases as with
  | nil => exact h
  | cons a as => exact h.1

theorem Throughout.last {s t : σ} {as : List α} (h : Throughout step P s as)
    (ht : exec step s as = some t) : P t := by
  induction as generalizing s with
  | nil => cases ht; exact h
  | cons a as ih =>
    obtain ⟨u, hu, ht⟩ := Option.bind_eq_some_iff.mp ht
    exact ih (h.2 u hu) ht

/-- A condition is exact when it keeps an invariant that gives `P`, and a step that breaks it breaks `P`: then, in a run
whose steps are all `allowed`, `P` holds throughout iff they all meet the condition. -/
theorem throughout_iff_eachStep_of {allowed : σ → α → Prop} (hP : ∀ s, I s → P s)
    (hgood : ∀ s a t, I s → allowed s a → ok s a → step s a = some t → I t)
    (hbad : ∀ s a t, I s → allowed s a → ¬ ok s a → step s a = some t → ¬ P t)
    {s : σ} (hs : I s) {as : List α} (has : EachStep step allowed s as) :
    Throughout step P s as ↔ EachStep step ok s as := by
  constructor
  · intro h
    induction as generalizing s with
    | nil => trivial
    | cons a as ih =>
      intro t ht
      obtain ⟨hallowed, hrest⟩ := has t ht
      have htail := h.2 t ht
      have hok : ok s a := by
        by_contra hn
        exact hbad s a t hs hallowed hn ht htail.head
      exact ⟨hok, ih (hgood s a t hs hallowed hok ht) hrest htail⟩
  · intro h
    exact ((has.and h).throughout (fun s a t hi ha ↦ hgood s a t hi ha.1 ha.2) hs).mono hP

theorem throughout_iff_eachStep (hP : ∀ s, I s → P s)
    (hgood : ∀ s a t, I s → ok s a → step s a = some t → I t)
    (hbad : ∀ s a t, I s → ¬ ok s a → step s a = some t → ¬ P t)
    {s : σ} (hs : I s) (as : List α) :
    Throughout step P s as ↔ EachStep step ok s as :=
  throughout_iff_eachStep_of hP (fun s a t hi _ ↦ hgood s a t hi) (fun s a t hi _ ↦ hbad s a t hi) hs
    (eachStep_true s as)

/-- The rule for a loop that may fail: the relation each turn keeps, a loop that ends well keeps too. `N` is what a
turn needs of its item; no turn may spoil it for the items to come. -/
theorem foldlM_related {ε β : Type} {f : σ → β → Except ε σ} {R : σ → σ → Prop} {N : σ → β → Prop}
    (hrefl : ∀ s, R s s) (htrans : ∀ s t u, R s t → R t u → R s u)
    (hf : ∀ s b t, N s b → f s b = .ok t → R s t ∧ ∀ b', N s b' → N t b')
    {l : List β} {s t : σ} (hl : ∀ b ∈ l, N s b) (ht : l.foldlM f s = .ok t) : R s t := by
  induction l generalizing s with
  | nil =>
    cases ht
    exact hrefl _
  | cons b l ih =>
    rw [List.foldlM_cons] at ht
    cases hb : f s b with
    | error e =>
      rw [hb] at ht
      contradiction
    | ok u =>
      rw [hb] at ht
      obtain ⟨hrel, hneed⟩ := hf s b u (hl b List.mem_cons_self) hb
      exact htrans s u t hrel (ih (fun b' hb' ↦ hneed b' (hl b' (List.mem_cons_of_mem b hb'))) ht)

end KubeCenter.Core

namespace KubeCenter.Core

/-! Two runs compared step by step, and the list operations under which lists stay related item by item. -/

open List (Forall₂)

section Runs

variable {σ α β γ : Type} {step : σ → α → Option σ} {R : σ → σ → Prop} {D : α → α → Prop} {S : β → β → Prop}

theorem rel_bind {o o' : Option α} {f f' : α → Option β} (h : Option.Rel D o o')
    (hf : ∀ x x', D x x' → Option.Rel S (f x) (f' x')) : Option.Rel S (o.bind f) (o'.bind f') := by
  cases h with
  | none => exact .none
  | some hx => exact hf _ _ hx

theorem rel_map {o o' : Option α} {f f' : α → β} (h : Option.Rel D o o') (hf : ∀ x x', D x x' → S (f x) (f' x')) :
    Option.Rel S (o.map f) (o'.map f') := by
  cases h with
  | none => exact .none
  | some hx => exact .some (hf _ _ hx)

theorem map_eq_of_rel {o o' : Option α} {f f' : α → β} (h : Option.Rel D o o') (hf : ∀ x x', D x x' → f x = f' x') :
    o.map f = o'.map f' := by
  cases h with
  | none => rfl
  | some hx => exact congrArg some (hf _ _ hx)

/-- Where a schedule leads: an action that is not enabled is passed over. -/
def schedule (step : σ → α → Option σ) (s : σ) (as : List α) : σ := as.foldl (fun s a ↦ (step s a).getD s) s

/-- A relation that any two related actions keep, enabled in both states or in none, is there after related schedules. -/
theorem schedule_rel (hstep : ∀ s s' a a', R s s' → D a a' → Option.Rel R (step s a) (step s' a')) {s s' : σ}
    {as as' : List α} (hs : R s s') (has : Forall₂ D as as') : R (schedule step s as) (schedule step s' as') := by
  induction has generalizing s s' with
  | nil => exact hs
  | @cons a a' as as' ha _ ih =>
    have hnext : R ((step s a).getD s) ((step s' a').getD s') := by
      have hrel := hstep _ _ _ _ hs ha
      generalize step s a = t, step s' a' = t' at hrel
      cases hrel with
      | none => exact hs
      | some ht => exact ht
    exact ih hnext

end Runs

section Lists

variable {α β κ : Type} {S : α → α → Prop} {l l' : List α} {p p' : α → Bool}

theorem any_eq_of_forall₂ (h : Forall₂ S l l') (hp : ∀ x x', S x x' → p x = p' x') : l.any p = l'.any p' := by
  induction h with
  | nil => rfl
  | cons hx _ ih => rw [List.any_cons, List.any_cons, hp _ _ hx, ih]

theorem forall₂_getElem? (h : Forall₂ S l l') (i : ℕ) : Option.Rel S l[i]? l'[i]? := by
  induction h generalizing i with
  | nil => exact .none
  | cons hx _ ih =>
    cases i with
    | zero => exact .some hx
    | succ i => simpa using ih i

theorem forall₂_eraseIdx (h : Forall₂ S l l') (i : ℕ) : Forall₂ S (l.eraseIdx i) (l'.eraseIdx i) := by
  induction h generalizing i with
  | nil => exact .nil
  | cons hx hl ih =>
    cases i with
    | zero => exact hl
    | succ i => exact .cons hx (ih i)

theorem forall₂_getLast? (h : Forall₂ S l l') : Option.Rel S l.getLast? l'.getLast? := by
  have hreverse := forall₂_getElem? (List.forall₂_reverse_iff.mpr h) 0
  rwa [← List.head?_eq_getElem?, ← List.head?_eq_getElem?, List.head?_reverse, List.head?_reverse] at hreverse

variable {r r' : α → α → Prop} [DecidableRel r] [DecidableRel r']

theorem forall₂_orderedInsert (hr : ∀ x x' y y', S x x' → S y y' → (r x y ↔ r' x' y')) {x x' : α} (hx : S x x')
    (h : Forall₂ S l l') : Forall₂ S (l.orderedInsert r x) (l'.orderedInsert r' x') := by
  induction h with
  | nil => exact .cons hx .nil
  | @cons y y' l l' hy hl ih =>
    rw [List.orderedInsert_cons, List.orderedInsert_cons]
    by_cases hle : r x y
    · rw [if_pos hle, if_pos ((hr _ _ _ _ hx hy).mp hle)]
      exact .cons hx (.cons hy hl)
    · rw [if_neg hle, if_neg (mt (hr _ _ _ _ hx hy).mpr hle)]
      exact .cons hy ih

theorem forall₂_insertionSort (hr : ∀ x x' y y', S x x' → S y y' → (r x y ↔ r' x' y')) (h : Forall₂ S l l') :
    Forall₂ S (l.insertionSort r) (l'.insertionSort r') := by
  induction h with
  | nil => exact .nil
  | cons hx _ ih => exact forall₂_orderedInsert hr hx ih

theorem filter_orderedInsert [IsTrans α r] (x : α) (h : l.Pairwise r) :
    (l.orderedInsert r x).filter p = if p x then (l.filter p).orderedInsert r x else l.filter p := by
  induction l with
  | nil =>
    rw [List.orderedInsert_nil, List.filter_singleton]
    cases p x <;> rfl
  | cons y l ih =>
    obtain ⟨hy, hl⟩ := List.pairwise_cons.mp h
    rw [List.orderedInsert_cons]
    by_cases hle : r x y
    · have hfirst : ((y :: l).filter p).orderedInsert r x = x :: (y :: l).filter p := by
        cases hfilter : (y :: l).filter p with
        | nil => rfl
        | cons z zs =>
          have hz : z ∈ y :: l := List.mem_of_mem_filter (hfilter ▸ List.mem_cons_self)
          refine List.orderedInsert_cons_of_le r _ ?_
          rcases List.mem_cons.mp hz with rfl | hz
          · exact hle
          · exact IsTrans.trans x y z hle (hy z hz)
      rw [if_pos hle, List.filter_cons, hfirst]
    · rw [if_neg hle, List.filter_cons, List.filter_cons, ih hl]
      cases p y <;> cases p x <;> simp [hle]

/-- A stable sort of the items of one kind is what a stable sort leaves of them. -/
theorem filter_insertionSort [IsTrans α r] [Std.Total r] (l : List α) :
    (l.insertionSort r).filter p = (l.filter p).insertionSort r := by
  induction l with
  | nil => rfl
  | cons x l ih =>
    rw [List.insertionSort_cons, filter_orderedInsert x (List.pairwise_insertionSort r l), ih, List.filter_cons]
    cases p x <;> rfl

variable [DecidableEq κ] {key key' : α → κ}

theorem filter_collect (hp : ∀ x y, key x = key y → p x = p y) (acc l : List α) :
    (collect key acc l).filter p = collect key (acc.filter p) (l.filter p) := by
  induction l generalizing acc with
  | nil => rfl
  | cons x l ih =>
    rw [show collect key acc (x :: l) = collect key (insertNew key acc x) l from rfl, ih, List.filter_cons]
    cases hx : p x with
    | false =>
      by_cases hold : key x ∈ acc.map key
      · rw [insertNew_old hold]
        rfl
      · rw [insertNew_new hold, List.filter_append, List.filter_singleton, hx]
        simp
    | true =>
      have hmem : key x ∈ (acc.filter p).map key ↔ key x ∈ acc.map key := by
        simp only [List.mem_map, List.mem_filter]
        refine exists_congr (fun y ↦ and_congr_left (fun hy ↦ and_iff_left ?_))
        rw [hp y x hy, hx]
      change _ = collect key (insertNew key (acc.filter p) x) (l.filter p)
      by_cases hold : key x ∈ acc.map key
      · rw [insertNew_old hold, insertNew_old (hmem.mpr hold)]
      · rw [insertNew_new hold, insertNew_new (mt hmem.mp hold), List.filter_append, List.filter_singleton, hx]
        rfl

theorem filter_distinctBy (hp : ∀ x y, key x = key y → p x = p y) (l : List α) :
    (distinctBy key l).filter p = distinctBy key (l.filter p) := filter_collect hp [] l

theorem forall₂_collect (hkey : ∀ x x' y y', S x x' → S y y' → (key x = key y ↔ key' x' = key' y')) {acc acc' : List α}
    (hacc : Forall₂ S acc acc') (h : Forall₂ S l l') : Forall₂ S (collect key acc l) (collect key' acc' l') := by
  induction h generalizing acc acc' with
  | nil => exact hacc
  | @cons x x' l l' hx _ ih =>
    have hmem : key x ∈ acc.map key ↔ key' x' ∈ acc'.map key' := by
      clear ih
      induction hacc with
      | nil => simp
      | cons hy _ ihacc => rw [List.map_cons, List.map_cons, List.mem_cons, List.mem_cons, hkey _ _ _ _ hx hy, ihacc]
    refine ih ?_
    by_cases hold : key x ∈ acc.map key
    · rw [insertNew_old hold, insertNew_old (hmem.mp hold)]
      exact hacc
    · rw [insertNew_new hold, insertNew_new (mt hmem.mpr hold)]
      exact List.rel_append hacc (.cons hx .nil)

theorem forall₂_distinctBy (hkey : ∀ x x' y y', S x x' → S y y' → (key x = key y ↔ key' x' = key' y'))
    (h : Forall₂ S l l') : Forall₂ S (distinctBy key l) (distinctBy key' l') := forall₂_collect hkey .nil h

end Lists

end KubeCenter.Core
