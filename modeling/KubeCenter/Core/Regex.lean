import Mathlib.Data.List.Forall2
import Mathlib.Logic.Function.Basic

/-! Regular expressions that are matched by backtracking, and replacement of all their matches. -/

namespace KubeCenter.Core

/-- A quantifier without a bound is over characters; any other is written out. -/
inductive Regex
  | empty
  | char (p : Char → Bool)
  | many (min : ℕ) (p : Char → Bool)
  | seq (r q : Regex)
  | alt (r q : Regex)
  | group (i : ℕ) (r : Regex)
  | wordBoundary

/-- A place in a text: what is before it, from its end, and what is behind it; with the groups that are captured. -/
structure Cursor where
  before : List Char := []
  after : List Char
  groups : ℕ → Option (List Char) := fun _ ↦ none

namespace Regex

def isWordChar (c : Char) : Bool :=
  'a' ≤ c && c ≤ 'z' || 'A' ≤ c && c ≤ 'Z' || '0' ≤ c && c ≤ '9' || c == '_'

def startsWord (l : List Char) : Bool := l.head?.any isWordChar

def text (s : String) : Regex := s.toList.foldr (fun c r ↦ seq (char (· == c)) r) empty

/-- Where a greedy quantifier may stop: late places first. -/
def eats (p : Char → Bool) (groups : ℕ → Option (List Char)) : ℕ → List Char → List Char → List Cursor
  | min, before, [] => if min = 0 then [⟨before, [], groups⟩] else []
  | min, before, c :: after =>
    (if p c then eats p groups (min - 1) (c :: before) after else []) ++
      if min = 0 then [⟨before, c :: after, groups⟩] else []

/-- Where a match may end, in the order in which backtracking gets there. -/
def run : Regex → Cursor → List Cursor
  | empty, c => [c]
  | char p, c =>
    match c.after with
    | a :: after => if p a then [⟨a :: c.before, after, c.groups⟩] else []
    | [] => []
  | many min p, c => eats p c.groups min c.before c.after
  | seq r q, c => (r.run c).flatMap q.run
  | alt r q, c => r.run c ++ q.run c
  | group i r, c =>
    (r.run c).map (fun d ↦
      { d with groups := Function.update d.groups i (some (c.after.take (c.after.length - d.after.length))) })
  | wordBoundary, c => if startsWord c.before != startsWord c.after then [c] else []

/-- `w` is what `r` matches between `b`, which is written from its end, and `a`. -/
def Matches : Regex → List Char → List Char → List Char → Prop
  | empty, _, w, _ => w = []
  | char p, _, w, _ => ∃ c, p c = true ∧ w = [c]
  | many min p, _, w, _ => min ≤ w.length ∧ ∀ c ∈ w, p c = true
  | seq r q, b, w, a => ∃ u v, w = u ++ v ∧ r.Matches b u (v ++ a) ∧ q.Matches (u.reverse ++ b) v a
  | alt r q, b, w, a => r.Matches b w a ∨ q.Matches b w a
  | group _ r, b, w, a => r.Matches b w a
  | wordBoundary, b, w, a => w = [] ∧ startsWord b ≠ startsWord a

variable {r q : Regex} {c d : Cursor} {p : Char → Bool} {b w a : List Char} {min i : ℕ}

theorem eats_sound {groups : ℕ → Option (List Char)} (h : d ∈ eats p groups min b a) :
    ∃ w, a = w ++ d.after ∧ d.before = w.reverse ++ b ∧ d.groups = groups ∧ min ≤ w.length ∧ ∀ x ∈ w, p x = true := by
  induction a generalizing min b with
  | nil =>
    rw [eats] at h
    split at h
    · next hmin =>
      obtain rfl := List.mem_singleton.mp h
      exact ⟨[], rfl, rfl, rfl, Nat.le_of_eq hmin, fun x hx ↦ absurd hx List.not_mem_nil⟩
    · exact absurd h List.not_mem_nil
  | cons x a ih =>
    rw [eats] at h
    obtain h | h := List.mem_append.mp h
    · split at h
      · next hx =>
        obtain ⟨w, ha, hb, hg, hmin, hw⟩ := ih h
        refine ⟨x :: w, congrArg (x :: ·) ha, ?_, hg, ?_, List.forall_mem_cons.mpr ⟨hx, hw⟩⟩
        · rw [hb, List.reverse_cons, List.append_assoc]
          rfl
        · rw [List.length_cons]
          omega
      · exact absurd h List.not_mem_nil
    · split at h
      · next hmin =>
        obtain rfl := List.mem_singleton.mp h
        exact ⟨[], rfl, rfl, rfl, Nat.le_of_eq hmin, fun y hy ↦ absurd hy List.not_mem_nil⟩
      · exact absurd h List.not_mem_nil

theorem eats_complete (groups : ℕ → Option (List Char)) (hmin : min ≤ w.length) (hw : ∀ x ∈ w, p x = true)
    (b a : List Char) : ⟨w.reverse ++ b, a, groups⟩ ∈ eats p groups min b (w ++ a) := by
  induction w generalizing min b with
  | nil =>
    obtain rfl : min = 0 := Nat.le_zero.mp hmin
    cases a with
    | nil => exact List.mem_singleton.mpr rfl
    | cons x a =>
      rw [List.nil_append, eats]
      exact List.mem_append_right _ (List.mem_singleton.mpr rfl)
  | cons x w ih =>
    rw [List.cons_append, eats, if_pos (hw x List.mem_cons_self), List.reverse_cons, List.append_assoc]
    refine List.mem_append_left _ (ih ?_ (fun y hy ↦ hw y (List.mem_cons_of_mem x hy)) (x :: b))
    rw [List.length_cons] at hmin
    omega

theorem run_sound (h : d ∈ r.run c) :
    ∃ w, c.after = w ++ d.after ∧ d.before = w.reverse ++ c.before ∧ r.Matches c.before w d.after := by
  induction r generalizing c d with
  | empty =>
    obtain rfl := List.mem_singleton.mp h
    exact ⟨[], rfl, rfl, rfl⟩
  | char p =>
    rw [run] at h
    split at h
    · next x after hc =>
      split at h
      · next hx =>
        obtain rfl := List.mem_singleton.mp h
        exact ⟨[x], hc, rfl, x, hx, rfl⟩
      · exact absurd h List.not_mem_nil
    · exact absurd h List.not_mem_nil
  | many min p =>
    obtain ⟨w, ha, hb, -, hmin, hw⟩ := eats_sound h
    exact ⟨w, ha, hb, hmin, hw⟩
  | seq r q ihr ihq =>
    obtain ⟨e, he, hd⟩ := List.mem_flatMap.mp h
    obtain ⟨u, hua, hub, hu⟩ := ihr he
    obtain ⟨v, hva, hvb, hv⟩ := ihq hd
    refine ⟨u ++ v, ?_, ?_, u, v, rfl, hva ▸ hu, hub ▸ hv⟩
    · rw [hua, hva, List.append_assoc]
    · rw [hvb, hub, List.reverse_append, List.append_assoc]
  | alt r q ihr ihq =>
    obtain h | h := List.mem_append.mp h
    · obtain ⟨w, ha, hb, hw⟩ := ihr h
      exact ⟨w, ha, hb, .inl hw⟩
    · obtain ⟨w, ha, hb, hw⟩ := ihq h
      exact ⟨w, ha, hb, .inr hw⟩
  | group i r ih =>
    obtain ⟨e, he, rfl⟩ := List.mem_map.mp h
    obtain ⟨w, ha, hb, hw⟩ := ih he
    exact ⟨w, ha, hb, hw⟩
  | wordBoundary =>
    rw [run] at h
    split at h
    · next hboundary =>
      obtain rfl := List.mem_singleton.mp h
      exact ⟨[], rfl, rfl, rfl, bne_iff_ne.mp hboundary⟩
    · exact absurd h List.not_mem_nil

theorem run_complete (h : r.Matches b w a) (groups : ℕ → Option (List Char)) :
    ∃ d ∈ r.run ⟨b, w ++ a, groups⟩, d.after = a ∧ d.before = w.reverse ++ b := by
  induction r generalizing b w a groups with
  | empty =>
    obtain rfl : w = [] := h
    exact ⟨_, List.mem_singleton.mpr rfl, rfl, rfl⟩
  | char p =>
    obtain ⟨x, hx, rfl⟩ := h
    refine ⟨⟨x :: b, a, groups⟩, ?_, rfl, rfl⟩
    show _ ∈ if p x = true then _ else _
    rw [if_pos hx]
    exact List.mem_singleton.mpr rfl
  | many min p => exact ⟨_, eats_complete groups h.1 h.2 b a, rfl, rfl⟩
  | seq r q ihr ihq =>
    obtain ⟨u, v, rfl, hu, hv⟩ := h
    obtain ⟨e, he, hea, heb⟩ := ihr hu groups
    rw [← heb] at hv
    obtain ⟨d, hd, hda, hdb⟩ := ihq hv e.groups
    refine ⟨d, List.mem_flatMap.mpr ⟨e, List.append_assoc u v a ▸ he, ?_⟩, hda, ?_⟩
    · rw [← hea] at hd
      exact hd
    · rw [hdb, heb, List.reverse_append, List.append_assoc]
  | alt r q ihr ihq =>
    obtain h | h := h
    · obtain ⟨d, hd, hda⟩ := ihr h groups
      exact ⟨d, List.mem_append_left _ hd, hda⟩
    · obtain ⟨d, hd, hda⟩ := ihq h groups
      exact ⟨d, List.mem_append_right _ hd, hda⟩
  | group i r ih =>
    obtain ⟨d, hd, hda, hdb⟩ := ih h groups
    exact ⟨_, List.mem_map.mpr ⟨d, hd, rfl⟩, hda, hdb⟩
  | wordBoundary =>
    obtain ⟨rfl, hboundary⟩ := h
    refine ⟨⟨b, a, groups⟩, ?_, rfl, rfl⟩
    rw [run, List.nil_append, if_pos (bne_iff_ne.mpr hboundary)]
    exact List.mem_singleton.mpr rfl

/-- The first way through a sequence is the first way on from some place where its head may end. -/
theorem exists_of_head?_seq (h : ((seq r q).run c).head? = some d) : ∃ e ∈ r.run c, (q.run e).head? = some d := by
  rw [run, List.head?_flatMap] at h
  exact List.exists_of_findSome?_eq_some h

/-- A greedy quantifier stops first where it has to. -/
theorem eats_longest {groups : ℕ → Option (List Char)} (h : (eats p groups min b a).head? = some d) :
    d.after.head?.any p = false := by
  induction a generalizing min b with
  | nil =>
    rw [eats] at h
    split at h
    · cases h
      rfl
    · cases h
  | cons x a ih =>
    rw [eats, List.head?_append] at h
    split at h
    · next hx =>
      cases hrest : (eats p groups (min - 1) (x :: b) a).head? with
      | some e =>
        rw [hrest] at h
        cases h
        exact ih hrest
      | none =>
        -- some place is always left for what is eaten in full
        rw [hrest] at h
        split at h
        · next hmin =>
          subst hmin
          have hmem := eats_complete (p := p) (w := []) groups (Nat.le_refl 0) (fun y hy ↦ absurd hy List.not_mem_nil)
            (x :: b) a
          rw [List.head?_eq_none_iff] at hrest
          rw [List.nil_append, hrest] at hmem
          exact absurd hmem List.not_mem_nil
        · cases h
    · next hx =>
      split at h
      · cases h
        exact Bool.eq_false_iff.mpr hx
      · cases h

/-- The match that backtracking comes to first. -/
def first (r : Regex) (b a : List Char) : Option Cursor := (r.run ⟨b, a, fun _ ↦ none⟩).head?

/-- Every match from left to right is replaced by `f` of its groups; `skip` characters are of the last one. A match of
nothing is put before the next character. -/
def replaceFrom (r : Regex) (f : (ℕ → Option (List Char)) → List Char) : ℕ → List Char → List Char → List Char
  | 0, b, c :: a =>
    match r.first b (c :: a) with
    | none => c :: r.replaceFrom f 0 (c :: b) a
    | some d =>
      match (c :: a).length - d.after.length with
      | 0 => f d.groups ++ c :: r.replaceFrom f 0 (c :: b) a
      | skip + 1 => f d.groups ++ r.replaceFrom f skip (c :: b) a
  | 0, b, [] =>
    match r.first b [] with
    | none => []
    | some d => f d.groups
  | skip + 1, b, c :: a => r.replaceFrom f skip (c :: b) a
  | _ + 1, _, [] => []

def replaceAllMapped (r : Regex) (f : (ℕ → Option (List Char)) → List Char) (s : List Char) : List Char :=
  r.replaceFrom f 0 [] s

theorem first_eq_none : r.first b a = none ↔ ∀ w a', a = w ++ a' → ¬ r.Matches b w a' := by
  rw [first, List.head?_eq_none_iff]
  constructor
  · rintro h w a' rfl hw
    obtain ⟨d, hd, -⟩ := run_complete hw (fun _ ↦ none)
    rw [h] at hd
    exact absurd hd List.not_mem_nil
  · intro h
    rw [List.eq_nil_iff_forall_not_mem]
    intro d hd
    obtain ⟨w, ha, -, hw⟩ := run_sound hd
    exact h w d.after ha hw

theorem first_eq_some (h : r.first b a = some d) :
    ∃ w, a = w ++ d.after ∧ d.before = w.reverse ++ b ∧ r.Matches b w d.after :=
  run_sound (List.mem_of_mem_head? h)

theorem matches_of_first (h : r.first b (w ++ a) = some d) (hafter : d.after = a) : r.Matches b w a := by
  obtain ⟨x, hx, -, hmatch⟩ := first_eq_some h
  subst hafter
  rwa [List.append_cancel_right hx]

theorem first_of_wordBoundary (h : (seq wordBoundary r).first b a = some d) : r.first b a = some d := by
  obtain ⟨e, he, hd⟩ := exists_of_head?_seq h
  rw [run] at he
  split at he
  · obtain rfl := List.mem_singleton.mp he
    exact hd
  · exact absurd he List.not_mem_nil

/-- How the text `s` behind `b` becomes `out`. -/
inductive Replaced (r : Regex) (f : (ℕ → Option (List Char)) → List Char) :
    List Char → List Char → List Char → Prop
  | nil (b : List Char) : Replaced r f b [] []
  | kept {b s out : List Char} {c : Char} (hnone : r.first b (c :: s) = none) (hrest : Replaced r f (c :: b) s out) :
      Replaced r f b (c :: s) (c :: out)
  | hit {b w s out : List Char} {d : Cursor} (hfirst : r.first b (w ++ s) = some d) (hafter : d.after = s)
      (hne : w ≠ []) (hrest : Replaced r f (w.reverse ++ b) s out) :
      Replaced r f b (w ++ s) (f d.groups ++ out)

variable {f : (ℕ → Option (List Char)) → List Char} {s out : List Char}

theorem replaceFrom_skip (r : Regex) (f : (ℕ → Option (List Char)) → List Char) (w b a : List Char) :
    r.replaceFrom f w.length b (w ++ a) = r.replaceFrom f 0 (w.reverse ++ b) a := by
  induction w generalizing b with
  | nil => rfl
  | cons c w ih =>
    rw [List.length_cons, List.cons_append, replaceFrom, ih, List.reverse_cons, List.append_assoc]
    rfl

/-- The replacement of an expression that does not match nothing, piece by piece. -/
theorem replaced_replaceFrom (hne : ∀ b a, ¬ r.Matches b [] a) (f : (ℕ → Option (List Char)) → List Char)
    (b s : List Char) : Replaced r f b s (r.replaceFrom f 0 b s) := by
  induction hs : s.length using Nat.strongRecOn generalizing b s with
  | ind n ih =>
    subst hs
    cases s with
    | nil =>
      have hnone : r.first b [] = none := by
        rw [first_eq_none]
        intro w a' ha
        obtain ⟨rfl, rfl⟩ := List.append_eq_nil_iff.mp ha.symm
        exact hne b []
      rw [replaceFrom, hnone]
      exact .nil b
    | cons c s =>
      rw [replaceFrom]
      cases hfirst : r.first b (c :: s) with
      | none => exact .kept hfirst (ih s.length (Nat.lt_succ_self _) (c :: b) s rfl)
      | some d =>
        obtain ⟨w, ha, -, hw⟩ := first_eq_some hfirst
        cases w with
        | nil => exact absurd hw (hne b d.after)
        | cons x w =>
          rw [List.cons_append] at ha
          obtain ⟨rfl, rfl⟩ := List.cons.inj ha
          have hlength : (c :: (w ++ d.after)).length - d.after.length = w.length + 1 := by
            rw [List.length_cons, List.length_append]
            omega
          simp only [hlength, replaceFrom_skip]
          have hrest := ih d.after.length (by rw [List.length_cons, List.length_append]; omega)
            ((c :: w).reverse ++ b) d.after rfl
          rw [List.reverse_cons, List.append_assoc] at hrest
          refine Replaced.hit (w := c :: w) hfirst rfl (List.cons_ne_nil c w) ?_
          rw [List.reverse_cons, List.append_assoc]
          exact hrest

/-- The groups that a match may capture. -/
def captures : Regex → List ℕ
  | empty | char _ | many _ _ | wordBoundary => []
  | seq r q | alt r q => r.captures ++ q.captures
  | group i r => i :: r.captures

theorem run_groups (h : d ∈ r.run c) (hi : i ∉ r.captures) : d.groups i = c.groups i := by
  induction r generalizing c d with
  | empty => rw [List.mem_singleton.mp h]
  | char p =>
    rw [run] at h
    split at h
    · split at h
      · rw [List.mem_singleton.mp h]
      · exact absurd h List.not_mem_nil
    · exact absurd h List.not_mem_nil
  | many min p =>
    obtain ⟨-, -, -, hgroups, -⟩ := eats_sound h
    rw [hgroups]
  | seq r q ihr ihq =>
    obtain ⟨hr, hq⟩ := not_or.mp (mt List.mem_append.mpr hi)
    obtain ⟨e, he, hd⟩ := List.mem_flatMap.mp h
    exact (ihq hd hq).trans (ihr he hr)
  | alt r q ihr ihq =>
    obtain ⟨hr, hq⟩ := not_or.mp (mt List.mem_append.mpr hi)
    obtain h | h := List.mem_append.mp h
    · exact ihr h hr
    · exact ihq h hq
  | group j r ih =>
    obtain ⟨hij, hr⟩ := not_or.mp (mt List.mem_cons.mpr hi)
    obtain ⟨e, he, rfl⟩ := List.mem_map.mp h
    exact (Function.update_of_ne hij ..).trans (ih he hr)
  | wordBoundary =>
    rw [run] at h
    split at h
    · rw [List.mem_singleton.mp h]
    · exact absurd h List.not_mem_nil

/-- What a group at the head of a sequence captures. -/
theorem run_group_seq (h : d ∈ (seq (group i r) q).run c) (hi : i ∉ q.captures) :
    ∃ u v, c.after = u ++ (v ++ d.after) ∧ r.Matches c.before u (v ++ d.after) ∧
      q.Matches (u.reverse ++ c.before) v d.after ∧ d.groups i = some u := by
  obtain ⟨e', he', hd⟩ := List.mem_flatMap.mp h
  obtain ⟨e, he, rfl⟩ := List.mem_map.mp he'
  obtain ⟨u, hua, hub, hu⟩ := run_sound he
  obtain ⟨v, hva, -, hv⟩ := run_sound hd
  have hva : e.after = v ++ d.after := hva
  have hv : q.Matches e.before v d.after := hv
  refine ⟨u, v, ?_, hva ▸ hu, hub ▸ hv, ?_⟩
  · rw [hua, hva]
  · rw [run_groups hd hi]
    show Function.update e.groups i _ i = some u
    rw [Function.update_self, hua, List.length_append, Nat.add_sub_cancel, List.take_left']
    rfl

theorem first_group_seq (h : (seq (group i r) q).first b (w ++ a) = some d) (hafter : d.after = a)
    (hi : i ∉ q.captures) :
    ∃ u v, w = u ++ v ∧ r.Matches b u (v ++ a) ∧ q.Matches (u.reverse ++ b) v a ∧ d.groups i = some u := by
  obtain ⟨u, v, hw, hu, hv, hgroup⟩ := run_group_seq (List.mem_of_mem_head? h) hi
  subst hafter
  refine ⟨u, v, ?_, hu, hv, hgroup⟩
  have hw : w ++ d.after = u ++ (v ++ d.after) := hw
  rw [← List.append_assoc] at hw
  exact List.append_cancel_right hw

/-- A replacement whose replaced pieces are known: a piece `w` between `b` and `a` becomes `p ++ j`. -/
inductive Pieces (r : Regex) (H : List Char → List Char → List Char → List Char → List Char → Prop) :
    List Char → List Char → List Char → Prop
  | nil (b : List Char) : Pieces r H b [] []
  | kept {b s out : List Char} {c : Char} (hnone : r.first b (c :: s) = none) (hrest : Pieces r H (c :: b) s out) :
      Pieces r H b (c :: s) (c :: out)
  | hit {b w a p j out : List Char} (hhit : H b w a p j) (hrest : Pieces r H (w.reverse ++ b) a out) :
      Pieces r H b (w ++ a) (p ++ j ++ out)

variable {H : List Char → List Char → List Char → List Char → List Char → Prop}

theorem Replaced.pieces (h : Replaced r f b s out)
    (hparts : ∀ b w a d, r.first b (w ++ a) = some d → d.after = a → w ≠ [] →
      ∃ p j, f d.groups = p ++ j ∧ H b w a p j) : Pieces r H b s out := by
  induction h with
  | nil b => exact .nil b
  | kept hnone _ ih => exact .kept hnone ih
  | hit hfirst hafter hne _ ih =>
    obtain ⟨p, j, hf, hhit⟩ := hparts _ _ _ _ hfirst hafter hne
    rw [hf]
    exact .hit hhit ih

/-- What is marked as put in: it begins and ends with a mark. -/
structure Marked (mark : Char → Bool) (j : List Char) : Prop where
  head : ∃ c, j.head? = some c ∧ mark c = true
  last : ∃ c, j.getLast? = some c ∧ mark c = true

/-- Each piece keeps a part of what it replaces, and puts in something that is marked. -/
structure Marks (mark : Char → Bool) (H : List Char → List Char → List Char → List Char → List Char → Prop) :
    Prop where
  nonempty : ∀ {b w a p j}, H b w a p j → w ≠ []
  part : ∀ {b w a p j}, H b w a p j → p <+: w
  marked : ∀ {b w a p j}, H b w a p j → Marked mark j

variable {mark : Char → Bool} {u v o o' p' j : List Char}

/-- What comes before a mark does not reach into what is put in. -/
theorem Marked.isPrefix (hj : Marked mark j) (hv : ∀ c ∈ v, mark c = false) (h : v ++ o = p' ++ (j ++ o')) :
    v <+: p' := by
  obtain ⟨c, hc, hmark⟩ := hj.head
  obtain ⟨j, rfl⟩ : ∃ j', j = c :: j' := by
    cases j with
    | nil => cases hc
    | cons x j =>
      cases hc
      exact ⟨j, rfl⟩
  obtain ⟨x, hx, -⟩ | ⟨x, hx, ho⟩ := List.append_eq_append_iff.mp h
  · exact ⟨x, hx.symm⟩
  · cases x with
    | nil => exact ⟨[], by rw [hx]; simp⟩
    | cons y x =>
      obtain ⟨rfl, -⟩ := List.cons.inj ho
      have hfalse := hv c (hx ▸ List.mem_append_right _ List.mem_cons_self)
      exact absurd (hmark.symm.trans hfalse) Bool.noConfusion

/-- A part of the result that has no marks was there before: all of it, or up to a piece whose part it ends in. -/
theorem Pieces.split (hmarks : Marks mark H) (h : Pieces r H b s (v ++ o)) (hv : ∀ c ∈ v, mark c = false) :
    (∃ s', s = v ++ s' ∧ Pieces r H (v.reverse ++ b) s' o) ∨
    ∃ u v' w a p j o', v = u ++ v' ∧ v' ≠ [] ∧ v' <+: p ∧ s = u ++ (w ++ a) ∧ H (u.reverse ++ b) w a p j ∧
      v' ++ o = p ++ (j ++ o') ∧ Pieces r H (w.reverse ++ (u.reverse ++ b)) a o' := by
  induction v generalizing b s with
  | nil => exact .inl ⟨s, rfl, h⟩
  | cons c v ih =>
    obtain ⟨hc, hv'⟩ := List.forall_mem_cons.mp hv
    generalize hout : c :: v ++ o = out at h
    cases h with
    | nil => cases hout
    | kept hnone hrest =>
      obtain ⟨rfl, rfl⟩ := List.cons.inj hout
      obtain ⟨s', rfl, hpieces⟩ | ⟨u, v', w, a, p, j, o', rfl, hne, hpre, rfl, hhit, ho, hpieces⟩ := ih hrest hv'
      · rw [List.reverse_cons, List.append_assoc]
        exact .inl ⟨s', rfl, hpieces⟩
      · refine .inr ⟨c :: u, v', w, a, p, j, o', rfl, hne, hpre, rfl, ?_, ho, ?_⟩
        · rwa [List.reverse_cons, List.append_assoc]
        · rwa [List.reverse_cons, List.append_assoc]
    | @hit _ w a p j out hhit hrest =>
      rw [List.append_assoc] at hout
      refine .inr ⟨[], c :: v, w, a, p, j, out, rfl, List.cons_ne_nil c v, ?_, rfl, hhit, hout, hrest⟩
      exact (hmarks.marked hhit).isPrefix hv hout

/-- The character before a place, if there is one between the place and `b`. -/
theorem head?_reverse_append (hne : v ≠ []) (u b b' : List Char) :
    ((u ++ v).reverse ++ b).head? = (v.reverse ++ b').head? := by
  have hne' : v.reverse ≠ [] := fun h ↦ hne (List.reverse_eq_nil_iff.mp h)
  rw [List.reverse_append, List.append_assoc, List.head?_append_of_ne_nil _ hne', List.head?_append_of_ne_nil _ hne']

/-- A place in the result comes from one in the text, with the same character before it or right behind a replaced
piece; or it is within what a piece became. -/
theorem Pieces.locate (h : Pieces r H b s (u ++ o)) :
    (∃ s₁ s₂, s = s₁ ++ s₂ ∧ Pieces r H (s₁.reverse ++ b) s₂ o ∧
      ((u.reverse ++ b).head? = (s₁.reverse ++ b).head? ∨
        ∃ s₀ w p j, s₁ = s₀ ++ w ∧ H (s₀.reverse ++ b) w s₂ p j)) ∨
    ∃ s₁ w a p j x y o', s = s₁ ++ (w ++ a) ∧ H (s₁.reverse ++ b) w a p j ∧ p ++ j = x ++ y ∧ x ≠ [] ∧ y ≠ [] ∧
      x <:+ u ∧ o = y ++ o' ∧ Pieces r H (w.reverse ++ (s₁.reverse ++ b)) a o' := by
  generalize hout : u ++ o = out at h
  induction h generalizing u with
  | nil b =>
    obtain ⟨rfl, rfl⟩ := List.append_eq_nil_iff.mp hout
    exact .inl ⟨[], [], rfl, .nil b, .inl rfl⟩
  | @kept b s out c hnone hrest ih =>
    cases u with
    | nil =>
      obtain rfl : o = c :: out := hout
      exact .inl ⟨[], c :: s, rfl, .kept hnone hrest, .inl rfl⟩
    | cons x u =>
      rw [List.cons_append] at hout
      obtain ⟨rfl, htail⟩ := List.cons.inj hout
      have hcons (l : List Char) : (x :: l).reverse ++ b = l.reverse ++ x :: b := by
        rw [List.reverse_cons, List.append_assoc]
        rfl
      obtain ⟨s₁, s₂, rfl, hpieces, hbefore⟩ | ⟨s₁, w, a, p, j, y, z, o', rfl, hhit, hxy, hx, hy, hsuf, ho, hpieces⟩ :=
        ih htail
      · refine .inl ⟨x :: s₁, s₂, rfl, ?_, ?_⟩
        · rwa [hcons]
        · rw [hcons, hcons]
          refine hbefore.imp_right ?_
          rintro ⟨s₀, w, p, j, rfl, hhit⟩
          refine ⟨x :: s₀, w, p, j, rfl, ?_⟩
          rwa [hcons]
      · refine .inr ⟨x :: s₁, w, a, p, j, y, z, o', rfl, ?_, hxy, hx, hy, hsuf.trans (List.suffix_cons ..), ho, ?_⟩
        · rwa [hcons]
        · rwa [hcons]
  | @hit b w a p j out hhit hrest ih =>
    have hbehind (hu : u = p ++ j) (ho : o = out) :
        Pieces r H (w.reverse ++ b) a o ∧ ((u.reverse ++ b).head? = (w.reverse ++ b).head? ∨
          ∃ s₀ w' p j, w = s₀ ++ w' ∧ H (s₀.reverse ++ b) w' a p j) := by
      subst ho
      exact ⟨hrest, .inr ⟨[], w, p, j, rfl, hhit⟩⟩
    obtain ⟨y, hu, ho⟩ | ⟨u', rfl, ho⟩ := List.append_eq_append_iff.mp hout
    · by_cases hnil : u = []
      · subst hnil
        obtain rfl : o = p ++ j ++ out := hout
        exact .inl ⟨[], w ++ a, rfl, .hit hhit hrest, .inl rfl⟩
      · by_cases hy : y = []
        · subst hy
          exact .inl ⟨w, a, rfl, hbehind (by rw [hu, List.append_nil]) ho⟩
        · exact .inr ⟨[], w, a, p, j, u, y, out, rfl, hhit, hu, hnil, hy, List.suffix_refl u, ho, hrest⟩
    · by_cases hu : u' = []
      · subst hu
        exact .inl ⟨w, a, rfl, hbehind (List.append_nil _) ho.symm⟩
      · have hrev (l : List Char) : (w ++ l).reverse ++ b = l.reverse ++ (w.reverse ++ b) := by
          rw [List.reverse_append, List.append_assoc]
        obtain ⟨s₁, s₂, rfl, hpieces, hbefore⟩ | ⟨s₁, w', a', p', j', x, y, o', rfl, hhit', hxy, hx, hy, hsuf, ho',
          hpieces⟩ := ih ho.symm
        · refine .inl ⟨w ++ s₁, s₂, (List.append_assoc ..).symm, ?_, ?_⟩
          · rwa [hrev]
          · rw [head?_reverse_append hu (p ++ j) b (w.reverse ++ b), hrev]
            refine hbefore.imp_right ?_
            rintro ⟨s₀, w', p', j', rfl, hhit'⟩
            refine ⟨w ++ s₀, w', p', j', (List.append_assoc ..).symm, ?_⟩
            rwa [hrev]
        · refine .inr ⟨w ++ s₁, w', a', p', j', x, y, o', (List.append_assoc ..).symm, ?_, hxy, hx, hy,
            hsuf.trans (List.suffix_append ..), ho', ?_⟩
          · rwa [hrev]
          · rwa [hrev]

/-- What has no marks does not reach out of what is put in. -/
theorem Marked.within {y : List Char} (hj : Marked mark j) (hy : y <:+ j) (hne : y ≠ []) (hv : ∀ c ∈ v, mark c = false)
    (h : v ++ o = y ++ o') : v <+: y := by
  obtain ⟨x, hx, -⟩ | ⟨x, rfl, -⟩ := List.append_eq_append_iff.mp h
  · exact ⟨x, hx.symm⟩
  · obtain ⟨c, hc, hmark⟩ := hj.last
    obtain ⟨l, rfl⟩ := hy
    rw [List.getLast?_append_of_ne_nil _ hne] at hc
    have hfalse := hv c (List.mem_append_left _ (List.mem_of_getLast? hc))
    exact absurd (hmark.symm.trans hfalse) Bool.noConfusion

/-- A part of the result that has no marks is a part of the text, at a place where nothing is replaced; or it is
within what a piece keeps or puts in. -/
theorem Pieces.place (hmarks : Marks mark H) (h : Pieces r H b s (u ++ (v ++ o))) (hv : ∀ c ∈ v, mark c = false)
    (hne : v ≠ []) :
    (∃ s₁ s₂, s = s₁ ++ (v ++ s₂) ∧ r.first (s₁.reverse ++ b) (v ++ s₂) = none) ∨
    ∃ b' w a p j, H b' w a p j ∧ w <:+: s ∧ (v <:+: p ∨ v <:+: j) := by
  obtain ⟨s₁, s₂, rfl, hpieces, -⟩ | ⟨s₁, w, a, p, j, x, y, o', rfl, hhit, hxy, hx, hy, -, ho, -⟩ := h.locate
  · have hkept : ∃ s₃, s₂ = v ++ s₃ := by
      obtain ⟨s₃, rfl, -⟩ | ⟨u', v', w, a, p, j, o', rfl, -, hpre, rfl, hhit, -, -⟩ := hpieces.split hmarks hv
      · exact ⟨s₃, rfl⟩
      · obtain ⟨z, rfl⟩ := hpre.trans (hmarks.part hhit)
        exact ⟨z ++ a, by simp only [List.append_assoc]⟩
    obtain ⟨s₃, rfl⟩ := hkept
    generalize hs : v ++ s₃ = s at hpieces
    generalize hout : v ++ o = out at hpieces
    cases hpieces with
    | nil => exact absurd (List.append_eq_nil_iff.mp hs).1 hne
    | kept hnone _ =>
      rw [← hs] at hnone
      exact .inl ⟨s₁, s₃, by rw [hs], hnone⟩
    | @hit _ w a p j out hhit hrest =>
      rw [List.append_assoc] at hout
      refine .inr ⟨_, w, a, p, j, hhit, ⟨s₁, a, by rw [List.append_assoc]⟩, .inl ?_⟩
      exact ((hmarks.marked hhit).isPrefix hv hout).isInfix
  · refine .inr ⟨_, w, a, p, j, hhit, ⟨s₁, a, by rw [List.append_assoc]⟩, ?_⟩
    obtain ⟨z, -, hj⟩ | ⟨z, rfl, rfl⟩ := List.append_eq_append_iff.mp hxy
    · -- the place is within what is put in
      right
      have hsuf : y <:+ j := ⟨z, hj.symm⟩
      exact ((hmarks.marked hhit).within hsuf hy hv ho).isInfix.trans hsuf.isInfix
    · left
      rw [List.append_assoc] at ho
      exact ((hmarks.marked hhit).isPrefix hv ho).isInfix.trans (List.suffix_append x z).isInfix

/-- Nowhere in the text does `r` match. -/
def Clean (r : Regex) (s : List Char) : Prop := ∀ u v o, s = u ++ (v ++ o) → ¬ r.Matches u.reverse v o

def boundaryFree : Regex → Bool
  | empty | char _ | many _ _ => true
  | seq r q | alt r q => r.boundaryFree && q.boundaryFree
  | group _ r => r.boundaryFree
  | wordBoundary => false

/-- What is around a match does not matter, if boundaries are not asked for. -/
theorem matches_of_boundaryFree (hr : r.boundaryFree = true) (h : r.Matches b w a) (b' a' : List Char) :
    r.Matches b' w a' := by
  induction r generalizing b w a b' a' with
  | empty | char p | many min p => exact h
  | seq r q ihr ihq =>
    obtain ⟨hr, hq⟩ := Bool.and_eq_true_iff.mp hr
    obtain ⟨u, v, rfl, hu, hv⟩ := h
    exact ⟨u, v, rfl, ihr hr hu _ _, ihq hq hv _ _⟩
  | alt r q ihr ihq =>
    obtain ⟨hr, hq⟩ := Bool.and_eq_true_iff.mp hr
    exact h.imp (fun h ↦ ihr hr h _ _) (fun h ↦ ihq hq h _ _)
  | group i r ih => exact ih hr h b' a'
  | wordBoundary => cases hr

/-- An expression without boundaries whose matches have no marks. -/
structure Plain (mark : Char → Bool) (r : Regex) : Prop where
  boundaryFree : r.boundaryFree = true
  unmarked : ∀ {b w a}, r.Matches b w a → ∀ c ∈ w, mark c = false
  nonempty : ∀ {b w a}, r.Matches b w a → w ≠ []

/-- Nothing is left for the expression whose matches were replaced, if there is nothing for it in what takes their
place. -/
theorem Pieces.clean (hmarks : Marks mark H) (hr : Plain mark r) (h : Pieces r H [] s out)
    (hparts : ∀ b w a p j, H b w a p j → ∀ v, v <:+: p ∨ v <:+: j → ¬ r.Matches [] v []) : Clean r out := by
  rintro u v o rfl hv
  obtain ⟨s₁, s₂, rfl, hnone⟩ | ⟨b', w, a, p, j, hhit, -, hin⟩ := h.place hmarks (hr.unmarked hv) (hr.nonempty hv)
  · exact first_eq_none.mp hnone v s₂ rfl (matches_of_boundaryFree hr.boundaryFree hv _ _)
  · exact hparts b' w a p j hhit v hin (matches_of_boundaryFree hr.boundaryFree hv _ _)

/-- Nor does a replacement bring back what another expression matches. -/
theorem Pieces.clean_of_clean (hmarks : Marks mark H) (hq : Plain mark q) (h : Pieces r H [] s out) (hclean : Clean q s)
    (hparts : ∀ b w a p j, H b w a p j → ∀ v, v <:+: j → ¬ q.Matches [] v []) : Clean q out := by
  rintro u v o rfl hv
  have hinfix {l : List Char} (hl : l <:+: s) (hvl : v <:+: l) : False := by
    obtain ⟨s₁, s₂, rfl⟩ := hvl.trans hl
    exact hclean s₁ v s₂ (List.append_assoc ..) (matches_of_boundaryFree hq.boundaryFree hv _ _)
  obtain ⟨s₁, s₂, rfl, -⟩ | ⟨b', w, a, p, j, hhit, hw, hin⟩ := h.place hmarks (hq.unmarked hv) (hq.nonempty hv)
  · exact hinfix (List.infix_refl _) ⟨s₁, s₂, List.append_assoc ..⟩
  · obtain hin | hin := hin
    · exact hinfix hw (hin.trans (hmarks.part hhit).isInfix)
    · exact hparts b' w a p j hhit v hin (matches_of_boundaryFree hq.boundaryFree hv _ _)

theorem startsWord_congr (h : u.head? = v.head?) : startsWord u = startsWord v := by
  rw [startsWord, startsWord, h]

theorem startsWord_append (hne : u ≠ []) (v : List Char) : startsWord (u ++ v) = startsWord u :=
  startsWord_congr (List.head?_append_of_ne_nil _ hne)

theorem startsWord_append_congr (u : List Char) (h : startsWord b = startsWord a) :
    startsWord (u ++ b) = startsWord (u ++ a) := by
  cases u with
  | nil => exact h
  | cons c u => rfl

/-- Of what is around a match, it matters only whether words go on there. -/
theorem matches_congr {b' a' : List Char} (hb : startsWord b = startsWord b') (ha : startsWord a = startsWord a')
    (h : r.Matches b w a) : r.Matches b' w a' := by
  induction r generalizing b w a b' a' with
  | empty | char p | many min p => exact h
  | seq r q ihr ihq =>
    obtain ⟨u, v, rfl, hu, hv⟩ := h
    exact ⟨u, v, rfl, ihr hb (startsWord_append_congr v ha) hu, ihq (startsWord_append_congr u.reverse hb) ha hv⟩
  | alt r q ihr ihq => exact h.imp (ihr hb ha) (ihq hb ha)
  | group i r ih => exact ih hb ha h
  | wordBoundary => exact h.imp_right (fun hne ↦ hb ▸ ha ▸ hne)

/-- Each piece is replaced whole, and stands between boundaries. -/
structure Fenced (H : List Char → List Char → List Char → List Char → List Char → Prop) : Prop where
  whole : ∀ {b w a p j}, H b w a p j → p = []
  before : ∀ {b w a p j}, H b w a p j → startsWord b = false
  after : ∀ {b w a p j}, H b w a p j → startsWord a = false
  word : ∀ {b w a p j}, H b w a p j → startsWord w = true

theorem ne_nil_of_startsWord (h : startsWord v = true) : v ≠ [] := by
  rintro rfl
  cases h

/-- A word of the result that has no marks stood in the text with a boundary before it, unless it was put in. -/
theorem Pieces.word (hmarks : Marks mark H) (hfenced : Fenced H) (h : Pieces r H b s (u ++ (v ++ o)))
    (hv : ∀ c ∈ v, mark c = false) (hword : startsWord v = true) (hbefore : startsWord (u.reverse ++ b) = false) :
    (∃ s₁ s₂, s = s₁ ++ (v ++ s₂) ∧ r.first (s₁.reverse ++ b) (v ++ s₂) = none ∧ startsWord (s₁.reverse ++ b) = false ∧
      Pieces r H (v.reverse ++ (s₁.reverse ++ b)) s₂ o) ∨
    ∃ b' w a p j, H b' w a p j ∧ v <:+: j := by
  have hne := ne_nil_of_startsWord hword
  obtain ⟨s₁, s₂, rfl, hpieces, hplace⟩ | ⟨s₁, w, a, p, j, x, y, o', rfl, hhit, hxy, hx, hy, -, ho, -⟩ := h.locate
  · obtain ⟨s₃, rfl, hrest⟩ | ⟨u', v', w, a, p, j, o', -, hne', hpre, -, hhit, -, -⟩ := hpieces.split hmarks hv
    · have hstarts : startsWord (s₁.reverse ++ b) = false := by
        obtain hhead | ⟨s₀, w, p, j, rfl, hhit⟩ := hplace
        · rw [← startsWord_congr hhead]
          exact hbefore
        · have hafter := hfenced.after hhit
          rw [startsWord_append hne, hword] at hafter
          cases hafter
      generalize hs : v ++ s₃ = s at hpieces
      generalize hout : v ++ o = out at hpieces
      cases hpieces with
      | nil => exact absurd (List.append_eq_nil_iff.mp hs).1 hne
      | kept hnone _ => exact .inl ⟨s₁, s₃, by rw [hs], by rw [hs]; exact hnone, hstarts, hrest⟩
      | @hit _ w a p j out hhit _ =>
        rw [List.append_assoc] at hout
        have hpre := (hmarks.marked hhit).isPrefix hv hout
        rw [hfenced.whole hhit] at hpre
        exact absurd (List.prefix_nil.mp hpre) hne
    · rw [hfenced.whole hhit] at hpre
      exact absurd (List.prefix_nil.mp hpre) hne'
  · rw [hfenced.whole hhit] at hxy
    have hsuf : y <:+ j := ⟨x, hxy.symm⟩
    exact .inr ⟨_, w, a, p, j, hhit, ((hmarks.marked hhit).within hsuf hy hv ho).isInfix.trans hsuf.isInfix⟩

/-- Behind a word, there is a boundary in the text where there is one in the result. -/
theorem Pieces.after (hfenced : Fenced H) (h : Pieces r H b s o) (hb : startsWord b = true)
    (ho : startsWord o = false) : startsWord s = false := by
  cases h with
  | nil => rfl
  | kept _ _ => exact ho
  | hit hhit _ => exact absurd (hb.symm.trans (hfenced.before hhit)) Bool.noConfusion

/-- Where each match is replaced by itself, nothing changes. -/
theorem Replaced.eq_of_same (h : Replaced r f b s out)
    (hsame : ∀ u w a d, s = u ++ (w ++ a) → r.first (u.reverse ++ b) (w ++ a) = some d → d.after = a → f d.groups = w) :
    out = s := by
  have hcons {b s : List Char} {l : List Char}
      (hl : ∀ u w a d, l ++ s = u ++ (w ++ a) → r.first (u.reverse ++ b) (w ++ a) = some d → d.after = a →
        f d.groups = w) (u w a : List Char) (d : Cursor) (hs : s = u ++ (w ++ a))
      (hd : r.first (u.reverse ++ (l.reverse ++ b)) (w ++ a) = some d) (ha : d.after = a) : f d.groups = w := by
    refine hl (l ++ u) w a d (by rw [hs, List.append_assoc]) ?_ ha
    rwa [List.reverse_append, List.append_assoc]
  induction h with
  | nil b => rfl
  | @kept b s out c _ _ ih => exact congrArg (c :: ·) (ih (hcons (l := [c]) hsame))
  | @hit b w s out d hfirst hafter _ _ ih => rw [hsame [] w s d rfl hfirst hafter, ih (hcons hsame)]

/-- Where nothing matches, nothing changes. -/
theorem Replaced.eq_of_clean (h : Replaced r f [] s out) (hclean : Clean r s) : out = s := by
  refine h.eq_of_same (fun u w a d hs hd _ ↦ ?_)
  rw [List.append_nil] at hd
  obtain ⟨v, hv, -, hmatch⟩ := first_eq_some hd
  exact absurd hmatch (hclean u v d.after (hs.trans (congrArg (u ++ ·) hv)))

/-- A character with which no replaced piece begins is kept. -/
theorem Pieces.head {P : Char → Bool} (hhead : ∀ {b w a p j}, H b w a p j → w.head?.any P = true) {c : Char}
    (hc : P c = false) (h : Pieces r H b (c :: s) out) : ∃ out', out = c :: out' ∧ Pieces r H (c :: b) s out' := by
  generalize hs : c :: s = s' at h
  cases h with
  | nil => cases hs
  | kept _ hrest =>
    obtain ⟨rfl, rfl⟩ := List.cons.inj hs
    exact ⟨_, rfl, hrest⟩
  | @hit _ w a p j out hhit hrest =>
    have hany := hhead hhit
    cases w with
    | nil => cases hany
    | cons x w =>
      obtain ⟨rfl, -⟩ := List.cons.inj hs
      exact absurd (hany.symm.trans hc) Bool.noConfusion

/-- So are many of them. -/
theorem Pieces.stem {P : Char → Bool} (hhead : ∀ {b w a p j}, H b w a p j → w.head?.any P = true)
    (hv : ∀ c ∈ v, P c = false) (h : Pieces r H b (v ++ s) out) :
    ∃ out', out = v ++ out' ∧ Pieces r H (v.reverse ++ b) s out' := by
  induction v generalizing b out with
  | nil => exact ⟨out, rfl, h⟩
  | cons c v ih =>
    obtain ⟨hc, hv⟩ := List.forall_mem_cons.mp hv
    obtain ⟨out', rfl, hrest⟩ := h.head hhead hc
    obtain ⟨out'', rfl, hrest'⟩ := ih hv hrest
    refine ⟨out'', rfl, ?_⟩
    rw [List.reverse_cons, List.append_assoc]
    exact hrest'

/-- A replacement brings in no character but those that it puts in. -/
theorem Pieces.mem (hpart : ∀ {b w a p j}, H b w a p j → p <+: w) (h : Pieces r H b s out) {x : Char} (hx : x ∈ out) :
    x ∈ s ∨ ∃ b w a p j, H b w a p j ∧ x ∈ j := by
  induction h with
  | nil => exact .inl hx
  | kept _ _ ih =>
    obtain rfl | hx := List.mem_cons.mp hx
    · exact .inl List.mem_cons_self
    · exact (ih hx).imp_left (List.mem_cons_of_mem _)
  | hit hhit _ ih =>
    obtain hx | hx := List.mem_append.mp hx
    · obtain hx | hx := List.mem_append.mp hx
      · exact .inl (List.mem_append_left _ ((hpart hhit).subset hx))
      · exact .inr ⟨_, _, _, _, _, hhit, hx⟩
    · exact (ih hx).imp_left (List.mem_append_right _)

/-- What single characters are written one behind the other. -/
theorem matches_foldr (P : Char → Char → Bool) (l b w a : List Char) :
    (l.foldr (fun c r ↦ seq (char (P c)) r) empty).Matches b w a ↔ List.Forall₂ (fun c x ↦ P c x = true) l w := by
  induction l generalizing b w with
  | nil => exact List.forall₂_nil_left_iff.symm
  | cons c l ih =>
    rw [List.forall₂_cons_left_iff]
    constructor
    · rintro ⟨u, v, rfl, ⟨x, hx, rfl⟩, hv⟩
      exact ⟨x, v, hx, (ih _ _).mp hv, rfl⟩
    · rintro ⟨x, v, hx, hv, rfl⟩
      exact ⟨[x], v, rfl, ⟨x, hx, rfl⟩, (ih _ _).mpr hv⟩

@[simp]
theorem matches_text (s : String) : (text s).Matches b w a ↔ w = s.toList := by
  rw [text, matches_foldr (fun c x ↦ x == c)]
  constructor
  · intro h
    have heq : List.Forall₂ Eq s.toList w := h.imp (fun _ _ hcx ↦ (beq_iff_eq.mp hcx).symm)
    exact (List.forall₂_eq_eq_eq ▸ heq : s.toList = w).symm
  · rintro rfl
    exact List.forall₂_same.mpr (fun c _ ↦ beq_self_eq_true c)

/-- The characters that an expression asks for are all of a kind. -/
def All (P : Char → Bool) : Regex → Prop
  | empty | wordBoundary => True
  | char p | many _ p => ∀ c, p c = true → P c = true
  | seq r q | alt r q => r.All P ∧ q.All P
  | group _ r => r.All P

theorem all_of_matches {P : Char → Bool} (hr : r.All P) (h : r.Matches b w a) : ∀ c ∈ w, P c = true := by
  induction r generalizing b w a with
  | empty =>
    obtain rfl : w = [] := h
    exact fun c hc ↦ absurd hc List.not_mem_nil
  | char p =>
    obtain ⟨x, hx, rfl⟩ := h
    exact fun c hc ↦ List.mem_singleton.mp hc ▸ hr x hx
  | many min p => exact fun c hc ↦ hr c (h.2 c hc)
  | seq r q ihr ihq =>
    obtain ⟨u, v, rfl, hu, hv⟩ := h
    exact fun c hc ↦ (List.mem_append.mp hc).elim (ihr hr.1 hu c) (ihq hr.2 hv c)
  | alt r q ihr ihq => exact h.elim (ihr hr.1) (ihq hr.2)
  | group i r ih => exact ih hr h
  | wordBoundary =>
    obtain ⟨rfl, -⟩ := h
    exact fun c hc ↦ absurd hc List.not_mem_nil

theorem all_text {P : Char → Bool} {t : String} (h : ∀ c ∈ t.toList, P c = true) : (text t).All P := by
  rw [text]
  generalize t.toList = l at h
  induction l with
  | nil => trivial
  | cons c l ih =>
    obtain ⟨hc, hl⟩ := List.forall_mem_cons.mp h
    refine ⟨fun x hx ↦ ?_, ih hl⟩
    rwa [beq_iff_eq.mp hx]

end Regex

end KubeCenter.Core
