import KubeCenter.Monitoring.SlugMeaning

/-! Slug queries mean what was authorized, when no value is escaped. -/

namespace KubeCenter.Monitoring

open KubeCenter.Core Auth Resources
open Loki (Engine isRegexMetaChar)

/-- A template's pattern with literal values; its own text has no metacharacters beside `.*`. -/
def pieces (raw : Var → Text) : List Sym → Option (List Piece)
  | [] => some []
  | .inr v :: s => (pieces raw s).map (.lit (raw v) :: ·)
  | .inl c :: s =>
    match c, s with
    | '.', .inl '*' :: s => (pieces raw s).map (.any :: ·)
    | c, s => if isRegexMetaChar c then none else (pieces raw s).map (.lit [c] :: ·)

namespace Matcher

def Substituted (m : Matcher (List Sym)) : Prop := ∃ v, .inr v ∈ m.value

/-- What a template's matcher stands for, with literal values. -/
def Denotes (dots : Text → Prop) (raw : Var → Text) (m : Matcher (List Sym)) (s : Text) : Prop :=
  match m.op with
  | .equal => s = render raw m.value
  | .notEqual => s ≠ render raw m.value
  | .regex => ∃ ps, pieces raw m.value = some ps ∧ Concat dots ps s
  | .notRegex => ∃ ps, pieces raw m.value = some ps ∧ ¬ Concat dots ps s

structure Faithful (re2 : Engine) (dots : Text → Prop) (raw : Var → Text) (tm : Matcher (List Sym))
    (m : Matcher Bytes) : Prop where
  label : m.label = tm.label
  op : m.op = tm.op
  selects : tm.Substituted → ∀ s, m.Matches re2 s ↔ tm.Denotes dots raw s

end Matcher

structure Selector.Faithful (re2 : Engine) (dots : Text → Prop) (raw : Var → Text) (ts : Selector (List Sym))
    (s : Selector Bytes) : Prop where
  metric : s.metric = ts.metric
  matchers : List.Forall₂ (Matcher.Faithful re2 dots raw) ts.matchers s.matchers

/-- All strings of a text are values of matchers. -/
def Covered {V : Type} (toks : List (Char ⊕ V)) : Prop :=
  toks.filterMap Sum.getRight? = (selectors toks).flatMap (fun sel ↦ sel.matchers.map Matcher.value)

/-- A text's selectors are those of the template with literal values. -/
structure Faithful (re2 : Engine) (dots : Text → Prop) (raw : Var → Text) (template : List (Char ⊕ List Sym))
    (toks : List (Char ⊕ Bytes)) : Prop where
  covered : Covered toks
  means : List.Forall₂ (Selector.Faithful re2 dots raw) (selectors template) (selectors toks)

/-- The namespace in a label's value. -/
def namespaceIn (label : Text) (s : Text) : Option Text :=
  if label = "namespace".toList then some s
  else if label = "destination".toList then some (s.takeWhile (· ≠ '/'))
  else none

/-- Nothing outside a namespace is selected, unless the scope is the cluster. -/
def Confined (re2 : Engine) (toks : List (Char ⊕ Bytes)) (scope : Text) : Prop :=
  scope = [] ∨ ∀ sel ∈ selectors toks, ∃ m ∈ sel.matchers, ∀ s, m.Matches re2 s → namespaceIn m.label s = some scope

namespace QueryDef

def syms (d : QueryDef) : List Sym := (parseTemplate none d.template.toList).getD []

/-- The namespace is the name for the slugs of namespaces. -/
def scopeVar (d : QueryDef) (regex : Bool) : Var :=
  if hasPrefix "namespaces/" d.slug then if regex then .nameRegex else .name
  else if regex then .nsRegex else .ns

end QueryDef

/-- A matcher whose values the escaping keeps: a regular expression has escaped values only. -/
def Matcher.readable (m : Matcher (List Sym)) : Bool :=
  m.value.all (fun x ↦ x.isLeft) ||
    match m.op with
    | .equal => true
    | .regex => (pieces (fun _ ↦ []) m.value).isSome && m.value.all (Sum.elim (fun _ ↦ true) Var.isRegex)
    | .notEqual | .notRegex => false

/-- A matcher on a namespace label that starts with the namespace. -/
def Matcher.confines (d : QueryDef) (m : Matcher (List Sym)) : Bool :=
  m.label = "namespace".toList && m.op = .equal && m.value = [.inr (d.scopeVar false)] ||
    m.label = "destination".toList && m.op = .regex && m.value.take 2 = [.inr (d.scopeVar true), .inl '/']

/-- What the registry keeps to. -/
structure QueryDef.WellFormed (d : QueryDef) (template : List (Char ⊕ List Sym)) : Prop where
  covered : Covered template
  readable : ∀ sel ∈ selectors template, ∀ m ∈ sel.matchers, m.readable = true
  confines : d.requiredGVR ∈ clusterScopedGVRs ∨
    ∀ sel ∈ selectors template, ∃ m ∈ sel.matchers, m.confines d = true

instance (toks : List (Char ⊕ List Sym)) : Decidable (Covered toks) := inferInstanceAs (Decidable (_ = _))

instance (d : QueryDef) (template : List (Char ⊕ List Sym)) : Decidable (d.WellFormed template) :=
  decidable_of_iff
    (Covered template ∧ (∀ sel ∈ selectors template, ∀ m ∈ sel.matchers, m.readable = true) ∧
      (d.requiredGVR ∈ clusterScopedGVRs ∨
        ∀ sel ∈ selectors template, ∃ m ∈ sel.matchers, m.confines d = true))
    ⟨fun ⟨hc, hr, hn⟩ ↦ ⟨hc, hr, hn⟩, fun h ↦ ⟨h.covered, h.readable, h.confines⟩⟩

def QueryDef.checkText (d : QueryDef) (text : Text) : Bool :=
  match parseTemplate none text with
  | none => false
  | some syms => match lexSyms none syms with
    | none => false
    | some template => decide (d.WellFormed template)

section Pieces

variable {raw : Var → Text} {s : List Sym} {ps : List Piece}

theorem pieces_text (h : pieces raw s = some ps) : ps.flatMap Piece.text = render raw s := by
  induction s using pieces.induct generalizing ps with
  | case1 =>
    rw [pieces] at h
    cases h
    rfl
  | case2 v s ih =>
    rw [pieces] at h
    obtain ⟨ps, hps, rfl⟩ := Option.map_eq_some_iff.mp h
    rw [List.flatMap_cons, ih hps, render_var]
    rfl
  | case3 s ih =>
    rw [pieces] at h
    obtain ⟨ps, hps, rfl⟩ := Option.map_eq_some_iff.mp h
    rw [List.flatMap_cons, ih hps]
    rfl
  | case4 c s hany hmeta =>
    rw [pieces, if_pos hmeta] at h
    · cases h
    · exact hany
  | case5 c s hany hmeta ih =>
    rw [pieces, if_neg hmeta] at h
    · obtain ⟨ps, hps, rfl⟩ := Option.map_eq_some_iff.mp h
      rw [List.flatMap_cons, ih hps, render_char]
      rfl
    · exact hany

theorem pieces_literal (h : pieces raw s = some ps)
    (hraw : ∀ v, .inr v ∈ s → ∀ c ∈ raw v, isRegexMetaChar c = false) :
    ∀ t, .lit t ∈ ps → ∀ c ∈ t, isRegexMetaChar c = false := by
  induction s using pieces.induct generalizing ps with
  | case1 =>
    rw [pieces] at h
    cases h
    exact fun t ht ↦ absurd ht List.not_mem_nil
  | case2 v s ih =>
    rw [pieces] at h
    obtain ⟨ps, hps, rfl⟩ := Option.map_eq_some_iff.mp h
    intro t ht
    obtain he | ht := List.mem_cons.mp ht
    · cases he
      exact hraw v List.mem_cons_self
    · exact ih hps (fun v hv ↦ hraw v (List.mem_cons_of_mem _ hv)) t ht
  | case3 s ih =>
    rw [pieces] at h
    obtain ⟨ps, hps, rfl⟩ := Option.map_eq_some_iff.mp h
    intro t ht
    have ht := (List.mem_cons.mp ht).resolve_left fun he ↦ by cases he
    exact ih hps (fun v hv ↦ hraw v (List.mem_cons_of_mem _ (List.mem_cons_of_mem _ hv))) t ht
  | case4 c s hany hmeta =>
    rw [pieces, if_pos hmeta] at h
    · cases h
    · exact hany
  | case5 c s hany hmeta ih =>
    rw [pieces, if_neg hmeta] at h
    · obtain ⟨ps, hps, rfl⟩ := Option.map_eq_some_iff.mp h
      intro t ht
      obtain he | ht := List.mem_cons.mp ht
      · cases he
        intro d hd
        rw [List.mem_singleton.mp hd]
        exact Bool.eq_false_iff.mpr hmeta
      · exact ih hps (fun v hv ↦ hraw v (List.mem_cons_of_mem _ hv)) t ht
    · exact hany

theorem pieces_isSome (raw' : Var → Text) : (pieces raw' s).isSome = (pieces raw s).isSome := by
  induction s using pieces.induct with
  | case1 => rfl
  | case2 v s ih => rw [pieces, pieces, Option.isSome_map, Option.isSome_map, ih]
  | case3 s ih => rw [pieces, pieces, Option.isSome_map, Option.isSome_map, ih]
  | case4 c s hany hmeta => rw [pieces, pieces, if_pos hmeta, if_pos hmeta] <;> exact hany
  | case5 c s hany hmeta ih =>
    rw [pieces, pieces, if_neg hmeta, if_neg hmeta, Option.isSome_map, Option.isSome_map, ih] <;> exact hany

end Pieces

section Faithful

variable {re2 : Engine} {dots : Text → Prop} {raw : Var → Text}

/-- The values that regular expressions are made with stand for themselves. -/
def RawLiteral (raw : Var → Text) (s : List Sym) : Prop :=
  ∀ v, .inr v ∈ s → v.isRegex = true → ∀ c ∈ raw v, isRegexMetaChar c = false

theorem Matcher.matches_pattern (hre2 : ReadsConcats re2 dots) {inner : List Sym} {ps : List Piece}
    (hps : pieces raw inner = some ps) (hraw : ∀ v, .inr v ∈ inner → ∀ c ∈ raw v, isRegexMetaChar c = false)
    (label : Text) (s : Text) :
    (Matcher.mk label .regex (utf8 (render raw inner))).Matches re2 s ↔ Concat dots ps s := by
  obtain ⟨pattern, hcompile, hmatch⟩ := hre2 ps (pieces_literal hps hraw)
  rw [pieces_text hps] at hcompile
  unfold Matcher.Matches
  constructor
  · intro h
    obtain ⟨w, pattern', hw, hcompile', hs⟩ := h
    rw [← utf8_injective hw, hcompile] at hcompile'
    cases hcompile'
    exact (hmatch s).mp hs
  · intro h
    exact ⟨_, pattern, rfl, hcompile, (hmatch s).mpr h⟩

theorem Matcher.faithful (hre2 : ReadsConcats re2 dots) {m : Matcher (List Sym)} (hm : m.readable = true)
    (hraw : RawLiteral raw m.value) :
    Matcher.Faithful re2 dots raw m (m.map (fun inner ↦ utf8 (render raw inner))) := by
  refine ⟨rfl, rfl, ?_⟩
  intro hsub s
  obtain ⟨v, hv⟩ := hsub
  obtain ⟨label, op, inner⟩ := m
  obtain hliteral | hop := Bool.or_eq_true_iff.mp hm
  · exact absurd (List.all_eq_true.mp hliteral _ hv) Bool.false_ne_true
  · cases op with
    | equal =>
      unfold Matcher.Matches Matcher.Denotes Matcher.map
      constructor
      · intro h
        exact (utf8_injective h).symm
      · intro h
        exact congrArg utf8 h.symm
    | regex =>
      obtain ⟨hsome, hregex⟩ := Bool.and_eq_true_iff.mp hop
      obtain ⟨ps, hps⟩ := Option.isSome_iff_exists.mp ((pieces_isSome raw).trans hsome)
      have hliteral : ∀ v, .inr v ∈ inner → ∀ c ∈ raw v, isRegexMetaChar c = false := by
        intro v hv
        exact hraw v hv (List.all_eq_true.mp hregex _ hv)
      have hpattern := Matcher.matches_pattern hre2 hps hliteral label s
      constructor
      · intro h
        exact ⟨ps, hps, hpattern.mp h⟩
      · intro h
        obtain ⟨ps', hps', h⟩ := h
        rw [hps] at hps'
        cases hps'
        exact hpattern.mpr h
    | notEqual => cases hop
    | notRegex => cases hop

theorem Covered.map {V W : Type} (f : V → W) {toks : List (Char ⊕ V)} (h : Covered toks) :
    Covered (toks.map (Sum.map id f)) := by
  have hstrings : (toks.map (Sum.map id f)).filterMap Sum.getRight? = (toks.filterMap Sum.getRight?).map f := by
    rw [List.filterMap_map, List.map_filterMap]
    congr 1
    funext tok
    cases tok <;> rfl
  unfold Covered at h ⊢
  rw [hstrings, h, selectors_map, List.map_flatMap, List.flatMap_map]
  congr 1
  funext sel
  rw [Selector.map, List.map_map, List.map_map]
  rfl

theorem faithful_map (hre2 : ReadsConcats re2 dots) {d : QueryDef} {template : List (Char ⊕ List Sym)}
    (hd : d.WellFormed template) (hraw : ∀ inner, .inr inner ∈ template → RawLiteral raw inner) :
    Faithful re2 dots raw template (template.map (Sum.map id (fun inner ↦ utf8 (render raw inner)))) := by
  refine ⟨hd.covered.map _, ?_⟩
  rw [selectors_map, List.forall₂_map_right_iff, List.forall₂_same]
  intro sel hsel
  refine ⟨rfl, ?_⟩
  show List.Forall₂ _ sel.matchers (sel.matchers.map _)
  rw [List.forall₂_map_right_iff, List.forall₂_same]
  intro m hm
  exact Matcher.faithful hre2 (hd.readable sel hsel m hm) (selectors_forall hraw sel hsel m hm)

theorem takeWhile_slash {s t : Text} (h : '/' ∉ s) : (s ++ '/' :: t).takeWhile (· ≠ '/') = s := by
  rw [List.takeWhile_append_of_pos]
  · simp
  · intro c hc
    exact decide_eq_true fun he ↦ h (he ▸ hc)

theorem namespaceIn_namespace (s : Text) : namespaceIn "namespace".toList s = some s := if_pos rfl

theorem namespaceIn_destination (s : Text) :
    namespaceIn "destination".toList s = some (s.takeWhile (· ≠ '/')) := by
  have hlabel : "destination".toList ≠ "namespace".toList := by decide
  rw [namespaceIn, if_neg hlabel, if_pos rfl]

/-- A matcher that confines selects the one namespace. -/
theorem Matcher.confines_spec {d : QueryDef} {m : Matcher (List Sym)} (h : m.confines d = true) {scope : Text}
    (hscope : ∀ regex, raw (d.scopeVar regex) = scope) (hslash : '/' ∉ scope) {s : Text}
    (hs : m.Denotes dots raw s) : namespaceIn m.label s = some scope := by
  obtain ⟨label, op, inner⟩ := m
  simp only [Matcher.confines, Bool.or_eq_true, Bool.and_eq_true, decide_eq_true_eq] at h
  obtain ⟨⟨rfl, rfl⟩, rfl⟩ | ⟨⟨rfl, rfl⟩, hinner⟩ := h
  · have hvalue : s = scope := by
      have hrender : s = render raw [.inr (d.scopeVar false)] := hs
      rw [hrender, render_var, hscope]
      exact List.append_nil scope
    rw [hvalue]
    exact namespaceIn_namespace scope
  · obtain ⟨ps, hps, hconcat⟩ := hs
    have hinner' : inner = .inr (d.scopeVar true) :: .inl '/' :: inner.drop 2 := by
      rw [← List.take_append_drop 2 inner, hinner]
      simp
    have hslashPiece : ∀ rest : List Sym, pieces raw (.inl '/' :: rest) =
        (pieces raw rest).map (.lit ['/'] :: ·) := fun rest ↦ rfl
    dsimp only at hps
    rw [hinner', pieces, hslashPiece, Option.map_map] at hps
    obtain ⟨qs, -, rfl⟩ := Option.map_eq_some_iff.mp hps
    obtain ⟨-, rfl, -, rfl, -⟩ := hconcat
    rw [hscope]
    exact (namespaceIn_destination _).trans (congrArg some (takeWhile_slash hslash))

theorem Matcher.confines_substituted {d : QueryDef} {m : Matcher (List Sym)} (h : m.confines d = true) :
    m.Substituted := by
  simp only [Matcher.confines, Bool.or_eq_true, Bool.and_eq_true, decide_eq_true_eq] at h
  obtain ⟨-, hvalue⟩ | ⟨-, hvalue⟩ := h
  · exact ⟨_, hvalue ▸ List.mem_cons_self⟩
  · exact ⟨_, List.mem_of_mem_take (hvalue ▸ List.mem_cons_self)⟩

theorem confined_map (hre2 : ReadsConcats re2 dots) {d : QueryDef} {template : List (Char ⊕ List Sym)}
    (hd : d.WellFormed template) (hraw : ∀ inner, .inr inner ∈ template → RawLiteral raw inner)
    (hconfines : ∀ sel ∈ selectors template, ∃ m ∈ sel.matchers, m.confines d = true) {scope : Text}
    (hscope : ∀ regex, raw (d.scopeVar regex) = scope) (hslash : '/' ∉ scope) :
    Confined re2 (template.map (Sum.map id (fun inner ↦ utf8 (render raw inner)))) scope := by
  right
  rw [selectors_map]
  intro sel hsel
  obtain ⟨tsel, htsel, rfl⟩ := List.mem_map.mp hsel
  obtain ⟨m, hm, hmc⟩ := hconfines tsel htsel
  have hfaithful := Matcher.faithful hre2 (hd.readable tsel htsel m hm) (selectors_forall hraw tsel htsel m hm)
  refine ⟨_, List.mem_map_of_mem hm, ?_⟩
  intro s hs
  exact Matcher.confines_spec hmc hscope hslash
    ((hfaithful.selects (Matcher.confines_substituted hmc) s).mp hs)

end Faithful

end KubeCenter.Monitoring
