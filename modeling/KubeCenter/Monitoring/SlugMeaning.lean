import KubeCenter.Monitoring.SlugQuery

/-! What a slug query means: the rendered text against the template with its values put in literally. -/

namespace KubeCenter.Monitoring

open KubeCenter.Core Auth Resources
open Loki (Engine isRegexMetaChar)

/-- The strings of a template, with fields inside strings only and no escapes. The first argument is what has been read of
a string, inside one. -/
def lexSyms : Option (List Sym) → List Sym → Option (List (Char ⊕ List Sym))
  | none, [] => some []
  | some _, [] => none
  | none, .inr _ :: _ => none
  | none, .inl c :: s =>
    if c = '\"' then lexSyms (some []) s
    else if c ∈ otherMarks then none
    else (lexSyms none s).map (.inl c :: ·)
  | some acc, .inr v :: s => lexSyms (some (acc ++ [.inr v])) s
  | some acc, .inl c :: s =>
    if c = '\"' then (lexSyms none s).map (.inr acc :: ·)
    else if c = '\n' ∨ c = '\\' then none
    else lexSyms (some (acc ++ [.inl c])) s

/-- The characters of a string that stand for themselves. -/
def PlainText (t : Text) : Prop := ∀ c ∈ t, c ≠ '\"' ∧ c ≠ '\n' ∧ c ≠ '\\'

variable {value : Var → Text} {syms inner acc : List Sym} {toks : List (Char ⊕ List Sym)}

theorem render_append (s t : List Sym) : render value (s ++ t) = render value s ++ render value t :=
  List.flatMap_append

theorem render_char (c : Char) (s : List Sym) : render value (.inl c :: s) = c :: render value s := rfl

theorem render_var (v : Var) (s : List Sym) : render value (.inr v :: s) = value v ++ render value s := rfl

/-- The inside of a string up to its closing quote. -/
structure Inside (acc syms : List Sym) (toks : List (Char ⊕ List Sym)) (inner rest : List Sym)
    (toks' : List (Char ⊕ List Sym)) : Prop where
  syms_eq : syms = inner ++ .inl '\"' :: rest
  toks_eq : toks = .inr (acc ++ inner) :: toks'
  lex : lexSyms none rest = some toks'
  plain : ∀ c, .inl c ∈ inner → c ≠ '\"' ∧ c ≠ '\n' ∧ c ≠ '\\'

theorem lexSyms_inside (h : lexSyms (some acc) syms = some toks) :
    ∃ inner rest toks', Inside acc syms toks inner rest toks' := by
  induction syms generalizing acc with
  | nil => cases h
  | cons x s ih =>
    cases x with
    | inr v =>
      rw [lexSyms] at h
      obtain ⟨inner, rest, toks', hin⟩ := ih h
      refine ⟨.inr v :: inner, rest, toks', ?_, ?_, hin.lex, ?_⟩
      · rw [hin.syms_eq, List.cons_append]
      · rw [hin.toks_eq, List.append_assoc, List.singleton_append]
      · intro c hc
        exact hin.plain c ((List.mem_cons.mp hc).resolve_left fun he ↦ by cases he)
    | inl c =>
      rw [lexSyms] at h
      split at h
      · next hq =>
        subst hq
        obtain ⟨toks', hlex, rfl⟩ := Option.map_eq_some_iff.mp h
        exact ⟨[], s, toks', rfl, by rw [List.append_nil], hlex, fun c hc ↦ absurd hc List.not_mem_nil⟩
      · next hq =>
        split at h
        · cases h
        · next hplain =>
          obtain ⟨hn, hb⟩ := not_or.mp hplain
          obtain ⟨inner, rest, toks', hin⟩ := ih h
          refine ⟨.inl c :: inner, rest, toks', ?_, ?_, hin.lex, ?_⟩
          · rw [hin.syms_eq, List.cons_append]
          · rw [hin.toks_eq, List.append_assoc, List.singleton_append]
          · intro d hd
            obtain he | hd := List.mem_cons.mp hd
            · cases he
              exact ⟨hq, hn, hb⟩
            · exact hin.plain d hd

theorem lexSyms_outside {c : Char} {s : List Sym} (h : lexSyms none (.inl c :: s) = some toks) :
    (c = '\"' ∧ lexSyms (some []) s = some toks) ∨
      (c ≠ '\"' ∧ c ∉ otherMarks ∧ ∃ toks', lexSyms none s = some toks' ∧ toks = .inl c :: toks') := by
  rw [lexSyms] at h
  split at h
  · next hq => exact .inl ⟨hq, h⟩
  · next hq =>
    split at h
    · cases h
    · next hmark =>
      obtain ⟨toks', hlex, rfl⟩ := Option.map_eq_some_iff.mp h
      exact .inr ⟨hq, hmark, toks', hlex, rfl⟩

theorem render_plain (hinner : ∀ c, .inl c ∈ inner → c ≠ '\"' ∧ c ≠ '\n' ∧ c ≠ '\\')
    (hvalue : ∀ v, .inr v ∈ inner → PlainText (value v)) : PlainText (render value inner) := by
  intro c hc
  obtain ⟨x, hx, hcx⟩ := List.mem_flatMap.mp hc
  cases x with
  | inl d =>
    cases List.mem_singleton.mp hcx
    exact hinner c hx
  | inr v => exact hvalue v hx c hcx

/-- With plain values the rendered text has the template's tokens. -/
theorem lexes_render (h : lexSyms none syms = some toks) (hvalue : ∀ v, .inr v ∈ syms → PlainText (value v)) :
    Lexes (render value syms) (toks.map (Sum.map id (fun inner ↦ utf8 (render value inner)))) := by
  induction hn : syms.length using Nat.strong_induction_on generalizing syms toks with
  | _ n ih =>
    subst hn
    cases syms with
    | nil =>
      cases h
      exact .nil
    | cons x s =>
      cases x with
      | inr v => cases h
      | inl c =>
        obtain ⟨rfl, hin⟩ | ⟨hq, hmark, toks', hlex, rfl⟩ := lexSyms_outside h
        · obtain ⟨inner, rest, toks', hin⟩ := lexSyms_inside hin
          obtain ⟨rfl, rfl, hlex, hplain⟩ := hin
          have hrest := ih rest.length (by simp; omega) hlex (fun v hv ↦ hvalue v (by simp [hv])) rfl
          have hinner : PlainText (render value inner) := render_plain hplain (fun v hv ↦ hvalue v (by simp [hv]))
          rw [render_char, render_append, render_char]
          apply Lexes.string _ hrest
          rw [unquoteFrom_append hinner, unquoteFrom_quote]
          simp
        · rw [render_char, List.map_cons]
          exact .char hq hmark (ih s.length (Nat.lt_succ_self _) hlex
            (fun v hv ↦ hvalue v (List.mem_cons_of_mem _ hv)) rfl)

/-- A text that ends in an escape unknown to strings. -/
def BadText (t : Text) : Prop := ∃ a b, t = a ++ '\\' :: '.' :: b ∧ PlainText a

theorem unquoteFrom_bad {t : Text} (h : BadText t) (s : Text) : unquoteFrom (t ++ s) = none := by
  obtain ⟨a, b, rfl, ha⟩ := h
  have hescape : unquoteEscape ('.' :: (b ++ s)) = none := unquoteEscape_none (by decide) (by decide) _
  rw [List.append_assoc, unquoteFrom_append ha, List.cons_append, List.cons_append, unquoteFrom_badEscape hescape]
  rfl

/-- The first bad value of a string, behind plain text. -/
theorem render_bad (hinner : ∀ c, .inl c ∈ inner → c ≠ '\"' ∧ c ≠ '\n' ∧ c ≠ '\\')
    (hvalue : ∀ v, .inr v ∈ inner → PlainText (value v) ∨ BadText (value v))
    (hbad : ∃ v, .inr v ∈ inner ∧ BadText (value v)) : BadText (render value inner) := by
  induction inner with
  | nil =>
    obtain ⟨v, hv, -⟩ := hbad
    cases hv
  | cons x inner ih =>
    have htail := fun (h : ∃ v, .inr v ∈ inner ∧ BadText (value v)) ↦
      ih (fun c hc ↦ hinner c (List.mem_cons_of_mem _ hc)) (fun v hv ↦ hvalue v (List.mem_cons_of_mem _ hv)) h
    have hprepend : ∀ p : Text, PlainText p → (∃ v, .inr v ∈ inner ∧ BadText (value v)) →
        BadText (p ++ render value inner) := by
      intro p hp h
      obtain ⟨a, b, hab, ha⟩ := htail h
      refine ⟨p ++ a, b, by rw [hab, List.append_assoc], ?_⟩
      intro c hc
      obtain hc | hc := List.mem_append.mp hc
      · exact hp c hc
      · exact ha c hc
    cases x with
    | inl c =>
      have hrest : ∃ v, .inr v ∈ inner ∧ BadText (value v) := by
        obtain ⟨v, hv, hb⟩ := hbad
        exact ⟨v, (List.mem_cons.mp hv).resolve_left fun he ↦ (by cases he), hb⟩
      have hc : PlainText [c] := by
        intro d hd
        rw [List.mem_singleton.mp hd]
        exact hinner c List.mem_cons_self
      exact hprepend [c] hc hrest
    | inr v =>
      rw [render_var]
      obtain hplain | hb := hvalue v List.mem_cons_self
      · by_cases hv : BadText (value v)
        · obtain ⟨a, b, hab, ha⟩ := hv
          exact ⟨a, b ++ render value inner, by rw [hab, List.append_assoc]; rfl, ha⟩
        · apply hprepend (value v) hplain
          obtain ⟨u, hu, hbu⟩ := hbad
          obtain he | hu := List.mem_cons.mp hu
          · cases he
            exact absurd hbu hv
          · exact ⟨u, hu, hbu⟩
      · obtain ⟨a, b, hab, ha⟩ := hb
        exact ⟨a, b ++ render value inner, by rw [hab, List.append_assoc]; rfl, ha⟩

/-- A bad value leaves the rendered text without tokens. -/
theorem not_lexes_render (h : lexSyms none syms = some toks)
    (hvalue : ∀ v, .inr v ∈ syms → PlainText (value v) ∨ BadText (value v))
    (hbad : ∃ v, .inr v ∈ syms ∧ BadText (value v)) (toks' : List (Char ⊕ Bytes)) :
    ¬ Lexes (render value syms) toks' := by
  induction hn : syms.length using Nat.strong_induction_on generalizing syms toks toks' with
  | _ n ih =>
    subst hn
    intro hlexes
    cases syms with
    | nil =>
      obtain ⟨v, hv, -⟩ := hbad
      cases hv
    | cons x s =>
      cases x with
      | inr v => cases h
      | inl c =>
        rw [render_char] at hlexes
        obtain ⟨rfl, hin⟩ | ⟨hq, hmark, toks'', hlex, rfl⟩ := lexSyms_outside h
        · obtain ⟨inner, rest, toks'', hin⟩ := lexSyms_inside hin
          obtain ⟨rfl, rfl, hlex, hplain⟩ := hin
          rw [render_append, render_char] at hlexes
          cases hlexes with
          | char hq => exact hq rfl
          | string hstring hrest =>
            by_cases hinner : ∃ v, .inr v ∈ inner ∧ BadText (value v)
            · have hbadinner := render_bad hplain (fun v hv ↦ hvalue v (by simp [hv])) hinner
              rw [unquoteFrom_bad hbadinner] at hstring
              cases hstring
            · have hinnerPlain : PlainText (render value inner) := by
                apply render_plain hplain
                intro v hv
                exact (hvalue v (by simp [hv])).resolve_right fun hb ↦ hinner ⟨v, hv, hb⟩
              rw [unquoteFrom_append hinnerPlain, unquoteFrom_quote] at hstring
              cases hstring
              obtain ⟨v, hv, hb⟩ := hbad
              have hvrest : .inr v ∈ rest := by
                simp only [List.mem_cons, List.mem_append] at hv
                obtain hv | hv | hv | hv := hv
                · cases hv
                · exact absurd ⟨v, hv, hb⟩ hinner
                · cases hv
                · exact hv
              exact ih rest.length (by simp; omega) hlex (fun v hv ↦ hvalue v (by simp [hv])) ⟨v, hvrest, hb⟩
                _ rfl hrest
        · cases hlexes with
          | char _ _ hrest =>
            obtain ⟨v, hv, hb⟩ := hbad
            have hvs : .inr v ∈ s := (List.mem_cons.mp hv).resolve_left fun he ↦ by cases he
            exact ih s.length (Nat.lt_succ_self _) hlex (fun v hv ↦ hvalue v (List.mem_cons_of_mem _ hv))
              ⟨v, hvs, hb⟩ _ rfl hrest
          | string => exact hq rfl

theorem lexSyms_mem (h : lexSyms none syms = some toks) (hmem : .inr inner ∈ toks) : ∀ x ∈ inner, x ∈ syms := by
  induction hn : syms.length using Nat.strong_induction_on generalizing syms toks with
  | _ n ih =>
    subst hn
    cases syms with
    | nil =>
      cases h
      cases hmem
    | cons x s =>
      cases x with
      | inr v => cases h
      | inl c =>
        obtain ⟨rfl, hin⟩ | ⟨-, -, toks', hlex, rfl⟩ := lexSyms_outside h
        · obtain ⟨inner', rest, toks', hin⟩ := lexSyms_inside hin
          obtain ⟨rfl, rfl, hlex, -⟩ := hin
          intro x hx
          obtain he | hmem := List.mem_cons.mp hmem
          · cases he
            exact List.mem_cons_of_mem _ (List.mem_append_left _ hx)
          · have hrest := ih rest.length (by simp; omega) hlex hmem rfl x hx
            simp [hrest]
        · have hmem' : .inr inner ∈ toks' := (List.mem_cons.mp hmem).resolve_left fun he ↦ by cases he
          intro x hx
          exact List.mem_cons_of_mem _ (ih s.length (Nat.lt_succ_self _) hlex hmem' rfl x hx)

section Values

variable {ns name s : Text} {c : Char}

/-- The values that the validators let through, of either kind. -/
def ValidText (s : Text) : Prop := ∀ c ∈ s, instanceLabelChar c = true

theorem valid_char (h : instanceLabelChar c = true) (hdot : c ≠ '.') :
    c ∉ promQLRegexMetas ∧ isRegexMetaChar c = false := by
  have hmetas : (promQLRegexMetas ++ Loki.regexMetas).all (fun m ↦ m = '.' || !instanceLabelChar m) = true := by
    decide
  have hnot : c ∉ promQLRegexMetas ++ Loki.regexMetas := by
    intro hc
    have hall := List.all_eq_true.mp hmetas c hc
    simp [hdot, h] at hall
  obtain ⟨hpromQL, hre2⟩ := not_or.mp (fun hc ↦ hnot (List.mem_append.mpr hc))
  exact ⟨hpromQL, decide_eq_false hre2⟩

theorem valid_plain (h : instanceLabelChar c = true) : (c ≠ '\"' ∧ c ≠ '\n' ∧ c ≠ '\\') ∧ c ≠ '/' := by
  refine ⟨⟨?_, ?_, ?_⟩, ?_⟩
  all_goals
    intro he
    subst he
    exact absurd h (by decide)

theorem escapePromQLRegex_append (s t : Text) :
    escapePromQLRegex (s ++ t) = escapePromQLRegex s ++ escapePromQLRegex t := List.flatMap_append

theorem escapePromQLRegex_self (h : ValidText s) (hdot : '.' ∉ s) : escapePromQLRegex s = s := by
  induction s with
  | nil => rfl
  | cons c s ih =>
    have hc : c ≠ '.' := fun he ↦ hdot (he ▸ List.mem_cons_self)
    have hs := ih (fun d hd ↦ h d (List.mem_cons_of_mem c hd)) (fun hd ↦ hdot (List.mem_cons_of_mem c hd))
    have hmeta := (valid_char (h c List.mem_cons_self) hc).1
    unfold escapePromQLRegex at hs ⊢
    rw [List.flatMap_cons, hs, if_neg hmeta]
    rfl

theorem valid_plainText (h : ValidText s) : PlainText s := fun c hc ↦ (valid_plain (h c hc)).1

/-- A dot is escaped for the regular expression only, which the string does not allow. -/
theorem escapePromQLRegex_bad (h : ValidText s) (hdot : '.' ∈ s) : BadText (escapePromQLRegex s) := by
  obtain ⟨a, b, rfl, ha⟩ := List.eq_append_cons_of_mem hdot
  have hvalid : ValidText a := fun c hc ↦ h c (List.mem_append_left _ hc)
  refine ⟨a, escapePromQLRegex b, ?_, valid_plainText hvalid⟩
  rw [escapePromQLRegex_append, escapePromQLRegex_self hvalid ha]
  rfl

theorem raw_valid (hns : ValidText ns) (hname : ValidText name) (v : Var) : ValidText (v.raw ns name) := by
  cases v with
  | ns | nsRegex => exact hns
  | name | nameRegex => exact hname

/-- The fields that a value with a dot must not be put in. -/
def NoDot (ns name : Text) (v : Var) : Prop := v.isRegex = true → '.' ∉ v.raw ns name

theorem value_eq_raw (hns : ValidText ns) (hname : ValidText name) {v : Var} (h : NoDot ns name v) :
    v.value ns name = v.raw ns name := by
  unfold Var.value
  split
  · next hregex => exact escapePromQLRegex_self (raw_valid hns hname v) (h hregex)
  · rfl

theorem value_bad (hns : ValidText ns) (hname : ValidText name) {v : Var} (h : ¬ NoDot ns name v) :
    BadText (v.value ns name) := by
  unfold NoDot at h
  push Not at h
  obtain ⟨hregex, hdot⟩ := h
  rw [Var.value, if_pos hregex]
  exact escapePromQLRegex_bad (raw_valid hns hname v) hdot

end Values

end KubeCenter.Monitoring
