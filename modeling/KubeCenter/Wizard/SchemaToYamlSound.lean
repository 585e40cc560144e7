import KubeCenter.Wizard.SchemaToYaml

namespace KubeCenter.Wizard.SchemaToYaml

open KubeCenter.Core BlockYaml

/-! ## Scalars as they are written -/

theorem quoted_escape {s : Text} (h : ∀ c ∈ s, isBreak c = false) (t : Text) :
    quoted (s.flatMap escape ++ '\"' :: t) = some (s, t) := by
  induction s with
  | nil => rfl
  | cons c s ih =>
    have hs := ih (fun d hd ↦ h d (List.mem_cons_of_mem c hd))
    rw [List.flatMap_cons, List.append_assoc]
    by_cases hback : c = '\\'
    · subst hback
      change quoted ('\\' :: '\\' :: (s.flatMap escape ++ '\"' :: t)) = _
      rw [quoted, hs]
      rfl
    by_cases hquote : c = '\"'
    · subst hquote
      change quoted ('\\' :: '\"' :: (s.flatMap escape ++ '\"' :: t)) = _
      rw [quoted, hs]
      rfl
    · have hc : ¬ (c = '\\' ∨ isBreak c = true) := by
        rw [h c List.mem_cons_self]
        simp [hback]
      rw [escape, if_neg (not_or.mpr ⟨hback, hquote⟩), List.singleton_append, quoted, if_neg hc, hs]
      · rfl
      · exact fun hc ↦ hquote hc
      · exact fun _ hc ↦ absurd hc hback
      · exact fun _ hc ↦ absurd hc hback

theorem quoteString_quoted {s : Text} (h : s = [] ∨ needsQuote s = true) :
    quoteString s = '\"' :: (s.flatMap escape ++ ['\"']) := by
  by_cases hs : s = []
  · rw [hs]
    rfl
  · rw [quoteString, if_neg hs, if_pos (h.resolve_left hs)]
    rfl

theorem quoteString_plain {s : Text} (hs : s ≠ []) (h : needsQuote s = false) : quoteString s = s := by
  rw [quoteString, if_neg hs, if_neg (by rw [h]; exact Bool.false_ne_true)]

/-- What is written without quotes has no indicator in it, if it is on one line. -/
theorem indicator_unquoted {s : Text} (h : needsQuote s = false) (hs : ∀ c ∈ s, isBreak c = false) :
    ∀ c ∈ s, indicator c = false := by
  intro c hc
  have hany := (Bool.or_eq_false_iff.mp h).1
  have hnot : c ∉ ":#{}[],&*?|>!%@`\"'\n\r\t".toList := by
    simpa using List.any_eq_false.mp hany c hc
  have hsub : ":#{}[],&*?|>!%@`\"'\t".toList ⊆ ":#{}[],&*?|>!%@`\"'\n\r\t".toList := by decide
  rw [indicator, hs c hc, Bool.or_false, decide_eq_false_iff_not]
  exact fun hmem ↦ hnot (hsub hmem)

theorem unbroken_of_legible {s : Text} (h : Legible s) : '\n' ∉ s := fun hmem ↦ absurd (h _ hmem).2 (by decide)

theorem mem_escape {s : Text} {c : Char} (h : c ∈ s.flatMap escape) : c = '\\' ∨ c ∈ s := by
  obtain ⟨d, hd, hc⟩ := List.mem_flatMap.mp h
  rw [escape] at hc
  split at hc
  · cases List.mem_cons.mp hc with
    | inl hc => exact .inl hc
    | inr hc => exact .inr (List.mem_singleton.mp hc ▸ hd)
  · exact .inr (List.mem_singleton.mp hc ▸ hd)

theorem mem_quoteString {s : Text} {c : Char} (h : c ∈ quoteString s) : c = '\\' ∨ c = '\"' ∨ c ∈ s := by
  by_cases hs : s = [] ∨ needsQuote s = true
  · rw [quoteString_quoted hs, List.mem_cons, List.mem_append, List.mem_singleton] at h
    rcases h with h | h | h
    · exact .inr (.inl h)
    · exact (mem_escape h).imp_right .inr
    · exact .inr (.inl h)
  · rw [not_or, Bool.not_eq_true] at hs
    rw [quoteString_plain hs.1 hs.2] at h
    exact .inr (.inr h)

theorem unbroken_quoteString {s : Text} (h : Legible s) : '\n' ∉ quoteString s := by
  intro hmem
  rcases mem_quoteString hmem with hc | hc | hc
  · exact absurd hc (by decide)
  · exact absurd hc (by decide)
  · exact unbroken_of_legible h hc

theorem printable_quoteString {s : Text} (h : Legible s) : ∀ c ∈ quoteString s, printable c = true := by
  intro c hmem
  rcases mem_quoteString hmem with hc | hc | hc
  · rw [hc]
    decide
  · rw [hc]
    decide
  · exact (h c hc).1

theorem written_quoted {s : Text} (hl : Legible s) (h : s = [] ∨ needsQuote s = true) :
    Written (quoteString s) (.scalar (.string s)) := by
  have hq := quoted_escape (fun c hc ↦ (hl c hc).2) []
  have hbroken := unbroken_quoteString hl
  rw [quoteString_quoted h] at hbroken ⊢
  refine ⟨List.cons_ne_nil _ _, by simp, ?_, rfl, hbroken, ?_, ?_⟩
  · rw [← List.cons_append, List.getLast?_append]
    simp
  · rw [BlockYaml.inline, hq]
  · rw [content, hq]
    rfl

/-- A string that can be written stands for itself. -/
theorem written_string {s : Text} (h : WritableString s) : Written (quoteString s) (.scalar (.string s)) := by
  obtain ⟨hl, hs⟩ := h
  by_cases hquoted : s = [] ∨ needsQuote s = true
  · exact written_quoted hl hquoted
  · rw [not_or, Bool.not_eq_true] at hquoted
    obtain ⟨⟨hhead, hlast, hresolve⟩, hdash⟩ := (hs.resolve_left hquoted.1).resolve_left
      (by rw [hquoted.2]; exact Bool.false_ne_true)
    have hplain := indicator_unquoted hquoted.2 (fun c hc ↦ (hl c hc).2)
    rw [quoteString_plain hquoted.1 hquoted.2, ← hresolve]
    exact Written.plain hquoted.1 hplain hhead hlast hdash

/-- A key that can be written is read as itself, and what follows its colon as the value. -/
theorem content_key {k r : Text} (h : WritableKey k) (hr : ends r = true) :
    content (quoteString k ++ ':' :: r) = (value r).map (.field (.string k)) := by
  obtain ⟨hl, hsize, hk⟩ := h
  by_cases hquoted : k = [] ∨ needsQuote k = true
  · have hq := quoted_escape (fun c hc ↦ (hl c hc).2) (':' :: r)
    have hlen : (k.flatMap escape ++ '\"' :: ':' :: r).length ≤ r.length + keyLimit := by
      rw [quoteString_quoted hquoted] at hsize
      simp only [List.length_cons, List.length_append, List.length_nil] at hsize ⊢
      omega
    have htext : quoteString k ++ ':' :: r = '\"' :: (k.flatMap escape ++ '\"' :: ':' :: r) := by
      rw [quoteString_quoted hquoted, List.cons_append, List.append_assoc]
      rfl
    rw [htext, content, hq]
    exact if_pos ⟨hr, hlen⟩
  · rw [not_or, Bool.not_eq_true] at hquoted
    obtain ⟨⟨-, hlast, hresolve⟩, -, hmerge⟩ := (hk.resolve_left hquoted.1).resolve_left
      (by rw [hquoted.2]; exact Bool.false_ne_true)
    have hplain := indicator_unquoted hquoted.2 (fun c hc ↦ (hl c hc).2)
    rw [quoteString_plain hquoted.1 hquoted.2] at hsize ⊢
    have hcolon : ':' ∉ k := fun hmem ↦ absurd (hplain _ hmem) (by decide)
    have hhead : (k ++ ':' :: r).head? ≠ some '\"' := by
      obtain ⟨c, t, rfl⟩ := List.exists_cons_of_ne_nil hquoted.1
      intro hc
      exact absurd (hplain c List.mem_cons_self) (by rw [Option.some.inj hc]; decide)
    have hkey : key (trimSpaces k) = some (.string k) := by
      rw [trimSpaces_self hlast, key, if_neg hmerge, ← hresolve]
      exact plain_eq_some.mpr ⟨hquoted.1, hplain, by rw [hresolve]⟩
    rw [content_unquoted hhead, cut_append hcolon]
    simp only [hr, hsize, and_self, if_true, hkey, Option.bind_some]

/-! Numbers -/

def numeralChars : Text := "0123456789.e+-".toList

theorem mem_digits {ds : Digits} {c : Char} (h : c ∈ ds.text) : c.isDigit = true ∧ c ∈ numeralChars := by
  have hdigit : ∀ d : Fin 10, (Nat.digitChar d.1).isDigit = true ∧ Nat.digitChar d.1 ∈ numeralChars := by decide
  obtain ⟨d, -, rfl⟩ := List.mem_map.mp h
  exact hdigit d

theorem isDigit_of_mem {ds : Digits} {c : Char} (h : c ∈ ds.text) : c.isDigit = true := (mem_digits h).1

theorem Digits.text_ne_nil (ds : Digits) : ds.text ≠ [] := fun h ↦ ds.2 (List.map_eq_nil_iff.mp h)

theorem numeral_digits (ds : Digits) : numeral Char.isDigit ds.text = true := by
  rw [numeral, List.isEmpty_eq_false_iff.mpr ds.text_ne_nil, List.all_eq_true.mpr (fun c hc ↦ isDigit_of_mem hc)]
  rfl

theorem digits_span (ds : Digits) {t : Text} (ht : ∀ c ∈ t.head?, c.isDigit = false) :
    (ds.text ++ t).takeWhile Char.isDigit = ds.text ∧ (ds.text ++ t).dropWhile Char.isDigit = t := by
  have hall : ∀ c ∈ ds.text, c.isDigit = true := fun c hc ↦ isDigit_of_mem hc
  rw [List.takeWhile_append_of_pos hall, List.dropWhile_append_of_pos hall]
  cases t with
  | nil => exact ⟨List.append_nil _, rfl⟩
  | cons c t =>
    have hc : c.isDigit = false := ht c rfl
    simp [hc]

theorem exponent_exponentText (e : Option (Bool × Digits)) : exponent (exponentText e) = true := by
  rcases e with - | ⟨(- | -), ds⟩
  · rfl
  · exact numeral_digits ds
  · exact numeral_digits ds

theorem exponentText_head (e : Option (Bool × Digits)) :
    ∀ c ∈ (exponentText e).head?, c.isDigit = false ∧ c ≠ '.' := by
  rcases e with - | ⟨(- | -), ds⟩
  · exact fun c hc ↦ absurd hc (by simp [exponentText])
  all_goals
    intro c hc
    obtain rfl : 'e' = c := Option.some.inj hc
    decide

theorem decimal_body (d : Numeral) : BlockYaml.decimal d.body = true := by
  obtain ⟨negative, whole, fraction, e⟩ := d
  have hne : whole.text.isEmpty = false := List.isEmpty_eq_false_iff.mpr whole.text_ne_nil
  have he := exponent_exponentText e
  have hhead := exponentText_head e
  cases fraction with
  | none =>
    have hspan := digits_span whole (fun c hc ↦ (hhead c hc).1)
    rw [Numeral.body, fractionText, List.append_nil, BlockYaml.decimal, hspan.1, hspan.2, hne]
    split
    · next t ht => exact absurd rfl (hhead '.' (by rw [ht]; rfl)).2
    · rw [he]
      rfl
  | some ds =>
    have hspan := digits_span whole (t := '.' :: (ds.text ++ exponentText e))
      (fun c hc ↦ by rw [← Option.some.inj hc]; decide)
    have hfraction := digits_span ds (fun c hc ↦ (hhead c hc).1)
    have hbody : Numeral.body ⟨negative, whole, some ds, e⟩ = whole.text ++ '.' :: (ds.text ++ exponentText e) :=
      List.append_assoc _ _ _
    rw [hbody, BlockYaml.decimal, hspan.1, hspan.2, hne]
    simp only [hfraction.2, he, Bool.not_false, Bool.true_or, Bool.and_self]

theorem text_chars (d : Numeral) : ∀ c ∈ d.text, c ∈ numeralChars := by
  have hdigits (ds : Digits) : ∀ c ∈ ds.text, c ∈ numeralChars := fun c hc ↦ (mem_digits hc).2
  have hfraction (f : Option Digits) : ∀ c ∈ fractionText f, c ∈ numeralChars := by
    cases f with
    | none => exact fun c hc ↦ absurd hc List.not_mem_nil
    | some ds => exact List.forall_mem_cons.mpr ⟨by decide, hdigits ds⟩
  have hexponent (e : Option (Bool × Digits)) : ∀ c ∈ exponentText e, c ∈ numeralChars := by
    cases e with
    | none => exact fun c hc ↦ absurd hc List.not_mem_nil
    | some e =>
      refine List.forall_mem_cons.mpr ⟨by decide, List.forall_mem_cons.mpr ⟨?_, hdigits e.2⟩⟩
      split <;> decide
  have hbody : ∀ c ∈ d.body, c ∈ numeralChars := by
    rw [Numeral.body, List.append_assoc]
    exact List.forall_mem_append.mpr ⟨hdigits d.whole, List.forall_mem_append.mpr ⟨hfraction _, hexponent _⟩⟩
  rw [Numeral.text]
  split
  · exact List.forall_mem_cons.mpr ⟨by decide, hbody⟩
  · exact hbody

theorem body_head (d : Numeral) : ∃ c t, c.isDigit = true ∧ d.body = c :: t := by
  obtain ⟨c, t, ht⟩ := List.exists_cons_of_ne_nil d.whole.text_ne_nil
  refine ⟨c, t ++ fractionText d.fraction ++ exponentText d.exponent, isDigit_of_mem (ht ▸ List.mem_cons_self), ?_⟩
  rw [Numeral.body, ht]
  rfl

theorem isNumber_decimal {c : Char} {s : Text} (hc : c.isDigit = true ∨ c = '-')
    (hs : (c :: s).filter (· ≠ '_') = c :: s) (h : BlockYaml.decimal (unsigned (c :: s)) = true) :
    BlockYaml.isNumber (c :: s) = true := by
  have hdot : c ≠ '.' := by
    rintro rfl
    revert hc
    decide
  have hbegins : (c.isDigit || decide (c = '+') || decide (c = '-')) = true := by
    rcases hc with hc | rfl
    · rw [hc]
      rfl
    · rfl
  rw [BlockYaml.isNumber]
  · simp only [hs, h, hbegins, Bool.true_or, Bool.and_self]
  · exact fun h ↦ hdot h

theorem isNumber_text (d : Numeral) : BlockYaml.isNumber d.text = true := by
  have hfilter : d.text.filter (· ≠ '_') = d.text := by
    rw [List.filter_eq_self]
    have hnot : ∀ c ∈ numeralChars, decide (c ≠ '_') = true := List.all_eq_true.mp (by decide)
    exact fun c hc ↦ hnot c (text_chars d c hc)
  obtain ⟨c, t, hc, hbody⟩ := body_head d
  have hdecimal := decimal_body d
  rw [Numeral.text] at hfilter ⊢
  by_cases hneg : d.negative = true
  · rw [if_pos hneg] at hfilter ⊢
    exact isNumber_decimal (.inr rfl) hfilter hdecimal
  · rw [if_neg hneg] at hfilter ⊢
    have hunsigned : unsigned d.body = d.body := by
      rw [hbody]
      unfold unsigned
      split
      · next h => exact absurd hc (by rw [(List.cons.inj h).1]; decide)
      · next h => exact absurd hc (by rw [(List.cons.inj h).1]; decide)
      · rfl
    rw [← hunsigned] at hdecimal
    rw [hbody] at hfilter hdecimal ⊢
    exact isNumber_decimal (.inl hc) hfilter hdecimal

theorem resolve_text (d : Numeral) : resolve d.text = .number d.text := by
  have hwords : ∀ w ∈ nullWords ++ trueWords ++ falseWords, w.any (fun c ↦ c ∉ numeralChars) = true := by decide
  have hnot : d.text ∉ nullWords ++ trueWords ++ falseWords := by
    intro hmem
    obtain ⟨c, hc, hout⟩ := List.any_eq_true.mp (hwords _ hmem)
    exact of_decide_eq_true hout (text_chars d c hc)
  rw [List.mem_append, List.mem_append, not_or, not_or] at hnot
  simp only [← List.contains_iff_mem] at hnot
  rw [resolve, if_neg hnot.1.1, if_neg hnot.1.2, if_neg hnot.2,
    if_pos (Bool.or_eq_true_iff.mpr (.inr (isNumber_text d)))]

theorem dashed_text (d : Numeral) : dashed d.text = false := by
  obtain ⟨c, t, hc, hbody⟩ := body_head d
  rw [Numeral.text, hbody]
  split
  · unfold dashed
    split
    · next h => cases h
    · next h =>
      obtain ⟨rfl, -⟩ := List.cons.inj (List.cons.inj h).2
      cases hc
    · rfl
  · unfold dashed
    split
    · next h =>
      obtain ⟨rfl, -⟩ := List.cons.inj h
      cases hc
    · next h =>
      obtain ⟨rfl, -⟩ := List.cons.inj h
      cases hc
    · rfl

theorem text_ne_nil (d : Numeral) : d.text ≠ [] := by
  obtain ⟨c, t, -, hbody⟩ := body_head d
  rw [Numeral.text, hbody]
  split <;> exact List.cons_ne_nil _ _

theorem written_number (d : Numeral) : Written d.text (.scalar (.number d.text)) := by
  have hchars : ∀ c ∈ numeralChars, decide (indicator c = false ∧ c ≠ ' ') = true := List.all_eq_true.mp (by decide)
  have hspace : ' ' ∉ d.text := fun h ↦ (of_decide_eq_true (hchars _ (text_chars d _ h))).2 rfl
  have hwritten := Written.plain (text_ne_nil d) (fun c hc ↦ (of_decide_eq_true (hchars c (text_chars d c hc))).1)
    (head?_ne_of_not_mem hspace) (fun h ↦ hspace (List.mem_of_getLast? h)) (dashed_text d)
  rwa [resolve_text] at hwritten

theorem written_word {x : Text} {v : Scalar} (h : x ∈ ["null", "true", "false"].map String.toList)
    (hv : resolve x = v) : Written x (.scalar v) := by
  have hwords : ∀ x ∈ ["null", "true", "false"].map String.toList, x ≠ [] ∧ x.any indicator = false ∧
      x.head? ≠ some ' ' ∧ x.getLast? ≠ some ' ' ∧ dashed x = false := by decide
  obtain ⟨hne, hplain, hhead, hlast, hdash⟩ := hwords x h
  rw [← hv]
  exact Written.plain hne (fun c hc ↦ Bool.eq_false_iff.mpr (List.any_eq_false.mp hplain c hc)) hhead hlast hdash

/-! ## Rows -/

theorem pad_succ (indent : ℕ) : pad indent ++ [' ', ' '] = pad (indent + 1) := by
  rw [pad, pad, Nat.mul_add, List.replicate_add]
  rfl

theorem unbroken_pad (indent : ℕ) : '\n' ∉ pad indent := newline_not_mem_spaces _

theorem textLines_pad {indent : ℕ} {s : Text} (hs : '\n' ∉ s) : textLines (pad indent ++ s) = expand (2 * indent) s := by
  have hrow : '\n' ∉ pad indent ++ s := by
    rw [List.mem_append, not_or]
    exact ⟨unbroken_pad indent, hs⟩
  rw [textLines_single hrow, pad, expand_spaces, Nat.zero_add]

theorem textLines_item (indent : ℕ) (s : Text) :
    textLines (pad indent ++ '-' :: ' ' :: s) = (2 * indent, .dash) :: textLines (pad (indent + 1) ++ s) :=
  textLines_dash (2 * indent) s

theorem textLines_joinLines (ls : List Text) : textLines (joinLines ls) = ls.flatMap textLines := textLines_intercalate ls

theorem textLines_block (p : Text) (ls : List Text) :
    textLines (p ++ '\n' :: joinLines ls) = textLines p ++ ls.flatMap textLines := by
  rw [textLines_append, textLines_joinLines]

theorem quoteString_ne_nil (s : Text) : quoteString s ≠ [] := by
  rw [quoteString]
  split
  · exact List.cons_ne_nil _ _
  · split
    · exact List.cons_ne_nil _ _
    · next h _ => exact h

theorem head?_append {x : Text} (hx : x ≠ []) (y : Text) : (x ++ y).head? = x.head? := by
  obtain ⟨c, t, rfl⟩ := List.exists_cons_of_ne_nil hx
  rfl

theorem dashed_append {k r : Text} (hne : k ≠ []) (h : dashed (k ++ ':' :: r) = true) :
    dashed k = true ∧ k ≠ ['-'] := by
  obtain ⟨c, k, rfl⟩ := List.exists_cons_of_ne_nil hne
  rcases dashed_iff.mp h with h | ⟨t, h⟩
  · cases k <;> cases (List.cons.inj h).2
  · obtain ⟨rfl, htail⟩ := List.cons.inj h
    cases k with
    | nil => cases (List.cons.inj htail).1
    | cons d k =>
      obtain ⟨hspace, -⟩ := List.cons.inj htail
      rw [hspace]
      exact ⟨rfl, by simp⟩

theorem key_begins {k : Text} (h : WritableKey k) (r : Text) :
    (quoteString k ++ ':' :: r).head? ≠ some ' ' ∧ dashed (quoteString k ++ ':' :: r) = false := by
  rw [head?_append (quoteString_ne_nil k)]
  by_cases hquoted : k = [] ∨ needsQuote k = true
  · rw [quoteString_quoted hquoted]
    exact ⟨by simp, rfl⟩
  · rw [not_or, Bool.not_eq_true] at hquoted
    obtain ⟨⟨hhead, -, -⟩, hdash, -⟩ := (h.2.2.resolve_left hquoted.1).resolve_left
      (by rw [hquoted.2]; exact Bool.false_ne_true)
    rw [quoteString_plain hquoted.1 hquoted.2]
    refine ⟨hhead, Bool.eq_false_iff.mpr fun h ↦ ?_⟩
    obtain ⟨hdashed, hne⟩ := dashed_append hquoted.1 h
    exact hne (hdash hdashed)

/-- The line of a key, with what stands behind its colon. -/
theorem textLines_key {k r : Text} (h : WritableKey k) (hr : '\n' ∉ r) (indent : ℕ) :
    textLines (pad indent ++ quoteString k ++ ':' :: r) = [(2 * indent, .text (quoteString k ++ ':' :: r))] := by
  have hrow : '\n' ∉ quoteString k ++ ':' :: r := by
    rw [List.mem_append, List.mem_cons, not_or, not_or]
    exact ⟨unbroken_quoteString h.1, by decide, hr⟩
  obtain ⟨hhead, hdash⟩ := key_begins h r
  rw [List.append_assoc, textLines_pad hrow, expand_text (by simp) hhead hdash]

theorem stands_inline {k x : Text} {w : Node} (hk : WritableKey k) (hx : Written x w) (indent : ℕ) :
    StandsFields (2 * indent) (textLines (pad indent ++ quoteString k ++ ':' :: ' ' :: x)) [(.string k, w)] := by
  have hrow : '\n' ∉ ' ' :: x := by
    rw [List.mem_cons, not_or]
    exact ⟨by decide, hx.unbroken⟩
  rw [textLines_key hk hrow]
  apply StandsFields.inline
  rw [content_key hk rfl, hx.value, Option.map_some]

theorem stands_block {k : Text} {ls : List (ℕ × Head)} {w : Node} (hk : WritableKey k) (indent : ℕ)
    (h : Stands (2 * (indent + 1)) ls w) :
    StandsFields (2 * indent) (textLines (pad indent ++ quoteString k ++ [':']) ++ ls) [(.string k, w)] := by
  rw [textLines_key hk List.not_mem_nil]
  refine StandsFields.block (by omega) ?_ h
  rw [content_key hk rfl]
  rfl

/-! ## Trees -/

/-- Behind a key or a dash the text stands for the node, on the same line or on the lines below. -/
def Renders (indent : ℕ) (x : Text) (w : Node) : Prop :=
  Written x w ∨ ∃ ls, x = '\n' :: joinLines ls ∧ Stands (2 * indent) (ls.flatMap textLines) w

theorem Renders.stands {indent : ℕ} {x : Text} {w : Node} (h : Renders indent x w) :
    Stands (2 * indent) (textLines (pad indent ++ x)) w := by
  rcases h with h | ⟨ls, rfl, h⟩
  · rw [textLines_pad h.unbroken]
    exact h.stands _
  · have hpad : textLines (pad indent) = [] := by
      have h : textLines (pad indent ++ []) = [] := textLines_pad List.not_mem_nil
      rwa [List.append_nil] at h
    rw [textLines_block, hpad]
    exact h

theorem Renders.member {indent : ℕ} {k x : Text} {w : Node} (hk : WritableKey k) (h : Renders (indent + 1) x w) :
    StandsFields (2 * indent) (textLines (member indent k x)) [(.string k, w)] := by
  rcases h with h | ⟨ls, rfl, h⟩
  · rw [SchemaToYaml.member, if_neg h.head?_ne_newline]
    exact stands_inline hk h indent
  · have hrow : pad indent ++ quoteString k ++ ':' :: '\n' :: joinLines ls =
        (pad indent ++ quoteString k ++ [':']) ++ '\n' :: joinLines ls := by
      rw [List.append_assoc _ [':']]
      rfl
    have hhead : ('\n' :: joinLines ls).head? = some '\n' := rfl
    rw [SchemaToYaml.member, if_pos hhead, hrow, textLines_block]
    exact stands_block hk indent h

theorem fields_ne_nil {ms : List (Text × Form)} (h : ∃ m ∈ ms, isEmptyValue m.2 = false) : fields ms ≠ [] := by
  induction ms with
  | nil =>
    obtain ⟨m, hm, -⟩ := h
    exact absurd hm List.not_mem_nil
  | cons m ms ih =>
    obtain ⟨k, v⟩ := m
    rw [fields]
    split
    · next hv =>
      obtain ⟨m, hm, hne⟩ := h
      rcases List.mem_cons.mp hm with rfl | hm
      · exact absurd hv (by rw [hne]; exact Bool.false_ne_true)
      · exact ih ⟨m, hm, hne⟩
    · exact List.cons_ne_nil _ _

theorem serializeObject_eq_nil (indent : ℕ) (ms : List (Text × Form)) :
    serializeObject indent ms = [] ↔ fields ms = [] := by
  induction ms with
  | nil => exact ⟨fun _ ↦ rfl, fun _ ↦ rfl⟩
  | cons m ms ih =>
    obtain ⟨k, v⟩ := m
    rw [serializeObject, fields]
    split
    · exact ih
    · exact ⟨fun h ↦ absurd h (List.cons_ne_nil _ _), fun h ↦ absurd h (List.cons_ne_nil _ _)⟩

/-- A line of an object is a key behind its indentation. -/
theorem mem_serializeObject {indent : ℕ} {ms : List (Text × Form)} : ∀ l ∈ serializeObject indent ms,
    ∃ m ∈ ms, isEmptyValue m.2 = false ∧ ∃ r, l = pad indent ++ (quoteString m.1 ++ ':' :: r) := by
  induction ms with
  | nil => exact fun l hl ↦ absurd hl List.not_mem_nil
  | cons m ms ih =>
    obtain ⟨k, v⟩ := m
    intro l hl
    rw [serializeObject] at hl
    split at hl
    · obtain ⟨m, hm, hl⟩ := ih l hl
      exact ⟨m, List.mem_cons_of_mem _ hm, hl⟩
    · next hv =>
      rcases List.mem_cons.mp hl with rfl | hl
      · refine ⟨(k, v), List.mem_cons_self, Bool.eq_false_iff.mpr hv, ?_⟩
        rw [SchemaToYaml.member]
        split
        · exact ⟨_, List.append_assoc _ _ _⟩
        · exact ⟨_, List.append_assoc _ _ _⟩
      · obtain ⟨m, hm, hl⟩ := ih l hl
        exact ⟨m, List.mem_cons_of_mem _ hm, hl⟩

theorem trimStart_pad (indent : ℕ) {s : Text} (h : ∀ c ∈ s.head?, jsSpace c = false) :
    trimStart (pad indent ++ s) = s := by
  have hpad : ∀ c ∈ pad indent, jsSpace c = true := by
    intro c hc
    rw [List.eq_of_mem_replicate hc]
    decide
  rw [trimStart, List.dropWhile_append_of_pos hpad]
  cases s with
  | nil => rfl
  | cons c s =>
    have hc : jsSpace c = false := h c rfl
    simp [hc]

/-- The lines of an object as an item are trimmed and indented anew, behind a dash. -/
theorem textLines_objectItem {indent : ℕ} {ls : List Text} (hne : ls ≠ []) :
    (objectItem indent ls).flatMap textLines =
      (2 * indent, .dash) :: (ls.map (fun l ↦ pad (indent + 1) ++ trimStart l)).flatMap textLines := by
  obtain ⟨first, more, rfl⟩ := List.exists_cons_of_ne_nil hne
  have hmore : more.map (fun l ↦ pad indent ++ ' ' :: ' ' :: trimStart l) =
      more.map (fun l ↦ pad (indent + 1) ++ trimStart l) := by
    refine List.map_congr_left fun l _ ↦ ?_
    rw [← pad_succ, List.append_assoc]
    rfl
  rw [objectItem, hmore, List.flatMap_cons, List.map_cons, List.flatMap_cons, textLines_item]
  rfl

/-- Lines that begin with their keys stay as they are. -/
theorem map_trimStart {indent : ℕ} {ls : List Text}
    (h : ∀ l ∈ ls, ∃ s, l = pad indent ++ s ∧ ∀ c ∈ s.head?, jsSpace c = false) :
    ls.map (fun l ↦ pad indent ++ trimStart l) = ls := by
  rw [List.map_congr_left (g := id), List.map_id]
  intro l hl
  obtain ⟨t, rfl, ht⟩ := h l hl
  rw [trimStart_pad _ ht, id_eq]

theorem written_empty : Written ['[', ']'] (.seq []) ∧ Written ['{', '}'] (.map []) :=
  ⟨⟨by decide, by decide, by decide, rfl, by decide, rfl, rfl⟩, ⟨by decide, by decide, by decide, rfl, by decide, rfl, rfl⟩⟩

theorem textLines_emptyItem (indent : ℕ) : (objectItem indent []).flatMap textLines =
    (2 * indent, .dash) :: expand (2 * (indent + 1)) ['{', '}'] := by
  rw [objectItem, List.flatMap_singleton, textLines_item, textLines_pad written_empty.2.unbroken]

theorem stands_cons {indent : ℕ} {x : Text} {ls : List Text} {w : Node} {ws : List Node}
    (h : Renders (indent + 1) x w) (hs : StandsItems (2 * indent) (ls.flatMap textLines) ws) :
    StandsItems (2 * indent) (((pad indent ++ '-' :: ' ' :: x) :: ls).flatMap textLines) (w :: ws) := by
  rw [List.flatMap_cons, textLines_item]
  exact StandsItems.cons (by omega) h.stands hs

/-- An item that is an object, from the lines of its members. -/
theorem stands_objectItem {indent : ℕ} {ms : List (Text × Form)} {ls : List Text} {ws : List Node}
    (hkeys : KeysKept (.object ms))
    (h : StandsFields (2 * (indent + 1)) ((serializeObject (indent + 1) ms).flatMap textLines) (fields ms))
    (hs : StandsItems (2 * indent) (ls.flatMap textLines) ws) :
    StandsItems (2 * indent) ((objectItem indent (serializeObject (indent + 1) ms) ++ ls).flatMap textLines)
      (.map (fields ms) :: ws) := by
  rw [List.flatMap_append]
  by_cases hne : fields ms = []
  · rw [(serializeObject_eq_nil _ ms).mpr hne, textLines_emptyItem, hne]
    exact StandsItems.cons (by omega) (written_empty.2.stands _) hs
  · have hrows := mt (serializeObject_eq_nil (indent + 1) ms).mp hne
    have hkept : ∀ l ∈ serializeObject (indent + 1) ms,
        ∃ s, l = pad (indent + 1) ++ s ∧ ∀ c ∈ s.head?, jsSpace c = false := by
      intro l hl
      obtain ⟨m, hm, hfull, r, rfl⟩ := mem_serializeObject l hl
      refine ⟨_, rfl, ?_⟩
      rw [head?_append (quoteString_ne_nil m.1)]
      exact hkeys m hm hfull
    rw [textLines_objectItem hrows, map_trimStart hkept]
    exact StandsItems.cons (by omega) (Stands.map hne h) hs

theorem nodes_ne_nil {items : List Form} (h : items ≠ []) : nodes items ≠ [] := by
  obtain ⟨item, items, rfl⟩ := List.exists_cons_of_ne_nil h
  exact List.cons_ne_nil _ _

theorem written_null : Written "null".toList (.scalar .null) := written_word (by decide) rfl

theorem written_bool (b : Bool) : Written (if b then "true".toList else "false".toList) (.scalar (.bool b)) := by
  cases b with
  | true => exact written_word (by decide) rfl
  | false => exact written_word (by decide) rfl

mutual

theorem renders_value : (v : Form) → WritableForm v → Substantial v → (indent : ℕ) →
    Renders indent (serializeValue indent v) (node v)
  | .null, _, _, _ => .inl written_null
  | .bool b, _, _, _ => .inl (written_bool b)
  | .number d, _, _, _ => .inl (written_number d)
  | .string s, h, _, _ => .inl (written_string h)
  | .array items, h, _, indent => by
    by_cases hne : items = []
    · rw [hne]
      exact .inl written_empty.1
    · rw [serializeValue, if_neg (mt List.isEmpty_iff.mp hne)]
      exact .inr ⟨_, rfl, Stands.seq (nodes_ne_nil hne) (stands_items items h indent)⟩
  | .object ms, h, hsub, indent => by
    have hne : ms ≠ [] := by
      rintro rfl
      obtain ⟨m, hm, -⟩ := hsub
      exact absurd hm List.not_mem_nil
    rw [serializeValue, if_neg (mt List.isEmpty_iff.mp hne)]
    exact .inr ⟨_, rfl, Stands.map (fields_ne_nil hsub) (stands_members ms h indent)⟩

theorem stands_items : (items : List Form) → WritableItems items → (indent : ℕ) →
    StandsItems (2 * indent) ((serializeItems indent items).flatMap textLines) (nodes items)
  | [], _, _ => StandsItems.nil
  | .object ms :: items, h, indent =>
    stands_objectItem h.1 (stands_members ms h.2.1 (indent + 1)) (stands_items items h.2.2 indent)
  | .null :: items, h, indent =>
    stands_cons (renders_value .null h.2.1 trivial (indent + 1)) (stands_items items h.2.2 indent)
  | .bool b :: items, h, indent =>
    stands_cons (renders_value (.bool b) h.2.1 trivial (indent + 1)) (stands_items items h.2.2 indent)
  | .number d :: items, h, indent =>
    stands_cons (renders_value (.number d) h.2.1 trivial (indent + 1)) (stands_items items h.2.2 indent)
  | .string s :: items, h, indent =>
    stands_cons (renders_value (.string s) h.2.1 trivial (indent + 1)) (stands_items items h.2.2 indent)
  | .array inner :: items, h, indent =>
    stands_cons (renders_value (.array inner) h.2.1 trivial (indent + 1)) (stands_items items h.2.2 indent)

theorem stands_members : (ms : List (Text × Form)) → WritableMembers ms → (indent : ℕ) →
    StandsFields (2 * indent) ((serializeObject indent ms).flatMap textLines) (fields ms)
  | [], _, _ => StandsFields.nil
  | (k, v) :: ms, ⟨h, hms⟩, indent => by
    rw [serializeObject, fields]
    by_cases hv : isEmptyValue v = true
    · rw [if_pos hv, if_pos hv]
      exact stands_members ms hms indent
    · obtain ⟨hk, hsub, hw⟩ := h (Bool.eq_false_iff.mpr hv)
      rw [if_neg hv, if_neg hv, List.flatMap_cons]
      exact (Renders.member hk (renders_value v hw hsub (indent + 1))).append (stands_members ms hms indent)

end

/-! ## The whole text -/

def Clear (s : Text) : Prop := ∀ c ∈ s, printable c = true

theorem Clear.append {s t : Text} (hs : Clear s) (ht : Clear t) : Clear (s ++ t) := List.forall_mem_append.mpr ⟨hs, ht⟩

theorem Clear.cons {c : Char} {s : Text} (hc : printable c = true) (hs : Clear s) : Clear (c :: s) :=
  List.forall_mem_cons.mpr ⟨hc, hs⟩

theorem clear_of_chars {s : Text} (h : s.all printable = true) : Clear s := List.all_eq_true.mp h

theorem clear_pad (indent : ℕ) : Clear (pad indent) := by
  intro c hc
  rw [List.eq_of_mem_replicate hc]
  decide

theorem clear_trimStart {s : Text} (h : Clear s) : Clear (trimStart s) :=
  fun c hc ↦ h c ((List.dropWhile_suffix _).subset hc)

theorem clear_joinLines {ls : List Text} (h : ∀ l ∈ ls, Clear l) : Clear (joinLines ls) := by
  induction ls with
  | nil => exact fun c hc ↦ absurd hc List.not_mem_nil
  | cons l ls ih =>
    have hls := ih (fun m hm ↦ h m (List.mem_cons_of_mem l hm))
    cases ls with
    | nil =>
      rw [joinLines, List.intercalate_singleton]
      exact h l List.mem_cons_self
    | cons m ls =>
      have hjoin : joinLines (l :: m :: ls) = l ++ '\n' :: joinLines (m :: ls) := by
        rw [joinLines, List.intercalate_cons_cons, List.append_assoc]
        rfl
      rw [hjoin]
      exact (h l List.mem_cons_self).append (Clear.cons (by decide) hls)

theorem clear_member {indent : ℕ} {k x : Text} (hk : WritableKey k) (hx : Clear x) : Clear (member indent k x) := by
  have hkey : Clear (pad indent ++ quoteString k) := (clear_pad indent).append (printable_quoteString hk.1)
  rw [member]
  split
  · exact hkey.append (Clear.cons (by decide) hx)
  · exact hkey.append (Clear.cons (by decide) (Clear.cons (by decide) hx))

theorem clear_objectItem {indent : ℕ} {ls : List Text} (h : ∀ l ∈ ls, Clear l) :
    ∀ l ∈ objectItem indent ls, Clear l := by
  cases ls with
  | nil =>
    intro l hl
    rw [List.mem_singleton.mp hl]
    exact (clear_pad indent).append (clear_of_chars (by decide))
  | cons first more =>
    have hfirst := clear_trimStart (h first List.mem_cons_self)
    refine List.forall_mem_cons.mpr ⟨?_, fun l hl ↦ ?_⟩
    · exact (clear_pad indent).append (Clear.cons (by decide) (Clear.cons (by decide) hfirst))
    · obtain ⟨m, hm, rfl⟩ := List.mem_map.mp hl
      have hmore := clear_trimStart (h m (List.mem_cons_of_mem first hm))
      exact (clear_pad indent).append (Clear.cons (by decide) (Clear.cons (by decide) hmore))

theorem clear_cons {indent : ℕ} {x : Text} {ls : List Text} (hx : Clear x) (hls : ∀ l ∈ ls, Clear l) :
    ∀ l ∈ (pad indent ++ '-' :: ' ' :: x) :: ls, Clear l :=
  List.forall_mem_cons.mpr ⟨(clear_pad indent).append (Clear.cons (by decide) (Clear.cons (by decide) hx)), hls⟩

theorem clear_null : Clear "null".toList := clear_of_chars (by decide)

theorem clear_bool (b : Bool) : Clear (if b then "true".toList else "false".toList) := by
  split <;> exact clear_of_chars (by decide)

mutual

theorem clear_value : (v : Form) → WritableForm v → (indent : ℕ) → Clear (serializeValue indent v)
  | .null, _, _ => clear_null
  | .bool b, _, _ => clear_bool b
  | .number d, _, _ => fun c hc ↦ by
    have hchars : ∀ c ∈ numeralChars, printable c = true := List.all_eq_true.mp (by decide)
    exact hchars c (text_chars d c hc)
  | .string s, h, _ => printable_quoteString h.1
  | .array items, h, indent => by
    rw [serializeValue]
    split
    · exact clear_of_chars (by decide)
    · exact Clear.cons (by decide) (clear_joinLines (clear_items items h indent))
  | .object ms, h, indent => by
    rw [serializeValue]
    split
    · exact clear_of_chars (by decide)
    · exact Clear.cons (by decide) (clear_joinLines (clear_members ms h indent))

theorem clear_items : (items : List Form) → WritableItems items → (indent : ℕ) →
    ∀ l ∈ serializeItems indent items, Clear l
  | [], _, _ => fun _ hl ↦ absurd hl List.not_mem_nil
  | .object ms :: items, h, indent =>
    List.forall_mem_append.mpr
      ⟨clear_objectItem (clear_members ms h.2.1 (indent + 1)), clear_items items h.2.2 indent⟩
  | .null :: items, h, indent => clear_cons (clear_value .null h.2.1 (indent + 1)) (clear_items items h.2.2 indent)
  | .bool b :: items, h, indent =>
    clear_cons (clear_value (.bool b) h.2.1 (indent + 1)) (clear_items items h.2.2 indent)
  | .number d :: items, h, indent =>
    clear_cons (clear_value (.number d) h.2.1 (indent + 1)) (clear_items items h.2.2 indent)
  | .string s :: items, h, indent =>
    clear_cons (clear_value (.string s) h.2.1 (indent + 1)) (clear_items items h.2.2 indent)
  | .array inner :: items, h, indent =>
    clear_cons (clear_value (.array inner) h.2.1 (indent + 1)) (clear_items items h.2.2 indent)

theorem clear_members : (ms : List (Text × Form)) → WritableMembers ms → (indent : ℕ) →
    ∀ l ∈ serializeObject indent ms, Clear l
  | [], _, _ => fun _ hl ↦ absurd hl List.not_mem_nil
  | (k, v) :: ms, ⟨h, hms⟩, indent => by
    rw [serializeObject]
    by_cases hv : isEmptyValue v = true
    · rw [if_pos hv]
      exact clear_members ms hms indent
    · obtain ⟨hk, -, hw⟩ := h (Bool.eq_false_iff.mpr hv)
      rw [if_neg hv]
      exact List.forall_mem_cons.mpr
        ⟨clear_member hk (clear_value v hw (indent + 1)), clear_members ms hms indent⟩

end

/-- The keys that are the same in every manifest. -/
def fixedKeys : List Text :=
  ["apiVersion", "kind", "metadata", "name", "namespace", "labels", "annotations", "spec"].map String.toList

theorem writable_fixed : ∀ k ∈ fixedKeys, WritableKey k := by
  unfold WritableKey StaysPlain
  decide

theorem plain_fixed : ∀ k ∈ fixedKeys, quoteString k = k := by decide

/-- Lines that stand in a column for fields, and can be read. -/
structure Rows (n : ℕ) (ls : List Text) (fs : List (Scalar × Node)) : Prop where
  stands : StandsFields n (ls.flatMap textLines) fs
  clear : ∀ l ∈ ls, Clear l

theorem Rows.nil (n : ℕ) : Rows n [] [] := ⟨StandsFields.nil, fun _ hl ↦ absurd hl List.not_mem_nil⟩

theorem Rows.append {n : ℕ} {ls ms : List Text} {fs gs : List (Scalar × Node)} (h : Rows n ls fs) (h' : Rows n ms gs) :
    Rows n (ls ++ ms) (fs ++ gs) := by
  refine ⟨?_, List.forall_mem_append.mpr ⟨h.clear, h'.clear⟩⟩
  rw [List.flatMap_append]
  exact h.stands.append h'.stands

theorem rows_string {k s : Text} (hk : WritableKey k) (hs : WritableString s) (indent : ℕ) :
    Rows (2 * indent) [pad indent ++ quoteString k ++ ':' :: ' ' :: quoteString s] [(.string k, stringNode s)] := by
  refine ⟨?_, List.forall_mem_singleton.mpr ?_⟩
  · rw [List.flatMap_singleton]
    exact stands_inline hk (written_string hs) indent
  · have hkey : Clear (pad indent ++ quoteString k) := (clear_pad indent).append (printable_quoteString hk.1)
    exact hkey.append (Clear.cons (by decide) (Clear.cons (by decide) (printable_quoteString hs.1)))

theorem rows_block {k : Text} {ls : List Text} {fs : List (Scalar × Node)} (indent : ℕ) (hk : WritableKey k)
    (hne : fs ≠ []) (h : Rows (2 * (indent + 1)) ls fs) :
    Rows (2 * indent) ((pad indent ++ quoteString k ++ [':']) :: ls) [(.string k, .map fs)] := by
  refine ⟨?_, List.forall_mem_cons.mpr ⟨?_, h.clear⟩⟩
  · rw [List.flatMap_cons]
    exact stands_block hk indent (Stands.map hne h.stands)
  · exact ((clear_pad indent).append (printable_quoteString hk.1)).append (Clear.cons (by decide) (clear_of_chars rfl))

theorem rows_stringMap {m : Option (List (Text × Text))} (h : WritableMap m) (field : String)
    (hfield : field.toList ∈ fixedKeys) :
    Rows 2 (stringMapLines field m) (stringMapFields field m) := by
  match m with
  | none => exact Rows.nil 2
  | some [] => exact Rows.nil 2
  | some (e :: es) =>
    have hkeys : (e :: es).filter (fun e ↦ !e.1.isEmpty) = e :: es := by
      rw [List.filter_eq_self]
      intro e he
      rw [List.isEmpty_eq_false_iff.mpr (h _ rfl e he).1]
      rfl
    have hentries (es : List (Text × Text)) (hes : ∀ e ∈ es, WritableKey e.1 ∧ WritableString e.2) :
        Rows 4 (es.map (fun e ↦ "    ".toList ++ quoteString e.1 ++ ':' :: ' ' :: quoteString e.2))
          (es.map stringField) := by
      induction es with
      | nil => exact Rows.nil 4
      | cons e es ih =>
        obtain ⟨hk, hs⟩ := hes e List.mem_cons_self
        exact (rows_string hk hs 2).append (ih (fun e he ↦ hes e (List.mem_cons_of_mem _ he)))
    have hblock := rows_block 1 (writable_fixed _ hfield) (by simp)
      (hentries (e :: es) (fun e he ↦ (h _ rfl e he).2))
    rw [stringMapLines, hkeys]
    rw [plain_fixed _ hfield] at hblock
    exact hblock

theorem rows_namespace {ns : Option Text} (h : ∀ s ∈ ns, WritableString s) :
    Rows 2 (namespaceLines ns) (namespaceFields ns) := by
  match ns with
  | none => exact Rows.nil 2
  | some [] => exact Rows.nil 2
  | some (c :: s) =>
    have hrow : "  namespace: ".toList = pad 1 ++ quoteString "namespace".toList ++ [':', ' '] := by decide
    have hrows := rows_string (writable_fixed "namespace".toList (by decide)) (h _ rfl) 1
    change Rows 2 ["  namespace: ".toList ++ quoteString (c :: s)] _
    rw [hrow, List.append_assoc]
    exact hrows

theorem rows_spec {spec : List (Text × Form)} (h : WritableSpec spec) : Rows 0 (specLines spec)
    (if isEmptyValue (.object spec) then [] else [(.string "spec".toList, node (.object spec))]) := by
  rw [specLines]
  by_cases hempty : isEmptyValue (.object spec) = true
  · rw [if_pos hempty, if_pos hempty]
    exact Rows.nil 0
  · obtain ⟨hsub, hspec⟩ := h (Bool.eq_false_iff.mpr hempty)
    rw [if_neg hempty, if_neg hempty]
    exact rows_block 0 (writable_fixed "spec".toList (by decide)) (fields_ne_nil hsub)
      ⟨stands_members spec hspec 1, clear_members spec hspec 1⟩

theorem rows_top {s : Text} (hs : WritableString s) {k : Text} (hk : k ∈ fixedKeys) :
    Rows 0 [(k ++ [':', ' ']) ++ quoteString s] [(.string k, stringNode s)] := by
  have h := rows_string (writable_fixed k hk) hs 0
  rw [plain_fixed k hk] at h
  rw [List.append_assoc]
  exact h

theorem rows_metadata {metadata : Metadata} (hname : WritableString metadata.name)
    (hns : ∀ ns ∈ metadata.ns, WritableString ns) (hlabels : WritableMap metadata.labels)
    (hannotations : WritableMap metadata.annotations) :
    Rows 0 ("metadata:".toList :: metadataLines metadata)
      [(.string "metadata".toList, .map (metadataFields metadata))] := by
  have hrow : "  name: ".toList = pad 1 ++ quoteString "name".toList ++ [':', ' '] := by decide
  have hlines := (rows_string (writable_fixed "name".toList (by decide)) hname 1).append (rows_namespace hns)
  have hall := (hlines.append (rows_stringMap hlabels "labels" (by decide))).append
    (rows_stringMap hannotations "annotations" (by decide))
  have hblock := rows_block 0 (writable_fixed "metadata".toList (by decide)) (List.cons_ne_nil _ _) hall
  rw [metadataLines, hrow, List.append_assoc (pad 1 ++ quoteString "name".toList)]
  exact hblock

theorem read_of_writable {apiVersion kind : Text} {metadata : Metadata} {spec : List (Text × Form)}
    (h : Writable apiVersion kind metadata spec) :
    read (formStateToYaml apiVersion kind metadata spec) = some (manifest apiVersion kind metadata spec) := by
  obtain ⟨hapi, hkind, hname, hns, hlabels, hannotations, hspec⟩ := h
  have htop := (rows_top (k := "apiVersion".toList) hapi (by decide)).append
    (rows_top (k := "kind".toList) hkind (by decide))
  have hall := (htop.append (rows_metadata hname hns hlabels hannotations)).append (rows_spec hspec)
  have hnl : textLines [] = [] := rfl
  apply Stands.read (n := 0)
  · exact (clear_joinLines hall.clear).append (clear_of_chars rfl)
  · rw [formStateToYaml, textLines_append, textLines_joinLines, hnl, List.append_nil]
    exact Stands.map (List.cons_ne_nil _ _) hall.stands

end KubeCenter.Wizard.SchemaToYaml
