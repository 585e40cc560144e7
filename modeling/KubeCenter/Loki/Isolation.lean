import Mathlib.Data.List.TakeWhile
import KubeCenter.Loki.Security

namespace KubeCenter.Loki

open KubeCenter.Core Byte

/-- The inside of a quoted value: every backslash has a partner, and no quote is bare. -/
inductive Quotable : Bytes → Prop
  | nil : Quotable []
  | plain {ch : UInt8} {v : Bytes} : ch ≠ quote → ch ≠ backslash → Quotable v → Quotable (ch :: v)
  | pair {ch : UInt8} {v : Bytes} : Quotable v → Quotable (backslash :: ch :: v)

structure Matcher.WellFormed (m : Matcher) : Prop where
  label_ne : m.label ≠ []
  labelChars : ∀ c ∈ m.label, isLabelChar c = true
  value : Quotable m.value

variable {s v w rest : Bytes} {m : Matcher} {ms : List Matcher} {n : ℕ}

theorem Quotable.append (hv : Quotable v) (hw : Quotable w) : Quotable (v ++ w) := by
  induction hv with
  | nil => exact hw
  | plain hq hb _ ih => exact .plain hq hb ih
  | pair _ ih => exact .pair ih

theorem Quotable.of_plain (h : ∀ c ∈ v, c ≠ quote ∧ c ≠ backslash) : Quotable v := by
  induction v with
  | nil => exact .nil
  | cons c v ih =>
    obtain ⟨hq, hb⟩ := h c List.mem_cons_self
    exact .plain hq hb (ih fun d hd ↦ h d (List.mem_cons_of_mem c hd))

theorem quotedFrom_append (h : Quotable v) (rest : Bytes) :
    quotedFrom false (v ++ quote :: rest) = some (v, rest) := by
  induction h with
  | nil => rfl
  | plain hq hb _ ih => simp [quotedFrom, hq, hb, ih]
  | pair _ ih => simp [quotedFrom, ih]

theorem parseQuotedValue_append (h : Quotable v) (rest : Bytes) :
    parseQuotedValue (quote :: (v ++ quote :: rest)) = some (v, rest) := quotedFrom_append h rest

theorem quotedFrom_sound {escaped : Bool} (h : quotedFrom escaped s = some (v, rest)) :
    Quotable (if escaped then v.drop 2 else v) ∧
      (escaped = true → ∃ c w, v = backslash :: c :: w) := by
  induction s generalizing escaped v with
  | nil => cases h
  | cons ch s ih =>
    rw [quotedFrom] at h
    cases escaped with
    | true =>
      obtain ⟨p, hp, he⟩ := Option.map_eq_some_iff.mp h
      cases he
      exact ⟨(ih hp).1, fun _ ↦ ⟨ch, p.1, rfl⟩⟩
    | false =>
      simp only [Bool.false_eq_true, if_false] at h ⊢
      refine ⟨?_, fun he ↦ he.elim⟩
      split at h
      · obtain ⟨hv, hc⟩ := ih h
        obtain ⟨c, w, rfl⟩ := hc rfl
        exact .pair hv
      · next hb =>
        split at h
        · cases h
          exact .nil
        · next hq =>
          obtain ⟨p, hp, he⟩ := Option.map_eq_some_iff.mp h
          cases he
          exact .plain hq hb (ih hp).1

theorem parseMatcher_sound (h : parseMatcher n s = .ok (m, rest)) : m.WellFormed := by
  unfold parseMatcher at h
  simp only at h
  split at h
  · cases h
  · next hlabel =>
    split at h
    · cases h
    · split at h
      · cases h
      · split at h
        · cases h
        · split at h
          · cases h
          · next value _ hq =>
            cases h
            refine ⟨hlabel, fun c hc ↦ List.mem_takeWhile_imp hc, ?_⟩
            unfold parseQuotedValue at hq
            split at hq
            · exact (quotedFrom_sound hq).1
            · cases hq

theorem parseMatchersFrom_sound (h : parseMatchersFrom n s = .ok ms) : ∀ m ∈ ms, m.WellFormed := by
  fun_induction parseMatchersFrom n s generalizing ms with
  | case1 s ht =>
    cases h
    exact fun m hm ↦ by cases hm
  | case2 =>
    cases h
  | case3 s t ht m rest hm =>
    rename_i ih
    cases hr : parseMatchersFrom n rest with
    | error e =>
      rw [hr] at h
      cases h
    | ok ms' =>
      rw [hr] at h
      cases h
      intro m' hm'
      rcases List.mem_cons.mp hm' with rfl | hm'
      · exact parseMatcher_sound hm
      · exact ih hr m' hm'

theorem parseMatchers_sound (h : parseMatchers s = .ok ms) : ∀ m ∈ ms, m.WellFormed := by
  unfold parseMatchers at h
  simp only at h
  split at h
  · cases h
    exact fun m hm ↦ by cases hm
  · exact parseMatchersFrom_sound h

theorem Op.bytes_head (op : Op) (rest : Bytes) :
    ∃ c t, op.bytes ++ rest = c :: t ∧ isLabelChar c = false ∧ isBlank c = false := by
  cases op <;> exact ⟨_, _, rfl, by decide, by decide⟩

theorem parseOp_bytes (op : Op) (rest : Bytes) :
    parseOp (op.bytes ++ quote :: rest) = some (op, op.bytes.length) := by
  cases op <;> rfl

theorem takeWhile_label {label : Bytes} (h : ∀ c ∈ label, isLabelChar c = true) {c : UInt8}
    (hc : isLabelChar c = false) (t : Bytes) :
    (label ++ c :: t).takeWhile isLabelChar = label ∧
      (label ++ c :: t).dropWhile isLabelChar = c :: t := by
  constructor
  · rw [List.takeWhile_append_of_pos h]
    simp [hc]
  · rw [List.dropWhile_append_of_pos h]
    simp [hc]

theorem parseMatcher_render (h : m.WellFormed) (n : ℕ) (rest : Bytes) :
    parseMatcher n (m.render ++ rest) = .ok (m, rest) := by
  have hrender : m.render ++ rest = m.label ++ (m.op.bytes ++ quote :: (m.value ++ quote :: rest)) := by
    simp [Matcher.render]
  obtain ⟨c, t, hop, hlabel, hblank⟩ := m.op.bytes_head (quote :: (m.value ++ quote :: rest))
  obtain ⟨htake, hdrop⟩ := takeWhile_label h.labelChars hlabel t
  have hskip : (c :: t).dropWhile isBlank = c :: t := by simp [hblank]
  have hparse := parseOp_bytes m.op (m.value ++ quote :: rest)
  have hafter : ((c :: t).drop m.op.bytes.length).dropWhile isBlank = quote :: (m.value ++ quote :: rest) := by
    rw [← hop, List.drop_left]
    rfl
  rw [hop] at hparse
  unfold parseMatcher
  simp only [hrender, hop, htake, hdrop, hskip, h.label_ne, hparse, hafter, if_false, reduceCtorEq,
    List.head?_cons, ne_eq, not_true_eq_false, parseQuotedValue_append h.value]

theorem parseMatchersFrom_comma (n : ℕ) (s : Bytes) :
    parseMatchersFrom n (comma :: s) = parseMatchersFrom n s := by
  rw [parseMatchersFrom]
  conv_rhs => rw [parseMatchersFrom]
  rfl

theorem parseMatchersFrom_cons (h : parseMatcher n (s.dropWhile isSeparator) = .ok (m, rest)) :
    parseMatchersFrom n s = (parseMatchersFrom n rest).map (m :: ·) := by
  have hne : s.dropWhile isSeparator ≠ [] := by
    intro he
    rw [he] at h
    cases h
  rw [parseMatchersFrom]
  simp only [hne, if_false]
  split
  · next he =>
    rw [h] at he
    cases he
  · next he =>
    rw [h] at he
    cases he
    rfl

theorem Matcher.WellFormed.head (h : m.WellFormed) :
    ∃ c t, m.render = c :: t ∧ isLabelChar c = true := by
  obtain ⟨c, label, hl⟩ := List.exists_cons_of_ne_nil h.label_ne
  exact ⟨c, _, by rw [Matcher.render, hl]; rfl, h.labelChars c (by simp [hl])⟩

theorem not_separator {c : UInt8} (h : isLabelChar c = true) : isSeparator c = false := by
  by_contra hc
  simp only [isSeparator, isBlank, Bool.not_eq_false, Bool.or_eq_true, beq_iff_eq] at hc
  rcases hc with (rfl | rfl) | rfl <;> exact absurd h (by decide)

theorem renderMatchers_cons (m : Matcher) (ms : List Matcher) :
    renderMatchers (m :: ms) = m.render ++ ms.flatMap (fun m ↦ comma :: m.render) := by
  rw [renderMatchers, List.map_cons, intercalate_singleton_cons, List.flatMap_map]

theorem parseMatchersFrom_render (hm : m.WellFormed) (hms : ∀ m ∈ ms, m.WellFormed) (n : ℕ) :
    parseMatchersFrom n (renderMatchers (m :: ms)) = .ok (m :: ms) := by
  have hround : ∀ m : Matcher, m.WellFormed → ∀ rest,
      parseMatchersFrom n (m.render ++ rest) = (parseMatchersFrom n rest).map (m :: ·) := by
    intro m hm rest
    obtain ⟨c, t, hr, hc⟩ := hm.head
    have hskip : (m.render ++ rest).dropWhile isSeparator = m.render ++ rest := by
      simp [hr, not_separator hc]
    have hparse := parseMatcher_render hm n rest
    rw [← hskip] at hparse
    exact parseMatchersFrom_cons hparse
  have htail : parseMatchersFrom n (ms.flatMap (fun m ↦ comma :: m.render)) = .ok ms := by
    induction ms with
    | nil =>
      rw [parseMatchersFrom]
      rfl
    | cons m' ms ih =>
      rw [List.flatMap_cons, List.cons_append, parseMatchersFrom_comma,
        hround m' (hms m' List.mem_cons_self), ih fun m hm ↦ hms m (List.mem_cons_of_mem m' hm)]
      rfl
  rw [renderMatchers_cons, hround m hm, htail]
  rfl

theorem closingBraceFrom_outside (h : ∀ c ∈ w, c ≠ quote ∧ c ≠ rbrace) (i : ℕ) (s : Bytes) :
    closingBraceFrom false false i (w ++ s) = closingBraceFrom false false (i + w.length) s := by
  induction w generalizing i with
  | nil => rfl
  | cons c w ih =>
    obtain ⟨hq, hb⟩ := h c List.mem_cons_self
    rw [List.cons_append, closingBraceFrom]
    simp only [Bool.false_eq_true, and_false, if_false, hq, hb, ih fun d hd ↦ h d (List.mem_cons_of_mem c hd),
      List.length_cons, Nat.add_assoc, Nat.add_comm 1]

theorem closingBraceFrom_inside (h : Quotable v) (i : ℕ) (s : Bytes) :
    closingBraceFrom true false i (v ++ quote :: s) =
      closingBraceFrom false false (i + v.length + 1) s := by
  induction h generalizing i with
  | nil => rfl
  | @plain c v hq hb _ ih =>
    rw [List.cons_append, closingBraceFrom]
    simp only [Bool.false_eq_true, if_false, hq, hb, false_and, not_true_eq_false, ih, List.length_cons]
    congr 1
    omega
  | @pair c v _ ih =>
    have hstep : closingBraceFrom true false i (backslash :: c :: (v ++ quote :: s)) =
        closingBraceFrom true false (i + 2) (v ++ quote :: s) := rfl
    rw [List.cons_append, List.cons_append, hstep, ih]
    simp only [List.length_cons]
    congr 1
    omega

theorem label_outside {c : UInt8} (h : isLabelChar c = true) : c ≠ quote ∧ c ≠ rbrace := by
  constructor <;> rintro rfl <;> exact absurd h (by decide)

theorem closingBraceFrom_render (h : m.WellFormed) (i : ℕ) (s : Bytes) :
    closingBraceFrom false false i (m.render ++ s) =
      closingBraceFrom false false (i + m.render.length) s := by
  have hrender : m.render ++ s = m.label ++ (m.op.bytes ++ [quote] ++ (m.value ++ quote :: s)) := by
    simp [Matcher.render]
  have hop : ∀ i s, closingBraceFrom false false i (m.op.bytes ++ [quote] ++ s) =
      closingBraceFrom true false (i + m.op.bytes.length + 1) s := by
    intro i s
    cases m.op <;> rfl
  rw [hrender, closingBraceFrom_outside (fun c hc ↦ label_outside (h.labelChars c hc)), hop,
    closingBraceFrom_inside h.value]
  simp only [Matcher.render, List.length_append, List.length_cons, List.length_nil]
  congr 1
  omega

theorem closingBraceFrom_renderMatchers (hm : m.WellFormed) (hms : ∀ m ∈ ms, m.WellFormed) (i : ℕ)
    (s : Bytes) : closingBraceFrom false false i (renderMatchers (m :: ms) ++ rbrace :: s) =
      some (i + (renderMatchers (m :: ms)).length) := by
  rw [renderMatchers_cons, List.append_assoc, closingBraceFrom_render hm, List.length_append,
    ← Nat.add_assoc]
  generalize i + m.render.length = i
  induction ms generalizing i with
  | nil => rfl
  | cons m' ms ih =>
    have hcomma : ∀ t, closingBraceFrom false false i (comma :: t) = closingBraceFrom false false (i + 1) t :=
      fun _ ↦ rfl
    rw [List.flatMap_cons, List.cons_append, List.cons_append, hcomma, List.append_assoc,
      closingBraceFrom_render (hms m' List.mem_cons_self),
      ih fun m hm ↦ hms m (List.mem_cons_of_mem m' hm)]
    simp only [List.length_cons, List.length_append]
    congr 1
    omega

theorem renderMatchers_quote (m : Matcher) (ms : List Matcher) :
    ∃ s, renderMatchers (m :: ms) = s ++ [quote] := by
  induction ms generalizing m with
  | nil => exact ⟨m.label ++ m.op.bytes ++ quote :: m.value, by simp [renderMatchers, Matcher.render]⟩
  | cons m' ms ih =>
    obtain ⟨s, hs⟩ := ih m'
    rw [renderMatchers_cons] at hs
    refine ⟨m.render ++ comma :: s, ?_⟩
    rw [renderMatchers_cons, List.flatMap_cons, List.cons_append, hs]
    simp

theorem trimSpace_renderMatchers (hm : m.WellFormed) (ms : List Matcher) :
    trimSpace (renderMatchers (m :: ms)) = renderMatchers (m :: ms) := by
  apply trimSpace_eq
  · obtain ⟨c, t, hr, hc⟩ := hm.head
    have hspaces : ∀ e ∈ spaces, e.head?.all (fun c ↦ !isLabelChar c) = true := by decide
    rw [renderMatchers_cons, hr]
    refine not_space_prefix (fun e he hce ↦ ?_) _
    have := hspaces e he
    simp [hce, hc] at this
  · obtain ⟨s, hs⟩ := renderMatchers_quote m ms
    intro e he hsuffix
    rw [hs] at hsuffix
    have hnil := space_suffix (c := quote) (by decide) he hsuffix
    rw [List.suffix_nil.mp hnil] at he
    exact absurd he (by decide)

theorem parseMatchers_renderMatchers (hm : m.WellFormed) (hms : ∀ m ∈ ms, m.WellFormed) :
    parseMatchers (renderMatchers (m :: ms)) = .ok (m :: ms) := by
  obtain ⟨s, hs⟩ := renderMatchers_quote m ms
  have hne : renderMatchers (m :: ms) ≠ [] := by simp [hs]
  unfold parseMatchers
  simp only [trimSpace_renderMatchers hm ms, hne, if_false]
  exact parseMatchersFrom_render hm hms _

theorem escapeRegexValue_quotable (h : quote ∉ v) : Quotable (escapeRegexValue v) := by
  induction v with
  | nil => exact .nil
  | cons c v ih =>
    obtain ⟨hc, hv⟩ : quote ≠ c ∧ quote ∉ v := by simpa using h
    unfold escapeRegexValue at ih ⊢
    rw [List.flatMap_cons]
    refine Quotable.append ?_ (ih hv)
    split
    · exact .pair .nil
    · next hmeta =>
      exact .plain (Ne.symm hc) (fun hb ↦ hmeta (by rw [hb]; decide)) .nil

theorem intercalate_quotable {vs : List Bytes} (h : ∀ v ∈ vs, Quotable v) :
    Quotable ([pipe].intercalate vs) := by
  induction vs with
  | nil => exact .nil
  | cons v vs ih =>
    have hv := h v List.mem_cons_self
    have hvs := ih fun w hw ↦ h w (List.mem_cons_of_mem v hw)
    cases vs with
    | nil => simpa using hv
    | cons w vs =>
      rw [List.intercalate_cons_cons]
      exact (hv.append (.plain (by decide) (by decide) .nil)).append hvs

theorem nsMatcher_label (allowed : List Bytes) : (nsMatcher allowed).label = namespaceLabel := by
  unfold nsMatcher
  split <;> rfl

theorem nsMatcher_wellFormed {allowed : List Bytes}
    (h : ∀ ns ∈ allowed, quote ∉ ns ∧ backslash ∉ ns) : (nsMatcher allowed).WellFormed := by
  refine ⟨by rw [nsMatcher_label]; decide, ?_, ?_⟩
  · rw [nsMatcher_label]
    exact List.all_eq_true.mp (by decide)
  unfold nsMatcher
  split
  · next ns =>
    obtain ⟨hq, hb⟩ := h ns List.mem_cons_self
    exact .of_plain fun c hc ↦ ⟨fun he ↦ hq (he ▸ hc), fun he ↦ hb (he ▸ hc)⟩
  · refine intercalate_quotable fun v hv ↦ ?_
    obtain ⟨ns, hns, rfl⟩ := List.mem_map.mp hv
    exact escapeRegexValue_quotable (h ns hns).1

theorem enforceNamespaces_ok {query r : Bytes} {allowed : List Bytes}
    (h : enforceNamespaces query (some allowed) = .ok r) :
    allowed ≠ [] ∧ ∃ closeIdx ms, findClosingBrace (trimSpace query) = some closeIdx ∧
      parseMatchers (selectorContent (trimSpace query) closeIdx) = .ok ms ∧
      r = lbrace :: renderMatchers (nsMatcher allowed :: dropNamespace ms) ++
        rbrace :: pipeline (trimSpace query) closeIdx := by
  unfold enforceNamespaces at h
  split at h
  · cases h
  · simp only at h
    split at h
    · cases h
    · next hne =>
      split at h
      · cases h
      · split at h
        · cases h
        · next closeIdx hclose =>
          split at h
          · cases h
          · next ms hparse =>
            cases h
            exact ⟨hne, closeIdx, ms, hclose, hparse, rfl⟩

theorem dropNamespace_sound (hms : ∀ m ∈ ms, m.WellFormed) : ∀ m ∈ dropNamespace ms, m.WellFormed :=
  fun m hm ↦ hms m (List.mem_filter.mp hm).1

theorem dropNamespace_enforced (allowed : List Bytes) (ms : List Matcher) :
    dropNamespace (nsMatcher allowed :: dropNamespace ms) = dropNamespace ms := by
  simp [dropNamespace, nsMatcher_label]

theorem enforced_reads_back (hm : m.WellFormed) (hms : ∀ m ∈ ms, m.WellFormed) (suffix : Bytes) :
    let r := lbrace :: renderMatchers (m :: ms) ++ rbrace :: suffix
    let braceIdx := (renderMatchers (m :: ms)).length + 1
    findClosingBrace r = some braceIdx ∧ selectorContent r braceIdx = renderMatchers (m :: ms) ∧
      pipeline r braceIdx = suffix := by
  refine ⟨?_, by simp [selectorContent], by simp [pipeline]⟩
  have := closingBraceFrom_renderMatchers hm hms 1 suffix
  rw [Nat.add_comm] at this
  exact this

/-- An enforced query is isolated: it selects by the enforced matcher and the query's own other
matchers, keeps the pipeline of the trimmed query, and enforcing it again changes nothing. -/
theorem enforceNamespaces_isolates {query r : Bytes} {allowed : List Bytes}
    (hsafe : ∀ ns ∈ allowed, quote ∉ ns ∧ backslash ∉ ns)
    (h : enforceNamespaces query (some allowed) = .ok r) :
    ∃ closeIdx ms braceIdx, findClosingBrace (trimSpace query) = some closeIdx ∧
      parseMatchers (selectorContent (trimSpace query) closeIdx) = .ok ms ∧
      r.head? = some lbrace ∧ findClosingBrace r = some braceIdx ∧
      selectorContent r braceIdx = renderMatchers (nsMatcher allowed :: dropNamespace ms) ∧
      parseMatchers (selectorContent r braceIdx) = .ok (nsMatcher allowed :: dropNamespace ms) ∧
      pipeline r braceIdx = pipeline (trimSpace query) closeIdx ∧
      (r.length ≤ maxQueryLen → enforceNamespaces r (some allowed) = .ok r) := by
  obtain ⟨hne, closeIdx, ms, hclose, hparse, hr⟩ := enforceNamespaces_ok h
  have hns := nsMatcher_wellFormed hsafe
  have hms := dropNamespace_sound (parseMatchers_sound hparse)
  obtain ⟨hbrace, hselector, hpipeline⟩ :=
    enforced_reads_back hns hms (pipeline (trimSpace query) closeIdx)
  rw [← hr] at hbrace hselector hpipeline
  have hreads := parseMatchers_renderMatchers hns hms
  have hhead : r.head? = some lbrace := by rw [hr]; rfl
  have htrim : trimSpace r = r := by
    apply trimSpace_eq
    · rw [hr]
      exact not_space_prefix (by decide) _
    · intro e he hsuffix
      rw [hr] at hsuffix
      have hpipe := space_suffix (c := rbrace) (by decide) he hsuffix
      exact not_suffix_trimSpace query e he (hpipe.trans (List.drop_suffix _ _))
  refine ⟨closeIdx, ms, _, hclose, hparse, hhead, hbrace, hselector, by rw [hselector, hreads],
    hpipeline, fun hlen ↦ ?_⟩
  unfold enforceNamespaces
  simp only [not_lt.mpr hlen, hne, htrim, hhead, hbrace, hselector, hreads, hpipeline,
    dropNamespace_enforced, if_false, ne_eq, not_true_eq_false]
  rw [← hr]

theorem enforceNamespaces_isolates_app :
    let query : Bytes := [space, lbrace, rbrace, pipe, 97]
    let allowed : List Bytes := [[97, 98], [99]]
    let r : Bytes := lbrace :: renderMatchers [nsMatcher allowed] ++ [rbrace, pipe, 97]
    ∃ closeIdx ms braceIdx, findClosingBrace (trimSpace query) = some closeIdx ∧
      parseMatchers (selectorContent (trimSpace query) closeIdx) = .ok ms ∧
      r.head? = some lbrace ∧ findClosingBrace r = some braceIdx ∧
      selectorContent r braceIdx = renderMatchers (nsMatcher allowed :: dropNamespace ms) ∧
      parseMatchers (selectorContent r braceIdx) = .ok (nsMatcher allowed :: dropNamespace ms) ∧
      pipeline r braceIdx = pipeline (trimSpace query) closeIdx ∧
      (r.length ≤ maxQueryLen → enforceNamespaces r (some allowed) = .ok r) :=
  enforceNamespaces_isolates (by decide) (by decide)

def suffixAfterSelector (query : Bytes) : Option Bytes :=
  (findClosingBrace (trimLeft query)).map (pipeline (trimLeft query))

theorem not_suffix_preserved : ¬ ∀ (query r : Bytes) (allowed : List Bytes),
    (∀ ns ∈ allowed, quote ∉ ns ∧ backslash ∉ ns) → enforceNamespaces query (some allowed) = .ok r →
      suffixAfterSelector r = suffixAfterSelector query := by
  intro h
  have := h [lbrace, rbrace, space] (lbrace :: renderMatchers [nsMatcher [[97]]] ++ [rbrace]) [[97]]
    (by decide) (by decide)
  exact absurd this (by decide)

end KubeCenter.Loki
