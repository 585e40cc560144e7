import Mathlib.Data.List.MinMax
import KubeCenter.Core.GoString
import KubeCenter.Loki.Isolation

namespace KubeCenter.Loki

open KubeCenter.Core Byte

/-- A regular expression engine: what a pattern matches in full, when it compiles. -/
abbrev Engine := Text → Option (Text → Prop)

def isRegexMetaChar (c : Char) : Bool := c ∈ regexMetas

def MatchesLiterals (re2 : Engine) : Prop :=
  ∀ alts : List Text, alts ≠ [] → (∀ a ∈ alts, ∀ c ∈ a, isRegexMetaChar c = false) →
    ∃ pattern, re2 (['|'].intercalate alts) = some pattern ∧ ∀ s, pattern s ↔ s ∈ alts

/-- Where backslash is the only metacharacter of the alternatives, no repetition or class can
follow it: an escape stands for one character at most. A match without a `|` is then an
alternative as it is written or shorter than one with an escape. -/
def EscapesShorten (re2 : Engine) : Prop :=
  ∀ alts : List Text, alts ≠ [] → (∀ a ∈ alts, ∀ c ∈ a, isRegexMetaChar c = true → c = '\\') →
    ∀ pattern, re2 (['|'].intercalate alts) = some pattern → ∀ s, '|' ∉ s → pattern s →
      ∃ a ∈ alts, ('\\' ∉ a ∧ s = a) ∨ ('\\' ∈ a ∧ s.length < a.length)

/-- The matcher, read as Loki reads it, selects exactly the allowed namespaces. -/
def Denotes (re2 : Engine) (m : Matcher) (allowed : List Text) : Prop :=
  ∃ w value, m.value = utf8 w ∧ unquote ('\"' :: w ++ ['\"']) = some (utf8 value) ∧
    match m.op with
    | .equal => ∀ s, s = value ↔ s ∈ allowed
    | .regex => ∃ pattern, re2 value = some pattern ∧ ∀ s, pattern s ↔ s ∈ allowed
    | _ => False

/-- No namespace needs either of the two escapings, the second only where it is used. -/
def NeedsNoEscape (allowed : List Text) : Prop :=
  ∀ ns ∈ allowed, ∀ c ∈ ns, c ≠ '\"' ∧ c ≠ '\n' ∧ c ≠ '\\' ∧
    (allowed.length ≠ 1 → isRegexMetaChar c = false)

def escapeChar (c : Char) : Text := if isRegexMetaChar c then ['\\', c] else [c]

def escapeText (s : Text) : Text := s.flatMap escapeChar

theorem isRegexMeta_ascii {c : Char} (h : c.toNat < 128) :
    isRegexMeta (UInt8.ofNat c.toNat) = isRegexMetaChar c := by
  have hall : ∀ n < 128, isRegexMeta (UInt8.ofNat n) = isRegexMetaChar (Char.ofNat n) := by
    decide +kernel
  rw [hall c.toNat h, Char.ofNat_toNat]

theorem isRegexMetaChar_high {c : Char} (h : 128 ≤ c.toNat) : isRegexMetaChar c = false := by
  have hall : regexMetas.all (fun d ↦ d.toNat < 128) = true := by decide
  exact decide_eq_false fun hc ↦ absurd (of_decide_eq_true (List.all_eq_true.mp hall c hc)) (by omega)

theorem isRegexMeta_high {b : UInt8} (h : 128 ≤ b) : isRegexMeta b = false := by
  have hall : (regexMetas.map Char.toUInt8).all (fun d ↦ ¬ 128 ≤ d) = true := by decide
  exact decide_eq_false fun hb ↦ of_decide_eq_true (List.all_eq_true.mp hall b hb) h

theorem escapeRegexValue_high {s : Bytes} (h : ∀ b ∈ s, 128 ≤ b) : escapeRegexValue s = s := by
  induction s with
  | nil => rfl
  | cons b s ih =>
    have hb := isRegexMeta_high (h b List.mem_cons_self)
    have hs := ih fun d hd ↦ h d (List.mem_cons_of_mem b hd)
    unfold escapeRegexValue at hs ⊢
    rw [List.flatMap_cons, hs, hb]
    rfl

theorem escapeRegexValue_utf8 (s : Text) : escapeRegexValue (utf8 s) = utf8 (escapeText s) := by
  induction s with
  | nil => rfl
  | cons c s ih =>
    have hsplit : escapeRegexValue (utf8 (c :: s)) =
        escapeRegexValue (String.utf8EncodeChar c) ++ escapeRegexValue (utf8 s) := by
      rw [utf8_cons, escapeRegexValue, List.flatMap_append]
      rfl
    have hchar : escapeRegexValue (String.utf8EncodeChar c) =
        utf8 (escapeChar c) := by
      unfold escapeChar
      rcases ascii_or_high c with ⟨hc, he⟩ | ⟨hc, hb⟩
      · rw [he, ← isRegexMeta_ascii hc, escapeRegexValue, List.flatMap_singleton]
        split
        · simp [utf8, he]
          rfl
        · simp [utf8, he]
      · rw [isRegexMetaChar_high hc, escapeRegexValue_high hb]
        simp [utf8]
    rw [hsplit, hchar, ih, ← utf8_append]
    rfl

theorem utf8_intercalate (ts : List Text) :
    utf8 (['|'].intercalate ts) = [pipe].intercalate (ts.map utf8) := by
  have hflat : ∀ ts : List Text, utf8 (ts.flatMap (fun t ↦ '|' :: t)) =
      (ts.map utf8).flatMap (fun b ↦ pipe :: b) := by
    intro ts
    induction ts with
    | nil => rfl
    | cons t ts ih =>
      rw [List.flatMap_cons, List.map_cons, List.flatMap_cons, utf8_append, ih]
      rfl
  cases ts with
  | nil => rfl
  | cons t ts =>
    rw [List.map_cons, intercalate_singleton_cons, intercalate_singleton_cons, utf8_append, hflat]

theorem nsMatcher_value {allowed : List Text} (h : allowed.length ≠ 1) :
    nsMatcher (allowed.map utf8) =
      ⟨namespaceLabel, .regex, utf8 (['|'].intercalate (allowed.map escapeText))⟩ := by
  have hmap : (allowed.map utf8).map escapeRegexValue = (allowed.map escapeText).map utf8 := by
    simp [escapeRegexValue_utf8]
  unfold nsMatcher
  split
  · next ns he =>
    have hlen := congrArg List.length he
    simp only [List.length_map, List.length_singleton] at hlen
    exact absurd hlen h
  · rw [utf8_intercalate, hmap]

/-- The escape the regular expression layer puts before `c` is a legal one. -/
def Escapable (c : Char) : Prop := c ≠ '\"' ∧ c ≠ '\n' ∧ (isRegexMetaChar c = true → c = '\\')

instance (c : Char) : Decidable (Escapable c) := inferInstanceAs (Decidable (_ ∧ _))

theorem unquoteEscape_meta {c : Char} (hm : isRegexMetaChar c = true) (hb : c ≠ '\\') (s : Text) :
    unquoteEscape (c :: s) = none := by
  have hall : regexMetas.all
      (fun c ↦ c ≠ '\\' → c ∉ "abfnrtvxuU\\\"".toList ∧ octalDigit c = none) = true := by decide
  obtain ⟨hc, ho⟩ := of_decide_eq_true (List.all_eq_true.mp hall c (of_decide_eq_true hm)) hb
  exact unquoteEscape_none hc ho s

variable {c : Char} {ns t : Text} {allowed : List Text}

theorem unquoteFrom_escapeChar (h : Escapable c) (t : Text) : unquoteFrom (escapeChar c ++ t) =
    (unquoteFrom t).map (fun q ↦ (String.utf8EncodeChar c ++ q.1, q.2)) := by
  obtain ⟨hq, hn, hmeta⟩ := h
  unfold escapeChar
  by_cases hm : isRegexMetaChar c = true
  · cases hmeta hm
    rw [if_pos hm]
    exact unquoteFrom_escape (s := '\\' :: t) rfl
  · have hb : c ≠ '\\' := fun hb ↦ hm (by rw [hb]; decide)
    rw [if_neg hm]
    exact unquoteFrom_plain hq hn hb t

theorem unquoteFrom_escapeChar_ne (h : ¬ Escapable c) (ht : t ≠ []) (v : Bytes) :
    unquoteFrom (escapeChar c ++ t) ≠ some (v, []) := by
  intro he
  unfold escapeChar at he
  by_cases hm : isRegexMetaChar c = true
  · have hq : c ≠ '\"' := by
      rintro rfl
      exact absurd hm (by decide)
    have hn : c ≠ '\n' := by
      rintro rfl
      exact absurd hm (by decide)
    have hb : c ≠ '\\' := fun hb ↦ h ⟨hq, hn, fun _ ↦ hb⟩
    rw [if_pos hm, List.cons_append, List.singleton_append,
      unquoteFrom_badEscape (unquoteEscape_meta hm hb t)] at he
    cases he
  · rw [if_neg hm, List.singleton_append] at he
    by_cases hq : c = '\"'
    · rw [hq, unquoteFrom_quote] at he
      cases he
      exact ht rfl
    · by_cases hn : c = '\n'
      · rw [hn, unquoteFrom_newline] at he
        cases he
      · exact h ⟨hq, hn, fun hm' ↦ absurd hm' hm⟩

theorem unquoteFrom_escapeText (h : ∀ c ∈ ns, Escapable c) (t : Text) :
    unquoteFrom (escapeText ns ++ t) = (unquoteFrom t).map (fun q ↦ (utf8 ns ++ q.1, q.2)) := by
  induction ns with
  | nil => simp [escapeText, utf8]
  | cons c ns ih =>
    have hns := ih fun d hd ↦ h d (List.mem_cons_of_mem c hd)
    rw [escapeText, List.flatMap_cons, List.append_assoc, unquoteFrom_escapeChar (h c List.mem_cons_self)]
    unfold escapeText at hns
    rw [hns]
    simp [Function.comp_def]

theorem unquoteFrom_escapeText_ne (h : ∃ c ∈ ns, ¬ Escapable c) (ht : t ≠ []) (v : Bytes) :
    unquoteFrom (escapeText ns ++ t) ≠ some (v, []) := by
  induction ns generalizing v with
  | nil =>
    obtain ⟨c, hc, -⟩ := h
    cases hc
  | cons c ns ih =>
    have hsplit : escapeText (c :: ns) ++ t = escapeChar c ++ (escapeText ns ++ t) := by
      rw [escapeText, List.flatMap_cons, List.append_assoc]
      rfl
    rw [hsplit]
    by_cases hc : Escapable c
    · rw [unquoteFrom_escapeChar hc]
      intro he
      obtain ⟨q, hq, hqv⟩ := Option.map_eq_some_iff.mp he
      obtain ⟨d, hd, hbad⟩ := h
      have hns : d ∈ ns := (List.mem_cons.mp hd).resolve_left fun hdc ↦ hbad (hdc ▸ hc)
      exact ih ⟨d, hns, hbad⟩ q.1 (by rw [hq, ← (Prod.mk.inj hqv).2])
    · exact unquoteFrom_escapeChar_ne hc (by simp [ht]) v

def laterAlternatives (as : List Text) : Text := as.flatMap (fun a ↦ '|' :: a)

theorem laterAlternatives_cons (a : Text) (as : List Text) (t : Text) :
    laterAlternatives (a :: as) ++ t = '|' :: (a ++ (laterAlternatives as ++ t)) := by
  simp [laterAlternatives]

theorem unquoteFrom_later (h : ∀ ns ∈ allowed, ∀ c ∈ ns, Escapable c) (t : Text) :
    unquoteFrom (laterAlternatives (allowed.map escapeText) ++ t) =
      (unquoteFrom t).map (fun q ↦ (utf8 (laterAlternatives allowed) ++ q.1, q.2)) := by
  induction allowed with
  | nil => simp [laterAlternatives, utf8]
  | cons a as ih =>
    have has := ih fun b hb ↦ h b (List.mem_cons_of_mem a hb)
    rw [List.map_cons, laterAlternatives_cons, unquoteFrom_plain (by decide) (by decide) (by decide),
      unquoteFrom_escapeText (h a List.mem_cons_self), has]
    simp [Function.comp_def, laterAlternatives]

theorem unquoteFrom_later_ne (h : ∃ ns ∈ allowed, ∃ c ∈ ns, ¬ Escapable c) (ht : t ≠ []) (v : Bytes) :
    unquoteFrom (laterAlternatives (allowed.map escapeText) ++ t) ≠ some (v, []) := by
  induction allowed generalizing v with
  | nil =>
    obtain ⟨ns, hns, -⟩ := h
    cases hns
  | cons a as ih =>
    rw [List.map_cons, laterAlternatives_cons, unquoteFrom_plain (by decide) (by decide) (by decide)]
    intro he
    obtain ⟨q, hq, hqv⟩ := Option.map_eq_some_iff.mp he
    have hrest : q = (q.1, []) := by rw [← (Prod.mk.inj hqv).2]
    rw [hrest] at hq
    by_cases ha : ∃ c ∈ a, ¬ Escapable c
    · exact unquoteFrom_escapeText_ne ha (by simp [ht]) q.1 hq
    · push Not at ha
      rw [unquoteFrom_escapeText ha] at hq
      obtain ⟨p, hp, hpv⟩ := Option.map_eq_some_iff.mp hq
      obtain ⟨ns, hns, hbad⟩ := h
      have hlater : ns ∈ as := by
        rcases List.mem_cons.mp hns with rfl | hns
        · obtain ⟨c, hc, hce⟩ := hbad
          exact absurd (ha c hc) hce
        · exact hns
      exact ih ⟨ns, hlater, hbad⟩ p.1 (by rw [hp, ← (Prod.mk.inj hpv).2])

theorem pipe_join (a : Text) (as : List Text) :
    '|' :: ['|'].intercalate (a :: as) = laterAlternatives (a :: as) := by
  rw [intercalate_singleton_cons]
  rfl

theorem unquote_join (hne : allowed ≠ []) (v : Bytes) :
    unquote ('\"' :: ['|'].intercalate (allowed.map escapeText) ++ ['\"']) = some v ↔
      (∀ ns ∈ allowed, ∀ c ∈ ns, Escapable c) ∧ v = utf8 (['|'].intercalate allowed) := by
  obtain ⟨a, as, rfl⟩ := List.exists_cons_of_ne_nil hne
  -- Behind one more `|` every alternative stands behind one.
  have hpipe := unquoteFrom_plain (c := '|') (by decide) (by decide) (by decide)
    (['|'].intercalate ((a :: as).map escapeText) ++ ['\"'])
  rw [← List.cons_append, List.map_cons, pipe_join, ← List.map_cons] at hpipe
  rw [unquote_eq_some]
  constructor
  · intro h
    rw [h] at hpipe
    have hall : ∀ ns ∈ a :: as, ∀ c ∈ ns, Escapable c := by
      by_contra hbad
      push Not at hbad
      exact unquoteFrom_later_ne hbad (by simp) _ hpipe
    rw [unquoteFrom_later hall, unquoteFrom_quote, ← pipe_join] at hpipe
    refine ⟨hall, ?_⟩
    simpa using hpipe.symm
  · rintro ⟨hall, rfl⟩
    rw [unquoteFrom_later hall, unquoteFrom_quote, ← pipe_join] at hpipe
    obtain ⟨q, hq, hqv⟩ := Option.map_eq_some_iff.mp hpipe.symm
    simp only [Prod.mk.injEq, List.append_nil, utf8_cons, List.append_cancel_left_eq] at hqv
    rw [hq, ← hqv.1, ← hqv.2]

/-- An alternative with an escape would have to match a longer one with an escape. -/
theorem no_backslash {re2 : Engine} (hesc : EscapesShorten re2)
    (h : ∀ ns ∈ allowed, ∀ c ∈ ns, Escapable c) {pattern : Text → Prop}
    (hp : re2 (['|'].intercalate allowed) = some pattern) (hall : ∀ ns ∈ allowed, pattern ns) :
    ∀ ns ∈ allowed, '\\' ∉ ns := by
  intro ns hns hb
  have hmem : ns ∈ allowed.filter (fun a ↦ '\\' ∈ a) := List.mem_filter.mpr ⟨hns, by simpa using hb⟩
  obtain ⟨m, hm⟩ : ∃ m, (allowed.filter (fun a ↦ '\\' ∈ a)).argmax List.length = some m := by
    cases hm : (allowed.filter (fun a ↦ '\\' ∈ a)).argmax List.length with
    | none =>
      rw [List.argmax_eq_none.mp hm] at hmem
      cases hmem
    | some m => exact ⟨m, rfl⟩
  obtain ⟨hma, hmb⟩ := List.mem_filter.mp (List.argmax_mem hm)
  have hpipe : '|' ∉ m := fun hc ↦ absurd ((h m hma '|' hc).2.2 (by decide)) (by decide)
  obtain ⟨a, ha, ⟨hn, rfl⟩ | ⟨hab, hlt⟩⟩ :=
    hesc allowed (List.ne_nil_of_mem hns) (fun a ha c hc ↦ (h a ha c hc).2.2) pattern hp m hpipe (hall m hma)
  · exact hn (by simpa using hmb)
  · have hle := List.le_of_mem_argmax (List.mem_filter.mpr ⟨ha, by simpa using hab⟩) hm
    omega

theorem denotes_single (re2 : Engine) (ns : Text) :
    Denotes re2 (nsMatcher ([ns].map utf8)) [ns] ↔ NeedsNoEscape [ns] := by
  have hneeds : NeedsNoEscape [ns] ↔ ∀ c ∈ ns, c ≠ '\"' ∧ c ≠ '\n' ∧ c ≠ '\\' := by
    simp [NeedsNoEscape]
  rw [hneeds, ← unquote_self_iff]
  constructor
  · rintro ⟨w, value, hw, hv, hmatch⟩
    have hwns : ns = w := utf8_injective hw
    have hval : ns = value := (hmatch ns).mpr List.mem_cons_self
    rw [← hwns, ← hval] at hv
    exact hv
  · intro h
    exact ⟨ns, ns, rfl, h, fun s ↦ by simp⟩

theorem denotes_multi {re2 : Engine} (hlit : MatchesLiterals re2) (hesc : EscapesShorten re2)
    (hne : allowed ≠ []) (hlen : allowed.length ≠ 1) :
    Denotes re2 (nsMatcher (allowed.map utf8)) allowed ↔ NeedsNoEscape allowed := by
  rw [nsMatcher_value hlen]
  constructor
  · rintro ⟨w, value, hw, hv, pattern, hp, hmatch⟩
    rw [← utf8_injective hw, unquote_join hne] at hv
    obtain ⟨hall, hvalue⟩ := hv
    rw [utf8_injective hvalue] at hp
    have hback := no_backslash hesc hall hp fun ns hns ↦ (hmatch ns).mpr hns
    intro ns hns c hc
    obtain ⟨hq, hn, hmeta⟩ := hall ns hns c hc
    have hb : c ≠ '\\' := fun hb ↦ hback ns hns (hb ▸ hc)
    exact ⟨hq, hn, hb, fun _ ↦ by simpa using fun hm ↦ hb (hmeta hm)⟩
  · intro h
    have hplain : ∀ ns ∈ allowed, ∀ c ∈ ns, isRegexMetaChar c = false :=
      fun ns hns c hc ↦ (h ns hns c hc).2.2.2 hlen
    have hall : ∀ ns ∈ allowed, ∀ c ∈ ns, Escapable c := by
      intro ns hns c hc
      refine ⟨(h ns hns c hc).1, (h ns hns c hc).2.1, fun hm ↦ ?_⟩
      rw [hplain ns hns c hc] at hm
      cases hm
    obtain ⟨pattern, hp, hmatch⟩ := hlit allowed hne hplain
    exact ⟨_, _, rfl, (unquote_join hne _).mpr ⟨hall, rfl⟩, pattern, hp, hmatch⟩

/-- The matcher that is written denotes the allowed namespaces exactly when none needs an escape. -/
theorem enforceNamespaces_denotes_iff {re2 : Engine} (hlit : MatchesLiterals re2)
    (hesc : EscapesShorten re2) {query r : Bytes} {allowed : List Text}
    (h : enforceNamespaces query (some (allowed.map utf8)) = .ok r) :
    (∃ rest, r = lbrace :: (nsMatcher (allowed.map utf8)).render ++ rest) ∧
      (Denotes re2 (nsMatcher (allowed.map utf8)) allowed ↔ NeedsNoEscape allowed) := by
  obtain ⟨hne, closeIdx, ms, -, -, hr⟩ := enforceNamespaces_ok h
  have hallowed : allowed ≠ [] := by
    rintro rfl
    exact hne rfl
  constructor
  · rw [hr, renderMatchers_cons]
    exact ⟨_, by simp only [List.cons_append, List.append_assoc]; rfl⟩
  · by_cases hlen : allowed.length = 1
    · obtain ⟨ns, rfl⟩ := List.length_eq_one_iff.mp hlen
      exact denotes_single re2 ns
    · exact denotes_multi hlit hesc hallowed hlen

def literalEngine : Engine := fun p ↦
  if '\\' ∈ p then none else some (fun s ↦ s ∈ p.splitOn '|')

theorem literalEngine_matchesLiterals : MatchesLiterals literalEngine := by
  intro alts hne hplain
  have hpipe : ∀ a ∈ alts, '|' ∉ a := fun a ha hc ↦ absurd (hplain a ha '|' hc) (by decide)
  have hb : '\\' ∉ ['|'].intercalate alts := by
    intro hb
    rcases mem_of_mem_intercalate hb with hb | ⟨a, ha, hc⟩
    · exact absurd hb (by decide)
    · exact absurd (hplain a ha '\\' hc) (by decide)
  refine ⟨_, if_neg hb, fun s ↦ ?_⟩
  rw [List.splitOn_intercalate '|' hpipe hne]

theorem literalEngine_escapesShorten : EscapesShorten literalEngine := by
  intro alts hne hmeta pattern hp s hs hmatch
  unfold literalEngine at hp
  split at hp
  · cases hp
  · next hb =>
    cases hp
    have hback : ∀ a ∈ alts, '\\' ∉ a := fun a ha hc ↦ hb (mem_intercalate_of_mem ha hc)
    have hpipe : ∀ a ∈ alts, '|' ∉ a := by
      intro a ha hc
      exact absurd (hmeta a ha '|' hc (by decide)) (by decide)
    rw [List.splitOn_intercalate '|' hpipe hne] at hmatch
    exact ⟨s, hmatch, .inl ⟨hback s hmatch, rfl⟩⟩

theorem enforceNamespaces_denotes_iff_default :
    (∃ rest, lbrace :: renderMatchers [nsMatcher (["default".toList, "kube-system".toList].map utf8)] ++
        [rbrace] = lbrace :: (nsMatcher (["default".toList, "kube-system".toList].map utf8)).render ++ rest) ∧
      (Denotes literalEngine (nsMatcher (["default".toList, "kube-system".toList].map utf8))
        ["default".toList, "kube-system".toList] ↔
        NeedsNoEscape ["default".toList, "kube-system".toList]) :=
  enforceNamespaces_denotes_iff literalEngine_matchesLiterals literalEngine_escapesShorten
    (show enforceNamespaces [lbrace, rbrace]
      (some (["default".toList, "kube-system".toList].map utf8)) = .ok _ by decide)

theorem not_denotes : ¬ ∀ re2 : Engine, MatchesLiterals re2 → EscapesShorten re2 →
    ∀ (query r : Bytes) (allowed : List Text), enforceNamespaces query (some (allowed.map utf8)) = .ok r →
      Denotes re2 (nsMatcher (allowed.map utf8)) allowed := by
  intro h
  have hok : enforceNamespaces [lbrace, rbrace] (some (["ns.prod".toList, "ns+staging".toList].map utf8)) =
      .ok (lbrace :: renderMatchers [nsMatcher (["ns.prod".toList, "ns+staging".toList].map utf8)] ++
        [rbrace]) := by decide
  obtain ⟨w, value, hw, hv, -⟩ := h literalEngine literalEngine_matchesLiterals
    literalEngine_escapesShorten _ _ _ hok
  rw [nsMatcher_value (by decide)] at hw
  rw [← utf8_injective hw, unquote_join (by simp)] at hv
  exact absurd (hv.1 "ns.prod".toList List.mem_cons_self '.' (by decide)) (by decide)

end KubeCenter.Loki
