import KubeCenter.Wizard.SchemaToYamlSound

namespace KubeCenter.Wizard.SchemaToYaml

open KubeCenter.Core BlockYaml

variable {K : Scalar → Prop}

/-! ## Strings -/

theorem head?_dropSpaces (s : Text) : (dropSpaces s).head? ≠ some ' ' := by
  intro h
  have hnot := List.head?_dropWhile_not (fun c ↦ decide (c = ' ')) s
  rw [← dropSpaces, h] at hnot
  exact absurd hnot (by decide)

theorem getLast?_trimSpaces (s : Text) : (trimSpaces s).getLast? ≠ some ' ' := by
  intro h
  have hne : trimSpaces s ≠ [] := by
    intro hnil
    rw [hnil] at h
    cases h
  have hlast := List.rdropWhile_last_not (fun c ↦ decide (c = ' ')) s hne
  rw [List.getLast?_eq_some_getLast hne] at h
  exact hlast (decide_eq_true (Option.some.inj h))

theorem trim_subset (s : Text) : trimSpaces (dropSpaces s) ⊆ s :=
  List.Subset.trans (trimSpaces_subset _) (dropSpaces_subset s)

/-- If trimming gives the string itself, it took nothing away. -/
theorem trim_eq_self {s : Text} (h : trimSpaces (dropSpaces s) = s) : dropSpaces s = s ∧ trimSpaces s = s := by
  have htrim : (trimSpaces (dropSpaces s)).length ≤ (dropSpaces s).length := (List.rdropWhile_prefix _ _).length_le
  have hdrop : dropSpaces s <:+ s := List.dropWhile_suffix _
  have heq : dropSpaces s = s := hdrop.eq_of_length_le (by rw [h] at htrim; exact htrim)
  rw [heq] at h
  exact ⟨heq, h⟩

theorem ends_of_trim {s : Text} (h : trimSpaces (dropSpaces s) = s) : s.head? ≠ some ' ' ∧ s.getLast? ≠ some ' ' := by
  obtain ⟨hdrop, htrim⟩ := trim_eq_self h
  have hhead := head?_dropSpaces s
  have hlast := getLast?_trimSpaces s
  rw [hdrop] at hhead
  rw [htrim] at hlast
  exact ⟨hhead, hlast⟩

/-- A string without quotes that is read as itself can be written so. -/
theorem writable_of_inline {s : Text} {w : Node} {xs ys : List Token} (hl : Legible s) (hq : needsQuote s = false)
    (hw : BlockYaml.inline (trimSpaces (dropSpaces s)) = some w) (hxs : Opens K xs)
    (heq : w.tokens ++ xs = .scalar (.string s) :: ys) : WritableString s ∧ xs = ys := by
  have hplain := indicator_unquoted hq (fun c hc ↦ (hl c hc).2)
  have hne : trimSpaces (dropSpaces s) ≠ [] := by
    intro hnil
    rw [hnil] at hw
    cases hw
  rw [inline_plain (fun c hc ↦ hplain c (trim_subset s hc)) hne, Option.ite_none_left_eq_some] at hw
  obtain ⟨hdash, hw⟩ := hw
  obtain rfl := Option.some.inj hw
  rw [Node.tokens] at heq
  split at heq
  · rw [List.nil_append] at heq
    rw [heq] at hxs
    exact hxs.not_scalar.elim
  · obtain ⟨hstring, hrest⟩ := List.cons.inj heq
    have hresolve := Token.scalar.inj hstring
    have htrim := resolve_eq_string hresolve
    obtain ⟨hhead, hlast⟩ := ends_of_trim htrim
    rw [htrim] at hresolve hdash
    exact ⟨⟨hl, .inr (.inr ⟨⟨hhead, hlast, hresolve⟩, Bool.eq_false_iff.mpr hdash⟩)⟩, hrest⟩

theorem writable_of_value {s : Text} {v : Option Node} {xs ys : List Token} (hl : Legible s)
    (hv : value (' ' :: quoteString s) = some v) (hxs : Opens K xs)
    (heq : (v.map Node.tokens).getD [] ++ xs = .scalar (.string s) :: ys) : WritableString s ∧ xs = ys := by
  by_cases hquoted : s = [] ∨ needsQuote s = true
  · rw [(written_quoted hl hquoted).value] at hv
    obtain rfl := Option.some.inj hv
    exact ⟨⟨hl, hquoted.imp_right .inl⟩, (List.cons.inj heq).2⟩
  · rw [not_or, Bool.not_eq_true] at hquoted
    rw [quoteString_plain hquoted.1 hquoted.2, value, dropSpaces_cons] at hv
    split at hv
    · obtain rfl := Option.some.inj hv
      rw [Option.map_none, Option.getD_none, List.nil_append] at heq
      rw [heq] at hxs
      exact hxs.not_scalar.elim
    · obtain ⟨w, hw, rfl⟩ := Option.map_eq_some_iff.mp hv
      exact writable_of_inline hl hquoted.2 hw hxs heq

theorem tells_string {s : Text} (hl : Legible s) (n : ℕ) :
    Tells K (expand n (quoteString s)) [.scalar (.string s)] (WritableString s) := by
  by_cases hquoted : s = [] ∨ needsQuote s = true
  · exact ((written_quoted hl hquoted).tells n).imp (fun _ ↦ ⟨hl, hquoted.imp_right .inl⟩)
  · rw [not_or, Bool.not_eq_true] at hquoted
    rw [quoteString_plain hquoted.1 hquoted.2]
    intro ts xs ys hts hxs heq
    have hplain := indicator_unquoted hquoted.2 (fun c hc ↦ (hl c hc).2)
    have hnot {c : Char} (hc : indicator c = true) : c ∉ dropSpaces s :=
      fun hmem ↦ Bool.false_ne_true ((hplain c (dropSpaces_subset s hmem)).symm.trans hc)
    rcases lineTokens_expand hts with ⟨us, rfl⟩ | ⟨-, rfl⟩ | ⟨-, c, hc, rfl⟩
    · cases (List.cons.inj heq).1
    · rw [List.nil_append] at heq
      rw [heq] at hxs
      exact hxs.not_scalar.elim
    · rw [content_unquoted (head?_ne_of_not_mem (hnot (by decide))), cut_eq_none (hnot (by decide))] at hc
      obtain ⟨w, hw, rfl⟩ := Option.map_eq_some_iff.mp hc
      exact writable_of_inline hl hquoted.2 hw hxs heq

/-! ## Keys -/

/-- The beginning of a key may be cut off; a quote is never cut off. -/
def CutOf (q' q : Text) : Prop := q' <:+ q ∧ (q.head? = some '\"' → q' = q)

theorem CutOf.refl (q : Text) : CutOf q q := ⟨List.suffix_refl q, fun _ ↦ rfl⟩

theorem dropSpaces_colon (q r : Text) : dropSpaces (q ++ ':' :: r) = dropSpaces q ++ ':' :: r := by
  induction q with
  | nil => rfl
  | cons c q ih =>
    by_cases hc : c = ' '
    · rw [hc, List.cons_append, dropSpaces_cons, dropSpaces_cons, ih]
    · have hhead (t : Text) : (c :: t).head? ≠ some ' ' := fun h ↦ hc (Option.some.inj h)
      rw [List.cons_append, dropSpaces_self (hhead _), dropSpaces_self (hhead _), List.cons_append]

/-- An unquoted key that is read as itself is written in full, with nothing at its ends that trimming takes. -/
theorem eq_of_key {k q : Text} (hq : q <:+ k) (h : key (trimSpaces (dropSpaces q)) = some (.string k)) :
    q = k ∧ k ≠ ['<', '<'] ∧ k ≠ [] ∧ StaysPlain k := by
  obtain ⟨hmerge, hplain⟩ := Option.ite_none_left_eq_some.mp h
  obtain ⟨hne, -, hresolve⟩ := plain_eq_some.mp hplain
  have htrim := resolve_eq_string hresolve.symm
  have hle : (trimSpaces (dropSpaces q)).length ≤ q.length :=
    (List.rdropWhile_prefix _ _).length_le.trans (List.dropWhile_suffix _).length_le
  have heq : q = k := hq.eq_of_length_le (by rw [htrim] at hle; exact hle)
  rw [heq] at htrim
  obtain ⟨hhead, hlast⟩ := ends_of_trim htrim
  rw [heq, htrim] at hmerge hne hresolve
  exact ⟨heq, hmerge, hne, hhead, hlast, hresolve.symm⟩

/-- What is read off the line of a key: an item, or a key with what follows the colon. It is the key itself only if
that can be written and nothing of it was cut off. -/
theorem tokens_key {k q r : Text} {n : ℕ} {ts : List Token} (hl : Legible k) (hq : CutOf q (quoteString k))
    (hts : lineTokens (expand n (q ++ ':' :: r)) = some ts) :
    (∃ us, ts = .dash :: us) ∨ ∃ k' v, value r = some v ∧ ts = .key k' :: (v.map Node.tokens).getD [] ∧
      (k' = .string k → q = quoteString k ∧ WritableKey k) ∧ (k' = .string [] → k = []) := by
  rcases lineTokens_expand hts with ⟨us, rfl⟩ | ⟨hnil, -⟩ | ⟨hdash, c, hc, rfl⟩
  · exact .inl ⟨us, rfl⟩
  · rw [dropSpaces_colon] at hnil
    exact absurd hnil (by simp)
  right
  rw [dropSpaces_colon] at hc hdash
  by_cases hquoted : k = [] ∨ needsQuote k = true
  · obtain rfl : q = quoteString k := hq.2 (by rw [quoteString_quoted hquoted]; rfl)
    have hsize : (quoteString k).length = (k.flatMap escape).length + 2 := by
      rw [quoteString_quoted hquoted, List.length_cons, List.length_append]
      rfl
    have hquote : (quoteString k).head? ≠ some ' ' := by
      rw [quoteString_quoted hquoted]
      exact fun h ↦ absurd (Option.some.inj h) (by decide)
    have htext : quoteString k ++ ':' :: r = '\"' :: (k.flatMap escape ++ '\"' :: ':' :: r) := by
      rw [quoteString_quoted hquoted, List.cons_append, List.append_assoc]
      rfl
    rw [dropSpaces_self hquote, htext, content, quoted_escape (fun c hc ↦ (hl c hc).2)] at hc
    obtain ⟨⟨-, hlen⟩, hc⟩ := Option.ite_none_right_eq_some.mp hc
    obtain ⟨v, hv, rfl⟩ := Option.map_eq_some_iff.mp hc
    have hlimit : (quoteString k).length ≤ keyLimit := by
      simp only [List.length_append, List.length_cons] at hlen
      omega
    exact ⟨.string k, v, hv, rfl, fun _ ↦ ⟨rfl, hl, hlimit, hquoted.imp_right .inl⟩, fun h ↦ Scalar.string.inj h⟩
  · rw [not_or, Bool.not_eq_true] at hquoted
    have hform := quoteString_plain hquoted.1 hquoted.2
    have hplain := indicator_unquoted hquoted.2 (fun c hc ↦ (hl c hc).2)
    have hsuffix : q <:+ k := hform ▸ hq.1
    have hnot {c : Char} (hc : indicator c = true) : c ∉ dropSpaces q := fun hmem ↦
      Bool.false_ne_true ((hplain c (hsuffix.subset (dropSpaces_subset q hmem))).symm.trans hc)
    have hhead : (dropSpaces q ++ ':' :: r).head? ≠ some '\"' := by
      cases hd : dropSpaces q with
      | nil => exact fun h ↦ absurd (Option.some.inj h) (by decide)
      | cons c t =>
        intro h
        obtain rfl : c = '\"' := Option.some.inj h
        exact hnot (c := '\"') (by decide) (hd ▸ List.mem_cons_self)
    rw [content_unquoted hhead, cut_append (hnot (by decide))] at hc
    obtain ⟨⟨-, hlen⟩, hc⟩ := Option.ite_none_right_eq_some.mp hc
    obtain ⟨k', hk', hc⟩ := Option.bind_eq_some_iff.mp hc
    obtain ⟨v, hv, rfl⟩ := Option.map_eq_some_iff.mp hc
    refine ⟨k', v, hv, rfl, ?_, ?_⟩
    · rintro rfl
      obtain ⟨rfl, hmerge, hne, hstays⟩ := eq_of_key hsuffix hk'
      have hdrop : dropSpaces q = q := dropSpaces_self hstays.1
      rw [hdrop] at hlen hdash
      have hlone : dashed q = true → q = ['-'] := by
        intro h
        rcases dashed_iff.mp h with h | ⟨t, rfl⟩
        · exact h
        · cases hdash
      rw [hform]
      exact ⟨rfl, hl, by rw [hform]; exact hlen, .inr (.inr ⟨hstays, hlone, hmerge⟩)⟩
    · rintro rfl
      obtain ⟨-, hplainKey⟩ := Option.ite_none_left_eq_some.mp hk'
      obtain ⟨hne, -, hresolve⟩ := plain_eq_some.mp hplainKey
      exact absurd (resolve_eq_string hresolve.symm) hne

theorem unbroken_row {k q r : Text} (hl : Legible k) (hq : CutOf q (quoteString k)) (hr : '\n' ∉ r) :
    '\n' ∉ q ++ ':' :: r := by
  rw [List.mem_append, List.mem_cons, not_or, not_or]
  exact ⟨fun h ↦ unbroken_quoteString hl (hq.1.subset h), by decide, hr⟩

variable {k q r x : Text} {indent : ℕ} {es : List Token} {ls : List (ℕ × Head)} {P : Prop}

theorem leadsOn_key (hl : Legible k) (hq : CutOf q (quoteString k)) (hr : '\n' ∉ r)
    (hK : ∀ k', (k' = .string [] → k = []) → K k') : LeadsOn K (textLines (pad indent ++ (q ++ ':' :: r))) := by
  intro ts hts
  rw [textLines_pad (unbroken_row hl hq hr)] at hts
  rcases tokens_key hl hq hts with ⟨us, rfl⟩ | ⟨k', v, -, rfl, -, hempty⟩
  · exact ⟨List.cons_ne_nil _ _, fun t ht ↦ .inl (Option.some.inj ht).symm⟩
  · exact ⟨List.cons_ne_nil _ _, fun t ht ↦ .inr ⟨k', hK k' hempty, (Option.some.inj ht).symm⟩⟩

theorem tells_key (hl : Legible k) (hq : CutOf q (quoteString k)) (hr : '\n' ∉ r)
    (hv : ∀ v xs ys, value r = some v → Opens K xs → (v.map Node.tokens).getD [] ++ xs = es ++ ys → P ∧ xs = ys) :
    Tells K (textLines (pad indent ++ (q ++ ':' :: r))) (.key (.string k) :: es)
      ((q = quoteString k ∧ WritableKey k) ∧ P) := by
  intro ts xs ys hts hxs heq
  rw [textLines_pad (unbroken_row hl hq hr)] at hts
  rcases tokens_key hl hq hts with ⟨us, rfl⟩ | ⟨k', v, hvalue, rfl, hkey, -⟩
  · cases (List.cons.inj heq).1
  · obtain ⟨hhead, hrest⟩ := List.cons.inj heq
    obtain ⟨hP, hend⟩ := hv v xs ys hvalue hxs hrest
    exact ⟨⟨hkey (Token.key.inj hhead), hP⟩, hend⟩

theorem tells_inline {w : Node} (hl : Legible k) (hq : CutOf q (quoteString k)) (hx : Written x w) :
    Tells K (textLines (pad indent ++ (q ++ ':' :: ' ' :: x))) (.key (.string k) :: w.tokens)
      ((q = quoteString k ∧ WritableKey k) ∧ True) := by
  have hrow : '\n' ∉ ' ' :: x := by
    rw [List.mem_cons, not_or]
    exact ⟨by decide, hx.unbroken⟩
  refine tells_key hl hq hrow fun v xs ys hv _ heq ↦ ?_
  rw [hx.value] at hv
  obtain rfl := Option.some.inj hv
  exact ⟨trivial, List.append_cancel_left heq⟩

theorem tells_inline_string {s : Text} (hl : Legible k) (hq : CutOf q (quoteString k)) (hs : Legible s) :
    Tells K (textLines (pad indent ++ (q ++ ':' :: ' ' :: quoteString s)))
      [.key (.string k), .scalar (.string s)] ((q = quoteString k ∧ WritableKey k) ∧ WritableString s) := by
  have hrow : '\n' ∉ ' ' :: quoteString s := by
    rw [List.mem_cons, not_or]
    exact ⟨by decide, unbroken_quoteString hs⟩
  exact tells_key hl hq hrow fun v xs ys hv hxs heq ↦ writable_of_value hs hv hxs heq

theorem tells_block (hl : Legible k) (hq : CutOf q (quoteString k)) (h : Tells K ls es P) (hlead : Leads K ls) :
    Tells K (textLines (pad indent ++ (q ++ [':'])) ++ ls) (.key (.string k) :: es)
      (((q = quoteString k ∧ WritableKey k) ∧ True) ∧ P) := by
  have hkey : Tells K (textLines (pad indent ++ (q ++ [':']))) [.key (.string k)]
      ((q = quoteString k ∧ WritableKey k) ∧ True) := by
    refine tells_key hl hq List.not_mem_nil fun v xs ys hv _ heq ↦ ?_
    obtain rfl := Option.some.inj hv
    exact ⟨trivial, heq⟩
  exact hkey.append h hlead

/-! ## Trees -/

/-- Lines are written anew, and their keys may be cut in doing so; a key that is not cut satisfies `G`. -/
def Cutting (indent : ℕ) (g : Text → Text) (G : Text → Prop) : Prop :=
  ∀ q r : Text, ∃ q', CutOf q' q ∧ (q' = q → G q) ∧ g (pad indent ++ (q ++ ':' :: r)) = pad indent ++ (q' ++ ':' :: r)

theorem cutting_id (indent : ℕ) : Cutting indent id (fun _ ↦ True) := fun q _ ↦ ⟨q, CutOf.refl q, fun _ ↦ trivial, rfl⟩

theorem cutting_trimStart (indent : ℕ) :
    Cutting indent (fun l ↦ pad indent ++ trimStart l) (fun q ↦ ∀ c ∈ q.head?, jsSpace c = false) := by
  have htrim (q r : Text) : trimStart (q ++ ':' :: r) = trimStart q ++ ':' :: r := by
    induction q with
    | nil => rfl
    | cons c q ih =>
      by_cases hc : jsSpace c = true
      · simpa [trimStart, hc] using ih
      · simp [trimStart, hc]
  have hhead (q : Text) : ∀ c ∈ (trimStart q).head?, jsSpace c = false := by
    intro c hc
    have hnot := List.head?_dropWhile_not jsSpace q
    rw [← trimStart, Option.mem_def.mp hc] at hnot
    simpa using hnot
  have hpad (s : Text) : trimStart (pad indent ++ s) = trimStart s := by
    refine List.dropWhile_append_of_pos fun c hc ↦ ?_
    rw [List.eq_of_mem_replicate hc]
    decide
  intro q r
  refine ⟨trimStart q, ⟨List.dropWhile_suffix _, fun hquote ↦ ?_⟩, fun h ↦ h ▸ hhead q, ?_⟩
  · cases q with
    | nil => cases hquote
    | cons c q =>
      obtain rfl := Option.some.inj hquote
      rfl
  · simp only [hpad, htrim]

/-- What stands behind a colon: a text on the next lines, or a blank and a text on the same line. -/
def behind (x : Text) : Text := if x.head? = some '\n' then x else ' ' :: x

theorem member_eq (indent : ℕ) (k x : Text) : member indent k x = pad indent ++ (quoteString k ++ ':' :: behind x) := by
  rw [member, behind]
  split <;> rw [List.append_assoc]

def anyKey : Scalar → Prop := fun _ ↦ True

/-- Behind any key the text is read as the tokens only if `P` holds. -/
def Says (indent : ℕ) (x : Text) (es : List Token) (P : Prop) : Prop :=
  ∀ k q, Legible k → CutOf q (quoteString k) →
    Tells anyKey (textLines (pad indent ++ (q ++ ':' :: behind x))) (.key (.string k) :: es)
      ((q = quoteString k ∧ WritableKey k) ∧ P) ∧
    LeadsOn anyKey (textLines (pad indent ++ (q ++ ':' :: behind x)))

theorem says_written {w : Node} (hx : Written x w) : Says indent x w.tokens True := by
  intro k q hl hq
  have hrow : '\n' ∉ ' ' :: x := by
    rw [List.mem_cons, not_or]
    exact ⟨by decide, hx.unbroken⟩
  rw [behind, if_neg hx.head?_ne_newline]
  exact ⟨tells_inline hl hq hx, leadsOn_key hl hq hrow (fun _ _ ↦ trivial)⟩

theorem says_string {s : Text} (hs : Legible s) :
    Says indent (quoteString s) [.scalar (.string s)] (WritableString s) := by
  intro k q hl hq
  have hrow : '\n' ∉ ' ' :: quoteString s := by
    rw [List.mem_cons, not_or]
    exact ⟨by decide, unbroken_quoteString hs⟩
  rw [behind, if_neg (head?_ne_of_not_mem (unbroken_quoteString hs))]
  exact ⟨tells_inline_string hl hq hs, leadsOn_key hl hq hrow (fun _ _ ↦ trivial)⟩

theorem says_block {rows : List Text} (h : Tells anyKey (rows.flatMap textLines) es P)
    (hlead : Leads anyKey (rows.flatMap textLines)) : Says indent ('\n' :: joinLines rows) es P := by
  intro k q hl hq
  have hbehind : behind ('\n' :: joinLines rows) = '\n' :: joinLines rows := if_pos rfl
  have hrow : pad indent ++ (q ++ ':' :: '\n' :: joinLines rows) =
      (pad indent ++ (q ++ [':'])) ++ '\n' :: joinLines rows := by
    rw [List.append_assoc, List.append_assoc]
    rfl
  rw [hbehind, hrow, textLines_block]
  exact ⟨(tells_block hl hq h hlead).imp (fun h ↦ ⟨h.1.1, h.2⟩),
    (leadsOn_key hl hq List.not_mem_nil (fun _ _ ↦ trivial)).append⟩

def Readable (es : List Token) : Prop := ∀ t ∈ es, Legible t.text

theorem Readable.append {us : List Token} (h : Readable (es ++ us)) : Readable es ∧ Readable us :=
  List.forall_mem_append.mp h

theorem Readable.cons {t : Token} (h : Readable (t :: es)) : Legible t.text ∧ Readable es := List.forall_mem_cons.mp h

theorem exists_of_fields {ms : List (Text × Form)} (h : fields ms ≠ []) : ∃ m ∈ ms, isEmptyValue m.2 = false := by
  induction ms with
  | nil => exact absurd rfl h
  | cons m ms ih =>
    obtain ⟨k, v⟩ := m
    by_cases hv : isEmptyValue v = true
    · rw [fields, if_pos hv] at h
      obtain ⟨m, hm, hfull⟩ := ih h
      exact ⟨m, List.mem_cons_of_mem _ hm, hfull⟩
    · exact ⟨(k, v), List.mem_cons_self, Bool.eq_false_iff.mpr hv⟩

theorem writable_of_no_fields {ms : List (Text × Form)} (h : fields ms = []) :
    KeysKept (.object ms) ∧ WritableMembers ms := by
  have hempty : ∀ m ∈ ms, isEmptyValue m.2 = true := by
    intro m hm
    by_contra hv
    exact fields_ne_nil ⟨m, hm, Bool.eq_false_iff.mpr hv⟩ h
  refine ⟨fun m hm hv ↦ absurd (hempty m hm) (by rw [hv]; exact Bool.false_ne_true), ?_⟩
  clear h
  induction ms with
  | nil => trivial
  | cons m ms ih =>
    refine ⟨fun hv ↦ absurd (hempty m List.mem_cons_self) (by rw [hv]; exact Bool.false_ne_true), ?_⟩
    exact ih (fun m hm ↦ hempty m (List.mem_cons_of_mem _ hm))

/-- The lines of an object, whether they stay as they are or are trimmed for an item. -/
def TellsMembers (indent : ℕ) (ms : List (Text × Form)) : Prop :=
  ∀ (g : Text → Text) (G : Text → Prop), Cutting indent g G →
    Tells anyKey (((serializeObject indent ms).map g).flatMap textLines) (fieldTokens (fields ms))
      (WritableMembers ms ∧ ∀ m ∈ ms, isEmptyValue m.2 = false → G (quoteString m.1)) ∧
    Leads anyKey (((serializeObject indent ms).map g).flatMap textLines)

def TellsItems (indent : ℕ) (items : List Form) : Prop :=
  Tells anyKey ((serializeItems indent items).flatMap textLines) (itemTokens (nodes items)) (WritableItems items) ∧
    Leads anyKey ((serializeItems indent items).flatMap textLines)

theorem tellsMembers_cons {v : Form} {ms : List (Text × Form)} (hl : Legible k)
    (hv : Says indent (serializeValue (indent + 1) v) (node v).tokens (Substantial v ∧ WritableForm v))
    (hms : TellsMembers indent ms) (hfull : isEmptyValue v = false) : TellsMembers indent ((k, v) :: ms) := by
  intro g G hg
  have hne : ¬ isEmptyValue v = true := by rw [hfull]; exact Bool.false_ne_true
  obtain ⟨q, hq, hG, hrow⟩ := hg (quoteString k) (behind (serializeValue (indent + 1) v))
  obtain ⟨htells, hlead⟩ := hms g G hg
  obtain ⟨hmember, hfirst⟩ := hv k q hl hq
  rw [serializeObject, fields, if_neg hne, if_neg hne, List.map_cons, List.flatMap_cons, member_eq, hrow, fieldTokens]
  refine ⟨(hmember.append htells hlead).imp ?_, hfirst.append.leads⟩
  rintro ⟨⟨⟨hkey, hk⟩, hwritable⟩, hms, hG'⟩
  exact ⟨⟨fun _ ↦ ⟨hk, hwritable⟩, hms⟩, List.forall_mem_cons.mpr ⟨fun _ ↦ hG hkey, hG'⟩⟩

theorem tellsItems_cons {v : Form} {items : List Form}
    (hrow : serializeItems indent (v :: items) =
      (pad indent ++ '-' :: ' ' :: serializeValue (indent + 1) v) :: serializeItems indent items)
    (hkept : KeysKept v)
    (hv : Tells anyKey (textLines (pad (indent + 1) ++ serializeValue (indent + 1) v)) (node v).tokens (WritableForm v))
    (hitems : TellsItems indent items) : TellsItems indent (v :: items) := by
  rw [TellsItems, hrow, List.flatMap_cons, textLines_item, nodes, itemTokens]
  exact ⟨(hv.dash.append hitems.1 hitems.2).imp (fun h ↦ ⟨hkept, h⟩), Leads.dash⟩

theorem tellsItems_object {ms : List (Text × Form)} {items : List Form} (hms : TellsMembers (indent + 1) ms)
    (hitems : TellsItems indent items) : TellsItems indent (.object ms :: items) := by
  rw [TellsItems, serializeItems, List.flatMap_append, nodes, itemTokens, node, Node.tokens]
  by_cases hne : fields ms = []
  · rw [(serializeObject_eq_nil _ ms).mpr hne, textLines_emptyItem, hne]
    refine ⟨((written_empty.2.tells _).dash.append hitems.1 hitems.2).imp ?_, Leads.dash⟩
    exact fun h ↦ ⟨(writable_of_no_fields hne).1, (writable_of_no_fields hne).2, h.2⟩
  · have hrows := mt (serializeObject_eq_nil (indent + 1) ms).mp hne
    obtain ⟨htells, -⟩ := hms _ _ (cutting_trimStart (indent + 1))
    rw [textLines_objectItem hrows, if_neg (mt List.isEmpty_iff.mp hne)]
    refine ⟨(htells.dash.append hitems.1 hitems.2).imp ?_, Leads.dash⟩
    exact fun h ↦ ⟨h.1.2, h.1.1, h.2⟩

theorem tells_written {w : Node} (hx : Written x w) :
    Tells anyKey (textLines (pad indent ++ x)) w.tokens True := by
  rw [textLines_pad hx.unbroken]
  exact hx.tells _

theorem tells_array {items : List Form} (hne : items ≠ []) (h : TellsItems indent items) :
    Tells anyKey (textLines (pad indent ++ serializeValue indent (.array items))) (itemTokens (nodes items))
      (WritableItems items) := by
  have hpad : textLines (pad indent) = [] := by
    have h : textLines (pad indent ++ []) = [] := textLines_pad List.not_mem_nil
    rwa [List.append_nil] at h
  rw [serializeValue, if_neg (mt List.isEmpty_iff.mp hne), textLines_block, hpad]
  exact h.1

theorem array_tokens {items : List Form} (hne : items ≠ []) : (node (.array items)).tokens = itemTokens (nodes items) := by
  rw [node, Node.tokens, if_neg (mt List.isEmpty_iff.mp (nodes_ne_nil hne))]

mutual

theorem says_value : (v : Form) → isEmptyValue v = false → Readable (node v).tokens → (indent : ℕ) →
    Says indent (serializeValue (indent + 1) v) (node v).tokens (Substantial v ∧ WritableForm v)
  | .null, h, _, _ => by cases h
  | .bool b, _, _, _ => fun k q hl hq ↦ (says_written (written_bool b) k q hl hq).imp_left
      (fun h ↦ h.imp (fun h ↦ ⟨h.1, trivial, trivial⟩))
  | .number d, _, _, _ => fun k q hl hq ↦ (says_written (written_number d) k q hl hq).imp_left
      (fun h ↦ h.imp (fun h ↦ ⟨h.1, trivial, trivial⟩))
  | .string s, _, h, _ => fun k q hl hq ↦ (says_string (h _ List.mem_cons_self) k q hl hq).imp_left
      (fun h ↦ h.imp (fun h ↦ ⟨h.1, trivial, h.2⟩))
  | .array items, hfull, h, indent => by
    have hne : items ≠ [] := by
      rintro rfl
      cases hfull
    rw [array_tokens hne] at h ⊢
    obtain ⟨htells, hlead⟩ := tells_items items h (indent + 1)
    rw [serializeValue, if_neg (mt List.isEmpty_iff.mp hne)]
    exact says_block (htells.imp (fun h ↦ ⟨trivial, h⟩)) hlead
  | .object ms, hfull, h, indent => by
    have hms : ms ≠ [] := by
      rintro rfl
      cases hfull
    rw [serializeValue, if_neg (mt List.isEmpty_iff.mp hms)]
    rw [node, Node.tokens] at h ⊢
    by_cases hne : fields ms = []
    · rw [(serializeObject_eq_nil _ ms).mpr hne, hne]
      exact says_block (Tells.absent.imp False.elim) Leads.nil
    · rw [if_neg (mt List.isEmpty_iff.mp hne)] at h ⊢
      obtain ⟨htells, hlead⟩ := tells_members ms h (indent + 1) id _ (cutting_id _)
      rw [List.map_id] at htells hlead
      exact says_block (htells.imp (fun h ↦ ⟨exists_of_fields hne, h.1⟩)) hlead

theorem tells_item : (v : Form) → (∀ ms, v ≠ .object ms) → Readable (node v).tokens → (indent : ℕ) →
    Tells anyKey (textLines (pad indent ++ serializeValue indent v)) (node v).tokens (WritableForm v)
  | .null, _, _, _ => tells_written written_null
  | .bool b, _, _, _ => tells_written (written_bool b)
  | .number d, _, _, _ => tells_written (written_number d)
  | .string s, _, h, indent => by
    have hs : Legible s := h _ List.mem_cons_self
    rw [serializeValue, textLines_pad (unbroken_quoteString hs)]
    exact tells_string hs _
  | .array items, _, h, indent => by
    by_cases hne : items = []
    · rw [hne]
      exact tells_written written_empty.1
    · rw [array_tokens hne] at h ⊢
      exact tells_array hne (tells_items items h indent)
  | .object ms, h, _, _ => absurd rfl (h ms)

theorem tells_items : (items : List Form) → Readable (itemTokens (nodes items)) → (indent : ℕ) →
    TellsItems indent items
  | [], _, _ => ⟨Tells.nil, Leads.nil⟩
  | .object ms :: items, h, indent => by
    obtain ⟨hv, hitems⟩ := (Readable.append h)
    have hrest := tells_items items hitems indent
    obtain ⟨-, hv⟩ := hv.cons
    rw [node, Node.tokens] at hv
    by_cases hne : fields ms = []
    · have hms : Readable (fieldTokens (fields ms)) := by
        rw [hne]
        exact fun t ht ↦ absurd ht List.not_mem_nil
      exact tellsItems_object (tells_members ms hms (indent + 1)) hrest
    · rw [if_neg (mt List.isEmpty_iff.mp hne)] at hv
      exact tellsItems_object (tells_members ms hv (indent + 1)) hrest
  | .null :: items, h, indent =>
    tellsItems_cons rfl trivial (tells_item .null nofun h.append.1.cons.2 (indent + 1))
      (tells_items items h.append.2 indent)
  | .bool b :: items, h, indent =>
    tellsItems_cons rfl trivial (tells_item (.bool b) nofun h.append.1.cons.2 (indent + 1))
      (tells_items items h.append.2 indent)
  | .number d :: items, h, indent =>
    tellsItems_cons rfl trivial (tells_item (.number d) nofun h.append.1.cons.2 (indent + 1))
      (tells_items items h.append.2 indent)
  | .string s :: items, h, indent =>
    tellsItems_cons rfl trivial (tells_item (.string s) nofun h.append.1.cons.2 (indent + 1))
      (tells_items items h.append.2 indent)
  | .array inner :: items, h, indent =>
    tellsItems_cons rfl trivial (tells_item (.array inner) nofun h.append.1.cons.2 (indent + 1))
      (tells_items items h.append.2 indent)

theorem tells_members : (ms : List (Text × Form)) → Readable (fieldTokens (fields ms)) → (indent : ℕ) →
    TellsMembers indent ms
  | [], _, _ => fun g G _ ↦ ⟨Tells.nil.imp (fun _ ↦ ⟨trivial, fun m hm ↦ absurd hm List.not_mem_nil⟩), Leads.nil⟩
  | (k, v) :: ms, h, indent => by
    rw [fields] at h
    by_cases hv : isEmptyValue v = true
    · rw [if_pos hv] at h
      intro g G hg
      have hms := tells_members ms h indent g G hg
      rw [serializeObject, fields, if_pos hv, if_pos hv]
      refine ⟨hms.1.imp fun hP ↦ ⟨⟨fun hfull ↦ ?_, hP.1⟩, List.forall_mem_cons.mpr ⟨fun hfull ↦ ?_, hP.2⟩⟩, hms.2⟩
      · exact absurd hv (by rw [hfull]; exact Bool.false_ne_true)
      · exact absurd hv (by rw [hfull]; exact Bool.false_ne_true)
    · rw [if_neg hv] at h
      obtain ⟨hmember, hms⟩ := Readable.append h
      have hfull := Bool.eq_false_iff.mpr hv
      exact tellsMembers_cons hmember.cons.1 (says_value v hfull hmember.cons.2 indent) (tells_members ms hms indent) hfull

end

/-! ## The whole text -/

def namedKey (k : Scalar) : Prop := k ≠ .string []

theorem named_of_fixed (hk : k ∈ fixedKeys) : ∀ k', (k' = .string [] → k = []) → namedKey k' := by
  have hne : ∀ k ∈ fixedKeys, k ≠ [] := by decide
  exact fun k' h hempty ↦ hne k hk (h hempty)

theorem fieldTokens_append (fs gs : List (Scalar × Node)) : fieldTokens (fs ++ gs) = fieldTokens fs ++ fieldTokens gs := by
  induction fs with
  | nil => rfl
  | cons f fs ih =>
    obtain ⟨k, w⟩ := f
    rw [List.cons_append, fieldTokens, fieldTokens, ih]
    simp only [List.cons_append, List.append_assoc]

/-- Rows under one column are read as the fields only if `P` holds. -/
def TellsRows (rows : List Text) (fs : List (Scalar × Node)) (P : Prop) : Prop :=
  Tells namedKey (rows.flatMap textLines) (fieldTokens fs) P ∧ Leads namedKey (rows.flatMap textLines)

theorem TellsRows.nil : TellsRows [] [] True := ⟨Tells.nil, Leads.nil⟩

theorem TellsRows.imp {rows : List Text} {fs : List (Scalar × Node)} {P Q : Prop} (h : TellsRows rows fs P)
    (hP : P → Q) : TellsRows rows fs Q := ⟨h.1.imp hP, h.2⟩

theorem TellsRows.append {rows rows' : List Text} {fs gs : List (Scalar × Node)} {P Q : Prop}
    (h : TellsRows rows fs P) (h' : TellsRows rows' gs Q) : TellsRows (rows ++ rows') (fs ++ gs) (P ∧ Q) := by
  rw [TellsRows, List.flatMap_append, fieldTokens_append]
  exact ⟨h.1.append h'.1 h'.2, h.2.append h'.2⟩

theorem tellsRows_string {s : Text} (hl : Legible k) (hs : Legible s)
    (hk : ∀ k', (k' = .string [] → k = []) → namedKey k') (indent : ℕ) :
    TellsRows [pad indent ++ quoteString k ++ ':' :: ' ' :: quoteString s] [(.string k, stringNode s)]
      (WritableKey k ∧ WritableString s) := by
  have hrow : '\n' ∉ ' ' :: quoteString s := by
    rw [List.mem_cons, not_or]
    exact ⟨by decide, unbroken_quoteString hs⟩
  rw [TellsRows, List.flatMap_singleton, List.append_assoc]
  exact ⟨(tells_inline_string hl (CutOf.refl _) hs).imp (fun h ↦ ⟨h.1.2, h.2⟩),
    (leadsOn_key hl (CutOf.refl _) hrow hk).leads⟩

theorem tellsRows_block {rows : List Text} {fs : List (Scalar × Node)} (hk : k ∈ fixedKeys) (hne : fs ≠ [])
    (h : TellsRows rows fs P) (indent : ℕ) :
    TellsRows ((pad indent ++ quoteString k ++ [':']) :: rows) [(.string k, .map fs)] P := by
  have hl := (writable_fixed k hk).1
  have htokens : fieldTokens [(Scalar.string k, Node.map fs)] = .key (.string k) :: fieldTokens fs := by
    rw [fieldTokens, Node.tokens, if_neg (mt List.isEmpty_iff.mp hne), fieldTokens, List.append_nil]
  rw [TellsRows, List.flatMap_cons, htokens, List.append_assoc]
  exact ⟨(tells_block hl (CutOf.refl _) h.1 h.2).imp And.right,
    (leadsOn_key hl (CutOf.refl _) List.not_mem_nil (named_of_fixed hk)).append.leads⟩

/-- The rows of a string map; an entry without a key would be read as another one. -/
theorem tellsRows_entries (es : List (Text × Text)) (h : Readable (fieldTokens (es.map stringField))) :
    TellsRows ((es.filter (fun e ↦ !e.1.isEmpty)).map
        (fun e ↦ "    ".toList ++ quoteString e.1 ++ ':' :: ' ' :: quoteString e.2)) (es.map stringField)
      (∀ e ∈ es, e.1 ≠ [] ∧ WritableKey e.1 ∧ WritableString e.2) := by
  induction es with
  | nil => exact TellsRows.nil.imp (fun _ e he ↦ absurd he List.not_mem_nil)
  | cons e es ih =>
    obtain ⟨k, s⟩ := e
    have hparts : Legible k ∧ Legible s ∧ Readable (fieldTokens (es.map stringField)) :=
      ⟨h.cons.1, h.cons.2.cons.1, h.cons.2.cons.2⟩
    have hrest := ih hparts.2.2
    by_cases hk : k = []
    · rw [List.filter_cons_of_neg (by simp [hk])]
      refine ⟨fun ts xs ys hts hxs heq ↦ ?_, hrest.2⟩
      have hopens := (hrest.2 ts hts).append hxs
      rw [heq, hk] at hopens
      rcases hopens _ rfl with h | ⟨k', hk', h⟩
      · cases h
      · exact absurd (Token.key.inj h).symm hk'
    · rw [List.filter_cons_of_pos (by simp [hk])]
      have hrow := tellsRows_string hparts.1 hparts.2.1 (fun k' h hempty ↦ hk (h hempty)) 2
      exact (hrow.append hrest).imp (fun h ↦ List.forall_mem_cons.mpr ⟨⟨hk, h.1⟩, h.2⟩)

theorem tellsRows_stringMap (m : Option (List (Text × Text))) (field : String) (hfield : field.toList ∈ fixedKeys)
    (h : Readable (fieldTokens (stringMapFields field m))) :
    TellsRows (stringMapLines field m) (stringMapFields field m) (WritableMap m) := by
  match m with
  | none => exact TellsRows.nil.imp (fun _ es hes ↦ nomatch hes)
  | some [] =>
    refine TellsRows.nil.imp fun _ es hes ↦ ?_
    obtain rfl := Option.some.inj hes
    exact fun e he ↦ absurd he List.not_mem_nil
  | some (e :: es) =>
    have hentries : Readable (fieldTokens ((e :: es).map stringField)) := by
      have hmap := (Readable.append h.cons.2).1
      rw [Node.tokens, List.map_cons, List.isEmpty_cons, if_neg Bool.false_ne_true] at hmap
      exact hmap
    have hblock := tellsRows_block hfield (by simp) (tellsRows_entries (e :: es) hentries) 1
    rw [plain_fixed _ hfield] at hblock
    refine hblock.imp fun hall es' hes ↦ ?_
    obtain rfl := Option.some.inj hes
    exact hall

theorem tellsRows_namespace (ns : Option Text) (h : Readable (fieldTokens (namespaceFields ns))) :
    TellsRows (namespaceLines ns) (namespaceFields ns) (∀ s ∈ ns, WritableString s) := by
  match ns with
  | none => exact TellsRows.nil.imp (fun _ s hs ↦ nomatch hs)
  | some [] =>
    refine TellsRows.nil.imp fun _ s hs ↦ ?_
    obtain rfl := Option.some.inj hs
    exact ⟨fun c hc ↦ absurd hc List.not_mem_nil, .inl rfl⟩
  | some (c :: s) =>
    have hrow : "  namespace: ".toList = pad 1 ++ quoteString "namespace".toList ++ [':', ' '] := by decide
    have hrows := tellsRows_string (writable_fixed "namespace".toList (by decide)).1 (h.cons.2.cons.1 : Legible (c :: s))
      (named_of_fixed (by decide)) 1
    change TellsRows ["  namespace: ".toList ++ quoteString (c :: s)] _ _
    rw [hrow, List.append_assoc]
    refine hrows.imp fun hs t ht ↦ ?_
    obtain rfl := Option.some.inj ht
    exact hs.2

theorem tellsRows_top {s : Text} (hk : k ∈ fixedKeys) (hs : Legible s) :
    TellsRows [(k ++ [':', ' ']) ++ quoteString s] [(.string k, stringNode s)] (WritableString s) := by
  have h := tellsRows_string (writable_fixed k hk).1 hs (named_of_fixed hk) 0
  rw [plain_fixed k hk] at h
  rw [List.append_assoc]
  exact h.imp And.right

theorem tellsRows_metadata (metadata : Metadata) (h : Readable (fieldTokens (metadataFields metadata))) :
    TellsRows ("metadata:".toList :: metadataLines metadata) [(.string "metadata".toList, .map (metadataFields metadata))]
      (((WritableString metadata.name ∧ ∀ ns ∈ metadata.ns, WritableString ns) ∧ WritableMap metadata.labels) ∧
        WritableMap metadata.annotations) := by
  have hrow : "  name: ".toList = pad 1 ++ quoteString "name".toList ++ [':', ' '] := by decide
  rw [metadataFields, fieldTokens_append, fieldTokens_append] at h
  obtain ⟨hfirst, hannotations⟩ := Readable.append h
  obtain ⟨hname, hlabels⟩ := Readable.append hfirst
  have hs : Legible metadata.name := hname.cons.2.cons.1
  have hnameRow := (tellsRows_string (writable_fixed "name".toList (by decide)).1 hs (named_of_fixed (by decide)) 1).imp
    And.right
  have hlines := hnameRow.append (tellsRows_namespace metadata.ns hname.cons.2.cons.2)
  have hall := (hlines.append (tellsRows_stringMap metadata.labels "labels" (by decide) hlabels)).append
    (tellsRows_stringMap metadata.annotations "annotations" (by decide) hannotations)
  have hblock := tellsRows_block (k := "metadata".toList) (by decide) (List.cons_ne_nil _ _) hall 0
  rw [metadataLines, hrow, List.append_assoc (pad 1 ++ quoteString "name".toList)]
  exact hblock

theorem tellsRows_spec (spec : List (Text × Form))
    (h : Readable (fieldTokens
      (if isEmptyValue (.object spec) then [] else [(Scalar.string "spec".toList, node (.object spec))]))) :
    TellsRows (specLines spec)
      (if isEmptyValue (.object spec) then [] else [(.string "spec".toList, node (.object spec))]) (WritableSpec spec) := by
  rw [specLines]
  by_cases hempty : isEmptyValue (.object spec) = true
  · rw [if_pos hempty, if_pos hempty]
    exact TellsRows.nil.imp fun _ hfull ↦ absurd hempty (by rw [hfull]; exact Bool.false_ne_true)
  · rw [if_neg hempty] at h ⊢
    rw [if_neg hempty]
    have hkey : "spec".toList ∈ fixedKeys := by decide
    have hl := (writable_fixed "spec".toList hkey).1
    have hne : ¬ spec.isEmpty = true := by
      intro hnil
      rw [List.isEmpty_iff.mp hnil] at hempty
      exact hempty rfl
    have hrows : textLines (pad 0 ++ (quoteString "spec".toList ++ ':' :: behind (serializeValue 1 (.object spec)))) =
        textLines (pad 0 ++ (quoteString "spec".toList ++ [':'])) ++ (serializeObject 1 spec).flatMap textLines := by
      have hbehind : behind ('\n' :: joinLines (serializeObject 1 spec)) = '\n' :: joinLines (serializeObject 1 spec) :=
        if_pos rfl
      rw [serializeValue, if_neg hne, hbehind, ← textLines_block, List.append_assoc, List.append_assoc]
      rfl
    obtain ⟨htells, -⟩ := says_value (.object spec) (Bool.eq_false_iff.mpr hempty) (Readable.append h.cons.2).1 0 _ _ hl
      (CutOf.refl _)
    have hlead : LeadsOn namedKey (textLines (pad 0 ++ (quoteString "spec".toList ++ [':']))) :=
      leadsOn_key hl (CutOf.refl _) List.not_mem_nil (named_of_fixed hkey)
    have hheader : pad 0 ++ (quoteString "spec".toList ++ [':']) = "spec:".toList := by decide
    have htokens : fieldTokens [(Scalar.string "spec".toList, node (.object spec))] =
        .key (.string "spec".toList) :: (node (.object spec)).tokens := by
      rw [fieldTokens, fieldTokens, List.append_nil]
    rw [hrows, hheader] at htells
    rw [hheader] at hlead
    rw [TellsRows, List.flatMap_cons, htokens]
    exact ⟨(htells.mono (fun _ _ ↦ trivial)).imp (fun hP _ ↦ hP.2), hlead.append.leads⟩

theorem writable_of_read {apiVersion kind : Text} {metadata : Metadata} {spec : List (Text × Form)}
    (h : read (formStateToYaml apiVersion kind metadata spec) = some (manifest apiVersion kind metadata spec)) :
    Writable apiVersion kind metadata spec := by
  have hreadable : Readable (manifest apiVersion kind metadata spec).tokens := read_legible h
  have htokens := read_tokens h
  have hnl : textLines [] = [] := rfl
  rw [formStateToYaml, textLines_append, textLines_joinLines, hnl, List.append_nil] at htokens
  rw [manifest, Node.tokens, if_neg (by simp)] at hreadable htokens
  rw [fieldTokens_append] at hreadable
  obtain ⟨htop, hspec⟩ := Readable.append hreadable
  have hapi : Legible apiVersion := htop.cons.2.cons.1
  have hkind : Legible kind := htop.cons.2.cons.2.cons.2.cons.1
  have hmetadata : Readable (fieldTokens (metadataFields metadata)) := by
    have hlast := (Readable.append htop.cons.2.cons.2.cons.2.cons.2.cons.2).1
    rwa [Node.tokens, if_neg (by simp [metadataFields])] at hlast
  have hfirst := (tellsRows_top (k := "apiVersion".toList) (by decide) hapi).append
    (tellsRows_top (k := "kind".toList) (by decide) hkind)
  have hall := (hfirst.append (tellsRows_metadata metadata hmetadata)).append (tellsRows_spec spec hspec)
  obtain ⟨⟨⟨⟨ha, hk⟩, ⟨⟨hn, hns⟩, hlabels⟩, hannotations⟩, hs⟩, -⟩ := hall.1 _ [] [] htokens Opens.nil rfl
  exact ⟨ha, hk, hn, hns, hlabels, hannotations, hs⟩

/-- The text of a form stands for its manifest exactly if all that is written can be written: no string is illegible,
none is taken for something else, no object is left without members, and no key is lost or cut. -/
theorem read_formStateToYaml_iff (apiVersion kind : Text) (metadata : Metadata) (spec : List (Text × Form)) :
    read (formStateToYaml apiVersion kind metadata spec) = some (manifest apiVersion kind metadata spec) ↔
      Writable apiVersion kind metadata spec :=
  ⟨writable_of_read, read_of_writable⟩

/-- A string of digits comes back as a number. -/
theorem not_read_formStateToYaml : ¬ ∀ apiVersion kind metadata spec,
    read (formStateToYaml apiVersion kind metadata spec) = some (manifest apiVersion kind metadata spec) := by
  intro h
  have htokens := congrArg (Option.map Node.tokens)
    (h "v1".toList "ConfigMap".toList ⟨"app".toList, none, some [("version".toList, "123".toList)], none⟩ [])
  revert htokens
  decide +kernel

end KubeCenter.Wizard.SchemaToYaml
