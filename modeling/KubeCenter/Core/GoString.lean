import Mathlib.Data.List.Basic
import KubeCenter.Core.GoBytes

namespace KubeCenter.Core

/-- `strings.Cut` for a one-character separator. -/
def cut (sep : Char) : List Char → Option (List Char × List Char)
  | [] => none
  | c :: cs => if c = sep then some ([], cs) else (cut sep cs).map (fun p ↦ (c :: p.1, p.2))

theorem cut_eq_some {sep : Char} {cs a b : List Char} (h : cut sep cs = some (a, b)) :
    cs = a ++ sep :: b ∧ sep ∉ a := by
  induction cs generalizing a with
  | nil => simp [cut] at h
  | cons c cs ih =>
    rw [cut] at h
    split at h
    · rename_i hc
      cases h
      simp [hc]
    · rename_i hc
      obtain ⟨p, hp, hpa⟩ := Option.map_eq_some_iff.mp h
      cases hpa
      obtain ⟨hcs, hsep⟩ := ih hp
      simp [hcs, hsep, Ne.symm hc]

theorem cut_append {sep : Char} {a : List Char} (h : sep ∉ a) (b : List Char) :
    cut sep (a ++ sep :: b) = some (a, b) := by
  induction a with
  | nil => exact if_pos rfl
  | cons c a ih =>
    rw [List.mem_cons, not_or] at h
    rw [List.cons_append, cut, if_neg (Ne.symm h.1), ih h.2]
    rfl

/-- Names without a slash make the key of one namespace and name only. -/
theorem key_inj {ns name ns' name' : String} (hns : '/' ∉ ns.toList) (hname : '/' ∉ name.toList) :
    ns ++ "/" ++ name = ns' ++ "/" ++ name' ↔ ns = ns' ∧ name = name' := by
  constructor
  · intro h
    have htext := congrArg String.toList h
    simp only [String.toList_append, show "/".toList = ['/'] from rfl, List.append_assoc, List.singleton_append] at htext
    have hns' : '/' ∉ ns'.toList := by
      have hcount := congrArg (List.count '/') htext
      rw [List.count_append, List.count_append, List.count_cons_self, List.count_cons_self,
        List.count_eq_zero.mpr hns, List.count_eq_zero.mpr hname] at hcount
      exact List.count_eq_zero.mp (by omega)
    have hcut := congrArg (cut '/') htext
    rw [cut_append hns, cut_append hns', Option.some.injEq, Prod.mk.injEq] at hcut
    exact ⟨String.toList_inj.mp hcut.1, String.toList_inj.mp hcut.2⟩
  · rintro ⟨rfl, rfl⟩
    rfl

/-- `strings.SplitN` for a one-character separator. -/
def splitN (sep : Char) : ℕ → List Char → List (List Char)
  | 0, _ => []
  | 1, cs => [cs]
  | n + 2, cs =>
    match cut sep cs with
    | none => [cs]
    | some (a, b) => a :: splitN sep (n + 1) b

example : splitN ':' 3 "ldap:corp:cn=a:b".toList = ["ldap".toList, "corp".toList, "cn=a:b".toList] := by
  decide

/-- What comes before the first occurrence of a nonempty `sep`. -/
def before (sep : List Char) : List Char → Option (List Char)
  | [] => none
  | c :: cs => if sep.isPrefixOf (c :: cs) then some [] else (before sep cs).map (c :: ·)

theorem before_eq_some {sep cs b : List Char} (h : before sep cs = some b) : ∃ rest, cs = b ++ sep ++ rest := by
  induction cs generalizing b with
  | nil => cases h
  | cons c cs ih =>
    unfold before at h
    split at h
    · rename_i hbegins
      cases h
      obtain ⟨rest, hrest⟩ := List.isPrefixOf_iff_prefix.mp hbegins
      exact ⟨rest, hrest.symm⟩
    · obtain ⟨b, hb, rfl⟩ := Option.map_eq_some_iff.mp h
      obtain ⟨rest, rfl⟩ := ih hb
      exact ⟨rest, rfl⟩

/-- No occurrence begins in a text without the separator's first character. -/
theorem before_append {c : Char} {sep text cs : List Char} (h : c ∉ text) :
    before (c :: sep) (text ++ cs) = (before (c :: sep) cs).map (text ++ ·) := by
  induction text with
  | nil => simp
  | cons d text ih =>
    rw [List.mem_cons, not_or] at h
    have hbegins : ¬(c :: sep).isPrefixOf (d :: (text ++ cs)) = true := by
      simp [h.1]
    rw [List.cons_append, before, if_neg hbegins, ih h.2, Option.map_map]
    rfl

theorem splitOn_eq_singleton_iff {sep : Char} {cs a : List Char} : cs.splitOn sep = [a] ↔ cs = a ∧ sep ∉ a := by
  constructor
  · intro h
    by_cases hsep : sep ∈ cs
    · obtain ⟨p, q, rfl, hp⟩ := List.eq_append_cons_of_mem hsep
      rw [List.splitOn_append_cons_self_of_not_mem hp] at h
      exact absurd (List.cons.inj h).2 (List.splitOn_ne_nil sep q)
    · rw [List.splitOn_eq_singleton hsep] at h
      cases h
      exact ⟨rfl, hsep⟩
  · rintro ⟨rfl, hsep⟩
    exact List.splitOn_eq_singleton hsep

theorem splitOn_eq_pair_iff {sep : Char} {cs a b : List Char} :
    cs.splitOn sep = [a, b] ↔ cs = a ++ sep :: b ∧ sep ∉ a ∧ sep ∉ b := by
  constructor
  · intro h
    by_cases hsep : sep ∈ cs
    · obtain ⟨p, q, rfl, hp⟩ := List.eq_append_cons_of_mem hsep
      rw [List.splitOn_append_cons_self_of_not_mem hp] at h
      obtain ⟨rfl, hq⟩ := List.cons.inj h
      obtain ⟨rfl, hb⟩ := splitOn_eq_singleton_iff.mp hq
      exact ⟨rfl, hp, hb⟩
    · rw [List.splitOn_eq_singleton hsep] at h
      cases h
  · rintro ⟨rfl, ha, hb⟩
    rw [List.splitOn_append_cons_self_of_not_mem ha, List.splitOn_eq_singleton hb]

/-- `strings.HasPrefix`, the prefix first. -/
def hasPrefix (p s : String) : Bool := p.toList.isPrefixOf s.toList

/-- `strings.Contains`, the part first. -/
def hasInfix (part s : String) : Bool := (before part.toList s.toList).isSome

/-- `strings.TrimFunc`. -/
def trimFunc (p : Char → Bool) (s : String) : String :=
  String.ofList (((s.toList.dropWhile p).reverse.dropWhile p).reverse)

/-- `unicode.IsSpace`. -/
def isSpace (c : Char) : Bool :=
  c ∈ ['\t', '\n', '\x0b', '\x0c', '\r', ' ', '\u0085', '\u00a0', '\u1680', '\u2028', '\u2029', '\u202f',
    '\u205f', '\u3000'] ||
  decide (0x2000 ≤ c.toNat ∧ c.toNat ≤ 0x200a)

end KubeCenter.Core

namespace KubeCenter.Core

/-- A Go string that is valid UTF-8, as its characters. -/
abbrev Text := List Char

def utf8 (s : Text) : Bytes := s.flatMap String.utf8EncodeChar

def hexDigit (c : Char) : Option ℕ :=
  if 48 ≤ c.toNat ∧ c.toNat ≤ 57 then some (c.toNat - 48)
  else if 97 ≤ c.toNat ∧ c.toNat ≤ 102 then some (c.toNat - 87)
  else if 65 ≤ c.toNat ∧ c.toNat ≤ 70 then some (c.toNat - 55)
  else none

def octalDigit (c : Char) : Option ℕ :=
  if 48 ≤ c.toNat ∧ c.toNat ≤ 55 then some (c.toNat - 48) else none

def digits (digit : Char → Option ℕ) (base : ℕ) : ℕ → ℕ → Text → Option (ℕ × Text)
  | 0, v, s => some (v, s)
  | _ + 1, _, [] => none
  | n + 1, v, c :: s => (digit c).bind (fun d ↦ digits digit base n (base * v + d) s)

def encodeRune (v : ℕ) : Option Bytes :=
  if v.isValidChar then some (String.utf8EncodeChar (Char.ofNat v)) else none

/-- `strconv.UnquoteChar` behind a backslash in a double-quoted literal: the bytes the escape
stands for, and what follows it. -/
def unquoteEscape : Text → Option (Bytes × Text)
  | 'a' :: s => some ([7], s)
  | 'b' :: s => some ([8], s)
  | 'f' :: s => some ([12], s)
  | 'n' :: s => some ([10], s)
  | 'r' :: s => some ([13], s)
  | 't' :: s => some ([9], s)
  | 'v' :: s => some ([11], s)
  | '\\' :: s => some ([92], s)
  | '\"' :: s => some ([34], s)
  | 'x' :: s => (digits hexDigit 16 2 0 s).map (fun p ↦ ([UInt8.ofNat p.1], p.2))
  | 'u' :: s => (digits hexDigit 16 4 0 s).bind (fun p ↦ (encodeRune p.1).map (·, p.2))
  | 'U' :: s => (digits hexDigit 16 8 0 s).bind (fun p ↦ (encodeRune p.1).map (·, p.2))
  | s => (digits octalDigit 8 3 0 s).bind (fun p ↦
      if p.1 ≤ 255 then some ([UInt8.ofNat p.1], p.2) else none)

theorem unquoteEscape_none {c : Char} (hc : c ∉ "abfnrtvxuU\\\"".toList) (ho : octalDigit c = none)
    (s : Text) : unquoteEscape (c :: s) = none := by
  unfold unquoteEscape
  split
  case h_13 => simp [digits, ho]
  all_goals
    next he =>
    cases he
    exact absurd (by decide) hc

theorem digits_suffix {digit : Char → Option ℕ} {base n v : ℕ} {s : Text} {p : ℕ × Text}
    (h : digits digit base n v s = some p) : p.2 <:+ s := by
  induction n generalizing v s with
  | zero =>
    cases h
    exact List.suffix_refl s
  | succ n ih =>
    cases s with
    | nil => cases h
    | cons c s =>
      obtain ⟨d, -, hd⟩ := Option.bind_eq_some_iff.mp h
      exact (ih hd).trans (List.suffix_cons c s)

theorem unquoteEscape_suffix {s : Text} {p : Bytes × Text} (h : unquoteEscape s = some p) :
    p.2 <:+ s := by
  unfold unquoteEscape at h
  split at h
  case h_10 c s =>
    obtain ⟨q, hq, rfl⟩ := Option.map_eq_some_iff.mp h
    exact (digits_suffix hq).trans (List.suffix_cons _ _)
  case h_11 | h_12 =>
    obtain ⟨q, hq, hr⟩ := Option.bind_eq_some_iff.mp h
    obtain ⟨b, -, rfl⟩ := Option.map_eq_some_iff.mp hr
    exact (digits_suffix hq).trans (List.suffix_cons _ _)
  case h_13 =>
    obtain ⟨q, hq, hr⟩ := Option.bind_eq_some_iff.mp h
    split at hr <;> cases hr
    exact digits_suffix hq
  all_goals
    cases h
    exact List.suffix_cons _ _

/-- `strconv.Unquote` behind the opening quote: the value up to the closing quote, and what
follows that. -/
def unquoteFrom (s : Text) : Option (Bytes × Text) :=
  match s with
  | [] => none
  | c :: s =>
    if c = '\"' then some ([], s)
    else if c = '\n' then none
    else if c = '\\' then
      match _h : unquoteEscape s with
      | none => none
      | some p => (unquoteFrom p.2).map (fun q ↦ (p.1 ++ q.1, q.2))
    else (unquoteFrom s).map (fun q ↦ (String.utf8EncodeChar c ++ q.1, q.2))
  termination_by s.length
  decreasing_by
    · exact Nat.lt_succ_of_le (unquoteEscape_suffix _h).length_le
    · exact Nat.lt_succ_self _

theorem unquoteFrom_nil : unquoteFrom [] = none := by
  rw [unquoteFrom]

theorem unquoteFrom_cons (c : Char) (s : Text) :
    unquoteFrom (c :: s) =
      if c = '\"' then some ([], s)
      else if c = '\n' then none
      else if c = '\\' then
        (unquoteEscape s).bind fun p ↦ (unquoteFrom p.2).map (fun q ↦ (p.1 ++ q.1, q.2))
      else (unquoteFrom s).map (fun q ↦ (String.utf8EncodeChar c ++ q.1, q.2)) := by
  rw [unquoteFrom]
  cases unquoteEscape s <;> rfl

theorem unquoteFrom_plain {c : Char} (hq : c ≠ '\"') (hn : c ≠ '\n') (hb : c ≠ '\\') (s : Text) :
    unquoteFrom (c :: s) = (unquoteFrom s).map (fun q ↦ (String.utf8EncodeChar c ++ q.1, q.2)) := by
  rw [unquoteFrom_cons, if_neg hq, if_neg hn, if_neg hb]

theorem unquoteFrom_escape {s : Text} {p : Bytes × Text} (h : unquoteEscape s = some p) :
    unquoteFrom ('\\' :: s) = (unquoteFrom p.2).map (fun q ↦ (p.1 ++ q.1, q.2)) := by
  rw [unquoteFrom_cons, if_neg (by decide), if_neg (by decide), if_pos rfl, h, Option.bind_some]

theorem unquoteFrom_badEscape {s : Text} (h : unquoteEscape s = none) :
    unquoteFrom ('\\' :: s) = none := by
  rw [unquoteFrom_cons, if_neg (by decide), if_neg (by decide), if_pos rfl, h, Option.bind_none]

theorem unquoteFrom_quote (s : Text) : unquoteFrom ('\"' :: s) = some ([], s) := by
  rw [unquoteFrom_cons, if_pos rfl]

theorem unquoteFrom_newline (s : Text) : unquoteFrom ('\n' :: s) = none := by
  rw [unquoteFrom_cons, if_neg (by decide), if_pos rfl]

/-- `strconv.Unquote` of a double-quoted literal. -/
def unquote : Text → Option Bytes
  | '\"' :: s =>
    match unquoteFrom s with
    | some (v, []) => some v
    | _ => none
  | _ => none

theorem high_byte {n : ℕ} (h : 128 ≤ n) (hn : n < 256) : 128 ≤ UInt8.ofNat n := by
  rw [UInt8.le_iff_toNat_le, UInt8.toNat_ofNat', Nat.mod_eq_of_lt hn]
  exact h

theorem ascii_or_high (c : Char) :
    c.toNat < 128 ∧ String.utf8EncodeChar c = [UInt8.ofNat c.toNat] ∨
      128 ≤ c.toNat ∧ ∀ b ∈ String.utf8EncodeChar c, 128 ≤ b := by
  have hc : c.toNat = c.val.toNat := rfl
  have hmax : c.val.toNat < 1114112 := by
    rcases c.valid with h | ⟨-, h⟩ <;> omega
  unfold String.utf8EncodeChar
  simp only
  split
  · exact .inl ⟨by omega, rfl⟩
  · refine .inr ⟨by omega, fun b hb ↦ ?_⟩
    split at hb
    · simp only [List.mem_cons, List.not_mem_nil, or_false] at hb
      rcases hb with rfl | rfl <;> exact high_byte (by omega) (by omega)
    · split at hb
      · simp only [List.mem_cons, List.not_mem_nil, or_false] at hb
        rcases hb with rfl | rfl | rfl <;> exact high_byte (by omega) (by omega)
      · simp only [List.mem_cons, List.not_mem_nil, or_false] at hb
        rcases hb with rfl | rfl | rfl | rfl <;> exact high_byte (by omega) (by omega)

/-- The number of ASCII bytes, of which every escape loses some. -/
def asciiCount (s : Bytes) : ℕ := s.countP (· < 128)

theorem asciiCount_append (s t : Bytes) : asciiCount (s ++ t) = asciiCount s + asciiCount t :=
  List.countP_append

@[simp] theorem utf8_cons (c : Char) (s : Text) : utf8 (c :: s) = String.utf8EncodeChar c ++ utf8 s := rfl

@[simp] theorem utf8_append (s t : Text) : utf8 (s ++ t) = utf8 s ++ utf8 t := List.flatMap_append

theorem utf8_injective {s t : Text} (h : utf8 s = utf8 t) : s = t := by
  have hb : (String.ofList s).toByteArray = (String.ofList t).toByteArray := by
    have he : s.utf8Encode = t.utf8Encode := congrArg List.toByteArray h
    simpa using he
  simpa using congrArg String.toList (String.toByteArray_inj.mp hb)

theorem asciiCount_char_le (c : Char) : asciiCount (String.utf8EncodeChar c) ≤ 1 := by
  rcases ascii_or_high c with ⟨-, he⟩ | ⟨-, hb⟩
  · rw [he]
    exact List.countP_le_length
  · have hzero : asciiCount (String.utf8EncodeChar c) = 0 :=
      List.countP_eq_zero.mpr fun b hm ↦ by simpa using hb b hm
    omega

theorem asciiCount_ascii {c : Char} (h : c.toNat < 128) : asciiCount (String.utf8EncodeChar c) = 1 := by
  rcases ascii_or_high c with ⟨-, he⟩ | ⟨hc, -⟩
  · rw [he, asciiCount, List.countP_singleton]
    have : UInt8.ofNat c.toNat < 128 := by
      rw [UInt8.lt_iff_toNat_lt, UInt8.toNat_ofNat', Nat.mod_eq_of_lt (by omega)]
      exact h
    simp [this]
  · omega

theorem asciiCount_suffix {s t : Text} (h : s <:+ t) : asciiCount (utf8 s) ≤ asciiCount (utf8 t) := by
  obtain ⟨r, rfl⟩ := h
  rw [utf8_append, asciiCount_append]
  omega

theorem asciiCount_cons {c : Char} (h : c.toNat < 128) (s : Text) :
    asciiCount (utf8 (c :: s)) = 1 + asciiCount (utf8 s) := by
  rw [utf8_cons, asciiCount_append, asciiCount_ascii h]

theorem encodeRune_asciiCount {v : ℕ} {b : Bytes} (h : encodeRune v = some b) : asciiCount b ≤ 1 := by
  unfold encodeRune at h
  split at h <;> cases h
  exact asciiCount_char_le _

theorem octal_asciiCount {s : Text} {p : ℕ × Text} (h : digits octalDigit 8 3 0 s = some p) :
    1 + asciiCount (utf8 p.2) ≤ asciiCount (utf8 s) := by
  cases s with
  | nil => cases h
  | cons c s =>
    obtain ⟨d, hd, hrest⟩ := Option.bind_eq_some_iff.mp h
    have hc : c.toNat < 128 := by
      unfold octalDigit at hd
      split at hd
      · omega
      · cases hd
    rw [asciiCount_cons hc]
    exact Nat.add_le_add_left (asciiCount_suffix (digits_suffix hrest)) 1

theorem unquoteEscape_asciiCount {s : Text} {p : Bytes × Text} (h : unquoteEscape s = some p) :
    asciiCount p.1 + asciiCount (utf8 p.2) ≤ asciiCount (utf8 s) := by
  have hone : ∀ b : UInt8, asciiCount [b] ≤ 1 := fun b ↦ List.countP_le_length
  have hletter : ∀ (c : Char) (t : Text), c.toNat < 128 → asciiCount p.1 ≤ 1 → p.2 <:+ t →
      asciiCount p.1 + asciiCount (utf8 p.2) ≤ asciiCount (utf8 (c :: t)) := by
    intro c t hc hp ht
    rw [asciiCount_cons hc]
    exact Nat.add_le_add hp (asciiCount_suffix ht)
  unfold unquoteEscape at h
  split at h
  case h_10 s =>
    obtain ⟨q, hq, rfl⟩ := Option.map_eq_some_iff.mp h
    exact hletter 'x' s (by decide) (hone _) (digits_suffix hq)
  case h_11 s =>
    obtain ⟨q, hq, hr⟩ := Option.bind_eq_some_iff.mp h
    obtain ⟨b, hb, rfl⟩ := Option.map_eq_some_iff.mp hr
    exact hletter 'u' s (by decide) (encodeRune_asciiCount hb) (digits_suffix hq)
  case h_12 s =>
    obtain ⟨q, hq, hr⟩ := Option.bind_eq_some_iff.mp h
    obtain ⟨b, hb, rfl⟩ := Option.map_eq_some_iff.mp hr
    exact hletter 'U' s (by decide) (encodeRune_asciiCount hb) (digits_suffix hq)
  case h_13 =>
    obtain ⟨q, hq, hr⟩ := Option.bind_eq_some_iff.mp h
    split at hr <;> cases hr
    exact (Nat.add_le_add_right (hone _) _).trans (octal_asciiCount hq)
  all_goals
    cases h
    exact hletter _ _ (by decide) (hone _) (List.suffix_refl _)

/-- Either a literal has no escape and means what it says, or its value has fewer ASCII bytes. -/
theorem unquoteFrom_cases {s : Text} {p : Bytes × Text} (h : unquoteFrom s = some p) :
    (∃ t, s = t ++ '\"' :: p.2 ∧ p.1 = utf8 t ∧ ∀ c ∈ t, c ≠ '\"' ∧ c ≠ '\n' ∧ c ≠ '\\') ∨
      asciiCount p.1 + asciiCount (utf8 p.2) + 2 ≤ asciiCount (utf8 s) := by
  induction hn : s.length using Nat.strong_induction_on generalizing s p with
  | _ n ih =>
    subst hn
    cases s with
    | nil =>
      rw [unquoteFrom_nil] at h
      cases h
    | cons c s =>
      by_cases hq : c = '\"'
      · subst hq
        rw [unquoteFrom_quote] at h
        cases h
        exact .inl ⟨[], rfl, rfl, nofun⟩
      by_cases hn : c = '\n'
      · subst hn
        rw [unquoteFrom_newline] at h
        cases h
      by_cases hb : c = '\\'
      · subst hb
        right
        cases he : unquoteEscape s with
        | none =>
          rw [unquoteFrom_badEscape he] at h
          cases h
        | some e =>
          rw [unquoteFrom_escape he] at h
          obtain ⟨⟨v, rest⟩, hq', rfl⟩ := Option.map_eq_some_iff.mp h
          have hlen := (unquoteEscape_suffix he).length_le
          have hcount := unquoteEscape_asciiCount he
          rw [asciiCount_cons (by decide), asciiCount_append]
          simp only
          rcases ih e.2.length (Nat.lt_succ_of_le hlen) hq' rfl with ⟨t, ht, hv, -⟩ | hloss
          · rw [ht, utf8_append, asciiCount_append, asciiCount_cons (by decide), ← hv] at hcount
            simp only at hcount
            omega
          · simp only at hloss
            omega
      · rw [unquoteFrom_plain hq hn hb] at h
        obtain ⟨q, hq', rfl⟩ := Option.map_eq_some_iff.mp h
        rcases ih s.length (Nat.lt_succ_self _) hq' rfl with ⟨t, ht, hv, hplain⟩ | hloss
        · refine .inl ⟨c :: t, by rw [ht]; rfl, by rw [hv]; rfl, fun d hd ↦ ?_⟩
          rcases List.mem_cons.mp hd with rfl | hd
          · exact ⟨hq, hn, hb⟩
          · exact hplain d hd
        · right
          rw [asciiCount_append, utf8_cons, asciiCount_append]
          simp only
          omega

theorem unquoteFrom_append {t : Text} (h : ∀ c ∈ t, c ≠ '\"' ∧ c ≠ '\n' ∧ c ≠ '\\') (s : Text) :
    unquoteFrom (t ++ s) = (unquoteFrom s).map (fun q ↦ (utf8 t ++ q.1, q.2)) := by
  induction t with
  | nil => simp [utf8]
  | cons c t ih =>
    obtain ⟨hq, hn, hb⟩ := h c List.mem_cons_self
    rw [List.cons_append, unquoteFrom_plain hq hn hb, ih fun d hd ↦ h d (List.mem_cons_of_mem c hd)]
    simp [Function.comp_def]

theorem unquote_eq_some {t : Text} {v : Bytes} :
    unquote ('\"' :: t ++ ['\"']) = some v ↔ unquoteFrom (t ++ ['\"']) = some (v, []) := by
  have hstep : unquote ('\"' :: t ++ ['\"']) = match unquoteFrom (t ++ ['\"']) with
      | some (v, []) => some v
      | _ => none := rfl
  rw [hstep]
  constructor
  · intro h
    split at h
    · next he => rw [he, Option.some.inj h]
    · cases h
  · intro h
    rw [h]

theorem unquote_self_iff (t : Text) : unquote ('\"' :: t ++ ['\"']) = some (utf8 t) ↔
    ∀ c ∈ t, c ≠ '\"' ∧ c ≠ '\n' ∧ c ≠ '\\' := by
  rw [unquote_eq_some]
  constructor
  · intro h
    rcases unquoteFrom_cases h with ⟨t', ht, -, hplain⟩ | hloss
    · rw [List.append_cancel_right ht]
      exact hplain
    · rw [utf8_append, asciiCount_append, asciiCount_cons (by decide)] at hloss
      simp only at hloss
      omega
  · intro h
    rw [unquoteFrom_append h, unquoteFrom_quote]
    simp

end KubeCenter.Core
