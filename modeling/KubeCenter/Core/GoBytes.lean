import Mathlib.Data.List.Basic
import Mathlib.Data.List.Infix

namespace KubeCenter.Core

/-- A Go string, as its bytes. -/
abbrev Bytes := List UInt8

namespace Byte

@[match_pattern] abbrev tab : UInt8 := 9
@[match_pattern] abbrev space : UInt8 := 32
@[match_pattern] abbrev bang : UInt8 := 33
@[match_pattern] abbrev quote : UInt8 := 34
@[match_pattern] abbrev comma : UInt8 := 44
@[match_pattern] abbrev equals : UInt8 := 61
@[match_pattern] abbrev backslash : UInt8 := 92
@[match_pattern] abbrev lbrace : UInt8 := 123
@[match_pattern] abbrev pipe : UInt8 := 124
@[match_pattern] abbrev rbrace : UInt8 := 125
@[match_pattern] abbrev tilde : UInt8 := 126

end Byte

theorem toNat_latin1 (a : UInt8) : (Char.ofNat a.toNat).toNat = a.toNat := by
  have ha := a.toNat_lt
  have hv : a.toNat.isValidChar := .inl (by omega)
  rw [Char.ofNat, dif_pos hv]
  rfl

theorem intercalate_singleton_cons {α : Type} (sep : α) (a : List α) (as : List (List α)) :
    [sep].intercalate (a :: as) = a ++ as.flatMap (fun b ↦ sep :: b) := by
  induction as generalizing a with
  | nil => simp
  | cons b as ih =>
    rw [List.intercalate_cons_cons, ih]
    simp

theorem mem_intercalate_of_mem {α : Type} {sep c : α} {a : List α} {as : List (List α)} (ha : a ∈ as)
    (hc : c ∈ a) : c ∈ [sep].intercalate as := by
  cases as with
  | nil => cases ha
  | cons b as =>
    rw [intercalate_singleton_cons]
    rcases List.mem_cons.mp ha with rfl | ha
    · exact List.mem_append_left _ hc
    · exact List.mem_append_right _ (List.mem_flatMap.mpr ⟨a, ha, List.mem_cons_of_mem sep hc⟩)

theorem mem_of_mem_intercalate {α : Type} {sep c : α} {as : List (List α)}
    (h : c ∈ [sep].intercalate as) : c = sep ∨ ∃ a ∈ as, c ∈ a := by
  cases as with
  | nil => cases h
  | cons b as =>
    rw [intercalate_singleton_cons] at h
    rcases List.mem_append.mp h with hb | h
    · exact .inr ⟨b, List.mem_cons_self, hb⟩
    · obtain ⟨a, ha, hc⟩ := List.mem_flatMap.mp h
      rcases List.mem_cons.mp hc with rfl | hc
      · exact .inl rfl
      · exact .inr ⟨a, List.mem_cons_of_mem b ha, hc⟩

/-- The UTF-8 encodings of the characters `unicode.IsSpace` accepts. -/
def spaces : List Bytes :=
  [[9], [10], [11], [12], [13], [32], [0xC2, 0x85], [0xC2, 0xA0], [0xE1, 0x9A, 0x80],
    [0xE2, 0x80, 0x80], [0xE2, 0x80, 0x81], [0xE2, 0x80, 0x82], [0xE2, 0x80, 0x83],
    [0xE2, 0x80, 0x84], [0xE2, 0x80, 0x85], [0xE2, 0x80, 0x86], [0xE2, 0x80, 0x87],
    [0xE2, 0x80, 0x88], [0xE2, 0x80, 0x89], [0xE2, 0x80, 0x8A], [0xE2, 0x80, 0xA8],
    [0xE2, 0x80, 0xA9], [0xE2, 0x80, 0xAF], [0xE2, 0x81, 0x9F], [0xE3, 0x80, 0x80]]

def trimPrefix (cut : List Bytes) : ℕ → Bytes → Bytes
  | 0, s => s
  | n + 1, s =>
    match cut.find? (fun e ↦ e.isPrefixOf s) with
    | none => s
    | some e => trimPrefix cut n (s.drop e.length)

def trimLeft (s : Bytes) : Bytes := trimPrefix spaces s.length s

def trimRight (s : Bytes) : Bytes :=
  (trimPrefix (spaces.map List.reverse) s.length s.reverse).reverse

/-- `strings.TrimSpace`. -/
def trimSpace (s : Bytes) : Bytes := trimRight (trimLeft s)

variable {cut : List Bytes} {n : ℕ} {s : Bytes}

theorem trimPrefix_eq (h : ∀ e ∈ cut, ¬ e <+: s) (n : ℕ) : trimPrefix cut n s = s := by
  cases n with
  | zero => rfl
  | succ n =>
    have hnone : cut.find? (fun e ↦ e.isPrefixOf s) = none := by
      simpa [List.find?_eq_none] using h
    rw [trimPrefix, hnone]

theorem not_prefix_trimPrefix (hcut : ∀ e ∈ cut, e ≠ []) (hn : s.length ≤ n) :
    ∀ e ∈ cut, ¬ e <+: trimPrefix cut n s := by
  induction n generalizing s with
  | zero =>
    intro e he hp
    rw [trimPrefix, List.length_eq_zero_iff.mp (Nat.le_zero.mp hn), List.prefix_nil] at hp
    exact hcut e he hp
  | succ n ih =>
    rw [trimPrefix]
    cases hf : cut.find? (fun e ↦ e.isPrefixOf s) with
    | none => simpa [List.find?_eq_none] using hf
    | some e =>
      have hpos : 0 < e.length := List.length_pos_iff.mpr (hcut e (List.mem_of_find?_eq_some hf))
      apply ih
      rw [List.length_drop]
      omega

theorem not_suffix_trimSpace (s : Bytes) : ∀ e ∈ spaces, ¬ e <:+ trimSpace s := by
  intro e he hs
  have hcut : ∀ e ∈ spaces.map List.reverse, e ≠ [] := by decide
  have hn : (trimLeft s).reverse.length ≤ (trimLeft s).length := by simp
  apply not_prefix_trimPrefix hcut hn e.reverse (List.mem_map_of_mem he)
  rw [← List.reverse_suffix, List.reverse_reverse]
  exact hs

theorem trimSpace_eq (hp : ∀ e ∈ spaces, ¬ e <+: s) (hs : ∀ e ∈ spaces, ¬ e <:+ s) :
    trimSpace s = s := by
  have hl : trimLeft s = s := trimPrefix_eq hp _
  have hr : ∀ e ∈ spaces.map List.reverse, ¬ e <+: s.reverse := by
    intro e he
    obtain ⟨w, hw, rfl⟩ := List.mem_map.mp he
    rw [List.reverse_prefix]
    exact hs w hw
  rw [trimSpace, hl, trimRight, trimPrefix_eq hr, List.reverse_reverse]

theorem not_space_prefix {c : UInt8} (hc : ∀ e ∈ spaces, e.head? ≠ some c) (s : Bytes) :
    ∀ e ∈ spaces, ¬ e <+: c :: s := by
  intro e he hp
  cases e with
  | nil => exact absurd he (by decide)
  | cons d e => exact hc _ he (congrArg some (List.cons_prefix_cons.mp hp).1)

theorem space_suffix {c : UInt8} (hc : ∀ e ∈ spaces, c ∉ e) {s t : Bytes} {e : Bytes}
    (he : e ∈ spaces) (h : e <:+ s ++ c :: t) : e <:+ t := by
  rcases Nat.lt_or_ge t.length e.length with hlt | hge
  · have hct : c :: t <:+ e := List.suffix_of_suffix_length_le (List.suffix_append s _) h hlt
    exact absurd (hct.mem List.mem_cons_self) (hc e he)
  · exact List.suffix_of_suffix_length_le h ((List.suffix_cons c t).trans (List.suffix_append s _)) hge

/-- What a trim takes off is spaces. -/
theorem trimPrefix_split (cut : List Bytes) (n : ℕ) (s : Bytes) :
    ∃ w, s = w ++ trimPrefix cut n s ∧ ∀ b ∈ w, ∃ e ∈ cut, b ∈ e := by
  induction n generalizing s with
  | zero => exact ⟨[], rfl, fun b hb ↦ by cases hb⟩
  | succ n ih =>
    rw [trimPrefix]
    cases hf : cut.find? (fun e ↦ e.isPrefixOf s) with
    | none => exact ⟨[], rfl, fun b hb ↦ by cases hb⟩
    | some e =>
      obtain ⟨w, hw, hall⟩ := ih (s.drop e.length)
      have hpre : e <+: s := by simpa using List.find?_some hf
      refine ⟨e ++ w, ?_, fun b hb ↦ ?_⟩
      · rw [List.append_assoc, ← hw]
        exact (List.prefix_iff_eq_append.mp hpre).symm
      · rcases List.mem_append.mp hb with hb | hb
        · exact ⟨e, List.mem_of_find?_eq_some hf, hb⟩
        · exact hall b hb

/-- A trim of a text that opens with no space stops behind every byte that is in no space. -/
theorem trimSpace_append {s : Bytes} (hp : ∀ e ∈ spaces, ¬ e <+: s) {a t : Bytes} {c : UInt8}
    (hs : s = a ++ c :: t) (hc : ∀ e ∈ spaces, c ∉ e) : ∃ t', trimSpace s = a ++ c :: t' ∧ t' <+: t := by
  obtain ⟨w, hw, hall⟩ := trimPrefix_split (spaces.map List.reverse) s.length s.reverse
  have hsplit : s = trimRight s ++ w.reverse := by
    have hrev := congrArg List.reverse hw
    rwa [List.reverse_reverse, List.reverse_append] at hrev
  have hcw : c ∉ w.reverse := fun hm ↦ by
    obtain ⟨e, he, hb⟩ := hall c (List.mem_reverse.mp hm)
    obtain ⟨e', he', rfl⟩ := List.mem_map.mp he
    exact hc e' he' (List.mem_reverse.mp hb)
  have hl : trimSpace s = trimRight s := by rw [trimSpace, trimLeft, trimPrefix_eq hp]
  rw [hs] at hsplit
  rcases List.append_eq_append_iff.mp hsplit with ⟨b, hb, hrest⟩ | ⟨b, hb, hrest⟩
  · cases b with
    | nil =>
      rw [List.nil_append] at hrest
      exact absurd (hrest ▸ List.mem_cons_self) hcw
    | cons d b =>
      obtain ⟨rfl, ht⟩ := List.cons.inj hrest
      exact ⟨b, by rw [hl, hs, hb], w.reverse, ht.symm⟩
  · exact absurd (hrest ▸ List.mem_append_right b List.mem_cons_self) hcw

end KubeCenter.Core

/-! `base64.StdEncoding`. -/

namespace KubeCenter.Core.Base64

def pad : UInt8 := 61

/-- The character of a six-bit digit. -/
def char (d : ℕ) : UInt8 :=
  if d < 26 then UInt8.ofNat (65 + d)
  else if d < 52 then UInt8.ofNat (71 + d)
  else if d < 62 then UInt8.ofNat (d - 4)
  else if d = 62 then 43
  else 47

def value (c : UInt8) : Option ℕ :=
  let n := c.toNat
  if 65 ≤ n ∧ n ≤ 90 then some (n - 65)
  else if 97 ≤ n ∧ n ≤ 122 then some (n - 71)
  else if 48 ≤ n ∧ n ≤ 57 then some (n + 4)
  else if n = 43 then some 62
  else if n = 47 then some 63
  else none

/-- Four digits of the 24 bits of three bytes. -/
def digits (a b c : ℕ) : List ℕ :=
  let n := a * 65536 + b * 256 + c
  [n / 262144, n / 4096 % 64, n / 64 % 64, n % 64]

def encode : Bytes → Bytes
  | a :: b :: c :: rest => (digits a.toNat b.toNat c.toNat).map char ++ encode rest
  | [a, b] => ((digits a.toNat b.toNat 0).take 3).map char ++ [pad]
  | [a] => ((digits a.toNat 0 0).take 2).map char ++ [pad, pad]
  | [] => []

/-- The bytes that start in the 24 bits of four digits. -/
def bytes (n : ℕ) : Bytes := [UInt8.ofNat (n / 65536), UInt8.ofNat (n / 256 % 256), UInt8.ofNat (n % 256)]

/-- Groups of four; the bits a padded group has to spare are not looked at. -/
def decodeGroups : Bytes → Option Bytes
  | [] => some []
  | w :: x :: y :: z :: rest =>
    match value w, value x with
    | some w, some x =>
      if z = pad ∧ rest = [] then
        if y = pad then some ((bytes (w * 262144 + x * 4096)).take 1)
        else (value y).map (fun y ↦ (bytes (w * 262144 + x * 4096 + y * 64)).take 2)
      else match value y, value z, decodeGroups rest with
        | some y, some z, some decoded => some (bytes (w * 262144 + x * 4096 + y * 64 + z) ++ decoded)
        | _, _, _ => none
    | _, _ => none
  | _ => none

/-- Line breaks are skipped wherever they stand. -/
def decode (s : Bytes) : Option Bytes := decodeGroups (s.filter (fun c ↦ c ≠ 10 && c ≠ 13))

theorem value_char {d : ℕ} (h : d < 64) : value (char d) = some d := by
  have : ∀ d : Fin 64, value (char d) = some d.val := by decide
  exact this ⟨d, h⟩

theorem char_ne {d : ℕ} (h : d < 64) : char d ≠ pad ∧ char d ≠ 10 ∧ char d ≠ 13 := by
  have : ∀ d : Fin 64, char d ≠ pad ∧ char d ≠ 10 ∧ char d ≠ 13 := by decide
  exact this ⟨d, h⟩

theorem digits_lt {a b c : ℕ} (ha : a < 256) (hb : b < 256) (hc : c < 256) : ∀ d ∈ digits a b c, d < 64 := by
  simp only [digits, List.mem_cons, List.not_mem_nil, or_false]
  omega

theorem bytes_digits (a b c : UInt8) {n : ℕ} (h : n = a.toNat * 65536 + b.toNat * 256 + c.toNat) :
    bytes n = [a, b, c] := by
  have ha : n / 65536 = a.toNat := by have := a.toNat_lt; have := b.toNat_lt; have := c.toNat_lt; omega
  have hb : n / 256 % 256 = b.toNat := by have := b.toNat_lt; have := c.toNat_lt; omega
  have hc : n % 256 = c.toNat := by have := c.toNat_lt; omega
  simp only [bytes, ha, hb, hc, UInt8.ofNat_toNat]

theorem sum_digits (n : ℕ) : n / 262144 * 262144 + n / 4096 % 64 * 4096 + n / 64 % 64 * 64 + n % 64 = n := by
  omega

/-- With no third byte the last digit is zero. -/
theorem take_bytes_digits (a b : UInt8) {n : ℕ} (h : n = a.toNat * 65536 + b.toNat * 256 + 0) :
    (bytes (n / 262144 * 262144 + n / 4096 % 64 * 4096 + n / 64 % 64 * 64)).take 2 = [a, b] := by
  have hlast : n % 64 = 0 := by omega
  have hsum := sum_digits n
  rw [hlast, Nat.add_zero] at hsum
  rw [hsum, bytes_digits a b 0 h, List.take_succ_cons, List.take_succ_cons, List.take_zero]

theorem encode_breaks (s : Bytes) : ∀ c ∈ encode s, c ≠ 10 ∧ c ≠ 13 := by
  have hchars : ∀ (a b c : UInt8) (l : List ℕ), l.Sublist (digits a.toNat b.toNat c.toNat) →
      ∀ e ∈ l.map char, e ≠ 10 ∧ e ≠ 13 := by
    intro a b c l hl e he
    obtain ⟨d, hd, rfl⟩ := List.mem_map.mp he
    exact (char_ne (digits_lt a.toNat_lt b.toNat_lt c.toNat_lt d (hl.subset hd))).2
  fun_induction encode s with
  | case1 a b c rest ih =>
    intro e he
    rcases List.mem_append.mp he with he | he
    · exact hchars a b c _ (List.Sublist.refl _) e he
    · exact ih e he
  | case2 a b =>
    intro e he
    rcases List.mem_append.mp he with he | he
    · exact hchars a b 0 _ (List.take_sublist 3 _) e he
    · rw [List.mem_singleton.mp he]
      decide
  | case3 a =>
    intro e he
    rcases List.mem_append.mp he with he | he
    · exact hchars a 0 0 _ (List.take_sublist 2 _) e he
    · obtain rfl : e = pad := by simpa using he
      decide
  | case4 => simp

theorem decodeGroups_pad {w x y : UInt8} {dw dx dy : ℕ} (hw : value w = some dw) (hx : value x = some dx)
    (hy : value y = some dy) (hp : y ≠ pad) :
    decodeGroups [w, x, y, pad] = some ((bytes (dw * 262144 + dx * 4096 + dy * 64)).take 2) := by
  simp only [decodeGroups, hw, hx, hy, hp, and_self, if_true, if_false, Option.map_some]

theorem decodeGroups_encode (s : Bytes) : decodeGroups (encode s) = some s := by
  fun_induction encode s with
  | case1 a b c rest ih =>
    have hlt := digits_lt a.toNat_lt b.toNat_lt c.toNat_lt
    simp only [digits, List.mem_cons, List.not_mem_nil, or_false, forall_eq_or_imp, forall_eq] at hlt
    obtain ⟨hw, hx, hy, hz⟩ := hlt
    simp only [digits, List.map_cons, List.map_nil, List.cons_append, List.nil_append, decodeGroups, value_char hw,
      value_char hx, value_char hy, value_char hz, (char_ne hz).1, false_and, if_false, ih]
    rw [bytes_digits a b c (sum_digits _), List.cons_append, List.cons_append, List.cons_append, List.nil_append]
  | case2 a b =>
    have hlt := digits_lt a.toNat_lt b.toNat_lt (show (0 : ℕ) < 256 by omega)
    simp only [digits, List.mem_cons, List.not_mem_nil, or_false, forall_eq_or_imp, forall_eq] at hlt
    obtain ⟨hw, hx, hy, hz⟩ := hlt
    simp only [digits, List.take_succ_cons, List.take_zero, List.map_cons, List.map_nil, List.cons_append,
      List.nil_append]
    rw [decodeGroups_pad (value_char hw) (value_char hx) (value_char hy) (char_ne hy).1, take_bytes_digits a b rfl]
  | case3 a =>
    have hlt := digits_lt a.toNat_lt (show (0 : ℕ) < 256 by omega) (show (0 : ℕ) < 256 by omega)
    simp only [digits, List.mem_cons, List.not_mem_nil, or_false, forall_eq_or_imp, forall_eq] at hlt
    obtain ⟨hw, hx, hy, hz⟩ := hlt
    simp only [digits, List.take_succ_cons, List.take_zero, List.map_cons, List.map_nil, List.cons_append,
      List.nil_append, decodeGroups, value_char hw, value_char hx, and_self, if_true]
    rw [bytes_digits a 0 0 (by simp only [UInt8.toNat_zero]; omega)]
    rfl
  | case4 => rfl

theorem decode_encode (s : Bytes) : decode (encode s) = some s := by
  have hskip : (encode s).filter (fun c ↦ c ≠ 10 && c ≠ 13) = encode s := by
    apply List.filter_eq_self.mpr
    intro c hc
    simpa using encode_breaks s c hc
  rw [decode, hskip, decodeGroups_encode]

theorem encode_ne_nil {s : Bytes} (h : s ≠ []) : encode s ≠ [] := by
  unfold encode
  split <;> simp_all [digits]

example : encode [97, 58, 98] = [89, 84, 112, 105] := by decide

end KubeCenter.Core.Base64
