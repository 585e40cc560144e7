import KubeCenter.Core.GoInt

/-! `base64.RawStdEncoding`, whose last group is not padded. -/

namespace KubeCenter.Core.Base64

def encodeRaw : Bytes → Bytes
  | a :: b :: c :: rest => (digits a.toNat b.toNat c.toNat).map char ++ encodeRaw rest
  | [a, b] => ((digits a.toNat b.toNat 0).take 3).map char
  | [a] => ((digits a.toNat 0 0).take 2).map char
  | [] => []

/-- The bits that a short group has to spare are not looked at. -/
def decodeRawGroups : Bytes → Option Bytes
  | w :: x :: y :: z :: rest =>
    match value w, value x, value y, value z, decodeRawGroups rest with
    | some w, some x, some y, some z, some decoded => some (bytes (w * 262144 + x * 4096 + y * 64 + z) ++ decoded)
    | _, _, _, _, _ => none
  | [w, x, y] =>
    match value w, value x, value y with
    | some w, some x, some y => some ((bytes (w * 262144 + x * 4096 + y * 64)).take 2)
    | _, _, _ => none
  | [w, x] =>
    match value w, value x with
    | some w, some x => some ((bytes (w * 262144 + x * 4096)).take 1)
    | _, _ => none
  | [_] => none
  | [] => some []

def decodeRaw (s : Bytes) : Option Bytes := decodeRawGroups (s.filter (fun c ↦ c ≠ 10 && c ≠ 13))

theorem value_of_mem_encodeRaw (s : Bytes) : ∀ c ∈ encodeRaw s, (value c).isSome := by
  have hchars : ∀ (a b c : UInt8) (l : List ℕ), l.Sublist (digits a.toNat b.toNat c.toNat) →
      ∀ e ∈ l.map char, (value e).isSome := by
    intro a b c l hl e he
    obtain ⟨d, hd, rfl⟩ := List.mem_map.mp he
    rw [value_char (digits_lt a.toNat_lt b.toNat_lt c.toNat_lt d (hl.subset hd))]
    rfl
  fun_induction encodeRaw s with
  | case1 a b c rest ih =>
    intro e he
    obtain he | he := List.mem_append.mp he
    · exact hchars a b c _ (List.Sublist.refl _) e he
    · exact ih e he
  | case2 a b => exact hchars a b 0 _ (List.take_sublist 3 _)
  | case3 a => exact hchars a 0 0 _ (List.take_sublist 2 _)
  | case4 => exact fun _ h ↦ absurd h List.not_mem_nil

theorem decodeRawGroups_encodeRaw (s : Bytes) : decodeRawGroups (encodeRaw s) = some s := by
  fun_induction encodeRaw s with
  | case1 a b c rest ih =>
    have hlt := digits_lt a.toNat_lt b.toNat_lt c.toNat_lt
    simp only [digits, List.mem_cons, List.not_mem_nil, or_false, forall_eq_or_imp, forall_eq] at hlt
    obtain ⟨hw, hx, hy, hz⟩ := hlt
    simp only [digits, List.map_cons, List.map_nil, List.cons_append, List.nil_append, decodeRawGroups, value_char hw,
      value_char hx, value_char hy, value_char hz, ih]
    rw [bytes_digits a b c (sum_digits _), List.cons_append, List.cons_append, List.cons_append, List.nil_append]
  | case2 a b =>
    have hlt := digits_lt a.toNat_lt b.toNat_lt (show (0 : ℕ) < 256 by omega)
    simp only [digits, List.mem_cons, List.not_mem_nil, or_false, forall_eq_or_imp, forall_eq] at hlt
    obtain ⟨hw, hx, hy, -⟩ := hlt
    simp only [digits, List.take_succ_cons, List.take_zero, List.map_cons, List.map_nil, decodeRawGroups,
      value_char hw, value_char hx, value_char hy]
    rw [take_bytes_digits a b rfl]
  | case3 a =>
    have hlt := digits_lt a.toNat_lt (show (0 : ℕ) < 256 by omega) (show (0 : ℕ) < 256 by omega)
    simp only [digits, List.mem_cons, List.not_mem_nil, or_false, forall_eq_or_imp, forall_eq] at hlt
    obtain ⟨hw, hx, -, -⟩ := hlt
    simp only [digits, List.take_succ_cons, List.take_zero, List.map_cons, List.map_nil, decodeRawGroups,
      value_char hw, value_char hx]
    rw [bytes_digits a 0 0 (by simp only [UInt8.toNat_zero]; omega)]
    rfl
  | case4 => rfl

theorem decodeRaw_encodeRaw (s : Bytes) : decodeRaw (encodeRaw s) = some s := by
  have hskip : (encodeRaw s).filter (fun c ↦ c ≠ 10 && c ≠ 13) = encodeRaw s := by
    apply List.filter_eq_self.mpr
    intro c hc
    have hvalue := value_of_mem_encodeRaw s c hc
    simp only [Bool.and_eq_true, decide_eq_true_eq]
    constructor <;> rintro rfl <;> exact absurd hvalue (by decide)
  rw [decodeRaw, hskip, decodeRawGroups_encodeRaw]

end KubeCenter.Core.Base64

/-! `fmt.Sscanf`, one directive after the other, each on what the ones before it have left. -/

namespace KubeCenter.Core.Scan

variable {s rest lit : Bytes} {t : ℤ} {n : ℕ}

/-- The text of a format, which must be there as it is. -/
def literal (lit s : Bytes) : Option Bytes := if lit <+: s then some (s.drop lit.length) else none

/-- Spaces before an operand; a line break among them is an error. -/
def skipSpaces : ℕ → Bytes → Option Bytes
  | 0, s => some s
  | fuel + 1, s =>
    match spaces.find? (fun e ↦ e.isPrefixOf s) with
    | none => some s
    | some e => if e = [10] then none else skipSpaces fuel (s.drop e.length)

def skipSpace (s : Bytes) : Option Bytes := skipSpaces s.length s

/-- `%d` for an `int`. -/
def int (s : Bytes) : Option (ℤ × Bytes) := do
  let s ← skipSpace s
  let signed := s.head? = some minus ∨ s.head? = some plus
  let sign := if signed then s.take 1 else []
  let (digits, rest) := (s.drop sign.length).span isDigit
  if digits = [] then none else (parseInt (sign ++ digits)).map (·, rest)

/-- `%d` for a `uint32`. -/
def uint32 (s : Bytes) : Option (ℕ × Bytes) := do
  let s ← skipSpace s
  let (digits, rest) := s.span isDigit
  let n ← parseUint digits
  if n < 4294967296 then some (n, rest) else none

/-- What there is before the next space. -/
def untilSpace : Bytes → Bytes
  | [] => []
  | c :: s => if spaces.any (fun e ↦ e.isPrefixOf (c :: s)) then [] else c :: untilSpace s

/-- `%s`. -/
def word (s : Bytes) : Option Bytes := do
  let s ← skipSpace s
  if s = [] then none else some (untilSpace s)

theorem literal_append (lit s : Bytes) : literal lit (lit ++ s) = some s := by
  rw [literal, if_pos (List.prefix_append lit s), List.drop_left]

/-- A byte that no space starts with. -/
def Dark (c : UInt8) : Prop := ∀ e ∈ spaces, e.head? ≠ some c

instance (c : UInt8) : Decidable (Dark c) := inferInstanceAs (Decidable (∀ e ∈ spaces, _))

theorem Dark.find? {c : UInt8} (h : Dark c) (s : Bytes) : ∀ e ∈ spaces, e.isPrefixOf (c :: s) = false := by
  intro e he
  rw [Bool.eq_false_iff]
  exact fun hp ↦ not_space_prefix h s e he (List.isPrefixOf_iff_prefix.mp hp)

theorem skipSpace_dark {c : UInt8} (h : Dark c) (s : Bytes) : skipSpace (c :: s) = some (c :: s) := by
  have hnone : spaces.find? (fun e ↦ e.isPrefixOf (c :: s)) = none := by
    rw [List.find?_eq_none]
    intro e he
    rw [h.find? s e he]
    exact Bool.false_ne_true
  rw [skipSpace, List.length_cons, skipSpaces, hnone]

theorem untilSpace_dark (h : ∀ c ∈ s, Dark c) : untilSpace s = s := by
  induction s with
  | nil => rfl
  | cons c s ih =>
    have hany : spaces.any (fun e ↦ e.isPrefixOf (c :: s)) = false := by
      rw [List.any_eq_false]
      intro e he
      rw [(h c List.mem_cons_self).find? s e he]
      exact Bool.false_ne_true
    rw [untilSpace, hany, if_neg Bool.false_ne_true, ih (fun d hd ↦ h d (List.mem_cons_of_mem c hd))]

theorem word_dark (hne : s ≠ []) (h : ∀ c ∈ s, Dark c) : word s = some s := by
  cases s with
  | nil => exact absurd rfl hne
  | cons c s =>
    rw [word, skipSpace_dark (h c List.mem_cons_self), Option.bind_eq_bind, Option.bind_some, if_neg hne,
      untilSpace_dark h]

theorem Dark.of_class {p : UInt8 → Bool} (h : spaces.all (fun e ↦ e.head?.all (fun c ↦ !p c)) = true) {c : UInt8}
    (hc : p c = true) : Dark c := by
  intro e he hhead
  have hall := List.all_eq_true.mp h e he
  rw [hhead, Option.all_some, hc] at hall
  cases hall

theorem dark_digit {c : UInt8} (h : isDigit c = true) : Dark c := Dark.of_class (by decide) h

theorem decimal_digits (n : ℕ) : ∀ c ∈ decimal n, isDigit c = true := decimalDigits_isDigit _ n

theorem takeWhile_digits {digits : Bytes} (h : ∀ c ∈ digits, isDigit c = true)
    (hrest : ∀ c ∈ rest.head?, isDigit c = false) : (digits ++ rest).takeWhile isDigit = digits := by
  rw [List.takeWhile_append_of_pos h]
  cases rest with
  | nil => simp
  | cons c rest => rw [List.takeWhile_cons_of_neg (by simp [hrest c rfl]), List.append_nil]

theorem dropWhile_digits {digits : Bytes} (h : ∀ c ∈ digits, isDigit c = true)
    (hrest : ∀ c ∈ rest.head?, isDigit c = false) : (digits ++ rest).dropWhile isDigit = rest := by
  rw [List.dropWhile_append_of_pos h]
  cases rest with
  | nil => rfl
  | cons c rest => rw [List.dropWhile_cons_of_neg (by simp [hrest c rfl])]

theorem skipSpace_digits {digits : Bytes} (hne : digits ≠ []) (h : ∀ c ∈ digits, isDigit c = true) :
    skipSpace (digits ++ rest) = some (digits ++ rest) := by
  cases digits with
  | nil => exact absurd rfl hne
  | cons c digits => exact skipSpace_dark (dark_digit (h c List.mem_cons_self)) _

theorem uint32_decimal (hn : n < 4294967296) (hrest : ∀ c ∈ rest.head?, isDigit c = false) :
    uint32 (decimal n ++ rest) = some (n, rest) := by
  rw [uint32, skipSpace_digits (decimal_ne_nil n) (decimal_digits n)]
  simp only [Option.bind_eq_bind, Option.bind_some, List.span_eq_takeWhile_dropWhile,
    takeWhile_digits (decimal_digits n) hrest, dropWhile_digits (decimal_digits n) hrest, parseUint_decimal]
  rw [if_pos hn]

theorem int_formatInt (hlow : -2 ^ 63 ≤ t) (hhigh : t < 2 ^ 63) (hrest : ∀ c ∈ rest.head?, isDigit c = false) :
    int (formatInt t ++ rest) = some (t, rest) := by
  have hparse := parseInt_formatInt hlow hhigh
  have htake := takeWhile_digits (decimal_digits t.natAbs) hrest
  have hdrop := dropWhile_digits (decimal_digits t.natAbs) hrest
  have hne := decimal_ne_nil t.natAbs
  unfold formatInt at hparse ⊢
  split
  · next hneg =>
    rw [if_pos hneg] at hparse
    rw [int, List.cons_append, skipSpace_dark (by decide)]
    simp only [Option.bind_eq_bind, Option.bind_some, List.head?_cons, true_or, if_true, List.take_succ_cons,
      List.take_zero, List.length_singleton, List.drop_succ_cons, List.drop_zero, List.span_eq_takeWhile_dropWhile, htake,
      hdrop, hne, if_false, List.singleton_append, hparse, Option.map_some]
  · next hpos =>
    rw [if_neg hpos] at hparse
    obtain ⟨hminus, hplus⟩ := head?_decimal t.natAbs
    have hhead : (decimal t.natAbs ++ rest).head? = (decimal t.natAbs).head? := List.head?_append_of_ne_nil _ hne
    rw [int, skipSpace_digits hne (decimal_digits _)]
    simp only [Option.bind_eq_bind, Option.bind_some, hhead, hminus, hplus, or_self, if_false, List.length_nil,
      List.drop_zero, List.span_eq_takeWhile_dropWhile, htake, hdrop, hne, List.nil_append, hparse, Option.map_some]

/-- What is read as a number is one that the type has. -/
theorem uint32_lt {p : ℕ × Bytes} (h : uint32 s = some p) : p.1 < 4294967296 := by
  simp only [uint32, Option.bind_eq_bind, Option.bind_eq_some_iff, Option.ite_none_right_eq_some] at h
  obtain ⟨_, -, n, -, hn, ⟨⟩⟩ := h
  exact hn

theorem parseInt_range {text : Bytes} (h : parseInt text = some t) : -2 ^ 63 ≤ t ∧ t < 2 ^ 63 := by
  unfold parseInt at h
  generalize (if text.head? = some minus then (true, text.tail) else
    if text.head? = some plus then (false, text.tail) else (false, text)) = signed at h
  obtain ⟨negative, digits⟩ := signed
  obtain ⟨n, -, h⟩ := Option.bind_eq_some_iff.mp h
  cases negative with
  | true =>
    simp only [if_true, Option.ite_none_right_eq_some] at h
    obtain ⟨hn, ⟨⟩⟩ := h
    omega
  | false =>
    simp only [Bool.false_eq_true, if_false, Option.ite_none_right_eq_some] at h
    obtain ⟨hn, ⟨⟩⟩ := h
    omega

theorem int_range {p : ℤ × Bytes} (h : int s = some p) : -2 ^ 63 ≤ p.1 ∧ p.1 < 2 ^ 63 := by
  simp only [int, Option.bind_eq_bind, Option.bind_eq_some_iff, Option.ite_none_left_eq_some,
    Option.map_eq_some_iff] at h
  obtain ⟨_, -, -, t, ht, rfl⟩ := h
  exact parseInt_range ht

end KubeCenter.Core.Scan
