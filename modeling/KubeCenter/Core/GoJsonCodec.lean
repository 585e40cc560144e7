import KubeCenter.Core.GoJson
import KubeCenter.Core.GoString

namespace KubeCenter.Core

/-! Strings as `encoding/json` writes and reads them. -/

def hexFour (n : ℕ) : Text :=
  [Nat.digitChar (n / 4096 % 16), Nat.digitChar (n / 256 % 16), Nat.digitChar (n / 16 % 16), Nat.digitChar (n % 16)]

/-- A control character, one that HTML or JavaScript would read, is written as `\u` and its code. -/
def unsafeChar (c : Char) : Bool :=
  c.toNat < 32 ∨ c = '<' ∨ c = '>' ∨ c = '&' ∨ c.toNat = 0x2028 ∨ c.toNat = 0x2029

def quoteChar (c : Char) : Text :=
  if c = '\"' then ['\\', '\"']
  else if c = '\\' then ['\\', '\\']
  else if c.toNat = 8 then ['\\', 'b']
  else if c.toNat = 12 then ['\\', 'f']
  else if c = '\n' then ['\\', 'n']
  else if c = '\r' then ['\\', 'r']
  else if c = '\t' then ['\\', 't']
  else if unsafeChar c then '\\' :: 'u' :: hexFour c.toNat
  else [c]

def quoteString (s : String) : Text := '\"' :: s.toList.flatMap quoteChar ++ ['\"']

/-- The low half of a surrogate pair, when the text goes on with one. -/
def lowSurrogate : Text → Option (ℕ × Text)
  | '\\' :: 'u' :: s => (digits hexDigit 16 4 0 s).filter (fun p ↦ 0xdc00 ≤ p.1 ∧ p.1 ≤ 0xdfff)
  | _ => none

/-- A code read behind `\u`; half of a pair without the other half becomes U+FFFD. -/
def ofCode (v : ℕ) (s : Text) : Char × Text :=
  if 0xd800 ≤ v ∧ v ≤ 0xdbff then
    match lowSurrogate s with
    | some (w, s) => (Char.ofNat (0x10000 + (v - 0xd800) * 0x400 + (w - 0xdc00)), s)
    | none => (Char.ofNat 0xfffd, s)
  else if 0xdc00 ≤ v ∧ v ≤ 0xdfff then (Char.ofNat 0xfffd, s)
  else (Char.ofNat v, s)

/-- What a backslash and the text behind it stand for. -/
def unescape : Text → Option (Char × Text)
  | 'b' :: s => some (Char.ofNat 8, s)
  | 'f' :: s => some (Char.ofNat 12, s)
  | 'n' :: s => some ('\n', s)
  | 'r' :: s => some ('\r', s)
  | 't' :: s => some ('\t', s)
  | '/' :: s => some ('/', s)
  | '\\' :: s => some ('\\', s)
  | '\"' :: s => some ('\"', s)
  | 'u' :: s => (digits hexDigit 16 4 0 s).map (fun p ↦ ofCode p.1 p.2)
  | _ => none

theorem lowSurrogate_suffix {s : Text} {p : ℕ × Text} (h : lowSurrogate s = some p) : p.2 <:+ s := by
  unfold lowSurrogate at h
  split at h
  · obtain ⟨hd, -⟩ := Option.filter_eq_some_iff.mp h
    exact (digits_suffix hd).trans ((List.suffix_cons _ _).trans (List.suffix_cons _ _))
  · cases h

theorem ofCode_suffix (v : ℕ) (s : Text) : (ofCode v s).2 <:+ s := by
  unfold ofCode
  split
  · split
    · next h => exact lowSurrogate_suffix h
    · exact List.suffix_refl s
  · split <;> exact List.suffix_refl s

theorem unescape_suffix {s : Text} {p : Char × Text} (h : unescape s = some p) : p.2 <:+ s := by
  unfold unescape at h
  split at h
  case h_9 =>
    obtain ⟨q, hq, rfl⟩ := Option.map_eq_some_iff.mp h
    exact ((ofCode_suffix q.1 q.2).trans (digits_suffix hq)).trans (List.suffix_cons _ _)
  case h_10 => cases h
  all_goals
    cases h
    exact List.suffix_cons _ _

/-- A string behind its opening quote, and what follows its closing quote. -/
def stringFrom (s : Text) : Option (Text × Text) :=
  match s with
  | [] => none
  | c :: s =>
    if c = '\"' then some ([], s)
    else if c.toNat < 32 then none
    else if c = '\\' then
      match _h : unescape s with
      | none => none
      | some p => (stringFrom p.2).map (fun q ↦ (p.1 :: q.1, q.2))
    else (stringFrom s).map (fun q ↦ (c :: q.1, q.2))
  termination_by s.length
  decreasing_by
    · exact Nat.lt_succ_of_le (unescape_suffix _h).length_le
    · exact Nat.lt_succ_self _

theorem stringFrom_escape {s t : Text} {c : Char} (h : unescape s = some (c, t)) :
    stringFrom ('\\' :: s) = (stringFrom t).map (fun q ↦ (c :: q.1, q.2)) := by
  have hq : '\\' ≠ '\"' := by decide
  have hc : ¬ '\\'.toNat < 32 := by decide
  rw [stringFrom]
  simp only [hq, hc, if_true, if_false]
  split
  · next he =>
    rw [h] at he
    cases he
  · next he =>
    rw [h] at he
    cases he
    rfl

theorem stringFrom_plain {c : Char} (hq : c ≠ '\"') (hb : c ≠ '\\') (hc : ¬ c.toNat < 32) (s : Text) :
    stringFrom (c :: s) = (stringFrom s).map (fun q ↦ (c :: q.1, q.2)) := by
  rw [stringFrom]
  simp only [hq, hb, hc, if_false]

theorem stringFrom_quote (s : Text) : stringFrom ('\"' :: s) = some ([], s) := by
  rw [stringFrom, if_pos rfl]

theorem hexDigit_digitChar : ∀ d < 16, hexDigit (Nat.digitChar d) = some d := by decide

theorem digits_hexFour {n : ℕ} (h : n < 65536) (s : Text) :
    digits hexDigit 16 4 0 (hexFour n ++ s) = some (n, s) := by
  have hd (m : ℕ) : hexDigit (Nat.digitChar (m % 16)) = some (m % 16) :=
    hexDigit_digitChar _ (Nat.mod_lt m (by decide))
  simp only [hexFour, List.cons_append, List.nil_append, digits, hd, Option.bind_some]
  have hn : 16 * (16 * (16 * (16 * 0 + n / 4096 % 16) + n / 256 % 16) + n / 16 % 16) + n % 16 = n := by omega
  rw [hn]

theorem unsafeChar_toNat {c : Char} (h : unsafeChar c = true) : c.toNat < 0xd800 := by
  simp only [unsafeChar, decide_eq_true_eq] at h
  obtain h | rfl | rfl | rfl | h | h := h
  · omega
  · decide
  · decide
  · decide
  · omega
  · omega

theorem unescape_hexFour {c : Char} (h : c.toNat < 0xd800) (s : Text) :
    unescape ('u' :: (hexFour c.toNat ++ s)) = some (c, s) := by
  have hd := digits_hexFour (n := c.toNat) (by omega) s
  have hhigh : ¬ (0xd800 ≤ c.toNat ∧ c.toNat ≤ 0xdbff) := by omega
  have hlow : ¬ (0xdc00 ≤ c.toNat ∧ c.toNat ≤ 0xdfff) := by omega
  simp only [unescape, hd, Option.map_some, ofCode, hhigh, hlow, if_false, Char.ofNat_toNat]

theorem stringFrom_quoteChar (c : Char) (s : Text) :
    stringFrom (quoteChar c ++ s) = (stringFrom s).map (fun q ↦ (c :: q.1, q.2)) := by
  have hcode {n : ℕ} (h : c.toNat = n) : c = Char.ofNat n := by rw [← h, Char.ofNat_toNat]
  unfold quoteChar
  split
  · next h =>
    subst h
    exact stringFrom_escape (s := '\"' :: s) rfl
  split
  · next h =>
    subst h
    exact stringFrom_escape (s := '\\' :: s) rfl
  split
  · next h =>
    rw [hcode h]
    exact stringFrom_escape (s := 'b' :: s) rfl
  split
  · next h =>
    rw [hcode h]
    exact stringFrom_escape (s := 'f' :: s) rfl
  split
  · next h =>
    subst h
    exact stringFrom_escape (s := 'n' :: s) rfl
  split
  · next h =>
    subst h
    exact stringFrom_escape (s := 'r' :: s) rfl
  split
  · next h =>
    subst h
    exact stringFrom_escape (s := 't' :: s) rfl
  split
  · next h => exact stringFrom_escape (unescape_hexFour (unsafeChar_toNat h) s)
  · next hq hb _ _ _ _ _ h =>
    apply stringFrom_plain hq hb
    intro hlt
    exact h (by simp only [unsafeChar, hlt, true_or, decide_true])

theorem stringFrom_flatMap (s rest : Text) :
    stringFrom (s.flatMap quoteChar ++ '\"' :: rest) = some (s, rest) := by
  induction s with
  | nil => exact stringFrom_quote rest
  | cons c s ih =>
    rw [List.flatMap_cons, List.append_assoc, stringFrom_quoteChar, ih]
    rfl

theorem stringFrom_quoteString (s : String) (rest : Text) :
    stringFrom (s.toList.flatMap quoteChar ++ ['\"'] ++ rest) = some (s.toList, rest) := by
  rw [List.append_assoc]
  exact stringFrom_flatMap s.toList rest

/-! Numbers: the text of one is kept as it is. -/

def isNumberChar (c : Char) : Bool := c.isDigit || c ∈ ['+', '-', '.', 'e', 'E']

def exponentOk : Text → Bool
  | [] => true
  | e :: s => (e = 'e' || e = 'E') &&
    match s with
    | '+' :: d :: s | '-' :: d :: s => d.isDigit && s.all Char.isDigit
    | d :: s => d.isDigit && s.all Char.isDigit
    | [] => false

def fractionOk : Text → Bool
  | '.' :: d :: s => d.isDigit && exponentOk (s.dropWhile Char.isDigit)
  | s => exponentOk s

def naturalOk : Text → Bool
  | '0' :: s => fractionOk s
  | d :: s => d.isDigit && fractionOk (s.dropWhile Char.isDigit)
  | [] => false

def isNumber : Text → Bool
  | '-' :: s => naturalOk s
  | s => naturalOk s

theorem isNumberChar_of_isDigit {c : Char} (h : c.isDigit = true) : isNumberChar c = true := by
  rw [isNumberChar, h, Bool.true_or]

theorem all_of_dropWhile {s : Text} (h : (s.dropWhile Char.isDigit).all isNumberChar = true) :
    s.all isNumberChar = true := by
  induction s with
  | nil => rfl
  | cons c s ih =>
    rw [List.all_cons, Bool.and_eq_true]
    by_cases hc : c.isDigit = true
    · rw [List.dropWhile_cons_of_pos hc] at h
      exact ⟨isNumberChar_of_isDigit hc, ih h⟩
    · rw [List.dropWhile_cons_of_neg hc, List.all_cons, Bool.and_eq_true] at h
      exact h

theorem all_of_digits {s : Text} (h : s.all Char.isDigit = true) : s.all isNumberChar = true := by
  rw [List.all_eq_true] at h ⊢
  exact fun c hc ↦ isNumberChar_of_isDigit (h c hc)

theorem exponentOk_all {s : Text} (h : exponentOk s = true) : s.all isNumberChar = true := by
  unfold exponentOk at h
  split at h
  · rfl
  · next e s =>
    obtain ⟨he, hs⟩ := Bool.and_eq_true_iff.mp h
    rw [List.all_cons, Bool.and_eq_true]
    constructor
    · obtain rfl | rfl : e = 'e' ∨ e = 'E' := by simpa using he
      · decide
      · decide
    · split at hs
      · obtain ⟨hd, hs⟩ := Bool.and_eq_true_iff.mp hs
        simp only [List.all_cons, isNumberChar_of_isDigit hd, all_of_digits hs, Bool.and_self, Bool.and_true]
        decide
      · obtain ⟨hd, hs⟩ := Bool.and_eq_true_iff.mp hs
        simp only [List.all_cons, isNumberChar_of_isDigit hd, all_of_digits hs, Bool.and_self, Bool.and_true]
        decide
      · obtain ⟨hd, hs⟩ := Bool.and_eq_true_iff.mp hs
        simp only [List.all_cons, isNumberChar_of_isDigit hd, all_of_digits hs, Bool.and_self]
      · rfl

theorem fractionOk_all {s : Text} (h : fractionOk s = true) : s.all isNumberChar = true := by
  unfold fractionOk at h
  split at h
  · obtain ⟨hd, hs⟩ := Bool.and_eq_true_iff.mp h
    simp only [List.all_cons, isNumberChar_of_isDigit hd, all_of_dropWhile (exponentOk_all hs), Bool.and_self,
      Bool.and_true]
    decide
  · exact exponentOk_all h

theorem naturalOk_all {s : Text} (h : naturalOk s = true) :
    s.all isNumberChar = true ∧ ∃ d t, s = d :: t ∧ d.isDigit = true := by
  unfold naturalOk at h
  split at h
  · next s =>
    rw [List.all_cons, fractionOk_all h]
    exact ⟨rfl, '0', s, rfl, rfl⟩
  · next d s _ =>
    obtain ⟨hd, hs⟩ := Bool.and_eq_true_iff.mp h
    rw [List.all_cons, isNumberChar_of_isDigit hd, all_of_dropWhile (fractionOk_all hs)]
    exact ⟨rfl, d, s, rfl, hd⟩
  · cases h

/-- A number is made of its characters and starts with a digit or a minus sign. -/
theorem isNumber_all {s : Text} (h : isNumber s = true) :
    s.all isNumberChar = true ∧ ∃ d t, s = d :: t ∧ (d = '-' ∨ d.isDigit = true) := by
  unfold isNumber at h
  split at h
  · next s =>
    rw [List.all_cons, (naturalOk_all h).1]
    exact ⟨rfl, '-', s, rfl, .inl rfl⟩
  · obtain ⟨hs, d, t, he, hd⟩ := naturalOk_all h
    exact ⟨hs, d, t, he, .inr hd⟩

/-! Values. -/

def skipSpace (s : Text) : Text := s.dropWhile (fun c ↦ c = ' ' ∨ c = '\t' ∨ c = '\r' ∨ c = '\n')

def numberFrom (s : Text) : Option (Json × Text) :=
  if isNumber (s.takeWhile isNumberChar) then
    some (.number (String.ofList (s.takeWhile isNumberChar)), s.dropWhile isNumberChar)
  else none

mutual

/-- `json.Marshal`; the fields of an object stand in the order of their keys. -/
def Json.encode : Json → Text
  | .null => ['n', 'u', 'l', 'l']
  | .bool true => ['t', 'r', 'u', 'e']
  | .bool false => ['f', 'a', 'l', 's', 'e']
  | .number text => text.toList
  | .string s => quoteString s
  | .array [] => ['[', ']']
  | .array (j :: items) => '[' :: (j.encode ++ encodeItems items)
  | .object [] => ['{', '}']
  | .object ((k, j) :: fields) => '{' :: (quoteString k ++ ':' :: (j.encode ++ encodeFields fields))

def encodeItems : List Json → Text
  | [] => [']']
  | j :: items => ',' :: (j.encode ++ encodeItems items)

def encodeFields : List (String × Json) → Text
  | [] => ['}']
  | (k, j) :: fields => ',' :: (quoteString k ++ ':' :: (j.encode ++ encodeFields fields))

end

mutual

/-- A value at the front of a text, and what follows it; `n` bounds the nesting of the calls. -/
def valueFrom : ℕ → Text → Option (Json × Text)
  | 0, _ => none
  | n + 1, s =>
    match skipSpace s with
    | 'n' :: 'u' :: 'l' :: 'l' :: s => some (.null, s)
    | 't' :: 'r' :: 'u' :: 'e' :: s => some (.bool true, s)
    | 'f' :: 'a' :: 'l' :: 's' :: 'e' :: s => some (.bool false, s)
    | '\"' :: s => (stringFrom s).map (fun p ↦ (.string (String.ofList p.1), p.2))
    | '[' :: s =>
      match skipSpace s with
      | ']' :: s => some (.array [], s)
      | s => (valueFrom n s).bind (fun p ↦ (itemsFrom n p.2).map (fun q ↦ (.array (p.1 :: q.1), q.2)))
    | '{' :: s =>
      match skipSpace s with
      | '}' :: s => some (.object [], s)
      | s => (fieldFrom n s).bind (fun p ↦ (fieldsFrom n p.2).map (fun q ↦ (.object (p.1 :: q.1), q.2)))
    | s => numberFrom s

def itemsFrom : ℕ → Text → Option (List Json × Text)
  | 0, _ => none
  | n + 1, s =>
    match skipSpace s with
    | ']' :: s => some ([], s)
    | ',' :: s => (valueFrom n s).bind (fun p ↦ (itemsFrom n p.2).map (fun q ↦ (p.1 :: q.1, q.2)))
    | _ => none

def fieldFrom : ℕ → Text → Option ((String × Json) × Text)
  | 0, _ => none
  | n + 1, s =>
    match skipSpace s with
    | '\"' :: s => (stringFrom s).bind (fun p ↦
        match skipSpace p.2 with
        | ':' :: s => (valueFrom n s).map (fun q ↦ ((String.ofList p.1, q.1), q.2))
        | _ => none)
    | _ => none

def fieldsFrom : ℕ → Text → Option (List (String × Json) × Text)
  | 0, _ => none
  | n + 1, s =>
    match skipSpace s with
    | '}' :: s => some ([], s)
    | ',' :: s => (fieldFrom n s).bind (fun p ↦ (fieldsFrom n p.2).map (fun q ↦ (p.1 :: q.1, q.2)))
    | _ => none

end

mutual

/-- The value with each object read into a map, where a later field of a key replaces an earlier one. -/
def Json.intoMaps : Json → Json
  | .array items => .array (itemsIntoMaps items)
  | .object fields => .object (fieldsIntoMaps fields)
  | j => j

def itemsIntoMaps : List Json → List Json
  | [] => []
  | j :: items => j.intoMaps :: itemsIntoMaps items

def fieldsIntoMaps : Fields → Fields
  | [] => []
  | (k, j) :: fields =>
    match (fieldsIntoMaps fields).get k with
    | some _ => fieldsIntoMaps fields
    | none => (fieldsIntoMaps fields).set k j.intoMaps

end

def Json.decode (s : Text) : Option Json :=
  (valueFrom (s.length + 1) s).bind (fun p ↦ if skipSpace p.2 = [] then some p.1.intoMaps else none)

mutual

/-- Numbers are numbers, and the fields of an object are those of a map. -/
def Json.WellFormed : Json → Prop
  | .number text => isNumber text.toList = true
  | .array items => itemsWellFormed items
  | .object fields => Fields.Sorted fields ∧ fieldsWellFormed fields
  | _ => True

def itemsWellFormed : List Json → Prop
  | [] => True
  | j :: items => j.WellFormed ∧ itemsWellFormed items

def fieldsWellFormed : Fields → Prop
  | [] => True
  | (_, j) :: fields => j.WellFormed ∧ fieldsWellFormed fields

end

theorem skipSpace_cons {c : Char} (h : c ≠ ' ' ∧ c ≠ '\t' ∧ c ≠ '\r' ∧ c ≠ '\n') (s : Text) :
    skipSpace (c :: s) = c :: s := by
  rw [skipSpace, List.dropWhile_cons_of_neg]
  simpa using h

/-- What follows a value: no character that could go on with a number. -/
def Ends (s : Text) : Prop := ∀ c t, s = c :: t → isNumberChar c = false

theorem ends_cons {c : Char} {s : Text} (h : isNumberChar c = false) : Ends (c :: s) := by
  intro d t he
  cases he
  exact h

theorem ends_encodeItems (items : List Json) (rest : Text) : Ends (encodeItems items ++ rest) := by
  cases items with
  | nil => exact ends_cons rfl
  | cons j items => exact ends_cons rfl

theorem ends_encodeFields (fields : Fields) (rest : Text) : Ends (encodeFields fields ++ rest) := by
  cases fields with
  | nil => exact ends_cons rfl
  | cons f fields => exact ends_cons rfl

theorem spanNumber {s rest : Text} (hs : s.all isNumberChar = true) (hrest : Ends rest) :
    (s ++ rest).takeWhile isNumberChar = s ∧ (s ++ rest).dropWhile isNumberChar = rest := by
  rw [List.all_eq_true] at hs
  rw [List.takeWhile_append_of_pos hs, List.dropWhile_append_of_pos hs]
  cases rest with
  | nil => exact ⟨List.append_nil s, rfl⟩
  | cons c rest =>
    have hc : ¬ isNumberChar c = true := by
      rw [hrest c rest rfl]
      exact Bool.false_ne_true
    rw [List.takeWhile_cons_of_neg hc, List.dropWhile_cons_of_neg hc]
    exact ⟨List.append_nil s, rfl⟩

theorem valueFrom_eq_numberFrom {n : ℕ} {d : Char} {s : Text} (hd : d = '-' ∨ d.isDigit = true) :
    valueFrom (n + 1) (d :: s) = numberFrom (d :: s) := by
  have hne (c : Char) (hminus : c ≠ '-') (hdigit : c.isDigit = false) : d ≠ c := by
    intro he
    subst he
    obtain rfl | h := hd
    · exact hminus rfl
    · rw [hdigit] at h
      cases h
  have hskip : skipSpace (d :: s) = d :: s :=
    skipSpace_cons ⟨hne _ (by decide) rfl, hne _ (by decide) rfl, hne _ (by decide) rfl, hne _ (by decide) rfl⟩ s
  rw [valueFrom, hskip]
  split
  case h_7 => rfl
  all_goals
    next he =>
    cases he
    exact absurd rfl (hne _ (by decide) rfl)

theorem valueFrom_number {n : ℕ} {text : String} {rest : Text} (h : isNumber text.toList = true)
    (hrest : Ends rest) : valueFrom (n + 1) (text.toList ++ rest) = some (.number text, rest) := by
  obtain ⟨hall, d, t, ht, hd⟩ := isNumber_all h
  obtain ⟨htake, hdrop⟩ := spanNumber hall hrest
  have hvalue : valueFrom (n + 1) (text.toList ++ rest) = numberFrom (text.toList ++ rest) := by
    rw [ht]
    exact valueFrom_eq_numberFrom hd
  rw [hvalue, numberFrom, htake, hdrop, if_pos h, String.ofList_toList]

/-- A value starts with a character that is neither blank nor a closing bracket. -/
theorem encode_head {j : Json} (h : j.WellFormed) :
    ∃ c t, j.encode = c :: t ∧ c ≠ ']' ∧ ∀ s, skipSpace (c :: s) = c :: s := by
  have hconst {c : Char} (t : Text) (hc : c ∉ [' ', '\t', '\r', '\n', ']']) :
      ∃ d u, c :: t = d :: u ∧ d ≠ ']' ∧ ∀ s, skipSpace (d :: s) = d :: s := by
    simp only [List.mem_cons, List.not_mem_nil, not_or] at hc
    exact ⟨c, t, rfl, hc.2.2.2.2.1, skipSpace_cons ⟨hc.1, hc.2.1, hc.2.2.1, hc.2.2.2.1⟩⟩
  cases j with
  | null => exact hconst _ (by decide)
  | bool b => cases b <;> exact hconst _ (by decide)
  | string s => exact hconst _ (by decide)
  | array items => cases items <;> exact hconst _ (by decide)
  | object fields => cases fields <;> exact hconst _ (by decide)
  | number text =>
    obtain ⟨-, d, t, ht, hd⟩ := isNumber_all h
    have hmem : d ∉ [' ', '\t', '\r', '\n', ']'] := by
      intro hmem
      obtain rfl | hd := hd
      · exact absurd hmem (by decide)
      · simp only [List.mem_cons, List.not_mem_nil, or_false] at hmem
        obtain rfl | rfl | rfl | rfl | rfl := hmem <;> cases hd
    rw [Json.encode, ht]
    exact hconst t hmem

theorem length_quoteString (k : String) : 2 ≤ (quoteString k).length := by
  simp only [quoteString, List.length_cons, List.length_append, List.length_nil]
  omega

theorem fieldFrom_encode {k : String} {j : Json} {n : ℕ} {rest : Text}
    (h : valueFrom n (j.encode ++ rest) = some (j, rest)) :
    fieldFrom (n + 1) (quoteString k ++ ':' :: (j.encode ++ rest)) = some ((k, j), rest) := by
  change (stringFrom (k.toList.flatMap quoteChar ++ ['\"'] ++ ':' :: (j.encode ++ rest))).bind _ = _
  rw [stringFrom_quoteString, Option.bind_some]
  change (valueFrom n (j.encode ++ rest)).map _ = _
  rw [h, Option.map_some, String.ofList_toList]

theorem valueFrom_array {n : ℕ} {j : Json} {items : List Json} {s rest : Text} (hj : j.WellFormed)
    (hhead : valueFrom n (j.encode ++ s) = some (j, s)) (htail : itemsFrom n s = some (items, rest)) :
    valueFrom (n + 1) ('[' :: (j.encode ++ s)) = some (.array (j :: items), rest) := by
  obtain ⟨c, t, hc, hbracket, hskip⟩ := encode_head hj
  have hs : skipSpace (j.encode ++ s) = j.encode ++ s := by rw [hc, List.cons_append, hskip]
  change (match skipSpace (j.encode ++ s) with
    | ']' :: s => some (Json.array [], s)
    | s => (valueFrom n s).bind (fun p : Json × Text ↦
        (itemsFrom n p.2).map (fun q : List Json × Text ↦ (.array (p.1 :: q.1), q.2)))) = _
  rw [hs]
  split
  · next he =>
    rw [hc] at he
    cases he
    exact absurd rfl hbracket
  · rw [hhead, Option.bind_some, htail, Option.map_some]

theorem valueFrom_object {n : ℕ} {k : String} {j : Json} {fields : Fields} {s rest : Text}
    (hhead : valueFrom n (j.encode ++ s) = some (j, s)) (htail : fieldsFrom (n + 1) s = some (fields, rest)) :
    valueFrom (n + 2) ('{' :: (quoteString k ++ ':' :: (j.encode ++ s))) =
      some (.object ((k, j) :: fields), rest) := by
  change (fieldFrom (n + 1) (quoteString k ++ ':' :: (j.encode ++ s))).bind _ = _
  rw [fieldFrom_encode hhead, Option.bind_some, htail, Option.map_some]

theorem fieldsFrom_cons {n : ℕ} {k : String} {j : Json} {fields : Fields} {s rest : Text}
    (hhead : valueFrom n (j.encode ++ s) = some (j, s)) (htail : fieldsFrom (n + 1) s = some (fields, rest)) :
    fieldsFrom (n + 2) (',' :: (quoteString k ++ ':' :: (j.encode ++ s))) = some ((k, j) :: fields, rest) := by
  change (fieldFrom (n + 1) (quoteString k ++ ':' :: (j.encode ++ s))).bind _ = _
  rw [fieldFrom_encode hhead, Option.bind_some, htail, Option.map_some]

mutual

theorem valueFrom_encode : ∀ (j : Json) (n : ℕ) (rest : Text), j.WellFormed → j.encode.length ≤ n → Ends rest →
    valueFrom n (j.encode ++ rest) = some (j, rest)
  | .null, n + 1, rest, _, _, _ => rfl
  | .bool true, n + 1, rest, _, _, _ => rfl
  | .bool false, n + 1, rest, _, _, _ => rfl
  | .number text, n + 1, rest, hj, _, hrest => valueFrom_number hj hrest
  | .number text, 0, rest, hj, hn, _ => by
    obtain ⟨-, d, t, ht, -⟩ := isNumber_all hj
    rw [Json.encode, ht] at hn
    cases hn
  | .string s, n + 1, rest, _, _, _ => by
    change (stringFrom (s.toList.flatMap quoteChar ++ ['\"'] ++ rest)).map _ = _
    rw [stringFrom_quoteString, Option.map_some, String.ofList_toList]
  | .array [], n + 1, rest, _, _, _ => rfl
  | .array (j :: items), n + 1, rest, hj, hn, _ => by
    simp only [Json.encode, List.length_cons, List.length_append] at hn
    have hhead := valueFrom_encode j n (encodeItems items ++ rest) hj.1 (by omega) (ends_encodeItems items rest)
    have htail := itemsFrom_encode items n rest hj.2 (by omega)
    simp only [Json.encode, List.cons_append, List.append_assoc]
    exact valueFrom_array hj.1 hhead htail
  | .object [], n + 1, rest, _, _, _ => rfl
  | .object ((k, j) :: fields), 1, rest, hj, hn, _ => by
    simp only [Json.encode, List.length_cons, List.length_append] at hn
    omega
  | .object ((k, j) :: fields), n + 2, rest, hj, hn, _ => by
    have hk := length_quoteString k
    simp only [Json.encode, List.length_cons, List.length_append] at hn
    have hhead := valueFrom_encode j n (encodeFields fields ++ rest) hj.2.1 (by omega) (ends_encodeFields fields rest)
    have htail := fieldsFrom_encode fields (n + 1) rest hj.2.2 (by omega)
    simp only [Json.encode, List.cons_append, List.append_assoc]
    exact valueFrom_object hhead htail

theorem itemsFrom_encode : ∀ (items : List Json) (n : ℕ) (rest : Text), itemsWellFormed items →
    (encodeItems items).length ≤ n → itemsFrom n (encodeItems items ++ rest) = some (items, rest)
  | [], n + 1, rest, _, _ => rfl
  | j :: items, n + 1, rest, hj, hn => by
    simp only [encodeItems, List.length_cons, List.length_append] at hn
    have hhead := valueFrom_encode j n (encodeItems items ++ rest) hj.1 (by omega) (ends_encodeItems items rest)
    have htail := itemsFrom_encode items n rest hj.2 (by omega)
    change (valueFrom n (j.encode ++ encodeItems items ++ rest)).bind _ = _
    rw [List.append_assoc, hhead, Option.bind_some, htail]
    rfl

theorem fieldsFrom_encode : ∀ (fields : Fields) (n : ℕ) (rest : Text), fieldsWellFormed fields →
    (encodeFields fields).length ≤ n → fieldsFrom n (encodeFields fields ++ rest) = some (fields, rest)
  | [], n + 1, rest, _, _ => rfl
  | (k, j) :: fields, 1, rest, hj, hn => by
    simp only [encodeFields, List.length_cons, List.length_append] at hn
    omega
  | (k, j) :: fields, n + 2, rest, hj, hn => by
    have hk := length_quoteString k
    simp only [encodeFields, List.length_cons, List.length_append] at hn
    have hhead := valueFrom_encode j n (encodeFields fields ++ rest) hj.1 (by omega) (ends_encodeFields fields rest)
    have htail := fieldsFrom_encode fields (n + 1) rest hj.2 (by omega)
    simp only [encodeFields, List.cons_append, List.append_assoc]
    exact fieldsFrom_cons hhead htail

end

mutual

theorem Json.intoMaps_eq_self : ∀ j : Json, j.WellFormed → j.intoMaps = j
  | .null, _ | .bool _, _ | .number _, _ | .string _, _ => rfl
  | .array items, h => congrArg Json.array (itemsIntoMaps_eq_self items h)
  | .object fields, h => congrArg Json.object (fieldsIntoMaps_eq_self fields h.1 h.2)

theorem itemsIntoMaps_eq_self : ∀ items : List Json, itemsWellFormed items → itemsIntoMaps items = items
  | [], _ => rfl
  | j :: items, h => by rw [itemsIntoMaps, Json.intoMaps_eq_self j h.1, itemsIntoMaps_eq_self items h.2]

theorem fieldsIntoMaps_eq_self : ∀ fields : Fields, fields.Sorted → fieldsWellFormed fields →
    fieldsIntoMaps fields = fields
  | [], _, _ => rfl
  | (k, j) :: fields, hs, h => by
    obtain ⟨hk, hs⟩ := List.pairwise_cons.mp hs
    rw [fieldsIntoMaps, fieldsIntoMaps_eq_self fields hs h.2, Fields.get_eq_none hk, Json.intoMaps_eq_self j h.1]
    exact Fields.set_eq_cons hk

end

theorem Json.decode_encode {j : Json} (h : j.WellFormed) : Json.decode j.encode = some j := by
  have hvalue := valueFrom_encode j (j.encode.length + 1) [] h (Nat.le_succ _) nofun
  have hspace : skipSpace [] = [] := rfl
  rw [List.append_nil] at hvalue
  simp only [Json.decode, hvalue, Option.bind_some, hspace, if_true, Json.intoMaps_eq_self j h]

/-- What the encoder writes for the float64 that the decoder reads a number as; `none` when it is out of
range. -/
structure Float64Format where
  reread : String → Option String
  isNumber {n m : String} : reread n = some m → isNumber m.toList = true

mutual

/-- The value as an `interface{}` holds it, whose numbers are all float64. -/
def Json.reread (F : Float64Format) : Json → Option Json
  | .number text => (F.reread text).map .number
  | .array items => (rereadItems F items).map .array
  | .object fields => (rereadFields F fields).map .object
  | j => some j

def rereadItems (F : Float64Format) : List Json → Option (List Json)
  | [] => some []
  | j :: items => (j.reread F).bind (fun j ↦ (rereadItems F items).map (j :: ·))

def rereadFields (F : Float64Format) : Fields → Option Fields
  | [] => some []
  | (k, j) :: fields => (j.reread F).bind (fun j ↦ (rereadFields F fields).map ((k, j) :: ·))

end

variable {F : Float64Format}

theorem rereadFields_keys {fields fields' : Fields} (h : rereadFields F fields = some fields') :
    fields'.map Prod.fst = fields.map Prod.fst := by
  induction fields generalizing fields' with
  | nil =>
    cases h
    rfl
  | cons f fields ih =>
    obtain ⟨j, -, hj⟩ := Option.bind_eq_some_iff.mp h
    obtain ⟨rest, hrest, rfl⟩ := Option.map_eq_some_iff.mp hj
    rw [List.map_cons, List.map_cons, ih hrest]

theorem Fields.Sorted.of_keys {fields fields' : Fields} (h : fields.Sorted)
    (hk : fields'.map Prod.fst = fields.map Prod.fst) : fields'.Sorted := by
  have hmap := List.pairwise_map.mpr h
  rw [← hk] at hmap
  exact List.pairwise_map.mp hmap

mutual

theorem Json.WellFormed.reread : ∀ {j j' : Json}, j.WellFormed → j.reread F = some j' → j'.WellFormed
  | .null, _, _, h | .bool _, _, _, h | .string _, _, _, h => by
    cases h
    trivial
  | .number text, j', _, h => by
    obtain ⟨m, hm, rfl⟩ := Option.map_eq_some_iff.mp h
    exact F.isNumber hm
  | .array items, j', hj, h => by
    obtain ⟨items', hitems, rfl⟩ := Option.map_eq_some_iff.mp h
    exact itemsWellFormed_reread hj hitems
  | .object fields, j', hj, h => by
    obtain ⟨fields', hfields, rfl⟩ := Option.map_eq_some_iff.mp h
    exact ⟨hj.1.of_keys (rereadFields_keys hfields), fieldsWellFormed_reread hj.2 hfields⟩

theorem itemsWellFormed_reread : ∀ {items items' : List Json}, itemsWellFormed items →
    rereadItems F items = some items' → itemsWellFormed items'
  | [], _, _, h => by
    cases h
    trivial
  | j :: items, items', hj, h => by
    obtain ⟨j', hj', h⟩ := Option.bind_eq_some_iff.mp h
    obtain ⟨rest, hrest, rfl⟩ := Option.map_eq_some_iff.mp h
    exact ⟨hj.1.reread hj', itemsWellFormed_reread hj.2 hrest⟩

theorem fieldsWellFormed_reread : ∀ {fields fields' : Fields}, fieldsWellFormed fields →
    rereadFields F fields = some fields' → fieldsWellFormed fields'
  | [], _, _, h => by
    cases h
    trivial
  | (k, j) :: fields, fields', hj, h => by
    obtain ⟨j', hj', h⟩ := Option.bind_eq_some_iff.mp h
    obtain ⟨rest, hrest, rfl⟩ := Option.map_eq_some_iff.mp h
    exact ⟨hj.1.reread hj', fieldsWellFormed_reread hj.2 hrest⟩

end

/-- `json.Unmarshal` into a `map[string]interface{}`, where `null` leaves the map nil. -/
def Json.unmarshalMap (F : Float64Format) (s : Text) : Option Json :=
  match (Json.decode s).bind (Json.reread F) with
  | some .null => some .null
  | some (.object fields) => some (.object fields)
  | _ => none

theorem Fields.get_mem {k : String} {j : Json} {fields : Fields} (h : fields.get k = some j) :
    (k, j) ∈ fields := by
  induction fields with
  | nil => cases h
  | cons f fields ih =>
    unfold Fields.get at h
    split at h
    · next hk =>
      cases h
      rw [← hk]
      exact List.mem_cons_self
    · exact List.mem_cons_of_mem f (ih h)

theorem fieldsWellFormed_mem {fields : Fields} (h : fieldsWellFormed fields) {f : String × Json}
    (hf : f ∈ fields) : f.2.WellFormed := by
  induction fields with
  | nil => cases hf
  | cons g fields ih =>
    obtain rfl | hf := List.mem_cons.mp hf
    · exact h.1
    · exact ih h.2 hf

theorem Json.WellFormed.nested {j : Json} (h : j.WellFormed) {path : List String} {t : Json}
    (ht : j.nested path = some t) : t.WellFormed := by
  induction path generalizing j with
  | nil =>
    cases ht
    exact h
  | cons k path ih =>
    obtain ⟨m, hm, ht⟩ := Option.bind_eq_some_iff.mp ht
    refine ih ?_ ht
    cases j with
    | object fields => exact fieldsWellFormed_mem h.2 (Fields.get_mem hm)
    | _ => cases hm

end KubeCenter.Core
