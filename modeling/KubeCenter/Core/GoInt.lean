import Mathlib.Algebra.Group.Nat.Defs
import Mathlib.Algebra.Ring.Int.Defs
import Mathlib.Data.Int.Notation
import Mathlib.Data.List.Basic
import KubeCenter.Core.GoBytes

namespace KubeCenter.Core

/-! `strconv.FormatInt` and `strconv.ParseInt` in base ten, on 64 bits. -/

def minus : UInt8 := 45
def plus : UInt8 := 43

def decimalDigits : ℕ → ℕ → Bytes
  | 0, _ => []
  | fuel + 1, n => (if n < 10 then [] else decimalDigits fuel (n / 10)) ++ [UInt8.ofNat (48 + n % 10)]

/-- Every digit takes one off the number, so the fuel is the number. -/
def decimal (n : ℕ) : Bytes := decimalDigits (n + 1) n

def formatInt (t : ℤ) : Bytes := if t < 0 then minus :: decimal t.natAbs else decimal t.natAbs

def isDigit (c : UInt8) : Bool := 48 ≤ c.toNat && c.toNat ≤ 57

def decimalValue (s : Bytes) : ℕ := s.foldl (fun v c ↦ v * 10 + (c.toNat - 48)) 0

def parseUint (s : Bytes) : Option ℕ := if s ≠ [] ∧ s.all isDigit = true then some (decimalValue s) else none

def parseInt (s : Bytes) : Option ℤ :=
  let (negative, digits) :=
    if s.head? = some minus then (true, s.tail) else if s.head? = some plus then (false, s.tail) else (false, s)
  (parseUint digits).bind (fun n ↦
    if negative then if n ≤ 2 ^ 63 then some (-(n : ℤ)) else none
    else if n < 2 ^ 63 then some (n : ℤ) else none)

theorem toNat_digit (n : ℕ) : (UInt8.ofNat (48 + n % 10)).toNat = 48 + n % 10 :=
  UInt8.toNat_ofNat_of_lt' (show 48 + n % 10 < 256 by omega)

theorem decimalDigits_isDigit (fuel n : ℕ) : ∀ c ∈ decimalDigits fuel n, isDigit c = true := by
  induction fuel generalizing n with
  | zero => simp [decimalDigits]
  | succ fuel ih =>
    intro c hc
    rw [decimalDigits] at hc
    rcases List.mem_append.mp hc with hc | hc
    · split at hc
      · exact absurd hc List.not_mem_nil
      · exact ih (n / 10) c hc
    · rw [List.mem_singleton.mp hc, isDigit, toNat_digit]
      simp
      omega

theorem decimalValue_append (s : Bytes) (c : UInt8) :
    decimalValue (s ++ [c]) = decimalValue s * 10 + (c.toNat - 48) := by
  rw [decimalValue, List.foldl_append]
  rfl

theorem decimalValue_decimalDigits {fuel n : ℕ} (h : n < fuel) : decimalValue (decimalDigits fuel n) = n := by
  induction fuel generalizing n with
  | zero => omega
  | succ fuel ih =>
    rw [decimalDigits, decimalValue_append, toNat_digit]
    split
    · rw [decimalValue, List.foldl_nil]
      omega
    · rw [ih (by omega)]
      omega

theorem decimal_ne_nil (n : ℕ) : decimal n ≠ [] := by
  rw [decimal, decimalDigits]
  simp

theorem parseUint_decimal (n : ℕ) : parseUint (decimal n) = some n := by
  rw [parseUint, if_pos ⟨decimal_ne_nil n, List.all_eq_true.mpr (decimalDigits_isDigit _ n)⟩, decimal,
    decimalValue_decimalDigits (by omega)]

theorem decimal_injective {n m : ℕ} (h : decimal n = decimal m) : n = m := by
  have hparse := congrArg parseUint h
  rw [parseUint_decimal, parseUint_decimal] at hparse
  exact Option.some.inj hparse

theorem head?_decimal (n : ℕ) : (decimal n).head? ≠ some minus ∧ (decimal n).head? ≠ some plus := by
  have hdigit : ∀ c, (decimal n).head? = some c → isDigit c = true := fun c hc ↦
    decimalDigits_isDigit _ n c (List.mem_of_mem_head? hc)
  exact ⟨fun h ↦ absurd (hdigit _ h) (by decide), fun h ↦ absurd (hdigit _ h) (by decide)⟩

theorem parseInt_formatInt {t : ℤ} (hlow : -2 ^ 63 ≤ t) (hhigh : t < 2 ^ 63) : parseInt (formatInt t) = some t := by
  rw [formatInt]
  split
  · simp only [parseInt, List.head?_cons, if_true, List.tail_cons, parseUint_decimal, Option.bind_some]
    rw [if_pos (by omega)]
    congr 1
    omega
  · obtain ⟨hminus, hplus⟩ := head?_decimal t.natAbs
    simp only [parseInt, if_neg hminus, if_neg hplus, parseUint_decimal, Option.bind_some, Bool.false_eq_true, if_false]
    rw [if_pos (by omega)]
    congr 1
    omega

/-- `strconv.Itoa` -/
def itoa (t : ℤ) : String := String.ofList ((formatInt t).map fun c ↦ Char.ofNat c.toNat)

def asciiBytes (s : String) : Bytes := s.toList.map fun c ↦ UInt8.ofNat c.toNat

theorem asciiBytes_itoa (t : ℤ) : asciiBytes (itoa t) = formatInt t := by
  have hbyte (c : UInt8) : UInt8.ofNat (Char.ofNat c.toNat).toNat = c := by rw [toNat_latin1, UInt8.ofNat_toNat]
  unfold asciiBytes itoa
  rw [String.toList_ofList, List.map_map]
  exact List.map_id'' hbyte (formatInt t)

theorem formatInt_colon (t : ℤ) : (58 : UInt8) ∉ formatInt t := by
  have hdecimal : (58 : UInt8) ∉ decimal t.natAbs := fun h ↦ absurd (decimalDigits_isDigit _ _ _ h) (by decide)
  rw [formatInt]
  split
  · simpa [minus] using hdecimal
  · exact hdecimal

end KubeCenter.Core

namespace KubeCenter.Core

/-! `time.ParseDuration`, in nanoseconds. A fraction is taken exactly where Go goes through a
`float64`. -/

def durationUnit : List Char → Option ℕ
  | ['n', 's'] => some 1
  | ['u', 's'] | ['µ', 's'] | ['μ', 's'] => some 1000
  | ['m', 's'] => some 1000000
  | ['s'] => some 1000000000
  | ['m'] => some 60000000000
  | ['h'] => some 3600000000000
  | _ => none

def digitsValue (digits : List Char) : ℕ := digits.foldl (fun v c ↦ v * 10 + (c.toNat - '0'.toNat)) 0

/-- One number with its unit, and what follows it. -/
def durationTerm (cs : List Char) : Option (ℕ × List Char) :=
  let (whole, cs) := cs.span Char.isDigit
  let (fraction, cs) :=
    match cs with
    | '.' :: cs => cs.span Char.isDigit
    | cs => ([], cs)
  if whole.isEmpty && fraction.isEmpty then none
  else
    let (unit, cs) := cs.span (fun c ↦ !(c == '.' || c.isDigit))
    match durationUnit unit with
    | none => none
    | some unit =>
      let v := digitsValue whole * unit + digitsValue fraction * unit / 10 ^ fraction.length
      if 2 ^ 63 < v then none else some (v, cs)

/-- The sum of the terms; every term takes a character, so the fuel is the length. -/
def durationTerms : ℕ → ℕ → List Char → Option ℕ
  | _, d, [] => some d
  | 0, _, _ => none
  | fuel + 1, d, cs =>
    match durationTerm cs with
    | none => none
    | some (v, cs) => if 2 ^ 63 < d + v then none else durationTerms fuel (d + v) cs

def parseDuration (s : String) : Option ℤ :=
  let (negative, cs) :=
    match s.toList with
    | '-' :: cs => (true, cs)
    | '+' :: cs => (false, cs)
    | cs => (false, cs)
  match cs with
  | [] => none
  | ['0'] => some 0
  | cs =>
    match durationTerms cs.length 0 cs with
    | none => none
    | some d => if negative then some (-(d : ℤ)) else if 2 ^ 63 ≤ d then none else some d

/-- The `time.Duration` that a product comes to on 64 bits. -/
def toDuration (d : ℤ) : ℤ := d.bmod (2 ^ 64)

/-- `time.Time.Sub`: a difference that does not fit is cut off at the greatest or the least `time.Duration`. -/
def timeSub (t u : ℤ) : ℤ := max (-2 ^ 63) (min (t - u) (2 ^ 63 - 1))

example : parseDuration "1h30m" = some 5400000000000 := by decide

example : parseDuration "1.5h" = some 5400000000000 ∧ parseDuration "1d" = none := by decide

end KubeCenter.Core
