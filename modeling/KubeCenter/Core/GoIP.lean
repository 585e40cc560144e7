import Mathlib.Algebra.Order.Group.Nat
import Mathlib.Data.List.Basic
import KubeCenter.Core.GoString

/-! Addresses as `net.IP` keeps them, and their text. -/

namespace KubeCenter.Core.Net

/-- An address as `net.IP` keeps it: 4 or 16 bytes. -/
abbrev IP := Bytes

def v4InV6Prefix : Bytes := [0, 0, 0, 0, 0, 0, 0, 0, 0, 0, 255, 255]

/-- `IP.To4`. -/
def to4 (ip : IP) : Option Bytes :=
  if ip.length = 4 then some ip
  else if ip.length = 16 ∧ ip.take 12 = v4InV6Prefix then some (ip.drop 12)
  else none

/-- `IP.To16`, for an address. -/
def to16 (ip : IP) : IP := if ip.length = 4 then v4InV6Prefix ++ ip else ip

/-! Text of an address. -/

def digit (n : ℕ) : Char := Char.ofNat (if n < 10 then 48 + n else 87 + n)

/-- `netip.appendDecimal`. -/
def appendDecimal (x : ℕ) : Text :=
  (if 100 ≤ x then [digit (x / 100)] else []) ++ ((if 10 ≤ x then [digit (x / 10 % 10)] else []) ++ [digit (x % 10)])

/-- `netip.appendHex`. -/
def appendHex (x : ℕ) : Text :=
  (if 0x1000 ≤ x then [digit (x / 0x1000)] else []) ++ ((if 0x100 ≤ x then [digit (x / 0x100 % 16)] else []) ++
    ((if 0x10 ≤ x then [digit (x / 0x10 % 16)] else []) ++ [digit (x % 16)]))

def string4 (b : Bytes) : Text := ['.'].intercalate (b.map (fun x ↦ appendDecimal x.toNat))

/-- The 16-bit fields of an address. -/
def fields : Bytes → List ℕ
  | a :: b :: rest => (a.toNat * 256 + b.toNat) :: fields rest
  | _ => []

/-- The first longest run of at least two zero fields: where it starts and how long it is. -/
def longestRun : ℕ → List ℕ → ℕ × ℕ → ℕ × ℕ
  | _, [], best => best
  | i, x :: xs, best =>
    let l := ((x :: xs).takeWhile (· = 0)).length
    longestRun (i + 1) xs (if 2 ≤ l ∧ best.2 < l then (i, l) else best)

def joined (xs : List ℕ) : Text := [':'].intercalate (xs.map appendHex)

/-- `netip.Addr.appendTo6`. -/
def string6 (b : Bytes) : Text :=
  let xs := fields b
  let (start, l) := longestRun 0 xs (0, 0)
  if l = 0 then joined xs else joined (xs.take start) ++ ':' :: ':' :: joined (xs.drop (start + l))

/-- `IP.String`, for an address. -/
def string (ip : IP) : Text :=
  match to4 ip with
  | some b => string4 b
  | none => string6 ip

/-! Parsing an address. -/

def hexValue (c : Char) : Option ℕ :=
  if 48 ≤ c.toNat ∧ c.toNat ≤ 57 then some (c.toNat - 48)
  else if 97 ≤ c.toNat ∧ c.toNat ≤ 102 then some (c.toNat - 87)
  else if 65 ≤ c.toNat ∧ c.toNat ≤ 70 then some (c.toNat - 55)
  else none

/-- The loop of `netip.parseIPv4Fields`, from the value and the number of digits of the current field on. -/
def ipv4Fields : ℕ → ℕ → Bytes → Text → Option Bytes
  | val, _, done, [] => if done.length < 3 then none else some (done ++ [UInt8.ofNat val])
  | val, digLen, done, c :: s =>
    if 48 ≤ c.toNat ∧ c.toNat ≤ 57 then
      if digLen = 1 ∧ val = 0 then none
      else if 255 < val * 10 + (c.toNat - 48) then none
      else ipv4Fields (val * 10 + (c.toNat - 48)) (digLen + 1) done s
    else if c = '.' then
      if digLen = 0 ∨ s = [] then none
      else if done.length = 3 then none
      else ipv4Fields 0 0 (done ++ [UInt8.ofNat val]) s
    else none

def parseIPv4Fields (s : Text) : Option Bytes := ipv4Fields 0 0 [] s

/-- The hex number at the head of a text: how many digits it has, its value and what follows. -/
def leadingHex : ℕ → ℕ → Text → Option (ℕ × ℕ × Text)
  | off, acc, [] => some (off, acc, [])
  | off, acc, c :: s =>
    match hexValue c with
    | none => some (off, acc, c :: s)
    | some d => if 3 < off then none else if 0xFFFF < acc * 16 + d then none else leadingHex (off + 1) (acc * 16 + d) s

def be16 (x : ℕ) : Bytes := [UInt8.ofNat (x / 256), UInt8.ofNat (x % 256)]

/-- The loop of `netip.parseIPv6`: `room` is how many more 16-bit chunks fit, `ellipsis` where a `::` was. -/
def parseGroups : ℕ → Bytes → Option ℕ → Text → Option (Bytes × Option ℕ × Text)
  | 0, ip, ellipsis, s => some (ip, ellipsis, s)
  | room + 1, ip, ellipsis, s =>
    match leadingHex 0 0 s with
    | none => none
    | some (off, acc, rest) =>
      if off = 0 then none
      else
        match rest with
        | [] => some (ip ++ be16 acc, ellipsis, [])
        | '.' :: _ =>
          -- the last four bytes may be in dotted form
          if ellipsis = none ∧ ip.length ≠ 12 then none
          else if 16 < ip.length + 4 then none
          else (parseIPv4Fields s).map (fun b ↦ (ip ++ b, ellipsis, []))
        | [':'] => none
        | ':' :: ':' :: rest =>
          if ellipsis.isSome then none
          else if rest = [] then some (ip ++ be16 acc, some (ip.length + 2), [])
          else parseGroups room (ip ++ be16 acc) (some (ip.length + 2)) rest
        | ':' :: rest => parseGroups room (ip ++ be16 acc) ellipsis rest
        | _ => none

/-- What is left of `netip.parseIPv6` after the loop. -/
def expand : Bytes × Option ℕ × Text → Option Bytes
  | (ip, ellipsis, s) =>
    if s ≠ [] then none
    else if ip.length < 16 then
      ellipsis.map (fun at' ↦ ip.take at' ++ List.replicate (16 - ip.length) 0 ++ ip.drop at')
    else if ellipsis.isSome then none
    else some ip

def parseIPv6 : Text → Option Bytes
  | [':', ':'] => some (List.replicate 16 0)
  | ':' :: ':' :: s => (parseGroups 8 [] (some 0) s).bind expand
  | s => (parseGroups 8 [] none s).bind expand

/-- `netip.ParseAddr`: an address of 4 or 16 bytes, and its zone. -/
def parseAddr (s : Text) : Option (Bytes × Text) :=
  match s.find? (fun c ↦ c = '.' ∨ c = ':' ∨ c = '%') with
  | some '.' => (parseIPv4Fields s).map (fun b ↦ (b, []))
  | some ':' =>
    match cut '%' s with
    | none => (parseIPv6 s).map (fun b ↦ (b, []))
    | some (_, []) => none
    | some (s, zone) => (parseIPv6 s).map (fun b ↦ (b, zone))
  | _ => none

/-- `net.ParseIP`. -/
def parseIP (s : Text) : Option IP :=
  match parseAddr s with
  | some (b, []) => some (to16 b)
  | _ => none

example : parseIP "10.1.2.3".toList = some (v4InV6Prefix ++ [10, 1, 2, 3]) := by decide

example : string (to16 [10, 1, 2, 3]) = "10.1.2.3".toList := by decide

example : parseIP "2001:db8::42".toList = some [0x20, 1, 0x0d, 0xb8, 0, 0, 0, 0, 0, 0, 0, 0, 0, 0, 0, 0x42] := by
  decide

theorem digit_toNat {n : ℕ} (h : n < 16) : (digit n).toNat = if n < 10 then 48 + n else 87 + n := by
  revert n
  decide

theorem hexValue_digit {n : ℕ} (h : n < 16) : hexValue (digit n) = some n := by
  revert n
  decide

/-! The dotted form is read back. -/

theorem ipv4Fields_digit {d val digLen : ℕ} {done : Bytes} {s : Text} (hd : d < 10) (hzero : digLen = 1 → val ≠ 0)
    (hle : val * 10 + d ≤ 255) :
    ipv4Fields val digLen done (digit d :: s) = ipv4Fields (val * 10 + d) (digLen + 1) done s := by
  have hnat : (digit d).toNat = 48 + d := by rw [digit_toNat (by omega), if_pos hd]
  rw [ipv4Fields, hnat, if_pos (by omega), if_neg (fun h ↦ hzero h.1 h.2), Nat.add_sub_cancel_left, if_neg (by omega)]

theorem ipv4Fields_decimal {x : ℕ} (hx : x ≤ 255) (done : Bytes) (s : Text) :
    ∃ digLen, digLen ≠ 0 ∧ ipv4Fields 0 0 done (appendDecimal x ++ s) = ipv4Fields x digLen done s := by
  unfold appendDecimal
  by_cases h100 : 100 ≤ x
  · refine ⟨3, by omega, ?_⟩
    rw [if_pos h100, if_pos (show 10 ≤ x by omega)]
    simp only [List.cons_append, List.nil_append]
    rw [ipv4Fields_digit (by omega) (by omega) (by omega), ipv4Fields_digit (by omega) (by omega) (by omega),
      ipv4Fields_digit (by omega) (by omega) (by omega)]
    congr 1
    omega
  · rw [if_neg h100]
    by_cases h10 : 10 ≤ x
    · refine ⟨2, by omega, ?_⟩
      rw [if_pos h10]
      simp only [List.cons_append, List.nil_append]
      rw [ipv4Fields_digit (by omega) (by omega) (by omega), ipv4Fields_digit (by omega) (by omega) (by omega)]
      congr 1
      omega
    · refine ⟨1, by omega, ?_⟩
      rw [if_neg h10]
      simp only [List.cons_append, List.nil_append]
      rw [ipv4Fields_digit (by omega) (by omega) (by omega)]
      congr 1
      omega

theorem ipv4Fields_dot {val digLen : ℕ} {done : Bytes} {s : Text} (hdig : digLen ≠ 0) (hs : s ≠ [])
    (hdone : done.length ≠ 3) :
    ipv4Fields val digLen done ('.' :: s) = ipv4Fields 0 0 (done ++ [UInt8.ofNat val]) s := by
  rw [ipv4Fields, if_neg (by decide), if_pos rfl, if_neg (by simp [hdig, hs]), if_neg hdone]

theorem appendDecimal_ne_nil (x : ℕ) : appendDecimal x ≠ [] := by simp [appendDecimal]

theorem parseIPv4Fields_string4 {b : Bytes} (h : b.length = 4) : parseIPv4Fields (string4 b) = some b := by
  obtain ⟨a, b, c, d, rfl⟩ := List.length_eq_four.mp h
  have hlt : ∀ x : UInt8, x.toNat ≤ 255 := fun x ↦ by have := x.toNat_lt; omega
  have field : ∀ (x : UInt8) (done : Bytes) (s : Text), s ≠ [] → done.length ≠ 3 →
      ipv4Fields 0 0 done (appendDecimal x.toNat ++ '.' :: s) = ipv4Fields 0 0 (done ++ [x]) s := by
    intro x done s hs hdone
    obtain ⟨digLen, hdig, hread⟩ := ipv4Fields_decimal (hlt x) done ('.' :: s)
    rw [hread, ipv4Fields_dot hdig hs hdone, UInt8.ofNat_toNat]
  have htext : string4 [a, b, c, d] = appendDecimal a.toNat ++ '.' :: (appendDecimal b.toNat ++ '.' ::
      (appendDecimal c.toNat ++ '.' :: (appendDecimal d.toNat ++ []))) := by
    simp [string4, List.intercalate]
  obtain ⟨digLen, -, hlast⟩ := ipv4Fields_decimal (hlt d) [a, b, c] []
  rw [parseIPv4Fields, htext, field a [] _ (by simp) (by simp), field b _ _ (by simp) (by simp),
    field c _ _ (by simp [appendDecimal_ne_nil]) (by simp)]
  simp only [List.nil_append, List.cons_append]
  rw [hlast, ipv4Fields]
  simp

/-! The colon form is read back. -/

theorem leadingHex_digit {d off acc : ℕ} {s : Text} (hd : d < 16) (hoff : off ≤ 3) (hle : acc * 16 + d ≤ 0xFFFF) :
    leadingHex off acc (digit d :: s) = leadingHex (off + 1) (acc * 16 + d) s := by
  rw [leadingHex, hexValue_digit hd]
  dsimp only
  rw [if_neg (by omega), if_neg (by omega)]

/-- A text that starts with no hex digit. -/
def Stops (s : Text) : Prop := ∀ c ∈ s.head?, hexValue c = none

theorem leadingHex_stop {off acc : ℕ} {s : Text} (h : Stops s) : leadingHex off acc s = some (off, acc, s) := by
  cases s with
  | nil => rfl
  | cons c s => rw [leadingHex, h c rfl]

theorem leadingHex_appendHex {x : ℕ} (hx : x < 65536) {s : Text} (h : Stops s) :
    ∃ off, off ≠ 0 ∧ leadingHex 0 0 (appendHex x ++ s) = some (off, x, s) := by
  unfold appendHex
  by_cases h3 : 0x1000 ≤ x
  · refine ⟨4, by omega, ?_⟩
    rw [if_pos h3, if_pos (show 0x100 ≤ x by omega), if_pos (show 0x10 ≤ x by omega)]
    simp only [List.cons_append, List.nil_append]
    rw [leadingHex_digit (by omega) (by omega) (by omega), leadingHex_digit (by omega) (by omega) (by omega),
      leadingHex_digit (by omega) (by omega) (by omega), leadingHex_digit (by omega) (by omega) (by omega), leadingHex_stop h]
    congr 3
    omega
  rw [if_neg h3]
  by_cases h2 : 0x100 ≤ x
  · refine ⟨3, by omega, ?_⟩
    rw [if_pos h2, if_pos (show 0x10 ≤ x by omega)]
    simp only [List.cons_append, List.nil_append]
    rw [leadingHex_digit (by omega) (by omega) (by omega), leadingHex_digit (by omega) (by omega) (by omega),
      leadingHex_digit (by omega) (by omega) (by omega), leadingHex_stop h]
    congr 3
    omega
  rw [if_neg h2]
  by_cases h1 : 0x10 ≤ x
  · refine ⟨2, by omega, ?_⟩
    rw [if_pos h1]
    simp only [List.cons_append, List.nil_append]
    rw [leadingHex_digit (by omega) (by omega) (by omega), leadingHex_digit (by omega) (by omega) (by omega), leadingHex_stop h]
    congr 3
    omega
  · refine ⟨1, by omega, ?_⟩
    rw [if_neg h1]
    simp only [List.cons_append, List.nil_append]
    rw [leadingHex_digit (by omega) (by omega) (by omega), leadingHex_stop h]
    congr 3
    omega


theorem appendHex_cons {x : ℕ} (hx : x < 65536) : ∃ c t, appendHex x = c :: t ∧ hexValue c ≠ none := by
  have first : ∀ d < 16, hexValue (digit d) ≠ none := fun d hd ↦ by rw [hexValue_digit hd]; exact Option.some_ne_none d
  unfold appendHex
  split
  · exact ⟨_, _, rfl, first _ (by omega)⟩
  split
  · exact ⟨_, _, rfl, first _ (by omega)⟩
  split
  · exact ⟨_, _, rfl, first _ (by omega)⟩
  · exact ⟨_, _, rfl, first _ (by omega)⟩

def bytesOf (xs : List ℕ) : Bytes := xs.flatMap be16

variable {room x : ℕ} {xs : List ℕ} {ip : Bytes} {ellipsis : Option ℕ} {s : Text}

theorem stops_colon (s : Text) : Stops (':' :: s) := by
  intro c hc
  cases hc
  decide

theorem stops_nil : Stops [] := fun c hc ↦ by cases hc

/-! One field, and what may follow it. -/

theorem parseGroups_last (hx : x < 65536) :
    parseGroups (room + 1) ip ellipsis (appendHex x) = some (ip ++ be16 x, ellipsis, []) := by
  obtain ⟨off, hoff, hread⟩ := leadingHex_appendHex hx stops_nil
  rw [List.append_nil] at hread
  rw [parseGroups, hread]
  dsimp only
  rw [if_neg hoff]

theorem parseGroups_next (hx : x < 65536) {c : Char} (hc : c ≠ ':') : parseGroups (room + 1) ip ellipsis (appendHex x ++ ':' :: c :: s) =
    parseGroups room (ip ++ be16 x) ellipsis (c :: s) := by
  obtain ⟨off, hoff, hread⟩ := leadingHex_appendHex hx (stops_colon (c :: s))
  rw [parseGroups, hread]
  dsimp only
  rw [if_neg hoff]
  split
  · next heq => cases heq
  · next heq => cases heq
  · next heq => cases heq
  · next heq => cases heq; exact absurd rfl hc
  · next heq => cases heq; rfl
  · next hnot => exact absurd rfl (hnot _)

theorem parseGroups_ellipsis (hx : x < 65536) : parseGroups (room + 1) ip none (appendHex x ++ ':' :: ':' :: s) =
    if s = [] then some (ip ++ be16 x, some (ip.length + 2), [])
    else parseGroups room (ip ++ be16 x) (some (ip.length + 2)) s := by
  obtain ⟨off, hoff, hread⟩ := leadingHex_appendHex hx (stops_colon (':' :: s))
  rw [parseGroups, hread]
  dsimp only
  rw [if_neg hoff]
  rfl

theorem joined_cons (x : ℕ) (xs : List ℕ) :
    joined (x :: xs) = appendHex x ++ xs.flatMap (fun y ↦ ':' :: appendHex y) := by
  rw [joined, List.map_cons, intercalate_singleton_cons, List.flatMap_map]

theorem joined_cons_cons (x y : ℕ) (xs : List ℕ) : joined (x :: y :: xs) = appendHex x ++ ':' :: joined (y :: xs) := by
  rw [joined_cons, joined_cons, List.flatMap_cons, List.cons_append]

/-! A sequence of fields, and what may follow it. -/

theorem parseGroups_joined (hxs : xs ≠ []) (hlt : ∀ x ∈ xs, x < 65536) (hroom : xs.length ≤ room) :
    parseGroups room ip ellipsis (joined xs) = some (ip ++ bytesOf xs, ellipsis, []) := by
  induction xs generalizing room ip with
  | nil => exact absurd rfl hxs
  | cons x xs ih =>
    have hx := hlt x List.mem_cons_self
    obtain ⟨room, rfl⟩ := Nat.exists_eq_add_of_le' (Nat.le_trans (Nat.succ_pos xs.length) hroom)
    cases xs with
    | nil =>
      have hlast : parseGroups (room + 1) ip ellipsis (appendHex x) = _ := parseGroups_last hx
      simpa [joined_cons, bytesOf] using hlast
    | cons y ys =>
      obtain ⟨c, t, htext, hc⟩ := appendHex_cons (hlt y (by simp))
      have hcolon : c ≠ ':' := fun h ↦ hc (h ▸ by decide)
      have hrest : parseGroups room (ip ++ be16 x) ellipsis (joined (y :: ys)) = _ :=
        ih (by simp) (fun z hz ↦ hlt z (List.mem_cons_of_mem x hz)) (by simpa using hroom)
      rw [joined_cons_cons]
      rw [joined_cons, htext, List.cons_append] at hrest ⊢
      rw [parseGroups_next hx hcolon, hrest]
      simp [bytesOf]

theorem parseGroups_joined_ellipsis (hxs : xs ≠ []) (hlt : ∀ x ∈ xs, x < 65536) (hroom : xs.length ≤ room) :
    parseGroups room ip none (joined xs ++ ':' :: ':' :: s) =
      if s = [] then some (ip ++ bytesOf xs, some (ip.length + 2 * xs.length), [])
      else parseGroups (room - xs.length) (ip ++ bytesOf xs) (some (ip.length + 2 * xs.length)) s := by
  induction xs generalizing room ip with
  | nil => exact absurd rfl hxs
  | cons x xs ih =>
    have hx := hlt x List.mem_cons_self
    obtain ⟨room, rfl⟩ := Nat.exists_eq_add_of_le' (Nat.le_trans (Nat.succ_pos xs.length) hroom)
    cases xs with
    | nil =>
      rw [joined_cons]
      have hdots : parseGroups (room + 1) ip none (appendHex x ++ ':' :: ':' :: s) = _ := parseGroups_ellipsis hx
      simpa [bytesOf] using hdots
    | cons y ys =>
      obtain ⟨c, t, htext, hc⟩ := appendHex_cons (hlt y (by simp))
      have hcolon : c ≠ ':' := fun h ↦ hc (h ▸ by decide)
      have hrest : parseGroups room (ip ++ be16 x) none (joined (y :: ys) ++ ':' :: ':' :: s) = _ :=
        ih (by simp) (fun z hz ↦ hlt z (List.mem_cons_of_mem x hz)) (by simpa using hroom)
      have hlen : (ip ++ be16 x).length + 2 * (y :: ys).length = ip.length + 2 * (x :: y :: ys).length := by
        simp [be16]
        omega
      rw [hlen] at hrest
      rw [joined_cons_cons, List.append_assoc, List.cons_append]
      rw [joined_cons, htext, List.cons_append, List.cons_append] at hrest ⊢
      rw [parseGroups_next hx hcolon, hrest]
      simp [bytesOf]

/-! The fields of an address. -/

theorem be16_field (a b : UInt8) : be16 (a.toNat * 256 + b.toNat) = [a, b] := by
  have ha := a.toNat_lt
  have hb := b.toNat_lt
  have hdiv : (a.toNat * 256 + b.toNat) / 256 = a.toNat := by omega
  have hmod : (a.toNat * 256 + b.toNat) % 256 = b.toNat := by omega
  rw [be16, hdiv, hmod, UInt8.ofNat_toNat, UInt8.ofNat_toNat]

theorem fields_spec {b : Bytes} {n : ℕ} (h : b.length = 2 * n) :
    (fields b).length = n ∧ bytesOf (fields b) = b ∧ ∀ x ∈ fields b, x < 65536 := by
  induction n generalizing b with
  | zero =>
    obtain rfl := List.length_eq_zero_iff.mp h
    exact ⟨rfl, rfl, fun x hx ↦ by cases hx⟩
  | succ n ih =>
    match b, h with
    | a :: b :: rest, h =>
      obtain ⟨hlen, hbytes, hlt⟩ := ih (b := rest) (by simp at h; omega)
      refine ⟨by rw [fields, List.length_cons, hlen], ?_, ?_⟩
      · rw [fields, bytesOf, List.flatMap_cons, be16_field]
        exact congrArg (a :: b :: ·) hbytes
      · intro x hx
        rcases List.mem_cons.mp hx with rfl | hx
        · have ha := a.toNat_lt
          have hb := b.toNat_lt
          omega
        · exact hlt x hx

theorem bytesOf_length (xs : List ℕ) : (bytesOf xs).length = 2 * xs.length := by
  induction xs with
  | nil => rfl
  | cons x xs ih =>
    rw [bytesOf, List.flatMap_cons, List.length_append, ← bytesOf, ih]
    simp [be16]
    omega

theorem bytesOf_append (xs ys : List ℕ) : bytesOf (xs ++ ys) = bytesOf xs ++ bytesOf ys := List.flatMap_append

theorem bytesOf_zeros (n : ℕ) : bytesOf (List.replicate n 0) = List.replicate (2 * n) 0 := by
  induction n with
  | zero => rfl
  | succ n ih =>
    rw [List.replicate_succ, bytesOf, List.flatMap_cons, ← bytesOf, ih]
    rfl

/-- A run found in a sequence consists of zeros. -/
def IsRun (xs : List ℕ) (run : ℕ × ℕ) : Prop :=
  xs = xs.take run.1 ++ List.replicate run.2 0 ++ xs.drop (run.1 + run.2)

theorem takeWhile_zeros (xs : List ℕ) : xs.takeWhile (· = 0) = List.replicate (xs.takeWhile (· = 0)).length 0 :=
  List.eq_replicate_iff.mpr ⟨rfl, fun x hx ↦ by simpa using List.all_eq_true.mp List.all_takeWhile x hx⟩

theorem isRun_takeWhile (pre ys : List ℕ) : IsRun (pre ++ ys) (pre.length, (ys.takeWhile (· = 0)).length) := by
  have hys := List.prefix_iff_eq_append.mp (List.takeWhile_prefix (l := ys) (fun x ↦ decide (x = 0)))
  unfold IsRun
  dsimp only
  rw [← takeWhile_zeros, List.take_left, ← List.drop_drop, List.drop_left, List.append_assoc, hys]

theorem isRun_longestRun {best : ℕ × ℕ} (pre ys : List ℕ) (h : IsRun (pre ++ ys) best) :
    IsRun (pre ++ ys) (longestRun pre.length ys best) := by
  induction ys generalizing pre best with
  | nil => exact h
  | cons y ys ih =>
    have hpre : pre ++ y :: ys = pre ++ [y] ++ ys := by simp
    have hbest : IsRun (pre ++ y :: ys) (if 2 ≤ ((y :: ys).takeWhile (· = 0)).length ∧ best.2 < ((y :: ys).takeWhile (· = 0)).length
        then (pre.length, ((y :: ys).takeWhile (· = 0)).length) else best) := by
      split
      · exact isRun_takeWhile pre (y :: ys)
      · exact h
    rw [longestRun]
    rw [hpre] at hbest ⊢
    have hrest := ih (pre ++ [y]) hbest
    rwa [List.length_append, List.length_singleton] at hrest

theorem longestRun_zeros (xs : List ℕ) : IsRun xs (longestRun 0 xs (0, 0)) :=
  isRun_longestRun [] xs (show IsRun xs (0, 0) by simp [IsRun])

/-! The whole. -/

theorem joined_head {x : ℕ} (hx : x < 65536) (xs : List ℕ) (s : Text) :
    ∃ c t, joined (x :: xs) ++ s = c :: t ∧ c ≠ ':' := by
  obtain ⟨c, t, htext, hc⟩ := appendHex_cons hx
  rw [joined_cons, htext]
  exact ⟨c, _, rfl, fun h ↦ hc (h ▸ by decide)⟩

theorem parseIPv6_plain {c : Char} {t : Text} (h : c ≠ ':') : parseIPv6 (c :: t) = (parseGroups 8 [] none (c :: t)).bind expand := by
  unfold parseIPv6
  split
  · next heq => exact absurd (List.cons.inj heq).1 h
  · next heq => exact absurd (List.cons.inj heq).1 h
  · rfl

theorem expand_full {b : Bytes} (h : b.length = 16) : expand (b, none, []) = some b := by
  simp [expand, h]

theorem expand_ellipsis {a b : Bytes} (h : (a ++ b).length < 16) :
    expand (a ++ b, some a.length, []) = some (a ++ List.replicate (16 - (a ++ b).length) 0 ++ b) := by
  rw [expand, if_neg (by simp), if_pos h, Option.map_some, List.take_left, List.drop_left]

theorem parseIPv6_joined (hlt : ∀ x ∈ xs, x < 65536) (h : xs.length = 8) : parseIPv6 (joined xs) = some (bytesOf xs) := by
  obtain ⟨x, ys, rfl⟩ := List.exists_cons_of_length_eq_add_one h
  obtain ⟨c, t, htext, hc⟩ := joined_head (hlt x List.mem_cons_self) ys []
  rw [List.append_nil] at htext
  rw [htext, parseIPv6_plain hc, ← htext, parseGroups_joined (List.cons_ne_nil x ys) hlt (by omega), Option.bind_some,
    List.nil_append, expand_full (by rw [bytesOf_length]; omega)]

theorem parseIPv6_ellipsis {pre post : List ℕ} (hpre : ∀ x ∈ pre, x < 65536) (hpost : ∀ x ∈ post, x < 65536)
    (h : pre.length + post.length < 8) : parseIPv6 (joined pre ++ ':' :: ':' :: joined post) =
      some (bytesOf pre ++ List.replicate (16 - (bytesOf pre ++ bytesOf post).length) 0 ++ bytesOf post) := by
  have hlen : (bytesOf pre ++ bytesOf post).length < 16 := by
    rw [List.length_append, bytesOf_length, bytesOf_length]
    omega
  have hexpand := expand_ellipsis hlen
  rw [bytesOf_length pre] at hexpand
  cases pre with
  | nil =>
    cases post with
    | nil => rfl
    | cons y ys =>
      obtain ⟨c, t, htext, hc⟩ := joined_head (hpost y List.mem_cons_self) ys []
      rw [List.append_nil] at htext
      change parseIPv6 (':' :: ':' :: joined (y :: ys)) = _
      rw [htext, parseIPv6, ← htext, parseGroups_joined (List.cons_ne_nil y ys) hpost (by simp at h ⊢; omega)]
      · exact hexpand
      · simp
  | cons x xs =>
    obtain ⟨c, t, htext, hc⟩ := joined_head (hpre x List.mem_cons_self) xs (':' :: ':' :: joined post)
    rw [htext, parseIPv6_plain hc, ← htext, parseGroups_joined_ellipsis (List.cons_ne_nil x xs) hpre (by simp at h ⊢; omega)]
    simp only [List.length_nil, Nat.zero_add, List.nil_append]
    cases post with
    | nil =>
      rw [if_pos (show joined [] = [] from rfl)]
      simpa [bytesOf] using hexpand
    | cons y ys =>
      obtain ⟨c', t', htext', -⟩ := joined_head (hpost y List.mem_cons_self) ys []
      rw [List.append_nil] at htext'
      rw [if_neg (by rw [htext']; simp), parseGroups_joined (List.cons_ne_nil y ys) hpost (by simp at h ⊢; omega)]
      exact hexpand

theorem parseIPv6_string6 {b : Bytes} (h : b.length = 16) : parseIPv6 (string6 b) = some b := by
  obtain ⟨hlen, hbytes, hlt⟩ := fields_spec (n := 8) h
  have hrun := longestRun_zeros (fields b)
  unfold string6
  dsimp only
  generalize longestRun 0 (fields b) (0, 0) = run at hrun ⊢
  obtain ⟨start, l⟩ := run
  dsimp only at hrun ⊢
  split
  · rw [parseIPv6_joined hlt hlen, hbytes]
  · next hl =>
    unfold IsRun at hrun
    dsimp only at hrun
    have hsum : ((fields b).take start).length + ((fields b).drop (start + l)).length + l = 8 := by
      have hlens := congrArg List.length hrun
      simp only [List.length_append, List.length_replicate, hlen] at hlens
      omega
    rw [parseIPv6_ellipsis (fun x hx ↦ hlt x (List.mem_of_mem_take hx)) (fun x hx ↦ hlt x (List.mem_of_mem_drop hx)) (by omega)]
    refine congrArg some (Eq.trans ?_ hbytes)
    have hzeros : 16 - (bytesOf ((fields b).take start) ++ bytesOf ((fields b).drop (start + l))).length = 2 * l := by
      rw [List.length_append, bytesOf_length, bytesOf_length]
      omega
    rw [hzeros, ← bytesOf_zeros, ← bytesOf_append, ← bytesOf_append, ← hrun]

/-! Which form a text is in. -/

theorem mem_appendHex {c : Char} (hx : x < 65536) (hc : c ∈ appendHex x) : hexValue c ≠ none := by
  have hdigit : ∀ d < 16, hexValue (digit d) ≠ none := fun d hd ↦ by rw [hexValue_digit hd]; exact Option.some_ne_none d
  have hmem : ∃ d < 16, c = digit d := by
    simp only [appendHex, List.mem_append, List.mem_singleton, List.mem_ite_nil_right] at hc
    rcases hc with ⟨h, rfl⟩ | ⟨h, rfl⟩ | ⟨h, rfl⟩ | rfl <;> exact ⟨_, by omega, rfl⟩
  obtain ⟨d, hd, rfl⟩ := hmem
  exact hdigit d hd

theorem mem_appendDecimal {c : Char} (hx : x < 1000) (hc : c ∈ appendDecimal x) : hexValue c ≠ none := by
  have hdigit : ∀ d < 10, hexValue (digit d) ≠ none := fun d hd ↦ by
    rw [hexValue_digit (by omega)]
    exact Option.some_ne_none d
  have hmem : ∃ d < 10, c = digit d := by
    simp only [appendDecimal, List.mem_append, List.mem_singleton, List.mem_ite_nil_right] at hc
    rcases hc with ⟨h, rfl⟩ | ⟨h, rfl⟩ | rfl <;> exact ⟨_, by omega, rfl⟩
  obtain ⟨d, hd, rfl⟩ := hmem
  exact hdigit d hd

theorem mem_joined {c : Char} (hlt : ∀ x ∈ xs, x < 65536) (hc : c ∈ joined xs) : c = ':' ∨ hexValue c ≠ none := by
  refine (mem_of_mem_intercalate hc).imp_right ?_
  rintro ⟨t, ht, hct⟩
  obtain ⟨x, hx, rfl⟩ := List.mem_map.mp ht
  exact mem_appendHex (hlt x hx) hct

theorem mem_string4 {c : Char} {b : Bytes} (hc : c ∈ string4 b) : c = '.' ∨ hexValue c ≠ none := by
  refine (mem_of_mem_intercalate hc).imp_right ?_
  rintro ⟨t, ht, hct⟩
  obtain ⟨x, -, rfl⟩ := List.mem_map.mp ht
  exact mem_appendDecimal (by have := x.toNat_lt; omega) hct

theorem mem_string6 {c : Char} {b : Bytes} (h : b.length = 16) (hc : c ∈ string6 b) : c = ':' ∨ hexValue c ≠ none := by
  obtain ⟨-, -, hlt⟩ := fields_spec (n := 8) h
  unfold string6 at hc
  dsimp only at hc
  split at hc
  · exact mem_joined hlt hc
  · rcases List.mem_append.mp hc with hc | hc
    · exact mem_joined (fun x hx ↦ hlt x (List.mem_of_mem_take hx)) hc
    · rcases List.mem_cons.mp hc with rfl | hc
      · exact .inl rfl
      rcases List.mem_cons.mp hc with rfl | hc
      · exact .inl rfl
      exact mem_joined (fun x hx ↦ hlt x (List.mem_of_mem_drop hx)) hc

theorem string6_colons {b : Bytes} (h : b.length = 16) : ∃ t u, string6 b = t ++ ':' :: u ∧ ':' ∈ u := by
  obtain ⟨hlen, -, -⟩ := fields_spec (n := 8) h
  unfold string6
  dsimp only
  split
  · obtain ⟨x, ys, hxs⟩ := List.exists_cons_of_length_eq_add_one hlen
    rw [hxs, List.length_cons] at hlen
    obtain ⟨y, zs, rfl⟩ := List.exists_cons_of_length_eq_add_one (Nat.succ.inj hlen)
    rw [List.length_cons] at hlen
    obtain ⟨z, rest, rfl⟩ := List.exists_cons_of_length_eq_add_one (Nat.succ.inj (Nat.succ.inj hlen))
    rw [hxs, joined_cons_cons]
    exact ⟨_, _, rfl, by rw [joined_cons_cons]; simp⟩
  · exact ⟨_, _, rfl, List.mem_cons_self⟩

theorem colon_mem_string6 {b : Bytes} (h : b.length = 16) : ':' ∈ string6 b := by
  obtain ⟨t, u, htext, -⟩ := string6_colons h
  rw [htext]
  exact List.mem_append_right t List.mem_cons_self

/-- The one mark there is in a text. -/
theorem find_mark {mark : Char} (hmark : mark = '.' ∨ mark = ':') (hchars : ∀ c ∈ s, c = mark ∨ hexValue c ≠ none)
    (hmem : mark ∈ s) : s.find? (fun c ↦ c = '.' ∨ c = ':' ∨ c = '%') = some mark := by
  have hsome : (s.find? (fun c ↦ decide (c = '.' ∨ c = ':' ∨ c = '%'))).isSome := by
    refine List.find?_isSome.mpr ⟨mark, hmem, ?_⟩
    rcases hmark with rfl | rfl <;> decide
  obtain ⟨c, hc⟩ := Option.isSome_iff_exists.mp hsome
  have hmarks := List.find?_some hc
  rw [decide_eq_true_iff] at hmarks
  rcases hchars c (List.mem_of_find?_eq_some hc) with rfl | hhex
  · exact hc
  · rcases hmarks with rfl | rfl | rfl <;> exact absurd (by decide) hhex

theorem cut_none {c : Char} (h : c ∉ s) : cut c s = none := by
  cases hcut : cut c s with
  | none => rfl
  | some p =>
    obtain ⟨hs, -⟩ := cut_eq_some hcut
    exact absurd (hs ▸ by simp) h

theorem parseAddr_string4 {b : Bytes} (h : b.length = 4) : parseAddr (string4 b) = some (b, []) := by
  have hdot : '.' ∈ string4 b := by
    obtain ⟨a, b, c, d, rfl⟩ := List.length_eq_four.mp h
    simp [string4, List.intercalate]
  rw [parseAddr, find_mark (.inl rfl) (fun c ↦ mem_string4) hdot, parseIPv4Fields_string4 h]
  rfl

theorem parseAddr_string6 {b : Bytes} (h : b.length = 16) : parseAddr (string6 b) = some (b, []) := by
  have hzone : '%' ∉ string6 b := fun hmem ↦ (mem_string6 h hmem).elim (by decide) (fun hhex ↦ hhex (by decide))
  rw [parseAddr, find_mark (.inr rfl) (fun c ↦ mem_string6 h) (colon_mem_string6 h), cut_none hzone, parseIPv6_string6 h]
  rfl

/-- An address in one of its two sizes. -/
def Sized (ip : IP) : Prop := ip.length = 4 ∨ ip.length = 16

theorem to4_some {b : Bytes} (h : to4 ip = some b) : b.length = 4 ∧ to16 ip = v4InV6Prefix ++ b := by
  unfold to4 at h
  split at h
  · next h4 => cases h; exact ⟨h4, if_pos h4⟩
  · next h4 =>
    split at h
    · next h16 =>
      cases h
      refine ⟨by rw [List.length_drop, h16.1], ?_⟩
      rw [to16, if_neg h4, ← h16.2, List.take_append_drop]
    · cases h

theorem to4_none (hs : Sized ip) (h : to4 ip = none) : ip.length = 16 ∧ to16 ip = ip := by
  unfold to4 at h
  split at h
  · cases h
  · next h4 => exact ⟨hs.resolve_left h4, if_neg h4⟩

/-- The text of an address is read back as that address. -/
theorem parseIP_string (h : Sized ip) : parseIP (string ip) = some (to16 ip) := by
  unfold string parseIP
  cases h4 : to4 ip with
  | some b =>
    obtain ⟨hb, hip⟩ := to4_some h4
    dsimp only
    rw [parseAddr_string4 hb]
    dsimp only
    rw [to16, if_pos hb, hip]
  | none =>
    obtain ⟨hlen, -⟩ := to4_none h h4
    dsimp only
    rw [parseAddr_string6 hlen]

theorem to16_length (h : Sized ip) : (to16 ip).length = 16 := by
  unfold to16
  split
  · next h4 => rw [List.length_append, h4]; rfl
  · next h4 => exact h.resolve_left h4

theorem to4_to16 (ip : IP) : to4 (to16 ip) = to4 ip := by
  unfold to16
  split
  · next h4 =>
    have htake : (v4InV6Prefix ++ ip).take 12 = v4InV6Prefix := List.take_left' rfl
    have hdrop : (v4InV6Prefix ++ ip).drop 12 = ip := List.drop_left' rfl
    have hlen : (v4InV6Prefix ++ ip).length = 16 := by rw [List.length_append, h4]; rfl
    rw [to4, if_neg (by omega), if_pos ⟨hlen, htake⟩, hdrop, to4, if_pos h4]
  · rfl

theorem string_to16 (h : Sized ip) : string (to16 ip) = string ip := by
  unfold string
  rw [to4_to16]
  cases h4 : to4 ip with
  | some b => rfl
  | none =>
    dsimp only
    rw [(to4_none h h4).2]

theorem string_injective {ip' : IP} (h : Sized ip) (h' : Sized ip') (heq : string ip = string ip') : to16 ip = to16 ip' := by
  have hparse := parseIP_string h
  rw [heq, parseIP_string h'] at hparse
  exact (Option.some.inj hparse).symm

theorem mem_string {c : Char} (h : Sized ip) (hc : c ∈ string ip) : c = '.' ∨ c = ':' ∨ hexValue c ≠ none := by
  unfold string at hc
  cases h4 : to4 ip with
  | some b =>
    rw [h4] at hc
    exact (mem_string4 hc).imp_right .inr
  | none =>
    rw [h4] at hc
    exact .inr (mem_string6 (to4_none h h4).1 hc)

/-! What is parsed has a size. -/

theorem ipv4Fields_length {val digLen : ℕ} {done b : Bytes} (hdone : done.length ≤ 3)
    (h : ipv4Fields val digLen done s = some b) : b.length = 4 := by
  induction s generalizing val digLen done with
  | nil =>
    rw [ipv4Fields] at h
    split at h
    · cases h
    · cases h
      rw [List.length_append, List.length_singleton]
      omega
  | cons c s ih =>
    rw [ipv4Fields] at h
    split_ifs at h with hdigit hzero hbig hdot hbad hfull
    · exact ih hdone h
    · exact ih (by rw [List.length_append, List.length_singleton]; omega) h

theorem parseIPv4Fields_length {b : Bytes} (h : parseIPv4Fields s = some b) : b.length = 4 :=
  ipv4Fields_length (show ([] : Bytes).length ≤ 3 by simp) h

theorem parseGroups_length {e : Option ℕ} {ip' : Bytes} {s' : Text} (hip : ip.length + 2 * room = 16)
    (h : parseGroups room ip ellipsis s = some (ip', e, s')) : ip'.length ≤ 16 := by
  induction room generalizing ip ellipsis s with
  | zero =>
    cases h
    omega
  | succ room ih =>
    have hnext : ∀ acc, (ip ++ be16 acc).length = ip.length + 2 := fun acc ↦ by simp [be16]
    rw [parseGroups] at h
    split at h
    · cases h
    · split at h
      · cases h
      split at h
      · cases h
        rw [hnext]
        omega
      · split at h
        · cases h
        split at h
        · cases h
        · obtain ⟨b, hb, heq⟩ := Option.map_eq_some_iff.mp h
          cases heq
          rw [List.length_append, parseIPv4Fields_length hb]
          omega
      · cases h
      · split at h
        · cases h
        split at h
        · cases h
          rw [hnext]
          omega
        · exact ih (by rw [hnext]; omega) h
      · exact ih (by rw [hnext]; omega) h
      · cases h

theorem expand_length {e : Option ℕ} {b : Bytes} (hip : ip.length ≤ 16) (h : expand (ip, e, s) = some b) :
    b.length = 16 := by
  rw [expand] at h
  split_ifs at h with hs hlen he
  · obtain ⟨at', -, rfl⟩ := Option.map_eq_some_iff.mp h
    simp only [List.length_append, List.length_take, List.length_replicate, List.length_drop]
    omega
  · cases h
    omega

theorem parseIPv6_length {b : Bytes} (h : parseIPv6 s = some b) : b.length = 16 := by
  have hbind : ∀ (ellipsis : Option ℕ) (t : Text), (parseGroups 8 [] ellipsis t).bind expand = some b → b.length = 16 := by
    intro ellipsis t ht
    obtain ⟨⟨ip, e, rest⟩, hgroups, hexpand⟩ := Option.bind_eq_some_iff.mp ht
    exact expand_length (parseGroups_length rfl hgroups) hexpand
  unfold parseIPv6 at h
  split at h
  · cases h
    rfl
  · exact hbind _ _ h
  · exact hbind _ _ h

theorem parseAddr_sized {b : Bytes} {zone : Text} (h : parseAddr s = some (b, zone)) : Sized b := by
  unfold parseAddr at h
  split at h
  · obtain ⟨b', hb, heq⟩ := Option.map_eq_some_iff.mp h
    cases heq
    exact .inl (parseIPv4Fields_length hb)
  · split at h
    · obtain ⟨b', hb, heq⟩ := Option.map_eq_some_iff.mp h
      cases heq
      exact .inr (parseIPv6_length hb)
    · cases h
    · obtain ⟨b', hb, heq⟩ := Option.map_eq_some_iff.mp h
      cases heq
      exact .inr (parseIPv6_length hb)
  · cases h

/-- `ParseIP` gives the 16-byte form. -/
theorem parseIP_length (h : parseIP s = some ip) : ip.length = 16 := by
  unfold parseIP at h
  split at h
  · next haddr =>
    cases h
    exact to16_length (parseAddr_sized haddr)
  · cases h

end KubeCenter.Core.Net
