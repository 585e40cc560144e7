import Mathlib.Data.List.TakeWhile
import KubeCenter.Core.GoIP

/-! `url.Parse`, as far as the scheme, the host and the path of what it parses. -/

namespace KubeCenter.Core

namespace Byte

abbrev sharp : UInt8 := 35
abbrev percent : UInt8 := 37
abbrev slash : UInt8 := 47
abbrev colon : UInt8 := 58
abbrev question : UInt8 := 63
abbrev at' : UInt8 := 64
abbrev lbracket : UInt8 := 91
abbrev rbracket : UInt8 := 93

end Byte

namespace GoURL

open Byte

structure URL where
  scheme : Bytes
  host : Bytes
  path : Bytes

def isLower (b : UInt8) : Bool := 97 ≤ b && b ≤ 122

def isLetter (b : UInt8) : Bool := isLower b || (65 ≤ b && b ≤ 90)

def isDigit (b : UInt8) : Bool := 48 ≤ b && b ≤ 57

/-- What `shouldEscape` lets stand in a host: the unreserved bytes and `!$&'()*+,;=:[]<>"`. -/
def hostByte (b : UInt8) : Bool :=
  isLetter b || isDigit b ||
    [45, 95, 46, 126, 33, 36, 38, 39, 40, 41, 42, 43, 44, 59, 61, 58, 91, 93, 60, 62, 34].contains b

inductive Encoding
  | path
  | fragment
  | userPassword
  | host
  | zone

namespace Encoding

/-- The values an escape may stand for. In a host these are the bytes outside ASCII, and `%`. -/
def allowsEscape : Encoding → UInt8 → Bool
  | host, v => v = percent || 128 ≤ v
  | zone, v => v = percent || v = space || hostByte v
  | _, _ => true

def allowsBare : Encoding → UInt8 → Bool
  | host, c => 128 ≤ c || hostByte c
  | zone, c => 128 ≤ c || hostByte c
  | _, _ => true

end Encoding

def unhex (b : UInt8) : Option ℕ := hexDigit (Char.ofNat b.toNat)

def unescape (mode : Encoding) : Bytes → Option Bytes
  | [] => some []
  | c :: s =>
    if c = percent then
      match s with
      | a :: b :: s' =>
        match unhex a, unhex b with
        | some x, some y =>
          if mode.allowsEscape (UInt8.ofNat (16 * x + y)) then
            (unescape mode s').map (fun t ↦ UInt8.ofNat (16 * x + y) :: t)
          else none
        | _, _ => none
      | _ => none
    else if mode.allowsBare c then (unescape mode s).map (fun t ↦ c :: t)
    else none

/-- A port, with its colon, or nothing. -/
def validOptionalPort : Bytes → Bool
  | [] => true
  | c :: s => c = colon && s.all isDigit

/-- What stands before the last `sep`, and the rest from it on, or everything and nothing. -/
def splitLast (sep : UInt8) (s : Bytes) : Bytes × Bytes :=
  let tail := (s.reverse.takeWhile (· ≠ sep)).reverse
  if sep ∈ s then (s.take (s.length - tail.length - 1), sep :: tail) else (s, [])

/-- `netip.ParseAddr` gives an address of 16 bytes. -/
def isIPv6 (s : Bytes) : Bool :=
  (Net.parseAddr (s.map (fun b ↦ Char.ofNat b.toNat))).any (fun p ↦ p.1.length = 16)

/-- What stands before the first `%25`, and the rest from it on. -/
def splitZone : Bytes → Bytes × Bytes
  | [] => ([], [])
  | c :: s => if [percent, 50, 53] <+: c :: s then ([], c :: s) else (c :: (splitZone s).1, (splitZone s).2)

def parseHost (host : Bytes) : Option Bytes :=
  if lbracket ∈ host then
    match host with
    | c :: s =>
      -- the last `[` opens the host
      if c ≠ lbracket ∨ lbracket ∈ s ∨ rbracket ∉ s then none
      else
        let name := (splitLast rbracket s).1
        let port := (splitLast rbracket s).2.drop 1
        if validOptionalPort port then
          (unescape .host (splitZone name).1).bind (fun address ↦
            (unescape .zone (splitZone name).2).bind (fun zone ↦
              if isIPv6 (address ++ zone) then some (lbracket :: (address ++ zone) ++ rbracket :: port) else none))
        else none
    | [] => none
  else if validOptionalPort (host.dropWhile (· ≠ colon)) then unescape .host host
  else none

def validUserinfo (s : Bytes) : Bool :=
  s.all (fun b ↦ isLetter b || isDigit b ||
    [45, 46, 95, 58, 126, 33, 36, 38, 39, 40, 41, 42, 43, 44, 59, 61, 37, 64].contains b)

def decodable (mode : Encoding) (s : Bytes) : Bool := (unescape mode s).isSome

def parseAuthority (authority : Bytes) : Option Bytes :=
  if at' ∈ authority then
    let userinfo := (splitLast at' authority).1
    let host := (splitLast at' authority).2.drop 1
    if validUserinfo userinfo && decodable .userPassword (userinfo.takeWhile (· ≠ colon)) &&
        decodable .userPassword ((userinfo.dropWhile (· ≠ colon)).drop 1) then
      parseHost host
    else none
  else parseHost authority

def schemeByte (b : UInt8) : Bool := isLetter b || isDigit b || [43, 45, 46].contains b

/-- The scheme, empty where there is none, and what follows it. -/
def getScheme (raw : Bytes) : Option (Bytes × Bytes) :=
  let name := raw.takeWhile schemeByte
  match raw.dropWhile schemeByte with
  | c :: rest =>
    if c ≠ colon then some ([], raw)
    else if name = [] then none
    else if isLetter (name.headD 0) then some (name, rest)
    else some ([], raw)
  | [] => some ([], raw)

def lowerByte (b : UInt8) : UInt8 := if 65 ≤ b ∧ b ≤ 90 then b + 32 else b

def parseRest (scheme rest : Bytes) : Option URL :=
  if [slash] <+: rest then
    if [slash, slash] <+: rest ∧ (scheme ≠ [] ∨ ¬[slash, slash, slash] <+: rest) then
      (parseAuthority ((rest.drop 2).takeWhile (· ≠ slash))).bind (fun host ↦
        (unescape .path ((rest.drop 2).dropWhile (· ≠ slash))).map (fun path ↦ ⟨scheme.map lowerByte, host, path⟩))
    else (unescape .path rest).map (fun path ↦ ⟨scheme.map lowerByte, [], path⟩)
  else if scheme ≠ [] then some ⟨scheme.map lowerByte, [], []⟩
  else if colon ∈ rest.takeWhile (· ≠ slash) then none
  else (unescape .path rest).map (fun path ↦ ⟨[], [], path⟩)

def isCTL (b : UInt8) : Bool := b < 32 || b = 127

/-- The URL before its fragment. -/
def parseUnfragmented (raw : Bytes) : Option URL :=
  if raw.any isCTL then none
  else if raw = [42] then some ⟨[], [], [42]⟩
  else (getScheme raw).bind (fun p ↦ parseRest p.1 (p.2.takeWhile (· ≠ question)))

def parse (raw : Bytes) : Option URL :=
  (parseUnfragmented (raw.takeWhile (· ≠ sharp))).bind (fun u ↦
    (unescape .fragment ((raw.dropWhile (· ≠ sharp)).drop 1)).map (fun _ ↦ u))

def withoutPort (host : Bytes) : Bytes :=
  if validOptionalPort (splitLast colon host).2 then (splitLast colon host).1 else host

def withoutBrackets (name : Bytes) : Bytes :=
  if [lbracket] <+: name ∧ [rbracket] <:+ name then (name.drop 1).dropLast else name

/-- `splitHostPort`, the host of it. -/
def hostnameOf (host : Bytes) : Bytes := withoutBrackets (withoutPort host)

def URL.hostname (u : URL) : Bytes := hostnameOf u.host

example : (parse (utf8 "ssh://git@GitHub.com:22/org/repo%2Egit".toList)).map (fun u ↦ (u.scheme, u.hostname, u.path)) =
    some (utf8 "ssh".toList, utf8 "GitHub.com".toList, utf8 "/org/repo.git".toList) := by
  decide +kernel

/-- The first of two hex digits of an ASCII byte is a decimal one. -/
theorem unhex_eq_some {a : UInt8} {x : ℕ} (h : unhex a = some x) :
    x < 16 ∧ (x < 10 → 48 ≤ a.toNat ∧ a.toNat ≤ 57) := by
  unfold unhex hexDigit at h
  rw [toNat_latin1] at h
  split at h
  · cases h
    omega
  · split at h
    · cases h
      omega
    · split at h
      · cases h
        omega
      · cases h

/-- What `unescape` reads, form by form. -/
inductive Unescapes (mode : Encoding) : Bytes → Bytes → Prop
  | nil : Unescapes mode [] []
  | escape {a b : UInt8} {x y : ℕ} {s t : Bytes} : unhex a = some x → unhex b = some y →
      mode.allowsEscape (UInt8.ofNat (16 * x + y)) → Unescapes mode s t →
      Unescapes mode (percent :: a :: b :: s) (UInt8.ofNat (16 * x + y) :: t)
  | bare {c : UInt8} {s t : Bytes} : c ≠ percent → mode.allowsBare c → Unescapes mode s t →
      Unescapes mode (c :: s) (c :: t)

variable {mode : Encoding} {s t : Bytes}

theorem unescape_eq_some (h : unescape mode s = some t) : Unescapes mode s t := by
  fun_induction unescape mode s generalizing t with
  | case1 =>
    cases h
    exact .nil
  | case2 a b s x y hy hx ha ih =>
    obtain ⟨t', ht, rfl⟩ := Option.map_eq_some_iff.mp h
    exact .escape hx hy ha (ih ht)
  | case6 c s hc ha ih =>
    obtain ⟨t', ht, rfl⟩ := Option.map_eq_some_iff.mp h
    exact .bare hc ha (ih ht)
  | _ => cases h

/-- Bytes that may stand bare stand for themselves. -/
theorem unescape_self (hp : percent ∉ s) (ha : ∀ c ∈ s, mode.allowsBare c) : unescape mode s = some s := by
  induction s with
  | nil => rfl
  | cons c s ih =>
    have hc : c ≠ percent := fun h ↦ hp (h ▸ List.mem_cons_self)
    have hs := ih (fun h ↦ hp (List.mem_cons_of_mem c h)) (fun d hd ↦ ha d (List.mem_cons_of_mem c hd))
    rw [unescape.eq_def]
    simp only
    rw [if_neg hc, if_pos (ha c List.mem_cons_self), hs]
    rfl

/-- What may stand in a host that was read. -/
def InHost (b : UInt8) : Prop := 128 ≤ b ∨ hostByte b ∨ b = percent ∨ b = space

theorem inHost_of_allowsEscape (hm : mode = .host ∨ mode = .zone) {b : UInt8} (h : mode.allowsEscape b) :
    InHost b := by
  rcases hm with rfl | rfl
  · have hb : b = percent ∨ 128 ≤ b := by simpa [Encoding.allowsEscape] using h
    exact hb.elim (fun hp ↦ .inr (.inr (.inl hp))) .inl
  · have hb : (b = percent ∨ b = space) ∨ hostByte b := by simpa [Encoding.allowsEscape] using h
    exact hb.elim (fun hp ↦ .inr (.inr hp)) (fun hh ↦ .inr (.inl hh))

theorem inHost_of_allowsBare (hm : mode = .host ∨ mode = .zone) {b : UInt8} (h : mode.allowsBare b) :
    InHost b := by
  have hb : 128 ≤ b ∨ hostByte b := by
    rcases hm with rfl | rfl <;> simpa [Encoding.allowsBare] using h
  exact hb.imp_right .inl

/-- An ASCII byte that is no letter: no change of case touches one. -/
def isMark (b : UInt8) : Bool := b < 128 && !isLetter b

def marks (s : Bytes) : ℕ := s.countP isMark

theorem marks_cons (c : UInt8) (s : Bytes) : marks (c :: s) = marks s + if isMark c then 1 else 0 :=
  List.countP_cons

theorem isMark_digit {a : UInt8} (h : 48 ≤ a.toNat) (h' : a.toNat ≤ 57) : isMark a := by
  simp [isMark, isLetter, isLower, UInt8.lt_iff_toNat_lt, UInt8.le_iff_toNat_le]
  omega

theorem isMark_of_escape {a b : UInt8} {x y : ℕ} (hx : unhex a = some x) (hy : unhex b = some y)
    (hv : isMark (UInt8.ofNat (16 * x + y))) : isMark a := by
  obtain ⟨hx, hdigit⟩ := unhex_eq_some hx
  have hy := (unhex_eq_some hy).1
  have hlow : 16 * x + y < 128 := by
    have h := UInt8.lt_iff_toNat_lt.mp (of_decide_eq_true (Bool.and_eq_true_iff.mp hv).1)
    rwa [UInt8.toNat_ofNat', Nat.mod_eq_of_lt (by omega)] at h
  obtain ⟨h, h'⟩ := hdigit (by omega)
  exact isMark_digit h h'

namespace Unescapes

theorem eq_self (h : Unescapes mode s t) (hp : percent ∉ s) : t = s ∧ ∀ c ∈ s, mode.allowsBare c := by
  induction h with
  | nil => exact ⟨rfl, fun c hc ↦ by cases hc⟩
  | escape => exact absurd List.mem_cons_self hp
  | bare hc ha _ ih =>
    obtain ⟨rfl, hall⟩ := ih fun h ↦ hp (List.mem_cons_of_mem _ h)
    refine ⟨rfl, fun d hd ↦ ?_⟩
    rcases List.mem_cons.mp hd with rfl | hd
    · exact ha
    · exact hall d hd

/-- An escape is longer than the byte it stands for. -/
theorem length_lt (h : Unescapes mode s t) : t.length + (if percent ∈ s then 1 else 0) ≤ s.length := by
  induction h with
  | nil => exact Nat.le_refl 0
  | escape _ _ _ _ ih =>
    rw [if_pos List.mem_cons_self]
    simp only [List.length_cons]
    omega
  | @bare c s t hc _ _ ih =>
    have hm : percent ∈ c :: s ↔ percent ∈ s := by
      rw [List.mem_cons]
      exact or_iff_right (Ne.symm hc)
    simp only [hm, List.length_cons]
    omega

/-- The bytes of a host: those that may stand bare, and those of an escape. -/
theorem inHost (hm : mode = .host ∨ mode = .zone) (h : Unescapes mode s t) : ∀ b ∈ t, InHost b := by
  induction h with
  | nil => exact fun b hb ↦ by cases hb
  | escape _ _ ha _ ih =>
    intro b hb
    rcases List.mem_cons.mp hb with rfl | hb
    · exact inHost_of_allowsEscape hm ha
    · exact ih b hb
  | bare _ ha _ ih =>
    intro b hb
    rcases List.mem_cons.mp hb with rfl | hb
    · exact inHost_of_allowsBare hm ha
    · exact ih b hb

/-- An escape has more marks than the byte it stands for. -/
theorem marks_lt (h : Unescapes mode s t) :
    marks t + (if percent ∈ s then 1 else 0) ≤ marks s := by
  induction h with
  | nil => exact Nat.le_refl 0
  | @escape a b x y s t hx hy _ _ ih =>
    have hmark := isMark_of_escape hx hy
    rw [if_pos List.mem_cons_self, marks_cons, marks_cons, marks_cons, marks_cons, if_pos (by decide : isMark percent)]
    by_cases hv : isMark (UInt8.ofNat (16 * x + y))
    · rw [if_pos hv, if_pos (hmark hv)]
      omega
    · rw [if_neg hv]
      omega
  | @bare c s t hc _ _ ih =>
    have hm : percent ∈ c :: s ↔ percent ∈ s := by
      rw [List.mem_cons]
      exact or_iff_right (Ne.symm hc)
    simp only [hm, marks_cons]
    omega

end Unescapes

theorem splitLast_append {sep : UInt8} {b : Bytes} (h : sep ∉ b) (a : Bytes) :
    splitLast sep (a ++ sep :: b) = (a, sep :: b) := by
  have hb : ∀ c ∈ b.reverse, decide (c ≠ sep) = true := fun c hc ↦
    decide_eq_true fun he ↦ h (he ▸ List.mem_reverse.mp hc)
  have htail : ((a ++ sep :: b).reverse.takeWhile (· ≠ sep)).reverse = b := by
    rw [List.reverse_append, List.reverse_cons, List.append_assoc, List.takeWhile_append_of_pos hb,
      List.singleton_append, List.takeWhile_cons_of_neg (by simp), List.append_nil, List.reverse_reverse]
  have hlen : (a ++ sep :: b).length - b.length - 1 = a.length := by
    rw [List.length_append, List.length_cons]
    omega
  unfold splitLast
  simp only [htail]
  rw [if_pos (List.mem_append_right a List.mem_cons_self), hlen, List.take_left]

theorem splitLast_notMem {sep : UInt8} (h : sep ∉ s) : splitLast sep s = (s, []) := if_neg h

theorem exists_split {sep : UInt8} (h : sep ∈ s) : ∃ a b, s = a ++ sep :: b ∧ sep ∉ b := by
  obtain ⟨b, a, hs, hb⟩ := List.eq_append_cons_of_mem (List.mem_reverse.mpr h)
  refine ⟨a.reverse, b.reverse, ?_, fun hm ↦ hb (List.mem_reverse.mp hm)⟩
  rw [← List.reverse_reverse s, hs, List.reverse_append, List.reverse_cons, List.append_assoc]
  rfl

theorem validOptionalPort_cons {c : UInt8} :
    validOptionalPort (c :: s) ↔ c = colon ∧ ∀ b ∈ s, isDigit b := by
  simp [validOptionalPort]

theorem colon_notMem_digits (h : ∀ b ∈ s, isDigit b) : colon ∉ s := fun hm ↦
  absurd (h colon hm) (by decide)

theorem withoutPort_eq {a port : Bytes} (hp : validOptionalPort (colon :: port)) :
    withoutPort (a ++ colon :: port) = a := by
  have hcolon : colon ∉ port := colon_notMem_digits (validOptionalPort_cons.mp hp).2
  rw [withoutPort, splitLast_append hcolon, if_pos hp]

theorem withoutPort_sublist (s : Bytes) : (withoutPort s).Sublist s := by
  unfold withoutPort
  split
  · by_cases h : colon ∈ s
    · obtain ⟨a, b, rfl, hb⟩ := exists_split h
      rw [splitLast_append hb]
      exact List.sublist_append_left a _
    · rw [splitLast_notMem h]
  · exact List.Sublist.refl s

theorem withoutBrackets_sublist (s : Bytes) : (withoutBrackets s).Sublist s := by
  unfold withoutBrackets
  split
  · exact (List.dropLast_sublist _).trans (List.drop_sublist 1 s)
  · exact List.Sublist.refl s

theorem hostnameOf_sublist (s : Bytes) : (hostnameOf s).Sublist s :=
  (withoutBrackets_sublist _).trans (withoutPort_sublist s)

theorem marks_le_of_sublist (h : s.Sublist t) : marks s ≤ marks t := h.countP_le

theorem hostnameOf_plain (hc : colon ∉ s) (hb : lbracket ∉ s) : hostnameOf s = s := by
  have hport : withoutPort s = s := by
    rw [withoutPort, splitLast_notMem hc]
    rfl
  have hopen : ¬[lbracket] <+: s := fun h ↦ hb (h.subset (List.mem_singleton_self _))
  rw [hostnameOf, hport, withoutBrackets, if_neg fun h ↦ hopen h.1]

theorem marks_append (s t : Bytes) : marks (s ++ t) = marks s + marks t := List.countP_append

/-- A colon inside brackets begins no port. -/
theorem withoutPort_closed (s : Bytes) : withoutPort (s ++ [rbracket]) = s ++ [rbracket] := by
  unfold withoutPort
  split
  · next hv =>
    by_cases h : colon ∈ s ++ [rbracket]
    · obtain ⟨a, b, hs, hb⟩ := exists_split h
      rw [hs, splitLast_append hb, validOptionalPort_cons] at hv
      have hlast : (a ++ colon :: b).getLast? = some rbracket := by
        rw [← hs, List.getLast?_concat]
      rw [List.getLast?_append_cons] at hlast
      rcases List.mem_cons.mp (List.mem_of_getLast? hlast) with he | hm
      · exact absurd he (by decide)
      · exact absurd (hv.2 rbracket hm) (by decide)
    · rw [splitLast_notMem h]
  · rfl

/-- The brackets around an address are lost. -/
theorem marks_hostnameOf_literal (name : Bytes) {port : Bytes} (hp : validOptionalPort port) :
    marks (hostnameOf (lbracket :: name ++ rbracket :: port)) < marks (lbracket :: name ++ rbracket :: port) := by
  cases port with
  | nil =>
    have hname : withoutBrackets (lbracket :: name ++ [rbracket]) = name := by
      have hends : [lbracket] <+: lbracket :: name ++ [rbracket] ∧ [rbracket] <:+ lbracket :: name ++ [rbracket] :=
        ⟨⟨name ++ [rbracket], rfl⟩, List.suffix_append _ _⟩
      rw [withoutBrackets, if_pos hends]
      exact List.dropLast_concat
    have hopen : marks (lbracket :: name ++ [rbracket]) = marks (name ++ [rbracket]) + 1 := marks_cons lbracket _
    rw [hostnameOf, withoutPort_closed, hname, hopen, marks_append]
    omega
  | cons c port =>
    obtain rfl := (validOptionalPort_cons.mp hp).1
    have hport : withoutPort (lbracket :: name ++ rbracket :: colon :: port) = lbracket :: name ++ [rbracket] := by
      rw [List.append_cons _ rbracket]
      exact withoutPort_eq hp
    have hle := marks_le_of_sublist (withoutBrackets_sublist (lbracket :: name ++ [rbracket]))
    have hcolon : marks (colon :: port) = marks port + 1 := marks_cons colon port
    have hall : marks (lbracket :: name ++ rbracket :: colon :: port) =
        marks (lbracket :: name ++ [rbracket]) + marks (colon :: port) := by
      rw [List.append_cons _ rbracket, marks_append]
    rw [hostnameOf, hport, hall, hcolon]
    omega

/-- A host no reading of which changes it: no port, no brackets and no escape. -/
def PlainHost (s : Bytes) : Prop := ∀ b ∈ s, 128 ≤ b ∨ hostByte b ∧ b ≠ colon ∧ b ≠ lbracket

theorem PlainHost.notMem {b : UInt8} (hs : PlainHost s) (hb : b < 128)
    (h : ¬hostByte b ∨ b = colon ∨ b = lbracket) : b ∉ s := by
  intro hm
  rcases hs b hm with hge | ⟨hh, hc, hl⟩
  · exact absurd hge (UInt8.not_le.mpr hb)
  · rcases h with h | rfl | rfl
    · exact h hh
    · exact hc rfl
    · exact hl rfl

theorem marks_hostnameOf_port (hc : colon ∈ s) (hp : validOptionalPort (s.dropWhile (· ≠ colon))) :
    marks (hostnameOf s) < marks s := by
  have hsplit := List.takeWhile_append_dropWhile (p := fun b ↦ decide (b ≠ colon)) (l := s)
  cases hd : s.dropWhile (· ≠ colon) with
  | nil => exact absurd rfl (of_decide_eq_true (List.dropWhile_eq_nil_iff.mp hd colon hc))
  | cons c port =>
    rw [hd] at hp hsplit
    obtain rfl := (validOptionalPort_cons.mp hp).1
    have hle := marks_le_of_sublist (withoutBrackets_sublist (s.takeWhile (· ≠ colon)))
    have hall := congrArg marks hsplit
    rw [marks_append, marks_cons, if_pos (by decide : isMark colon)] at hall
    have hport : withoutPort s = s.takeWhile (· ≠ colon) := by
      rw [← hsplit, withoutPort_eq hp, hsplit]
    rw [hostnameOf, hport]
    omega

theorem splitZone_append (s : Bytes) : (splitZone s).1 ++ (splitZone s).2 = s := by
  induction s with
  | nil => rfl
  | cons c s ih =>
    rw [splitZone]
    split
    · rfl
    · exact congrArg (c :: ·) ih

/-- An address in brackets, as it is written and as it is read. -/
theorem parseHost_literal (h : parseHost s = some t) (hl : lbracket ∈ s) :
    ∃ name address zone port, s = lbracket :: name ++ rbracket :: port ∧ validOptionalPort port ∧
      Unescapes .host (splitZone name).1 address ∧ Unescapes .zone (splitZone name).2 zone ∧
        t = lbracket :: (address ++ zone) ++ rbracket :: port := by
  unfold parseHost at h
  rw [if_pos hl] at h
  cases s with
  | nil => cases h
  | cons c s =>
    simp only at h
    split at h
    · cases h
    · next hc =>
      simp only [not_or, not_not] at hc
      obtain ⟨rfl, -, hr⟩ := hc
      obtain ⟨name, port, rfl, hport⟩ := exists_split hr
      rw [splitLast_append hport] at h
      split at h
      · next hv =>
        obtain ⟨address, ha, h⟩ := Option.bind_eq_some_iff.mp h
        obtain ⟨zone, hz, h⟩ := Option.bind_eq_some_iff.mp h
        split at h
        · cases h
          exact ⟨name, address, zone, port, rfl, hv, unescape_eq_some ha, unescape_eq_some hz, rfl⟩
        · cases h
      · cases h

theorem not_hostByte_of_isCTL {b : UInt8} (h : isCTL b) : b < 128 ∧ ¬hostByte b := by
  have hall : ∀ n < 128, isCTL (UInt8.ofNat n) → ¬hostByte (UInt8.ofNat n) := by decide
  have hlt : b < 128 := by
    rcases Bool.or_eq_true_iff.mp h with hb | hb
    · exact UInt8.lt_trans (of_decide_eq_true hb) (by decide)
    · rw [of_decide_eq_true hb]
      decide
  have hb := hall b.toNat (UInt8.lt_iff_toNat_lt.mp hlt)
  rw [UInt8.ofNat_toNat] at hb
  exact ⟨hlt, hb h⟩

/-- A byte that is no mark is plain: it is outside ASCII or a letter. -/
theorem plain_of_not_isMark {b : UInt8} (h : ¬isMark b) : 128 ≤ b ∨ hostByte b ∧ b ≠ colon ∧ b ≠ lbracket := by
  by_cases hlt : b < 128
  · have hletter : isLetter b := by simpa [isMark, hlt] using h
    refine .inr ⟨by simp [hostByte, hletter], fun he ↦ ?_, fun he ↦ ?_⟩ <;>
    · rw [he] at hletter
      exact absurd hletter (by decide)
  · exact .inl (UInt8.not_lt.mp hlt)

/-- A host that is read back as itself, up to the case of its letters, is plain. -/
theorem plainHost_of_parseHost (h : parseHost s = some t) (hm : marks (hostnameOf t) = marks s) :
    PlainHost s := by
  by_cases hl : lbracket ∈ s
  · obtain ⟨name, address, zone, port, rfl, hp, ha, hz, rfl⟩ := parseHost_literal h hl
    have hlt := marks_hostnameOf_literal (address ++ zone) hp
    have haddress := ha.marks_lt
    have hzone := hz.marks_lt
    have hname := congrArg marks (splitZone_append name)
    have hs : ∀ n, marks (lbracket :: n ++ rbracket :: port) = marks n + marks (rbracket :: port) + 1 := fun n ↦ by
      rw [List.cons_append, marks_cons, marks_append]
      rfl
    rw [hm, hs, hs, marks_append] at hlt
    rw [marks_append] at hname
    omega
  · have hle := marks_le_of_sublist (hostnameOf_sublist t)
    unfold parseHost at h
    rw [if_neg hl] at h
    split at h
    · next hport =>
      have hread := unescape_eq_some h
      have hlt := hread.marks_lt
      have hp : percent ∉ s := fun hp ↦ by
        rw [if_pos hp] at hlt
        omega
      obtain ⟨rfl, hbare⟩ := hread.eq_self hp
      have hc : colon ∉ t := fun hc ↦ absurd hm (marks_hostnameOf_port hc hport).ne
      intro b hb
      have hbb : 128 ≤ b ∨ hostByte b := by simpa [Encoding.allowsBare] using hbare b hb
      exact hbb.imp_right fun hh ↦ ⟨hh, fun he ↦ hc (he ▸ hb), fun he ↦ hl (he ▸ hb)⟩
    · cases h

theorem takeWhile_ne_append {sep : UInt8} {a : Bytes} (h : ∀ b ∈ a, b ≠ sep) (rest : Bytes) :
    (a ++ rest).takeWhile (· ≠ sep) = a ++ rest.takeWhile (· ≠ sep) :=
  List.takeWhile_append_of_pos fun b hb ↦ decide_eq_true (h b hb)

theorem dropWhile_ne_append {sep : UInt8} {a : Bytes} (h : ∀ b ∈ a, b ≠ sep) (rest : Bytes) :
    (a ++ rest).dropWhile (· ≠ sep) = rest.dropWhile (· ≠ sep) :=
  List.dropWhile_append_of_pos fun b hb ↦ decide_eq_true (h b hb)

/-- A port behind a host, with its colon. -/
def portText (port : Option Bytes) : Bytes := port.elim [] (fun digits ↦ colon :: digits)

section Port

variable {port : Option Bytes} (hs : PlainHost s) (hport : ∀ digits ∈ port, ∀ b ∈ digits, isDigit b)
include hs hport

theorem mem_host_port {b : UInt8} (hb : b ∈ s ++ portText port) : 128 ≤ b ∨ hostByte b ∧ b ≠ lbracket := by
  rcases List.mem_append.mp hb with hb | hb
  · exact (hs b hb).imp_right fun h ↦ ⟨h.1, h.2.2⟩
  · cases port with
    | none => cases hb
    | some digits =>
      rcases List.mem_cons.mp hb with rfl | hb
      · exact .inr (by decide)
      · have hd := hport digits rfl b hb
        refine .inr ⟨by simp [hostByte, hd], fun he ↦ ?_⟩
        rw [he] at hd
        exact absurd hd (by decide)

theorem notMem_host_port {b : UInt8} (hb : b < 128) (h : ¬hostByte b ∨ b = lbracket) : b ∉ s ++ portText port := by
  intro hm
  rcases mem_host_port hs hport hm with hge | ⟨hh, hl⟩
  · exact absurd hge (UInt8.not_le.mpr hb)
  · exact h.elim (fun hn ↦ hn hh) hl

theorem authority_host_port : ∀ b ∈ s ++ portText port, (b ≠ slash ∧ b ≠ question ∧ b ≠ sharp) ∧ ¬isCTL b := by
  intro b hb
  refine ⟨⟨fun he ↦ ?_, fun he ↦ ?_, fun he ↦ ?_⟩, fun hctl ↦ ?_⟩
  · exact notMem_host_port hs hport (by decide) (.inl (by decide)) (he ▸ hb)
  · exact notMem_host_port hs hport (by decide) (.inl (by decide)) (he ▸ hb)
  · exact notMem_host_port hs hport (by decide) (.inl (by decide)) (he ▸ hb)
  · obtain ⟨hlt, hnot⟩ := not_hostByte_of_isCTL hctl
    exact notMem_host_port hs hport hlt (.inl hnot) hb

/-- A host and a port are read as they are written, and the name of the host is without the port. -/
theorem parseHost_port :
    parseHost (s ++ portText port) = some (s ++ portText port) ∧ hostnameOf (s ++ portText port) = s := by
  have hl : lbracket ∉ s ++ portText port := notMem_host_port hs hport (by decide) (.inr rfl)
  have hc : colon ∉ s := hs.notMem (by decide) (.inr (.inl rfl))
  have hopen : lbracket ∉ s := hs.notMem (by decide) (.inr (.inr rfl))
  have hp : percent ∉ s ++ portText port := notMem_host_port hs hport (by decide) (.inl (by decide))
  have hbare : ∀ b ∈ s ++ portText port, Encoding.host.allowsBare b := fun b hb ↦ by
    rcases mem_host_port hs hport hb with hge | ⟨hh, -⟩
    · simp [Encoding.allowsBare, hge]
    · simp [Encoding.allowsBare, hh]
  have hdrop : validOptionalPort ((s ++ portText port).dropWhile (· ≠ colon)) := by
    have hne : ∀ b ∈ s, b ≠ colon := fun b hb he ↦ hc (he ▸ hb)
    rw [dropWhile_ne_append hne]
    cases port with
    | none => rfl
    | some digits =>
      change validOptionalPort ((colon :: digits).dropWhile (· ≠ colon))
      rw [List.dropWhile_cons_of_neg (by decide)]
      exact validOptionalPort_cons.mpr ⟨rfl, hport digits rfl⟩
  constructor
  · unfold parseHost
    rw [if_neg hl, if_pos hdrop]
    exact unescape_self hp hbare
  · cases port with
    | none => exact (congrArg hostnameOf (List.append_nil s)).trans (hostnameOf_plain hc hopen)
    | some digits =>
      have hname : withoutBrackets s = s :=
        if_neg fun h ↦ hopen (h.1.subset (List.mem_singleton_self _))
      change hostnameOf (s ++ colon :: digits) = s
      rw [hostnameOf, withoutPort_eq (validOptionalPort_cons.mpr ⟨rfl, hport digits rfl⟩), hname]

end Port

theorem parseHost_inHost (h : parseHost s = some t) : ∀ b ∈ t, InHost b := by
  by_cases hl : lbracket ∈ s
  · obtain ⟨name, address, zone, port, rfl, hp, ha, hz, rfl⟩ := parseHost_literal h hl
    have hport : ∀ b ∈ port, InHost b := fun b hb ↦ by
      cases port with
      | nil => cases hb
      | cons c port =>
        obtain ⟨rfl, hdigits⟩ := validOptionalPort_cons.mp hp
        rcases List.mem_cons.mp hb with rfl | hb
        · exact .inr (.inl (by decide))
        · exact .inr (.inl (by simp [hostByte, hdigits b hb]))
    intro b hb
    rcases List.mem_append.mp hb with hb | hb
    · rcases List.mem_cons.mp hb with rfl | hb
      · exact .inr (.inl (by decide))
      · rcases List.mem_append.mp hb with hb | hb
        · exact ha.inHost (.inl rfl) b hb
        · exact hz.inHost (.inr rfl) b hb
    · rcases List.mem_cons.mp hb with rfl | hb
      · exact .inr (.inl (by decide))
      · exact hport b hb
  · unfold parseHost at h
    rw [if_neg hl] at h
    split at h
    · exact (unescape_eq_some h).inHost (.inl rfl)
    · cases h

theorem parseAuthority_inHost (h : parseAuthority s = some t) : ∀ b ∈ t, InHost b := by
  unfold parseAuthority at h
  split at h
  · simp only at h
    split at h
    · exact parseHost_inHost h
    · cases h
  · exact parseHost_inHost h

theorem parse_inHost {raw : Bytes} {u : URL} (h : parse raw = some u) : ∀ b ∈ u.hostname, InHost b := by
  have hhost : ∀ b ∈ u.host, InHost b := by
    obtain ⟨v, hv, hu⟩ := Option.bind_eq_some_iff.mp h
    obtain ⟨-, -, rfl⟩ := Option.map_eq_some_iff.mp hu
    have hnone : ∀ b ∈ ([] : Bytes), InHost b := fun b hb ↦ by cases hb
    unfold parseUnfragmented at hv
    split at hv
    · cases hv
    · split at hv
      · cases hv
        exact hnone
      · obtain ⟨⟨scheme, rest⟩, -, hr⟩ := Option.bind_eq_some_iff.mp hv
        unfold parseRest at hr
        split at hr
        · split at hr
          · obtain ⟨host, hh, hp⟩ := Option.bind_eq_some_iff.mp hr
            obtain ⟨path, -, rfl⟩ := Option.map_eq_some_iff.mp hp
            exact parseAuthority_inHost hh
          · obtain ⟨path, -, rfl⟩ := Option.map_eq_some_iff.mp hr
            exact hnone
        · split at hr
          · cases hr
            exact hnone
          · split at hr
            · cases hr
            · obtain ⟨path, -, rfl⟩ := Option.map_eq_some_iff.mp hr
              exact hnone
  exact fun b hb ↦ hhost b ((hostnameOf_sublist u.host).subset hb)

theorem lower_ne {b c : UInt8} (h : isLower b) (hc : ¬isLower c) : b ≠ c := fun he ↦ hc (he ▸ h)

theorem not_isCTL_of_isLower {b : UInt8} (h : isLower b) : ¬isCTL b := by
  simp only [isLower, isCTL, Bool.and_eq_true, Bool.or_eq_true, decide_eq_true_eq, UInt8.le_iff_toNat_le,
    UInt8.lt_iff_toNat_lt, ← UInt8.toNat_inj] at h ⊢
  intro hctl
  change 97 ≤ b.toNat ∧ b.toNat ≤ 122 at h
  change b.toNat < 32 ∨ b.toNat = 127 at hctl
  omega

section Scheme

variable {scheme : Bytes} (hs : scheme ≠ []) (hlower : ∀ b ∈ scheme, isLower b)
include hs hlower

theorem getScheme_of_lower (rest : Bytes) : getScheme (scheme ++ colon :: rest) = some (scheme, rest) := by
  have hbyte : ∀ b ∈ scheme, schemeByte b = true := fun b hb ↦ by simp [schemeByte, isLetter, hlower b hb]
  have hname : (scheme ++ colon :: rest).takeWhile schemeByte = scheme := by
    rw [List.takeWhile_append_of_pos hbyte, List.takeWhile_cons_of_neg (by decide), List.append_nil]
  have hrest : (scheme ++ colon :: rest).dropWhile schemeByte = colon :: rest := by
    rw [List.dropWhile_append_of_pos hbyte, List.dropWhile_cons_of_neg (by decide)]
  have hhead : isLetter (scheme.headD 0) := by
    cases scheme with
    | nil => exact absurd rfl hs
    | cons b scheme => simp [isLetter, hlower b List.mem_cons_self]
  unfold getScheme
  simp only [hname, hrest]
  rw [if_neg (not_not.mpr rfl), if_neg hs, if_pos hhead]

theorem parseRest_of_lower {authority : Bytes} (ha : ∀ b ∈ authority, b ≠ slash) (rest : Bytes) :
    parseRest scheme (slash :: slash :: (authority ++ slash :: rest)) =
      (parseAuthority authority).bind (fun host ↦
        (unescape .path (slash :: rest)).map (fun path ↦ ⟨scheme, host, path⟩)) := by
  have hscheme : scheme.map lowerByte = scheme := by
    refine (List.map_congr_left fun b hb ↦ ?_).trans (List.map_id scheme)
    have hge : 97 ≤ b := of_decide_eq_true (Bool.and_eq_true_iff.mp (hlower b hb)).1
    exact if_neg fun h ↦ absurd (UInt8.le_trans hge h.2) (by decide)
  have hname : (authority ++ slash :: rest).takeWhile (· ≠ slash) = authority := by
    rw [takeWhile_ne_append ha, List.takeWhile_cons_of_neg (by decide), List.append_nil]
  have hrest : (authority ++ slash :: rest).dropWhile (· ≠ slash) = slash :: rest := by
    rw [dropWhile_ne_append ha, List.dropWhile_cons_of_neg (by decide)]
  unfold parseRest
  rw [if_pos (by simp), if_pos ⟨by simp, .inl hs⟩]
  simp only [List.drop_succ_cons, List.drop_zero, hname, hrest, hscheme]

end Scheme

/-- What `parse` makes of a scheme, an authority and what follows the slash behind it. -/
theorem parse_authority {scheme authority : Bytes} (hs : scheme ≠ []) (hlower : ∀ b ∈ scheme, isLower b)
    (ha : ∀ b ∈ authority, b ≠ slash ∧ b ≠ question ∧ b ≠ sharp) (rest : Bytes) :
    parse (scheme ++ colon :: slash :: slash :: (authority ++ slash :: rest)) =
      if authority.any isCTL || (rest.takeWhile (· ≠ sharp)).any isCTL then none
      else (parseAuthority authority).bind (fun host ↦
        (unescape .path (slash :: (rest.takeWhile (· ≠ sharp)).takeWhile (· ≠ question))).bind (fun path ↦
          (unescape .fragment ((rest.dropWhile (· ≠ sharp)).drop 1)).map (fun _ ↦ ⟨scheme, host, path⟩))) := by
  have hbefore : ∀ b ∈ scheme ++ colon :: slash :: slash :: (authority ++ [slash]), b ≠ sharp := by
    intro b hb
    simp only [List.mem_append, List.mem_cons, List.not_mem_nil, or_false] at hb
    rcases hb with hb | rfl | rfl | rfl | hb | rfl
    · exact lower_ne (hlower b hb) (by decide)
    · decide
    · decide
    · decide
    · exact (ha b hb).2.2
    · decide
  have hraw : ∀ tail, scheme ++ colon :: slash :: slash :: (authority ++ slash :: tail) =
      (scheme ++ colon :: slash :: slash :: (authority ++ [slash])) ++ tail := fun tail ↦ by
    simp
  have hctl : ∀ tail, (scheme ++ colon :: slash :: slash :: (authority ++ slash :: tail)).any isCTL =
      (authority.any isCTL || tail.any isCTL) := fun tail ↦ by
    have hnone : scheme.any isCTL = false := List.any_eq_false.mpr fun b hb ↦
      not_isCTL_of_isLower (hlower b hb)
    simp only [List.any_append, List.any_cons, hnone]
    rfl
  have hrest : ∀ tail, (slash :: slash :: (authority ++ slash :: tail)).takeWhile (· ≠ question) =
      slash :: slash :: (authority ++ slash :: tail.takeWhile (· ≠ question)) := fun tail ↦ by
    rw [List.takeWhile_cons_of_pos (by decide), List.takeWhile_cons_of_pos (by decide),
      takeWhile_ne_append fun b hb ↦ (ha b hb).2.1, List.takeWhile_cons_of_pos (by decide)]
  have hstar : ∀ tail, scheme ++ colon :: slash :: slash :: (authority ++ slash :: tail) ≠ [42] := fun tail h ↦ by
    have hlen := congrArg List.length h
    simp at hlen
    omega
  rw [parse, hraw, takeWhile_ne_append hbefore, dropWhile_ne_append hbefore, ← hraw, parseUnfragmented, hctl]
  split
  · rfl
  · rw [if_neg (hstar _), getScheme_of_lower hs hlower, Option.bind_some, hrest,
      parseRest_of_lower hs hlower fun b hb ↦ (ha b hb).1, Option.bind_assoc]
    congr 1
    funext host
    rw [Option.bind_map]
    rfl

theorem parse_authority_eq_some {scheme authority : Bytes} (hs : scheme ≠ []) (hlower : ∀ b ∈ scheme, isLower b)
    (ha : ∀ b ∈ authority, b ≠ slash ∧ b ≠ question ∧ b ≠ sharp) {rest : Bytes} {u : URL} :
    parse (scheme ++ colon :: slash :: slash :: (authority ++ slash :: rest)) = some u ↔
      ((∀ b ∈ authority, ¬isCTL b) ∧ ∀ b ∈ rest.takeWhile (· ≠ sharp), ¬isCTL b) ∧
        decodable .fragment ((rest.dropWhile (· ≠ sharp)).drop 1) ∧
          ∃ host path, parseAuthority authority = some host ∧
            unescape .path (slash :: (rest.takeWhile (· ≠ sharp)).takeWhile (· ≠ question)) = some path ∧
              u = ⟨scheme, host, path⟩ := by
  rw [parse_authority hs hlower ha]
  have hctl : (authority.any isCTL || (rest.takeWhile (· ≠ sharp)).any isCTL) = true ↔
      ¬((∀ b ∈ authority, ¬isCTL b) ∧ ∀ b ∈ rest.takeWhile (· ≠ sharp), ¬isCTL b) := by
    rw [Bool.or_eq_true, List.any_eq_true, List.any_eq_true, not_and_or]
    simp only [not_forall, not_not, exists_prop]
  by_cases h : (∀ b ∈ authority, ¬isCTL b) ∧ ∀ b ∈ rest.takeWhile (· ≠ sharp), ¬isCTL b
  · rw [if_neg fun hc ↦ hctl.mp hc h]
    simp only [Option.bind_eq_some_iff, Option.map_eq_some_iff]
    constructor
    · rintro ⟨host, hhost, path, hpath, fragment, hf, rfl⟩
      exact ⟨h, Option.isSome_iff_exists.mpr ⟨fragment, hf⟩, host, path, hhost, hpath, rfl⟩
    · rintro ⟨-, hf, host, path, hhost, hpath, rfl⟩
      obtain ⟨fragment, hf⟩ := Option.isSome_iff_exists.mp hf
      exact ⟨host, hhost, path, hpath, fragment, hf, rfl⟩
  · rw [if_pos (hctl.mpr h)]
    exact ⟨fun hn ↦ (by cases hn), fun hu ↦ absurd hu.1 h⟩

end GoURL

end KubeCenter.Core
