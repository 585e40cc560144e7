import KubeCenter.Core.GoString

/-! Distinguished names as RFC 4514 writes them. A tree is one way to write a name: it keeps the
escapes, the spaces and the spelling of the types, and a text the grammar refuses has no tree. -/

namespace KubeCenter.Core

structure HexPair where
  high : Char
  low : Char
  isHex : (hexDigit high).isSome ∧ (hexDigit low).isSome

namespace HexPair

def octet (pair : HexPair) : UInt8 :=
  UInt8.ofNat (16 * (hexDigit pair.high).getD 0 + (hexDigit pair.low).getD 0)

def written (pair : HexPair) : Text := [pair.high, pair.low]

theorem comma_notMem (pair : HexPair) : ',' ∉ pair.written := by
  have hdigit : ¬(hexDigit ',').isSome := by decide
  intro h
  rcases List.mem_pair.mp h with hc | hc
  · exact hdigit (hc ▸ pair.isHex.1)
  · exact hdigit (hc ▸ pair.isHex.2)

end HexPair

/-- What stands in a value only behind a backslash. -/
def alwaysEscaped : List Char := [Char.ofNat 0, '\"', '+', ',', ';', '<', '>', '\\']

/-- What a backslash may stand before, two hex digits apart. -/
def escapable : List Char := ['\\', '\"', '+', ',', ';', '<', '>', ' ', '#', '=']

inductive DNElement
  | plain (c : Char) (allowed : c ∉ alwaysEscaped)
  | escaped (c : Char) (allowed : c ∈ escapable)
  | hex (pair : HexPair)

namespace DNElement

def written : DNElement → Text
  | plain c _ => [c]
  | escaped c _ => ['\\', c]
  | hex pair => '\\' :: pair.written

def meaning : DNElement → Bytes
  | plain c _ => String.utf8EncodeChar c
  | escaped c _ => String.utf8EncodeChar c
  | hex pair => [pair.octet]

def isPlain : DNElement → Bool
  | plain _ _ => true
  | escaped _ _ => false
  | hex _ => false

end DNElement

/-- A value in the string form: no bare space or `#` opens it and no bare space closes it. -/
structure DNString where
  elements : List DNElement
  opening : ∀ c h, elements.head? = some (.plain c h) → c ≠ ' ' ∧ c ≠ '#'
  closing : ∀ c h, elements.getLast? = some (.plain c h) → c ≠ ' '

/-- The big-endian number the octets of a long length stand for. -/
def bigEndian (octets : Bytes) : ℕ := octets.foldl (fun n b ↦ 256 * n + b.toNat) 0

def exactly (length : ℕ) (content : Bytes) : Option Bytes :=
  if content.length = length then some content else none

/-- The content octets of a BER encoding: a one-octet identifier, a definite length in the short
or the long form, and nothing behind the content. -/
def berContent : Bytes → Option Bytes
  | identifier :: length :: rest =>
    if identifier.toNat % 32 = 31 ∨ length.toNat = 128 then none
    else if length.toNat < 128 then exactly length.toNat rest
    else exactly (bigEndian (rest.take (length.toNat - 128))) (rest.drop (length.toNat - 128))
  | _ => none

/-- A value in the `#` form: the hex of a BER encoding. -/
structure DNHex where
  pairs : List HexPair
  content : Bytes
  encodes : berContent (pairs.map HexPair.octet) = some content

inductive DNValue
  | string (s : DNString)
  | hexstring (s : DNHex)

namespace DNValue

def written : DNValue → Text
  | string s => s.elements.flatMap DNElement.written
  | hexstring s => '#' :: s.pairs.flatMap HexPair.written

def meaning : DNValue → Bytes
  | string s => s.elements.flatMap DNElement.meaning
  | hexstring s => s.content

/-- The value stands for itself: every character is bare. -/
def isVerbatim : DNValue → Bool
  | string s => s.elements.all DNElement.isPlain
  | hexstring _ => false

end DNValue

inductive AttributeType
  | descr (lead : Char) (rest : Text) (alpha : lead.isAlpha) (keychars : ∀ c ∈ rest, c.isAlphanum ∨ c = '-')
  | numericoid (arcs : List ℕ) (dotted : 2 ≤ arcs.length)

namespace AttributeType

def written : AttributeType → Text
  | descr lead rest _ _ => lead :: rest
  | numericoid arcs _ => ['.'].intercalate (arcs.map (Nat.toDigits 10))

/-- The two names of `commonName`, of which the case does not count, and its object identifier. -/
def isCN : AttributeType → Bool
  | descr lead rest _ _ =>
    (lead :: rest).map Char.toUpper = "CN".toList ∨ (lead :: rest).map Char.toUpper = "COMMONNAME".toList
  | numericoid arcs _ => arcs = [2, 5, 4, 3]

end AttributeType

def spaced (n : ℕ) : Text := List.replicate n ' '

structure Attribute where
  before : ℕ := 0
  attributeType : AttributeType
  beforeEquals : ℕ := 0
  afterEquals : ℕ := 0
  value : DNValue
  after : ℕ := 0

namespace Attribute

def label (a : Attribute) : Text := spaced a.before ++ (a.attributeType.written ++ spaced a.beforeEquals)

def body (a : Attribute) : Text := spaced a.afterEquals ++ (a.value.written ++ spaced a.after)

def written (a : Attribute) : Text := a.label ++ '=' :: a.body

end Attribute

/-- A relative name has one attribute or more, a `+` between each two. -/
structure RelativeName where
  first : Attribute
  more : List Attribute := []

namespace RelativeName

def written (r : RelativeName) : Text := r.first.written ++ r.more.flatMap (fun a ↦ '+' :: a.written)

/-- The value of the CN attribute, empty where there is none. -/
def cn (r : RelativeName) : Bytes :=
  ((r.first :: r.more).find? (fun a ↦ a.attributeType.isCN)).elim [] (fun a ↦ a.value.meaning)

end RelativeName

abbrev DistinguishedName := List RelativeName

namespace DistinguishedName

def written (dn : DistinguishedName) : Text := [','].intercalate (dn.map RelativeName.written)

/-- The value of the CN attribute of the first relative name. -/
def cn (dn : DistinguishedName) : Bytes := dn.head?.elim [] RelativeName.cn

theorem written_cons (r : RelativeName) (rs : DistinguishedName) :
    written (r :: rs) = r.written ++ (rs.map RelativeName.written).flatMap (fun t ↦ ',' :: t) :=
  intercalate_singleton_cons ',' r.written (rs.map RelativeName.written)

end DistinguishedName

theorem utf8_nil_iff (s : Text) : utf8 s = [] ↔ s = [] := by
  refine ⟨fun h ↦ ?_, fun h ↦ h ▸ rfl⟩
  cases s with
  | nil => rfl
  | cons c s => exact absurd (List.append_eq_nil_iff.mp h).1 String.utf8EncodeChar_ne_nil

theorem length_le_utf8 (s : Text) : s.length ≤ (utf8 s).length := by
  induction s with
  | nil => exact Nat.le_refl 0
  | cons c s ih =>
    have hc := c.utf8Size_pos
    rw [utf8_cons, List.length_append, String.length_utf8EncodeChar, List.length_cons]
    omega

/-- An ASCII byte in the encoding of a text is one of its characters. -/
theorem mem_of_ascii_mem_utf8 {c : Char} (hc : c.toNat < 128) {s : Text} (h : UInt8.ofNat c.toNat ∈ utf8 s) :
    c ∈ s := by
  obtain ⟨d, hd, hm⟩ := List.mem_flatMap.mp h
  have hlow : (UInt8.ofNat c.toNat).toNat = c.toNat := by
    rw [UInt8.toNat_ofNat', Nat.mod_eq_of_lt (by omega)]
  rcases ascii_or_high d with ⟨hlt, he⟩ | ⟨-, hb⟩
  · rw [he, List.mem_singleton] at hm
    have heq := congrArg UInt8.toNat hm
    rw [hlow, UInt8.toNat_ofNat', Nat.mod_eq_of_lt (by omega)] at heq
    rwa [Char.toNat_inj.mp heq]
  · have hge := UInt8.le_iff_toNat_le.mp (hb _ hm)
    rw [hlow] at hge
    exact absurd hge (by simpa using hc)

namespace DNElement

theorem meaning_of_isPlain {e : DNElement} (h : e.isPlain) : utf8 e.written = e.meaning := by
  cases e with
  | plain c _ => exact List.append_nil _
  | escaped c _ => cases h
  | hex pair => cases h

/-- A backslash costs at least the byte it is. -/
theorem length_meaning (e : DNElement) :
    e.meaning.length + (if e.isPlain then 0 else 1) ≤ (utf8 e.written).length := by
  cases e with
  | plain c _ => exact (congrArg List.length (List.append_nil _)).ge
  | escaped c _ =>
    have hlen : (utf8 (written (.escaped c ‹_›))).length = 1 + (String.utf8EncodeChar c).length := by
      simp [written, utf8]
      rfl
    rw [hlen, Nat.add_comm]
    rfl
  | hex pair =>
    have hlen := length_le_utf8 (written (.hex pair))
    exact Nat.le_trans (Nat.le_succ 2) hlen

theorem comma_mem_written {e : DNElement} (h : ',' ∈ e.written) : 44 ∈ e.meaning := by
  cases e with
  | plain c allowed =>
    have hc : ',' = c := List.mem_singleton.mp h
    exact absurd (hc ▸ (by decide : ',' ∈ alwaysEscaped)) allowed
  | escaped c _ =>
    have hc : ',' = c := by simpa [written] using h
    change 44 ∈ String.utf8EncodeChar c
    rw [← hc]
    exact List.mem_singleton.mpr (by decide)
  | hex pair =>
    rcases List.mem_cons.mp h with hc | hm
    · exact absurd hc (by decide)
    · exact absurd hm pair.comma_notMem

theorem comma_notMem_of_isPlain {e : DNElement} (h : e.isPlain) : ',' ∉ e.written := by
  cases e with
  | plain c allowed =>
    intro hm
    have hc : ',' = c := List.mem_singleton.mp hm
    exact absurd (hc ▸ (by decide : ',' ∈ alwaysEscaped)) allowed
  | escaped c _ => cases h
  | hex pair => cases h

/-- `length_meaning` over a run of elements: an escape anywhere makes the text the longer one. -/
theorem length_meanings (es : List DNElement) :
    (es.flatMap meaning).length + (if es.all isPlain then 0 else 1) ≤ (utf8 (es.flatMap written)).length := by
  induction es with
  | nil => exact Nat.le_refl 0
  | cons e es ih =>
    have he := length_meaning e
    rw [List.flatMap_cons, List.flatMap_cons, utf8_append, List.length_append, List.length_append,
      List.all_cons]
    cases hp : e.isPlain <;> simp only [hp, Bool.true_and, Bool.false_and, Bool.false_eq_true, if_true,
      if_false] at he ⊢ <;> omega

end DNElement

theorem exactly_eq {length : ℕ} {b content : Bytes} (h : exactly length b = some content) : content = b := by
  unfold exactly at h
  split at h
  · exact (Option.some.inj h).symm
  · cases h

theorem berContent_length {b content : Bytes} (h : berContent b = some content) :
    content.length ≤ b.length := by
  unfold berContent at h
  split at h
  · next identifier length rest =>
    split at h
    · cases h
    · split at h
      · rw [exactly_eq h]
        exact Nat.le_trans (Nat.le_succ _) (Nat.le_succ _)
      · rw [exactly_eq h, List.length_drop, List.length_cons, List.length_cons]
        omega
  · cases h

theorem length_flatMap_hex (pairs : List HexPair) :
    (pairs.flatMap HexPair.written).length = 2 * pairs.length := by
  induction pairs with
  | nil => rfl
  | cons pair pairs ih =>
    rw [List.flatMap_cons, List.length_append, ih, List.length_cons]
    change 2 + _ = _
    omega

namespace DNValue

theorem utf8_written_string (s : DNString) :
    utf8 (written (.string s)) = s.elements.flatMap (fun e ↦ utf8 e.written) := List.flatMap_assoc

theorem meaning_of_isVerbatim {v : DNValue} (h : v.isVerbatim) : utf8 v.written = v.meaning := by
  cases v with
  | string s =>
    rw [utf8_written_string]
    exact List.flatMap_congr fun e he ↦ DNElement.meaning_of_isPlain (List.all_eq_true.mp h e he)
  | hexstring s => cases h

theorem comma_notMem_of_isVerbatim {v : DNValue} (h : v.isVerbatim) : ',' ∉ v.written := by
  cases v with
  | string s =>
    intro hm
    obtain ⟨e, he, hc⟩ := List.mem_flatMap.mp hm
    exact DNElement.comma_notMem_of_isPlain (List.all_eq_true.mp h e he) hc
  | hexstring s => cases h

theorem length_meaning (v : DNValue) :
    v.meaning.length + (if v.isVerbatim then 0 else 1) ≤ (utf8 v.written).length := by
  cases v with
  | string s => exact DNElement.length_meanings s.elements
  | hexstring s =>
    have hcontent := berContent_length s.encodes
    have htext : 2 * s.pairs.length + 1 ≤ (utf8 (written (.hexstring s))).length := by
      rw [← length_flatMap_hex]
      exact length_le_utf8 (written (.hexstring s))
    rw [List.length_map] at hcontent
    change s.content.length + 1 ≤ _
    omega

theorem comma_mem_written {v : DNValue} (h : ',' ∈ v.written) : 44 ∈ v.meaning := by
  cases v with
  | string s =>
    obtain ⟨e, he, hm⟩ := List.mem_flatMap.mp h
    exact List.mem_flatMap.mpr ⟨e, he, DNElement.comma_mem_written hm⟩
  | hexstring s =>
    rcases List.mem_cons.mp h with hc | hm
    · exact absurd hc (by decide)
    · obtain ⟨pair, -, hp⟩ := List.mem_flatMap.mp hm
      exact absurd hp pair.comma_notMem

end DNValue

theorem mem_spaced {n : ℕ} {c : Char} (h : c ∈ spaced n) : c = ' ' := List.eq_of_mem_replicate h

namespace AttributeType

/-- A type is written in letters, digits, hyphens and dots. -/
theorem mem_written {t : AttributeType} {c : Char} (h : c ∈ t.written) : c.isAlphanum ∨ c = '-' ∨ c = '.' := by
  cases t with
  | descr lead rest alpha keychars =>
    rcases List.mem_cons.mp h with rfl | hc
    · exact .inl (by simp [Char.isAlphanum, alpha])
    · exact (keychars c hc).imp_right .inl
  | numericoid arcs _ =>
    rcases mem_of_mem_intercalate h with rfl | ⟨t, ht, hc⟩
    · exact .inr (.inr rfl)
    · obtain ⟨n, -, rfl⟩ := List.mem_map.mp ht
      have hd := Nat.isDigit_of_mem_toDigits (by decide) (by decide) hc
      exact .inl (by simp [Char.isAlphanum, hd])

theorem dot_mem_numericoid {arcs : List ℕ} (dotted : 2 ≤ arcs.length) :
    '.' ∈ (numericoid arcs dotted).written := by
  match arcs, dotted with
  | m :: n :: arcs, _ =>
    rw [written, List.map_cons, intercalate_singleton_cons, List.map_cons, List.flatMap_cons]
    exact List.mem_append_right _ (List.mem_append_left _ List.mem_cons_self)

end AttributeType

namespace Attribute

theorem mem_label {a : Attribute} {c : Char} (h : c ∈ a.label) :
    c = ' ' ∨ c.isAlphanum ∨ c = '-' ∨ c = '.' := by
  rcases List.mem_append.mp h with hs | h
  · exact .inl (mem_spaced hs)
  · rcases List.mem_append.mp h with ht | hs
    · exact .inr (AttributeType.mem_written ht)
    · exact .inl (mem_spaced hs)

theorem equals_notMem_label (a : Attribute) : '=' ∉ a.label := fun h ↦
  absurd (mem_label h) (by decide)

theorem comma_notMem_label (a : Attribute) : ',' ∉ a.label := fun h ↦
  absurd (mem_label h) (by decide)

/-- A label that is `CN` in some case has no space in it and is a name of the type. -/
theorem isCN_of_label {a : Attribute} (h : a.label.map Char.toUpper = ['C', 'N']) : a.attributeType.isCN := by
  have hletters : ∀ c ∈ a.label, c.toUpper ∈ ['C', 'N'] := fun c hc ↦ by
    rw [← h]
    exact List.mem_map_of_mem hc
  have hspace : ' ' ∉ a.label := fun hm ↦ absurd (hletters ' ' hm) (by decide)
  have hdot : '.' ∉ a.label := fun hm ↦ absurd (hletters '.' hm) (by decide)
  have hbefore : spaced a.before = [] := List.eq_nil_iff_forall_not_mem.mpr fun c hc ↦
    hspace (mem_spaced hc ▸ List.mem_append_left _ hc)
  have hafter : spaced a.beforeEquals = [] := List.eq_nil_iff_forall_not_mem.mpr fun c hc ↦
    hspace (mem_spaced hc ▸ List.mem_append_right _ (List.mem_append_right _ hc))
  have hlabel : a.label = a.attributeType.written := by
    rw [label, hbefore, hafter, List.nil_append, List.append_nil]
  rw [hlabel] at h hdot
  cases ht : a.attributeType with
  | descr lead rest _ _ =>
    rw [ht] at h
    change (lead :: rest).map Char.toUpper = _ at h
    rw [AttributeType.isCN, h]
    decide
  | numericoid arcs dotted =>
    rw [ht] at hdot
    exact absurd (AttributeType.dot_mem_numericoid dotted) hdot

end Attribute

end KubeCenter.Core
