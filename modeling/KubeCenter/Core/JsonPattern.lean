import Mathlib.Data.List.Infix
import KubeCenter.Core.GoJson
import KubeCenter.Core.GoString

/-! String patterns with wildcards, alternatives and negation. -/

namespace KubeCenter.Core

/-- A `*` stands for any string and a `?` for any character. -/
def wildcard : List Char → List Char → Bool
  | [] => List.isEmpty
  | c :: p => fun s ↦
    if c = '*' then s.tails.any (wildcard p)
    else match s with
      | [] => false
      | d :: s => (c = '?' || c = d) && wildcard p s

/-- A character that stands for itself. -/
def isLiteral (c : Char) : Bool := c ≠ '*' && c ≠ '?'

variable {a p s : List Char} {c d : Char}

theorem wildcard_cons_star : wildcard ('*' :: p) s = s.tails.any (wildcard p) := rfl

theorem wildcard_cons_cons (h : c ≠ '*') : wildcard (c :: p) (d :: s) = ((c = '?' || c = d) && wildcard p s) := if_neg h

theorem wildcard_star : wildcard ('*' :: p) s = true ↔ ∃ u t, s = u ++ t ∧ wildcard p t = true := by
  rw [wildcard_cons_star, List.any_eq_true]
  simp only [List.mem_tails]
  constructor
  · rintro ⟨t, ⟨u, hu⟩, ht⟩
    exact ⟨u, t, hu.symm, ht⟩
  · rintro ⟨u, t, rfl, ht⟩
    exact ⟨t, ⟨u, rfl⟩, ht⟩

theorem wildcard_append (h : ∀ c ∈ a, isLiteral c = true) :
    wildcard (a ++ p) s = true ↔ ∃ t, s = a ++ t ∧ wildcard p t = true := by
  induction a generalizing s with
  | nil => simp
  | cons c a ih =>
    obtain ⟨hc, ha⟩ := List.forall_mem_cons.mp h
    unfold isLiteral at hc
    simp only [Bool.and_eq_true, decide_eq_true_eq] at hc
    cases s with
    | nil => simp [wildcard, hc.1]
    | cons d s =>
      rw [List.cons_append, wildcard_cons_cons hc.1]
      simp only [hc.2, decide_false, Bool.false_or, Bool.and_eq_true, decide_eq_true_eq, ih ha, List.cons_append,
        List.cons.injEq]
      constructor
      · rintro ⟨rfl, t, rfl, ht⟩
        exact ⟨t, ⟨rfl, rfl⟩, ht⟩
      · rintro ⟨t, ⟨rfl, rfl⟩, ht⟩
        exact ⟨rfl, t, rfl, ht⟩

theorem wildcard_nil : wildcard [] s = true ↔ s = [] := List.isEmpty_iff

theorem wildcard_any : wildcard ['*'] s = true :=
  wildcard_star.mpr ⟨s, [], (List.append_nil s).symm, wildcard_nil.mpr rfl⟩

/-- A prefix and anything behind it. -/
theorem wildcard_starts (h : ∀ c ∈ a, isLiteral c = true) : wildcard (a ++ ['*']) s = true ↔ a <+: s := by
  rw [wildcard_append h]
  constructor
  · rintro ⟨t, rfl, -⟩
    exact List.prefix_append a t
  · rintro ⟨t, rfl⟩
    exact ⟨t, rfl, wildcard_any⟩

theorem wildcard_ends (h : ∀ c ∈ a, isLiteral c = true) : wildcard ('*' :: a) s = true ↔ a <:+ s := by
  rw [wildcard_star]
  constructor
  · rintro ⟨u, t, rfl, ht⟩
    rw [← List.append_nil a, wildcard_append h] at ht
    obtain ⟨v, rfl, hv⟩ := ht
    rw [wildcard_nil.mp hv, List.append_nil]
    exact List.suffix_append u a
  · rintro ⟨u, rfl⟩
    refine ⟨u, a, rfl, ?_⟩
    have happend := (wildcard_append (p := []) (s := a) h).mpr ⟨[], (List.append_nil a).symm, rfl⟩
    rwa [List.append_nil] at happend

theorem wildcard_within (h : ∀ c ∈ a, isLiteral c = true) : wildcard ('*' :: (a ++ ['*'])) s = true ↔ a <:+: s := by
  rw [wildcard_star]
  simp only [wildcard_starts h]
  constructor
  · rintro ⟨u, t, rfl, v, rfl⟩
    exact ⟨u, v, List.append_assoc u a v⟩
  · rintro ⟨u, v, rfl⟩
    exact ⟨u, a ++ v, List.append_assoc u a v, List.prefix_append a v⟩

theorem wildcard_nonempty : wildcard ['?', '*'] s = true ↔ s ≠ [] := by
  cases s with
  | nil => decide
  | cons d s =>
    rw [wildcard_cons_cons (by decide)]
    simp [wildcard_any]

theorem wildcard_literal (h : ∀ c ∈ a, isLiteral c = true) : wildcard a s = true ↔ s = a := by
  have happend := wildcard_append (p := []) (s := s) h
  rw [List.append_nil] at happend
  simp only [happend, wildcard_nil, exists_eq_right, List.append_nil]

/-! Patterns: alternatives between `|`, each a conjunction over `&`, a leading `!` negates. -/

def trimBlanks (cs : List Char) : List Char := ((cs.dropWhile (· = ' ')).reverse.dropWhile (· = ' ')).reverse

def matchOperand (p s : List Char) : Bool :=
  match p with
  | '!' :: p => !wildcard p s
  | p => wildcard p s

def matchConjunction (p s : List Char) : Bool := (p.splitOn '&').all fun q ↦ matchOperand (trimBlanks q) s

def matchPattern (p s : List Char) : Bool := (p.splitOn '|').any fun q ↦ matchConjunction (trimBlanks q) s

/-- No blank stands at an end. -/
def Trimmed (cs : List Char) : Prop := cs.head? ≠ some ' ' ∧ cs.getLast? ≠ some ' '

theorem dropWhile_blank {cs : List Char} (h : cs.head? ≠ some ' ') : cs.dropWhile (· = ' ') = cs := by
  cases cs with
  | nil => rfl
  | cons c cs =>
    have hc : c ≠ ' ' := fun hc ↦ h (congrArg some hc)
    rw [List.dropWhile_cons, if_neg (by simpa using hc)]

theorem trimBlanks_eq {cs : List Char} (h : Trimmed cs) : trimBlanks cs = cs := by
  unfold trimBlanks
  rw [dropWhile_blank h.1, dropWhile_blank (by rw [List.head?_reverse]; exact h.2), List.reverse_reverse]

theorem trimBlanks_cons (cs : List Char) : trimBlanks (' ' :: cs) = trimBlanks cs := by
  unfold trimBlanks
  rw [List.dropWhile_cons, if_pos (by decide)]

theorem trimBlanks_append {cs : List Char} (h : Trimmed cs) : trimBlanks (cs ++ [' ']) = cs := by
  cases cs with
  | nil => decide
  | cons c cs =>
    have hhead : (c :: cs ++ [' ']).head? ≠ some ' ' := h.1
    unfold trimBlanks
    rw [dropWhile_blank hhead, List.reverse_append]
    change ((' ' :: (c :: cs).reverse).dropWhile (· = ' ')).reverse = c :: cs
    rw [List.dropWhile_cons, if_pos (by decide), dropWhile_blank (by rw [List.head?_reverse]; exact h.2),
      List.reverse_reverse]

/-- A blank in front of the rest is left by the bar before it. -/
theorem trimBlanks_splitOn_cons {blank : List Char} (hblank : blank = [] ∨ blank = [' ']) {q : List Char}
    {parts : List (List Char)} (h : ∀ r ∈ q :: parts, '|' ∉ r ∧ Trimmed r) :
    ((blank ++ [' ', '|', ' '].intercalate (q :: parts)).splitOn '|').map trimBlanks = q :: parts := by
  induction parts generalizing q blank with
  | nil =>
    obtain ⟨hbar, htrim⟩ := h q List.mem_cons_self
    have hno : '|' ∉ blank ++ q := by
      rcases hblank with rfl | rfl
      · exact hbar
      · simpa using hbar
    have hone : [' ', '|', ' '].intercalate [q] = q := by simp
    rw [hone, List.splitOn_eq_singleton hno, List.map_singleton]
    rcases hblank with rfl | rfl
    · rw [List.nil_append, trimBlanks_eq htrim]
    · rw [List.singleton_append, trimBlanks_cons, trimBlanks_eq htrim]
  | cons q' parts ih =>
    obtain ⟨⟨hbar, htrim⟩, hrest⟩ := List.forall_mem_cons.mp h
    have hno : '|' ∉ blank ++ (q ++ [' ']) := by
      rcases hblank with rfl | rfl
      · simpa using hbar
      · simpa using hbar
    have hparts : blank ++ [' ', '|', ' '].intercalate (q :: q' :: parts) =
        (blank ++ (q ++ [' '])) ++ '|' :: ([' '] ++ [' ', '|', ' '].intercalate (q' :: parts)) := by
      rw [List.intercalate_cons_cons]
      simp
    rw [hparts, List.splitOn_append_cons_self_of_not_mem hno, List.map_cons, ih (.inr rfl) hrest]
    rcases hblank with rfl | rfl
    · rw [List.nil_append, trimBlanks_append htrim]
    · rw [List.singleton_append, trimBlanks_cons, trimBlanks_append htrim]

/-- Alternatives joined with blanks around the bar are the alternatives. -/
theorem trimBlanks_splitOn {parts : List (List Char)} (hne : parts ≠ []) (h : ∀ q ∈ parts, '|' ∉ q ∧ Trimmed q) :
    (([' ', '|', ' '].intercalate parts).splitOn '|').map trimBlanks = parts := by
  cases parts with
  | nil => exact absurd rfl hne
  | cons q parts => exact trimBlanks_splitOn_cons (.inl rfl) h

/-- A pattern without operators is its wildcard pattern. -/
structure Plain (p : List Char) : Prop where
  bar : '|' ∉ p
  ampersand : '&' ∉ p
  bang : p.head? ≠ some '!'
  trimmed : Trimmed p

theorem matchOperand_bang : matchOperand ('!' :: p) s = !wildcard p s := rfl

theorem matchOperand_eq (h : p.head? ≠ some '!') : matchOperand p s = wildcard p s := by
  unfold matchOperand
  split
  · exact absurd rfl h
  · rfl

theorem matchConjunction_plain (h : Plain p) : matchConjunction p s = wildcard p s := by
  unfold matchConjunction
  rw [List.splitOn_eq_singleton h.ampersand, List.all_cons, List.all_nil, Bool.and_true, trimBlanks_eq h.trimmed,
    matchOperand_eq h.bang]

theorem matchPattern_plain (h : Plain p) : matchPattern p s = wildcard p s := by
  unfold matchPattern
  rw [List.splitOn_eq_singleton h.bar, List.any_cons, List.any_nil, Bool.or_false, trimBlanks_eq h.trimmed,
    matchConjunction_plain h]

/-- Plain patterns joined with bars match what one of them matches. -/
theorem matchPattern_intercalate {parts : List (List Char)} (hne : parts ≠ []) (h : ∀ q ∈ parts, Plain q) :
    matchPattern ([' ', '|', ' '].intercalate parts) s = parts.any fun q ↦ wildcard q s := by
  have hsplit := trimBlanks_splitOn hne fun q hq ↦ ⟨(h q hq).bar, (h q hq).trimmed⟩
  have hany : matchPattern ([' ', '|', ' '].intercalate parts) s =
      ((([' ', '|', ' '].intercalate parts).splitOn '|').map trimBlanks).any fun q ↦ matchConjunction q s := by
    rw [List.any_map]
    rfl
  rw [hany, hsplit, Bool.eq_iff_iff, List.any_eq_true, List.any_eq_true]
  refine exists_congr fun q ↦ and_congr_right fun hq ↦ ?_
  rw [matchConjunction_plain (h q hq)]

end KubeCenter.Core

/-! Patterns of JSON values: what a pattern names must be there and match, an optional key only where it is there. -/

namespace KubeCenter.Core

/-- How a list of texts is matched with a list of patterns; one pattern stands for every text. -/
structure ScalarLists where
  matchList : List String → List String → Bool
  single (p : String) (items : List String) : matchList [p] items = items.all fun s ↦ matchPattern p.toList s.toList

/-- The first pattern for every text. -/
def ScalarLists.first : ScalarLists where
  matchList ps items := ps.head?.any fun p ↦ items.all fun s ↦ matchPattern p.toList s.toList
  single _ _ := rfl

/-- The key within `=(key)`. -/
def optionalKey (key : String) : Option String :=
  match key.toList with
  | '=' :: '(' :: cs => if cs.getLast? = some ')' then some (String.ofList cs.dropLast) else none
  | _ => none

namespace Json

/-- The text that a pattern sees. -/
def scalarText : Json → Option String
  | .string s => some s
  | .bool b => some (toString b)
  | .number text => some text
  | _ => none

def isObject : Json → Bool
  | .object _ => true
  | _ => false

end Json

mutual

def matchJson (lists : ScalarLists) : Json → Json → Bool
  | .object ps, .object fields => matchFields lists ps fields
  | .array ps, .array items => matchItems lists ps items
  | .string p, j => j.scalarText.any fun s ↦ matchPattern p.toList s.toList
  | .bool b, .bool b' => b = b'
  | .number n, .number n' => n = n'
  | .null, .null => true
  | _, _ => false

/-- One object stands for every item. -/
def matchItems (lists : ScalarLists) : List Json → List Json → Bool
  | [], _ => false
  | p :: ps, items =>
    if ps.isEmpty && p.isObject then items.all fun j ↦ matchJson lists p j
    else match (p :: ps).mapM Json.scalarText, items.mapM Json.scalarText with
      | some patterns, some texts => lists.matchList patterns texts
      | _, _ => false

def matchFields (lists : ScalarLists) : List (String × Json) → Fields → Bool
  | [], _ => true
  | (k, p) :: ps, fields =>
    (match optionalKey k with
      | some key => (fields.get key).all fun j ↦ matchJson lists p j
      | none => (fields.get k).any fun j ↦ matchJson lists p j) &&
    matchFields lists ps fields

end

variable {lists : ScalarLists} {ps : List (String × Json)} {fields : Fields} {k : String} {p : Json}

theorem matchJson_object : matchJson lists (.object ps) (.object fields) = matchFields lists ps fields := rfl

theorem matchJson_array (patterns items : List Json) :
    matchJson lists (.array patterns) (.array items) = matchItems lists patterns items := rfl

theorem matchItems_cons (patterns items : List Json) :
    matchItems lists (p :: patterns) items =
      if patterns.isEmpty && p.isObject then items.all fun j ↦ matchJson lists p j
      else match (p :: patterns).mapM Json.scalarText, items.mapM Json.scalarText with
        | some patterns, some texts => lists.matchList patterns texts
        | _, _ => false := rfl

theorem matchJson_each (items : List Json) :
    matchJson lists (.array [.object ps]) (.array items) = items.all (matchJson lists (.object ps)) := by
  rw [matchJson_array, matchItems_cons]
  rfl

theorem mapM_scalarText (l : List String) : (l.map Json.string).mapM Json.scalarText = some l := by
  induction l with
  | nil => rfl
  | cons s l ih =>
    rw [List.map_cons, List.mapM_cons, ih]
    rfl

theorem matchJson_strings {patterns : List String} (h : patterns ≠ []) (texts : List String) :
    matchJson lists (.array (patterns.map .string)) (.array (texts.map .string)) = lists.matchList patterns texts := by
  cases patterns with
  | nil => exact absurd rfl h
  | cons q qs =>
    rw [matchJson_array, List.map_cons, matchItems_cons, if_neg (by simp [Json.isObject]), ← List.map_cons,
      mapM_scalarText, mapM_scalarText]

theorem matchJson_string (q s : String) : matchJson lists (.string q) (.string s) = matchPattern q.toList s.toList := rfl

theorem matchFields_nil : matchFields lists [] fields = true := rfl

theorem matchFields_cons :
    matchFields lists ((k, p) :: ps) fields =
      ((match optionalKey k with
        | some key => (fields.get key).all fun j ↦ matchJson lists p j
        | none => (fields.get k).any fun j ↦ matchJson lists p j) &&
      matchFields lists ps fields) := rfl

theorem matchFields_required (h : optionalKey k = none) :
    matchFields lists ((k, p) :: ps) fields = ((fields.get k).any (matchJson lists p) && matchFields lists ps fields) := by
  rw [matchFields_cons, h]

theorem matchFields_optional {key : String} (h : optionalKey k = some key) :
    matchFields lists ((k, p) :: ps) fields =
      ((fields.get key).all (matchJson lists p) && matchFields lists ps fields) := by
  rw [matchFields_cons, h]

theorem matchFields_append {qs : List (String × Json)} :
    matchFields lists (ps ++ qs) fields = (matchFields lists ps fields && matchFields lists qs fields) := by
  induction ps with
  | nil => rw [List.nil_append, matchFields_nil, Bool.true_and]
  | cons m ps ih => rw [List.cons_append, matchFields_cons, matchFields_cons, ih, Bool.and_assoc]

/-- Keys that are all required. -/
theorem matchFields_map {keys : List String} (h : ∀ key ∈ keys, optionalKey key = none) :
    matchFields lists (keys.map fun key ↦ (key, p)) fields = keys.all fun key ↦ (fields.get key).any (matchJson lists p) := by
  induction keys with
  | nil => exact matchFields_nil
  | cons key keys ih =>
    obtain ⟨hkey, hkeys⟩ := List.forall_mem_cons.mp h
    rw [List.map_cons, matchFields_required hkey, ih hkeys, List.all_cons]

end KubeCenter.Core
