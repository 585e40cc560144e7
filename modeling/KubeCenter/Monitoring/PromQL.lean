import KubeCenter.Loki.NamespaceMatcher

/-! The strings and the vector selectors of a PromQL text. -/

namespace KubeCenter.Monitoring

open KubeCenter.Core
open Loki (Engine isRegexMetaChar)

/-- The marks that open another kind of string or a comment. -/
def otherMarks : Text := "\x27\x60#".toList

/-- A text and its tokens: double-quoted strings with their values, and the characters between them. Only texts
without other strings and comments have tokens here. -/
inductive Lexes : Text → List (Char ⊕ Bytes) → Prop
  | nil : Lexes [] []
  | char {c : Char} {s : Text} {toks : List (Char ⊕ Bytes)} :
      c ≠ '\"' → c ∉ otherMarks → Lexes s toks → Lexes (c :: s) (.inl c :: toks)
  | string {s rest : Text} {v : Bytes} {toks : List (Char ⊕ Bytes)} :
      unquoteFrom s = some (v, rest) → Lexes rest toks → Lexes ('\"' :: s) (.inr v :: toks)

inductive MatchOp
  | equal
  | notEqual
  | regex
  | notRegex
  deriving DecidableEq

structure Matcher (V : Type) where
  label : Text
  op : MatchOp
  value : V

structure Selector (V : Type) where
  metric : Text
  matchers : List (Matcher V)

def isBlank (c : Char) : Bool := c ∈ [' ', '\t', '\n', '\r']

def isWordChar (c : Char) : Bool := c.isAlphanum || c = '_' || c = ':' || c = '.'

/-- The words in front of a list of labels. -/
def groupings : List Text := ["by", "without", "on", "ignoring", "group_left", "group_right"].map String.toList

def keywords : List Text := groupings ++ ["and", "or", "unless", "offset", "bool", "inf", "nan"].map String.toList

/-- A word that stands for a metric where no parenthesis and no brace follows. -/
def namesMetric (word : Text) : Bool :=
  match word with
  | [] => false
  | c :: _ => !c.isDigit && c ≠ '.' && word ∉ keywords

inductive Mode
  | outside
  | braces
  | brackets
  | labels

/-- The reader of selectors. `word` is the last word, `spaced` whether blanks have followed it. -/
structure Reader (V : Type) where
  mode : Mode := .outside
  word : Text := []
  spaced : Bool := false
  metric : Text := []
  matchers : List (Matcher V) := []
  selectors : List (Selector V) := []

variable {V W : Type}

def matchOp (s : Text) : Option MatchOp :=
  match s with
  | ['='] => some .equal
  | ['!', '='] => some .notEqual
  | ['=', '~'] => some .regex
  | ['!', '~'] => some .notRegex
  | _ => none

/-- A matcher from what stands before a string, its label and its operator. -/
def matcherOf (word : Text) (v : V) : Option (Matcher V) :=
  (matchOp (word.dropWhile isWordChar)).map (fun op ↦ ⟨word.takeWhile isWordChar, op, v⟩)

namespace Reader

variable (r : Reader V)

/-- The end of a word: a metric without braces is a selector. -/
def flush : Reader V :=
  { r with
    word := []
    spaced := false
    selectors := if namesMetric r.word then r.selectors ++ [⟨r.word, []⟩] else r.selectors }

def feedOutside (c : Char) : Reader V :=
  if isWordChar c then
    if r.spaced then { r.flush with word := [c] } else { r with word := r.word ++ [c] }
  else if isBlank c then { r with spaced := r.word ≠ [] }
  else if c = '\x7b' then { r with mode := .braces, metric := r.word, word := [], spaced := false, matchers := [] }
  else if c = '(' then
    { r with mode := if r.word ∈ groupings then .labels else .outside, word := [], spaced := false }
  else if c = '[' then { r.flush with mode := .brackets }
  else r.flush

def feedBraces (c : Char) : Reader V :=
  if c = '\x7d' then
    { r with mode := .outside, word := [], selectors := r.selectors ++ [⟨r.metric, r.matchers⟩] }
  else if c = ',' ∨ isBlank c = true then r
  else { r with word := r.word ++ [c] }

/-- A label list and a duration end with their bracket. -/
def feedUntil (stop c : Char) : Reader V := if c = stop then { r with mode := .outside } else r

def feedChar (c : Char) : Reader V :=
  match r.mode with
  | .outside => r.feedOutside c
  | .braces => r.feedBraces c
  | .brackets => r.feedUntil ']' c
  | .labels => r.feedUntil ')' c

def feedString (v : V) : Reader V :=
  match r.mode with
  | .outside => r.flush
  | .braces => { r with matchers := r.matchers ++ (matcherOf r.word v).toList, word := [] }
  | .brackets | .labels => r

def feed (tok : Char ⊕ V) : Reader V :=
  match tok with
  | .inl c => r.feedChar c
  | .inr v => r.feedString v

end Reader

/-- The vector selectors of a text, from its tokens. -/
def selectors (toks : List (Char ⊕ V)) : List (Selector V) := (toks.foldl Reader.feed {}).flush.selectors

def Matcher.map (f : V → W) (m : Matcher V) : Matcher W := ⟨m.label, m.op, f m.value⟩

def Selector.map (f : V → W) (s : Selector V) : Selector W := ⟨s.metric, s.matchers.map (Matcher.map f)⟩

def Reader.map (f : V → W) (r : Reader V) : Reader W :=
  { mode := r.mode, word := r.word, spaced := r.spaced, metric := r.metric
    matchers := r.matchers.map (Matcher.map f), selectors := r.selectors.map (Selector.map f) }

section Map

variable (f : V → W) (r : Reader V)

theorem matcherOf_map (word : Text) (v : V) : matcherOf word (f v) = (matcherOf word v).map (Matcher.map f) := by
  unfold matcherOf
  cases matchOp (word.dropWhile isWordChar) <;> rfl

theorem Reader.flush_map : (r.map f).flush = r.flush.map f := by
  unfold Reader.flush Reader.map
  dsimp only
  split <;> simp [Selector.map]

theorem Reader.feedOutside_map (c : Char) : (r.map f).feedOutside c = (r.feedOutside c).map f := by
  have hword : (r.map f).word = r.word := rfl
  have hspaced : (r.map f).spaced = r.spaced := rfl
  simp only [feedOutside, flush_map, hword, hspaced]
  split_ifs <;> rfl

theorem Reader.feedBraces_map (c : Char) : (r.map f).feedBraces c = (r.feedBraces c).map f := by
  unfold feedBraces
  split_ifs
  · simp [Reader.map, Selector.map]
  · rfl
  · rfl

theorem Reader.feed_map (tok : Char ⊕ V) : (r.map f).feed (tok.map id f) = (r.feed tok).map f := by
  cases tok with
  | inl c =>
    have hmode : (r.map f).mode = r.mode := rfl
    simp only [feed, Sum.map_inl, id, feedChar, hmode]
    cases r.mode with
    | outside => exact r.feedOutside_map f c
    | braces => exact r.feedBraces_map f c
    | brackets =>
      dsimp only [feedUntil]
      split_ifs <;> rfl
    | labels =>
      dsimp only [feedUntil]
      split_ifs <;> rfl
  | inr v =>
    have hmode : (r.map f).mode = r.mode := rfl
    simp only [feed, Sum.map_inr, feedString, hmode]
    cases r.mode with
    | outside => exact r.flush_map f
    | braces =>
      have hword : (r.map f).word = r.word := rfl
      rw [hword, matcherOf_map]
      cases matcherOf r.word v <;> simp [Reader.map]
    | brackets => rfl
    | labels => rfl

/-- Selectors are found without a look at the strings' values. -/
theorem selectors_map (toks : List (Char ⊕ V)) :
    selectors (toks.map (Sum.map id f)) = (selectors toks).map (Selector.map f) := by
  have hfold : ∀ (toks : List (Char ⊕ V)) (r : Reader V),
      (toks.map (Sum.map id f)).foldl Reader.feed (r.map f) = (toks.foldl Reader.feed r).map f := by
    intro toks
    induction toks with
    | nil => exact fun _ ↦ rfl
    | cons tok toks ih =>
      intro r
      rw [List.map_cons, List.foldl_cons, List.foldl_cons, Reader.feed_map]
      exact ih _
  have hflush := congrArg Reader.flush (hfold toks {})
  rw [Reader.flush_map] at hflush
  exact congrArg Reader.selectors hflush

/-- What holds of the strings holds of the values of the matchers. -/
theorem selectors_forall {P : V → Prop} {toks : List (Char ⊕ V)} (h : ∀ v, .inr v ∈ toks → P v) :
    ∀ sel ∈ selectors toks, ∀ m ∈ sel.matchers, P m.value := by
  have hlift : ∃ toks' : List (Char ⊕ {v // P v}), toks'.map (Sum.map id Subtype.val) = toks := by
    induction toks with
    | nil => exact ⟨[], rfl⟩
    | cons tok toks ih =>
      obtain ⟨toks', rfl⟩ := ih fun v hv ↦ h v (List.mem_cons_of_mem _ hv)
      cases tok with
      | inl c => exact ⟨.inl c :: toks', rfl⟩
      | inr v => exact ⟨.inr ⟨v, h v List.mem_cons_self⟩ :: toks', rfl⟩
  obtain ⟨toks', rfl⟩ := hlift
  intro sel hsel m hm
  rw [selectors_map] at hsel
  obtain ⟨sel', -, rfl⟩ := List.mem_map.mp hsel
  obtain ⟨m', -, rfl⟩ := List.mem_map.mp hm
  exact m'.value.2

end Map

/-- What a matcher selects by its label's value. -/
def Matcher.Matches (re2 : Engine) (m : Matcher Bytes) (v : Text) : Prop :=
  match m.op with
  | .equal => m.value = utf8 v
  | .notEqual => m.value ≠ utf8 v
  | .regex => ∃ w pattern, m.value = utf8 w ∧ re2 w = some pattern ∧ pattern v
  | .notRegex => ∃ w pattern, m.value = utf8 w ∧ re2 w = some pattern ∧ ¬ pattern v

/-- A part of a pattern: a literal text or `.*`. -/
inductive Piece
  | lit (t : Text)
  | any

def Piece.text : Piece → Text
  | .lit t => t
  | .any => ".*".toList

/-- The concatenations of literal texts and of texts that `.*` matches. -/
def Concat (dots : Text → Prop) : List Piece → Text → Prop
  | [], s => s = []
  | .lit t :: ps, s => ∃ rest, s = t ++ rest ∧ Concat dots ps rest
  | .any :: ps, s => ∃ t rest, s = t ++ rest ∧ dots t ∧ Concat dots ps rest

/-- A pattern of literals without metacharacters and of `.*` matches the concatenations. -/
def ReadsConcats (re2 : Engine) (dots : Text → Prop) : Prop :=
  ∀ ps : List Piece, (∀ t, .lit t ∈ ps → ∀ c ∈ t, isRegexMetaChar c = false) →
    ∃ pattern, re2 (ps.flatMap Piece.text) = some pattern ∧ ∀ s, pattern s ↔ Concat dots ps s

end KubeCenter.Monitoring
