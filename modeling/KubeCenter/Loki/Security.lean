import KubeCenter.Core.GoBytes

namespace KubeCenter.Loki

open KubeCenter.Core Byte

def maxQueryLen : ℕ := 4096

inductive Op
  | equal
  | notEqual
  | regex
  | notRegex
  deriving DecidableEq

def Op.bytes : Op → Bytes
  | .equal => [equals]
  | .notEqual => [bang, equals]
  | .regex => [equals, tilde]
  | .notRegex => [bang, tilde]

/-- A stream selector matcher; its value keeps its escapes. -/
structure Matcher where
  label : Bytes
  op : Op
  value : Bytes
  deriving DecidableEq

inductive SelectorError
  | expectedLabelName (position : ℕ)
  | expectedOperator (label : Bytes)
  | invalidOperator (label : Bytes)
  | expectedQuotedValue (label : Bytes) (op : Op)
  | unclosedValue (label : Bytes)
  deriving DecidableEq

inductive QueryError
  | tooLong
  | noNamespaces
  | noSelector
  | unclosedSelector
  | invalidSelector (e : SelectorError)
  deriving DecidableEq

/-- The text of a byte string that is plain ASCII, as label names and operators are. -/
def asciiText (s : Bytes) : String := String.ofList (s.map (fun c ↦ Char.ofNat c.toNat))

def SelectorError.message : SelectorError → String
  | .expectedLabelName position => "expected label name at position " ++ toString position
  | .expectedOperator label => "expected operator after label \"" ++ asciiText label ++ "\""
  | .invalidOperator label =>
    "invalid operator after label \"" ++ asciiText label ++ "\": expected =, !=, =~, or !~"
  | .expectedQuotedValue label op => "expected quoted value after " ++ asciiText (label ++ op.bytes)
  | .unclosedValue label => "invalid value for " ++ asciiText label ++ ": unclosed quoted value"

def QueryError.message : QueryError → String
  | .tooLong => "query exceeds maximum length of " ++ toString maxQueryLen ++ " bytes"
  | .noNamespaces => "no namespaces allowed"
  | .noSelector => "invalid LogQL: query must start with a stream selector '\x7b'"
  | .unclosedSelector => "invalid LogQL: unclosed stream selector"
  | .invalidSelector e => "invalid LogQL selector: " ++ e.message

def closingBraceFrom (inQuote escaped : Bool) (i : ℕ) : Bytes → Option ℕ
  | [] => none
  | ch :: s =>
    if escaped then closingBraceFrom inQuote false (i + 1) s
    else if ch = backslash ∧ inQuote then closingBraceFrom inQuote true (i + 1) s
    else if ch = quote then closingBraceFrom (!inQuote) false (i + 1) s
    else if ¬ inQuote ∧ ch = rbrace then some i
    else closingBraceFrom inQuote false (i + 1) s

def findClosingBrace (s : Bytes) : Option ℕ := closingBraceFrom false false 1 (s.drop 1)

def isLabelChar (ch : UInt8) : Bool :=
  (97 ≤ ch && ch ≤ 122) || (65 ≤ ch && ch ≤ 90) || (48 ≤ ch && ch ≤ 57) || ch == 95

def isBlank (ch : UInt8) : Bool := ch == space || ch == tab

def isSeparator (ch : UInt8) : Bool := isBlank ch || ch == comma

def parseOp : Bytes → Option (Op × ℕ)
  | bang :: equals :: _ => some (.notEqual, 2)
  | equals :: tilde :: _ => some (.regex, 2)
  | bang :: tilde :: _ => some (.notRegex, 2)
  | equals :: _ => some (.equal, 1)
  | _ => none

/-- The loop of `parseQuotedValue`: the content up to the closing quote, and what follows it. -/
def quotedFrom (escaped : Bool) : Bytes → Option (Bytes × Bytes)
  | [] => none
  | ch :: s =>
    if escaped then (quotedFrom false s).map (fun p ↦ (backslash :: ch :: p.1, p.2))
    else if ch = backslash then quotedFrom true s
    else if ch = quote then some ([], s)
    else (quotedFrom false s).map (fun p ↦ (ch :: p.1, p.2))

def parseQuotedValue : Bytes → Option (Bytes × Bytes)
  | quote :: s => quotedFrom false s
  | _ => none

/-- One round of the loop of `parseMatchers`, `n` being the length of the content: the matcher at
the start of `s`, and what follows it. -/
def parseMatcher (n : ℕ) (s : Bytes) : Except SelectorError (Matcher × Bytes) :=
  let label := s.takeWhile isLabelChar
  if label = [] then .error (.expectedLabelName (n - s.length))
  else
    let afterLabel := (s.dropWhile isLabelChar).dropWhile isBlank
    if afterLabel = [] then .error (.expectedOperator label)
    else match parseOp afterLabel with
      | none => .error (.invalidOperator label)
      | some (op, advance) =>
        let afterOp := (afterLabel.drop advance).dropWhile isBlank
        if afterOp.head? ≠ some quote then .error (.expectedQuotedValue label op)
        else match parseQuotedValue afterOp with
          | none => .error (.unclosedValue label)
          | some (value, rest) => .ok (⟨label, op, value⟩, rest)

theorem length_dropWhile_le (p : UInt8 → Bool) (s : Bytes) : (s.dropWhile p).length ≤ s.length :=
  (List.dropWhile_sublist p).length_le

theorem quotedFrom_length {escaped : Bool} {s v rest : Bytes} (h : quotedFrom escaped s = some (v, rest)) :
    rest.length < s.length := by
  induction s generalizing escaped v with
  | nil => cases h
  | cons ch s ih =>
    rw [quotedFrom] at h
    split at h
    · obtain ⟨p, hp, he⟩ := Option.map_eq_some_iff.mp h
      cases he
      exact Nat.lt_succ_of_lt (ih hp)
    · split at h
      · exact Nat.lt_succ_of_lt (ih h)
      · split at h
        · cases h
          exact Nat.lt_succ_self _
        · obtain ⟨p, hp, he⟩ := Option.map_eq_some_iff.mp h
          cases he
          exact Nat.lt_succ_of_lt (ih hp)

theorem parseQuotedValue_length {s v rest : Bytes} (h : parseQuotedValue s = some (v, rest)) :
    rest.length < s.length := by
  unfold parseQuotedValue at h
  split at h
  · exact Nat.lt_succ_of_lt (quotedFrom_length h)
  · cases h

theorem parseMatcher_length {n : ℕ} {s : Bytes} {m : Matcher} {rest : Bytes}
    (h : parseMatcher n s = .ok (m, rest)) : rest.length < s.length := by
  unfold parseMatcher at h
  simp only at h
  split at h
  · cases h
  · split at h
    · cases h
    · split at h
      · cases h
      · split at h
        · cases h
        · split at h
          · cases h
          · next hq =>
            cases h
            have h₁ := parseQuotedValue_length hq
            have h₂ := length_dropWhile_le isLabelChar s
            refine h₁.trans_le ((length_dropWhile_le _ _).trans ?_)
            rw [List.length_drop]
            have h₃ := length_dropWhile_le isBlank (s.dropWhile isLabelChar)
            omega

def parseMatchersFrom (n : ℕ) (s : Bytes) : Except SelectorError (List Matcher) :=
  let t := s.dropWhile isSeparator
  if t = [] then .ok []
  else match _h : parseMatcher n t with
    | .error e => .error e
    | .ok (m, rest) => (parseMatchersFrom n rest).map (m :: ·)
  termination_by s.length
  decreasing_by exact (parseMatcher_length _h).trans_le (length_dropWhile_le _ _)

def parseMatchers (content : Bytes) : Except SelectorError (List Matcher) :=
  let content := trimSpace content
  if content = [] then .ok [] else parseMatchersFrom content.length content

def regexMetas : List Char := ".+*?()[]\x7b\x7d|^$\\".toList

def isRegexMeta (ch : UInt8) : Bool := ch ∈ regexMetas.map Char.toUInt8

def escapeRegexValue (s : Bytes) : Bytes :=
  s.flatMap (fun ch ↦ if isRegexMeta ch then [backslash, ch] else [ch])

def namespaceLabel : Bytes := "namespace".toList.map Char.toUInt8

def nsMatcher (allowedNamespaces : List Bytes) : Matcher :=
  match allowedNamespaces with
  | [ns] => { label := namespaceLabel, op := .equal, value := ns }
  | _ =>
    { label := namespaceLabel, op := .regex
      value := [pipe].intercalate (allowedNamespaces.map escapeRegexValue) }

def Matcher.render (m : Matcher) : Bytes := m.label ++ m.op.bytes ++ quote :: m.value ++ [quote]

def renderMatchers (ms : List Matcher) : Bytes := [comma].intercalate (ms.map Matcher.render)

def selectorContent (trimmed : Bytes) (closeIdx : ℕ) : Bytes := (trimmed.take closeIdx).drop 1

def pipeline (trimmed : Bytes) (closeIdx : ℕ) : Bytes := trimmed.drop (closeIdx + 1)

def dropNamespace (matchers : List Matcher) : List Matcher :=
  matchers.filter (fun m ↦ m.label ≠ namespaceLabel)

/-- `EnforceNamespaces`; a nil list of namespaces is `none`. -/
def enforceNamespaces (query : Bytes) (allowedNamespaces : Option (List Bytes)) :
    Except QueryError Bytes :=
  if maxQueryLen < query.length then .error .tooLong
  else match allowedNamespaces with
    | none => .ok query
    | some allowed =>
      if allowed = [] then .error .noNamespaces
      else
        let trimmed := trimSpace query
        if trimmed.head? ≠ some lbrace then .error .noSelector
        else match findClosingBrace trimmed with
          | none => .error .unclosedSelector
          | some closeIdx =>
            match parseMatchers (selectorContent trimmed closeIdx) with
            | .error e => .error (.invalidSelector e)
            | .ok matchers =>
              .ok (lbrace :: renderMatchers (nsMatcher allowed :: dropNamespace matchers) ++
                rbrace :: pipeline trimmed closeIdx)

example : isRegexMeta 46 = true ∧ isRegexMeta 92 = true ∧ isRegexMeta 97 = false := by decide

end KubeCenter.Loki
