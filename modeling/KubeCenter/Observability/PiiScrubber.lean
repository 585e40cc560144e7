import KubeCenter.Core.Regex

/-! What the mobile app takes out of a crash report before it leaves the device. -/

namespace KubeCenter.Observability

open KubeCenter.Core KubeCenter.Core.Regex

abbrev Text := List Char

def scrubbedNamespace : Text := "<namespace>".toList
def scrubbedName : Text := "<name>".toList
def scrubbedToken : Text := "<fcm-token>".toList
def scrubbedIp : Text := "<ip>".toList

def isDigit (c : Char) : Bool := '0' ≤ c && c ≤ '9'

def isAlnum (c : Char) : Bool := 'a' ≤ c && c ≤ 'z' || 'A' ≤ c && c ≤ 'Z' || isDigit c

/-- `[A-Za-z0-9_:-]`. -/
def isTokenChar (c : Char) : Bool := isAlnum c || c == '_' || c == ':' || c == '-'

/-- `[A-Za-z0-9._-]`. -/
def isSegmentChar (c : Char) : Bool := isAlnum c || c == '.' || c == '_' || c == '-'

/-- `\s`. -/
def isSpace (c : Char) : Bool :=
  [9, 10, 11, 12, 13, 32, 160, 5760, 8232, 8233, 8239, 8287, 12288, 65279].contains c.toNat ||
    8192 ≤ c.toNat && c.toNat ≤ 8202

/-- `[^,;&\s)\]\}"']`. -/
def isValueChar (c : Char) : Bool := !(isSpace c || [',', ';', '&', ')', ']', '}', '"', '\''].contains c)

/-- A text in whatever case, where it is given in lower case. -/
def anyCase (s : String) : Regex := s.toList.foldr (fun c r ↦ .seq (.char (·.toLower == c)) r) .empty

def optional (r : Regex) : Regex := .alt r .empty

def segment : Regex := .many 1 isSegmentChar

def fcmTokenPattern : Regex := .many 100 isTokenChar

def k8sPathSegmentPattern : Regex :=
  .seq (.group 1 (.seq (text "/v1/") (.seq segment (.seq (text "/") segment))))
    (.seq (text "/") (.seq (.group 2 segment) (optional (.seq (text "/") (.group 3 segment)))))

def k8sDiagnosticsPathPattern : Regex :=
  .seq (.group 1 (text "/v1/diagnostics"))
    (.seq (text "/") (.seq (.group 2 segment) (.seq (text "/") (.seq (.group 3 segment)
      (.seq (text "/") (.group 4 segment))))))

def wsPathPattern : Regex :=
  .seq (.group 1 (.seq (text "/ws/") segment))
    (.seq (text "/") (.seq (.group 2 segment) (.seq (text "/") (.seq (.group 3 segment)
      (.seq (text "/") (.group 4 segment))))))

def k8sKeyValuePattern : Regex :=
  .seq .wordBoundary (.seq (.group 1 (.alt (anyCase "namespace") (anyCase "name")))
    (.seq (text "=") (.group 2 (.many 1 isValueChar))))

/-- `25[0-5]|2[0-4]\d|1?\d?\d`. -/
def octet : Regex :=
  .alt (.seq (text "25") (.char (fun c ↦ '0' ≤ c && c ≤ '5')))
    (.alt (.seq (text "2") (.seq (.char (fun c ↦ '0' ≤ c && c ≤ '4')) (.char isDigit)))
      (.seq (optional (text "1")) (.seq (optional (.char isDigit)) (.char isDigit))))

def ipv4Pattern : Regex :=
  .seq .wordBoundary (.seq octet (.seq (text ".") (.seq octet (.seq (text ".") (.seq octet (.seq (text ".")
    (.seq octet .wordBoundary)))))))

abbrev Groups := ℕ → Option Text

/-- `m.group(i)!`. -/
def Groups.group (m : Groups) (i : ℕ) : Text := (m i).getD []

def replaceDiagnosticsPath (m : Groups) : Text :=
  m.group 1 ++ '/' :: scrubbedNamespace ++ "/<kind>/".toList ++ scrubbedName

def replaceWsPath (m : Groups) : Text := m.group 1 ++ '/' :: scrubbedNamespace ++ "/<pod>/<container>".toList

def replacePathSegment (m : Groups) : Text :=
  match m 3 with
  | none => m.group 1 ++ '/' :: scrubbedNamespace
  | some _ => m.group 1 ++ '/' :: scrubbedNamespace ++ '/' :: scrubbedName

def placeholder (key : Text) : Text :=
  if key.map Char.toLower = "namespace".toList then scrubbedNamespace else scrubbedName

def replaceKeyValue (m : Groups) : Text := m.group 1 ++ '=' :: placeholder (m.group 1)

/-- `_scrubText`, with what each pass leaves to the next. -/
def scrubText (input : Text) : Text :=
  let out := fcmTokenPattern.replaceAllMapped (fun _ ↦ scrubbedToken) input
  let out := k8sDiagnosticsPathPattern.replaceAllMapped replaceDiagnosticsPath out
  let out := wsPathPattern.replaceAllMapped replaceWsPath out
  let out := k8sPathSegmentPattern.replaceAllMapped replacePathSegment out
  let out := k8sKeyValuePattern.replaceAllMapped replaceKeyValue out
  ipv4Pattern.replaceAllMapped (fun _ ↦ scrubbedIp) out

/-! What a report carries. A value that is not a string is kept as it is. -/

inductive Value
  | string (s : Text)
  | other (json : String)

structure SentryUser where
  username : Option Text
  email : Option Text
  ipAddress : Option Text

structure SentryRequest where
  url : Option Text := none
  method : Option Text := none
  data : Option Value := none
  queryString : Option Text := none
  cookies : Option Text := none
  fragment : Option Text := none
  headers : List (Text × Text) := []

structure SentryMessage where
  formatted : Text
  template : Option Text := none
  params : Option (List Value) := none

/-- `stackTrace` is what is known of the frames. -/
structure SentryException where
  value : Option Text
  stackTrace : List Text := []

structure Breadcrumb where
  message : Option Text := none
  data : Option (List (Text × Value)) := none

structure SentryEvent where
  user : Option SentryUser := none
  request : Option SentryRequest := none
  message : Option SentryMessage := none
  transaction : Option Text := none
  culprit : Option Text := none
  tags : Option (List (Text × Text)) := none
  extra : Option (List (Text × Value)) := none
  fingerprint : Option (List Text) := none
  breadcrumbs : Option (List Breadcrumb) := none
  exceptions : Option (List SentryException) := none

def scrubValue : Value → Value
  | .string s => .string (scrubText s)
  | .other json => .other json

/-- `_scrubUrl`; `decodeFull` is `Uri.decodeFull`, and gives nothing where that throws. -/
def scrubUrl (decodeFull : Text → Option Text) (url : Text) : Text :=
  scrubText ((((decodeFull url).getD url).takeWhile (· != '?')).takeWhile (· != '#'))

def droppedHeaders : List Text :=
  ["authorization", "proxy-authorization", "cookie", "set-cookie", "x-requested-with", "x-cluster-id"].map String.toList

def scrubHeaders (toLowerCase : Text → Text) (headers : List (Text × Text)) : List (Text × Text) :=
  headers.filter (fun h ↦
    !(droppedHeaders.contains (toLowerCase h.1) || "x-csrf".toList.isPrefixOf (toLowerCase h.1)))

def scrubBreadcrumbData (decodeFull : Text → Option Text) (data : List (Text × Value)) : List (Text × Value) :=
  data.map (fun (key, value) ↦ (key, match value with
    | .string s => .string (if key = "url".toList then scrubUrl decodeFull s else scrubText s)
    | .other json => .other json))

def scrubRequest (decodeFull : Text → Option Text) (toLowerCase : Text → Text) (r : SentryRequest) : SentryRequest where
  url := r.url.map (scrubUrl decodeFull)
  method := r.method
  headers := scrubHeaders toLowerCase r.headers

def scrubMessage (m : SentryMessage) : SentryMessage where
  formatted := scrubText m.formatted
  template := m.template.map scrubText
  params := m.params.map (List.map scrubValue)

def scrubBreadcrumb (decodeFull : Text → Option Text) (crumb : Breadcrumb) : Breadcrumb where
  message := crumb.message.map scrubText
  data := crumb.data.map (scrubBreadcrumbData decodeFull)

/-- `_scrubEventBody`. -/
def scrubEventBody (decodeFull : Text → Option Text) (toLowerCase : Text → Text) (event : SentryEvent) :
    SentryEvent where
  request := event.request.map (scrubRequest decodeFull toLowerCase)
  message := event.message.map scrubMessage
  transaction := event.transaction.map scrubText
  culprit := event.culprit.map scrubText
  tags := event.tags.map (List.map (fun (key, value) ↦ (key, scrubText value)))
  extra := event.extra.map (List.map (fun (key, value) ↦ (key, scrubValue value)))
  fingerprint := event.fingerprint.map (List.map scrubText)
  breadcrumbs := event.breadcrumbs.map (List.map (scrubBreadcrumb decodeFull))
  exceptions := event.exceptions.map (List.map (fun exc ↦ { exc with value := exc.value.map scrubText }))

/-- `scrubEvent`: nothing leaves the device but from a release build. -/
def scrubEvent (decodeFull : Text → Option Text) (toLowerCase : Text → Text) (releaseMode : Bool)
    (event : SentryEvent) : Option SentryEvent :=
  if releaseMode then some (scrubEventBody decodeFull toLowerCase event) else none

variable {b w a p j s out u v o key : Text} {r q : Regex}

/-! ### What is put in -/

def isMark (c : Char) : Bool := c == '<' || c == '>'

/-- Everything that is put in somewhere. -/
def fills : List Text :=
  ["<fcm-token>", "<namespace>/<kind>/<name>", "<namespace>/<pod>/<container>", "<namespace>/<name>", "<namespace>",
    "<name>", "<ip>"].map String.toList

theorem marked_of_any {mark : Char → Bool} (hhead : j.head?.any mark = true) (hlast : j.getLast?.any mark = true) :
    Marked mark j :=
  ⟨(Option.any_eq_true ..).mp hhead, (Option.any_eq_true ..).mp hlast⟩

theorem marked_fills (hj : j ∈ fills) : Marked isMark j := by
  have hall : ∀ j ∈ fills, j.head?.any isMark = true ∧ j.getLast?.any isMark = true := by decide
  obtain ⟨hhead, hlast⟩ := hall j hj
  exact marked_of_any hhead hlast

theorem isMark_of_isWordChar {c : Char} (hc : isWordChar c = true) : isMark c = false := by
  rw [isMark, Bool.or_eq_false_iff, beq_eq_false_iff_ne, beq_eq_false_iff_ne]
  constructor
  · rintro rfl
    cases hc
  · rintro rfl
    cases hc

theorem isWordChar_iff {c : Char} : isWordChar c = true ↔
    (97 ≤ c.toNat ∧ c.toNat ≤ 122) ∨ (65 ≤ c.toNat ∧ c.toNat ≤ 90) ∨ (48 ≤ c.toNat ∧ c.toNat ≤ 57) ∨ c.toNat = 95 := by
  simp only [isWordChar, Bool.or_eq_true, Bool.and_eq_true, decide_eq_true_eq, beq_iff_eq, Char.le_def,
    UInt32.le_iff_toNat_le, or_assoc, ← Char.toNat_inj, Char.toNat]
  rfl

theorem isValueChar_of_isWordChar {c : Char} (hc : isWordChar c = true) : isValueChar c = true := by
  rw [isWordChar_iff] at hc
  have hne {d : Char} (hd : d.toNat < 48 ∨ d.toNat = 59 ∨ d.toNat = 93 ∨ d.toNat = 125) : c ≠ d := by
    rintro rfl
    omega
  have hspace : isSpace c = false := by
    rw [isSpace, Bool.or_eq_false_iff]
    constructor
    · rw [List.contains_eq_mem, decide_eq_false_iff_not]
      simp only [List.mem_cons, List.not_mem_nil, or_false]

      omega
    · rw [Bool.and_eq_false_iff, decide_eq_false_iff_not]
      left
      omega
  rw [isValueChar, hspace, Bool.false_or, Bool.not_eq_true', List.contains_eq_mem, decide_eq_false_iff_not]
  simp only [List.mem_cons, List.not_mem_nil, not_or]
  exact ⟨hne (by decide), hne (by decide), hne (by decide), hne (by decide), hne (by decide), hne (by decide),
    hne (by decide), hne (by decide), not_false⟩

/-! ### Paths -/

def IsSegment (s : Text) : Prop := 1 ≤ s.length ∧ ∀ c ∈ s, isSegmentChar c = true

/-- `n` slashes, each with a segment behind it. -/
def Segments : ℕ → Text → Prop
  | 0, w => w = []
  | n + 1, w => ∃ s v, w = '/' :: (s ++ v) ∧ IsSegment s ∧ Segments n v

variable {n m : ℕ}

theorem Segments.append (hu : Segments m u) (hv : Segments n v) : Segments (m + n) (u ++ v) := by
  induction m generalizing u with
  | zero =>
    obtain rfl : u = [] := hu
    rwa [Nat.zero_add]
  | succ m ih =>
    obtain ⟨s, u', rfl, hs, hu'⟩ := hu
    rw [Nat.succ_add]
    exact ⟨s, u' ++ v, congrArg ('/' :: ·) (List.append_assoc ..), hs, ih hu'⟩

theorem Segments.count (h : Segments n w) : w.count '/' = n := by
  induction n generalizing w with
  | zero => exact (h : w = []) ▸ rfl
  | succ n ih =>
    obtain ⟨s, v, rfl, hs, hv⟩ := h
    have hslash : '/' ∉ s := fun hmem ↦ absurd (hs.2 _ hmem) (by decide)
    rw [List.count_cons_self, List.count_append, List.count_eq_zero.mpr hslash, ih hv, Nat.zero_add]

theorem Segments.last (h : Segments (n + 1) w) : ∃ c, w.getLast? = some c ∧ isSegmentChar c = true := by
  induction n generalizing w with
  | zero =>
    obtain ⟨s, v, rfl, hs, rfl⟩ := h
    have hne : s ≠ [] := List.ne_nil_of_length_pos hs.1
    refine ⟨s.getLast hne, ?_, hs.2 _ (List.getLast_mem hne)⟩
    rw [List.append_nil, List.getLast?_cons_of_ne_nil hne, List.getLast?_eq_some_getLast hne]
  | succ n ih =>
    obtain ⟨s, v, rfl, -, hv⟩ := h
    obtain ⟨c, hc, hseg⟩ := ih hv
    refine ⟨c, ?_, hseg⟩
    have hne : v ≠ [] := by
      rintro rfl
      cases hc
    rw [← List.cons_append, List.getLast?_append_of_ne_nil _ hne, hc]

theorem Segments.unmarked (h : Segments n w) : ∀ c ∈ w, isMark c = false := by
  have hseg {c : Char} (hc : isSegmentChar c = true) : isMark c = false := by
    rw [isMark, Bool.or_eq_false_iff, beq_eq_false_iff_ne, beq_eq_false_iff_ne]
    constructor
    · rintro rfl
      cases hc
    · rintro rfl
      cases hc
  induction n generalizing w with
  | zero => exact fun c hc ↦ absurd ((h : w = []) ▸ hc) List.not_mem_nil
  | succ n ih =>
    obtain ⟨s, v, rfl, hs, hv⟩ := h
    refine List.forall_mem_cons.mpr ⟨rfl, fun c hc ↦ ?_⟩
    exact (List.mem_append.mp hc).elim (fun hc ↦ hseg (hs.2 c hc)) (ih hv c)

theorem matches_segment : (seq (text "/") segment).Matches b w a → Segments 1 w := by
  rintro ⟨_, s, rfl, hslash, hs⟩
  obtain rfl := (matches_text "/").mp hslash
  exact ⟨s, [], by rw [List.append_nil]; rfl, hs, rfl⟩

/-- A segment, and what comes behind it. -/
theorem matches_segment_seq (h : (seq (text "/") (seq r q)).Matches b w a)
    (hr : ∀ {b w a}, r.Matches b w a → IsSegment w) :
    ∃ u v, w = u ++ v ∧ Segments 1 u ∧ q.Matches (u.reverse ++ b) v a := by
  obtain ⟨_, _, rfl, hslash, s, v, rfl, hs, hv⟩ := h
  obtain rfl := (matches_text "/").mp hslash
  refine ⟨'/' :: s, v, rfl, ⟨s, [], by rw [List.append_nil], hr hs, rfl⟩, ?_⟩
  rw [List.reverse_cons, List.append_assoc]
  exact hv

/-- An expression for paths of so many segments, which begin with a text that is never put in. -/
structure IsPath (r : Regex) : Prop where
  boundaryFree : r.boundaryFree = true
  segments : ∀ {b w a}, r.Matches b w a → ∃ n, 3 ≤ n ∧ Segments (n + 1) w
  letter : ∀ {b w a}, r.Matches b w a → 'v' ∈ w ∨ 'w' ∈ w

theorem isSegment_literal {t : String} (h : (decide (1 ≤ t.toList.length) && t.toList.all isSegmentChar) = true) :
    IsSegment t.toList := by
  obtain ⟨hlength, hall⟩ := Bool.and_eq_true_iff.mp h
  exact ⟨of_decide_eq_true hlength, List.all_eq_true.mp hall⟩

theorem diagnostics_segments (h : k8sDiagnosticsPathPattern.Matches b w a) :
    ∃ v, w = "/v1/diagnostics".toList ++ v ∧ Segments 3 v := by
  obtain ⟨_, v, rfl, hpre, hv⟩ := h
  obtain rfl := (matches_text "/v1/diagnostics").mp hpre
  obtain ⟨v₁, v, rfl, h₁, hv⟩ := matches_segment_seq hv id
  obtain ⟨v₂, v, rfl, h₂, hv⟩ := matches_segment_seq hv id
  exact ⟨_, rfl, h₁.append (n := 2) (h₂.append (n := 1) (matches_segment hv))⟩

theorem segments_v1 : Segments 1 "/v1".toList := ⟨"v1".toList, [], rfl, isSegment_literal (by decide), rfl⟩

theorem segments_ws : Segments 1 "/ws".toList := ⟨"ws".toList, [], rfl, isSegment_literal (by decide), rfl⟩

theorem segments_v1_diagnostics : Segments 2 "/v1/diagnostics".toList :=
  segments_v1.append (n := 1) ⟨"diagnostics".toList, [], rfl, isSegment_literal (by decide), rfl⟩

theorem isPath_diagnostics : IsPath k8sDiagnosticsPathPattern where
  boundaryFree := rfl
  segments h := by
    obtain ⟨v, rfl, hv⟩ := diagnostics_segments h
    exact ⟨4, by decide, segments_v1_diagnostics.append hv⟩
  letter h := by
    obtain ⟨v, rfl, -⟩ := diagnostics_segments h
    exact .inl (List.mem_append_left _ (by decide))

theorem ws_prefix (h : (seq (text "/ws/") segment).Matches b w a) : ∃ v, w = "/ws".toList ++ v ∧ Segments 1 v := by
  obtain ⟨_, s, rfl, hpre, hs⟩ := h
  obtain rfl := (matches_text "/ws/").mp hpre
  exact ⟨'/' :: s, rfl, s, [], by rw [List.append_nil], hs, rfl⟩

theorem isPath_ws : IsPath wsPathPattern := by
  have hall {b w a : Text} (h : wsPathPattern.Matches b w a) : ∃ v, w = "/ws".toList ++ v ∧ Segments 4 v := by
    obtain ⟨_, v, rfl, hpre, hv⟩ := h
    obtain ⟨v₀, rfl, h₀⟩ := ws_prefix hpre
    obtain ⟨v₁, v, rfl, h₁, hv⟩ := matches_segment_seq hv id
    obtain ⟨v₂, v, rfl, h₂, hv⟩ := matches_segment_seq hv id
    refine ⟨v₀ ++ (v₁ ++ (v₂ ++ v)), List.append_assoc .., ?_⟩
    exact h₀.append (n := 3) (h₁.append (n := 2) (h₂.append (n := 1) (matches_segment hv)))
  constructor
  · rfl
  · intro b w a h
    obtain ⟨v, rfl, hv⟩ := hall h
    exact ⟨4, by decide, segments_ws.append hv⟩
  · intro b w a h
    obtain ⟨v, rfl, -⟩ := hall h
    exact .inr (List.mem_append_left _ (by decide))

theorem v1_prefix (h : (seq (text "/v1/") (seq segment (seq (text "/") segment))).Matches b w a) :
    ∃ v, w = "/v1".toList ++ v ∧ Segments 2 v := by
  obtain ⟨_, _, rfl, hpre, s, v, rfl, hs, hv⟩ := h
  obtain rfl := (matches_text "/v1/").mp hpre
  have hhead : Segments 1 ('/' :: s) := ⟨s, [], by rw [List.append_nil], hs, rfl⟩
  exact ⟨'/' :: (s ++ v), rfl, hhead.append (n := 1) (matches_segment hv)⟩

theorem isPath_k8s : IsPath k8sPathSegmentPattern := by
  have hall {b w a : Text} (h : k8sPathSegmentPattern.Matches b w a) :
      ∃ v n, w = "/v1".toList ++ v ∧ 2 ≤ n ∧ Segments (n + 1) v := by
    obtain ⟨_, v, rfl, hpre, hv⟩ := h
    obtain ⟨v₀, rfl, h₀⟩ := v1_prefix hpre
    obtain ⟨v₁, v, rfl, h₁, hv⟩ := matches_segment_seq hv id
    refine hv.elim (fun hv ↦ ?_) (fun hv ↦ ?_)
    · exact ⟨v₀ ++ (v₁ ++ v), 3, List.append_assoc .., by decide,
        h₀.append (n := 2) (h₁.append (n := 1) (matches_segment hv))⟩
    · obtain rfl : v = [] := hv
      exact ⟨v₀ ++ (v₁ ++ []), 2, List.append_assoc .., Nat.le_refl 2, h₀.append (n := 1) (h₁.append (n := 0) rfl)⟩
  constructor
  · rfl
  · intro b w a h
    obtain ⟨v, n, rfl, hn, hv⟩ := hall h
    refine ⟨n + 1, Nat.succ_le_succ hn, ?_⟩
    rw [Nat.add_comm]
    exact segments_v1.append hv
  · intro b w a h
    obtain ⟨v, n, rfl, -⟩ := hall h
    exact .inl (List.mem_append_left _ (by decide))

/-! ### The passes -/

/-- What becomes of a match: a part of it is kept, and something is put in. -/
structure Cut (r : Regex) (Keeps : Text → Text → Text → Text → Prop) (b w a p j : Text) : Prop where
  matched : r.Matches b w a
  part : p <+: w
  fill : j ∈ fills
  keeps : Keeps b a p j

variable {Keeps : Text → Text → Text → Text → Prop}

theorem cut_marks (hr : ∀ b a, ¬ r.Matches b [] a) : Marks isMark (Cut r Keeps) where
  nonempty h hnil := hr _ _ (hnil ▸ h.matched)
  part h := h.part
  marked h := marked_fills h.fill

/-- An expression for which there is nothing in what is put in. -/
structure Survives (q : Regex) : Prop extends Plain isMark q where
  absent : ∀ j ∈ fills, ∀ v, v <:+: j → ¬ q.Matches [] v []

theorem Survives.kept (hq : Survives q) (hr : ∀ b a, ¬ r.Matches b [] a) (h : Pieces r (Cut r Keeps) [] s out)
    (hclean : Clean q s) : Clean q out :=
  h.clean_of_clean (cut_marks hr) hq.toPlain hclean (fun _ _ _ _ _ hcut ↦ hq.absent _ hcut.fill)

theorem IsPath.survives (hr : IsPath r) : Survives r where
  boundaryFree := hr.boundaryFree
  unmarked h := by
    obtain ⟨n, -, hw⟩ := hr.segments h
    exact hw.unmarked
  nonempty h hnil := by
    subst hnil
    exact (hr.letter h).elim List.not_mem_nil List.not_mem_nil
  absent j hj v hv h := by
    have hall : ∀ j ∈ fills, 'v' ∉ j ∧ 'w' ∉ j := by decide
    obtain ⟨hv', hw'⟩ := hall j hj
    exact (hr.letter h).elim (fun hmem ↦ hv' (hv.subset hmem)) (fun hmem ↦ hw' (hv.subset hmem))

theorem IsPath.nonempty (hr : IsPath r) (b a : Text) : ¬ r.Matches b [] a := fun h ↦ hr.survives.nonempty h rfl

/-- What is kept of a path is too short to be one. -/
def IsStem (_ _ p _ : Text) : Prop := ∃ u m, p = u ++ ['/'] ∧ m ≤ 3 ∧ Segments m u

theorem IsPath.clean (hr : IsPath r) (h : Pieces r (Cut r IsStem) [] s out) : Clean r out := by
  refine h.clean (cut_marks hr.nonempty) hr.survives.toPlain (fun b w a p j hcut v hin ↦ ?_)
  obtain hin | hin := hin
  · obtain ⟨u, m, rfl, hm, hu⟩ := hcut.keeps
    intro hmatch
    obtain ⟨n, hn, hv⟩ := hr.segments hmatch
    -- the last slash of what is kept is behind it
    have hprefix : v <:+: u := by
      obtain ⟨x, y, hxy⟩ := hin
      obtain ⟨c, hc, hseg⟩ := hv.last
      obtain rfl | ⟨y, d, rfl⟩ := List.eq_nil_or_concat y
      · rw [List.append_nil] at hxy
        have hlast := congrArg List.getLast? hxy
        have hne : v ≠ [] := by
          rintro rfl
          cases hc
        rw [List.getLast?_append_of_ne_nil _ hne, hc, List.getLast?_concat] at hlast
        cases hlast
        cases hseg
      · rw [List.concat_eq_append, ← List.append_assoc] at hxy
        exact ⟨x, y, (List.append_inj' hxy rfl).1⟩
    have hcount := hprefix.sublist.count_le '/'
    rw [hv.count, hu.count] at hcount
    omega
  · exact hr.survives.absent j hcut.fill v hin
/-- A pass whose first group is all that it keeps. -/
theorem pieces_path {g : Regex} {f : Groups → Text} {y : Regex} (hr : r = seq (.group 1 g) (seq (text "/") y))
    (hpath : IsPath r) (hcap : 1 ∉ (seq (text "/") y).captures)
    (hg : ∀ {b w a}, g.Matches b w a → ∃ m, m ≤ 3 ∧ Segments m w)
    (hf : ∀ m : Groups, ∃ j ∈ fills, f m = m.group 1 ++ '/' :: j) (s : Text) :
    Pieces r (Cut r IsStem) [] s (r.replaceAllMapped f s) := by
  refine (replaced_replaceFrom hpath.nonempty f [] s).pieces (fun b w a d hfirst hafter _ ↦ ?_)
  have hmatch := matches_of_first hfirst hafter
  rw [hr] at hfirst
  obtain ⟨u, _, rfl, hu, ⟨_, v, rfl, hslash, -⟩, hgroup⟩ := first_group_seq hfirst hafter hcap
  obtain rfl := (matches_text "/").mp hslash
  obtain ⟨m, hm, hseg⟩ := hg hu
  obtain ⟨j, hj, hfj⟩ := hf d.groups
  refine ⟨u ++ ['/'], j, ?_, hmatch, ⟨v, List.append_assoc u ['/'] v⟩, hj, u, m, rfl, hm, hseg⟩
  rw [hfj, Groups.group, hgroup, List.append_assoc]
  rfl

theorem pieces_diagnostics (s : Text) :
    Pieces k8sDiagnosticsPathPattern (Cut k8sDiagnosticsPathPattern IsStem) [] s
      (k8sDiagnosticsPathPattern.replaceAllMapped replaceDiagnosticsPath s) := by
  refine pieces_path rfl isPath_diagnostics (by decide) (fun h ↦ ?_) (fun m ↦ ?_) s
  · obtain rfl := (matches_text "/v1/diagnostics").mp h
    exact ⟨2, by decide, segments_v1_diagnostics⟩
  · exact ⟨"<namespace>/<kind>/<name>".toList, by decide, by simp only [replaceDiagnosticsPath, List.append_assoc]; rfl⟩

theorem pieces_ws (s : Text) :
    Pieces wsPathPattern (Cut wsPathPattern IsStem) [] s (wsPathPattern.replaceAllMapped replaceWsPath s) := by
  refine pieces_path rfl isPath_ws (by decide) (fun h ↦ ?_) (fun m ↦ ?_) s
  · obtain ⟨v, rfl, hv⟩ := ws_prefix h
    exact ⟨2, by decide, segments_ws.append hv⟩
  · exact ⟨"<namespace>/<pod>/<container>".toList, by decide, by rw [replaceWsPath, List.append_assoc]; rfl⟩

theorem pieces_k8s (s : Text) :
    Pieces k8sPathSegmentPattern (Cut k8sPathSegmentPattern IsStem) [] s
      (k8sPathSegmentPattern.replaceAllMapped replacePathSegment s) := by
  refine pieces_path rfl isPath_k8s (by decide) (fun h ↦ ?_) (fun m ↦ ?_) s
  · obtain ⟨v, rfl, hv⟩ := v1_prefix h
    exact ⟨3, by decide, segments_v1.append hv⟩
  · rw [replacePathSegment]
    split
    · exact ⟨scrubbedNamespace, by decide, rfl⟩
    · exact ⟨"<namespace>/<name>".toList, by decide, by rw [List.append_assoc]; rfl⟩

/-! ### Tokens -/

theorem tokens_survive : Survives fcmTokenPattern where
  boundaryFree := rfl
  unmarked h c hc := by
    have hmark : isTokenChar c = true := h.2 c hc
    rw [isMark, Bool.or_eq_false_iff, beq_eq_false_iff_ne, beq_eq_false_iff_ne]
    constructor
    · rintro rfl
      cases hmark
    · rintro rfl
      cases hmark
  nonempty h := List.ne_nil_of_length_pos (Nat.lt_of_lt_of_le (by decide) h.1)
  absent j hj v hv h := by
    have hshort : ∀ j ∈ fills, j.length < 100 := by decide
    have hlength := hv.length_le
    have hmin : 100 ≤ v.length := h.1
    have := hshort j hj
    omega

theorem tokens_nonempty (b a : Text) : ¬ fcmTokenPattern.Matches b [] a := fun h ↦ tokens_survive.nonempty h rfl

theorem pieces_tokens (s : Text) :
    Pieces fcmTokenPattern (Cut fcmTokenPattern (fun _ _ p _ ↦ p = [])) [] s
      (fcmTokenPattern.replaceAllMapped (fun _ ↦ scrubbedToken) s) := by
  refine (replaced_replaceFrom tokens_nonempty _ [] s).pieces (fun b w a d hfirst hafter _ ↦ ?_)
  exact ⟨[], scrubbedToken, rfl, matches_of_first hfirst hafter, List.nil_prefix, by decide, rfl⟩

theorem tokens_clean (s : Text) :
    Clean fcmTokenPattern (fcmTokenPattern.replaceAllMapped (fun _ ↦ scrubbedToken) s) := by
  refine (pieces_tokens s).clean (cut_marks tokens_nonempty) tokens_survive.toPlain (fun b w a p j hcut v hin h ↦ ?_)
  obtain hin | hin := hin
  · rw [hcut.keeps, List.infix_nil] at hin
    subst hin
    exact tokens_nonempty _ _ h
  · exact tokens_survive.absent j hcut.fill v hin h

/-! ### Key-value pairs -/

def IsKey (key : Text) : Prop := key.map Char.toLower = "namespace".toList ∨ key.map Char.toLower = "name".toList

def startsValue (l : Text) : Bool := l.head?.any isValueChar

theorem matches_anyCase (t : String) : (anyCase t).Matches b w a ↔ w.map Char.toLower = t.toList := by
  rw [anyCase, matches_foldr (fun c x ↦ x.toLower == c)]
  generalize t.toList = l
  induction l generalizing w with
  | nil => rw [List.forall₂_nil_left_iff, List.map_eq_nil_iff]
  | cons c l ih =>
    rw [List.forall₂_cons_left_iff, List.map_eq_cons_iff]
    constructor
    · rintro ⟨x, w, hx, hw, rfl⟩
      exact ⟨x, w, rfl, beq_iff_eq.mp hx, ih.mp hw⟩
    · rintro ⟨x, w, rfl, hx, hw⟩
      exact ⟨x, w, beq_iff_eq.mpr hx, ih.mpr hw, rfl⟩

theorem matches_key : (alt (anyCase "namespace") (anyCase "name")).Matches b w a ↔ IsKey w :=
  or_congr (matches_anyCase "namespace") (matches_anyCase "name")

theorem isWordChar_of_toLower {c : Char} (h : isWordChar c.toLower = true) : isWordChar c = true := by
  by_cases hupper : c.val ≥ 'A'.val ∧ c.val ≤ 'Z'.val
  · exact isWordChar_iff.mpr (.inr (.inl hupper))
  · have hsame : c.toLower = c := dif_neg hupper
    rwa [hsame] at h

theorem IsKey.word (h : IsKey key) : ∀ c ∈ key, isWordChar c = true := by
  intro c hc
  have hlower : c.toLower ∈ key.map Char.toLower := List.mem_map.mpr ⟨c, hc, rfl⟩
  have hall : (∀ c ∈ "namespace".toList, isWordChar c = true) ∧ ∀ c ∈ "name".toList, isWordChar c = true :=
    ⟨List.all_eq_true.mp (by decide), List.all_eq_true.mp (by decide)⟩
  obtain h | h := h
  · rw [h] at hlower
    exact isWordChar_of_toLower (hall.1 _ hlower)
  · rw [h] at hlower
    exact isWordChar_of_toLower (hall.2 _ hlower)

theorem IsKey.ne_nil (h : IsKey key) : key ≠ [] := by
  rintro rfl
  obtain h | h := h
  · cases h
  · cases h

theorem startsWord_of_forall (hne : v ≠ []) (hv : ∀ c ∈ v, isWordChar c = true) : startsWord v = true := by
  cases v with
  | nil => exact absurd rfl hne
  | cons c v => exact hv c List.mem_cons_self

theorem IsKey.startsWord (h : IsKey key) : startsWord key = true := startsWord_of_forall h.ne_nil h.word

/-- A key, or the end of one, ends in a letter. -/
theorem startsWord_reverse (hne : v ≠ []) (hv : ∀ c ∈ v, isWordChar c = true) (b : Text) :
    Regex.startsWord (v.reverse ++ b) = true := by
  have hne' : v.reverse ≠ [] := fun h ↦ hne (List.reverse_eq_nil_iff.mp h)
  rw [startsWord_append hne']
  exact startsWord_of_forall hne' (fun c hc ↦ hv c (List.mem_reverse.mp hc))

/-- The sign is only at the end. -/
theorem IsKey.eq_of_prefix {key' : Text} (h' : IsKey key') (hpre : key ++ ['='] <+: key' ++ ['=']) :
    key = key' := by
  have hsign {l : Text} (hl : ∀ c ∈ l, isWordChar c = true) : '=' ∉ l := fun hmem ↦ absurd (hl _ hmem) (by decide)
  obtain heq | hpre := List.prefix_concat_iff.mp hpre
  · exact (List.append_inj' heq rfl).1
  · exact absurd (hpre.subset (List.mem_append_right _ List.mem_cons_self)) (hsign h'.word)

/-- What a pass over keys keeps, and what is around it. -/
def KeepsKey (b a p j : Text) : Prop :=
  ∃ key, IsKey key ∧ p = key ++ ['='] ∧ j = placeholder key ∧ Regex.startsWord b = false ∧ startsValue a = false

theorem placeholder_mem (key : Text) : placeholder key ∈ fills := by
  rw [placeholder]
  split
  · decide
  · decide

theorem keyValue_nonempty (b a : Text) : ¬ k8sKeyValuePattern.Matches b [] a := by
  rintro ⟨_, _, hnil, -, _, _, rfl, hkey, -⟩
  obtain ⟨-, hnil⟩ := List.append_eq_nil_iff.mp hnil.symm
  obtain ⟨rfl, -⟩ := List.append_eq_nil_iff.mp hnil
  exact (matches_key.mp hkey).ne_nil rfl

theorem first_keyValue {d : Cursor} (hfirst : k8sKeyValuePattern.first b (w ++ a) = some d) (hafter : d.after = a) :
    ∃ key v, IsKey key ∧ w = key ++ '=' :: v ∧ Regex.startsWord b = false ∧ v ≠ [] ∧ (∀ c ∈ v, isValueChar c = true) ∧
      startsValue a = false ∧ replaceKeyValue d.groups = key ++ '=' :: placeholder key := by
  have hmatch := matches_of_first hfirst hafter
  have hfirst' := first_of_wordBoundary hfirst
  obtain ⟨key, _, rfl, hfound, ⟨_, v, rfl, hsign, hvalue⟩, hgroup⟩ := first_group_seq hfirst' hafter (by decide)
  have hkey : IsKey key := matches_key.mp hfound
  obtain rfl := (matches_text "=").mp hsign
  refine ⟨key, v, hkey, rfl, ?_, List.ne_nil_of_length_pos hvalue.1, hvalue.2, ?_, ?_⟩
  · obtain ⟨_, _, hw, ⟨rfl, hboundary⟩, -⟩ := hmatch
    rw [List.nil_append] at hw
    rw [← hw, List.append_assoc, startsWord_append hkey.ne_nil, hkey.startsWord] at hboundary
    exact Bool.eq_false_iff.mpr hboundary
  · obtain ⟨c₁, -, hfirst₁⟩ := exists_of_head?_seq hfirst'
    obtain ⟨c₂, -, hfirst₂⟩ := exists_of_head?_seq hfirst₁
    rw [run, List.head?_map, Option.map_eq_some_iff] at hfirst₂
    obtain ⟨e, he, rfl⟩ := hfirst₂
    rw [← hafter]
    exact eats_longest (d := e) he
  · rw [replaceKeyValue, Groups.group, hgroup]
    rfl

theorem pieces_keyValue (s : Text) :
    Pieces k8sKeyValuePattern (Cut k8sKeyValuePattern KeepsKey) [] s
      (k8sKeyValuePattern.replaceAllMapped replaceKeyValue s) := by
  refine (replaced_replaceFrom keyValue_nonempty _ [] s).pieces (fun b w a d hfirst hafter _ ↦ ?_)
  have hmatch := matches_of_first hfirst hafter
  obtain ⟨key, v, hkey, rfl, hbefore, -, -, hstop, hreplace⟩ := first_keyValue hfirst hafter
  refine ⟨key ++ ['='], placeholder key, ?_, hmatch, ⟨v, List.append_assoc key ['='] v⟩, placeholder_mem key, key, hkey,
    rfl, rfl, hbefore, hstop⟩
  rw [hreplace, List.append_assoc]
  rfl

/-- Behind each key stands what is put in for it, if anything. -/
def KeyValuesScrubbed (s : Text) : Prop :=
  ∀ u key o, s = u ++ (key ++ '=' :: o) → IsKey key → Regex.startsWord u.reverse = false → startsValue o = true →
    ∃ o', o = placeholder key ++ o' ∧ startsValue o' = false

theorem Cut.word_of_key (h : Cut r KeepsKey b w a p j) : w.head?.any isWordChar = true := by
  obtain ⟨key, hkey, rfl, -⟩ := h.keeps
  obtain ⟨v, rfl⟩ := h.part
  rw [List.append_assoc, List.head?_append_of_ne_nil _ hkey.ne_nil]
  exact hkey.startsWord

/-- A replacement of words does not put a value where there is none. -/
theorem startsValue_of_pieces {H : Text → Text → Text → Text → Text → Prop}
    (hword : ∀ {b w a p j}, H b w a p j → w.head?.any isWordChar = true) (h : Pieces r H b s out)
    (hs : startsValue s = false) : startsValue out = false := by
  cases s with
  | nil =>
    generalize hnil : [] = s at h
    cases h with
    | nil => rfl
    | kept => cases hnil
    | hit hhit _ =>
      obtain ⟨rfl, -⟩ := List.append_eq_nil_iff.mp hnil.symm
      cases hword hhit
  | cons c s =>
    have hc : isWordChar c = false := by
      rw [Bool.eq_false_iff]
      intro hc
      exact absurd ((isValueChar_of_isWordChar hc).symm.trans hs) Bool.noConfusion
    obtain ⟨out, rfl, -⟩ := h.head hword hc
    exact hs
theorem IsKey.startsValue (h : IsKey key) (o : Text) : startsValue (key ++ o) = true := by
  rw [Observability.startsValue, List.head?_append_of_ne_nil _ h.ne_nil]
  cases key with
  | nil => exact absurd rfl h.ne_nil
  | cons c key => exact isValueChar_of_isWordChar (h.word c List.mem_cons_self)

theorem exists_of_startsValue (h : startsValue o = true) : ∃ c o', o = c :: o' ∧ isValueChar c = true := by
  cases o with
  | nil => cases h
  | cons c o => exact ⟨c, o, rfl, h⟩

theorem matches_keyValue (hkey : IsKey key) (hb : Regex.startsWord b = false) {c : Char} (hc : isValueChar c = true)
    (a : Text) : k8sKeyValuePattern.Matches b (key ++ ['=', c]) a := by
  refine ⟨[], key ++ ['=', c], rfl, ⟨rfl, ?_⟩, key, ['=', c], rfl, matches_key.mpr hkey, ['='], [c], rfl,
    (matches_text "=").mpr rfl, Nat.le_refl 1, List.forall_mem_singleton.mpr hc⟩
  rw [hb, List.append_assoc, startsWord_append hkey.ne_nil, hkey.startsWord]
  exact Bool.false_ne_true

theorem keyValues_scrubbed (h : Pieces k8sKeyValuePattern (Cut k8sKeyValuePattern KeepsKey) [] s out) :
    KeyValuesScrubbed out := by
  rintro u key o rfl hkey hbefore hvalue
  have hunmarked : ∀ c ∈ key ++ ['='], isMark c = false :=
    List.forall_mem_append.mpr ⟨fun c hc ↦ isMark_of_isWordChar (hkey.word c hc), List.forall_mem_singleton.mpr rfl⟩
  have hmarks : Marks isMark (Cut k8sKeyValuePattern KeepsKey) := cut_marks keyValue_nonempty
  have hassoc (l : Text) : key ++ '=' :: l = key ++ ['='] ++ l := (List.append_assoc key ['='] l).symm
  rw [hassoc] at h
  have hreplaced {b b' w a p j out : Text} (hcut : Cut k8sKeyValuePattern KeepsKey b w a p j)
      (hpre : key ++ ['='] <+: p) (ho : key ++ ['='] ++ o = p ++ (j ++ out))
      (hrest : Pieces k8sKeyValuePattern (Cut k8sKeyValuePattern KeepsKey) b' a out) :
      ∃ o', o = placeholder key ++ o' ∧ startsValue o' = false := by
    obtain ⟨key', hkey', rfl, rfl, -, hstop⟩ := hcut.keeps
    obtain rfl := hkey'.eq_of_prefix hpre
    exact ⟨out, List.append_cancel_left ho, startsValue_of_pieces Cut.word_of_key hrest hstop⟩
  obtain ⟨s₁, s₂, rfl, hpieces, hplace⟩ | ⟨s₁, w, a, p, j, x, y, o', rfl, hcut, hxy, hx, hy, hsuf, ho, -⟩ := h.locate
  · obtain ⟨s₃, rfl, hrest⟩ | ⟨u', v', w, a, p, j, o', hsplit, hne, hpre, rfl, hcut, ho, hrest⟩ :=
      hpieces.split hmarks hunmarked
    · have hstarts : Regex.startsWord (s₁.reverse ++ []) = false := by
        obtain hhead | ⟨s₀, w, p, j, rfl, hcut⟩ := hplace
        · rw [← startsWord_congr hhead, List.append_nil]
          exact hbefore
        · obtain ⟨_, _, _, _, _, hstop⟩ := hcut.keeps
          rw [List.append_assoc, hkey.startsValue] at hstop
          cases hstop
      generalize hs : key ++ ['='] ++ s₃ = s at hpieces
      generalize hout : key ++ ['='] ++ o = out at hpieces
      cases hpieces with
      | nil => exact absurd (List.append_eq_nil_iff.mp hs).1 (by simp)
      | kept hnone _ =>
        -- there would have been a match
        have hvalue₃ : startsValue s₃ = true := by
          cases hvalue₃ : startsValue s₃ with
          | true => rfl
          | false =>
            rw [startsValue_of_pieces Cut.word_of_key hrest hvalue₃] at hvalue
            cases hvalue
        obtain ⟨c, s₃, rfl, hc⟩ := exists_of_startsValue hvalue₃
        have hmatch := matches_keyValue hkey hstarts hc s₃
        refine absurd hmatch (first_eq_none.mp hnone _ _ ?_)
        rw [← hs]
        simp
      | @hit _ w a p j out hcut hrest' =>
        have hout : key ++ ['='] ++ o = p ++ (j ++ out) := hout.trans (List.append_assoc ..)
        exact hreplaced hcut ((marked_fills hcut.fill).isPrefix hunmarked hout) hout hrest'
    · obtain ⟨key', hkey', rfl, -, hstarts, -⟩ := hcut.keeps
      obtain rfl | ⟨v', c, rfl⟩ := List.eq_nil_or_concat v'
      · exact absurd rfl hne
      · rw [List.concat_eq_append, ← List.append_assoc] at hsplit
        obtain ⟨hkey'', hc⟩ := List.append_inj' hsplit rfl
        obtain rfl := List.singleton_inj.mp hc
        rw [List.concat_eq_append] at hpre ho
        obtain rfl := hkey'.eq_of_prefix hpre
        -- nothing of a key is before the other
        obtain rfl | hne' := eq_or_ne u' []
        · exact hreplaced hcut (hkey'' ▸ List.prefix_refl _) (hkey'' ▸ ho) hrest
        · have hwords := startsWord_reverse hne' (fun c hc ↦ hkey.word c (hkey'' ▸ List.mem_append_left _ hc))
            (s₁.reverse ++ [])
          rw [hstarts] at hwords
          cases hwords
  · obtain ⟨key', hkey', rfl, rfl, -⟩ := hcut.keeps
    obtain ⟨z, -, hj⟩ | ⟨z, hz, rfl⟩ := List.append_eq_append_iff.mp hxy
    · have hin := (marked_fills hcut.fill).within ⟨z, hj.symm⟩ hy hunmarked ho
      have hsign : ∀ j ∈ fills, '=' ∉ j := by decide
      refine absurd (hin.subset (List.mem_append_right _ List.mem_cons_self)) (fun hmem ↦ ?_)
      exact hsign _ hcut.fill (hj ▸ List.mem_append_right z hmem)
    · -- what is kept ends in another key
      have ho : key ++ ['='] ++ o = z ++ (placeholder key' ++ o') := ho.trans (List.append_assoc ..)
      have hin := (marked_fills hcut.fill).isPrefix hunmarked ho
      obtain rfl | ⟨z, c, rfl⟩ := List.eq_nil_or_concat z
      · exact absurd (List.prefix_nil.mp hin) (by simp)
      · rw [List.concat_eq_append, ← List.append_assoc] at hz
        obtain ⟨rfl, hc⟩ := List.append_inj' hz rfl
        obtain ⟨l, rfl⟩ := hsuf
        have hwords := startsWord_reverse hx (fun c hc ↦ hkey'.word c (List.mem_append_left _ hc)) l.reverse
        rw [← List.reverse_append, hbefore] at hwords
        cases hwords

/-! ### Addresses -/

theorem isDigit_of_le {c t : Char} (ht : t ≤ '9') (h : ('0' ≤ c && c ≤ t) = true) : isDigit c = true := by
  obtain ⟨hlow, hhigh⟩ := Bool.and_eq_true_iff.mp h
  exact Bool.and_eq_true_iff.mpr ⟨hlow, decide_eq_true (Char.le_trans (of_decide_eq_true hhigh) ht)⟩

theorem isWordChar_of_isDigit {c : Char} (hc : isDigit c = true) : isWordChar c = true := by
  rw [isWordChar, Bool.or_eq_true, Bool.or_eq_true]
  exact .inl (.inr hc)

theorem octet_digits (h : octet.Matches b w a) : w ≠ [] ∧ ∀ c ∈ w, isDigit c = true := by
  have hall : octet.All isDigit :=
    ⟨⟨all_text (List.all_eq_true.mp (by decide)), fun c ↦ isDigit_of_le (by decide)⟩,
      ⟨all_text (List.all_eq_true.mp (by decide)), fun c ↦ isDigit_of_le (by decide), fun c hc ↦ hc⟩,
      ⟨all_text (List.all_eq_true.mp (by decide)), trivial⟩, ⟨fun c hc ↦ hc, trivial⟩, fun c hc ↦ hc⟩
  refine ⟨?_, all_of_matches hall h⟩
  obtain ⟨u, v, rfl, -, c, -, rfl⟩ | ⟨u, v, rfl, -, x, y, rfl, -, c, -, rfl⟩ | ⟨u, v, rfl, -, x, y, rfl, -, c, -, rfl⟩
    := h
  · simp
  · simp
  · simp

/-- An address stands between boundaries, and is of digits and dots, with digits outside. -/
theorem ipv4_matches (h : ipv4Pattern.Matches b w a) :
    startsWord b = false ∧ startsWord a = false ∧ (∃ c v, w = c :: v ∧ isDigit c = true) ∧
      (∃ v c, w = v ++ [c] ∧ isDigit c = true) ∧ ∀ c ∈ w, isMark c = false := by
  obtain ⟨_, _, rfl, ⟨rfl, hb⟩, o₁, _, rfl, h₁, _, _, rfl, hd₁, o₂, _, rfl, h₂, _, _, rfl, hd₂, o₃, _, rfl, h₃, _, _,
    rfl, hd₃, o₄, _, rfl, h₄, rfl, ha⟩ := h
  obtain rfl := (matches_text ".").mp hd₁
  obtain rfl := (matches_text ".").mp hd₂
  obtain rfl := (matches_text ".").mp hd₃
  obtain ⟨hne₁, hall₁⟩ := octet_digits h₁
  obtain ⟨-, hall₂⟩ := octet_digits h₂
  obtain ⟨-, hall₃⟩ := octet_digits h₃
  obtain ⟨hne₄, hall₄⟩ := octet_digits h₄
  obtain ⟨c₁, o₁, rfl⟩ := List.exists_cons_of_ne_nil hne₁
  obtain rfl | ⟨o₄, c₄, rfl⟩ := List.eq_nil_or_concat o₄
  · exact absurd rfl hne₄
  rw [List.concat_eq_append] at hall₄ ha ⊢
  have hc₁ := hall₁ c₁ List.mem_cons_self
  have hc₄ := hall₄ c₄ (List.mem_append_right _ List.mem_cons_self)
  have hword {c : Char} (hc : isDigit c = true) (l : Text) : startsWord (c :: l) = true := isWordChar_of_isDigit hc
  refine ⟨?_, ?_, ⟨c₁, _, rfl, hc₁⟩, ⟨c₁ :: o₁ ++ ('.' :: o₂ ++ ('.' :: o₃ ++ ('.' :: o₄))), c₄, ?_, hc₄⟩, ?_⟩
  · have hb : startsWord b ≠ true := hword hc₁ _ ▸ hb
    exact Bool.eq_false_iff.mpr hb
  · rw [List.reverse_append, List.append_assoc, List.reverse_singleton, List.singleton_append, hword hc₄] at ha
    exact Bool.eq_false_iff.mpr (Ne.symm ha)
  · simp
  · have hdot : ∀ c ∈ ".".toList, isMark c = false := List.forall_mem_singleton.mpr rfl
    have hdigits {l : Text} (hl : ∀ c ∈ l, isDigit c = true) : ∀ c ∈ l, isMark c = false :=
      fun c hc ↦ isMark_of_isWordChar (isWordChar_of_isDigit (hl c hc))
    simp only [List.nil_append, List.append_nil, List.forall_mem_append]
    exact ⟨hdigits hall₁, hdot, hdigits hall₂, hdot, hdigits hall₃, hdot, List.forall_mem_append.mp (hdigits hall₄)⟩

theorem ipv4_nonempty (b a : Text) : ¬ ipv4Pattern.Matches b [] a := by
  intro h
  obtain ⟨-, -, ⟨c, v, hw, -⟩, -⟩ := ipv4_matches h
  cases hw

def KeepsNothing (_ _ p _ : Text) : Prop := p = []

theorem pieces_ipv4 (s : Text) :
    Pieces ipv4Pattern (Cut ipv4Pattern KeepsNothing) [] s (ipv4Pattern.replaceAllMapped (fun _ ↦ scrubbedIp) s) :=
  (replaced_replaceFrom ipv4_nonempty _ [] s).pieces (fun _ _ _ _ hfirst hafter _ ↦
    ⟨[], scrubbedIp, rfl, matches_of_first hfirst hafter, List.nil_prefix, by decide, rfl⟩)

theorem ipv4_fenced : Fenced (Cut ipv4Pattern KeepsNothing) where
  whole h := h.keeps
  before h := (ipv4_matches h.matched).1
  after h := (ipv4_matches h.matched).2.1
  word h := by
    obtain ⟨-, -, ⟨c, v, rfl, hc⟩, -⟩ := ipv4_matches h.matched
    exact isWordChar_of_isDigit hc

theorem Cut.digit (h : Cut ipv4Pattern Keeps b w a p j) : w.head?.any isDigit = true := by
  obtain ⟨-, -, ⟨c, v, rfl, hc⟩, -⟩ := ipv4_matches h.matched
  exact hc

theorem digits_absent {j : Text} (hj : j ∈ fills) : ∀ c ∈ j, isDigit c = false := by
  have hall : ∀ j ∈ fills, j.all (fun c ↦ !isDigit c) = true := by decide
  intro c hc
  have hdigit := List.all_eq_true.mp (hall j hj) c hc
  rwa [Bool.not_eq_true'] at hdigit

theorem ipv4_clean (h : Pieces ipv4Pattern (Cut ipv4Pattern KeepsNothing) [] s out) : Clean ipv4Pattern out := by
  rintro u v o rfl hv
  obtain ⟨hbefore, hafter, ⟨c, v', hhead, hc⟩, ⟨v'', c', hlast, hc'⟩, hunmarked⟩ := ipv4_matches hv
  have hword : startsWord v = true := by
    rw [hhead]
    exact isWordChar_of_isDigit hc
  have hplace : startsWord (u.reverse ++ []) = false := by rwa [List.append_nil]
  obtain ⟨s₁, s₂, rfl, hnone, hstarts, hrest⟩ | ⟨b', w, a, p, j, hcut, hin⟩ :=
    h.word (cut_marks ipv4_nonempty) ipv4_fenced hunmarked hword hplace
  · have hends : startsWord (v.reverse ++ (s₁.reverse ++ [])) = true := by
      rw [hlast, List.reverse_append]
      exact isWordChar_of_isDigit hc'
    have hafter' := hrest.after ipv4_fenced hends hafter
    exact first_eq_none.mp hnone v s₂ rfl (matches_congr (hbefore.trans hstarts.symm) (hafter.trans hafter'.symm) hv)
  · have hmem : c ∈ j := hin.subset (hhead ▸ List.mem_cons_self)
    exact absurd (hc.symm.trans (digits_absent hcut.fill c hmem)) Bool.noConfusion

/-- The last pass leaves the pairs as they are. -/
theorem KeyValuesScrubbed.kept (hs : KeyValuesScrubbed s)
    (h : Pieces ipv4Pattern (Cut ipv4Pattern KeepsNothing) [] s out) : KeyValuesScrubbed out := by
  rintro u key o rfl hkey hbefore hvalue
  have hunmarked : ∀ c ∈ key ++ ['='], isMark c = false :=
    List.forall_mem_append.mpr ⟨fun c hc ↦ isMark_of_isWordChar (hkey.word c hc), List.forall_mem_singleton.mpr rfl⟩
  have hword : startsWord (key ++ ['=']) = true := by
    rw [startsWord_append hkey.ne_nil]
    exact hkey.startsWord
  have hplace : startsWord (u.reverse ++ []) = false := by rwa [List.append_nil]
  have hdigit {c : Char} (hc : isDigit c = true) : isWordChar c = true := isWordChar_of_isDigit hc
  have hhead {b w a p j : Text} (hcut : Cut ipv4Pattern KeepsNothing b w a p j) : w.head?.any isWordChar = true :=
    ipv4_fenced.word hcut
  have hassoc : u ++ (key ++ '=' :: o) = u ++ (key ++ ['='] ++ o) := by rw [List.append_assoc]; rfl
  rw [hassoc] at h
  obtain ⟨s₁, s₂, rfl, -, hstarts, hrest⟩ | ⟨b', w, a, p, j, hcut, hin⟩ :=
    h.word (cut_marks ipv4_nonempty) ipv4_fenced hunmarked hword hplace
  · cases hvalue₂ : startsValue s₂ with
    | false =>
      rw [startsValue_of_pieces hhead hrest hvalue₂] at hvalue
      cases hvalue
    | true =>
      obtain ⟨s₃, rfl, hstop⟩ := hs s₁ key s₂ (by rw [List.append_assoc]; rfl) hkey
        (by rwa [List.append_nil] at hstarts) hvalue₂
      obtain ⟨o', rfl, hrest'⟩ := hrest.stem Cut.digit (digits_absent (placeholder_mem key))
      exact ⟨o', rfl, startsValue_of_pieces hhead hrest' hstop⟩
  · have hsign : ∀ j ∈ fills, '=' ∉ j := by decide
    exact absurd (hin.subset (List.mem_append_right _ List.mem_cons_self)) (hsign j hcut.fill)

/-! ### The whole -/

/-- Nothing is left in a text of what the scrubber looks for. -/
structure Scrubbed (s : Text) : Prop where
  tokens : Clean fcmTokenPattern s
  diagnostics : Clean k8sDiagnosticsPathPattern s
  sockets : Clean wsPathPattern s
  paths : Clean k8sPathSegmentPattern s
  keyValues : KeyValuesScrubbed s
  addresses : Clean ipv4Pattern s

theorem scrubText_scrubbed (input : Text) : Scrubbed (scrubText input) := by
  rw [scrubText]
  generalize htokens : fcmTokenPattern.replaceAllMapped _ input = out₁
  generalize hdiagnostics : k8sDiagnosticsPathPattern.replaceAllMapped _ out₁ = out₂
  generalize hsockets : wsPathPattern.replaceAllMapped _ out₂ = out₃
  generalize hpaths : k8sPathSegmentPattern.replaceAllMapped _ out₃ = out₄
  generalize hkeys : k8sKeyValuePattern.replaceAllMapped _ out₄ = out₅
  have hpass₂ := hdiagnostics ▸ pieces_diagnostics out₁
  have hpass₃ := hsockets ▸ pieces_ws out₂
  have hpass₄ := hpaths ▸ pieces_k8s out₃
  have hpass₅ := hkeys ▸ pieces_keyValue out₄
  have hpass₆ := pieces_ipv4 out₅
  have hlast {q : Regex} (hq : Survives q) (h : Clean q out₄) :
      Clean q (ipv4Pattern.replaceAllMapped (fun _ ↦ scrubbedIp) out₅) :=
    hq.kept ipv4_nonempty hpass₆ (hq.kept keyValue_nonempty hpass₅ h)
  constructor
  · have hclean : Clean fcmTokenPattern out₁ := htokens ▸ tokens_clean input
    have hclean₂ := tokens_survive.kept isPath_diagnostics.nonempty hpass₂ hclean
    have hclean₃ := tokens_survive.kept isPath_ws.nonempty hpass₃ hclean₂
    exact hlast tokens_survive (tokens_survive.kept isPath_k8s.nonempty hpass₄ hclean₃)
  · have hsurvives := isPath_diagnostics.survives
    have hclean₃ := hsurvives.kept isPath_ws.nonempty hpass₃ (isPath_diagnostics.clean hpass₂)
    exact hlast hsurvives (hsurvives.kept isPath_k8s.nonempty hpass₄ hclean₃)
  · have hsurvives := isPath_ws.survives
    exact hlast hsurvives (hsurvives.kept isPath_k8s.nonempty hpass₄ (isPath_ws.clean hpass₃))
  · exact hlast isPath_k8s.survives (isPath_k8s.clean hpass₄)
  · exact (keyValues_scrubbed hpass₅).kept hpass₆
  · exact ipv4_clean hpass₆

theorem eq_of_values {v v' a a' : Text} (hv : ∀ c ∈ v, isValueChar c = true) (hv' : ∀ c ∈ v', isValueChar c = true)
    (ha : startsValue a = false) (ha' : startsValue a' = false) (h : v ++ a = v' ++ a') : v = v' := by
  have hrun {v a : Text} (hv : ∀ c ∈ v, isValueChar c = true) (ha : startsValue a = false) :
      (v ++ a).takeWhile isValueChar = v := by
    rw [List.takeWhile_append_of_pos hv]
    cases a with
    | nil => rw [List.takeWhile_nil, List.append_nil]
    | cons c a =>
      have hc : isValueChar c = false := ha
      rw [List.takeWhile_cons, hc, if_neg Bool.false_ne_true, List.append_nil]
  rw [← hrun hv ha, h, hrun hv' ha']

theorem values_of_placeholder (key : Text) : ∀ c ∈ placeholder key, isValueChar c = true := by
  rw [placeholder]
  split
  · exact List.all_eq_true.mp (by decide)
  · exact List.all_eq_true.mp (by decide)

/-- A text that has been scrubbed is left as it is. -/
theorem Scrubbed.scrubText (h : Scrubbed s) : scrubText s = s := by
  have hkeys : k8sKeyValuePattern.replaceAllMapped replaceKeyValue s = s := by
    refine (replaced_replaceFrom keyValue_nonempty replaceKeyValue [] s).eq_of_same (fun u w a d hs hfirst hafter ↦ ?_)
    obtain ⟨key, v, hkey, rfl, hbefore, hne, hv, hstop, hreplace⟩ := first_keyValue hfirst hafter
    rw [List.append_nil] at hbefore
    have hvalue : startsValue (v ++ a) = true := by
      rw [startsValue, List.head?_append_of_ne_nil _ hne]
      cases v with
      | nil => exact absurd rfl hne
      | cons c v => exact hv c List.mem_cons_self
    obtain ⟨o', ho, hstop'⟩ := h.keyValues u key (v ++ a) (by rw [hs, List.append_assoc]; rfl) hkey hbefore hvalue
    rw [hreplace, eq_of_values hv (values_of_placeholder key) hstop hstop' ho]
  rw [Observability.scrubText]
  have htokens := (replaced_replaceFrom tokens_nonempty (fun _ ↦ scrubbedToken) [] s).eq_of_clean h.tokens
  have hdiagnostics := (replaced_replaceFrom isPath_diagnostics.nonempty replaceDiagnosticsPath [] s).eq_of_clean
    h.diagnostics
  have hsockets := (replaced_replaceFrom isPath_ws.nonempty replaceWsPath [] s).eq_of_clean h.sockets
  have hpaths := (replaced_replaceFrom isPath_k8s.nonempty replacePathSegment [] s).eq_of_clean h.paths
  have haddresses := (replaced_replaceFrom ipv4_nonempty (fun _ ↦ scrubbedIp) [] s).eq_of_clean h.addresses
  simp only [replaceAllMapped] at hkeys ⊢
  rw [htokens, hdiagnostics, hsockets, hpaths, hkeys, haddresses]

/-- The texts that the scrubber leaves as they are are those in which it finds nothing. -/
theorem scrubText_eq_self_iff : scrubText s = s ↔ Scrubbed s :=
  ⟨fun h ↦ h ▸ scrubText_scrubbed s, Scrubbed.scrubText⟩

/-- No other characters come into a text than those that are put in. -/
theorem mem_scrubText {input : Text} {c : Char} (hc : c ∈ scrubText input) : c ∈ input ∨ ∃ j ∈ fills, c ∈ j := by
  have hpass {r : Regex} {Keeps : Text → Text → Text → Text → Prop} {s out : Text}
      (h : Pieces r (Cut r Keeps) [] s out) (hc : c ∈ out) : c ∈ s ∨ ∃ j ∈ fills, c ∈ j :=
    (h.mem Cut.part hc).imp_right (fun ⟨_, _, _, _, j, hcut, hmem⟩ ↦ ⟨j, hcut.fill, hmem⟩)
  rw [scrubText] at hc
  obtain hc | hc := hpass (pieces_ipv4 _) hc
  · obtain hc | hc := hpass (pieces_keyValue _) hc
    · obtain hc | hc := hpass (pieces_k8s _) hc
      · obtain hc | hc := hpass (pieces_ws _) hc
        · obtain hc | hc := hpass (pieces_diagnostics _) hc
          · exact hpass (pieces_tokens _) hc
          · exact .inr hc
        · exact .inr hc
      · exact .inr hc
    · exact .inr hc
  · exact .inr hc

/-- A url without what is asked of it. -/
structure UrlScrubbed (url : Text) : Prop extends Scrubbed url where
  query : '?' ∉ url
  fragment : '#' ∉ url

theorem scrubUrl_scrubbed (decodeFull : Text → Option Text) (url : Text) : UrlScrubbed (scrubUrl decodeFull url) := by
  have habsent : ∀ j ∈ fills, '?' ∉ j ∧ '#' ∉ j := by decide
  rw [scrubUrl]
  generalize (decodeFull url).getD url = decoded
  have hcut (l : Text) (c : Char) : c ∉ l.takeWhile (· != c) := by
    intro hmem
    have hne := List.all_eq_true.mp List.all_takeWhile c hmem
    exact bne_iff_ne.mp hne rfl
  refine ⟨scrubText_scrubbed _, fun hmem ↦ ?_, fun hmem ↦ ?_⟩
  · obtain hmem | ⟨j, hj, hmem⟩ := mem_scrubText hmem
    · exact hcut decoded '?' ((List.takeWhile_prefix _).subset hmem)
    · exact (habsent j hj).1 hmem
  · obtain hmem | ⟨j, hj, hmem⟩ := mem_scrubText hmem
    · exact hcut _ '#' hmem
    · exact (habsent j hj).2 hmem

def Value.Scrubbed : Value → Prop
  | .string s => Observability.Scrubbed s
  | .other _ => True

structure RequestScrubbed (toLowerCase : Text → Text) (r : SentryRequest) : Prop where
  url : ∀ url, r.url = some url → UrlScrubbed url
  body : r.data = none ∧ r.queryString = none ∧ r.cookies = none ∧ r.fragment = none
  headers : ∀ h ∈ r.headers, toLowerCase h.1 ∉ droppedHeaders ∧ ¬ "x-csrf".toList <+: toLowerCase h.1

structure MessageScrubbed (m : SentryMessage) : Prop where
  formatted : Scrubbed m.formatted
  template : ∀ t, m.template = some t → Scrubbed t
  params : ∀ l, m.params = some l → ∀ value ∈ l, value.Scrubbed

structure BreadcrumbScrubbed (crumb : Breadcrumb) : Prop where
  message : ∀ m, crumb.message = some m → Scrubbed m
  data : ∀ data, crumb.data = some data → ∀ entry ∈ data, entry.2.Scrubbed
  url : ∀ data, crumb.data = some data → ∀ s, ("url".toList, Value.string s) ∈ data → UrlScrubbed s

/-- Nothing in a report says who or what it is about, but for its stack frames and data that is not text. -/
structure EventScrubbed (toLowerCase : Text → Text) (event : SentryEvent) : Prop where
  user : event.user = none
  request : ∀ r, event.request = some r → RequestScrubbed toLowerCase r
  message : ∀ m, event.message = some m → MessageScrubbed m
  transaction : ∀ t, event.transaction = some t → Scrubbed t
  culprit : ∀ c, event.culprit = some c → Scrubbed c
  tags : ∀ tags, event.tags = some tags → ∀ tag ∈ tags, Scrubbed tag.2
  extra : ∀ extra, event.extra = some extra → ∀ entry ∈ extra, entry.2.Scrubbed
  fingerprint : ∀ l, event.fingerprint = some l → ∀ s ∈ l, Scrubbed s
  breadcrumbs : ∀ l, event.breadcrumbs = some l → ∀ crumb ∈ l, BreadcrumbScrubbed crumb
  exceptions : ∀ l, event.exceptions = some l → ∀ exc ∈ l, ∀ value, exc.value = some value → Scrubbed value

theorem scrubValue_scrubbed (value : Value) : (scrubValue value).Scrubbed := by
  cases value with
  | string s => exact scrubText_scrubbed s
  | other json => trivial

/-- What is made of all members of a list that may not be there. -/
theorem forall_of_map {α β : Type} {f : α → β} {P : β → Prop} (hf : ∀ x, P (f x)) {o : Option (List α)} {l : List β}
    (h : o.map (List.map f) = some l) : ∀ y ∈ l, P y := by
  obtain ⟨l', -, rfl⟩ := Option.map_eq_some_iff.mp h
  exact List.forall_mem_map.mpr (fun x _ ↦ hf x)

theorem of_map {α β : Type} {f : α → β} {P : β → Prop} (hf : ∀ x, P (f x)) {o : Option α} {y : β}
    (h : o.map f = some y) : P y := by
  obtain ⟨x, -, rfl⟩ := Option.map_eq_some_iff.mp h
  exact hf x

section

variable (decodeFull : Text → Option Text) (toLowerCase : Text → Text)

theorem scrubRequest_scrubbed (r : SentryRequest) :
    RequestScrubbed toLowerCase (scrubRequest decodeFull toLowerCase r) where
  url _ h := of_map (scrubUrl_scrubbed decodeFull) h
  body := ⟨rfl, rfl, rfl, rfl⟩
  headers h hmem := by
    obtain ⟨-, hkeep⟩ := List.mem_filter.mp hmem
    rw [Bool.not_eq_true', Bool.or_eq_false_iff, List.contains_eq_mem, decide_eq_false_iff_not] at hkeep
    exact ⟨hkeep.1, fun hpre ↦ Bool.eq_false_iff.mp hkeep.2 (List.isPrefixOf_iff_prefix.mpr hpre)⟩

theorem scrubMessage_scrubbed (m : SentryMessage) : MessageScrubbed (scrubMessage m) where
  formatted := scrubText_scrubbed _
  template _ h := of_map scrubText_scrubbed h
  params _ h := forall_of_map scrubValue_scrubbed h

theorem scrubBreadcrumb_scrubbed (crumb : Breadcrumb) : BreadcrumbScrubbed (scrubBreadcrumb decodeFull crumb) where
  message _ h := of_map scrubText_scrubbed h
  data data h entry hentry := by
    obtain ⟨l, -, rfl⟩ := Option.map_eq_some_iff.mp h
    obtain ⟨⟨key, value⟩, -, rfl⟩ := List.mem_map.mp hentry
    cases value with
    | other json => trivial
    | string s =>
      show Scrubbed (if key = "url".toList then scrubUrl decodeFull s else scrubText s)
      split
      · exact (scrubUrl_scrubbed decodeFull s).toScrubbed
      · exact scrubText_scrubbed s
  url data h s hs := by
    obtain ⟨l, -, rfl⟩ := Option.map_eq_some_iff.mp h
    obtain ⟨⟨key, value⟩, -, heq⟩ := List.mem_map.mp hs
    obtain ⟨rfl, hvalue⟩ := Prod.mk.inj heq
    cases value with
    | other json => cases hvalue
    | string t =>
      obtain rfl := Value.string.inj hvalue
      exact scrubUrl_scrubbed decodeFull t

theorem scrubEventBody_scrubbed (event : SentryEvent) :
    EventScrubbed toLowerCase (scrubEventBody decodeFull toLowerCase event) where
  user := rfl
  request _ h := of_map (scrubRequest_scrubbed decodeFull toLowerCase) h
  message _ h := of_map scrubMessage_scrubbed h
  transaction _ h := of_map scrubText_scrubbed h
  culprit _ h := of_map scrubText_scrubbed h
  tags _ h tag htag := by
    obtain ⟨tags, -, rfl⟩ := Option.map_eq_some_iff.mp h
    obtain ⟨⟨key, value⟩, -, rfl⟩ := List.mem_map.mp htag
    exact scrubText_scrubbed value
  extra _ h entry hentry := by
    obtain ⟨extra, -, rfl⟩ := Option.map_eq_some_iff.mp h
    obtain ⟨⟨key, value⟩, -, rfl⟩ := List.mem_map.mp hentry
    exact scrubValue_scrubbed value
  fingerprint _ h := forall_of_map scrubText_scrubbed h
  breadcrumbs _ h := forall_of_map (scrubBreadcrumb_scrubbed decodeFull) h
  exceptions _ h := forall_of_map (fun exc _ hvalue ↦ of_map scrubText_scrubbed hvalue) h

end

end KubeCenter.Observability
