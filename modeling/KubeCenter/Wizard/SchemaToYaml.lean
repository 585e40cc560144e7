import KubeCenter.Core.BlockYaml

namespace KubeCenter.Wizard.SchemaToYaml

open KubeCenter.Core BlockYaml

/-! ## Form values -/

/-- Digits of a numeral, of which there is at least one. -/
abbrev Digits := { ds : List (Fin 10) // ds ≠ [] }

def Digits.text (ds : Digits) : Text := ds.1.map (fun d ↦ Nat.digitChar d.1)

/-- A finite number as JavaScript writes it. -/
structure Numeral where
  negative : Bool
  whole : Digits
  fraction : Option Digits
  exponent : Option (Bool × Digits)

def fractionText : Option Digits → Text
  | some ds => '.' :: ds.text
  | none => []

def exponentText : Option (Bool × Digits) → Text
  | some (negative, ds) => 'e' :: (if negative then '-' else '+') :: ds.text
  | none => []

def Numeral.body (d : Numeral) : Text := d.whole.text ++ fractionText d.fraction ++ exponentText d.exponent

def Numeral.text (d : Numeral) : Text := if d.negative then '-' :: d.body else d.body

/-- What a wizard's form holds; `undefined` is treated as `null` is, everywhere below. -/
inductive Form where
  | null
  | bool (b : Bool)
  | number (d : Numeral)
  | string (s : Text)
  | array (items : List Form)
  | object (members : List (Text × Form))

/-! ## The serializer -/

def keywords : List Text := ["true", "false", "null", "yes", "no", "on", "off"].map String.toList

/-- `NEEDS_QUOTE`. -/
def needsQuote (s : Text) : Bool :=
  s.any (":#{}[],&*?|>!%@`\"'\n\r\t".toList.contains ·) || keywords.contains (s.map Char.toLower)

def escape (c : Char) : Text := if c = '\\' ∨ c = '\"' then ['\\', c] else [c]

def quoteString (val : Text) : Text :=
  if val = [] then ['\"', '\"']
  else if needsQuote val then '\"' :: val.flatMap escape ++ ['\"']
  else val

def isEmptyValue : Form → Bool
  | .null | .string [] | .array [] | .object [] => true
  | _ => false

def pad (indent : ℕ) : Text := List.replicate (2 * indent) ' '

def joinLines (lines : List Text) : Text := List.intercalate ['\n'] lines

/-- White space and line terminators of ECMAScript. -/
def jsSpace (c : Char) : Bool :=
  c.toNat ∈ [0x09, 0x0a, 0x0b, 0x0c, 0x0d, 0x20, 0xa0, 0x1680, 0x2028, 0x2029, 0x202f, 0x205f, 0x3000, 0xfeff] ∨
    0x2000 ≤ c.toNat ∧ c.toNat ≤ 0x200a

def trimStart (s : Text) : Text := s.dropWhile jsSpace

/-- The lines of an item that is an object, from the lines of its members. -/
def objectItem (indent : ℕ) : List Text → List Text
  | [] => [pad indent ++ ['-', ' ', '{', '}']]
  | first :: more =>
    (pad indent ++ '-' :: ' ' :: trimStart first) :: more.map (fun l ↦ pad indent ++ ' ' :: ' ' :: trimStart l)

def member (indent : ℕ) (k serialized : Text) : Text :=
  if serialized.head? = some '\n' then pad indent ++ quoteString k ++ ':' :: serialized
  else pad indent ++ quoteString k ++ ':' :: ' ' :: serialized

mutual

def serializeValue (indent : ℕ) : Form → Text
  | .null => "null".toList
  | .bool b => if b then "true".toList else "false".toList
  | .number d => d.text
  | .string s => quoteString s
  | .array items => if items.isEmpty then ['[', ']'] else '\n' :: joinLines (serializeItems indent items)
  | .object ms => if ms.isEmpty then ['{', '}'] else '\n' :: joinLines (serializeObject indent ms)

/-- The loop over the items of an array. -/
def serializeItems (indent : ℕ) : List Form → List Text
  | [] => []
  | .object ms :: items => objectItem indent (serializeObject (indent + 1) ms) ++ serializeItems indent items
  | item :: items => (pad indent ++ '-' :: ' ' :: serializeValue (indent + 1) item) :: serializeItems indent items

def serializeObject (indent : ℕ) : List (Text × Form) → List Text
  | [] => []
  | (k, v) :: ms =>
    if isEmptyValue v then serializeObject indent ms
    else member indent k (serializeValue (indent + 1) v) :: serializeObject indent ms

end

structure Metadata where
  name : Text
  ns : Option Text
  labels : Option (List (Text × Text))
  annotations : Option (List (Text × Text))

/-- The lines of `labels` or of `annotations`; an entry without a key is passed over. -/
def stringMapLines (field : String) : Option (List (Text × Text)) → List Text
  | none | some [] => []
  | some (e :: es) =>
    ("  ".toList ++ field.toList ++ [':']) ::
      ((e :: es).filter (fun e ↦ !e.1.isEmpty)).map
        (fun e ↦ "    ".toList ++ quoteString e.1 ++ ':' :: ' ' :: quoteString e.2)

def namespaceLines : Option Text → List Text
  | none | some [] => []
  | some ns => ["  namespace: ".toList ++ quoteString ns]

def specLines (spec : List (Text × Form)) : List Text :=
  if isEmptyValue (.object spec) then [] else "spec:".toList :: serializeObject 1 spec

/-- The lines under `metadata`. -/
def metadataLines (metadata : Metadata) : List Text :=
  ("  name: ".toList ++ quoteString metadata.name) :: namespaceLines metadata.ns ++
    stringMapLines "labels" metadata.labels ++ stringMapLines "annotations" metadata.annotations

def formStateToYaml (apiVersion kind : Text) (metadata : Metadata) (spec : List (Text × Form)) : Text :=
  joinLines
    (["apiVersion: ".toList ++ quoteString apiVersion, "kind: ".toList ++ quoteString kind, "metadata:".toList] ++
      metadataLines metadata ++ specLines spec) ++ ['\n']

/-! ## What the text is to stand for -/

mutual

/-- The tree with its empty members left out. -/
def node : Form → Node
  | .null => .scalar .null
  | .bool b => .scalar (.bool b)
  | .number d => .scalar (.number d.text)
  | .string s => .scalar (.string s)
  | .array items => .seq (nodes items)
  | .object ms => .map (fields ms)

def nodes : List Form → List Node
  | [] => []
  | item :: items => node item :: nodes items

def fields : List (Text × Form) → List (Scalar × Node)
  | [] => []
  | (k, v) :: ms => if isEmptyValue v then fields ms else (.string k, node v) :: fields ms

end

def stringNode (s : Text) : Node := .scalar (.string s)

def stringField (e : Text × Text) : Scalar × Node := (.string e.1, stringNode e.2)

def stringMapFields (field : String) : Option (List (Text × Text)) → List (Scalar × Node)
  | none | some [] => []
  | some (e :: es) => [(.string field.toList, .map ((e :: es).map stringField))]

def namespaceFields : Option Text → List (Scalar × Node)
  | none | some [] => []
  | some ns => [(.string "namespace".toList, stringNode ns)]

def metadataFields (metadata : Metadata) : List (Scalar × Node) :=
  (.string "name".toList, stringNode metadata.name) :: namespaceFields metadata.ns ++
    stringMapFields "labels" metadata.labels ++ stringMapFields "annotations" metadata.annotations

/-- The manifest of the form: the strings of the metadata as they are, and the tree under `spec`. -/
def manifest (apiVersion kind : Text) (metadata : Metadata) (spec : List (Text × Form)) : Node :=
  .map ([(.string "apiVersion".toList, stringNode apiVersion), (.string "kind".toList, stringNode kind),
      (.string "metadata".toList, .map (metadataFields metadata))] ++
    if isEmptyValue (.object spec) then [] else [(.string "spec".toList, node (.object spec))])

/-! ## Which forms come back -/

/-- Without quotes a string keeps no blank at either end, and it must not look like anything but a string. -/
def StaysPlain (s : Text) : Prop := s.head? ≠ some ' ' ∧ s.getLast? ≠ some ' ' ∧ resolve s = .string s

def WritableString (s : Text) : Prop :=
  Legible s ∧ (s = [] ∨ needsQuote s = true ∨ StaysPlain s ∧ dashed s = false)

/-- A lone dash is a key, for its colon stands right behind it. -/
def WritableKey (k : Text) : Prop :=
  Legible k ∧ (quoteString k).length ≤ keyLimit ∧
    (k = [] ∨ needsQuote k = true ∨ StaysPlain k ∧ (dashed k = true → k = ['-']) ∧ k ≠ ['<', '<'])

/-- An object has a member that is not empty; nothing stands under the key of another. -/
def Substantial : Form → Prop
  | .object ms => ∃ m ∈ ms, isEmptyValue m.2 = false
  | _ => True

/-- The keys of an object that is an item begin with no white space that the trimming takes. -/
def KeysKept : Form → Prop
  | .object ms => ∀ m ∈ ms, isEmptyValue m.2 = false → ∀ c ∈ (quoteString m.1).head?, jsSpace c = false
  | _ => True

mutual

def WritableForm : Form → Prop
  | .string s => WritableString s
  | .array items => WritableItems items
  | .object ms => WritableMembers ms
  | _ => True

def WritableItems : List Form → Prop
  | [] => True
  | item :: items => KeysKept item ∧ WritableForm item ∧ WritableItems items

def WritableMembers : List (Text × Form) → Prop
  | [] => True
  | (k, v) :: ms =>
    (isEmptyValue v = false → WritableKey k ∧ Substantial v ∧ WritableForm v) ∧ WritableMembers ms

end

/-- An entry without a key is not written, and so it has to be absent. -/
def WritableMap (m : Option (List (Text × Text))) : Prop :=
  ∀ es ∈ m, ∀ e ∈ es, e.1 ≠ [] ∧ WritableKey e.1 ∧ WritableString e.2

def WritableSpec (spec : List (Text × Form)) : Prop :=
  isEmptyValue (.object spec) = false → Substantial (.object spec) ∧ WritableMembers spec

def Writable (apiVersion kind : Text) (metadata : Metadata) (spec : List (Text × Form)) : Prop :=
  WritableString apiVersion ∧ WritableString kind ∧ WritableString metadata.name ∧
    (∀ ns ∈ metadata.ns, WritableString ns) ∧ WritableMap metadata.labels ∧ WritableMap metadata.annotations ∧
    WritableSpec spec

end KubeCenter.Wizard.SchemaToYaml
