import KubeCenter.Core.GoMap
import KubeCenter.Core.GoString

/-! What the inputs of the wizards share: the errors of fields and the regular expressions they are checked with. -/

namespace KubeCenter.Wizard

open KubeCenter.Core

structure FieldError where
  field : String
  message : String
  deriving DecidableEq

/-- The checks of a field, each with its error. -/
def check (failed : Bool) (field message : String) : List FieldError := if failed then [⟨field, message⟩] else []

def element (field : String) (i : ℕ) : String := String.join [field, "[", toString i, "]"]

def isLetter (c : Char) : Bool := ('a' ≤ c && c ≤ 'z') || ('A' ≤ c && c ≤ 'Z')

def alphanumeric (c : Char) : Bool := isLetter c || ('0' ≤ c && c ≤ '9')

def lowerAlphanumeric (c : Char) : Bool := ('a' ≤ c && c ≤ 'z') || ('0' ≤ c && c ≤ '9')

/-- Up to so many characters, with `edge` at both ends and `edge` or `inner` between. -/
def edged (edge inner : Char → Bool) (size : ℕ) (cs : List Char) : Bool :=
  cs.length ≤ size && cs.all (fun c ↦ edge c || inner c) && cs.head?.any edge && cs.getLast?.any edge

/-- `^[a-z0-9]([a-z0-9-]{0,61}[a-z0-9])?$` -/
def dnsLabelRegex (s : String) : Bool := edged lowerAlphanumeric (· = '-') 63 s.toList

/-- Sizes are in bytes. -/
def validateLabelMap (field : String) (labels : GoMap String String) : List FieldError :=
  check (50 < labels.entries.length) field "must have 50 or fewer entries" ++
    labels.entries.flatMap fun e ↦
      check (253 < e.1.utf8ByteSize) (String.join [field, "[", e.1, "]"]) "key must be 253 characters or fewer" ++
        check (63 < e.2.utf8ByteSize) (String.join [field, "[", e.1, "]"]) "value must be 63 characters or fewer"

theorem check_eq_nil {failed : Bool} {field message : String} : check failed field message = [] ↔ failed = false := by
  unfold check
  cases failed with
  | false => exact iff_of_true rfl rfl
  | true => exact iff_of_false (List.cons_ne_nil _ _) (by decide)

end KubeCenter.Wizard
