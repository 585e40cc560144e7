import Mathlib.Data.List.Basic
import Mathlib.Data.Nat.Notation

namespace KubeCenter.Core

/-- A decoded JSON value; a number as its text. -/
inductive Json
  | null
  | bool (b : Bool)
  | number (text : String)
  | string (s : String)
  | array (items : List Json)
  | object (fields : List (String × Json))

/-! The fields of an object as a map: in the order of their keys, each key once. -/

abbrev Fields := List (String × Json)

namespace Fields

def get (k : String) : Fields → Option Json
  | [] => none
  | (k', j) :: fields => if k' = k then some j else get k fields

def set (k : String) (j : Json) : Fields → Fields
  | [] => [(k, j)]
  | (k', j') :: fields =>
    if k' = k then (k, j) :: fields
    else if k < k' then (k, j) :: (k', j') :: fields
    else (k', j') :: set k j fields

def erase (k : String) (fields : Fields) : Fields := fields.filter (fun f ↦ f.1 ≠ k)

variable {k k' : String} {j : Json} {fields : Fields}

@[simp] theorem get_set_self : (fields.set k j).get k = some j := by
  induction fields with
  | nil => simp [set, get]
  | cons f fields ih =>
    obtain ⟨k', j'⟩ := f
    unfold set
    split
    · simp [get]
    · next hk =>
      split
      · simp [get]
      · simpa [get, hk] using ih

@[simp] theorem get_set_ne (h : k ≠ k') : (fields.set k j).get k' = fields.get k' := by
  induction fields with
  | nil => simp [set, get, h]
  | cons f fields ih =>
    obtain ⟨l, j'⟩ := f
    unfold set
    split
    · next hk =>
      subst hk
      simp [get, h]
    · split
      · simp [get, h]
      · simp only [get, ih]

@[simp] theorem get_erase_self : (fields.erase k).get k = none := by
  induction fields with
  | nil => rfl
  | cons f fields ih =>
    unfold erase at ih ⊢
    rw [List.filter_cons]
    split
    · next hf =>
      have hk : f.1 ≠ k := by simpa using hf
      simpa [get, hk] using ih
    · exact ih

@[simp] theorem get_erase_ne (h : k ≠ k') : (fields.erase k).get k' = fields.get k' := by
  induction fields with
  | nil => rfl
  | cons f fields ih =>
    unfold erase at ih ⊢
    rw [List.filter_cons]
    split
    · simp only [get, ih]
    · next hf =>
      have hk : f.1 = k := by simpa using hf
      simp only [get, hk, h, if_false, ih]

theorem mem_set {f : String × Json} (h : f ∈ fields.set k j) : f = (k, j) ∨ f ∈ fields := by
  induction fields with
  | nil => exact .inl (List.mem_singleton.mp h)
  | cons g fields ih =>
    unfold set at h
    split at h
    · obtain rfl | h := List.mem_cons.mp h
      · exact .inl rfl
      · exact .inr (List.mem_cons_of_mem g h)
    · split at h
      · exact List.mem_cons.mp h
      · obtain rfl | h := List.mem_cons.mp h
        · exact .inr List.mem_cons_self
        · exact (ih h).imp id (List.mem_cons_of_mem g)

/-- The keys stand in order, none twice. -/
def Sorted (fields : Fields) : Prop := fields.Pairwise (fun f g ↦ f.1 < g.1)

instance : Decidable (Sorted fields) := inferInstanceAs (Decidable (List.Pairwise _ _))

theorem get_eq_none (h : ∀ f ∈ fields, k < f.1) : fields.get k = none := by
  induction fields with
  | nil => rfl
  | cons f fields ih =>
    have hf : f.1 ≠ k := by
      intro he
      have hlt := h f List.mem_cons_self
      rw [he] at hlt
      exact String.lt_irrefl k hlt
    simp only [get, hf, if_false]
    exact ih fun g hg ↦ h g (List.mem_cons_of_mem f hg)

theorem set_eq_cons (h : ∀ f ∈ fields, k < f.1) : fields.set k j = (k, j) :: fields := by
  cases fields with
  | nil => rfl
  | cons f fields =>
    have hlt := h f List.mem_cons_self
    have hf : f.1 ≠ k := by
      intro he
      rw [he] at hlt
      exact String.lt_irrefl k hlt
    simp only [set, hf, hlt, if_true, if_false]

end Fields

namespace Json

def fields : Json → Fields
  | .object fields => fields
  | _ => []

/-- `unstructured.NestedFieldNoCopy`: the value at a path of keys. -/
def nested : Json → List String → Option Json
  | j, [] => some j
  | j, k :: path => (j.fields.get k).bind (fun j ↦ j.nested path)

/-- `unstructured.NestedString`; what is no string counts as empty. -/
def nestedString (j : Json) (path : List String) : String :=
  match j.nested path with
  | some (.string s) => s
  | _ => ""

def stringField : String × Json → Option (String × String)
  | (k, .string s) => some (k, s)
  | _ => none

/-- `unstructured.NestedStringMap`; what is no map of strings counts as empty. -/
def nestedStringMap (j : Json) (path : List String) : List (String × String) :=
  match j.nested path with
  | some (.object fields) => (fields.mapM stringField).getD []
  | _ => []

theorem nested_append (j : Json) (path path' : List String) :
    j.nested (path ++ path') = (j.nested path).bind (fun j ↦ j.nested path') := by
  induction path generalizing j with
  | nil => rfl
  | cons k path ih =>
    simp only [List.cons_append, nested, Option.bind_assoc]
    congr 1
    funext t
    exact ih t

end Json

end KubeCenter.Core
