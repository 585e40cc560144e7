import KubeCenter.Core.GoJson

/-! `json.Unmarshal` into a struct: what is there stays where the document says nothing, and an entry of the wrong
type is an error that does not stop the rest. -/

namespace KubeCenter.Core

/-- The letter a rune folds to; of the others only these two fold to one of ASCII. -/
def foldRune (c : Char) : Char := if c = 'ſ' then 's' else if c = '\u212a' then 'k' else c.toLower

def foldName (s : String) : List Char := s.toList.map foldRune

/-- A field of a struct, and how it takes a value: the struct after it, and whether the type was right. -/
structure StructField (σ : Type) where
  name : String
  decode : Json → σ → σ × Bool

namespace StructField

variable {σ : Type}

/-- The field that a key names, exactly or up to case. -/
def named (fields : List (StructField σ)) (key : String) : Option (StructField σ) :=
  fields.find? fun f ↦ foldName f.name = foldName key

def member (fields : List (StructField σ)) (state : σ × Bool) (m : String × Json) : σ × Bool :=
  match named fields m.1 with
  | some f => ((f.decode m.2 state.1).1, state.2 && (f.decode m.2 state.1).2)
  | none => state

/-- `null` says nothing. -/
def unmarshal (fields : List (StructField σ)) (doc : Json) (start : σ) : σ × Bool :=
  match doc with
  | .null => (start, true)
  | .object members => members.foldl (member fields) (start, true)
  | _ => (start, false)

end StructField

/-- A boolean, where the value is one. -/
def boolOf : Json → Option Bool
  | .bool b => some b
  | _ => none

def decodeBool {σ : Type} (put : Bool → σ → σ) (j : Json) (s : σ) : σ × Bool :=
  match j with
  | .bool b => (put b s, true)
  | .null => (s, true)
  | _ => (s, false)

/-- A slice of strings, with what its array still holds behind it; the nil slice has none. -/
structure StringSlice where
  items : List String := []
  spare : List String := []
  isNil : Bool := true

/-- A nil slice has no items. -/
def StringSlice.Sound (s : StringSlice) : Prop := s.isNil = true → s.items = []

/-- Every item goes into the memory at its place; one that is no string leaves it. -/
def decodeItems (memory : List String) : List Json → List String × Bool
  | [] => ([], true)
  | j :: js =>
    let rest := decodeItems memory.tail js
    match j with
    | .string s => (s :: rest.1, rest.2)
    | .null => (memory.headD "" :: rest.1, rest.2)
    | _ => (memory.headD "" :: rest.1, false)

def decodeStrings {σ : Type} (get : σ → StringSlice) (put : StringSlice → σ → σ) (j : Json) (s : σ) : σ × Bool :=
  match j with
  | .null => (put {} s, true)
  | .array [] => (put { isNil := false } s, true)
  | .array js =>
    let memory := (get s).items ++ (get s).spare
    let decoded := decodeItems memory js
    (put ⟨decoded.1, memory.drop js.length, false⟩ s, decoded.2)
  | _ => (s, false)

theorem decodeStrings_sound {σ : Type} {get : σ → StringSlice} {put : StringSlice → σ → σ}
    (hput : ∀ l s, get (put l s) = l) (j : Json) {s : σ} (h : (get s).Sound) : (get (decodeStrings get put j s).1).Sound := by
  cases j with
  | null =>
    dsimp only [decodeStrings]
    rw [hput]
    exact fun _ ↦ rfl
  | array js =>
    cases js with
    | nil =>
      dsimp only [decodeStrings]
      rw [hput]
      exact fun _ ↦ rfl
    | cons j js =>
      dsimp only [decodeStrings]
      rw [hput]
      exact fun hnil ↦ absurd hnil Bool.false_ne_true
  | _ => exact h

/-- The last boolean that a document has for a field. -/
def stated (name : String) : Json → Option Bool
  | .object members =>
    members.foldl (fun last m ↦ if foldName name = foldName m.1 then (boolOf m.2).or last else last) none
  | _ => none

namespace StructField

variable {σ : Type} {fields : List (StructField σ)} {f : StructField σ} {key name : String}

theorem named_eq_some (h : named fields key = some f) : f ∈ fields ∧ foldName f.name = foldName key :=
  ⟨List.mem_of_find?_eq_some h, by simpa using List.find?_some h⟩

theorem named_isSome {known : StructField σ} (h : known ∈ fields) (hname : foldName known.name = foldName key) :
    named fields key ≠ none := by
  intro hnone
  exact List.find?_eq_none.mp hnone known h (by simpa using hname)

/-- A field of booleans ends with what the document states last, or with what it had. -/
theorem unmarshal_bool {proj : σ → Bool} (hknown : ∃ f ∈ fields, f.name = name)
    (hself : ∀ f ∈ fields, foldName f.name = foldName name → ∀ j s, proj (f.decode j s).1 = (boolOf j).getD (proj s))
    (hother : ∀ f ∈ fields, foldName f.name ≠ foldName name → ∀ j s, proj (f.decode j s).1 = proj s)
    (doc : Json) (start : σ) : proj (unmarshal fields doc start).1 = (stated name doc).getD (proj start) := by
  cases doc with
  | object members =>
    have hstep : ∀ (members : Fields) (state : σ × Bool) (last : Option Bool), proj state.1 = last.getD (proj start) →
        proj (members.foldl (member fields) state).1 =
          (members.foldl (fun last m ↦ if foldName name = foldName m.1 then (boolOf m.2).or last else last) last).getD
            (proj start) := by
      intro members
      induction members with
      | nil => exact fun _ _ h ↦ h
      | cons m members ih =>
        intro state last h
        rw [List.foldl_cons, List.foldl_cons]
        refine ih _ _ ?_
        unfold member
        cases hnamed : named fields m.1 with
        | none =>
          obtain ⟨known, hmem, rfl⟩ := hknown
          rw [if_neg fun hname ↦ named_isSome hmem hname hnamed]
          exact h
        | some f =>
          obtain ⟨hmem, hfold⟩ := named_eq_some hnamed
          dsimp only
          split_ifs with hname
          · rw [hself f hmem (hfold.trans hname.symm)]
            cases boolOf m.2 with
            | none => exact h
            | some b => rfl
          · rw [hother f hmem fun heq ↦ hname (heq.symm.trans hfold)]
            exact h
    exact hstep members (start, true) none rfl
  | _ => rfl

/-- What every field keeps is kept. -/
theorem unmarshal_keeps {P : σ → Prop} (h : ∀ f ∈ fields, ∀ j s, P s → P (f.decode j s).1) (doc : Json) {start : σ}
    (hstart : P start) : P (unmarshal fields doc start).1 := by
  cases doc with
  | object members =>
    have hstep : ∀ (members : Fields) (state : σ × Bool), P state.1 → P (members.foldl (member fields) state).1 := by
      intro members
      induction members with
      | nil => exact fun _ h ↦ h
      | cons m members ih =>
        intro state hstate
        rw [List.foldl_cons]
        refine ih _ ?_
        unfold member
        cases hnamed : named fields m.1 with
        | none => exact hstate
        | some f => exact h f (named_eq_some hnamed).1 m.2 _ hstate
    exact hstep members (start, true) hstart
  | _ => exact hstart

/-- What a field ends with does not depend on what the other fields had. -/
theorem unmarshal_congr {β : Type} {proj : σ → β}
    (h : ∀ f ∈ fields, ∀ j s t, proj s = proj t → proj (f.decode j s).1 = proj (f.decode j t).1)
    (doc : Json) {s t : σ} (hst : proj s = proj t) : proj (unmarshal fields doc s).1 = proj (unmarshal fields doc t).1 := by
  cases doc with
  | object members =>
    have hstep : ∀ (members : Fields) (state state' : σ × Bool), proj state.1 = proj state'.1 →
        proj (members.foldl (member fields) state).1 = proj (members.foldl (member fields) state').1 := by
      intro members
      induction members with
      | nil => exact fun _ _ h ↦ h
      | cons m members ih =>
        intro state state' hstate
        rw [List.foldl_cons, List.foldl_cons]
        refine ih _ _ ?_
        unfold member
        cases hnamed : named fields m.1 with
        | none => exact hstate
        | some f => exact h f (named_eq_some hnamed).1 m.2 _ _ hstate
    exact hstep members (s, true) (t, true) hst
  | _ => exact hst

end StructField

end KubeCenter.Core
