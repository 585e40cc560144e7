import KubeCenter.Core.GoJson

/-! The strings of a document that stand under sensitive keys, at any depth. -/

namespace KubeCenter.Core.JsonSecrets

variable (sensitive : String → Bool) (f : String → String)

mutual

/-- The document with each secret string changed; `inside` is whether a key above it is sensitive. -/
def mapSecrets : Bool → Json → Json
  | inside, .string s => .string (if inside then f s else s)
  | inside, .array items => .array (mapItems inside items)
  | inside, .object fields => .object (mapFields inside fields)
  | _, j => j

def mapItems : Bool → List Json → List Json
  | _, [] => []
  | inside, j :: items => mapSecrets inside j :: mapItems inside items

def mapFields : Bool → Fields → Fields
  | _, [] => []
  | inside, (k, j) :: fields => (k, mapSecrets (inside || sensitive k) j) :: mapFields inside fields

end

mutual

def hasSecret : Bool → Json → Bool
  | inside, .string _ => inside
  | inside, .array items => itemsHaveSecret inside items
  | inside, .object fields => fieldsHaveSecret inside fields
  | _, _ => false

def itemsHaveSecret : Bool → List Json → Bool
  | _, [] => false
  | inside, j :: items => hasSecret inside j || itemsHaveSecret inside items

def fieldsHaveSecret : Bool → Fields → Bool
  | _, [] => false
  | inside, (k, j) :: fields => hasSecret (inside || sensitive k) j || fieldsHaveSecret inside fields

end

variable {sensitive f} {g : String → String}

theorem mapItems_cons (inside : Bool) (j : Json) (items : List Json) :
    mapItems sensitive f inside (j :: items) = mapSecrets sensitive f inside j :: mapItems sensitive f inside items := rfl

theorem mapFields_cons (inside : Bool) (k : String) (j : Json) (fields : Fields) :
    mapFields sensitive f inside ((k, j) :: fields) =
      (k, mapSecrets sensitive f (inside || sensitive k) j) :: mapFields sensitive f inside fields := rfl

theorem itemsHaveSecret_cons (inside : Bool) (j : Json) (items : List Json) :
    itemsHaveSecret sensitive inside (j :: items) =
      (hasSecret sensitive inside j || itemsHaveSecret sensitive inside items) := rfl

theorem fieldsHaveSecret_cons (inside : Bool) (k : String) (j : Json) (fields : Fields) :
    fieldsHaveSecret sensitive inside ((k, j) :: fields) =
      (hasSecret sensitive (inside || sensitive k) j || fieldsHaveSecret sensitive inside fields) := rfl

theorem keys_mapFields (inside : Bool) (fields : Fields) :
    (mapFields sensitive f inside fields).map Prod.fst = fields.map Prod.fst := by
  induction fields with
  | nil => rfl
  | cons field fields ih =>
    rw [mapFields_cons, List.map_cons, List.map_cons, ih]

mutual

theorem mapSecrets_comp : (inside : Bool) → (j : Json) →
    mapSecrets sensitive g inside (mapSecrets sensitive f inside j) = mapSecrets sensitive (g ∘ f) inside j
  | inside, .string s => by cases inside <;> rfl
  | inside, .array items => congrArg Json.array (mapItems_comp inside items)
  | inside, .object fields => congrArg Json.object (mapFields_comp inside fields)
  | _, .null | _, .bool _ | _, .number _ => rfl

theorem mapItems_comp : (inside : Bool) → (items : List Json) →
    mapItems sensitive g inside (mapItems sensitive f inside items) = mapItems sensitive (g ∘ f) inside items
  | _, [] => rfl
  | inside, j :: items => by
    simp only [mapItems_cons]
    rw [mapSecrets_comp inside j, mapItems_comp inside items]

theorem mapFields_comp : (inside : Bool) → (fields : Fields) →
    mapFields sensitive g inside (mapFields sensitive f inside fields) = mapFields sensitive (g ∘ f) inside fields
  | _, [] => rfl
  | inside, (k, j) :: fields => by
    simp only [mapFields_cons]
    rw [mapSecrets_comp (inside || sensitive k) j, mapFields_comp inside fields]

end

mutual

theorem hasSecret_mapSecrets : (inside : Bool) → (j : Json) →
    hasSecret sensitive inside (mapSecrets sensitive f inside j) = hasSecret sensitive inside j
  | _, .string _ | _, .null | _, .bool _ | _, .number _ => rfl
  | inside, .array items => itemsHaveSecret_mapItems inside items
  | inside, .object fields => fieldsHaveSecret_mapFields inside fields

theorem itemsHaveSecret_mapItems : (inside : Bool) → (items : List Json) →
    itemsHaveSecret sensitive inside (mapItems sensitive f inside items) = itemsHaveSecret sensitive inside items
  | _, [] => rfl
  | inside, j :: items => by
    simp only [mapItems_cons, itemsHaveSecret_cons]
    rw [hasSecret_mapSecrets inside j, itemsHaveSecret_mapItems inside items]

theorem fieldsHaveSecret_mapFields : (inside : Bool) → (fields : Fields) →
    fieldsHaveSecret sensitive inside (mapFields sensitive f inside fields) = fieldsHaveSecret sensitive inside fields
  | _, [] => rfl
  | inside, (k, j) :: fields => by
    simp only [mapFields_cons, fieldsHaveSecret_cons]
    rw [hasSecret_mapSecrets (inside || sensitive k) j, fieldsHaveSecret_mapFields inside fields]

end

mutual

theorem mapSecrets_eq_self : (inside : Bool) → (j : Json) → hasSecret sensitive inside j = false →
    mapSecrets sensitive f inside j = j
  | inside, .string s, h => by
    have hinside : inside = false := h
    rw [hinside]
    rfl
  | inside, .array items, h => congrArg Json.array (mapItems_eq_self inside items h)
  | inside, .object fields, h => congrArg Json.object (mapFields_eq_self inside fields h)
  | _, .null, _ | _, .bool _, _ | _, .number _, _ => rfl

theorem mapItems_eq_self : (inside : Bool) → (items : List Json) → itemsHaveSecret sensitive inside items = false →
    mapItems sensitive f inside items = items
  | _, [], _ => rfl
  | inside, j :: items, h => by
    rw [itemsHaveSecret_cons, Bool.or_eq_false_iff] at h
    rw [mapItems_cons, mapSecrets_eq_self inside j h.1, mapItems_eq_self inside items h.2]

theorem mapFields_eq_self : (inside : Bool) → (fields : Fields) → fieldsHaveSecret sensitive inside fields = false →
    mapFields sensitive f inside fields = fields
  | _, [], _ => rfl
  | inside, (k, j) :: fields, h => by
    rw [fieldsHaveSecret_cons, Bool.or_eq_false_iff] at h
    rw [mapFields_cons, mapSecrets_eq_self (inside || sensitive k) j h.1, mapFields_eq_self inside fields h.2]

end

mutual

/-- A change that leaves no string as it is shows wherever there is a secret. -/
theorem hasSecret_eq_false (hf : ∀ s, f s ≠ s) : (inside : Bool) → (j : Json) →
    mapSecrets sensitive f inside j = j → hasSecret sensitive inside j = false
  | true, .string s, h => absurd (Json.string.inj h) (hf s)
  | false, .string _, _ => rfl
  | inside, .array items, h => itemsHaveSecret_eq_false hf inside items (Json.array.inj h)
  | inside, .object fields, h => fieldsHaveSecret_eq_false hf inside fields (Json.object.inj h)
  | _, .null, _ | _, .bool _, _ | _, .number _, _ => rfl

theorem itemsHaveSecret_eq_false (hf : ∀ s, f s ≠ s) : (inside : Bool) → (items : List Json) →
    mapItems sensitive f inside items = items → itemsHaveSecret sensitive inside items = false
  | _, [], _ => rfl
  | inside, j :: items, h => by
    obtain ⟨hj, hitems⟩ := List.cons.inj h
    rw [itemsHaveSecret_cons, hasSecret_eq_false hf inside j hj, itemsHaveSecret_eq_false hf inside items hitems,
      Bool.or_false]

theorem fieldsHaveSecret_eq_false (hf : ∀ s, f s ≠ s) : (inside : Bool) → (fields : Fields) →
    mapFields sensitive f inside fields = fields → fieldsHaveSecret sensitive inside fields = false
  | _, [], _ => rfl
  | inside, (k, j) :: fields, h => by
    obtain ⟨hfield, hfields⟩ := List.cons.inj h
    rw [fieldsHaveSecret_cons, hasSecret_eq_false hf (inside || sensitive k) j (Prod.mk.inj hfield).2,
      fieldsHaveSecret_eq_false hf inside fields hfields, Bool.or_false]

end

variable (sensitive) in
/-- What there is to see of a document but its secrets. -/
def visible (inside : Bool) (j : Json) : Json := mapSecrets sensitive (fun _ ↦ "") inside j

theorem visible_mapSecrets (inside : Bool) (j : Json) :
    visible sensitive inside (mapSecrets sensitive f inside j) = visible sensitive inside j :=
  mapSecrets_comp inside j

/-- Without secrets a document is all that there is to see. -/
theorem eq_of_visible {inside : Bool} {j j' : Json} (h : hasSecret sensitive inside j = false)
    (hv : visible sensitive inside j = visible sensitive inside j') : j = j' := by
  have h' : hasSecret sensitive inside j' = false := by
    rw [← hasSecret_mapSecrets (f := fun _ ↦ "") inside j', ← h, ← hasSecret_mapSecrets (f := fun _ ↦ "") inside j]
    exact congrArg (hasSecret sensitive inside) hv.symm
  rw [visible, visible, mapSecrets_eq_self inside j h, mapSecrets_eq_self inside j' h'] at hv
  exact hv

end KubeCenter.Core.JsonSecrets
