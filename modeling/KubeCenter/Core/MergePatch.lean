import KubeCenter.Core.GoJsonCodec

/-! JSON merge patches. -/

namespace KubeCenter.Core

mutual

/-- An object merges field by field, where null deletes; anything else replaces the target. -/
def mergePatch : Json → Json → Json
  | target, .object patch => .object (mergeFields target.fields patch)
  | _, j => j

def mergeFields : Fields → Fields → Fields
  | fields, [] => fields
  | fields, (k, .null) :: patch => mergeFields (fields.erase k) patch
  | fields, (k, j) :: patch => mergeFields (fields.set k (mergePatch ((fields.get k).getD .null) j)) patch

end

theorem mergeFields_cons {j : Json} (h : j ≠ .null) (fields patch : Fields) (k : String) :
    mergeFields fields ((k, j) :: patch) =
      mergeFields (fields.set k (mergePatch ((fields.get k).getD .null) j)) patch := by
  cases j with
  | null => exact absurd rfl h
  | _ => rfl

namespace Json

/-- The object that holds one value, at a path of keys. -/
def atPath : List String → Json → Json
  | [], j => j
  | k :: path, j => .object [(k, atPath path j)]

theorem atPath_ne_null {j : Json} (h : j ≠ .null) (path : List String) : j.atPath path ≠ .null := by
  cases path with
  | nil => exact h
  | cons k path => exact fun he ↦ by cases he

theorem nested_getD_null (t : Option Json) (path : List String) :
    ((t.getD .null).nested path).getD .null = (t.bind (fun j ↦ j.nested path)).getD .null := by
  cases t with
  | some j => rfl
  | none => cases path <;> rfl

theorem nested_mergePatch_atPath {j : Json} (h : j ≠ .null) (path : List String) (t : Json) :
    (mergePatch t (j.atPath path)).nested path = some (mergePatch ((t.nested path).getD .null) j) := by
  induction path generalizing t with
  | nil => rfl
  | cons k path ih =>
    simp only [atPath, mergePatch, mergeFields_cons (atPath_ne_null h path), mergeFields, nested, fields,
      Fields.get_set_self, Option.bind_some]
    rw [ih, nested_getD_null]

theorem nested_mergePatch_null (k : String) (path : List String) (t : Json) :
    (mergePatch t (atPath (k :: path) .null)).nested (k :: path) = none := by
  induction path generalizing k t with
  | nil => simp only [atPath, mergePatch, mergeFields, nested, fields, Fields.get_erase_self, Option.bind_none]
  | cons k' path ih =>
    have hne : atPath (k' :: path) .null ≠ .null := fun he ↦ by cases he
    rw [atPath, mergePatch, mergeFields_cons hne, nested]
    simp only [mergeFields, fields, Fields.get_set_self, Option.bind_some]
    exact ih k' _

/-- A patch of two fields merges each of them into the field of its name. -/
theorem nested_mergePatch_pair {k k' : String} {a b : Json} (hk : k ≠ k') (ha : a ≠ .null) (hb : b ≠ .null)
    (t : Json) (path : List String) :
    (mergePatch t (.object [(k, a), (k', b)])).nested (k :: path) =
        (mergePatch ((t.fields.get k).getD .null) a).nested path ∧
      (mergePatch t (.object [(k, a), (k', b)])).nested (k' :: path) =
        (mergePatch ((t.fields.get k').getD .null) b).nested path := by
  simp only [mergePatch, mergeFields_cons ha, mergeFields_cons hb, mergeFields, nested, fields,
    Fields.get_set_self, Fields.get_set_ne hk, Fields.get_set_ne (Ne.symm hk), Option.bind_some, and_self]

end Json

mutual

/-- The value without the null members of its objects. -/
def Json.dropNulls : Json → Json
  | .object fields => .object (dropNullFields fields)
  | j => j

def dropNullFields : Fields → Fields
  | [] => []
  | (_, .null) :: fields => dropNullFields fields
  | (k, j) :: fields => (k, j.dropNulls) :: dropNullFields fields

end

theorem dropNullFields_cons {j : Json} (h : j ≠ .null) (k : String) (fields : Fields) :
    dropNullFields ((k, j) :: fields) = (k, j.dropNulls) :: dropNullFields fields := by
  cases j with
  | null => exact absurd rfl h
  | _ => rfl

namespace Fields

variable {k : String} {j : Json} {fields : Fields}

theorem get_eq_none_of_ne (h : ∀ f ∈ fields, f.1 ≠ k) : fields.get k = none := by
  induction fields with
  | nil => rfl
  | cons f fields ih =>
    simp only [get, h f List.mem_cons_self, if_false]
    exact ih fun g hg ↦ h g (List.mem_cons_of_mem f hg)

theorem set_eq_append (h : ∀ f ∈ fields, f.1 < k) : fields.set k j = fields ++ [(k, j)] := by
  induction fields with
  | nil => rfl
  | cons f fields ih =>
    have hlt := h f List.mem_cons_self
    have hne : f.1 ≠ k := fun he ↦ String.lt_irrefl k (he ▸ hlt)
    have hgt : ¬ k < f.1 := String.lt_asymm hlt
    simp only [set, hne, hgt, if_false, List.cons_append]
    rw [ih fun g hg ↦ h g (List.mem_cons_of_mem f hg)]

end Fields

mutual

/-- Merged into nothing, a map loses its null members and keeps the rest. -/
theorem mergePatch_eq_dropNulls : ∀ (j target : Json), j.WellFormed → target.fields = [] →
    mergePatch target j = j.dropNulls
  | .null, _, _, _ | .bool _, _, _, _ | .number _, _, _, _ | .string _, _, _, _ | .array _, _, _, _ => rfl
  | .object patch, target, h, ht => by
    rw [mergePatch, Json.dropNulls, ht, mergeFields_eq_append patch [] h.1 h.2 nofun, List.nil_append]

theorem mergeFields_eq_append : ∀ patch fields : Fields, patch.Sorted → fieldsWellFormed patch →
    (∀ f ∈ fields, ∀ g ∈ patch, f.1 < g.1) → mergeFields fields patch = fields ++ dropNullFields patch
  | [], fields, _, _, _ => (List.append_nil fields).symm
  | (k, j) :: patch, fields, hs, h, hlt => by
    obtain ⟨hk, hs⟩ := List.pairwise_cons.mp hs
    have hfields (f : String × Json) (hf : f ∈ fields) : f.1 < k := hlt f hf _ List.mem_cons_self
    have hne (f : String × Json) (hf : f ∈ fields) : f.1 ≠ k :=
      fun he ↦ String.lt_irrefl k (he ▸ hfields f hf)
    by_cases hj : j = .null
    · have herase : fields.erase k = fields :=
        List.filter_eq_self.mpr fun f hf ↦ decide_eq_true (hne f hf)
      rw [hj, mergeFields, dropNullFields, herase]
      exact mergeFields_eq_append patch fields hs h.2 fun f hf g hg ↦ hlt f hf g (List.mem_cons_of_mem _ hg)
    · rw [mergeFields_cons hj, dropNullFields_cons hj, Fields.get_eq_none_of_ne hne, Option.getD_none,
        mergePatch_eq_dropNulls j .null h.1 rfl, Fields.set_eq_append hfields,
        mergeFields_eq_append patch _ hs h.2, List.append_assoc]
      · rfl
      · intro f hf g hg
        obtain hf | hf := List.mem_append.mp hf
        · exact hlt f hf g (List.mem_cons_of_mem _ hg)
        · rw [List.mem_singleton.mp hf]
          exact hk g hg

end

end KubeCenter.Core

/-! Strategic merge patches: maps merge key by key, and lists with a merge key merge entry by entry. -/

namespace KubeCenter.Core

/-- The lists that merge by a key of their entries, each at its path of field names, and where the entries that a patch
does not mention stand among the others. -/
structure MergeSchema where
  mergeKey : List String → Option String
  weave : List Json → List Json → List Json
  weave_perm : ∀ kept patched, (weave kept patched).Perm (kept ++ patched)
  weave_nil : ∀ patched, weave [] patched = patched

def Json.items : Json → List Json
  | .array items => items
  | _ => []

/-- The entries of a list have the same merge key. -/
def sameEntry (key : String) (i j : Json) : Bool :=
  (i.fields.get key).map Json.encode = (j.fields.get key).map Json.encode

/-- The entries that a patch does not mention. -/
def unmentioned (key : String) (items patch : List Json) : List Json :=
  items.filter (fun i ↦ !patch.any (fun j ↦ sameEntry key i j))

def entryOf (key : String) (items : List Json) (j : Json) : Json := (items.find? (fun i ↦ sameEntry key i j)).getD .null

variable (S : MergeSchema)

mutual

def strategicMerge (path : List String) : Json → Json → Json
  | target, .object patch => .object (strategicFields path target.fields patch)
  | target, .array patch =>
    match S.mergeKey path with
    | some key => .array (S.weave (unmentioned key target.items patch) (strategicItems path key target.items patch))
    | none => .array patch
  | _, j => j

def strategicFields (path : List String) : Fields → Fields → Fields
  | fields, [] => fields
  | fields, (k, .null) :: patch => strategicFields path (fields.erase k) patch
  | fields, (k, j) :: patch =>
    strategicFields path (fields.set k (strategicMerge (path ++ [k]) ((fields.get k).getD .null) j)) patch

def strategicItems (path : List String) (key : String) : List Json → List Json → List Json
  | _, [] => []
  | items, j :: patch => strategicMerge path (entryOf key items j) j :: strategicItems path key items patch

end

mutual

/-- A patch mentions all there is: every key of the maps it merges, and every entry of the lists. -/
def Mentions (path : List String) : Json → Json → Prop
  | target, .object patch =>
    (∀ k, Fields.get k patch = none → target.fields.get k = none) ∧ MentionsFields path target.fields patch
  | target, .array patch =>
    match S.mergeKey path with
    | some key => unmentioned key target.items patch = [] ∧ MentionsItems path key target.items patch
    | none => True
  | _, _ => True

def MentionsFields (path : List String) : Fields → Fields → Prop
  | _, [] => True
  | fields, (k, j) :: patch =>
    Mentions (path ++ [k]) ((fields.get k).getD .null) j ∧ MentionsFields path fields patch

def MentionsItems (path : List String) (key : String) : List Json → List Json → Prop
  | _, [] => True
  | items, j :: patch => Mentions path (entryOf key items j) j ∧ MentionsItems path key items patch

end

mutual

def Json.NullFree : Json → Prop
  | .null => False
  | .array items => itemsNullFree items
  | .object fields => fieldsNullFree fields
  | _ => True

def itemsNullFree : List Json → Prop
  | [] => True
  | j :: items => j.NullFree ∧ itemsNullFree items

def fieldsNullFree : Fields → Prop
  | [] => True
  | (_, j) :: fields => j.NullFree ∧ fieldsNullFree fields

end

namespace Fields

variable {k : String} {j : Json} {fields fields' : Fields}

theorem Sorted.set (h : fields.Sorted) (k : String) (j : Json) : (fields.set k j).Sorted := by
  induction fields with
  | nil => exact List.pairwise_singleton _ _
  | cons f fields ih =>
    obtain ⟨hf, hfields⟩ := List.pairwise_cons.mp h
    unfold Fields.set
    split
    · next hk => exact List.pairwise_cons.mpr ⟨fun g hg ↦ hk ▸ hf g hg, hfields⟩
    · next hk =>
      split
      · next hlt =>
        refine List.pairwise_cons.mpr ⟨fun g hg ↦ ?_, h⟩
        rcases List.mem_cons.mp hg with rfl | hg
        · exact hlt
        · exact String.lt_trans hlt (hf g hg)
      · next hlt =>
        refine List.pairwise_cons.mpr ⟨fun g hg ↦ ?_, ih hfields⟩
        rcases mem_set hg with rfl | hg
        · by_contra hge
          exact hk (String.le_antisymm (String.not_lt.mp hlt) (String.not_lt.mp hge))
        · exact hf g hg

theorem Sorted.get_of_mem (h : fields.Sorted) (hm : (k, j) ∈ fields) : fields.get k = some j := by
  induction fields with
  | nil => cases hm
  | cons f fields ih =>
    obtain ⟨hf, hfields⟩ := List.pairwise_cons.mp h
    rcases List.mem_cons.mp hm with rfl | hm
    · simp only [get, if_true]
    · have hne : f.1 ≠ k := fun he ↦ String.lt_irrefl k (he ▸ hf (k, j) hm)
      simp only [get, hne, if_false]
      exact ih hfields hm

theorem Sorted.nodup (h : fields.Sorted) : fields.Nodup := by
  refine List.Pairwise.imp ?_ h
  rintro f _ hlt rfl
  exact String.lt_irrefl f.1 hlt

/-- Maps with the same value at each key are equal. -/
theorem Sorted.ext (h : fields.Sorted) (h' : fields'.Sorted) (hget : ∀ k, fields.get k = fields'.get k) :
    fields = fields' := by
  have hmem : ∀ f, f ∈ fields ↔ f ∈ fields' := fun f ↦
    ⟨fun hf ↦ get_mem ((hget f.1).symm.trans (h.get_of_mem hf)), fun hf ↦ get_mem ((hget f.1).trans (h'.get_of_mem hf))⟩
  have hperm := (List.perm_ext_iff_of_nodup h.nodup h'.nodup).mpr hmem
  exact hperm.eq_of_pairwise (fun f g _ _ hfg hgf ↦ absurd hgf (String.lt_asymm hfg)) h h'

end Fields

variable {S} {path : List String} {key k : String} {fields patch : Fields} {items : List Json}

theorem strategicFields_cons {j : Json} (h : j ≠ .null) : strategicFields S path fields ((k, j) :: patch) =
    strategicFields S path (fields.set k (strategicMerge S (path ++ [k]) ((fields.get k).getD .null) j)) patch := by
  cases j with
  | null => exact absurd rfl h
  | _ => rfl

theorem Json.NullFree.ne_null {j : Json} (h : j.NullFree) : j ≠ .null := by
  rintro rfl
  exact h

theorem fieldsNullFree_mem (h : fieldsNullFree fields) {f : String × Json} (hf : f ∈ fields) : f.2.NullFree := by
  induction fields with
  | nil => cases hf
  | cons g fields ih =>
    rcases List.mem_cons.mp hf with rfl | hf
    · exact h.1
    · exact ih h.2 hf

theorem strategicFields_sorted (hfields : fields.Sorted) : (strategicFields S path fields patch).Sorted := by
  induction patch generalizing fields with
  | nil => exact hfields
  | cons f patch ih =>
    obtain ⟨k, j⟩ := f
    by_cases hj : j = .null
    · rw [hj, strategicFields]
      exact ih (hfields.sublist List.filter_sublist)
    · rw [strategicFields_cons hj]
      exact ih (hfields.set _ _)

/-- Each key of the patch is merged with what the map has there, and the rest of the map stays. -/
theorem get_strategicFields (hs : patch.Sorted) (hn : fieldsNullFree patch) (k : String) :
    (strategicFields S path fields patch).get k = (patch.get k).elim (fields.get k)
      (fun j ↦ some (strategicMerge S (path ++ [k]) ((fields.get k).getD .null) j)) := by
  induction patch generalizing fields with
  | nil => rfl
  | cons f patch ih =>
    obtain ⟨k', j⟩ := f
    obtain ⟨hlt, hs⟩ := List.pairwise_cons.mp hs
    rw [strategicFields_cons hn.1.ne_null, ih hs hn.2, Fields.get]
    by_cases hk : k' = k
    · subst hk
      rw [Fields.get_eq_none hlt, if_pos rfl, Option.elim_none, Fields.get_set_self, Option.elim_some]
    · rw [if_neg hk, Fields.get_set_ne hk]

theorem length_strategicItems (patch : List Json) : (strategicItems S path key items patch).length = patch.length := by
  induction patch with
  | nil => rfl
  | cons j patch ih => rw [strategicItems, List.length_cons, List.length_cons, ih]

/-- An entry that the patch does not mention is there after the merge. -/
theorem weave_eq_iff {kept patched patch : List Json} (h : patched.length = patch.length) :
    S.weave kept patched = patch ↔ kept = [] ∧ patched = patch := by
  constructor
  · intro hw
    have hlen := (S.weave_perm kept patched).length_eq
    rw [hw, List.length_append, h] at hlen
    have hkept : kept = [] := List.length_eq_zero_iff.mp (by omega)
    rw [hkept, S.weave_nil] at hw
    exact ⟨hkept, hw⟩
  · rintro ⟨rfl, rfl⟩
    exact S.weave_nil _

theorem wellFormed_get (h : fieldsWellFormed fields) (k : String) : ((fields.get k).getD .null).WellFormed := by
  cases hk : fields.get k with
  | none => trivial
  | some j => exact fieldsWellFormed_mem h (Fields.get_mem hk)

theorem itemsWellFormed_mem (h : itemsWellFormed items) {j : Json} (hj : j ∈ items) : j.WellFormed := by
  induction items with
  | nil => cases hj
  | cons i items ih =>
    rcases List.mem_cons.mp hj with rfl | hj
    · exact h.1
    · exact ih h.2 hj

theorem wellFormed_entryOf (h : itemsWellFormed items) (key : String) (j : Json) : (entryOf key items j).WellFormed := by
  unfold entryOf
  cases hfind : items.find? (fun i ↦ sameEntry key i j) with
  | none => trivial
  | some i => exact itemsWellFormed_mem h (List.mem_of_find?_eq_some hfind)

theorem Json.WellFormed.of_fields {j : Json} (h : j.WellFormed) : j.fields.Sorted ∧ fieldsWellFormed j.fields := by
  cases j with
  | object fields => exact h
  | _ => exact ⟨List.Pairwise.nil, trivial⟩

theorem Json.WellFormed.of_items {j : Json} (h : j.WellFormed) : itemsWellFormed j.items := by
  cases j with
  | array items => exact h
  | _ => trivial

/-- A merge of two maps is the patch where the patch has every key of the map and each merged value is that of the
patch. -/
theorem strategicFields_eq_iff (hfields : fields.Sorted) (hs : patch.Sorted) (hn : fieldsNullFree patch) :
    strategicFields S path fields patch = patch ↔ (∀ k, patch.get k = none → fields.get k = none) ∧
      ∀ f ∈ patch, strategicMerge S (path ++ [f.1]) ((fields.get f.1).getD .null) f.2 = f.2 := by
  constructor
  · intro h
    have hget : ∀ k, patch.get k = (patch.get k).elim (fields.get k)
        (fun j ↦ some (strategicMerge S (path ++ [k]) ((fields.get k).getD .null) j)) := fun k ↦ by
      rw [← get_strategicFields hs hn, h]
    constructor
    · intro k hk
      have hk' := hget k
      rw [hk] at hk'
      exact hk'.symm
    · rintro ⟨k, j⟩ hm
      have hk := hget k
      rw [hs.get_of_mem hm] at hk
      exact (Option.some.inj hk).symm
  · rintro ⟨hnone, hsome⟩
    refine (strategicFields_sorted hfields).ext hs fun k ↦ ?_
    rw [get_strategicFields hs hn]
    cases hk : patch.get k with
    | none => exact hnone k hk
    | some j => exact congrArg some (hsome (k, j) (Fields.get_mem hk))

mutual

theorem strategicMerge_eq_iff : ∀ (j : Json) (path : List String) (target : Json), j.WellFormed → j.NullFree →
    target.WellFormed → (strategicMerge S path target j = j ↔ Mentions S path target j)
  | .null, _, _, _, hn, _ => absurd hn id
  | .bool _, _, _, _, _, _ | .number _, _, _, _, _, _ | .string _, _, _, _, _, _ => iff_of_true rfl trivial
  | .object patch, path, target, h, hn, ht => by
    rw [strategicMerge, Json.object.injEq, strategicFields_eq_iff ht.of_fields.1 h.1 hn,
      mergedFields_iff patch path target.fields h.2 hn ht.of_fields.2]
    rfl
  | .array patch, path, target, h, hn, ht => by
    rw [strategicMerge, Mentions]
    cases S.mergeKey path with
    | none => exact iff_of_true rfl trivial
    | some key =>
      rw [Json.array.injEq, weave_eq_iff (length_strategicItems patch),
        strategicItems_eq_iff patch path key target.items h hn ht.of_items]

theorem mergedFields_iff : ∀ (patch : Fields) (path : List String) (fields : Fields), fieldsWellFormed patch →
    fieldsNullFree patch → fieldsWellFormed fields →
    ((∀ f ∈ patch, strategicMerge S (path ++ [f.1]) ((fields.get f.1).getD .null) f.2 = f.2) ↔
      MentionsFields S path fields patch)
  | [], _, _, _, _, _ => iff_of_true (List.forall_mem_nil _) trivial
  | (k, j) :: patch, path, fields, h, hn, hfields => by
    rw [List.forall_mem_cons, strategicMerge_eq_iff j (path ++ [k]) _ h.1 hn.1 (wellFormed_get hfields k),
      mergedFields_iff patch path fields h.2 hn.2 hfields]
    rfl

theorem strategicItems_eq_iff : ∀ (patch : List Json) (path : List String) (key : String) (items : List Json),
    itemsWellFormed patch → itemsNullFree patch → itemsWellFormed items →
    (strategicItems S path key items patch = patch ↔ MentionsItems S path key items patch)
  | [], _, _, _, _, _, _ => iff_of_true rfl trivial
  | j :: patch, path, key, items, h, hn, hitems => by
    rw [strategicItems, List.cons.injEq,
      strategicMerge_eq_iff j path _ h.1 hn.1 (wellFormed_entryOf hitems key j),
      strategicItems_eq_iff patch path key items h.2 hn.2 hitems]
    rfl

end

theorem nested_strategicMerge_atPath {j : Json} (h : j ≠ .null) (path path' : List String) (t : Json) :
    (strategicMerge S path' t (j.atPath path)).nested path =
      some (strategicMerge S (path' ++ path) ((t.nested path).getD .null) j) := by
  induction path generalizing t path' with
  | nil => rw [Json.atPath, Json.nested, Json.nested, Option.getD_some, List.append_nil]
  | cons k path ih =>
    simp only [Json.atPath, strategicMerge, strategicFields_cons (Json.atPath_ne_null h path), strategicFields,
      Json.nested, Json.fields, Fields.get_set_self, Option.bind_some]
    rw [ih, Json.nested_getD_null, List.append_assoc, List.singleton_append]

/-- What the patch has is there after the merge. -/
theorem nested_strategicMerge {j v : Json} (path' : List String) (t : Json) (h : j.WellFormed) (hn : j.NullFree)
    (hv : j.nested path = some v) : (strategicMerge S path' t j).nested path ≠ none := by
  induction path generalizing j path' t with
  | nil => exact Option.some_ne_none _
  | cons k path ih =>
    obtain ⟨m, hm, hm'⟩ := Option.bind_eq_some_iff.mp hv
    cases j with
    | object patch =>
      have hget : Fields.get k patch = some m := hm
      have hmem := Fields.get_mem hget
      simp only [strategicMerge, Json.nested, Json.fields, get_strategicFields h.1 hn, hget, Option.elim_some,
        Option.bind_some]
      exact ih _ _ (fieldsWellFormed_mem h.2 hmem) (fieldsNullFree_mem hn hmem) hm'
    | _ => cases hm

/-- The value without a member of the map at a path. -/
def Json.eraseAt (k : String) : List String → Json → Json
  | [], .object fields => .object (Fields.erase k fields)
  | p :: path, .object fields =>
    match Fields.get p fields with
    | some j => .object (Fields.set p (j.eraseAt k path) fields)
    | none => .object fields
  | _, j => j

variable {j : Json}

theorem Json.nested_eraseAt : (j.eraseAt k path).nested (path ++ [k]) = none := by
  induction path generalizing j with
  | nil =>
    cases j with
    | object fields => simp only [eraseAt, List.nil_append, nested, Json.fields, Fields.get_erase_self, Option.bind_none]
    | _ => rfl
  | cons p path ih =>
    cases j with
    | object fields =>
      rw [eraseAt, List.cons_append, nested]
      cases hp : Fields.get p fields with
      | some j => simp only [Json.fields, Fields.get_set_self, Option.bind_some, ih]
      | none => simp only [Json.fields, hp, Option.bind_none]
    | _ => rfl

theorem Fields.Sorted.set_self (h : fields.Sorted) (hk : fields.get k = some j) :
    fields.set k j = fields := by
  refine (h.set k j).ext h fun k' ↦ ?_
  by_cases he : k = k'
  · rw [← he, Fields.get_set_self, hk]
  · rw [Fields.get_set_ne he]

theorem Json.eraseAt_eq_self (hj : j.WellFormed) (h : j.nested (path ++ [k]) = none) : j.eraseAt k path = j := by
  induction path generalizing j with
  | nil =>
    cases j with
    | object fields =>
      rw [eraseAt]
      have hnone : Fields.get k fields = none := by
        cases hk : Fields.get k fields with
        | none => rfl
        | some i =>
          rw [List.nil_append, nested, Json.fields, hk] at h
          cases h
      refine congrArg Json.object (List.filter_eq_self.mpr fun f hf ↦ decide_eq_true ?_)
      rintro rfl
      rw [Fields.Sorted.get_of_mem hj.1 hf] at hnone
      cases hnone
    | _ => rfl
  | cons p path ih =>
    cases j with
    | object fields =>
      rw [eraseAt]
      cases hp : Fields.get p fields with
      | some i =>
        have hi : i.eraseAt k path = i := ih (fieldsWellFormed_mem hj.2 (Fields.get_mem hp)) (by
          rw [List.cons_append, nested, Json.fields, hp] at h
          exact h)
        simp only [hi, Fields.Sorted.set_self hj.1 hp]
      | none => rfl
    | _ => rfl

end KubeCenter.Core
