import KubeCenter.Yaml.Handler

/-! Which streams of documents `ParseMultiDoc` accepts, and which of their documents can be applied. -/

namespace KubeCenter.Yaml

open KubeCenter.Core KubeCenter.Resources

def isEmptyDoc : Json → Bool
  | .null => true
  | .object [] => true
  | _ => false

def nonEmptyDocs (docs : List Json) : List Json := docs.filter (fun raw ↦ !isEmptyDoc raw)

/-- The fields a document needs. -/
structure Required (obj : Json) : Prop where
  apiVersion : obj.nestedString ["apiVersion"] ≠ ""
  kind : kindOf obj ≠ ""
  name : objectName obj ≠ "" ∨ obj.nestedString ["metadata", "generateName"] ≠ ""

def jsonSize (objects : List Json) : ℕ := objects.foldl (fun size obj ↦ size + (utf8 obj.encode).length) 0

variable (lib : Library)

/-- A stream of documents as it should be. -/
structure ValidStream (data : Bytes) : Prop where
  decodes : (lib.documents data).2 = none
  required : ∀ obj ∈ nonEmptyDocs (lib.documents data).1, Required obj
  nonempty : 1 ≤ (nonEmptyDocs (lib.documents data).1).length
  bounded : (nonEmptyDocs (lib.documents data).1).length ≤ maxDocumentCount
  ratio : data = [] ∨ jsonSize (nonEmptyDocs (lib.documents data).1) ≤ maxExpansionRatio * data.length

/-- A call for one object names it; the dynamic client refuses one that does not. -/
def Named : ClientCall → Prop
  | .get _ _ name => name ≠ ""
  | .apply _ _ name _ _ _ => name ≠ ""
  | _ => True

/-- In every run of a script each call names its object. -/
def Addresses {α : Type} (p : Script α) : Prop :=
  ∀ {σ : Type} (serve : ClientCall → σ → Reply × σ) (cancelled : Reply) (live : ℕ) (s : σ),
    ∀ q ∈ (p.run serve cancelled live s).sent, Named q

/-- Whatever resources the API server has, the document can be applied and diffed by its name. -/
structure Addressed (obj : Json) : Prop where
  applies : ∀ restMapping ctxDone force index,
    Addresses (applyOne { lib with restMapping := restMapping } ctxDone force index obj)
  diffs : ∀ restMapping index, Addresses (diffOne { lib with restMapping := restMapping } index obj)

/-- A stream is accepted, as its documents that are not empty, exactly when it is valid, and what is accepted can be
addressed. -/
structure AcceptsExactly (data : Bytes) : Prop where
  accepts : ∀ objects, parseMultiDoc lib data = .ok objects ↔
    objects = nonEmptyDocs (lib.documents data).1 ∧ ValidStream lib data
  addressed : ∀ objects, parseMultiDoc lib data = .ok objects → ∀ obj ∈ objects, Addressed lib obj

variable {lib} {data : Bytes} {err : Option String} {objects docs result : List Json} {obj : Json}

theorem validateRequiredFields_eq_none (docIndex : ℕ) : validateRequiredFields obj docIndex = none ↔ Required obj := by
  unfold validateRequiredFields
  constructor
  · intro h
    split_ifs at h with hv hk hn
    exact ⟨hv, hk, not_and_or.mp hn⟩
  · rintro ⟨hv, hk, hn⟩
    rw [if_neg hv, if_neg hk, if_neg (not_and_or.mpr hn)]

theorem not_required (h : obj.fields = []) : ¬Required obj := fun hr ↦
  hr.apiVersion (by rw [Json.nestedString, Json.nested, h]; rfl)

theorem collectDocs_skip {raw : Json} (h : isEmptyDoc raw) :
    collectDocs lib err objects (raw :: docs) = collectDocs lib err objects docs := by
  cases raw with
  | null => rfl
  | object fields =>
    cases fields with
    | nil => rfl
    | cons f fields => cases h
  | _ => cases h

theorem collectDocs_doc {raw : Json} (h : ¬isEmptyDoc raw) :
    collectDocs lib err objects (raw :: docs) = .ok result ↔
      Required raw ∧ objects.length + 1 < maxDocumentCount ∧
        collectDocs lib err (objects ++ [raw]) docs = .ok result := by
  cases raw with
  | null => exact absurd rfl h
  | object fields =>
    cases fields with
    | nil => exact absurd rfl h
    | cons f fields =>
      rw [← validateRequiredFields_eq_none (objects.length + 1), collectDocs]
      cases validateRequiredFields (.object (f :: fields)) (objects.length + 1) with
      | some err => exact ⟨nofun, fun h ↦ nomatch h.1⟩
      | none =>
        by_cases hmax : maxDocumentCount ≤ objects.length + 1
        · simp only [if_pos hmax, not_lt.mpr hmax, false_and, and_false, reduceCtorEq]
        · simp only [if_neg hmax, not_le.mp hmax, true_and]
  | _ => exact ⟨nofun, fun h ↦ absurd h.1 (not_required rfl)⟩

/-- The loop over the documents gives up at the document that makes the list as long as it may be. -/
theorem collectDocs_eq_ok (hlt : objects.length < maxDocumentCount) :
    collectDocs lib err objects docs = .ok result ↔
      err = none ∧ result = objects ++ nonEmptyDocs docs ∧ (∀ obj ∈ nonEmptyDocs docs, Required obj) ∧
        objects.length + (nonEmptyDocs docs).length < maxDocumentCount := by
  induction docs generalizing objects with
  | nil =>
    cases err with
    | some err => exact ⟨nofun, fun h ↦ nomatch h.1⟩
    | none =>
      simp only [collectDocs, nonEmptyDocs, List.filter_nil, List.append_nil, List.length_nil, Nat.add_zero, hlt,
        List.not_mem_nil, false_implies, implies_true, true_and, and_true, Except.ok.injEq, eq_comm]
  | cons raw docs ih =>
    by_cases hraw : isEmptyDoc raw
    · have hdocs : nonEmptyDocs (raw :: docs) = nonEmptyDocs docs := List.filter_cons_of_neg (by simp [hraw])
      rw [collectDocs_skip hraw, ih hlt, hdocs]
    · have hdocs : nonEmptyDocs (raw :: docs) = raw :: nonEmptyDocs docs := List.filter_cons_of_pos (by simp [hraw])
      rw [collectDocs_doc hraw, hdocs, List.forall_mem_cons, List.length_cons]
      constructor
      · rintro ⟨hreq, hmax, h⟩
        obtain ⟨herr, rfl, hall, hlen⟩ := (ih (by rwa [List.length_append, List.length_singleton])).mp h
        rw [List.length_append, List.length_singleton] at hlen
        exact ⟨herr, List.append_assoc _ _ _, ⟨hreq, hall⟩, by omega⟩
      · rintro ⟨herr, rfl, ⟨hreq, hall⟩, hlen⟩
        have hmax : objects.length + 1 < maxDocumentCount := by omega
        refine ⟨hreq, hmax, (ih (by rwa [List.length_append, List.length_singleton])).mpr ⟨herr, ?_, hall, ?_⟩⟩
        · rw [List.append_assoc, List.singleton_append]
        · rw [List.length_append, List.length_singleton]
          omega

theorem checkExpansionRatio_eq_none {outputSize : ℕ} : checkExpansionRatio lib data.length outputSize = none ↔
    data = [] ∨ outputSize ≤ maxExpansionRatio * data.length := by
  unfold checkExpansionRatio
  split_ifs with hempty hratio
  · exact ⟨fun _ ↦ .inl (List.length_eq_zero_iff.mp hempty), fun _ ↦ rfl⟩
  · refine ⟨nofun, ?_⟩
    rintro (rfl | hle)
    · exact absurd rfl hempty
    · omega
  · exact ⟨fun _ ↦ .inr (not_lt.mp hratio), fun _ ↦ rfl⟩

theorem parseMultiDoc_of_docs (hne : objects ≠ [])
    (h : collectDocs lib (lib.documents data).2 [] (lib.documents data).1 = .ok objects) :
    parseMultiDoc lib data = (checkExpansionRatio lib data.length (jsonSize objects)).elim (.ok objects) .error := by
  unfold parseMultiDoc
  rw [h]
  cases objects with
  | nil => exact absurd rfl hne
  | cons obj objects => rfl

/-- A stream without a document is no stream. -/
theorem docs_of_parseMultiDoc (h : parseMultiDoc lib data = .ok objects) : ∃ docs, docs ≠ [] ∧
    collectDocs lib (lib.documents data).2 [] (lib.documents data).1 = .ok docs := by
  unfold parseMultiDoc at h
  split at h
  · cases h
  · cases h
  · next docs hdocs hok => exact ⟨docs, hdocs, hok⟩

theorem elim_eq_ok {check : Option String} :
    check.elim (.ok docs) Except.error = .ok objects ↔ check = none ∧ objects = docs := by
  cases check with
  | some err => exact ⟨nofun, fun h ↦ nomatch h.1⟩
  | none => exact ⟨fun h ↦ ⟨rfl, (Except.ok.inj h).symm⟩, fun h ↦ congrArg Except.ok h.2.symm⟩

theorem parseMultiDoc_eq_ok : parseMultiDoc lib data = .ok objects ↔
    (objects = nonEmptyDocs (lib.documents data).1 ∧ ValidStream lib data) ∧
      (nonEmptyDocs (lib.documents data).1).length < maxDocumentCount := by
  have hcollect : ∀ result, collectDocs lib (lib.documents data).2 [] (lib.documents data).1 = .ok result ↔
      (lib.documents data).2 = none ∧ result = nonEmptyDocs (lib.documents data).1 ∧
        (∀ obj ∈ nonEmptyDocs (lib.documents data).1, Required obj) ∧
          (nonEmptyDocs (lib.documents data).1).length < maxDocumentCount := by
    intro result
    rw [collectDocs_eq_ok (by decide), List.nil_append, List.length_nil, Nat.zero_add]
  constructor
  · intro h
    obtain ⟨docs, hne, hok⟩ := docs_of_parseMultiDoc h
    rw [parseMultiDoc_of_docs hne hok, elim_eq_ok, checkExpansionRatio_eq_none] at h
    obtain ⟨hratio, rfl⟩ := h
    obtain ⟨herr, rfl, hall, hlen⟩ := (hcollect _).mp hok
    exact ⟨⟨rfl, herr, hall, List.length_pos_iff.mpr hne, hlen.le, hratio⟩, hlen⟩
  · rintro ⟨⟨rfl, hvalid⟩, hlen⟩
    rw [parseMultiDoc_of_docs (List.length_pos_iff.mp hvalid.nonempty)
      ((hcollect _).mpr ⟨hvalid.decodes, rfl, hvalid.required, hlen⟩), elim_eq_ok]
    exact ⟨checkExpansionRatio_eq_none.mpr hvalid.ratio, rfl⟩

/-! What is applied by its name. -/

theorem applyOne_every (h : objectName obj ≠ "") (ctxDone : ℕ → Bool) (force : Bool) (index : ℕ) :
    (applyOne lib ctxDone force index obj).Every Named := by
  unfold applyOne
  simp only
  cases mappingFor lib ctxDone (gvkOf obj) with
  | error err => exact .done _
  | ok mapping =>
    refine .call h fun existing ↦ .call h fun applied ↦ ?_
    cases applied with
    | error err => exact .done _
    | ok applied => exact .done _

theorem dryRunApply_every (h : objectName obj ≠ "") (mapping : Mapping) (doc : DiffDocument) (current : Option Json) :
    (dryRunApply lib mapping obj doc current).Every Named := by
  refine .call h fun applied ↦ ?_
  cases applied with
  | error err => exact .done _
  | ok proposed => exact .done _

theorem diffOne_every (h : objectName obj ≠ "") (index : ℕ) : (diffOne lib index obj).Every Named := by
  unfold diffOne
  simp only
  cases lib.restMapping (gvkOf obj) 0 with
  | error err => exact .done _
  | ok mapping =>
    refine .call h fun current ↦ ?_
    split
    · exact dryRunApply_every h _ _ _
    · exact .done _
    · exact dryRunApply_every h _ _ _

theorem addressed_iff : Addressed lib obj ↔ objectName obj ≠ "" := by
  constructor
  · intro h
    -- A server that knows every kind is asked for the object.
    have hsent := h.diffs (fun _ _ ↦ .ok ⟨⟨"", "", ""⟩, false⟩) 0 (fun _ (s : Unit) ↦ (.error (.other ""), s))
      (.error (.other "")) 1 ()
    exact hsent _ List.mem_cons_self
  · intro h
    exact ⟨fun _ ctxDone force index _ _ _ _ _ ↦ (applyOne_every h ctxDone force index).run,
      fun _ index _ _ _ _ _ ↦ (diffOne_every h index).run⟩

/-- The documents are accepted and addressed as they should be unless the stream is valid and has as many documents as
it may have, or one without a name. -/
theorem acceptsExactly_iff (lib : Library) (data : Bytes) : AcceptsExactly lib data ↔
    (ValidStream lib data → (nonEmptyDocs (lib.documents data).1).length < maxDocumentCount ∧
      ∀ obj ∈ nonEmptyDocs (lib.documents data).1, objectName obj ≠ "") := by
  constructor
  · intro h hvalid
    have hok := (h.accepts _).mpr ⟨rfl, hvalid⟩
    exact ⟨(parseMultiDoc_eq_ok.mp hok).2, fun obj hobj ↦ addressed_iff.mp (h.addressed _ hok obj hobj)⟩
  · intro h
    refine ⟨fun objects ↦ parseMultiDoc_eq_ok.trans (and_iff_left_of_imp fun hobjects ↦ (h hobjects.2).1), ?_⟩
    intro objects hok obj hobj
    obtain ⟨⟨rfl, hvalid⟩, -⟩ := parseMultiDoc_eq_ok.mp hok
    exact addressed_iff.mpr ((h hvalid).2 obj hobj)

/-! Streams of JSON documents. -/

def jsonStream (docs : List Json) : Bytes := docs.flatMap (fun obj ↦ utf8 obj.encode)

theorem length_jsonStream (docs : List Json) : (jsonStream docs).length = jsonSize docs := by
  have hfoldl : ∀ size, docs.foldl (fun size obj ↦ size + (utf8 obj.encode).length) size =
      size + (jsonStream docs).length := by
    induction docs with
    | nil => exact fun _ ↦ rfl
    | cons obj docs ih =>
      intro size
      rw [List.foldl_cons, ih, jsonStream, jsonStream, List.flatMap_cons, List.length_append, Nat.add_assoc]
  rw [jsonSize, hfoldl, Nat.zero_add]

/-- A library by which a stream decodes to these documents. -/
def decoding (docs : List Json) : Library where
  documents _ := (docs, none)
  notAMap _ := ""
  ratioText _ _ := ""
  lowerBytes := id
  restMapping _ _ := .error ""
  discovery := .ok []
  marshalYAML _ := .ok ""
  toLower := Char.toLower
  fold := Char.toLower

theorem Required.not_empty (h : Required obj) : ¬isEmptyDoc obj := by
  intro hempty
  unfold isEmptyDoc at hempty
  split at hempty
  · exact not_required rfl h
  · exact not_required rfl h
  · cases hempty

theorem nonEmptyDocs_of_required (h : ∀ obj ∈ docs, Required obj) : nonEmptyDocs docs = docs :=
  List.filter_eq_self.mpr fun obj hobj ↦ by simpa using (h obj hobj).not_empty

theorem validStream_jsonStream (hreq : ∀ obj ∈ docs, Required obj) (hne : 1 ≤ docs.length)
    (hle : docs.length ≤ maxDocumentCount) : ValidStream (decoding docs) (jsonStream docs) := by
  have hdocs := nonEmptyDocs_of_required hreq
  have hratio : jsonSize docs ≤ maxExpansionRatio * (jsonStream docs).length := by
    rw [length_jsonStream]
    exact Nat.le_mul_of_pos_left _ (by decide)
  refine ⟨rfl, ?_, ?_, ?_, .inr ?_⟩ <;> rwa [decoding, hdocs]

def configMap (metadata : Fields) : Json :=
  .object [("apiVersion", .string "v1"), ("kind", .string "ConfigMap"), ("metadata", .object metadata)]

def namedDoc : Json := configMap [("name", .string "settings")]

def generatedDoc : Json := configMap [("generateName", .string "settings-")]

/-- A full stream is refused, and of a stream with one document without a name the document cannot be addressed. -/
theorem not_acceptsExactly :
    ¬AcceptsExactly (decoding (List.replicate 100 namedDoc)) (jsonStream (List.replicate 100 namedDoc)) ∧
      ¬AcceptsExactly (decoding [generatedDoc]) (jsonStream [generatedDoc]) := by
  constructor
  · intro h
    have hreq : ∀ obj ∈ List.replicate 100 namedDoc, Required obj := fun obj hobj ↦
      List.eq_of_mem_replicate hobj ▸ ⟨by decide, by decide, .inl (by decide)⟩
    have hvalid := validStream_jsonStream hreq (by decide) (by decide)
    have hlt := (parseMultiDoc_eq_ok.mp ((h.accepts _).mpr ⟨rfl, hvalid⟩)).2
    exact absurd hlt (by decide)
  · intro h
    have hreq : ∀ obj ∈ [generatedDoc], Required obj :=
      List.forall_mem_singleton.mpr ⟨by decide, by decide, .inr (by decide)⟩
    have hvalid := validStream_jsonStream hreq (by decide) (by decide)
    have hok := (h.accepts _).mpr ⟨rfl, hvalid⟩
    exact addressed_iff.mp (h.addressed _ hok generatedDoc List.mem_cons_self) (by decide)

end KubeCenter.Yaml
