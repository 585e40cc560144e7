import KubeCenter.Core.DartUri
import KubeCenter.Core.GoURL

/-! Ids of several parts, as the backend writes and reads them and as the mobile app does. -/

namespace KubeCenter.GitOps.CompositeId

open KubeCenter.Core KubeCenter.Core.DartUri

/-! ### `composite_id.dart` -/

def present (required : List Bool) (parts : List Text) : Bool :=
  (required.zip parts).all (fun p ↦ !p.1 || !p.2.isEmpty)

/-- What the three `tryParse` have in common; `required` says which parts must not be empty. An `ArgumentError` is not
caught. -/
def tryParse (required : List Bool) (raw : Text) : Except DecodeError (Option (List Text)) :=
  let parts := raw.splitOn ':'
  if parts.length ≠ required.length then .ok none
  else
    match parts.mapM decodeComponent with
    | .error .format => .ok none
    | .error .argument => .error .argument
    | .ok decoded => .ok (if present required decoded then some decoded else none)

def encode (parts : List Text) : Text := [':'].intercalate (parts.map encodeComponent)

@[ext]
structure GitOpsId where
  tool : Text
  ns : Text
  name : Text
deriving DecidableEq

@[ext]
structure PolicyId where
  engine : Text
  ns : Text
  kind : Text
  name : Text
deriving DecidableEq

@[ext]
structure MeshRouteId where
  mesh : Text
  ns : Text
  kindCode : Text
  name : Text
deriving DecidableEq

namespace GitOpsId

def ofParts : List Text → Option GitOpsId
  | [tool, ns, name] => some ⟨tool, ns, name⟩
  | _ => none

def parts (id : GitOpsId) : List Text := [id.tool, id.ns, id.name]

def tryParse (raw : Text) : Except DecodeError (Option GitOpsId) :=
  (CompositeId.tryParse [true, false, true] raw).map (fun parts ↦ parts.bind ofParts)

def encode (id : GitOpsId) : Text := CompositeId.encode id.parts

end GitOpsId

namespace PolicyId

def ofParts : List Text → Option PolicyId
  | [engine, ns, kind, name] => some ⟨engine, ns, kind, name⟩
  | _ => none

def parts (id : PolicyId) : List Text := [id.engine, id.ns, id.kind, id.name]

def tryParse (raw : Text) : Except DecodeError (Option PolicyId) :=
  (CompositeId.tryParse [true, false, true, true] raw).map (fun parts ↦ parts.bind ofParts)

def encode (id : PolicyId) : Text := CompositeId.encode id.parts

end PolicyId

namespace MeshRouteId

def ofParts : List Text → Option MeshRouteId
  | [mesh, ns, kindCode, name] => some ⟨mesh, ns, kindCode, name⟩
  | _ => none

def parts (id : MeshRouteId) : List Text := [id.mesh, id.ns, id.kindCode, id.name]

def tryParse (raw : Text) : Except DecodeError (Option MeshRouteId) :=
  (CompositeId.tryParse [true, true, true, true] raw).map (fun parts ↦ parts.bind ofParts)

def encode (id : MeshRouteId) : Text := CompositeId.encode id.parts

end MeshRouteId

/-! ### The backend -/

/-- `strings.SplitN` for a separator of one byte. -/
def splitN (sep : UInt8) : ℕ → Bytes → List Bytes
  | 0, _ => []
  | 1, s => [s]
  | n + 2, s =>
    if sep ∈ s then s.takeWhile (· != sep) :: splitN sep (n + 1) ((s.dropWhile (· != sep)).drop 1) else [s]

/-- What the two parsers have in common: an escaped id is unescaped, any other taken as it is. -/
def parseParts (n : ℕ) (id : Bytes) : Option (List Bytes) :=
  let parts := splitN Byte.colon n ((GoURL.unescape .path id).getD id)
  if parts.length = n ∧ parts.all (fun part ↦ !part.isEmpty) then some parts else none

def parseCompositeID (id : Bytes) : Option (Bytes × Bytes × Bytes) :=
  match parseParts 3 id with
  | some [tool, ns, name] => some (tool, ns, name)
  | _ => none

def parseMeshCompositeID (id : Bytes) : Option (Bytes × Bytes × Bytes × Bytes) :=
  match parseParts 4 id with
  | some [mesh, ns, code, name] => some (mesh, ns, code, name)
  | _ => none

/-- The id that a list is sent with, `fmt.Sprintf("%s:%s:%s", …)`. -/
def listed (parts : List Text) : Text := [':'].intercalate parts

example : (GitOpsId.tryParse "flux-ks:apps:my%3Aapp".toList).toOption =
    some (some ⟨"flux-ks".toList, "apps".toList, "my:app".toList⟩) := by
  decide +kernel

variable {required : List Bool} {parts : List Text} {s : Text} {bs : Bytes} {sep : UInt8}

/-! ### Round trips -/

def Unmarked (s : Text) : Prop := s.head? ≠ some '\ufeff'

theorem withoutMark_eq_self_iff : withoutMark s = s ↔ Unmarked s := by
  rw [withoutMark, Unmarked]
  split
  · next hmark =>
    refine ⟨fun h ↦ ?_, fun h ↦ absurd hmark h⟩
    have hlength := congrArg List.length h
    obtain ⟨c, l, rfl⟩ := List.exists_cons_of_ne_nil (List.ne_nil_of_mem (List.mem_of_mem_head? hmark))
    rw [List.tail_cons, List.length_cons] at hlength
    omega
  · next hmark => exact ⟨fun _ ↦ hmark, fun _ ↦ rfl⟩

theorem mapM_decode_encode (parts : List Text) :
    (parts.map encodeComponent).mapM decodeComponent = .ok (parts.map withoutMark) := by
  induction parts with
  | nil => rfl
  | cons s parts ih =>
    rw [List.map_cons, List.mapM_cons, decodeComponent_encodeComponent, ih]
    rfl

theorem tryParse_encode (hlength : parts.length = required.length) (hne : parts ≠ []) :
    tryParse required (encode parts) =
      .ok (if present required (parts.map withoutMark) then some (parts.map withoutMark) else none) := by
  have hsplit : (encode parts).splitOn ':' = parts.map encodeComponent := by
    refine List.splitOn_intercalate ':' (fun l hl hmem ↦ ?_) (List.map_eq_nil_iff.not.mpr hne)
    obtain ⟨s, -, rfl⟩ := List.mem_map.mp hl
    exact (encodeComponent_safe s ':' hmem).2.1 rfl
  rw [tryParse, hsplit, List.length_map, if_neg (not_not.mpr hlength), mapM_decode_encode]

/-- What is written is read back, unless a part begins with a byte order mark or one that is required is empty. -/
theorem tryParse_encode_iff (hlength : parts.length = required.length) (hne : parts ≠ []) :
    tryParse required (encode parts) = .ok (some parts) ↔ present required parts = true ∧ ∀ s ∈ parts, Unmarked s := by
  rw [tryParse_encode hlength hne]
  have hself : parts.map withoutMark = parts ↔ ∀ s ∈ parts, Unmarked s := by
    have hmap : parts.map withoutMark = parts.map id ↔ ∀ s ∈ parts, withoutMark s = s := List.map_inj_left
    rw [List.map_id] at hmap
    exact hmap.trans (forall₂_congr (fun s _ ↦ withoutMark_eq_self_iff))
  constructor
  · intro h
    split at h
    · next hpresent =>
      have hparts := Option.some.inj (Except.ok.inj h)
      rw [hparts] at hpresent
      exact ⟨hpresent, hself.mp hparts⟩
    · cases h
  · rintro ⟨hpresent, hunmarked⟩
    rw [hself.mpr hunmarked, if_pos hpresent]

/-- An id that is written is one segment of a path. -/
theorem encode_safe (parts : List Text) : ∀ c ∈ encode parts, c.toNat < 128 ∧ c ≠ '/' ∧ c ≠ '?' ∧ c ≠ '#' := by
  intro c hc
  obtain rfl | ⟨l, hl, hc⟩ := mem_of_mem_intercalate hc
  · decide
  · obtain ⟨s, -, rfl⟩ := List.mem_map.mp hl
    obtain ⟨hlow, -, hsafe⟩ := encodeComponent_safe s c hc
    exact ⟨hlow, hsafe⟩

theorem map_bind_eq_iff {α : Type} {ofParts : List Text → Option α} {id : α}
    (hof : ∀ l, ofParts l = some id ↔ l = parts) (e : Except DecodeError (Option (List Text))) :
    e.map (fun l ↦ l.bind ofParts) = .ok (some id) ↔ e = .ok (some parts) := by
  rcases e with err | _ | l
  · exact ⟨fun h ↦ (by cases h), fun h ↦ (by cases h)⟩
  · exact ⟨fun h ↦ (by cases h), fun h ↦ (by cases h)⟩
  · refine ⟨fun h ↦ ?_, fun h ↦ ?_⟩
    · rw [(hof l).mp (Except.ok.inj h)]
    · exact congrArg Except.ok ((hof l).mpr (Option.some.inj (Except.ok.inj h)))

theorem GitOpsId.ofParts_eq_some (id : GitOpsId) (l : List Text) : ofParts l = some id ↔ l = id.parts := by
  rcases l with _ | ⟨a, _ | ⟨b, _ | ⟨c, _ | ⟨d, l⟩⟩⟩⟩ <;> simp [ofParts, parts, GitOpsId.ext_iff]

theorem PolicyId.ofParts_eq_some (id : PolicyId) (l : List Text) : ofParts l = some id ↔ l = id.parts := by
  rcases l with _ | ⟨a, _ | ⟨b, _ | ⟨c, _ | ⟨d, _ | ⟨e, l⟩⟩⟩⟩⟩ <;> simp [ofParts, parts, PolicyId.ext_iff]

theorem MeshRouteId.ofParts_eq_some (id : MeshRouteId) (l : List Text) : ofParts l = some id ↔ l = id.parts := by
  rcases l with _ | ⟨a, _ | ⟨b, _ | ⟨c, _ | ⟨d, _ | ⟨e, l⟩⟩⟩⟩⟩ <;> simp [ofParts, parts, MeshRouteId.ext_iff]

/-- `tryParse` and `encode` of all three. -/
theorem tryParse_encode_exact :
    (∀ id : GitOpsId, GitOpsId.tryParse id.encode = .ok (some id) ↔
      id.tool ≠ [] ∧ id.name ≠ [] ∧ ∀ s ∈ id.parts, Unmarked s) ∧
    (∀ id : PolicyId, PolicyId.tryParse id.encode = .ok (some id) ↔
      id.engine ≠ [] ∧ id.kind ≠ [] ∧ id.name ≠ [] ∧ ∀ s ∈ id.parts, Unmarked s) ∧
    ∀ id : MeshRouteId, MeshRouteId.tryParse id.encode = .ok (some id) ↔ ∀ s ∈ id.parts, s ≠ [] ∧ Unmarked s := by
  refine ⟨fun id ↦ ?_, fun id ↦ ?_, fun id ↦ ?_⟩
  · have hround : CompositeId.tryParse [true, false, true] id.encode = .ok (some id.parts) ↔ _ :=
      tryParse_encode_iff rfl (List.cons_ne_nil _ _)
    rw [GitOpsId.tryParse, map_bind_eq_iff id.ofParts_eq_some, hround]
    simp [present, GitOpsId.parts, and_assoc]
  · have hround : CompositeId.tryParse [true, false, true, true] id.encode = .ok (some id.parts) ↔ _ :=
      tryParse_encode_iff rfl (List.cons_ne_nil _ _)
    rw [PolicyId.tryParse, map_bind_eq_iff id.ofParts_eq_some, hround]
    simp [present, PolicyId.parts, and_assoc]
  · have hround : CompositeId.tryParse [true, true, true, true] id.encode = .ok (some id.parts) ↔ _ :=
      tryParse_encode_iff rfl (List.cons_ne_nil _ _)
    rw [MeshRouteId.tryParse, map_bind_eq_iff id.ofParts_eq_some, hround, forall₂_and]
    simp [present, MeshRouteId.parts, and_assoc]

/-! ### Ids of the backend -/

/-- What is neither escaped nor taken for a separator. -/
def Plain (s : Text) : Prop := ∀ c ∈ s, (c.toNat < 128 ∧ c ≠ '%') ∧ c ≠ ':'

theorem length_splitOn (s : Text) : (s.splitOn ':').length = s.count ':' + 1 := by
  induction s with
  | nil => rfl
  | cons c s ih =>
    rw [List.splitOn_cons_eq_if_modifyHead, List.count_cons]
    split
    · rw [List.length_cons, ih]
    · rw [List.length_modifyHead, ih, Nat.add_zero]

theorem count_listed (hne : parts ≠ []) : (listed parts).count ':' + 1 = parts.length + parts.flatten.count ':' := by
  induction parts with
  | nil => exact absurd rfl hne
  | cons s parts ih =>
    cases parts with
    | nil =>
      rw [listed, List.intercalate_singleton, List.flatten_cons, List.flatten_nil, List.append_nil]
      exact Nat.add_comm ..
    | cons t parts =>
      have htail := ih (List.cons_ne_nil t parts)
      rw [listed] at htail ⊢
      rw [List.intercalate_cons_cons, List.append_assoc, List.flatten_cons, List.count_append, List.count_append,
        List.count_append, List.count_singleton_self, List.length_cons]
      omega

theorem mapM_decode_eq_self_iff :
    parts.mapM decodeComponent = .ok parts ↔ ∀ s ∈ parts, decodeComponent s = .ok s := by
  induction parts with
  | nil => exact ⟨fun _ s hs ↦ (by cases hs), fun _ ↦ rfl⟩
  | cons s parts ih =>
    rw [List.mapM_cons, List.forall_mem_cons, ← ih]
    cases hs : decodeComponent s with
    | error err => exact ⟨fun h ↦ (by cases h), fun h ↦ (by cases h.1)⟩
    | ok t =>
      cases hparts : parts.mapM decodeComponent with
      | error err => exact ⟨fun h ↦ (by cases h), fun h ↦ (by cases h.2)⟩
      | ok l =>
        refine ⟨fun h ↦ ?_, fun h ↦ ?_⟩
        · obtain ⟨rfl, rfl⟩ := List.cons.inj (Except.ok.inj h)
          exact ⟨rfl, rfl⟩
        · obtain rfl := Except.ok.inj h.1
          obtain rfl := Except.ok.inj h.2
          rfl

/-- The ids of the backend that the app takes apart as they were put together. -/
theorem tryParse_listed_iff (hlength : parts.length = required.length) (hne : parts ≠ []) :
    tryParse required (listed parts) = .ok (some parts) ↔ present required parts = true ∧ ∀ s ∈ parts, Plain s := by
  have hsplit (hcolon : ∀ s ∈ parts, ':' ∉ s) : (listed parts).splitOn ':' = parts :=
    List.splitOn_intercalate ':' hcolon hne
  constructor
  · intro h
    rw [tryParse] at h
    split at h
    · cases h
    · next hpieces =>
      have hcount : parts.flatten.count ':' = 0 := by
        have hlisted := count_listed hne
        rw [not_not, length_splitOn, ← hlength] at hpieces
        omega
      have hcolon : ∀ s ∈ parts, ':' ∉ s := fun s hs hmem ↦
        List.count_eq_zero.mp hcount (List.mem_flatten.mpr ⟨s, hs, hmem⟩)
      rw [hsplit hcolon] at h
      split at h
      · cases h
      · cases h
      · next decoded hdecoded =>
        split at h
        · next hpresent =>
          obtain rfl := Option.some.inj (Except.ok.inj h)
          refine ⟨hpresent, fun s hs c hc ↦ ⟨?_, fun heq ↦ hcolon s hs (heq ▸ hc)⟩⟩
          exact decodeComponent_eq_self_iff.mp (mapM_decode_eq_self_iff.mp hdecoded s hs) c hc
        · cases h
  · rintro ⟨hpresent, hplain⟩
    have hdecoded : parts.mapM decodeComponent = .ok parts :=
      mapM_decode_eq_self_iff.mpr (fun s hs ↦ decodeComponent_eq_self_iff.mpr (fun c hc ↦ (hplain s hs c hc).1))
    rw [tryParse, hsplit (fun s hs hmem ↦ (hplain s hs ':' hmem).2 rfl), if_neg (not_not.mpr hlength), hdecoded]
    exact congrArg Except.ok (if_pos hpresent)

theorem unescape_cons {b : UInt8} (hne : b ≠ Byte.percent) (bs : Bytes) :
    GoURL.unescape .path (b :: bs) = (GoURL.unescape .path bs).map (fun t ↦ b :: t) := by
  rw [GoURL.unescape.eq_def]
  simp only [if_neg hne]
  rfl

theorem unescape_encodeByte (b : UInt8) (bs : Bytes) :
    GoURL.unescape .path ((encodeByte b).map (fun c ↦ UInt8.ofNat c.toNat) ++ bs) =
      (GoURL.unescape .path bs).map (fun t ↦ b :: t) := by
  have hb := b.toNat_lt
  rw [encodeByte]
  split
  · next h =>
    obtain ⟨-, hpercent, -⟩ := unreserved_toNat h
    have hne : b ≠ Byte.percent := fun heq ↦ hpercent (congrArg UInt8.toNat heq)
    rw [List.map_singleton, toNat_latin1, UInt8.ofNat_toNat, List.singleton_append, unescape_cons hne]
  · have hdigit : ∀ n < 16, GoURL.unhex (UInt8.ofNat (hexChar n).toNat) = some n := by decide
    have hx := hdigit (b.toNat / 16) (by omega)
    have hy := hdigit (b.toNat % 16) (by omega)
    have hbyte : UInt8.ofNat (16 * (b.toNat / 16) + b.toNat % 16) = b := by
      rw [Nat.div_add_mod, UInt8.ofNat_toNat]
    have hpercent : UInt8.ofNat '%'.toNat = Byte.percent := rfl
    simp only [List.map_cons, List.map_nil, List.cons_append, List.nil_append, hpercent]
    rw [GoURL.unescape.eq_def]
    simp only [if_true, hx, hy, hbyte]
    rfl

theorem unescape_encodeComponent (s : Text) : GoURL.unescape .path (utf8 (encodeComponent s)) = some (utf8 s) := by
  rw [utf8_ascii (fun c hc ↦ (encodeComponent_safe s c hc).1), encodeComponent]
  generalize utf8 s = bs
  induction bs with
  | nil => rfl
  | cons b bs ih =>
    rw [List.flatMap_cons, List.map_append, unescape_encodeByte, ih]
    rfl

theorem utf8_listed (parts : List Text) : utf8 (listed parts) = [Byte.colon].intercalate (parts.map utf8) := by
  induction parts with
  | nil => rfl
  | cons s parts ih =>
    cases parts with
    | nil => rw [listed, List.map_singleton, List.intercalate_singleton, List.intercalate_singleton]
    | cons t parts =>
      rw [listed] at ih ⊢
      rw [List.intercalate_cons_cons, utf8_append, utf8_append, ih, List.map_cons, List.map_cons, List.map_cons,
        List.intercalate_cons_cons]
      rfl

theorem splitN_append {a : Bytes} (ha : sep ∉ a) (n : ℕ) (s : Bytes) :
    splitN sep (n + 2) (a ++ sep :: s) = a :: splitN sep (n + 1) s := by
  have hall : ∀ b ∈ a, (b != sep) = true := fun b hb ↦ bne_iff_ne.mpr (fun heq ↦ ha (heq ▸ hb))
  have hstop : (sep != sep) = false := bne_self_eq_false sep
  rw [splitN, if_pos (List.mem_append_right a List.mem_cons_self), List.takeWhile_append_of_pos hall,
    List.dropWhile_append_of_pos hall, List.takeWhile_cons, List.dropWhile_cons, hstop, if_neg Bool.false_ne_true,
    if_neg Bool.false_ne_true, List.append_nil]
  rfl

/-- What is joined is split into what it was joined from, if only the last part has separators. -/
theorem splitN_intercalate_iff {parts : List Bytes} (hne : parts ≠ []) :
    splitN sep parts.length ([sep].intercalate parts) = parts ↔ ∀ a ∈ parts.dropLast, sep ∉ a := by
  induction parts with
  | nil => exact absurd rfl hne
  | cons a parts ih =>
    cases parts with
    | nil =>
      rw [List.intercalate_singleton, List.length_singleton, splitN]
      exact ⟨fun _ b hb ↦ (by cases hb), fun _ ↦ rfl⟩
    | cons b parts =>
      have htail := ih (List.cons_ne_nil b parts)
      rw [List.intercalate_cons_cons, List.append_assoc, List.singleton_append, List.dropLast_cons_cons,
        List.forall_mem_cons, ← htail]
      by_cases ha : sep ∈ a
      · refine ⟨fun h ↦ ?_, fun h ↦ absurd ha h.1⟩
        -- the first piece ends before the separator
        rw [List.length_cons, List.length_cons, splitN, if_pos (List.mem_append_left _ ha)] at h
        have hhead := (List.cons.inj h).1
        have hmem : sep ∈ (a ++ sep :: [sep].intercalate (b :: parts)).takeWhile (· != sep) := hhead.symm ▸ ha
        have hbne := List.all_eq_true.mp List.all_takeWhile sep hmem
        exact absurd rfl (bne_iff_ne.mp hbne)
      · rw [List.length_cons, List.length_cons, splitN_append ha]
        exact ⟨fun h ↦ ⟨ha, (List.cons.inj h).2⟩, fun h ↦ congrArg (a :: ·) h.2⟩

theorem colon_mem_utf8 (s : Text) : Byte.colon ∈ utf8 s ↔ ':' ∈ s := by
  refine ⟨fun h ↦ mem_of_ascii_mem_utf8 (by decide) h, fun h ↦ ?_⟩
  exact List.mem_flatMap.mpr ⟨':', h, List.mem_singleton.mpr rfl⟩

/-- The ids that the backend takes apart as it put them together, when they come back escaped. -/
theorem parseParts_listed_iff (hne : parts ≠ []) :
    parseParts parts.length (utf8 (encodeComponent (listed parts))) = some (parts.map utf8) ↔
      (∀ s ∈ parts, s ≠ []) ∧ ∀ s ∈ parts.dropLast, ':' ∉ s := by
  have hmap : parts.map utf8 ≠ [] := List.map_eq_nil_iff.not.mpr hne
  have hpieces : splitN Byte.colon parts.length (utf8 (listed parts)) = parts.map utf8 ↔ _ :=
    List.length_map utf8 ▸ utf8_listed parts ▸ splitN_intercalate_iff hmap
  have hempty : (parts.map utf8).all (fun part ↦ !part.isEmpty) = true ↔ ∀ s ∈ parts, s ≠ [] := by
    rw [List.all_eq_true, List.forall_mem_map]
    exact forall₂_congr (fun s _ ↦ by rw [Bool.not_eq_true', List.isEmpty_eq_false_iff, Ne, utf8_nil_iff])
  have hcolon : (∀ a ∈ (parts.map utf8).dropLast, Byte.colon ∉ a) ↔ ∀ s ∈ parts.dropLast, ':' ∉ s := by
    rw [← List.map_dropLast, List.forall_mem_map]
    exact forall₂_congr (fun s _ ↦ not_congr (colon_mem_utf8 s))
  rw [← hempty, ← hcolon, ← hpieces, parseParts, unescape_encodeComponent, Option.getD_some]
  constructor
  · intro h
    split at h
    · next hparts =>
      have hsplit := Option.some.inj h
      exact ⟨hsplit ▸ hparts.2, hsplit⟩
    · cases h
  · rintro ⟨hpresent, hsplit⟩
    rw [hsplit, if_pos ⟨List.length_map utf8, hpresent⟩]

theorem parseCompositeID_eq_some_iff (raw : Bytes) (a b c : Bytes) :
    parseCompositeID raw = some (a, b, c) ↔ parseParts 3 raw = some [a, b, c] := by
  rw [parseCompositeID]
  rcases parseParts 3 raw with _ | l
  · simp
  · rcases l with _ | ⟨x, _ | ⟨y, _ | ⟨z, _ | ⟨d, l⟩⟩⟩⟩ <;> simp

theorem parseMeshCompositeID_eq_some_iff (raw : Bytes) (a b c d : Bytes) :
    parseMeshCompositeID raw = some (a, b, c, d) ↔ parseParts 4 raw = some [a, b, c, d] := by
  rw [parseMeshCompositeID]
  rcases parseParts 4 raw with _ | l
  · simp
  · rcases l with _ | ⟨x, _ | ⟨y, _ | ⟨z, _ | ⟨w, _ | ⟨v, l⟩⟩⟩⟩⟩ <;> simp

/-- The screen of an application opens, and its request comes back to that application. -/
def GitOpsId.Opens (id : GitOpsId) : Prop :=
  tryParse (listed id.parts) = .ok (some id) ∧
    parseCompositeID (utf8 (encodeComponent (listed id.parts))) = some (utf8 id.tool, utf8 id.ns, utf8 id.name)

def MeshRouteId.Opens (id : MeshRouteId) : Prop :=
  tryParse (listed id.parts) = .ok (some id) ∧
    parseMeshCompositeID (utf8 (encodeComponent (listed id.parts))) =
      some (utf8 id.mesh, utf8 id.ns, utf8 id.kindCode, utf8 id.name)

theorem present_of_forall (required : List Bool) (h : ∀ s ∈ parts, s ≠ []) : present required parts = true := by
  rw [present, List.all_eq_true]
  intro p hp
  have hs := h p.2 (List.of_mem_zip hp).2
  rw [Bool.or_eq_true, Bool.not_eq_true', Bool.not_eq_true', List.isEmpty_eq_false_iff]
  exact .inr hs

theorem readable_iff :
    ((present required parts = true ∧ ∀ s ∈ parts, Plain s) ∧
      (∀ s ∈ parts, s ≠ []) ∧ ∀ s ∈ parts.dropLast, ':' ∉ s) ↔ ∀ s ∈ parts, s ≠ [] ∧ Plain s := by
  constructor
  · rintro ⟨⟨-, hplain⟩, hne, -⟩
    exact fun s hs ↦ ⟨hne s hs, hplain s hs⟩
  · intro h
    refine ⟨⟨present_of_forall required (fun s hs ↦ (h s hs).1), fun s hs ↦ (h s hs).2⟩, fun s hs ↦ (h s hs).1, ?_⟩
    intro s hs hmem
    exact ((h s (List.mem_of_mem_dropLast hs)).2 ':' hmem).2 rfl

/-- What is listed can be opened, for names of ASCII without colons and percent signs. -/
theorem opens_exact :
    (∀ id : GitOpsId, id.Opens ↔ ∀ s ∈ id.parts, s ≠ [] ∧ Plain s) ∧
    ∀ id : MeshRouteId, id.Opens ↔ ∀ s ∈ id.parts, s ≠ [] ∧ Plain s := by
  refine ⟨fun id ↦ ?_, fun id ↦ ?_⟩
  · have hread : CompositeId.tryParse [true, false, true] (listed id.parts) = .ok (some id.parts) ↔ _ :=
      tryParse_listed_iff rfl (List.cons_ne_nil _ _)
    have hback := @parseParts_listed_iff id.parts (List.cons_ne_nil _ _)
    rw [GitOpsId.Opens, GitOpsId.tryParse, map_bind_eq_iff id.ofParts_eq_some, hread, parseCompositeID_eq_some_iff,
      ← readable_iff, ← hback]
    rfl
  · have hread : CompositeId.tryParse [true, true, true, true] (listed id.parts) = .ok (some id.parts) ↔ _ :=
      tryParse_listed_iff rfl (List.cons_ne_nil _ _)
    have hback := @parseParts_listed_iff id.parts (List.cons_ne_nil _ _)
    rw [MeshRouteId.Opens, MeshRouteId.tryParse, map_bind_eq_iff id.ofParts_eq_some, hread,
      parseMeshCompositeID_eq_some_iff, ← readable_iff, ← hback]
    rfl

end KubeCenter.GitOps.CompositeId
