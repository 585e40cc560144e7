import Mathlib.Order.Lattice
import KubeCenter.Yaml.BoundedStream

/-! An apply of several documents by the clock, against an API server that others write to and whose calls may fail. -/

namespace KubeCenter.Yaml

open KubeCenter.Core KubeCenter.Resources

structure ObjectKey where
  gvr : GVR
  ns : String
  name : String
  deriving DecidableEq

variable {C : Type}

/-- What there is under a key: how often that was changed, and the object if there is one. -/
structure Slot (C : Type) where
  revision : ℕ
  content : Option C

section Write

variable [DecidableEq C]

/-- A write that changes nothing leaves the version as it is. -/
def Slot.write (slot : Slot C) (content : Option C) : Slot C :=
  if content = slot.content then slot else ⟨slot.revision + 1, content⟩

def Slot.writes (slot : Slot C) (contents : List (Option C)) : Slot C := contents.foldl Slot.write slot

end Write

/-- What a client relies on of an API server: `merge` is a server-side apply to the object that is there, if it is, and
`present` an object as it is sent, with a version that changes as the object does. -/
structure Server (C : Type) where
  merge : Option C → Json → Bool → Except CallError C
  present : ℕ → C → Json
  versioned : ∀ m n a b, resourceVersion (present m a) = resourceVersion (present n b) ↔ m = n
  missing : String

/-- What happens while it is a document's turn, apart from what the code does: the answers of the mapper, what other
writers make of the object before it is read and from then until it is patched, and the errors by which the read fails,
the patch is refused, and the reply to the patch is lost. -/
structure Turn (C : Type) where
  restMapping : ℕ → Except String Mapping
  before : List (Option C) := []
  getError : Option CallError := none
  between : List (Option C) := []
  patchError : Option CallError := none
  lost : Option CallError := none

/-- A document and its turn. -/
abbrev Doc (C : Type) := Json × Turn C

/-- The objects, and what the patch found and left if it was applied. -/
structure Store (C : Type) where
  slots : ObjectKey → Slot C
  patched : Option (Slot C × Slot C)

def Store.set (s : Store C) (key : ObjectKey) (slot : Slot C) : Store C :=
  { s with slots := Function.update s.slots key slot }

/-- The dynamic client makes no call without a name. -/
def unlessUnnamed (name : String) (err : Option CallError) : Option CallError :=
  if name = "" then some (.other "name is required") else err

def Server.serve [DecidableEq C] (srv : Server C) (t : Turn C) : ClientCall → Store C → Reply × Store C
  | .get gvr ns name, s =>
    let slot := (s.slots ⟨gvr, ns, name⟩).writes t.before
    (match unlessUnnamed name t.getError, slot.content with
      | some err, _ => .error err
      | none, none => .error (.status .notFound srv.missing)
      | none, some c => .ok (srv.present slot.revision c), s.set ⟨gvr, ns, name⟩ slot)
  | .apply gvr ns name data force false, s =>
    let found := (s.slots ⟨gvr, ns, name⟩).writes t.between
    match (unlessUnnamed name t.patchError).elim (srv.merge found.content data force) .error with
    | .error err => (.error err, s.set ⟨gvr, ns, name⟩ found)
    | .ok c =>
      let left := found.write (some c)
      (t.lost.elim (.ok (srv.present left.revision c)) .error,
        { s.set ⟨gvr, ns, name⟩ left with patched := some (found, left) })
  | _, s => (.error (.other ""), s)

/-- The milliseconds that `applyOne` has waited after so many attempts to find the mapping. -/
def waited : ℕ → ℕ
  | 0 => 0
  | attempt + 1 => waited attempt + 500 * (1 <<< attempt)

/-- The attempts after which it waits. -/
def Turn.retries (t : Turn C) : ℕ :=
  match t.restMapping 0, t.restMapping 1 with
  | .ok _, _ => 0
  | .error _, .ok _ => 1
  | .error _, .error _ => 2

/-- The context of a request ends at `deadline`, and its calls fail with `cancelled` from then on. -/
structure Request (C : Type) where
  deadline : ℕ
  cancelled : CallError
  force : Bool
  cluster : ObjectKey → Slot C
  docs : List (Doc C)

structure World (C : Type) where
  slots : ObjectKey → Slot C
  clock : ℕ

/-- What became of a document: its result, and for its effect the calls for it that reached the API server and what its
patch found and left. -/
structure Outcome (C : Type) where
  result : ApplyResult
  sent : List ClientCall
  patched : Option (Slot C × Slot C)

section Run

variable (r : Request C) (w : World C)

def Request.ctxDone (attempt : ℕ) : Bool := decide (r.deadline ≤ w.clock + waited (attempt + 1))

/-- The time is up for a document before it has its mapping. -/
def Request.late (doc : Doc C) : Prop := r.deadline ≤ w.clock + waited doc.2.retries

instance (doc : Doc C) : Decidable (r.late w doc) := inferInstanceAs (Decidable (_ ≤ _))

variable [DecidableEq C] (lib : Library) (srv : Server C)

/-- A document's turn. The waits are what takes time, and each of them ends with the context at the latest. -/
def Request.applyTurn (i : ℕ) (doc : Doc C) : Outcome C × World C :=
  let ran := (applyOne { lib with restMapping := fun _ ↦ doc.2.restMapping } (r.ctxDone w) r.force i doc.1).run
    (srv.serve doc.2) (.error r.cancelled) (if r.late w doc then 0 else 2) ⟨w.slots, none⟩
  (⟨ran.value, ran.sent, ran.state.patched⟩,
    ⟨ran.state.slots, max w.clock (min r.deadline (w.clock + waited doc.2.retries))⟩)

/-- The loop of `ApplyDocuments`. -/
def Request.applyEach : ℕ → World C → List (Doc C) → List (Outcome C)
  | _, _, [] => []
  | i, w, doc :: docs =>
    (r.applyTurn w lib srv i doc).1 :: Request.applyEach (i + 1) (r.applyTurn w lib srv i doc).2 docs

def Request.outcomes : List (Outcome C) := r.applyEach lib srv 0 ⟨r.cluster, 0⟩ r.docs

def Request.response : ApplyResponse := applySummary ((r.outcomes lib srv).map Outcome.result)

/-- The world as a loop leaves it. -/
def Request.worldAfter : ℕ → World C → List (Doc C) → World C
  | _, w, [] => w
  | i, w, doc :: docs => Request.worldAfter (i + 1) (r.applyTurn w lib srv i doc).2 docs

/-- The world when it is a document's turn. -/
def worldBefore (docs : List (Doc C)) (n : ℕ) : World C := r.worldAfter lib srv 0 ⟨r.cluster, 0⟩ (docs.take n)

end Run

def Turn.mapping (t : Turn C) : Option Mapping :=
  (t.restMapping 0).toOption <|> (t.restMapping 1).toOption <|> (t.restMapping 2).toOption

def keyOf (obj : Json) (mapping : Mapping) : ObjectKey := ⟨mapping.resource, scopeFor mapping obj, objectName obj⟩

/-- The object that a document is for, when its kind has a mapping in the end. -/
def target (doc : Doc C) : Option ObjectKey := doc.2.mapping.map (keyOf doc.1)

def Apart (d e : Doc C) : Prop := ∀ key, target d = some key → target e ≠ some key

/-- A result says what happened. -/
structure Outcome.Told (o : Outcome C) : Prop where
  created : o.result.action = "created" ↔ ∃ left revision, o.patched = some (⟨revision, none⟩, left)
  unchanged : o.result.action = "unchanged" ↔ ∃ slot, o.patched = some (slot, slot)
  failed : o.result.action = "failed" ↔ o.patched = none

/-- The request with another turn for one of its documents. -/
def Request.withTurn (r : Request C) (j : ℕ) (obj : Json) (t : Turn C) : Request C :=
  { r with docs := r.docs.set j (obj, t) }

/-- One result for each document in their order, counters that add up, results that say what happened, and none of them,
nor the effect that goes with it, by another document's turn, whatever that is like. -/
structure Reports [DecidableEq C] (lib : Library) (srv : Server C) (r : Request C) : Prop where
  inOrder : (r.response lib srv).results.map (fun res ↦ (res.index, res.kind, res.name)) =
    r.docs.mapIdx (fun i doc ↦ (i, kindOf doc.1, objectName doc.1))
  total : (r.response lib srv).total = r.docs.length
  summary : (r.response lib srv).created + (r.response lib srv).configured + (r.response lib srv).unchanged +
    (r.response lib srv).failed = (r.response lib srv).total
  told : ∀ o ∈ r.outcomes lib srv, o.Told
  apart : ∀ i j d e t, i ≠ j → r.docs[i]? = some d → r.docs[j]? = some e → Apart d e → Apart d (e.1, t) →
    ((r.withTurn j e.1 t).outcomes lib srv)[i]? = (r.outcomes lib srv)[i]?

section Foretold

variable [DecidableEq C]

/-- What the patch of a document finds. -/
def found (doc : Doc C) (slot : Slot C) : Slot C := (slot.writes doc.2.before).writes doc.2.between

/-- What it makes of that. -/
def merged (srv : Server C) (force : Bool) (doc : Doc C) (slot : Slot C) : Except CallError C :=
  (unlessUnnamed (objectName doc.1) doc.2.patchError).elim (srv.merge (found doc slot).content doc.1 force) .error

/-- If the patch is applied, its reply comes back and what was read before it still tells what it does: there is no
object when none was found; and there is one when another answer came, an object as it was read unless the patch changes
it, and one that the patch changes when the read failed. -/
def Foretold (srv : Server C) (force : Bool) (doc : Doc C) (slot : Slot C) : Prop :=
  ∀ c, merged srv force doc slot = .ok c → doc.2.lost = none ∧
    match unlessUnnamed (objectName doc.1) doc.2.getError with
    | some (.status .notFound _) => (found doc slot).content = none
    | some _ => (found doc slot).content ≠ none ∧ (found doc slot).content ≠ some c
    | none =>
      if (slot.writes doc.2.before).content = none then (found doc slot).content = none
      else (found doc slot).content ≠ none ∧
        ((found doc slot).content = some c → (found doc slot).revision = (slot.writes doc.2.before).revision)

end Foretold

def totalWait : List (Doc C) → ℕ
  | [] => 0
  | doc :: docs => waited doc.2.retries + totalWait docs

/-- However long the mapping of one document has to be waited for, the time of the request suffices for the ones after
it, or does not even without that wait. -/
def Request.Unhurried (r : Request C) : Prop :=
  ∀ i j d e, j < i → r.docs[i]? = some d → r.docs[j]? = some e → Apart d e →
    r.deadline ≤ totalWait ((r.docs.take (i + 1)).eraseIdx j) ∨
      totalWait ((r.docs.take (i + 1)).eraseIdx j) + waited 2 < r.deadline

/-- Every patch that is made in time is foretold. -/
def Request.Foreseen [DecidableEq C] (r : Request C) (lib : Library) (srv : Server C) : Prop :=
  ∀ i d, r.docs[i]? = some d → totalWait (r.docs.take (i + 1)) < r.deadline → ∀ key, target d = some key →
    Foretold srv r.force d ((worldBefore r lib srv r.docs i).slots key)

/-! Slots. -/

section Slots

variable [DecidableEq C]

theorem Slot.revision_write (slot : Slot C) (content : Option C) :
    (slot.write content).revision = if content = slot.content then slot.revision else slot.revision + 1 := by
  unfold write
  split <;> rfl

theorem Slot.content_write (slot : Slot C) (content : Option C) : (slot.write content).content = content := by
  unfold write
  split
  · next h => exact h.symm
  · rfl

theorem Slot.write_eq_iff {slot : Slot C} {content : Option C} :
    slot.write content = slot ↔ slot.content = content := by
  constructor
  · intro h
    rw [← h, content_write]
  · intro h
    rw [write, if_pos h.symm]

theorem Slot.revision_le_write (slot : Slot C) (content : Option C) :
    slot.revision ≤ (slot.write content).revision := by
  rw [revision_write]
  split <;> omega

theorem Slot.revision_le_writes (slot : Slot C) (contents : List (Option C)) :
    slot.revision ≤ (slot.writes contents).revision := by
  induction contents generalizing slot with
  | nil => exact Nat.le_refl _
  | cons c contents ih => exact (slot.revision_le_write c).trans (ih _)

/-- The version of an object tells whether it was changed. -/
theorem Slot.writes_eq_of_revision {slot : Slot C} {contents : List (Option C)}
    (h : (slot.writes contents).revision = slot.revision) : slot.writes contents = slot := by
  induction contents generalizing slot with
  | nil => rfl
  | cons c contents ih =>
    have hle := (slot.write c).revision_le_writes contents
    have hwrite : slot.write c = slot := by
      rw [write_eq_iff]
      by_contra hne
      have hrevision := slot.revision_write c
      rw [if_neg (Ne.symm hne)] at hrevision
      change ((slot.write c).writes contents).revision = _ at h
      omega
    change (slot.write c).writes contents = slot
    change ((slot.write c).writes contents).revision = _ at h
    rw [hwrite] at h ⊢
    exact ih h

end Slots

/-! A turn. -/

section Turn

variable {lib : Library} {srv : Server C} {r : Request C} {i : ℕ} {w w' : World C} {doc : Doc C} {mapping : Mapping}

theorem mappingFor_inTime (h : ¬r.late w doc) (gvk : GVK) :
    mappingFor { lib with restMapping := fun _ ↦ doc.2.restMapping } (r.ctxDone w) gvk =
      match doc.2.mapping with
      | some mapping => .ok mapping
      | none =>
        (doc.2.restMapping 2).mapError (fun err ↦ String.join ["unknown resource type ", gvk.text, ": ", err]) := by
  unfold Request.late Turn.retries at h
  unfold mappingFor Turn.mapping Request.ctxDone
  dsimp only
  cases h0 : doc.2.restMapping 0 with
  | ok mapping => rfl
  | error err =>
    cases h1 : doc.2.restMapping 1 with
    | ok mapping =>
      rw [h0, h1] at h
      simp [h, Except.toOption]
    | error err =>
      rw [h0, h1] at h
      change ¬r.deadline ≤ w.clock + waited 2 at h
      have hle : waited 1 ≤ waited 2 := by decide
      have h' : ¬r.deadline ≤ w.clock + waited 1 := by omega
      cases h2 : doc.2.restMapping 2 with
      | ok mapping => simp [h, h', Except.toOption, Except.mapError]
      | error err => simp [h, h', Except.toOption, Except.mapError]

theorem mappingFor_late (h : r.late w doc) (gvk : GVK) :
    mappingFor { lib with restMapping := fun _ ↦ doc.2.restMapping } (r.ctxDone w) gvk =
      match doc.2.restMapping 0 with
      | .ok mapping => .ok mapping
      | .error _ => .error ("context cancelled waiting for CRD " ++ gvk.text) := by
  unfold Request.late Turn.retries at h
  unfold mappingFor Request.ctxDone
  dsimp only
  cases h0 : doc.2.restMapping 0 with
  | ok mapping => rfl
  | error err =>
    cases h1 : doc.2.restMapping 1 with
    | ok mapping =>
      rw [h0, h1] at h
      simp [h]
    | error err =>
      rw [h0, h1] at h
      simp [h]

theorem applyAction_present (m n : ℕ) (a b : C) :
    applyAction (.ok (srv.present m a)) (srv.present n b) = if m = n then "unchanged" else "configured" := by
  simp only [applyAction, srv.versioned]

/-! What the four actions tell of an object under a key that a patch has made `c` of. -/

theorem told_created {slot : Slot C} {c : C} :
    (("created" = "created" ↔ slot.content = none) ∧ ("created" = "unchanged" ↔ slot.content = some c) ∧
      "created" ≠ "failed") ↔ slot.content = none := by
  constructor
  · exact fun h ↦ h.1.mp rfl
  · intro h
    simp [h]

theorem told_unchanged {slot : Slot C} {c : C} :
    (("unchanged" = "created" ↔ slot.content = none) ∧ ("unchanged" = "unchanged" ↔ slot.content = some c) ∧
      "unchanged" ≠ "failed") ↔ slot.content = some c := by
  constructor
  · exact fun h ↦ h.2.1.mp rfl
  · intro h
    simp [h]

theorem told_configured {slot : Slot C} {c : C} :
    (("configured" = "created" ↔ slot.content = none) ∧ ("configured" = "unchanged" ↔ slot.content = some c) ∧
      "configured" ≠ "failed") ↔ slot.content ≠ none ∧ slot.content ≠ some c := by
  simp

theorem told_unpatched {o : Outcome C} (hp : o.patched = none) (hf : o.result.action = "failed") : o.Told := by
  refine ⟨?_, ?_, fun _ ↦ hp, fun _ ↦ hf⟩ <;> simp [hp, hf]

variable [DecidableEq C]

def reading (srv : Server C) (doc : Doc C) (slot : Slot C) : Reply :=
  match unlessUnnamed (objectName doc.1) doc.2.getError, (slot.writes doc.2.before).content with
  | some err, _ => .error err
  | none, none => .error (.status .notFound srv.missing)
  | none, some c => .ok (srv.present (slot.writes doc.2.before).revision c)

/-- The result but for its action and error. -/
def plainResult (i : ℕ) (obj : Json) (ns : String) : ApplyResult :=
  { index := i, kind := kindOf obj, name := objectName obj, ns := ns }

def servedResult (srv : Server C) (force : Bool) (i : ℕ) (doc : Doc C) (mapping : Mapping) (slot : Slot C) :
    ApplyResult :=
  match merged srv force doc slot, doc.2.lost with
  | .error err, _ | .ok _, some err =>
    { plainResult i doc.1 (namespaceFor mapping doc.1) with action := "failed", error := applyError err }
  | .ok c, none =>
    { plainResult i doc.1 (namespaceFor mapping doc.1) with
      action := applyAction (reading srv doc slot)
        (srv.present ((found doc slot).write (some c)).revision c) }

def left (srv : Server C) (force : Bool) (doc : Doc C) (slot : Slot C) : Slot C :=
  match merged srv force doc slot with
  | .error _ => found doc slot
  | .ok c => (found doc slot).write (some c)

def patchedBy (srv : Server C) (force : Bool) (doc : Doc C) (slot : Slot C) : Option (Slot C × Slot C) :=
  match merged srv force doc slot with
  | .error _ => none
  | .ok c => some (found doc slot, (found doc slot).write (some c))

def callsFor (force : Bool) (obj : Json) (mapping : Mapping) : List ClientCall :=
  [.get mapping.resource (scopeFor mapping obj) (objectName obj),
    .apply mapping.resource (scopeFor mapping obj) (objectName obj) obj force false]

theorem applyTurn_served (h : ¬r.late w doc) (hm : doc.2.mapping = some mapping) :
    r.applyTurn w lib srv i doc =
      (⟨servedResult srv r.force i doc mapping (w.slots (keyOf doc.1 mapping)), callsFor r.force doc.1 mapping,
          patchedBy srv r.force doc (w.slots (keyOf doc.1 mapping))⟩,
        ⟨Function.update w.slots (keyOf doc.1 mapping) (left srv r.force doc (w.slots (keyOf doc.1 mapping))),
          max w.clock (min r.deadline (w.clock + waited doc.2.retries))⟩) := by
  unfold Request.applyTurn applyOne
  rw [mappingFor_inTime h, hm]
  dsimp only
  rw [if_neg h]
  simp only [Script.run, Server.serve, Store.set, Function.update_self, Function.update_idem, servedResult, left,
    patchedBy]
  cases hmerged : merged srv r.force doc (w.slots (keyOf doc.1 mapping)) with
  | error err =>
    unfold merged found keyOf at hmerged
    simp only [hmerged]
    rfl
  | ok c =>
    unfold merged found keyOf at hmerged
    simp only [hmerged]
    cases doc.2.lost with
    | none => rfl
    | some err => rfl

theorem applyTurn_unmapped (h : ¬r.late w doc) (hm : doc.2.mapping = none) : ∃ err, doc.2.restMapping 2 = .error err ∧
    r.applyTurn w lib srv i doc =
      (⟨{ plainResult i doc.1 (objectNamespace doc.1) with
            action := "failed"
            error := String.join ["unknown resource type ", (gvkOf doc.1).text, ": ", err] }, [], none⟩,
        ⟨w.slots, max w.clock (min r.deadline (w.clock + waited doc.2.retries))⟩) := by
  have herr : ∃ err, doc.2.restMapping 2 = .error err := by
    cases h2 : doc.2.restMapping 2 with
    | error err => exact ⟨err, rfl⟩
    | ok mapping =>
      unfold Turn.mapping at hm
      rw [h2] at hm
      cases h0 : doc.2.restMapping 0 <;> cases h1 : doc.2.restMapping 1 <;> simp [h0, h1, Except.toOption] at hm
  obtain ⟨err, herr⟩ := herr
  refine ⟨err, herr, ?_⟩
  unfold Request.applyTurn applyOne
  rw [mappingFor_inTime h, hm, herr]
  rfl

theorem applyTurn_late (h : r.late w doc) : ∃ ns err,
    r.applyTurn w lib srv i doc =
      (⟨{ plainResult i doc.1 ns with action := "failed", error := err }, [], none⟩,
        ⟨w.slots, max w.clock (min r.deadline (w.clock + waited doc.2.retries))⟩) ∧
      ((∃ mapping, doc.2.restMapping 0 = .ok mapping ∧ ns = namespaceFor mapping doc.1 ∧ err = applyError r.cancelled) ∨
        (∃ e, doc.2.restMapping 0 = .error e) ∧ ns = objectNamespace doc.1 ∧
          err = "context cancelled waiting for CRD " ++ (gvkOf doc.1).text) := by
  unfold Request.applyTurn applyOne
  rw [mappingFor_late h, if_pos h]
  cases h0 : doc.2.restMapping 0 with
  | ok mapping => exact ⟨_, _, rfl, .inl ⟨mapping, rfl, rfl, rfl⟩⟩
  | error e => exact ⟨_, _, rfl, .inr ⟨⟨e, rfl⟩, rfl, rfl⟩⟩

/-! What a result tells. -/

theorem told_patched {o : Outcome C} {slot : Slot C} {c : C} (h : o.patched = some (slot, slot.write (some c))) :
    o.Told ↔ (o.result.action = "created" ↔ slot.content = none) ∧
      (o.result.action = "unchanged" ↔ slot.content = some c) ∧ o.result.action ≠ "failed" := by
  have hcreated : (∃ left revision, o.patched = some (⟨revision, none⟩, left)) ↔ slot.content = none := by
    rw [h]
    constructor
    · rintro ⟨left, revision, hp⟩
      rw [(Prod.mk.inj (Option.some.inj hp)).1]
    · intro hnone
      exact ⟨_, slot.revision, congrArg some (congrArg (·, _) (by rw [← hnone]))⟩
  have hunchanged : (∃ s, o.patched = some (s, s)) ↔ slot.content = some c := by
    rw [h, ← Slot.write_eq_iff]
    constructor
    · rintro ⟨s, hp⟩
      obtain ⟨rfl, hw⟩ := Prod.mk.inj (Option.some.inj hp)
      exact hw
    · exact fun hw ↦ ⟨slot, by rw [hw]⟩
  constructor
  · intro ht
    refine ⟨ht.created.trans hcreated, ht.unchanged.trans hunchanged, fun hf ↦ ?_⟩
    have hp := ht.failed.mp hf
    rw [h] at hp
    cases hp
  · intro ⟨hc, hu, hf⟩
    refine ⟨hc.trans hcreated.symm, hu.trans hunchanged.symm, fun hf' ↦ absurd hf' hf, fun hp ↦ ?_⟩
    rw [h] at hp
    cases hp

/-- An object with the version that was read is the one that was read. -/
theorem revision_left {slot : Slot C} {contents : List (Option C)} {c : C} :
    slot.revision = ((slot.writes contents).write (some c)).revision ↔
      (slot.writes contents).content = some c ∧ (slot.writes contents).revision = slot.revision := by
  have hle := slot.revision_le_writes contents
  rw [Slot.revision_write]
  split
  · next h => rw [eq_comm, and_iff_right h.symm]
  · next h =>
    refine iff_of_false ?_ (fun hc ↦ h hc.1.symm)
    omega

theorem told_iff {slot : Slot C} {sent : List ClientCall} :
    Outcome.Told ⟨servedResult srv r.force i doc mapping slot, sent, patchedBy srv r.force doc slot⟩ ↔
      Foretold srv r.force doc slot := by
  unfold Foretold
  cases hmerged : merged srv r.force doc slot with
  | error err =>
    refine iff_of_true (told_unpatched ?_ ?_) (fun c hc ↦ by cases hc)
    · simp only [patchedBy, hmerged]
    · simp only [servedResult, hmerged]
  | ok c =>
    have hpatched : patchedBy srv r.force doc slot = some (found doc slot, (found doc slot).write (some c)) := by
      simp only [patchedBy, hmerged]
    rw [told_patched hpatched]
    simp only [servedResult, hmerged]
    cases hlost : doc.2.lost with
    | some err => simp
    | none =>
      simp only [Except.ok.injEq, forall_eq', reading, true_and]
      cases hget : unlessUnnamed (objectName doc.1) doc.2.getError with
      | some err =>
        cases err with
        | other err => exact told_configured
        | status kind message => cases kind <;> first | exact told_created | exact told_configured
      | none =>
        cases hread : (slot.writes doc.2.before).content with
        | none => exact told_created
        | some before =>
          dsimp only
          rw [if_neg (Option.some_ne_none before), applyAction_present, found]
          by_cases hrevision : (slot.writes doc.2.before).revision =
              (((slot.writes doc.2.before).writes doc.2.between).write (some c)).revision
          · have hsame := revision_left.mp hrevision
            rw [if_pos hrevision, told_unchanged]
            simp [hsame]
          · have hdiff := mt revision_left.mpr hrevision
            rw [if_neg hrevision, told_configured]
            exact and_congr_right' ⟨fun hne hc ↦ absurd hc hne, fun himp hc ↦ hdiff ⟨hc, himp hc⟩⟩

theorem applyTurn_told : (r.applyTurn w lib srv i doc).1.Told ↔
    (¬r.late w doc → ∀ key, target doc = some key → Foretold srv r.force doc (w.slots key)) := by
  by_cases hlate : r.late w doc
  · obtain ⟨ns, err, heq, -⟩ := applyTurn_late hlate
    rw [heq]
    exact iff_of_true (told_unpatched rfl rfl) (fun h ↦ absurd hlate h)
  · unfold target
    cases hm : doc.2.mapping with
    | none =>
      obtain ⟨err, -, heq⟩ := applyTurn_unmapped hlate hm
      rw [heq]
      exact iff_of_true (told_unpatched rfl rfl) (fun _ key hkey ↦ by cases hkey)
    | some mapping =>
      rw [applyTurn_served hlate hm, told_iff]
      constructor
      · rintro h - key ⟨⟩
        exact h
      · exact fun h ↦ h hlate _ rfl

/-- A turn changes what there is under the document's own key, if its time is not up. -/
theorem applyTurn_slots (key : ObjectKey) : (r.applyTurn w lib srv i doc).2.slots key =
    if ¬r.late w doc ∧ target doc = some key then left srv r.force doc (w.slots key) else w.slots key := by
  by_cases hlate : r.late w doc
  · obtain ⟨ns, err, heq, -⟩ := applyTurn_late hlate
    rw [heq, if_neg (fun h ↦ h.1 hlate)]
  · unfold target
    cases hm : doc.2.mapping with
    | none =>
      obtain ⟨err, -, heq⟩ := applyTurn_unmapped hlate hm
      rw [heq, if_neg (fun h ↦ by cases h.2)]
    | some mapping =>
      rw [applyTurn_served hlate hm]
      dsimp only
      rw [Function.update_apply]
      by_cases hkey : key = keyOf doc.1 mapping
      · rw [if_pos hkey, if_pos ⟨hlate, congrArg some hkey.symm⟩, hkey]
      · rw [if_neg hkey, if_neg (fun h ↦ hkey (Option.some.inj h.2).symm)]

/-- What becomes of a document depends on its own object and on whether its time is up. -/
theorem applyTurn_congr (hlate : r.late w doc ↔ r.late w' doc)
    (hslots : ∀ key, target doc = some key → w.slots key = w'.slots key) :
    (r.applyTurn w lib srv i doc).1 = (r.applyTurn w' lib srv i doc).1 := by
  by_cases h : r.late w doc
  · obtain ⟨ns, err, heq, hwhy⟩ := applyTurn_late h
    obtain ⟨ns', err', heq', hwhy'⟩ := applyTurn_late (hlate.mp h)
    rw [heq, heq']
    obtain ⟨mapping, hok, rfl, rfl⟩ | ⟨⟨e, herr⟩, rfl, rfl⟩ := hwhy
    · obtain ⟨mapping', hok', rfl, rfl⟩ | ⟨⟨e', herr'⟩, -, -⟩ := hwhy'
      · cases hok.symm.trans hok'
        rfl
      · cases hok.symm.trans herr'
    · obtain ⟨mapping', hok', -, -⟩ | ⟨-, rfl, rfl⟩ := hwhy'
      · cases herr.symm.trans hok'
      · rfl
  · have h' := mt hlate.mpr h
    cases hm : doc.2.mapping with
    | some mapping =>
      rw [applyTurn_served h hm, applyTurn_served h' hm, hslots (keyOf doc.1 mapping) (by rw [target, hm]; rfl)]
    | none =>
      obtain ⟨err, herr, heq⟩ := applyTurn_unmapped h hm
      obtain ⟨err', herr', heq'⟩ := applyTurn_unmapped h' hm
      cases herr.symm.trans herr'
      rw [heq, heq']

/-- It shows whether its time is up. -/
theorem applyTurn_ne (h : r.late w doc) (h' : ¬r.late w' doc) :
    (r.applyTurn w lib srv i doc).1 ≠ (r.applyTurn w' lib srv i doc).1 := by
  intro heq
  obtain ⟨ns, err, hout, hwhy⟩ := applyTurn_late h
  rw [hout] at heq
  cases hm : doc.2.mapping with
  | some mapping =>
    rw [applyTurn_served h' hm] at heq
    have hsent := congrArg Outcome.sent heq
    cases hsent
  | none =>
    obtain ⟨e, -, hout'⟩ := applyTurn_unmapped h' hm
    rw [hout'] at heq
    obtain ⟨mapping, hok, -, -⟩ | ⟨-, -, rfl⟩ := hwhy
    · unfold Turn.mapping at hm
      rw [hok] at hm
      cases hm
    · have herror := congrArg (fun o ↦ o.result.error.toList.head?) heq
      simp [String.join] at herror

end Turn

/-! The time that waits take. -/

section Waits

variable {r : Request C} {i j n : ℕ} {docs : List (Doc C)} {d e x : Doc C}

theorem waited_retries_le (t : Turn C) : waited t.retries ≤ waited 2 := by
  unfold Turn.retries
  split <;> decide

theorem totalWait_append : totalWait (docs ++ [d]) = totalWait docs + waited d.2.retries := by
  induction docs with
  | nil => exact Nat.add_comm _ _
  | cons e docs ih => rw [List.cons_append, totalWait, ih, totalWait, Nat.add_assoc]

theorem totalWait_eraseIdx (hj : docs[j]? = some e) :
    totalWait docs = totalWait (docs.eraseIdx j) + waited e.2.retries := by
  induction docs generalizing j with
  | nil => cases hj
  | cons d docs ih =>
    cases j with
    | zero =>
      cases hj
      exact Nat.add_comm _ _
    | succ j => rw [totalWait, ih hj, List.eraseIdx_cons_succ, totalWait, Nat.add_assoc]

theorem totalWait_take (hj : docs[j]? = some e) (h : j < n) :
    totalWait (docs.take n) = totalWait ((docs.take n).eraseIdx j) + waited e.2.retries :=
  totalWait_eraseIdx (by rw [List.getElem?_take_of_lt h, hj])

theorem totalWait_take_set (hj : docs[j]? = some e) (h : j < n) :
    totalWait ((docs.set j x).take n) = totalWait ((docs.take n).eraseIdx j) + waited x.2.retries := by
  have hset : (docs.set j x)[j]? = some x := by
    rw [List.getElem?_set_self']
    simp [hj]
  rw [totalWait_take hset h, List.take_set, List.eraseIdx_set_eq]

theorem Request.Unhurried.late_set (h : r.Unhurried) (hd : r.docs[i]? = some d) (hj : r.docs[j]? = some e) (hij : i ≠ j)
    (hapart : Apart d e) : r.deadline ≤ totalWait ((r.docs.set j x).take (i + 1)) ↔
      r.deadline ≤ totalWait (r.docs.take (i + 1)) := by
  obtain hlt | hlt := Nat.lt_or_gt_of_ne hij
  · rw [List.take_set, List.set_eq_of_length_le]
    exact (List.length_take_le _ _).trans hlt
  · have hwait := waited_retries_le e.2
    have hwait' := waited_retries_le x.2
    have hji : j < i + 1 := Nat.lt_succ_of_lt hlt
    rw [totalWait_take_set hj hji, totalWait_take hj hji]
    obtain hup | hleft := h i j d e hlt hd hj hapart
    · omega
    · omega

/-- A turn in which the mapping is there at once, and is not that of the document. -/
theorem exists_prompt_turn (d : Doc C) : ∃ t : Turn C, t.retries = 0 ∧ ∀ obj, Apart d (obj, t) := by
  let prompt (group : String) : Turn C := { restMapping := fun _ ↦ .ok ⟨⟨group, "", ""⟩, false⟩ }
  have htarget : ∀ group obj, target (obj, prompt group) = some (keyOf obj ⟨⟨group, "", ""⟩, false⟩) := fun _ _ ↦ rfl
  by_cases h : ∃ key, target d = some key ∧ key.gvr.group = "a"
  · obtain ⟨key, hkey, hgroup⟩ := h
    refine ⟨prompt "b", rfl, fun obj key' hkey' heq ↦ ?_⟩
    cases hkey.symm.trans hkey'
    cases heq
    have hgroup : "b" = "a" := hgroup
    exact absurd hgroup (by decide)
  · refine ⟨prompt "a", rfl, fun obj key hkey heq ↦ h ⟨key, hkey, ?_⟩⟩
    cases heq
    rfl

end Waits

/-! The loop. -/

section Loop

variable [DecidableEq C] {lib : Library} {srv : Server C} {r : Request C} {i j n : ℕ} {w : World C}
  {docs : List (Doc C)} {d e x : Doc C} {key : ObjectKey}

theorem getElem?_applyEach (k : ℕ) : (r.applyEach lib srv i w docs)[k]? =
    docs[k]?.map (fun d ↦ (r.applyTurn (r.worldAfter lib srv i w (docs.take k)) lib srv (i + k) d).1) := by
  induction docs generalizing i w k with
  | nil => rfl
  | cons d docs ih =>
    cases k with
    | zero => rfl
    | succ k =>
      rw [Request.applyEach, List.getElem?_cons_succ, ih, Nat.add_right_comm]
      rfl

theorem worldAfter_concat : r.worldAfter lib srv i w (docs ++ [d]) =
    (r.applyTurn (r.worldAfter lib srv i w docs) lib srv (i + docs.length) d).2 := by
  induction docs generalizing i w with
  | nil => rfl
  | cons e docs ih =>
    rw [List.cons_append, Request.worldAfter, ih, List.length_cons, Nat.add_right_comm]
    rfl

theorem clock_worldAfter (h : w.clock ≤ r.deadline) :
    (r.worldAfter lib srv i w docs).clock = min r.deadline (w.clock + totalWait docs) := by
  induction docs generalizing i w with
  | nil => exact (min_eq_right h).symm
  | cons d docs ih =>
    have hclock : (r.applyTurn w lib srv i d).2.clock =
        max w.clock (min r.deadline (w.clock + waited d.2.retries)) := rfl
    rw [Request.worldAfter, ih (by omega), hclock, totalWait]
    omega

omit [DecidableEq C] in
theorem take_succ_of_getElem? (hd : docs[n]? = some d) : docs.take (n + 1) = docs.take n ++ [d] := by
  rw [List.take_add_one, hd]
  rfl

/-- Whether the time is up for a document depends on the waits for it and the ones before it. -/
theorem late_iff (hd : docs[n]? = some d) :
    r.late (worldBefore r lib srv docs n) d ↔ r.deadline ≤ totalWait (docs.take (n + 1)) := by
  have hclock : (worldBefore r lib srv docs n).clock = min r.deadline (0 + totalWait (docs.take n)) :=
    clock_worldAfter (Nat.zero_le _)
  unfold Request.late
  rw [hclock, take_succ_of_getElem? hd, totalWait_append]
  omega

theorem slots_before_succ (hd : docs[n]? = some d) : (worldBefore r lib srv docs (n + 1)).slots key =
    if ¬r.deadline ≤ totalWait (docs.take (n + 1)) ∧ target d = some key then
      left srv r.force d ((worldBefore r lib srv docs n).slots key)
    else (worldBefore r lib srv docs n).slots key := by
  have hlate : r.late (worldBefore r lib srv docs n) d ↔ r.deadline ≤ totalWait (docs.take (n + 1)) := late_iff hd
  simp only [← hlate]
  rw [worldBefore, take_succ_of_getElem? hd, worldAfter_concat, applyTurn_slots]
  rfl

theorem before_of_length_le (h : docs[n]? = none) :
    worldBefore r lib srv docs (n + 1) = worldBefore r lib srv docs n := by
  have hle := List.getElem?_eq_none_iff.mp h
  rw [worldBefore, worldBefore, List.take_of_length_le hle, List.take_of_length_le (Nat.le_succ_of_le hle)]

/-- Under a key that two turns are not for there is the same after the one as after the other, if none of the documents
that the key is for runs out of time because of one of them. -/
theorem slots_before_set (hj : docs[j]? = some e) (he : target e ≠ some key) (hx : target x ≠ some key)
    (hlate : ∀ k d, k < n → k ≠ j → docs[k]? = some d → target d = some key →
      (r.deadline ≤ totalWait ((docs.set j x).take (k + 1)) ↔ r.deadline ≤ totalWait (docs.take (k + 1)))) :
    (worldBefore r lib srv (docs.set j x) n).slots key = (worldBefore r lib srv docs n).slots key := by
  induction n with
  | zero => rfl
  | succ n ih =>
    have ih := ih (fun k d hk ↦ hlate k d (Nat.lt_succ_of_lt hk))
    by_cases hn : n = j
    · have hset : (docs.set n x)[n]? = some x := by
        rw [hn, List.getElem?_set_self']
        simp [hj]
      subst hn
      rw [slots_before_succ hset, slots_before_succ hj, if_neg (fun h ↦ hx h.2), if_neg (fun h ↦ he h.2), ih]
    · have hset : (docs.set j x)[n]? = docs[n]? := List.getElem?_set_ne (Ne.symm hn)
      cases hd : docs[n]? with
      | none => rw [before_of_length_le (hset.trans hd), before_of_length_le hd, ih]
      | some d =>
        rw [slots_before_succ (hset.trans hd), slots_before_succ hd, ih]
        by_cases hkey : target d = some key
        · simp only [hlate n d (Nat.lt_succ_self n) hn hd hkey]
        · rw [if_neg (fun h ↦ hkey h.2), if_neg (fun h ↦ hkey h.2)]

theorem getElem?_outcomes (hd : docs[n]? = some d) : (r.applyEach lib srv 0 ⟨r.cluster, 0⟩ docs)[n]? =
    some (r.applyTurn (worldBefore r lib srv docs n) lib srv n d).1 := by
  rw [getElem?_applyEach, hd, Nat.zero_add]
  rfl

theorem applyEach_withTurn (t : Turn C) (obj : Json) :
    (r.withTurn j obj t).applyEach lib srv i w docs = r.applyEach lib srv i w docs := by
  induction docs generalizing i w with
  | nil => rfl
  | cons d docs ih => exact congrArg _ ih

theorem getElem?_outcomes_withTurn {t : Turn C} {obj : Json} (hset : (r.docs.set j (obj, t))[i]? = some d) :
    ((r.withTurn j obj t).outcomes lib srv)[i]? =
      some (r.applyTurn (worldBefore r lib srv (r.docs.set j (obj, t)) i) lib srv i d).1 := by
  rw [Request.outcomes, applyEach_withTurn]
  exact getElem?_outcomes hset

theorem length_applyEach : (r.applyEach lib srv i w docs).length = docs.length := by
  induction docs generalizing i w with
  | nil => rfl
  | cons d docs ih => rw [Request.applyEach, List.length_cons, ih, List.length_cons]

/-- No document's turn changes another's outcome exactly when the request is unhurried. -/
theorem apart_iff : (∀ i j d e t, i ≠ j → r.docs[i]? = some d → r.docs[j]? = some e → Apart d e → Apart d (e.1, t) →
    ((r.withTurn j e.1 t).outcomes lib srv)[i]? = (r.outcomes lib srv)[i]?) ↔ r.Unhurried := by
  constructor
  · intro h i j d e hji hd hj hapart
    by_contra! hhurried
    have hij : i ≠ j := Nat.ne_of_gt hji
    have hset : ∀ x, (r.docs.set j x)[i]? = some d := fun x ↦ by rw [List.getElem?_set_ne hij.symm, hd]
    have hwait : ∀ x, totalWait ((r.docs.set j x).take (i + 1)) =
        totalWait ((r.docs.take (i + 1)).eraseIdx j) + waited x.2.retries :=
      fun x ↦ totalWait_take_set hj (Nat.lt_succ_of_lt hji)
    -- With a mapping that is there at once there is time for the document, with one that never is there is not.
    obtain ⟨prompt, hprompt, hpromptApart⟩ := exists_prompt_turn d
    let missing : Turn C := { restMapping := fun _ ↦ .error "" }
    have hearly := h i j d e prompt hij hd hj hapart (hpromptApart e.1)
    have hlast := h i j d e missing hij hd hj hapart (fun key _ heq ↦ by cases heq)
    rw [← hlast, getElem?_outcomes_withTurn (hset _), getElem?_outcomes_withTurn (hset _)] at hearly
    refine applyTurn_ne ?_ ?_ (Option.some.inj hearly).symm
    · rw [late_iff (hset _), hwait]
      exact hhurried.2
    · rw [late_iff (hset _), hwait, hprompt]
      exact Nat.not_le.mpr hhurried.1
  · intro h i j d e t hij hd hj hapart hapart'
    have hset : (r.docs.set j (e.1, t))[i]? = some d := by rw [List.getElem?_set_ne hij.symm, hd]
    rw [getElem?_outcomes_withTurn hset, Request.outcomes, getElem?_outcomes hd]
    refine congrArg some (applyTurn_congr ?_ (fun key hkey ↦ ?_))
    · rw [late_iff hset, late_iff hd, h.late_set hd hj hij hapart]
    · refine slots_before_set hj (hapart key hkey) (hapart' key hkey) (fun k f hk hkj hf hfkey ↦ ?_)
      refine h.late_set hf hj hkj (fun key' hkey' ↦ ?_)
      cases hfkey.symm.trans hkey'
      exact hapart key hkey

theorem mem_outcomes {o : Outcome C} (ho : o ∈ r.outcomes lib srv) : ∃ i d, r.docs[i]? = some d ∧
    o = (r.applyTurn (worldBefore r lib srv r.docs i) lib srv i d).1 := by
  obtain ⟨i, hi⟩ := List.getElem?_of_mem ho
  rw [Request.outcomes, getElem?_applyEach] at hi
  obtain ⟨d, hd, rfl⟩ := Option.map_eq_some_iff.mp hi
  rw [Nat.zero_add]
  exact ⟨i, d, hd, rfl⟩

theorem told_iff_foreseen : (∀ o ∈ r.outcomes lib srv, o.Told) ↔ r.Foreseen lib srv := by
  have hclear : ∀ {i d}, r.docs[i]? = some d → ((r.applyTurn (worldBefore r lib srv r.docs i) lib srv i d).1.Told ↔
      (totalWait (r.docs.take (i + 1)) < r.deadline → ∀ key, target d = some key →
        Foretold srv r.force d ((worldBefore r lib srv r.docs i).slots key))) := by
    intro i d hd
    rw [applyTurn_told, late_iff hd, Nat.not_le]
  constructor
  · intro h i d hd
    refine (hclear hd).mp (h _ (List.mem_of_getElem? (i := i) ?_))
    exact getElem?_outcomes hd
  · intro h o ho
    obtain ⟨i, d, hd, rfl⟩ := mem_outcomes ho
    exact (hclear hd).mpr (h i d hd)

/-! The results as a list. -/

theorem applyTurn_result : (r.applyTurn w lib srv i d).1.result.index = i ∧
    (r.applyTurn w lib srv i d).1.result.kind = kindOf d.1 ∧
      (r.applyTurn w lib srv i d).1.result.name = objectName d.1 := by
  by_cases hlate : r.late w d
  · obtain ⟨ns, err, heq, -⟩ := applyTurn_late hlate
    rw [heq]
    exact ⟨rfl, rfl, rfl⟩
  · cases hm : d.2.mapping with
    | none =>
      obtain ⟨err, -, heq⟩ := applyTurn_unmapped hlate hm
      rw [heq]
      exact ⟨rfl, rfl, rfl⟩
    | some mapping =>
      rw [applyTurn_served hlate hm]
      unfold servedResult
      split <;> exact ⟨rfl, rfl, rfl⟩

/-- The words for what an apply did. -/
def actions : List String := ["created", "configured", "unchanged", "failed"]

theorem applyAction_mem (existing : Reply) (applied : Json) : applyAction existing applied ∈ actions := by
  unfold applyAction
  split
  · decide
  · decide
  · split <;> decide

theorem applyTurn_action : (r.applyTurn w lib srv i d).1.result.action ∈ actions := by
  have hfailed : "failed" ∈ actions := by decide
  by_cases hlate : r.late w d
  · obtain ⟨ns, err, heq, -⟩ := applyTurn_late hlate
    rw [heq]
    exact hfailed
  · cases hm : d.2.mapping with
    | none =>
      obtain ⟨err, -, heq⟩ := applyTurn_unmapped hlate hm
      rw [heq]
      exact hfailed
    | some mapping =>
      rw [applyTurn_served hlate hm]
      unfold servedResult
      split
      · exact hfailed
      · exact hfailed
      · exact applyAction_mem _ _

theorem applySummary_adds {results : List ApplyResult} (h : ∀ res ∈ results, res.action ∈ actions) :
    (applySummary results).created + (applySummary results).configured + (applySummary results).unchanged +
      (applySummary results).failed = results.length := by
  induction results with
  | nil => rfl
  | cons res results ih =>
    have ih := ih (fun res' hres ↦ h res' (List.mem_cons_of_mem _ hres))
    have hres := h res List.mem_cons_self
    simp only [applySummary, List.countP_cons, List.length_cons] at ih ⊢
    simp only [actions, List.mem_cons, List.not_mem_nil, or_false] at hres
    obtain haction | haction | haction | haction := hres <;> simp [haction] <;> omega

end Loop

/-- An object whose version is written in strokes. -/
def tallied (revision : ℕ) : Json :=
  .object [("metadata", .object [("resourceVersion", .string (String.ofList (List.replicate revision 'i')))])]

theorem resourceVersion_tallied (n : ℕ) : resourceVersion (tallied n) = String.ofList (List.replicate n 'i') := rfl

/-- A server that keeps nothing of an object but that it is there. -/
def bareServer : Server Unit where
  merge _ _ _ := .ok ()
  present revision _ := tallied revision
  versioned m n _ _ := by
    rw [resourceVersion_tallied, resourceVersion_tallied, String.ofList_inj, List.replicate_inj]
    simp
  missing := "not found"

/-- One document, for an object that is not there, by a user who may patch but not get. -/
def patchOnly : Request Unit where
  deadline := 60000
  cancelled := .other "context deadline exceeded"
  force := false
  cluster _ := ⟨0, none⟩
  docs := [(namedDoc, { restMapping := fun _ ↦ .ok ⟨⟨"", "v1", "configmaps"⟩, true⟩
                        getError := some (.status .forbidden "forbidden") })]

end KubeCenter.Yaml
