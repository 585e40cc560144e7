import KubeCenter.Resources.Crud

/-! YAML bodies: what is refused, the documents in them, and an object made ready to be applied again. -/

namespace KubeCenter.Yaml

open KubeCenter.Core KubeCenter.Resources

structure GVK where
  group : String
  version : String
  kind : String
  deriving DecidableEq

structure Mapping where
  resource : GVR
  namespaced : Bool

/-- What the handlers use of the libraries. `documents` are the documents a stream decodes to, with the error that ends
it if one does; `restMapping` and `discovery` is what the API server tells of its resources, the first at a given
attempt; `fold` takes the runes that fold to one another to one of them. -/
structure Library where
  documents : Bytes → List Json × Option String
  notAMap : Json → String
  ratioText : ℕ → ℕ → String
  lowerBytes : Bytes → Bytes
  restMapping : GVK → ℕ → Except String Mapping
  discovery : Except String (List (String × List String))
  marshalYAML : Json → Except String String
  toLower : Char → Char
  fold : Char → Char

variable (lib : Library)

def Library.equalFold (s t : String) : Bool := decide (s.toList.map lib.fold = t.toList.map lib.fold)

def Library.lower (s : String) : String := String.ofList (s.toList.map lib.toLower)

/-! Security. -/

def maxBodySize : ℕ := 2097152

def maxDocumentCount : ℕ := 100

def maxExpansionRatio : ℕ := 100

def unsafeTags : List String := ["!!python/", "!!ruby/", "!!perl/", "!!java/", "!!js/", "!!php/", "!!bash/"]

def rejectUnsafeTags (data : Bytes) : Option String :=
  (unsafeTags.find? (fun tag ↦ decide (utf8 tag.toList <:+: lib.lowerBytes data))).map
    ("unsafe YAML tag detected: " ++ ·)

def checkSecurity (data : Bytes) : Option String :=
  if data = [] then some "empty YAML body"
  else if maxBodySize < data.length then some "YAML body exceeds maximum size of 2097152 bytes"
  else rejectUnsafeTags lib data

def checkExpansionRatio (inputSize outputSize : ℕ) : Option String :=
  if inputSize = 0 then none
  else if maxExpansionRatio * inputSize < outputSize then
    some (String.join ["suspicious expansion ratio ", lib.ratioText inputSize outputSize,
      "x detected (max 100x), possible YAML bomb"])
  else none

/-! Documents. -/

def kindOf (obj : Json) : String := obj.nestedString ["kind"]

def validateRequiredFields (obj : Json) (docIndex : ℕ) : Option String :=
  if obj.nestedString ["apiVersion"] = "" then some (String.join ["document ", toString docIndex, ": apiVersion is required"])
  else if kindOf obj = "" then some (String.join ["document ", toString docIndex, ": kind is required"])
  else if objectName obj = "" ∧ obj.nestedString ["metadata", "generateName"] = "" then
    some (String.join ["document ", toString docIndex, ": metadata.name is required"])
  else none

/-- The loop of `ParseMultiDoc`, with the objects it has so far. -/
def collectDocs (err : Option String) : List Json → List Json → Except String (List Json)
  | objects, [] =>
    match err with
    | some err => .error (String.join ["decoding YAML document ", toString (objects.length + 1), ": ", err])
    | none => .ok objects
  | objects, raw :: rest =>
    match raw with
    | .null | .object [] => collectDocs err objects rest
    | .object (f :: fields) =>
      match validateRequiredFields (.object (f :: fields)) (objects.length + 1) with
      | some err => .error err
      | none =>
        if maxDocumentCount ≤ objects.length + 1 then .error "too many documents: maximum is 100"
        else collectDocs err (objects ++ [.object (f :: fields)]) rest
    | raw => .error (String.join ["parsing document ", toString (objects.length + 1), ": ", lib.notAMap raw])

def parseMultiDoc (data : Bytes) : Except String (List Json) :=
  match collectDocs lib (lib.documents data).2 [] (lib.documents data).1 with
  | .error err => .error err
  | .ok [] => .error "no valid Kubernetes documents found in YAML"
  | .ok objects =>
    let outputSize := objects.foldl (fun size obj ↦ size + (utf8 obj.encode).length) 0
    (checkExpansionRatio lib data.length outputSize).elim (.ok objects) .error

/-- `schema.ParseGroupVersion`. -/
def parseGroupVersion (gv : String) : Option (String × String) :=
  if gv = "" ∨ gv = "/" then some ("", "")
  else match cut '/' gv.toList with
    | none => some ("", gv)
    | some (group, version) => if '/' ∈ version then none else some (String.ofList group, String.ofList version)

def gvkOf (obj : Json) : GVK :=
  match parseGroupVersion (obj.nestedString ["apiVersion"]) with
  | some (group, version) => ⟨group, version, kindOf obj⟩
  | none => ⟨"", "", ""⟩

def GVK.text (gvk : GVK) : String := String.join [gvk.group, "/", gvk.version, ", Kind=", gvk.kind]

/-! Export. -/

def serverManaged : List String :=
  ["uid", "resourceVersion", "generation", "creationTimestamp", "deletionTimestamp", "deletionGracePeriodSeconds",
    "selfLink", "managedFields", "ownerReferences"]

def noisyAnnotations : List String := [annotationLastAppliedConfig, "deployment.kubernetes.io/revision"]

/-- Annotations that are not all texts are left as they are. -/
def cleanAnnotations (metadata : Fields) : Fields :=
  match metadata.get "annotations" with
  | some (.object annotations) =>
    if (annotations.mapM Json.stringField).isNone then metadata
    else setMap "annotations" (annotations.filter (fun f ↦ f.1 ∉ noisyAnnotations)) (metadata.erase "annotations")
  | _ => metadata

def cleanForExport (obj : Json) : Json :=
  match obj.fields.get "metadata" with
  | some (.object metadata) =>
    .object ((obj.fields.erase "status").set "metadata"
      (.object (cleanAnnotations (metadata.filter (fun f ↦ f.1 ∉ serverManaged)))))
  | _ => .object (obj.fields.erase "status")

def exportToYAML (obj : Json) : Except String String := lib.marshalYAML (cleanForExport obj)

end KubeCenter.Yaml

/-! The YAML handlers: validate, apply, diff and export. -/

namespace KubeCenter.Yaml

open KubeCenter.Core KubeCenter.Resources KubeCenter.K8s

structure ApplyResult where
  index : ℕ
  kind : String
  name : String
  ns : String
  action : String := ""
  error : String := ""

structure ApplyResponse where
  results : List ApplyResult
  total : ℕ
  created : ℕ
  configured : ℕ
  unchanged : ℕ
  failed : ℕ

structure DiffDocument where
  index : ℕ
  kind : String
  name : String
  ns : String
  isNew : Bool := false
  current : String := ""
  proposed : String := ""
  error : String := ""

/-- A document as `HandleValidate` answers it; its errors are one or none. -/
structure DocResult where
  index : ℕ
  kind : String
  name : String
  ns : String
  valid : Bool
  errors : List String

inductive Answer
  | refused (response : Response)
  | validated (documents : List DocResult) (valid : Bool)
  | applied (response : ApplyResponse)
  | diffed (documents : List DiffDocument)
  | exported (yaml : String)

abbrev Script (α : Type) := Core.Script ClientCall Reply α

/-- `err.Error()`. -/
def errorText : CallError → String
  | .status _ message => message
  | .other err => err

def resourceVersion (obj : Json) : String := obj.nestedString ["metadata", "resourceVersion"]

variable (lib : Library)

/-- The namespace a document goes to: as for kubectl, `default` when it names none. -/
def namespaceFor (mapping : Mapping) (obj : Json) : String :=
  if mapping.namespaced then (if objectNamespace obj = "" then "default" else objectNamespace obj) else objectNamespace obj

/-- The namespace of the calls. -/
def scopeFor (mapping : Mapping) (obj : Json) : String := if mapping.namespaced then namespaceFor mapping obj else ""

/-! Apply. -/

/-- The mapping of a kind, which an apply tries for three times. `ctxDone` tells whether the context ends in a wait. -/
def mappingFor (ctxDone : ℕ → Bool) (gvk : GVK) : Except String Mapping :=
  match lib.restMapping gvk 0 with
  | .ok mapping => .ok mapping
  | .error _ =>
    if ctxDone 0 then .error ("context cancelled waiting for CRD " ++ gvk.text)
    else match lib.restMapping gvk 1 with
      | .ok mapping => .ok mapping
      | .error _ =>
        if ctxDone 1 then .error ("context cancelled waiting for CRD " ++ gvk.text)
        else (lib.restMapping gvk 2).mapError (fun err ↦ String.join ["unknown resource type ", gvk.text, ": ", err])

def applyError : CallError → String
  | .status .conflict message => String.join ["field ownership conflict: ", message, ". Use force to override."]
  | .status .forbidden message => "permission denied: " ++ message
  | err => errorText err

/-- The word for what an apply did, from the object before and the one after. -/
def applyAction (existing : Reply) (applied : Json) : String :=
  match existing with
  | .error (.status .notFound _) => "created"
  | .error _ => "configured"
  | .ok existing => if resourceVersion existing = resourceVersion applied then "unchanged" else "configured"

def applyOne (ctxDone : ℕ → Bool) (force : Bool) (index : ℕ) (obj : Json) : Script ApplyResult :=
  let result : ApplyResult := { index, kind := kindOf obj, name := objectName obj, ns := objectNamespace obj }
  match mappingFor lib ctxDone (gvkOf obj) with
  | .error err => .done { result with action := "failed", error := err }
  | .ok mapping =>
    let result := { result with ns := namespaceFor mapping obj }
    .call (.get mapping.resource (scopeFor mapping obj) (objectName obj)) fun existing ↦
      .call (.apply mapping.resource (scopeFor mapping obj) (objectName obj) obj force false) fun
        | .error err => .done { result with action := "failed", error := applyError err }
        | .ok applied => .done { result with action := applyAction existing applied }

/-- The documents one after the other, each with its index. -/
def forEachDoc {α : Type} (f : ℕ → Json → Script α) : ℕ → List Json → Script (List α)
  | _, [] => .done []
  | i, obj :: docs => (f i obj).bind (fun a ↦ (forEachDoc f (i + 1) docs).map (a :: ·))

def applySummary (results : List ApplyResult) : ApplyResponse where
  results := results
  total := results.length
  created := results.countP (fun r ↦ decide (r.action = "created"))
  configured := results.countP (fun r ↦ decide (r.action = "configured"))
  unchanged := results.countP (fun r ↦ decide (r.action = "unchanged"))
  failed := results.countP (fun r ↦ decide (r.action = "failed"))

def applyDocuments (ctxDone : ℕ → ℕ → Bool) (force : Bool) (docs : List Json) : Script ApplyResponse :=
  (forEachDoc (fun i obj ↦ applyOne lib (ctxDone i) force i obj) 0 docs).map applySummary

/-! Diff. -/

/-- The two sides of a diff, from the object there is and what the dry run makes of it. -/
def serialized (doc : DiffDocument) (current : Option Json) (proposed : Json) : DiffDocument :=
  match current.mapM (exportToYAML lib) with
  | .error err => { doc with error := "serializing current state: " ++ err }
  | .ok text =>
    let doc := { doc with current := text.getD "" }
    match exportToYAML lib proposed with
    | .error err => { doc with error := "serializing proposed state: " ++ err }
    | .ok text => { doc with proposed := text }

/-- The document with what a dry run makes of it, once it is known what there is. -/
def dryRunApply (mapping : Mapping) (obj : Json) (doc : DiffDocument) (current : Option Json) : Script DiffDocument :=
  .call (.apply mapping.resource (scopeFor mapping obj) (objectName obj) obj false true) fun
    | .error err => .done { doc with error := "dry-run apply failed: " ++ errorText err }
    | .ok proposed => .done (serialized lib doc current proposed)

def diffOne (index : ℕ) (obj : Json) : Script DiffDocument :=
  let doc : DiffDocument := { index, kind := kindOf obj, name := objectName obj, ns := objectNamespace obj }
  match lib.restMapping (gvkOf obj) 0 with
  | .error err => .done { doc with error := String.join ["unknown resource type ", (gvkOf obj).text, ": ", err] }
  | .ok mapping =>
    let doc := { doc with ns := namespaceFor mapping obj }
    .call (.get mapping.resource (scopeFor mapping obj) (objectName obj)) fun
      | .error (.status .notFound _) => dryRunApply lib mapping obj { doc with isNew := true } none
      | .error err => .done { doc with error := "failed to get current state: " ++ errorText err }
      | .ok current => dryRunApply lib mapping obj doc (some current)

def diffDocuments (docs : List Json) : Script (List DiffDocument) := forEachDoc (diffOne lib) 0 docs

def docResult (i : ℕ) (obj : Json) (error : String) : DocResult where
  index := i
  kind := kindOf obj
  name := objectName obj
  ns := objectNamespace obj
  valid := decide (error = "")
  errors := if error = "" then [] else [error]

/-- Of a dry run, `HandleValidate` passes on the error alone. -/
def validateOne (i : ℕ) (obj : Json) : Script DocResult := (diffOne lib 0 obj).map (fun doc ↦ docResult i obj doc.error)

/-! The handlers, each up to its client. -/

/-- What the body holds, or the refusal. `body` is an error where it cannot be read. -/
def readYAMLBody (body : Except String Bytes) : Except Response Bytes :=
  match body with
  | .error err => .error (writeError 400 "failed to read request body" err)
  | .ok data =>
    if maxBodySize < data.length then .error (writeError 413 "request body exceeds maximum size of 2097152 bytes" "")
    else match checkSecurity lib data with
      | some err => .error (writeError 400 err "")
      | none => .ok data

def readDocs (body : Except String Bytes) : Except Response (List Json) := do
  let data ← readYAMLBody lib body
  match parseMultiDoc lib data with
  | .error err => .error (writeError 400 ("invalid YAML: " ++ err) "")
  | .ok docs => pure docs

/-- Remote clusters are not served; `what` is for the message. -/
def requireLocal (c what : String) : Except Response Unit :=
  if normalizedClusterID c = localClusterID then .ok ()
  else .error (writeError 501 (String.join ["YAML ", what, " is not yet supported on remote clusters"])
    "Connect to that cluster directly to use this feature")

variable (env : Env) (c : String)

/-- A request that has come as far as its client: what is left to do, and whether the cluster must be the local one. -/
structure Ask where
  what : String
  script : Script Answer

def handleValidate (body : Except String Bytes) : Except Response Ask := do
  let _ ← requireUser env
  let docs ← readDocs lib body
  pure { what := "validate"
         script := (forEachDoc (validateOne lib) 0 docs).map (fun documents ↦
          .validated documents (documents.all DocResult.valid)) }

def handleApply (body : Except String Bytes) (force : Bool) (ctxDone : ℕ → ℕ → Bool) : Except Response Ask := do
  let _ ← requireUser env
  let docs ← readDocs lib body
  pure { what := "apply", script := (applyDocuments lib ctxDone force docs).map .applied }

def isSecretKind (obj : Json) : Bool := lib.equalFold (kindOf obj) "Secret"

def handleDiff (body : Except String Bytes) : Except Response Ask := do
  let _ ← requireUser env
  let docs ← readDocs lib body
  if docs.any (isSecretKind lib) then
    .error (writeError 422 ("Secrets cannot be diffed via YAML to prevent accidental data exposure. " ++
      "Use the Secrets management interface.") "")
  else pure { what := "diff", script := (diffDocuments lib docs).map .diffed }

def nameChar (c : Char) : Bool := 'a' ≤ c && c ≤ 'z' || '0' ≤ c && c ≤ '9'

/-- `ValidateK8sName`, with the regular expression spelled out. -/
def validateK8sName (s : String) : Bool :=
  match s.toList with
  | [] => true
  | c :: cs =>
    decide (cs.length ≤ 252) && nameChar c && cs.all (fun c ↦ nameChar c || c = '.' || c = '-') &&
      cs.getLast?.all nameChar

def resolveGVR (kind : String) : Except String GVR :=
  match lib.discovery with
  | .error err => .error ("discovering API resources: " ++ err)
  | .ok lists =>
    let found := lists.findSome? (fun (gv, names) ↦ (parseGroupVersion gv).bind (fun (group, version) ↦
      (names.find? (fun name ↦ lib.equalFold name (lib.lower kind))).map (fun name ↦ ⟨group, version, name⟩)))
    match found with
    | some gvr => .ok gvr
    | none => .error (String.join ["resource \"", lib.lower kind, "\" not found in API server"])

def exportError (kind name : String) : CallError → Response
  | .status .notFound _ => writeError 404 (String.join [kind, " '", name, "' not found"]) ""
  | .status .forbidden _ => writeError 403 (String.join ["permission denied for ", kind, " '", name, "'"]) ""
  | err => writeError 500 (String.join ["failed to get ", kind, " '", name, "'"]) (errorText err)

def exportScript (kind ns name : String) : Script Answer :=
  match resolveGVR lib kind with
  | .error err => .done (.refused (writeError 400 ("unknown resource kind: " ++ kind) err))
  | .ok gvr => .call (.get gvr ns name) fun
    | .error err => .done (.refused (exportError kind name err))
    | .ok obj => match exportToYAML lib obj with
      | .error err => .done (.refused (writeError 500 "failed to export YAML" err))
      | .ok yaml => .done (.exported yaml)

/-- The namespace `_` stands for none. -/
def handleExport (kind ns name : String) : Except Response Ask := do
  let _ ← requireUser env
  if kind = "" ∨ name = "" then .error (writeError 400 "kind and name are required" "")
  else if validateK8sName name = false then .error (writeError 400 ("invalid resource name: " ++ name) "")
  else if ns ≠ "_" ∧ validateK8sName ns = false then .error (writeError 400 ("invalid namespace: " ++ ns) "")
  else if lib.equalFold kind "secrets" = true ∨ lib.equalFold kind "secret" = true then
    .error (writeError 422 ("Secrets cannot be exported via YAML to prevent accidental data loss. " ++
      "Use the Secrets management interface with audit-logged reveal.") "")
  else pure { what := "export", script := exportScript lib kind (if ns = "_" then "" else ns) name }

end KubeCenter.Yaml
