import KubeCenter.Auth.Session
import KubeCenter.Core.GoString
import KubeCenter.Core.Http
import KubeCenter.Monitoring.PromQL
import KubeCenter.Monitoring.QueryRegistry
import KubeCenter.Resources.Access

/-! Slug queries: the checks of a request, the permission it needs and the text that is sent. -/

namespace KubeCenter.Monitoring

open KubeCenter.Core Auth Resources
open Loki (Engine isRegexMetaChar)

def k8sNameChar (c : Char) : Bool := 'a' ≤ c && c ≤ 'z' || '0' ≤ c && c ≤ '9' || c = '-' || c = '.'

def instanceLabelChar (c : Char) : Bool :=
  'a' ≤ c && c ≤ 'z' || 'A' ≤ c && c ≤ 'Z' || '0' ≤ c && c ≤ '9' || c = '.' || c = '-' || c = '_' || c = ':'

def isValidK8sName (s : Text) : Bool := s ≠ [] && (utf8 s).length ≤ 253 && s.all k8sNameChar

def isValidInstanceLabel (s : Text) : Bool := s ≠ [] && (utf8 s).length ≤ 253 && s.all instanceLabelChar

def promQLRegexMetas : Text := "\\.+*?()[]\x7b\x7d^$|".toList

def escapePromQLRegex (s : Text) : Text := s.flatMap (fun c ↦ if c ∈ promQLRegexMetas then ['\\', c] else [c])

/-- The fields of `slugTemplateVars`. -/
inductive Var
  | ns
  | name
  | nsRegex
  | nameRegex
  deriving DecidableEq

/-- The parameter that a field is made of. -/
def Var.raw (ns name : Text) : Var → Text
  | .ns | .nsRegex => ns
  | .name | .nameRegex => name

def Var.isRegex : Var → Bool
  | .ns | .name => false
  | .nsRegex | .nameRegex => true

def Var.value (ns name : Text) (v : Var) : Text :=
  if v.isRegex then escapePromQLRegex (v.raw ns name) else v.raw ns name

/-- A character of a template, or a field to be put in. -/
abbrev Sym := Char ⊕ Var

def fieldVar (field : Text) : Option Var :=
  if field = ".Namespace".toList then some .ns
  else if field = ".Name".toList then some .name
  else if field = ".NamespaceRegex".toList then some .nsRegex
  else if field = ".NameRegex".toList then some .nameRegex
  else none

/-- `text/template`'s reading of a template whose actions are fields; `action` is what has been read of one. -/
def parseTemplate (action : Option Text) : Text → Option (List Sym)
  | [] => if action.isSome then none else some []
  | c :: s =>
    match action with
    | none =>
      match c, s with
      | '\x7b', '\x7b' :: s => parseTemplate (some []) s
      | c, s => (parseTemplate none s).map (.inl c :: ·)
    | some field =>
      match c, s with
      | '\x7d', '\x7d' :: s => (fieldVar field).bind (fun v ↦ (parseTemplate none s).map (.inr v :: ·))
      | c, s => parseTemplate (some (field ++ [c])) s

def render (value : Var → Text) (syms : List Sym) : Text := syms.flatMap (Sum.elim (fun c ↦ [c]) value)

def renderSlugTemplate (template : String) (ns name : Text) : Option Text :=
  (parseTemplate none template.toList).map (render (Var.value ns name))

/-- A required resource without and with its group: `resource` or `resource.group`. -/
def splitGVR (gvr : String) : String × String :=
  match cut '.' gvr.toList with
  | some (resource, group) => (String.ofList resource, String.ofList group)
  | none => (gvr, "")

/-- The namespace that the permission is asked for, empty for all of the cluster. -/
def rbacNamespace (d : QueryDef) (ns name : Text) : Text :=
  if d.requiredGVR ∈ clusterScopedGVRs then []
  else if hasPrefix "namespaces/" d.slug then name else ns

def validName (d : QueryDef) (name : Text) : Bool :=
  isValidK8sName name || ((d.requiredGVR = "nodes" || hasPrefix "nodes/" d.slug) && isValidInstanceLabel name)

section Handler

variable (authorizer : Review → Except Failure Bool) (clock : Clock) (clusterID : String)

/-- The loop over the verbs; every answer may come from the checker's cache and go into it. -/
def checkVerbs (user : User) (apiGroup resource rbacNS : String) :
    AccessChecker → List String → Except APIError Unit
  | _, [] => .ok ()
  | ac, verb :: verbs =>
    match ac.canAccessGroupResource authorizer clock clusterID user.kubernetesUsername user.kubernetesGroups
        verb apiGroup resource rbacNS with
    | (.error _, _) => .error ⟨500, "RBAC check failed"⟩
    | (.ok false, _) => .error ⟨404, "not found or forbidden"⟩
    | (.ok true, ac) => checkVerbs user apiGroup resource rbacNS ac verbs

/-- The permission for a query in a namespace, or in all of the cluster. -/
def checkScope (checker : Option AccessChecker) (user : Option User) (d : QueryDef) (scope : Text) :
    Except APIError Unit :=
  match checker with
  | none => .ok ()
  | some checker =>
    if d.requiredGVR = "" then .ok ()
    else match user with
      | none => .error ⟨401, "authentication required"⟩
      | some user => checkVerbs authorizer clock clusterID user (splitGVR d.requiredGVR).2 (splitGVR d.requiredGVR).1
          (String.ofList scope) checker d.requiredVerbs

def queryDef (slug : String) : Option QueryDef := registry.find? (fun d ↦ d.slug = slug)

/-- `HandleSlugQuery` as far as the PromQL text that it sends. -/
def handleSlugQuery (prometheus : Bool) (checker : Option AccessChecker) (user : Option User) (rawSlug : String)
    (ns name : Text) : Except APIError Text :=
  if !prometheus then .error ⟨503, "Prometheus is not available"⟩
  else if rawSlug = "" then .error ⟨404, "slug is required"⟩
  else match queryDef rawSlug with
    | none => .error ⟨404, "not found or forbidden"⟩
    | some d =>
      if ns ≠ [] ∧ isValidK8sName ns = false then .error ⟨400, "invalid namespace value"⟩
      else if name ≠ [] ∧ validName d name = false then .error ⟨400, "invalid name value"⟩
      else match checkScope authorizer clock clusterID checker user d (rbacNamespace d ns name) with
        | .error err => .error err
        | .ok () =>
          match renderSlugTemplate d.template ns name with
          | none => .error ⟨500, "template render failed"⟩
          | some rendered => .ok rendered

end Handler

end KubeCenter.Monitoring
