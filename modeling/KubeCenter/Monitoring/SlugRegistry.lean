import KubeCenter.Monitoring.SlugFidelity

/-! Slug queries mean what was authorized exactly if no escaped value has a dot. -/

namespace KubeCenter.Monitoring

open KubeCenter.Core Auth Resources
open Loki (Engine isRegexMetaChar)

theorem checkText_template {d : QueryDef} {text : Text} (htext : d.template = String.ofList text)
    (h : d.checkText text = true) : d.checkText d.template.toList = true := by
  rw [htext, String.toList_ofList]
  exact h

set_option maxRecDepth 4000 in
theorem registry_checkText : ∀ d ∈ registry, d.checkText d.template.toList = true := by
  simp only [registry]
  -- each definition is evaluated on its own: together they do not fit the kernel's memory well
  repeat' first
    | exact List.forall_mem_nil _
    | refine List.forall_mem_cons.mpr ⟨checkText_template (by rfl) ?_, ?_⟩
  all_goals decide +kernel

theorem checkText_spec {d : QueryDef} {text : Text} (h : d.checkText text = true) :
    ∃ syms template, parseTemplate none text = some syms ∧ lexSyms none syms = some template ∧
      d.WellFormed template := by
  unfold QueryDef.checkText at h
  cases hsyms : parseTemplate none text with
  | none =>
    rw [hsyms] at h
    cases h
  | some syms =>
    rw [hsyms] at h
    cases hlex : lexSyms none syms with
    | none =>
      simp only [hlex] at h
      cases h
    | some template =>
      simp only [hlex] at h
      exact ⟨syms, template, rfl, hlex, of_decide_eq_true h⟩

section Handler

variable {authorizer : Review → Except Failure Bool} {clock : Clock} {clusterID : String} {prometheus : Bool}
  {checker : Option AccessChecker} {user : Option User} {rawSlug : String} {ns name rendered : Text}

theorem isValidK8sName_valid {s : Text} (h : isValidK8sName s = true) : ValidText s := by
  intro c hc
  have hchar := List.all_eq_true.mp (Bool.and_eq_true_iff.mp h).2 c hc
  unfold k8sNameChar at hchar
  unfold instanceLabelChar
  grind

theorem validName_valid {d : QueryDef} {s : Text} (h : validName d s = true) : ValidText s := by
  obtain h | h := Bool.or_eq_true_iff.mp h
  · exact isValidK8sName_valid h
  · have hlabel := (Bool.and_eq_true_iff.mp h).2
    intro c hc
    exact List.all_eq_true.mp (Bool.and_eq_true_iff.mp hlabel).2 c hc

theorem optional_valid {s : Text} {valid : Bool} (h : ¬ (s ≠ [] ∧ valid = false)) (hvalid : valid = true → ValidText s) :
    ValidText s := by
  by_cases hs : s = []
  · rw [hs]
    exact fun c hc ↦ absurd hc List.not_mem_nil
  · exact hvalid (Bool.not_eq_false _ ▸ fun hv ↦ h ⟨hs, hv⟩)

/-- What has passed when a query is sent. -/
structure Accepted (authorizer : Review → Except Failure Bool) (clock : Clock) (clusterID : String)
    (checker : Option AccessChecker) (user : Option User) (d : QueryDef) (ns name rendered : Text) : Prop where
  ns_valid : ValidText ns
  name_valid : ValidText name
  authorized : checkScope authorizer clock clusterID checker user d (rbacNamespace d ns name) = .ok ()
  rendered : renderSlugTemplate d.template ns name = some rendered

theorem handleSlugQuery_ok
    (h : handleSlugQuery authorizer clock clusterID prometheus checker user rawSlug ns name = .ok rendered) :
    ∃ d, queryDef rawSlug = some d ∧ Accepted authorizer clock clusterID checker user d ns name rendered := by
  unfold handleSlugQuery at h
  split at h
  · cases h
  · split at h
    · cases h
    · split at h
      · cases h
      · next d hd =>
        split at h
        · cases h
        · next hns =>
          split at h
          · cases h
          · next hname =>
            split at h
            · cases h
            · next hallowed =>
              split at h
              · cases h
              · next text hrender =>
                cases h
                exact ⟨d, hd, optional_valid hns isValidK8sName_valid, optional_valid hname validName_valid,
                  hallowed, hrender⟩

end Handler

theorem render_congr {value value' : Var → Text} {s : List Sym} (h : ∀ v, .inr v ∈ s → value v = value' v) :
    render value s = render value' s := by
  apply List.flatMap_congr
  intro x hx
  cases x with
  | inl c => rfl
  | inr v => exact h v hx

section Scope

variable {d : QueryDef} {ns name : Text}

/-- The fields of a template that the namespace is put in with are those of the permission. -/
theorem scopeVar_raw (hd : d.requiredGVR ∉ clusterScopedGVRs) (regex : Bool) :
    (d.scopeVar regex).raw ns name = rbacNamespace d ns name := by
  unfold QueryDef.scopeVar rbacNamespace
  rw [if_neg hd]
  split <;> cases regex <;> rfl

theorem rbacNamespace_valid (hns : ValidText ns) (hname : ValidText name) : ValidText (rbacNamespace d ns name) := by
  unfold rbacNamespace
  split
  · exact fun c hc ↦ absurd hc List.not_mem_nil
  · split
    · exact hname
    · exact hns

theorem raw_literal (hns : ValidText ns) (hname : ValidText name) {s : List Sym}
    (h : ∀ v, .inr v ∈ s → NoDot ns name v) : RawLiteral (Var.raw ns name) s := by
  intro v hv hregex c hc
  have hdot : c ≠ '.' := fun he ↦ h v hv hregex (he ▸ hc)
  exact (valid_char (raw_valid hns hname v c hc) hdot).2

end Scope

/-- The query means what was authorized: its text has tokens, its selectors are the template's with the literal
values, and it is confined to the namespace whose check let it through. -/
structure MeansAuthorized (authorizer : Review → Except Failure Bool) (clock : Clock) (clusterID : String)
    (checker : Option AccessChecker) (user : Option User) (re2 : Engine) (dots : Text → Prop) (d : QueryDef)
    (ns name : Text) (template : List (Char ⊕ List Sym)) (toks : List (Char ⊕ Bytes)) : Prop where
  faithful : Faithful re2 dots (Var.raw ns name) template toks
  authorized : checkScope authorizer clock clusterID checker user d (rbacNamespace d ns name) = .ok ()
  confined : Confined re2 toks (rbacNamespace d ns name)

section Meaning

variable {authorizer : Review → Except Failure Bool} {clock : Clock} {clusterID : String}
  {checker : Option AccessChecker} {user : Option User} {re2 : Engine} {dots : Text → Prop} {d : QueryDef}
  {ns name rendered : Text} {syms : List Sym} {template : List (Char ⊕ List Sym)}

/-- Without a dot in an escaped value all values are put in as they are. -/
theorem Accepted.lexes (h : Accepted authorizer clock clusterID checker user d ns name rendered)
    (hsyms : parseTemplate none d.template.toList = some syms) (hlex : lexSyms none syms = some template)
    (hdots : ∀ v, .inr v ∈ syms → NoDot ns name v) :
    Lexes rendered (template.map (Sum.map id (fun inner ↦ utf8 (render (Var.raw ns name) inner)))) := by
  have hvalue := fun v hv ↦ value_eq_raw h.ns_valid h.name_valid (hdots v hv)
  have hrendered : rendered = render (Var.raw ns name) syms := by
    have hr := h.rendered
    rw [renderSlugTemplate, hsyms] at hr
    cases hr
    exact render_congr hvalue
  rw [hrendered]
  apply lexes_render hlex
  intro v _
  exact valid_plainText (raw_valid h.ns_valid h.name_valid v)

theorem Accepted.not_lexes (h : Accepted authorizer clock clusterID checker user d ns name rendered)
    (hsyms : parseTemplate none d.template.toList = some syms) (hlex : lexSyms none syms = some template)
    (hdots : ∃ v, .inr v ∈ syms ∧ ¬ NoDot ns name v) (toks : List (Char ⊕ Bytes)) : ¬ Lexes rendered toks := by
  have hr := h.rendered
  rw [renderSlugTemplate, hsyms] at hr
  cases hr
  apply not_lexes_render hlex
  · intro v _
    by_cases hv : NoDot ns name v
    · rw [value_eq_raw h.ns_valid h.name_valid hv]
      exact .inl (valid_plainText (raw_valid h.ns_valid h.name_valid v))
    · exact .inr (value_bad h.ns_valid h.name_valid hv)
  · obtain ⟨v, hv, hdot⟩ := hdots
    exact ⟨v, hv, value_bad h.ns_valid h.name_valid hdot⟩

theorem Accepted.meansAuthorized (h : Accepted authorizer clock clusterID checker user d ns name rendered)
    (hre2 : ReadsConcats re2 dots) (hlex : lexSyms none syms = some template) (hd : d.WellFormed template)
    (hdots : ∀ v, .inr v ∈ syms → NoDot ns name v) :
    MeansAuthorized authorizer clock clusterID checker user re2 dots d ns name template
      (template.map (Sum.map id (fun inner ↦ utf8 (render (Var.raw ns name) inner)))) := by
  have hraw : ∀ inner, .inr inner ∈ template → RawLiteral (Var.raw ns name) inner := by
    intro inner hinner
    apply raw_literal h.ns_valid h.name_valid
    intro v hv
    exact hdots v (lexSyms_mem hlex hinner _ hv)
  refine ⟨faithful_map hre2 hd hraw, h.authorized, ?_⟩
  by_cases hcluster : d.requiredGVR ∈ clusterScopedGVRs
  · exact .inl (if_pos hcluster)
  · apply confined_map hre2 hd hraw (hd.confines.resolve_left hcluster) (scopeVar_raw hcluster)
    intro hslash
    exact (valid_plain (rbacNamespace_valid h.ns_valid h.name_valid _ hslash)).2 rfl

end Meaning

section Main

variable {authorizer : Review → Except Failure Bool} {clock : Clock} {clusterID : String} {prometheus : Bool}
  {checker : Option AccessChecker} {user : Option User} {rawSlug : String} {ns name rendered : Text}
  {re2 : Engine} {dots : Text → Prop}

theorem slugQuery_means_iff (hre2 : ReadsConcats re2 dots)
    (h : handleSlugQuery authorizer clock clusterID prometheus checker user rawSlug ns name = .ok rendered) :
    ∃ d syms template, queryDef rawSlug = some d ∧ parseTemplate none d.template.toList = some syms ∧
      lexSyms none syms = some template ∧
      ((∃ toks, Lexes rendered toks ∧
          MeansAuthorized authorizer clock clusterID checker user re2 dots d ns name template toks) ↔
        ∀ v, .inr v ∈ syms → NoDot ns name v) := by
  obtain ⟨d, hd, haccepted⟩ := handleSlugQuery_ok h
  obtain ⟨syms, template, hsyms, hlex, hwf⟩ := checkText_spec (registry_checkText d (List.mem_of_find?_eq_some hd))
  refine ⟨d, syms, template, hd, hsyms, hlex, ?_⟩
  constructor
  · intro hmeans
    obtain ⟨toks, hlexes, -⟩ := hmeans
    intro v hv
    by_contra hdot
    exact haccepted.not_lexes hsyms hlex ⟨v, hv, hdot⟩ toks hlexes
  · intro hdots
    exact ⟨_, haccepted.lexes hsyms hlex hdots, haccepted.meansAuthorized hre2 hlex hwf hdots⟩

end Main

theorem Lexes.first_string {pre s : Text} {toks : List (Char ⊕ Bytes)} (h : Lexes (pre ++ '\"' :: s) toks)
    (hpre : '\"' ∉ pre) : (unquoteFrom s).isSome := by
  induction pre generalizing toks with
  | nil =>
    cases h with
    | char hq => exact absurd rfl hq
    | string hs => exact hs ▸ rfl
  | cons c pre ih =>
    cases h with
    | char _ _ htail => exact ih htail (fun hc ↦ hpre (List.mem_cons_of_mem c hc))
    | string => exact absurd List.mem_cons_self hpre

/-- The address of an exporter is a valid name, but its escaped dots make the text invalid. -/
theorem slugQuery_no_tokens :
    ∃ rendered, handleSlugQuery (fun _ ↦ .ok true) ⟨0, 0⟩ "" true (some {})
      (some ⟨"1", "viewer", "local", "viewer", [], []⟩) "nodes/load" [] "192.168.1.5:9100".toList = .ok rendered ∧
      ¬ ∃ toks, Lexes rendered toks := by
  refine ⟨"node_load5\x7binstance=~".toList ++ '\"' :: "192\\.168\\.1\\.5:9100\"\x7d".toList, rfl, ?_⟩
  intro hlexes
  obtain ⟨toks, hlexes⟩ := hlexes
  have hstring := hlexes.first_string (by decide)
  exact absurd hstring (by decide +kernel)

section Engine

/-- An engine for patterns of literals and `.*`. -/
def concatEngine (dots : Text → Prop) : Engine :=
  fun w ↦ (pieces (fun _ ↦ []) (w.map .inl)).map (Concat dots)

theorem pieces_literal_append {t : Text} (ht : ∀ c ∈ t, isRegexMetaChar c = false) (s : List Sym) :
    pieces (fun _ ↦ []) (t.map .inl ++ s) =
      (pieces (fun _ ↦ []) s).map (t.map (fun c ↦ .lit [c]) ++ ·) := by
  induction t with
  | nil => simp
  | cons c t ih =>
    have hc : isRegexMetaChar c = false := ht c List.mem_cons_self
    have hdot : c ≠ '.' := by
      intro he
      subst he
      exact absurd hc (by decide)
    rw [List.map_cons, List.cons_append, pieces, if_neg (by simp [hc]),
      ih (fun d hd ↦ ht d (List.mem_cons_of_mem c hd)), Option.map_map]
    · rfl
    · intro _ he
      exact absurd he hdot

theorem concat_literal {dots : Text → Prop} (t : Text) (ps : List Piece) (s : Text) :
    Concat dots (t.map (fun c ↦ .lit [c]) ++ ps) s ↔ Concat dots (.lit t :: ps) s := by
  induction t generalizing s with
  | nil =>
    constructor
    · intro h
      exact ⟨s, rfl, h⟩
    · intro h
      obtain ⟨rest, rfl, h⟩ := h
      exact h
  | cons c t ih =>
    constructor
    · intro h
      obtain ⟨rest, rfl, h⟩ := h
      obtain ⟨rest, rfl, htail⟩ := (ih rest).mp h
      exact ⟨rest, rfl, htail⟩
    · intro h
      obtain ⟨rest, rfl, h⟩ := h
      exact ⟨t ++ rest, rfl, (ih _).mpr ⟨rest, rfl, h⟩⟩

theorem concatEngine_reads (dots : Text → Prop) : ReadsConcats (concatEngine dots) dots := by
  intro ps hps
  have hread : ∃ qs, pieces (fun _ ↦ []) ((ps.flatMap Piece.text).map .inl) = some qs ∧
      ∀ s, Concat dots qs s ↔ Concat dots ps s := by
    induction ps with
    | nil => exact ⟨[], rfl, fun s ↦ Iff.rfl⟩
    | cons p ps ih =>
      obtain ⟨qs, hqs, hconcat⟩ := ih fun t ht ↦ hps t (List.mem_cons_of_mem p ht)
      rw [List.flatMap_cons, List.map_append]
      cases p with
      | lit t =>
        refine ⟨t.map (fun c ↦ .lit [c]) ++ qs, ?_, ?_⟩
        · rw [Piece.text, pieces_literal_append (hps t List.mem_cons_self), hqs]
          rfl
        · intro s
          rw [concat_literal]
          simp only [Concat, hconcat]
      | any =>
        refine ⟨.any :: qs, ?_, ?_⟩
        · show (pieces (fun _ ↦ []) ((ps.flatMap Piece.text).map .inl)).map (.any :: ·) = _
          rw [hqs]
          rfl
        · intro s
          simp only [Concat, hconcat]
  obtain ⟨qs, hqs, hconcat⟩ := hread
  refine ⟨Concat dots qs, ?_, hconcat⟩
  rw [concatEngine, hqs]
  rfl

theorem slugQuery_means_nodesLoad :
    ∃ d syms template, queryDef "nodes/load" = some d ∧ parseTemplate none d.template.toList = some syms ∧
      lexSyms none syms = some template ∧
      ((∃ toks, Lexes "node_load5\x7binstance=~\"node-1\"\x7d".toList toks ∧
          MeansAuthorized (fun _ ↦ .ok true) ⟨0, 0⟩ "" (some {}) (some ⟨"1", "viewer", "local", "viewer", [], []⟩)
            (concatEngine fun _ ↦ True) (fun _ ↦ True) d [] "node-1".toList template toks) ↔
        ∀ v, .inr v ∈ syms → NoDot [] "node-1".toList v) := by
  have hsent : handleSlugQuery (fun _ ↦ .ok true) ⟨0, 0⟩ "" true (some {})
      (some ⟨"1", "viewer", "local", "viewer", [], []⟩) "nodes/load" [] "node-1".toList =
      .ok "node_load5\x7binstance=~\"node-1\"\x7d".toList := rfl
  exact slugQuery_means_iff (concatEngine_reads fun _ ↦ True) hsent

end Engine

end KubeCenter.Monitoring
