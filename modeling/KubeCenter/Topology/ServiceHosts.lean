import KubeCenter.Topology.Edges

/-! Which hosts name which Service. -/

namespace KubeCenter.Topology

open KubeCenter.Core

def lowerHost (rt : Runtime) (host : String) : List Char := host.toList.map rt.toLower

/-- What may stand behind the name: nothing, or `svc` with any cluster domain. -/
inductive ServiceSuffix : List Char → Prop
  | nothing : ServiceSuffix []
  | svc : ServiceSuffix ".svc".toList
  | domain (rest : List Char) : ServiceSuffix (".svc.".toList ++ rest)

/-- The host is the Service's name, with or without its namespace, in any case. -/
structure HostNames (rt : Runtime) (ns host name : String) : Prop where
  hasHost : host ≠ ""
  hasNs : ns ≠ ""
  dotless : '.' ∉ name.toList
  shape : ∃ suffix, ServiceSuffix suffix ∧
    (lowerHost rt host = name.toList ++ suffix ∨
      '.' ∉ ns.toList ∧ lowerHost rt host = name.toList ++ '.' :: ns.toList ++ suffix)

/-! ## Cutting off the cluster domain -/

/-- `bareHost` after lowercasing. -/
def stripDomain (low : List Char) : List Char :=
  match before ".svc.".toList low with
  | some bare => bare
  | none => if ".svc".toList.isSuffixOf low then low.dropLast.dropLast.dropLast.dropLast else low

theorem bareHost_eq (rt : Runtime) (host : String) : bareHost rt host = stripDomain (lowerHost rt host) := rfl

theorem dropLast_svc (bare : List Char) :
    (bare ++ ".svc".toList).dropLast.dropLast.dropLast.dropLast = bare := by
  have hsvc : bare ++ ".svc".toList = bare ++ ['.'] ++ ['s'] ++ ['v'] ++ ['c'] := by simp
  rw [hsvc, List.dropLast_concat, List.dropLast_concat, List.dropLast_concat, List.dropLast_concat]

/-- What is cut off is a suffix of this kind. -/
theorem stripDomain_append (low : List Char) : ∃ suffix, ServiceSuffix suffix ∧ low = stripDomain low ++ suffix := by
  unfold stripDomain
  cases hbefore : before ".svc.".toList low with
  | some bare =>
    obtain ⟨rest, hrest⟩ := before_eq_some hbefore
    exact ⟨_, .domain rest, by rw [hrest, List.append_assoc]⟩
  | none =>
    dsimp only
    by_cases hsvc : ".svc".toList.isSuffixOf low
    · rw [if_pos hsvc]
      obtain ⟨bare, hbare⟩ := List.isSuffixOf_iff_suffix.mp hsvc
      exact ⟨_, .svc, by rw [← hbare, dropLast_svc]⟩
    · rw [if_neg hsvc]
      exact ⟨[], .nothing, (List.append_nil low).symm⟩

theorem before_svc {text cs : List Char} (h : '.' ∉ text) :
    before ".svc.".toList (text ++ cs) = (before ".svc.".toList cs).map (text ++ ·) := before_append h

/-- A text without a dot keeps its place before everything that is cut off. -/
theorem stripDomain_dotless {text suffix : List Char} (h : '.' ∉ text) (hsuffix : ServiceSuffix suffix) :
    stripDomain (text ++ suffix) = text := by
  unfold stripDomain
  rw [before_svc h]
  cases hsuffix with
  | nothing =>
    have hsvc : ¬".svc".toList.isSuffixOf (text ++ []) = true := by
      intro hsvc
      obtain ⟨bare, hbare⟩ := List.isSuffixOf_iff_suffix.mp hsvc
      rw [List.append_nil] at hbare
      exact h (hbare ▸ List.mem_append_right bare (by decide))
    rw [show before ".svc.".toList [] = none from rfl, Option.map_none]
    dsimp only
    rw [if_neg hsvc, List.append_nil]
  | svc =>
    have hsvc : ".svc".toList.isSuffixOf (text ++ ".svc".toList) = true :=
      List.isSuffixOf_iff_suffix.mpr (List.suffix_append text _)
    rw [show before ".svc.".toList ".svc".toList = none by decide, Option.map_none]
    dsimp only
    rw [if_pos hsvc, dropLast_svc]
  | domain rest =>
    rw [show before ".svc.".toList (".svc.".toList ++ rest) = some [] from rfl, Option.map_some]
    exact List.append_nil text

/-- What begins with `.svc.` after a dotless part begins with `svc`. -/
theorem eq_svc_of_begins {text suffix : List Char} (h : '.' ∉ text) (hsuffix : ServiceSuffix suffix)
    (hbegins : ".svc.".toList.isPrefixOf ('.' :: (text ++ suffix)) = true) : text = "svc".toList := by
  obtain ⟨rest, hrest⟩ := List.isPrefixOf_iff_prefix.mp hbegins
  have htext : "svc".toList ++ '.' :: rest = text ++ suffix := (List.cons.inj hrest).2
  have hcut := congrArg (cut '.') htext
  rw [cut_append (by decide)] at hcut
  cases hsuffix with
  | nothing =>
    have hdot : '.' ∈ text := by
      rw [← List.append_nil text, ← htext]
      simp
    exact absurd hdot h
  | svc =>
    rw [show ".svc".toList = '.' :: "svc".toList from rfl, cut_append h] at hcut
    cases hcut
    rfl
  | domain tail =>
    rw [show ".svc.".toList ++ tail = '.' :: ("svc.".toList ++ tail) from rfl, cut_append h] at hcut
    cases hcut
    rfl

theorem eq_svc_of_ends {first second : List Char} (hfirst : '.' ∉ first) (hsecond : '.' ∉ second)
    (hsuffix : ".svc".toList.isSuffixOf (first ++ '.' :: second) = true) : second = "svc".toList := by
  obtain ⟨bare, hbare⟩ := List.isSuffixOf_iff_suffix.mp hsuffix
  have hsplit := congrArg (List.splitOn '.') hbare
  rw [show ".svc".toList = '.' :: "svc".toList from rfl, List.splitOn_append_cons_self,
    splitOn_eq_pair_iff.mpr ⟨rfl, hfirst, hsecond⟩, List.splitOn_eq_singleton (show '.' ∉ "svc".toList by decide)] at hsplit
  have hlast := (List.append_inj' (hsplit.trans (List.singleton_append).symm) rfl).2
  exact (List.cons.inj hlast).1.symm

/-- Two parts without dots are kept, or only the first where the second is itself `svc`. -/
theorem stripDomain_dotted {first second suffix : List Char} (hfirst : '.' ∉ first) (hsecond : '.' ∉ second)
    (hsuffix : ServiceSuffix suffix) :
    stripDomain (first ++ '.' :: second ++ suffix) = first ++ '.' :: second ∨
      stripDomain (first ++ '.' :: second ++ suffix) = first := by
  by_cases hsvc : second = "svc".toList
  · right
    subst hsvc
    rw [List.append_assoc]
    refine stripDomain_dotless hfirst ?_
    cases hsuffix with
    | nothing => exact .svc
    | svc => exact .domain "svc".toList
    | domain rest => exact .domain ("svc.".toList ++ rest)
  · left
    have hbegins : ¬".svc.".toList.isPrefixOf ('.' :: (second ++ suffix)) = true :=
      fun h ↦ hsvc (eq_svc_of_begins hsecond hsuffix h)
    unfold stripDomain
    rw [List.append_assoc, List.cons_append, before_svc hfirst, before, if_neg hbegins, before_svc hsecond]
    cases hsuffix with
    | nothing =>
      rw [show before ".svc.".toList [] = none from rfl]
      dsimp only [Option.map_none]
      rw [List.append_nil, if_neg (fun h ↦ hsvc (eq_svc_of_ends hfirst hsecond h))]
    | svc =>
      have hends : ".svc".toList.isSuffixOf (first ++ '.' :: (second ++ ".svc".toList)) = true := by
        refine List.isSuffixOf_iff_suffix.mpr ⟨first ++ '.' :: second, ?_⟩
        rw [List.append_assoc, List.cons_append]
      rw [show before ".svc.".toList ".svc".toList = none by decide]
      dsimp only [Option.map_none]
      rw [if_pos hends, ← List.cons_append, ← List.append_assoc, dropLast_svc]
    | domain rest =>
      rw [show before ".svc.".toList (".svc.".toList ++ rest) = some [] from rfl]
      dsimp only [Option.map_some]
      rw [List.append_nil]

/-! ## Resolving -/

variable {rt : Runtime} {host ns uid : String} {nameIndex : GoMap String String}

theorem hostNames_of_resolve (h : resolveServiceHost rt host ns nameIndex = some uid) :
    ∃ name, HostNames rt ns host name ∧ nameIndex.lookup ("Service/" ++ name) = some uid := by
  unfold resolveServiceHost at h
  rw [bareHost_eq] at h
  split at h
  · cases h
  · rename_i hempty
    rw [not_or] at hempty
    obtain ⟨suffix, hsuffix, hlow⟩ := stripDomain_append (lowerHost rt host)
    split at h
    · rename_i name hsplit
      obtain ⟨hbare, hdot⟩ := splitOn_eq_singleton_iff.mp hsplit
      rw [hbare] at hlow
      refine ⟨String.ofList name, ⟨hempty.1, hempty.2, ?_, suffix, hsuffix, .inl ?_⟩, h⟩
      · rwa [String.toList_ofList]
      · rwa [String.toList_ofList]
    · rename_i name hostNs hsplit
      split at h
      · cases h
      · rename_i hns
        obtain ⟨hbare, hdot, hnsDot⟩ := splitOn_eq_pair_iff.mp hsplit
        obtain rfl := not_not.mp hns
        rw [hbare] at hlow
        refine ⟨String.ofList name, ⟨hempty.1, hempty.2, ?_, suffix, hsuffix, .inr ⟨?_, ?_⟩⟩, h⟩
        · rwa [String.toList_ofList]
        · rwa [String.toList_ofList]
        · rwa [String.toList_ofList, String.toList_ofList]
    · cases h

theorem resolve_of_hostNames {name : String} (h : HostNames rt ns host name)
    (hlookup : nameIndex.lookup ("Service/" ++ name) = some uid) :
    resolveServiceHost rt host ns nameIndex = some uid := by
  obtain ⟨hhost, hns, hdot, suffix, hsuffix, hshape⟩ := h
  have hopen : ¬(host = "" ∨ ns = "") := not_or.mpr ⟨hhost, hns⟩
  have hone (hbare : stripDomain (lowerHost rt host) = name.toList) :
      resolveServiceHost rt host ns nameIndex = some uid := by
    unfold resolveServiceHost
    rw [if_neg hopen, bareHost_eq, hbare, splitOn_eq_singleton_iff.mpr ⟨rfl, hdot⟩]
    dsimp only
    rwa [String.ofList_toList]
  obtain hlow | ⟨hnsDot, hlow⟩ := hshape
  · refine hone ?_
    rw [hlow]
    exact stripDomain_dotless hdot hsuffix
  · obtain hbare | hbare := stripDomain_dotted hdot hnsDot hsuffix
    · unfold resolveServiceHost
      rw [if_neg hopen, bareHost_eq, hlow, hbare, splitOn_eq_pair_iff.mpr ⟨rfl, hdot, hnsDot⟩]
      dsimp only
      rw [if_neg (not_not.mpr String.ofList_toList), String.ofList_toList]
      exact hlookup
    · -- the namespace is called `svc` and was cut off with the domain
      refine hone ?_
      rw [hlow, hbare]

/-- A host is resolved to the indexed Service that it names. -/
theorem resolveServiceHost_iff : resolveServiceHost rt host ns nameIndex = some uid ↔
    ∃ name, HostNames rt ns host name ∧ nameIndex.lookup ("Service/" ++ name) = some uid :=
  ⟨hostNames_of_resolve, fun ⟨_, hnames, hlookup⟩ ↦ resolve_of_hostNames hnames hlookup⟩

end KubeCenter.Topology
