import KubeCenter.Core.GoURL
import KubeCenter.GitProvider.RepoRef

/-! The canonical URL of a repository, read again, and the other spellings of one repository. -/

namespace KubeCenter.GitProvider

open KubeCenter.Core GoURL

/-- `strings.ToLower`, by what the parser relies on: it touches no ASCII byte but letters, leaves
nothing to lower, and empties no text. -/
structure CaseMapping where
  toLower : Bytes → Bytes
  lowered : ∀ s, toLower (toLower s) = toLower s
  keeps : ∀ s, (toLower s).filter isMark = s.filter isMark
  eq_nil : ∀ s, toLower s = [] ↔ s = []

variable (lower : CaseMapping)

def CaseMapping.library : Library where
  parseURL raw := (GoURL.parse raw).map (fun u ↦ ⟨u.scheme, u.hostname, u.path⟩)
  toLower := lower.toLower

def gitScheme (scheme : Bytes) : Prop := scheme = text "https" ∨ scheme = text "http" ∨ scheme = text "ssh"

instance (scheme : Bytes) : Decidable (gitScheme scheme) :=
  inferInstanceAs (Decidable (scheme = text "https" ∨ scheme = text "http" ∨ scheme = text "ssh"))

/-- The host and the path that the two grammars read out of a URL, before the path is split. -/
def readParts (rawURL : Bytes) : Option (Bytes × Bytes) :=
  match sshMatch (trimSpace rawURL) with
  | some (host, path) => some (lower.toLower host, path)
  | none => (GoURL.parse (trimSpace rawURL)).bind (fun u ↦
      if gitScheme u.scheme ∧ lower.toLower u.hostname ≠ [] ∧ repoPath u.path ≠ [] then
        some (lower.toLower u.hostname, repoPath u.path)
      else none)

theorem parseRepoURL_eq (rawURL : Bytes) : parseRepoURL lower.library rawURL =
    (readParts lower rawURL).bind (fun p ↦ (splitOwnerRepo p.2).map (fun q ↦ ⟨p.1, q.1, q.2⟩)) := by
  unfold parseRepoURL readParts
  simp only
  by_cases hnil : trimSpace rawURL = []
  · rw [if_pos hnil, hnil]
    rfl
  · rw [if_neg hnil]
    cases sshMatch (trimSpace rawURL) with
    | some p => rfl
    | none =>
      have hparse : lower.library.parseURL (trimSpace rawURL) =
          (GoURL.parse (trimSpace rawURL)).map (fun u ↦ ⟨u.scheme, u.hostname, u.path⟩) := rfl
      rw [hparse]
      cases GoURL.parse (trimSpace rawURL) with
      | none => rfl
      | some u =>
        simp only [Option.map_some, Option.bind_some]
        by_cases hs : gitScheme u.scheme
        · have hnot : ¬(u.scheme ≠ text "https" ∧ u.scheme ≠ text "http" ∧ u.scheme ≠ text "ssh") := fun h ↦
            hs.elim h.1 fun h' ↦ h'.elim h.2.1 h.2.2
          have hlib : lower.library.toLower u.hostname = lower.toLower u.hostname := rfl
          rw [if_neg hnot, hlib]
          by_cases hh : lower.toLower u.hostname = []
          · rw [if_pos hh, if_neg fun h ↦ h.2.1 hh]
            rfl
          · by_cases hp : repoPath u.path = []
            · rw [if_neg hh, if_pos hp, if_neg fun h ↦ h.2.2 hp]
              rfl
            · rw [if_neg hh, if_neg hp, if_pos ⟨hs, hh, hp⟩]
              rfl
        · have hall : u.scheme ≠ text "https" ∧ u.scheme ≠ text "http" ∧ u.scheme ≠ text "ssh" :=
            ⟨fun h ↦ hs (.inl h), fun h ↦ hs (.inr (.inl h)), fun h ↦ hs (.inr (.inr h))⟩
          rw [if_pos hall, if_neg fun h ↦ hs h.1]
          rfl

theorem cutLast_split {sep : UInt8} {s a b : Bytes} (h : cutLast sep s = some (a, b)) : s = a ++ sep :: b := by
  obtain ⟨⟨a', b'⟩, hp, heq⟩ := Option.map_eq_some_iff.mp h
  cases heq
  have hrev := congrArg List.reverse (cutFirst_eq_some hp).1
  rw [List.reverse_reverse, List.reverse_append, List.reverse_cons, List.append_assoc] at hrev
  exact hrev

theorem splitOwnerRepo_eq_some {path owner repo : Bytes} :
    splitOwnerRepo path = some (owner, repo) ↔ path = owner ++ slash :: repo ∧ slash ∉ repo ∧ owner ≠ [] := by
  constructor
  · intro h
    obtain ⟨hcut, howner⟩ := Option.filter_eq_some_iff.mp h
    exact ⟨cutLast_split hcut, cutLast_eq_some hcut, of_decide_eq_true howner⟩
  · rintro ⟨rfl, hrepo, howner⟩
    exact Option.filter_eq_some_iff.mpr ⟨cutLast_append hrepo owner, decide_eq_true howner⟩

theorem trimSuffix_append (s suffix : Bytes) : trimSuffix suffix (s ++ suffix) = s := by
  have hlen : (s ++ suffix).length - suffix.length = s.length := by
    rw [List.length_append]
    omega
  rw [trimSuffix, if_pos (List.suffix_append s suffix), hlen, List.take_left]

theorem trimSuffix_self {s suffix : Bytes} (h : ¬suffix <:+ s) : trimSuffix suffix s = s := if_neg h

theorem length_trimSuffix_le (suffix s : Bytes) : (trimSuffix suffix s).length ≤ s.length := by
  by_cases h : suffix <:+ s
  · obtain ⟨t, rfl⟩ := h
    rw [trimSuffix_append, List.length_append]
    omega
  · rw [trimSuffix_self h]

/-- A suffix that can be trimmed makes the text shorter. -/
theorem trimSuffix_of_length {s suffix : Bytes} (hne : suffix ≠ [])
    (h : s.length ≤ (trimSuffix suffix s).length) : ¬suffix <:+ s ∧ trimSuffix suffix s = s := by
  have hnot : ¬suffix <:+ s := fun hs ↦ by
    obtain ⟨t, rfl⟩ := hs
    have hpos := List.length_pos_iff.mpr hne
    rw [trimSuffix_append, List.length_append] at h
    omega
  exact ⟨hnot, trimSuffix_self hnot⟩

theorem repoPath_slash (path : Bytes) :
    repoPath (slash :: path) = trimSuffix [slash] (trimSuffix (text ".git") path) := by
  unfold repoPath
  simp only
  rw [if_pos ⟨path, rfl⟩]
  rfl

theorem length_repoPath_le (path : Bytes) : (repoPath (slash :: path)).length ≤ path.length := by
  rw [repoPath_slash]
  exact (length_trimSuffix_le _ _).trans (length_trimSuffix_le _ _)

theorem repoPath_of_length {path : Bytes} (h : path.length ≤ (repoPath (slash :: path)).length) :
    ¬text ".git" <:+ path ∧ ¬[slash] <:+ path ∧ repoPath (slash :: path) = path := by
  rw [repoPath_slash] at h ⊢
  have hle := length_trimSuffix_le [slash] (trimSuffix (text ".git") path)
  obtain ⟨hgit, heq⟩ := trimSuffix_of_length (by decide) (h.trans hle)
  rw [heq] at h ⊢
  obtain ⟨hslash, heq⟩ := trimSuffix_of_length (by decide) h
  exact ⟨hgit, hslash, heq⟩

/-- A path that is read as it is written: nothing is decoded, cut or trimmed. -/
structure PlainPath (path : Bytes) : Prop where
  bytes : ∀ b ∈ path, ¬isCTL b ∧ b ≠ Byte.percent ∧ b ≠ Byte.sharp ∧ b ≠ Byte.question
  git : ¬text ".git" <:+ path
  slash : ¬[GitProvider.slash] <:+ path
  space : ∀ e ∈ spaces, ¬e <:+ path

theorem PlainPath.repoPath {path : Bytes} (h : PlainPath path) : GitProvider.repoPath (GitProvider.slash :: path) = path := by
  rw [repoPath_slash, trimSuffix_self h.git, trimSuffix_self h.slash]

/-- The two schemes a canonical or an `ssh` spelling opens with. -/
structure Opening (scheme : Bytes) : Prop where
  git : gitScheme scheme
  lower : ∀ b ∈ scheme, isLower b
  first : scheme.head? ≠ none ∧ scheme.head? ≠ some 103

theorem opening_https : Opening (text "https") :=
  ⟨.inl rfl, by decide +kernel, by decide +kernel⟩

theorem opening_ssh : Opening (text "ssh") :=
  ⟨.inr (.inr rfl), by decide +kernel, by decide +kernel⟩

namespace Opening

variable {scheme : Bytes} (h : Opening scheme)
include h

theorem ne_nil : scheme ≠ [] := fun hnil ↦ h.first.1 (hnil ▸ rfl)

theorem not_space_prefix (rest : Bytes) : ∀ e ∈ spaces, ¬e <+: scheme ++ rest := by
  cases hs : scheme with
  | nil => exact absurd hs h.ne_nil
  | cons c t =>
    have hc : isLower c := h.lower c (hs ▸ List.mem_cons_self)
    have hnone : ∀ e ∈ spaces, ∀ d ∈ e.head?, ¬isLower d := by decide +kernel
    exact Core.not_space_prefix (fun e he hh ↦ hnone e he c hh hc) _

theorem sshMatch_eq_none (rest : Bytes) : sshMatch (scheme ++ rest) = none := by
  have hgit : text "git@" = [103, 105, 116, 64] := by decide
  unfold sshMatch
  refine if_neg fun hp ↦ ?_
  cases hs : scheme with
  | nil => exact h.ne_nil hs
  | cons c t =>
    rw [hgit, hs] at hp
    have hc := (List.cons_prefix_cons.mp hp).1
    exact h.first.2 (by rw [hs, ← hc]; rfl)

end Opening

variable {lower}

/-- A URL that the trim leaves as a scheme, an authority and the rest behind its slash. -/
theorem readParts_authority {scheme authority rest rawURL : Bytes} (hs : Opening scheme)
    (ha : ∀ b ∈ authority, b ≠ Byte.slash ∧ b ≠ Byte.question ∧ b ≠ Byte.sharp)
    (htrim : trimSpace rawURL = scheme ++ Byte.colon :: Byte.slash :: Byte.slash :: (authority ++ Byte.slash :: rest))
    {p : Bytes × Bytes} :
    readParts lower rawURL = some p ↔
      ((∀ b ∈ authority, ¬isCTL b) ∧ ∀ b ∈ rest.takeWhile (· ≠ Byte.sharp), ¬isCTL b) ∧
        decodable .fragment ((rest.dropWhile (· ≠ Byte.sharp)).drop 1) ∧
          ∃ host path, parseAuthority authority = some host ∧
            unescape .path (Byte.slash :: (rest.takeWhile (· ≠ Byte.sharp)).takeWhile (· ≠ Byte.question)) = some path ∧
              lower.toLower (hostnameOf host) ≠ [] ∧ repoPath path ≠ [] ∧
                p = (lower.toLower (hostnameOf host), repoPath path) := by
  unfold readParts
  rw [htrim, hs.sshMatch_eq_none]
  simp only
  rw [Option.bind_eq_some_iff]
  constructor
  · rintro ⟨u, hu, hp⟩
    obtain ⟨hctl, hf, host, path, hhost, hpath, rfl⟩ := (parse_authority_eq_some hs.ne_nil hs.lower ha).mp hu
    split at hp
    · next hc =>
      cases hp
      exact ⟨hctl, hf, host, path, hhost, hpath, hc.2.1, hc.2.2, rfl⟩
    · cases hp
  · rintro ⟨hctl, hf, host, path, hhost, hpath, hne, hp, rfl⟩
    exact ⟨_, (parse_authority_eq_some hs.ne_nil hs.lower ha).mpr ⟨hctl, hf, host, path, hhost, hpath, rfl⟩,
      if_pos ⟨hs.git, hne, hp⟩⟩

theorem marks_toLower (s : Bytes) : marks (lower.toLower s) = marks s := by
  rw [marks, marks, List.countP_eq_length_filter, List.countP_eq_length_filter, lower.keeps]

theorem mem_toLower {b : UInt8} (hb : isMark b) {s : Bytes} : b ∈ lower.toLower s ↔ b ∈ s := by
  have hfilter : ∀ t : Bytes, b ∈ t ↔ b ∈ t.filter isMark := fun t ↦
    (List.mem_filter.trans (and_iff_left hb)).symm
  rw [hfilter, hfilter s, lower.keeps]

def RepoRef.path (r : RepoRef) : Bytes := r.owner ++ slash :: r.repo

theorem canonicalURL_eq (r : RepoRef) : r.canonicalURL =
    text "https" ++ Byte.colon :: Byte.slash :: Byte.slash :: (r.host ++ Byte.slash :: r.path) := by
  have htext : text "https://" = text "https" ++ [Byte.colon, Byte.slash, Byte.slash] := by decide
  rw [RepoRef.canonicalURL, htext, List.append_assoc, List.append_assoc]
  rfl

/-- The bytes no host that was read holds. -/
theorem notMem_of_inHost {host : Bytes} {u : Bytes} (hu : ∀ b ∈ u, InHost b) (hhost : lower.toLower u = host)
    {b : UInt8} (hmark : isMark b) (hb : ¬hostByte b ∧ b ≠ Byte.percent ∧ b ≠ Byte.space) : b ∉ host := by
  intro hm
  rw [← hhost, mem_toLower hmark] at hm
  rcases hu b hm with hge | hh | hp | hs
  · exact absurd hge (UInt8.not_le.mpr (of_decide_eq_true (Bool.and_eq_true_iff.mp hmark).1))
  · exact hb.1 hh
  · exact hb.2.1 hp
  · exact hb.2.2 hs

theorem parseRepoURL_eq_some {rawURL : Bytes} {r : RepoRef} :
    parseRepoURL lower.library rawURL = some r ↔
      readParts lower rawURL = some (r.host, r.path) ∧ slash ∉ r.repo ∧ r.owner ≠ [] := by
  rw [parseRepoURL_eq]
  constructor
  · intro h
    obtain ⟨⟨host, path⟩, hparts, hr⟩ := Option.bind_eq_some_iff.mp h
    obtain ⟨⟨owner, repo⟩, hsplit, rfl⟩ := Option.map_eq_some_iff.mp hr
    obtain ⟨hpath, hrepo, howner⟩ := splitOwnerRepo_eq_some.mp hsplit
    exact ⟨hparts.trans (congrArg (fun p ↦ some (host, p)) hpath), hrepo, howner⟩
  · rintro ⟨hparts, hrepo, howner⟩
    have hsplit := splitOwnerRepo_eq_some.mpr ⟨rfl, hrepo, howner⟩
    rw [hparts, Option.bind_some]
    exact congrArg (Option.map fun q : Bytes × Bytes ↦ (⟨r.host, q.1, q.2⟩ : RepoRef)) hsplit

theorem rest_suffix (scheme authority rest : Bytes) :
    rest <:+ scheme ++ Byte.colon :: Byte.slash :: Byte.slash :: (authority ++ Byte.slash :: rest) :=
  ⟨scheme ++ Byte.colon :: Byte.slash :: Byte.slash :: (authority ++ [Byte.slash]), by simp⟩

/-- A trim of the canonical URL reaches no further than its last slash. -/
theorem trimSpace_canonicalURL (r : RepoRef) : ∃ tail,
    trimSpace r.canonicalURL = text "https" ++ Byte.colon :: Byte.slash :: Byte.slash ::
      (r.host ++ Byte.slash :: (r.owner ++ Byte.slash :: tail)) ∧ tail <+: r.repo := by
  have hstart : ∀ e ∈ spaces, ¬e <+: r.canonicalURL := by
    rw [canonicalURL_eq]
    exact opening_https.not_space_prefix _
  have hassoc : ∀ tail, text "https" ++ Byte.colon :: Byte.slash :: Byte.slash ::
      (r.host ++ Byte.slash :: (r.owner ++ Byte.slash :: tail)) =
        (text "https" ++ Byte.colon :: Byte.slash :: Byte.slash :: (r.host ++ Byte.slash :: r.owner)) ++
          Byte.slash :: tail := fun tail ↦ by
    simp
  obtain ⟨tail, htrim, htail⟩ := trimSpace_append hstart ((canonicalURL_eq r).trans (hassoc r.repo)) (by decide)
  exact ⟨tail, htrim.trans (hassoc tail).symm, htail⟩

theorem readParts_hostname {rawURL host path : Bytes} (hssh : sshMatch (trimSpace rawURL) = none)
    (h : readParts lower rawURL = some (host, path)) :
    ∃ u, GoURL.parse (trimSpace rawURL) = some u ∧ lower.toLower u.hostname = host := by
  unfold readParts at h
  rw [hssh] at h
  obtain ⟨u, hu, hp⟩ := Option.bind_eq_some_iff.mp h
  split at hp
  · exact ⟨u, hu, (Prod.ext_iff.mp (Option.some.inj hp)).1⟩
  · cases hp

theorem unescape_slash {s path : Bytes} (h : unescape .path (Byte.slash :: s) = some path) :
    ∃ q, path = Byte.slash :: q ∧ Unescapes .path s q := by
  cases unescape_eq_some h with
  | bare _ _ hq => exact ⟨_, rfl, hq⟩

/-- A path that comes back whole was read as it is written: every other reading is shorter. -/
theorem path_bytes_of_read {rest path target : Bytes} (hpre : rest <+: target)
    (hread : unescape .path (Byte.slash :: (rest.takeWhile (· ≠ Byte.sharp)).takeWhile (· ≠ Byte.question)) = some path)
    (htarget : target = repoPath path) :
    rest = target ∧ (∀ b ∈ target, b ≠ Byte.percent ∧ b ≠ Byte.sharp ∧ b ≠ Byte.question) ∧
      ¬text ".git" <:+ target ∧ ¬[slash] <:+ target := by
  obtain ⟨q, rfl, hq⟩ := unescape_slash hread
  have hquestion := List.takeWhile_prefix (l := rest.takeWhile (· ≠ Byte.sharp)) (fun b ↦ decide (b ≠ Byte.question))
  have hsharp := List.takeWhile_prefix (l := rest) (fun b ↦ decide (b ≠ Byte.sharp))
  have hrepo := length_repoPath_le q
  have hlt := hq.length_lt
  have h₁ := hquestion.length_le
  have h₂ := hsharp.length_le
  have h₃ := hpre.length_le
  have htl : target.length = (repoPath (slash :: q)).length := congrArg List.length htarget
  have hrest : rest = target := hpre.eq_of_length (by omega)
  have heq₂ := hsharp.eq_of_length (by omega)
  have heq₁ := hquestion.eq_of_length (by omega)
  obtain ⟨hgit, hslash, hself⟩ := repoPath_of_length (show q.length ≤ _ by omega)
  obtain rfl : target = q := htarget.trans hself
  subst hrest
  rw [heq₁, heq₂] at hlt
  have hpercent : Byte.percent ∉ rest := fun hm ↦ by
    rw [if_pos hm] at hlt
    omega
  rw [heq₂] at heq₁
  refine ⟨rfl, fun b hb ↦ ⟨fun he ↦ hpercent (he ▸ hb), ?_, ?_⟩, hgit, hslash⟩
  · exact of_decide_eq_true (List.takeWhile_eq_self_iff.mp heq₂ b hb)
  · exact of_decide_eq_true (List.takeWhile_eq_self_iff.mp heq₁ b hb)

/-- The canonical URL of a reference is read as that reference only where its parts are plain. -/
theorem plain_of_canonicalURL {r : RepoRef} (h : parseRepoURL lower.library r.canonicalURL = some r) :
    r.host ≠ [] ∧ PlainHost r.host ∧ PlainPath r.path := by
  obtain ⟨hparts, hrepo, howner⟩ := parseRepoURL_eq_some.mp h
  obtain ⟨tail, htrim, htail⟩ := trimSpace_canonicalURL r
  have hssh : sshMatch (trimSpace r.canonicalURL) = none := by
    rw [htrim]
    exact opening_https.sshMatch_eq_none _
  obtain ⟨u, hu, hname⟩ := readParts_hostname hssh hparts
  have hbytes := parse_inHost hu
  have hauthority : ∀ b ∈ r.host, b ≠ Byte.slash ∧ b ≠ Byte.question ∧ b ≠ Byte.sharp := fun b hb ↦
    ⟨fun he ↦ notMem_of_inHost hbytes hname (by decide) (by decide) (he ▸ hb),
      fun he ↦ notMem_of_inHost hbytes hname (by decide) (by decide) (he ▸ hb),
      fun he ↦ notMem_of_inHost hbytes hname (by decide) (by decide) (he ▸ hb)⟩
  have hat : Byte.at' ∉ r.host := notMem_of_inHost hbytes hname (by decide) (by decide)
  obtain ⟨⟨-, hctl⟩, -, host, path, hhost, hpath, hne, -, hp⟩ :=
    (readParts_authority opening_https hauthority htrim).mp hparts
  obtain ⟨hh, hq⟩ := Prod.ext_iff.mp hp
  have hmarks : marks (hostnameOf host) = marks r.host := by
    rw [show r.host = _ from hh, marks_toLower]
  rw [parseAuthority, if_neg hat] at hhost
  have hpre : r.owner ++ Byte.slash :: tail <+: r.path := by
    obtain ⟨t, ht⟩ := htail
    exact ⟨t, by rw [RepoRef.path, ← ht, List.append_assoc]; rfl⟩
  obtain ⟨hrest, hall, hgit, hslash⟩ := path_bytes_of_read hpre hpath hq
  have hwhole : r.path.takeWhile (· ≠ Byte.sharp) = r.path :=
    List.takeWhile_eq_self_iff.mpr fun b hb ↦ decide_eq_true (hall b hb).2.1
  refine ⟨fun hnil ↦ hne (hh.symm.trans hnil), plainHost_of_parseHost hhost hmarks, fun b hb ↦ ?_, hgit, hslash,
    fun e he hs ↦ ?_⟩
  · rw [hrest, hwhole] at hctl
    exact ⟨hctl b hb, hall b hb⟩
  · refine not_suffix_trimSpace r.canonicalURL e he ?_
    rw [htrim, hrest]
    exact hs.trans (rest_suffix _ _ _)

variable (lower) in
/-- A URL with a plain authority and a rest in which nothing is decoded or cut. -/
theorem readParts_plain {scheme authority host rest : Bytes} (hs : Opening scheme)
    (ha : ∀ b ∈ authority, (b ≠ Byte.slash ∧ b ≠ Byte.question ∧ b ≠ Byte.sharp) ∧ ¬isCTL b)
    (hhost : parseAuthority authority = some host) (hne : hostnameOf host ≠ [])
    (hr : ∀ b ∈ rest, ¬isCTL b ∧ b ≠ Byte.percent ∧ b ≠ Byte.sharp ∧ b ≠ Byte.question)
    (hspace : ∀ e ∈ spaces, ¬e <:+ rest) (hpath : repoPath (slash :: rest) ≠ []) :
    readParts lower (scheme ++ Byte.colon :: Byte.slash :: Byte.slash :: (authority ++ Byte.slash :: rest)) =
      some (lower.toLower (hostnameOf host), repoPath (slash :: rest)) := by
  have htrim : trimSpace (scheme ++ Byte.colon :: Byte.slash :: Byte.slash :: (authority ++ Byte.slash :: rest)) =
      scheme ++ Byte.colon :: Byte.slash :: Byte.slash :: (authority ++ Byte.slash :: rest) := by
    refine trimSpace_eq (hs.not_space_prefix _) fun e he hsuf ↦ hspace e he ?_
    refine space_suffix (c := Byte.slash) (by decide) he (s := scheme ++ Byte.colon :: Byte.slash :: Byte.slash :: authority) ?_
    simpa using hsuf
  have hsharp : rest.takeWhile (· ≠ Byte.sharp) = rest :=
    List.takeWhile_eq_self_iff.mpr fun b hb ↦ decide_eq_true (hr b hb).2.2.1
  have hquestion : rest.takeWhile (· ≠ Byte.question) = rest :=
    List.takeWhile_eq_self_iff.mpr fun b hb ↦ decide_eq_true (hr b hb).2.2.2
  have hfragment : rest.dropWhile (· ≠ Byte.sharp) = [] :=
    List.dropWhile_eq_nil_iff.mpr fun b hb ↦ decide_eq_true (hr b hb).2.2.1
  have hread : unescape .path (Byte.slash :: rest) = some (Byte.slash :: rest) := by
    refine unescape_self (fun hm ↦ ?_) fun _ _ ↦ rfl
    rcases List.mem_cons.mp hm with he | hm
    · exact absurd he (by decide)
    · exact (hr _ hm).2.1 rfl
  refine (readParts_authority hs (fun b hb ↦ (ha b hb).1) htrim).mpr ?_
  rw [hsharp, hquestion, hfragment]
  exact ⟨⟨fun b hb ↦ (ha b hb).2, fun b hb ↦ (hr b hb).1⟩, rfl, host, _, hhost, hread,
    fun hnil ↦ hne ((lower.eq_nil _).mp hnil), hpath, rfl⟩

theorem RepoRef.path_ne_nil (r : RepoRef) : r.path ≠ [] :=
  List.append_ne_nil_of_right_ne_nil _ (List.cons_ne_nil _ _)

/-- A reference whose parts the readers leave as they are. -/
structure PlainRef (lower : CaseMapping) (r : RepoRef) : Prop where
  lowered : lower.toLower r.host = r.host
  host : r.host ≠ [] ∧ PlainHost r.host
  owner : r.owner ≠ []
  repo : slash ∉ r.repo
  path : PlainPath r.path

theorem PlainRef.repo_ne_nil {r : RepoRef} (h : PlainRef lower r) : r.repo ≠ [] := fun hnil ↦
  h.path.slash ⟨r.owner, by rw [RepoRef.path, hnil]⟩

inductive Form
  | https
  | ssh
  | scp
  deriving DecidableEq

/-- A spelling of a repository: the case of its host, a port, `.git` and a slash at the end are free. -/
structure Spelling (lower : CaseMapping) (r : RepoRef) where
  form : Form
  host : Bytes
  sameHost : lower.toLower host = r.host
  port : Option Bytes := none
  digits : ∀ digits ∈ port, ∀ b ∈ digits, GoURL.isDigit b
  dotGit : Bool := false
  trailingSlash : Bool := false

theorem not_suffix_concat {u front : Bytes} {c d : UInt8} (h : c ≠ d) : ¬u ++ [c] <:+ front ++ [d] := by
  rintro ⟨t, ht⟩
  rw [← List.append_assoc] at ht
  exact h (List.singleton_inj.mp (List.append_inj' ht rfl).2)

theorem not_git_suffix (front : Bytes) : ¬text ".git" <:+ front ++ [slash] := by
  have hgit : text ".git" = [46, 103, 105] ++ [116] := by decide
  rw [hgit]
  exact not_suffix_concat (by decide)

namespace Spelling

variable {r : RepoRef} (s : Spelling lower r)

def ending : Bytes := (if s.dotGit then text ".git" else []) ++ if s.trailingSlash then [slash] else []

def tail : Bytes := r.path ++ s.ending

/-- The `scp` form has no place for a port. -/
def written : Bytes :=
  match s.form with
  | .https => text "https" ++ Byte.colon :: Byte.slash :: Byte.slash ::
      ((s.host ++ portText s.port) ++ Byte.slash :: s.tail)
  | .ssh => text "ssh" ++ Byte.colon :: Byte.slash :: Byte.slash ::
      ((text "git" ++ Byte.at' :: (s.host ++ portText s.port)) ++ Byte.slash :: s.tail)
  | .scp => text "git@" ++ (s.host ++ colon :: s.tail)

/-- The parser takes off what the spelling has at its end. -/
def Stripped : Prop := s.trailingSlash = false ∨ s.form ≠ .scp ∧ s.dotGit = false

theorem tail_bytes (h : PlainRef lower r) :
    ∀ b ∈ s.tail, ¬isCTL b ∧ b ≠ Byte.percent ∧ b ≠ Byte.sharp ∧ b ≠ Byte.question := by
  have hend : ∀ git trailing : Bool, ∀ b ∈ (if git then text ".git" else []) ++ (if trailing then [slash] else []),
      ¬isCTL b ∧ b ≠ Byte.percent ∧ b ≠ Byte.sharp ∧ b ≠ Byte.question := by
    decide +kernel
  intro b hb
  rcases List.mem_append.mp hb with hb | hb
  · exact h.path.bytes b hb
  · exact hend s.dotGit s.trailingSlash b hb

theorem tail_space (h : PlainRef lower r) : ∀ e ∈ spaces, ¬e <:+ s.tail := by
  have hlast : ∀ (c : UInt8) (front : Bytes), (∀ e ∈ spaces, c ∉ e) → ∀ e ∈ spaces, ¬e <:+ front ++ [c] :=
    fun c front hc e he hs ↦ by
      have hnil := List.suffix_nil.mp (space_suffix hc he hs)
      exact absurd (hnil ▸ he) (by decide)
  have hgit : text ".git" = [46, 103, 105] ++ [116] := by decide
  unfold tail ending
  cases s.trailingSlash with
  | true =>
    rw [if_pos rfl, ← List.append_assoc]
    exact hlast slash _ (by decide)
  | false =>
    cases s.dotGit with
    | true =>
      rw [if_pos rfl, if_neg (by decide), List.append_nil, hgit, ← List.append_assoc]
      exact hlast 116 _ (by decide)
    | false =>
      rw [if_neg (by decide), if_neg (by decide), List.append_nil, List.append_nil]
      exact h.path.space

theorem host_plain (h : PlainRef lower r) : PlainHost s.host := by
  intro b hb
  by_cases hmark : isMark b
  · exact h.host.2 b (s.sameHost ▸ (mem_toLower hmark).mpr hb)
  · exact plain_of_not_isMark hmark

theorem host_ne_nil (h : PlainRef lower r) : s.host ≠ [] := fun hnil ↦
  h.host.1 (s.sameHost ▸ (lower.eq_nil s.host).mpr hnil)

/-- What is left of the end of a URL with a scheme. -/
theorem repoPath_tail (h : PlainRef lower r) :
    repoPath (slash :: s.tail) = r.path ++ if s.dotGit && s.trailingSlash then text ".git" else [] := by
  rw [repoPath_slash, tail, ending]
  cases s.dotGit with
  | true =>
    cases s.trailingSlash with
    | true =>
      rw [if_pos rfl, if_pos rfl, ← List.append_assoc, trimSuffix_self (not_git_suffix _), trimSuffix_append]
      rfl
    | false =>
      rw [if_pos rfl, if_neg (by decide), List.append_nil, trimSuffix_append, trimSuffix_self h.path.slash]
      exact (List.append_nil _).symm
  | false =>
    cases s.trailingSlash with
    | true =>
      rw [if_neg (by decide), if_pos rfl, List.nil_append, trimSuffix_self (not_git_suffix _), trimSuffix_append]
      exact (List.append_nil _).symm
    | false =>
      rw [if_neg (by decide), if_neg (by decide), List.append_nil, List.append_nil, trimSuffix_self h.path.git,
        trimSuffix_self h.path.slash]
      exact (List.append_nil _).symm

/-- What is left of the end of an `scp` spelling. -/
theorem trimSuffix_tail (h : PlainRef lower r) :
    trimSuffix (text ".git") s.tail = if s.trailingSlash then s.tail else r.path := by
  rw [tail, ending]
  cases s.trailingSlash with
  | true =>
    rw [if_pos rfl, if_pos rfl, ← List.append_assoc, trimSuffix_self (not_git_suffix _)]
  | false =>
    rw [if_neg Bool.false_ne_true, if_neg Bool.false_ne_true, List.append_nil]
    cases s.dotGit with
    | true => rw [if_pos rfl, trimSuffix_append]
    | false => rw [if_neg Bool.false_ne_true, List.append_nil, trimSuffix_self h.path.git]

theorem parseAuthority_host (h : PlainRef lower r) :
    parseAuthority (s.host ++ portText s.port) = some (s.host ++ portText s.port) := by
  rw [parseAuthority, if_neg (notMem_host_port (s.host_plain h) s.digits (by decide) (.inl (by decide)))]
  exact (parseHost_port (s.host_plain h) s.digits).1

theorem parseAuthority_git (h : PlainRef lower r) :
    parseAuthority (text "git" ++ Byte.at' :: (s.host ++ portText s.port)) = some (s.host ++ portText s.port) := by
  have hat : Byte.at' ∉ s.host ++ portText s.port :=
    notMem_host_port (s.host_plain h) s.digits (by decide) (.inl (by decide))
  have hvalid : (validUserinfo (text "git") && decodable .userPassword ((text "git").takeWhile (· ≠ Byte.colon)) &&
      decodable .userPassword (((text "git").dropWhile (· ≠ Byte.colon)).drop 1)) = true := by
    decide
  unfold parseAuthority
  rw [if_pos (List.mem_append_right _ List.mem_cons_self), splitLast_append hat]
  simp only
  rw [if_pos hvalid]
  exact (parseHost_port (s.host_plain h) s.digits).1

/-- A spelling with a scheme, its authority being the host and the port behind what names a user. -/
theorem readParts_scheme (h : PlainRef lower r) {scheme authority : Bytes} (hs : Opening scheme)
    (hread : parseAuthority authority = some (s.host ++ portText s.port))
    (ha : ∀ b ∈ authority, (b ≠ Byte.slash ∧ b ≠ Byte.question ∧ b ≠ Byte.sharp) ∧ ¬isCTL b) :
    readParts lower (scheme ++ Byte.colon :: Byte.slash :: Byte.slash :: (authority ++ Byte.slash :: s.tail)) =
      some (r.host, repoPath (slash :: s.tail)) := by
  have hname := (parseHost_port (s.host_plain h) s.digits).2
  have hne : hostnameOf (s.host ++ portText s.port) ≠ [] := by
    rw [hname]
    exact s.host_ne_nil h
  have hpath : repoPath (slash :: s.tail) ≠ [] := by
    rw [s.repoPath_tail h]
    exact List.append_ne_nil_of_left_ne_nil r.path_ne_nil _
  rw [readParts_plain lower hs ha hread hne (s.tail_bytes h) (s.tail_space h) hpath, hname, s.sameHost]

/-- An `scp` spelling. -/
theorem readParts_scp (h : PlainRef lower r) :
    readParts lower (text "git@" ++ (s.host ++ colon :: s.tail)) = some (r.host, trimSuffix (text ".git") s.tail) := by
  have hgit : text "git@" = [103, 105, 116, 64] := by decide
  have htrim : trimSpace (text "git@" ++ (s.host ++ colon :: s.tail)) = text "git@" ++ (s.host ++ colon :: s.tail) := by
    refine trimSpace_eq ?_ fun e he hsuf ↦ s.tail_space h e he ?_
    · rw [hgit]
      exact not_space_prefix (by decide) _
    · refine space_suffix (c := colon) (by decide) he (s := text "git@" ++ s.host) ?_
      rwa [List.append_assoc]
  have hcolon : colon ∉ s.host := (s.host_plain h).notMem (by decide) (.inr (.inl rfl))
  have hslash : slash ∈ s.tail := List.mem_append_left _ (List.mem_append_right _ List.mem_cons_self)
  have hnewline : newline ∉ s.tail := fun hm ↦ (s.tail_bytes h _ hm).1 (by decide)
  have hnotgit : s.tail ≠ text ".git" := fun he ↦ absurd (he ▸ hslash) (by decide)
  have hdrop : (text "git@" ++ (s.host ++ colon :: s.tail)).drop 4 = s.host ++ colon :: s.tail := by
    rw [hgit]
    rfl
  have hmatch : sshMatch (text "git@" ++ (s.host ++ colon :: s.tail)) =
      some (s.host, trimSuffix (text ".git") s.tail) := by
    unfold sshMatch
    rw [if_pos (List.prefix_append _ _), hdrop, cutFirst_append hcolon]
    simp only
    rw [if_neg, if_neg hnotgit]
    rintro (hnil | hnil | hm)
    · exact s.host_ne_nil h hnil
    · rw [hnil] at hslash
      cases hslash
    · exact hnewline hm
  unfold readParts
  rw [htrim, hmatch, ← s.sameHost]

theorem readParts_written (h : PlainRef lower r) : readParts lower s.written =
    some (r.host, if s.form = .scp then trimSuffix (text ".git") s.tail else repoPath (slash :: s.tail)) := by
  have hhost := authority_host_port (s.host_plain h) s.digits
  have hgit : ∀ b ∈ text "git", (b ≠ Byte.slash ∧ b ≠ Byte.question ∧ b ≠ Byte.sharp) ∧ ¬isCTL b := by
    decide +kernel
  unfold written
  cases s.form with
  | https => exact s.readParts_scheme h opening_https (s.parseAuthority_host h) hhost
  | ssh =>
    refine s.readParts_scheme h opening_ssh (s.parseAuthority_git h) fun b hb ↦ ?_
    rcases List.mem_append.mp hb with hb | hb
    · exact hgit b hb
    · rcases List.mem_cons.mp hb with rfl | hb
      · decide
      · exact hhost b hb
  | scp => exact s.readParts_scp h

/-- The form and the end of a spelling decide whether it is read as the repository it spells. -/
theorem parse_written_iff (h : PlainRef lower r) :
    parseRepoURL lower.library s.written = some r ↔ s.Stripped := by
  have hlonger : ∀ t : Bytes, t ≠ [] → r.path ++ t ≠ r.path := fun t ht he ↦
    ht (List.append_right_eq_self.mp he)
  rw [parseRepoURL_eq_some, s.readParts_written h, and_iff_left ⟨h.repo, h.owner⟩, Option.some_inj, Prod.mk.injEq,
    and_iff_right rfl, Stripped]
  by_cases hscp : s.form = .scp
  · rw [if_pos hscp, s.trimSuffix_tail h]
    cases htrailing : s.trailingSlash with
    | true =>
      have hending : s.ending ≠ [] := by
        rw [ending, htrailing]
        exact List.append_ne_nil_of_right_ne_nil _ (List.cons_ne_nil _ _)
      exact iff_of_false (hlonger _ hending) fun hor ↦ hor.elim (fun hf ↦ (by cases hf)) fun hf ↦ hf.1 hscp
    | false => exact iff_of_true rfl (.inl rfl)
  · rw [if_neg hscp, s.repoPath_tail h]
    cases hboth : s.dotGit && s.trailingSlash with
    | true =>
      obtain ⟨hgit, htrailing⟩ := Bool.and_eq_true_iff.mp hboth
      refine iff_of_false (hlonger _ (by decide)) ?_
      rw [hgit, htrailing]
      rintro (hf | ⟨-, hf⟩) <;> cases hf
    | false =>
      refine iff_of_true (List.append_nil _) ?_
      exact (Bool.and_eq_false_iff.mp hboth).elim (fun hgit ↦ .inr ⟨hscp, hgit⟩) .inl

end Spelling

/-- The canonical URL is a spelling of its own. -/
theorem PlainRef.canonicalURL {r : RepoRef} (h : PlainRef lower r) :
    parseRepoURL lower.library r.canonicalURL = some r := by
  let s : Spelling lower r := ⟨.https, r.host, h.lowered, none, fun _ hp ↦ (by cases hp), false, false⟩
  have hwritten : r.canonicalURL = s.written := by
    rw [canonicalURL_eq]
    change _ = text "https" ++ Byte.colon :: Byte.slash :: Byte.slash ::
      ((r.host ++ []) ++ Byte.slash :: (r.path ++ ([] ++ [])))
    rw [List.append_nil, List.append_nil, List.append_nil]
  rw [hwritten]
  exact (s.parse_written_iff h).mpr (.inl rfl)

/-- What an accepted URL is read as is what its canonical URL is read as. -/
def Canonical (lower : CaseMapping) (rawURL : Bytes) : Prop :=
  ∀ r, parseRepoURL lower.library rawURL = some r →
    parseRepoURL lower.library r.canonicalURL = some r ∧ r.owner ≠ [] ∧ r.repo ≠ []

/-- The host and the path of a URL whose path can be split hold nothing that a second reading
would change. -/
def ReadsPlainly (lower : CaseMapping) (rawURL : Bytes) : Prop :=
  ∀ host path, readParts lower rawURL = some (host, path) → splitOwnerRepo path ≠ none →
    host ≠ [] ∧ PlainHost host ∧ PlainPath path

theorem readParts_lowered {rawURL host path : Bytes} (h : readParts lower rawURL = some (host, path)) :
    lower.toLower host = host := by
  unfold readParts at h
  split at h
  · cases h
    exact lower.lowered _
  · obtain ⟨u, -, hp⟩ := Option.bind_eq_some_iff.mp h
    split at hp
    · cases hp
      exact lower.lowered _
    · cases hp

theorem canonical_iff_readsPlainly (rawURL : Bytes) : Canonical lower rawURL ↔ ReadsPlainly lower rawURL := by
  constructor
  · intro h host path hparts hsplit
    obtain ⟨⟨owner, repo⟩, hsplit⟩ := Option.ne_none_iff_exists'.mp hsplit
    obtain ⟨rfl, hrepo, howner⟩ := splitOwnerRepo_eq_some.mp hsplit
    have hr : parseRepoURL lower.library rawURL = some ⟨host, owner, repo⟩ :=
      parseRepoURL_eq_some.mpr ⟨hparts, hrepo, howner⟩
    exact plain_of_canonicalURL (h _ hr).1
  · intro h r hr
    obtain ⟨hparts, hrepo, howner⟩ := parseRepoURL_eq_some.mp hr
    have hsome : splitOwnerRepo r.path = some (r.owner, r.repo) :=
      splitOwnerRepo_eq_some.mpr ⟨rfl, hrepo, howner⟩
    have hsplit : splitOwnerRepo r.path ≠ none := by
      rw [hsome]
      exact Option.some_ne_none _
    obtain ⟨hne, hhost, hpath⟩ := h r.host r.path hparts hsplit
    have hplain : PlainRef lower r := ⟨readParts_lowered hparts, ⟨hne, hhost⟩, howner, hrepo, hpath⟩
    exact ⟨hplain.canonicalURL, howner, hplain.repo_ne_nil⟩

theorem repoURL_canonical_iff (lower : CaseMapping) :
    (∀ rawURL, Canonical lower rawURL ↔ ReadsPlainly lower rawURL) ∧
      ∀ (r : {r : RepoRef // PlainRef lower r}) (s : Spelling lower r.1),
        parseRepoURL lower.library s.written = some r.1 ↔ s.Stripped :=
  ⟨canonical_iff_readsPlainly, fun r s ↦ s.parse_written_iff r.2⟩

theorem lowerByte_cases (b : UInt8) : lowerByte (lowerByte b) = lowerByte b ∧ isMark (lowerByte b) = isMark b ∧
    (isMark b → lowerByte b = b) := by
  have hall : ∀ n < 256, lowerByte (lowerByte (UInt8.ofNat n)) = lowerByte (UInt8.ofNat n) ∧
      isMark (lowerByte (UInt8.ofNat n)) = isMark (UInt8.ofNat n) ∧
        (isMark (UInt8.ofNat n) → lowerByte (UInt8.ofNat n) = UInt8.ofNat n) := by
    decide +kernel
  have hb := hall b.toNat b.toNat_lt
  rwa [UInt8.ofNat_toNat] at hb

/-- Lowering the ASCII letters, which is all there is to lower in a text of ASCII. -/
def asciiCase : CaseMapping where
  toLower := List.map lowerByte
  lowered s := by
    rw [List.map_map]
    exact List.map_congr_left fun b _ ↦ (lowerByte_cases b).1
  keeps s := by
    induction s with
    | nil => rfl
    | cons b s ih =>
      obtain ⟨-, hmark, hsame⟩ := lowerByte_cases b
      rw [List.map_cons, List.filter_cons, List.filter_cons, hmark, ih]
      split
      · next h => rw [hsame h]
      · rfl
  eq_nil _ := List.map_eq_nil_iff

/-- The slash behind `.git` keeps the suffix, which the canonical URL then loses. -/
theorem not_canonical : ¬∀ (lower : CaseMapping) (rawURL : Bytes), Canonical lower rawURL := by
  intro h
  have hread : parseRepoURL asciiCase.library (text "https://github.com/org/repo.git/") =
      some ⟨text "github.com", text "org", text "repo.git"⟩ := by
    decide +kernel
  have hagain := (h asciiCase _ _ hread).1
  exact absurd hagain (by decide +kernel)

end KubeCenter.GitProvider
