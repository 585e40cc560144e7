import KubeCenter.Auth.Identity
import KubeCenter.Core.DistinguishedName

/-! The name of a group, as the extractor cuts it out of the group's distinguished name. -/

namespace KubeCenter.Auth

open KubeCenter.Core

def groupName (dn : DistinguishedName) : String := extractCNFromDN (String.ofList dn.written)

/-- What the extractor is there for. -/
def ReturnsCN (dn : DistinguishedName) : Prop := utf8 (groupName dn).toList = dn.cn

/-- The text before the first `=` is `CN` in some case, with no space and no object identifier. -/
def opensWithCN (r : RelativeName) : Prop := r.first.label.map Char.toUpper = ['C', 'N']

instance (r : RelativeName) : Decidable (opensWithCN r) :=
  inferInstanceAs (Decidable (r.first.label.map Char.toUpper = ['C', 'N']))

/-- The one attribute of the relative name is its value, bare, from the `=` to the end. -/
def standsBare (r : RelativeName) : Prop :=
  r.more = [] ∧ r.first.afterEquals = 0 ∧ r.first.after = 0 ∧ r.first.value.isVerbatim

def writtenForExtractor : DistinguishedName → Prop
  | [] => True
  | r :: _ => (opensWithCN r → standsBare r) ∧ (¬opensWithCN r → r.cn = [])

theorem toUpper_eq_equals {c : Char} (h : c.toUpper = '=') : c = '=' := by
  unfold Char.toUpper at h
  split at h
  · next hrange =>
    have hval := congrArg Char.val h
    simp only at hval
    have hc : c.val = '='.val - ('A'.val - 'a'.val) := by rw [← hval, UInt32.add_sub_cancel]
    have hlow := hrange.1
    rw [hc] at hlow
    exact absurd hlow (by decide)
  · exact h

/-- The first three characters are `CN=` in some case exactly where the text before the first `=`
is `CN`. -/
theorem take_three_iff {label : Text} (h : '=' ∉ label) (rest : Text) :
    ((label ++ '=' :: rest).take 3).map Char.toUpper = ['C', 'N', '='] ↔
      label.map Char.toUpper = ['C', 'N'] := by
  match label with
  | [] => simp
  | [a] => simp
  | [a, b] => simp
  | a :: b :: c :: label =>
    have hc : c.toUpper ≠ '=' := fun he ↦ h (by simp [toUpper_eq_equals he])
    simp [hc]

/-- What stands behind the first attribute, up to the end of the name. -/
def behindFirst (r : RelativeName) (rs : DistinguishedName) : Text :=
  r.more.flatMap (fun a ↦ '+' :: a.written) ++ (rs.map RelativeName.written).flatMap (fun t ↦ ',' :: t)

theorem written_eq (r : RelativeName) (rs : DistinguishedName) :
    DistinguishedName.written (r :: rs) = r.first.label ++ '=' :: (r.first.body ++ behindFirst r rs) := by
  rw [DistinguishedName.written_cons, RelativeName.written, Attribute.written, behindFirst]
  simp only [List.append_assoc, List.cons_append]

theorem groupName_eq (r : RelativeName) (rs : DistinguishedName) :
    (groupName (r :: rs)).toList =
      if opensWithCN r then (r.first.body ++ behindFirst r rs).takeWhile (· ≠ ',') else [] := by
  have hlabel : ∀ c ∈ r.first.label, decide (c ≠ ',') = true := fun c hc ↦
    decide_eq_true fun he ↦ r.first.comma_notMem_label (he ▸ hc)
  have hfirst : (DistinguishedName.written (r :: rs)).takeWhile (· ≠ ',') =
      r.first.label ++ '=' :: (r.first.body ++ behindFirst r rs).takeWhile (· ≠ ',') := by
    rw [written_eq, List.takeWhile_append_of_pos hlabel, List.takeWhile_cons_of_pos (by decide)]
  have hiff := take_three_iff r.first.equals_notMem_label
    ((r.first.body ++ behindFirst r rs).takeWhile (· ≠ ','))
  unfold groupName extractCNFromDN
  simp only [String.toList_ofList, hfirst]
  by_cases hcn : opensWithCN r
  · rw [if_pos (hiff.mpr hcn), if_pos hcn, String.toList_ofList]
    have hlen : r.first.label.length = 2 := by
      have hmap : (r.first.label.map Char.toUpper).length = 2 := congrArg List.length hcn
      rwa [List.length_map] at hmap
    rw [List.drop_append, hlen, List.drop_of_length_le (by omega)]
    rfl
  · rw [if_neg (hiff.not.mpr hcn), if_neg hcn]
    rfl

theorem spaced_ne_comma {n : ℕ} : ∀ c ∈ spaced n, decide (c ≠ ',') = true := fun c hc ↦ by
  rw [mem_spaced hc]
  decide

theorem length_spaced (n : ℕ) : (utf8 (spaced n)).length = n := by
  induction n with
  | zero => rfl
  | succ n ih =>
    rw [spaced, List.replicate_succ, utf8_cons, List.length_append]
    change 1 + (utf8 (spaced n)).length = _
    omega

theorem behindFirst_nil (r : RelativeName) (rs : DistinguishedName) :
    (behindFirst r rs).takeWhile (· ≠ ',') = [] ↔ r.more = [] := by
  unfold behindFirst
  cases r.more with
  | nil =>
    cases rs <;> simp
  | cons a more => simp

/-- The text the extractor returns where the name opens with `CN=` is the value of the attribute
only where nothing but the value, bare, stands in it: a comma in the value is lost, and anything
else makes the text longer than the value. -/
theorem takeWhile_body_iff (r : RelativeName) (rs : DistinguishedName) :
    utf8 ((r.first.body ++ behindFirst r rs).takeWhile (· ≠ ',')) = r.first.value.meaning ↔ standsBare r := by
  by_cases hcomma : ',' ∈ r.first.value.written
  · have hbare : ¬standsBare r := fun ⟨_, _, _, hv⟩ ↦ DNValue.comma_notMem_of_isVerbatim hv hcomma
    refine iff_of_false (fun he ↦ ?_) hbare
    have hm := he ▸ DNValue.comma_mem_written hcomma
    have hc : ',' ∈ (r.first.body ++ behindFirst r rs).takeWhile (· ≠ ',') :=
      mem_of_ascii_mem_utf8 (by decide) hm
    exact absurd (List.all_eq_true.mp List.all_takeWhile ',' hc) (by decide)
  · have hbody : ∀ c ∈ r.first.body, decide (c ≠ ',') = true := fun c hc ↦ by
      rcases List.mem_append.mp hc with hs | hc
      · exact spaced_ne_comma c hs
      · rcases List.mem_append.mp hc with hv | hs
        · exact decide_eq_true fun he ↦ hcomma (he ▸ hv)
        · exact spaced_ne_comma c hs
    have hlen := DNValue.length_meaning r.first.value
    rw [List.takeWhile_append_of_pos hbody]
    constructor
    · intro he
      have hsum := congrArg List.length he
      rw [Attribute.body, utf8_append, utf8_append, utf8_append, List.length_append, List.length_append,
        List.length_append, length_spaced, length_spaced] at hsum
      have hverbatim : r.first.value.isVerbatim := by
        by_contra hv
        rw [if_neg hv] at hlen
        omega
      rw [if_pos hverbatim] at hlen
      have hbehind : (behindFirst r rs).takeWhile (· ≠ ',') = [] :=
        (utf8_nil_iff _).mp (List.length_eq_zero_iff.mp (by omega))
      exact ⟨(behindFirst_nil r rs).mp hbehind, by omega, by omega, hverbatim⟩
    · rintro ⟨hmore, hafterEquals, hafter, hv⟩
      rw [(behindFirst_nil r rs).mpr hmore, Attribute.body, hafterEquals, hafter, List.append_nil]
      change utf8 ([] ++ (r.first.value.written ++ [])) = _
      rw [List.nil_append, List.append_nil]
      exact DNValue.meaning_of_isVerbatim hv

theorem cn_of_opensWithCN {r : RelativeName} (h : opensWithCN r) : r.cn = r.first.value.meaning := by
  have hfind : (r.first :: r.more).find? (fun a ↦ a.attributeType.isCN) = some r.first :=
    List.find?_cons_of_pos (Attribute.isCN_of_label h)
  rw [RelativeName.cn, hfind]
  rfl

theorem returnsCN_iff_written (dn : DistinguishedName) : ReturnsCN dn ↔ writtenForExtractor dn := by
  cases dn with
  | nil => exact iff_of_true rfl trivial
  | cons r rs =>
    unfold ReturnsCN
    rw [groupName_eq]
    change _ = r.cn ↔ (opensWithCN r → standsBare r) ∧ (¬opensWithCN r → r.cn = [])
    by_cases h : opensWithCN r
    · rw [if_pos h, cn_of_opensWithCN h, takeWhile_body_iff]
      exact ⟨fun hb ↦ ⟨fun _ ↦ hb, fun hn ↦ absurd h hn⟩, fun hb ↦ hb.1 h⟩
    · rw [if_neg h]
      exact ⟨fun he ↦ ⟨fun ho ↦ absurd ho h, fun _ ↦ he.symm⟩, fun hb ↦ (hb.2 h).symm⟩

theorem cn_eq_of_groupName_eq {dn dn' : DistinguishedName} (h : writtenForExtractor dn)
    (h' : writtenForExtractor dn') (he : groupName dn = groupName dn') : dn.cn = dn'.cn := by
  have hdn := (returnsCN_iff_written dn).mpr h
  have hdn' := (returnsCN_iff_written dn').mpr h'
  rw [← hdn, ← hdn', he]

theorem map_utf8_filter (names : List String) :
    (names.filter (· ≠ "")).map (fun g ↦ utf8 g.toList) =
      (names.map (fun g ↦ utf8 g.toList)).filter (· ≠ []) := by
  have hempty : ∀ g ∈ names, decide (utf8 g.toList ≠ []) = decide (g ≠ "") := fun g _ ↦
    decide_eq_decide.mpr (not_congr ((utf8_nil_iff _).trans String.toList_eq_nil_iff))
  rw [List.filter_map]
  exact congrArg (List.map _) (List.filter_congr fun g hg ↦ (hempty g hg).symm)

/-- The groups of an entry, where one of them has a CN and each is written for the extractor. -/
theorem getGroups_cn (config : LDAPProviderConfig) {userEntry : DirectoryEntry} {dns : List DistinguishedName}
    (hmember : userEntry.attributes "memberOf" = dns.map (fun dn ↦ String.ofList dn.written))
    (h : ∀ dn ∈ dns, writtenForExtractor dn) (hcn : ∃ dn ∈ dns, dn.cn ≠ [])
    (search : Option (List DirectoryEntry)) :
    (getGroups config userEntry search).map (fun g ↦ utf8 g.toList) =
      (dns.map DistinguishedName.cn).filter (· ≠ []) := by
  have hnames : (userEntry.attributes "memberOf").map extractCNFromDN = dns.map groupName := by
    rw [hmember, List.map_map]
    rfl
  have hmap : (dns.map groupName).map (fun g ↦ utf8 g.toList) = dns.map DistinguishedName.cn := by
    rw [List.map_map]
    refine List.map_congr_left fun dn hdn ↦ ?_
    rw [Function.comp_apply]
    exact (returnsCN_iff_written dn).mpr (h dn hdn)
  have hcns : ((dns.map groupName).filter (· ≠ "")).map (fun g ↦ utf8 g.toList) =
      (dns.map DistinguishedName.cn).filter (· ≠ []) := by
    rw [map_utf8_filter, hmap]
  obtain ⟨dn, hdn, hne⟩ := hcn
  have hsome : (dns.map groupName).filter (· ≠ "") ≠ [] := fun hnil ↦ by
    rw [hnil] at hcns
    have hm : dn.cn ∈ (dns.map DistinguishedName.cn).filter (· ≠ []) :=
      List.mem_filter.mpr ⟨List.mem_map_of_mem hdn, decide_eq_true hne⟩
    rw [← hcns] at hm
    cases hm
  unfold getGroups
  simp only [hnames]
  rw [if_pos hsome, hcns]

theorem group_cn_iff (dn : DistinguishedName) : (ReturnsCN dn ↔ writtenForExtractor dn) ∧
    ∀ dn', writtenForExtractor dn → writtenForExtractor dn' → groupName dn = groupName dn' → dn.cn = dn'.cn :=
  ⟨returnsCN_iff_written dn, fun _ ↦ cn_eq_of_groupName_eq⟩

/-- `CN=a\,b`, with `last` for the `b`. -/
def commaGroup (last : Char) (bare : last ∉ alwaysEscaped) (h : last ≠ ' ') : DistinguishedName :=
  [{ first :=
      { attributeType := .descr 'C' ['N'] (by decide) (List.forall_mem_singleton.mpr (by decide))
        value := .string
          { elements := [.plain 'a' (by decide), .escaped ',' (by decide), .plain last bare]
            opening := fun c _ he ↦ by
              cases he
              decide
            closing := fun c _ he ↦ by
              cases he
              exact h } } }]

theorem groupName_commaGroup (last : Char) (bare : last ∉ alwaysEscaped) (h : last ≠ ' ') :
    (groupName (commaGroup last bare h)).toList = ['a', '\\'] := by
  unfold commaGroup
  rw [groupName_eq]
  exact if_pos rfl

/-- `CN=a\,b` and `CN=a\,c` are both the group `a\`. -/
theorem not_group_cn : (¬∀ dn, ReturnsCN dn) ∧
    ∃ dn dn', groupName dn = groupName dn' ∧ groupName dn ≠ "" ∧ dn.cn ≠ dn'.cn := by
  have hb := groupName_commaGroup 'b' (by decide) (by decide)
  have hc := groupName_commaGroup 'c' (by decide) (by decide)
  refine ⟨fun h ↦ ?_, commaGroup 'b' (by decide) (by decide), commaGroup 'c' (by decide) (by decide), ?_, ?_, ?_⟩
  · have hr : utf8 (groupName (commaGroup 'b' (by decide) (by decide))).toList = _ := h _
    rw [hb] at hr
    exact absurd hr (by decide)
  · exact String.toList_inj.mp (hb.trans hc.symm)
  · intro he
    rw [he] at hb
    cases hb
  · decide

end KubeCenter.Auth
