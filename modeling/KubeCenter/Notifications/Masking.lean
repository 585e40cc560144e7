import KubeCenter.Core.JsonSecrets
import KubeCenter.Notifications.Channels

/-! What the masks of a channel's configuration show of its secrets. -/

namespace KubeCenter.Notifications

open KubeCenter.Core
open KubeCenter.Core.JsonSecrets (visible hasSecret mapSecrets)

/-- The header fields that `sendWebhook` reads. -/
def headersAt (key : String) : Json → Option Fields
  | .object fields => if key = "headers" then some fields else none
  | _ => none

section

variable (toLower : Char → Char)

/-- What there is to see of an entry but its secrets: the strings under sensitive keys, at any depth, and every
header value. -/
def visibleAt (key : String) (v : Json) : Json :=
  if isSensitiveKey toLower key then visible (isSensitiveKey toLower) true v
  else
    match headersAt key v with
    | some fields => .object (fields.map (fun field ↦ (field.1, .null)))
    | none => visible (isSensitiveKey toLower) false v

def DifferInSecrets (cfg cfg' : ChannelConfig) : Prop :=
  ∀ key, (cfg.lookup key).map (visibleAt toLower key) = (cfg'.lookup key).map (visibleAt toLower key)

/-- The mask of a string under a sensitive key, with its end if the string is longer than four, as `len` counts. -/
def MaskOf (v m : Json) : Prop :=
  ∃ s shown, v = .string s ∧ m = .string ("****" ++ shown) ∧ (shown ≠ "" → 4 < s.utf8ByteSize)

/-- Both documents have the same under the key, up to the ends of strings that their masks show. -/
def SameUpToEnds (cfg cfg' : ChannelConfig) (key : String) : Prop :=
  (maskConfig toLower cfg).lookup key = (maskConfig toLower cfg').lookup key ∨
    isSensitiveKey toLower key ∧ ∃ v v' m m', cfg.lookup key = some v ∧ cfg'.lookup key = some v' ∧
      (maskConfig toLower cfg).lookup key = some m ∧ (maskConfig toLower cfg').lookup key = some m' ∧
        MaskOf v m ∧ MaskOf v' m'

/-- No configuration that differs from this one in secrets only has another masked document. -/
def HidesSecrets (cfg : ChannelConfig) : Prop :=
  ∀ cfg', DifferInSecrets toLower cfg cfg' → ∀ key, SameUpToEnds toLower cfg cfg' key

/-- A top-level entry that is copied has no header and no string under a sensitive key. -/
def NothingToHide (key : String) (v : Json) : Prop :=
  match headersAt key v with
  | some fields => fields = []
  | none => hasSecret (isSensitiveKey toLower) false v = false

/-- All secrets stand under sensitive top-level keys. -/
def Confined (cfg : ChannelConfig) : Prop :=
  ∀ key v, cfg.lookup key = some v → isSensitiveKey toLower key = false → NothingToHide toLower key v

end

variable {toLower : Char → Char} {cfg cfg' : ChannelConfig} {key : String} {v v' : Json}

theorem lookup_maskConfig : (maskConfig toLower cfg).lookup key =
    (cfg.lookup key).map (fun v ↦ if isSensitiveKey toLower key then maskValue v else v) :=
  GoMap.lookup_mapValues _ _ _

theorem maskOf_maskValue (s : String) : MaskOf (.string s) (maskValue (.string s)) := by
  simp only [maskValue]
  split
  · next hlong => exact ⟨s, _, rfl, rfl, fun _ ↦ hlong⟩
  · exact ⟨s, "", rfl, rfl, fun h ↦ absurd rfl h⟩

/-- Under a sensitive key the mask shows what is to be seen, and the end of a string. -/
theorem maskValue_of_visible (h : visible (isSensitiveKey toLower) true v = visible (isSensitiveKey toLower) true v') :
    maskValue v = maskValue v' ∨ ∃ s s', v = .string s ∧ v' = .string s' := by
  cases v with
  | string s =>
    cases v' with
    | string s' => exact .inr ⟨s, s', rfl, rfl⟩
    | _ => cases h
  | object fields =>
    cases v' with
    | object fields' =>
      have hkeys := congrArg (List.map Prod.fst) (Json.object.inj h)
      rw [JsonSecrets.keys_mapFields, JsonSecrets.keys_mapFields] at hkeys
      have hmask := congrArg (List.map (fun k ↦ (k, Json.string "****"))) hkeys
      rw [List.map_map, List.map_map] at hmask
      exact .inl (congrArg Json.object hmask)
    | _ => cases h
  | _ => cases v' with
    | string _ | object _ => cases h
    | _ => exact .inl rfl

theorem headersAt_eq_some {fields : Fields} (h : headersAt key v = some fields) :
    key = "headers" ∧ v = .object fields := by
  unfold headersAt at h
  split at h
  · split at h
    · next hkey =>
      cases h
      exact ⟨hkey, rfl⟩
    · cases h
  · cases h

/-- An entry with nothing to hide is seen as a whole. -/
theorem eq_of_visibleAt (hkey : isSensitiveKey toLower key = false) (hn : NothingToHide toLower key v)
    (h : visibleAt toLower key v = visibleAt toLower key v') : v = v' := by
  unfold NothingToHide at hn
  unfold visibleAt at h
  rw [hkey] at h
  simp only [Bool.false_eq_true, if_false] at h
  cases hv : headersAt key v with
  | some fields =>
    obtain ⟨rfl, rfl⟩ := headersAt_eq_some hv
    rw [hv] at hn h
    cases hv' : headersAt "headers" v' with
    | some fields' =>
      obtain ⟨-, rfl⟩ := headersAt_eq_some hv'
      rw [hv'] at h
      simp only at hn
      have hempty := Json.object.inj h
      rw [hn, List.map_nil, eq_comm, List.map_eq_nil_iff] at hempty
      rw [hn, hempty]
    | none =>
      rw [hv'] at h
      cases v' with
      | object fields' => cases hv'
      | _ => cases h
  | none =>
    rw [hv] at hn h
    cases hv' : headersAt key v' with
    | some fields' =>
      obtain ⟨rfl, rfl⟩ := headersAt_eq_some hv'
      rw [hv'] at h
      cases v with
      | object fields => cases hv
      | _ => cases h
    | none =>
      rw [hv'] at h
      exact JsonSecrets.eq_of_visible hn h

theorem hidesSecrets_of_confined (hc : Confined toLower cfg) : HidesSecrets toLower cfg := by
  intro cfg' hdiffer key
  have hkey := hdiffer key
  unfold SameUpToEnds
  rw [lookup_maskConfig, lookup_maskConfig]
  cases hv : cfg.lookup key with
  | none =>
    rw [hv, Option.map_none, eq_comm, Option.map_eq_none_iff] at hkey
    rw [hkey]
    exact .inl rfl
  | some v =>
    rw [hv, Option.map_some, eq_comm, Option.map_eq_some_iff] at hkey
    obtain ⟨v', hv', hvisible⟩ := hkey
    rw [hv']
    by_cases hs : isSensitiveKey toLower key = true
    · unfold visibleAt at hvisible
      rw [if_pos hs, if_pos hs] at hvisible
      simp only [Option.map_some, if_pos hs]
      obtain hmask | ⟨s, s', rfl, rfl⟩ := maskValue_of_visible hvisible.symm
      · exact .inl (congrArg some hmask)
      · exact .inr ⟨hs, _, _, _, _, rfl, rfl, rfl, rfl, maskOf_maskValue s, maskOf_maskValue s'⟩
    · rw [Bool.not_eq_true] at hs
      rw [eq_of_visibleAt hs (hc key v hv hs) hvisible.symm]
      exact .inl rfl

theorem headersAt_mapSecrets {f : String → String} (inside : Bool) (h : headersAt key v = none) :
    headersAt key (mapSecrets (isSensitiveKey toLower) f inside v) = none := by
  cases v with
  | object fields =>
    by_cases hkey : key = "headers"
    · rw [headersAt, if_pos hkey] at h
      cases h
    · exact if_neg hkey
  | _ => rfl

/-- Where there is something to hide, something else looks the same. -/
theorem exists_other (hkey : isSensitiveKey toLower key = false) (hn : ¬ NothingToHide toLower key v) :
    ∃ v', v' ≠ v ∧ visibleAt toLower key v' = visibleAt toLower key v := by
  unfold NothingToHide at hn
  unfold visibleAt
  rw [hkey]
  simp only [Bool.false_eq_true, if_false]
  cases hv : headersAt key v with
  | some fields =>
    obtain ⟨rfl, rfl⟩ := headersAt_eq_some hv
    rw [hv] at hn
    cases fields with
    | nil => exact absurd rfl hn
    | cons field fields =>
      obtain ⟨other, hother⟩ : ∃ other : Json, other ≠ field.2 := by
        cases field.2 with
        | null => exact ⟨.bool true, nofun⟩
        | _ => exact ⟨.null, nofun⟩
      refine ⟨.object ((field.1, other) :: fields), fun he ↦ ?_, rfl⟩
      exact hother (congrArg Prod.snd (List.cons.inj (Json.object.inj he)).1)
  | none =>
    rw [hv] at hn
    have hchange : ∀ s : String, s ++ "x" ≠ s := by
      intro s he
      have := congrArg String.length he
      rw [String.length_append] at this
      exact absurd this (Nat.ne_of_gt (Nat.lt_add_of_pos_right (by decide)))
    refine ⟨mapSecrets (isSensitiveKey toLower) (· ++ "x") false v, fun he ↦ ?_, ?_⟩
    · exact hn (JsonSecrets.hasSecret_eq_false hchange false v he)
    · rw [headersAt_mapSecrets false hv]
      exact JsonSecrets.visible_mapSecrets false v

theorem confined_of_hidesSecrets (h : HidesSecrets toLower cfg) : Confined toLower cfg := by
  intro key v hv hkey
  by_contra hn
  obtain ⟨v', hne, hvisible⟩ := exists_other hkey hn
  -- the configuration with the other value in its place
  have hlookup (k : String) : (cfg.mapValues (fun k w ↦ if k = key then v' else w)).lookup k =
      (cfg.lookup k).map (fun w ↦ if k = key then v' else w) := GoMap.lookup_mapValues _ _ _
  have hdiffer : DifferInSecrets toLower cfg (cfg.mapValues (fun k w ↦ if k = key then v' else w)) := by
    intro k
    rw [hlookup]
    by_cases hk : k = key
    · subst hk
      rw [hv]
      simp [hvisible]
    · simp [hk]
  obtain hsame | ⟨hs, -⟩ := h _ hdiffer key
  · rw [lookup_maskConfig, lookup_maskConfig, hlookup, hv, hkey] at hsame
    simp only [Bool.false_eq_true, if_false, Option.map_some, if_true, Option.some.injEq] at hsame
    exact hne hsame.symm
  · rw [hkey] at hs
    cases hs

/-- The end that a mask shows depends on as many characters as it has bytes. -/
theorem lastBytes_take {n m : ℕ} (h : n ≤ m) (cs : List Char) : lastBytes n (cs.take m) = lastBytes n cs := by
  induction cs generalizing n m with
  | nil => rw [List.take_nil]
  | cons c cs ih =>
    cases n with
    | zero => rw [lastBytes, lastBytes]
    | succ n =>
      obtain ⟨m, rfl⟩ : ∃ k, m = k + 1 := ⟨m - 1, by omega⟩
      have hsize := c.utf8Size_pos
      rw [List.take_succ_cons, lastBytes, lastBytes, ih (by omega)]

theorem maskValue_congr {s s' : String} (hs : 4 < s.utf8ByteSize) (hs' : 4 < s'.utf8ByteSize)
    (h : s.toList.reverse.take 4 = s'.toList.reverse.take 4) : maskValue (.string s) = maskValue (.string s') := by
  simp only [maskValue, if_pos hs, if_pos hs']
  rw [← lastBytes_take (Nat.le_refl 4), h, lastBytes_take (Nat.le_refl 4)]

/-- The masked document tells nothing of the secrets exactly if they all stand under sensitive top-level keys; of the
string under such a key that is longer than four it shows no more than the last four characters. -/
theorem hidesSecrets_iff (toLower : Char → Char) :
    (∀ cfg, HidesSecrets toLower cfg ↔ Confined toLower cfg) ∧
      ∀ s s' : String, 4 < s.utf8ByteSize → 4 < s'.utf8ByteSize →
        s.toList.reverse.take 4 = s'.toList.reverse.take 4 → maskValue (.string s) = maskValue (.string s') :=
  ⟨fun _ ↦ ⟨confined_of_hidesSecrets, hidesSecrets_of_confined⟩, fun _ _ hs hs' h ↦ maskValue_congr hs hs' h⟩

/-- The configuration of a webhook, with a header that authorizes its calls. -/
def webhookConfig : ChannelConfig :=
  (AList.singleton "headers" (.object [("Authorization", .string "Bearer 7f3a")])).insert "url"
    (.string "https://hooks.example/T1")

theorem not_hidesSecrets : ¬ HidesSecrets Char.toLower webhookConfig := by
  intro h
  have hheaders : webhookConfig.lookup "headers" = some (.object [("Authorization", .string "Bearer 7f3a")]) := rfl
  have hnothing := confined_of_hidesSecrets h "headers" _ hheaders (by decide)
  simp [NothingToHide, headersAt] at hnothing

end KubeCenter.Notifications
