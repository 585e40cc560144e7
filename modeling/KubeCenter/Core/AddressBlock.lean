import Mathlib.Data.Set.BooleanAlgebra
import Mathlib.Order.CompletePartialOrder
import KubeCenter.Core.GoNet

/-! Networks as blocks of addresses: their text, and when one block is a proper part of another. -/

namespace KubeCenter.Core.Net

/-- `masked a m` has the bits of an address that a mask keeps. -/
def masked (a m : Bytes) : Bytes := List.zipWith (· &&& ·) a m

/-- The addresses that have the network's number under its mask. -/
def IPNet.addresses (n : IPNet) : Set Bytes :=
  {x | ∃ base mask, networkNumberAndMask n = some (base, mask) ∧ x.length = base.length ∧ masked x mask = masked base mask}

/-- The check of the API server: the network's number is of the outer network, whose mask is a part of the inner one's. -/
def IPNet.properlyWithin (inner outer : IPNet) : Bool :=
  match networkNumberAndMask inner, networkNumberAndMask outer with
  | some (base, mask), some (base', mask') =>
    base.length == base'.length && masked base mask' == masked base' mask' && masked mask' mask == mask' && mask' != mask
  | _, _ => false

/-- What the loop over the bits of a byte counts, and what is left of the byte. -/
def shiftOnes : ℕ → UInt8 → ℕ × UInt8
  | 0, v => (0, v)
  | fuel + 1, v => if v &&& 0x80 = 0 then (0, v) else ((shiftOnes fuel (v <<< 1)).1 + 1, (shiftOnes fuel (v <<< 1)).2)

/-- The length of a mask of ones and then zeros; a byte has no more than eight. -/
def simpleMaskLength : Bytes → Option ℕ
  | [] => some 0
  | v :: mask =>
    if v = 0xff then (simpleMaskLength mask).map (8 + ·)
    else if (shiftOnes 8 v).2 = 0 ∧ mask.all (· = 0) = true then some (shiftOnes 8 v).1 else none

/-- `IPMask.String` -/
def hexString (mask : Bytes) : Text :=
  if mask = [] then "<nil>".toList else mask.flatMap fun v ↦ [digit (v.toNat / 16), digit (v.toNat % 16)]

/-- `IPNet.String` -/
def IPNet.string (n : IPNet) : Text :=
  match networkNumberAndMask n with
  | none => "<nil>".toList
  | some (base, mask) =>
    Net.string base ++ '/' :: match simpleMaskLength mask with
      | some ones => (toString ones).toList
      | none => hexString mask

section

variable {a b m k x : Bytes} {u v w : UInt8}

theorem masked_length (h : a.length = m.length) : (masked a m).length = a.length := by
  unfold masked
  rw [List.length_zipWith, h, min_self]

theorem masked_eq_iff (ha : a.length = m.length) (hb : b.length = m.length) :
    masked a m = masked b m ↔ ∀ i (h : i < m.length), a[i] &&& m[i] = b[i] &&& m[i] := by
  constructor
  · intro h i hi
    have hget := congrArg (fun l : Bytes ↦ l[i]?) h
    simpa [masked, List.getElem?_zipWith, ha, hb, hi] using hget
  · intro h
    refine List.ext_getElem (by rw [masked_length ha, masked_length hb, ha, hb]) fun i hi _ ↦ ?_
    have him : i < m.length := by rwa [masked_length ha, ha] at hi
    simpa [masked] using h i him

theorem and_self_eq (h : w &&& v = w) : u &&& w = u &&& v &&& w := by
  rw [UInt8.and_assoc, UInt8.and_comm v w, h]

/-- The bits of `w` outside `v` turned over in `u`. -/
theorem flip_and : (u ^^^ (w &&& ~~~v)) &&& v = u &&& v := by
  apply UInt8.eq_of_toBitVec_eq
  ext i hi
  simp
  grind

theorem flip_and_eq (h : (u ^^^ (w &&& ~~~v)) &&& w = u &&& w) : w &&& v = w := by
  apply UInt8.eq_of_toBitVec_eq
  have hbits := congrArg UInt8.toBitVec h
  ext i hi
  have hbit := congrArg (fun b : BitVec 8 ↦ b[i]) hbits
  simp at hbit ⊢
  grind

/-- A block is a part of another where its number is in it and no bit is free that the other fixes. -/
theorem masked_subset_iff (ha : a.length = m.length) (hb : b.length = m.length) (hk : k.length = m.length) :
    (∀ x : Bytes, x.length = m.length → masked x m = masked a m → masked x k = masked b k) ↔
      masked a k = masked b k ∧ masked k m = k := by
  have hak : a.length = k.length := ha.trans hk.symm
  have hbk : b.length = k.length := hb.trans hk.symm
  constructor
  · intro h
    have hself := h a ha rfl
    refine ⟨hself, ?_⟩
    let flipped : Bytes := List.zipWith (· ^^^ ·) a (List.zipWith (fun w v ↦ w &&& ~~~v) k m)
    have hlength : flipped.length = m.length := by
      simp [flipped, ha, hk]
    have hat (i : ℕ) (hi : i < m.length) : flipped[i] = a[i] ^^^ (k[i] &&& ~~~m[i]) := by
      simp [flipped]
    have hin : masked flipped m = masked a m := by
      rw [masked_eq_iff hlength ha]
      intro i hi
      rw [hat i hi]
      exact flip_and
    have hout := (h flipped hlength hin).trans hself.symm
    rw [masked_eq_iff (hlength.trans hk.symm) hak] at hout
    refine List.ext_getElem (masked_length hk) fun i hi hik ↦ ?_
    have him : i < m.length := hk ▸ hik
    have hbits := hout i hik
    rw [hat i him] at hbits
    simpa [masked] using flip_and_eq hbits
  · rintro ⟨hself, hmask⟩ x hx hin
    rw [masked_eq_iff hx ha] at hin
    rw [masked_eq_iff hak hbk] at hself
    rw [masked_eq_iff (hx.trans hk.symm) hbk]
    intro i hi
    have him : i < m.length := hk ▸ hi
    have hpart : k[i] &&& m[i] = k[i] := by
      have hget := congrArg (fun l : Bytes ↦ l[i]?) hmask
      simpa [masked, List.getElem?_zipWith, hi, him] using hget
    rw [and_self_eq hpart, hin i him, ← and_self_eq hpart]
    exact hself i hi

theorem masked_comm : masked a m = masked m a := List.zipWith_comm_of_comm fun u v ↦ UInt8.and_comm u v

end

variable {n inner outer : IPNet} {base mask base' mask' : Bytes}

theorem networkNumberAndMask_length (h : networkNumberAndMask n = some (base, mask)) : base.length = mask.length := by
  unfold networkNumberAndMask at h
  split at h
  · cases h
  · next ip hip =>
    have hsized : ip.length = 4 ∨ ip.length = 16 := by
      cases h4 : to4 n.ip with
      | some b =>
        rw [h4, Option.some_or] at hip
        cases hip
        exact .inl (to4_some h4).1
      | none =>
        rw [h4, Option.none_or] at hip
        split_ifs at hip with h16
        cases hip
        exact .inr h16
    split_ifs at h with hm hi hm' hi'
    · cases h
      exact hi.trans hm.symm
    · cases h
      rw [List.length_drop, hm', hi']
    · cases h
      exact (hsized.resolve_left hi').trans hm'.symm

theorem addresses_eq (h : networkNumberAndMask n = some (base, mask)) :
    n.addresses = {x | x.length = mask.length ∧ masked x mask = masked base mask} := by
  ext x
  unfold IPNet.addresses
  constructor
  · rintro ⟨base', mask', hn, hx⟩
    cases h.symm.trans hn
    exact ⟨hx.1.trans (networkNumberAndMask_length h), hx.2⟩
  · rintro ⟨hlength, hx⟩
    exact ⟨base, mask, h, hlength.trans (networkNumberAndMask_length h).symm, hx⟩

/-- The check decides whether a network is a proper part of another. -/
theorem properlyWithin_iff (hinner : networkNumberAndMask inner = some (base, mask))
    (houter : networkNumberAndMask outer = some (base', mask')) :
    inner.properlyWithin outer = true ↔ inner.addresses ⊂ outer.addresses := by
  have hbase := networkNumberAndMask_length hinner
  have hbase' := networkNumberAndMask_length houter
  have hcheck : inner.properlyWithin outer = true ↔
      ((base.length = base'.length ∧ masked base mask' = masked base' mask') ∧ masked mask' mask = mask') ∧
        mask' ≠ mask := by
    unfold IPNet.properlyWithin
    rw [hinner, houter]
    simp only [Bool.and_eq_true, beq_iff_eq, bne_iff_ne, ne_eq]
  rw [hcheck, addresses_eq hinner, addresses_eq houter, Set.ssubset_def]
  by_cases hlength : mask.length = mask'.length
  · have hsub := masked_subset_iff hbase (hbase'.trans hlength.symm) hlength.symm
    have hsup := masked_subset_iff hbase' (hbase.trans hlength) hlength
    have hforward : {x : Bytes | x.length = mask.length ∧ masked x mask = masked base mask} ⊆
        {x | x.length = mask'.length ∧ masked x mask' = masked base' mask'} ↔
          masked base mask' = masked base' mask' ∧ masked mask' mask = mask' := by
      rw [← hsub]
      exact ⟨fun h x hx hin ↦ (h ⟨hx, hin⟩).2, fun h x hx ↦ ⟨hx.1.trans hlength, h x hx.1 hx.2⟩⟩
    have hbackward : {x : Bytes | x.length = mask'.length ∧ masked x mask' = masked base' mask'} ⊆
        {x | x.length = mask.length ∧ masked x mask = masked base mask} ↔
          masked base' mask = masked base mask ∧ masked mask mask' = mask := by
      rw [← hsup]
      exact ⟨fun h x hx hin ↦ (h ⟨hx, hin⟩).2, fun h x hx ↦ ⟨hx.1.trans hlength.symm, h x hx.1 hx.2⟩⟩
    rw [hforward, hbackward]
    constructor
    · rintro ⟨⟨⟨-, hin⟩, hpart⟩, hne⟩
      refine ⟨⟨hin, hpart⟩, fun hback ↦ hne ?_⟩
      rw [← hpart, masked_comm, hback.2]
    · rintro ⟨⟨hin, hpart⟩, hback⟩
      refine ⟨⟨⟨hbase.trans (hlength.trans hbase'.symm), hin⟩, hpart⟩, ?_⟩
      rintro rfl
      exact hback ⟨hin.symm, hpart⟩
  · refine iff_of_false (fun h ↦ hlength (hbase.symm.trans (h.1.1.1.trans hbase'))) fun h ↦ ?_
    exact hlength (hbase.symm.trans (h.1 ⟨hbase, rfl⟩).1)

end KubeCenter.Core.Net
