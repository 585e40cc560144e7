import KubeCenter.Core.DistinguishedName

/-! `Uri.encodeComponent` and `Uri.decodeComponent`. -/

namespace KubeCenter.Core.DartUri

/-- What stands for itself: letters, digits and `-_.!~*'()`. -/
def unreserved (b : UInt8) : Bool :=
  97 ≤ b && b ≤ 122 || 65 ≤ b && b ≤ 90 || 48 ≤ b && b ≤ 57 || [45, 95, 46, 33, 126, 42, 39, 40, 41].contains b

def hexChar (n : ℕ) : Char := Char.ofNat (if n < 10 then 48 + n else 55 + n)

def encodeByte (b : UInt8) : Text :=
  if unreserved b then [Char.ofNat b.toNat] else ['%', hexChar (b.toNat / 16), hexChar (b.toNat % 16)]

def encodeComponent (s : Text) : Text := (utf8 s).flatMap encodeByte

/-- What is thrown: an `ArgumentError` or a `FormatException`. -/
inductive DecodeError
  | argument
  | format

def decodeBytes : Text → Except DecodeError Bytes
  | [] => .ok []
  | c :: s =>
    if 128 ≤ c.toNat then .error .argument
    else if c = '%' then
      match s with
      | a :: b :: s' =>
        match hexDigit a, hexDigit b with
        | some x, some y => (decodeBytes s').map (fun bs ↦ UInt8.ofNat (16 * x + y) :: bs)
        | _, _ => .error .argument
      | _ => .error .argument
    else (decodeBytes s).map (fun bs ↦ UInt8.ofNat c.toNat :: bs)

def utf8Decode (bs : Bytes) : Option Text := bs.toByteArray.utf8Decode?.map Array.toList

/-- `utf8.decode` leaves out a byte order mark at the start. -/
def withoutMark (s : Text) : Text := if s.head? = some '\ufeff' then s.tail else s

def decodeComponent (s : Text) : Except DecodeError Text :=
  (decodeBytes s).bind (fun bs ↦
    match utf8Decode bs with
    | some t => .ok (withoutMark t)
    | none => .error .format)

variable {s t : Text} {bs : Bytes} {c : Char}

theorem utf8Decode_utf8 (s : Text) : utf8Decode (utf8 s) = some s := by
  have hdecode : (List.utf8Encode s).utf8Decode? = some s.toArray := List.utf8Decode?_utf8Encode
  rw [List.utf8Encode] at hdecode
  rw [utf8Decode, utf8, hdecode]
  rfl

theorem utf8_of_utf8Decode (h : utf8Decode bs = some t) : utf8 t = bs := by
  obtain ⟨chars, hchars, rfl⟩ := Option.map_eq_some_iff.mp h
  have hsome : bs.toByteArray.utf8Decode?.isSome := Option.isSome_of_eq_some hchars
  have hencode := ByteArray.utf8Encode_get_utf8Decode? (h := hsome)
  rw [Option.get_of_eq_some hsome hchars, List.utf8Encode] at hencode
  have hdata := congrArg (fun b : ByteArray ↦ b.data.toList) hencode
  have hbytes : chars.toList.flatMap String.utf8EncodeChar = bs := by simpa using hdata
  exact hbytes

theorem hexDigit_hexChar : ∀ n < 16, hexDigit (hexChar n) = some n := by decide

theorem hexChar_ascii : ∀ n < 16, (hexChar n).toNat < 128 := by decide

/-- None of the characters that part an id or a path stands for itself. -/
theorem unreserved_toNat {b : UInt8} (h : unreserved b = true) :
    b.toNat < 128 ∧ b.toNat ≠ 37 ∧ b.toNat ≠ 58 ∧ b.toNat ≠ 47 ∧ b.toNat ≠ 63 ∧ b.toNat ≠ 35 := by
  simp only [unreserved, Bool.or_eq_true, Bool.and_eq_true, decide_eq_true_eq, UInt8.le_iff_toNat_le,
    List.contains_eq_mem, List.mem_cons, List.not_mem_nil, or_false, ← UInt8.toNat_inj, UInt8.reduceToNat] at h
  omega

theorem decodeBytes_cons (hlow : c.toNat < 128) (hne : c ≠ '%') (s : Text) :
    decodeBytes (c :: s) = (decodeBytes s).map (fun bs ↦ UInt8.ofNat c.toNat :: bs) := by
  have hlow' : ¬ 128 ≤ c.toNat := Nat.not_le.mpr hlow
  rw [decodeBytes.eq_def]
  simp only [if_neg hlow', if_neg hne]

theorem decodeBytes_encodeByte (b : UInt8) (s : Text) :
    decodeBytes (encodeByte b ++ s) = (decodeBytes s).map (fun bs ↦ b :: bs) := by
  have hb := b.toNat_lt
  rw [encodeByte]
  split
  · next h =>
    obtain ⟨hlow, hpercent, -⟩ := unreserved_toNat h
    have hne : Char.ofNat b.toNat ≠ '%' := by
      intro heq
      exact hpercent ((toNat_latin1 b).symm.trans (congrArg Char.toNat heq))
    rw [List.singleton_append, decodeBytes_cons (by rwa [toNat_latin1]) hne, toNat_latin1, UInt8.ofNat_toNat]
  · have hx := hexDigit_hexChar (b.toNat / 16) (by omega)
    have hy := hexDigit_hexChar (b.toNat % 16) (by omega)
    have hbyte : UInt8.ofNat (16 * (b.toNat / 16) + b.toNat % 16) = b := by
      rw [Nat.div_add_mod, UInt8.ofNat_toNat]
    simp only [List.cons_append, List.nil_append]
    rw [decodeBytes, if_neg (by decide), if_pos rfl]
    simp only [hx, hy, hbyte]

theorem decodeBytes_encode (bs : Bytes) : decodeBytes (bs.flatMap encodeByte) = .ok bs := by
  induction bs with
  | nil => rfl
  | cons b bs ih =>
    rw [List.flatMap_cons, decodeBytes_encodeByte, ih]
    rfl

/-- What is encoded is decoded, but for a byte order mark at its start. -/
theorem decodeComponent_encodeComponent (s : Text) : decodeComponent (encodeComponent s) = .ok (withoutMark s) := by
  rw [decodeComponent, encodeComponent, decodeBytes_encode, Except.bind, utf8Decode_utf8]

theorem encodeComponent_injective {s t : Text} (h : encodeComponent s = encodeComponent t) : s = t := by
  have hbytes := congrArg decodeBytes h
  rw [encodeComponent, encodeComponent, decodeBytes_encode, decodeBytes_encode] at hbytes
  exact utf8_injective (Except.ok.inj hbytes)

/-- What is encoded is one segment of a path. -/
theorem encodeComponent_safe (s : Text) :
    ∀ c ∈ encodeComponent s, c.toNat < 128 ∧ c ≠ ':' ∧ c ≠ '/' ∧ c ≠ '?' ∧ c ≠ '#' := by
  have hhex : ∀ n < 16, hexChar n ≠ ':' ∧ hexChar n ≠ '/' ∧ hexChar n ≠ '?' ∧ hexChar n ≠ '#' := by decide
  intro c hc
  obtain ⟨b, -, hc⟩ := List.mem_flatMap.mp hc
  have hb := b.toNat_lt
  rw [encodeByte] at hc
  split at hc
  · next h =>
    obtain ⟨hlow, -, hcolon, hslash, hquestion, hsharp⟩ := unreserved_toNat h
    obtain rfl := List.mem_singleton.mp hc
    have hne {d : Char} (hd : b.toNat ≠ d.toNat) : Char.ofNat b.toNat ≠ d :=
      fun heq ↦ hd ((toNat_latin1 b).symm.trans (congrArg Char.toNat heq))
    exact ⟨by rwa [toNat_latin1], hne hcolon, hne hslash, hne hquestion, hne hsharp⟩
  · simp only [List.mem_cons, List.not_mem_nil, or_false] at hc
    obtain rfl | rfl | rfl := hc
    · decide
    · exact ⟨hexChar_ascii _ (by omega), hhex _ (by omega)⟩
    · exact ⟨hexChar_ascii _ (by omega), hhex _ (by omega)⟩

theorem hexDigit_ascii {x : ℕ} (h : hexDigit c = some x) : c.toNat < 128 := by
  rw [hexDigit] at h
  split at h
  · omega
  · split at h
    · omega
    · split at h
      · omega
      · cases h

theorem map_eq_ok {α β : Type} {f : α → β} {e : Except DecodeError α} {y : β} (h : e.map f = .ok y) :
    ∃ x, e = .ok x ∧ f x = y := by
  cases e with
  | error err => cases h
  | ok x => exact ⟨x, rfl, Except.ok.inj h⟩

/-- An escape takes more room than the byte that it stands for. -/
theorem decodeBytes_length (h : decodeBytes s = .ok bs) :
    (∀ c ∈ s, c.toNat < 128) ∧ bs.length ≤ s.length ∧ ('%' ∈ s → bs.length < s.length) := by
  induction s using decodeBytes.induct generalizing bs with
  | case1 =>
    cases h
    exact ⟨fun c hc ↦ (by cases hc), Nat.le_refl 0, fun hc ↦ (by cases hc)⟩
  | case2 c s hhigh =>
    rw [decodeBytes.eq_def] at h
    simp only [if_pos hhigh] at h
    cases h
  | case3 a b s x y hb ha hlow ih =>
    rw [decodeBytes.eq_def] at h
    simp only [if_neg hlow, if_pos, ha, hb] at h
    obtain ⟨bs, hbs, rfl⟩ := map_eq_ok h
    obtain ⟨hall, hle, -⟩ := ih hbs
    simp only [List.forall_mem_cons, List.length_cons]
    exact ⟨⟨by decide, hexDigit_ascii ha, hexDigit_ascii hb, hall⟩, by omega, fun _ ↦ by omega⟩
  | case4 a b s hno hlow =>
    rw [decodeBytes.eq_def] at h
    simp only [if_neg hlow, if_pos] at h
    cases h
  | case5 s hno hlow =>
    rw [decodeBytes.eq_def] at h
    simp only [if_neg hlow, if_pos] at h
    cases h
  | case6 c s hlow hne ih =>
    have hlow : c.toNat < 128 := Nat.not_le.mp hlow
    rw [decodeBytes_cons hlow hne] at h
    obtain ⟨bs, hbs, rfl⟩ := map_eq_ok h
    obtain ⟨hall, hle, hlt⟩ := ih hbs
    refine ⟨List.forall_mem_cons.mpr ⟨hlow, hall⟩, Nat.succ_le_succ hle, fun hmem ↦ ?_⟩
    obtain heq | hmem := List.mem_cons.mp hmem
    · exact absurd heq.symm hne
    · exact Nat.succ_lt_succ (hlt hmem)

theorem utf8_ascii (h : ∀ c ∈ s, c.toNat < 128) : utf8 s = s.map (fun c ↦ UInt8.ofNat c.toNat) := by
  induction s with
  | nil => rfl
  | cons c s ih =>
    obtain ⟨hc, hs⟩ := List.forall_mem_cons.mp h
    rw [utf8_cons, ih hs, List.map_cons]
    obtain ⟨-, he⟩ | ⟨hhigh, -⟩ := ascii_or_high c
    · rw [he]
      rfl
    · omega

/-- The texts that mean themselves. -/
theorem decodeComponent_eq_self_iff : decodeComponent s = .ok s ↔ ∀ c ∈ s, c.toNat < 128 ∧ c ≠ '%' := by
  constructor
  · intro h
    rw [decodeComponent] at h
    cases hbytes : decodeBytes s with
    | error err =>
      rw [hbytes] at h
      cases h
    | ok bs =>
      obtain ⟨hall, -, hlt⟩ := decodeBytes_length hbytes
      rw [hbytes, Except.bind] at h
      cases htext : utf8Decode bs with
      | none =>
        rw [htext] at h
        cases h
      | some t =>
        rw [htext] at h
        have hs : withoutMark t = s := Except.ok.inj h
        have hlength : s.length ≤ bs.length := by
          rw [← utf8_of_utf8Decode htext, ← hs]
          refine Nat.le_trans ?_ (length_le_utf8 t)
          rw [withoutMark]
          split
          · rw [List.length_tail]
            exact Nat.sub_le ..
          · exact Nat.le_refl _
        refine fun c hc ↦ ⟨hall c hc, ?_⟩
        rintro rfl
        have := hlt hc
        omega
  · intro h
    have hbytes : decodeBytes s = .ok (utf8 s) := by
      rw [utf8_ascii (fun c hc ↦ (h c hc).1)]
      induction s with
      | nil => rfl
      | cons c s ih =>
        obtain ⟨⟨hlow, hne⟩, hs⟩ := List.forall_mem_cons.mp h
        rw [decodeBytes_cons hlow hne, ih hs]
        rfl
    have hmark : s.head? ≠ some '\ufeff' := by
      intro hmark
      have hlow := (h _ (List.mem_of_mem_head? hmark)).1
      exact absurd hlow (by decide)
    rw [decodeComponent, hbytes, Except.bind, utf8Decode_utf8]
    exact congrArg Except.ok (if_neg hmark)

end KubeCenter.Core.DartUri
