import KubeCenter.Core.GoIP

/-! Go's `net` package: `host:port`, networks and the classes of addresses. -/

namespace KubeCenter.Core.Net

/-- What stands before and after the last occurrence of a character. -/
def cutLast (sep : Char) (s : Text) : Option (Text × Text) :=
  (cut sep s.reverse).map (fun p ↦ (p.2.reverse, p.1.reverse))

/-- `net.SplitHostPort`. -/
def splitHostPort (s : Text) : Option (Text × Text) :=
  match cutLast ':' s with
  | none => none
  | some (before, port) =>
    match s with
    | '[' :: rest =>
      match cut ']' rest with
      | none => none
      | some (host, after) => if after = ':' :: port ∧ '[' ∉ rest ∧ ']' ∉ after then some (host, port) else none
    | _ => if ':' ∈ before ∨ '[' ∈ s ∨ ']' ∈ s then none else some (before, port)

/-- `net.JoinHostPort`. -/
def joinHostPort (host port : Text) : Text :=
  if ':' ∈ host then '[' :: host ++ ']' :: ':' :: port else host ++ ':' :: port

example : splitHostPort "[2001:db8::1]:443".toList = some ("2001:db8::1".toList, "443".toList) := by decide

/-- `IP.Equal`. -/
def equal (ip x : IP) : Bool :=
  if ip.length = x.length then ip == x
  else if ip.length = 4 ∧ x.length = 16 then x.take 12 == v4InV6Prefix && ip == x.drop 12
  else if ip.length = 16 ∧ x.length = 4 then ip.take 12 == v4InV6Prefix && ip.drop 12 == x
  else false

def ipv4zero : IP := v4InV6Prefix ++ [0, 0, 0, 0]

def ipv6unspecified : IP := List.replicate 16 0

def ipv6loopback : IP := List.replicate 15 0 ++ [1]

def isUnspecified (ip : IP) : Bool := equal ip ipv4zero || equal ip ipv6unspecified

/-- A test of the four bytes of an IPv4 address in either form, and of any other address as it is. -/
def byForm (four : Bytes → Bool) (six : IP → Bool) (ip : IP) : Bool :=
  match to4 ip with
  | some b => four b
  | none => six ip

def isLoopback : IP → Bool := byForm (fun b ↦ b.getD 0 0 == 127) (fun ip ↦ equal ip ipv6loopback)

def isPrivate : IP → Bool :=
  byForm (fun b ↦ b.getD 0 0 == 10 || (b.getD 0 0 == 172 && b.getD 1 0 &&& 0xf0 == 16) ||
      (b.getD 0 0 == 192 && b.getD 1 0 == 168))
    (fun ip ↦ ip.length == 16 && ip.getD 0 0 &&& 0xfe == 0xfc)

def isLinkLocalUnicast : IP → Bool :=
  byForm (fun b ↦ b.getD 0 0 == 169 && b.getD 1 0 == 254)
    (fun ip ↦ ip.length == 16 && ip.getD 0 0 == 0xfe && ip.getD 1 0 &&& 0xc0 == 0x80)

def isLinkLocalMulticast : IP → Bool :=
  byForm (fun b ↦ b.getD 0 0 == 224 && b.getD 1 0 == 0 && b.getD 2 0 == 0)
    (fun ip ↦ ip.length == 16 && ip.getD 0 0 == 0xff && ip.getD 1 0 &&& 0x0f == 0x02)

/-! Networks. -/

structure IPNet where
  ip : IP
  mask : Bytes

/-- `net.CIDRMask`, for a mask of `l` bytes. -/
def cidrMask : ℕ → ℕ → Bytes
  | 0, _ => []
  | l + 1, ones => if 8 ≤ ones then 255 :: cidrMask l (ones - 8) else ~~~(UInt8.ofNat (255 >>> ones)) :: cidrMask l 0

/-- `IP.Mask`. -/
def maskIP (ip : IP) (mask : Bytes) : Bytes :=
  let mask := if mask.length = 16 ∧ ip.length = 4 ∧ (mask.take 12).all (· == 255) then mask.drop 12 else mask
  let ip := if mask.length = 4 ∧ ip.length = 16 ∧ ip.take 12 = v4InV6Prefix then ip.drop 12 else ip
  if ip.length = mask.length then List.zipWith (· &&& ·) ip mask else []

def networkNumberAndMask (n : IPNet) : Option (Bytes × Bytes) :=
  match (to4 n.ip).or (if n.ip.length = 16 then some n.ip else none) with
  | none => none
  | some ip =>
    if n.mask.length = 4 then if ip.length = 4 then some (ip, n.mask) else none
    else if n.mask.length = 16 then some (ip, if ip.length = 4 then n.mask.drop 12 else n.mask)
    else none

/-- `IPNet.Contains`. -/
def IPNet.contains (n : IPNet) (ip : IP) : Bool :=
  let x := (to4 ip).getD ip
  match networkNumberAndMask n with
  | none => x == []
  | some (nn, m) => x.length == nn.length && List.zipWith (· &&& ·) nn m == List.zipWith (· &&& ·) x m

/-- `net.dtoi` on a text that is to be a number and nothing more; what would overflow it is more than any mask has. -/
def dtoi (s : Text) : Option ℕ :=
  if s ≠ [] ∧ s.all (fun c ↦ 48 ≤ c.toNat ∧ c.toNat ≤ 57) = true then
    some (s.foldl (fun n c ↦ n * 10 + (c.toNat - 48)) 0)
  else none

/-- The network of `net.ParseCIDR`. -/
def parseCIDR (s : Text) : Option IPNet :=
  match cut '/' s with
  | none => none
  | some (addr, mask) =>
    match parseAddr addr, dtoi mask with
    | some (b, []), some n =>
      if n ≤ 8 * b.length then
        let m := cidrMask b.length n
        some ⟨maskIP (to16 b) m, m⟩
      else none
    | _, _ => none

example : (parseCIDR "10.128.0.0/9".toList).map (fun n ↦ (n.contains [10, 200, 1, 1], n.contains [10, 1, 1, 1])) =
    some (true, false) := by
  decide

variable {ip : IP} {host port s : Text}

theorem cutLast_append {sep : Char} {a b : Text} (h : sep ∉ b) : cutLast sep (a ++ sep :: b) = some (a, b) := by
  have hrev : (a ++ sep :: b).reverse = b.reverse ++ sep :: a.reverse := by simp
  rw [cutLast, hrev, cut_append (by simpa using h)]
  simp

/-- What `JoinHostPort` puts together comes apart again, for a host without brackets. -/
theorem splitHostPort_join (hopen : '[' ∉ host) (hclose : ']' ∉ host) (hport : ':' ∉ port) (hpopen : '[' ∉ port)
    (hpclose : ']' ∉ port) : splitHostPort (joinHostPort host port) = some (host, port) := by
  unfold joinHostPort
  split
  · next hcolon =>
    have hsplit : '[' :: host ++ ']' :: ':' :: port = ('[' :: host ++ [']']) ++ ':' :: port := by simp
    rw [splitHostPort, hsplit, cutLast_append hport, ← hsplit]
    simp only [List.cons_append]
    rw [cut_append hclose]
    dsimp only
    rw [if_pos ⟨rfl, by simp [hopen, hpopen], by simp [hpclose]⟩]
  · next hcolon =>
    rw [splitHostPort, cutLast_append hport]
    dsimp only
    split
    · next rest heq =>
      cases host with
      | nil => exact absurd (List.cons.inj heq).1 (by decide)
      | cons c host =>
        obtain ⟨rfl, -⟩ := List.cons.inj heq
        exact absurd List.mem_cons_self hopen
    · rw [if_neg (by simp [hcolon, hopen, hclose, hpopen, hpclose])]

theorem not_mem_string {c : Char} (h : Sized ip) (hc : hexValue c = none) (hdot : c ≠ '.') (hcolon : c ≠ ':') : c ∉ string ip :=
  fun hmem ↦ (mem_string h hmem).elim hdot (fun hrest ↦ hrest.elim hcolon (fun hhex ↦ hhex hc))

theorem splitHostPort_string (h : Sized ip) (hport : ':' ∉ port) (hopen : '[' ∉ port) (hclose : ']' ∉ port) :
    splitHostPort (joinHostPort (string ip) port) = some (string ip, port) :=
  splitHostPort_join (not_mem_string h (by decide) (by decide) (by decide))
    (not_mem_string h (by decide) (by decide) (by decide)) hport hopen hclose

theorem exists_last {c : Char} (h : c ∈ s) : ∃ a b, s = a ++ c :: b ∧ c ∉ b := by
  obtain ⟨b, a, hrev, hb⟩ := List.eq_append_cons_of_mem (List.mem_reverse.mpr h)
  refine ⟨a.reverse, b.reverse, ?_, by simpa using hb⟩
  rw [← List.reverse_reverse s, hrev]
  simp

/-- A text with two colons and no bracket at its head is no `host:port`. -/
theorem splitHostPort_colons {a b : Text} (hs : s = a ++ ':' :: b) (hb : ':' ∈ b) (hopen : '[' ∉ s) :
    splitHostPort s = none := by
  obtain ⟨m, c, rfl, hc⟩ := exists_last hb
  have hlast : cutLast ':' s = some (a ++ ':' :: m, c) := by
    have hassoc : a ++ ':' :: (m ++ ':' :: c) = (a ++ ':' :: m) ++ ':' :: c := by simp
    rw [hs, hassoc, cutLast_append hc]
  rw [splitHostPort, hlast]
  dsimp only
  split
  · exact absurd List.mem_cons_self hopen
  · rw [if_pos (.inl (by simp))]

theorem splitHostPort_no_colon (h : ':' ∉ s) : splitHostPort s = none := by
  have hnone : cutLast ':' s = none := by
    rw [cutLast, cut_none (by simpa using h)]
    rfl
  rw [splitHostPort, hnone]

/-- A bare address is no `host:port`. -/
theorem splitHostPort_bare (h : Sized ip) : splitHostPort (string ip) = none := by
  have hopen : '[' ∉ string ip := not_mem_string h (by decide) (by decide) (by decide)
  cases h4 : to4 ip with
  | some b =>
    refine splitHostPort_no_colon (fun hmem ↦ ?_)
    rw [string, h4] at hmem
    rcases mem_string4 hmem with hdot | hhex
    · exact absurd hdot (by decide)
    · exact hhex (by decide)
  | none =>
    obtain ⟨t, u, htext, hu⟩ := string6_colons (to4_none h h4).1
    have hstring : string ip = string6 ip := by rw [string, h4]
    rw [hstring] at hopen ⊢
    exact splitHostPort_colons htext hu hopen

/-- A port that has been split off holds no mark. -/
theorem splitHostPort_port (h : splitHostPort s = some (host, port)) : ':' ∉ port ∧ '[' ∉ port ∧ ']' ∉ port := by
  have hlast : ∀ before p, cutLast ':' s = some (before, p) → ':' ∉ p ∧ s = before ++ ':' :: p := by
    intro before p hcut
    obtain ⟨⟨a, b⟩, hrev, heq⟩ := Option.map_eq_some_iff.mp hcut
    cases heq
    obtain ⟨hs, hnot⟩ := cut_eq_some hrev
    refine ⟨by simpa using hnot, ?_⟩
    rw [← List.reverse_reverse s, hs]
    simp
  unfold splitHostPort at h
  split at h
  · cases h
  · next before p hcut =>
    obtain ⟨hcolon, hs⟩ := hlast before p hcut
    split at h
    · next rest =>
      split at h
      · cases h
      · next host' after hclose =>
        split at h
        · next hok =>
          cases h
          obtain ⟨hafter, hopen, hno⟩ := hok
          obtain ⟨hrest, -⟩ := cut_eq_some hclose
          rw [hafter] at hno hrest
          rw [hrest] at hopen
          simp only [List.mem_append, List.mem_cons, not_or] at hopen hno
          exact ⟨hcolon, hopen.2.2.2, hno.2⟩
        · cases h
    · split at h
      · cases h
      · next hok =>
        cases h
        rw [hs] at hok
        simp only [List.mem_append, List.mem_cons, not_or] at hok
        exact ⟨hcolon, hok.2.1.2.2, hok.2.2.2.2⟩

/-! The classes of an address do not depend on its form. -/

theorem contains_to16 (n : IPNet) (h : Sized ip) : n.contains (to16 ip) = n.contains ip := by
  unfold IPNet.contains
  rw [to4_to16]
  cases h4 : to4 ip with
  | some b => rfl
  | none => rw [(to4_none h h4).2]

theorem byForm_to16 (four : Bytes → Bool) (six : IP → Bool) (h : Sized ip) :
    byForm four six (to16 ip) = byForm four six ip := by
  unfold byForm
  rw [to4_to16]
  cases h4 : to4 ip with
  | some b => rfl
  | none =>
    dsimp only
    rw [(to4_none h h4).2]

theorem isUnspecified_four (h : ip.length = 4) : isUnspecified ip = (ip == [0, 0, 0, 0]) := by
  have hzero : equal ip ipv4zero = (ip == [0, 0, 0, 0]) := by
    rw [equal, if_neg (by rw [h]; decide), if_pos ⟨h, rfl⟩]
    rfl
  have hunspecified : equal ip ipv6unspecified = false := by
    rw [equal, if_neg (by rw [h]; decide), if_pos ⟨h, rfl⟩]
    rfl
  rw [isUnspecified, hzero, hunspecified, Bool.or_false]

theorem isUnspecified_mapped (h : ip.length = 4) : isUnspecified (v4InV6Prefix ++ ip) = (ip == [0, 0, 0, 0]) := by
  have hlen : (v4InV6Prefix ++ ip).length = 16 := by rw [List.length_append, h]; rfl
  have hequal : ∀ x : IP, x.length = 16 → equal (v4InV6Prefix ++ ip) x = (v4InV6Prefix ++ ip == x) :=
    fun x hx ↦ if_pos (hlen.trans hx.symm)
  have hunspecified : (v4InV6Prefix ++ ip == ipv6unspecified) = false := rfl
  rw [isUnspecified, hequal _ rfl, hequal _ rfl, hunspecified, Bool.or_false]
  rfl

theorem isUnspecified_to16 : isUnspecified (to16 ip) = isUnspecified ip := by
  unfold to16
  split
  · next h4 => rw [isUnspecified_mapped h4, isUnspecified_four h4]
  · rfl

end KubeCenter.Core.Net
