import KubeCenter.Core.GoNet
import KubeCenter.Core.Runs

/-! Dialling behind the address checks. -/

namespace KubeCenter.K8s.SafeDialer

open KubeCenter.Core KubeCenter.Core.Net

/-- Why an address is off-limits. -/
inductive Range where
  | loopback | rfc1918 | linkLocal | unspecified | cgnat
  deriving DecidableEq

structure Refusal where
  range : Range
  ip : IP
  deriving DecidableEq

def cgnatNet : IPNet := ⟨v4InV6Prefix ++ [100, 64, 0, 0], cidrMask 4 10⟩

def checkIPNotPrivate (ip : IP) : Except Refusal Unit :=
  if isLoopback ip then .error ⟨.loopback, ip⟩
  else if isPrivate ip then .error ⟨.rfc1918, ip⟩
  else if isLinkLocalUnicast ip || isLinkLocalMulticast ip then .error ⟨.linkLocal, ip⟩
  else if isUnspecified ip then .error ⟨.unspecified, ip⟩
  else if cgnatNet.contains ip then .error ⟨.cgnat, ip⟩
  else .ok ()

def checkIPAlwaysBad (ip : IP) : Except Refusal Unit :=
  if isLoopback ip then .error ⟨.loopback, ip⟩
  else if isLinkLocalUnicast ip || isLinkLocalMulticast ip then .error ⟨.linkLocal, ip⟩
  else if isUnspecified ip then .error ⟨.unspecified, ip⟩
  else if cgnatNet.contains ip then .error ⟨.cgnat, ip⟩
  else .ok ()

/-- What a resolver gives: an address in one of its two sizes. -/
abbrev Address := { ip : IP // Sized ip }

/-- The answer to each lookup, by its number. -/
abbrev Resolver := ℕ → Text → Except String (List Address)

inductive DialError where
  | invalidAddress (address : Text)
  | refused (host : Option Text) (why : Refusal)
  | lookupFailed (host : Text) (err : String)
  | noIPs (host : Text)

/-- The first refusal of a list of candidates. -/
def checkEach (check : IP → Except Refusal Unit) : List Address → Except Refusal Unit
  | [] => .ok ()
  | ip :: ips =>
    match check ip.val with
    | .error why => .error why
    | .ok () => checkEach check ips

/-- What a dial did: the addresses it put to the check, how often it asked the resolver, and the addresses that it then
opens connections to. -/
structure Dial where
  candidates : List IP := []
  lookups : ℕ := 0
  outcome : Except DialError (List IP)

/-- `net.Dialer.DialContext`: a literal address is dialled as it is, any other host is looked up. -/
def baseDial (resolve : Resolver) (n : ℕ) (address : Text) : ℕ × Except DialError (List IP) :=
  match splitHostPort address with
  | none => (0, .error (.invalidAddress address))
  | some ([], _) => (0, .ok [ipv6unspecified])
  | some (host, _) =>
    match parseAddr host with
    -- where only the unspecified IPv6 address is found, the IPv4 one is tried too
    | some (b, _) => (0, .ok (if to16 b = ipv6unspecified then [ipv6unspecified, ipv4zero] else [to16 b]))
    | none =>
      (1, match resolve n host with
        | .error err => .error (.lookupFailed host err)
        | .ok ips => .ok (ips.map Subtype.val))

/-- `n` is the number of the next lookup. -/
def dialContextWith (check : IP → Except Refusal Unit) (resolve : Resolver) (n : ℕ) (address : Text) : Dial :=
  match splitHostPort address with
  | none => { outcome := .error (.invalidAddress address) }
  | some (host, port) =>
    match parseIP host with
    | some ip =>
      match check ip with
      | .error why => { candidates := [ip], outcome := .error (.refused none why) }
      | .ok () =>
        let (lookups, outcome) := baseDial resolve n (joinHostPort (string ip) port)
        { candidates := [ip], lookups, outcome }
    | none =>
      match resolve n host with
      | .error err => { lookups := 1, outcome := .error (.lookupFailed host err) }
      | .ok [] => { lookups := 1, outcome := .error (.noIPs host) }
      | .ok (first :: rest) =>
        let candidates := (first :: rest).map Subtype.val
        match checkEach check (first :: rest) with
        | .error why => { candidates, lookups := 1, outcome := .error (.refused (some host) why) }
        | .ok () =>
          let (lookups, outcome) := baseDial resolve (n + 1) (joinHostPort (string first.val) port)
          { candidates, lookups := 1 + lookups, outcome }

def safeDialContext : Resolver → ℕ → Text → Dial := dialContextWith checkIPAlwaysBad

def strictDialContext : Resolver → ℕ → Text → Dial := dialContextWith checkIPNotPrivate

/-- The dial goes where the first lookup pointed, whatever a second one would have answered. -/
example :
    let good : Address := ⟨[93, 184, 216, 34], .inl rfl⟩
    let metadata : Address := ⟨[169, 254, 169, 254], .inl rfl⟩
    let rebinding : Resolver := fun n _ ↦ .ok [if n = 0 then good else metadata]
    (strictDialContext rebinding 0 "api.example.com:443".toList).outcome.toOption = some [to16 [93, 184, 216, 34]] ∧
      (strictDialContext rebinding 1 "api.example.com:443".toList).outcome.toOption = none := by
  decide

inductive URLError where
  | invalidURL (err : String)
  | emptyHostname
  | blocked (why : Refusal)
  | lookupFailed (host : Text) (err : String)
  | noIPs (host : Text)

/-- `hostname` is that of the parsed URL. -/
def validateRemoteURLContext (resolve : Resolver) (n : ℕ) (hostname : Except String Text) : ℕ × Except URLError Unit :=
  match hostname with
  | .error err => (0, .error (.invalidURL err))
  | .ok [] => (0, .error .emptyHostname)
  | .ok host =>
    match parseIP host with
    | some ip => (0, (checkIPNotPrivate ip).mapError .blocked)
    | none =>
      (1, match resolve n host with
        | .error err => .error (.lookupFailed host err)
        | .ok [] => .error (.noIPs host)
        | .ok ips => (checkEach checkIPNotPrivate ips).mapError .blocked)

/-! Runs: validations and dials in any order, against a resolver that may answer every lookup differently. -/

/-- Which of the two dialers opened a connection. -/
inductive Guard where
  | safe | strict

def Guard.check : Guard → IP → Except Refusal Unit
  | .safe => checkIPAlwaysBad
  | .strict => checkIPNotPrivate

structure State where
  lookups : ℕ := 0
  dials : List (Guard × Dial) := []

inductive Act where
  | validateRemoteURL (hostname : Except String Text)
  | dial (guard : Guard) (address : Text)

def dialed (resolve : Resolver) (n : ℕ) : Guard → Text → Dial
  | .safe => safeDialContext resolve n
  | .strict => strictDialContext resolve n

def step (resolve : Resolver) (s : State) : Act → Option State
  | .validateRemoteURL hostname =>
    some { s with lookups := s.lookups + (validateRemoteURLContext resolve s.lookups hostname).1 }
  | .dial guard address =>
    let d := dialed resolve s.lookups guard address
    some { lookups := s.lookups + d.lookups, dials := s.dials ++ [(guard, d)] }

/-- Connections go only to addresses that the dial's own check accepted, and to none when it refuses one. -/
structure Confined (guard : Guard) (d : Dial) : Prop where
  accepted : ∀ targets, d.outcome = .ok targets → ∀ ip ∈ targets, ∃ c ∈ d.candidates, guard.check c = .ok () ∧ to16 c = ip
  refused : (∃ c ∈ d.candidates, guard.check c ≠ .ok ()) → ∃ err, d.outcome = .error err

/-! The blocked ranges, by the intervals that an address's first bytes lie in. -/

abbrev Bounds := List (ℕ × ℕ)

def Within (r : Bounds) (b : Bytes) : Prop := ∀ p ∈ r.zip b, p.1.1 ≤ p.2.toNat ∧ p.2.toNat ≤ p.1.2

/-- One address alone. -/
def only (b : Bytes) : Bounds := b.map (fun x ↦ (x.toNat, x.toNat))

def alwaysBad4 : List Bounds :=
  [[(127, 127)], [(169, 169), (254, 254)], [(224, 224), (0, 0), (0, 0)], only [0, 0, 0, 0], [(100, 100), (64, 127)]]

def private4 : List Bounds := [[(10, 10)], [(172, 172), (16, 31)], [(192, 192), (168, 168)]]

def alwaysBad6 : List Bounds :=
  [only ipv6loopback, [(0xfe, 0xfe), (0x80, 0xbf)], only ipv6unspecified] ++
    (List.range 16).map (fun flags ↦ [(0xff, 0xff), (16 * flags + 2, 16 * flags + 2)])

def private6 : List Bounds := [[(0xfc, 0xfd)]]

def Guard.ranges4 : Guard → List Bounds
  | .safe => alwaysBad4
  | .strict => alwaysBad4 ++ private4

def Guard.ranges6 : Guard → List Bounds
  | .safe => alwaysBad6
  | .strict => alwaysBad6 ++ private6

/-- The check refuses exactly the addresses of its ranges: an IPv4 address in its own form and in the mapped one, an
IPv6 address that is not such a form. -/
structure Blocks (guard : Guard) : Prop where
  four : ∀ b : Bytes, b.length = 4 → (guard.check b ≠ .ok () ↔ ∃ r ∈ guard.ranges4, Within r b)
  mapped : ∀ b : Bytes, b.length = 4 → (guard.check (v4InV6Prefix ++ b) ≠ .ok () ↔ ∃ r ∈ guard.ranges4, Within r b)
  six : ∀ b : Bytes, b.length = 16 → b.take 12 ≠ v4InV6Prefix → (guard.check b ≠ .ok () ↔ ∃ r ∈ guard.ranges6, Within r b)

variable {guard : Guard} {check : IP → Except Refusal Unit} {resolve : Resolver} {n : ℕ} {ip : IP} {b : Bytes}
  {address host port : Text}

/-! The checks. -/

theorem checkIPNotPrivate_ok : checkIPNotPrivate ip = .ok () ↔ isLoopback ip = false ∧ isPrivate ip = false ∧
    isLinkLocalUnicast ip = false ∧ isLinkLocalMulticast ip = false ∧ isUnspecified ip = false ∧
      cgnatNet.contains ip = false := by
  unfold checkIPNotPrivate
  cases isLoopback ip <;> cases isPrivate ip <;> cases isLinkLocalUnicast ip <;> cases isLinkLocalMulticast ip <;>
    cases isUnspecified ip <;> cases cgnatNet.contains ip <;> simp

theorem checkIPAlwaysBad_ok : checkIPAlwaysBad ip = .ok () ↔ isLoopback ip = false ∧ isLinkLocalUnicast ip = false ∧
    isLinkLocalMulticast ip = false ∧ isUnspecified ip = false ∧ cgnatNet.contains ip = false := by
  unfold checkIPAlwaysBad
  cases isLoopback ip <;> cases isLinkLocalUnicast ip <;> cases isLinkLocalMulticast ip <;>
    cases isUnspecified ip <;> cases cgnatNet.contains ip <;> simp

/-- What the strict check accepts, the looser one does. -/
theorem checkIPAlwaysBad_of_notPrivate (h : checkIPNotPrivate ip = .ok ()) : checkIPAlwaysBad ip = .ok () := by
  obtain ⟨hloopback, -, hunicast, hmulticast, hunspecified, hcgnat⟩ := checkIPNotPrivate_ok.mp h
  exact checkIPAlwaysBad_ok.mpr ⟨hloopback, hunicast, hmulticast, hunspecified, hcgnat⟩

/-- A check goes by the address, whatever its form. -/
theorem check_to16 (h : Sized ip) : guard.check (to16 ip) = .ok () ↔ guard.check ip = .ok () := by
  have hloopback : isLoopback (to16 ip) = isLoopback ip := byForm_to16 _ _ h
  have hprivate : isPrivate (to16 ip) = isPrivate ip := byForm_to16 _ _ h
  have hunicast : isLinkLocalUnicast (to16 ip) = isLinkLocalUnicast ip := byForm_to16 _ _ h
  have hmulticast : isLinkLocalMulticast (to16 ip) = isLinkLocalMulticast ip := byForm_to16 _ _ h
  cases guard with
  | safe =>
    exact checkIPAlwaysBad_ok.trans (by
      rw [hloopback, hunicast, hmulticast, isUnspecified_to16, contains_to16 _ h]
      exact checkIPAlwaysBad_ok.symm)
  | strict =>
    exact checkIPNotPrivate_ok.trans (by
      rw [hloopback, hprivate, hunicast, hmulticast, isUnspecified_to16, contains_to16 _ h]
      exact checkIPNotPrivate_ok.symm)

theorem check_unspecified (guard : Guard) : guard.check ipv6unspecified ≠ .ok () := by
  cases guard <;> decide

/-! The dial. -/

theorem checkEach_ok {ips : List Address} (h : checkEach check ips = .ok ()) : ∀ ip ∈ ips, check ip.val = .ok () := by
  induction ips with
  | nil => exact fun _ h ↦ by cases h
  | cons ip ips ih =>
    rw [checkEach] at h
    split at h
    · cases h
    · next hip => exact List.forall_mem_cons.mpr ⟨hip, ih h⟩

theorem checkEach_error {ips : List Address} {why : Refusal} (h : checkEach check ips = .error why) :
    ∃ ip ∈ ips, check ip.val ≠ .ok () := by
  induction ips with
  | nil => cases h
  | cons ip ips ih =>
    rw [checkEach] at h
    split at h
    · next hip => exact ⟨ip, List.mem_cons_self, by rw [hip]; simp⟩
    · obtain ⟨ip', hmem, hne⟩ := ih h
      exact ⟨ip', List.mem_cons_of_mem ip hmem, hne⟩

theorem string_ne_nil (h : Sized ip) : string ip ≠ [] := by
  intro hnil
  have hparse := parseIP_string h
  rw [hnil] at hparse
  cases hparse

/-- The base dialer connects to the one address whose text it is given. -/
theorem baseDial_string (h : Sized ip) (hne : to16 ip ≠ ipv6unspecified) (hport : ':' ∉ port) (hopen : '[' ∉ port)
    (hclose : ']' ∉ port) : baseDial resolve n (joinHostPort (string ip) port) = (0, .ok [to16 ip]) := by
  obtain ⟨b, hb, hip⟩ : ∃ b, parseAddr (string ip) = some (b, []) ∧ to16 b = to16 ip := by
    have hparse := parseIP_string h
    unfold parseIP at hparse
    split at hparse
    · next b hb => exact ⟨b, hb, Option.some.inj hparse⟩
    · cases hparse
  unfold baseDial
  rw [splitHostPort_string h hport hopen hclose]
  split
  · next heq => cases heq
  · next heq => exact absurd (Prod.mk.inj (Option.some.inj heq)).1 (string_ne_nil h)
  · next heq =>
    cases heq
    rw [hb]
    dsimp only
    rw [hip, if_neg hne]

theorem confined_error {d : Dial} {err : DialError} (h : d.outcome = .error err) : Confined guard d where
  accepted _ hok := by
    rw [h] at hok
    cases hok
  refused _ := ⟨err, h⟩

/-- Each dial is confined, whatever the resolver answers at each lookup. -/
theorem dialContextWith_confined (guard : Guard) (resolve : Resolver) (n : ℕ) (address : Text) :
    Confined guard (dialContextWith guard.check resolve n address) := by
  unfold dialContextWith
  cases hsplit : splitHostPort address with
  | none => exact confined_error rfl
  | some hp =>
    obtain ⟨host, port⟩ := hp
    obtain ⟨hport, hopen, hclose⟩ := splitHostPort_port hsplit
    -- what the base dialer does with an accepted candidate
    have pinned : ∀ (m : ℕ) (ip : IP), Sized ip → guard.check ip = .ok () →
        baseDial resolve m (joinHostPort (string ip) port) = (0, .ok [to16 ip]) := by
      intro m ip hip hok
      refine baseDial_string hip (fun heq ↦ check_unspecified guard ?_) hport hopen hclose
      rw [← heq]
      exact (check_to16 hip).mpr hok
    dsimp only
    cases hparse : parseIP host with
    | some ip =>
      have hlen := parseIP_length hparse
      dsimp only
      cases hcheck : guard.check ip with
      | error why => exact confined_error rfl
      | ok _ =>
        dsimp only
        rw [pinned n ip (.inr hlen) hcheck]
        refine ⟨?_, ?_⟩
        · rintro targets ⟨⟩ ip' hip'
          obtain rfl := List.mem_singleton.mp hip'
          exact ⟨ip, List.mem_singleton_self ip, hcheck, rfl⟩
        · rintro ⟨c, hc, hne⟩
          obtain rfl := List.mem_singleton.mp hc
          exact absurd hcheck hne
    | none =>
      dsimp only
      cases hresolve : resolve n host with
      | error err => exact confined_error rfl
      | ok ips =>
        cases ips with
        | nil => exact confined_error rfl
        | cons first rest =>
          dsimp only
          cases hcheck : checkEach guard.check (first :: rest) with
          | error why => exact confined_error rfl
          | ok _ =>
            have hall := checkEach_ok hcheck
            have hfirst := hall first List.mem_cons_self
            dsimp only
            rw [pinned (n + 1) first.val first.property hfirst]
            refine ⟨?_, ?_⟩
            · rintro targets ⟨⟩ ip' hip'
              obtain rfl := List.mem_singleton.mp hip'
              exact ⟨first.val, List.mem_map_of_mem List.mem_cons_self, hfirst, rfl⟩
            · rintro ⟨c, hc, hne⟩
              obtain ⟨ip, hip, rfl⟩ := List.mem_map.mp hc
              exact absurd (hall ip hip) hne

theorem dialed_confined (resolve : Resolver) (n : ℕ) (guard : Guard) (address : Text) :
    Confined guard (dialed resolve n guard address) := by
  cases guard with
  | safe => exact dialContextWith_confined .safe resolve n address
  | strict => exact dialContextWith_confined .strict resolve n address

/-! The ranges. -/

theorem within_nil (r : Bounds) : Within r [] := by
  unfold Within
  rw [List.zip_nil_right]
  exact fun _ h ↦ by cases h

theorem within_nil_left (b : Bytes) : Within [] b := fun _ h ↦ by cases h

theorem within_cons {lo hi : ℕ} {r : Bounds} {x : UInt8} :
    Within ((lo, hi) :: r) (x :: b) ↔ (lo ≤ x.toNat ∧ x.toNat ≤ hi) ∧ Within r b := by
  unfold Within
  rw [List.zip_cons_cons, List.forall_mem_cons]

theorem within_only {c : Bytes} (h : c.length = b.length) : Within (only c) b ↔ b = c := by
  induction c generalizing b with
  | nil =>
    obtain rfl := List.length_eq_zero_iff.mp h.symm
    exact iff_of_true (within_nil _) rfl
  | cons y c ih =>
    cases b with
    | nil => cases h
    | cons x b =>
      rw [only, List.map_cons, within_cons, ← only, ih (Nat.succ.inj h), List.cons.injEq]
      exact and_congr_left' (le_antisymm_iff.symm.trans (eq_comm.trans UInt8.toNat_inj))

theorem byte_forall {P : UInt8 → Prop} (h : ∀ n < 256, P (UInt8.ofNat n)) (x : UInt8) : P x :=
  UInt8.ofNat_toNat (x := x) ▸ h x.toNat x.toNat_lt

theorem byte_eq (x y : UInt8) : (x == y) = decide (x.toNat = y.toNat) := by
  rw [Bool.eq_iff_iff, beq_iff_eq, decide_eq_true_iff, UInt8.toNat_inj]

/-- The tests of a byte under a mask, for all bytes at once. -/
theorem byte_masks (x : UInt8) : (x &&& 0xf0 == 16) = decide (16 ≤ x.toNat ∧ x.toNat ≤ 31) ∧
    (x &&& 0xc0 == 64) = decide (64 ≤ x.toNat ∧ x.toNat ≤ 127) ∧
    (x &&& 0xc0 == 0x80) = decide (0x80 ≤ x.toNat ∧ x.toNat ≤ 0xbf) ∧
    (x &&& 0xfe == 0xfc) = decide (0xfc ≤ x.toNat ∧ x.toNat ≤ 0xfd) ∧
    ((x &&& 0x0f == 0x02) = true ↔ ∃ flags < 16, 16 * flags + 2 ≤ x.toNat ∧ x.toNat ≤ 16 * flags + 2) := by
  revert x
  exact byte_forall (by decide +kernel)

theorem and_f0 (x : UInt8) : (x &&& 0xf0 == 16) = decide (16 ≤ x.toNat ∧ x.toNat ≤ 31) := (byte_masks x).1

theorem and_c0 (x : UInt8) : (x &&& 0xc0 == 64) = decide (64 ≤ x.toNat ∧ x.toNat ≤ 127) := (byte_masks x).2.1

theorem and_c0' (x : UInt8) : (x &&& 0xc0 == 0x80) = decide (0x80 ≤ x.toNat ∧ x.toNat ≤ 0xbf) := (byte_masks x).2.2.1

theorem and_fe (x : UInt8) : (x &&& 0xfe == 0xfc) = decide (0xfc ≤ x.toNat ∧ x.toNat ≤ 0xfd) := (byte_masks x).2.2.2.1

theorem and_0f (x : UInt8) : (x &&& 0x0f == 0x02) = true ↔ ∃ flags < 16, 16 * flags + 2 ≤ x.toNat ∧ x.toNat ≤ 16 * flags + 2 :=
  (byte_masks x).2.2.2.2

theorem networkNumberAndMask_cgnat : networkNumberAndMask cgnatNet = some ([100, 64, 0, 0], [255, 192, 0, 0]) := by
  decide

theorem cgnat_four (a b c d : UInt8) :
    cgnatNet.contains [a, b, c, d] = (a == 100 && decide (64 ≤ b.toNat ∧ b.toNat ≤ 127)) := by
  have hnumber : List.zipWith (· &&& ·) [100, 64, 0, 0] [255, 192, 0, 0] = ([100, 64, 0, 0] : Bytes) := by decide
  have hfull : a &&& 255 = a := UInt8.and_neg_one
  have hmasked : List.zipWith (· &&& ·) [a, b, c, d] [255, 192, 0, 0] = [a, b &&& 0xc0, 0, 0] := by
    simp only [List.zipWith_cons_cons, List.zipWith_nil_left, hfull, UInt8.and_zero]
  unfold IPNet.contains
  rw [networkNumberAndMask_cgnat, show to4 [a, b, c, d] = some [a, b, c, d] from rfl]
  dsimp only [Option.getD_some]
  rw [hnumber, hmasked, ← and_c0, Bool.eq_iff_iff]
  simp only [List.length_cons, List.length_nil, beq_self_eq_true, Bool.true_and, Bool.and_eq_true, beq_iff_eq,
    List.cons.injEq, and_true]
  exact ⟨fun h ↦ ⟨h.1.symm, h.2.symm⟩, fun h ↦ ⟨h.1.symm, h.2.symm⟩⟩

/-- What both checks look for, and what the strict one alone does. -/
def alwaysBad (ip : IP) : Prop :=
  isLoopback ip = true ∨ (isLinkLocalUnicast ip = true ∨ isLinkLocalMulticast ip = true) ∨ isUnspecified ip = true ∨
    cgnatNet.contains ip = true

theorem check_refuses (guard : Guard) (ip : IP) : guard.check ip ≠ .ok () ↔
    alwaysBad ip ∨ (match guard with | .safe => False | .strict => isPrivate ip = true) := by
  cases guard with
  | safe =>
    refine (not_congr checkIPAlwaysBad_ok).trans ?_
    simp only [not_and_or, Bool.not_eq_false, alwaysBad, or_false, or_assoc]
  | strict =>
    refine (not_congr checkIPNotPrivate_ok).trans ?_
    simp only [not_and_or, Bool.not_eq_false, alwaysBad, or_assoc]
    tauto

/-- The ranges of a check are those of its classes. -/
theorem check_ranges {bad priv : List Bounds} (guard : Guard) (hbad : alwaysBad ip ↔ ∃ r ∈ bad, Within r b)
    (hpriv : isPrivate ip = true ↔ ∃ r ∈ priv, Within r b) : guard.check ip ≠ .ok () ↔
      ∃ r ∈ (match guard with | .safe => bad | .strict => bad ++ priv), Within r b := by
  rw [check_refuses, hbad]
  cases guard with
  | safe => rw [or_false]
  | strict =>
    simp only [hpriv, List.mem_append, or_and_right, exists_or]

theorem alwaysBad_four (a b c d : UInt8) : alwaysBad [a, b, c, d] ↔ ∃ r ∈ alwaysBad4, Within r [a, b, c, d] := by
  have hloopback : isLoopback [a, b, c, d] = true ↔ Within [(127, 127)] [a, b, c, d] := by
    rw [show isLoopback [a, b, c, d] = (a == 127) from rfl]
    simp [byte_eq, within_cons, within_nil_left]
    omega
  have hunicast : isLinkLocalUnicast [a, b, c, d] = true ↔ Within [(169, 169), (254, 254)] [a, b, c, d] := by
    rw [show isLinkLocalUnicast [a, b, c, d] = (a == 169 && b == 254) from rfl]
    simp [byte_eq, within_cons, within_nil_left]
    omega
  have hmulticast : isLinkLocalMulticast [a, b, c, d] = true ↔ Within [(224, 224), (0, 0), (0, 0)] [a, b, c, d] := by
    rw [show isLinkLocalMulticast [a, b, c, d] = (a == 224 && b == 0 && c == 0) from rfl]
    simp [byte_eq, within_cons, within_nil_left]
    omega
  have hunspecified : isUnspecified [a, b, c, d] = true ↔ Within (only [0, 0, 0, 0]) [a, b, c, d] := by
    rw [within_only (c := [0, 0, 0, 0]) (b := [a, b, c, d]) rfl, isUnspecified_four rfl, beq_iff_eq]
  have hcgnat : cgnatNet.contains [a, b, c, d] = true ↔ Within [(100, 100), (64, 127)] [a, b, c, d] := by
    rw [cgnat_four]
    simp [byte_eq, within_cons, within_nil_left]
    omega
  unfold alwaysBad alwaysBad4
  rw [hloopback, hunicast, hmulticast, hunspecified, hcgnat]
  simp only [List.mem_cons, List.not_mem_nil, or_false, exists_eq_or_imp, exists_eq_left, or_assoc]

theorem isPrivate_four (a b c d : UInt8) : isPrivate [a, b, c, d] = true ↔ ∃ r ∈ private4, Within r [a, b, c, d] := by
  have hbits := and_f0 b
  rw [show isPrivate [a, b, c, d] =
    (a == 10 || (a == 172 && b &&& 0xf0 == 16) || (a == 192 && b == 168)) from rfl, hbits]
  simp [private4, byte_eq, within_cons, within_nil_left]
  omega

/-- An IPv4 address in its four bytes. -/
theorem check_four (guard : Guard) (b : Bytes) (h : b.length = 4) :
    guard.check b ≠ .ok () ↔ ∃ r ∈ guard.ranges4, Within r b := by
  obtain ⟨a, b, c, d, rfl⟩ := List.length_eq_four.mp h
  have hranges := check_ranges guard (alwaysBad_four a b c d) (isPrivate_four a b c d)
  cases guard <;> exact hranges

theorem check_mapped (guard : Guard) (b : Bytes) (h : b.length = 4) :
    guard.check (v4InV6Prefix ++ b) ≠ .ok () ↔ ∃ r ∈ guard.ranges4, Within r b := by
  have hform : to16 b = v4InV6Prefix ++ b := if_pos h
  rw [← hform, ← check_four guard b h]
  exact not_congr (check_to16 (.inl h))

section Six

variable {x y : UInt8} {rest : Bytes}

theorem equal_sixteen (h : b.length = 16) {c : IP} (hc : c.length = 16) : equal b c = true ↔ b = c := by
  rw [equal, if_pos (h.trans hc.symm), beq_iff_eq]

theorem isLoopback_six (h : (x :: y :: rest).length = 16) (h4 : to4 (x :: y :: rest) = none) :
    isLoopback (x :: y :: rest) = true ↔ Within (only ipv6loopback) (x :: y :: rest) := by
  rw [within_only (c := ipv6loopback) h.symm, isLoopback, byForm, h4]
  exact equal_sixteen h rfl

theorem isUnspecified_six (h : (x :: y :: rest).length = 16) (hno : (x :: y :: rest).take 12 ≠ v4InV6Prefix) :
    isUnspecified (x :: y :: rest) = true ↔ Within (only ipv6unspecified) (x :: y :: rest) := by
  rw [within_only (c := ipv6unspecified) h.symm, isUnspecified, Bool.or_eq_true, equal_sixteen h rfl, equal_sixteen h rfl]
  exact or_iff_right (fun heq ↦ hno (heq ▸ rfl))

theorem cgnat_six (h : (x :: y :: rest).length = 16) (h4 : to4 (x :: y :: rest) = none) :
    cgnatNet.contains (x :: y :: rest) = false := by
  rw [IPNet.contains, networkNumberAndMask_cgnat, h4]
  dsimp only [Option.getD_none]
  rw [h]
  rfl

theorem isLinkLocalUnicast_six (h : (x :: y :: rest).length = 16) (h4 : to4 (x :: y :: rest) = none) :
    isLinkLocalUnicast (x :: y :: rest) = true ↔ Within [(0xfe, 0xfe), (0x80, 0xbf)] (x :: y :: rest) := by
  rw [isLinkLocalUnicast, byForm, h4]
  dsimp only [List.getD_cons_zero, List.getD_cons_succ]
  rw [and_c0', h, within_cons, within_cons, byte_eq]
  simp [within_nil_left]
  omega

/-- Whatever its flags. -/
theorem isLinkLocalMulticast_six (h : (x :: y :: rest).length = 16) (h4 : to4 (x :: y :: rest) = none) :
    isLinkLocalMulticast (x :: y :: rest) = true ↔
      ∃ flags < 16, Within [(0xff, 0xff), (16 * flags + 2, 16 * flags + 2)] (x :: y :: rest) := by
  rw [isLinkLocalMulticast, byForm, h4]
  dsimp only [List.getD_cons_zero, List.getD_cons_succ]
  rw [h, Bool.and_eq_true, and_0f, byte_eq]
  simp only [within_cons]
  constructor
  · rintro ⟨hx, flags, hlt, hy⟩
    refine ⟨flags, hlt, ?_, hy, within_nil_left _⟩
    simp at hx
    omega
  · rintro ⟨flags, hlt, hx, hy, -⟩
    refine ⟨?_, flags, hlt, hy⟩
    simp
    omega

theorem isPrivate_six (h : (x :: y :: rest).length = 16) (h4 : to4 (x :: y :: rest) = none) :
    isPrivate (x :: y :: rest) = true ↔ ∃ r ∈ private6, Within r (x :: y :: rest) := by
  rw [isPrivate, byForm, h4]
  dsimp only [List.getD_cons_zero, List.getD_cons_succ]
  rw [and_fe, h]
  simp [private6, within_cons, within_nil_left]

theorem exists_alwaysBad6 : (∃ r ∈ alwaysBad6, Within r b) ↔
    (Within (only ipv6loopback) b ∨ Within [(0xfe, 0xfe), (0x80, 0xbf)] b ∨ Within (only ipv6unspecified) b) ∨
      ∃ flags < 16, Within [(0xff, 0xff), (16 * flags + 2, 16 * flags + 2)] b := by
  unfold alwaysBad6
  simp only [List.mem_append, List.mem_cons, List.not_mem_nil, or_false, List.mem_map, List.mem_range, or_and_right,
    exists_or, exists_eq_left, exists_exists_and_eq_and]

theorem alwaysBad_six (h : (x :: y :: rest).length = 16) (hno : (x :: y :: rest).take 12 ≠ v4InV6Prefix)
    (h4 : to4 (x :: y :: rest) = none) : alwaysBad (x :: y :: rest) ↔ ∃ r ∈ alwaysBad6, Within r (x :: y :: rest) := by
  have shuffle : ∀ p q r s : Prop, p ∨ (q ∨ s) ∨ r ↔ (p ∨ q ∨ r) ∨ s := by
    intro p q r s
    tauto
  unfold alwaysBad
  rw [isLoopback_six h h4, isLinkLocalUnicast_six h h4, isLinkLocalMulticast_six h h4, isUnspecified_six h hno,
    cgnat_six h h4, exists_alwaysBad6, ← shuffle]
  simp only [Bool.false_eq_true, or_false]

/-- An address that is no IPv4 one. -/
theorem check_six (guard : Guard) (b : Bytes) (h : b.length = 16) (hno : b.take 12 ≠ v4InV6Prefix) :
    guard.check b ≠ .ok () ↔ ∃ r ∈ guard.ranges6, Within r b := by
  have h4 : to4 b = none := by rw [to4, if_neg (by omega), if_neg (fun hb ↦ hno hb.2)]
  obtain ⟨x, y, rest, rfl⟩ : ∃ x y rest, b = x :: y :: rest := by
    cases b with
    | nil => exact absurd h (by simp)
    | cons x rest =>
      cases rest with
      | nil => exact absurd h (by simp)
      | cons y rest => exact ⟨x, y, rest, rfl⟩
  have hranges := check_ranges guard (alwaysBad_six h hno h4) (isPrivate_six h h4)
  cases guard <;> exact hranges

end Six

theorem blocks (guard : Guard) : Blocks guard where
  four := check_four guard
  mapped := check_mapped guard
  six := check_six guard

def AllConfined (s : State) : Prop := ∀ x ∈ s.dials, Confined x.1 x.2

theorem step_confined (resolve : Resolver) (s : State) (a : Act) (t : State) (h : AllConfined s)
    (hs : step resolve s a = some t) : AllConfined t := by
  cases a with
  | validateRemoteURL hostname =>
    cases hs
    exact h
  | dial guard address =>
    cases hs
    intro x hx
    rcases List.mem_append.mp hx with hx | hx
    · exact h x hx
    · obtain rfl := List.mem_singleton.mp hx
      exact dialed_confined resolve s.lookups guard address

/-- Whatever the resolver answers at each lookup, in any run of validations and dials a connection goes only to an
address that its own dial accepted, and none is opened when a candidate is refused; each check refuses exactly its
ranges, in every form of an address; and what the strict check accepts, the looser one does. -/
theorem dials_confined (resolve : Resolver) (as : List Act) :
    Throughout (step resolve) AllConfined {} as ∧ (∀ guard, Blocks guard) ∧
      ∀ ip, checkIPNotPrivate ip = .ok () → checkIPAlwaysBad ip = .ok () :=
  ⟨throughout_of_step (step_confined resolve) (fun _ h ↦ by cases h) as, blocks, fun _ ↦ checkIPAlwaysBad_of_notPrivate⟩

end KubeCenter.K8s.SafeDialer
