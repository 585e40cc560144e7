import KubeCenter.Core.GoNet

/-! The client address behind trusted proxies. -/

namespace KubeCenter.Server.TrustedProxy

open KubeCenter.Core KubeCenter.Core.Net

def trimSpace (s : Text) : Text := ((s.dropWhile isSpace).reverse.dropWhile isSpace).reverse

/-- `X-Real-IP` and `X-Forwarded-For`, each with the values of its lines. -/
structure Headers where
  realIP : List Text := []
  forwardedFor : List Text := []

structure Request where
  remoteAddr : Text
  headers : Headers

/-- `Header.Get`. -/
def get (values : List Text) : Text := values.head?.getD []

/-- The configured CIDRs that parse. -/
def trusted (cidrs : List Text) : List IPNet :=
  cidrs.filterMap (fun raw ↦ if trimSpace raw = [] then none else parseCIDR (trimSpace raw))

def socketPeerIP (remoteAddr : Text) : Option IP :=
  let host := match splitHostPort remoteAddr with
    | some (host, _) => host
    | none => remoteAddr
  match cut '%' host with
  | some (host, _) => parseIP host
  | none => parseIP host

def firstEntry (v : Text) : Text :=
  match cut ',' v with
  | some (head, _) => head
  | none => v

/-- The empty text when neither header names an address. -/
def pickForwardedIP (h : Headers) : Text :=
  let v := trimSpace (get h.realIP)
  match if v = [] then none else parseIP v with
  | some ip => string ip
  | none =>
    let v := get h.forwardedFor
    match if v = [] then none else parseIP (trimSpace (firstEntry v)) with
    | some ip => string ip
    | none => []

def ipInAny (ip : IP) (nets : List IPNet) : Bool := nets.any (fun n ↦ n.contains ip)

/-- The request as the next handler gets it. -/
def trustedProxy (cidrs : List Text) (r : Request) : Request :=
  if (trusted cidrs).isEmpty then r
  else
    match socketPeerIP r.remoteAddr with
    | none => r
    | some peer =>
      if ipInAny peer (trusted cidrs) then
        if pickForwardedIP r.headers = [] then r else { r with remoteAddr := pickForwardedIP r.headers }
      else r

/-- What the rate limiter and the audit log go by. -/
def extractIP (remoteAddr : Text) : Text :=
  match splitHostPort remoteAddr with
  | some (host, _) => host
  | none => remoteAddr

def identity (cidrs : List Text) (r : Request) : Text := extractIP (trustedProxy cidrs r).remoteAddr

/-! The way of a request. -/

/-- The far end of a TCP connection. A zone comes with a link-local address only. -/
structure Peer where
  ip : IP
  zone : Text := []
  port : Text
  sized : Sized ip
  zone_brackets : '[' ∉ zone ∧ ']' ∉ zone
  port_plain : ':' ∉ port ∧ '[' ∉ port ∧ ']' ∉ port

def Peer.host (p : Peer) : Text := string p.ip ++ if p.zone = [] then [] else '%' :: p.zone

/-- The form in which `net/http` gives a connection's far end. -/
def Peer.remoteAddr (p : Peer) : Text := joinHostPort p.host p.port

/-- A proxy appends to `X-Forwarded-For` in one list with what was there, or in a line of its own. -/
inductive Appending where
  | joining | newLine

structure Proxy where
  peer : Peer
  appending : Appending

/-- The headers a proxy sends on, for a request it got from `client`. -/
def Proxy.forward (p : Proxy) (client : Peer) (h : Headers) : Headers :=
  { h with forwardedFor := match p.appending with
      | .joining => [[',', ' '].intercalate (h.forwardedFor ++ [string client.ip])]
      | .newLine => h.forwardedFor ++ [string client.ip] }

/-- The request the server sees, from one that `peer` sends with headers `h` through the proxies. -/
def arrives (h : Headers) (peer : Peer) : List Proxy → Request
  | [] => ⟨peer.remoteAddr, h⟩
  | p :: ps => arrives (p.forward peer h) p.peer ps

def Trusted (cidrs : List Text) (ip : IP) : Prop := ipInAny ip (trusted cidrs) = true

instance (cidrs : List Text) (ip : IP) : Decidable (Trusted cidrs ip) := inferInstanceAs (Decidable (_ = true))

/-- The address at the head of the list in the first `X-Forwarded-For` line. -/
def claimedFor (h : Headers) : Option IP := parseIP (trimSpace (firstEntry (get h.forwardedFor)))

def claimedReal (h : Headers) : Option IP := parseIP (trimSpace (get h.realIP))

/-- A client that sends an address in `X-Real-IP` sends its own; one that does not, but sends an `X-Forwarded-For`,
has its own address first there. -/
def Truthful (c : Peer) (h : Headers) : Prop :=
  match claimedReal h with
  | some ip => ip = to16 c.ip
  | none => h.forwardedFor = [] ∨ claimedFor h = some (to16 c.ip)

variable {cidrs : List Text} {c q : Peer} {p : Proxy} {ps : List Proxy} {h h' : Headers} {ip : IP} {s : Text}

theorem parseIP_nil : parseIP [] = none := rfl

theorem pickForwardedIP_eq (h : Headers) :
    pickForwardedIP h = (((claimedReal h).or (claimedFor h)).map string).getD [] := by
  have hreal : (if trimSpace (get h.realIP) = [] then none else parseIP (trimSpace (get h.realIP))) = claimedReal h := by
    unfold claimedReal
    split
    · next hnil => rw [hnil, parseIP_nil]
    · rfl
  have hfor : (if get h.forwardedFor = [] then none else parseIP (trimSpace (firstEntry (get h.forwardedFor)))) =
      claimedFor h := by
    unfold claimedFor
    split
    · next hnil => rw [hnil]; rfl
    · rfl
  unfold pickForwardedIP
  dsimp only
  rw [hreal, hfor]
  cases claimedReal h with
  | some ip => rfl
  | none => cases claimedFor h <;> rfl

/-! What the proxies add comes last, except to a request that has no `X-Forwarded-For`. -/

theorem isSpace_hex {c : Char} (h : c = '.' ∨ c = ':' ∨ hexValue c ≠ none) : isSpace c = false := by
  have hlow : c.toNat < 0x2000 := by
    rcases h with rfl | rfl | hhex
    · decide
    · decide
    · unfold hexValue at hhex
      split_ifs at hhex
      · omega
      · omega
      · omega
      · exact absurd rfl hhex
  have hmarks : ∀ m ∈ ['\t', '\n', '\x0b', '\x0c', '\r', ' ', '\u0085', '\u00a0', '\u1680', '\u2028', '\u2029',
      '\u202f', '\u205f', '\u3000'], ¬ (m = '.' ∨ m = ':' ∨ hexValue m ≠ none) := by
    simp only [List.forall_mem_cons]
    simp [hexValue]
  rw [isSpace, Bool.or_eq_false_iff]
  exact ⟨decide_eq_false (fun hmem ↦ hmarks c hmem h), decide_eq_false (by omega)⟩

theorem trimSpace_of_none (h : ∀ c ∈ s, isSpace c = false) : trimSpace s = s := by
  have drop : ∀ t : Text, (∀ c ∈ t, isSpace c = false) → t.dropWhile isSpace = t := by
    intro t ht
    cases t with
    | nil => rfl
    | cons c t => rw [List.dropWhile_cons_of_neg (by simp [ht c List.mem_cons_self])]
  rw [trimSpace, drop s h, drop s.reverse (fun c hc ↦ h c (List.mem_reverse.mp hc)), List.reverse_reverse]

theorem firstEntry_of_not_mem (h : ',' ∉ s) : firstEntry s = s := by rw [firstEntry, cut_none h]

theorem firstEntry_append (s t : Text) : firstEntry (s ++ ',' :: t) = firstEntry s := by
  by_cases hmem : ',' ∈ s
  · obtain ⟨a, b, rfl, ha⟩ := List.eq_append_cons_of_mem hmem
    rw [List.append_assoc, List.cons_append, firstEntry, firstEntry, cut_append ha, cut_append ha]
  · rw [firstEntry, cut_append hmem, firstEntry_of_not_mem hmem]

theorem parse_string (h : Sized ip) : parseIP (trimSpace (firstEntry (string ip))) = some (to16 ip) := by
  rw [firstEntry_of_not_mem (not_mem_string h (by decide) (by decide) (by decide)),
    trimSpace_of_none (fun c hc ↦ isSpace_hex (mem_string h hc)), parseIP_string h]

theorem claimedFor_forward : claimedFor (p.forward c h) =
    if h.forwardedFor = [] then some (to16 c.ip) else claimedFor h := by
  obtain ⟨realIP, forwardedFor⟩ := h
  cases forwardedFor with
  | nil =>
    have hget : get (p.forward c ⟨realIP, []⟩).forwardedFor = string c.ip := by
      unfold Proxy.forward
      cases p.appending
      · simp [get]
      · rfl
    rw [if_pos rfl, claimedFor, hget, parse_string c.sized]
  | cons l ls =>
    have hfirst : firstEntry (get (p.forward c ⟨realIP, l :: ls⟩).forwardedFor) = firstEntry l := by
      unfold Proxy.forward
      cases p.appending with
      | joining =>
        obtain ⟨m, ms, hrest⟩ := List.exists_cons_of_ne_nil (l := ls ++ [string c.ip]) (by simp)
        change firstEntry ([',', ' '].intercalate (l :: (ls ++ [string c.ip]))) = _
        rw [hrest, List.intercalate_cons_cons, List.append_assoc]
        exact firstEntry_append l _
      | newLine => rfl
    rw [if_neg (List.cons_ne_nil l ls), claimedFor, hfirst]
    rfl

theorem forwardedFor_forward : (p.forward c h).forwardedFor ≠ [] := by
  unfold Proxy.forward
  cases p.appending <;> simp

/-- What the server sees: the last proxy as the far end, the client's headers at their first places. -/
theorem arrives_spec (h : Headers) (c : Peer) (p : Proxy) (ps : List Proxy) :
    (∃ q ∈ p :: ps, (arrives h c (p :: ps)).remoteAddr = q.peer.remoteAddr) ∧
      claimedReal (arrives h c (p :: ps)).headers = claimedReal h ∧
      claimedFor (arrives h c (p :: ps)).headers = if h.forwardedFor = [] then some (to16 c.ip) else claimedFor h := by
  induction ps generalizing h c p with
  | nil => exact ⟨⟨p, List.mem_cons_self, rfl⟩, rfl, claimedFor_forward⟩
  | cons p' ps ih =>
    obtain ⟨⟨q, hq, haddr⟩, hreal, hfor⟩ := ih (p.forward c h) p.peer p'
    refine ⟨⟨q, List.mem_cons_of_mem p hq, haddr⟩, hreal, ?_⟩
    rw [if_neg forwardedFor_forward] at hfor
    exact hfor.trans claimedFor_forward

/-! The far end. -/

theorem trusted_to16 (h : Sized ip) : Trusted cidrs (to16 ip) ↔ Trusted cidrs ip := by
  unfold Trusted ipInAny
  simp only [contains_to16 _ h]

theorem percent_not_mem (h : Sized ip) : '%' ∉ string ip := not_mem_string h (by decide) (by decide) (by decide)

theorem splitHostPort_remoteAddr (q : Peer) : splitHostPort q.remoteAddr = some (q.host, q.port) := by
  have hopen : '[' ∉ q.host := by
    unfold Peer.host
    rw [List.mem_append, not_or]
    refine ⟨not_mem_string q.sized (by decide) (by decide) (by decide), ?_⟩
    split
    · exact List.not_mem_nil
    · simpa using q.zone_brackets.1
  have hclose : ']' ∉ q.host := by
    unfold Peer.host
    rw [List.mem_append, not_or]
    refine ⟨not_mem_string q.sized (by decide) (by decide) (by decide), ?_⟩
    split
    · exact List.not_mem_nil
    · simpa using q.zone_brackets.2
  exact splitHostPort_join hopen hclose q.port_plain.1 q.port_plain.2.1 q.port_plain.2.2

theorem socketPeerIP_remoteAddr (q : Peer) : socketPeerIP q.remoteAddr = some (to16 q.ip) := by
  unfold socketPeerIP
  rw [splitHostPort_remoteAddr]
  dsimp only
  unfold Peer.host
  split
  · next host zone hcut =>
    split at hcut
    · rw [List.append_nil, cut_none (percent_not_mem q.sized)] at hcut
      cases hcut
    · rw [cut_append (percent_not_mem q.sized)] at hcut
      cases hcut
      exact parseIP_string q.sized
  · next hcut =>
    split at hcut
    · next hzone => rw [if_pos hzone, List.append_nil, parseIP_string q.sized]
    · rw [cut_append (percent_not_mem q.sized)] at hcut
      cases hcut

/-- Two far ends of different address have different hosts. -/
theorem host_ne (hc : ¬ Trusted cidrs ip) (hip : Sized ip) (hq : Trusted cidrs q.ip) : q.host ≠ string ip := by
  intro heq
  unfold Peer.host at heq
  split at heq
  · rw [List.append_nil] at heq
    have h16 := string_injective q.sized hip heq
    exact hc ((trusted_to16 hip).mp (h16 ▸ (trusted_to16 q.sized).mpr hq))
  · exact percent_not_mem hip (heq ▸ List.mem_append_right _ List.mem_cons_self)

theorem extractIP_string (h : Sized ip) : extractIP (string ip) = string ip := by
  rw [extractIP, splitHostPort_bare h]

/-- What a request is known by, when its far end is trusted. -/
theorem identity_eq {r : Request} (hq : Trusted cidrs q.ip) (haddr : r.remoteAddr = q.remoteAddr) :
    identity cidrs r = (((claimedReal r.headers).or (claimedFor r.headers)).map string).getD q.host := by
  have hsome : (trusted cidrs).isEmpty = false := by
    unfold Trusted ipInAny at hq
    obtain ⟨n, hn, -⟩ := List.any_eq_true.mp hq
    exact List.isEmpty_eq_false_iff.mpr (List.ne_nil_of_mem hn)
  have hinAny : ipInAny (to16 q.ip) (trusted cidrs) = true := (trusted_to16 q.sized).mpr hq
  unfold identity trustedProxy
  rw [hsome, if_neg (by simp), haddr, socketPeerIP_remoteAddr]
  dsimp only
  rw [if_pos hinAny, pickForwardedIP_eq]
  cases hpick : (claimedReal r.headers).or (claimedFor r.headers) with
  | none =>
    rw [Option.map_none, Option.getD_none, Option.getD_none, if_pos rfl, extractIP, haddr, splitHostPort_remoteAddr]
  | some ip =>
    have hsized : Sized ip := .inr (by
      rcases Option.or_eq_some_iff.mp hpick with h | ⟨-, h⟩ <;> exact parseIP_length h)
    have hne : string ip ≠ [] := by
      intro hnil
      have hparse := parseIP_string hsized
      rw [hnil, parseIP_nil] at hparse
      cases hparse
    rw [Option.map_some, Option.getD_some, Option.getD_some, if_neg hne]
    exact extractIP_string hsized

theorem identity_iff (hc : ¬ Trusted cidrs c.ip) (hps : ∀ q ∈ p :: ps, Trusted cidrs q.peer.ip) (h : Headers) :
    identity cidrs (arrives h c (p :: ps)) = string c.ip ↔ Truthful c h := by
  obtain ⟨⟨q, hq, haddr⟩, hreal, hfor⟩ := arrives_spec h c p ps
  have claims : ∀ ip, ip.length = 16 → (string ip = string c.ip ↔ ip = to16 c.ip) := by
    intro ip hlen
    have h16 : to16 ip = ip := if_neg (by omega)
    refine ⟨fun heq ↦ ?_, fun heq ↦ ?_⟩
    · rw [← h16]
      exact string_injective (.inr hlen) c.sized heq
    · rw [heq, string_to16 c.sized]
  rw [identity_eq (hps q hq) haddr, hreal, hfor, Truthful]
  cases hr : claimedReal h with
  | some ip => exact claims ip (parseIP_length hr)
  | none =>
    rw [Option.none_or]
    by_cases hnil : h.forwardedFor = []
    · rw [if_pos hnil]
      exact iff_of_true (string_to16 c.sized) (.inl hnil)
    · rw [if_neg hnil]
      cases hf : claimedFor h with
      | some ip =>
        refine (claims ip (parseIP_length hf)).trans ⟨fun heq ↦ .inr (congrArg some heq), fun hor ↦ ?_⟩
        exact Option.some.inj (hor.resolve_left hnil)
      | none => exact iff_of_false (host_ne hc c.sized (hps q hq)) (by simp [hnil])

/-- Through trusted proxies, a client is known by its address whichever of two sets of headers it sends, iff it is
truthful in both. -/
theorem unforged_iff (cidrs : List Text) (c : Peer) (p : Proxy) (ps : List Proxy) (hc : ¬ Trusted cidrs c.ip)
    (hps : ∀ q ∈ p :: ps, Trusted cidrs q.peer.ip) (h h' : Headers) :
    identity cidrs (arrives h c (p :: ps)) = string c.ip ∧
        identity cidrs (arrives h' c (p :: ps)) = identity cidrs (arrives h c (p :: ps)) ↔
      Truthful c h ∧ Truthful c h' := by
  rw [← identity_iff hc hps h, ← identity_iff hc hps h']
  exact and_congr_right (fun heq ↦ by rw [heq])

section Run

def ingress : Proxy where
  peer := { ip := [10, 42, 5, 17], port := "51000".toList, sized := .inl rfl, zone_brackets := by decide, port_plain := by decide }
  appending := .joining

def attacker : Peer where
  ip := [203, 0, 113, 7]
  port := "40000".toList
  sized := .inl rfl
  zone_brackets := by decide
  port_plain := by decide

def podCIDR : List Text := ["10.42.5.17/32".toList]

theorem trusted_ingress : Trusted podCIDR ingress.peer.ip := by decide

theorem not_trusted_attacker : ¬ Trusted podCIDR attacker.ip := by decide

/-- One set of headers names the client, the other is empty. -/
theorem unforged_iff_own : identity podCIDR (arrives {} attacker [ingress]) = string attacker.ip ∧
    identity podCIDR (arrives { forwardedFor := ["203.0.113.7".toList] } attacker [ingress]) =
      identity podCIDR (arrives {} attacker [ingress]) := by
  refine (unforged_iff podCIDR attacker ingress [] not_trusted_attacker ?_ _ _).mpr ⟨?_, ?_⟩
  · intro q hq
    obtain rfl := List.mem_singleton.mp hq
    exact trusted_ingress
  · exact .inl rfl
  · exact .inr (by decide)

theorem not_unforged : ¬ ∀ (cidrs : List Text) (c : Peer) (p : Proxy) (ps : List Proxy), ¬ Trusted cidrs c.ip →
    (∀ q ∈ p :: ps, Trusted cidrs q.peer.ip) → ∀ h : Headers, identity cidrs (arrives h c (p :: ps)) = string c.ip := by
  intro hall
  have hforged := hall podCIDR attacker ingress [] not_trusted_attacker
    (fun q hq ↦ List.mem_singleton.mp hq ▸ trusted_ingress) { forwardedFor := ["198.51.100.1".toList] }
  revert hforged
  decide

end Run

end KubeCenter.Server.TrustedProxy
