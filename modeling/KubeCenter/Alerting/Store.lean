import Mathlib.Data.List.Infix
import KubeCenter.Core.GoBytes
import KubeCenter.Core.GoInt
import KubeCenter.Core.GoMap
import KubeCenter.Core.Keyset

/-! The alert history kept in memory. -/

namespace KubeCenter.Alerting

open KubeCenter.Core

/-- A reading of the clock that `UnixNano` holds. -/
structure Instant where
  nanos : ℤ
  lower : -2 ^ 63 ≤ nanos
  upper : nanos < 2 ^ 63

/-- Of the times that may be unset, none is the zero time. -/
structure AlertEvent where
  id : Bytes := []
  fingerprint : String
  status : String
  alertName : String
  ns : String := ""
  severity : String := ""
  startsAt : ℤ := 0
  endsAt : Option ℤ := none
  receivedAt : Instant
  resolvedAt : Option ℤ := none

structure ListOptions where
  ns : String := ""
  alertName : String := ""
  severity : String := ""
  status : String := ""
  since : Option ℤ := none
  upTo : Option ℤ := none
  limit : ℤ := 0
  continueToken : Bytes := []

def maxHistoryEntries : ℕ := 10000
def defaultListLimit : ℕ := 50

structure MemoryStore where
  active : GoMap String AlertEvent := ∅
  history : List AlertEvent := []
  nextID : ℕ := 0

/-- `alert-` and the counter. -/
def alertID (n : ℕ) : Bytes := [97, 108, 101, 114, 116, 45] ++ decimal n

/-- The last `maxHistoryEntries` of the history. -/
def trimmed (history : List AlertEvent) : List AlertEvent := history.drop (history.length - maxHistoryEntries)

namespace MemoryStore

variable (s : MemoryStore)

def record (event : AlertEvent) (now : Instant) : MemoryStore :=
  let event := { event with id := alertID (s.nextID + 1), receivedAt := now }
  { active := if event.status = "firing" then s.active.insert event.fingerprint event else s.active
    history := trimmed (s.history ++ [event])
    nextID := s.nextID + 1 }

def resolve (fingerprint : String) (endsAt : Option ℤ) (now : Instant) : MemoryStore :=
  match s.active.lookup fingerprint with
  | none => s
  | some active =>
    let resolved := { active with
      status := "resolved", endsAt := endsAt, resolvedAt := some now.nanos, receivedAt := now
      id := alertID (s.nextID + 1) }
    { active := s.active.erase fingerprint
      history := trimmed (s.history ++ [resolved])
      nextID := s.nextID + 1 }

def prune (olderThan : ℤ) : MemoryStore :=
  { s with
    history := s.history.filter (fun event ↦ ¬ event.receivedAt.nanos < olderThan)
    active := s.active.sift (fun _ event ↦ ¬ event.receivedAt.nanos < olderThan) }

/-- `sort.Slice` is not stable and a map has no order: events that start together stand in any order. -/
def activeAlerts : List AlertEvent :=
  (s.active.entries.map Sigma.snd).mergeSort (fun a b ↦ b.startsAt ≤ a.startsAt)

end MemoryStore

/-- The filters of `List`; `toLower` is `unicode.ToLower`. -/
def matchesFilters (toLower : Char → Char) (opts : ListOptions) (event : AlertEvent) : Bool :=
  (opts.ns = "" || event.ns = opts.ns) &&
  (opts.alertName = "" || decide (opts.alertName.toList.map toLower <:+: event.alertName.toList.map toLower)) &&
  (opts.severity = "" || event.severity = opts.severity) &&
  (opts.status = "" || event.status = opts.status) &&
  opts.since.all (· ≤ event.receivedAt.nanos) && opts.upTo.all (event.receivedAt.nanos ≤ ·)

/-- The composite cursor of an event, `receivedAtNanos:id`. -/
def continueToken (event : AlertEvent) : Bytes :=
  Base64.encode (formatInt event.receivedAt.nanos ++ 58 :: event.id)

def invalidToken : String := "invalid continue token"

/-- The time and the id of a cursor; no colon leaves the id empty. -/
def decodeToken (token : Bytes) : Except String (Option (ℤ × Bytes)) :=
  if token = [] then .ok none
  else match Base64.decode token with
    | none => .error invalidToken
    | some decoded =>
      match parseInt (decoded.takeWhile (· ≠ 58)) with
      | none => .error invalidToken
      | some nanos => .ok (some (nanos, (decoded.dropWhile (· ≠ 58)).tail))

/-- The event is not skipped for the cursor. -/
def passesCursor (cursor : Option (ℤ × Bytes)) (event : AlertEvent) : Bool :=
  match cursor with
  | none => true
  | some (time, id) => !(time < event.receivedAt.nanos ||
      event.receivedAt.nanos = time && (id = [] || !decide (event.id < id)))

/-- The loop of `List`, which stops at one event more than a page holds. -/
def collect (keep : AlertEvent → Bool) (limit : ℕ) : List AlertEvent → List AlertEvent → List AlertEvent
  | result, [] => result
  | result, event :: events =>
    if keep event then
      if limit + 1 ≤ (result ++ [event]).length then result ++ [event]
      else collect keep limit (result ++ [event]) events
    else collect keep limit result events

def effectiveLimit (limit : ℤ) : ℕ := if limit ≤ 0 then defaultListLimit else limit.toNat

def MemoryStore.list (toLower : Char → Char) (s : MemoryStore) (opts : ListOptions) :
    Except String (List AlertEvent × Bytes) := do
  let limit := effectiveLimit opts.limit
  let cursor ← decodeToken opts.continueToken
  let result := collect (fun event ↦ passesCursor cursor event && matchesFilters toLower opts event) limit []
    s.history.reverse
  if limit < result.length then
    let result := result.take limit
    return (result, (result.getLast?.map continueToken).getD [])
  else return (result, [])

/-- What changes the store, each with its reading of the clock. -/
inductive Op
  | record (event : AlertEvent) (now : Instant)
  | resolve (fingerprint : String) (endsAt : Option ℤ) (now : Instant)
  | prune (olderThan : ℤ)

def MemoryStore.apply (s : MemoryStore) : Op → MemoryStore
  | .record event now => s.record event now
  | .resolve fingerprint endsAt now => s.resolve fingerprint endsAt now
  | .prune olderThan => s.prune olderThan

/-- The store after a sequence of operations on a new one. -/
def storeAfter (ops : List Op) : MemoryStore := ops.foldl MemoryStore.apply {}

theorem trimmed_sublist (history : List AlertEvent) : (trimmed history).Sublist history := List.drop_sublist _ _

theorem effectiveLimit_pos (limit : ℤ) : 0 < effectiveLimit limit := by
  unfold effectiveLimit defaultListLimit
  split <;> omega

theorem collect_eq (keep : AlertEvent → Bool) {limit : ℕ} {result : List AlertEvent} (h : result.length ≤ limit)
    (events : List AlertEvent) :
    collect keep limit result events = result ++ (events.filter keep).take (limit + 1 - result.length) := by
  induction events generalizing result with
  | nil => simp [collect]
  | cons event events ih =>
    rw [collect]
    by_cases hkeep : keep event = true
    · have hpos : limit + 1 - result.length = limit - result.length + 1 := by omega
      rw [if_pos hkeep, List.filter_cons_of_pos hkeep, hpos, List.take_succ_cons]
      split
      · next hfull =>
        rw [List.length_append, List.length_singleton] at hfull
        rw [show limit - result.length = 0 by omega, List.take_zero]
      · next hroom =>
        rw [List.length_append, List.length_singleton] at hroom
        rw [ih (by rw [List.length_append, List.length_singleton]; omega), List.length_append, List.length_singleton,
          List.append_assoc, List.singleton_append, show limit + 1 - (result.length + 1) = limit - result.length by omega]
    · rw [if_neg hkeep, List.filter_cons_of_neg hkeep, ih h]

theorem continueToken_ne_nil (event : AlertEvent) : continueToken event ≠ [] :=
  Base64.encode_ne_nil (by simp)

theorem decodeToken_continueToken (event : AlertEvent) :
    decodeToken (continueToken event) = .ok (some (event.receivedAt.nanos, event.id)) := by
  have htime : ∀ c ∈ formatInt event.receivedAt.nanos, decide (c ≠ 58) = true := by
    intro c hc
    apply decide_eq_true
    rintro rfl
    exact formatInt_colon _ hc
  rw [decodeToken, if_neg (continueToken_ne_nil event), continueToken, Base64.decode_encode]
  simp only [List.takeWhile_append_of_pos htime, List.dropWhile_append_of_pos htime]
  simp [parseInt_formatInt event.receivedAt.lower event.receivedAt.upper]

end KubeCenter.Alerting

namespace KubeCenter.Alerting

open KubeCenter.Core

section

variable (toLower : Char → Char) (s : MemoryStore) (opts : ListOptions)

/-- The events that match the filters, newest first. -/
def matching : List AlertEvent := s.history.reverse.filter (matchesFilters toLower opts)

/-- The pages a client gets that follows the tokens, from one on until none is returned. -/
inductive Follows : Bytes → List (List AlertEvent) → Prop
  | last {token : Bytes} {items : List AlertEvent} :
      s.list toLower { opts with continueToken := token } = .ok (items, []) → Follows token [items]
  | next {token token' : Bytes} {items : List AlertEvent} {pages : List (List AlertEvent)} :
      s.list toLower { opts with continueToken := token } = .ok (items, token') → token' ≠ [] →
      Follows token' pages → Follows token (items :: pages)

/-- From the empty token on, the pages end and are the matching events, each once and newest first. -/
def Lossless : Prop := ∃ pages, Follows toLower s opts [] pages ∧ pages.flatten = matching toLower s opts

/-- The first event is listed behind a cursor at the second: it is older, or as old with a smaller id. -/
def listedAfter (event c : AlertEvent) : Bool :=
  event.receivedAt.nanos < c.receivedAt.nanos ||
    (event.receivedAt.nanos = c.receivedAt.nanos && decide (event.id < c.id))

end

variable {toLower : Char → Char} {s : MemoryStore} {opts : ListOptions}

theorem passesCursor_eq (event c : AlertEvent) :
    passesCursor (some (c.receivedAt.nanos, c.id)) event = listedAfter event c := by
  have hempty : c.id = [] → ¬ event.id < c.id := by
    intro he
    rw [he]
    exact List.not_lt_nil event.id
  rcases Int.lt_trichotomy event.receivedAt.nanos c.receivedAt.nanos with hlt | heq | hgt
  · simp [passesCursor, listedAfter, hlt, Int.ne_of_lt hlt, Int.le_of_lt hlt]
  · by_cases hid : event.id < c.id
    · have hne : c.id ≠ [] := fun he ↦ hempty he hid
      simp [passesCursor, listedAfter, heq, hid, hne]
    · simp [passesCursor, listedAfter, heq, hid]
  · simp [passesCursor, listedAfter, hgt, Int.ne_of_gt hgt, Int.le_of_lt hgt]

theorem listedAfter_trans (x y z : AlertEvent) (hxy : listedAfter x y = true) (hyz : listedAfter y z = true) :
    listedAfter x z = true := by
  simp only [listedAfter, Bool.or_eq_true, Bool.and_eq_true, decide_eq_true_eq] at hxy hyz ⊢
  rcases hxy with hxy | ⟨htime, hid⟩
  · left
    omega
  · rcases hyz with hyz | ⟨htime', hid'⟩
    · left
      omega
    · right
      have : Trans (α := UInt8) (· < ·) (· < ·) (· < ·) := ⟨fun h h' ↦ UInt8.lt_trans h h'⟩
      exact ⟨htime.trans htime', List.lt_trans hid hid'⟩

/-- The token that leads behind a cursor. -/
def tokenAt (cursor : Option AlertEvent) : Bytes := (cursor.map continueToken).getD []

theorem decodeToken_tokenAt (cursor : Option AlertEvent) :
    decodeToken (tokenAt cursor) = .ok (cursor.map (fun c ↦ (c.receivedAt.nanos, c.id))) := by
  cases cursor with
  | none => rfl
  | some c => exact decodeToken_continueToken c

theorem after_eq (cursor : Option AlertEvent) :
    Keyset.after listedAfter (matching toLower s opts) cursor = s.history.reverse.filter (fun event ↦
      passesCursor (cursor.map (fun c ↦ (c.receivedAt.nanos, c.id))) event && matchesFilters toLower opts event) := by
  rw [← List.filter_filter]
  cases cursor with
  | none => exact (List.filter_eq_self.mpr (fun _ _ ↦ rfl)).symm
  | some c => exact List.filter_congr (fun event _ ↦ (passesCursor_eq event c).symm)

theorem list_eq (cursor : Option AlertEvent) :
    s.list toLower { opts with continueToken := tokenAt cursor } =
      let rest := Keyset.after listedAfter (matching toLower s opts) cursor
      let limit := effectiveLimit opts.limit
      if limit < rest.length then .ok (rest.take limit, tokenAt (rest.take limit).getLast?) else .ok (rest, []) := by
  have hmatch : ∀ event, matchesFilters toLower { opts with continueToken := tokenAt cursor } event =
      matchesFilters toLower opts event := fun _ ↦ rfl
  simp only [MemoryStore.list, decodeToken_tokenAt, hmatch]
  change (if _ < (collect _ _ [] _).length then _ else _) = _
  rw [collect_eq _ (Nat.zero_le _), List.nil_append, List.length_nil, Nat.sub_zero, ← after_eq]
  generalize Keyset.after listedAfter (matching toLower s opts) cursor = rest
  by_cases hmore : effectiveLimit opts.limit < rest.length
  · rw [if_pos (by rw [List.length_take]; omega), if_pos hmore, List.take_take, Nat.min_eq_left (Nat.le_succ _)]
    rfl
  · rw [if_neg (by rw [List.length_take]; omega), if_neg hmore, List.take_of_length_le (by omega)]
    rfl

theorem follows_iff {cursor : Option AlertEvent} {pages : List (List AlertEvent)} :
    Follows toLower s opts (tokenAt cursor) pages ↔
      Keyset.Pages listedAfter (matching toLower s opts) (effectiveLimit opts.limit) cursor pages := by
  constructor
  · intro h
    generalize htoken : tokenAt cursor = token at h
    induction h generalizing cursor with
    | last hlist =>
      rw [← htoken, list_eq] at hlist
      dsimp only at hlist
      split at hlist
      · next hlt =>
        obtain ⟨c, hc⟩ := Keyset.exists_getLast?_take (effectiveLimit_pos opts.limit) hlt
        simp only [hc, Except.ok.injEq, Prod.mk.injEq] at hlist
        exact absurd hlist.2 (continueToken_ne_nil c)
      · next hge =>
        simp only [Except.ok.injEq, Prod.mk.injEq, and_true] at hlist
        subst hlist
        exact .last (Nat.le_of_not_lt hge)
    | next hlist hne _ ih =>
      rw [← htoken, list_eq] at hlist
      dsimp only at hlist
      split at hlist
      · next hlt =>
        obtain ⟨c, hc⟩ := Keyset.exists_getLast?_take (effectiveLimit_pos opts.limit) hlt
        simp only [hc, Except.ok.injEq, Prod.mk.injEq] at hlist
        obtain ⟨rfl, htoken'⟩ := hlist
        exact .next hlt hc (ih htoken')
      · simp only [Except.ok.injEq, Prod.mk.injEq] at hlist
        exact absurd hlist.2.symm hne
  · intro h
    induction h with
    | last hle => exact .last (by rw [list_eq, if_neg (Nat.not_lt.mpr hle)])
    | @next cursor c pages hlt hc hpages ih =>
      refine .next (?_ : _ = Except.ok (_, tokenAt (some c))) (continueToken_ne_nil c) ih
      rw [list_eq, if_pos hlt, hc]

/-- No two events of the history share an id. -/
structure Numbered (s : MemoryStore) : Prop where
  nodup : (s.history.map AlertEvent.id).Nodup
  issued : ∀ event ∈ s.history, ∃ k ≤ s.nextID, event.id = alertID k

theorem alertID_injective {n m : ℕ} (h : alertID n = alertID m) : n = m :=
  decimal_injective (List.append_cancel_left h)

theorem Numbered.append (h : Numbered s) {event : AlertEvent} (hid : event.id = alertID (s.nextID + 1))
    (active : GoMap String AlertEvent) : Numbered ⟨active, trimmed (s.history ++ [event]), s.nextID + 1⟩ := by
  have hnew : alertID (s.nextID + 1) ∉ s.history.map AlertEvent.id := by
    intro hmem
    obtain ⟨old, hold, heq⟩ := List.mem_map.mp hmem
    obtain ⟨k, hk, hidk⟩ := h.issued old hold
    have hkn := alertID_injective (hidk.symm.trans heq)
    omega
  have hsub := trimmed_sublist (s.history ++ [event])
  constructor <;> dsimp only
  · refine List.Nodup.sublist (hsub.map AlertEvent.id) ?_
    rw [List.map_append, List.map_singleton, hid, List.nodup_append]
    refine ⟨h.nodup, List.nodup_singleton _, fun a ha b hb hab ↦ ?_⟩
    rw [hab, List.mem_singleton.mp hb] at ha
    exact hnew ha
  · intro old hold
    rcases List.mem_append.mp (hsub.subset hold) with hold | hold
    · obtain ⟨k, hk, hidk⟩ := h.issued old hold
      exact ⟨k, Nat.le_succ_of_le hk, hidk⟩
    · rw [List.mem_singleton.mp hold]
      exact ⟨_, le_rfl, hid⟩

theorem numbered_apply (h : Numbered s) (op : Op) : Numbered (s.apply op) := by
  cases op with
  | record event now => exact h.append rfl _
  | resolve fingerprint endsAt now =>
    simp only [MemoryStore.apply, MemoryStore.resolve]
    cases s.active.lookup fingerprint with
    | none => exact h
    | some active => exact h.append rfl _
  | prune olderThan =>
    have hsub := List.filter_sublist (p := fun event : AlertEvent ↦ decide ¬ event.receivedAt.nanos < olderThan)
      (l := s.history)
    exact ⟨h.nodup.sublist (hsub.map AlertEvent.id), fun event he ↦ h.issued event (hsub.subset he)⟩

theorem numbered_storeAfter (ops : List Op) : Numbered (storeAfter ops) :=
  List.foldlRecOn (motive := Numbered) ops _ ⟨List.nodup_nil, fun _ h ↦ absurd h List.not_mem_nil⟩
    (fun _ h op _ ↦ numbered_apply h op)

theorem Numbered.nodup_matching (h : Numbered s) : (matching toLower s opts).Nodup :=
  (List.nodup_reverse.mpr (List.Nodup.of_map _ h.nodup)).filter _

theorem lossless_iff_pages : Lossless toLower s opts ↔ ∃ pages, Keyset.Pages listedAfter (matching toLower s opts)
    (effectiveLimit opts.limit) none pages ∧ pages.flatten = matching toLower s opts :=
  exists_congr (fun pages ↦ and_congr_left (fun _ ↦ @follows_iff toLower s opts none pages))

theorem listedAfter_irrefl (x : AlertEvent) : listedAfter x x = false := by
  have : Std.Irrefl (α := UInt8) (· < ·) := ⟨UInt8.lt_irrefl⟩
  simp [listedAfter, List.lt_irrefl]

/-- It is enough that every event is newer, or as new with a greater id, than the one recorded before it. -/
theorem lossless_of_ordered {ops : List Op}
    (h : (storeAfter ops).history.Pairwise (fun x y ↦ listedAfter x y = true)) : Lossless toLower (storeAfter ops) opts := by
  have hasymm : ∀ x y, listedAfter x y = true → listedAfter y x = false := by
    intro x y hxy
    by_contra hyx
    have hxx := listedAfter_trans x y x hxy (by simpa using hyx)
    rw [listedAfter_irrefl] at hxx
    contradiction
  have hmatching : (matching toLower (storeAfter ops) opts).Pairwise (fun x y ↦ listedAfter y x = true) :=
    (List.pairwise_reverse.mpr h).filter _
  exact lossless_iff_pages.mpr ((Keyset.lossless_iff (effectiveLimit_pos opts.limit) listedAfter_trans
    (numbered_storeAfter ops).nodup_matching).mpr (Keyset.parted_of_pairwise listedAfter_irrefl hasymm hmatching))

def batchAlert : AlertEvent where
  fingerprint := "7f3c"
  status := "firing"
  alertName := "KubePodCrashLooping"
  receivedAt := ⟨0, by decide, by decide⟩

/-- The ten alerts of one webhook call, received at one instant. -/
def batch : List Op := List.replicate 10 (.record batchAlert batchAlert.receivedAt)

end KubeCenter.Alerting
