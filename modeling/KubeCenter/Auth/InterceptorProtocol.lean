import KubeCenter.Core.GoJson
import KubeCenter.Core.GoString
import KubeCenter.Core.Runs

/-! The credentials of the mobile app: requests that wait for one refresh after a 401, and what else refreshes or ends a
session meanwhile. -/

namespace KubeCenter.Auth.InterceptorProtocol

open KubeCenter.Core Function

/-- Who refreshes: `_attemptRefresh` of the interceptor, or `bootstrap`, which a cold start and each reconnect of a log
tail call. -/
inductive Kind
  | interceptor
  | bootstrap
  deriving DecidableEq

/-- Where a refresh stands. `deleting` is on the way to a failure, `clears` whether that ends in `clear` of the holder. -/
inductive Phase
  | reading
  | posting (refreshToken : String)
  | writing (refreshToken : String)
  | deleting (clears : Bool)
  | completed (ok : Bool)
  deriving DecidableEq

def Phase.running : Phase → Bool
  | completed _ => false
  | _ => true

structure Refresh where
  kind : Kind
  phase : Phase

/-- A request, with the token that it carries. `after` is the refresh that a retry comes after. -/
inductive Request
  | idle
  | sent (path : String) (after : Option ℕ) (token : Option String)
  | awaiting (path : String) (token : Option String) (k : ℕ)
  | settled (ok : Bool)

/-- `refreshing` is the interceptor's, `loginWrite` the write that a login waits for. History: `out`, whether the last that
was done is a logout, the tokens posted by each refresh, and how often each request was sent. -/
structure State where
  accessToken : Option String := none
  store : Option String := none
  refreshing : Option ℕ := none
  refreshes : ℕ → Option Refresh := fun _ ↦ none
  made : ℕ := 0
  requests : ℕ → Request := fun _ ↦ .idle
  loginWrite : Option String := none
  signingOut : Bool := false
  out : Bool := false
  posts : List (ℕ × String) := []
  sends : ℕ → ℕ := fun _ ↦ 0

/-- `as Map<String, dynamic>?`; nothing, when the cast throws. -/
def castMap : Option Json → Option Fields
  | none | some .null => some []
  | some (.object fields) => some fields
  | some _ => none

/-- `as String?`. -/
def castString : Option Json → Option (Option String)
  | none | some .null => some none
  | some (.string s) => some (some s)
  | some _ => none

/-- The access and the refresh token in the body of an answer. -/
def tokens (body : Fields) : Option (Option String × Option String) := do
  let data ← castMap (Fields.get "data" body)
  let newAccess ← castString (Fields.get "accessToken" data)
  let newRefresh ← castString (Fields.get "refreshToken" data)
  return (newAccess, newRefresh)

/-- How the read of the refresh token ends. -/
inductive Read
  | value
  | timeout
  | throws

namespace State

variable (s : State)

def spawn (kind : Kind) : State :=
  { s with refreshes := update s.refreshes s.made (some ⟨kind, .reading⟩), made := s.made + 1 }

def setPhase (k : ℕ) (kind : Kind) (phase : Phase) : State :=
  { s with refreshes := update s.refreshes k (some ⟨kind, phase⟩) }

/-- The `finally` of the interceptor clears `_refreshing`, whatever is in it. -/
def complete (k : ℕ) (kind : Kind) (ok : Bool) : State :=
  match kind with
  | .interceptor => { s.setPhase k kind (.completed ok) with refreshing := none }
  | .bootstrap => s.setPhase k kind (.completed ok)

def setRequest (i : ℕ) (r : Request) : State := { s with requests := update s.requests i r }

/-- A request goes out. -/
def fetch (i : ℕ) (path : String) (after : Option ℕ) (token : Option String) : State :=
  { s.setRequest i (.sent path after token) with sends := update s.sends i (s.sends i + 1) }

/-- `readRefreshToken`, in `_refresh` and in `bootstrap`. -/
def read (k : ℕ) (kind : Kind) : Read → State
  | .value =>
    match s.store with
    | none => s.complete k kind false
    | some token => { s.setPhase k kind (.posting token) with posts := s.posts ++ [(k, token)] }
  | .timeout | .throws => s.complete k kind false

/-- The tokens of an answer are put in place; the access token at once. -/
def accept (k : ℕ) (kind : Kind) (newAccess : String) : Option String → State
  | none => { s with accessToken := some newAccess }.complete k kind true
  | some newRefresh => { s with accessToken := some newAccess }.setPhase k kind (.writing newRefresh)

/-- The answer to `/v1/auth/refresh`: a body, or the status of an error where there is one. `bootstrap` gives up the session
at any error, and the interceptor at one that refuses it. -/
def answer (k : ℕ) (kind : Kind) : Except (Option ℕ) Fields → State
  | .ok body =>
    match tokens body with
    | some (some newAccess, newRefresh) => s.accept k kind newAccess newRefresh
    | some (none, _) => if kind = .bootstrap then s.setPhase k kind (.deleting false) else s.complete k kind false
    | none => s.complete k kind false
  | .error status =>
    if kind = .bootstrap ∨ status = some 401 ∨ status = some 403 then s.setPhase k kind (.deleting true)
    else s.complete k kind false

def written (k : ℕ) (kind : Kind) (newRefresh : String) (ok : Bool) : State :=
  if ok then { s with store := some newRefresh }.complete k kind true else s.complete k kind false

def deleted (k : ℕ) (kind : Kind) (clears ok : Bool) : State :=
  if ok then
    { s with store := none, accessToken := if clears then none else s.accessToken }.complete k kind false
  else s.complete k kind false

/-- `onError` of the interceptor, for an answer that is not one of success. -/
def onError (i : ℕ) (path : String) (after : Option ℕ) (token : Option String) (status : Option ℕ) : State :=
  if status = some 401 ∧ after = none ∧ hasInfix "/v1/auth/refresh" path = false ∧
      hasInfix "/v1/auth/login" path = false then
    match s.refreshing with
    | some k => s.setRequest i (.awaiting path token k)
    | none => { s.spawn .interceptor with refreshing := some s.made }.setRequest i (.awaiting path token s.made)
  else s.setRequest i (.settled false)

end State

/-- `login` and `loginWritten` are `login` of the repository and `applyAuthTokens`, `logout` and `loggedOut` its `logout`,
from `clear` of the holder on. -/
inductive Act
  | send (i : ℕ) (path : String)
  | respond (i : ℕ) (status : Option ℕ)
  | resume (i : ℕ)
  | bootstrap
  | read (k : ℕ) (r : Read)
  | answer (k : ℕ) (a : Except (Option ℕ) Fields)
  | written (k : ℕ) (ok : Bool)
  | deleted (k : ℕ) (ok : Bool)
  | login (accessToken refreshToken : String)
  | loginWritten (ok : Bool)
  | logout
  | loggedOut (ok : Bool)

def isSuccess (status : Option ℕ) : Bool := status.any (fun n ↦ 200 ≤ n && n < 300)

def step (s : State) : Act → Option State
  | .send i path =>
    match s.requests i with
    | .idle => some (s.fetch i path none s.accessToken)
    | _ => none
  | .respond i status =>
    match s.requests i with
    | .sent path after token =>
      some (if isSuccess status then s.setRequest i (.settled true) else s.onError i path after token status)
    | _ => none
  | .resume i =>
    match s.requests i with
    | .awaiting path token k =>
      match s.refreshes k with
      -- a retry keeps the token it was sent with, if there is no other
      | some ⟨_, .completed true⟩ => some (s.fetch i path (some k) (s.accessToken <|> token))
      | some ⟨_, .completed false⟩ => some (s.setRequest i (.settled false))
      | _ => none
    | _ => none
  | .bootstrap => some (s.spawn .bootstrap)
  | .read k r =>
    match s.refreshes k with
    | some ⟨kind, .reading⟩ => some (s.read k kind r)
    | _ => none
  | .answer k a =>
    match s.refreshes k with
    | some ⟨kind, .posting _⟩ => some (s.answer k kind a)
    | _ => none
  | .written k ok =>
    match s.refreshes k with
    | some ⟨kind, .writing newRefresh⟩ => some (s.written k kind newRefresh ok)
    | _ => none
  | .deleted k ok =>
    match s.refreshes k with
    | some ⟨kind, .deleting clears⟩ => some (s.deleted k kind clears ok)
    | _ => none
  | .login accessToken refreshToken =>
    some { s with accessToken := some accessToken, loginWrite := some refreshToken, out := false }
  | .loginWritten ok =>
    match s.loginWrite with
    | some refreshToken => some { s with store := if ok then some refreshToken else s.store, loginWrite := none }
    | none => none
  | .logout => some { s with accessToken := none, signingOut := true }
  | .loggedOut ok =>
    if s.signingOut then
      some (if ok then { s with store := none, signingOut := false, out := true } else { s with signingOut := false })
    else none

/-- The app starts with what the secure storage holds. -/
def start (store : Option String) : State := { store }

/-- How often a request that stands like this was sent, at most. -/
def Request.sends : Request → ℕ
  | idle => 0
  | sent _ none _ | awaiting _ _ _ => 1
  | sent _ (some _) _ | settled _ => 2

structure Inv (s : State) : Prop where
  fresh : ∀ k, s.made ≤ k → s.refreshes k = none
  single : ∀ k phase, s.refreshes k = some ⟨.interceptor, phase⟩ → phase.running = true → s.refreshing = some k
  flying : ∀ k, s.refreshing = some k → ∃ phase, s.refreshes k = some ⟨.interceptor, phase⟩ ∧ phase.running = true
  waits : ∀ i path token k, s.requests i = .awaiting path token k → ∃ phase, s.refreshes k = some ⟨.interceptor, phase⟩
  retries : ∀ i path token k, s.requests i = .sent path (some k) token →
    s.refreshes k = some ⟨.interceptor, .completed true⟩
  once : (s.posts.map Prod.fst).Nodup
  posted : ∀ p ∈ s.posts, ∃ r, s.refreshes p.1 = some r ∧ r.phase ≠ .reading
  sends : ∀ i, s.sends i ≤ (s.requests i).sends

variable {s t : State} {k : ℕ} {kind : Kind} {phase : Phase}

theorem inv_start (store : Option String) : Inv (start store) where
  fresh _ _ := rfl
  single k phase h := by cases h
  flying k h := by cases h
  waits i path token k h := by cases h
  retries i path token k h := by cases h
  once := List.nodup_nil
  posted p hp := absurd hp List.not_mem_nil
  sends _ := le_rfl

/-- A refresh that is running goes on: it keeps its kind, and what has completed stays as it is. -/
theorem setPhase_ne {j : ℕ} {r : Refresh} (hk : s.refreshes k = some ⟨kind, phase⟩) (hj : s.refreshes j = some r)
    (hne : r ≠ ⟨kind, phase⟩) (phase' : Phase) : (s.setPhase k kind phase').refreshes j = some r := by
  have hjk : j ≠ k := by
    rintro rfl
    exact hne (Option.some.inj (hj.symm.trans hk))
  exact (update_of_ne hjk ..).trans hj

theorem setPhase_self (s : State) (k : ℕ) (kind : Kind) (phase : Phase) :
    (s.setPhase k kind phase).refreshes k = some ⟨kind, phase⟩ := update_self ..

theorem setPhase_eq (s : State) (kind : Kind) (phase : Phase) {j : ℕ} (h : j ≠ k) :
    (s.setPhase k kind phase).refreshes j = s.refreshes j := update_of_ne h ..

/-- Requests go on waiting for a refresh of the interceptor, and retries come after one that succeeded, however a running
refresh goes on. -/
theorem Inv.waits_setPhase (h : Inv s) (hk : s.refreshes k = some ⟨kind, phase⟩) (phase' : Phase) {i : ℕ} {path : String}
    {token : Option String} {j : ℕ} (hi : s.requests i = .awaiting path token j) :
    ∃ phase, (s.setPhase k kind phase').refreshes j = some ⟨.interceptor, phase⟩ := by
  obtain ⟨phase'', hj⟩ := h.waits i path token j hi
  by_cases hjk : j = k
  · subst hjk
    obtain ⟨rfl, -⟩ := Refresh.mk.inj (Option.some.inj (hk.symm.trans hj))
    exact ⟨phase', setPhase_self ..⟩
  · exact ⟨phase'', (setPhase_eq s kind phase' hjk).trans hj⟩

theorem Inv.posted_setPhase (h : Inv s) (k : ℕ) (kind : Kind) {phase' : Phase} (hphase : phase' ≠ .reading)
    {p : ℕ × String} (hp : p ∈ s.posts) :
    ∃ r, (s.setPhase k kind phase').refreshes p.1 = some r ∧ r.phase ≠ .reading := by
  by_cases hpk : p.1 = k
  · exact ⟨⟨kind, phase'⟩, hpk ▸ setPhase_self .., hphase⟩
  · obtain ⟨r, hr, hne⟩ := h.posted p hp
    exact ⟨r, (setPhase_eq s kind phase' hpk).trans hr, hne⟩

theorem Inv.made_of_some (h : Inv s) {r : Refresh} (hk : s.refreshes k = some r) : k < s.made := by
  by_contra hle
  rw [h.fresh k (Nat.le_of_not_lt hle)] at hk
  cases hk

theorem Inv.setPhase (h : Inv s) (hk : s.refreshes k = some ⟨kind, phase⟩) (hrunning : phase.running = true)
    {phase' : Phase} (hrunning' : phase'.running = true) (hphase : phase' ≠ .reading) :
    Inv (s.setPhase k kind phase') where
  fresh j hj := (setPhase_eq s kind phase' (Nat.ne_of_gt (Nat.lt_of_lt_of_le (h.made_of_some hk) hj))).trans (h.fresh j hj)
  single j phase'' hj hr := by
    by_cases hjk : j = k
    · subst hjk
      rw [setPhase_self] at hj
      cases hj
      exact h.single j phase hk hrunning
    · rw [setPhase_eq s kind phase' hjk] at hj
      exact h.single j phase'' hj hr
  flying j hj := by
    obtain ⟨phase'', hj', hr⟩ := h.flying j hj
    by_cases hjk : j = k
    · subst hjk
      obtain ⟨rfl, -⟩ := Refresh.mk.inj (Option.some.inj (hk.symm.trans hj'))
      exact ⟨phase', setPhase_self .., hrunning'⟩
    · exact ⟨phase'', (setPhase_eq s kind phase' hjk).trans hj', hr⟩
  waits i path token j hi := h.waits_setPhase hk phase' hi
  retries i path token j hi := by
    refine setPhase_ne hk (h.retries i path token j hi) (fun heq ↦ ?_) phase'
    obtain ⟨-, rfl⟩ := Refresh.mk.inj heq
    cases hrunning
  once := h.once
  posted p hp := h.posted_setPhase k kind hphase hp
  sends := h.sends

theorem Inv.complete (h : Inv s) (hk : s.refreshes k = some ⟨kind, phase⟩) (hrunning : phase.running = true) (ok : Bool) :
    Inv (s.complete k kind ok) := by
  have hfresh (j : ℕ) (hj : s.made ≤ j) : (s.setPhase k kind (.completed ok)).refreshes j = none :=
    (setPhase_eq s kind _ (Nat.ne_of_gt (Nat.lt_of_lt_of_le (h.made_of_some hk) hj))).trans (h.fresh j hj)
  have hretries (i : ℕ) (path : String) (token : Option String) (j : ℕ) (hi : s.requests i = .sent path (some j) token) :
      (s.setPhase k kind (.completed ok)).refreshes j = some ⟨.interceptor, .completed true⟩ := by
    refine setPhase_ne hk (h.retries i path token j hi) (fun heq ↦ ?_) _
    obtain ⟨-, rfl⟩ := Refresh.mk.inj heq
    cases hrunning
  -- a refresh that runs is not the one that has completed
  have hother {j : ℕ} {kind' : Kind} {phase' : Phase}
      (hj : (s.setPhase k kind (.completed ok)).refreshes j = some ⟨kind', phase'⟩) (hr : phase'.running = true) :
      j ≠ k ∧ s.refreshes j = some ⟨kind', phase'⟩ := by
    have hjk : j ≠ k := by
      rintro rfl
      rw [setPhase_self] at hj
      cases hj
      cases hr
    exact ⟨hjk, (setPhase_eq s kind _ hjk).symm.trans hj⟩
  have hposted (p : ℕ × String) (hp : p ∈ s.posts) :
      ∃ r, (s.setPhase k kind (.completed ok)).refreshes p.1 = some r ∧ r.phase ≠ .reading :=
    h.posted_setPhase k kind Phase.noConfusion hp
  have hwaits (i : ℕ) (path : String) (token : Option String) (j : ℕ) (hi : s.requests i = .awaiting path token j) :=
    h.waits_setPhase hk (.completed ok) hi
  cases kind with
  | interceptor =>
    refine ⟨hfresh, fun j phase' hj hr ↦ ?_, fun j hj ↦ (by cases hj), hwaits, hretries,
      h.once, hposted, h.sends⟩
    obtain ⟨hjk, hj⟩ := hother hj hr
    exact absurd (Option.some.inj ((h.single j phase' hj hr).symm.trans (h.single k phase hk hrunning))) hjk
  | bootstrap =>
    refine ⟨hfresh, fun j phase' hj hr ↦ h.single j phase' (hother hj hr).2 hr, fun j hj ↦ ?_, hwaits, hretries, h.once,
      hposted, h.sends⟩
    obtain ⟨phase', hj', hr⟩ := h.flying j hj
    exact ⟨phase', setPhase_ne hk hj' (fun heq ↦ by cases heq) _, hr⟩

/-- What is not about refreshes and requests may change. -/
theorem Inv.frame (h : Inv s) (accessToken store loginWrite : Option String) (signingOut out : Bool) :
    Inv { s with accessToken, store, loginWrite, signingOut, out } := { h with }

theorem Inv.read (h : Inv s) (hk : s.refreshes k = some ⟨kind, .reading⟩) (r : Read) : Inv (s.read k kind r) := by
  unfold State.read
  split
  · split
    · exact h.complete hk rfl false
    · next token hstore =>
      have hset : Inv (s.setPhase k kind (.posting token)) := h.setPhase hk rfl rfl Phase.noConfusion
      refine { hset with once := ?_, posted := fun p hp ↦ ?_ }
      · rw [List.map_append, List.nodup_append]
        refine ⟨h.once, List.nodup_singleton _, fun j hj j' hj' heq ↦ ?_⟩
        obtain ⟨p, hp, rfl⟩ := List.mem_map.mp hj
        obtain rfl := List.mem_singleton.mp hj'
        obtain ⟨r, hr, hne⟩ := h.posted p hp
        rw [heq] at hr
        cases hk.symm.trans hr
        exact hne rfl
      · obtain hp | hp := List.mem_append.mp hp
        · exact hset.posted p hp
        · obtain rfl := List.mem_singleton.mp hp
          exact ⟨⟨kind, .posting token⟩, setPhase_self .., Phase.noConfusion⟩
  · exact h.complete hk rfl false
  · exact h.complete hk rfl false

theorem Inv.accept (h : Inv s) (hk : s.refreshes k = some ⟨kind, phase⟩) (hrunning : phase.running = true)
    (newAccess : String) (newRefresh : Option String) : Inv (s.accept k kind newAccess newRefresh) := by
  have hframe := h.frame (some newAccess) s.store s.loginWrite s.signingOut s.out
  unfold State.accept
  split
  · exact hframe.complete hk hrunning true
  · exact hframe.setPhase hk hrunning rfl Phase.noConfusion

theorem Inv.answer (h : Inv s) (hk : s.refreshes k = some ⟨kind, phase⟩) (hrunning : phase.running = true)
    (a : Except (Option ℕ) Fields) : Inv (s.answer k kind a) := by
  unfold State.answer
  split
  · split
    · exact h.accept hk hrunning _ _
    · split
      · exact h.setPhase hk hrunning rfl Phase.noConfusion
      · exact h.complete hk hrunning false
    · exact h.complete hk hrunning false
  · split
    · exact h.setPhase hk hrunning rfl Phase.noConfusion
    · exact h.complete hk hrunning false

theorem Inv.written (h : Inv s) (hk : s.refreshes k = some ⟨kind, phase⟩) (hrunning : phase.running = true)
    (newRefresh : String) (ok : Bool) : Inv (s.written k kind newRefresh ok) := by
  unfold State.written
  split
  · exact (h.frame s.accessToken (some newRefresh) s.loginWrite s.signingOut s.out).complete hk hrunning true
  · exact h.complete hk hrunning false

theorem Inv.deleted (h : Inv s) (hk : s.refreshes k = some ⟨kind, phase⟩) (hrunning : phase.running = true)
    (clears ok : Bool) : Inv (s.deleted k kind clears ok) := by
  unfold State.deleted
  split
  · exact (h.frame (if clears then none else s.accessToken) none s.loginWrite s.signingOut s.out).complete hk hrunning
      false
  · exact h.complete hk hrunning false

theorem Inv.spawn (h : Inv s) : Inv (s.spawn .bootstrap) ∧
    (s.refreshing = none → Inv { s.spawn .interceptor with refreshing := some s.made }) := by
  have hnew (kind : Kind) : (s.spawn kind).refreshes s.made = some ⟨kind, .reading⟩ := update_self ..
  have hold (kind : Kind) {j : ℕ} (hj : j ≠ s.made) : (s.spawn kind).refreshes j = s.refreshes j := update_of_ne hj ..
  have hkept (kind : Kind) {j : ℕ} {r : Refresh} (hj : s.refreshes j = some r) :
      (s.spawn kind).refreshes j = some r := (hold kind (Nat.ne_of_lt (h.made_of_some hj))).trans hj
  have hfresh (kind : Kind) (j : ℕ) (hj : s.made + 1 ≤ j) : (s.spawn kind).refreshes j = none :=
    (hold kind (Nat.ne_of_gt hj)).trans (h.fresh j (Nat.le_of_succ_le hj))
  have hwaits (kind : Kind) (i : ℕ) (path : String) (token : Option String) (j : ℕ)
      (hi : s.requests i = .awaiting path token j) :
      ∃ phase, (s.spawn kind).refreshes j = some ⟨.interceptor, phase⟩ := by
    obtain ⟨phase, hj⟩ := h.waits i path token j hi
    exact ⟨phase, hkept kind hj⟩
  have hposted (kind : Kind) (p : ℕ × String) (hp : p ∈ s.posts) :
      ∃ r, (s.spawn kind).refreshes p.1 = some r ∧ r.phase ≠ .reading := by
    obtain ⟨r, hr, hne⟩ := h.posted p hp
    exact ⟨r, hkept kind hr, hne⟩
  constructor
  · refine ⟨hfresh _, fun j phase hj hr ↦ ?_, fun j hj ↦ ?_, hwaits _, fun i path token j hi ↦ hkept _ (h.retries i path
      token j hi), h.once, hposted _, h.sends⟩
    · by_cases hjm : j = s.made
      · subst hjm
        cases (hnew _).symm.trans hj
      · exact h.single j phase ((hold _ hjm).symm.trans hj) hr
    · obtain ⟨phase, hj', hr⟩ := h.flying j hj
      exact ⟨phase, hkept _ hj', hr⟩
  · intro hnone
    refine ⟨hfresh _, fun j phase hj hr ↦ ?_, fun j hj ↦ ?_, hwaits _, fun i path token j hi ↦ hkept _ (h.retries i path
      token j hi), h.once, hposted _, h.sends⟩
    · by_cases hjm : j = s.made
      · rw [hjm]
      · exact absurd (h.single j phase ((hold _ hjm).symm.trans hj) hr) (by simp [hnone])
    · cases hj
      exact ⟨.reading, hnew _, rfl⟩

/-- A request may get to where its refresh is known, and its sendings are counted. -/
theorem Inv.setRequest (h : Inv s) {i : ℕ} {r : Request} {sends : ℕ → ℕ}
    (hwaits : ∀ path token k, r = .awaiting path token k → ∃ phase, s.refreshes k = some ⟨.interceptor, phase⟩)
    (hretries : ∀ path token k, r = .sent path (some k) token → s.refreshes k = some ⟨.interceptor, .completed true⟩)
    (hself : sends i ≤ r.sends) (hother : ∀ j, j ≠ i → sends j = s.sends j) :
    Inv { s.setRequest i r with sends } := by
  have hset {j : ℕ} {r' : Request} (hj : (s.setRequest i r).requests j = r') :
      j = i ∧ r = r' ∨ j ≠ i ∧ s.requests j = r' := by
    by_cases hji : j = i
    · subst hji
      exact .inl ⟨rfl, (update_self ..).symm.trans hj⟩
    · exact .inr ⟨hji, (update_of_ne hji ..).symm.trans hj⟩
  refine ⟨h.fresh, h.single, h.flying, fun j path token k hj ↦ ?_, fun j path token k hj ↦ ?_, h.once, h.posted,
    fun j ↦ ?_⟩
  · obtain ⟨-, hr⟩ | ⟨-, hj⟩ := hset hj
    · exact hwaits path token k hr
    · exact h.waits j path token k hj
  · obtain ⟨-, hr⟩ | ⟨-, hj⟩ := hset hj
    · exact hretries path token k hr
    · exact h.retries j path token k hj
  · obtain ⟨rfl, hr⟩ | ⟨hji, hj⟩ := hset (j := j) rfl
    · show sends j ≤ ((s.setRequest j r).requests j).sends
      rw [← hr]
      exact hself
    · show sends j ≤ ((s.setRequest i r).requests j).sends
      rw [← hj, hother j hji]
      exact h.sends j

theorem Inv.settle (h : Inv s) (i : ℕ) (ok : Bool) (hsends : s.sends i ≤ 2) :
    Inv (s.setRequest i (.settled ok)) :=
  h.setRequest (fun _ _ _ hr ↦ by cases hr) (fun _ _ _ hr ↦ by cases hr) hsends (fun _ _ ↦ rfl)

theorem Inv.sends_le (h : Inv s) (i : ℕ) : s.sends i ≤ 2 := by
  refine (h.sends i).trans ?_
  unfold Request.sends
  split <;> omega

theorem Inv.onError (h : Inv s) {i : ℕ} {path : String} {after : Option ℕ} {token : Option String}
    (hi : s.requests i = .sent path after token) (status : Option ℕ) : Inv (s.onError i path after token status) := by
  unfold State.onError
  split
  · next hrefresh =>
    have hsends : s.sends i ≤ 1 := by
      have hle := h.sends i
      rw [hi, hrefresh.2.1] at hle
      exact hle
    split
    · next k hk =>
      refine h.setRequest (fun path' token' k' hr ↦ ?_) (fun _ _ _ hr ↦ by cases hr) hsends (fun _ _ ↦ rfl)
      cases hr
      obtain ⟨phase, hphase, -⟩ := h.flying k hk
      exact ⟨phase, hphase⟩
    · next hnone =>
      refine (h.spawn.2 hnone).setRequest (fun path' token' k' hr ↦ ?_) (fun _ _ _ hr ↦ by cases hr) hsends
        (fun _ _ ↦ rfl)
      cases hr
      exact ⟨.reading, update_self ..⟩
  · exact h.settle i false (h.sends_le i)

/-- Where a step leads, with what it finds there. -/
inductive Steps (s : State) : Act → State → Prop
  | send {i : ℕ} {path : String} (hi : s.requests i = .idle) :
    Steps s (.send i path) (s.fetch i path none s.accessToken)
  | succeeds {i : ℕ} {status : Option ℕ} : Steps s (.respond i status) (s.setRequest i (.settled true))
  | fails {i : ℕ} {path : String} {after : Option ℕ} {token : Option String} {status : Option ℕ}
    (hi : s.requests i = .sent path after token) : Steps s (.respond i status) (s.onError i path after token status)
  | retries {i : ℕ} {path : String} {token : Option String} {k : ℕ} {kind : Kind}
    (hi : s.requests i = .awaiting path token k) (hk : s.refreshes k = some ⟨kind, .completed true⟩) :
    Steps s (.resume i) (s.fetch i path (some k) (s.accessToken <|> token))
  | givesUp {i : ℕ} : Steps s (.resume i) (s.setRequest i (.settled false))
  | bootstrap : Steps s .bootstrap (s.spawn .bootstrap)
  | read {k : ℕ} {kind : Kind} {r : Read} (hk : s.refreshes k = some ⟨kind, .reading⟩) :
    Steps s (.read k r) (s.read k kind r)
  | answer {k : ℕ} {kind : Kind} {token : String} {a : Except (Option ℕ) Fields}
    (hk : s.refreshes k = some ⟨kind, .posting token⟩) : Steps s (.answer k a) (s.answer k kind a)
  | written {k : ℕ} {kind : Kind} {newRefresh : String} {ok : Bool}
    (hk : s.refreshes k = some ⟨kind, .writing newRefresh⟩) : Steps s (.written k ok) (s.written k kind newRefresh ok)
  | deleted {k : ℕ} {kind : Kind} {clears ok : Bool} (hk : s.refreshes k = some ⟨kind, .deleting clears⟩) :
    Steps s (.deleted k ok) (s.deleted k kind clears ok)
  | login {accessToken refreshToken : String} : Steps s (.login accessToken refreshToken)
    { s with accessToken := some accessToken, loginWrite := some refreshToken, out := false }
  | loginWritten {refreshToken : String} {ok : Bool} (hwrite : s.loginWrite = some refreshToken) :
    Steps s (.loginWritten ok) { s with store := if ok then some refreshToken else s.store, loginWrite := none }
  | logout : Steps s .logout { s with accessToken := none, signingOut := true }
  | loggedOut (hs : s.signingOut = true) :
    Steps s (.loggedOut true) { s with store := none, signingOut := false, out := true }
  | stays (hs : s.signingOut = true) : Steps s (.loggedOut false) { s with signingOut := false }

theorem step_cases {a : Act} (ht : step s a = some t) : Steps s a t := by
  cases a <;> rw [step] at ht
  case bootstrap =>
    cases ht
    exact .bootstrap
  case login accessToken refreshToken =>
    cases ht
    exact .login
  case logout =>
    cases ht
    exact .logout
  case loggedOut ok =>
    obtain ⟨hs, ht⟩ := Option.ite_none_right_eq_some.mp ht
    cases ok <;> cases ht
    · exact .stays hs
    · exact .loggedOut hs
  case respond i status =>
    split at ht
    · next hi =>
      cases ht
      split
      · exact .succeeds
      · exact .fails hi
    · cases ht
  case resume i =>
    split at ht
    · next hi =>
      split at ht
      · next hk =>
        cases ht
        exact .retries hi hk
      · cases ht
        exact .givesUp
      · cases ht
    · cases ht
  all_goals
    split at ht
    · next hfound =>
      cases ht
      constructor
      exact hfound
    · cases ht

theorem Inv.step {a : Act} (h : Inv s) (ht : step s a = some t) : Inv t := by
  cases step_cases ht with
  | @send i path hi =>
    refine h.setRequest (fun _ _ _ hr ↦ by cases hr) (fun _ _ _ hr ↦ by cases hr) ?_ (fun j hj ↦ update_of_ne hj ..)
    have hle := h.sends i
    rw [hi] at hle
    rw [update_self]
    exact Nat.succ_le_succ hle
  | succeeds => exact h.settle _ true (h.sends_le _)
  | fails hi => exact h.onError hi _
  | @retries i path token k kind hi hk =>
    obtain ⟨phase, hk'⟩ := h.waits i path token k hi
    obtain ⟨rfl, -⟩ := Refresh.mk.inj (Option.some.inj (hk'.symm.trans hk))
    refine h.setRequest (fun _ _ _ hr ↦ by cases hr) (fun path' token' k' hr ↦ ?_) ?_ (fun j hj ↦ update_of_ne hj ..)
    · cases hr
      exact hk
    · have hle := h.sends i
      rw [hi] at hle
      rw [update_self]
      exact Nat.succ_le_succ hle
  | givesUp => exact h.settle _ false (h.sends_le _)
  | bootstrap => exact h.spawn.1
  | read hk => exact h.read hk _
  | answer hk => exact h.answer hk rfl _
  | written hk => exact h.written hk rfl _ _
  | deleted hk => exact h.deleted hk rfl _ _
  | login | loginWritten | logout | loggedOut | stays => exact { h with }

/-- The refresh that an event belongs to. -/
def Act.refresh : Act → Option ℕ
  | .read k _ | .answer k _ | .written k _ | .deleted k _ => some k
  | _ => none

/-- One refresh of the interceptor at a time, which posts once; a request is sent twice at most, the second time after a
refresh that succeeded; and one that waits is not forgotten. -/
structure SingleFlight (s : State) : Prop where
  single : ∀ j k phase phase', s.refreshes j = some ⟨.interceptor, phase⟩ → s.refreshes k = some ⟨.interceptor, phase'⟩ →
    phase.running = true → phase'.running = true → j = k
  once : (s.posts.map Prod.fst).Nodup
  sends : ∀ i, s.sends i ≤ 2
  retries : ∀ i path token k, s.requests i = .sent path (some k) token →
    s.refreshes k = some ⟨.interceptor, .completed true⟩
  waits : ∀ i path token k, s.requests i = .awaiting path token k →
    (step s (.resume i)).isSome ∨ s.refreshing = some k ∧ ∃ a : Act, a.refresh = some k ∧ (step s a).isSome

theorem running_enabled (hk : s.refreshes k = some ⟨kind, phase⟩) (hrunning : phase.running = true) :
    ∃ a : Act, a.refresh = some k ∧ (step s a).isSome := by
  cases phase with
  | reading => exact ⟨.read k .timeout, rfl, by simp [step, hk]⟩
  | posting refreshToken => exact ⟨.answer k (.error none), rfl, by simp [step, hk]⟩
  | writing refreshToken => exact ⟨.written k true, rfl, by simp [step, hk]⟩
  | deleting clears => exact ⟨.deleted k true, rfl, by simp [step, hk]⟩
  | completed ok => cases hrunning

theorem Inv.singleFlight (h : Inv s) : SingleFlight s where
  single j k phase phase' hj hk hr hr' := Option.some.inj ((h.single j phase hj hr).symm.trans (h.single k phase' hk hr'))
  once := h.once
  sends := h.sends_le
  retries := h.retries
  waits i path token k hi := by
    obtain ⟨phase, hk⟩ := h.waits i path token k hi
    by_cases hrunning : phase.running = true
    · exact .inr ⟨h.single k phase hk hrunning, running_enabled hk hrunning⟩
    · left
      cases phase with
      | completed ok => cases ok <;> simp [InterceptorProtocol.step, hi, hk]
      | _ => exact absurd rfl hrunning

theorem inv_throughout (store : Option String) (as : List Act) : Throughout step Inv (start store) as :=
  throughout_of_step (fun _ _ _ h ht ↦ h.step ht) (inv_start store) as

theorem single_flight_throughout (store : Option String) (as : List Act) :
    Throughout step SingleFlight (start store) as :=
  (inv_throughout store as).mono (fun _ h ↦ h.singleFlight)

/-- An answer that says nothing against the session, as far as the one who gets it understands, and no logout. -/
def Act.Harmless (s : State) : Act → Prop
  | .answer k (.error status) => (∀ phase, s.refreshes k ≠ some ⟨.bootstrap, phase⟩) ∧ status ≠ some 401 ∧ status ≠ some 403
  | .answer k (.ok body) =>
    ∀ phase, s.refreshes k = some ⟨.bootstrap, phase⟩ → ∀ newRefresh, tokens body ≠ some (none, newRefresh)
  | .logout | .loggedOut _ => False
  | _ => True

/-- There is a refresh token, and nobody is about to delete it. -/
structure Held (s : State) : Prop where
  store : s.store.isSome
  deleting : ∀ k kind clears, s.refreshes k ≠ some ⟨kind, .deleting clears⟩

theorem Held.setTokens (h : Held s) (accessToken : Option String) {store : Option String} (hstore : store.isSome) :
    Held { s with accessToken, store } := ⟨hstore, h.deleting⟩

theorem Held.setPhase (h : Held s) (k : ℕ) (kind : Kind) {phase : Phase} (hphase : ∀ clears, phase ≠ .deleting clears) :
    Held (s.setPhase k kind phase) := by
  refine ⟨h.store, fun j kind' clears hj ↦ ?_⟩
  by_cases hjk : j = k
  · subst hjk
    rw [setPhase_self] at hj
    exact hphase clears (Refresh.mk.inj (Option.some.inj hj)).2
  · exact h.deleting j kind' clears ((setPhase_eq s kind phase hjk).symm.trans hj)

theorem Held.complete (h : Held s) (k : ℕ) (kind : Kind) (ok : Bool) : Held (s.complete k kind ok) := by
  have hset : Held (s.setPhase k kind (.completed ok)) :=
    h.setPhase k kind (fun _ hphase ↦ Phase.noConfusion hphase)
  cases kind with
  | interceptor => exact ⟨hset.store, hset.deleting⟩
  | bootstrap => exact hset

theorem Held.spawn (h : Held s) (kind : Kind) : Held (s.spawn kind) := by
  refine ⟨h.store, fun j kind' clears hj ↦ ?_⟩
  by_cases hjm : j = s.made
  · subst hjm
    cases (update_self ..).symm.trans hj
  · exact h.deleting j kind' clears ((update_of_ne hjm ..).symm.trans hj)

theorem Held.answer (h : Held s) {a : Except (Option ℕ) Fields} (hk : s.refreshes k = some ⟨kind, phase⟩)
    (hok : Act.Harmless s (.answer k a)) : Held (s.answer k kind a) := by
  unfold State.answer
  split
  · split
    · unfold State.accept
      split
      · exact (h.setTokens _ h.store).complete k _ true
      · exact (h.setTokens _ h.store).setPhase k _ (fun _ hphase ↦ Phase.noConfusion hphase)
    · next newRefresh htokens =>
      split
      · next hkind =>
        subst hkind
        exact absurd htokens (hok _ hk newRefresh)
      · exact h.complete k _ false
    · exact h.complete k _ false
  · split
    · next hgives =>
      obtain rfl | hstatus := hgives
      · exact absurd hk (hok.1 _)
      · exact absurd hstatus (not_or.mpr hok.2)
    · exact h.complete k _ false

theorem Held.onError (h : Held s) (i : ℕ) (path : String) (after : Option ℕ) (token : Option String)
    (status : Option ℕ) : Held (s.onError i path after token status) := by
  unfold State.onError
  split
  · split
    · exact ⟨h.store, h.deleting⟩
    · exact ⟨h.store, (h.spawn .interceptor).deleting⟩
  · exact ⟨h.store, h.deleting⟩

theorem Held.read (h : Held s) (k : ℕ) (kind : Kind) (r : Read) : Held (s.read k kind r) := by
  unfold State.read
  split
  · split
    · exact h.complete k kind false
    · next token _ =>
      have hset : Held (s.setPhase k kind (.posting token)) :=
        h.setPhase k kind (fun _ hphase ↦ Phase.noConfusion hphase)
      exact ⟨hset.store, hset.deleting⟩
  · exact h.complete k kind false
  · exact h.complete k kind false

theorem Held.written (h : Held s) (k : ℕ) (kind : Kind) (newRefresh : String) (ok : Bool) :
    Held (s.written k kind newRefresh ok) := by
  unfold State.written
  split
  · have hset : Held { s with store := some newRefresh } := h.setTokens s.accessToken rfl
    exact hset.complete k kind true
  · exact h.complete k kind false

theorem Held.step {a : Act} (h : Held s) (hok : a.Harmless s) (ht : step s a = some t) : Held t := by
  cases step_cases ht with
  | send | succeeds | retries | givesUp | login => exact ⟨h.store, h.deleting⟩
  | fails => exact h.onError ..
  | bootstrap => exact h.spawn .bootstrap
  | read => exact h.read ..
  | answer hk => exact h.answer hk hok
  | written => exact h.written ..
  | deleted hk => exact (h.deleting _ _ _ hk).elim
  | loginWritten =>
    refine ⟨?_, h.deleting⟩
    dsimp only
    split
    · rfl
    · exact h.store
  | logout | loggedOut | stays => exact hok.elim

/-- Nothing is under way that may still bring a token. -/
structure Quiet (s : State) : Prop where
  refreshes : ∀ k r, s.refreshes k = some r → r.phase.running = false
  loginWrite : s.loginWrite = none

/-- A logout begins and goes on while nothing is under way, and nobody logs in meanwhile. -/
def Act.Undisturbed (s : State) (a : Act) : Prop :=
  match a with
  | .logout => Quiet s
  | .login _ _ => s.signingOut = false
  | _ => s.signingOut = true → Quiet s

structure SignedOut (s : State) : Prop where
  signingOut : s.signingOut = true → s.accessToken = none
  out : s.out = true → s.accessToken = none ∧ s.store = none ∧ s.loginWrite = none
  refreshes : s.out = true → ∀ k r, s.refreshes k = some r → r.phase.running = true → r.phase = .reading

theorem SignedOut.complete (h : SignedOut s) (k : ℕ) (kind : Kind) (ok : Bool) : SignedOut (s.complete k kind ok) := by
  have hrefreshes (hout : s.out = true) (j : ℕ) (r : Refresh)
      (hj : (s.setPhase k kind (.completed ok)).refreshes j = some r) (hr : r.phase.running = true) :
      r.phase = .reading := by
    by_cases hjk : j = k
    · subst hjk
      rw [setPhase_self] at hj
      cases hj
      cases hr
    · exact h.refreshes hout j r ((setPhase_eq s kind _ hjk).symm.trans hj) hr
  cases kind <;> exact ⟨h.signingOut, h.out, hrefreshes⟩

theorem SignedOut.spawn (h : SignedOut s) (kind : Kind) : SignedOut (s.spawn kind) := by
  refine ⟨h.signingOut, h.out, fun hout j r hj hr ↦ ?_⟩
  by_cases hjm : j = s.made
  · subst hjm
    cases (update_self ..).symm.trans hj
    rfl
  · exact h.refreshes hout j r ((update_of_ne hjm ..).symm.trans hj) hr

/-- A refresh that is past its read only goes on where nobody is out, or on the way. -/
theorem SignedOut.of_running (h : SignedOut s) (hk : s.refreshes k = some ⟨kind, phase⟩) (hrunning : phase.running = true)
    (hphase : phase ≠ .reading) (hok : s.signingOut = true → Quiet s) (hout : t.out = s.out)
    (hsigning : t.signingOut = s.signingOut) : SignedOut t := by
  have hnotOut : ¬ t.out = true := fun ho ↦ hphase (h.refreshes (hout ▸ ho) k _ hk hrunning)
  refine ⟨fun hs ↦ ?_, fun ho ↦ absurd ho hnotOut, fun ho ↦ absurd ho hnotOut⟩
  exact absurd (hrunning.symm.trans ((hok (hsigning ▸ hs)).refreshes k _ hk)) Bool.noConfusion

theorem complete_frame (s : State) (k : ℕ) (kind : Kind) (ok : Bool) :
    (s.complete k kind ok).out = s.out ∧ (s.complete k kind ok).signingOut = s.signingOut := by
  cases kind <;> exact ⟨rfl, rfl⟩

theorem answer_frame (s : State) (k : ℕ) (kind : Kind) (a : Except (Option ℕ) Fields) :
    (s.answer k kind a).out = s.out ∧ (s.answer k kind a).signingOut = s.signingOut := by
  unfold State.answer
  split
  · split
    · unfold State.accept
      split
      · exact complete_frame ..
      · exact ⟨rfl, rfl⟩
    · split
      · exact ⟨rfl, rfl⟩
      · exact complete_frame ..
    · exact complete_frame ..
  · split
    · exact ⟨rfl, rfl⟩
    · exact complete_frame ..

theorem written_frame (s : State) (k : ℕ) (kind : Kind) (newRefresh : String) (ok : Bool) :
    (s.written k kind newRefresh ok).out = s.out ∧ (s.written k kind newRefresh ok).signingOut = s.signingOut := by
  unfold State.written
  split <;> exact complete_frame ..

theorem deleted_frame (s : State) (k : ℕ) (kind : Kind) (clears ok : Bool) :
    (s.deleted k kind clears ok).out = s.out ∧ (s.deleted k kind clears ok).signingOut = s.signingOut := by
  unfold State.deleted
  split <;> exact complete_frame ..

theorem SignedOut.read (h : SignedOut s) (k : ℕ) (kind : Kind) (r : Read) : SignedOut (s.read k kind r) := by
  unfold State.read
  split
  · split
    · exact h.complete k kind false
    · next token hstore =>
      have hout : ¬ s.out = true := by
        intro ho
        rw [(h.out ho).2.1] at hstore
        cases hstore
      exact ⟨h.signingOut, fun ho ↦ absurd ho hout, fun ho ↦ absurd ho hout⟩
  · exact h.complete k kind false
  · exact h.complete k kind false

theorem SignedOut.onError (h : SignedOut s) (i : ℕ) (path : String) (after : Option ℕ) (token : Option String)
    (status : Option ℕ) : SignedOut (s.onError i path after token status) := by
  unfold State.onError
  split
  · split
    · exact ⟨h.signingOut, h.out, h.refreshes⟩
    · have hspawn := h.spawn .interceptor
      exact ⟨hspawn.signingOut, hspawn.out, hspawn.refreshes⟩
  · exact ⟨h.signingOut, h.out, h.refreshes⟩

theorem SignedOut.step {a : Act} (h : SignedOut s) (hok : a.Undisturbed s) (ht : step s a = some t) : SignedOut t := by
  cases step_cases ht with
  | send | succeeds | retries | givesUp => exact ⟨h.signingOut, h.out, h.refreshes⟩
  | fails => exact h.onError ..
  | bootstrap => exact h.spawn .bootstrap
  | read => exact h.read ..
  | answer hk =>
    obtain ⟨hout, hsigning⟩ := answer_frame ..
    exact h.of_running hk rfl Phase.noConfusion hok hout hsigning
  | written hk =>
    obtain ⟨hout, hsigning⟩ := written_frame ..
    exact h.of_running hk rfl Phase.noConfusion hok hout hsigning
  | deleted hk =>
    obtain ⟨hout, hsigning⟩ := deleted_frame ..
    exact h.of_running hk rfl Phase.noConfusion hok hout hsigning
  | login =>
    refine ⟨fun hs ↦ ?_, fun ho ↦ (by cases ho), fun ho ↦ (by cases ho)⟩
    exact absurd (hs.symm.trans hok) Bool.noConfusion
  | loginWritten hwrite =>
    have hout : ¬ s.out = true := by
      intro ho
      rw [(h.out ho).2.2] at hwrite
      cases hwrite
    exact ⟨h.signingOut, fun ho ↦ absurd ho hout, fun ho ↦ absurd ho hout⟩
  | logout => exact ⟨fun _ ↦ rfl, fun ho ↦ ⟨rfl, (h.out ho).2⟩, h.refreshes⟩
  | loggedOut hs =>
    have hquiet : Quiet s := hok hs
    refine ⟨fun hs' ↦ (by cases hs'), fun _ ↦ ⟨h.signingOut hs, rfl, hquiet.loginWrite⟩, fun _ k r hk hr ↦ ?_⟩
    exact absurd (hr.symm.trans (hquiet.refreshes k r hk)) Bool.noConfusion
  | stays => exact ⟨fun hs' ↦ (by cases hs'), h.out, h.refreshes⟩

/-- A logout ends the session for good, if no refresh and no login is under way while it takes place: requests that fail
after it, and log tails that reconnect, bring no token back. -/
theorem signed_out_throughout (store : Option String) (as : List Act)
    (hok : EachStep step (fun s a ↦ a.Undisturbed s) (start store) as) :
    Throughout step (fun s ↦ s.out = true → s.accessToken = none ∧ s.store = none) (start store) as := by
  refine (hok.throughout (fun s a t h hok ht ↦ SignedOut.step h hok ht) ⟨?_, ?_, ?_⟩).mono (fun s h ho ↦ ?_)
  · exact fun hs ↦ by cases hs
  · exact fun ho ↦ by cases ho
  · exact fun ho ↦ by cases ho
  · exact ⟨(h.out ho).1, (h.out ho).2.1⟩

theorem signed_out_throughout_retried :
    Throughout step (fun s ↦ s.out = true → s.accessToken = none ∧ s.store = none) (start (some "r1"))
      [.logout, .loggedOut true, .send 0 "/v1/pods", .respond 0 (some 401), .read 0 .value] := by
  have hquiet : Quiet (start (some "r1")) := ⟨fun k r hk ↦ (by cases hk), rfl⟩
  refine signed_out_throughout (some "r1") _ (fun t ht ↦ ⟨hquiet, ?_⟩)
  cases ht
  refine fun t ht ↦ ⟨fun _ ↦ ⟨hquiet.refreshes, rfl⟩, ?_⟩
  cases ht
  refine fun t ht ↦ ⟨fun hs ↦ Bool.noConfusion hs, ?_⟩
  cases ht
  refine fun t ht ↦ ⟨fun hs ↦ Bool.noConfusion hs, ?_⟩
  cases ht
  exact fun t ht ↦ ⟨fun hs ↦ Bool.noConfusion hs, trivial⟩

/-- One refresh at a time, whosesoever it is, and none while the token of a login is on its way to the storage. -/
structure Alone (s : State) : Prop where
  single : ∀ j k r r', s.refreshes j = some r → s.refreshes k = some r' → r.phase.running = true →
    r'.phase.running = true → j = k
  loginWrite : ∀ k r, s.refreshes k = some r → r.phase.running = true → s.loginWrite = none

/-- The server rotates: an answer brings a token that was not used yet, or refuses; and the storage does what it is asked.
-/
def Act.Rotates (s : State) : Act → Prop
  | .answer _ (.ok body) => ∃ newAccess newRefresh, tokens body = some (some newAccess, some newRefresh) ∧
      newRefresh ∉ s.posts.map Prod.snd
  | .answer _ (.error status) => status = some 401 ∨ status = some 403
  | .written _ ok | .deleted _ ok | .loginWritten ok => ok = true
  | .login _ refreshToken => refreshToken ∉ s.posts.map Prod.snd
  | _ => True

/-- The token in the storage is unused, except to the refresh that is about to replace or to delete it. -/
structure Unused (s : State) : Prop where
  store : ∀ token, s.store = some token → token ∉ s.posts.map Prod.snd ∨
    ∃ k kind phase, s.refreshes k = some ⟨kind, phase⟩ ∧ phase.running = true ∧ phase ≠ .reading
  writing : ∀ k kind token, s.refreshes k = some ⟨kind, .writing token⟩ → token ∉ s.posts.map Prod.snd
  loginWrite : ∀ token, s.loginWrite = some token → token ∉ s.posts.map Prod.snd
  once : (s.posts.map Prod.snd).Nodup

theorem Unused.setPhase (h : Unused s) (k : ℕ) (kind : Kind) {phase' : Phase} (hrunning' : phase'.running = true)
    (hphase : phase' ≠ .reading) (hwriting : ∀ token, phase' = .writing token → token ∉ s.posts.map Prod.snd) :
    Unused (s.setPhase k kind phase') := by
  refine ⟨fun token _ ↦ .inr ⟨k, kind, phase', setPhase_self .., hrunning', hphase⟩, fun j kind' token hj ↦ ?_,
    h.loginWrite, h.once⟩
  by_cases hjk : j = k
  · subst hjk
    rw [setPhase_self] at hj
    exact hwriting token (Refresh.mk.inj (Option.some.inj hj)).2
  · exact h.writing j kind' token ((setPhase_eq s kind phase' hjk).symm.trans hj)

/-- A refresh may complete where the storage has an unused token, or none. -/
theorem Unused.complete (h : Unused s) (hstore : ∀ token, s.store = some token → token ∉ s.posts.map Prod.snd) (k : ℕ)
    (kind : Kind) (ok : Bool) : Unused (s.complete k kind ok) := by
  have hwriting (j : ℕ) (kind' : Kind) (token : String)
      (hj : (s.setPhase k kind (.completed ok)).refreshes j = some ⟨kind', .writing token⟩) :
      token ∉ s.posts.map Prod.snd := by
    by_cases hjk : j = k
    · subst hjk
      cases (setPhase_self ..).symm.trans hj
    · exact h.writing j kind' token ((setPhase_eq s kind _ hjk).symm.trans hj)
  cases kind <;> exact ⟨fun token ht ↦ .inl (hstore token ht), hwriting, h.loginWrite, h.once⟩

theorem Unused.spawn (h : Unused s) (hinv : Inv s) (kind : Kind) : Unused (s.spawn kind) := by
  have hkept {j : ℕ} {r : Refresh} (hj : s.refreshes j = some r) : (s.spawn kind).refreshes j = some r :=
    (update_of_ne (Nat.ne_of_lt (hinv.made_of_some hj)) ..).trans hj
  refine ⟨fun token ht ↦ ?_, fun j kind' token hj ↦ ?_, h.loginWrite, h.once⟩
  · obtain hunused | ⟨j, kind', phase, hj, hr⟩ := h.store token ht
    · exact .inl hunused
    · exact .inr ⟨j, kind', phase, hkept hj, hr⟩
  · by_cases hjm : j = s.made
    · subst hjm
      cases (update_self ..).symm.trans hj
    · exact h.writing j kind' token ((update_of_ne hjm ..).symm.trans hj)

theorem Unused.read (h : Unused s) (halone : Alone s) (hk : s.refreshes k = some ⟨kind, .reading⟩) (r : Read) :
    Unused (s.read k kind r) := by
  have hstore (token : String) (ht : s.store = some token) : token ∉ s.posts.map Prod.snd := by
    obtain hunused | ⟨j, kind', phase, hj, hr, hphase⟩ := h.store token ht
    · exact hunused
    · obtain rfl := halone.single j k _ _ hj hk hr rfl
      exact absurd (Refresh.mk.inj (Option.some.inj (hj.symm.trans hk))).2 hphase
  unfold State.read
  split
  · split
    · exact h.complete hstore k kind false
    · next token ht =>
      refine ⟨fun _ _ ↦ .inr ⟨k, kind, _, setPhase_self .., rfl, Phase.noConfusion⟩, fun j kind' token' hj ↦ ?_,
        fun token' ht' ↦ ?_, ?_⟩
      · by_cases hjk : j = k
        · subst hjk
          cases (setPhase_self ..).symm.trans hj
        · have hj' := (setPhase_eq s kind _ hjk).symm.trans hj
          exact absurd (halone.single j k _ _ hj' hk rfl rfl) hjk
      · cases (halone.loginWrite k _ hk rfl).symm.trans ht'
      · rw [List.map_append, List.nodup_append]
        refine ⟨h.once, List.nodup_singleton _, fun used hused new hnew heq ↦ ?_⟩
        obtain rfl := List.mem_singleton.mp hnew
        exact hstore _ ht (heq ▸ hused)
  · exact h.complete hstore k kind false
  · exact h.complete hstore k kind false

theorem Unused.answer (h : Unused s) {a : Except (Option ℕ) Fields} (hok : Act.Rotates s (.answer k a)) (kind : Kind) :
    Unused (s.answer k kind a) := by
  cases a with
  | ok body =>
    obtain ⟨newAccess, newRefresh, htokens, hfresh⟩ := hok
    have hanswer : s.answer k kind (.ok body) =
        { s with accessToken := some newAccess }.setPhase k kind (.writing newRefresh) := by
      rw [State.answer, htokens]
      rfl
    rw [hanswer]
    refine Unused.setPhase (s := { s with accessToken := some newAccess }) ⟨h.store, h.writing, h.loginWrite, h.once⟩ k
      kind rfl Phase.noConfusion (fun token htoken ↦ ?_)
    cases htoken
    exact hfresh
  | error status =>
    rw [State.answer, if_pos (.inr hok)]
    exact h.setPhase k kind rfl Phase.noConfusion (fun _ hphase ↦ Phase.noConfusion hphase)

theorem Unused.onError (h : Unused s) (hinv : Inv s) (i : ℕ) (path : String) (after : Option ℕ) (token : Option String)
    (status : Option ℕ) : Unused (s.onError i path after token status) := by
  unfold State.onError
  split
  · split
    · exact ⟨h.store, h.writing, h.loginWrite, h.once⟩
    · have hspawn := h.spawn hinv .interceptor
      exact ⟨hspawn.store, hspawn.writing, hspawn.loginWrite, hspawn.once⟩
  · exact ⟨h.store, h.writing, h.loginWrite, h.once⟩

/-- A token that was not used may be put into the storage, or the storage be emptied. -/
theorem Unused.setStore (h : Unused s) {store : Option String}
    (hstore : ∀ token, store = some token → token ∉ s.posts.map Prod.snd) (accessToken : Option String) :
    Unused { s with accessToken, store } :=
  ⟨fun token htoken ↦ .inl (hstore token htoken), h.writing, h.loginWrite, h.once⟩

theorem Unused.step {a : Act} (h : Unused s) (hinv : Inv s) (halone : Alone s) (hok : a.Rotates s)
    (ht : step s a = some t) : Unused t := by
  cases step_cases ht with
  | send | succeeds | retries | givesUp | logout | stays => exact ⟨h.store, h.writing, h.loginWrite, h.once⟩
  | fails => exact h.onError hinv ..
  | bootstrap => exact h.spawn hinv .bootstrap
  | read hk => exact h.read halone hk _
  | answer => exact h.answer hok _
  | @written k kind newRefresh ok hk =>
    have hfresh (token : String) (htoken : some newRefresh = some token) : token ∉ s.posts.map Prod.snd :=
      Option.some.inj htoken ▸ h.writing k kind newRefresh hk
    rw [show ok = true from hok, State.written, if_pos rfl]
    exact (h.setStore hfresh s.accessToken).complete hfresh k kind true
  | @deleted k kind clears ok =>
    have hnone (token : String) (htoken : none = some token) : token ∉ s.posts.map Prod.snd := nomatch htoken
    rw [show ok = true from hok, State.deleted, if_pos rfl]
    exact (h.setStore hnone (if clears then none else s.accessToken)).complete hnone k kind false
  | login =>
    refine ⟨h.store, h.writing, fun token htoken ↦ ?_, h.once⟩
    cases htoken
    exact hok
  | @loginWritten refreshToken ok hwrite =>
    rw [if_pos (show ok = true from hok)]
    refine ⟨fun token htoken ↦ .inl ?_, h.writing, fun token htoken ↦ (by cases htoken), h.once⟩
    cases htoken
    exact h.loginWrite refreshToken hwrite
  | loggedOut => exact ⟨fun token htoken ↦ (by cases htoken), h.writing, h.loginWrite, h.once⟩

/-- The answer to a refresh. -/
def rotated : Fields := [("data", .object [("accessToken", .string "a2"), ("refreshToken", .string "r2")])]

end KubeCenter.Auth.InterceptorProtocol
