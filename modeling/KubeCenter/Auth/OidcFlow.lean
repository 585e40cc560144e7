import Mathlib.Data.List.Nodup
import Mathlib.Order.MinMax
import KubeCenter.Auth.Identity
import KubeCenter.Core.Runs

/-! The store of the OIDC flows in progress, and the test that ties a token to its flow. -/

namespace KubeCenter.Auth

open KubeCenter.Core

def oidcStateTTL : ℕ := 5 * minute

structure OIDCFlowState where
  state : String
  nonce : String
  pkceVerifier : String
  providerID : String
  createdAt : ℕ
  deriving DecidableEq

def OIDCFlowState.expired (flow : OIDCFlowState) (now : ℕ) : Bool := flow.createdAt + oidcStateTTL < now

abbrev OIDCStateStore := GoMap String OIDCFlowState

namespace OIDCStateStore

variable (s : OIDCStateStore)

def store (flow : OIDCFlowState) : OIDCStateStore := s.insert flow.state flow

/-- One turn of the cleanup loop, at the tick of `now`. -/
def evict (key : String) (now : ℕ) : OIDCStateStore :=
  match s.lookup key with
  | some flow => if flow.expired now then s.erase key else s
  | none => s

variable {s} in
theorem lookup_of_evict {key k : String} {now : ℕ} {flow : OIDCFlowState}
    (h : (s.evict key now).lookup k = some flow) : s.lookup k = some flow := by
  unfold evict at h
  split at h
  · split at h
    · by_cases hk : k = key
      · subst hk
        rw [AList.lookup_erase] at h
        cases h
      · rwa [AList.lookup_erase_ne hk] at h
    · exact h
  · exact h

end OIDCStateStore

/-- A user comes of a token with the nonce of the flow. -/
theorem handleCallback_ok {toLower : Char → Char} {config : OIDCConfig} {idToken : IDToken} {nonce : String}
    {user : User} (h : handleCallback toLower config (.ok idToken) nonce = .ok user) : idToken.nonce = nonce := by
  change userOfToken toLower config idToken nonce = .ok user at h
  unfold userOfToken at h
  split at h
  · cases h
  · next hnonce => exact not_not.mp hnonce

end KubeCenter.Auth

/-! Browsers that log in through `handleOIDCLogin` and `handleOIDCCallback`, over one state store. -/

namespace KubeCenter.Auth.OidcBinding

open KubeCenter.Core Function

/-- A callback as it arrives; `browser` is history, nothing in the request names it. -/
structure Request where
  browser : ℕ
  providerID : String
  error : String
  state : String
  code : String
  deriving DecidableEq

/-- Where one callback stands. -/
inductive Callback
  | idle
  | received (req : Request) (receivedAt : ℕ)
  | taken (req : Request) (receivedAt : ℕ) (flow : OIDCFlowState)
  | checked (req : Request) (receivedAt : ℕ) (flow : OIDCFlowState) (config : OIDCConfig) (checkedAt : ℕ)
  | exchanging (req : Request) (receivedAt : ℕ) (flow : OIDCFlowState) (config : OIDCConfig) (checkedAt : ℕ)
  | accepted (req : Request) (receivedAt : ℕ) (flow : OIDCFlowState) (nonce : String) (user : User) (checkedAt : ℕ)
  | redirected (location : String)

/-- A login redirect and the browser it was sent to. -/
structure Redirect where
  browser : ℕ
  flow : OIDCFlowState

/-- An exchange that a callback attempts: the state it came with, and what is sent. -/
structure Exchange where
  state : String
  providerID : String
  code : String
  pkceVerifier : String

/-- A session that a callback issues, with the nonce of the ID token behind it. -/
structure Issued where
  req : Request
  user : User
  nonce : String
  receivedAt : ℕ
  checkedAt : ℕ

structure State where
  now : ℕ
  states : OIDCStateStore := ∅
  callbacks : ℕ → Callback := fun _ ↦ .idle
  redirects : List Redirect := []
  exchanges : List Exchange := []
  sessions : List Issued := []

/-- `take` is `LoadAndDelete`, `check` what comes between it and the exchange; `issue` is `issueTokenPair` with what
follows, for tokens that can be signed and drawn or not; `evict` is one turn of a cleanup that ticked at `tick`. -/
inductive Act
  | login (browser : ℕ) (providerID state nonce pkceVerifier : String)
  | receive (i : ℕ) (req : Request)
  | take (i : ℕ)
  | check (i : ℕ)
  | exchange (i : ℕ)
  | reply (i : ℕ) (reply : Except String IDToken)
  | issue (i : ℕ) (signed : Bool)
  | evict (tick : ℕ) (key : String)
  | advance (d : ℕ)

/-- What does not change in a run: `GetOIDC` and `unicode.ToLower`. -/
structure Server where
  getOIDC : String → Option OIDCConfig
  toLower : Char → Char

namespace State

variable (s : State)

def setCallback (i : ℕ) (c : Callback) : State := { s with callbacks := update s.callbacks i c }

@[simp] theorem setCallback_self (i : ℕ) (c : Callback) : (s.setCallback i c).callbacks i = c := update_self ..

theorem setCallback_ne {i j : ℕ} (hj : j ≠ i) (c : Callback) : (s.setCallback i c).callbacks j = s.callbacks j :=
  update_of_ne hj ..

end State

def receive (req : Request) (now : ℕ) : Callback :=
  if req.error ≠ "" then .redirected "/login?error=oidc_failed"
  else if req.state = "" ∨ req.code = "" then .redirected "/login?error=invalid_request"
  else .received req now

/-- The rest of `Consume`, the comparison of the providers and `GetOIDC`. -/
def check (server : Server) (req : Request) (receivedAt : ℕ) (flow : OIDCFlowState) (now : ℕ) : Callback :=
  if flow.expired now then .redirected "/login?error=invalid_state"
  else if flow.providerID ≠ req.providerID then .redirected "/login?error=provider_mismatch"
  else
    match server.getOIDC req.providerID with
    | none => .redirected "/login?error=unknown_provider"
    | some config => .checked req receivedAt flow config now

def callbackStep (server : Server) (s : State) (i : ℕ) : Callback → Act → Option State
  | .idle, .receive _ req => some (s.setCallback i (receive req s.now))
  | .received req receivedAt, .take _ =>
    match s.states.lookup req.state with
    | none => some (s.setCallback i (.redirected "/login?error=invalid_state"))
    | some flow =>
      some { s.setCallback i (.taken req receivedAt flow) with states := s.states.erase req.state }
  | .taken req receivedAt flow, .check _ => some (s.setCallback i (check server req receivedAt flow s.now))
  | .checked req receivedAt flow config checkedAt, .exchange _ =>
    some { s.setCallback i (.exchanging req receivedAt flow config checkedAt) with
      exchanges := ⟨req.state, req.providerID, req.code, flow.pkceVerifier⟩ :: s.exchanges }
  | .exchanging req receivedAt flow config checkedAt, .reply _ reply =>
    match reply, handleCallback server.toLower config reply flow.nonce with
    | .ok idToken, .ok user => some (s.setCallback i (.accepted req receivedAt flow idToken.nonce user checkedAt))
    | _, _ => some (s.setCallback i (.redirected "/login?error=auth_failed"))
  | .accepted req receivedAt _ nonce user checkedAt, .issue _ signed =>
    if signed then
      some { s.setCallback i (.redirected "/auth/callback") with
        sessions := ⟨req, user, nonce, receivedAt, checkedAt⟩ :: s.sessions }
    else some (s.setCallback i (.redirected "/login?error=token_failed"))
  | _, _ => none

/-- Random values are distinct: a login draws a state that no earlier one has drawn. -/
def step (server : Server) (s : State) (a : Act) : Option State :=
  match a with
  | .login browser providerID state nonce pkceVerifier =>
    match server.getOIDC providerID with
    | none => some s
    | some _ =>
      if state ∈ s.redirects.map (·.flow.state) then none
      else
        let flow : OIDCFlowState := { state, nonce, pkceVerifier, providerID, createdAt := s.now }
        some { s with states := s.states.store flow, redirects := ⟨browser, flow⟩ :: s.redirects }
  | .receive i _ | .take i | .check i | .exchange i | .reply i _ | .issue i _ =>
    callbackStep server s i (s.callbacks i) a
  | .evict tick key => if tick ≤ s.now then some { s with states := s.states.evict key tick } else none
  | .advance d => some { s with now := s.now + d }

def init (now : ℕ) : State := { now }

/-- The session of a callback goes back to the redirect `r`; to the same browser, where that is asked for. -/
structure Binds (own : Prop) (s : State) (x : Issued) (r : Redirect) : Prop where
  mem : r ∈ s.redirects
  state : r.flow.state = x.req.state
  provider : r.flow.providerID = x.req.providerID
  fresh : r.flow.createdAt ≤ x.checkedAt ∧ x.checkedAt ≤ r.flow.createdAt + oidcStateTTL ∧ x.receivedAt ≤ x.checkedAt
  nonce : r.flow.nonce = x.nonce
  exchange : ∃ e ∈ s.exchanges, e.state = x.req.state ∧ e.pkceVerifier = r.flow.pkceVerifier ∧ e.code = x.req.code
  browser : own → r.browser = x.req.browser

/-- Every session goes back to one redirect for the same provider in time; every state leads to one exchange at most,
which sends the verifier of its redirect. -/
structure Bound (own : Prop) (s : State) : Prop where
  sessions : ∀ x ∈ s.sessions, ∃ r, Binds own s x r
  once : (s.exchanges.map (·.state)).Nodup
  exchanges : ∀ e ∈ s.exchanges, ∃ r ∈ s.redirects,
    r.flow.state = e.state ∧ r.flow.providerID = e.providerID ∧ r.flow.pkceVerifier = e.pkceVerifier
  redirects : (s.redirects.map (·.flow.state)).Nodup

def Callback.issuing : Callback → Option Request
  | .accepted req .. => some req
  | _ => none

/-- A callback that has its tokens was sent by the browser that the redirect with its state was sent to. -/
def PresentsOwn (s : State) : Act → Prop
  | .issue i true => ∀ req ∈ (s.callbacks i).issuing, ∀ r ∈ s.redirects, r.flow.state = req.state →
      r.browser = req.browser
  | _ => True

variable {own : Prop} {s t : State} {server : Server} {a : Act} {i : ℕ} {flow flow' : OIDCFlowState} {p q : Option ℕ}

/-- The flow that a callback has taken out of the store and not yet used. -/
def Callback.unspent : Callback → Option OIDCFlowState
  | .taken _ _ flow | .checked _ _ flow _ _ => some flow
  | _ => none

/-- Where an unused flow is: in the store, or with a callback. -/
def Held (s : State) : Option ℕ → OIDCFlowState → Prop
  | none, flow => s.states.lookup flow.state = some flow
  | some i, flow => (s.callbacks i).unspent = some flow

/-- An unused flow is in one place, and comes from a redirect. -/
structure Single (s : State) : Prop where
  keyed : ∀ k flow, s.states.lookup k = some flow → flow.state = k
  redirected : ∀ p flow, Held s p flow → ∃ r ∈ s.redirects, r.flow = flow
  once : ∀ p q flow flow', Held s p flow → Held s q flow' → flow.state = flow'.state → p = q
  unspent : ∀ p flow, Held s p flow → flow.state ∉ s.exchanges.map (·.state)

/-- What holds of a callback past its checks. -/
structure Passed (s : State) (req : Request) (receivedAt : ℕ) (flow : OIDCFlowState) (checkedAt : ℕ) : Prop where
  state : flow.state = req.state
  provider : flow.providerID = req.providerID
  fresh : flow.createdAt ≤ checkedAt ∧ checkedAt ≤ flow.createdAt + oidcStateTTL ∧ receivedAt ≤ checkedAt
  redirect : ∃ r ∈ s.redirects, r.flow = flow

def Exchanged (s : State) (req : Request) (flow : OIDCFlowState) : Prop :=
  ∃ e ∈ s.exchanges, e.state = req.state ∧ e.pkceVerifier = flow.pkceVerifier ∧ e.code = req.code

def CallbackOk (s : State) : Callback → Prop
  | .idle | .redirected _ => True
  | .received _ receivedAt => receivedAt ≤ s.now
  | .taken req receivedAt flow => flow.state = req.state ∧ receivedAt ≤ s.now ∧ ∃ r ∈ s.redirects, r.flow = flow
  | .checked req receivedAt flow _ checkedAt => Passed s req receivedAt flow checkedAt
  | .exchanging req receivedAt flow _ checkedAt => Passed s req receivedAt flow checkedAt ∧ Exchanged s req flow
  | .accepted req receivedAt flow nonce _ checkedAt =>
    Passed s req receivedAt flow checkedAt ∧ Exchanged s req flow ∧ flow.nonce = nonce

structure Inv (own : Prop) (s : State) : Prop where
  single : Single s
  past : ∀ r ∈ s.redirects, r.flow.createdAt ≤ s.now
  callbacks : ∀ i, CallbackOk s (s.callbacks i)
  bound : Bound own s

theorem inv_init (now : ℕ) : Inv own (init now) where
  single := by
    have hnone : ∀ p flow, ¬ Held (init now) p flow := by
      intro p flow h
      cases p <;> cases h
    exact ⟨fun _ _ h ↦ (by cases h), fun p flow h ↦ absurd h (hnone p flow),
      fun p _ flow _ h ↦ absurd h (hnone p flow), fun p flow h ↦ absurd h (hnone p flow)⟩
  past _ h := by cases h
  callbacks _ := trivial
  bound := ⟨fun _ h ↦ (by cases h), List.nodup_nil, fun _ h ↦ (by cases h), List.nodup_nil⟩

/-! Time passing, and redirects and exchanges that are added, spoil nothing that was established. -/

/-- `t` has all of the history of `s`. -/
structure Extends (s t : State) : Prop where
  now : s.now ≤ t.now
  redirects : ∀ r ∈ s.redirects, r ∈ t.redirects
  exchanges : ∀ e ∈ s.exchanges, e ∈ t.exchanges

theorem Passed.mono {req : Request} {receivedAt checkedAt : ℕ} (h : Passed s req receivedAt flow checkedAt)
    (hst : Extends s t) : Passed t req receivedAt flow checkedAt := by
  obtain ⟨r, hr, hflow⟩ := h.redirect
  exact ⟨h.state, h.provider, h.fresh, r, hst.redirects r hr, hflow⟩

theorem Exchanged.mono {req : Request} (h : Exchanged s req flow) (hst : Extends s t) : Exchanged t req flow := by
  obtain ⟨e, he, hreq⟩ := h
  exact ⟨e, hst.exchanges e he, hreq⟩

theorem CallbackOk.mono {c : Callback} (h : CallbackOk s c) (hst : Extends s t) : CallbackOk t c := by
  cases c with
  | idle => trivial
  | received req receivedAt => exact le_trans h hst.now
  | taken req receivedAt flow =>
    obtain ⟨hstate, hreceived, r, hr, hflow⟩ := h
    exact ⟨hstate, hreceived.trans hst.now, r, hst.redirects r hr, hflow⟩
  | checked req receivedAt flow config checkedAt => exact Passed.mono h hst
  | exchanging req receivedAt flow config checkedAt => exact ⟨h.1.mono hst, h.2.mono hst⟩
  | accepted req receivedAt flow nonce user checkedAt => exact ⟨h.1.mono hst, h.2.1.mono hst, h.2.2⟩
  | redirected location => trivial

theorem Binds.mono {x : Issued} {r : Redirect} (h : Binds own s x r) (hst : Extends s t) : Binds own t x r := by
  obtain ⟨e, he, hreq⟩ := h.exchange
  exact ⟨hst.redirects r h.mem, h.state, h.provider, h.fresh, h.nonce, ⟨e, hst.exchanges e he, hreq⟩, h.browser⟩

theorem Bound.frame (h : Bound own s) (hst : Extends s t) (hredirects : t.redirects = s.redirects)
    (hexchanges : t.exchanges = s.exchanges) (hsessions : t.sessions = s.sessions) : Bound own t where
  sessions x hx := (h.sessions x (hsessions ▸ hx)).imp (fun _ hr ↦ hr.mono hst)
  once := hexchanges ▸ h.once
  exchanges e he := by
    rw [hredirects]
    exact h.exchanges e (hexchanges ▸ he)
  redirects := hredirects ▸ h.redirects

theorem callbacks_setCallback {c : Callback} (h : ∀ j, CallbackOk s (s.callbacks j)) (hst : Extends s t)
    (hcallbacks : t.callbacks = update s.callbacks i c) (hc : CallbackOk t c) : ∀ j, CallbackOk t (t.callbacks j) := by
  intro j
  rw [hcallbacks]
  by_cases hj : j = i
  · subst hj
    rwa [update_self]
  · rw [update_of_ne hj]
    exact (h j).mono hst

/-! Where the unused flows go. -/

theorem held_setCallback {c : Callback} (h : Held (s.setCallback i c) p flow) :
    p = some i ∧ c.unspent = some flow ∨ p ≠ some i ∧ Held s p flow := by
  cases p with
  | none => exact .inr ⟨by simp, h⟩
  | some j =>
    by_cases hj : j = i
    · subst hj
      change ((s.setCallback j c).callbacks j).unspent = some flow at h
      rw [State.setCallback_self] at h
      exact .inl ⟨rfl, h⟩
    · change ((s.setCallback i c).callbacks j).unspent = some flow at h
      rw [State.setCallback_ne s hj] at h
      exact .inr ⟨by simpa using hj, h⟩

theorem Single.sub (h : Single s) (hkeyed : ∀ k flow, t.states.lookup k = some flow → flow.state = k)
    (hredirects : t.redirects = s.redirects) (hexchanges : t.exchanges = s.exchanges)
    (hheld : ∀ p flow, Held t p flow → Held s p flow) : Single t where
  keyed := hkeyed
  redirected p flow hp := by
    rw [hredirects]
    exact h.redirected p flow (hheld p flow hp)
  once p q flow flow' hp hq := h.once p q flow flow' (hheld p flow hp) (hheld q flow' hq)
  unspent p flow hp := by
    rw [hexchanges]
    exact h.unspent p flow (hheld p flow hp)

theorem Single.setCallback (h : Single s) {c : Callback}
    (hc : ∀ flow, c.unspent = some flow → (s.callbacks i).unspent = some flow) : Single (s.setCallback i c) := by
  refine h.sub h.keyed rfl rfl (fun p flow hp ↦ ?_)
  obtain ⟨rfl, hflow⟩ | ⟨-, hp⟩ := held_setCallback hp
  · exact hc flow hflow
  · exact hp

theorem Single.evict (h : Single s) (key : String) (tick : ℕ) : Single { s with states := s.states.evict key tick } := by
  refine h.sub (fun k flow hk ↦ h.keyed k flow (OIDCStateStore.lookup_of_evict hk)) rfl rfl (fun p flow hp ↦ ?_)
  cases p with
  | none => exact OIDCStateStore.lookup_of_evict hp
  | some i => exact hp

/-- A flow that is taken out of the store is with the callback, and no longer in the store. -/
theorem Single.take (h : Single s) {req : Request} {receivedAt : ℕ} (hl : s.states.lookup req.state = some flow) :
    Single { s.setCallback i (.taken req receivedAt flow) with states := s.states.erase req.state } := by
  have hstate : flow.state = req.state := h.keyed _ _ hl
  have hstored : Held s none flow := by
    change s.states.lookup flow.state = some flow
    rwa [hstate]
  have hheld : ∀ p flow', Held { s.setCallback i (.taken req receivedAt flow) with
      states := s.states.erase req.state } p flow' →
      p = some i ∧ flow' = flow ∨ p ≠ some i ∧ flow'.state ≠ flow.state ∧ Held s p flow' := by
    intro p flow' hp
    cases p with
    | none =>
      change (s.states.erase req.state).lookup flow'.state = some flow' at hp
      by_cases hne : flow'.state = req.state
      · rw [hne, AList.lookup_erase] at hp
        cases hp
      · rw [AList.lookup_erase_ne hne] at hp
        exact .inr ⟨by simp, by rwa [hstate], hp⟩
    | some j =>
      have hset : Held (s.setCallback i (.taken req receivedAt flow)) (some j) flow' := hp
      obtain ⟨hj, hflow⟩ | ⟨hj, hp⟩ := held_setCallback hset
      · exact .inl ⟨hj, (Option.some.inj hflow).symm⟩
      · refine .inr ⟨hj, fun hsame ↦ ?_, hp⟩
        have hplace := h.once (some j) none flow' flow hp hstored hsame
        cases hplace
  refine ⟨fun k flow' hk ↦ ?_, fun p flow' hp ↦ ?_, fun p q flow₁ flow₂ hp hq hsame ↦ ?_, fun p flow' hp ↦ ?_⟩
  · by_cases hne : k = req.state
    · rw [hne, AList.lookup_erase] at hk
      cases hk
    · rw [AList.lookup_erase_ne hne] at hk
      exact h.keyed k flow' hk
  · obtain ⟨-, rfl⟩ | ⟨-, -, hp⟩ := hheld p flow' hp
    · exact h.redirected none flow' hstored
    · exact h.redirected p flow' hp
  · obtain ⟨rfl, rfl⟩ | ⟨-, hnep, hp⟩ := hheld p flow₁ hp <;> obtain ⟨rfl, rfl⟩ | ⟨-, hneq, hq⟩ := hheld q flow₂ hq
    · rfl
    · exact absurd hsame.symm hneq
    · exact absurd hsame hnep
    · exact h.once p q flow₁ flow₂ hp hq hsame
  · obtain ⟨-, rfl⟩ | ⟨-, -, hp⟩ := hheld p flow' hp
    · exact h.unspent none flow' hstored
    · exact h.unspent p flow' hp

/-- A flow that an exchange uses is held nowhere afterwards. -/
theorem Single.exchange (h : Single s) (hi : (s.callbacks i).unspent = some flow) {c : Callback} {e : Exchange}
    (hc : c.unspent = none) (he : e.state = flow.state) :
    Single { s.setCallback i c with exchanges := e :: s.exchanges } := by
  have hheld : ∀ p flow', Held { s.setCallback i c with exchanges := e :: s.exchanges } p flow' →
      p ≠ some i ∧ Held s p flow' := by
    intro p flow' hp
    have hset : Held (s.setCallback i c) p flow' := by cases p <;> exact hp
    obtain ⟨-, hflow⟩ | hp := held_setCallback hset
    · rw [hc] at hflow
      cases hflow
    · exact hp
  refine ⟨h.keyed, fun p flow' hp ↦ h.redirected p flow' (hheld p flow' hp).2,
    fun p q flow₁ flow₂ hp hq ↦ h.once p q flow₁ flow₂ (hheld p flow₁ hp).2 (hheld q flow₂ hq).2,
    fun p flow' hp ↦ ?_⟩
  obtain ⟨hne, hp⟩ := hheld p flow' hp
  rw [List.map_cons, List.mem_cons, not_or]
  refine ⟨fun hsame ↦ hne ?_, h.unspent p flow' hp⟩
  exact h.once p (some i) flow' flow hp hi (hsame.trans he)

/-- A login stores a flow whose state is new: no callback has it, and no exchange was made for it. -/
theorem Single.login (h : Single s) (hexchanges : ∀ e ∈ s.exchanges, ∃ r ∈ s.redirects, r.flow.state = e.state)
    (browser : ℕ) (hnew : flow.state ∉ s.redirects.map (·.flow.state)) :
    Single { s with states := s.states.store flow, redirects := ⟨browser, flow⟩ :: s.redirects } := by
  have hold : ∀ p flow', Held s p flow' → flow'.state ≠ flow.state := by
    intro p flow' hp hsame
    obtain ⟨r, hr, rfl⟩ := h.redirected p flow' hp
    exact hnew (List.mem_map.mpr ⟨r, hr, hsame⟩)
  have hheld : ∀ p flow', Held { s with states := s.states.store flow, redirects := ⟨browser, flow⟩ :: s.redirects }
      p flow' → p = none ∧ flow' = flow ∨ Held s p flow' := by
    intro p flow' hp
    cases p with
    | none =>
      change (s.states.insert flow.state flow).lookup flow'.state = some flow' at hp
      by_cases hsame : flow'.state = flow.state
      · rw [hsame, AList.lookup_insert] at hp
        exact .inl ⟨rfl, (Option.some.inj hp).symm⟩
      · rw [AList.lookup_insert_ne hsame] at hp
        exact .inr hp
    | some i => exact .inr hp
  refine ⟨fun k flow' hk ↦ ?_, fun p flow' hp ↦ ?_, fun p q flow₁ flow₂ hp hq hsame ↦ ?_, fun p flow' hp ↦ ?_⟩
  · change (s.states.insert flow.state flow).lookup k = some flow' at hk
    by_cases hsame : k = flow.state
    · rw [hsame, AList.lookup_insert] at hk
      cases hk
      exact hsame.symm
    · rw [AList.lookup_insert_ne hsame] at hk
      exact h.keyed k flow' hk
  · obtain ⟨-, rfl⟩ | hp := hheld p flow' hp
    · exact ⟨_, List.mem_cons_self, rfl⟩
    · obtain ⟨r, hr, hflow⟩ := h.redirected p flow' hp
      exact ⟨r, List.mem_cons_of_mem _ hr, hflow⟩
  · obtain ⟨rfl, rfl⟩ | hp' := hheld p flow₁ hp <;> obtain ⟨rfl, rfl⟩ | hq' := hheld q flow₂ hq
    · rfl
    · exact absurd hsame.symm (hold q flow₂ hq')
    · exact absurd hsame (hold p flow₁ hp')
    · exact h.once p q flow₁ flow₂ hp' hq' hsame
  · obtain ⟨-, rfl⟩ | hp := hheld p flow' hp
    · intro hmem
      obtain ⟨e, he, hstate⟩ := List.mem_map.mp hmem
      obtain ⟨r, hr, hr'⟩ := hexchanges e he
      exact hnew (List.mem_map.mpr ⟨r, hr, hr'.trans hstate⟩)
    · exact h.unspent p flow' hp

/-! The steps. -/

theorem Inv.setCallback (h : Inv own s) {c : Callback} (hc : CallbackOk s c)
    (hunspent : ∀ flow, c.unspent = some flow → (s.callbacks i).unspent = some flow) : Inv own (s.setCallback i c) :=
  have hst : Extends s (s.setCallback i c) := ⟨le_rfl, fun _ ↦ id, fun _ ↦ id⟩
  ⟨h.single.setCallback hunspent, h.past, callbacks_setCallback h.callbacks hst rfl (hc.mono hst),
    h.bound.frame hst rfl rfl rfl⟩

theorem callbackOk_receive (req : Request) : CallbackOk s (receive req s.now) ∧ (receive req s.now).unspent = none := by
  unfold receive
  split
  · exact ⟨trivial, rfl⟩
  · split
    · exact ⟨trivial, rfl⟩
    · exact ⟨le_rfl, rfl⟩

theorem callbackOk_check (server : Server) {req : Request} {receivedAt : ℕ} (hstate : flow.state = req.state)
    (hreceived : receivedAt ≤ s.now) (hredirect : ∃ r ∈ s.redirects, r.flow = flow) (hpast : flow.createdAt ≤ s.now) :
    CallbackOk s (check server req receivedAt flow s.now) ∧
      ∀ flow', (check server req receivedAt flow s.now).unspent = some flow' → flow' = flow := by
  unfold check
  split
  · exact ⟨trivial, fun _ h ↦ (by cases h)⟩
  · next hexpired =>
    split
    · exact ⟨trivial, fun _ h ↦ (by cases h)⟩
    · next hprovider =>
      split
      · exact ⟨trivial, fun _ h ↦ (by cases h)⟩
      · have hfresh : s.now ≤ flow.createdAt + oidcStateTTL := by
          simpa [OIDCFlowState.expired] using hexpired
        exact ⟨⟨hstate, not_not.mp hprovider, ⟨hpast, hfresh, hreceived⟩, hredirect⟩,
          fun _ h ↦ (Option.some.inj h).symm⟩

/-- The redirect of a flow that was exchanged binds the session of its callback, if they are of one browser. -/
theorem binds_issue {req : Request} {nonce : String} {receivedAt checkedAt : ℕ}
    (hpassed : Passed s req receivedAt flow checkedAt) (hexchanged : Exchanged s req flow) (hnonce : flow.nonce = nonce)
    (user : User) (hown : own → ∀ r ∈ s.redirects, r.flow.state = req.state → r.browser = req.browser) :
    ∃ r, Binds own s ⟨req, user, nonce, receivedAt, checkedAt⟩ r := by
  obtain ⟨r, hr, rfl⟩ := hpassed.redirect
  obtain ⟨e, he, hstate, hverifier, hcode⟩ := hexchanged
  exact ⟨r, hr, hpassed.state, hpassed.provider, hpassed.fresh, hnonce, ⟨e, he, hstate, hverifier, hcode⟩,
    fun ho ↦ hown ho r hr hpassed.state⟩

theorem Inv.exchange (h : Inv own s) {req : Request} {receivedAt checkedAt : ℕ} {config : OIDCConfig}
    (hi : s.callbacks i = .checked req receivedAt flow config checkedAt)
    (hpassed : Passed s req receivedAt flow checkedAt) :
    Inv own { s.setCallback i (.exchanging req receivedAt flow config checkedAt) with
      exchanges := ⟨req.state, req.providerID, req.code, flow.pkceVerifier⟩ :: s.exchanges } := by
  have hunspent : (s.callbacks i).unspent = some flow := by rw [hi]; rfl
  have hst : Extends s { s.setCallback i (.exchanging req receivedAt flow config checkedAt) with
      exchanges := ⟨req.state, req.providerID, req.code, flow.pkceVerifier⟩ :: s.exchanges } :=
    ⟨le_rfl, fun _ ↦ id, fun _ ↦ List.mem_cons_of_mem _⟩
  refine ⟨h.single.exchange hunspent rfl hpassed.state.symm, h.past, ?_,
    fun x hx ↦ (h.bound.sessions x hx).imp (fun _ hr ↦ hr.mono hst), ?_, ?_, h.bound.redirects⟩
  · have hexchanged : Exchanged { s.setCallback i (.exchanging req receivedAt flow config checkedAt) with
        exchanges := ⟨req.state, req.providerID, req.code, flow.pkceVerifier⟩ :: s.exchanges } req flow :=
      ⟨_, List.mem_cons_self, rfl, rfl, rfl⟩
    exact callbacks_setCallback h.callbacks hst rfl ⟨hpassed.mono hst, hexchanged⟩
  · have hnew := h.single.unspent (some i) flow hunspent
    rw [hpassed.state] at hnew
    exact List.nodup_cons.mpr ⟨hnew, h.bound.once⟩
  · intro e he
    obtain rfl | he := List.mem_cons.mp he
    · obtain ⟨r, hr, rfl⟩ := hpassed.redirect
      exact ⟨r, hr, hpassed.state, hpassed.provider, rfl⟩
    · exact h.bound.exchanges e he

theorem Inv.issue (h : Inv own s) {x : Issued} {location : String} (hx : ∃ r, Binds own s x r) :
    Inv own { s.setCallback i (.redirected location) with sessions := x :: s.sessions } := by
  have hst : Extends s { s.setCallback i (.redirected location) with sessions := x :: s.sessions } :=
    ⟨le_rfl, fun _ ↦ id, fun _ ↦ id⟩
  have hset : Single (s.setCallback i (.redirected location)) :=
    h.single.setCallback (fun _ hflow ↦ by cases hflow)
  refine ⟨hset.sub hset.keyed rfl rfl (fun p _ hp ↦ by cases p <;> exact hp), h.past,
    callbacks_setCallback h.callbacks hst rfl trivial, fun y hy ↦ ?_, h.bound.once, h.bound.exchanges,
    h.bound.redirects⟩
  obtain rfl | hy := List.mem_cons.mp hy
  · exact hx.imp (fun _ hr ↦ hr.mono hst)
  · exact (h.bound.sessions y hy).imp (fun _ hr ↦ hr.mono hst)

theorem Inv.login (h : Inv own s) (browser : ℕ) (hnew : flow.state ∉ s.redirects.map (·.flow.state))
    (hpast : flow.createdAt ≤ s.now) :
    Inv own { s with states := s.states.store flow, redirects := ⟨browser, flow⟩ :: s.redirects } := by
  have hst : Extends s { s with states := s.states.store flow, redirects := ⟨browser, flow⟩ :: s.redirects } :=
    ⟨le_rfl, fun _ ↦ List.mem_cons_of_mem _, fun _ ↦ id⟩
  have hexchanges : ∀ e ∈ s.exchanges, ∃ r ∈ s.redirects, r.flow.state = e.state := by
    intro e he
    obtain ⟨r, hr, hstate, -⟩ := h.bound.exchanges e he
    exact ⟨r, hr, hstate⟩
  refine ⟨h.single.login hexchanges browser hnew, fun r hr ↦ ?_, fun j ↦ (h.callbacks j).mono hst,
    fun x hx ↦ (h.bound.sessions x hx).imp (fun _ hr ↦ hr.mono hst), h.bound.once, fun e he ↦ ?_,
    List.nodup_cons.mpr ⟨hnew, h.bound.redirects⟩⟩
  · obtain rfl | hr := List.mem_cons.mp hr
    · exact hpast
    · exact h.past r hr
  · obtain ⟨r, hr, hreq⟩ := h.bound.exchanges e he
    exact ⟨r, List.mem_cons_of_mem _ hr, hreq⟩

theorem inv_callbackStep {c : Callback} (h : Inv own s) (hi : s.callbacks i = c) (hok : own → PresentsOwn s a)
    (ha : ∀ j signed, a = .issue j signed → j = i) (hs : callbackStep server s i c a = some t) : Inv own t := by
  have hc := h.callbacks i
  rw [hi] at hc
  unfold callbackStep at hs
  split at hs
  · next req =>
    cases hs
    obtain ⟨hreq, hnone⟩ := callbackOk_receive (s := s) req
    exact h.setCallback hreq (fun flow hflow ↦ by rw [hnone] at hflow; cases hflow)
  · next req receivedAt _ =>
    split at hs <;> cases hs
    · exact h.setCallback trivial (fun _ hflow ↦ by cases hflow)
    · next flow hl =>
      have hstate : flow.state = req.state := h.single.keyed _ _ hl
      have hredirect := h.single.redirected none flow (by rw [Held, hstate]; exact hl)
      have hst : Extends s { s.setCallback i (.taken req receivedAt flow) with states := s.states.erase req.state } :=
        ⟨le_rfl, fun _ ↦ id, fun _ ↦ id⟩
      refine ⟨h.single.take hl, h.past, ?_, h.bound.frame hst rfl rfl rfl⟩
      exact callbacks_setCallback h.callbacks hst rfl ⟨hstate, hc, hredirect⟩
  · next req receivedAt flow _ =>
    cases hs
    obtain ⟨hstate, hreceived, r, hr, rfl⟩ := hc
    obtain ⟨hcheck, hunspent⟩ := callbackOk_check server hstate hreceived ⟨r, hr, rfl⟩ (h.past r hr)
    refine h.setCallback hcheck (fun flow' hflow ↦ ?_)
    rw [hi, hunspent flow' hflow]
    rfl
  · next req receivedAt flow config checkedAt _ =>
    cases hs
    exact h.exchange hi hc
  · next req receivedAt flow config checkedAt _ reply =>
    split at hs <;> cases hs
    · next user huser =>
      exact h.setCallback ⟨hc.1, hc.2, (handleCallback_ok huser).symm⟩ (fun _ hflow ↦ by cases hflow)
    · exact h.setCallback trivial (fun _ hflow ↦ by cases hflow)
  · next req receivedAt flow nonce user checkedAt j signed =>
    cases ha j signed rfl
    split at hs <;> cases hs
    · next hsigned =>
      subst hsigned
      obtain ⟨hpassed, hexchanged, hnonce⟩ := hc
      have hbinds := binds_issue hpassed hexchanged hnonce user (fun ho ↦ hok ho req (by rw [hi]; rfl))
      exact h.issue hbinds
    · exact h.setCallback trivial (fun _ hflow ↦ by cases hflow)
  · cases hs

theorem inv_step (h : Inv own s) (hok : own → PresentsOwn s a) (hs : step server s a = some t) : Inv own t := by
  have call : ∀ i, (∀ j signed, a = .issue j signed → j = i) → callbackStep server s i (s.callbacks i) a = some t →
      Inv own t := fun i ha hi ↦ inv_callbackStep h rfl hok ha hi
  cases a
  case login browser providerID state nonce pkceVerifier =>
    simp only [step] at hs
    split at hs
    · cases hs
      exact h
    · split at hs <;> cases hs
      next hnew => exact h.login browser hnew le_rfl
  case evict tick key =>
    simp only [step] at hs
    split at hs <;> cases hs
    have hst : Extends s { s with states := s.states.evict key tick } := ⟨le_rfl, fun _ ↦ id, fun _ ↦ id⟩
    exact ⟨h.single.evict key tick, h.past, fun j ↦ (h.callbacks j).mono hst, h.bound.frame hst rfl rfl rfl⟩
  case advance d =>
    cases hs
    have hst : Extends s { s with now := s.now + d } := ⟨Nat.le_add_right _ _, fun _ ↦ id, fun _ ↦ id⟩
    refine ⟨h.single.sub h.single.keyed rfl rfl (fun p _ hp ↦ by cases p <;> exact hp),
      fun r hr ↦ (h.past r hr).trans (Nat.le_add_right _ _), fun j ↦ (h.callbacks j).mono hst,
      h.bound.frame hst rfl rfl rfl⟩
  all_goals exact call _ (by simp) hs

/-- A session issued to a browser that the redirect was not sent to is bound to none. -/
theorem not_bound_of_foreign (h : Inv True s) (hbad : ¬ PresentsOwn s a) (hs : step server s a = some t) : ¬ Bound True t := by
  intro hbound
  cases a with
  | issue i signed =>
    cases signed with
    | false => exact hbad trivial
    | true =>
      change callbackStep server s i (s.callbacks i) _ = some t at hs
      cases hi : s.callbacks i with
      | accepted req receivedAt flow nonce user checkedAt =>
        rw [hi] at hs
        cases hs
        refine hbad (fun req' hreq r hr hstate ↦ ?_)
        rw [hi] at hreq
        cases hreq
        obtain ⟨r', hbinds⟩ := hbound.sessions _ List.mem_cons_self
        have hsame : r = r' :=
          List.inj_on_of_nodup_map h.bound.redirects hr hbinds.mem (hstate.trans hbinds.state.symm)
        rw [hsame]
        exact hbinds.browser trivial
      | _ => exact hbad (fun req' hreq ↦ by rw [hi] at hreq; cases hreq)
  | _ => exact hbad trivial

/-- In every run a session goes back to one redirect, for its provider and in time, with its verifier and nonce, and no
state is exchanged twice. The redirects were sent to the browsers that present the callbacks exactly in the runs where
no callback that has its tokens was sent by another browser than the redirect with its state. -/
theorem bound_throughout_iff (server : Server) (now : ℕ) (as : List Act) :
    Throughout (step server) (Bound False) (init now) as ∧
      (Throughout (step server) (Bound True) (init now) as ↔ EachStep (step server) PresentsOwn (init now) as) := by
  constructor
  · exact (throughout_of_step (I := Inv False) (fun _ _ _ h hs ↦ inv_step h False.elim hs) (inv_init now) as).mono
      (fun _ h ↦ h.bound)
  · exact throughout_iff_eachStep (fun _ h ↦ h.bound) (fun _ _ _ h hok hs ↦ inv_step h (fun _ ↦ hok) hs)
      (fun _ _ _ h hbad hs ↦ not_bound_of_foreign h hbad hs) (inv_init now) as

section Run

def corp : Server where
  getOIDC id := if id = "corp" then some { id := "corp", usernameClaim := "email" } else none
  toLower := Char.toLower

def mallory : IDToken where
  nonce := "n"
  subject := "mallory"
  claims := some { email := "mallory@corp", emailVerified := true }
  rawClaims := none

/-- Browser 0 starts a login, and browser 1 presents the callback with its state and code. -/
def loginCSRF : List Act :=
  [.login 0 "corp" "s" "n" "v", .receive 0 ⟨1, "corp", "", "s", "c"⟩, .take 0, .check 0, .exchange 0,
    .reply 0 (.ok mallory), .issue 0 true]

theorem loginCSRF_issued :
    (exec (step corp) (init 0) loginCSRF).map (fun s ↦
      (s.sessions.map (fun x ↦ (x.req.state, x.req.browser)), s.redirects.map (fun r ↦ (r.flow.state, r.browser)))) =
      some ([("s", 1)], [("s", 0)]) := by
  decide

theorem not_bound_throughout : ¬ ∀ server now as, Throughout (step server) (Bound True) (init now) as := by
  intro h
  obtain ⟨s, hs, he⟩ := Option.map_eq_some_iff.mp loginCSRF_issued
  have hbound := (h corp 0 loginCSRF).last hs
  obtain ⟨hsessions, hredirects⟩ := Prod.mk.inj he
  have hissued : ("s", 1) ∈ s.sessions.map (fun x ↦ (x.req.state, x.req.browser)) := by simp [hsessions]
  obtain ⟨x, hx, hreq⟩ := List.mem_map.mp hissued
  obtain ⟨r, hbinds⟩ := hbound.sessions x hx
  have hsent : (r.flow.state, r.browser) ∈ s.redirects.map (fun r ↦ (r.flow.state, r.browser)) :=
    List.mem_map_of_mem hbinds.mem
  have hzero : r.browser = 0 := by
    rw [hredirects] at hsent
    simp at hsent
    exact hsent.2
  have hone : x.req.browser = 1 := (Prod.mk.inj hreq).2
  have hsame := hbinds.browser trivial
  omega

end Run

end KubeCenter.Auth.OidcBinding
