import KubeCenter.Auth.RefreshProtocol

/-! One browser tab of the web client: `api` calls that share one refresh, and WebSocket reconnects
that each send their own, with the same cookie. -/

namespace KubeCenter.Auth.TabProtocol

open KubeCenter.Core Function

inductive Sender
  | api
  | ws
  deriving DecidableEq

/-- A refresh of the tab: on its way, answered as far as the browser knows, taken in by the code that
sent it. -/
inductive Refresh
  | unsent
  | sent (sender : Sender)
  | arrived (sender : Sender) (answer : Response)
  | settled (sender : Sender) (refreshed : Bool)

/-- Where one call of `api` stands; `loggedOut` is the redirect to `/login`. -/
inductive ApiCall
  | idle
  | sent
  | waiting (refresh : ℕ)
  | retrying
  | returned
  | loggedOut
  deriving DecidableEq

/-- The tab with its cookie jar, and the server. Refreshes go by the numbers of the handlers that serve them.
`minted` is the token in the cookie that a handler's answer sets; `newest` is history, the last token of the
tab's session. -/
structure State where
  server : RefreshProtocol.State
  jar : Option String
  accessToken : Option AccessToken := none
  refreshPromise : Option ℕ := none
  calls : ℕ → ApiCall := fun _ ↦ .idle
  refreshes : ℕ → Refresh := fun _ ↦ .unsent
  inFlight : List ℕ := []
  minted : ℕ → Option String := fun _ ↦ none
  newest : String

/-- `respond` and `unauthorized` answer the first request of a call, `retried` its second; `settle` is what
`refreshAccessToken` or `refreshTokenForWS` does with the answer. -/
inductive Act
  | call (c : ℕ)
  | respond (c : ℕ)
  | unauthorized (c i : ℕ)
  | reconnect (i : ℕ)
  | serve (b : RefreshProtocol.Act)
  | arrive (i : ℕ)
  | settle (i : ℕ)
  | resume (c : ℕ)
  | retried (c : ℕ)

def Refresh.sender : Refresh → Option Sender
  | .unsent => none
  | .sent sender | .arrived sender _ | .settled sender _ => some sender

namespace State

variable (s : State)

def setCall (c : ℕ) (call : ApiCall) : State := { s with calls := update s.calls c call }

/-- `POST /auth/refresh`, with the cookie that the jar has now. -/
def send (sender : Sender) (i : ℕ) : Option State :=
  match s.refreshes i with
  | .unsent =>
    (RefreshProtocol.step s.server (.request i ⟨s.jar, none⟩)).map (fun server ↦
      { s with server, refreshes := update s.refreshes i (.sent sender), inFlight := i :: s.inFlight })
  | _ => none

/-- The token that a step of the server mints for a refresh of the tab. -/
def mintedBy : RefreshProtocol.Act → Option (ℕ × String)
  | .store i (some t) =>
    match s.server.handlers i with
    | .storing _ _ _ _ => if i ∈ s.inFlight then some (i, t) else none
    | _ => none
  | _ => none

def serve (b : RefreshProtocol.Act) (server : RefreshProtocol.State) : State :=
  match s.mintedBy b with
  | some (i, t) => { s with server, minted := update s.minted i (some t), newest := t }
  | none => { s with server }

/-- The browser has the answer to refresh `i`, and the cookie with it. -/
def arrive (sender : Sender) (i : ℕ) (answer : Response) : State :=
  { s with
    refreshes := update s.refreshes i (.arrived sender answer)
    inFlight := s.inFlight.erase i
    jar := (s.minted i).or s.jar }

def settle (sender : Sender) (i : ℕ) (answer : Response) : State :=
  { s with
    refreshes := update s.refreshes i (.settled sender answer.access.isSome)
    accessToken := answer.access.or s.accessToken
    refreshPromise := if sender = .api then none else s.refreshPromise }

end State

def step (s : State) (a : Act) : Option State :=
  match a with
  | .call c => if s.calls c = .idle then some (s.setCall c .sent) else none
  | .respond c => if s.calls c = .sent then some (s.setCall c .returned) else none
  | .unauthorized c i =>
    if s.calls c = .sent then
      match s.refreshPromise with
      | some j => some (s.setCall c (.waiting j))
      | none => (s.send .api i).map (fun s ↦ { s.setCall c (.waiting i) with refreshPromise := some i })
    else none
  | .reconnect i => s.send .ws i
  | .serve b => (RefreshProtocol.step s.server b).map (s.serve b)
  | .arrive i =>
    match s.refreshes i, s.server.handlers i with
    | .sent sender, .answered _ answer => some (s.arrive sender i answer)
    | .sent sender, .refused => some (s.arrive sender i (.error 401 "missing refresh token"))
    | _, _ => none
  | .settle i =>
    match s.refreshes i with
    | .arrived sender answer => some (s.settle sender i answer)
    | _ => none
  | .resume c =>
    match s.calls c with
    | .waiting i =>
      match s.refreshes i with
      | .settled _ true => some (s.setCall c .retrying)
      | .settled _ false => some { s.setCall c .loggedOut with accessToken := none }
      | _ => none
    | _ => none
  | .retried c => if s.calls c = .retrying then some (s.setCall c .returned) else none

/-- A tab right after the login of `user`. -/
def init (now : ℕ) (user : User) (token : String) : State where
  server := (RefreshProtocol.init now).storeSession user token now
  jar := some token
  newest := token

/-- No call has sent the user back to the login page, and one refresh at most is outstanding. -/
def Kept (s : State) : Prop := (∀ c, s.calls c ≠ .loggedOut) ∧ s.inFlight.length ≤ 1

/-- A rotation that takes the session's row is of the tab, and the row has not expired. -/
def RotatesInTime (s : State) (i : ℕ) : RefreshProtocol.Handler → Prop
  | .presented p => p.token = s.newest → i ∈ s.inFlight ∧
      ∀ session ∈ s.server.sessions.lookup p.token, s.server.now ≤ session.expiresAt
  | _ => True

/-- The session is neither revoked nor expired: only the tab's own refreshes take its row, and in time. -/
def SessionValid (s : State) : Act → Prop
  | .serve (.logout cookie) => cookie ≠ some s.newest
  | .serve .sweepDelete => ∀ x ∈ s.server.sweep, x.2 ≠ some s.newest
  | .serve (.rotate i) => RotatesInTime s i (s.server.handlers i)
  | _ => True

/-- The user is found; for a reconnect it may fail with the session given back. -/
def ResolvesFor (sender : Option Sender) : Resolution → Prop
  | .user _ _ _ => True
  | .fail restore _ _ _ => restore = true ∧ sender = some .ws

def Resolves (s : State) (i : ℕ) (reg : AuthRegistry) : RefreshProtocol.Handler → Prop
  | .resolving _ session =>
    i ∈ s.inFlight → ResolvesFor (s.refreshes i).sender (resolveUser reg session s.server.now)
  | _ => True

/-- The server can serve what the tab sends: it finds the user and issues tokens. It may fail for a reconnect where it
gives the session back. -/
def Served (s : State) : Act → Prop
  | .serve (.resolve i reg) => Resolves s i reg (s.server.handlers i)
  | .serve (.sign i signed) => i ∈ s.inFlight → signed = true ∨ (s.refreshes i).sender = some .ws
  | .serve (.store i token) => i ∈ s.inFlight → token ≠ none ∨ (s.refreshes i).sender = some .ws
  | _ => True

/-- No refresh is sent while another one is outstanding. -/
def NoOverlap (s : State) : Act → Prop
  | .unauthorized _ _ => s.refreshPromise = none → s.inFlight = []
  | .reconnect _ => s.inFlight = []
  | _ => True

instance (s : State) (i : ℕ) (h : RefreshProtocol.Handler) : Decidable (RotatesInTime s i h) := by
  cases h with
  | presented p => exact inferInstanceAs (Decidable (_ → i ∈ s.inFlight ∧ ∀ session ∈ _, _))
  | _ => exact .isTrue trivial

instance (s : State) (a : Act) : Decidable (SessionValid s a) := by
  cases a with
  | serve b =>
    cases b with
    | logout cookie => exact inferInstanceAs (Decidable (cookie ≠ some s.newest))
    | sweepDelete => exact inferInstanceAs (Decidable (∀ x ∈ s.server.sweep, x.2 ≠ some s.newest))
    | rotate i => exact inferInstanceAs (Decidable (RotatesInTime s i (s.server.handlers i)))
    | _ => exact .isTrue trivial
  | _ => exact .isTrue trivial

instance (sender : Option Sender) (r : Resolution) : Decidable (ResolvesFor sender r) := by
  cases r with
  | user user lastRevalidated detail => exact .isTrue trivial
  | fail restore code message detail => exact inferInstanceAs (Decidable (restore = true ∧ sender = some .ws))

instance (s : State) (i : ℕ) (reg : AuthRegistry) (h : RefreshProtocol.Handler) : Decidable (Resolves s i reg h) := by
  cases h with
  | resolving p session => exact inferInstanceAs (Decidable (i ∈ s.inFlight → ResolvesFor _ _))
  | _ => exact .isTrue trivial

instance (s : State) (a : Act) : Decidable (Served s a) := by
  cases a with
  | serve b =>
    cases b with
    | resolve i reg => exact inferInstanceAs (Decidable (Resolves s i reg (s.server.handlers i)))
    | sign i signed => exact inferInstanceAs (Decidable (i ∈ s.inFlight → signed = true ∨ _))
    | store i token => exact inferInstanceAs (Decidable (i ∈ s.inFlight → token ≠ none ∨ _))
    | _ => exact .isTrue trivial
  | _ => exact .isTrue trivial

instance (s : State) (a : Act) : Decidable (NoOverlap s a) := by
  cases a with
  | unauthorized c i => exact inferInstanceAs (Decidable (s.refreshPromise = none → s.inFlight = []))
  | reconnect i => exact inferInstanceAs (Decidable (s.inFlight = []))
  | _ => exact .isTrue trivial

variable {s t : State} {a : Act} {b : RefreshProtocol.Act} {server : RefreshProtocol.State} {i : ℕ}

/-- The jar has the newest token, and refresh `i` has brought none. -/
def Before (s : State) (i : ℕ) : Prop := s.jar = some s.newest ∧ s.minted i = none

/-- Where the only refresh is with the server, and where the session's row is meanwhile. Reconnects alone may fail. -/
def Phase (s : State) (i : ℕ) : RefreshProtocol.Handler → Prop
  | .presented p => p.token = s.newest ∧ Before s i ∧ RefreshProtocol.HasRow s.server s.newest
  | .resolving _ session | .signing _ session _ _ | .storing _ session _ _ =>
    session.token = s.newest ∧ Before s i
  | .restoring _ session _ _ => session.token = s.newest ∧ Before s i ∧ (s.refreshes i).sender = some .ws
  | .answered _ (.tokens _ _ _ _) => s.minted i = some s.newest ∧ RefreshProtocol.HasRow s.server s.newest
  | .answered _ (.error _ _) =>
    Before s i ∧ RefreshProtocol.HasRow s.server s.newest ∧ (s.refreshes i).sender = some .ws
  | .idle | .refused => False

structure Inv (s : State) : Prop where
  named : s.newest ≠ ""
  rest : s.inFlight = [] → s.jar = some s.newest ∧ RefreshProtocol.HasRow s.server s.newest
  flight : ∀ i ∈ s.inFlight, s.inFlight = [i] ∧ (∃ k, s.refreshes i = .sent k) ∧ Phase s i (s.server.handlers i)
  sent : ∀ i k, s.refreshes i = .sent k → i ∈ s.inFlight
  unsent : ∀ i, s.refreshes i = .unsent → s.minted i = none
  arrived : ∀ i answer, s.refreshes i = .arrived .api answer → answer.access.isSome
  settled : ∀ i refreshed, s.refreshes i = .settled .api refreshed → refreshed = true
  promise : ∀ i, s.refreshPromise = some i → (s.refreshes i).sender = some .api
  waiting : ∀ c i, s.calls c = .waiting i → (s.refreshes i).sender = some .api
  calls : ∀ c, s.calls c ≠ .loggedOut

theorem Inv.kept (h : Inv s) : Kept s := by
  refine ⟨h.calls, ?_⟩
  cases hf : s.inFlight with
  | nil => exact Nat.zero_le 1
  | cons i rest =>
    have hsole := (h.flight i (by rw [hf]; exact List.mem_cons_self)).1
    rw [← hf, hsole]
    exact le_rfl

theorem hasRow_storeSession (r : RefreshProtocol.State) (user : User) (token : String) (lastRevalidated : ℕ) :
    RefreshProtocol.HasRow (r.storeSession user token lastRevalidated) token :=
  ⟨_, SessionStore.lookup_store (newSession user token lastRevalidated r.now), rfl⟩

theorem inv_init (now : ℕ) (user : User) {token : String} (h : token ≠ "") : Inv (init now user token) where
  named := h
  rest _ := ⟨rfl, hasRow_storeSession _ user token now⟩
  flight _ hi := by cases hi
  sent _ _ hi := by cases hi
  unsent _ _ := rfl
  arrived _ _ hi := by cases hi
  settled _ _ hi := by cases hi
  promise _ hi := by cases hi
  waiting _ _ hi := by cases hi
  calls _ := by simp [init]

/-! The server's steps. -/

/-- A step of the server that mints nothing for the tab. -/
theorem serve_of_none (h : s.mintedBy b = none) : s.serve b server = { s with server } := by
  rw [State.serve, h]

/-- The row of the session stays through the steps that are no rotation of the tab's. -/
theorem hasRow_serve (hvalid : SessionValid s (.serve b)) (hrow : RefreshProtocol.HasRow s.server s.newest)
    (hown : ∀ i ∈ s.inFlight, b.handler ≠ some i) (hs : RefreshProtocol.step s.server b = some server) :
    RefreshProtocol.HasRow server s.newest := by
  refine RefreshProtocol.hasRow_step hrow (fun ht ↦ ?_) hs
  cases b with
  | rotate i =>
    obtain ⟨p, hi, htoken⟩ := ht
    simp only [SessionValid, RotatesInTime, hi] at hvalid
    exact hown i (hvalid htoken).1 rfl
  | logout cookie => exact hvalid ht
  | sweepDelete =>
    obtain ⟨now, hsweep⟩ := ht
    exact hvalid _ hsweep rfl
  | _ => exact ht

theorem mintedBy_of_not_own (hown : ∀ i ∈ s.inFlight, b.handler ≠ some i) : s.mintedBy b = none := by
  cases b with
  | store i token =>
    cases token with
    | none => rfl
    | some t =>
      unfold State.mintedBy
      dsimp only
      split
      · exact if_neg (fun hi ↦ hown i hi rfl)
      · rfl
  | _ => rfl

theorem Phase.frame {server : RefreshProtocol.State} {h : RefreshProtocol.Handler} (hp : Phase s i h)
    (hrow : RefreshProtocol.HasRow s.server s.newest → RefreshProtocol.HasRow server s.newest) :
    Phase { s with server } i h := by
  cases h with
  | presented p => exact ⟨hp.1, hp.2.1, hrow hp.2.2⟩
  | answered p answer =>
    cases answer with
    | error code message => exact ⟨hp.1, hrow hp.2.1, hp.2.2⟩
    | tokens access expiresIn refreshToken refreshExpiresIn => exact ⟨hp.1, hrow hp.2⟩
  | _ => exact hp

theorem Phase.of_eq {h : RefreshProtocol.Handler} (hp : Phase s i h) (hserver : t.server = s.server)
    (hnewest : t.newest = s.newest) (hjar : t.jar = s.jar) (hminted : t.minted i = s.minted i)
    (hsender : (t.refreshes i).sender = (s.refreshes i).sender) : Phase t i h := by
  unfold Phase Before at hp ⊢
  rwa [hserver, hnewest, hjar, hminted, hsender]

/-- The server takes a step of its own, or one for somebody else. -/
theorem Inv.serve_other (h : Inv s) (hvalid : SessionValid s (.serve b))
    (hown : ∀ i ∈ s.inFlight, b.handler ≠ some i) (hs : RefreshProtocol.step s.server b = some server) :
    Inv (s.serve b server) := by
  rw [serve_of_none (mintedBy_of_not_own hown)]
  refine ⟨h.named, fun hf ↦ ?_, fun i hi ↦ ?_, h.sent, h.unsent, h.arrived, h.settled, h.promise, h.waiting, h.calls⟩
  · obtain ⟨hjar, hrow⟩ := h.rest hf
    exact ⟨hjar, hasRow_serve (s := s) hvalid hrow hown hs⟩
  · obtain ⟨hsole, hsent, hphase⟩ := h.flight i hi
    refine ⟨hsole, hsent, ?_⟩
    change Phase { s with server } i (server.handlers i)
    rw [RefreshProtocol.handlers_step_ne (hown i hi) hs]
    exact hphase.frame (fun hrow ↦ hasRow_serve (s := s) hvalid hrow hown hs)

theorem Inv.serve_phase (h : Inv s) (hi : i ∈ s.inFlight) (hnone : s.mintedBy b = none)
    (hphase : Phase { s with server } i (server.handlers i)) : Inv (s.serve b server) := by
  rw [serve_of_none hnone]
  obtain ⟨hsole, hsent, -⟩ := h.flight i hi
  refine ⟨h.named, fun hf ↦ ?_, fun j hj ↦ ?_, h.sent, h.unsent, h.arrived, h.settled, h.promise, h.waiting, h.calls⟩
  · dsimp only at hf
    rw [hf] at hi
    cases hi
  · dsimp only at hj
    rw [hsole, List.mem_singleton] at hj
    subst hj
    exact ⟨hsole, hsent, hphase⟩

/-- The tab's refresh gets its tokens: their row is the session's from now on. -/
theorem Inv.serve_mint (h : Inv s) (hi : i ∈ s.inFlight) {u : String} (hu : u ≠ "")
    (hmint : s.mintedBy b = some (i, u)) (hrow : RefreshProtocol.HasRow server u)
    (hhandler : ∃ p access expiresIn refreshToken refreshExpiresIn,
      server.handlers i = .answered p (.tokens access expiresIn refreshToken refreshExpiresIn)) :
    Inv (s.serve b server) := by
  obtain ⟨hsole, ⟨k, hsent⟩, -⟩ := h.flight i hi
  have hserve : s.serve b server = { s with server, minted := update s.minted i (some u), newest := u } := by
    rw [State.serve, hmint]
  rw [hserve]
  refine ⟨hu, fun hf ↦ ?_, fun j hj ↦ ?_, h.sent, fun j hj ↦ ?_, h.arrived, h.settled, h.promise, h.waiting, h.calls⟩
  · dsimp only at hf
    rw [hf] at hi
    cases hi
  · dsimp only at hj
    rw [hsole, List.mem_singleton] at hj
    subst hj
    refine ⟨hsole, ⟨k, hsent⟩, ?_⟩
    obtain ⟨p, access, expiresIn, refreshToken, refreshExpiresIn, hanswer⟩ := hhandler
    dsimp only
    rw [hanswer]
    exact ⟨update_self .., hrow⟩
  · have hne : j ≠ i := by
      rintro rfl
      rw [hsent] at hj
      cases hj
    dsimp only
    rw [update_of_ne hne]
    exact h.unsent j hj

theorem Inv.serve_own (h : Inv s) (hi : i ∈ s.inFlight) (hb : b.handler = some i)
    (hvalid : SessionValid s (.serve b)) (hserved : Served s (.serve b))
    (hs : RefreshProtocol.step s.server b = some server) : Inv (s.serve b server) := by
  obtain ⟨-, -, hphase⟩ := h.flight i hi
  cases b with
  | request j r =>
    cases hb
    simp only [RefreshProtocol.step] at hs
    cases hh : s.server.handlers i with
    | idle =>
      rw [hh] at hphase
      exact hphase.elim
    | _ => simp [hh, RefreshProtocol.handlerStep] at hs
  | rotate j =>
    cases hb
    simp only [RefreshProtocol.step] at hs
    cases hh : s.server.handlers i with
    | presented p =>
      rw [hh] at hphase hs
      obtain ⟨htoken, hbefore, session, hlookup, hsession⟩ := hphase
      simp only [SessionValid, RotatesInTime, hh] at hvalid
      rw [← htoken] at hlookup
      have hnow := (hvalid htoken).2 session hlookup
      have hrotate : (s.server.sessions.rotate p.token s.server.now).1 = .ok session := by
        simp [SessionStore.rotate, hlookup, not_lt.mpr hnow]
      simp only [RefreshProtocol.handlerStep, hrotate] at hs
      cases hs
      refine h.serve_phase hi rfl ?_
      simp only [RefreshProtocol.State.setHandler, update_self]
      exact ⟨hsession, hbefore⟩
    | _ => simp [hh, RefreshProtocol.handlerStep] at hs
  | resolve j reg =>
    cases hb
    simp only [RefreshProtocol.step] at hs
    cases hh : s.server.handlers i with
    | resolving p session =>
      rw [hh] at hphase hs
      simp only [Served, Resolves, hh] at hserved
      have hcan := hserved hi
      simp only [RefreshProtocol.handlerStep] at hs
      cases hr : resolveUser reg session s.server.now with
      | user user lastRevalidated detail =>
        rw [hr] at hs
        cases hs
        refine h.serve_phase hi rfl ?_
        simp only [RefreshProtocol.State.setHandler, update_self]
        exact hphase
      | fail restore code message detail =>
        rw [hr] at hs hcan
        obtain ⟨rfl, hws⟩ := hcan
        cases hs
        refine h.serve_phase hi rfl ?_
        simp only [RefreshProtocol.State.setHandler, update_self]
        exact ⟨hphase.1, hphase.2, hws⟩
    | _ => simp [hh, RefreshProtocol.handlerStep] at hs
  | sign j signed =>
    cases hb
    simp only [RefreshProtocol.step] at hs
    cases hh : s.server.handlers i with
    | signing p session user lastRevalidated =>
      rw [hh] at hphase hs
      simp only [RefreshProtocol.handlerStep] at hs
      split at hs <;> cases hs <;> refine h.serve_phase hi rfl ?_ <;>
        simp only [RefreshProtocol.State.setHandler, update_self]
      · exact hphase
      · next hsigned => exact ⟨hphase.1, hphase.2, (hserved hi).resolve_left hsigned⟩
    | _ => simp [hh, RefreshProtocol.handlerStep] at hs
  | store j token =>
    cases hb
    simp only [RefreshProtocol.step] at hs
    cases hh : s.server.handlers i with
    | storing p session access lastRevalidated =>
      rw [hh] at hphase hs
      cases token with
      | none =>
        cases hs
        refine h.serve_phase hi rfl ?_
        simp only [RefreshProtocol.State.setHandler, update_self]
        exact ⟨hphase.1, hphase.2, (hserved hi).resolve_left (fun hn ↦ hn rfl)⟩
      | some u =>
        simp only [RefreshProtocol.handlerStep] at hs
        split at hs <;> cases hs
        next hfresh =>
        have hmint : s.mintedBy (.store i (some u)) = some (i, u) := by
          simp [State.mintedBy, hh, hi]
        refine h.serve_mint hi hfresh.2.2 hmint (hasRow_storeSession s.server access.user u lastRevalidated) ?_
        simp only [RefreshProtocol.State.setHandler, update_self]
        unfold refreshAnswer
        split <;> exact ⟨_, _, _, _, _, rfl⟩
    | _ => simp [hh, RefreshProtocol.handlerStep] at hs
  | restore j =>
    cases hb
    simp only [RefreshProtocol.step] at hs
    cases hh : s.server.handlers i with
    | restoring p session code message =>
      rw [hh] at hphase hs
      obtain ⟨htoken, hbefore, hws⟩ := hphase
      cases hs
      refine h.serve_phase hi rfl ?_
      simp only [RefreshProtocol.State.setHandler, update_self]
      refine ⟨hbefore, ⟨session, ?_, htoken⟩, hws⟩
      have hne : session.token ≠ "" := htoken ▸ h.named
      dsimp only
      rw [← htoken]
      exact SessionStore.lookup_restore_self hne
    | _ => simp [hh, RefreshProtocol.handlerStep] at hs
  | _ => cases hb

/-! The tab's own steps. -/

theorem Inv.setCall (h : Inv s) (c : ℕ) {call : ApiCall} (hcall : call ≠ .loggedOut)
    (hwaiting : ∀ i, call = .waiting i → (s.refreshes i).sender = some .api) : Inv (s.setCall c call) := by
  refine ⟨h.named, h.rest, h.flight, h.sent, h.unsent, h.arrived, h.settled, h.promise, fun d i hd ↦ ?_, fun d ↦ ?_⟩
  · dsimp only [State.setCall] at hd
    by_cases hdc : d = c
    · subst hdc
      rw [update_self] at hd
      exact hwaiting i hd
    · rw [update_of_ne hdc] at hd
      exact h.waiting d i hd
  · dsimp only [State.setCall]
    by_cases hdc : d = c
    · subst hdc
      rwa [update_self]
    · rw [update_of_ne hdc]
      exact h.calls d

theorem step_request {r : RefreshProtocol.State} {token : String}
    (hs : RefreshProtocol.step r (.request i ⟨some token, none⟩) = some server) :
    server = r.setHandler i (.presented ⟨token, false⟩) := by
  simp only [RefreshProtocol.step] at hs
  cases hh : r.handlers i with
  | idle =>
    rw [hh] at hs
    exact (Option.some.inj hs).symm
  | _ => simp [hh, RefreshProtocol.handlerStep] at hs

theorem sender_update {refresh : Refresh} (hold : (s.refreshes i).sender = none ∨
    (s.refreshes i).sender = refresh.sender) {j : ℕ} (hj : (s.refreshes j).sender = some .api) :
    (update s.refreshes i refresh j).sender = some .api := by
  by_cases hji : j = i
  · subst hji
    rw [update_self]
    rcases hold with hold | hold
    · rw [hold] at hj
      cases hj
    · rw [← hold, hj]
  · rw [update_of_ne hji]
    exact hj

/-- What another refresh of the tab is, or this one for another reason. -/
theorem of_update {refresh new : Refresh} {j : ℕ} (hj : update s.refreshes i new j = refresh) (hne : new ≠ refresh) :
    s.refreshes j = refresh := by
  by_cases hji : j = i
  · subst hji
    rw [update_self] at hj
    exact absurd hj hne
  · rwa [update_of_ne hji] at hj

/-- A refresh is sent while none is outstanding: it presents the session's token. -/
theorem Inv.send (h : Inv s) {sender : Sender} (hnone : s.inFlight = []) (hs : s.send sender i = some t) :
    Inv t ∧ t.calls = s.calls ∧ t.refreshPromise = s.refreshPromise ∧ (t.refreshes i).sender = some sender := by
  obtain ⟨hjar, hrow⟩ := h.rest hnone
  unfold State.send at hs
  cases hr : s.refreshes i with
  | unsent =>
    simp only [hr, Option.map_eq_some_iff] at hs
    obtain ⟨server, hserver, rfl⟩ := hs
    rw [hjar] at hserver
    obtain rfl := step_request hserver
    have hunsent : (s.refreshes i).sender = none := by rw [hr]; rfl
    refine ⟨?_, rfl, rfl, by simp [Refresh.sender]⟩
    refine ⟨h.named, fun hf ↦ (by cases hf), fun j hj ↦ ?_, fun j k hj ↦ ?_, fun j hj ↦ ?_, fun j answer hj ↦ ?_,
      fun j refreshed hj ↦ ?_, fun j hj ↦ sender_update (.inl hunsent) (h.promise j hj),
      fun c j hj ↦ sender_update (.inl hunsent) (h.waiting c j hj), h.calls⟩
    · dsimp only at hj ⊢
      rw [hnone, List.mem_singleton] at hj
      subst hj
      refine ⟨by rw [hnone], ⟨sender, update_self ..⟩, ?_⟩
      simp only [RefreshProtocol.State.setHandler, update_self]
      exact ⟨rfl, ⟨hjar, h.unsent j hr⟩, hrow⟩
    · by_cases hji : j = i
      · subst hji
        exact List.mem_cons_self
      · exact List.mem_cons_of_mem _ (h.sent j k ((update_of_ne hji ..).symm.trans hj))
    · exact h.unsent j (of_update hj (by simp))
    · exact h.arrived j answer (of_update hj (by simp))
    · exact h.settled j refreshed (of_update hj (by simp))
  | _ => simp [hr] at hs

/-- The answer to the only refresh arrives: a call's refresh has been served. -/
theorem Inv.arrive (h : Inv s) {sender : Sender} {p : Presented} {answer : Response}
    (hsent : s.refreshes i = .sent sender) (hhandler : s.server.handlers i = .answered p answer) :
    Inv (s.arrive sender i answer) := by
  have hi := h.sent i sender hsent
  obtain ⟨hsole, -, hphase⟩ := h.flight i hi
  rw [hhandler] at hphase
  have hempty : s.inFlight.erase i = [] := by rw [hsole, List.erase_cons_head]
  have hsame : (s.refreshes i).sender = (Refresh.arrived sender answer).sender := by rw [hsent]; rfl
  have hgot : (s.minted i).or s.jar = some s.newest ∧ RefreshProtocol.HasRow s.server s.newest ∧
      (sender = .api → answer.access.isSome) := by
    cases answer with
    | error code message =>
      obtain ⟨⟨hjar, hminted⟩, hrow, hws⟩ := hphase
      refine ⟨by rw [hminted, hjar]; rfl, hrow, ?_⟩
      rintro rfl
      rw [hsent] at hws
      cases hws
    | tokens access expiresIn refreshToken refreshExpiresIn =>
      exact ⟨by rw [hphase.1]; rfl, hphase.2, fun _ ↦ rfl⟩
  refine ⟨h.named, fun _ ↦ ⟨hgot.1, hgot.2.1⟩, fun j hj ↦ ?_, fun j k hj ↦ ?_, fun j hj ↦ ?_, fun j answer' hj ↦ ?_,
    fun j refreshed hj ↦ ?_, fun j hj ↦ sender_update (.inr hsame) (h.promise j hj),
    fun c j hj ↦ sender_update (.inr hsame) (h.waiting c j hj), h.calls⟩
  · dsimp only [State.arrive] at hj
    rw [hempty] at hj
    cases hj
  · have hold := h.sent j k (of_update hj (by simp))
    rw [hsole, List.mem_singleton] at hold
    subst hold
    dsimp only [State.arrive] at hj
    rw [update_self] at hj
    cases hj
  · exact h.unsent j (of_update hj (by simp))
  · by_cases hji : j = i
    · subst hji
      dsimp only [State.arrive] at hj
      rw [update_self] at hj
      cases hj
      exact hgot.2.2 rfl
    · exact h.arrived j answer' ((update_of_ne hji ..).symm.trans hj)
  · exact h.settled j refreshed (of_update hj (by simp))

theorem Inv.settle (h : Inv s) {sender : Sender} {answer : Response} (harrived : s.refreshes i = .arrived sender answer) :
    Inv (s.settle sender i answer) := by
  have hsame : (s.refreshes i).sender = (Refresh.settled sender answer.access.isSome).sender := by
    rw [harrived]
    rfl
  refine ⟨h.named, h.rest, fun j hj ↦ ?_, fun j k hj ↦ h.sent j k (of_update hj (by simp)),
    fun j hj ↦ h.unsent j (of_update hj (by simp)), fun j answer' hj ↦ h.arrived j answer' (of_update hj (by simp)),
    fun j refreshed hj ↦ ?_, fun j hj ↦ ?_, fun c j hj ↦ sender_update (.inr hsame) (h.waiting c j hj), h.calls⟩
  · obtain ⟨hsole, ⟨k, hsent⟩, hphase⟩ := h.flight j hj
    have hne : j ≠ i := by
      rintro rfl
      rw [hsent] at harrived
      cases harrived
    have hkeep : (s.settle sender i answer).refreshes j = s.refreshes j := update_of_ne hne ..
    exact ⟨hsole, ⟨k, hkeep.trans hsent⟩, hphase.of_eq rfl rfl rfl rfl (by rw [hkeep])⟩
  · by_cases hji : j = i
    · subst hji
      dsimp only [State.settle] at hj
      rw [update_self] at hj
      cases hj
      exact h.arrived j answer harrived
    · exact h.settled j refreshed ((update_of_ne hji ..).symm.trans hj)
  · dsimp only [State.settle] at hj
    split at hj
    · cases hj
    · exact sender_update (.inr hsame) (h.promise j hj)

theorem inv_step (h : Inv s) (hvalid : SessionValid s a) (hserved : Served s a) (hok : NoOverlap s a)
    (hs : step s a = some t) : Inv t := by
  cases a with
  | call c =>
    simp only [step] at hs
    split at hs <;> cases hs
    exact h.setCall c (by simp) (fun _ hi ↦ by cases hi)
  | respond c =>
    simp only [step] at hs
    split at hs <;> cases hs
    exact h.setCall c (by simp) (fun _ hi ↦ by cases hi)
  | retried c =>
    simp only [step] at hs
    split at hs <;> cases hs
    exact h.setCall c (by simp) (fun _ hi ↦ by cases hi)
  | unauthorized c i =>
    simp only [step] at hs
    split at hs
    · split at hs
      · next j hj =>
        cases hs
        refine h.setCall c (by simp) (fun k hk ↦ ?_)
        cases hk
        exact h.promise _ hj
      · next hnone =>
        obtain ⟨u, hu, rfl⟩ := Option.map_eq_some_iff.mp hs
        obtain ⟨hinv, -, -, hsender⟩ := h.send (hok hnone) hu
        have hset : Inv (u.setCall c (.waiting i)) := by
          refine hinv.setCall c (by simp) (fun k hk ↦ ?_)
          cases hk
          exact hsender
        refine ⟨hset.named, hset.rest, hset.flight, hset.sent, hset.unsent, hset.arrived, hset.settled,
          fun j hj ↦ ?_, hset.waiting, hset.calls⟩
        cases hj
        exact hsender
    · cases hs
  | reconnect i => exact (h.send hok hs).1
  | serve b =>
    obtain ⟨server, hserver, rfl⟩ := Option.map_eq_some_iff.mp hs
    by_cases hown : ∃ i ∈ s.inFlight, b.handler = some i
    · obtain ⟨i, hi, hb⟩ := hown
      exact h.serve_own hi hb hvalid hserved hserver
    · exact h.serve_other hvalid (fun i hi hb ↦ hown ⟨i, hi, hb⟩) hserver
  | arrive i =>
    simp only [step] at hs
    split at hs <;> cases hs
    · next hsent hhandler => exact h.arrive hsent hhandler
    · next sender hsent hhandler =>
      have hphase := (h.flight i (h.sent i sender hsent)).2.2
      rw [hhandler] at hphase
      exact hphase.elim
  | settle i =>
    simp only [step] at hs
    split at hs <;> cases hs
    next harrived => exact h.settle harrived
  | resume c =>
    simp only [step] at hs
    split at hs
    · next i hi =>
      split at hs <;> cases hs
      · exact h.setCall c (by simp) (fun _ hk ↦ by cases hk)
      · next sender hsettled =>
        have hsender := h.waiting c i hi
        rw [hsettled] at hsender
        cases hsender
        cases h.settled i false hsettled
    · cases hs

/-- A refresh that is sent while another is outstanding makes two of them. -/
theorem not_kept_of_overlap (hbad : ¬ NoOverlap s a) (hs : step s a = some t) : ¬ Kept t := by
  have two : ∀ {sender i u}, s.inFlight ≠ [] → s.send sender i = some u → 1 < u.inFlight.length := by
    intro sender i u hne hu
    unfold State.send at hu
    split at hu
    · obtain ⟨server, -, rfl⟩ := Option.map_eq_some_iff.mp hu
      have hpos := List.length_pos_iff.mpr hne
      simp only [List.length_cons]
      omega
    · cases hu
  intro hkept
  cases a with
  | unauthorized c i =>
    have hbad : s.refreshPromise = none ∧ s.inFlight ≠ [] := by simpa [NoOverlap] using hbad
    simp only [step, hbad.1] at hs
    split at hs
    · obtain ⟨u, hu, rfl⟩ := Option.map_eq_some_iff.mp hs
      have hlen := two hbad.2 hu
      have hle : u.inFlight.length ≤ 1 := hkept.2
      omega
    · cases hs
  | reconnect i =>
    have hlen := two hbad hs
    have hle := hkept.2
    omega
  | _ => exact hbad trivial

section Run

def ada : User := ⟨"1", "ada", "local", "ada", [], []⟩

def registry : AuthRegistry := ⟨fun _ ↦ none, fun _ _ ↦ some ada⟩

/-- A call gets a 401, refreshes and goes on. -/
def alone : List Act :=
  [.call 0, .unauthorized 0 0, .serve (.rotate 0), .serve (.resolve 0 registry), .serve (.sign 0 true),
    .serve (.store 0 (some "second")), .arrive 0, .settle 0, .resume 0, .retried 0]

/-- A call gets a 401 and refreshes; a reconnect refreshes too, and its request is rotated first. -/
def race : List Act :=
  [.call 0, .unauthorized 0 0, .reconnect 1, .serve (.rotate 1), .serve (.rotate 0), .arrive 0, .settle 0, .resume 0]

theorem race_loggedOut : (exec step (init 0 ada "first") race).map (fun s ↦ s.calls 0) = some .loggedOut := by
  decide

end Run

end KubeCenter.Auth.TabProtocol
