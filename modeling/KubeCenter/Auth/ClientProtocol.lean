import KubeCenter.Auth.RefreshProtocol

/-! Web and mobile clients of the session store, from their logins to their logouts. -/

namespace KubeCenter.Auth.ClientProtocol

open KubeCenter.Core Function

/-- A web client keeps its refresh token in the cookie jar, a mobile one in secure storage. -/
inductive ClientKind
  | web
  | mobile
  deriving DecidableEq

/-- Two fields are history: the newest token delivered to the client, and whether its logout has been answered
since its last login. -/
structure Client where
  kind : ClientKind
  held : Option String := none
  newest : Option String := none
  loggedOut : Bool := false

namespace Client

variable (c : Client)

/-- A cookie goes to the jar, a token in the body to the storage; neither client has the other's place. -/
def receive (token : String) (bodyMode : Bool) : Client :=
  { c with
    newest := some token
    held := if bodyMode = decide (c.kind = .mobile) then some token else c.held }

def cookie : Option String :=
  match c.kind with
  | .web => c.held
  | .mobile => none

def refreshRequest : RefreshRequest :=
  match c.kind with
  | .web => ⟨c.held, none⟩
  | .mobile => ⟨none, c.held⟩

end Client

/-- `owner` is whose request a handler serves, until its answer is delivered; `minted` the token and the mode of
that answer. `ended` is history: the tokens that a logout has to end. -/
structure State where
  server : RefreshProtocol.State
  clients : ℕ → Client
  owner : ℕ → Option ℕ := fun _ ↦ none
  minted : ℕ → Option (String × Bool) := fun _ ↦ none
  ended : Finset String := ∅

inductive Act
  | login (c : ℕ) (user : User) (token : String) (bodyMode : Bool)
  | refresh (i c : ℕ)
  | serve (a : RefreshProtocol.Act)
  | deliver (i : ℕ)
  | forget (c : ℕ)
  | logout (c : ℕ)

namespace State

variable (s : State)

def setClient (c : ℕ) (client : Client) : State := { s with clients := update s.clients c client }

/-- A token that arrives at a client; after a logout it is one that the logout has to end. -/
def arrive (c : ℕ) (token : String) (bodyMode : Bool) : State :=
  { s.setClient c ((s.clients c).receive token bodyMode) with
    ended := if (s.clients c).loggedOut then insert token s.ended else s.ended }

end State

/-- What a handler's step adds to its answer: the token it stores. -/
def mintedBy (s : State) : RefreshProtocol.Act → ℕ → Option (String × Bool)
  | .store i (some t) =>
    match s.server.handlers i with
    | .storing p _ _ _ => update s.minted i (some (t, p.bodyMode))
    | _ => s.minted
  | _ => s.minted

def serveStep (s : State) (a : RefreshProtocol.Act) : Option State :=
  match a with
  | .login _ _ | .request _ _ | .logout _ => none
  | a => (RefreshProtocol.step s.server a).map (fun server ↦ { s with server, minted := mintedBy s a })

/-- The handlers of logins and `handleLogout` answer at once. A client may lose the token it holds: a mobile one
drops it when a refresh fails. -/
def step (s : State) (a : Act) : Option State :=
  match a with
  | .login c user token bodyMode =>
    (RefreshProtocol.step s.server (.login user token)).map (fun server ↦
      { s with server }.setClient c { (s.clients c).receive token bodyMode with loggedOut := false })
  | .refresh i c =>
    (RefreshProtocol.step s.server (.request i (s.clients c).refreshRequest)).map (fun server ↦
      { s with server, owner := update s.owner i (some c), minted := update s.minted i none })
  | .serve a => serveStep s a
  | .deliver i =>
    match s.server.handlers i, s.owner i with
    | .answered _ _, some c =>
      let s' := { s with owner := update s.owner i none }
      match s.minted i with
      | some (token, bodyMode) => some (s'.arrive c token bodyMode)
      | none => some s'
    | _, _ => none
  | .forget c => some (s.setClient c { s.clients c with held := none })
  | .logout c =>
    (RefreshProtocol.step s.server (.logout (s.clients c).cookie)).map (fun server ↦
      { s with server, ended := (s.clients c).newest.elim s.ended (insert · s.ended) }.setClient c
        { s.clients c with held := none, loggedOut := true })

def init (now : ℕ) (kind : ℕ → ClientKind) : State :=
  { server := RefreshProtocol.init now, clients := fun c ↦ { kind := kind c } }

/-- `handleRefresh` rejects the token. -/
def Rejected (s : State) (token : String) : Prop :=
  ∀ session, (s.server.sessions.rotate token s.server.now).1 ≠ .ok session

def LogoutEnds (s : State) : Prop := ∀ t ∈ s.ended, Rejected s t

/-- A logout presents the client's newest token in its cookie, if that is not rejected already; no token that is
still accepted arrives after it, and no unexpired session that it ended is restored. -/
def LeavesNothing (s : State) : Act → Prop
  | .logout c => ∀ t, (s.clients c).newest = some t → (s.clients c).cookie = some t ∨ Rejected s t
  | .deliver i => ∀ c t bodyMode, s.owner i = some c → s.minted i = some (t, bodyMode) →
      (s.clients c).loggedOut = true → Rejected s t
  | .serve (.restore i) => ∀ p session code message, s.server.handlers i = .restoring p session code message →
      session.token ∈ s.ended → session.token = "" ∨ session.expiresAt < s.server.now
  | _ => True

structure Inv (s : State) : Prop where
  ends : LogoutEnds s
  ended : s.ended ⊆ s.server.drawn
  newest : ∀ c t, (s.clients c).newest = some t → t ∈ s.server.drawn
  minted : ∀ i t bodyMode, s.minted i = some (t, bodyMode) → t ∈ s.server.drawn

theorem inv_init (now : ℕ) (kind : ℕ → ClientKind) : Inv (init now kind) where
  ends t ht := absurd ht (Finset.notMem_empty t)
  ended := Finset.empty_subset _
  newest c t h := by cases h
  minted i t bodyMode h := by cases h

variable {s t : State} {a : Act} {u : String}

theorem rejected_iff : Rejected s u ↔
    ∀ v, s.server.sessions.lookup u = some v → v.expiresAt < s.server.now := by
  constructor
  · intro h v hv
    by_contra hn
    exact h v (by simp [SessionStore.rotate, hv, hn])
  · intro h session hr
    obtain ⟨hl, hle, -⟩ := SessionStore.rotate_ok hr
    exact absurd (h session hl) (not_lt.mpr hle)

theorem Rejected.of_rows (h : Rejected s u) (hnow : s.server.now ≤ t.server.now)
    (hrows : ∀ v, t.server.sessions.lookup u = some v →
      s.server.sessions.lookup u = some v ∨ v.expiresAt < s.server.now) : Rejected t u := by
  rw [rejected_iff] at h ⊢
  intro v hv
  obtain hold | hexpired := hrows v hv
  · exact (h v hold).trans_le hnow
  · exact hexpired.trans_le hnow

/-- A session that the server's step gives back is one that no logout has ended, or an expired one. -/
def RestoresOnly (s : State) (a : RefreshProtocol.Act) : Prop :=
  ∀ i p session code message, a = .restore i → s.server.handlers i = .restoring p session code message →
    session.token ∈ s.ended → session.token = "" ∨ session.expiresAt < s.server.now

/-- What a step of the server keeps: its history grows, and a token of it that is rejected stays so. -/
theorem server_step {b : RefreshProtocol.Act} {server : RefreshProtocol.State} (hi : Inv s)
    (hb : RestoresOnly s b) (hs : RefreshProtocol.step s.server b = some server) :
    s.server.drawn ⊆ server.drawn ∧ ∀ u ∈ s.ended, Rejected { s with server } u := by
  obtain ⟨g, e⟩ := RefreshProtocol.step_effect hs
  refine ⟨g.drawn, ?_⟩
  intro u hu
  apply (hi.ends u hu).of_rows g.now
  intro v hv
  cases e with
  | drop rows _ => exact .inl (rows u v hv)
  | take i p session _ rows _ =>
    rw [rows] at hv
    exact .inl (SessionStore.lookup_of_erase hv).2
  | file user token lastRevalidated fresh _ rows _ =>
    have hne : u ≠ token := fun he ↦ fresh.1 (he ▸ hi.ended hu)
    rw [rows, SessionStore.lookup_store_ne hne] at hv
    exact .inl hv
  | giveBack i p session code message act held rows _ =>
    rw [rows] at hv
    unfold SessionStore.restore at hv
    split at hv
    · exact .inl hv
    · next hne =>
      obtain ⟨rfl, rfl⟩ | hold := SessionStore.lookup_of_store hv
      · exact .inr ((hb i p v code message act held hu).resolve_left hne)
      · exact .inl hold

theorem login_drawn {user : User} {token : String} {server : RefreshProtocol.State}
    (hs : RefreshProtocol.step s.server (.login user token) = some server) : token ∈ server.drawn := by
  simp only [RefreshProtocol.step, RefreshProtocol.otherStep] at hs
  split at hs
  · cases hs
    exact Finset.mem_insert_self _ _
  · cases hs

theorem mintedBy_drawn {b : RefreshProtocol.Act} {server : RefreshProtocol.State} {i : ℕ} {bodyMode : Bool}
    (hs : RefreshProtocol.step s.server b = some server) (hm : mintedBy s b i = some (u, bodyMode)) :
    s.minted i = some (u, bodyMode) ∨ u ∈ server.drawn := by
  cases b with
  | store j drawn =>
    cases drawn with
    | none => exact .inl hm
    | some token =>
      simp only [mintedBy] at hm
      cases hj : s.server.handlers j with
      | storing p session access lastRevalidated =>
        simp only [hj] at hm
        simp only [RefreshProtocol.step, hj, RefreshProtocol.handlerStep] at hs
        split at hs
        · cases hs
          by_cases hij : i = j
          · subst hij
            rw [update_self] at hm
            cases hm
            exact .inr (Finset.mem_insert_self _ _)
          · rw [update_of_ne hij] at hm
            exact .inl hm
        · cases hs
      | _ =>
        simp only [hj] at hm
        exact .inl hm
  | _ => exact .inl hm

/-- The server's part of a step keeps the invariant, whatever handlers it has to mint for. -/
theorem inv_server {b : RefreshProtocol.Act} {server : RefreshProtocol.State} (hi : Inv s) (hb : RestoresOnly s b)
    (hs : RefreshProtocol.step s.server b = some server) : Inv { s with server, minted := mintedBy s b } := by
  obtain ⟨hdrawn, hrejected⟩ := server_step hi hb hs
  refine ⟨hrejected, hi.ended.trans hdrawn, fun c t h ↦ hdrawn (hi.newest c t h), ?_⟩
  intro i t bodyMode h
  obtain hold | hnew := mintedBy_drawn hs h
  · exact hdrawn (hi.minted i t bodyMode hold)
  · exact hnew

theorem restoresOnly_of_ne {b : RefreshProtocol.Act} (hb : ∀ i, b ≠ .restore i) : RestoresOnly s b :=
  fun i _ _ _ _ he ↦ absurd he (hb i)

theorem setClient_newest {c d : ℕ} {client : Client} (hi : Inv s)
    (hclient : ∀ t, client.newest = some t → t ∈ s.server.drawn) {t : String}
    (h : ((s.setClient c client).clients d).newest = some t) : t ∈ s.server.drawn := by
  dsimp only [State.setClient] at h
  by_cases hd : d = c
  · subst hd
    rw [update_self] at h
    exact hclient t h
  · rw [update_of_ne hd] at h
    exact hi.newest d t h

theorem inv_setClient {c : ℕ} {client : Client} (hi : Inv s)
    (hclient : ∀ t, client.newest = some t → t ∈ s.server.drawn) : Inv (s.setClient c client) :=
  ⟨hi.ends, hi.ended, fun _ _ h ↦ setClient_newest hi hclient h, hi.minted⟩

theorem receive_newest {client : Client} {token : String} {bodyMode : Bool} (htoken : token ∈ s.server.drawn) :
    ∀ t, (client.receive token bodyMode).newest = some t → t ∈ s.server.drawn := by
  intro t h
  cases h
  exact htoken

theorem inv_arrive {c : ℕ} {token : String} {bodyMode : Bool} (hi : Inv s) (htoken : token ∈ s.server.drawn)
    (hrejected : (s.clients c).loggedOut = true → Rejected s token) : Inv (s.arrive c token bodyMode) := by
  have hset : Inv (s.setClient c ((s.clients c).receive token bodyMode)) := inv_setClient hi (receive_newest htoken)
  refine ⟨?_, ?_, hset.newest, hset.minted⟩
  · intro t ht
    unfold State.arrive at ht
    dsimp only at ht
    split at ht
    · next hout =>
      obtain rfl | ht := Finset.mem_insert.mp ht
      · exact hrejected hout
      · exact hi.ends t ht
    · exact hi.ends t ht
  · unfold State.arrive
    dsimp only
    split
    · exact Finset.insert_subset htoken hi.ended
    · exact hi.ended

theorem mem_logout_ended {newest : Option String} {ended : Finset String} :
    u ∈ newest.elim ended (insert · ended) ↔ newest = some u ∨ u ∈ ended := by
  cases newest with
  | none => simp
  | some token => simp [eq_comm]

theorem inv_step (hi : Inv s) (hok : LeavesNothing s a) (hs : step s a = some t) : Inv t := by
  cases a with
  | login c user token bodyMode =>
    obtain ⟨server, hserver, rfl⟩ := Option.map_eq_some_iff.mp hs
    have hi' := inv_server hi (restoresOnly_of_ne (by simp)) hserver
    apply inv_setClient hi'
    intro t ht
    cases ht
    exact login_drawn hserver
  | refresh i c =>
    obtain ⟨server, hserver, rfl⟩ := Option.map_eq_some_iff.mp hs
    have hi' := inv_server hi (restoresOnly_of_ne (by simp)) hserver
    refine ⟨hi'.ends, hi'.ended, hi'.newest, ?_⟩
    intro j u bodyMode h
    by_cases hj : j = i
    · subst hj
      simp at h
    · exact hi'.minted j u bodyMode ((update_of_ne hj _ _).symm.trans h)
  | serve b =>
    have hb : RestoresOnly s b := by
      intro i p session code message he
      subst he
      exact hok p session code message
    simp only [step, serveStep] at hs
    split at hs
    · cases hs
    · cases hs
    · cases hs
    · obtain ⟨server, hserver, rfl⟩ := Option.map_eq_some_iff.mp hs
      exact inv_server hi hb hserver
  | deliver i =>
    simp only [step] at hs
    split at hs
    · next p answer c hanswered howner =>
      have hi' : Inv { s with owner := update s.owner i none } := ⟨hi.ends, hi.ended, hi.newest, hi.minted⟩
      split at hs
      · next token bodyMode hminted =>
        cases hs
        exact inv_arrive hi' (hi.minted i token bodyMode hminted) (hok c token bodyMode howner hminted)
      · cases hs
        exact hi'
    · cases hs
  | forget c =>
    cases hs
    exact inv_setClient hi (hi.newest c)
  | logout c =>
    obtain ⟨server, hserver, rfl⟩ := Option.map_eq_some_iff.mp hs
    have hi' := inv_server hi (restoresOnly_of_ne (by simp)) hserver
    have hcookie : ∀ u, (s.clients c).newest = some u → Rejected { s with server } u := by
      intro u hu
      cases hc : (s.clients c).cookie with
      | none =>
        rw [hc] at hserver
        cases hserver
        exact (hok u hu).resolve_left (by simp [hc])
      | some token =>
        rw [hc] at hserver
        cases hserver
        rw [rejected_iff]
        intro v hv
        obtain ⟨hne, hold⟩ := SessionStore.lookup_of_erase hv
        obtain he | hrejected := hok u hu
        · rw [hc] at he
          exact absurd (Option.some.inj he).symm hne
        · exact rejected_iff.mp hrejected v hold
    have hended : Inv { s with server, ended := (s.clients c).newest.elim s.ended (insert · s.ended) } := by
      refine ⟨?_, ?_, hi'.newest, hi'.minted⟩
      · intro u hu
        obtain hnew | hold := mem_logout_ended.mp hu
        · exact hcookie u hnew
        · exact hi'.ends u hold
      · intro u hu
        obtain hnew | hold := mem_logout_ended.mp hu
        · exact hi'.newest c u hnew
        · exact hi'.ended hold
    exact inv_setClient hended (hi'.newest c)

/-- A step that breaks the condition leaves an accepted token behind. -/
theorem not_logoutEnds (hbad : ¬ LeavesNothing s a) (hs : step s a = some t) : ¬ LogoutEnds t := by
  intro hends
  apply hbad
  cases a with
  | logout c =>
    obtain ⟨server, hserver, rfl⟩ := Option.map_eq_some_iff.mp hs
    intro u hu
    have hrejected := rejected_iff.mp (hends u (mem_logout_ended.mpr (.inl hu)))
    by_cases hc : (s.clients c).cookie = some u
    · exact .inl hc
    · right
      rw [rejected_iff]
      intro v hv
      cases hcookie : (s.clients c).cookie with
      | none =>
        rw [hcookie] at hserver
        cases hserver
        exact hrejected v hv
      | some token =>
        have hne : u ≠ token := fun he ↦ hc (he ▸ hcookie)
        rw [hcookie] at hserver
        cases hserver
        exact hrejected v ((AList.lookup_erase_ne hne).trans hv)
  | deliver i =>
    intro c u bodyMode howner hminted hout
    simp only [step, howner, hminted] at hs
    split at hs
    · next he =>
      cases he
      cases hs
      apply hends u
      unfold State.arrive
      simp [hout]
    · cases hs
  | serve b =>
    cases b with
    | restore i =>
      intro p session code message held hended
      simp only [step, serveStep, RefreshProtocol.step, held, RefreshProtocol.handlerStep] at hs
      cases hs
      by_cases htoken : session.token = ""
      · exact .inl htoken
      · exact .inr (rejected_iff.mp (hends session.token hended) session (SessionStore.lookup_restore_self htoken))
    | _ => trivial
  | _ => trivial

/-- Logout ends the sessions in exactly the runs whose steps leave nothing behind. -/
theorem logoutEnds_throughout_iff (now : ℕ) (kind : ℕ → ClientKind) (as : List Act) :
    Throughout step LogoutEnds (init now kind) as ↔ EachStep step LeavesNothing (init now kind) as :=
  throughout_iff_eachStep (fun _ hi ↦ hi.ends) (fun _ _ _ hi hok hs ↦ inv_step hi hok hs)
    (fun _ _ _ _ hbad hs ↦ not_logoutEnds hbad hs) (inv_init now kind) as

/-- A mobile client signs in through the exchange and logs out. -/
def mobileLogout : List Act :=
  let ann : User := ⟨"oidc:corp:ann", "ann", "oidc", "ann", [], []⟩
  [.login 0 ann "r1" true, .logout 0]

theorem not_logoutEnds_throughout : ¬ ∀ now kind as, Throughout step LogoutEnds (init now kind) as := by
  intro h
  have hlast : (exec step (init 1 fun _ ↦ .mobile) mobileLogout).map
      (fun s ↦ (decide ("r1" ∈ s.ended), (s.server.sessions.rotate "r1" s.server.now).1.isOk)) = some (true, true) := by
    rfl
  obtain ⟨s, hs, he⟩ := Option.map_eq_some_iff.mp hlast
  obtain ⟨hended, hok⟩ := Prod.mk.inj he
  cases hr : (s.server.sessions.rotate "r1" s.server.now).1 with
  | ok session => exact (h 1 (fun _ ↦ .mobile) mobileLogout).last hs "r1" (of_decide_eq_true hended) session hr
  | error e =>
    rw [hr] at hok
    cases hok

end KubeCenter.Auth.ClientProtocol
