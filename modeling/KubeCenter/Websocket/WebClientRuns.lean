import KubeCenter.Core.Runs
import KubeCenter.Websocket.WebClient

/-! One live socket, deaf to the sockets before it, whose subscriptions are the client's. -/

namespace KubeCenter.Websocket.WebClient

open KubeCenter.Core Function

/-- A socket that is not closing. -/
def Socket.Alive (sock : Socket) : Prop := sock.readyState = .connecting ∨ sock.readyState = .opened

instance (sock : Socket) : Decidable sock.Alive := inferInstanceAs (Decidable (_ ∨ _))

/-- Nothing that the client sent on the socket is still under way. -/
def Socket.Drained (sock : Socket) : Prop := sock.toServer = [] ∧ sock.conn.addSub = [] ∧ sock.conn.unsubByID = []

def Subscription.topic (sub : Subscription) : SubKey := ⟨normalizeKind sub.kind, sub.ns⟩

/-- What the server holds for an entry. -/
def Subscription.entry (sub : Subscription) : SubKey × String := (sub.topic, sub.id)

structure Good (s : State) : Prop where
  single : ∀ j k, (s.sockets j).Alive → (s.sockets k).Alive → j = k
  coupled : ∀ k, s.ws = some k → (s.sockets k).readyState = .opened → s.authenticated = true →
    (s.sockets k).conn.phase ≠ .left → (s.sockets k).Drained →
      (s.sockets k).conn.held.Perm (s.subscriptions.map Subscription.entry)

/-- The socket that an event comes from. -/
def Act.socketEvent : Act → Option ℕ
  | .opened k _ | .message k | .closed k _ => some k
  | _ => none

/-- An event of a socket that is not the current one leaves the current socket, the flag and the status alone. -/
def Deaf (s : State) (a : Act) : Prop :=
  ∀ k ∈ a.socketEvent, s.ws ≠ some k → ∀ t, step s a = some t →
    t.ws = s.ws ∧ t.authenticated = s.authenticated ∧ t.status = s.status

/-- The server turns the message down. -/
def Refused (m : ClientMsg) (refusal : Option ℕ) : Prop :=
  match m with
  | .auth => False
  | .subscribe sub => sub.id = "" ∨ sub.kind = "" ∨ refusal.isSome
  | .unsubscribe id => id = ""

/-- The hub is done with what was read before, as far as it comes over the other channel. -/
def InTurn (conn : Conn) : ClientMsg → Prop
  | .auth => True
  | .subscribe _ => conn.unsubByID = []
  | .unsubscribe _ => conn.addSub = []

/-- A close event is the current socket's, or comes when the last one has been cleaned up after; a subscription takes no
other entry's topic, nor its own ID to another topic once it was sent; and the server turns nothing down, takes nothing
back and keeps to the order of the messages. -/
def Orderly (s : State) : Act → Prop
  | .closed k _ => s.ws = some k ∨ s.ws = none ∧ s.authenticated = false ∧ s.status = .disconnected
  | .subscribe sub _ => ∀ old ∈ s.subscriptions, (old.topic = sub.topic → old.id = sub.id) ∧
      (s.Ready → old.id = sub.id → old.topic = sub.topic)
  | .serverReads k refusal => (s.sockets k).conn.phase = .reading → ∀ m ∈ (s.sockets k).toServer.head?,
      ¬ Refused m refusal ∧ InTurn (s.sockets k).conn m
  | .hubRevokes _ _ => False
  | _ => True

instance (m : ClientMsg) (refusal : Option ℕ) : Decidable (Refused m refusal) :=
  match m with
  | .auth => inferInstanceAs (Decidable False)
  | .subscribe sub => inferInstanceAs (Decidable (sub.id = "" ∨ sub.kind = "" ∨ refusal.isSome))
  | .unsubscribe id => inferInstanceAs (Decidable (id = ""))

instance (conn : Conn) : (m : ClientMsg) → Decidable (InTurn conn m)
  | .auth => .isTrue trivial
  | .subscribe _ => inferInstanceAs (Decidable (conn.unsubByID = []))
  | .unsubscribe _ => inferInstanceAs (Decidable (conn.addSub = []))

instance (s : State) : (a : Act) → Decidable (Orderly s a)
  | .closed k _ =>
    inferInstanceAs (Decidable (s.ws = some k ∨ s.ws = none ∧ s.authenticated = false ∧ s.status = .disconnected))
  | .subscribe sub _ => inferInstanceAs (Decidable (∀ old ∈ s.subscriptions, (old.topic = sub.topic → old.id = sub.id) ∧
      (s.Ready → old.id = sub.id → old.topic = sub.topic)))
  | .serverReads k refusal => inferInstanceAs (Decidable ((s.sockets k).conn.phase = .reading →
      ∀ m ∈ (s.sockets k).toServer.head?, ¬ Refused m refusal ∧ InTurn (s.sockets k).conn m))
  | .hubRevokes _ _ => .isFalse id
  | .connectWS _ | .disconnectWS | .unsubscribe _ | .timerFires | .refreshed _ _ | .visibilityChange _ | .opened _ _
  | .message _ | .startsClosing _ | .serverSends _ _ | .serverLeaves _ | .hubAdds _ | .hubRemoves _ _ => .isTrue trivial

inductive Change
  | add (key : SubKey) (id : String)
  | remove (id : String)

def Change.apply (held : List (SubKey × String)) : Change → List (SubKey × String)
  | .add key id => addTopic held key id
  | .remove id => held.filter (fun e ↦ e.2 ≠ id)

def ClientMsg.change : ClientMsg → Option Change
  | .auth => none
  | .subscribe sub => some (.add sub.topic sub.id)
  | .unsubscribe id => some (.remove id)

/-- The changes under way, in the order the hub will take them. -/
def Socket.pending (sock : Socket) : List Change :=
  sock.conn.addSub.map (fun e ↦ .add e.1 e.2) ++ sock.conn.unsubByID.map .remove ++ sock.toServer.filterMap ClientMsg.change

/-- Topics and IDs go together. -/
def Distinct (held : List (SubKey × String)) : Prop := (held.map Prod.fst).Nodup ∧ (held.map Prod.snd).Nodup

/-- The changes lead from distinct entries to distinct entries, all the way. -/
def DistinctAlong (held : List (SubKey × String)) : List Change → Prop
  | [] => Distinct held
  | c :: cs => Distinct held ∧ DistinctAlong (c.apply held) cs

/-- Once the changes under way are taken, the server holds the entries of the map. -/
structure Coupled (subs : List Subscription) (sock : Socket) : Prop where
  ordered : sock.conn.addSub = [] ∨ sock.conn.unsubByID = []
  along : DistinctAlong sock.conn.held sock.pending
  perm : (sock.pending.foldl Change.apply sock.conn.held).Perm (subs.map Subscription.entry)

/-- No subscription was asked for yet. -/
structure Quiet (sock : Socket) : Prop where
  addSub : sock.conn.addSub = []
  unsubByID : sock.conn.unsubByID = []
  held : sock.conn.held = []
  toServer : ∀ m ∈ sock.toServer, m = .auth

/-- What holds of the current socket while it is alive. -/
structure Current (subs : List Subscription) (authenticated : Bool) (sock : Socket) : Prop where
  quiet : authenticated = false → Quiet sock
  opened : authenticated = true → sock.readyState = .opened
  answered : authenticated = true → sock.conn.phase ≠ .waitForAuth
  coupled : authenticated = true → sock.conn.phase = .reading → Coupled subs sock

structure Inv (s : State) : Prop where
  alive : ∀ k, (s.sockets k).Alive → s.ws = some k
  fresh : ∀ k, s.created ≤ k → s.sockets k = {}
  answered : ∀ k, .authOk ∈ (s.sockets k).toClient → (s.sockets k).conn.phase ≠ .waitForAuth
  current : ∀ k, s.ws = some k → (s.sockets k).Alive → Current s.subscriptions s.authenticated (s.sockets k)
  distinct : Distinct (s.subscriptions.map Subscription.entry)

theorem Distinct.perm {held held' : List (SubKey × String)} (h : Distinct held) (hp : held.Perm held') :
    Distinct held' := ⟨(hp.map Prod.fst).nodup_iff.mp h.1, (hp.map Prod.snd).nodup_iff.mp h.2⟩

theorem DistinctAlong.head {held : List (SubKey × String)} {cs : List Change} (h : DistinctAlong held cs) :
    Distinct held := by
  cases cs with
  | nil => exact h
  | cons c cs => exact h.1

theorem DistinctAlong.concat {held : List (SubKey × String)} {cs : List Change} {c : Change} (h : DistinctAlong held cs)
    (hc : Distinct (c.apply (cs.foldl Change.apply held))) : DistinctAlong held (cs ++ [c]) := by
  induction cs generalizing held with
  | nil => exact ⟨h, hc⟩
  | cons c' cs ih => exact ⟨h.1, ih h.2 hc⟩

theorem pending_send (sock : Socket) {m : ClientMsg} {c : Change} (hm : m.change = some c) :
    { sock with toServer := sock.toServer ++ [m] }.pending = sock.pending ++ [c] := by
  simp only [Socket.pending, List.filterMap_append, List.filterMap_cons, hm, List.filterMap_nil, List.append_assoc]

theorem Coupled.send {subs subs' : List Subscription} {sock : Socket} {m : ClientMsg} {c : Change}
    (h : Coupled subs sock) (hm : m.change = some c)
    (hsubs : ∀ held, held.Perm (subs.map Subscription.entry) → (c.apply held).Perm (subs'.map Subscription.entry))
    (hd : Distinct (subs'.map Subscription.entry)) : Coupled subs' { sock with toServer := sock.toServer ++ [m] } := by
  have hperm := hsubs _ h.perm
  refine ⟨h.ordered, ?_, ?_⟩
  · rw [pending_send sock hm]
    exact h.along.concat (hd.perm hperm.symm)
  · rw [pending_send sock hm, List.foldl_append]
    exact hperm

section Map

variable {subs : List Subscription} {sub : Subscription}

/-- Two entries that the server keeps apart. -/
def Subscription.Apart (x y : Subscription) : Prop := x.topic ≠ y.topic ∧ x.id ≠ y.id

theorem distinct_iff : Distinct (subs.map Subscription.entry) ↔ subs.Pairwise Subscription.Apart := by
  rw [Distinct, List.map_map, List.map_map, List.Nodup, List.Nodup, List.pairwise_map, List.pairwise_map]
  exact List.pairwise_and_iff.symm

theorem distinct_filter (h : Distinct (subs.map Subscription.entry)) (p : Subscription → Bool) :
    Distinct ((subs.filter p).map Subscription.entry) :=
  distinct_iff.mpr ((distinct_iff.mp h).filter p)

/-- An entry keeps the others apart when none of another ID has its topic. -/
theorem distinct_setSubscription (h : Distinct (subs.map Subscription.entry))
    (htopic : ∀ old ∈ subs, old.topic = sub.topic → old.id = sub.id) :
    Distinct ((setSubscription subs sub).map Subscription.entry) := by
  rw [distinct_iff] at *
  unfold setSubscription
  split
  · refine List.pairwise_map.mpr (h.imp_of_mem (fun {x y} hx hy hxy ↦ ?_))
    by_cases hxid : x.id = sub.id
    · have hyid : y.id ≠ sub.id := fun heq ↦ hxy.2 (hxid.trans heq.symm)
      rw [if_pos hxid, if_neg hyid]
      exact ⟨fun heq ↦ hyid (htopic y hy heq.symm), fun heq ↦ hyid heq.symm⟩
    · rw [if_neg hxid]
      split
      · exact ⟨fun heq ↦ hxid (htopic x hx heq), hxid⟩
      · exact hxy
  · next hid =>
    refine List.pairwise_append.mpr ⟨h, List.pairwise_singleton _ _, ?_⟩
    intro x hx y hy
    rw [List.mem_singleton.mp hy]
    have hxid : x.id ≠ sub.id := fun heq ↦ hid (heq ▸ List.mem_map_of_mem hx)
    exact ⟨fun heq ↦ hxid (htopic x hx heq), hxid⟩

/-- The server, told of an entry that is there already, is where it was. -/
theorem addTopic_perm_of_mem {held : List (SubKey × String)} (h : Distinct (subs.map Subscription.entry))
    (hsub : sub ∈ subs) (hp : held.Perm (subs.map Subscription.entry)) :
    (addTopic held sub.topic sub.id).Perm (subs.map Subscription.entry) := by
  have hmem : sub.entry ∈ held := hp.mem_iff.mpr (List.mem_map_of_mem hsub)
  have hheld := h.perm hp.symm
  refine List.Perm.trans ?_ hp
  have hfilter : held.filter (fun e ↦ e.1 ≠ sub.topic) = held.erase sub.entry := by
    rw [hheld.1.of_map.erase_eq_filter]
    refine List.filter_congr (fun e he ↦ ?_)
    have hiff : e.1 = sub.topic ↔ e = sub.entry :=
      ⟨fun heq ↦ List.inj_on_of_nodup_map hheld.1 he hmem heq, fun heq ↦ heq ▸ rfl⟩
    simp only [ne_eq, hiff, bne, beq_eq_decide, decide_not]
  rw [addTopic, hfilter]
  exact (List.perm_append_singleton _ _).trans (List.perm_cons_erase hmem).symm

theorem addTopic_perm_of_fresh {held : List (SubKey × String)} (hfresh : ∀ old ∈ subs, old.topic ≠ sub.topic)
    (hp : held.Perm (subs.map Subscription.entry)) :
    (addTopic held sub.topic sub.id).Perm ((subs ++ [sub]).map Subscription.entry) := by
  have hfilter : held.filter (fun e ↦ e.1 ≠ sub.topic) = held := by
    refine List.filter_eq_self.mpr (fun e he ↦ decide_eq_true ?_)
    obtain ⟨old, hold, rfl⟩ := List.mem_map.mp (hp.mem_iff.mp he)
    exact hfresh old hold
  rw [addTopic, hfilter, List.map_append]
  exact hp.append_right _

theorem addTopic_perm_set {held : List (SubKey × String)} (h : Distinct (subs.map Subscription.entry))
    (htopic : ∀ old ∈ subs, old.topic = sub.topic → old.id = sub.id)
    (hid : ∀ old ∈ subs, old.id = sub.id → old.topic = sub.topic) (hp : held.Perm (subs.map Subscription.entry)) :
    (addTopic held sub.topic sub.id).Perm ((setSubscription subs sub).map Subscription.entry) := by
  unfold setSubscription
  split
  · next hmem =>
    obtain ⟨old, hold, heq⟩ := List.mem_map.mp hmem
    have hentries : (subs.map (fun old ↦ if old.id = sub.id then sub else old)).map Subscription.entry =
        subs.map Subscription.entry := by
      rw [List.map_map]
      refine List.map_congr_left (fun x hx ↦ ?_)
      simp only [Function.comp_apply]
      split
      · next hx' => exact Prod.ext (hid x hx hx').symm hx'.symm
      · rfl
    rw [hentries]
    have hadd := addTopic_perm_of_mem h hold hp
    rwa [show old.topic = sub.topic from hid old hold heq, heq] at hadd
  · next hmem =>
    refine addTopic_perm_of_fresh (fun old hold heq ↦ hmem ?_) hp
    rw [← htopic old hold heq]
    exact List.mem_map_of_mem hold

theorem remove_perm {held : List (SubKey × String)} (id : String) (hp : held.Perm (subs.map Subscription.entry)) :
    (held.filter (fun e ↦ e.2 ≠ id)).Perm ((subs.filter (fun sub ↦ sub.id ≠ id)).map Subscription.entry) := by
  refine (hp.filter _).trans ?_
  rw [List.filter_map]
  exact List.Perm.refl _

end Map

theorem Quiet.coupled {sock : Socket} (h : Quiet sock) : Coupled [] sock := by
  have hpending : sock.pending = [] := by
    rw [Socket.pending, h.addSub, h.unsubByID, List.map_nil, List.map_nil, List.nil_append, List.nil_append]
    exact List.filterMap_eq_nil_iff.mpr (fun m hm ↦ by rw [h.toServer m hm]; rfl)
  refine ⟨.inl h.addSub, ?_, ?_⟩
  · rw [hpending, h.held]
    exact ⟨List.nodup_nil, List.nodup_nil⟩
  · rw [hpending, h.held]
    exact List.Perm.refl _

/-- The socket once the client has asked for `subs` on it. -/
def Socket.asked (sock : Socket) (subs : List Subscription) : Socket :=
  { sock with toServer := sock.toServer ++ subs.map ClientMsg.subscribe }

theorem asked_cons (sock : Socket) (sub : Subscription) (subs : List Subscription) :
    sock.asked (sub :: subs) = { sock with toServer := sock.toServer ++ [ClientMsg.subscribe sub] }.asked subs := by
  simp only [Socket.asked, List.map_cons, List.append_assoc, List.singleton_append]

theorem Coupled.asked {asked subs : List Subscription} {sock : Socket} (h : Coupled asked sock)
    (hd : Distinct ((asked ++ subs).map Subscription.entry)) : Coupled (asked ++ subs) (sock.asked subs) := by
  induction subs generalizing asked sock with
  | nil =>
    rw [List.append_nil]
    exact ⟨h.ordered, by rw [Socket.asked, List.map_nil, List.append_nil]; exact h.along,
      by rw [Socket.asked, List.map_nil, List.append_nil]; exact h.perm⟩
  | cons sub subs ih =>
    rw [asked_cons, List.append_cons]
    rw [List.append_cons] at hd
    have hhead : Distinct ((asked ++ [sub]).map Subscription.entry) :=
      distinct_iff.mpr ((distinct_iff.mp hd).sublist (List.sublist_append_left _ _))
    refine ih (h.send (m := .subscribe sub) rfl (fun held hp ↦ addTopic_perm_of_fresh ?_ hp) hhead) hd
    intro old hold
    exact ((List.pairwise_append.mp (distinct_iff.mp hhead)).2.2 old hold sub (List.mem_singleton_self _)).1

theorem Coupled.askedAgain {subs again : List Subscription} {sock : Socket} (h : Coupled subs sock)
    (hd : Distinct (subs.map Subscription.entry)) (hsub : again ⊆ subs) : Coupled subs (sock.asked again) := by
  induction again generalizing sock with
  | nil => exact ⟨h.ordered, by rw [Socket.asked, List.map_nil, List.append_nil]; exact h.along,
      by rw [Socket.asked, List.map_nil, List.append_nil]; exact h.perm⟩
  | cons sub again ih =>
    rw [asked_cons]
    have hmem : sub ∈ subs := hsub List.mem_cons_self
    exact ih (h.send (m := .subscribe sub) rfl (fun held hp ↦ addTopic_perm_of_mem hd hmem hp) hd)
      (fun x hx ↦ hsub (List.mem_cons_of_mem _ hx))

/-- The fields that the invariant goes by. -/
structure SameCore (s t : State) : Prop where
  sockets : t.sockets = s.sockets
  created : t.created = s.created
  ws : t.ws = s.ws
  subscriptions : t.subscriptions = s.subscriptions
  authenticated : t.authenticated = s.authenticated

theorem SameCore.trans {s t u : State} (h : SameCore s t) (h' : SameCore t u) : SameCore s u :=
  ⟨h'.sockets.trans h.sockets, h'.created.trans h.created, h'.ws.trans h.ws,
    h'.subscriptions.trans h.subscriptions, h'.authenticated.trans h.authenticated⟩

theorem Inv.of_same {s t : State} (h : Inv s) (hs : SameCore s t) : Inv t where
  alive k hk := by rw [hs.sockets] at hk; rw [hs.ws]; exact h.alive k hk
  fresh k hk := by rw [hs.created] at hk; rw [hs.sockets]; exact h.fresh k hk
  answered k hk := by rw [hs.sockets] at hk ⊢; exact h.answered k hk
  current k hws hk := by
    rw [hs.sockets] at hk ⊢
    rw [hs.subscriptions, hs.authenticated]
    exact h.current k (hs.ws ▸ hws) hk
  distinct := by rw [hs.subscriptions]; exact h.distinct

theorem scheduleReconnect_same (s : State) : SameCore s s.scheduleReconnect := by
  unfold State.scheduleReconnect
  split
  · exact ⟨rfl, rfl, rfl, rfl, rfl⟩
  · split <;> exact ⟨rfl, rfl, rfl, rfl, rfl⟩

theorem visibilityChange_same (s : State) (hidden : Bool) : SameCore s (s.visibilityChange hidden) := by
  have hiterate : ∀ (n : ℕ) (s : State), SameCore s (State.scheduleReconnect^[n] s) := by
    intro n
    induction n with
    | zero => exact fun s ↦ ⟨rfl, rfl, rfl, rfl, rfl⟩
    | succ n ih => exact fun s ↦ (scheduleReconnect_same s).trans (ih s.scheduleReconnect)
  have hreset : SameCore s { s with hidden := hidden, onVisible := 0 } := ⟨rfl, rfl, rfl, rfl, rfl⟩
  exact hreset.trans (hiterate s.onVisible _)

theorem notify_same (s : State) (id eventType : String) (object : Option String) :
    SameCore s (s.notify id eventType object) := by
  unfold State.notify
  split <;> exact ⟨rfl, rfl, rfl, rfl, rfl⟩

section Steps

variable {s t : State} {k : ℕ} {sock : Socket} {subs : List Subscription} {authenticated : Bool}

theorem Current.congr {sock' : Socket} (h : Current subs authenticated sock) (hstate : sock'.readyState = sock.readyState)
    (hsent : sock'.toServer = sock.toServer) (hconn : sock'.conn = sock.conn) : Current subs authenticated sock' := by
  obtain ⟨readyState, toServer, toClient, conn⟩ := sock
  obtain ⟨readyState', toServer', toClient', conn'⟩ := sock'
  obtain rfl : readyState' = readyState := hstate
  obtain rfl : toServer' = toServer := hsent
  obtain rfl : conn' = conn := hconn
  refine ⟨fun ha ↦ ?_, h.opened, h.answered, fun ha hreading ↦ ?_⟩
  · have hq := h.quiet ha
    exact ⟨hq.addSub, hq.unsubByID, hq.held, hq.toServer⟩
  · have hc := h.coupled ha hreading
    exact ⟨hc.ordered, hc.along, hc.perm⟩

@[simp] theorem setSocket_self : (s.setSocket k sock).sockets k = sock := update_self _ _ _

theorem setSocket_of_ne {j : ℕ} (h : j ≠ k) : (s.setSocket k sock).sockets j = s.sockets j := update_of_ne h _ _

theorem Inv.lt_created (h : Inv s) (hk : s.sockets k ≠ {}) : k < s.created := by
  by_contra hle
  exact hk (h.fresh k (Nat.le_of_not_lt hle))

theorem Inv.alive_lt (h : Inv s) (hk : (s.sockets k).Alive) : k < s.created := by
  refine h.lt_created (fun heq ↦ ?_)
  rw [heq] at hk
  rcases hk with hk | hk <;> cases hk

/-- Work on one socket keeps the invariant when it keeps the socket's part. -/
theorem Inv.setSocket (h : Inv s) (hk : k < s.created) (halive : sock.Alive → (s.sockets k).Alive)
    (hanswered : .authOk ∈ sock.toClient → sock.conn.phase ≠ .waitForAuth)
    (hcurrent : s.ws = some k → sock.Alive → Current s.subscriptions s.authenticated sock) : Inv (s.setSocket k sock) where
  alive j hj := by
    by_cases hjk : j = k
    · subst hjk
      rw [setSocket_self] at hj
      exact h.alive j (halive hj)
    · rw [setSocket_of_ne hjk] at hj
      exact h.alive j hj
  fresh j hj := by
    have hjk : j ≠ k := (Nat.lt_of_lt_of_le hk hj).ne'
    rw [setSocket_of_ne hjk]
    exact h.fresh j hj
  answered j hj := by
    by_cases hjk : j = k
    · subst hjk
      rw [setSocket_self] at hj ⊢
      exact hanswered hj
    · rw [setSocket_of_ne hjk] at hj ⊢
      exact h.answered j hj
  current j hws hj := by
    by_cases hjk : j = k
    · subst hjk
      rw [setSocket_self] at hj ⊢
      exact hcurrent hws hj
    · rw [setSocket_of_ne hjk] at hj ⊢
      exact h.current j hws hj
  distinct := h.distinct

section Server

variable {sock' : Socket} {m : ClientMsg} {rest : List ClientMsg} {refusal : Option ℕ}

theorem serverReads_readyState (h : sock.serverReads m rest refusal = some sock') :
    sock'.readyState = sock.readyState ∧ sock'.conn.phase ≠ .waitForAuth := by
  unfold Socket.serverReads at h
  dsimp only at h
  split at h
  · cases h
  · split at h <;> cases h <;> exact ⟨rfl, by simp [Socket.setConn, Socket.answer]⟩
  · next hphase =>
    have hreading : sock.conn.phase ≠ .waitForAuth := by rw [hphase]; exact Phase.noConfusion
    cases m with
    | auth => cases h; exact ⟨rfl, hreading⟩
    | subscribe sub =>
      dsimp only at h
      split at h
      · cases h; exact ⟨rfl, hreading⟩
      · cases refusal <;> cases h <;> exact ⟨rfl, hreading⟩
    | unsubscribe id =>
      dsimp only at h
      split at h <;> cases h <;> exact ⟨rfl, hreading⟩

theorem Quiet.serverReads (hq : Quiet sock) (hsent : sock.toServer = m :: rest)
    (h : sock.serverReads m rest refusal = some sock') : Quiet sock' := by
  have hm : m = .auth := hq.toServer m (by rw [hsent]; exact List.mem_cons_self)
  have hrest : ∀ x ∈ rest, x = .auth := fun x hx ↦ hq.toServer x (by rw [hsent]; exact List.mem_cons_of_mem m hx)
  subst hm
  unfold Socket.serverReads at h
  dsimp only at h
  split at h
  · cases h
  · split at h
    · cases h; exact ⟨hq.addSub, hq.unsubByID, hq.held, hrest⟩
    · cases h; exact ⟨rfl, rfl, rfl, hrest⟩
  · cases h; exact ⟨hq.addSub, hq.unsubByID, hq.held, hrest⟩

/-- A message that is read in its turn goes from one queue to the end of the other. -/
theorem Coupled.serverReads (hc : Coupled subs sock) (hphase : sock.conn.phase = .reading)
    (hsent : sock.toServer = m :: rest) (hnot : ¬ Refused m refusal) (hturn : InTurn sock.conn m)
    (h : sock.serverReads m rest refusal = some sock') : Coupled subs sock' := by
  have hmoved : (sock'.conn.addSub = [] ∨ sock'.conn.unsubByID = []) ∧ sock'.pending = sock.pending ∧
      sock'.conn.held = sock.conn.held := by
    unfold Socket.serverReads at h
    dsimp only at h
    rw [hphase] at h
    dsimp only at h
    cases m with
    | auth =>
      cases h
      refine ⟨hc.ordered, ?_, rfl⟩
      simp only [Socket.pending, Socket.answer, hsent, List.filterMap_cons, ClientMsg.change]
    | subscribe sub =>
      have hempty : sock.conn.unsubByID = [] := hturn
      dsimp only at h
      rw [if_neg (fun hbad ↦ hnot (hbad.imp_right Or.inl))] at h
      cases refusal with
      | some code => exact (hnot (.inr (.inr rfl))).elim
      | none =>
        cases h
        refine ⟨.inr hempty, ?_, rfl⟩
        simp only [Socket.pending, Socket.answer, Socket.setConn, hsent, hempty, List.map_append, List.map_nil,
          List.append_nil, List.filterMap_cons, ClientMsg.change, Subscription.topic, List.append_assoc]
        rfl
    | unsubscribe id =>
      have hempty : sock.conn.addSub = [] := hturn
      dsimp only at h
      rw [if_neg (show ¬ id = "" from hnot)] at h
      cases h
      refine ⟨.inl hempty, ?_, rfl⟩
      simp only [Socket.pending, Socket.setConn, hsent, hempty, List.map_append, List.map_nil, List.nil_append,
        List.filterMap_cons, ClientMsg.change, List.append_assoc]
      rfl
  obtain ⟨hordered, hpending, hheld⟩ := hmoved
  refine ⟨hordered, ?_, ?_⟩
  · rw [hpending, hheld]
    exact hc.along
  · rw [hpending, hheld]
    exact hc.perm

theorem Current.serverReads (hcur : Current subs authenticated sock) (hsent : sock.toServer = m :: rest)
    (hok : sock.conn.phase = .reading → ¬ Refused m refusal ∧ InTurn sock.conn m)
    (h : sock.serverReads m rest refusal = some sock') : Current subs authenticated sock' := by
  obtain ⟨hstate, hphase'⟩ := serverReads_readyState h
  refine ⟨fun ha ↦ (hcur.quiet ha).serverReads hsent h, fun ha ↦ hstate.trans (hcur.opened ha), fun _ ↦ hphase', ?_⟩
  intro ha _
  have hphase : sock.conn.phase = .reading := by
    cases hp : sock.conn.phase with
    | waitForAuth => exact (hcur.answered ha hp).elim
    | reading => rfl
    | left =>
      unfold Socket.serverReads at h
      dsimp only at h
      rw [hp] at h
      cases h
  obtain ⟨hnot, hturn⟩ := hok hphase
  exact (hcur.coupled ha hphase).serverReads hphase hsent hnot hturn h

/-- The hub takes the first change under way. -/
theorem Coupled.taken {c : Change} {cs : List Change} (hc : Coupled subs sock) (hpending : sock.pending = c :: cs)
    (hordered : sock'.conn.addSub = [] ∨ sock'.conn.unsubByID = []) (hpending' : sock'.pending = cs)
    (hheld : sock'.conn.held = c.apply sock.conn.held) : Coupled subs sock' := by
  have halong := hc.along
  have hperm := hc.perm
  rw [hpending] at halong hperm
  refine ⟨hordered, ?_, ?_⟩
  · rw [hpending', hheld]
    exact halong.2
  · rw [hpending', hheld]
    exact hperm

theorem Current.hubAdds {key : SubKey} {id : String} {adds : List (SubKey × String)}
    (hcur : Current subs authenticated sock) (hadds : sock.conn.addSub = (key, id) :: adds) :
    Current subs authenticated (sock.setConn { sock.conn with addSub := adds, held := addTopic sock.conn.held key id }) := by
  refine ⟨fun ha ↦ ?_, hcur.opened, hcur.answered, fun ha hphase ↦ ?_⟩
  · have hnil := (hcur.quiet ha).addSub
    rw [hadds] at hnil
    cases hnil
  · have hc := hcur.coupled ha hphase
    have hempty : sock.conn.unsubByID = [] := by
      rcases hc.ordered with hnil | hnil
      · rw [hadds] at hnil
        cases hnil
      · exact hnil
    refine hc.taken (c := .add key id) ?_ (.inr hempty) rfl rfl
    rw [Socket.pending, hadds]
    rfl

/-- Where IDs are distinct it does not matter where the hub looks for one. -/
theorem filter_topic_eq {held : List (SubKey × String)} {key : SubKey} {id : String} (hd : Distinct held)
    (hmem : (key, id) ∈ held) : held.filter (fun e ↦ e.1 ≠ key) = held.filter (fun e ↦ e.2 ≠ id) := by
  refine List.filter_congr (fun e he ↦ ?_)
  have hiff : e.1 = key ↔ e.2 = id := by
    constructor
    · intro heq
      rw [List.inj_on_of_nodup_map hd.1 he hmem heq]
    · intro heq
      rw [List.inj_on_of_nodup_map hd.2 he hmem heq]
  simp only [ne_eq, hiff]

theorem Current.hubRemoves {id : String} {ids : List String} {held : List (SubKey × String)}
    (hcur : Current subs authenticated sock) (hids : sock.conn.unsubByID = id :: ids)
    (hheld : Distinct sock.conn.held → held = sock.conn.held.filter (fun e ↦ e.2 ≠ id)) :
    Current subs authenticated (sock.setConn { sock.conn with unsubByID := ids, held }) := by
  refine ⟨fun ha ↦ ?_, hcur.opened, hcur.answered, fun ha hphase ↦ ?_⟩
  · have hnil := (hcur.quiet ha).unsubByID
    rw [hids] at hnil
    cases hnil
  · have hc := hcur.coupled ha hphase
    have hempty : sock.conn.addSub = [] := by
      rcases hc.ordered with hnil | hnil
      · exact hnil
      · rw [hids] at hnil
        cases hnil
    refine hc.taken (c := .remove id) ?_ (.inl hempty) rfl (hheld hc.along.head)
    simp only [Socket.pending, Socket.setConn, hempty, hids, List.map_nil, List.map_cons, List.nil_append,
      List.cons_append]

theorem Current.serverLeaves (hcur : Current subs authenticated sock) :
    Current subs authenticated (sock.setConn { phase := .left }) :=
  ⟨fun ha ↦ ⟨rfl, rfl, rfl, (hcur.quiet ha).toServer⟩, hcur.opened, fun _ ↦ Phase.noConfusion, fun _ hphase ↦ by cases hphase⟩

end Server

/-- Without a socket that is alive the flag has nothing to say. -/
theorem inv_of_dead (hdead : ∀ j, ¬ (s.sockets j).Alive) (hfresh : ∀ j, s.created ≤ j → s.sockets j = {})
    (hanswered : ∀ j, .authOk ∈ (s.sockets j).toClient → (s.sockets j).conn.phase ≠ .waitForAuth)
    (hsubs : Distinct (s.subscriptions.map Subscription.entry)) : Inv s where
  alive j hj := (hdead j hj).elim
  fresh := hfresh
  answered := hanswered
  current j _ hj := (hdead j hj).elim
  distinct := hsubs

theorem Inv.not_alive (h : Inv s) (hnot : ¬ (s.readyState = some .opened ∨ s.readyState = some .connecting)) (j : ℕ) :
    ¬ (s.sockets j).Alive := by
  intro hj
  have hws := h.alive j hj
  rw [State.readyState, hws, Option.map_some] at hnot
  rcases hj with hj | hj
  · exact hnot (.inr (by rw [hj]))
  · exact hnot (.inl (by rw [hj]))

theorem Inv.connectWS (h : Inv s) (constructed : Bool) : Inv (s.connectWS constructed) := by
  unfold State.connectWS
  split
  · exact h
  · next hnot =>
    have hdead := h.not_alive hnot
    cases constructed with
    | false =>
      refine Inv.of_same ?_ (scheduleReconnect_same _)
      exact inv_of_dead hdead h.fresh h.answered h.distinct
    | true =>
      have hother : ∀ j, j ≠ s.created →
          update s.sockets s.created ({ readyState := .connecting } : Socket) j = s.sockets j :=
        fun j hj ↦ update_of_ne hj _ _
      have hself : update s.sockets s.created ({ readyState := .connecting } : Socket) s.created =
          { readyState := .connecting } := update_self _ _ _
      constructor
      · intro j hj
        change (update s.sockets s.created _ j).Alive at hj
        by_cases hjk : j = s.created
        · rw [hjk]; rfl
        · rw [hother j hjk] at hj
          exact (hdead j hj).elim
      · intro j hj
        exact (hother j (Nat.lt_of_succ_le hj).ne').trans (h.fresh j (Nat.le_of_succ_le hj))
      · intro j hj
        change .authOk ∈ (update s.sockets s.created _ j).toClient at hj
        change (update s.sockets s.created _ j).conn.phase ≠ .waitForAuth
        by_cases hjk : j = s.created
        · rw [hjk, hself] at hj
          cases hj
        · rw [hother j hjk] at hj ⊢
          exact h.answered j hj
      · intro j hj _
        obtain rfl : s.created = j := Option.some.inj hj
        change Current s.subscriptions false (update s.sockets s.created _ s.created)
        rw [hself]
        exact ⟨fun _ ↦ ⟨rfl, rfl, rfl, fun m hm ↦ by cases hm⟩, Bool.noConfusion, Bool.noConfusion, Bool.noConfusion⟩
      · exact h.distinct

/-- What `connectWS` gives is ready only where it does nothing. -/
theorem not_ready_connectWS (h : ¬ s.Ready) (constructed : Bool) : ¬ (s.connectWS constructed).Ready := by
  unfold State.connectWS
  split
  · exact h
  · rintro ⟨-, hauth⟩
    cases constructed with
    | false =>
      rw [if_neg Bool.false_ne_true, (scheduleReconnect_same _).authenticated] at hauth
      cases hauth
    | true => cases hauth

theorem connectWS_of_ready (h : s.Ready) (constructed : Bool) : s.connectWS constructed = s := if_pos (.inl h.1)

/-- The socket that a ready client sends on. -/
theorem ready_ws (h : s.Ready) : ∃ k, s.ws = some k ∧ (s.sockets k).readyState = .opened := by
  obtain ⟨k, hws, hstate⟩ := Option.map_eq_some_iff.mp h.1
  exact ⟨k, hws, hstate⟩

theorem send_eq {m : ClientMsg} (hws : s.ws = some k) (hopened : (s.sockets k).readyState = .opened) :
    s.send m = s.setSocket k { s.sockets k with toServer := (s.sockets k).toServer ++ [m] } := by
  unfold State.send
  simp only [hws, hopened, if_true]

/-- While nothing can be sent, the map is the client's own affair. -/
theorem Inv.setSubscriptions (h : Inv s) (hnot : ¬ s.Ready) (hd : Distinct (subs.map Subscription.entry)) :
    Inv { s with subscriptions := subs } where
  alive := h.alive
  fresh := h.fresh
  answered := h.answered
  current k hws hk := by
    have hcur := h.current k hws hk
    refine ⟨hcur.quiet, hcur.opened, hcur.answered, fun ha _ ↦ (hnot ⟨?_, ha⟩).elim⟩
    rw [State.readyState, hws, Option.map_some, hcur.opened ha]
  distinct := hd

/-- The current socket, the map and the flag may change together. -/
theorem Inv.replace (h : Inv s) (hws : s.ws = some k) (halive : (s.sockets k).Alive)
    (hcur : Current subs authenticated sock) (hanswered : .authOk ∈ sock.toClient → sock.conn.phase ≠ .waitForAuth)
    (hd : Distinct (subs.map Subscription.entry)) : Inv { s.setSocket k sock with subscriptions := subs, authenticated } where
  alive j hj := by
    by_cases hjk : j = k
    · rw [hjk]; exact hws
    · exact h.alive j (by rwa [setSocket_of_ne hjk] at hj)
  fresh j hj := by
    have hjk : j ≠ k := (Nat.lt_of_lt_of_le (h.alive_lt halive) hj).ne'
    exact (setSocket_of_ne hjk).trans (h.fresh j hj)
  answered j hj := by
    change .authOk ∈ ((s.setSocket k sock).sockets j).toClient at hj
    change ((s.setSocket k sock).sockets j).conn.phase ≠ .waitForAuth
    by_cases hjk : j = k
    · rw [hjk, setSocket_self] at hj ⊢
      exact hanswered hj
    · rw [setSocket_of_ne hjk] at hj ⊢
      exact h.answered j hj
  current j hj _ := by
    obtain rfl : k = j := Option.some.inj (hws.symm.trans hj)
    change Current subs authenticated ((s.setSocket k sock).sockets k)
    rw [setSocket_self]
    exact hcur
  distinct := hd

/-- A change of the map goes to the server as the message that makes the same change there. -/
theorem Inv.send (h : Inv s) (hready : s.Ready) {m : ClientMsg} {c : Change} (hm : m.change = some c)
    (hsubs : ∀ held, held.Perm (s.subscriptions.map Subscription.entry) →
      (c.apply held).Perm (subs.map Subscription.entry))
    (hd : Distinct (subs.map Subscription.entry)) : Inv (State.send { s with subscriptions := subs } m) := by
  obtain ⟨k, hws, hopened⟩ := ready_ws hready
  have hcur := h.current k hws (.inr hopened)
  rw [send_eq (s := { s with subscriptions := subs }) hws hopened]
  refine h.replace hws (.inr hopened) ⟨fun ha ↦ ?_, fun _ ↦ hopened, hcur.answered, fun ha hphase ↦ ?_⟩ (h.answered k) hd
  · exact (Bool.false_ne_true (ha.symm.trans hready.2)).elim
  · exact (hcur.coupled ha hphase).send hm hsubs hd

theorem Inv.subscribe {sub : Subscription} {constructed : Bool} (h : Inv s)
    (hok : Orderly s (.subscribe sub constructed)) : Inv (s.subscribe sub constructed) := by
  have htopic : ∀ old ∈ s.subscriptions, old.topic = sub.topic → old.id = sub.id := fun old hold ↦ (hok old hold).1
  have hd := distinct_setSubscription h.distinct htopic
  unfold State.subscribe
  dsimp only
  by_cases hready : s.Ready
  · rw [connectWS_of_ready (s := { s with subscriptions := setSubscription s.subscriptions sub }) hready]
    unfold State.sendSubscribe
    rw [if_pos (show State.Ready { s with subscriptions := setSubscription s.subscriptions sub } from hready)]
    refine h.send hready (c := .add sub.topic sub.id) rfl (fun held hp ↦ ?_) hd
    exact addTopic_perm_set h.distinct htopic (fun old hold ↦ (hok old hold).2 hready) hp
  · have hset := h.setSubscriptions hready hd
    unfold State.sendSubscribe
    rw [if_neg (not_ready_connectWS (s := { s with subscriptions := setSubscription s.subscriptions sub }) hready _)]
    exact hset.connectWS constructed

theorem Inv.unsubscribe (h : Inv s) (id : String) : Inv (s.unsubscribe id) := by
  have hd := distinct_filter h.distinct (fun sub ↦ sub.id ≠ id)
  unfold State.unsubscribe
  dsimp only
  split
  · next hready => exact h.send hready (c := .remove id) rfl (fun held hp ↦ remove_perm id hp) hd
  · next hready => exact h.setSubscriptions hready hd

theorem setSocket_setSocket (sock' : Socket) : (s.setSocket k sock).setSocket k sock' = s.setSocket k sock' := by
  simp only [State.setSocket, update_idem]

theorem foldl_sendSubscribe (hready : s.Ready) (hws : s.ws = some k) :
    subs.foldl State.sendSubscribe s = s.setSocket k ((s.sockets k).asked subs) := by
  induction subs generalizing s with
  | nil => simp [Socket.asked, State.setSocket]
  | cons sub subs ih =>
    have hopened : (s.sockets k).readyState = .opened := by
      have hstate := hready.1
      rwa [State.readyState, hws, Option.map_some, Option.some_inj] at hstate
    have hsend : s.sendSubscribe sub =
        s.setSocket k { s.sockets k with toServer := (s.sockets k).toServer ++ [.subscribe sub] } := by
      rw [State.sendSubscribe, if_pos hready, send_eq hws hopened]
    have hready' : (s.sendSubscribe sub).Ready := by
      rw [hsend]
      refine ⟨?_, hready.2⟩
      rw [State.readyState, show (s.setSocket k _).ws = some k from hws, Option.map_some, setSocket_self, hopened]
    have hws' : (s.sendSubscribe sub).ws = some k := by rw [hsend]; exact hws
    rw [List.foldl_cons, ih hready' hws', hsend, setSocket_self, setSocket_setSocket, asked_cons]

/-- The answer to the token: the server gets all entries of the map. -/
theorem Inv.handleAuthOk (h : Inv s) (hws : s.ws = some k) (hopened : (s.sockets k).readyState = .opened)
    (hphase : (s.sockets k).conn.phase ≠ .waitForAuth) : Inv (s.handleMessage .authOk) := by
  have hcur := h.current k hws (.inr hopened)
  have hready : State.Ready { s with authenticated := true, status := .connected, reconnectAttempt := 0 } := by
    refine ⟨?_, rfl⟩
    rw [State.readyState, show State.ws { s with authenticated := true, .. } = some k from hws, Option.map_some, hopened]
  have hcoupled : (s.sockets k).conn.phase = .reading →
      Coupled s.subscriptions ((s.sockets k).asked s.subscriptions) := by
    intro hreading
    cases ha : s.authenticated with
    | false => exact (hcur.quiet ha).coupled.asked h.distinct
    | true => exact (hcur.coupled ha hreading).askedAgain h.distinct (List.Subset.refl _)
  unfold State.handleMessage
  dsimp only
  rw [foldl_sendSubscribe hready hws]
  have hcur' : Current s.subscriptions true ((s.sockets k).asked s.subscriptions) :=
    ⟨Bool.noConfusion, fun _ ↦ hopened, fun _ ↦ hphase, fun _ hreading ↦ hcoupled hreading⟩
  refine (h.replace hws (.inr hopened) hcur' (fun _ ↦ hphase) h.distinct).of_same ?_
  exact ⟨rfl, rfl, rfl, rfl, rfl⟩

theorem Inv.handleMessage (h : Inv s) (hws : s.ws = some k) (hopened : (s.sockets k).readyState = .opened) {m : ServerMsg}
    (hm : m = .authOk → (s.sockets k).conn.phase ≠ .waitForAuth) : Inv (s.handleMessage m) := by
  cases m with
  | authOk => exact h.handleAuthOk hws hopened (hm rfl)
  | event id eventType object =>
    simp only [State.handleMessage]
    split
    · exact h.of_same (notify_same _ _ _ _)
    · exact h
  | error id code =>
    simp only [State.handleMessage]
    split
    · exact h.of_same (notify_same _ _ _ _)
    · exact h
  | subscribed id => exact h
  | resyncRequired id => exact h.of_same (notify_same _ _ _ _)

theorem close_of_dead (h : ¬ sock.Alive) : sock.close = sock := by
  unfold Socket.close
  split
  · next hstate => exact (h (.inl hstate)).elim
  · next hstate => exact (h (.inr hstate)).elim
  · rfl
  · rfl

theorem close_not_alive (sock : Socket) : ¬ sock.close.Alive := by
  by_cases halive : sock.Alive
  · have hclosing : sock.close.readyState = .closing := by
      unfold Socket.close
      rcases halive with hstate | hstate <;> rw [hstate]
    intro h
    rcases h with h | h <;> rw [hclosing] at h <;> cases h
  · rwa [close_of_dead halive]

theorem close_rest (sock : Socket) : sock.close.toClient = sock.toClient ∧ sock.close.conn = sock.conn := by
  unfold Socket.close
  split <;> exact ⟨rfl, rfl⟩

theorem Inv.close (h : Inv s) (k : ℕ) : Inv (s.close k) := by
  unfold State.close
  by_cases halive : (s.sockets k).Alive
  · refine h.setSocket (h.alive_lt halive) (fun _ ↦ halive) ?_ (fun _ hk ↦ (close_not_alive _ hk).elim)
    rw [(close_rest _).1, (close_rest _).2]
    exact h.answered k
  · rw [close_of_dead halive, State.setSocket, update_eq_self]
    exact h

/-- The current socket's end leaves none that is alive. -/
theorem Inv.dead_of_end (h : Inv s) (hws : s.ws = some k) (hsock : ¬ sock.Alive) (j : ℕ) :
    ¬ ((s.setSocket k sock).sockets j).Alive := by
  by_cases hjk : j = k
  · rw [hjk, setSocket_self]
    exact hsock
  · rw [setSocket_of_ne hjk]
    exact fun hj ↦ hjk (Option.some.inj ((h.alive j hj).symm.trans hws))

theorem Inv.disconnectWS (h : Inv s) : Inv s.disconnectWS := by
  have hnil : Distinct (([] : List Subscription).map Subscription.entry) := ⟨List.nodup_nil, List.nodup_nil⟩
  unfold State.disconnectWS
  dsimp only
  cases hws : s.ws with
  | none =>
    refine inv_of_dead (fun j hj ↦ ?_) h.fresh h.answered hnil
    exact Option.some_ne_none j ((h.alive j hj).symm.trans hws)
  | some k => exact inv_of_dead (h.dead_of_end hws (close_not_alive _)) (h.close k).fresh (h.close k).answered hnil

theorem onclose_same (s : State) (code : ℕ) :
    SameCore { s with ws := none, authenticated := false } (s.onclose code) := by
  unfold State.onclose
  dsimp only
  split
  · exact ⟨rfl, rfl, rfl, rfl, rfl⟩
  · split
    · exact ⟨rfl, rfl, rfl, rfl, rfl⟩
    · have hreset : SameCore { s with ws := none, authenticated := false }
          { s with ws := none, authenticated := false, status := .disconnected } := ⟨rfl, rfl, rfl, rfl, rfl⟩
      exact hreset.trans (scheduleReconnect_same _)

theorem onclose_status (s : State) (code : ℕ) : (s.onclose code).status = .disconnected := by
  have hschedule : ∀ s : State, s.scheduleReconnect.status = s.status := by
    intro s
    unfold State.scheduleReconnect
    split
    · rfl
    · split <;> rfl
  unfold State.onclose
  dsimp only
  split
  · rfl
  · split
    · rfl
    · exact hschedule _

theorem Inv.closed (h : Inv s) {code : ℕ} (hopen : (s.sockets k).readyState ≠ .closed) (hok : Orderly s (.closed k code)) :
    Inv ((s.setSocket k { s.sockets k with readyState := .closed }).onclose code) := by
  refine Inv.of_same ?_ (onclose_same _ code)
  have hend : ¬ Socket.Alive { s.sockets k with readyState := .closed } := by
    intro hk
    rcases hk with hk | hk <;> cases hk
  have hlt : k < s.created := h.lt_created (fun heq ↦ hopen (by rw [heq]))
  have hbase : Inv (s.setSocket k { s.sockets k with readyState := .closed }) :=
    h.setSocket hlt (fun hk ↦ (hend hk).elim) (h.answered k) (fun _ hk ↦ (hend hk).elim)
  refine inv_of_dead (fun j hj ↦ ?_) hbase.fresh hbase.answered h.distinct
  rcases hok with hws | ⟨hws, -⟩
  · exact h.dead_of_end hws hend j hj
  · exact Option.some_ne_none j ((hbase.alive j hj).symm.trans hws)

theorem Inv.opened (h : Inv s) {hasToken : Bool} (hconnecting : (s.sockets k).readyState = .connecting) :
    Inv ((s.setSocket k { s.sockets k with readyState := .opened }).onopen hasToken) := by
  have hws := h.alive k (.inl hconnecting)
  have hcur := h.current k hws (.inl hconnecting)
  have hauth : s.authenticated = false := by
    by_contra ha
    have hopened := hcur.opened (Bool.eq_true_of_not_eq_false ha)
    rw [hconnecting] at hopened
    cases hopened
  have hquiet := hcur.quiet hauth
  cases hasToken with
  | true =>
    have hopened : ((s.setSocket k { s.sockets k with readyState := .opened }).sockets k).readyState = .opened := by
      rw [setSocket_self]
    have hsend : (s.setSocket k { s.sockets k with readyState := .opened }).onopen true =
        s.setSocket k { s.sockets k with readyState := .opened, toServer := (s.sockets k).toServer ++ [.auth] } := by
      rw [State.onopen, if_pos rfl, send_eq (s := s.setSocket k _) hws hopened, setSocket_self, setSocket_setSocket]
    rw [hsend]
    refine h.setSocket (h.alive_lt (.inl hconnecting)) (fun _ ↦ .inl hconnecting) (h.answered k) (fun _ _ ↦ ?_)
    rw [hauth]
    refine ⟨fun _ ↦ ⟨hquiet.addSub, hquiet.unsubByID, hquiet.held, fun m hm ↦ ?_⟩, Bool.noConfusion, Bool.noConfusion,
      Bool.noConfusion⟩
    rcases List.mem_append.mp hm with hm | hm
    · exact hquiet.toServer m hm
    · exact List.mem_singleton.mp hm
  | false =>
    have hclose : SameCore (s.setSocket k { s.sockets k with readyState := .closing })
        ((s.setSocket k { s.sockets k with readyState := .opened }).onopen false) := by
      unfold State.onopen
      rw [if_neg Bool.false_ne_true, show (s.setSocket k _).ws = some k from hws]
      dsimp only [State.close]
      rw [setSocket_self, setSocket_setSocket]
      exact ⟨rfl, rfl, rfl, rfl, rfl⟩
    refine Inv.of_same ?_ hclose
    refine h.setSocket (h.alive_lt (.inl hconnecting)) (fun _ ↦ .inl hconnecting) (h.answered k) (fun _ hk ↦ ?_)
    rcases hk with hk | hk <;> cases hk

theorem Inv.timerFires (h : Inv s) (token : ℕ) : Inv (s.timerFires token) := by
  unfold State.timerFires
  dsimp only
  split <;> exact h.of_same ⟨rfl, rfl, rfl, rfl, rfl⟩

theorem Inv.refreshed (h : Inv s) (i token : ℕ) (constructed : Bool) : Inv (s.refreshed i token constructed) := by
  unfold State.refreshed
  dsimp only
  split
  · exact h.of_same ⟨rfl, rfl, rfl, rfl, rfl⟩
  · have herased : Inv { s with refreshing := s.refreshing.eraseIdx i } := h.of_same ⟨rfl, rfl, rfl, rfl, rfl⟩
    exact herased.connectWS constructed

theorem Inv.message (h : Inv s) {m : ServerMsg} {rest : List ServerMsg} (hopened : (s.sockets k).readyState = .opened)
    (hm : (s.sockets k).toClient = m :: rest) :
    Inv ((s.setSocket k { s.sockets k with toClient := rest }).handleMessage m) := by
  have hws := h.alive k (.inr hopened)
  have hanswered : .authOk ∈ rest → (s.sockets k).conn.phase ≠ .waitForAuth :=
    fun hmem ↦ h.answered k (by rw [hm]; exact List.mem_cons_of_mem m hmem)
  have hpopped : Inv (s.setSocket k { s.sockets k with toClient := rest }) :=
    h.setSocket (h.alive_lt (.inr hopened)) id hanswered
      (fun _ _ ↦ (h.current k hws (.inr hopened)).congr rfl rfl rfl)
  refine hpopped.handleMessage hws (by rw [setSocket_self]; exact hopened) ?_
  rintro rfl
  rw [setSocket_self]
  exact h.answered k (by rw [hm]; exact List.mem_cons_self)

/-- Work of the server on a socket that exists. -/
theorem Inv.serve (h : Inv s) (hk : k < s.created) (hstate : sock.readyState = (s.sockets k).readyState)
    (hanswered : .authOk ∈ sock.toClient → sock.conn.phase ≠ .waitForAuth)
    (hcurrent : ∀ {subs : List Subscription} {authenticated : Bool}, Current subs authenticated (s.sockets k) →
      Current subs authenticated sock) : Inv (s.setSocket k sock) := by
  have halive : sock.Alive → (s.sockets k).Alive := by
    unfold Socket.Alive
    rw [hstate]
    exact id
  exact h.setSocket hk halive hanswered (fun hws hsock ↦ hcurrent (h.current k hws (halive hsock)))

/-- The step lemma. -/
theorem inv_step {a : Act} (h : Inv s) (hok : Orderly s a) (hstep : step s a = some t) : Inv t := by
  cases a with
  | connectWS constructed => cases hstep; exact h.connectWS constructed
  | disconnectWS => cases hstep; exact h.disconnectWS
  | subscribe sub constructed => cases hstep; exact h.subscribe hok
  | unsubscribe id => cases hstep; exact h.unsubscribe id
  | timerFires =>
    obtain ⟨token, -, rfl⟩ := Option.map_eq_some_iff.mp hstep
    exact h.timerFires token
  | refreshed i constructed =>
    obtain ⟨token, -, rfl⟩ := Option.map_eq_some_iff.mp hstep
    exact h.refreshed i token constructed
  | visibilityChange hidden => cases hstep; exact h.of_same (visibilityChange_same s hidden)
  | opened k hasToken =>
    simp only [step, Option.ite_none_right_eq_some] at hstep
    obtain ⟨hconnecting, ⟨⟩⟩ := hstep
    exact h.opened hconnecting
  | message k =>
    simp only [step] at hstep
    split at hstep
    · next hopened hm => cases hstep; exact h.message hopened hm
    · cases hstep
  | closed k code =>
    simp only [step, Option.ite_none_left_eq_some] at hstep
    obtain ⟨hopen, ⟨⟩⟩ := hstep
    exact h.closed hopen hok
  | startsClosing k => cases hstep; exact h.close k
  | serverReads k refusal =>
    simp only [step] at hstep
    split at hstep
    · cases hstep
    · next m rest hsent =>
      obtain ⟨sock, hsock, rfl⟩ := Option.map_eq_some_iff.mp hstep
      obtain ⟨hstate, hphase⟩ := serverReads_readyState hsock
      have hlt : k < s.created := h.lt_created (fun heq ↦ by rw [heq] at hsent; cases hsent)
      refine h.serve hlt hstate (fun _ ↦ hphase) (fun hcur ↦ hcur.serverReads hsent (fun hreading ↦ ?_) hsock)
      exact hok hreading m (by rw [hsent]; rfl)
  | serverSends k m =>
    simp only [step, Option.ite_none_right_eq_some] at hstep
    obtain ⟨⟨hreading, hm⟩, ⟨⟩⟩ := hstep
    have hphase : (s.sockets k).conn.phase ≠ .waitForAuth := by rw [hreading]; exact Phase.noConfusion
    have hlt : k < s.created := h.lt_created (fun heq ↦ by rw [heq] at hreading; cases hreading)
    exact h.serve hlt rfl (fun _ ↦ hphase) (fun hcur ↦ hcur.congr rfl rfl rfl)
  | serverLeaves k =>
    simp only [step, Option.ite_none_right_eq_some] at hstep
    obtain ⟨hlt, ⟨⟩⟩ := hstep
    exact h.serve hlt rfl (fun _ ↦ Phase.noConfusion) Current.serverLeaves
  | hubAdds k =>
    simp only [step] at hstep
    split at hstep
    · cases hstep
    · next key id rest hadds =>
      cases hstep
      have hlt : k < s.created := h.lt_created (fun heq ↦ by rw [heq] at hadds; cases hadds)
      exact h.serve hlt rfl (h.answered k) (fun hcur ↦ hcur.hubAdds hadds)
  | hubRemoves k topic =>
    simp only [step] at hstep
    split at hstep
    · cases hstep
    · next id rest key hids =>
      simp only [Option.ite_none_right_eq_some] at hstep
      obtain ⟨hmem, ⟨⟩⟩ := hstep
      have hlt : k < s.created := h.lt_created (fun heq ↦ by rw [heq] at hids; cases hids)
      exact h.serve hlt rfl (h.answered k) (fun hcur ↦ hcur.hubRemoves hids (fun hd ↦ filter_topic_eq hd hmem))
    · next id rest hids =>
      simp only [Option.ite_none_left_eq_some] at hstep
      obtain ⟨hmem, ⟨⟩⟩ := hstep
      have hlt : k < s.created := h.lt_created (fun heq ↦ by rw [heq] at hids; cases hids)
      refine h.serve hlt rfl (h.answered k) (fun hcur ↦ hcur.hubRemoves hids (fun _ ↦ ?_))
      refine (List.filter_eq_self.mpr (fun e he ↦ ?_)).symm
      have hne : e.2 ≠ id := fun heq ↦ hmem (heq ▸ List.mem_map_of_mem he)
      exact decide_eq_true hne
  | hubRevokes k topic => exact hok.elim

theorem Inv.good (h : Inv s) : Good s where
  single j k hj hk := Option.some.inj ((h.alive j hj).symm.trans (h.alive k hk))
  coupled k hws hopened ha hleft hdrained := by
    have hcur := h.current k hws (.inr hopened)
    have hreading : (s.sockets k).conn.phase = .reading := by
      cases hphase : (s.sockets k).conn.phase with
      | waitForAuth => exact (hcur.answered ha hphase).elim
      | reading => rfl
      | left => exact (hleft hphase).elim
    have hperm := (hcur.coupled ha hreading).perm
    obtain ⟨hsent, hadds, hids⟩ := hdrained
    rw [Socket.pending, hsent, hadds, hids] at hperm
    exact hperm

/-- Only its close event is left to a socket that is not the current one. -/
theorem Inv.deaf {a : Act} (h : Inv s) (hok : Orderly s a) : Deaf s a := by
  intro k hk hws t hstep
  cases a with
  | opened j hasToken =>
    obtain rfl : j = k := Option.some.inj hk
    simp only [step, Option.ite_none_right_eq_some] at hstep
    exact (hws (h.alive j (.inl hstep.1))).elim
  | message j =>
    obtain rfl : j = k := Option.some.inj hk
    simp only [step] at hstep
    split at hstep
    · next hopened _ => exact (hws (h.alive j (.inr hopened))).elim
    · cases hstep
  | closed j code =>
    obtain rfl : j = k := Option.some.inj hk
    simp only [step, Option.ite_none_left_eq_some] at hstep
    obtain ⟨-, ⟨⟩⟩ := hstep
    rcases hok with hcurrent | ⟨hnone, ha, hstatus⟩
    · exact (hws hcurrent).elim
    · have hsame := onclose_same (s.setSocket j { s.sockets j with readyState := .closed }) code
      exact ⟨hsame.ws.trans hnone.symm, hsame.authenticated.trans ha.symm, (onclose_status _ code).trans hstatus.symm⟩
  | _ => cases hk

end Steps

/-- In every orderly run at most one socket is alive, the ones before it are not heard, and the server holds what the
map has once it is told. -/
theorem good_throughout {acts : List Act} (h : EachStep step Orderly {} acts) :
    Throughout step Good {} acts ∧ EachStep step Deaf {} acts := by
  have hinit : Inv {} := by
    refine inv_of_dead (fun j hj ↦ ?_) (fun _ _ ↦ rfl) (fun _ hj ↦ by cases hj) ⟨List.nodup_nil, List.nodup_nil⟩
    rcases hj with hj | hj <;> cases hj
  constructor
  · exact (h.throughout (fun _ _ _ hi hok hstep ↦ inv_step hi hok hstep) hinit).mono (fun _ hi ↦ hi.good)
  · exact h.of_invariant (fun _ _ _ hi hok hstep ↦ inv_step hi hok hstep) (fun _ _ hi hok ↦ hi.deaf hok) hinit

def pods : Subscription := ⟨"pods-default", "pods", "default"⟩

/-- A connection with one subscription, lost and made again. -/
def reconnected : List Act :=
  [.subscribe pods true, .opened 0 true, .serverReads 0 none, .message 0, .serverReads 0 none, .hubAdds 0, .message 0,
    .closed 0 1006, .timerFires, .refreshed 0 true, .opened 1 true, .serverReads 1 none, .message 1, .serverReads 1 none]

theorem good_throughout_reconnected : EachStep step Orderly {} reconnected ∧
    Throughout step Good {} reconnected ∧ EachStep step Deaf {} reconnected :=
  have h : EachStep step Orderly {} reconnected := by decide
  ⟨h, good_throughout h⟩

/-- The close event of a socket that was disconnected, after the next one is made. -/
def lateClose : List Act :=
  [.connectWS true, .opened 0 true, .serverReads 0 none, .message 0, .disconnectWS, .connectWS true, .closed 0 1005,
    .timerFires, .refreshed 0 true]

/-- It takes the current socket for gone, and a third one is made beside it. -/
theorem not_good_throughout : ¬ ∀ acts, Throughout step Good {} acts ∧ EachStep step Deaf {} acts := by
  intro h
  have hany : (exec step {} lateClose).any (fun s ↦ decide ((s.sockets 1).Alive ∧ (s.sockets 2).Alive)) = true := by
    decide
  obtain ⟨s, hs, halive⟩ := (Option.any_eq_true _ _).mp hany
  obtain ⟨h₁, h₂⟩ := of_decide_eq_true halive
  exact absurd (((h lateClose).1.last hs).single 1 2 h₁ h₂) (by decide)

end KubeCenter.Websocket.WebClient
