import Mathlib.Order.MinMax
import KubeCenter.CertManager.CacheProtocol

namespace KubeCenter.CertManager

open KubeCenter.Core Function

variable {O C I : Type} {s s' : State O C I} {a : Act O} {i : ℕ}
  {flightKey : ℕ → String} {normalizer : Normalizer O C I} {careful : Prop}

namespace Stage

def gen : Stage O C I → ℕ
  | .listing fetch => fetch.gen
  | .fetched gen _ | .stored gen _ | .landed gen _ => gen

def snapshot : Stage O C I → Option (Snapshot C I)
  | .fetched _ (.ok snapshot) | .stored _ (.ok snapshot) | .landed _ (.ok snapshot) => some snapshot
  | _ => none

def issued : Stage O C I → List ℕ
  | .listing fetch =>
    [fetch.lists .certificates, fetch.lists .issuers, fetch.lists .clusterIssuers].filterMap Listing.issued
  | stage => stage.snapshot.toList.map Snapshot.issued

end Stage

/-- No `getCached` or `peekCertificates` call has returned data listed before an
`InvalidateCache` that it started after. -/
def Fresh (s : State O C I) : Prop :=
  ∀ i need snapshot, s.calls i = .done need snapshot → need ≤ snapshot.issued

/-- What is cached was fetched and listed since the last `InvalidateCache`. -/
def CacheCurrent (s : State O C I) : Prop :=
  ∀ snapshot, s.cache = some snapshot → snapshot.gen = s.cacheGen ∧ snapshot.issued = s.cacheGen

def Call.entering : Call C I → Option (ℕ × ℕ)
  | .missed need gen => some (need, gen)
  | _ => none

/-- No call joins a flight that has issued a list before an `InvalidateCache` that the call
started after. -/
def JoinsRecent (flightKey : ℕ → String) (s : State O C I) : Act O → Prop
  | .enter i => ∀ x ∈ (s.calls i).entering, ∀ j ∈ s.fetchGroup.calls.lookup (flightKey x.2),
      ∀ b ∈ s.fetchGroup.body j, ∀ g ∈ b.2.issued, x.1 ≤ g
  | _ => True

instance (s : State O C I) (a : Act O) : Decidable (JoinsRecent flightKey s a) := by
  cases a with
  | enter i => exact inferInstanceAs (Decidable (∀ x ∈ (s.calls i).entering, ∀ j ∈ _, ∀ b ∈ _, ∀ g ∈ _, _))
  | _ => exact .isTrue trivial

structure StageOk (n : ℕ) (stage : Stage O C I) : Prop where
  gen : stage.gen ≤ n
  issued : ∀ g ∈ stage.issued, stage.gen ≤ g ∧ g ≤ n
  snapshot : ∀ snapshot, stage.snapshot = some snapshot → snapshot.gen = stage.gen

/-- What holds of call `i` where it stands; what it returns is fresh if the joins are. -/
def CallOk (careful : Prop) (s : State O C I) (i : ℕ) : Call C I → Prop
  | .idle => s.fetchGroup.body i = none
  | .started need => s.fetchGroup.body i = none ∧ need ≤ s.cacheGen
  | .missed need gen => s.fetchGroup.body i = none ∧ need ≤ gen ∧ gen ≤ s.cacheGen
  | .leading need => ∃ k stage, s.fetchGroup.body i = some (k, stage) ∧ need ≤ stage.gen
  | .waiting need j => need ≤ s.cacheGen ∧
      ∃ k stage, s.fetchGroup.body j = some (k, stage) ∧ (careful → ∀ g ∈ stage.issued, need ≤ g)
  | .done need snapshot => careful → need ≤ snapshot.issued
  | .absent | .failed _ => True

structure Inv (flightKey : ℕ → String) (careful : Prop) (s : State O C I) : Prop where
  cache : CacheCurrent s
  keyed : s.fetchGroup.Keyed
  bodies : ∀ j k stage, s.fetchGroup.body j = some (k, stage) →
    k = flightKey stage.gen ∧ StageOk s.cacheGen stage
  calls : ∀ i, CallOk careful s i (s.calls i)

theorem inv_init (now : ℕ) : Inv flightKey careful (init now : State O C I) where
  cache _ h := by cases h
  keyed := Flights.keyed_empty
  bodies _ _ _ h := by cases h
  calls _ := rfl

/-- A flight at `stage` goes to `stage'` while the cache is at generation `n`: the lists it
issues are issued now. -/
structure Goes (n : ℕ) (stage stage' : Stage O C I) : Prop where
  gen : stage'.gen = stage.gen
  issued : ∀ g ∈ stage'.issued, g ∈ stage.issued ∨ g = n
  snapshot : ∀ snapshot, stage'.snapshot = some snapshot →
    stage.snapshot = some snapshot ∨ snapshot.gen = stage'.gen

theorem StageOk.goes {n : ℕ} {stage stage' : Stage O C I} (h : StageOk n stage) (hg : Goes n stage stage') :
    StageOk n stage' where
  gen := hg.gen ▸ h.gen
  issued g hg' := by
    rw [hg.gen]
    rcases hg.issued g hg' with hold | rfl
    · exact h.issued g hold
    · exact ⟨h.gen, le_rfl⟩
  snapshot snapshot hs := by
    rcases hg.snapshot snapshot hs with hold | hnew
    · rw [hg.gen]
      exact h.snapshot snapshot hold
    · exact hnew

theorem Goes.refl (n : ℕ) (stage : Stage O C I) : Goes n stage stage := ⟨rfl, fun _ h ↦ .inl h, fun _ h ↦ .inl h⟩

theorem CallOk.mono {h : Call C I} (hok : CallOk careful s i h) (hgen : s.cacheGen ≤ s'.cacheGen)
    (hbody : s.fetchGroup.body i = none → s'.fetchGroup.body i = none)
    (hgoes : ∀ j k stage, s.fetchGroup.body j = some (k, stage) →
      ∃ stage', s'.fetchGroup.body j = some (k, stage') ∧ Goes s.cacheGen stage stage') :
    CallOk careful s' i h := by
  cases h with
  | idle => exact hbody hok
  | started need => exact ⟨hbody hok.1, hok.2.trans hgen⟩
  | missed need gen => exact ⟨hbody hok.1, hok.2.1, hok.2.2.trans hgen⟩
  | leading need =>
    obtain ⟨k, stage, hb, hneed⟩ := hok
    obtain ⟨stage', hb', hg⟩ := hgoes i k stage hb
    exact ⟨k, stage', hb', hg.gen ▸ hneed⟩
  | waiting need j =>
    obtain ⟨hneed, k, stage, hb, hissued⟩ := hok
    obtain ⟨stage', hb', hg⟩ := hgoes j k stage hb
    refine ⟨hneed.trans hgen, k, stage', hb', fun hc g hg' ↦ ?_⟩
    rcases hg.issued g hg' with hold | rfl
    · exact hissued hc g hold
    · exact hneed
  | done need snapshot => exact hok
  | absent => trivial
  | failed err => trivial

theorem Inv.setCall (h : Inv flightKey careful s) {c : Call C I} (hc : CallOk careful s i c) :
    Inv flightKey careful (s.setCall i c) where
  cache := h.cache
  keyed := h.keyed
  bodies := h.bodies
  calls j := by
    have hgoes : ∀ j k stage, s.fetchGroup.body j = some (k, stage) →
        ∃ stage', s.fetchGroup.body j = some (k, stage') ∧ Goes s.cacheGen stage stage' :=
      fun j k stage hb ↦ ⟨stage, hb, .refl _ _⟩
    by_cases hj : j = i
    · subst hj
      rw [State.setCall_self]
      exact hc.mono le_rfl id hgoes
    · rw [State.setCall_ne _ hj]
      exact (h.calls j).mono le_rfl id hgoes

theorem Inv.advance (h : Inv flightKey careful s) {k : String} {stage stage' : Stage O C I}
    {cache : Option (Snapshot C I)} (hb : s.fetchGroup.body i = some (k, stage))
    (hg : Goes s.cacheGen stage stage')
    (hcache : ∀ snapshot, cache = some snapshot → s.cache = some snapshot ∨
      stage.snapshot = some snapshot ∧ snapshot.issued ∈ stage.issued ∧ stage.gen = s.cacheGen) :
    Inv flightKey careful { s.advance i stage' with cache } where
  cache snapshot hs := by
    rcases hcache snapshot hs with hold | ⟨hsnap, hissued, hgen⟩
    · exact h.cache snapshot hold
    · have hok := (h.bodies i k stage hb).2
      have hbetween := hok.issued _ hissued
      rw [hgen] at hbetween
      exact ⟨(hok.snapshot snapshot hsnap).trans hgen, le_antisymm hbetween.2 hbetween.1⟩
  keyed := h.keyed.advance i stage'
  bodies j l st hj := by
    by_cases hji : j = i
    · subst hji
      have hnew := Flights.body_advance_self s.fetchGroup (v := stage') hb
      cases hnew.symm.trans hj
      obtain ⟨hkey, hok⟩ := h.bodies j k stage hb
      exact ⟨hg.gen ▸ hkey, hok.goes hg⟩
    · exact h.bodies j l st ((Flights.body_advance_ne s.fetchGroup hji).symm.trans hj)
  calls j := by
    refine (h.calls j).mono le_rfl (Flights.body_advance_none _) (fun l k' st hl ↦ ?_)
    by_cases hli : l = i
    · subst hli
      cases hb.symm.trans hl
      exact ⟨stage', Flights.body_advance_self s.fetchGroup hb, hg⟩
    · exact ⟨st, (Flights.body_advance_ne s.fetchGroup hli).trans hl, .refl _ _⟩

theorem Inv.lead (h : Inv flightKey careful s) {need gen : ℕ} (hi : s.calls i = .missed need gen) :
    Inv flightKey careful ({ s with
      fetchGroup := s.fetchGroup.lead (flightKey gen) i (.listing { gen }) }.setCall i (.leading need)) := by
  have hok := h.calls i
  rw [hi] at hok
  obtain ⟨hbody, hneed, hgen⟩ := hok
  have hne : ∀ j k stage, s.fetchGroup.body j = some (k, stage) → j ≠ i := by
    rintro j k stage hb rfl
    rw [hbody] at hb
    cases hb
  refine ⟨h.cache, h.keyed.lead hbody _, fun j k stage hj ↦ ?_, fun j ↦ ?_⟩
  · by_cases hji : j = i
    · subst hji
      cases (Flights.body_lead_self s.fetchGroup _ j _).symm.trans hj
      refine ⟨rfl, hgen, fun g hg ↦ ?_, fun _ hs ↦ ?_⟩
      · cases hg
      · cases hs
    · exact h.bodies j k stage ((Flights.body_lead_ne s.fetchGroup hji).symm.trans hj)
  · by_cases hji : j = i
    · subst hji
      rw [State.setCall_self]
      exact ⟨_, _, Flights.body_lead_self s.fetchGroup _ j _, hneed⟩
    · rw [State.setCall_ne _ hji]
      refine (h.calls j).mono le_rfl (fun hn ↦ (Flights.body_lead_ne s.fetchGroup hji).trans hn) ?_
      exact fun l k stage hl ↦
        ⟨stage, (Flights.body_lead_ne s.fetchGroup (hne l k stage hl)).trans hl, .refl _ _⟩

theorem Inv.land (h : Inv flightKey careful s) (i : ℕ) :
    Inv flightKey careful { s with fetchGroup := s.fetchGroup.land i } where
  cache := h.cache
  keyed := h.keyed.land i
  bodies j k stage hj := h.bodies j k stage (by rwa [Flights.body_land] at hj)
  calls j := by
    refine (h.calls j).mono le_rfl (fun hn ↦ by rwa [Flights.body_land]) (fun l k stage hl ↦ ?_)
    exact ⟨stage, by rwa [Flights.body_land], .refl _ _⟩

theorem Inv.invalidateCache (h : Inv flightKey careful s) :
    Inv flightKey careful { s with cacheGen := s.cacheGen + 1, cache := none } where
  cache _ hs := by cases hs
  keyed := h.keyed
  bodies j k stage hj := by
    obtain ⟨hkey, hok⟩ := h.bodies j k stage hj
    exact ⟨hkey, hok.gen.trans (Nat.le_succ _),
      fun g hg ↦ ⟨(hok.issued g hg).1, (hok.issued g hg).2.trans (Nat.le_succ _)⟩, hok.snapshot⟩
  calls i := (h.calls i).mono (Nat.le_succ _) id (fun j k stage hj ↦ ⟨stage, hj, .refl _ _⟩)

theorem Inv.frame (h : Inv flightKey careful s) (hcache : s'.cache = s.cache) (hgen : s'.cacheGen = s.cacheGen)
    (hgroup : s'.fetchGroup = s.fetchGroup) (hcalls : s'.calls = s.calls) : Inv flightKey careful s' := by
  refine ⟨?_, hgroup ▸ h.keyed, fun j k stage hj ↦ ?_, fun i ↦ ?_⟩
  · intro snapshot hs
    rw [hgen]
    exact h.cache snapshot (hcache ▸ hs)
  · rw [hgen]
    exact h.bodies j k stage (hgroup ▸ hj)
  · rw [hcalls]
    refine (h.calls i).mono hgen.ge (fun hn ↦ by rwa [hgroup]) (fun j k stage hj ↦ ?_)
    exact ⟨stage, by rwa [hgroup], .refl _ _⟩

theorem mem_issued_listing {fetch : Fetch O} {g : ℕ} :
    g ∈ (Stage.listing fetch : Stage O C I).issued ↔ ∃ kind, (fetch.lists kind).issued = some g := by
  simp only [Stage.issued, List.mem_filterMap, List.mem_cons, List.not_mem_nil, or_false]
  constructor
  · rintro ⟨_, rfl | rfl | rfl, h⟩ <;> exact ⟨_, h⟩
  · rintro ⟨kind, h⟩
    cases kind <;> exact ⟨_, by simp, h⟩

theorem goes_listing {fetch : Fetch O} {kind : ListKind} {listing : Listing O} {err : Option String} {n : ℕ}
    (h : ∀ g, listing.issued = some g → (fetch.lists kind).issued = some g ∨ g = n) :
    Goes n (.listing fetch : Stage O C I)
      (.listing { fetch with lists := update fetch.lists kind listing, err }) where
  gen := rfl
  issued g hg := by
    obtain ⟨kind', hk⟩ := mem_issued_listing.mp hg
    change (update fetch.lists kind listing kind').issued = some g at hk
    by_cases hkk : kind' = kind
    · subst hkk
      rw [update_self] at hk
      exact (h g hk).imp (fun h ↦ mem_issued_listing.mpr ⟨kind', h⟩) id
    · rw [update_of_ne hkk] at hk
      exact .inl (mem_issued_listing.mpr ⟨kind', hk⟩)
  snapshot _ hs := by cases hs

theorem goes_issue {fetch fetch' : Fetch O} {kind : ListKind} {n : ℕ} (h : fetch.issue kind n = some fetch') :
    Goes n (.listing fetch : Stage O C I) (.listing fetch') := by
  unfold Fetch.issue at h
  split at h <;> cases h
  exact goes_listing (fun g hg ↦ .inr (Option.some.inj hg).symm)

theorem goes_reply {fetch fetch' : Fetch O} {kind : ListKind} {items : Except String (List O)} {n : ℕ}
    (h : fetch.reply kind items = some fetch') : Goes n (.listing fetch : Stage O C I) (.listing fetch') := by
  unfold Fetch.reply at h
  split at h
  · split at h <;> cases h
    next hsent => exact goes_listing (fun g hg ↦ .inl (by rwa [hsent]))
  · split at h <;> cases h
    · exact goes_listing (fun g hg ↦ by cases hg)
    · exact goes_listing (fun g hg ↦ by cases hg)

theorem goes_wait {fetch : Fetch O} {result : Except String (Snapshot C I)} {n now : ℕ}
    (h : fetch.wait normalizer now = some result) :
    Goes n (.listing fetch) (.fetched fetch.gen result) := by
  unfold Fetch.wait at h
  split at h
  · split at h <;> cases h
    refine ⟨rfl, fun g hg ↦ ?_, fun _ hs ↦ ?_⟩
    · cases hg
    · cases hs
  · split at h <;> cases h
    next x certs y issuers z clusterIssuers hx hy hz =>
    refine ⟨rfl, fun g hg ↦ .inl ?_, fun _ hs ↦ .inr ?_⟩
    · have hmin : g = min x (min y z) := by simpa [Stage.issued, Stage.snapshot] using hg
      rw [mem_issued_listing]
      rcases min_choice x (min y z) with h | h
      · exact ⟨.certificates, by rw [hx, hmin, h]; rfl⟩
      · rcases min_choice y z with h' | h'
        · exact ⟨.issuers, by rw [hy, hmin, h, h']; rfl⟩
        · exact ⟨.clusterIssuers, by rw [hz, hmin, h, h']; rfl⟩
    · cases hs
      rfl

theorem goes_result {gen n : ℕ} {result : Except String (Snapshot C I)} {stage stage' : Stage O C I}
    (h : stage = .fetched gen result ∧ stage' = .stored gen result ∨
      stage = .stored gen result ∧ stage' = .landed gen result) : Goes n stage stage' := by
  rcases h with ⟨rfl, rfl⟩ | ⟨rfl, rfl⟩ <;> cases result <;>
    exact ⟨rfl, fun _ h ↦ .inl h, fun _ h ↦ .inl h⟩

theorem fetchStep_inv {k : String} {stage : Stage O C I} (h : Inv flightKey careful s)
    (hb : s.fetchGroup.body i = some (k, stage)) (hs : fetchStep normalizer s i stage a = some s') :
    Inv flightKey careful s' := by
  unfold fetchStep at hs
  split at hs
  · obtain ⟨fetch, hf, rfl⟩ := Option.map_eq_some_iff.mp hs
    exact h.advance hb (goes_issue hf) (fun _ hc ↦ .inl hc)
  · obtain ⟨fetch, hf, rfl⟩ := Option.map_eq_some_iff.mp hs
    exact h.advance hb (goes_reply hf) (fun _ hc ↦ .inl hc)
  · obtain ⟨result, hf, rfl⟩ := Option.map_eq_some_iff.mp hs
    exact h.advance hb (goes_wait hf) (fun _ hc ↦ .inl hc)
  · next gen result _ =>
    have hg : Goes s.cacheGen (.fetched gen result) (.stored gen result : Stage O C I) :=
      goes_result (.inl ⟨rfl, rfl⟩)
    cases hs
    refine h.advance hb hg (fun snapshot hc ↦ ?_)
    unfold State.storeBack at hc
    split at hc
    · split at hc
      · next hgen =>
        cases hc
        exact .inr ⟨rfl, by simp [Stage.issued, Stage.snapshot], hgen.symm⟩
      · exact .inl hc
    · exact .inl hc
  · cases hs

theorem State.fresh_eq_some {ttl : ℕ} {snapshot : Snapshot C I} (h : s.fresh ttl = some snapshot) :
    s.cache = some snapshot :=
  (Option.filter_eq_some_iff.mp h).1

theorem callOk_afterFetch {need : ℕ} {result : Except String (Snapshot C I)} {stage : Stage O C I}
    (hstage : ∀ snapshot, result = .ok snapshot → snapshot.issued ∈ stage.issued)
    (h : careful → ∀ g ∈ stage.issued, need ≤ g) : CallOk careful s i (afterFetch need result) := by
  unfold afterFetch
  split
  · trivial
  · exact fun hc ↦ h hc _ (hstage _ rfl)

theorem issued_mem_result {gen : ℕ} {result : Except String (Snapshot C I)} {stage : Stage O C I}
    (hstage : stage = .stored gen result ∨ stage = .landed gen result) :
    ∀ snapshot, result = .ok snapshot → snapshot.issued ∈ stage.issued := by
  rintro snapshot rfl
  rcases hstage with rfl | rfl <;> simp [Stage.issued, Stage.snapshot]

theorem callStep_inv {h : Call C I} (hinv : Inv flightKey careful s) (hi : s.calls i = h)
    (ha : ∀ j, a = .enter j → j = i) (hjoins : careful → JoinsRecent flightKey s a)
    (hs : callStep flightKey normalizer s i h a = some s') : Inv flightKey careful s' := by
  have hok := hinv.calls i
  rw [hi] at hok
  unfold callStep at hs
  split at hs
  · cases hs
    exact hinv.setCall ⟨hok, le_rfl⟩
  · split at hs <;> cases hs
    · next snapshot hf =>
      refine hinv.setCall (fun _ ↦ ?_)
      rw [(hinv.cache snapshot (State.fresh_eq_some hf)).2]
      exact hok.2
    · exact hinv.setCall ⟨hok.1, hok.2, le_rfl⟩
  · split at hs <;> cases hs
    · next snapshot hf =>
      refine hinv.setCall (fun _ ↦ ?_)
      rw [(hinv.cache snapshot (State.fresh_eq_some hf)).2]
      exact hok.2
    · exact hinv.setCall trivial
  · next need gen j =>
    cases ha j rfl
    split at hs <;> cases hs
    · next k hk =>
      obtain ⟨stage, hb⟩ := hinv.keyed _ _ hk
      refine hinv.setCall ⟨hok.2.1.trans hok.2.2, _, stage, hb, fun hc ↦ ?_⟩
      exact hjoins hc (need, gen) (by rw [hi]; rfl) k hk _ hb
    · exact hinv.lead hi
  · next need j =>
    split at hs <;> cases hs
    next key gen result hb =>
    obtain ⟨k, stage, hb', hneed⟩ := hok
    cases hb.symm.trans hb'
    have hissued := (hinv.bodies i _ _ hb).2.issued
    have hlanded : Inv flightKey careful (s.advance i (.landed gen result)) :=
      hinv.advance hb (goes_result (.inr ⟨rfl, rfl⟩)) (fun _ ↦ .inl)
    exact (hlanded.land i).setCall (callOk_afterFetch (issued_mem_result (.inl rfl))
      (fun _ g hg ↦ hneed.trans (hissued g hg).1))
  · split at hs
    · next hb => exact fetchStep_inv hinv hb hs
    · cases hs
  · next need j _ =>
    split at hs <;> cases hs
    next key gen result hb =>
    obtain ⟨-, k, stage, hb', hneed⟩ := hok
    cases hb.symm.trans hb'
    exact hinv.setCall (callOk_afterFetch (issued_mem_result (.inr rfl)) hneed)
  · cases hs

theorem inv_step (h : Inv flightKey careful s) (hjoins : careful → JoinsRecent flightKey s a)
    (hs : step flightKey normalizer s a = some s') : Inv flightKey careful s' := by
  have call : ∀ i, (∀ j, a = .enter j → j = i) →
      callStep flightKey normalizer s i (s.calls i) a = some s' → Inv flightKey careful s' :=
    fun i ha hi ↦ callStep_inv h rfl ha hjoins hi
  cases a
  case invalidateCache =>
    cases hs
    exact h.invalidateCache
  case advance =>
    cases hs
    exact h.frame rfl rfl rfl rfl
  all_goals exact call _ (by simp) hs

theorem Inv.fresh (h : Inv flightKey True s) : Fresh s := by
  intro i need snapshot hi
  have hok := h.calls i
  rw [hi] at hok
  exact hok trivial

theorem cacheCurrent_throughout (now : ℕ) (as : List (Act O)) :
    Throughout (step flightKey normalizer) CacheCurrent (init now : State O C I) as :=
  (throughout_of_step (I := Inv flightKey False) (fun _ _ _ h hs ↦ inv_step h False.elim hs)
    (inv_init now) as).mono (fun _ h ↦ h.cache)

theorem fresh_throughout (now : ℕ) (as : List (Act O))
    (h : EachStep (step flightKey normalizer) (JoinsRecent flightKey) (init now : State O C I) as) :
    Throughout (step flightKey normalizer) Fresh (init now) as :=
  (h.throughout (fun _ _ _ hinv hok hs ↦ inv_step hinv (fun _ ↦ hok) hs) (inv_init now)).mono
    (fun _ hinv ↦ hinv.fresh)

theorem Inv.joinsRecent (h : Inv flightKey careful s) (hkey : Injective flightKey) (a : Act O) :
    JoinsRecent flightKey s a := by
  cases a with
  | enter i =>
    intro x hx j hj b hb g hg
    have hok := h.calls i
    cases hi : s.calls i with
    | missed need gen =>
      rw [hi] at hx hok
      cases hx
      obtain ⟨stage, hstage⟩ := h.keyed _ _ hj
      cases hstage.symm.trans hb
      obtain ⟨hgen, hstageOk⟩ := h.bodies j _ _ hb
      have hsame : gen = stage.gen := hkey hgen
      exact (hok.2.1.trans hsame.le).trans (hstageOk.issued g hg).1
    | _ =>
      rw [hi] at hx
      cases hx
  | _ => trivial

/-- With a flight key that tells generations apart, as the external secrets handler has it,
every run is fresh. -/
theorem fresh_throughout_of_injective (hkey : Injective flightKey) (now : ℕ) (as : List (Act O)) :
    Throughout (step flightKey normalizer) Fresh (init now : State O C I) as :=
  (throughout_of_step (fun _ a _ h hs ↦ inv_step h (fun _ ↦ h.joinsRecent hkey a) hs)
    (inv_init now) as).mono (fun _ h ↦ h.fresh)

theorem generationKey_injective : Injective generationKey := by
  intro m n h
  have hdigits : Nat.toDigits 10 m = Nat.toDigits 10 n := by
    simpa [generationKey, ← String.toList_inj] using h
  simpa using congrArg (fun digits ↦ Nat.ofDigitChars 10 digits 0) hdigits

/-- The cache never holds what was fetched before the last `InvalidateCache`; and no read is
older than one it starts after, in every run whose joins are recent. -/
theorem getCached_current_and_fresh (normalizer : Normalizer O C I) (now : ℕ) (as : List (Act O)) :
    Throughout (step allKey normalizer) CacheCurrent (init now) as ∧
      (EachStep (step allKey normalizer) (JoinsRecent allKey) (init now) as →
        Throughout (step allKey normalizer) Fresh (init now) as) :=
  ⟨cacheCurrent_throughout now as, fresh_throughout now as⟩

section Run

def names : Normalizer String String String :=
  { normalizeCertificate := some, normalizeIssuer := fun name _ ↦ name, applyThresholds := fun certs _ _ ↦ certs }

def reads (i : ℕ) : List (Act String) := [.start i, .check i, .enter i]

def issues (i : ℕ) : List (Act String) :=
  [.issue i .certificates, .issue i .issuers, .issue i .clusterIssuers]

def returns (i : ℕ) (cert : String) : List (Act String) :=
  [.reply i .certificates (.ok [cert]), .reply i .issuers (.ok []), .reply i .clusterIssuers (.ok []),
    .wait i, .storeBack i, .land i]

/-- Call 1 joins the flight of call 0, which has issued no list yet when the cache is invalidated. -/
def recentJoin : List (Act String) :=
  reads 0 ++ [.invalidateCache] ++ reads 1 ++ issues 0 ++ returns 0 "renewed" ++ [.wake 1]

theorem getCached_current_and_fresh_recentJoin :
    (exec (step allKey names) (init 0) recentJoin).isSome ∧
      Throughout (step allKey names) Fresh (init 0) recentJoin :=
  ⟨by decide, (getCached_current_and_fresh names 0 recentJoin).2 (by decide)⟩

/-- The lists of call 0 are out when the cache is invalidated, and call 1 joins its flight. -/
def staleJoin : List (Act String) :=
  reads 0 ++ issues 0 ++ [.invalidateCache] ++ reads 1 ++ returns 0 "old" ++ [.wake 1]

theorem staleJoin_served :
    (exec (step allKey names) (init 0) staleJoin).map (fun s ↦
      match s.calls 1 with
      | .done need snapshot => (need, snapshot.issued, snapshot.data.certificates)
      | _ => (0, 0, [])) = some (1, 0, ["old"]) := by
  decide

theorem not_fresh_throughout :
    ¬ ∀ now as, Throughout (step allKey names) (fun s ↦ Fresh s ∧ CacheCurrent s) (init now) as := by
  intro h
  obtain ⟨s, hs, he⟩ := Option.map_eq_some_iff.mp staleJoin_served
  have hlast := (h 0 staleJoin).last hs
  cases hi : s.calls 1 with
  | done need snapshot =>
    rw [hi] at he
    obtain ⟨rfl, hissued, -⟩ : need = 1 ∧ snapshot.issued = 0 ∧ _ := by simpa using he
    have hle := hlast.1 1 1 snapshot hi
    omega
  | _ => simp [hi] at he

end Run

end KubeCenter.CertManager
