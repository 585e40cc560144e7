import Mathlib.Data.List.Basic
import Mathlib.Order.MinMax
import KubeCenter.Core.Runs
import KubeCenter.Core.Singleflight

/-! A cache filled through one singleflight flight: a generation counter, raised by every
invalidation, keeps a fetch that began before one from storing what it brings. -/

namespace KubeCenter.Core.GuardedCache

open Function

/-- What a flight does. `issued` and `listed` are history: the generations of the cache at which
a fetch has sent its requests so far, and those of the requests that data is made of. -/
structure Fetcher (B A D : Type) where
  ttl : ℕ
  begin : B
  act : ℕ → B → A → Option B
  result : ℕ → B → Option (Except String D)
  fetchedAt : D → ℕ
  issued : B → List ℕ
  listed : D → List ℕ

/-- A fetch sends its requests when it does, and its data is made of requests it has sent. -/
structure Fetcher.Lawful {B A D : Type} (f : Fetcher B A D) : Prop where
  begin : f.issued f.begin = []
  act : ∀ n b a b', f.act n b a = some b' → ∀ g ∈ f.issued b', g ∈ f.issued b ∨ g = n
  result : ∀ now b d, f.result now b = some (.ok d) → ∀ g ∈ f.listed d, g ∈ f.issued b

/-- How far a flight is; it stores under the generation that it has read first. -/
inductive Stage (B D : Type)
  | entered
  | fetching (gen : ℕ) (body : B)
  | fetched (gen : ℕ) (result : Except String D)
  | stored (gen : ℕ) (result : Except String D)
  | landed (gen : ℕ) (result : Except String D)

/-- Where one call stands. `need` is history: how many invalidations had returned when it
started. -/
inductive Call (D : Type)
  | idle
  | started (need : ℕ)
  | missed (need : ℕ)
  | leading (need : ℕ)
  | waiting (need flight : ℕ)
  | done (need : ℕ) (data : D)
  | failed (err : String)

structure State (B D : Type) where
  now : ℕ
  cache : Option D := none
  cacheGen : ℕ := 0
  fetchGroup : Flights Unit (Stage B D) := {}
  calls : ℕ → Call D := fun _ ↦ .idle

inductive Act (A : Type)
  | start (i : ℕ)
  | check (i : ℕ)
  | enter (i : ℕ)
  | begin (i : ℕ)
  | act (i : ℕ) (a : A)
  | finish (i : ℕ)
  | storeBack (i : ℕ)
  | land (i : ℕ)
  | wake (i : ℕ)
  | invalidate
  | advance (d : ℕ)

variable {B A D : Type}

namespace State

variable (s : State B D)

def setCall (i : ℕ) (c : Call D) : State B D := { s with calls := update s.calls i c }

theorem setCall_self (i : ℕ) (c : Call D) : (s.setCall i c).calls i = c := update_self ..

theorem setCall_ne {i j : ℕ} (hj : j ≠ i) (c : Call D) : (s.setCall i c).calls j = s.calls j :=
  update_of_ne hj ..

def advance (i : ℕ) (stage : Stage B D) : State B D :=
  { s with fetchGroup := s.fetchGroup.advance i stage }

def fresh (f : Fetcher B A D) : Option D := s.cache.filter (fun d ↦ s.now < f.fetchedAt d + f.ttl)

def storeBack (gen : ℕ) : Except String D → Option D
  | .ok d => if s.cacheGen = gen then some d else s.cache
  | .error _ => s.cache

end State

def afterFetch (need : ℕ) : Except String D → Call D
  | .error err => .failed err
  | .ok d => .done need d

variable (f : Fetcher B A D)

def flightStep (s : State B D) (i : ℕ) : Stage B D → Act A → Option (State B D)
  | .entered, .begin _ => some (s.advance i (.fetching s.cacheGen f.begin))
  | .fetching gen b, .act _ a => (f.act s.cacheGen b a).map (fun b ↦ s.advance i (.fetching gen b))
  | .fetching gen b, .finish _ => (f.result s.now b).map (fun r ↦ s.advance i (.fetched gen r))
  | .fetched gen r, .storeBack _ =>
    some { s.advance i (.stored gen r) with cache := s.storeBack gen r }
  | _, _ => none

def callStep (s : State B D) (i : ℕ) : Call D → Act A → Option (State B D)
  | .idle, .start _ => some (s.setCall i (.started s.cacheGen))
  | .started need, .check _ =>
    match s.fresh f with
    | some d => some (s.setCall i (.done need d))
    | none => some (s.setCall i (.missed need))
  | .missed need, .enter _ =>
    match s.fetchGroup.calls.lookup () with
    | some j => some (s.setCall i (.waiting need j))
    | none => some ({ s with fetchGroup := s.fetchGroup.lead () i .entered }.setCall i (.leading need))
  | .leading need, .land _ =>
    match s.fetchGroup.body i with
    | some (_, .stored gen r) =>
      some ({ s with fetchGroup := (s.fetchGroup.advance i (.landed gen r)).land i }.setCall i
        (afterFetch need r))
    | _ => none
  | .leading _, a =>
    match s.fetchGroup.body i with
    | some (_, stage) => flightStep f s i stage a
    | none => none
  | .waiting need j, .wake _ =>
    match s.fetchGroup.body j with
    | some (_, .landed _ r) => some (s.setCall i (afterFetch need r))
    | _ => none
  | _, _ => none

def step (s : State B D) (a : Act A) : Option (State B D) :=
  match a with
  | .start i | .check i | .enter i | .begin i | .act i _ | .finish i | .storeBack i | .land i | .wake i =>
    callStep f s i (s.calls i) a
  | .invalidate => some { s with cacheGen := s.cacheGen + 1, cache := none }
  | .advance d => some { s with now := s.now + d }

def init (now : ℕ) : State B D := { now }

/-! What a run keeps, with freshness of the calls that return left to a condition on the joins. -/

namespace Stage

def result : Stage B D → Option (Except String D)
  | .fetched _ r | .stored _ r | .landed _ r => some r
  | _ => none

def issued : Stage B D → List ℕ
  | .entered => []
  | .fetching _ b => f.issued b
  | .fetched _ r | .stored _ r | .landed _ r => r.toOption.toList.flatMap f.listed

/-- The generation under which a flight stores; one that has read none yet will read the next one. -/
def gen (n : ℕ) : Stage B D → ℕ
  | .entered => n
  | .fetching gen _ | .fetched gen _ | .stored gen _ | .landed gen _ => gen

end Stage

/-- No call has returned data requested before an invalidation that it started after. -/
def Fresh (s : State B D) : Prop := ∀ i need d, s.calls i = .done need d → ∀ g ∈ f.listed d, need ≤ g

/-- What is cached was requested since the last invalidation. -/
def CacheCurrent (s : State B D) : Prop := ∀ d, s.cache = some d → ∀ g ∈ f.listed d, g = s.cacheGen

/-- All data that a call has returned or the cache holds is good. -/
def Serves (Good : D → Prop) (s : State B D) : Prop :=
  (∀ d, s.cache = some d → Good d) ∧ ∀ i need d, s.calls i = .done need d → Good d

def Call.entering : Call D → Option ℕ
  | .missed need => some need
  | _ => none

/-- No call joins a flight that has sent a request before an invalidation that the call started after. -/
def JoinsRecent (s : State B D) : Act A → Prop
  | .enter i => ∀ need ∈ (s.calls i).entering, ∀ j ∈ s.fetchGroup.calls.lookup (),
      ∀ b ∈ s.fetchGroup.body j, ∀ g ∈ b.2.issued f, need ≤ g
  | _ => True

/-- What a flight comes to is good. -/
def FinishesGood (Good : D → Prop) (s : State B D) : Act A → Prop
  | .finish i => ∀ b ∈ s.fetchGroup.body i, ∀ gen body, b.2 = .fetching gen body →
      ∀ d, f.result s.now body = some (.ok d) → Good d
  | _ => True

instance (s : State B D) (a : Act A) : Decidable (JoinsRecent f s a) := by
  cases a with
  | enter i => exact inferInstanceAs (Decidable (∀ need ∈ (s.calls i).entering, ∀ j ∈ _, ∀ b ∈ _, ∀ g ∈ _, _))
  | _ => exact .isTrue trivial

section Safety

variable {f} {careful : Prop} {Good : D → Prop} {s s' : State B D} {a : Act A} {i : ℕ}

structure StageOk (f : Fetcher B A D) (n : ℕ) (stage : Stage B D) : Prop where
  gen : stage.gen n ≤ n
  issued : ∀ g ∈ stage.issued f, stage.gen n ≤ g ∧ g ≤ n

/-- What holds of call `i` where it stands; what it returns is fresh if the joins are. -/
def CallOk (f : Fetcher B A D) (careful : Prop) (s : State B D) (i : ℕ) : Call D → Prop
  | .idle => s.fetchGroup.body i = none
  | .started need | .missed need => s.fetchGroup.body i = none ∧ need ≤ s.cacheGen
  | .leading need => ∃ k stage, s.fetchGroup.body i = some (k, stage) ∧ need ≤ stage.gen s.cacheGen
  | .waiting need j => need ≤ s.cacheGen ∧
      ∃ k stage, s.fetchGroup.body j = some (k, stage) ∧ (careful → ∀ g ∈ stage.issued f, need ≤ g)
  | .done need d => careful → ∀ g ∈ f.listed d, need ≤ g
  | .failed _ => True

structure Inv (f : Fetcher B A D) (careful : Prop) (s : State B D) : Prop where
  cache : CacheCurrent f s
  keyed : s.fetchGroup.Keyed
  bodies : ∀ j k stage, s.fetchGroup.body j = some (k, stage) → StageOk f s.cacheGen stage
  calls : ∀ i, CallOk f careful s i (s.calls i)

theorem inv_init (now : ℕ) : Inv f careful (init now) where
  cache _ h := by cases h
  keyed := Flights.keyed_empty
  bodies _ _ _ h := by cases h
  calls _ := rfl

/-- A flight goes from `stage` to `stage'` while the cache is at generation `n`: what it requests
it requests now. -/
structure Goes (f : Fetcher B A D) (n : ℕ) (stage stage' : Stage B D) : Prop where
  gen : stage'.gen n = stage.gen n
  issued : ∀ g ∈ stage'.issued f, g ∈ stage.issued f ∨ g = n

theorem Goes.refl (n : ℕ) (stage : Stage B D) : Goes f n stage stage := ⟨rfl, fun _ h ↦ .inl h⟩

theorem StageOk.goes {n : ℕ} {stage stage' : Stage B D} (h : StageOk f n stage) (hg : Goes f n stage stage') :
    StageOk f n stage' where
  gen := hg.gen ▸ h.gen
  issued g hg' := by
    rw [hg.gen]
    rcases hg.issued g hg' with hold | rfl
    · exact h.issued g hold
    · exact ⟨h.gen, le_rfl⟩

theorem Stage.gen_mono {m n : ℕ} (h : m ≤ n) (stage : Stage B D) : stage.gen m ≤ stage.gen n := by
  cases stage with
  | entered => exact h
  | _ => exact le_rfl

theorem StageOk.succ {n : ℕ} {stage : Stage B D} (h : StageOk f n stage) : StageOk f (n + 1) stage := by
  cases stage with
  | entered => exact ⟨le_rfl, fun g hg ↦ by cases hg⟩
  | _ => exact ⟨h.gen.trans (Nat.le_succ n), fun g hg ↦ ⟨(h.issued g hg).1, (h.issued g hg).2.trans (Nat.le_succ n)⟩⟩

theorem CallOk.mono {c : Call D} (hok : CallOk f careful s i c) (hgen : s.cacheGen ≤ s'.cacheGen)
    (hbody : s.fetchGroup.body i = none → s'.fetchGroup.body i = none)
    (hgoes : ∀ j k stage, s.fetchGroup.body j = some (k, stage) →
      ∃ stage', s'.fetchGroup.body j = some (k, stage') ∧ Goes f s.cacheGen stage stage') :
    CallOk f careful s' i c := by
  cases c with
  | idle => exact hbody hok
  | started need => exact ⟨hbody hok.1, hok.2.trans hgen⟩
  | missed need => exact ⟨hbody hok.1, hok.2.trans hgen⟩
  | leading need =>
    obtain ⟨k, stage, hb, hneed⟩ := hok
    obtain ⟨stage', hb', hg⟩ := hgoes i k stage hb
    exact ⟨k, stage', hb', (hneed.trans hg.gen.ge).trans (stage'.gen_mono hgen)⟩
  | waiting need j =>
    obtain ⟨hneed, k, stage, hb, hissued⟩ := hok
    obtain ⟨stage', hb', hg⟩ := hgoes j k stage hb
    refine ⟨hneed.trans hgen, k, stage', hb', fun hc g hg' ↦ ?_⟩
    rcases hg.issued g hg' with hold | rfl
    · exact hissued hc g hold
    · exact hneed
  | done need d => exact hok
  | failed err => trivial

theorem Inv.setCall (h : Inv f careful s) {c : Call D} (hc : CallOk f careful s i c) :
    Inv f careful (s.setCall i c) where
  cache := h.cache
  keyed := h.keyed
  bodies := h.bodies
  calls j := by
    have hgoes : ∀ j k stage, s.fetchGroup.body j = some (k, stage) →
        ∃ stage', s.fetchGroup.body j = some (k, stage') ∧ Goes f s.cacheGen stage stage' :=
      fun j k stage hb ↦ ⟨stage, hb, .refl _ _⟩
    by_cases hj : j = i
    · subst hj
      rw [State.setCall_self]
      exact hc.mono le_rfl id hgoes
    · rw [State.setCall_ne _ hj]
      exact (h.calls j).mono le_rfl id hgoes

theorem Inv.advance (h : Inv f careful s) {k : Unit} {stage stage' : Stage B D} {cache : Option D}
    (hb : s.fetchGroup.body i = some (k, stage)) (hg : Goes f s.cacheGen stage stage')
    (hcache : ∀ d, cache = some d → ∀ g ∈ f.listed d, g = s.cacheGen) :
    Inv f careful { s.advance i stage' with cache } where
  cache := hcache
  keyed := h.keyed.advance i stage'
  bodies j l stage₁ hj := by
    by_cases hji : j = i
    · subst hji
      cases (Flights.body_advance_self s.fetchGroup hb).symm.trans hj
      exact (h.bodies j k stage hb).goes hg
    · exact h.bodies j l stage₁ ((Flights.body_advance_ne s.fetchGroup hji).symm.trans hj)
  calls j := by
    refine (h.calls j).mono le_rfl (fun hn ↦ Flights.body_advance_none s.fetchGroup hn) (fun l k₁ stage₁ hl ↦ ?_)
    by_cases hli : l = i
    · subst hli
      cases hb.symm.trans hl
      exact ⟨stage', Flights.body_advance_self s.fetchGroup hb, hg⟩
    · exact ⟨stage₁, (Flights.body_advance_ne s.fetchGroup hli).trans hl, .refl _ _⟩

theorem Inv.lead (h : Inv f careful s) {need : ℕ} (hi : s.calls i = .missed need) :
    Inv f careful ({ s with fetchGroup := s.fetchGroup.lead () i .entered }.setCall i (.leading need)) := by
  have hok := h.calls i
  rw [hi] at hok
  obtain ⟨hbody, hneed⟩ := hok
  have hne : ∀ j k stage, s.fetchGroup.body j = some (k, stage) → j ≠ i := by
    rintro j k stage hb rfl
    rw [hbody] at hb
    cases hb
  refine ⟨h.cache, h.keyed.lead hbody _, fun j k stage hj ↦ ?_, fun j ↦ ?_⟩
  · by_cases hji : j = i
    · subst hji
      cases (Flights.body_lead_self s.fetchGroup _ j _).symm.trans hj
      exact ⟨le_rfl, fun g hg ↦ by cases hg⟩
    · exact h.bodies j k stage ((Flights.body_lead_ne s.fetchGroup hji).symm.trans hj)
  · by_cases hji : j = i
    · subst hji
      rw [State.setCall_self]
      exact ⟨_, _, Flights.body_lead_self s.fetchGroup _ j _, hneed⟩
    · rw [State.setCall_ne _ hji]
      refine (h.calls j).mono le_rfl (fun hn ↦ (Flights.body_lead_ne s.fetchGroup hji).trans hn) ?_
      exact fun l k stage hl ↦
        ⟨stage, (Flights.body_lead_ne s.fetchGroup (hne l k stage hl)).trans hl, .refl _ _⟩

theorem Inv.land (h : Inv f careful s) (i : ℕ) :
    Inv f careful { s with fetchGroup := s.fetchGroup.land i } where
  cache := h.cache
  keyed := h.keyed.land i
  bodies j k stage hj := h.bodies j k stage (by rwa [Flights.body_land] at hj)
  calls j := by
    refine (h.calls j).mono le_rfl (fun hn ↦ by rwa [Flights.body_land]) (fun l k stage hl ↦ ?_)
    exact ⟨stage, by rwa [Flights.body_land], .refl _ _⟩

theorem Inv.invalidate (h : Inv f careful s) :
    Inv f careful { s with cacheGen := s.cacheGen + 1, cache := none } where
  cache _ hs := by cases hs
  keyed := h.keyed
  bodies j k stage hj := (h.bodies j k stage hj).succ
  calls i := (h.calls i).mono (Nat.le_succ _) id (fun j k stage hj ↦ ⟨stage, hj, .refl _ _⟩)

theorem Inv.tick (h : Inv f careful s) (d : ℕ) : Inv f careful { s with now := s.now + d } :=
  ⟨h.cache, h.keyed, h.bodies,
    fun i ↦ (h.calls i).mono le_rfl id (fun _ _ stage hj ↦ ⟨stage, hj, .refl _ _⟩)⟩

theorem Stage.mem_issued {stage : Stage B D} {d : D} {g : ℕ} (h : stage.result = some (.ok d)) :
    g ∈ stage.issued f ↔ g ∈ f.listed d := by
  cases stage <;> cases h <;> simp [Stage.issued, Except.toOption]

theorem flightStep_inv (hf : f.Lawful) {k : Unit} {stage : Stage B D} (h : Inv f careful s)
    (hb : s.fetchGroup.body i = some (k, stage)) (hs : flightStep f s i stage a = some s') :
    Inv f careful s' := by
  unfold flightStep at hs
  split at hs
  · cases hs
    refine h.advance hb ⟨rfl, fun g hg ↦ ?_⟩ h.cache
    change g ∈ f.issued f.begin at hg
    rw [hf.begin] at hg
    cases hg
  · next gen b _ x =>
    obtain ⟨b', hact, rfl⟩ := Option.map_eq_some_iff.mp hs
    exact h.advance hb ⟨rfl, hf.act _ _ _ _ hact⟩ h.cache
  · next gen b _ =>
    obtain ⟨r, hresult, rfl⟩ := Option.map_eq_some_iff.mp hs
    refine h.advance hb ⟨rfl, fun g hg ↦ .inl ?_⟩ h.cache
    cases r with
    | error err => cases hg
    | ok d => exact hf.result _ _ _ hresult g ((Stage.mem_issued rfl).mp hg)
  · next gen r _ =>
    cases hs
    refine h.advance hb ⟨rfl, fun _ ↦ .inl⟩ (fun d hd g hg ↦ ?_)
    unfold State.storeBack at hd
    split at hd
    · split at hd
      · next hgen =>
        cases hd
        have hbetween := (h.bodies i k _ hb).issued g ((Stage.mem_issued rfl).mpr hg)
        change gen ≤ g ∧ g ≤ s.cacheGen at hbetween
        omega
      · exact h.cache d hd g hg
    · exact h.cache d hd g hg
  · cases hs

theorem State.fresh_eq_some {d : D} (h : s.fresh f = some d) : s.cache = some d :=
  (Option.filter_eq_some_iff.mp h).1

theorem callOk_afterFetch {need : ℕ} {r : Except String D}
    (h : careful → ∀ d, r = .ok d → ∀ g ∈ f.listed d, need ≤ g) : CallOk f careful s i (afterFetch need r) := by
  unfold afterFetch
  split
  · trivial
  · exact fun hc ↦ h hc _ rfl

theorem callStep_inv (hf : f.Lawful) {c : Call D} (hinv : Inv f careful s) (hi : s.calls i = c)
    (ha : ∀ j, a = .enter j → j = i) (hjoins : careful → JoinsRecent f s a)
    (hs : callStep f s i c a = some s') : Inv f careful s' := by
  have hok := hinv.calls i
  rw [hi] at hok
  unfold callStep at hs
  split at hs
  · cases hs
    exact hinv.setCall ⟨hok, le_rfl⟩
  · split at hs <;> cases hs
    · next d hfresh =>
      refine hinv.setCall (fun _ g hg ↦ ?_)
      rw [hinv.cache d (State.fresh_eq_some hfresh) g hg]
      exact hok.2
    · exact hinv.setCall hok
  · next need j =>
    cases ha j rfl
    split at hs <;> cases hs
    · next k hk =>
      obtain ⟨stage, hb⟩ := hinv.keyed _ _ hk
      refine hinv.setCall ⟨hok.2, _, stage, hb, fun hc ↦ ?_⟩
      exact hjoins hc need (by rw [hi]; rfl) k hk _ hb
    · exact hinv.lead hi
  · next need j =>
    split at hs <;> cases hs
    next key gen r hb =>
    obtain ⟨k, stage, hb', hneed⟩ := hok
    cases hb.symm.trans hb'
    have hlanded : Inv f careful (s.advance i (.landed gen r)) :=
      hinv.advance hb ⟨rfl, fun _ ↦ .inl⟩ hinv.cache
    refine (hlanded.land i).setCall (callOk_afterFetch (fun _ d hd g hg ↦ ?_))
    subst hd
    exact hneed.trans ((hinv.bodies i _ _ hb).issued g ((Stage.mem_issued rfl).mpr hg)).1
  · split at hs
    · next hb => exact flightStep_inv hf hinv hb hs
    · cases hs
  · next need j _ =>
    split at hs <;> cases hs
    next key gen r hb =>
    obtain ⟨-, k, stage, hb', hneed⟩ := hok
    cases hb.symm.trans hb'
    refine hinv.setCall (callOk_afterFetch (fun hc d hd g hg ↦ ?_))
    subst hd
    exact hneed hc g ((Stage.mem_issued rfl).mpr hg)
  · cases hs

theorem inv_step (hf : f.Lawful) (h : Inv f careful s) (hjoins : careful → JoinsRecent f s a)
    (hs : step f s a = some s') : Inv f careful s' := by
  have call : ∀ i, (∀ j, a = .enter j → j = i) → callStep f s i (s.calls i) a = some s' → Inv f careful s' :=
    fun i ha hi ↦ callStep_inv hf h rfl ha hjoins hi
  cases a
  case invalidate =>
    cases hs
    exact h.invalidate
  case advance d =>
    cases hs
    exact h.tick d
  all_goals exact call _ (by simp) hs

theorem Inv.fresh (h : Inv f True s) : Fresh f s := by
  intro i need d hi
  have hok := h.calls i
  rw [hi] at hok
  exact hok trivial

theorem cacheCurrent_throughout (hf : f.Lawful) (now : ℕ) (as : List (Act A)) :
    Throughout (step f) (CacheCurrent f) (init now) as :=
  (throughout_of_step (I := Inv f False) (fun _ _ _ h hs ↦ inv_step hf h False.elim hs)
    (inv_init now) as).mono (fun _ h ↦ h.cache)

theorem fresh_throughout (hf : f.Lawful) (now : ℕ) (as : List (Act A))
    (h : EachStep (step f) (JoinsRecent f) (init now) as) : Throughout (step f) (Fresh f) (init now) as :=
  (h.throughout (fun _ _ _ hinv hok hs ↦ inv_step hf hinv (fun _ ↦ hok) hs) (inv_init now)).mono
    (fun _ hinv ↦ hinv.fresh)

/-- Good data wherever there is data: in the cache, with the calls and on its way. -/
structure Sound (Good : D → Prop) (s : State B D) : Prop where
  cache : ∀ d, s.cache = some d → Good d
  bodies : ∀ j k stage, s.fetchGroup.body j = some (k, stage) → ∀ d, stage.result = some (.ok d) → Good d
  calls : ∀ i need d, s.calls i = .done need d → Good d

theorem Sound.setCall (h : Sound Good s) {c : Call D} (hc : ∀ need d, c = .done need d → Good d) :
    Sound Good (s.setCall i c) where
  cache := h.cache
  bodies := h.bodies
  calls j need d hj := by
    by_cases hji : j = i
    · subst hji
      rw [State.setCall_self] at hj
      exact hc need d hj
    · rw [State.setCall_ne _ hji] at hj
      exact h.calls j need d hj

theorem Sound.advance (h : Sound Good s) {stage : Stage B D} {cache : Option D}
    (hstage : ∀ d, stage.result = some (.ok d) → Good d) (hcache : ∀ d, cache = some d → Good d) :
    Sound Good { s.advance i stage with cache } where
  cache := hcache
  bodies j k stage₁ hj := by
    by_cases hji : j = i
    · subst hji
      cases hb : s.fetchGroup.body j with
      | none =>
        cases (Flights.body_advance_none s.fetchGroup hb).symm.trans hj
      | some b =>
        cases (Flights.body_advance_self s.fetchGroup hb).symm.trans hj
        exact hstage
    · exact h.bodies j k stage₁ ((Flights.body_advance_ne s.fetchGroup hji).symm.trans hj)
  calls := h.calls

theorem Sound.lead (h : Sound Good s) (i : ℕ) :
    Sound Good { s with fetchGroup := s.fetchGroup.lead () i .entered } where
  cache := h.cache
  bodies j k stage hj d hd := by
    by_cases hji : j = i
    · subst hji
      cases (Flights.body_lead_self s.fetchGroup _ j _).symm.trans hj
      cases hd
    · exact h.bodies j k stage ((Flights.body_lead_ne s.fetchGroup hji).symm.trans hj) d hd
  calls := h.calls

theorem Sound.land (h : Sound Good s) (i : ℕ) : Sound Good { s with fetchGroup := s.fetchGroup.land i } where
  cache := h.cache
  bodies j k stage hj := h.bodies j k stage (by rwa [Flights.body_land] at hj)
  calls := h.calls

theorem good_afterFetch {need : ℕ} {r : Except String D} (h : ∀ d, r = .ok d → Good d) :
    ∀ n d, afterFetch need r = .done n d → Good d := by
  intro n d hd
  cases r with
  | error err => cases hd
  | ok d' =>
    cases hd
    exact h d rfl

theorem sound_flightStep {k : Unit} {stage : Stage B D} (h : Sound Good s)
    (hb : s.fetchGroup.body i = some (k, stage)) (ha : ∀ j, a = .finish j → j = i)
    (hgood : FinishesGood f Good s a) (hs : flightStep f s i stage a = some s') : Sound Good s' := by
  unfold flightStep at hs
  split at hs
  · cases hs
    exact h.advance (fun d hd ↦ by cases hd) h.cache
  · obtain ⟨b', -, rfl⟩ := Option.map_eq_some_iff.mp hs
    exact h.advance (fun d hd ↦ by cases hd) h.cache
  · next gen b j =>
    cases ha j rfl
    obtain ⟨r, hresult, rfl⟩ := Option.map_eq_some_iff.mp hs
    refine h.advance (fun d hd ↦ ?_) h.cache
    cases hd
    exact hgood _ hb gen b rfl d hresult
  · next gen r _ =>
    cases hs
    have hr : ∀ d, r = .ok d → Good d := fun d hd ↦ h.bodies i k _ hb d (by rw [hd]; rfl)
    refine h.advance (fun d hd ↦ hr d (Option.some.inj hd)) (fun d hd ↦ ?_)
    unfold State.storeBack at hd
    split at hd
    · split at hd
      · cases hd
        exact hr d rfl
      · exact h.cache d hd
    · exact h.cache d hd
  · cases hs

theorem sound_callStep {c : Call D} (h : Sound Good s) (hi : s.calls i = c)
    (ha : ∀ j, a = .finish j → j = i) (hgood : FinishesGood f Good s a) (hs : callStep f s i c a = some s') :
    Sound Good s' := by
  unfold callStep at hs
  split at hs
  · cases hs
    exact h.setCall (fun _ _ hd ↦ by cases hd)
  · split at hs <;> cases hs
    · next d hfresh =>
      refine h.setCall (fun _ d hd ↦ ?_)
      cases hd
      exact h.cache d (State.fresh_eq_some hfresh)
    · exact h.setCall (fun _ _ hd ↦ by cases hd)
  · split at hs <;> cases hs
    · exact h.setCall (fun _ _ hd ↦ by cases hd)
    · exact (h.lead i).setCall (fun _ _ hd ↦ by cases hd)
  · split at hs <;> cases hs
    next gen r hb =>
    have hr : ∀ d, r = .ok d → Good d := fun d hd ↦ h.bodies i _ _ hb d (by rw [hd]; rfl)
    have hlanded : Sound Good (s.advance i (.landed gen r)) :=
      h.advance (fun d hd ↦ hr d (Option.some.inj hd)) h.cache
    exact (hlanded.land i).setCall (good_afterFetch hr)
  · split at hs
    · next hb => exact sound_flightStep h hb ha hgood hs
    · cases hs
  · split at hs <;> cases hs
    next r hb =>
    exact h.setCall (good_afterFetch (fun d hd ↦ h.bodies _ _ _ hb d (by rw [hd]; rfl)))
  · cases hs

theorem sound_step (h : Sound Good s) (hgood : FinishesGood f Good s a) (hs : step f s a = some s') :
    Sound Good s' := by
  have call : ∀ i, (∀ j, a = .finish j → j = i) → callStep f s i (s.calls i) a = some s' → Sound Good s' :=
    fun i ha hi ↦ sound_callStep h rfl ha hgood hi
  cases a
  case invalidate =>
    cases hs
    exact ⟨fun _ hd ↦ (by cases hd), h.bodies, h.calls⟩
  case advance d =>
    cases hs
    exact ⟨h.cache, h.bodies, h.calls⟩
  all_goals exact call _ (by simp) hs

theorem serves_throughout (now : ℕ) (as : List (Act A))
    (h : EachStep (step f) (FinishesGood f Good) (init now) as) : Throughout (step f) (Serves Good) (init now) as := by
  refine (h.throughout (I := Sound Good) (fun _ _ _ hinv hok hs ↦ sound_step hinv hok hs) ?_).mono
    (fun _ hinv ↦ ⟨hinv.cache, hinv.calls⟩)
  exact ⟨fun _ hd ↦ (by cases hd), fun _ _ _ hb ↦ (by cases hb), fun _ _ _ hc ↦ (by cases hc)⟩

end Safety

end KubeCenter.Core.GuardedCache
