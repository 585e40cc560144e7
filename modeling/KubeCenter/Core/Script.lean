import Mathlib.Data.List.Basic
import Mathlib.Data.Nat.Notation
import Mathlib.Logic.Function.Basic

/-! Programs of calls: each is run against one server out of many. -/

namespace KubeCenter.Core

inductive Script (Q A α : Type)
  | done (a : α)
  | call (q : Q) (next : A → Script Q A α)

namespace Script

variable {Q A α ι σ : Type}

/-- How a program ends: its value, the server's state and the calls that were sent. -/
structure Ran (Q α σ : Type) where
  value : α
  state : σ
  sent : List Q

/-- `live` calls reach the server before the program's context is cancelled; the ones after get `cancelled`. -/
def run (serve : Q → σ → A × σ) (cancelled : A) : ℕ → Script Q A α → σ → Ran Q α σ
  | _, done a, s => ⟨a, s, []⟩
  | 0, call _ next, s => run serve cancelled 0 (next cancelled) s
  | live + 1, call q next, s =>
    let (a, s') := serve q s
    let ran := run serve cancelled live (next a) s'
    { ran with sent := q :: ran.sent }

/-- Every call a program may send, whatever the replies, is of a kind. -/
inductive Every (P : Q → Prop) : Script Q A α → Prop
  | done (a : α) : Every P (.done a)
  | call {q : Q} {next : A → Script Q A α} : P q → (∀ a, Every P (next a)) → Every P (.call q next)

/-- What is sent in a run is of that kind. -/
theorem Every.run {P : Q → Prop} {serve : Q → σ → A × σ} {cancelled : A} {live : ℕ} {p : Script Q A α} {s : σ}
    (h : p.Every P) : ∀ q ∈ (p.run serve cancelled live s).sent, P q := by
  induction h generalizing live s with
  | done a => cases live <;> exact List.forall_mem_nil _
  | call hq _ ih =>
    cases live with
    | zero => exact ih cancelled
    | succ live => exact List.forall_mem_cons.mpr ⟨hq, ih _⟩

section Servers

variable [DecidableEq ι] (serve : Q → σ → A × σ) (cancelled : A) (live : ℕ) (i : ι) (p : Script Q A α)

/-- The run against server `i`; a sent call carries the server it went to. -/
def runAt (servers : ι → σ) : Ran (ι × Q) α (ι → σ) :=
  let ran := p.run serve cancelled live (servers i)
  { value := ran.value
    state := Function.update servers i ran.state
    sent := ran.sent.map (fun q ↦ (i, q)) }

variable {servers servers' : ι → σ}

theorem runAt_sent : ∀ q ∈ (p.runAt serve cancelled live i servers).sent, q.1 = i := by
  intro q hq
  obtain ⟨_, _, rfl⟩ := List.mem_map.mp hq
  rfl

theorem runAt_frame {j : ι} (h : j ≠ i) : (p.runAt serve cancelled live i servers).state j = servers j :=
  Function.update_of_ne h _ _

variable {serve cancelled live i p}

/-- What a program returns depends on its own server only. -/
theorem runAt_value (h : servers i = servers' i) :
    (p.runAt serve cancelled live i servers).value = (p.runAt serve cancelled live i servers').value := by
  unfold runAt
  rw [h]

end Servers

end Script

end KubeCenter.Core

/-! Programs of calls put together, and two of them compared whose replies are alike but not equal. -/

namespace KubeCenter.Core.Script

variable {Q Q' A α β σ O : Type}

def bind : Script Q A α → (α → Script Q A β) → Script Q A β
  | done a, f => f a
  | call q next, f => call q (fun r ↦ (next r).bind f)

def map (f : α → β) (p : Script Q A α) : Script Q A β := p.bind (fun a ↦ done (f a))

/-- The same program with its calls under other names. -/
def mapCalls (f : Q → Q') : Script Q A α → Script Q' A α
  | done a => done a
  | call q next => call (f q) (fun r ↦ (next r).mapCalls f)

section Run

variable {serve : Q → σ → A × σ} {cancelled : A}

theorem run_map (f : α → β) (p : Script Q A α) (live : ℕ) (s : σ) :
    ((p.map f).run serve cancelled live s).value = f (p.run serve cancelled live s).value := by
  induction p generalizing live s with
  | done a => cases live <;> rfl
  | call q next ih =>
    cases live with
    | zero => exact ih cancelled 0 s
    | succ live => exact ih _ live _

/-- Under other names the calls are served by the server behind the names. -/
theorem run_mapCalls (f : Q' → Q) (p : Script Q' A α) (live : ℕ) (s : σ) :
    ((p.mapCalls f).run serve cancelled live s).value = (p.run (fun q ↦ serve (f q)) cancelled live s).value := by
  induction p generalizing live s with
  | done a => cases live <;> rfl
  | call q next ih =>
    cases live with
    | zero => exact ih cancelled 0 s
    | succ live => exact ih _ live _

end Run

section Trace

variable (serve : Q → σ → A × σ) (cancelled : A)

/-- The calls that reach the server, each with its reply. -/
def trace : ℕ → Script Q A α → σ → List (Q × A)
  | _, done _, _ => []
  | 0, call _ next, s => trace 0 (next cancelled) s
  | live + 1, call q next, s => (q, (serve q s).1) :: trace live (next (serve q s).1) (serve q s).2

/-- What is observed of the replies in a trace: to some of the calls, and of these something. -/
def observations (observe : Q → Option (A → O)) (l : List (Q × A)) : List O :=
  l.filterMap (fun (q, r) ↦ (observe q).map (· r))

end Trace

/-- Two programs that make the same calls and end alike as long as their replies are alike. -/
inductive Related (E : Q → A → A → Prop) : Script Q A α → Script Q A α → Prop
  | done (a : α) : Related E (done a) (done a)
  | call (q : Q) {next next' : A → Script Q A α} (h : ∀ r r', E q r r' → Related E (next r) (next' r')) :
    Related E (call q next) (call q next')

variable {E : Q → A → A → Prop} {serve : Q → σ → A × σ} {cancelled : A} {observe : Q → Option (A → O)} {S : σ → σ → Prop}

theorem Related.bind {p p' : Script Q A α} {f f' : α → Script Q A β} (h : Related E p p')
    (hf : ∀ a, Related E (f a) (f' a)) : Related E (p.bind f) (p'.bind f') := by
  induction h with
  | done a => exact hf a
  | call q _ ih => exact .call q ih

theorem Related.map {p p' : Script Q A α} (h : Related E p p') (f : α → β) : Related E (p.map f) (p'.map f) :=
  h.bind (fun a ↦ .done (f a))

/-- Related programs, on servers that answer alike wherever what is observed of a reply is the same: if all that is
observed is the same in the two runs, so is what they come to. -/
theorem Related.run (hserve : ∀ q s s', S s s' → (∀ f ∈ observe q, f (serve q s).1 = f (serve q s').1) →
      E q (serve q s).1 (serve q s').1 ∧ S (serve q s).2 (serve q s').2)
    (hcancelled : ∀ q, E q cancelled cancelled) {p p' : Script Q A α} (h : Related E p p') {s s' : σ} (hs : S s s')
    {live : ℕ} {rest rest' : List O}
    (hobs : observations observe (p.trace serve cancelled live s) ++ rest =
      observations observe (p'.trace serve cancelled live s') ++ rest') :
    (p.run serve cancelled live s).value = (p'.run serve cancelled live s').value ∧
      S (p.run serve cancelled live s).state (p'.run serve cancelled live s').state ∧ rest = rest' := by
  induction h generalizing s s' live with
  | done a => cases live <;> exact ⟨rfl, hs, hobs⟩
  | @call q next next' _ ih =>
    cases live with
    | zero => exact ih cancelled cancelled (hcancelled q) hs hobs
    | succ live =>
      simp only [trace, observations, List.filterMap_cons] at hobs
      cases hq : observe q with
      | none =>
        rw [hq] at hobs
        obtain ⟨hreply, hstate⟩ := hserve q s s' hs (fun f hf ↦ by rw [hq] at hf; cases hf)
        exact ih _ _ hreply hstate hobs
      | some f =>
        rw [hq] at hobs
        obtain ⟨hhead, htail⟩ := List.cons.inj hobs
        obtain ⟨hreply, hstate⟩ := hserve q s s' hs (fun g hg ↦ by rw [hq] at hg; cases hg; exact hhead)
        exact ih _ _ hreply hstate htail

end KubeCenter.Core.Script
