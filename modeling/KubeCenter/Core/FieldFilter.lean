import Mathlib.Data.List.Basic

/-! Rules that filter two fields, an empty filter standing for any value: what the rules accept
one by one, and what their filters accept once merged field by field. -/

namespace KubeCenter.Core.FieldFilter

variable {ρ α β : Type} [DecidableEq α] [DecidableEq β]

def Accepts (filter : List α) (x : α) : Prop := filter = [] ∨ x ∈ filter

instance (filter : List α) (x : α) : Decidable (Accepts filter x) := inferInstanceAs (Decidable (_ ∨ _))

variable (f : ρ → List α) (g : ρ → List β) (rules : List ρ) (x : α) (y : β)

def Routed : Prop := ∃ r ∈ rules, Accepts (f r) x ∧ Accepts (g r) y

def Merged : Prop := Accepts (rules.flatMap f) x ∧ Accepts (rules.flatMap g) y

/-- The rules filter the field, none of them listing `x`. -/
def Unlisted : Prop := (∃ r ∈ rules, f r ≠ []) ∧ ∀ r ∈ rules, x ∉ f r

/-- A rule accepts the pair through a field that other rules filter. -/
def Lost : Prop :=
  ∃ r ∈ rules, (Accepts (f r) x ∧ Accepts (g r) y) ∧ (f r = [] ∧ Unlisted f rules x ∨ g r = [] ∧ Unlisted g rules y)

/-- No rule accepts the pair, though each field that some rule filters has `x` or `y` listed. -/
def Extra : Prop :=
  (∀ r ∈ rules, ¬ (Accepts (f r) x ∧ Accepts (g r) y)) ∧ ¬ Unlisted f rules x ∧ ¬ Unlisted g rules y

instance : Decidable (Unlisted f rules x) := inferInstanceAs (Decidable (_ ∧ _))
instance : Decidable (Routed f g rules x y) := inferInstanceAs (Decidable (∃ r ∈ rules, _ ∧ _))
instance : Decidable (Merged f g rules x y) := inferInstanceAs (Decidable (_ ∧ _))
instance : Decidable (Lost f g rules x y) := inferInstanceAs (Decidable (∃ r ∈ rules, _ ∧ _))
instance : Decidable (Extra f g rules x y) := inferInstanceAs (Decidable ((∀ r ∈ rules, _) ∧ _))

variable {f g rules x y}

theorem accepts_flatMap : Accepts (rules.flatMap f) x ↔ ¬ Unlisted f rules x := by
  simp only [Accepts, Unlisted, List.flatMap_eq_nil_iff, List.mem_flatMap]
  constructor
  · rintro (hnil | ⟨r, hr, hx⟩) ⟨⟨r', hr', hne⟩, hall⟩
    · exact hne (hnil r' hr')
    · exact hall r hr hx
  · intro h
    by_cases hx : ∃ r ∈ rules, x ∈ f r
    · exact .inr hx
    · refine .inl (fun r hr ↦ ?_)
      by_contra hne
      exact h ⟨⟨r, hr, hne⟩, fun r' hr' hx' ↦ hx ⟨r', hr', hx'⟩⟩

theorem merged_iff : Merged f g rules x y ↔ ¬ Unlisted f rules x ∧ ¬ Unlisted g rules y :=
  and_congr accepts_flatMap accepts_flatMap

theorem lost_iff : Lost f g rules x y ↔ Routed f g rules x y ∧ ¬ Merged f g rules x y := by
  rw [merged_iff]
  constructor
  · rintro ⟨r, hr, hacc, hfield⟩
    refine ⟨⟨r, hr, hacc⟩, fun hm ↦ ?_⟩
    rcases hfield with ⟨-, hu⟩ | ⟨-, hu⟩
    · exact hm.1 hu
    · exact hm.2 hu
  · rintro ⟨⟨r, hr, hacc⟩, hm⟩
    refine ⟨r, hr, hacc, ?_⟩
    by_cases hu : Unlisted f rules x
    · exact .inl ⟨hacc.1.resolve_right (hu.2 r hr), hu⟩
    · have hv : Unlisted g rules y := by
        by_contra hv
        exact hm ⟨hu, hv⟩
      exact .inr ⟨hacc.2.resolve_right (hv.2 r hr), hv⟩

theorem extra_iff : Extra f g rules x y ↔ ¬ Routed f g rules x y ∧ Merged f g rules x y := by
  rw [merged_iff, Extra, Routed]
  refine and_congr_left' ?_
  constructor
  · rintro h ⟨r, hr, hacc⟩
    exact h r hr hacc
  · intro h r hr hacc
    exact h ⟨r, hr, hacc⟩

theorem routed_iff_merged :
    (Routed f g rules x y ↔ Merged f g rules x y) ↔ ¬ Lost f g rules x y ∧ ¬ Extra f g rules x y := by
  rw [lost_iff, extra_iff]
  tauto

end KubeCenter.Core.FieldFilter
