import Mathlib

set_option autoImplicit false

namespace Loop

variable {σ β : Type} {step : σ → Option σ} {s s' : σ}

inductive Ends (step : σ → Option σ) : σ → σ → Prop where
  | done {s : σ} : step s = none → Ends step s s
  | next {s s₁ s' : σ} : step s = some s₁ → Ends step s₁ s' → Ends step s s'

theorem Ends.final (h : Ends step s s') : step s' = none := by
  induction h with
  | done hdone => exact hdone
  | next _ _ ih => exact ih

theorem Ends.inv {P : σ → Prop} (hstep : ∀ s s', P s → step s = some s' → P s')
    (h : Ends step s s') (hs : P s) : P s' := by
  induction h with
  | done => exact hs
  | next hnext _ ih => exact ih (hstep _ _ hs hnext)

theorem Ends.unique {s'' : σ} (h : Ends step s s') (h' : Ends step s s'') : s' = s'' := by
  induction h with
  | done hdone =>
    cases h' with
    | done => rfl
    | next hnext => simp [hdone] at hnext
  | next hnext _ ih =>
    cases h' with
    | done hdone => simp [hdone] at hnext
    | next hnext' hrest =>
      obtain rfl := Option.some.inj (hnext.symm.trans hnext')
      exact ih hrest

theorem ends_next {s₁ : σ} (h : step s = some s₁) : Ends step s s' ↔ Ends step s₁ s' := by
  refine ⟨fun hend => ?_,.next h⟩
  cases hend with
  | done hdone => simp [h] at hdone
  | next hnext hrest =>
    obtain rfl := Option.some.inj (h.symm.trans hnext)
    exact hrest

theorem not_ends_of_stays (h : step s = some s) : ¬ Ends step s s' := by
  intro hend
  generalize hstart : s = start at hend
  induction hend with
  | done hdone => simp [← hstart,h] at hdone
  | next hnext _ ih =>
    subst hstart
    exact ih (Option.some.inj (h.symm.trans hnext))

theorem Ends.exists {P : σ → Prop} [LT β] [WellFoundedLT β] (measure : σ → β)
    (hstep : ∀ s s', P s → step s = some s' → P s' ∧ measure s' < measure s) (hs : P s) :
    ∃ s', Ends step s s' := by
  induction hm : measure s using WellFoundedLT.induction generalizing s with
  | ind m ih =>
    cases hnext : step s with
    | none => exact ⟨s,.done hnext⟩
    | some s₁ =>
      obtain ⟨hs₁,hlt⟩ := hstep s s₁ hs hnext
      obtain ⟨s',hend⟩ := ih _ (hm ▸ hlt) hs₁ rfl
      exact ⟨s',.next hnext hend⟩

end Loop
