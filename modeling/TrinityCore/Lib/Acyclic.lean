import Mathlib

set_option autoImplicit false

namespace Acyclic

open Relation

variable {α : Type} {r : α → α → Prop}

theorem ncard_lt (hfin : {b | ∃ a, r a b}.Finite) (hacyclic : ∀ a, ¬ TransGen r a a) {a b : α}
    (hab : r a b) : {c | TransGen r b c}.ncard < {c | TransGen r a c}.ncard := by
  have hfinite : {c | TransGen r a c}.Finite := by
    refine hfin.subset fun c hc => ?_
    obtain ⟨d,-,hdc⟩ := TransGen.tail'_iff.mp hc
    exact ⟨d,hdc⟩
  refine Set.ncard_lt_ncard ⟨fun c hc => TransGen.head hab hc,fun hsub => ?_⟩ hfinite
  exact hacyclic b (hsub (TransGen.single hab))

theorem wellFounded (hfin : {b | ∃ a, r a b}.Finite) (hacyclic : ∀ a, ¬ TransGen r a a) :
    WellFounded fun b a => r a b :=
  Subrelation.wf (fun {_ _} hab => ncard_lt hfin hacyclic hab)
    (measure fun a => {c | TransGen r a c}.ncard).wf

theorem cycle_mono {r' : α → α → Prop} (h : ∀ a b, r a b → ReflTransGen r b a → r' a b) {a b : α}
    (hab : TransGen r a b) (hba : ReflTransGen r b a) : TransGen r' a b := by
  induction hab with
  | single hab => exact .single (h _ _ hab hba)
  | @tail b c hab hbc ih =>
    exact (ih (.head hbc hba)).tail (h _ _ hbc (hba.trans hab.to_reflTransGen))

/-- What needs, of every target, the same with less fuel is not had on a cycle. -/
theorem stuck {P : Nat → α → Prop} (hzero : ∀ a, ¬ P 0 a)
    (hsucc : ∀ n a b, P (n+1) a → r a b → P n b) {a : α} (hcycle : TransGen r a a) (n : Nat) :
    ¬ P n a := by
  induction n generalizing a with
  | zero => exact hzero a
  | succ n ih =>
    intro hP
    obtain ⟨b,hab,hba⟩ := TransGen.head'_iff.mp hcycle
    exact ih (TransGen.tail' hba hab) (hsucc n a b hP hab)

end Acyclic
