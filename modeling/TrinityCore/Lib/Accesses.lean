import Mathlib

set_option autoImplicit false

/-!
Runs that record what they touch of the arrays they work on. A run is inside its arrays when each access
is; a loop is when each turn is, from the state to which the turns before it lead.
-/

namespace Accesses

/-- A number of elements of an array from a start on, and how many the array has. -/
structure Access (β : Type) where
  buffer : β
  start : Nat
  width : Nat
  size : Nat
  deriving DecidableEq, Repr

variable {β α γ σ : Type}

def Access.Inside (a : Access β) : Prop := a.start+a.width ≤ a.size

instance (a : Access β) : Decidable a.Inside := inferInstanceAs (Decidable (_ ≤ _))

structure Run (β α : Type) where
  accesses : List (Access β)
  value : α

namespace Run

def bind (r : Run β α) (f : α → Run β γ) : Run β γ :=
  ⟨r.accesses ++ (f r.value).accesses,(f r.value).value⟩

instance : Monad (Run β) where
  pure a := ⟨[],a⟩
  bind := bind

def Inside (r : Run β α) : Prop := ∀ a ∈ r.accesses, a.Inside

instance (r : Run β α) : Decidable r.Inside := inferInstanceAs (Decidable (∀ a ∈ r.accesses, _))

end Run

def access (a : Access β) : Run β Unit := ⟨[a],()⟩

def loop (body : Nat → σ → Run β σ) : Nat → σ → Run β σ
  | 0, s => pure s
  | n+1, s => loop body n s >>= body n

variable {r : Run β α} {f : α → Run β γ} {body : Nat → σ → Run β σ} {n : Nat} {s : σ}

@[simp] theorem inside_pure (a : α) : (pure a : Run β α).Inside := fun _ h => absurd h List.not_mem_nil

@[simp] theorem value_pure (a : α) : (pure a : Run β α).value = a := rfl

@[simp] theorem inside_bind : (r >>= f).Inside ↔ r.Inside ∧ (f r.value).Inside := List.forall_mem_append

@[simp] theorem value_bind : (r >>= f).value = (f r.value).value := rfl

@[simp] theorem inside_access (a : Access β) : (access a).Inside ↔ a.Inside := List.forall_mem_singleton

@[simp] theorem inside_loop : (loop body n s).Inside ↔
    ∀ i < n, (body i (loop body i s).value).Inside := by
  induction n with
  | zero => simp [loop]
  | succ n ih => rw [loop,inside_bind,ih,Nat.forall_lt_succ_right]

theorem loop_invariant (P : Nat → σ → Prop) (h : P 0 s)
    (hstep : ∀ i < n, ∀ s, P i s → P (i+1) (body i s).value) : P n (loop body n s).value := by
  induction n with
  | zero => exact h
  | succ n ih => exact hstep n (Nat.lt_succ_self n) _ (ih fun i hi => hstep i (Nat.lt_succ_of_lt hi))

end Accesses
