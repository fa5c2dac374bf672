import Mathlib

set_option autoImplicit false

/-!
Transducers that answer each symbol with a symbol and go on in another state, such as stream
ciphers. A transducer that undoes another one, symbol by symbol, stays in step with it. One that
has no state yet lets everything pass.
-/

namespace Transducer

variable {κ β γ : Type} {f : κ → β → γ × κ} {g : κ → γ → β × κ}

def run (f : κ → β → γ × κ) : κ → List β → List γ × κ
  | k, [] => ([],k)
  | k, b :: bs => ((f k b).1 :: (run f (f k b).2 bs).1,(run f (f k b).2 bs).2)

@[simp] theorem run_nil (k : κ) : run f k [] = ([],k) := rfl

@[simp] theorem length_run (k : κ) (bs : List β) : (run f k bs).1.length = bs.length := by
  induction bs generalizing k with
  | nil => rfl
  | cons b bs ih => simp [run,ih]

/-- The second takes back what the first has made, and goes on as the first does. -/
def Inverts (f : κ → β → γ × κ) (g : κ → γ → β × κ) : Prop :=
  ∀ k b, g k (f k b).1 = (b,(f k b).2)

theorem Inverts.run (h : Inverts f g) (k : κ) (bs : List β) :
    Transducer.run g k (Transducer.run f k bs).1 = (bs,(Transducer.run f k bs).2) := by
  induction bs generalizing k with
  | nil => rfl
  | cons b bs ih =>
    have hb := h k b
    simp only [Transducer.run,hb,ih]

theorem take_run (k : κ) (bs : List β) (n : Nat) :
    (run f k bs).1.take n = (run f k (bs.take n)).1 := by
  induction bs generalizing k n with
  | nil => simp
  | cons b bs ih =>
    cases n with
    | zero => simp
    | succ n => simp [run,ih]

section Pass

variable {f g : κ → β → β × κ}

def pass (f : κ → β → β × κ) : Option κ → List β → List β × Option κ
  | none, bs => (bs,none)
  | some k, bs => ((run f k bs).1,some (run f k bs).2)

@[simp] theorem length_pass (k : Option κ) (bs : List β) : (pass f k bs).1.length = bs.length := by
  cases k <;> simp [pass]

theorem take_pass (k : Option κ) (bs : List β) (n : Nat) :
    (pass f k bs).1.take n = (pass f k (bs.take n)).1 := by
  cases k with
  | none => rfl
  | some k => exact take_run k bs n

theorem Inverts.pass (h : Inverts f g) (k : Option κ) (bs : List β) :
    Transducer.pass g k (Transducer.pass f k bs).1 = (bs,(Transducer.pass f k bs).2) := by
  cases k with
  | none => rfl
  | some k => simp [Transducer.pass,h.run]

end Pass

end Transducer
