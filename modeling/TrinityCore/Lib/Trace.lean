import Mathlib

set_option autoImplicit false

/-!
Runs of a labelled transition relation: each step takes an action and gives an answer. An
invariant is carried over runs, and a simulation turns the runs of one system into runs of another
with the same actions and answers.
-/

namespace Trace

variable {σ τ α β : Type}

def Runs (step : σ → α → β → σ → Prop) : σ → List (α × β) → σ → Prop
  | s, [], s' => s = s'
  | s, (a,b) :: run, s' => ∃ next, step s a b next ∧ Runs step next run s'

variable {step : σ → α → β → σ → Prop}

theorem Runs.append {s t u : σ} {run run' : List (α × β)} (h : Runs step s run t)
    (h' : Runs step t run' u) : Runs step s (run ++ run') u := by
  induction run generalizing s with
  | nil =>
    cases h
    exact h'
  | cons ab run ih =>
    obtain ⟨next,hstep,hrun⟩ := h
    exact ⟨next,hstep,ih hrun⟩

theorem Runs.of_append {s u : σ} {run run' : List (α × β)} (h : Runs step s (run ++ run') u) :
    ∃ t, Runs step s run t ∧ Runs step t run' u := by
  induction run generalizing s with
  | nil => exact ⟨s,rfl,h⟩
  | cons ab run ih =>
    obtain ⟨next,hstep,hrun⟩ := h
    obtain ⟨t,hrun,hrest⟩ := ih hrun
    exact ⟨t,⟨next,hstep,hrun⟩,hrest⟩

theorem Runs.inv {P : σ → Prop} (hstep : ∀ s a b s', P s → step s a b s' → P s')
    {s s' : σ} {run : List (α × β)} (h : Runs step s run s') (hs : P s) : P s' := by
  induction run generalizing s with
  | nil =>
    cases h
    exact hs
  | cons ab run ih =>
    obtain ⟨next,hnext,hrun⟩ := h
    exact ih hrun (hstep s ab.1 ab.2 next hs hnext)

theorem Runs.accumulate {γ : Type} [AddMonoid γ] (f : α → β → γ) {P : σ → γ → Prop}
    (hstep : ∀ s a b s' c, P s c → step s a b s' → P s' (c+f a b))
    {s s' : σ} {run : List (α × β)} {c : γ} (h : Runs step s run s') (hs : P s c) :
    P s' (c+(run.map fun ab => f ab.1 ab.2).sum) := by
  induction run generalizing s c with
  | nil =>
    cases h
    simpa using hs
  | cons ab run ih =>
    obtain ⟨next,hnext,hrun⟩ := h
    rw [List.map_cons,List.sum_cons,← add_assoc]
    exact ih hrun (hstep s ab.1 ab.2 next c hs hnext)

def Guarded (ok : σ → α → Prop) (step : σ → α → β → σ → Prop) : σ → α → β → σ → Prop :=
  fun s a b s' => ok s a ∧ step s a b s'

/-- Every step of the first system is answered by one of the second from related states. -/
theorem Runs.simulate {step' : τ → α → β → τ → Prop} {R : σ → τ → Prop}
    (hstep : ∀ s a b s' t, R s t → step s a b s' → ∃ t', step' t a b t' ∧ R s' t')
    {s s' : σ} {t : τ} {run : List (α × β)} (h : Runs step s run s') (hR : R s t) :
    ∃ t', Runs step' t run t' ∧ R s' t' := by
  induction run generalizing s t with
  | nil =>
    cases h
    exact ⟨t,rfl,hR⟩
  | cons ab run ih =>
    obtain ⟨next,hnext,hrun⟩ := h
    obtain ⟨next',hnext',hR'⟩ := hstep s ab.1 ab.2 next t hR hnext
    obtain ⟨t',hrun',hRt⟩ := ih hrun hR'
    exact ⟨t',⟨next',hnext',hrun'⟩,hRt⟩

theorem Runs.lockstep {step' : τ → α → β → τ → Prop} {R : σ → τ → Prop}
    (hstep : ∀ s a b s' t t', R s t → step s a b s' → step' t a b t' → R s' t')
    {s s' : σ} {t t' : τ} {run : List (α × β)} (h : Runs step s run s')
    (h' : Runs step' t run t') (hR : R s t) : R s' t' := by
  induction run generalizing s t with
  | nil =>
    cases h
    cases h'
    exact hR
  | cons ab run ih =>
    obtain ⟨next,hnext,hrun⟩ := h
    obtain ⟨next',hnext',hrun'⟩ := h'
    exact ih hrun hrun' (hstep s ab.1 ab.2 next t next' hR hnext hnext')

def execute (f : σ → α → Option (σ × β)) : σ → List α → Option (σ × List (α × β))
  | s, [] => some (s,[])
  | s, a :: as => (f s a).bind fun next =>
    (execute f next.1 as).map fun rest => (rest.1,(a,next.2) :: rest.2)

theorem runs_of_execute {f : σ → α → Option (σ × β)}
    (hf : ∀ s a s' b, f s a = some (s',b) → step s a b s') {s : σ} {as : List α}
    {result : σ × List (α × β)} (h : execute f s as = some result) :
    Runs step s result.2 result.1 := by
  induction as generalizing s result with
  | nil =>
    cases h
    rfl
  | cons a as ih =>
    obtain ⟨next,hnext,h⟩ := Option.bind_eq_some_iff.mp h
    obtain ⟨rest,hrest,rfl⟩ := Option.map_eq_some_iff.mp h
    exact ⟨next.1,hf s a next.1 next.2 hnext,ih hrest⟩

end Trace
