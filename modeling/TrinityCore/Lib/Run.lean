import Mathlib

set_option autoImplicit false

namespace Run

variable {σ α ε : Type}

def exec (step : σ → α → σ) (s : σ) (as : List α) : σ := as.foldl step s

@[simp] theorem exec_nil (step : σ → α → σ) (s : σ) : exec step s [] = s := rfl

@[simp] theorem exec_cons (step : σ → α → σ) (s : σ) (a : α) (as : List α) :
    exec step s (a :: as) = exec step (step s a) as := rfl

theorem exec_append (step : σ → α → σ) (s : σ) (as bs : List α) :
    exec step s (as ++ bs) = exec step (exec step s as) bs := List.foldl_append

theorem exec_inv {step : σ → α → σ} {P : σ → Prop} (hstep : ∀ s a, P s → P (step s a))
    (s : σ) (as : List α) (h : P s) : P (exec step s as) := by
  induction as generalizing s with
  | nil => exact h
  | cons a as ih => exact ih (step s a) (hstep s a h)

def Guarded (step : σ → α → σ) (ok : σ → α → Prop) : σ → List α → Prop
  | _, [] => True
  | s, a :: as => ok s a ∧ Guarded step ok (step s a) as

instance Guarded.decidable {step : σ → α → σ} {ok : σ → α → Prop}
    [∀ s a, Decidable (ok s a)] : (s : σ) → (as : List α) → Decidable (Guarded step ok s as)
  | _, [] => .isTrue trivial
  | s, a :: as =>
    have : Decidable (Guarded step ok (step s a) as) := Guarded.decidable (step s a) as
    inferInstanceAs (Decidable (ok s a ∧ Guarded step ok (step s a) as))

/-- An invariant that guarded steps preserve holds after every guarded run. A prefix of
a guarded run is guarded, so it holds in every state on the way too. -/
theorem Guarded.inv {step : σ → α → σ} {ok : σ → α → Prop} {P : σ → Prop}
    (hstep : ∀ s a, P s → ok s a → P (step s a)) {s : σ} {as : List α}
    (hg : Guarded step ok s as) (h : P s) : P (exec step s as) := by
  induction as generalizing s with
  | nil => exact h
  | cons a as ih => exact ih hg.2 (hstep s a h hg.1)

theorem Guarded.of_append {step : σ → α → σ} {ok : σ → α → Prop} {s : σ} {as bs : List α}
    (hg : Guarded step ok s (as ++ bs)) : Guarded step ok s as := by
  induction as generalizing s with
  | nil => trivial
  | cons a as ih => exact ⟨hg.1,ih hg.2⟩

/-- Where an invariant gives a property, and a step from it to the property is a step that meets
the guard, the property holds at every point of a run if and only if the run is guarded. -/
theorem Guarded.iff_prefixes {step : σ → α → σ} {ok : σ → α → Prop} {P Q : σ → Prop}
    (hprop : ∀ s, P s → Q s) (hok : ∀ s a, P s → Q (step s a) → ok s a)
    (hstep : ∀ s a, P s → ok s a → P (step s a)) {s : σ} (as : List α) (h : P s) :
    (∀ pre post, as = pre ++ post → Q (exec step s pre)) ↔ Guarded step ok s as := by
  induction as generalizing s with
  | nil =>
    refine iff_of_true ?_ trivial
    intro pre post heq
    obtain ⟨rfl,-⟩ := List.append_eq_nil_iff.mp heq.symm
    exact hprop s h
  | cons a as ih =>
    constructor
    · intro hall
      have hmet := hok s a h (hall [a] as rfl)
      refine ⟨hmet,(ih (hstep s a h hmet)).mp ?_⟩
      intro pre post heq
      exact hall (a :: pre) post (by rw [heq,List.cons_append])
    · rintro ⟨hmet,hguarded⟩ pre post heq
      cases pre with
      | nil => exact hprop s h
      | cons b pre =>
        obtain ⟨rfl,has⟩ := List.cons.inj heq
        exact (ih (hstep s a h hmet)).mpr hguarded pre post has

theorem exec_origin {step : σ → α → σ} {log : σ → List ε} (added : σ → α → List ε)
    (hlog : ∀ s a, log (step s a) = log s ++ added s a) {s : σ} {as : List α} {e : ε}
    (h : e ∈ log (exec step s as)) :
    e ∈ log s ∨ ∃ pre a post, as = pre ++ a :: post ∧ e ∈ added (exec step s pre) a := by
  induction as generalizing s with
  | nil => exact .inl h
  | cons a as ih =>
    rcases ih h with h | ⟨pre,b,post,rfl,hb⟩
    · rw [hlog,List.mem_append] at h
      exact h.imp_right (fun h => ⟨[],a,as,rfl,h⟩)
    · exact .inr ⟨a :: pre,b,post,rfl,hb⟩

/-- Each entry of a log stands in the given relation to the entries before it. -/
def EachAfter (P : List ε → ε → Prop) (log : List ε) : Prop :=
  ∀ pre e post, log = pre ++ e :: post → P pre e

@[simp] theorem eachAfter_nil (P : List ε → ε → Prop) : EachAfter P [] := by
  intro pre e post h
  simp at h

@[simp] theorem eachAfter_cons (P : List ε → ε → Prop) (e : ε) (log : List ε) :
    EachAfter P (e :: log) ↔ P [] e ∧ EachAfter (fun pre => P (e :: pre)) log := by
  constructor
  · intro h
    exact ⟨h [] e log rfl,fun pre a post heq => h (e :: pre) a post (by rw [heq]; rfl)⟩
  · rintro ⟨he,h⟩ pre a post heq
    cases pre with
    | nil =>
      obtain ⟨rfl,rfl⟩ : e = a ∧ log = post := by simpa using heq
      exact he
    | cons b pre =>
      obtain ⟨rfl,hlog⟩ : e = b ∧ log = pre ++ a :: post := by simpa using heq
      exact h pre a post hlog

theorem eachAfter_append (P : List ε → ε → Prop) (log es : List ε) :
    EachAfter P (log ++ es) ↔ EachAfter P log ∧ EachAfter (fun pre => P (log ++ pre)) es := by
  induction log generalizing P with
  | nil => simp
  | cons e log ih => simp [ih,and_assoc]

end Run
