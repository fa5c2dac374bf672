import Mathlib.Data.List.Basic
import Mathlib.Data.List.Infix

set_option autoImplicit false

/-!
# Readers

A reader takes what it reads off a state and can stop before it has read it: it may refuse what it
finds, run on for ever, or bring the program down. Three things are said of readers: how fuel that
counts the turns of their loops drops out, that they stop at a mark and never look behind it, and
how a text falls into the tokens that a machine takes off its front.
-/

namespace Reading

inductive Stop
  | hangs
  | crashes
  | rejects
  deriving DecidableEq, Repr

abbrev Reader (σ α : Type) := StateT σ (Except Stop) α

variable {σ α β γ : Type}

def stop (e : Stop) : Reader σ α := fun _ => .error e

theorem bind_apply (p : Reader σ α) (f : α → Reader σ β) (s : σ) :
    (p >>= f) s = match p s with
      | .ok (a, t) => f a t
      | .error e => .error e := by
  change Except.bind (p s) _ = _
  cases h : p s <;> rfl

theorem bind_ok {p : Reader σ α} {f : α → Reader σ β} {s t : σ} {a : α} (h : p s = .ok (a, t)) :
    (p >>= f) s = f a t := by
  rw [bind_apply, h]

theorem bind_error {p : Reader σ α} {f : α → Reader σ β} {s : σ} {e : Stop} (h : p s = .error e) :
    (p >>= f) s = .error e := by
  rw [bind_apply, h]

theorem bind_eq_ok {p : Reader σ α} {f : α → Reader σ β} {s : σ} {x : β × σ}
    (h : (p >>= f) s = .ok x) : ∃ a t, p s = .ok (a, t) ∧ f a t = .ok x := by
  cases hp : p s with
  | error e => rw [bind_error hp] at h; cases h
  | ok r =>
    obtain ⟨a, t⟩ := r
    rw [bind_ok hp] at h
    exact ⟨a, t, rfl, h⟩

theorem bind_eq_error {p : Reader σ α} {f : α → Reader σ β} {s : σ} {e : Stop}
    (h : (p >>= f) s = .error e) :
    p s = .error e ∨ ∃ a t, p s = .ok (a, t) ∧ f a t = .error e := by
  cases hp : p s with
  | error e' => rw [bind_error hp] at h; left; cases h; rfl
  | ok r =>
    obtain ⟨a, t⟩ := r
    rw [bind_ok hp] at h
    exact Or.inr ⟨a, t, rfl, h⟩

/-! ## Fuel -/

def Below (p q : Reader σ α) : Prop := ∀ s, p s ≠ .error .hangs → q s = p s

theorem Below.refl (p : Reader σ α) : Below p p := fun _ _ => rfl

theorem Below.hangs (q : Reader σ α) : Below (stop .hangs) q := fun _ h => absurd rfl h

theorem Below.bind {p q : Reader σ α} {f g : α → Reader σ β} (hp : Below p q)
    (hf : ∀ a, Below (f a) (g a)) : Below (p >>= f) (q >>= g) := by
  intro s h
  cases hn : p s with
  | error e =>
    have hs : q s = .error e := by
      rw [← hn]
      apply hp
      intro hh
      exact h (bind_error hh)
    rw [bind_error hn, bind_error hs]
  | ok r =>
    obtain ⟨a, t⟩ := r
    have hs : q s = .ok (a, t) := by
      rw [← hn]
      apply hp
      rw [hn]
      exact fun hh => by cases hh
    rw [bind_ok hn] at h ⊢
    rw [bind_ok hs]
    exact hf a t h

def Mono (p : Nat → Reader σ α) : Prop := ∀ n, Below (p n) (p (n + 1))

theorem Mono.le {p : Nat → Reader σ α} (hp : Mono p) {n m : Nat} {s : σ}
    (h : p n s ≠ .error .hangs) (hnm : n ≤ m) : p m s = p n s := by
  induction hnm with
  | refl => rfl
  | step _ ih => rw [hp _ _ (by rwa [ih]), ih]

def Settles (f : Nat → γ) (x : γ) : Prop := ∃ enough, ∀ n, enough ≤ n → f n = x

theorem Settles.const {f : Nat → γ} {x : γ} (h : ∀ n, f n = x) : Settles f x := ⟨0, fun n _ => h n⟩

theorem Settles.unique {f : Nat → γ} {x y : γ} (hx : Settles f x) (hy : Settles f y) : x = y := by
  obtain ⟨n, hn⟩ := hx
  obtain ⟨m, hm⟩ := hy
  rw [← hn (max n m) (le_max_left n m), hm (max n m) (le_max_right n m)]

theorem Settles.of_succ {f : Nat → γ} {x : γ} {k : Nat} (h : ∀ n, k ≤ n → f (n + 1) = x) :
    Settles f x := by
  refine ⟨k + 1, fun n hn => ?_⟩
  obtain ⟨m, rfl⟩ : ∃ m, n = m + 1 := ⟨n - 1, by omega⟩
  exact h m (by omega)

/-- One turn less: the first turn of a loop handed the fuel that is left to the next. -/
theorem Settles.shift {f g : Nat → γ} {x : γ} {k : Nat}
    (h : ∀ n, k ≤ n → f (n + 1) = g n) : Settles f x ↔ Settles g x := by
  constructor
  · rintro ⟨enough, he⟩
    refine ⟨max enough k, fun n hn => ?_⟩
    rw [← h n (le_trans (le_max_right _ _) hn)]
    exact he (n + 1) (le_trans (le_max_left _ _) (le_trans hn (Nat.le_succ n)))
  · rintro ⟨enough, he⟩
    refine Settles.of_succ (k := max enough k) fun n hn => ?_
    rw [h n (le_trans (le_max_right _ _) hn)]
    exact he n (le_trans (le_max_left _ _) hn)

theorem Mono.settles {p : Nat → Reader σ α} (hp : Mono p) {n : Nat} {s : σ}
    (h : p n s ≠ .error .hangs) : Settles (fun m => p m s) (p n s) :=
  ⟨n, fun _ hm => hp.le h hm⟩

/-! ## Readers that stop at a mark -/

/-- On a sound state a reader leaves a sound state with the rest of the text, and of a mark that
follows what it is to read it sees no more than that it is there. -/
structure StopsAt (sound : List γ → σ) (mark : γ) (p : Reader σ α) : Prop where
  suffix : ∀ {s a t}, p (sound s) = .ok (a, t) → ∃ z, t = sound z ∧ z <:+ s
  blind : ∀ d, mark ∉ d → ∃ o : Except Stop (α × List γ), (∀ a z, o = .ok (a, z) → mark ∉ z) ∧
    ∀ w, p (sound (d ++ mark :: w)) = o.map fun r => (r.1, sound (r.2 ++ mark :: w))

section StopsAt

variable {sound : List γ → σ} {mark : γ}

theorem StopsAt.pure (a : α) : StopsAt sound mark (Pure.pure a : Reader σ α) where
  suffix := by
    intro s b t h
    cases h
    exact ⟨s, rfl, List.suffix_refl s⟩
  blind := by
    intro d hd
    refine ⟨.ok (a, d), ?_, fun w => rfl⟩
    intro b z h
    cases h
    exact hd

theorem StopsAt.stop (e : Stop) : StopsAt sound mark (stop e : Reader σ α) where
  suffix := by
    intro s a t h
    cases h
  blind := by
    intro d _
    refine ⟨.error e, ?_, fun w => rfl⟩
    intro a z h
    cases h

theorem StopsAt.bind {p : Reader σ α} {f : α → Reader σ β} (hp : StopsAt sound mark p)
    (hf : ∀ a, StopsAt sound mark (f a)) : StopsAt sound mark (p >>= f) where
  suffix := by
    intro s b t h
    obtain ⟨a, t', ha, hb⟩ := bind_eq_ok h
    obtain ⟨z', rfl, hz'⟩ := hp.suffix ha
    obtain ⟨z, rfl, hz⟩ := (hf a).suffix hb
    exact ⟨z, rfl, hz.trans hz'⟩
  blind := by
    intro d hd
    obtain ⟨o, ho, hw⟩ := hp.blind d hd
    cases o with
    | error e =>
      refine ⟨.error e, ?_, fun w => bind_error (hw w)⟩
      intro a z h
      cases h
    | ok r =>
      obtain ⟨a, z⟩ := r
      obtain ⟨o', ho', hw'⟩ := (hf a).blind z (ho a z rfl)
      exact ⟨o', ho', fun w => (bind_ok (hw w)).trans (hw' w)⟩

structure Steady (sound : List γ → σ) (mark : γ) (p : Reader σ α) : Prop
    extends StopsAt sound mark p where
  ends : ∀ s, p (sound s) ≠ .error .hangs

theorem Steady.pure (a : α) : Steady sound mark (Pure.pure a : Reader σ α) :=
  ⟨StopsAt.pure a, fun _ h => by cases h⟩

theorem Steady.rejects : Steady sound mark (Reading.stop .rejects : Reader σ α) :=
  ⟨StopsAt.stop .rejects, fun _ h => by cases h⟩

theorem Steady.bind {p : Reader σ α} {f : α → Reader σ β} (hp : Steady sound mark p)
    (hf : ∀ a, Steady sound mark (f a)) : Steady sound mark (p >>= f) where
  toStopsAt := hp.toStopsAt.bind fun a => (hf a).toStopsAt
  ends := by
    intro s h
    obtain h | ⟨a, t, ha, h⟩ := bind_eq_error h
    · exact hp.ends s h
    · obtain ⟨z, rfl, -⟩ := hp.suffix ha
      exact (hf a).ends z h

theorem StopsAt.ok_before {p : Reader σ α} (hp : StopsAt sound mark p)
    (hs : Function.Injective sound) {d w : List γ} {a : α} {t : σ} (hd : mark ∉ d)
    (h : p (sound (d ++ mark :: w)) = .ok (a, t)) :
    ∃ z, t = sound (z ++ mark :: w) ∧ mark ∉ z ∧ z.length ≤ d.length := by
  obtain ⟨o, ho, hw⟩ := hp.blind d hd
  obtain ⟨u, rfl, hu⟩ := hp.suffix h
  cases o with
  | error e => rw [hw w] at h; cases h
  | ok r =>
    obtain ⟨b, z⟩ := r
    rw [hw w] at h
    injection h with h
    injection h with hb hz
    have hz : z ++ mark :: w = u := hs hz
    have hlen := hu.length_le
    rw [← hz, List.length_append, List.length_append] at hlen
    exact ⟨z, by rw [hz], ho b z rfl, by omega⟩

theorem StopsAt.blind_ok {p : Reader σ α} (hp : StopsAt sound mark p)
    (hs : Function.Injective sound) {d w : List γ} {a : α} (hd : mark ∉ d)
    (h : p (sound (d ++ mark :: w)) = .ok (a, sound (mark :: w))) (w' : List γ) :
    p (sound (d ++ mark :: w')) = .ok (a, sound (mark :: w')) := by
  obtain ⟨o, -, hw⟩ := hp.blind d hd
  cases o with
  | error e => rw [hw w] at h; cases h
  | ok r =>
    obtain ⟨b, z⟩ := r
    rw [hw w] at h
    injection h with h
    injection h with hb hz
    have hz : z ++ mark :: w = [] ++ mark :: w := hs hz
    have hz : z = [] := List.append_cancel_right hz
    rw [hw w']
    change Except.ok (b, sound (z ++ mark :: w')) = _
    rw [hz]
    exact congrArg (fun b => Except.ok (b, sound (mark :: w'))) hb

/-- A reader comes to a stop at the first mark, and then it would at any other, or away from one. -/
theorem StopsAt.mark_or_away {p : Reader σ α} (hp : StopsAt sound mark p)
    (hs : Function.Injective sound) {s : List γ} {a : α} {t : σ} (h : p (sound s) = .ok (a, t)) :
    (∃ d w, s = d ++ mark :: w ∧ mark ∉ d ∧
        ∀ w', p (sound (d ++ mark :: w')) = .ok (a, sound (mark :: w'))) ∨
      ∃ z, t = sound z ∧ ∀ w, z ≠ mark :: w := by
  obtain ⟨z, rfl, d, rfl⟩ := hp.suffix h
  by_cases hz : ∃ w, z = mark :: w
  · obtain ⟨w, rfl⟩ := hz
    refine Or.inl ⟨d, w, rfl, ?_⟩
    have hd : mark ∉ d := by
      intro hd
      obtain ⟨d1, d2, rfl, hd1⟩ := List.eq_append_cons_of_mem hd
      rw [List.append_assoc, List.cons_append] at h
      obtain ⟨z, hz, -, -⟩ := hp.ok_before hs hd1 h
      have hlen := congrArg List.length (hs hz)
      simp only [List.length_append, List.length_cons] at hlen
      omega
    exact ⟨hd, hp.blind_ok hs hd h⟩
  · exact Or.inr ⟨z, rfl, fun w h => hz ⟨w, h⟩⟩

end StopsAt

/-! ## Texts made of tokens -/

inductive Sentence (Token Last : List γ → Prop) : List γ → Prop
  | last {e : List γ} : Last e → Sentence Token Last e
  | cons {x u : List γ} : Token x → Sentence Token Last u → Sentence Token Last (x ++ u)

section Sentence

variable {Token Last Clean CleanLast : List γ → Prop}

theorem Sentence.of_cases {P : List γ → Prop}
    (h : ∀ s, P s → Last s ∨ ∃ x u, Token x ∧ x ≠ [] ∧ s = x ++ u ∧ P u) {s : List γ} (hs : P s) :
    Sentence Token Last s := by
  induction hn : s.length using Nat.strongRecOn generalizing s with
  | ind n ih =>
    obtain hl | ⟨x, u, hx, hx0, rfl, hu⟩ := h s hs
    · exact .last hl
    · have hlt : u.length < n := by
        have hpos := List.length_pos_of_ne_nil hx0
        rw [List.length_append] at hn
        omega
      exact .cons hx (ih u.length hlt hu rfl)

/-- Somewhere in the text, after clean tokens, stands a token or a last piece that is not clean. -/
inductive Slips (Token Last Clean CleanLast : List γ → Prop) : List γ → Prop
  | last {e : List γ} : Last e → ¬CleanLast e → Slips Token Last Clean CleanLast e
  | token {x u : List γ} : Token x → ¬Clean x → Sentence Token Last u →
      Slips Token Last Clean CleanLast (x ++ u)
  | later {x u : List γ} : Clean x → Slips Token Last Clean CleanLast u →
      Slips Token Last Clean CleanLast (x ++ u)

theorem sentence_iff_clean_or_slips (hc : ∀ x, Clean x → Token x)
    (hl : ∀ e, CleanLast e → Last e) (s : List γ) :
    Sentence Token Last s ↔
      Sentence Clean CleanLast s ∨ Slips Token Last Clean CleanLast s := by
  constructor
  · intro h
    induction h with
    | @last e he =>
      by_cases hce : CleanLast e
      · exact Or.inl (.last hce)
      · exact Or.inr (.last he hce)
    | @cons x u hx hu ih =>
      by_cases hcx : Clean x
      · obtain ih | ih := ih
        · exact Or.inl (.cons hcx ih)
        · exact Or.inr (.later hcx ih)
      · exact Or.inr (.token hx hcx hu)
  · rintro (h | h)
    · induction h with
      | last he => exact .last (hl _ he)
      | cons hx _ ih => exact .cons (hc _ hx) ih
    · induction h with
      | last he _ => exact .last he
      | token hx _ hu => exact .cons hx hu
      | later hx _ ih => exact .cons (hc _ hx) ih

end Sentence

end Reading
