import Mathlib

set_option autoImplicit false

/-!
A pool of resources that are opened for the first reference to them and closed with the last one.
It holds as many references as are counted elsewhere, if those who take and drop them agree.
-/

namespace RefPool

structure Shared where
  id : Nat
  refCount : Nat
  deriving DecidableEq, Repr

structure Pool (κ : Type) where
  shared : κ → Option Shared
  /-- The identity of the resource that is opened next. -/
  next : Nat

variable {κ : Type} [DecidableEq κ]

def Pool.empty : Pool κ := ⟨fun _ => none,0⟩

/-- A reference to a resource, unless it cannot be opened. -/
def acquire (opens : κ → Bool) (k : κ) (p : Pool κ) : Option Nat × Pool κ :=
  match p.shared k with
  | some s => (some s.id,{ p with
      shared := Function.update p.shared k (some { s with refCount := s.refCount+1 }) })
  | none =>
    if opens k then (some p.next,⟨Function.update p.shared k (some ⟨p.next,1⟩),p.next+1⟩)
    else (none,p)

def release (k : κ) (p : Pool κ) : Pool κ :=
  match p.shared k with
  | none => p
  | some s =>
    let left := if s.refCount-1 = 0 then none else some { s with refCount := s.refCount-1 }
    { p with shared := Function.update p.shared k left }

def releaseTimes (k : κ) : Nat → Pool κ → Pool κ
  | 0, p => p
  | n+1, p => releaseTimes k n (release k p)

/-- The pool holds the references that are counted, and no resource is open without one. -/
structure Holds (opens : κ → Bool) (count : κ → Nat) (p : Pool κ) : Prop where
  open_iff : ∀ k, p.shared k = none ↔ count k = 0
  refCount : ∀ k s, p.shared k = some s → s.refCount = count k
  opens : ∀ k s, p.shared k = some s → opens k = true

/-- What is open in the first pool is open in the second one, and the same. -/
def Kept (p p' : Pool κ) : Prop :=
  ∀ k s, p.shared k = some s → ∃ s', p'.shared k = some s' ∧ s'.id = s.id

variable {opens : κ → Bool} {count : κ → Nat} {p p' p'' : Pool κ} {k k' : κ} {s : Shared}

omit [DecidableEq κ] in
theorem Kept.refl (p : Pool κ) : Kept p p := fun _ s h => ⟨s,h,rfl⟩

omit [DecidableEq κ] in
theorem Kept.trans (h : Kept p p') (h' : Kept p' p'') : Kept p p'' := by
  intro k s hs
  obtain ⟨s',hs',hid⟩ := h k s hs
  obtain ⟨s'',hs'',hid'⟩ := h' k s' hs'
  exact ⟨s'',hs'',hid'.trans hid⟩

omit [DecidableEq κ] in
theorem holds_empty (opens : κ → Bool) : Holds opens (fun _ => 0) (.empty : Pool κ) where
  open_iff := fun _ => iff_of_true rfl rfl
  refCount := by
    intro k s h
    cases h
  opens := by
    intro k s h
    cases h

omit [DecidableEq κ] in
theorem Holds.congr {count' : κ → Nat} (h : Holds opens count p) (heq : ∀ k, count k = count' k) :
    Holds opens count' p :=
  (funext heq : count = count') ▸ h

omit [DecidableEq κ] in
theorem Holds.exists_of_pos (h : Holds opens count p) (hpos : 0 < count k) :
    ∃ s, p.shared k = some s := by
  cases hs : p.shared k with
  | none => exact absurd ((h.open_iff k).mp hs) hpos.ne'
  | some s => exact ⟨s,rfl⟩

/-- One resource is written, and its count with it. -/
theorem Holds.update (h : Holds opens count p) {count' : κ → Nat} {r : Option Shared} (next : Nat)
    (hother : ∀ k', k' ≠ k → count' k' = count k') (hnone : r = none ↔ count' k = 0)
    (hsome : ∀ s, r = some s → s.refCount = count' k ∧ opens k = true) :
    Holds opens count' ⟨Function.update p.shared k r,next⟩ := by
  have hcases : ∀ k', k' = k ∧ Function.update p.shared k r k' = r ∨
      k' ≠ k ∧ Function.update p.shared k r k' = p.shared k' := by
    intro k'
    by_cases hk : k' = k
    · exact .inl ⟨hk,by simp [hk]⟩
    · exact .inr ⟨hk,by simp [hk]⟩
  constructor
  case open_iff =>
    intro k'
    change Function.update p.shared k r k' = none ↔ count' k' = 0
    rcases hcases k' with ⟨hk,heq⟩ | ⟨hk,heq⟩
    · rwa [heq,hk]
    · rw [heq,hother k' hk]
      exact h.open_iff k'
  case refCount =>
    intro k' s hs
    rcases hcases k' with ⟨rfl,heq⟩ | ⟨hk,heq⟩
    · exact (hsome s (heq.symm.trans hs)).1
    · exact (h.refCount k' s (heq.symm.trans hs)).trans (hother k' hk).symm
  case opens =>
    intro k' s hs
    rcases hcases k' with ⟨rfl,heq⟩ | ⟨hk,heq⟩
    · exact (hsome s (heq.symm.trans hs)).2
    · exact h.opens k' s (heq.symm.trans hs)

section Acquire

theorem Holds.acquire (h : Holds opens count p) (k : κ) :
    Holds opens (fun k' => count k'+if k' = k ∧ opens k then 1 else 0) (acquire opens k p).2 := by
  unfold RefPool.acquire
  cases hs : p.shared k with
  | some s =>
    have hopens := h.opens k s hs
    have hcount := h.refCount k s hs
    refine h.update p.next (fun k' hk => by simp [hk]) (by simp [hopens]) ?_
    rintro s' ⟨⟩
    simp [hopens,hcount]
  | none =>
    have hzero := (h.open_iff k).mp hs
    dsimp only
    by_cases hopens : opens k = true
    · rw [if_pos hopens]
      refine h.update (p.next+1) (fun k' hk => by simp [hk]) (by simp [hopens]) ?_
      rintro s' ⟨⟩
      simp [hopens,hzero]
    · rw [if_neg hopens]
      exact h.congr fun k' => by simp [hopens]

theorem kept_acquire (opens : κ → Bool) (k : κ) (p : Pool κ) :
    Kept p (RefPool.acquire opens k p).2 := by
  intro k' s hs
  unfold RefPool.acquire
  by_cases hk : k' = k
  · subst hk
    rw [hs]
    exact ⟨{ s with refCount := s.refCount+1 },by simp,rfl⟩
  · cases p.shared k with
    | some _ => exact ⟨s,by simpa [hk] using hs,rfl⟩
    | none =>
      dsimp only
      split_ifs
      · exact ⟨s,by simpa [hk] using hs,rfl⟩
      · exact ⟨s,hs,rfl⟩

theorem acquire_eq_some {id : Nat} (h : (RefPool.acquire opens k p).1 = some id) :
    ∃ s, (RefPool.acquire opens k p).2.shared k = some s ∧ s.id = id := by
  unfold RefPool.acquire at h ⊢
  cases hs : p.shared k with
  | some s =>
    simp only [hs,Option.some.injEq] at h
    exact ⟨{ s with refCount := s.refCount+1 },by simp,h⟩
  | none =>
    simp only [hs] at h ⊢
    split_ifs at h ⊢ with hopens
    exact ⟨⟨p.next,1⟩,by simp,by simpa using h⟩

theorem acquire_of_none (h : (RefPool.acquire opens k p).1 = none) :
    (RefPool.acquire opens k p).2 = p := by
  unfold RefPool.acquire at h ⊢
  cases hs : p.shared k with
  | some s => simp [hs] at h
  | none =>
    simp only [hs] at h ⊢
    split_ifs at h ⊢
    rfl

theorem acquire_eq_none (h : Holds opens count p) :
    (RefPool.acquire opens k p).1 = none ↔ opens k = false := by
  unfold RefPool.acquire
  cases hs : p.shared k with
  | some s => simp [h.opens k s hs]
  | none => by_cases hopens : opens k = true <;> simp [hopens]

end Acquire

section Release

theorem Holds.release (h : Holds opens count p) (k : κ) :
    Holds opens (fun k' => count k'-if k' = k then 1 else 0) (release k p) := by
  unfold RefPool.release
  cases hs : p.shared k with
  | none =>
    refine h.congr fun k' => ?_
    by_cases hk : k' = k
    · subst hk
      simp [(h.open_iff k').mp hs]
    · simp [hk]
  | some s =>
    have hcount := h.refCount k s hs
    refine h.update p.next (fun k' hk => by simp [hk]) (by simp [hcount]) fun s' hs' => ?_
    split_ifs at hs'
    obtain rfl := Option.some.inj hs'
    exact ⟨by simp [hcount],h.opens k s hs⟩

theorem kept_release (k : κ) (p : Pool κ) : Kept (RefPool.release k p) p := by
  intro k' s hs
  unfold RefPool.release at hs
  cases hk' : p.shared k with
  | none =>
    rw [hk'] at hs
    exact ⟨s,hs,rfl⟩
  | some s₀ =>
    rw [hk'] at hs
    by_cases hk : k' = k
    · subst hk
      simp only [Function.update_self] at hs
      split_ifs at hs
      obtain rfl := Option.some.inj hs
      exact ⟨s₀,hk',rfl⟩
    · exact ⟨s,by simpa [hk] using hs,rfl⟩

theorem Holds.releaseTimes (h : Holds opens count p) (k : κ) (n : Nat) :
    Holds opens (fun k' => count k'-if k' = k then n else 0) (releaseTimes k n p) := by
  induction n generalizing p count with
  | zero => exact h.congr fun k' => by simp
  | succ n ih =>
    refine (ih (h.release k)).congr fun k' => ?_
    by_cases hk : k' = k
    · simp only [hk,if_true]
      omega
    · simp [hk]

theorem kept_releaseTimes (k : κ) (n : Nat) (p : Pool κ) :
    Kept (RefPool.releaseTimes k n p) p := by
  induction n generalizing p with
  | zero => exact .refl p
  | succ n ih => exact (ih (RefPool.release k p)).trans (kept_release k p)

omit [DecidableEq κ] in
theorem Kept.of_holds (h : Kept p' p) (hholds : Holds opens count p') (hs : p.shared k = some s)
    (hpos : 0 < count k) : ∃ s', p'.shared k = some s' ∧ s'.id = s.id := by
  obtain ⟨s',hs'⟩ := hholds.exists_of_pos hpos
  obtain ⟨s₀,hs₀,hid⟩ := h k s' hs'
  obtain rfl := Option.some.inj (hs.symm.trans hs₀)
  exact ⟨s',hs',hid.symm⟩

end Release

end RefPool
