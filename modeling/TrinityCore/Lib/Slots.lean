import Mathlib

set_option autoImplicit false

/-!
Slots that each hold one thing or nothing, changed one at a time: what they hold in all, what is
true of all they hold, and things that are told apart by a key. A plan spreads an amount over
slots, piece by piece, until nothing is left of it.
-/

namespace Slots

variable {ι α κ : Type} [DecidableEq ι] {c : ι → Option α} {p : ι} {a : α}

def total (S : Finset ι) (w : α → Nat) (c : ι → Option α) : Nat := ∑ p ∈ S, (c p).elim 0 w

theorem total_update {S : Finset ι} (w : α → Nat) (hp : p ∈ S) (o : Option α) :
    total S w (Function.update c p o)+(c p).elim 0 w = total S w c+o.elim 0 w := by
  have hrest : ∑ q ∈ S.erase p, (Function.update c p o q).elim 0 w =
      ∑ q ∈ S.erase p, (c q).elim 0 w := by
    refine Finset.sum_congr rfl fun q hq => ?_
    rw [Function.update_of_ne (Finset.ne_of_mem_erase hq)]
  have hnew := Finset.add_sum_erase S (fun q => (Function.update c p o q).elim 0 w) hp
  have hold := Finset.add_sum_erase S (fun q => (c q).elim 0 w) hp
  simp only [Function.update_self] at hnew
  simp only [total]
  omega

def All (P : ι → α → Prop) (c : ι → Option α) : Prop := ∀ p a, c p = some a → P p a

theorem All.update_none {P : ι → α → Prop} (h : All P c) (p : ι) :
    All P (Function.update c p none) := by
  intro q b hb
  by_cases hq : q = p
  · subst hq
    simp at hb
  · exact h q b (by simpa [hq] using hb)

theorem All.update_some {P : ι → α → Prop} (h : All P c) (ha : P p a) :
    All P (Function.update c p (some a)) := by
  intro q b hb
  by_cases hq : q = p
  · subst hq
    obtain rfl : a = b := by simpa using hb
    exact ha
  · exact h q b (by simpa [hq] using hb)

def Distinct (key : α → κ) (c : ι → Option α) : Prop :=
  ∀ p q a b, c p = some a → c q = some b → key a = key b → p = q

theorem Distinct.update_none {key : α → κ} (h : Distinct key c) (p : ι) :
    Distinct key (Function.update c p none) := by
  intro q r a b ha hb hab
  by_cases hq : q = p
  · subst hq
    simp at ha
  · by_cases hr : r = p
    · subst hr
      simp at hb
    · exact h q r a b (by simpa [hq] using ha) (by simpa [hr] using hb) hab

theorem Distinct.update_some {key : α → κ} (h : Distinct key c)
    (hnew : ∀ q b, q ≠ p → c q = some b → key b ≠ key a) :
    Distinct key (Function.update c p (some a)) := by
  intro q r x y hx hy hxy
  by_cases hq : q = p
  · subst hq
    obtain rfl : a = x := by simpa using hx
    by_contra hr
    exact hnew r y (Ne.symm hr) (by simpa [Ne.symm hr] using hy) hxy.symm
  · by_cases hr : r = p
    · subst hr
      obtain rfl : a = y := by simpa using hy
      exact absurd hxy (hnew q x hq (by simpa [hq] using hx))
    · exact h q r x y (by simpa [hq] using hx) (by simpa [hr] using hy) hxy

theorem Distinct.replace {key : α → κ} {b : α} (h : Distinct key c) (ha : c p = some a)
    (hkey : key b = key a) : Distinct key (Function.update c p (some b)) :=
  h.update_some fun q x hq hx hxb => hq (h q p x a hx ha (hxb.trans hkey))

section Plans

/-- The amount that is still to be placed and the pieces placed so far, in order. -/
structure Plan (ι : Type) where
  left : Nat
  pieces : List (ι × Nat)

namespace Plan

variable {plan : Plan ι} {room : ι → Nat → Prop} {n space : Nat}

/-- As much as there is space for goes to a slot, if the plan does not use the slot yet. -/
def reserve (plan : Plan ι) (p : ι) (space : Nat) : Plan ι :=
  if p ∈ plan.pieces.map Prod.fst then plan
  else ⟨plan.left-min space plan.left,plan.pieces ++ [(p,min space plan.left)]⟩

/-- The pieces go to different slots with room for them and are what is missing from the amount. -/
structure Sound (room : ι → Nat → Prop) (n : Nat) (plan : Plan ι) : Prop where
  distinct : (plan.pieces.map Prod.fst).Nodup
  sum : (plan.pieces.map Prod.snd).sum+plan.left = n
  fits : ∀ e ∈ plan.pieces, room e.1 e.2

omit [DecidableEq ι] in
theorem sound_nil (room : ι → Nat → Prop) (n : Nat) : Sound room n ⟨n,[]⟩ :=
  ⟨List.nodup_nil,by simp,by simp⟩

theorem Sound.reserve (h : Sound room n plan) (hp : room p (min space plan.left)) :
    Sound room n (plan.reserve p space) := by
  unfold Plan.reserve
  split_ifs with hmem
  · exact h
  · refine ⟨?_,?_,?_⟩
    · rw [List.map_append,List.nodup_append]
      refine ⟨h.distinct,by simp,?_⟩
      intro q hq r hr
      obtain rfl : r = p := by simpa using hr
      rintro rfl
      exact hmem hq
    · have hsum := h.sum
      simp only [List.map_append,List.sum_append,List.map_cons,List.map_nil,List.sum_cons,
        List.sum_nil]
      omega
    · intro e he
      rcases List.mem_append.mp he with he | he
      · exact h.fits e he
      · obtain rfl : e = (p,min space plan.left) := by simpa using he
        exact hp

def fill (space : ι → Nat) : List ι → Plan ι → Plan ι
  | [],plan => plan
  | p :: ps,plan =>
    if p ∈ plan.pieces.map Prod.fst then fill space ps plan
    else if (plan.reserve p (space p)).left = 0 then plan.reserve p (space p)
    else fill space ps (plan.reserve p (space p))

theorem fill_cons (space : ι → Nat) (p : ι) (ps : List ι) (plan : Plan ι) :
    plan.fill space (p :: ps) = if p ∈ plan.pieces.map Prod.fst then plan.fill space ps
      else if (plan.reserve p (space p)).left = 0 then plan.reserve p (space p)
      else (plan.reserve p (space p)).fill space ps := rfl

theorem fill_singleton (space : ι → Nat) (p : ι) (plan : Plan ι) :
    plan.fill space [p] = plan.reserve p (space p) := by
  rw [fill_cons]
  split_ifs with hmem
  · exact (if_pos hmem).symm
  · rfl
  · rfl

/-- How much the slots that the plan does not use yet have space for. -/
def capacity (space : ι → Nat) (ps : List ι) (plan : Plan ι) : Nat :=
  ∑ p ∈ ps.toFinset \ (plan.pieces.map Prod.fst).toFinset, space p

variable {spaceOf : ι → Nat} {ps qs : List ι}

theorem Sound.fill (h : Sound room n plan) (hps : ∀ p ∈ ps, ∀ k ≤ spaceOf p, room p k) :
    Sound room n (plan.fill spaceOf ps) := by
  induction ps generalizing plan with
  | nil => exact h
  | cons p ps ih =>
    rw [List.forall_mem_cons] at hps
    have hnext : Sound room n (plan.reserve p (spaceOf p)) :=
      h.reserve (hps.1 _ (Nat.min_le_left _ _))
    rw [fill_cons]
    split_ifs
    · exact ih h hps.2
    · exact hnext
    · exact ih hnext hps.2

theorem reserve_of_not_mem (hp : p ∉ plan.pieces.map Prod.fst) (space : Nat) :
    plan.reserve p space = ⟨plan.left-min space plan.left,plan.pieces ++ [(p,min space plan.left)]⟩ :=
  if_neg hp

theorem fill_left : (plan.fill spaceOf ps).left = plan.left-plan.capacity spaceOf ps := by
  induction ps generalizing plan with
  | nil => simp [fill,capacity]
  | cons p ps ih =>
    rw [fill_cons]
    split_ifs with hmem hleft
    · rw [ih,capacity,capacity]
      congr 2
      ext q
      simp only [Finset.mem_sdiff,List.mem_toFinset,List.mem_cons]
      grind
    all_goals
      rw [reserve_of_not_mem hmem] at hleft ⊢
      have hsplit : (p :: ps).toFinset \ (plan.pieces.map Prod.fst).toFinset =
          insert p (ps.toFinset \ ((plan.pieces.map Prod.fst).toFinset ∪ {p})) := by
        ext q
        simp only [Finset.mem_sdiff,List.mem_toFinset,List.mem_cons,Finset.mem_insert,
          Finset.mem_union,Finset.mem_singleton]
        grind
      have hcap : plan.capacity spaceOf (p :: ps) =
          spaceOf p+∑ q ∈ ps.toFinset \ ((plan.pieces.map Prod.fst).toFinset ∪ {p}),spaceOf q := by
        rw [capacity,hsplit,Finset.sum_insert (by simp)]
    · dsimp only at hleft ⊢
      omega
    · rw [ih,hcap,capacity]
      simp only [List.map_append,List.map_cons,List.map_nil,List.toFinset_append,
        List.toFinset_cons,List.toFinset_nil,insert_empty_eq]
      omega

theorem fill_append (h : (plan.fill spaceOf ps).left ≠ 0) :
    plan.fill spaceOf (ps ++ qs) = (plan.fill spaceOf ps).fill spaceOf qs := by
  induction ps generalizing plan with
  | nil => rfl
  | cons p ps ih =>
    rw [List.cons_append]
    simp only [fill_cons] at h ⊢
    split_ifs at h ⊢ with hmem hleft
    · exact ih h
    · exact absurd hleft h
    · exact ih h

theorem fill_append_done (hplan : plan.left ≠ 0) (h : (plan.fill spaceOf ps).left = 0) :
    plan.fill spaceOf (ps ++ qs) = plan.fill spaceOf ps := by
  induction ps generalizing plan with
  | nil => exact absurd h hplan
  | cons p ps ih =>
    rw [List.cons_append]
    simp only [fill_cons] at h ⊢
    split_ifs at h ⊢ with hmem hleft
    · exact ih hplan h
    · rfl
    · exact ih hleft h

theorem fill_pos (hplan : plan.left ≠ 0) (hspace : ∀ p ∈ ps, 0 < spaceOf p)
    (hpieces : ∀ e ∈ plan.pieces, 0 < e.2) : ∀ e ∈ (plan.fill spaceOf ps).pieces, 0 < e.2 := by
  induction ps generalizing plan with
  | nil => exact hpieces
  | cons p ps ih =>
    rw [List.forall_mem_cons] at hspace
    have hnext : ∀ e ∈ (plan.reserve p (spaceOf p)).pieces, 0 < e.2 := by
      intro e he
      unfold reserve at he
      split_ifs at he
      · exact hpieces e he
      · rcases List.mem_append.mp he with he | he
        · exact hpieces e he
        · rw [List.mem_singleton.mp he]
          have hp := hspace.1
          dsimp only
          omega
    rw [fill_cons]
    split_ifs with hmem hleft
    · exact ih hplan hspace.2 hpieces
    · exact hnext
    · exact ih hleft hspace.2 hnext

theorem mem_fill {e : ι × Nat} (he : e ∈ (plan.fill spaceOf ps).pieces) :
    e ∈ plan.pieces ∨ e.1 ∈ ps := by
  induction ps generalizing plan with
  | nil => exact .inl he
  | cons p ps ih =>
    have hnew : ∀ e ∈ (plan.reserve p (spaceOf p)).pieces, e ∈ plan.pieces ∨ e.1 = p := by
      intro e he
      unfold reserve at he
      split_ifs at he
      · exact .inl he
      · rcases List.mem_append.mp he with he | he
        · exact .inl he
        · exact .inr (by rw [List.mem_singleton.mp he])
    rw [fill_cons] at he
    rw [List.mem_cons]
    split_ifs at he
    · rcases ih he with h | h <;> simp [h]
    · rcases hnew e he with h | h <;> simp [h]
    · rcases ih he with h | h
      · rcases hnew e h with h | h <;> simp [h]
      · simp [h]

theorem mem_positions_reserve : p ∈ (plan.reserve p space).pieces.map Prod.fst := by
  unfold reserve
  split_ifs with hmem
  · exact hmem
  · simp

theorem positions_reserve_subset {q : ι} (hq : q ∈ plan.pieces.map Prod.fst) :
    q ∈ (plan.reserve p space).pieces.map Prod.fst := by
  unfold reserve
  split_ifs
  · exact hq
  · rw [List.map_append]
    exact List.mem_append_left _ hq

theorem positions_fill_subset {q : ι} (hq : q ∈ plan.pieces.map Prod.fst) :
    q ∈ (plan.fill spaceOf ps).pieces.map Prod.fst := by
  induction ps generalizing plan with
  | nil => exact hq
  | cons p ps ih =>
    rw [fill_cons]
    split_ifs
    · exact ih hq
    · exact positions_reserve_subset hq
    · exact ih (positions_reserve_subset hq)

theorem head_mem_fill : p ∈ (plan.fill spaceOf (p :: ps)).pieces.map Prod.fst := by
  rw [fill_cons]
  split_ifs with hmem
  · exact positions_fill_subset hmem
  · exact mem_positions_reserve
  · exact positions_fill_subset mem_positions_reserve

section Searches

variable {ω : Type} {done : Plan ι → ω} {f g : Plan ι → Except ω (Plan ι)}

/-- A search uses the slots in order. When nothing is left it ends with an outcome. -/
def Fills (done : Plan ι → ω) (space : ι → Nat) (ps : List ι) (f : Plan ι → Except ω (Plan ι)) :
    Prop :=
  ∀ plan : Plan ι, plan.left ≠ 0 → f plan =
    if (plan.fill space ps).left = 0 then .error (done (plan.fill space ps))
    else .ok (plan.fill space ps)

theorem fills_ok : Fills done spaceOf [] Except.ok := by
  intro plan hplan
  exact (if_neg hplan).symm

theorem Fills.bind_error {stop : Plan ι → ω} (hf : Fills done spaceOf ps f)
    (hg : ∀ plan, g plan = .error (stop plan)) (hplan : plan.left ≠ 0) :
    f plan >>= g = .error (if (plan.fill spaceOf ps).left = 0 then done (plan.fill spaceOf ps)
      else stop (plan.fill spaceOf ps)) := by
  rw [hf plan hplan]
  split_ifs
  · rfl
  · exact hg _

theorem Fills.ite {c : Prop} [Decidable c] (hf : c → Fills done spaceOf ps f) :
    Fills done spaceOf (if c then ps else []) (fun plan => if c then f plan else .ok plan) := by
  by_cases hc : c
  · simp only [if_pos hc]
    exact hf hc
  · simp only [if_neg hc]
    exact fills_ok

theorem Fills.bind (hf : Fills done spaceOf ps f) (hg : Fills done spaceOf qs g) :
    Fills done spaceOf (ps ++ qs) (fun plan => f plan >>= g) := by
  intro plan hplan
  dsimp only
  rw [hf plan hplan]
  by_cases hleft : (plan.fill spaceOf ps).left = 0
  · rw [if_pos hleft,fill_append_done hplan hleft,if_pos hleft]
    rfl
  · rw [if_neg hleft,fill_append hleft]
    exact hg _ hleft

theorem Fills.foldlM {β : Type} {step : Plan ι → β → Except ω (Plan ι)} {slots : β → List ι}
    (bs : List β) (h : ∀ b ∈ bs, Fills done spaceOf (slots b) fun plan => step plan b) :
    Fills done spaceOf (bs.flatMap slots) fun plan => bs.foldlM step plan := by
  induction bs with
  | nil => exact fills_ok
  | cons b bs ih =>
    rw [List.forall_mem_cons] at h
    exact h.1.bind (ih h.2)

end Searches

end Plan

end Plans

end Slots
