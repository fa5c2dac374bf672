import Mathlib

set_option autoImplicit false

namespace Piles

structure Pile (α : Type) where
  count : Nat
  fixed : Bool
  label : α
  deriving DecidableEq

variable {α : Type}

def total (piles : List (Pile α)) : Nat := (piles.map Pile.count).sum

/-- How many there are in the piles that are not fixed. -/
def loose (piles : List (Pile α)) : Nat := total (piles.filter fun p => !p.fixed)

def draw : Nat → List (Pile α) → List (Pile α)
  | _, [] => []
  | 0, piles => piles
  | k+1, p :: piles =>
    if p.count ≤ k+1 then
      if p.fixed then p :: draw (k+1) piles else draw (k+1-p.count) piles
    else { p with count := p.count-(k+1) } :: piles

def pieces : Nat → List (Pile α) → List (Nat × α)
  | _, [] => []
  | 0, _ => []
  | k+1, p :: piles =>
    if p.count ≤ k+1 then
      if p.fixed then pieces (k+1) piles else (p.count,p.label) :: pieces (k+1-p.count) piles
    else [(k+1,p.label)]

/-- A number is there to be taken: in what is loose, or with a part of a fixed pile that is too large to
be passed over. -/
def Finds (k : Nat) (piles : List (Pile α)) : Prop :=
  k ≤ loose piles ∨ ∃ front p back, piles = front ++ p :: back ∧ p.fixed = true ∧
    k < loose front+p.count

def AllFind : List Nat → List (Pile α) → Prop
  | [], _ => True
  | k :: ks, piles => Finds k piles ∧ AllFind ks (draw k piles)

def drawAll : List Nat → List (Pile α) → List (Pile α)
  | [], piles => piles
  | k :: ks, piles => drawAll ks (draw k piles)

def piecesAll : List Nat → List (Pile α) → List (Nat × α)
  | [], _ => []
  | k :: ks, piles => pieces k piles ++ piecesAll ks (draw k piles)

def taken (l : List (Nat × α)) : Nat := (l.map Prod.fst).sum

variable {p : Pile α} {piles front back : List (Pile α)} {k : Nat}

@[simp] theorem total_nil : total ([] : List (Pile α)) = 0 := rfl

@[simp] theorem total_cons : total (p :: piles) = p.count+total piles := by
  simp [total]

@[simp] theorem loose_nil : loose ([] : List (Pile α)) = 0 := rfl

theorem loose_cons_fixed (h : p.fixed = true) : loose (p :: piles) = loose piles := by
  simp [loose,h]

theorem loose_cons_loose (h : p.fixed = false) : loose (p :: piles) = p.count+loose piles := by
  simp [loose,h]

@[simp] theorem taken_nil : taken ([] : List (Nat × α)) = 0 := rfl

@[simp] theorem taken_cons (x : Nat × α) (l : List (Nat × α)) :
    taken (x :: l) = x.1+taken l := by
  simp [taken]

theorem taken_append (l l' : List (Nat × α)) : taken (l ++ l') = taken l+taken l' := by
  simp [taken]

@[simp] theorem draw_zero (piles : List (Pile α)) : draw 0 piles = piles := by
  cases piles <;> rfl

@[simp] theorem pieces_zero (piles : List (Pile α)) : pieces 0 piles = [] := by
  cases piles <;> rfl

theorem draw_fixed (hk : 0 < k) (hle : p.count ≤ k) (h : p.fixed = true) :
    draw k (p :: piles) = p :: draw k piles := by
  obtain ⟨k,rfl⟩ := Nat.exists_eq_succ_of_ne_zero hk.ne'
  rw [draw,if_pos hle,if_pos h]

theorem pieces_fixed (hk : 0 < k) (hle : p.count ≤ k) (h : p.fixed = true) :
    pieces k (p :: piles) = pieces k piles := by
  obtain ⟨k,rfl⟩ := Nat.exists_eq_succ_of_ne_zero hk.ne'
  rw [pieces,if_pos hle,if_pos h]

theorem draw_loose (hk : 0 < k) (hle : p.count ≤ k) (h : p.fixed = false) :
    draw k (p :: piles) = draw (k-p.count) piles := by
  obtain ⟨k,rfl⟩ := Nat.exists_eq_succ_of_ne_zero hk.ne'
  rw [draw,if_pos hle,if_neg (by simp [h])]

theorem pieces_loose (hk : 0 < k) (hle : p.count ≤ k) (h : p.fixed = false) :
    pieces k (p :: piles) = (p.count,p.label) :: pieces (k-p.count) piles := by
  obtain ⟨k,rfl⟩ := Nat.exists_eq_succ_of_ne_zero hk.ne'
  rw [pieces,if_pos hle,if_neg (by simp [h])]

theorem draw_part (hk : 0 < k) (hlt : k < p.count) :
    draw k (p :: piles) = { p with count := p.count-k } :: piles := by
  obtain ⟨k,rfl⟩ := Nat.exists_eq_succ_of_ne_zero hk.ne'
  rw [draw,if_neg (by omega)]

theorem pieces_part (hk : 0 < k) (hlt : k < p.count) : pieces k (p :: piles) = [(k,p.label)] := by
  obtain ⟨k,rfl⟩ := Nat.exists_eq_succ_of_ne_zero hk.ne'
  rw [pieces,if_neg (by omega)]

theorem draw_induction {motive : Nat → List (Pile α) → Prop} (nil : ∀ k, motive k [])
    (done : ∀ piles, motive 0 piles)
    (fixed : ∀ k p piles, 0 < k → p.count ≤ k → p.fixed = true → motive k piles →
      motive k (p :: piles))
    (whole : ∀ k p piles, 0 < k → p.count ≤ k → p.fixed = false → motive (k-p.count) piles →
      motive k (p :: piles))
    (part : ∀ k p piles, 0 < k → k < p.count → motive k (p :: piles))
    (k : Nat) (piles : List (Pile α)) : motive k piles := by
  induction piles generalizing k with
  | nil => exact nil k
  | cons p piles ih =>
    rcases Nat.eq_zero_or_pos k with rfl | hk
    · exact done _
    · by_cases hle : p.count ≤ k
      · cases hfixed : p.fixed with
        | true => exact fixed k p piles hk hle hfixed (ih k)
        | false => exact whole k p piles hk hle hfixed (ih _)
      · exact part k p piles hk (not_le.mp hle)

theorem total_draw (k : Nat) (piles : List (Pile α)) :
    total (draw k piles)+taken (pieces k piles) = total piles := by
  induction k, piles using draw_induction with
  | nil k => simp [draw,pieces]
  | done piles => simp
  | fixed k p piles hk hle hfixed ih =>
    rw [draw_fixed hk hle hfixed,pieces_fixed hk hle hfixed,total_cons,total_cons]
    omega
  | whole k p piles hk hle hfixed ih =>
    rw [draw_loose hk hle hfixed,pieces_loose hk hle hfixed,taken_cons,total_cons]
    dsimp only
    omega
  | part k p piles hk hlt =>
    rw [draw_part hk hlt,pieces_part hk hlt,total_cons,total_cons,taken_cons,taken_nil]
    dsimp only
    omega

theorem taken_pieces_le (k : Nat) (piles : List (Pile α)) : taken (pieces k piles) ≤ k := by
  induction k, piles using draw_induction with
  | nil k => simp [pieces]
  | done piles => simp
  | fixed k p piles hk hle hfixed ih => rwa [pieces_fixed hk hle hfixed]
  | whole k p piles hk hle hfixed ih =>
    rw [pieces_loose hk hle hfixed,taken_cons]
    dsimp only
    omega
  | part k p piles hk hlt => simp [pieces_part hk hlt]

section Finds

theorem finds_fixed (hle : p.count ≤ k) (h : p.fixed = true) :
    Finds k (p :: piles) ↔ Finds k piles := by
  unfold Finds
  rw [loose_cons_fixed h]
  apply or_congr_right
  constructor
  · rintro ⟨front,q,back,heq,hq,hlt⟩
    cases front with
    | nil =>
      obtain ⟨rfl,-⟩ := List.cons.inj heq
      rw [loose_nil] at hlt
      omega
    | cons first front =>
      obtain ⟨rfl,rfl⟩ := List.cons.inj heq
      rw [loose_cons_fixed h] at hlt
      exact ⟨front,q,back,rfl,hq,hlt⟩
  · rintro ⟨front,q,back,rfl,hq,hlt⟩
    refine ⟨p :: front,q,back,rfl,hq,?_⟩
    rwa [loose_cons_fixed h]

theorem finds_loose (hle : p.count ≤ k) (h : p.fixed = false) :
    Finds k (p :: piles) ↔ Finds (k-p.count) piles := by
  unfold Finds
  rw [loose_cons_loose h]
  apply or_congr
  · omega
  · constructor
    · rintro ⟨front,q,back,heq,hq,hlt⟩
      cases front with
      | nil =>
        obtain ⟨rfl,-⟩ := List.cons.inj heq
        rw [h] at hq
        cases hq
      | cons first front =>
        obtain ⟨rfl,rfl⟩ := List.cons.inj heq
        rw [loose_cons_loose h] at hlt
        exact ⟨front,q,back,rfl,hq,by omega⟩
    · rintro ⟨front,q,back,rfl,hq,hlt⟩
      refine ⟨p :: front,q,back,rfl,hq,?_⟩
      rw [loose_cons_loose h]
      omega

theorem finds_part (hlt : k < p.count) : Finds k (p :: piles) := by
  cases h : p.fixed with
  | true => exact .inr ⟨[],p,piles,rfl,h,by simpa using hlt⟩
  | false =>
    refine .inl ?_
    rw [loose_cons_loose h]
    omega

theorem taken_pieces_eq_iff (k : Nat) (piles : List (Pile α)) :
    taken (pieces k piles) = k ↔ Finds k piles := by
  induction k, piles using draw_induction with
  | nil k =>
    rw [pieces,taken_nil]
    constructor
    · rintro rfl
      exact .inl le_rfl
    · rintro (hle | ⟨front,p,back,heq,-⟩)
      · exact (Nat.le_zero.mp hle).symm
      · simp at heq
  | done piles => simp [Finds]
  | fixed k p piles hk hle hfixed ih =>
    rw [pieces_fixed hk hle hfixed,finds_fixed hle hfixed,ih]
  | whole k p piles hk hle hfixed ih =>
    rw [pieces_loose hk hle hfixed,finds_loose hle hfixed,taken_cons,← ih]
    dsimp only
    omega
  | part k p piles hk hlt =>
    rw [pieces_part hk hlt]
    simpa using finds_part hlt

end Finds

section All

theorem taken_piecesAll_le (ks : List Nat) (piles : List (Pile α)) :
    taken (piecesAll ks piles) ≤ ks.sum := by
  induction ks generalizing piles with
  | nil => exact le_rfl
  | cons k ks ih =>
    rw [piecesAll,taken_append,List.sum_cons]
    exact Nat.add_le_add (taken_pieces_le k piles) (ih _)

theorem total_drawAll (ks : List Nat) (piles : List (Pile α)) :
    total (drawAll ks piles)+taken (piecesAll ks piles) = total piles := by
  induction ks generalizing piles with
  | nil => rfl
  | cons k ks ih =>
    have hrest := ih (draw k piles)
    have hfirst := total_draw k piles
    rw [drawAll,piecesAll,taken_append]
    omega

theorem taken_piecesAll_eq_iff (ks : List Nat) (piles : List (Pile α)) :
    taken (piecesAll ks piles) = ks.sum ↔ AllFind ks piles := by
  induction ks generalizing piles with
  | nil => exact iff_of_true rfl trivial
  | cons k ks ih =>
    have hfirst := taken_pieces_le k piles
    have hrest := taken_piecesAll_le ks (draw k piles)
    rw [piecesAll,AllFind,← taken_pieces_eq_iff,← ih,taken_append,List.sum_cons]
    omega

theorem drawAll_append (ks ks' : List Nat) (piles : List (Pile α)) :
    drawAll (ks ++ ks') piles = drawAll ks' (drawAll ks piles) := by
  induction ks generalizing piles with
  | nil => rfl
  | cons k ks ih => exact ih (draw k piles)

theorem piecesAll_append (ks ks' : List Nat) (piles : List (Pile α)) :
    piecesAll (ks ++ ks') piles = piecesAll ks piles ++ piecesAll ks' (drawAll ks piles) := by
  induction ks generalizing piles with
  | nil => rfl
  | cons k ks ih =>
    rw [List.cons_append,piecesAll,ih,piecesAll,drawAll,List.append_assoc]

theorem drawAll_zeros {ks : List Nat} (h : ∀ k ∈ ks, k = 0) (piles : List (Pile α)) :
    drawAll ks piles = piles ∧ piecesAll ks piles = [] := by
  induction ks with
  | nil => exact ⟨rfl,rfl⟩
  | cons k ks ih =>
    obtain ⟨hk,hrest⟩ := List.forall_mem_cons.mp h
    rw [hk,drawAll,piecesAll,draw_zero,pieces_zero]
    exact ih hrest

theorem pos_pieces (k : Nat) (h : ∀ p ∈ piles, 0 < p.count) : ∀ x ∈ pieces k piles, 0 < x.1 := by
  induction k, piles using draw_induction with
  | nil k => simp [pieces]
  | done piles => simp
  | fixed k p piles hk hle hfixed ih =>
    rw [pieces_fixed hk hle hfixed]
    exact ih (List.forall_mem_cons.mp h).2
  | whole k p piles hk hle hfixed ih =>
    rw [pieces_loose hk hle hfixed]
    simp only [List.forall_mem_cons] at h ⊢
    exact ⟨h.1,ih h.2⟩
  | part k p piles hk hlt =>
    rw [pieces_part hk hlt]
    simpa using hk

theorem fixed_draw (k : Nat) (piles : List (Pile α)) :
    (∀ p ∈ draw k piles, p.fixed = false) ↔ ∀ p ∈ piles, p.fixed = false := by
  induction k, piles using draw_induction with
  | nil k => simp [draw]
  | done piles => simp
  | fixed k p piles hk hle hfixed ih =>
    rw [draw_fixed hk hle hfixed]
    simp [hfixed]
  | whole k p piles hk hle hfixed ih =>
    rw [draw_loose hk hle hfixed,ih]
    simp [hfixed]
  | part k p piles hk hlt =>
    rw [draw_part hk hlt]
    simp

theorem pos_draw (k : Nat) (h : ∀ p ∈ piles, 0 < p.count) : ∀ p ∈ draw k piles, 0 < p.count := by
  induction k, piles using draw_induction with
  | nil k => simp [draw]
  | done piles => simpa using h
  | fixed k p piles hk hle hfixed ih =>
    rw [draw_fixed hk hle hfixed]
    simp only [List.forall_mem_cons] at h ⊢
    exact ⟨h.1,ih h.2⟩
  | whole k p piles hk hle hfixed ih =>
    rw [draw_loose hk hle hfixed]
    exact ih (List.forall_mem_cons.mp h).2
  | part k p piles hk hlt =>
    rw [draw_part hk hlt]
    simp only [List.forall_mem_cons] at h ⊢
    exact ⟨by omega,h.2⟩

theorem loose_of_forall (h : ∀ p ∈ piles, p.fixed = false) : loose piles = total piles := by
  unfold loose
  rw [List.filter_eq_self.mpr (by simpa using h)]

theorem total_eq_zero (h : ∀ p ∈ piles, 0 < p.count) : total piles = 0 ↔ piles = [] := by
  cases piles with
  | nil => simp
  | cons p piles =>
    have hpos := h p List.mem_cons_self
    rw [total_cons]
    simp
    omega

theorem total_draw_loose (k : Nat) (h : ∀ p ∈ piles, p.fixed = false) :
    total (draw k piles) = total piles-k := by
  have hsum := total_draw k piles
  have hle := taken_pieces_le k piles
  by_cases hk : k ≤ total piles
  · have hall := (taken_pieces_eq_iff k piles).mpr (.inl (by rwa [loose_of_forall h]))
    omega
  · induction k, piles using draw_induction with
    | nil k => simp [draw]
    | done piles => omega
    | fixed k p piles _ _ hfixed _ =>
      have := h p List.mem_cons_self
      rw [hfixed] at this
      cases this
    | whole k p piles hpos hcount hfixed ih =>
      rw [draw_loose hpos hcount hfixed,total_cons] at *
      have hrest := ih (List.forall_mem_cons.mp h).2 (total_draw _ piles) (taken_pieces_le _ piles)
        (by omega)
      omega
    | part k p piles _ hlt =>
      rw [total_cons] at hk
      omega

theorem drawAll_eq_nil_iff (ks : List Nat) (h : ∀ p ∈ piles, 0 < p.count) :
    drawAll ks piles = [] ↔ (∀ p ∈ piles, p.fixed = false) ∧ total piles ≤ ks.sum := by
  induction ks generalizing piles with
  | nil =>
    rw [drawAll,List.sum_nil,Nat.le_zero,total_eq_zero h]
    constructor
    · rintro rfl
      simp
    · exact And.right
  | cons k ks ih =>
    rw [drawAll,ih (pos_draw k h),fixed_draw,List.sum_cons]
    apply and_congr_right
    intro hloose
    rw [total_draw_loose k hloose]
    omega

/-- Numbers that are asked for, some of which are taken from the piles: with what else there is, what
stays is what it should be exactly when they are all the numbers and each is there, or when everything
goes. -/
theorem total_drawAll_iff (ks : List Nat) (h : ∀ p ∈ piles, 0 < p.count) {asked other : Nat}
    (hasked : ks.sum ≤ asked) :
    total (drawAll ks piles)+other = total piles+other-asked ↔
      (ks.sum = asked ∧ AllFind ks piles) ∨
        (other = 0 ∧ (∀ p ∈ piles, p.fixed = false) ∧ total piles ≤ ks.sum) := by
  have hsum := total_drawAll ks piles
  have hle := taken_piecesAll_le ks piles
  have hpos : ∀ p ∈ drawAll ks piles, 0 < p.count := by
    clear hsum hle
    induction ks generalizing piles with
    | nil => exact h
    | cons k ks ih => exact ih (pos_draw k h) (by rw [List.sum_cons] at hasked; omega)
  rw [← taken_piecesAll_eq_iff,← drawAll_eq_nil_iff ks h,← total_eq_zero hpos]
  omega

end All

section Again

def Idle (k : Nat) (piles : List (Pile α)) : Prop := ∀ p ∈ piles, p.fixed = true ∧ p.count ≤ k

theorem taken_pieces_eq_zero_iff (hk : 0 < k) (h : ∀ p ∈ piles, 0 < p.count) :
    taken (pieces k piles) = 0 ↔ Idle k piles := by
  unfold Idle
  induction k, piles using draw_induction with
  | nil k => simp [pieces]
  | done piles => exact absurd hk (lt_irrefl 0)
  | fixed k p piles _ hle hfixed ih =>
    rw [pieces_fixed hk hle hfixed,List.forall_mem_cons,ih hk (List.forall_mem_cons.mp h).2]
    exact (and_iff_right ⟨hfixed,hle⟩).symm
  | whole k p piles _ hle hfixed ih =>
    have hpos := h p List.mem_cons_self
    rw [pieces_loose hk hle hfixed,taken_cons,List.forall_mem_cons,hfixed]
    dsimp only
    refine iff_of_false (by omega) ?_
    exact fun hall => Bool.false_ne_true hall.1.1
  | part k p piles _ hlt =>
    rw [pieces_part hk hlt,taken_cons,List.forall_mem_cons]
    dsimp only
    exact iff_of_false (by omega) fun hall => absurd hall.1.2 (by omega)

theorem idle_draw (h : taken (pieces k piles) < k) : Idle k (draw k piles) := by
  unfold Idle
  induction k, piles using draw_induction with
  | nil k => simp [draw]
  | done piles => exact absurd h (Nat.not_lt_zero _)
  | fixed k p piles hk hle hfixed ih =>
    rw [pieces_fixed hk hle hfixed] at h
    rw [draw_fixed hk hle hfixed,List.forall_mem_cons]
    exact ⟨⟨hfixed,hle⟩,ih h⟩
  | whole k p piles hk hle hfixed ih =>
    rw [pieces_loose hk hle hfixed,taken_cons] at h
    rw [draw_loose hk hle hfixed]
    dsimp only at h
    intro q hq
    obtain ⟨hq,hcount⟩ := ih (by omega) q hq
    exact ⟨hq,by omega⟩
  | part k p piles hk hlt =>
    rw [pieces_part hk hlt] at h
    simp at h

/-- A number is taken, and perhaps once more. With what else there is, what stays is what it should be
exactly when the number is there and nothing is taken again, or when everything goes. -/
theorem total_draw_again_iff (hk : 0 < k) (h : ∀ p ∈ piles, 0 < p.count) {other : Nat}
    (again : Prop) [Decidable again] :
    total (if again then draw k (draw k piles) else draw k piles)+other = total piles+other-k ↔
      (Finds k piles ∧ (¬ again ∨ Idle k (draw k piles))) ∨
        (other = 0 ∧ (∀ p ∈ piles, p.fixed = false) ∧ total piles ≤ k) := by
  have hsum := total_draw k piles
  have hle := taken_pieces_le k piles
  have hsum' := total_draw k (draw k piles)
  have hpos := pos_draw k h
  have hempty : total (draw k piles) = 0 ↔ (∀ p ∈ piles, p.fixed = false) ∧ total piles ≤ k := by
    rw [total_eq_zero hpos]
    simpa [drawAll] using drawAll_eq_nil_iff [k] h
  rw [← taken_pieces_eq_iff,← hempty,← taken_pieces_eq_zero_iff hk hpos]
  by_cases hall : taken (pieces k piles) = k
  · split_ifs with hagain
    · simp only [hall,hagain,not_true_eq_false,false_or,true_and]
      omega
    · simp only [hall,hagain,not_false_eq_true,true_or,true_and,iff_true]
      omega
  · have hidle := (taken_pieces_eq_zero_iff hk hpos).mpr (idle_draw (by omega))
    split_ifs <;> simp only [hall,false_and,false_or] <;> omega

end Again

end Piles
