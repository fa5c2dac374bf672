import Mathlib

set_option autoImplicit false

structure IdPool where
  maxId : Nat
  freeIds : List Nat
  deriving DecidableEq

namespace IdPool

variable {size n id : Nat} {p : IdPool} {live live' : List Nat}

def take (size : Nat) (p : IdPool) : Nat × IdPool :=
  match p.freeIds with
  | [] => ((p.maxId+1)%size,{ p with maxId := (p.maxId+1)%size })
  | id :: ids => (id,{ p with freeIds := ids })

def release (size : Nat) (p : IdPool) (id : Nat) : IdPool :=
  if id = p.maxId then { p with maxId := (p.maxId+size-1)%size }
  else { p with freeIds := p.freeIds ++ [id] }

/-- The live ids and the free ones are different ids, none of them zero or above the counter. -/
structure Holds (size : Nat) (p : IdPool) (live : List Nat) : Prop where
  nodup : (live ++ p.freeIds).Nodup
  pos : ∀ id ∈ live ++ p.freeIds, 0 < id
  le_max : ∀ id ∈ live ++ p.freeIds, id ≤ p.maxId
  max_lt : p.maxId < size

/-- The pool can hand out a number of ids before the counter wraps. -/
def HasRoom (size : Nat) (p : IdPool) (n : Nat) : Prop := p.maxId+(n-p.freeIds.length) < size

theorem Holds.perm (h : Holds size p live) (hperm : live.Perm live') : Holds size p live' := by
  have hall := hperm.append_right p.freeIds
  exact ⟨hall.nodup_iff.mp h.nodup,fun id hmem => h.pos id (hall.mem_iff.mpr hmem),
    fun id hmem => h.le_max id (hall.mem_iff.mpr hmem),h.max_lt⟩

theorem Holds.forget (h : Holds size p (id :: live)) : Holds size p live := by
  have hsub : (live ++ p.freeIds).Sublist (id :: live ++ p.freeIds) := List.sublist_cons_self _ _
  exact ⟨h.nodup.sublist hsub,fun i hmem => h.pos i (hsub.subset hmem),
    fun i hmem => h.le_max i (hsub.subset hmem),h.max_lt⟩

theorem Holds.take (h : Holds size p live) (hroom : HasRoom size p (n+1)) :
    (p.take size).1 ≠ 0 ∧ (p.take size).1 ∉ live ∧
      Holds size (p.take size).2 ((p.take size).1 :: live) ∧ HasRoom size (p.take size).2 n := by
  obtain ⟨maxId,freeIds⟩ := p
  unfold HasRoom at hroom ⊢
  cases freeIds with
  | nil =>
    have hmod : (maxId+1)%size = maxId+1 := Nat.mod_eq_of_lt (by simp at hroom; omega)
    unfold IdPool.take
    dsimp only
    rw [hmod]
    have hnew : maxId+1 ∉ live := by
      intro hmem
      have hle := h.le_max (maxId+1) (List.mem_append_left _ hmem)
      dsimp only at hle
      omega
    refine ⟨by omega,hnew,⟨?_,?_,?_,?_⟩,?_⟩
    · have hnodup := h.nodup
      rw [List.append_nil] at hnodup ⊢
      exact List.nodup_cons.mpr ⟨hnew,hnodup⟩
    · intro i hmem
      rw [List.cons_append,List.mem_cons] at hmem
      rcases hmem with rfl | hmem
      · omega
      · exact h.pos i hmem
    · intro i hmem
      rw [List.cons_append,List.mem_cons] at hmem
      rcases hmem with rfl | hmem
      · exact Nat.le_refl _
      · exact Nat.le_succ_of_le (h.le_max i hmem)
    · simp at hroom
      dsimp only
      omega
    · simp at hroom ⊢
      omega
  | cons i ids =>
    have hmem : i ∈ live ++ i :: ids := by simp
    have hperm : (live ++ i :: ids).Perm (i :: live ++ ids) := List.perm_middle
    have hnodup := hperm.nodup_iff.mp h.nodup
    refine ⟨Nat.pos_iff_ne_zero.mp (h.pos i hmem),?_,⟨hnodup,?_,?_,h.max_lt⟩,?_⟩
    · intro hlive
      rw [List.cons_append,List.nodup_cons] at hnodup
      exact hnodup.1 (List.mem_append_left _ hlive)
    · exact fun j hj => h.pos j (hperm.mem_iff.mpr hj)
    · exact fun j hj => h.le_max j (hperm.mem_iff.mpr hj)
    · simp [IdPool.take] at hroom ⊢
      omega

theorem Holds.release (h : Holds size p (id :: live)) : Holds size (p.release size id) live := by
  have hpos := h.pos id (by simp)
  have hmax := h.max_lt
  have hnodup := h.nodup
  rw [List.cons_append,List.nodup_cons] at hnodup
  unfold IdPool.release
  split_ifs with heq
  · have hmod : (p.maxId+size-1)%size = p.maxId-1 := by
      rw [show p.maxId+size-1 = p.maxId-1+size by omega,Nat.add_mod_right,
        Nat.mod_eq_of_lt (by omega)]
    rw [hmod]
    refine ⟨hnodup.2,fun i hmem => h.pos i (List.mem_cons_of_mem _ hmem),?_,?_⟩
    · intro i hmem
      have hle := h.le_max i (List.mem_cons_of_mem _ hmem)
      have hne : i ≠ p.maxId := by
        rintro rfl
        exact hnodup.1 (heq ▸ hmem)
      dsimp only
      omega
    · dsimp only
      omega
  · have hperm : (id :: live ++ p.freeIds).Perm (live ++ (p.freeIds ++ [id])) := by
      rw [List.cons_append,← List.append_assoc]
      exact List.perm_append_singleton id (live ++ p.freeIds) |>.symm
    exact ⟨hperm.nodup_iff.mp h.nodup,fun i hmem => h.pos i (hperm.mem_iff.mpr hmem),
      fun i hmem => h.le_max i (hperm.mem_iff.mpr hmem),hmax⟩

theorem Holds.releaseAll (ids : List Nat) (h : Holds size p (ids ++ live)) :
    Holds size (ids.foldl (IdPool.release size) p) live := by
  induction ids generalizing p with
  | nil => exact h
  | cons id ids ih => exact ih h.release

/-- An id that is neither live nor free, but was handed out, can be given back. -/
theorem Holds.release_of_lost (h : Holds size p live) (hpos : 0 < id) (hle : id ≤ p.maxId)
    (hlive : id ∉ live) (hfree : id ∉ p.freeIds) : Holds size (p.release size id) live := by
  apply Holds.release
  refine ⟨?_,?_,?_,h.max_lt⟩
  · rw [List.cons_append,List.nodup_cons,List.mem_append,not_or]
    exact ⟨⟨hlive,hfree⟩,h.nodup⟩
  · intro i hmem
    rw [List.cons_append,List.mem_cons] at hmem
    rcases hmem with rfl | hmem
    · exact hpos
    · exact h.pos i hmem
  · intro i hmem
    rw [List.cons_append,List.mem_cons] at hmem
    rcases hmem with rfl | hmem
    · exact hle
    · exact h.le_max i hmem

/-- The pool of some ids that are in use: the counter is their maximum, and what is missing below
it is free. -/
def ofLive (live : List Nat) : IdPool :=
  let maxId := live.foldl max 0
  ⟨maxId,(List.range maxId).filter fun id => id ≠ 0 ∧ id ∉ live⟩

theorem holds_ofLive (hnodup : live.Nodup) (hpos : ∀ id ∈ live, 0 < id) (hlt : ∀ id ∈ live, id < size)
    (hsize : 0 < size) : Holds size (ofLive live) live := by
  have hmax : ∀ (l : List Nat) (a : Nat), a ≤ l.foldl max a ∧ (∀ id ∈ l, id ≤ l.foldl max a) ∧
      (a < size → (∀ id ∈ l, id < size) → l.foldl max a < size) := by
    intro l
    induction l with
    | nil => exact fun a => ⟨le_rfl,by simp,fun ha _ => ha⟩
    | cons b l ih =>
      intro a
      obtain ⟨hle,hmem,hbound⟩ := ih (max a b)
      refine ⟨le_trans (le_max_left _ _) hle,?_,?_⟩
      · intro id hid
        rcases List.mem_cons.mp hid with rfl | hid
        · exact le_trans (le_max_right _ _) hle
        · exact hmem id hid
      · intro ha hl
        exact hbound (max_lt ha (hl b List.mem_cons_self))
          (fun id hid => hl id (List.mem_cons_of_mem _ hid))
  obtain ⟨-,hle,hbound⟩ := hmax live 0
  have hfree : ∀ id ∈ (ofLive live).freeIds, id < (ofLive live).maxId ∧ 0 < id ∧ id ∉ live := by
    intro id hid
    unfold ofLive at hid ⊢
    simp only [List.mem_filter,List.mem_range,decide_eq_true_eq] at hid
    exact ⟨hid.1,Nat.pos_of_ne_zero hid.2.1,hid.2.2⟩
  refine ⟨?_,?_,?_,hbound hsize hlt⟩
  · refine List.nodup_append'.mpr ⟨hnodup,List.nodup_range.filter _,?_⟩
    intro id hid hid'
    exact (hfree id hid').2.2 hid
  · intro id hid
    rcases List.mem_append.mp hid with hid | hid
    · exact hpos id hid
    · exact (hfree id hid).2.1
  · intro id hid
    rcases List.mem_append.mp hid with hid | hid
    · exact hle id hid
    · exact le_of_lt (hfree id hid).1

end IdPool
