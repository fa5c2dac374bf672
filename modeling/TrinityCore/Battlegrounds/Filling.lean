import TrinityCore.Lib.Loop
import TrinityCore.Battlegrounds.CrossFaction

set_option autoImplicit false

/-!
`FillPlayersToBG` without cross-faction battlegrounds. A group that waits counts twice and a
selected one once: each round of the balancing loop makes this less, since it kicks a group or
takes one from a queue.
-/

namespace TrinityCore.Battlegrounds

variable {q : BattlegroundQueue} {gs rest : List Nat} {pool : SelectionPool} {g free desired : Nat}

/-- A pool of different groups of a queue that are not invited, with as many players as it says
and no more than there is room for. -/
structure Selected (q : BattlegroundQueue) (gs : List Nat) (free : Nat) (pool : SelectionPool) :
    Prop where
  own : ∀ g ∈ pool.selectedGroups, g ∈ gs
  nodup : pool.selectedGroups.Nodup
  uninvited : ∀ g ∈ pool.selectedGroups, q.invited g = false
  count : pool.playerCount = totalSize q pool.selectedGroups
  room : pool.playerCount ≤ free

/-- The same while a part of the queue has not been looked at: the groups are in the order of
the queue. -/
structure Picked (q : BattlegroundQueue) (gs rest : List Nat) (free : Nat) (pool : SelectionPool) :
    Prop where
  taken : ∃ taken, gs = taken ++ rest ∧ pool.selectedGroups.Sublist taken
  uninvited : ∀ g ∈ pool.selectedGroups, q.invited g = false
  count : pool.playerCount = totalSize q pool.selectedGroups
  room : pool.playerCount ≤ free

theorem Picked.selected (h : Picked q gs rest free pool) (hnd : gs.Nodup) :
    Selected q gs free pool := by
  obtain ⟨taken,rfl,hsub⟩ := h.taken
  exact ⟨fun g hg => List.mem_append_left _ (hsub.subset hg),
    hsub.nodup (List.nodup_append.mp hnd).1,h.uninvited,h.count,h.room⟩

theorem picked_init : Picked q gs gs free .init :=
  ⟨⟨[],rfl,List.nil_sublist _⟩,by simp [SelectionPool.init],rfl,Nat.zero_le _⟩

theorem totalSize_append (gs' : List Nat) :
    totalSize q (gs ++ gs') = totalSize q gs+totalSize q gs' := by
  simp [totalSize]

theorem totalSize_erase (h : g ∈ gs) : totalSize q gs = q.size g+totalSize q (gs.erase g) := by
  unfold totalSize
  rw [((List.perm_cons_erase h).map q.size).sum_eq,List.map_cons,List.sum_cons]

theorem Picked.skip (h : Picked q gs (g :: rest) free pool) : Picked q gs rest free pool := by
  obtain ⟨taken,rfl,hsub⟩ := h.taken
  exact ⟨⟨taken ++ [g],by simp,hsub.trans (List.sublist_append_left _ _)⟩,h.uninvited,h.count,h.room⟩

theorem Picked.addGroup (h : Picked q gs (g :: rest) free pool) (hle : desired ≤ free) :
    Picked q gs rest free (pool.addGroup q g desired).2 := by
  unfold SelectionPool.addGroup
  split_ifs with hfits
  · obtain ⟨taken,rfl,hsub⟩ := h.taken
    refine ⟨⟨taken ++ [g],by simp,hsub.append (List.Sublist.refl _)⟩,fun g' hg' => ?_,?_,?_⟩
    · rcases List.mem_append.mp hg' with hg' | hg'
      · exact h.uninvited g' hg'
      · obtain rfl := List.mem_singleton.mp hg'
        simpa using hfits.1
    · simp [totalSize_append,h.count]
    · exact hfits.2.trans hle
  · exact h.skip

theorem addGroup_full (h : (pool.addGroup q g desired).1 = false) :
    (pool.addGroup q g desired).2 = pool := by
  unfold SelectionPool.addGroup at h ⊢
  split_ifs at h ⊢
  rfl

theorem Picked.addWhile (hle : desired ≤ free) (h : Picked q gs rest free pool) :
    Picked q gs (pool.addWhile q desired rest).1 free (pool.addWhile q desired rest).2 := by
  induction rest generalizing pool with
  | nil => exact h
  | cons g rest ih =>
    simp only [SelectionPool.addWhile]
    split_ifs with hmore
    · exact ih (h.addGroup hle)
    · rw [addGroup_full (by simpa using hmore)]
      exact h

def weight (rest : List Nat) (pool : SelectionPool) : Nat :=
  2*rest.length+pool.selectedGroups.length

theorem weight_addGroup : weight rest (pool.addGroup q g desired).2 < weight (g :: rest) pool := by
  unfold weight
  rcases addGroup_selected (q := q) (g := g) pool desired with h | h
  · rw [h,List.length_append,List.length_singleton,List.length_cons]
    omega
  · rw [h,List.length_cons]
    omega

theorem weight_addWhile : weight (pool.addWhile q desired rest).1 (pool.addWhile q desired rest).2 ≤
    weight rest pool := by
  induction rest generalizing pool with
  | nil => exact le_rfl
  | cons g rest ih =>
    simp only [SelectionPool.addWhile]
    split_ifs with hmore
    · exact ih.trans weight_addGroup.le
    · rw [addGroup_full (by simpa using hmore)]

theorem weight_addWhile_lt
    (h : (pool.addWhile q desired rest).2.playerCount ≠ pool.playerCount) :
    weight (pool.addWhile q desired rest).1 (pool.addWhile q desired rest).2 <
      weight rest pool := by
  cases rest with
  | nil => exact absurd rfl h
  | cons g rest =>
    simp only [SelectionPool.addWhile] at h ⊢
    split_ifs at h ⊢ with hmore
    · exact weight_addWhile.trans_lt weight_addGroup
    · rw [addGroup_full (by simpa using hmore)] at h
      exact absurd rfl h

theorem addWhile_append (desired : Nat) (rest : List Nat) (pool : SelectionPool) :
    ∃ l, (pool.addWhile q desired rest).2.selectedGroups =
    pool.selectedGroups ++ l ∧ l.Sublist rest := by
  induction rest generalizing pool with
  | nil => exact ⟨[],by simp [SelectionPool.addWhile],List.Sublist.refl _⟩
  | cons g rest ih =>
    simp only [SelectionPool.addWhile]
    split_ifs with hmore
    · obtain ⟨l,heq,hsub⟩ := ih (pool.addGroup q g desired).2
      rcases addGroup_selected (q := q) (g := g) pool desired with h | h
      · exact ⟨g :: l,by rw [heq,h,List.append_assoc,List.singleton_append],hsub.cons_cons g⟩
      · exact ⟨l,by rw [heq,h],hsub.cons g⟩
    · rw [addGroup_full (by simpa using hmore)]
      exact ⟨[],(List.append_nil _).symm,List.nil_sublist _⟩

section Kick

variable {size : Nat}

def Keeps (step : Option (Nat × Bool) → Nat → Option (Nat × Bool)) : Prop :=
  ∀ best g, (∃ found, step best g = some (g,found)) ∨ (step best g = best ∧ best.isSome)

theorem Keeps.foldl {step : Option (Nat × Bool) → Nat → Option (Nat × Bool)} (h : Keeps step)
    (l : List Nat) (best : Option (Nat × Bool)) (hbest : best.isSome ∨ l ≠ []) :
    ∃ g found, l.foldl step best = some (g,found) ∧ (g ∈ l ∨ ∃ found, best = some (g,found)) := by
  induction l generalizing best with
  | nil =>
    obtain ⟨⟨g,found⟩,rfl⟩ := Option.isSome_iff_exists.mp (hbest.resolve_right (by simp))
    exact ⟨g,found,rfl,.inr ⟨found,rfl⟩⟩
  | cons g l ih =>
    rw [List.foldl_cons]
    rcases h best g with ⟨found,hnew⟩ | ⟨hold,hsome⟩
    · obtain ⟨g',found',heq,hg'⟩ := ih (step best g) (.inl (by simp [hnew]))
      refine ⟨g',found',heq,.inl ?_⟩
      rcases hg' with hg' | ⟨_,hg'⟩
      · exact List.mem_cons_of_mem _ hg'
      · rw [hnew,Option.some.injEq,Prod.mk.injEq] at hg'
        exact hg'.1 ▸ List.mem_cons_self
    · rw [hold]
      obtain ⟨g',found',heq,hg'⟩ := ih best (.inl hsome)
      exact ⟨g',found',heq,hg'.imp_left (List.mem_cons_of_mem _)⟩

theorem groupToKick_spec (size : Nat) (h : pool.selectedGroups ≠ []) :
    ∃ g found, pool.groupToKick q size = some (g,found) ∧ g ∈ pool.selectedGroups := by
  have hfold : ∀ step, Keeps step → ∃ g found,
      pool.selectedGroups.foldl step none = some (g,found) ∧ g ∈ pool.selectedGroups := by
    intro step hkeeps
    obtain ⟨g,found,heq,hg⟩ := hkeeps.foldl pool.selectedGroups none (.inr h)
    exact ⟨g,found,heq,hg.resolve_right (by simp)⟩
  unfold SelectionPool.groupToKick
  refine hfold _ fun best g => ?_
  split_ifs
  · exact .inl ⟨true,rfl⟩
  · cases best with
    | none => exact .inl ⟨false,rfl⟩
    | some best =>
      obtain ⟨b,found⟩ := best
      by_cases hlarger : (!found && decide (q.size g ≥ q.size b)) = true
      · exact .inl ⟨false,if_pos hlarger⟩
      · exact .inr ⟨if_neg hlarger,rfl⟩

theorem kickGroup_spec (size : Nat) (hcount : pool.playerCount = totalSize q pool.selectedGroups)
    (hpos : 0 < pool.playerCount) : ∃ g ∈ pool.selectedGroups, (pool.kickGroup q size).2 =
      ⟨pool.selectedGroups.erase g,pool.playerCount-q.size g⟩ := by
  have hne : pool.selectedGroups ≠ [] := by
    intro hnil
    rw [hnil,totalSize_nil] at hcount
    omega
  obtain ⟨g,found,heq,hg⟩ := groupToKick_spec (q := q) size hne
  refine ⟨g,hg,?_⟩
  unfold SelectionPool.kickGroup
  rw [if_neg (by omega),heq]

theorem kickGroup_empty (h : pool.playerCount = 0) : pool.kickGroup q size = (true,pool) := by
  unfold SelectionPool.kickGroup
  rw [if_pos h]

theorem Picked.kickGroup (size : Nat) (h : Picked q gs rest free pool) :
    Picked q gs rest free (pool.kickGroup q size).2 := by
  rcases Nat.eq_zero_or_pos pool.playerCount with hzero | hpos
  · rw [kickGroup_empty hzero]
    exact h
  · obtain ⟨g,hg,heq⟩ := kickGroup_spec size h.count hpos
    obtain ⟨taken,hgs,hsub⟩ := h.taken
    have htotal := totalSize_erase (q := q) hg
    have hcount := h.count
    rw [heq]
    exact ⟨⟨taken,hgs,List.erase_sublist.trans hsub⟩,
      fun g' hg' => h.uninvited g' (List.mem_of_mem_erase hg'),by simp only; omega,
      (Nat.sub_le _ _).trans h.room⟩

theorem weight_kickGroup_lt (rest : List Nat) (size : Nat) (hcount : pool.playerCount = totalSize q pool.selectedGroups)
    (hpos : 0 < pool.playerCount) :
    weight rest (pool.kickGroup q size).2 < weight rest pool := by
  obtain ⟨g,hg,heq⟩ := kickGroup_spec size hcount hpos
  have hlength := List.length_pos_of_mem hg
  unfold weight
  rw [heq,List.length_erase_of_mem hg]
  omega

theorem weight_kickGroup (rest : List Nat) (size : Nat) (hcount : pool.playerCount = totalSize q pool.selectedGroups) :
    weight rest (pool.kickGroup q size).2 ≤ weight rest pool := by
  rcases Nat.eq_zero_or_pos pool.playerCount with hzero | hpos
  · rw [kickGroup_empty hzero]
  · exact (weight_kickGroup_lt rest size hcount hpos).le

end Kick

section Round

variable {gs' rest' : List Nat} {other : SelectionPool} {free' : Nat} {diff otherDiff : Int}
  {r : Bool × List Nat × SelectionPool × SelectionPool}

/-- Both pools stay in order: the groups that are tried have the room that is left beside the
other team's. -/
theorem picked_kickAndAdd (h : Picked q gs rest free pool) (h' : Picked q gs' rest' free' other)
    (hdiff : 0 ≤ otherDiff) (hround : kickAndAdd q free diff otherDiff rest pool other = r) :
    Picked q gs r.2.1 free r.2.2.1 ∧ Picked q gs' rest' free' r.2.2.2 := by
  subst hround
  have hadded := h.kickGroup (otherDiff-diff).toNat
  have hle : (if (free : Int) ≥ otherDiff then ((free : Int)-otherDiff).toNat else 0) ≤ free := by
    split_ifs <;> omega
  unfold kickAndAdd
  simp only
  generalize pool.kickGroup q (otherDiff-diff).toNat = r at hadded ⊢
  obtain ⟨again,pool⟩ := r
  cases again with
  | false =>
    simp only [Bool.false_eq_true,if_false]
    split_ifs
    · exact ⟨hadded,h'⟩
    · exact ⟨hadded,h'.kickGroup _⟩
    · exact ⟨hadded,h'⟩
  | true =>
    simp only [if_true]
    split_ifs
    all_goals
      refine ⟨hadded.addWhile (by omega),?_⟩
      first | exact h' | exact h'.kickGroup _

/-- What kicking and adding of the first team leave. -/
def kickThenAdd (q : BattlegroundQueue) (size desired : Nat) (rest : List Nat)
    (pool : SelectionPool) : List Nat × SelectionPool :=
  let (again,pool) := pool.kickGroup q size
  if again then pool.addWhile q desired rest else (rest,pool)

theorem weight_kickThenAdd (size desired : Nat) (rest : List Nat)
    (hcount : pool.playerCount = totalSize q pool.selectedGroups) :
    weight (kickThenAdd q size desired rest pool).1 (kickThenAdd q size desired rest pool).2 ≤
        weight rest pool ∧
      (0 < pool.playerCount ∨ (kickThenAdd q size desired rest pool).2.playerCount ≠ 0 →
        weight (kickThenAdd q size desired rest pool).1 (kickThenAdd q size desired rest pool).2 <
          weight rest pool) := by
  rcases Nat.eq_zero_or_pos pool.playerCount with hzero | hpos
  · have heq : kickThenAdd q size desired rest pool = pool.addWhile q desired rest := by
      unfold kickThenAdd
      rw [kickGroup_empty hzero]
      rfl
    rw [heq]
    refine ⟨weight_addWhile,fun hadded => weight_addWhile_lt ?_⟩
    rw [hzero]
    exact hadded.resolve_left (by omega)
  · have hkicked := weight_kickGroup_lt rest size hcount hpos
    have hlt : weight (kickThenAdd q size desired rest pool).1
        (kickThenAdd q size desired rest pool).2 < weight rest pool := by
      unfold kickThenAdd
      generalize pool.kickGroup q size = r at hkicked ⊢
      obtain ⟨again,pool'⟩ := r
      cases again with
      | false => exact hkicked
      | true => exact weight_addWhile.trans_lt hkicked
    exact ⟨hlt.le,fun _ => hlt⟩

theorem kickAndAdd_eq : kickAndAdd q free diff otherDiff rest pool other =
    let r := kickThenAdd q (otherDiff-diff).toNat
      (if (free : Int) ≥ otherDiff then ((free : Int)-otherDiff).toNat else 0) rest pool
    if r.2.playerCount = 0 then
      if (free : Int) ≤ otherDiff+1 then (false,r.1,r.2,other)
      else (true,r.1,r.2,(other.kickGroup q (otherDiff-diff).toNat).2)
    else (true,r.1,r.2,other) := rfl

theorem weight_kickAndAdd (hcount : pool.playerCount = totalSize q pool.selectedGroups)
    (hcount' : other.playerCount = totalSize q other.selectedGroups)
    (hpos : 0 < pool.playerCount ∨ 0 < other.playerCount)
    (hround : kickAndAdd q free diff otherDiff rest pool other = r) (hgo : r.1 = true) :
    weight r.2.1 r.2.2.1+weight rest' r.2.2.2 < weight rest pool+weight rest' other := by
  subst hround
  obtain ⟨hle,hlt⟩ := weight_kickThenAdd (otherDiff-diff).toNat
    (if (free : Int) ≥ otherDiff then ((free : Int)-otherDiff).toNat else 0) rest hcount
  rw [kickAndAdd_eq] at hgo ⊢
  generalize (if (free : Int) ≥ otherDiff then ((free : Int)-otherDiff).toNat else 0) = desired
    at hle hlt hgo ⊢
  simp only at hgo ⊢
  split_ifs at hgo ⊢ with hempty hfew
  · have hother := weight_kickGroup rest' (otherDiff-diff).toNat hcount'
    rcases hpos with hpos | hpos
    · exact Nat.add_lt_add_of_lt_of_le (hlt (.inl hpos)) hother
    · exact Nat.add_lt_add_of_le_of_lt hle (weight_kickGroup_lt rest' _ hcount' hpos)
  · exact Nat.add_lt_add_right (hlt (.inr hempty)) _

theorem kickAndAdd_kicks (h : Picked q gs rest free pool) (hnd : gs.Nodup)
    (hpos : 0 < pool.playerCount)
    (hround : kickAndAdd q free diff otherDiff rest pool other = r) :
    ∃ g ∈ pool.selectedGroups, g ∉ r.2.2.1.selectedGroups := by
  subst hround
  obtain ⟨taken,hgs,hsub⟩ := h.taken
  rw [hgs] at hnd
  obtain ⟨hleft,-,hdisjoint⟩ := List.nodup_append.mp hnd
  obtain ⟨g,hg,hkick⟩ := kickGroup_spec (otherDiff-diff).toNat h.count hpos
  have hgone : g ∉ (pool.kickGroup q (otherDiff-diff).toNat).2.selectedGroups := by
    rw [hkick]
    exact (hsub.nodup hleft).not_mem_erase
  have hrest : g ∉ rest := fun hrest => hdisjoint g (hsub.subset hg) g hrest rfl
  have hnot : ∀ desired, g ∉ (kickThenAdd q (otherDiff-diff).toNat desired rest pool).2.selectedGroups := by
    intro desired
    unfold kickThenAdd
    generalize pool.kickGroup q (otherDiff-diff).toNat = r at hgone
    obtain ⟨again,pool'⟩ := r
    cases again with
    | false => exact hgone
    | true =>
      obtain ⟨l,heq,hl⟩ := addWhile_append (q := q) desired rest pool'
      simp only [if_true,heq,List.mem_append,not_or]
      exact ⟨hgone,fun hin => hrest (hl.subset hin)⟩
  refine ⟨g,hg,?_⟩
  rw [kickAndAdd_eq]
  simp only
  split_ifs <;> exact hnot _

/-- A round for a pool without players that has one slot less than the other is the last, and
kicks nobody. -/
theorem kickAndAdd_breaks (h : Picked q gs rest free pool) (hzero : pool.playerCount = 0)
    (hdiff : otherDiff = free+1)
    (hround : kickAndAdd q free diff otherDiff rest pool other = r) :
    r.1 = false ∧ r.2.2.2 = other ∧
      ∃ l, r.2.2.1.selectedGroups = pool.selectedGroups ++ l := by
  subst hround
  have hadd : kickThenAdd q (otherDiff-diff).toNat 0 rest pool = pool.addWhile q 0 rest := by
    unfold kickThenAdd
    rw [kickGroup_empty hzero]
    rfl
  have hempty : Picked q gs rest 0 pool := ⟨h.taken,h.uninvited,h.count,hzero.le⟩
  have hstill := (hempty.addWhile (le_refl 0)).room
  obtain ⟨l,heq,-⟩ := addWhile_append (q := q) 0 rest pool
  have hroom : (if (free : Int) ≥ otherDiff then ((free : Int)-otherDiff).toNat else 0) = 0 :=
    if_neg (by omega)
  rw [kickAndAdd_eq,hroom,hadd]
  simp only
  rw [if_pos (by omega),if_pos (by omega)]
  exact ⟨rfl,rfl,l,heq⟩

end Round

section Loop

@[simp] def Filling.queue (f : Filling) : Team → List Nat
  | .alliance => f.ali
  | .horde => f.horde

@[simp] def Filling.poolOf (f : Filling) : Team → SelectionPool
  | .alliance => f.aliPool
  | .horde => f.hordePool

/-- What a round has made of the queue and the pool of the first team and of the pool of the
second. -/
def Filling.turn (t : Team) (queue : List Nat) (pool other : SelectionPool) (f : Filling) :
    Filling :=
  match t with
  | .alliance => ⟨queue,f.horde,pool,other⟩
  | .horde => ⟨f.ali,queue,other,pool⟩

def Filling.left (free : Team → Nat) (f : Filling) (t : Team) : Int :=
  (free t : Int)-(f.poolOf t).playerCount

def Filling.lesser (free : Team → Nat) (f : Filling) : Team :=
  if f.left free .alliance < f.left free .horde then .alliance else .horde

def Filling.lost (f f' : Filling) : List Nat :=
  f.aliPool.selectedGroups.filter (fun g => g ∉ f'.aliPool.selectedGroups) ++
    f.hordePool.selectedGroups.filter (fun g => g ∉ f'.hordePool.selectedGroups)

/-- The loop between two rounds: whether it has come to a `break`, the groups that have been
kicked, the queues and pools. -/
structure Balancing where
  going : Bool
  kicked : List Nat
  filling : Filling

def balanceStep (q : BattlegroundQueue) (free : Team → Nat) (s : Balancing) : Option Balancing :=
  let f := s.filling
  if s.going ∧ f.left free .alliance ≠ f.left free .horde ∧
      (0 < f.hordePool.playerCount ∨ 0 < f.aliPool.playerCount) then
    let t := f.lesser free
    let (go,queue,pool,other) := kickAndAdd q (free t) (f.left free t) (f.left free t.other)
      (f.queue t) (f.poolOf t) (f.poolOf t.other)
    let f' := f.turn t queue pool other
    some ⟨go,s.kicked ++ f.lost f',f'⟩
  else none

variable {free : Team → Nat} {f : Filling} {n : Nat} {kicked : List Nat} {b : Fin 16}

theorem balanceStep_ended : balanceStep q free ⟨false,kicked,f⟩ = none := by
  simp [balanceStep]

theorem balanceStep_cases (s : Option Balancing) (h : balanceStep q free ⟨true,kicked,f⟩ = s) :
    ((f.left free .alliance = f.left free .horde ∨
        f.hordePool.playerCount = 0 ∧ f.aliPool.playerCount = 0) ∧ s = none) ∨
    (f.left free .alliance ≠ f.left free .horde ∧
      (0 < f.hordePool.playerCount ∨ 0 < f.aliPool.playerCount) ∧
      ∃ go queue pool other, kickAndAdd q (free (f.lesser free)) (f.left free (f.lesser free))
          (f.left free (f.lesser free).other) (f.queue (f.lesser free)) (f.poolOf (f.lesser free))
          (f.poolOf (f.lesser free).other) = (go,queue,pool,other) ∧
        s = some ⟨go,kicked ++ f.lost (f.turn (f.lesser free) queue pool other),
          f.turn (f.lesser free) queue pool other⟩) := by
  unfold balanceStep at h
  simp only [true_and] at h
  by_cases hcond : f.left free .alliance ≠ f.left free .horde ∧
      (0 < f.hordePool.playerCount ∨ 0 < f.aliPool.playerCount)
  · rw [if_pos hcond] at h
    exact .inr ⟨hcond.1,hcond.2,_,_,_,_,rfl,h.symm⟩
  · rw [if_neg hcond] at h
    refine .inl ⟨?_,h.symm⟩
    by_cases heq : f.left free .alliance = f.left free .horde
    · exact .inl heq
    · have hnone : ¬(0 < f.hordePool.playerCount ∨ 0 < f.aliPool.playerCount) :=
        fun hpos => hcond ⟨heq,hpos⟩
      exact .inr (by omega)

theorem balance_succ (kicked : List Nat) : balance q (free .alliance) (free .horde) (n+1) f =
    match balanceStep q free ⟨true,kicked,f⟩ with
    | none => f
    | some s => if s.going then balance q (free .alliance) (free .horde) n s.filling
        else s.filling := by
  have hali : (free .alliance : Int)-f.aliPool.playerCount = f.left free .alliance := rfl
  have hhorde : (free .horde : Int)-f.hordePool.playerCount = f.left free .horde := rfl
  conv_lhs => unfold balance
  unfold balanceStep
  simp only [true_and,hali,hhorde,gt_iff_lt,Int.natAbs_pos,sub_ne_zero]
  by_cases hcond : f.left free .alliance ≠ f.left free .horde ∧
      (0 < f.hordePool.playerCount ∨ 0 < f.aliPool.playerCount)
  · rw [if_pos hcond,if_pos hcond]
    unfold Filling.lesser
    by_cases hless : f.left free .alliance < f.left free .horde
    · rw [if_pos hless,if_pos hless]
      rfl
    · rw [if_neg hless,if_neg hless]
      rfl
  · rw [if_neg hcond,if_neg hcond]

def FillInv (q : BattlegroundQueue) (b : Fin 16) (free : Team → Nat) (f : Filling) : Prop :=
  ∀ t, Picked q (q.queuedGroups (b,.normal t)) (f.queue t) (free t) (f.poolOf t)

def fillWeight (f : Filling) : Nat := weight f.ali f.aliPool+weight f.horde f.hordePool

theorem fillWeight_eq (t : Team) : fillWeight f =
    weight (f.queue t) (f.poolOf t)+weight (f.queue t.other) (f.poolOf t.other) := by
  cases t
  · rfl
  · exact Nat.add_comm _ _

theorem FillInv.left_nonneg (h : FillInv q b free f) (t : Team) : 0 ≤ f.left free t := by
  have hroom := (h t).room
  unfold Filling.left
  omega

theorem turn_spec (t : Team) (queue : List Nat) (pool other : SelectionPool) :
    (f.turn t queue pool other).queue t = queue ∧ (f.turn t queue pool other).poolOf t = pool ∧
    (f.turn t queue pool other).queue t.other = f.queue t.other ∧
    (f.turn t queue pool other).poolOf t.other = other := by
  cases t <;> exact ⟨rfl,rfl,rfl,rfl⟩

theorem team_cases {P : Team → Prop} {t : Team} (h : P t) (h' : P t.other) (t' : Team) : P t' := by
  cases t <;> cases t' <;> assumption

theorem FillInv.step (h : FillInv q b free f) {s : Balancing}
    (hstep : balanceStep q free ⟨true,kicked,f⟩ = some s) :
    FillInv q b free s.filling ∧ (s.going = true → fillWeight s.filling < fillWeight f) := by
  rcases balanceStep_cases _ hstep with ⟨-,hnone⟩ | ⟨-,hplayers,go,queue,pool,other,hround,hs⟩
  · cases hnone
  set t := f.lesser free
  have hpos : 0 < (f.poolOf t).playerCount ∨ 0 < (f.poolOf t.other).playerCount := by
    cases t
    · exact hplayers.symm
    · exact hplayers
  have hpicked := picked_kickAndAdd (h t) (h t.other) (h.left_nonneg t.other) hround
  obtain ⟨hqueue,hpool,hqueue',hpool'⟩ := turn_spec (f := f) t queue pool other
  cases hs
  refine ⟨team_cases (t := t) ?_ ?_,fun hgo => ?_⟩
  · rw [hqueue,hpool]
    exact hpicked.1
  · rw [hqueue',hpool']
    exact hpicked.2
  · rw [fillWeight_eq t,fillWeight_eq t,hqueue,hpool,hqueue',hpool']
    exact weight_kickAndAdd (h t).count (h t.other).count hpos hround hgo

theorem balance_ends (kicked : List Nat) (h : FillInv q b free f) (hn : fillWeight f ≤ n) :
    ∃ s, Loop.Ends (balanceStep q free) ⟨true,kicked,f⟩ s ∧
      s.filling = balance q (free .alliance) (free .horde) n f := by
  induction n generalizing f kicked with
  | zero =>
    -- without groups the pools have no players
    have hempty : ∀ t, (f.poolOf t).playerCount = 0 := by
      intro t
      have hnil : (f.poolOf t).selectedGroups = [] := by
        rw [fillWeight_eq t] at hn
        unfold weight at hn
        exact List.eq_nil_of_length_eq_zero (by omega)
      rw [(h t).count,hnil,totalSize_nil]
    refine ⟨_,.done ?_,rfl⟩
    rcases balanceStep_cases _ (rfl : balanceStep q free ⟨true,kicked,f⟩ = _) with
      ⟨-,hnone⟩ | ⟨-,hpos | hpos,-⟩
    · exact hnone
    · exact absurd (hempty .horde) hpos.ne'
    · exact absurd (hempty .alliance) hpos.ne'
  | succ n ih =>
    rw [balance_succ kicked]
    cases hstep : balanceStep q free ⟨true,kicked,f⟩ with
    | none => exact ⟨_,.done hstep,rfl⟩
    | some s =>
      obtain ⟨hinv,hweight⟩ := h.step hstep
      obtain ⟨going,kicked',f'⟩ := s
      cases going with
      | false => exact ⟨_,.next hstep (.done balanceStep_ended),rfl⟩
      | true =>
        have hlt : fillWeight f' < fillWeight f := hweight rfl
        obtain ⟨s,hends,heq⟩ := ih kicked' (f := f') hinv (by omega)
        exact ⟨s,.next hstep hends,heq⟩

theorem mem_lost {f' : Filling} : g ∈ f.lost f' ↔
    ∃ t, g ∈ (f.poolOf t).selectedGroups ∧ g ∉ (f'.poolOf t).selectedGroups := by
  unfold Filling.lost
  simp only [List.mem_append,List.mem_filter,decide_eq_true_eq]
  constructor
  · rintro (h | h)
    · exact ⟨.alliance,h⟩
    · exact ⟨.horde,h⟩
  · rintro ⟨t,h⟩
    cases t
    · exact .inl h
    · exact .inr h

/-- When the pools are one slot apart, the loop kicks exactly when the team with fewer slots left
has selected players. -/
theorem kicks_iff (h : FillInv q b free f) (hnd : ∀ t, (q.queuedGroups (b,.normal t)).Nodup)
    {s : Balancing} (hends : Loop.Ends (balanceStep q free) ⟨true,[],f⟩ s)
    (hclose : (f.left free .alliance-f.left free .horde).natAbs ≤ 1) :
    s.kicked ≠ [] ↔ ∃ t, f.left free t+1 = f.left free t.other ∧ 0 < (f.poolOf t).playerCount := by
  have hlesser : f.left free .alliance ≠ f.left free .horde →
      f.left free (f.lesser free)+1 = f.left free (f.lesser free).other ∧
      ∀ t, f.left free t+1 = f.left free t.other → t = f.lesser free := by
    intro hne
    unfold Filling.lesser
    split_ifs with hless
    · refine ⟨by simp only [Team.other]; omega,fun t ht => ?_⟩
      cases t
      · rfl
      · simp only [Team.other] at ht
        omega
    · refine ⟨by simp only [Team.other]; omega,fun t ht => ?_⟩
      cases t
      · simp only [Team.other] at ht
        omega
      · rfl
  have hkept : ∀ s s' : Balancing, s.kicked ≠ [] → balanceStep q free s = some s' →
      s'.kicked ≠ [] := by
    intro s s' hs hstep
    obtain ⟨going,kicked,f⟩ := s
    cases going with
    | false => simp [balanceStep_ended] at hstep
    | true =>
      rcases balanceStep_cases _ hstep with ⟨-,hnone⟩ | ⟨-,-,_,_,_,_,-,hs'⟩
      · cases hnone
      · cases hs'
        exact List.append_ne_nil_of_left_ne_nil hs _
  rcases balanceStep_cases _ (rfl : balanceStep q free ⟨true,[],f⟩ = _) with
    ⟨hover,hnone⟩ | ⟨hne,-,go,queue,pool,other,hround,hstep⟩
  · -- the loop is over at once
    obtain rfl := hends.unique (.done hnone)
    refine iff_of_false (fun h => h rfl) ?_
    rintro ⟨t,hone,hpos⟩
    rcases hover with heq | ⟨hhorde,hali⟩
    · cases t <;> simp only [Team.other] at hone <;> omega
    · cases t
      · exact absurd hali hpos.ne'
      · exact absurd hhorde hpos.ne'
  · obtain ⟨hone,hunique⟩ := hlesser hne
    set t := f.lesser free
    obtain ⟨-,hpool,-,hpool'⟩ := turn_spec (f := f) t queue pool other
    have hrest : Loop.Ends (balanceStep q free) ⟨go,[] ++ f.lost (f.turn t queue pool other),
        f.turn t queue pool other⟩ s := by
      cases hends with
      | done hdone => simp [hstep] at hdone
      | next hnext hrest =>
        rw [hstep,Option.some.injEq] at hnext
        exact hnext ▸ hrest
    rcases Nat.eq_zero_or_pos (f.poolOf t).playerCount with hzero | hpos
    · have hleft : f.left free t = free t := by
        unfold Filling.left
        rw [hzero]
        simp
      obtain ⟨hgo,hother,l,hsel⟩ := kickAndAdd_breaks (h t) hzero (by omega) hround
      simp only at hgo hother hsel
      subst hgo hother
      obtain rfl := hrest.unique (.done balanceStep_ended)
      refine iff_of_false (fun hk => hk ?_) ?_
      · rw [List.nil_append,List.eq_nil_iff_forall_not_mem]
        intro g hg
        obtain ⟨t',hin,hout⟩ := mem_lost.mp hg
        refine hout (team_cases (t := t) (P := fun t' => g ∈ (f.poolOf t').selectedGroups →
          g ∈ ((f.turn t queue pool (f.poolOf t.other)).poolOf t').selectedGroups) ?_ ?_ t' hin)
        · rw [hpool,hsel]
          exact List.mem_append_left _
        · rw [hpool']
          exact id
      · rintro ⟨t',hone',hpos⟩
        rw [hunique t' hone'] at hpos
        omega
    · obtain ⟨g,hg,hgone⟩ := kickAndAdd_kicks (h t) (hnd t) hpos hround
      have hlost : g ∈ f.lost (f.turn t queue pool other) :=
        mem_lost.mpr ⟨t,hg,by rw [hpool]; exact hgone⟩
      refine iff_of_true (hrest.inv (P := fun s => s.kicked ≠ []) hkept ?_)
        ⟨t,hone,hpos⟩
      exact List.ne_nil_of_mem (List.mem_append_right _ hlost)

end Loop

variable {cfg : Settings} {bg : Battleground} {b : Fin 16}

def firstSelection (q : BattlegroundQueue) (bg : Battleground) (b : Fin 16) : Filling :=
  let select := fun t => (q.selectionPools t).addWhile q (bg.freeSlots t) (q.queuedGroups (b,.normal t))
  ⟨(select .alliance).1,(select .horde).1,(select .alliance).2,(select .horde).2⟩

/-- `FillPlayersToBG` ends and leaves pools that are in order; with match type 1 nobody is kicked
for one slot of difference. -/
structure FillsRight (cfg : Settings) (bg : Battleground) (b : Fin 16) (q : BattlegroundQueue) :
    Prop where
  ends : ∃ s, Loop.Ends (balanceStep q bg.freeSlots)
      ⟨decide (cfg.invitationType ≠ 0),[],firstSelection q bg b⟩ s ∧
    (∀ t, (fillPlayersToBG q cfg bg b).selectionPools t = s.filling.poolOf t) ∧
    (cfg.matchType = 1 → ((firstSelection q bg b).left bg.freeSlots .alliance-
      (firstSelection q bg b).left bg.freeSlots .horde).natAbs ≤ 1 → s.kicked = [])
  selected : ∀ t, Selected q (q.queuedGroups (b,.normal t)) (bg.freeSlots t)
    ((fillPlayersToBG q cfg bg b).selectionPools t)

/-- The slots that a team has left when its groups are taken in order as far as they fit. -/
def remaining (q : BattlegroundQueue) (bg : Battleground) (b : Fin 16) (t : Team) : Nat :=
  bg.freeSlots t-totalSize q (greedy q (bg.freeSlots t)
    ((q.queuedGroups (b,.normal t)).filter fun g => !q.invited g))

theorem totalSize_greedy_le (left : Nat) (gs : List Nat) : totalSize q (greedy q left gs) ≤ left := by
  induction gs generalizing left with
  | nil => exact Nat.zero_le _
  | cons g gs ih =>
    simp only [greedy]
    split_ifs with hle
    · have := ih (left-q.size g)
      rw [totalSize_cons]
      omega
    · exact ih left

theorem playerCount_addWhile (hle : pool.playerCount ≤ free) :
    (pool.addWhile q free gs).2.playerCount = pool.playerCount+
      totalSize q (greedy q (free-pool.playerCount) (gs.filter fun g => !q.invited g)) := by
  induction gs generalizing pool with
  | nil => simp [SelectionPool.addWhile,greedy]
  | cons g gs ih =>
    simp only [SelectionPool.addWhile]
    by_cases hfits : !q.invited g ∧ free ≥ pool.playerCount+q.size g
    · have hadd : pool.addGroup q g free =
          (true,⟨pool.selectedGroups ++ [g],pool.playerCount+q.size g⟩) := if_pos hfits
      have hfree : (g :: gs).filter (fun g => !q.invited g) =
          g :: gs.filter (fun g => !q.invited g) := List.filter_cons_of_pos hfits.1
      rw [hadd,hfree]
      simp only [if_true,greedy]
      rw [ih hfits.2,if_pos (by omega),totalSize_cons,Nat.sub_add_eq]
      simp only
      omega
    · have hadd : pool.addGroup q g free = (decide (pool.playerCount < free),pool) := if_neg hfits
      -- a group that is invited or does not fit is left out
      have hskip : ∀ left, left = free-pool.playerCount →
          greedy q left ((g :: gs).filter fun g => !q.invited g) =
          greedy q left (gs.filter fun g => !q.invited g) := by
        intro left hleft
        cases hinvited : q.invited g with
        | true => simp [hinvited]
        | false =>
          rw [List.filter_cons_of_pos (by simp [hinvited])]
          simp only [greedy]
          refine if_neg fun hsize => hfits ⟨by simp [hinvited],?_⟩
          omega
      rw [hadd,hskip _ rfl]
      simp only [decide_eq_true_eq]
      split_ifs with hmore
      · exact ih hle
      · have hfull := totalSize_greedy_le (q := q) (free-pool.playerCount)
          (gs.filter fun g => !q.invited g)
        simp only
        omega

theorem firstSelection_spec (bg : Battleground) (b : Fin 16) (hinit : ∀ t, q.selectionPools t = .init) :
    FillInv q b bg.freeSlots (firstSelection q bg b) ∧
    ∀ t, (firstSelection q bg b).left bg.freeSlots t = remaining q bg b t ∧
      (((firstSelection q bg b).poolOf t).playerCount = bg.freeSlots t-remaining q bg b t) := by
  have hselect : ∀ t, (firstSelection q bg b).queue t =
        ((q.selectionPools t).addWhile q (bg.freeSlots t) (q.queuedGroups (b,.normal t))).1 ∧
      (firstSelection q bg b).poolOf t =
        ((q.selectionPools t).addWhile q (bg.freeSlots t) (q.queuedGroups (b,.normal t))).2 := by
    intro t
    cases t <;> exact ⟨rfl,rfl⟩
  have hpicked : FillInv q b bg.freeSlots (firstSelection q bg b) := by
    intro t
    rw [(hselect t).1,(hselect t).2,hinit t]
    exact picked_init.addWhile le_rfl
  refine ⟨hpicked,fun t => ?_⟩
  have hcount : ((firstSelection q bg b).poolOf t).playerCount = totalSize q (greedy q
      (bg.freeSlots t) ((q.queuedGroups (b,.normal t)).filter fun g => !q.invited g)) := by
    rw [(hselect t).2,hinit t,playerCount_addWhile (Nat.zero_le _)]
    simp [SelectionPool.init]
  have hle := totalSize_greedy_le (q := q) (bg.freeSlots t)
    ((q.queuedGroups (b,.normal t)).filter fun g => !q.invited g)
  unfold Filling.left remaining
  rw [hcount]
  omega

theorem fillPlayers_regular (hcross : cfg.crossFaction = false) :
    fillPlayersToBG q cfg bg b = fillRegular q cfg bg b := by
  have hno : fillXPlayersToBG q cfg b bg false = (false,q) := if_neg (by simp [hcross])
  unfold fillPlayersToBG
  rw [hno]
  split_ifs <;> rfl

theorem selectionPools_fillRegular (t : Team) :
    (fillRegular q cfg bg b).selectionPools t =
      (if cfg.invitationType = 0 then firstSelection q bg b
        else balance q (bg.freeSlots .alliance) (bg.freeSlots .horde)
          (2*((q.queuedGroups (b,.normalAlliance)).length+
            (q.queuedGroups (b,.normalHorde)).length)+
          (firstSelection q bg b).aliPool.selectedGroups.length+
          (firstSelection q bg b).hordePool.selectedGroups.length) (firstSelection q bg b)).poolOf t := by
  cases t
  · rfl
  · rfl

theorem fillRegular_ends (cfg : Settings) (bg : Battleground) (b : Fin 16)
    (hinit : ∀ t, q.selectionPools t = .init) :
    ∃ s, Loop.Ends (balanceStep q bg.freeSlots)
        ⟨decide (cfg.invitationType ≠ 0),[],firstSelection q bg b⟩ s ∧
      FillInv q b bg.freeSlots s.filling ∧
      ∀ t, (fillRegular q cfg bg b).selectionPools t = s.filling.poolOf t := by
  have hfirst := (firstSelection_spec bg b hinit).1
  by_cases htype : cfg.invitationType = 0
  · refine ⟨_,.done ?_,hfirst,fun t => ?_⟩
    · simp [htype,balanceStep_ended]
    · rw [selectionPools_fillRegular,if_pos htype]
  · have hbound : fillWeight (firstSelection q bg b) ≤
        2*((q.queuedGroups (b,.normalAlliance)).length+(q.queuedGroups (b,.normalHorde)).length)+
          (firstSelection q bg b).aliPool.selectedGroups.length+
          (firstSelection q bg b).hordePool.selectedGroups.length := by
      obtain ⟨taken,hali,-⟩ := (hfirst .alliance).taken
      obtain ⟨taken',hhorde,-⟩ := (hfirst .horde).taken
      have hali := congrArg List.length hali
      have hhorde := congrArg List.length hhorde
      rw [List.length_append] at hali hhorde
      unfold fillWeight weight
      simp only [GroupType.normal,Filling.queue] at hali hhorde
      omega
    obtain ⟨s,hends,hfilling⟩ := balance_ends [] hfirst hbound
    have htrue : decide (cfg.invitationType ≠ 0) = true := by simp [htype]
    refine ⟨s,htrue ▸ hends,?_,fun t => ?_⟩
    · refine hends.inv (P := fun s => FillInv q b bg.freeSlots s.filling) ?_ hfirst
      intro s s' hs hstep
      obtain ⟨going,kicked,f⟩ := s
      cases going with
      | false => simp [balanceStep_ended] at hstep
      | true => exact (FillInv.step hs hstep).1
    · rw [selectionPools_fillRegular,if_neg htype,hfilling]

/-- The pools are filled right except, with match type 1 and balanced invitations, when one team
has selected players and is left with exactly one slot less than the other. -/
theorem fillsRight_iff (hcross : cfg.crossFaction = false)
    (hinit : ∀ t, q.selectionPools t = .init)
    (hnd : ∀ t, (q.queuedGroups (b,.normal t)).Nodup) :
    FillsRight cfg bg b q ↔ ¬(cfg.matchType = 1 ∧ cfg.invitationType ≠ 0 ∧
      ∃ t, remaining q bg b t+1 = remaining q bg b t.other ∧
        remaining q bg b t < bg.freeSlots t) := by
  obtain ⟨hfirst,hleft⟩ := firstSelection_spec bg b hinit
  obtain ⟨s,hends,hinv,hpools⟩ := fillRegular_ends cfg bg b hinit
  rw [← fillPlayers_regular hcross] at hpools
  have hselected : ∀ t, Selected q (q.queuedGroups (b,.normal t)) (bg.freeSlots t)
      ((fillPlayersToBG q cfg bg b).selectionPools t) := by
    intro t
    rw [hpools t]
    exact (hinv t).selected (hnd t)
  have hclose : (∃ t, remaining q bg b t+1 = remaining q bg b t.other ∧
      remaining q bg b t < bg.freeSlots t) →
      ((firstSelection q bg b).left bg.freeSlots .alliance-
        (firstSelection q bg b).left bg.freeSlots .horde).natAbs ≤ 1 := by
    rintro ⟨t,hone,-⟩
    rw [(hleft _).1,(hleft _).1]
    cases t <;> simp only [Team.other] at hone <;> omega
  have hkicks : cfg.invitationType ≠ 0 →
      ((firstSelection q bg b).left bg.freeSlots .alliance-
        (firstSelection q bg b).left bg.freeSlots .horde).natAbs ≤ 1 →
      (s.kicked ≠ [] ↔ ∃ t, remaining q bg b t+1 = remaining q bg b t.other ∧
        remaining q bg b t < bg.freeSlots t) := by
    intro htype hone
    rw [decide_eq_true htype] at hends
    refine (kicks_iff hfirst hnd hends hone).trans (exists_congr fun t => ?_)
    rw [(hleft t).1,(hleft t.other).1,(hleft t).2]
    omega
  constructor
  · rintro ⟨⟨s',hends',-,hkept⟩,-⟩ ⟨hmatch,htype,hone⟩
    obtain rfl := hends.unique hends'
    exact (hkicks htype (hclose hone)).mpr hone (hkept hmatch (hclose hone))
  · intro hno
    refine ⟨⟨s,hends,hpools,fun hmatch hone => ?_⟩,hselected⟩
    by_cases htype : cfg.invitationType = 0
    · rw [hends.unique (.done (by simp [htype,balanceStep_ended]))]
    · by_contra hkicked
      exact hno ⟨hmatch,htype,(hkicks htype hone).mp hkicked⟩

section Examples

def tolerantSettings : Settings := { exampleSettings with invitationType := 1, matchType := 1 }

def soloRequest (team : Team) (guid : Nat) : Request :=
  ⟨{guid},team,0,exampleBracket,0,false,false,0,0,0⟩

def solos (teams : List Team) : BattlegroundQueue :=
  (teams.zipIdx 1).foldl (fun q p => addGroup tolerantSettings 1000 (soloRequest p.1 p.2) q) .empty

def runningBg (ali horde : Nat) : Battleground where
  instanceId := 7
  isArena := false
  isRated := false
  minPlayersPerTeam := 5
  maxPlayersPerTeam := 10
  freeSlots
    | .alliance => ali
    | .horde => horde

theorem fillsRight_even :
    FillsRight tolerantSettings (runningBg 3 3) exampleBracket (solos [.alliance,.horde]) := by
  refine (fillsRight_iff rfl (fun t => rfl) (fun t => ?_)).mpr ?_
  · cases t <;> decide
  · rintro ⟨-,-,t,hone,-⟩
    cases t
    · exact absurd hone (by decide)
    · exact absurd hone (by decide)

/-- The alliance has one player more than the horde, and he is kicked. -/
theorem not_fillsRight :
    ¬ FillsRight tolerantSettings (runningBg 3 3) exampleBracket
      (solos [.alliance,.horde,.alliance]) := by
  rintro ⟨⟨s,hends,-,hkept⟩,-⟩
  have hfirst := (firstSelection_spec (q := solos [.alliance,.horde,.alliance]) (runningBg 3 3)
    exampleBracket fun t => rfl).1
  have hkicked := kicks_iff hfirst (fun t => by cases t <;> decide) hends (by decide)
  exact hkicked.mpr ⟨.alliance,by decide,by decide⟩ (hkept rfl (by decide))

end Examples

end TrinityCore.Battlegrounds
