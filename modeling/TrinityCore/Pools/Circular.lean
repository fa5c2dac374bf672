import TrinityCore.Lib.Acyclic
import TrinityCore.Pools.PoolMgr

set_option autoImplicit false

namespace TrinityCore.Pools

open Relation

structure PoolPoolRow where
  child : Nat
  mother : Nat
  chance : Rat

structure Templates where
  maxPoolId : Nat
  maxLimit : Nat → Nat

def PoolGroup.empty : PoolGroup := ⟨[],[]⟩

def PoolGroup.addEntry (g : PoolGroup) (o : PoolObject) (maxentries : Nat) : PoolGroup :=
  if o.chance ≠ 0 ∧ maxentries = 1 then
    { g with explicitlyChanced := g.explicitlyChanced ++ [o] }
  else { g with equalChanced := g.equalChanced ++ [o] }

def PoolGroup.removeOneRelation (g : PoolGroup) (child : Nat) : PoolGroup where
  explicitlyChanced := g.explicitlyChanced.eraseP (·.guid = child)
  equalChanced := g.equalChanced.eraseP (·.guid = child)

structure PoolPools where
  group : Nat → PoolGroup
  searchMap : Nat → Option Nat

namespace PoolPools

def empty : PoolPools := ⟨fun _ => .empty,fun _ => none⟩

/-- The map keeps the first mother of a pool. -/
def loadRow (t : Templates) (s : PoolPools) (row : PoolPoolRow) : PoolPools :=
  if row.mother > t.maxPoolId then s
  else if row.child > t.maxPoolId then s
  else if row.mother = row.child then s
  else if row.chance < 0 ∨ row.chance > 100 then s
  else
    { group := Function.update s.group row.mother
        ((s.group row.mother).addEntry ⟨row.child,row.chance⟩ (t.maxLimit row.mother))
      searchMap := match s.searchMap row.child with
        | none => Function.update s.searchMap row.child (some row.mother)
        | some _ => s.searchMap }

def breakLink (s : PoolPools) (child mother : Nat) : PoolPools where
  group := Function.update s.group mother ((s.group mother).removeOneRelation child)
  searchMap := Function.update s.searchMap child none

/-- The search from one pool; each turn checks a pool that was not checked before. -/
def checkFrom : Nat → Finset Nat → Nat → PoolPools → PoolPools
  | 0, _, _, s => s
  | n+1, checkedPools, pool, s =>
    match s.searchMap pool with
    | none => s
    | some mother =>
      let checkedPools := insert pool checkedPools
      if mother ∈ checkedPools then s.breakLink pool mother
      else checkFrom n checkedPools mother s

/-- The pool with the greatest id is not searched from. -/
def checkCircular (t : Templates) (s : PoolPools) : PoolPools :=
  (List.range t.maxPoolId).foldl (fun s i => checkFrom (t.maxPoolId+2) ∅ i s) s

def load (t : Templates) (rows : List PoolPoolRow) : PoolPools :=
  checkCircular t (rows.foldl (loadRow t) empty)

def Child (s : PoolPools) (mother child : Nat) : Prop := child ∈ (s.group mother).guids

end PoolPools

section Despawn

variable (group : Kind → Nat → PoolGroup) (onQuest : Nat → World → World)

def despawnAll (despawn1 : Nat → World → World) (k : Kind) (pool : Nat) (w : World) : World :=
  (group k pool).guids.foldl (despawnOne despawn1 k pool 0) w

/-- `DespawnPool` with groups of any shape, to a depth; what is done to a quest is left open. -/
def despawnFrom : Nat → Nat → World → Option World
  | 0, _, _ => none
  | n+1, pool, w =>
    let w := despawnAll group onMap .creature pool w
    let w := despawnAll group onMap .gameobject pool w
    ((group .pool pool).guids.foldlM (fun (w : World) child =>
      if w.spawns.isActiveObject .pool child then
        (despawnFrom n child w).map (·.remove .pool child pool)
      else some w) w).map (despawnAll group onQuest .quest pool)

end Despawn

namespace PoolPoolRow

def Valid (t : Templates) (row : PoolPoolRow) : Prop :=
  row.mother ≤ t.maxPoolId ∧ row.child ≤ t.maxPoolId ∧ row.mother ≠ row.child ∧
    0 ≤ row.chance ∧ row.chance ≤ 100

instance (t : Templates) (row : PoolPoolRow) : Decidable (row.Valid t) :=
  inferInstanceAs (Decidable (_ ∧ _))

def mothers (t : Templates) (rows : List PoolPoolRow) (child : Nat) : List Nat :=
  (rows.filter fun row => row.Valid t ∧ row.child = child).map PoolPoolRow.mother

def Links (t : Templates) (rows : List PoolPoolRow) (mother child : Nat) : Prop :=
  mother ∈ mothers t rows child

/-- A link of a circular reference is the first that is listed for its child, and it is listed
once. -/
def CircleFirst (t : Templates) (rows : List PoolPoolRow) : Prop :=
  ∀ mother child, Links t rows mother child → ReflTransGen (Links t rows) child mother →
    (mothers t rows child).head? = some mother ∧ (mothers t rows child).count mother = 1

end PoolPoolRow

section Load

variable {t : Templates} {rows : List PoolPoolRow} {row : PoolPoolRow} {s : PoolPools} {c m : Nat}

open PoolPoolRow

theorem count_addEntry (g : PoolGroup) (o : PoolObject) (maxentries : Nat) :
    (g.addEntry o maxentries).guids.count c = g.guids.count c+if o.guid = c then 1 else 0 := by
  unfold PoolGroup.addEntry PoolGroup.guids
  by_cases hchanced : o.chance ≠ 0 ∧ maxentries = 1
  · rw [if_pos hchanced]
    simp only [List.map_append,List.map_cons,List.map_nil,List.count_append,List.count_singleton,
      beq_iff_eq]
    omega
  · rw [if_neg hchanced]
    simp only [List.map_append,List.map_cons,List.map_nil,List.count_append,List.count_singleton,
      beq_iff_eq]
    omega

theorem guids_removeOneRelation (g : PoolGroup) (child : Nat) : (g.removeOneRelation child).guids =
    (g.equalChanced.map PoolObject.guid).erase child ++
      (g.explicitlyChanced.map PoolObject.guid).erase child := by
  have herase : ∀ os : List PoolObject, (os.eraseP (·.guid = child)).map PoolObject.guid =
      (os.map PoolObject.guid).erase child := by
    intro os
    rw [List.erase_eq_eraseP,List.eraseP_map]
    congr 2
    funext o
    simp [Bool.beq_eq_decide_eq,eq_comm]
  simp [PoolGroup.removeOneRelation,PoolGroup.guids,herase]

theorem count_removeOneRelation (g : PoolGroup) (child : Nat) :
    (∀ c, (g.removeOneRelation child).guids.count c ≤ g.guids.count c) ∧
      (g.guids.count child ≤ 1 → child ∉ (g.removeOneRelation child).guids) := by
  rw [guids_removeOneRelation,PoolGroup.guids,List.map_append]
  constructor
  · intro c
    rw [List.count_append,List.count_append]
    exact Nat.add_le_add (List.erase_sublist.count_le c) (List.erase_sublist.count_le c)
  · rw [List.count_append,← List.count_eq_zero,List.count_append,List.count_erase_self,
      List.count_erase_self]
    omega

theorem loadRow_valid (h : row.Valid t) : s.loadRow t row =
    { group := Function.update s.group row.mother
        ((s.group row.mother).addEntry ⟨row.child,row.chance⟩ (t.maxLimit row.mother))
      searchMap := match s.searchMap row.child with
        | none => Function.update s.searchMap row.child (some row.mother)
        | some _ => s.searchMap } := by
  obtain ⟨hmother,hchild,hne,hlow,hhigh⟩ := h
  unfold PoolPools.loadRow
  rw [if_neg (Nat.not_lt.mpr hmother),if_neg (Nat.not_lt.mpr hchild),if_neg hne,
    if_neg (not_or.mpr ⟨not_lt.mpr hlow,not_lt.mpr hhigh⟩)]

theorem loadRow_invalid (h : ¬ row.Valid t) : s.loadRow t row = s := by
  unfold PoolPools.loadRow
  split_ifs with hmother hchild hne hchance
  all_goals first
    | rfl
    | push Not at hmother hchild hchance
      exact absurd ⟨hmother,hchild,hne,hchance.1,hchance.2⟩ h

theorem mothers_concat : mothers t (rows ++ [row]) c =
    mothers t rows c ++ if row.Valid t ∧ row.child = c then [row.mother] else [] := by
  unfold mothers
  rw [List.filter_append,List.map_append]
  by_cases h : row.Valid t ∧ row.child = c
  · simp [h]
  · rw [if_neg h,List.filter_singleton]
    simp [h]

theorem load_spec (t : Templates) (rows : List PoolPoolRow) :
    (∀ m c, ((rows.foldl (PoolPools.loadRow t) .empty).group m).guids.count c =
      (mothers t rows c).count m) ∧
    ∀ c, (rows.foldl (PoolPools.loadRow t) .empty).searchMap c = (mothers t rows c).head? := by
  induction rows using List.reverseRecOn with
  | nil => exact ⟨fun m c => rfl,fun c => rfl⟩
  | append_singleton rows row ih =>
    obtain ⟨hcount,hsearch⟩ := ih
    rw [List.foldl_append,List.foldl_cons,List.foldl_nil]
    by_cases hvalid : row.Valid t
    · rw [loadRow_valid hvalid]
      refine ⟨fun m c => ?_,fun c => ?_⟩
      · rw [mothers_concat,List.count_append,← hcount]
        dsimp only
        by_cases hm : m = row.mother
        · subst hm
          rw [Function.update_self,count_addEntry]
          by_cases hc : row.child = c <;> simp [hc,hvalid]
        · rw [Function.update_of_ne hm]
          by_cases hc : row.child = c <;> simp [hc,hvalid,Ne.symm hm]
      · rw [mothers_concat,List.head?_append,← hsearch]
        by_cases hc : row.child = c
        · subst hc
          cases hfirst : (rows.foldl (PoolPools.loadRow t) .empty).searchMap row.child with
          | none => simp [hvalid]
          | some m => simp [hfirst]
        · cases hfirst : (rows.foldl (PoolPools.loadRow t) .empty).searchMap row.child with
          | none => simp [hc,Function.update_of_ne (Ne.symm hc)]
          | some m => simp [hc]
    · rw [loadRow_invalid hvalid]
      refine ⟨fun m c => ?_,fun c => ?_⟩
      · rw [mothers_concat,hcount]
        simp [hvalid]
      · rw [mothers_concat,hsearch]
        simp [hvalid]

theorem valid_of_mem (h : m ∈ mothers t rows c) : m ≤ t.maxPoolId ∧ c ≤ t.maxPoolId ∧ m ≠ c := by
  obtain ⟨row,hrow,rfl⟩ := List.mem_map.mp h
  obtain ⟨hvalid,rfl⟩ := of_decide_eq_true (List.mem_filter.mp hrow).2
  exact ⟨hvalid.1,hvalid.2.1,hvalid.2.2.1⟩

end Load

namespace PoolPools

variable {s s₀ s' : PoolPools} {c m n pool start max : Nat} {checkedPools : Finset Nat}

/-- What the search leaves: less, and of a link that is gone from the map nothing in the groups if it
was there once. -/
structure Pruned (s₀ s : PoolPools) : Prop where
  search : ∀ {c m}, s.searchMap c = some m → s₀.searchMap c = some m
  fewer : ∀ m c, (s.group m).guids.count c ≤ (s₀.group m).guids.count c
  gone : ∀ {c m}, s₀.searchMap c = some m → s.searchMap c = none →
    (s₀.group m).guids.count c = 1 → c ∉ (s.group m).guids

theorem Pruned.refl (s : PoolPools) : Pruned s s :=
  ⟨id,fun _ _ => le_rfl,fun h h' => absurd (h.symm.trans h') (Option.some_ne_none _)⟩

theorem Pruned.breakLink (h : Pruned s₀ s) (hm : s.searchMap c = some m) :
    Pruned s₀ (s.breakLink c m) := by
  have hgroup : ∀ m' c', ((s.breakLink c m).group m').guids.count c' ≤ (s.group m').guids.count c' := by
    intro m' c'
    by_cases hm' : m' = m
    · subst hm'
      simp only [PoolPools.breakLink,Function.update_self]
      exact (count_removeOneRelation _ c).1 c'
    · simp only [PoolPools.breakLink,Function.update_of_ne hm',le_refl]
  refine ⟨fun {c' m'} h' => ?_,fun m' c' => (hgroup m' c').trans (h.fewer m' c'),
    fun {c' m'} h₀ hnone hone => ?_⟩
  · by_cases hc : c' = c
    · simp [PoolPools.breakLink,hc] at h'
    · simp only [PoolPools.breakLink,Function.update_of_ne hc] at h'
      exact h.search h'
  · by_cases hc : c' = c
    · subst hc
      obtain rfl : m' = m := Option.some.inj (h₀.symm.trans (h.search hm))
      simp only [PoolPools.breakLink,Function.update_self]
      exact (count_removeOneRelation _ c').2 (hone ▸ h.fewer m' c')
    · simp only [PoolPools.breakLink,Function.update_of_ne hc] at hnone
      have hbefore := List.count_eq_zero.mpr (h.gone h₀ hnone hone)
      exact List.count_eq_zero.mp (Nat.le_zero.mp (hbefore ▸ hgroup m' c'))

theorem Pruned.checkFrom (h : Pruned s₀ s) : Pruned s₀ (checkFrom n checkedPools pool s) := by
  induction n generalizing checkedPools pool with
  | zero => exact h
  | succ n ih =>
    unfold PoolPools.checkFrom
    split
    · exact h
    · rename_i mother hm
      dsimp only
      split_ifs
      · exact h.breakLink hm
      · exact ih

def Grounded (s : PoolPools) (pool : Nat) : Prop := Acc (fun m c => s.searchMap c = some m) pool

theorem Grounded.mono (h : Grounded s pool)
    (hsub : ∀ {c m}, s'.searchMap c = some m → s.searchMap c = some m) : Grounded s' pool :=
  Subrelation.accessible (fun {_ _} hm => hsub hm) h

theorem Grounded.of_mother (hm : s.searchMap pool = some m) (h : Grounded s m) : Grounded s pool :=
  Acc.intro _ fun _ hm' => Option.some.inj (hm.symm.trans hm') ▸ h

theorem fuel_left (hsmall : ∀ c ∈ checkedPools, c ≤ max) (hfuel : checkedPools.card+n = max+2) :
    n ≠ 0 := by
  have hsub : checkedPools ⊆ Finset.range (max+1) := fun c hc =>
    Finset.mem_range.mpr (Nat.lt_succ_of_le (hsmall c hc))
  have hcard := Finset.card_le_card hsub
  rw [Finset.card_range] at hcard
  omega

theorem insert_small (hsmall : ∀ c ∈ checkedPools, c ≤ max) (hpool : pool ≤ max) :
    ∀ c ∈ insert pool checkedPools, c ≤ max := by
  intro c hc
  rcases Finset.mem_insert.mp hc with rfl | hc
  · exact hpool
  · exact hsmall c hc

/-- After the search from a pool its way ends. The pools on the way so far are checked, so that the
pool is grounded if the current one is. -/
theorem checkFrom_grounded (hfuel : checkedPools.card+n = max+2)
    (hsmall : ∀ c ∈ checkedPools, c ≤ max) (hbound : ∀ c m, s.searchMap c = some m → m ≤ max)
    (hpool : pool ≤ max) (hfresh : pool ∉ checkedPools)
    (hback : ∀ s' : PoolPools, (∀ c ∈ checkedPools, s'.searchMap c = s.searchMap c) →
      Grounded s' pool → Grounded s' start) :
    Grounded (checkFrom n checkedPools pool s) start := by
  induction n generalizing checkedPools pool with
  | zero => exact absurd rfl (fuel_left hsmall hfuel)
  | succ n ih =>
    have hinsert := Finset.card_insert_of_notMem hfresh
    unfold checkFrom
    split
    · rename_i hnone
      refine hback s (fun _ _ => rfl) (Acc.intro _ fun m hm => ?_)
      exact absurd (hnone.symm.trans hm) (Option.some_ne_none m).symm
    · rename_i mother hm
      dsimp only
      split_ifs with hchecked
      · refine hback _ (fun c hc => ?_) (Acc.intro _ fun m hm' => ?_)
        · have hne : c ≠ pool := fun h => hfresh (h ▸ hc)
          simp only [breakLink,Function.update_of_ne hne]
        · simp [breakLink] at hm'
      · refine ih (by omega) (insert_small hsmall hpool) (hbound pool mother hm) hchecked
          fun s' hagree hground => ?_
        refine hback s' (fun c hc => hagree c (Finset.mem_insert_of_mem hc)) ?_
        exact .of_mother ((hagree pool (Finset.mem_insert_self _ _)).trans hm) hground

theorem check_spec (hbound : ∀ c m, s.searchMap c = some m → m ≤ max) {k : Nat} (hk : k ≤ max) :
    Pruned s ((List.range k).foldl (fun s i => checkFrom (max+2) ∅ i s) s) ∧
      ∀ i < k, Grounded ((List.range k).foldl (fun s i => checkFrom (max+2) ∅ i s) s) i := by
  induction k with
  | zero => exact ⟨.refl s,fun i hi => absurd hi (Nat.not_lt_zero i)⟩
  | succ k ih =>
    obtain ⟨hpruned,hground⟩ := ih (Nat.le_of_succ_le hk)
    rw [List.range_succ,List.foldl_append,List.foldl_cons,List.foldl_nil]
    set s' := (List.range k).foldl (fun s i => checkFrom (max+2) ∅ i s) s
    refine ⟨hpruned.checkFrom,fun i hi => ?_⟩
    rcases Nat.lt_succ_iff_lt_or_eq.mp hi with hlt | rfl
    · exact (hground i hlt).mono (Pruned.refl s').checkFrom.search
    · exact checkFrom_grounded (by simp) (by simp) (fun c m hm => hbound c m (hpruned.search hm))
        (Nat.le_of_succ_le hk) (by simp) fun _ _ h => h

end PoolPools

section Result

open PoolPoolRow PoolPools

variable {t : Templates} {rows : List PoolPoolRow}

theorem load_grounded (t : Templates) (rows : List PoolPoolRow) (pool : Nat) :
    Grounded (load t rows) pool := by
  obtain ⟨-,hsearch⟩ := load_spec t rows
  have hvalid : ∀ c m, (rows.foldl (loadRow t) .empty).searchMap c = some m →
      m ≤ t.maxPoolId ∧ c ≤ t.maxPoolId ∧ m ≠ c := by
    intro c m hm
    rw [hsearch] at hm
    exact valid_of_mem (List.mem_of_head? hm)
  obtain ⟨hpruned,hground⟩ := check_spec (fun c m hm => (hvalid c m hm).1) le_rfl
  by_cases hpool : pool < t.maxPoolId
  · exact hground pool hpool
  · refine Acc.intro _ fun m hm => hground m ?_
    obtain ⟨hm',hc,hne⟩ := hvalid pool m (hpruned.search hm)
    omega

theorem load_pruned (t : Templates) (rows : List PoolPoolRow) :
    Pruned (rows.foldl (loadRow t) .empty) (load t rows) := by
  obtain ⟨-,hsearch⟩ := load_spec t rows
  refine (check_spec (fun c m hm => ?_) le_rfl).1
  rw [hsearch] at hm
  exact (valid_of_mem (List.mem_of_head? hm)).1

theorem child_links {m c : Nat} (h : Child (load t rows) m c) : Links t rows m c := by
  have hcount := (load_spec t rows).1 m c
  have hfewer := (load_pruned t rows).fewer m c
  have hpos : 0 < ((load t rows).group m).guids.count c := List.count_pos_iff.mpr h
  exact List.count_pos_iff.mp (by omega)

theorem searchMap_of_circle (hfirst : CircleFirst t rows) {m c : Nat} (h : Child (load t rows) m c)
    (hback : ReflTransGen (Child (load t rows)) c m) : (load t rows).searchMap c = some m := by
  obtain ⟨hcount,hsearch⟩ := load_spec t rows
  obtain ⟨hhead,hone⟩ := hfirst m c (child_links h)
    (ReflTransGen.mono (fun _ _ => child_links) _ _ hback)
  have hloaded := (hsearch c).trans hhead
  cases hm : (load t rows).searchMap c with
  | none => exact absurd h ((load_pruned t rows).gone hloaded hm ((hcount m c).trans hone))
  | some m' => exact ((load_pruned t rows).search hm).symm.trans hloaded

theorem child_acyclic (hfirst : CircleFirst t rows) (pool : Nat) :
    ¬ TransGen (Child (load t rows)) pool pool := by
  intro hcycle
  have hmothers : TransGen (fun m c => (load t rows).searchMap c = some m) pool pool :=
    Acyclic.cycle_mono (fun m c h hback => searchMap_of_circle hfirst h hback) hcycle .refl
  have hwf : WellFounded fun m c => (load t rows).searchMap c = some m :=
    ⟨load_grounded t rows⟩
  exact hwf.transGen.irrefl.irrefl pool hmothers

theorem circleFirst_of_nodup (hnodup : (rows.map child).Nodup) : CircleFirst t rows := by
  intro m c hlink _
  have hone : (rows.filter fun row => row.Valid t ∧ row.child = c).length ≤ 1 := by
    have hcount := List.nodup_iff_count_le_one.mp hnodup c
    rw [List.count_eq_countP,List.countP_map] at hcount
    rw [← List.countP_eq_length_filter]
    refine (List.countP_mono_left fun row _ hrow => ?_).trans hcount
    simpa using (of_decide_eq_true hrow).2
  have hlength : (mothers t rows c).length = 1 := by
    have hpos := List.length_pos_of_mem hlink
    unfold mothers at hpos ⊢
    rw [List.length_map] at hpos ⊢
    omega
  obtain ⟨m',hm'⟩ := List.length_eq_one_iff.mp hlength
  have hsame : m = m' := by simpa [Links,hm'] using hlink
  subst hsame
  simp [hm']

theorem child_small {m c : Nat} (h : Child (load t rows) m c) : c ∈ Finset.range (t.maxPoolId+1) :=
  Finset.mem_range.mpr (Nat.lt_succ_of_le (valid_of_mem (child_links h)).2.1)

theorem descendants_ncard (t : Templates) (rows : List PoolPoolRow) (pool : Nat) :
    {c | TransGen (Child (load t rows)) pool c}.ncard ≤ t.maxPoolId+1 := by
  have hsub : {c | TransGen (Child (load t rows)) pool c} ⊆ Finset.range (t.maxPoolId+1) := by
    intro c hc
    obtain ⟨m,-,hm⟩ := TransGen.tail'_iff.mp hc
    exact Finset.mem_coe.mpr (child_small hm)
  have hcard := Set.ncard_le_ncard hsub (Finset.finite_toSet _)
  rwa [Set.ncard_coe_finset,Finset.card_range] at hcard

theorem foldlM_isSome {α β : Type} {f : β → α → Option β} {l : List α}
    (h : ∀ a ∈ l, ∀ b, (f b a).isSome) (b : β) : (l.foldlM f b).isSome := by
  induction l generalizing b with
  | nil => rfl
  | cons a l ih =>
    obtain ⟨b',hb'⟩ := Option.isSome_iff_exists.mp (h a List.mem_cons_self b)
    rw [List.foldlM_cons,hb']
    exact ih (fun a' ha' => h a' (List.mem_cons_of_mem _ ha')) b'

theorem despawnFrom_isSome (hfirst : CircleFirst t rows) (others : Kind → Nat → PoolGroup)
    (onQuest : Nat → World → World) {n pool : Nat}
    (hn : {c | TransGen (Child (load t rows)) pool c}.ncard < n) (w : World) :
    (despawnFrom (Function.update others .pool (load t rows).group) onQuest n pool w).isSome := by
  induction n generalizing pool w with
  | zero => exact absurd hn (Nat.not_lt_zero _)
  | succ n ih =>
    have hfinite : {c | ∃ m, Child (load t rows) m c}.Finite :=
      (Finset.finite_toSet (Finset.range (t.maxPoolId+1))).subset fun c ⟨_,hm⟩ =>
        Finset.mem_coe.mpr (child_small hm)
    have hchild : ∀ c ∈ ((load t rows).group pool).guids, ∀ w,
        (despawnFrom (Function.update others .pool (load t rows).group) onQuest n c w).isSome := by
      intro c hc w
      have hless := Acyclic.ncard_lt hfinite (child_acyclic hfirst) (a := pool) (b := c) hc
      exact ih (by omega) w
    unfold despawnFrom
    dsimp only
    rw [Option.isSome_map,Function.update_self]
    refine foldlM_isSome (fun c hc w => ?_) _
    split_ifs
    · rw [Option.isSome_map]
      exact hchild c hc w
    · rfl

/-- If links of circular references are the first that are listed, no circular reference is left, and
`DespawnPool` goes no deeper than there are pools, from any pool and whatever is spawned. -/
theorem load_acyclic (t : Templates) (rows : List PoolPoolRow) (hfirst : CircleFirst t rows) :
    (∀ pool, ¬ TransGen (Child (load t rows)) pool pool) ∧
      ∀ (others : Kind → Nat → PoolGroup) (onQuest : Nat → World → World) (pool : Nat) (w : World),
        (despawnFrom (Function.update others .pool (load t rows).group) onQuest (t.maxPoolId+2) pool
          w).isSome :=
  ⟨child_acyclic hfirst,fun others onQuest pool w =>
    despawnFrom_isSome hfirst others onQuest (Nat.lt_succ_of_le (descendants_ncard t rows pool)) w⟩

theorem load_acyclic_three :
    let rows : List PoolPoolRow := [⟨1,2,0⟩,⟨2,3,0⟩,⟨3,1,0⟩]
    (∀ pool, ¬ TransGen (Child (load ⟨3,fun _ => 1⟩ rows)) pool pool) ∧
      ∀ (others : Kind → Nat → PoolGroup) (onQuest : Nat → World → World) (pool : Nat) (w : World),
        (despawnFrom (Function.update others .pool (load ⟨3,fun _ => 1⟩ rows).group) onQuest 5 pool
          w).isSome :=
  load_acyclic _ _ (circleFirst_of_nodup (by decide))

def twoMothers : List PoolPoolRow := [⟨2,1,0⟩,⟨1,3,0⟩,⟨1,2,0⟩]

def bothSpawned : World :=
  ⟨{ ActivePoolData.empty with spawnedPools := fun p => if p = 1 ∨ p = 2 then some 1 else none },
    [],[],fun _ => [],[]⟩

/-- The second mother is not found, pools 1 and 2 stay mothers of each other, and despawning the one
despawns the other first. -/
theorem circle_left : TransGen (Child (load ⟨3,fun _ => 1⟩ twoMothers)) 1 1 ∧
    ∀ n, despawnFrom (Function.update (fun _ _ => .empty) .pool (load ⟨3,fun _ => 1⟩ twoMothers).group)
      (fun _ w => w) n 1 bothSpawned = none := by
  have hguids : ((load ⟨3,fun _ => 1⟩ twoMothers).group 1).guids = [2] ∧
      ((load ⟨3,fun _ => 1⟩ twoMothers).group 2).guids = [1] := by decide +kernel
  have hchild : Child (load ⟨3,fun _ => 1⟩ twoMothers) 1 2 ∧
      Child (load ⟨3,fun _ => 1⟩ twoMothers) 2 1 := by
    unfold Child
    rw [hguids.1,hguids.2]
    decide
  refine ⟨(TransGen.single hchild.1).tail hchild.2,fun n => ?_⟩
  have hboth : ∀ n pool, pool = 1 ∨ pool = 2 →
      despawnFrom (Function.update (fun _ _ => .empty) .pool (load ⟨3,fun _ => 1⟩ twoMothers).group)
        (fun _ w => w) n pool bothSpawned = none := by
    intro n
    induction n with
    | zero => exact fun _ _ => rfl
    | succ n ih =>
      rintro pool (rfl | rfl)
      · change (Option.map _ (List.foldlM _ bothSpawned
          ((load ⟨3,fun _ => 1⟩ twoMothers).group 1).guids)) = none
        rw [hguids.1,List.foldlM_cons,if_pos (by decide),ih 2 (.inr rfl)]
        rfl
      · change (Option.map _ (List.foldlM _ bothSpawned
          ((load ⟨3,fun _ => 1⟩ twoMothers).group 2).guids)) = none
        rw [hguids.2,List.foldlM_cons,if_pos (by decide),ih 1 (.inl rfl)]
        rfl
  exact hboth n 1 (.inl rfl)

end Result

end TrinityCore.Pools
