import TrinityCore.Pools.PoolMgr

set_option autoImplicit false

/-!
The active counts of the pools. The stored count of every pool is the number of its own
active objects, in every state that spawning and despawning pass through; what is spawned
below a pool leaves the pool itself and everything above it as it was.
-/

namespace TrinityCore.Pools

variable {mgr : PoolMgr} {d : ActivePoolData} {w w' w'' : World} {k : Kind} {p g n : Nat}

def PoolMgr.own (mgr : PoolMgr) (p : Nat) : Finset (Kind × Nat) :=
  ([Kind.creature,.gameobject,.pool,.quest].flatMap fun k =>
    (mgr.group k p).guids.map (k,·)).toFinset

@[simp] theorem PoolMgr.mem_own : (k,g) ∈ mgr.own p ↔ g ∈ (mgr.group k p).guids := by
  cases k <;> simp [PoolMgr.own]

def activeOwn (mgr : PoolMgr) (d : ActivePoolData) (p : Nat) : Finset (Kind × Nat) :=
  (mgr.own p).filter (fun m => d.isActiveObject m.1 m.2)

@[simp] theorem mem_activeOwn :
    (k,g) ∈ activeOwn mgr d p ↔ g ∈ (mgr.group k p).guids ∧ d.isActiveObject k g = true := by
  simp [activeOwn]

def Accounted (mgr : PoolMgr) (d : ActivePoolData) : Prop :=
  ∀ p, d.getActiveObjectCount p = (activeOwn mgr d p).card

/-- A pool into which objects may be spawned: one without a mother, or active in it. -/
def Open (mgr : PoolMgr) (d : ActivePoolData) (p : Nat) : Prop :=
  ∀ q, p ∈ (mgr.group .pool q).guids → d.isActiveObject .pool p = true

namespace ActivePoolData

theorem isActive_activateObject (k' : Kind) (g' : Nat) (hg : k = .pool → g ≠ p) :
    (d.activateObject k g p).isActiveObject k' g' = true ↔
      d.isActiveObject k' g' = true ∨ (k' = k ∧ g' = g) ∨ (k' = .pool ∧ g' = p) := by
  cases k <;> cases k' <;>
    simp [activateObject,mark,changeCount,isActiveObject,Function.update_apply] <;>
    grind

theorem isActive_removeObject (k' : Kind) (g' : Nat) (hg : k = .pool → g ≠ p) :
    (d.removeObject k g p).isActiveObject k' g' = true ↔
      (d.isActiveObject k' g' = true ∧ ¬ (k' = k ∧ g' = g)) ∨ (k' = .pool ∧ g' = p) := by
  cases k <;> cases k' <;>
    simp [removeObject,unmark,changeCount,isActiveObject,Function.update_apply] <;>
    grind

theorem count_activateObject (q : Nat) (hg : k = .pool → g ≠ p) :
    (d.activateObject k g p).getActiveObjectCount q =
      if q = p then d.getActiveObjectCount p+1
      else if k = .pool ∧ q = g then 0 else d.getActiveObjectCount q := by
  cases k <;>
    simp [activateObject,mark,changeCount,getActiveObjectCount,Function.update_apply] <;>
    grind

theorem count_removeObject (q : Nat) (hg : k = .pool → g ≠ p) :
    (d.removeObject k g p).getActiveObjectCount q =
      if q = p then d.getActiveObjectCount p-1
      else if k = .pool ∧ q = g then 0 else d.getActiveObjectCount q := by
  cases k <;>
    simp [removeObject,unmark,changeCount,getActiveObjectCount,Function.update_apply] <;>
    grind

theorem count_of_inactive (h : d.isActiveObject .pool p = false) : d.getActiveObjectCount p = 0 := by
  simp only [isActiveObject,Option.isSome_eq_false_iff,Option.isNone_iff_eq_none] at h
  simp [getActiveObjectCount,h]

theorem active_of_count (h : 0 < d.getActiveObjectCount p) : d.isActiveObject .pool p = true := by
  by_contra hn
  have := count_of_inactive (by simpa using hn)
  omega

end ActivePoolData

theorem PoolMgr.child_ne (h : g ∈ (mgr.group k p).guids) : k = .pool → g ≠ p := by
  rintro rfl rfl
  exact Nat.lt_irrefl _ (mgr.depth_lt _ _ h)

theorem activeOwn_of_inactive (h : Accounted mgr d) (hp : d.isActiveObject .pool p = false) :
    activeOwn mgr d p = ∅ := by
  rw [← Finset.card_eq_zero,← h p]
  exact ActivePoolData.count_of_inactive hp

theorem activeOwn_activateObject (hg : g ∈ (mgr.group k p).guids) (ho : Open mgr d p) (q : Nat) :
    activeOwn mgr (d.activateObject k g p) q =
      if q = p then insert (k,g) (activeOwn mgr d p) else activeOwn mgr d q := by
  ext ⟨k',g'⟩
  rw [mem_activeOwn,ActivePoolData.isActive_activateObject k' g' (mgr.child_ne hg)]
  split_ifs with hq
  · subst hq
    rw [Finset.mem_insert,mem_activeOwn,Prod.mk.injEq]
    constructor
    · rintro ⟨hm,ha | hkg | ⟨rfl,rfl⟩⟩
      · exact .inr ⟨hm,ha⟩
      · exact .inl hkg
      · exact .inr ⟨hm,ho _ hm⟩
    · rintro (⟨rfl,rfl⟩ | ⟨hm,ha⟩)
      · exact ⟨hg,.inr (.inl ⟨rfl,rfl⟩)⟩
      · exact ⟨hm,.inl ha⟩
  · rw [mem_activeOwn]
    constructor
    · rintro ⟨hm,ha | ⟨rfl,rfl⟩ | ⟨rfl,rfl⟩⟩
      · exact ⟨hm,ha⟩
      · exact absurd (mgr.one_pool _ _ _ _ hm hg) hq
      · exact ⟨hm,ho _ hm⟩
    · rintro ⟨hm,ha⟩
      exact ⟨hm,.inl ha⟩

theorem accounted_activateObject (h : Accounted mgr d) (hg : g ∈ (mgr.group k p).guids)
    (ho : Open mgr d p) (hn : d.isActiveObject k g = false) :
    Accounted mgr (d.activateObject k g p) := by
  intro q
  rw [activeOwn_activateObject hg ho,ActivePoolData.count_activateObject q (mgr.child_ne hg)]
  split_ifs with hq hk
  · rw [Finset.card_insert_of_notMem (by simp [hn]),h p]
  · obtain ⟨rfl,rfl⟩ := hk
    rw [activeOwn_of_inactive h hn,Finset.card_empty]
  · exact h q

theorem activeOwn_removeObject (h : Accounted mgr d) (hg : g ∈ (mgr.group k p).guids)
    (ha : d.isActiveObject k g = true) (q : Nat) :
    activeOwn mgr (d.removeObject k g p) q =
      if q = p then (activeOwn mgr d p).erase (k,g) else activeOwn mgr d q := by
  -- the pool has an active object, so its entry is there already
  have hp : d.isActiveObject .pool p = true := by
    refine ActivePoolData.active_of_count ?_
    rw [h p]
    exact Finset.card_pos.mpr ⟨(k,g),by simp [hg,ha]⟩
  ext ⟨k',g'⟩
  rw [mem_activeOwn,ActivePoolData.isActive_removeObject k' g' (mgr.child_ne hg)]
  split_ifs with hq
  · subst hq
    rw [Finset.mem_erase,mem_activeOwn,Ne,Prod.mk.injEq]
    constructor
    · rintro ⟨hm,⟨hb,hne⟩ | ⟨rfl,rfl⟩⟩
      · exact ⟨hne,hm,hb⟩
      · exact absurd rfl (mgr.child_ne hm rfl)
    · rintro ⟨hne,hm,hb⟩
      exact ⟨hm,.inl ⟨hb,hne⟩⟩
  · rw [mem_activeOwn]
    constructor
    · rintro ⟨hm,⟨hb,-⟩ | ⟨rfl,rfl⟩⟩
      · exact ⟨hm,hb⟩
      · exact ⟨hm,hp⟩
    · rintro ⟨hm,hb⟩
      refine ⟨hm,.inl ⟨hb,?_⟩⟩
      rintro ⟨rfl,rfl⟩
      exact hq (mgr.one_pool _ _ _ _ hm hg)

theorem accounted_removeObject (h : Accounted mgr d) (hg : g ∈ (mgr.group k p).guids)
    (ha : d.isActiveObject k g = true) (hk : k = .pool → activeOwn mgr d g = ∅) :
    Accounted mgr (d.removeObject k g p) := by
  intro q
  rw [activeOwn_removeObject h hg ha,ActivePoolData.count_removeObject q (mgr.child_ne hg)]
  split_ifs with hq hkq
  · rw [Finset.card_erase_of_mem (by simp [hg,ha]),h p]
  · obtain ⟨rfl,rfl⟩ := hkq
    rw [hk rfl,Finset.card_empty]
  · exact h q

/-- A step that only despawns, below the depth `n`. -/
structure Shrinks (mgr : PoolMgr) (n : Nat) (w w' : World) : Prop where
  accounted : Accounted mgr w'.spawns
  sub : ∀ q, activeOwn mgr w'.spawns q ⊆ activeOwn mgr w.spawns q
  frame : ∀ q, n ≤ mgr.depth q → activeOwn mgr w'.spawns q = activeOwn mgr w.spawns q
  save : w'.questSave = w.questSave

namespace Shrinks

theorem refl (h : Accounted mgr w.spawns) : Shrinks mgr n w w :=
  ⟨h,fun _ => subset_rfl,fun _ _ => rfl,rfl⟩

theorem trans (h : Shrinks mgr n w w') (h' : Shrinks mgr n w' w'') : Shrinks mgr n w w'' where
  accounted := h'.accounted
  sub q := (h'.sub q).trans (h.sub q)
  frame q hq := (h'.frame q hq).trans (h.frame q hq)
  save := h'.save.trans h.save

theorem mono {m : Nat} (h : Shrinks mgr n w w') (hm : n ≤ m) : Shrinks mgr m w w' where
  accounted := h.accounted
  sub := h.sub
  frame q hq := h.frame q (hm.trans hq)
  save := h.save

end Shrinks

/-- How one object of the group is despawned: below the pool only, and completely. -/
def Clears (mgr : PoolMgr) (k : Kind) (p : Nat) (despawn1 : Nat → World → World) : Prop :=
  ∀ g ∈ (mgr.group k p).guids, ∀ w : World, Accounted mgr w.spawns →
    Shrinks mgr (mgr.depth p) w (despawn1 g w) ∧
    (k = .pool → activeOwn mgr (despawn1 g w).spawns g = ∅)

variable {despawn1 spawn1 : Nat → World → World}

theorem despawnOne_spec (hd : Clears mgr k p despawn1) (hg : g ∈ (mgr.group k p).guids)
    (h : Accounted mgr w.spawns) (guid : Nat) :
    Shrinks mgr (mgr.depth p+1) w (despawnOne despawn1 k p guid w g) ∧
    activeOwn mgr (despawnOne despawn1 k p guid w g).spawns p =
      (activeOwn mgr w.spawns p).filter (fun m => ¬ (m = (k,g) ∧ (guid = 0 ∨ g = guid))) := by
  unfold despawnOne
  split_ifs with hc
  · obtain ⟨hs,he⟩ := hd g hg w h
    -- despawning the object itself leaves the flags of the pool's own objects alone
    have hp := hs.frame p le_rfl
    have ha : (despawn1 g w).spawns.isActiveObject k g = true := by
      have hm : (k,g) ∈ activeOwn mgr (despawn1 g w).spawns p := by rw [hp]; simp [hg,hc.1]
      exact (mem_activeOwn.mp hm).2
    have hr := activeOwn_removeObject hs.accounted hg ha
    refine ⟨⟨accounted_removeObject hs.accounted hg ha he,fun q => ?_,fun q hq => ?_,hs.save⟩,?_⟩
    · rw [World.remove,hr q]
      split_ifs with hqp
      · rw [hqp,hp]
        exact Finset.erase_subset _ _
      · exact hs.sub q
    · have hqp : q ≠ p := by rintro rfl; omega
      rw [World.remove,hr q,if_neg hqp]
      exact hs.frame q (by omega)
    · rw [World.remove,hr p,if_pos rfl,hp]
      ext m
      simp only [Finset.mem_erase,Finset.mem_filter,hc.2,and_true,ne_eq]
      exact and_comm
  · refine ⟨Shrinks.refl h,(Finset.filter_true_of_mem ?_).symm⟩
    rintro m hm ⟨rfl,hguid⟩
    exact hc ⟨(mem_activeOwn.mp hm).2,hguid⟩

theorem despawnList_spec (hd : Clears mgr k p despawn1) (guid : Nat) (l : List Nat)
    (hl : ∀ g ∈ l, g ∈ (mgr.group k p).guids) (h : Accounted mgr w.spawns) :
    Shrinks mgr (mgr.depth p+1) w (l.foldl (despawnOne despawn1 k p guid) w) ∧
    activeOwn mgr (l.foldl (despawnOne despawn1 k p guid) w).spawns p =
      (activeOwn mgr w.spawns p).filter
        (fun m => ¬ (m.1 = k ∧ m.2 ∈ l ∧ (guid = 0 ∨ m.2 = guid))) := by
  induction l generalizing w with
  | nil => exact ⟨Shrinks.refl h,by simp⟩
  | cons g l ih =>
    obtain ⟨hs,hp⟩ := despawnOne_spec hd (hl g (by simp)) h guid
    obtain ⟨hs',hp'⟩ := ih (fun g hg => hl g (by simp [hg])) hs.accounted
    refine ⟨hs.trans hs',?_⟩
    rw [List.foldl_cons,hp',hp,Finset.filter_filter]
    refine Finset.filter_congr (fun m _ => ?_)
    obtain ⟨k',g'⟩ := m
    simp only [List.mem_cons,Prod.mk.injEq]
    grind

theorem despawnObject_spec (hd : Clears mgr k p despawn1) (h : Accounted mgr w.spawns)
    (guid : Nat) :
    Shrinks mgr (mgr.depth p+1) w (despawnObject mgr despawn1 k p guid w) ∧
    activeOwn mgr (despawnObject mgr despawn1 k p guid w).spawns p =
      (activeOwn mgr w.spawns p).filter (fun m => ¬ (m.1 = k ∧ (guid = 0 ∨ m.2 = guid))) := by
  obtain ⟨hs,hp⟩ := despawnList_spec hd guid _ (fun _ hg => hg) h
  refine ⟨hs,hp.trans (Finset.filter_congr (fun m hm => ?_))⟩
  obtain ⟨k',g'⟩ := m
  have hg := (mem_activeOwn.mp hm).1
  constructor
  · rintro hn ⟨rfl,hguid⟩
    exact hn ⟨rfl,hg,hguid⟩
  · rintro hn ⟨rfl,-,hguid⟩
    exact hn ⟨rfl,hguid⟩

theorem clears_onMap (hk : k ≠ .pool) : Clears mgr k p onMap :=
  fun _ _ _ h => ⟨Shrinks.refl h,fun hp => absurd hp hk⟩

theorem clears_despawnQuest1 : Clears mgr .quest p (despawnQuest1 mgr) :=
  fun _ _ _ h => ⟨⟨h,fun _ => subset_rfl,fun _ _ => rfl,rfl⟩,nofun⟩

theorem despawnFuel_spec (hn : mgr.depth p < n) (h : Accounted mgr w.spawns) :
    Shrinks mgr (mgr.depth p+1) w (despawnFuel mgr n p w) ∧
    activeOwn mgr (despawnFuel mgr n p w).spawns p = ∅ := by
  induction n generalizing p w with
  | zero => omega
  | succ n ih =>
    have hc : Clears mgr .pool p (despawnFuel mgr n) := by
      intro c hc w h
      have hlt := mgr.depth_lt p c hc
      obtain ⟨hs,he⟩ := ih (p := c) (by omega) h
      exact ⟨hs.mono hlt,fun _ => he⟩
    obtain ⟨h1,e1⟩ := despawnObject_spec (clears_onMap (k := .creature) (p := p) nofun) h 0
    obtain ⟨h2,e2⟩ := despawnObject_spec (clears_onMap (k := .gameobject) (p := p) nofun)
      h1.accounted 0
    obtain ⟨h3,e3⟩ := despawnObject_spec hc h2.accounted 0
    obtain ⟨h4,e4⟩ := despawnObject_spec clears_despawnQuest1 h3.accounted 0
    refine ⟨((h1.trans h2).trans h3).trans h4,?_⟩
    simp only [despawnFuel]
    rw [e4,e3,e2,e1]
    ext ⟨k,g⟩
    cases k <;> simp

theorem despawnPool_spec (p : Nat) (h : Accounted mgr w.spawns) :
    Shrinks mgr (mgr.depth p+1) w (despawnPool mgr p w) ∧
    activeOwn mgr (despawnPool mgr p w).spawns p = ∅ :=
  despawnFuel_spec (Nat.lt_succ_self _) h

def PoolMgr.Below (mgr : PoolMgr) : Nat → Nat → Prop :=
  Relation.ReflTransGen (fun p c => c ∈ (mgr.group .pool p).guids)

theorem activeOwn_below (h : Accounted mgr d) (hp : activeOwn mgr d p = ∅) {q : Nat}
    (hq : mgr.Below p q) : activeOwn mgr d q = ∅ := by
  induction hq with
  | refl => exact hp
  | tail _ hc ih =>
    refine activeOwn_of_inactive h (Bool.eq_false_iff.mpr fun ha => ?_)
    have hm := mem_activeOwn.mpr ⟨hc,ha⟩
    simp [ih] at hm

def SavedOwn (mgr : PoolMgr) (save : Nat → List Nat) : Prop :=
  ∀ p, (mgr.group .quest p).isEmpty = false →
    (save p).Nodup ∧ ∀ q ∈ save p, q ∈ (mgr.group .quest p).guids

def Limited (mgr : PoolMgr) (n : Nat) (d : ActivePoolData) : Prop :=
  ∀ q, mgr.depth q < n → (activeOwn mgr d q).card ≤ mgr.maxLimit q

/-- The state in which a pool of depth less than `n` may be spawned. -/
structure Good (mgr : PoolMgr) (n : Nat) (w : World) : Prop where
  accounted : Accounted mgr w.spawns
  limited : Limited mgr n w.spawns
  saved : SavedOwn mgr w.questSave

/-- A step that keeps the state good below the depth `n` and changes nothing from there up. -/
structure Fills (mgr : PoolMgr) (n : Nat) (w w' : World) : Prop where
  good : Good mgr n w'
  frame : ∀ q, n ≤ mgr.depth q → activeOwn mgr w'.spawns q = activeOwn mgr w.spawns q

theorem Fills.refl (h : Good mgr n w) : Fills mgr n w w := ⟨h,fun _ _ => rfl⟩

theorem Fills.trans (h : Fills mgr n w w') (h' : Fills mgr n w' w'') : Fills mgr n w w'' :=
  ⟨h'.good,fun q hq => (h'.frame q hq).trans (h.frame q hq)⟩

theorem Good.mono {m : Nat} (h : Good mgr n w) (hm : m ≤ n) : Good mgr m w :=
  ⟨h.accounted,fun q hq => h.limited q (by omega),h.saved⟩

theorem Fills.mono {m : Nat} (h : Fills mgr n w w') (hm : n ≤ m) (hg : Good mgr m w) :
    Fills mgr m w w' := by
  refine ⟨⟨h.good.accounted,fun q hq => ?_,h.good.saved⟩,fun q hq => h.frame q (by omega)⟩
  by_cases hqn : mgr.depth q < n
  · exact h.good.limited q hqn
  · rw [h.frame q (by omega)]
    exact hg.limited q hq

theorem Open.frame (ho : Open mgr w.spawns p) (hp : n ≤ mgr.depth p+1)
    (hf : ∀ q, n ≤ mgr.depth q → activeOwn mgr w'.spawns q = activeOwn mgr w.spawns q) :
    Open mgr w'.spawns p := by
  intro q hq
  have hlt := mgr.depth_lt q p hq
  have hm := mem_activeOwn.mpr ⟨hq,ho q hq⟩
  rw [← hf q (by omega)] at hm
  exact (mem_activeOwn.mp hm).2

theorem canRoll_of_rollExplicit {t : Nat} {r : Rat} {os : List PoolObject} {o : PoolObject}
    (h : rollExplicit d k t r os = some o) : o ∈ os ∧ canRoll d k t o.guid = true := by
  induction os generalizing r with
  | nil => simp [rollExplicit] at h
  | cons a os ih =>
    simp only [rollExplicit] at h
    split_ifs at h with hc
    · obtain rfl : a = o := by simpa using h
      exact ⟨by simp,hc.2⟩
    · exact ⟨List.mem_cons_of_mem _ (ih h).1,(ih h).2⟩

theorem rollOne_spec {gr : PoolGroup} {t : Nat} {r : Roll} {o : PoolObject}
    (h : rollOne gr d k t r = some o) :
    o.guid ∈ gr.guids ∧ (o.guid = t ∨ d.isActiveObject k o.guid = false) := by
  have hc : o ∈ gr.equalChanced ++ gr.explicitlyChanced ∧ canRoll d k t o.guid = true := by
    unfold rollOne at h
    split at h
    · rename_i o' ho
      obtain rfl : o' = o := by simpa using h
      exact ⟨List.mem_append_right _ (canRoll_of_rollExplicit ho).1,(canRoll_of_rollExplicit ho).2⟩
    · split at h
      · rename_i o' ho
        split_ifs at h with hc
        obtain rfl : o' = o := by simpa using h
        exact ⟨List.mem_append_left _ (List.mem_of_getElem? ho),hc⟩
      · simp at h
  refine ⟨List.mem_map_of_mem hc.1,?_⟩
  simpa [canRoll] using hc.2

/-- How one object of the group is spawned. It is marked as active, and empty if a pool. -/
def Brings (mgr : PoolMgr) (k : Kind) (p : Nat) (spawn1 : Nat → World → World) : Prop :=
  ∀ g ∈ (mgr.group k p).guids, ∀ w : World, Good mgr (mgr.depth p) w →
    w.spawns.isActiveObject k g = true → (k = .pool → activeOwn mgr w.spawns g = ∅) →
    Fills mgr (mgr.depth p) w (spawn1 g w)

theorem Shrinks.fills (h : Shrinks mgr n w w') (hg : Good mgr n w) : Fills mgr n w w' where
  good := ⟨h.accounted,fun q hq => (Finset.card_le_card (h.sub q)).trans (hg.limited q hq),
    h.save ▸ hg.saved⟩
  frame := h.frame

theorem activate_spawn1 (hs : Brings mgr k p spawn1) (h : Good mgr (mgr.depth p) w)
    (ho : Open mgr w.spawns p) (hg : g ∈ (mgr.group k p).guids)
    (hn : w.spawns.isActiveObject k g = false) :
    Good mgr (mgr.depth p) (spawn1 g (w.activate k g p)) ∧
    activeOwn mgr (spawn1 g (w.activate k g p)).spawns p =
      insert (k,g) (activeOwn mgr w.spawns p) ∧
    ∀ q, q ≠ p → mgr.depth p ≤ mgr.depth q →
      activeOwn mgr (spawn1 g (w.activate k g p)).spawns q = activeOwn mgr w.spawns q := by
  have hact := activeOwn_activateObject hg ho
  have hgood : Good mgr (mgr.depth p) (w.activate k g p) := by
    refine ⟨accounted_activateObject h.accounted hg ho hn,fun q hq => ?_,h.saved⟩
    have hqp : q ≠ p := by rintro rfl; omega
    rw [World.activate,hact q,if_neg hqp]
    exact h.limited q hq
  have hempty : k = .pool → activeOwn mgr (w.activate k g p).spawns g = ∅ := by
    rintro rfl
    rw [World.activate,hact g,if_neg (mgr.child_ne hg rfl)]
    exact activeOwn_of_inactive h.accounted hn
  have hflag : (w.activate k g p).spawns.isActiveObject k g = true :=
    (ActivePoolData.isActive_activateObject k g (mgr.child_ne hg)).mpr (.inr (.inl ⟨rfl,rfl⟩))
  have hf := hs g hg _ hgood hflag hempty
  refine ⟨hf.good,?_,fun q hqp hq => ?_⟩
  · rw [hf.frame p le_rfl,World.activate,hact p,if_pos rfl]
  · rw [hf.frame q hq,World.activate,hact q,if_neg hqp]

theorem fills_of_own (hw : Good mgr (mgr.depth p+1) w) (h : Good mgr (mgr.depth p) w')
    (hsub : ∀ q, q ≠ p → mgr.depth p ≤ mgr.depth q →
      activeOwn mgr w'.spawns q ⊆ activeOwn mgr w.spawns q)
    (hf : ∀ q, mgr.depth p+1 ≤ mgr.depth q →
      activeOwn mgr w'.spawns q = activeOwn mgr w.spawns q)
    (hc : (activeOwn mgr w'.spawns p).card ≤ mgr.maxLimit p) : Fills mgr (mgr.depth p+1) w w' := by
  refine ⟨⟨h.accounted,fun q hq => ?_,h.saved⟩,hf⟩
  by_cases hqp : q = p
  · rw [hqp]
    exact hc
  · by_cases hlt : mgr.depth q < mgr.depth p
    · exact h.limited q hlt
    · exact (Finset.card_le_card (hsub q hqp (by omega))).trans (hw.limited q hq)

/-- What the loop relies on: an object that triggers it is active, and the rounds to come
do not exceed the limit, one more round being there for the object that is swapped. -/
structure Rounds (mgr : PoolMgr) (k : Kind) (p n t : Nat) (w : World) : Prop where
  good : Good mgr (mgr.depth p+1) w
  opened : Open mgr w.spawns p
  room : (activeOwn mgr w.spawns p).card+n ≤ mgr.maxLimit p+(if t = 0 then 0 else 1)
  trigger : t ≠ 0 → (k,t) ∈ activeOwn mgr w.spawns p

theorem Fills.of_rolled (h : Fills mgr n w.rolled w') : Fills mgr n w w' := ⟨h.good,h.frame⟩

theorem Rounds.skip {t : Nat} (h : Rounds mgr k p (n+1) t w) : Rounds mgr k p n t w.rolled :=
  ⟨⟨h.good.accounted,h.good.limited,h.good.saved⟩,h.opened,
    (Nat.le_succ (_+n)).trans h.room,h.trigger⟩

theorem Rounds.respawn {t : Nat} (h : Rounds mgr k p (n+1) t w) : Rounds mgr k p n 0 w.rolled := by
  refine ⟨⟨h.good.accounted,h.good.limited,h.good.saved⟩,h.opened,?_,fun h0 => absurd rfl h0⟩
  have hr := h.room
  change (activeOwn mgr w.spawns p).card+n ≤ _
  split_ifs at hr ⊢ <;> omega

theorem Rounds.spawn (hs : Brings mgr k p spawn1) (h : Rounds mgr k p (n+1) 0 w)
    (hg : g ∈ (mgr.group k p).guids) (hn : w.spawns.isActiveObject k g = false) :
    Fills mgr (mgr.depth p+1) w (spawn1 g (w.rolled.activate k g p)) ∧
    Rounds mgr k p n 0 (spawn1 g (w.rolled.activate k g p)) := by
  obtain ⟨h1,h2,h3⟩ := activate_spawn1 (w := w.rolled) hs
    (⟨h.good.accounted,fun q hq => h.good.limited q (by omega),h.good.saved⟩) h.opened hg hn
  have hc : (activeOwn mgr (spawn1 g (w.rolled.activate k g p)).spawns p).card =
      (activeOwn mgr w.spawns p).card+1 := by
    rw [h2,World.rolled_spawns,Finset.card_insert_of_notMem (by simp [hn])]
  have hr := h.room
  simp only [if_true] at hr
  have hf : Fills mgr (mgr.depth p+1) w (spawn1 g (w.rolled.activate k g p)) := by
    refine fills_of_own h.good h1 (fun q hqp hq => (h3 q hqp hq).subset) (fun q hq => ?_) (by omega)
    exact h3 q (by rintro rfl; omega) (by omega)
  exact ⟨hf,hf.good,h.opened.frame le_rfl hf.frame,by simp only [if_true]; omega,
    fun h0 => absurd rfl h0⟩

theorem Rounds.swap {t : Nat} (hd : Clears mgr k p despawn1) (hs : Brings mgr k p spawn1)
    (ht : t ≠ 0) (h : Rounds mgr k p (n+1) t w)
    (hg : g ∈ (mgr.group k p).guids) (hn : w.spawns.isActiveObject k g = false) :
    Fills mgr (mgr.depth p+1) w
      (despawnObject mgr despawn1 k p t (spawn1 g (w.rolled.activate k g p))) ∧
    Rounds mgr k p n 0
      (despawnObject mgr despawn1 k p t (spawn1 g (w.rolled.activate k g p))) := by
  obtain ⟨h1,h2,h3⟩ := activate_spawn1 (w := w.rolled) hs
    (⟨h.good.accounted,fun q hq => h.good.limited q (by omega),h.good.saved⟩) h.opened hg hn
  obtain ⟨hsh,hp⟩ := despawnObject_spec hd h1.accounted t
  set w2 := spawn1 g (w.rolled.activate k g p)
  set w3 := despawnObject mgr despawn1 k p t w2
  have hmem := h.trigger ht
  have he : activeOwn mgr w3.spawns p = (activeOwn mgr w2.spawns p).erase (k,t) := by
    rw [hp]
    ext ⟨k',g'⟩
    simp only [Finset.mem_filter,Finset.mem_erase,ne_eq,Prod.mk.injEq,ht,false_or]
    exact and_comm
  have hc : (activeOwn mgr w3.spawns p).card = (activeOwn mgr w.spawns p).card := by
    rw [he,h2,World.rolled_spawns,Finset.card_erase_of_mem (Finset.mem_insert_of_mem hmem),
      Finset.card_insert_of_notMem (by simp [hn]),Nat.add_sub_cancel]
  have hr := h.room
  rw [if_neg ht] at hr
  have hlim := h.good.limited p (Nat.lt_succ_self _)
  have hg3 : Good mgr (mgr.depth p) w3 :=
    ⟨hsh.accounted,fun q hq => (Finset.card_le_card (hsh.sub q)).trans (h1.limited q hq),
      hsh.save ▸ h1.saved⟩
  have hf : Fills mgr (mgr.depth p+1) w w3 := by
    refine fills_of_own h.good hg3 (fun q hqp hq => ?_) (fun q hq => ?_) (by omega)
    · exact (hsh.sub q).trans (h3 q hqp hq).subset
    · exact (hsh.frame q hq).trans (h3 q (by rintro rfl; omega) (by omega))
  exact ⟨hf,hf.good,h.opened.frame le_rfl hf.frame,by simp only [if_true]; omega,
    fun h0 => absurd rfl h0⟩

theorem spawnLoop_spec (hd : Clears mgr k p despawn1) (hs : Brings mgr k p spawn1)
    (t last : Nat) (h : Rounds mgr k p n t w) :
    Fills mgr (mgr.depth p+1) w (spawnLoop mgr despawn1 spawn1 k p n t last w) := by
  induction n generalizing t last w with
  | zero => exact Fills.refl h.good
  | succ n ih =>
    simp only [spawnLoop]
    split
    · exact (ih t last h.skip).of_rolled
    · rename_i o ho
      obtain ⟨hg,hn⟩ := rollOne_spec ho
      split_ifs with hlast htr ht
      · exact (ih t last h.skip).of_rolled
      · exact (ih 0 last h.respawn).of_rolled
      · obtain ⟨hf,hr⟩ := Rounds.swap hd hs ht h hg (hn.resolve_left htr)
        exact hf.trans (ih 0 t hr)
      · obtain rfl : t = 0 := by simpa using ht
        obtain ⟨hf,hr⟩ := Rounds.spawn hs h hg (hn.resolve_left htr)
        exact hf.trans (ih 0 last hr)

theorem spawnCount_le {limit active : Nat} (h : active ≤ limit) (t : Nat) :
    active+spawnCount limit active t ≤ limit+(if t = 0 then 0 else 1) := by
  have hb : Int.bmod ((limit : Int)-active) (2^32) ≤ (limit : Int)-active := by
    rw [Int.bmod_def]
    split_ifs <;> omega
  unfold spawnCount
  split_ifs <;> omega

end TrinityCore.Pools
