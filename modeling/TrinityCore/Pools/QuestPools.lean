import TrinityCore.Pools.Accounting

set_option autoImplicit false

/-!
Quest pools. `SpawnObject` of a quest group does not ask how many objects of the pool are
active and recycles from the active quests of all pools, so it keeps the accounts only of a
pool that is ready for it.
-/

namespace TrinityCore.Pools

variable {mgr : PoolMgr} {d : ActivePoolData} {w w' w'' : World} {p q n : Nat}

/-- A pool of quests only, with room for one. -/
def PoolMgr.Apart (mgr : PoolMgr) (p : Nat) : Prop :=
  (∀ k, k ≠ .quest → (mgr.group k p).guids = []) ∧ 1 ≤ mgr.maxLimit p

/-- Either the saved rows are loaded and no quest of the pool is active yet, or quests are
chosen and there is no need to recycle, or nothing to recycle but quests of the pool. -/
def Ready (mgr : PoolMgr) (w : World) (p triggerFrom : Nat) : Prop :=
  mgr.Apart p ∧
  if triggerFrom = 0 ∧ w.questSave p ≠ [] then
    ∀ q ∈ (mgr.group .quest p).guids, w.spawns.isActiveObject .quest q = false
  else mgr.maxLimit p ≤ (newQuests mgr p w.spawns).card ∨
    ∀ q ∈ w.spawns.activeQuests, q ∈ (mgr.group .quest p).guids

structure Turns (mgr : PoolMgr) (p : Nat) (w w' : World) : Prop where
  accounted : Accounted mgr w'.spawns
  sub : ∀ r, r ≠ p → activeOwn mgr w'.spawns r ⊆ activeOwn mgr w.spawns r
  frame : ∀ r, mgr.depth p+1 ≤ mgr.depth r →
    activeOwn mgr w'.spawns r = activeOwn mgr w.spawns r
  limited : (activeOwn mgr w'.spawns p).card ≤ mgr.maxLimit p
  saved : SavedOwn mgr w'.questSave

theorem Turns.of_others (ha : Accounted mgr w'.spawns)
    (hr : ∀ r, r ≠ p → activeOwn mgr w'.spawns r = activeOwn mgr w.spawns r)
    (hl : (activeOwn mgr w'.spawns p).card ≤ mgr.maxLimit p) (hs : SavedOwn mgr w'.questSave) :
    Turns mgr p w w' :=
  ⟨ha,fun r hrp => (hr r hrp).subset,fun r hd => hr r (by rintro rfl; omega),hl,hs⟩

theorem Turns.after (h : Turns mgr p w' w'')
    (hsub : ∀ r, r ≠ p → activeOwn mgr w'.spawns r ⊆ activeOwn mgr w.spawns r)
    (hf : ∀ r, mgr.depth p+1 ≤ mgr.depth r →
      activeOwn mgr w'.spawns r = activeOwn mgr w.spawns r) : Turns mgr p w w'' :=
  ⟨h.accounted,fun r hr => (h.sub r hr).trans (hsub r hr),
    fun r hr => (h.frame r hr).trans (hf r hr),h.limited,h.saved⟩

theorem Turns.fills (h : Turns mgr p w w') (hw : Good mgr (mgr.depth p+1) w) :
    Fills mgr (mgr.depth p+1) w w' := by
  refine fills_of_own hw ⟨h.accounted,fun r hr => ?_,h.saved⟩ (fun r hrp _ => h.sub r hrp)
    h.frame h.limited
  exact (Finset.card_le_card (h.sub r (by rintro rfl; omega))).trans (hw.limited r (by omega))

theorem decrement_eq {limit : Nat} (h : 1 ≤ limit) (hl : limit < 2^32) :
    decrement limit = limit-1 := by
  unfold decrement
  omega

theorem selectRandomContainerElement_mem {c : Finset Nat} (hc : c ≠ ∅) (i : Nat) :
    selectRandomContainerElement c i ∈ c := by
  have hlt : i % c.card < (OrderedSet.elems c).length := by
    rw [OrderedSet.length_elems]
    exact Nat.mod_lt _ (Finset.card_pos.mpr (Finset.nonempty_iff_ne_empty.mpr hc))
  rw [selectRandomContainerElement,List.getD_eq_getElem?_getD,List.getElem?_eq_getElem hlt]
  exact OrderedSet.mem_elems.mp (List.getElem_mem hlt)

theorem activateQuest_spec (h : Accounted mgr w.spawns) (ho : Open mgr w.spawns p)
    (hq : q ∈ (mgr.group .quest p).guids) (hn : w.spawns.isActiveObject .quest q = false) :
    Accounted mgr (activateQuest mgr p q w).spawns ∧
    Open mgr (activateQuest mgr p q w).spawns p ∧
    (∀ r, r ≠ p → activeOwn mgr (activateQuest mgr p q w).spawns r = activeOwn mgr w.spawns r) ∧
    (activeOwn mgr (activateQuest mgr p q w).spawns p).card = (activeOwn mgr w.spawns p).card+1 ∧
    ∀ q', q' ≠ q → (activateQuest mgr p q w).spawns.isActiveObject .quest q' =
      w.spawns.isActiveObject .quest q' := by
  have hact := activeOwn_activateObject hq ho
  have hflag := fun k' g' => w.spawns.isActive_activateObject (p := p) k' g' (mgr.child_ne hq)
  refine ⟨accounted_activateObject h hq ho hn,fun r hr => (hflag _ _).mpr (.inl (ho r hr)),
    fun r hr => (hact r).trans (if_neg hr),?_,fun q' hq' => ?_⟩
  · have hp := (hact p).trans (if_pos rfl)
    change (activeOwn mgr (w.spawns.activateObject .quest q p) p).card = _
    rw [hp,Finset.card_insert_of_notMem (by simp [hn])]
  · rw [Bool.eq_iff_iff]
    exact (hflag .quest q').trans ⟨by rintro (h | ⟨-,h⟩ | ⟨h,-⟩); exacts [h,absurd h hq',nomatch h],.inl⟩

theorem loadQuests_spec {rows : List Nat} {limit : Nat} (hrows : rows.Nodup)
    (hown : ∀ q ∈ rows, q ∈ (mgr.group .quest p).guids)
    (hin : ∀ q ∈ rows, w.spawns.isActiveObject .quest q = false)
    (hl : 1 ≤ limit) (h : Accounted mgr w.spawns) (ho : Open mgr w.spawns p)
    (hs : SavedOwn mgr w.questSave)
    (hc : (activeOwn mgr w.spawns p).card+limit ≤ mgr.maxLimit p) :
    Turns mgr p w (loadQuests mgr p rows limit w) := by
  induction rows generalizing limit w with
  | nil => exact .of_others h (fun _ _ => rfl) (by simp only [loadQuests]; omega) hs
  | cons q rows ih =>
    have hlt := mgr.limit_lt p
    obtain ⟨h1,h2,h3,h4,h5⟩ := activateQuest_spec h ho (hown q (by simp)) (hin q (by simp))
    rw [List.nodup_cons] at hrows
    simp only [loadQuests]
    rw [decrement_eq hl (by omega)]
    split_ifs with h0
    · exact .of_others h1 h3 (by omega) hs
    · have hin' : ∀ q' ∈ rows, (activateQuest mgr p q w).spawns.isActiveObject .quest q' = false := by
        intro q' hq'
        rw [h5 q' (by rintro rfl; exact hrows.1 hq')]
        exact hin q' (by simp [hq'])
      exact (ih hrows.2 (fun q' hq' => hown q' (by simp [hq'])) hin'
        (by omega) h1 h2 hs (by omega)).after (fun r hr => (h3 r hr).subset)
        (fun r hr => h3 r (by rintro rfl; omega))

theorem activateQuests_spec {limit : Nat} {new : Finset Nat} (hne : new ≠ ∅)
    (hown : ∀ q ∈ new, q ∈ (mgr.group .quest p).guids)
    (hin : ∀ q ∈ new, w.spawns.isActiveObject .quest q = false)
    (hl : 1 ≤ limit) (h : Accounted mgr w.spawns) (ho : Open mgr w.spawns p)
    (hs : SavedOwn mgr w.questSave)
    (hc : (activeOwn mgr w.spawns p).card+limit ≤ mgr.maxLimit p) :
    Turns mgr p w (activateQuests mgr p n limit new w) := by
  induction n generalizing limit new w with
  | zero => exact .of_others h (fun _ _ => rfl) (by simp only [activateQuests]; omega) hs
  | succ n ih =>
    have hlt := mgr.limit_lt p
    have hq := selectRandomContainerElement_mem hne w.roll.index
    set q := selectRandomContainerElement new w.roll.index with hqdef
    obtain ⟨h1,h2,h3,h4,h5⟩ := activateQuest_spec (w := w.rolled) h ho (hown q hq) (hin q hq)
    rw [World.rolled_spawns] at h4
    simp only [activateQuests]
    rw [decrement_eq hl (by omega),← hqdef]
    split_ifs with h0
    · have hin' : ∀ q' ∈ new.erase q,
          (activateQuest mgr p q w.rolled).spawns.isActiveObject .quest q' = false := by
        intro q' hq'
        rw [h5 q' (Finset.ne_of_mem_erase hq')]
        exact hin q' (Finset.mem_of_mem_erase hq')
      exact (ih h0.2 (fun q' hq' => hown q' (Finset.mem_of_mem_erase hq')) hin'
        (by omega) h1 h2 hs (by omega)).after (fun r hr => (h3 r hr).subset)
        (fun r hr => h3 r (by rintro rfl; omega))
    · exact .of_others h1 h3 (by omega) hs

/-- Recycling takes from the given quests and changes nothing but the random numbers. -/
theorem recycleQuests_spec (limit : Nat) (new : Finset Nat) {cur : Finset Nat} (hne : cur ≠ ∅) :
    (∀ q ∈ (recycleQuests limit n new cur w).1, q ∈ new ∨ q ∈ cur) ∧
    (recycleQuests limit n new cur w).2.spawns = w.spawns ∧
    (recycleQuests limit n new cur w).2.questSave = w.questSave := by
  induction n generalizing new cur w with
  | zero => exact ⟨fun q hq => .inl hq,rfl,rfl⟩
  | succ n ih =>
    have hq := selectRandomContainerElement_mem hne w.roll.index
    simp only [recycleQuests]
    split_ifs with h0
    · obtain ⟨h1,h2,h3⟩ := ih (w := w.rolled)
        (insert (selectRandomContainerElement cur w.roll.index) new) h0.2
      refine ⟨fun q' hq' => ?_,h2,h3⟩
      rcases h1 q' hq' with h | h
      · rcases Finset.mem_insert.mp h with rfl | h
        · exact .inr hq
        · exact .inl h
      · exact .inr (Finset.mem_of_mem_erase h)
    · refine ⟨fun q' hq' => ?_,rfl,rfl⟩
      rcases Finset.mem_insert.mp hq' with rfl | h
      · exact .inr hq
      · exact .inl h

theorem savedOwn_saveQuestsToDB : SavedOwn mgr (saveQuestsToDB mgr w).questSave := by
  intro p hp
  simp only [saveQuestsToDB,hp,Bool.false_eq_true,if_false]
  refine ⟨(List.nodup_dedup _).filter _,fun q hq => ?_⟩
  exact List.mem_dedup.mp (List.mem_of_mem_filter hq)

theorem newQuests_own (hq : q ∈ newQuests mgr p d) : q ∈ (mgr.group .quest p).guids := by
  simp only [newQuests,Finset.mem_sdiff,List.mem_toFinset] at hq
  rw [PoolGroup.guids,List.map_append]
  exact List.mem_append_left _ hq.1

theorem candidates_own {limit : Nat} (hl : limit ≤ (newQuests mgr p d).card ∨
      ∀ q ∈ d.activeQuests, q ∈ (mgr.group .quest p).guids) (w : World) :
    let r := if limit > (newQuests mgr p d).card ∧ d.activeQuests ≠ ∅ then
        recycleQuests limit n (newQuests mgr p d) d.activeQuests w
      else (newQuests mgr p d,w)
    (∀ q ∈ r.1, q ∈ (mgr.group .quest p).guids) ∧ r.2.spawns = w.spawns ∧
      r.2.questSave = w.questSave := by
  intro r
  by_cases hc : limit > (newQuests mgr p d).card ∧ d.activeQuests ≠ ∅
  · obtain ⟨h1,h2,h3⟩ := recycleQuests_spec (w := w) (n := n) limit (newQuests mgr p d) hc.2
    have hr : r = recycleQuests limit n (newQuests mgr p d) d.activeQuests w := if_pos hc
    rw [hr]
    refine ⟨fun q hq => ?_,h2,h3⟩
    rcases h1 q hq with h | h
    · exact newQuests_own h
    · exact hl.resolve_left (by omega) q h
  · have hr : r = (newQuests mgr p d,w) := if_neg hc
    rw [hr]
    exact ⟨fun q hq => newQuests_own hq,rfl,rfl⟩

theorem chooseQuests_spec (hap : mgr.Apart p) (h : Accounted mgr w.spawns)
    (ho : Open mgr w.spawns p) (hs : SavedOwn mgr w.questSave) (triggerFrom : Nat)
    (hl : mgr.maxLimit p ≤ (newQuests mgr p w.spawns).card ∨
      ∀ q ∈ w.spawns.activeQuests, q ∈ (mgr.group .quest p).guids) :
    Turns mgr p w (chooseQuests mgr p triggerFrom w) := by
  obtain ⟨hsh,hp⟩ := despawnObject_spec (clears_despawnQuest1 (p := p)) h 0
  set w1 := despawnObject mgr (despawnQuest1 mgr) .quest p 0 w with hw1
  have hempty : activeOwn mgr w1.spawns p = ∅ := by
    rw [hp]
    ext ⟨k,g⟩
    by_cases hk : k = .quest
    · simp [hk]
    · simp [hap.1 k hk]
  have hin : ∀ q ∈ (mgr.group .quest p).guids, w1.spawns.isActiveObject .quest q = false := by
    intro q hq
    refine Bool.eq_false_iff.mpr (fun ha => ?_)
    have hm := mem_activeOwn.mpr ⟨hq,ha⟩
    simp [hempty] at hm
  have ho1 : Open mgr w1.spawns p := ho.frame le_rfl hsh.frame
  obtain ⟨hc1,hc2,hc3⟩ := candidates_own (n := w.spawns.activeQuests.card) hl w1
  unfold chooseQuests
  simp only [← hw1]
  set r := if mgr.maxLimit p > (newQuests mgr p w.spawns).card ∧ w.spawns.activeQuests ≠ ∅ then
      recycleQuests (mgr.maxLimit p) w.spawns.activeQuests.card (newQuests mgr p w.spawns)
        w.spawns.activeQuests w1
    else (newQuests mgr p w.spawns,w1)
  have hs2 : SavedOwn mgr r.2.questSave := by rw [hc3,hsh.save]; exact hs
  have hsub : ∀ q, q ≠ p → activeOwn mgr r.2.spawns q ⊆ activeOwn mgr w.spawns q :=
    fun q _ => by rw [hc2]; exact hsh.sub q
  have hfr : ∀ q, mgr.depth p+1 ≤ mgr.depth q →
      activeOwn mgr r.2.spawns q = activeOwn mgr w.spawns q :=
    fun q hq => by rw [hc2]; exact hsh.frame q hq
  split_ifs with hne htr
  · exact ⟨by rw [hc2]; exact hsh.accounted,hsub,hfr,by rw [hc2,hempty]; simp,hs2⟩
  all_goals
    have ht : Turns mgr p r.2 (activateQuests mgr p r.1.card (mgr.maxLimit p) r.1 r.2) :=
      activateQuests_spec hne hc1 (fun q hq => by rw [hc2]; exact hin q (hc1 q hq)) hap.2
        (by rw [hc2]; exact hsh.accounted) (by rw [hc2]; exact ho1) hs2
        (by rw [hc2,hempty]; simp)
  · exact (Turns.after ⟨ht.accounted,ht.sub,ht.frame,ht.limited,savedOwn_saveQuestsToDB⟩ hsub hfr)
  · exact ht.after hsub hfr

theorem spawnQuests_spec {triggerFrom : Nat} (hr : Ready mgr w p triggerFrom)
    (hq : (mgr.group .quest p).isEmpty = false) (h : Accounted mgr w.spawns)
    (ho : Open mgr w.spawns p) (hs : SavedOwn mgr w.questSave) :
    Turns mgr p w (spawnQuests mgr p triggerFrom w) := by
  obtain ⟨hap,hr⟩ := hr
  unfold spawnQuests
  split_ifs at hr ⊢ with hc
  · obtain ⟨hnd,hown⟩ := hs p hq
    have hempty : activeOwn mgr w.spawns p = ∅ := by
      ext ⟨k,g⟩
      by_cases hk : k = .quest
      · subst hk
        simpa using hr g
      · simp [hap.1 k hk]
    exact loadQuests_spec hnd hown (fun q hq => hr q (hown q hq)) hap.2 h ho hs
      (by simp [hempty])
  · exact chooseQuests_spec hap h ho hs triggerFrom hr

end TrinityCore.Pools
