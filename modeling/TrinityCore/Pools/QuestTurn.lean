import TrinityCore.Pools.Runs

set_option autoImplicit false

namespace TrinityCore.Pools

inductive Giver where
  | creature
  | gameobject

def PoolMgr.givers (mgr : PoolMgr) : Giver → Nat → List Nat
  | .creature => mgr.questCreature
  | .gameobject => mgr.questGO

def World.quests (w : World) : Giver → List (Nat × Nat)
  | .creature => w.creatureQuests
  | .gameobject => w.gameobjectQuests

variable {mgr : PoolMgr} {w : World} {p q : Nat} {g : Giver} {c : Nat}

section Relations

theorem count_pairs (cs : List Nat) (q q' c : Nat) :
    (cs.map (·,q)).count (c,q') = if q' = q then cs.count c else 0 := by
  induction cs with
  | nil => simp
  | cons a cs ih =>
    rw [List.map_cons,List.count_cons,ih,List.count_cons]
    by_cases hq : q' = q
    · simp [hq]
    · simp [hq,Ne.symm hq]

theorem count_eraseAll (cs : List Nat) (q q' c : Nat) (l : List (Nat × Nat)) :
    (cs.foldl (fun l c => l.erase (c,q)) l).count (c,q') =
      l.count (c,q')-if q' = q then cs.count c else 0 := by
  induction cs generalizing l with
  | nil => simp
  | cons a cs ih =>
    rw [List.foldl_cons,ih,List.count_erase,List.count_cons]
    by_cases hq : q' = q
    · by_cases ha : a = c
      · simp [hq,ha]
        omega
      · simp [hq,ha]
    · simp [hq,Ne.symm hq]

theorem count_spawnQuest1 (q q' : Nat) : ((spawnQuest1 mgr q w).quests g).count (c,q') =
    (w.quests g).count (c,q')+if q' = q then (mgr.givers g q).count c else 0 := by
  rw [← count_pairs,← List.count_append]
  cases g <;> rfl

theorem count_despawnQuest1 (q q' : Nat) : ((despawnQuest1 mgr q w).quests g).count (c,q') =
    (w.quests g).count (c,q')-if q' = q then (mgr.givers g q).count c else 0 := by
  rw [← count_eraseAll]
  cases g <;> rfl

end Relations

section Despawn

/-- After some of the quests are despawned they are inactive, and those that were active are listed
once less by each starter. -/
theorem despawnList_quests (mgr : PoolMgr) (w : World) (p : Nat) (l : List Nat) :
    let w' := l.foldl (despawnOne (despawnQuest1 mgr) .quest p 0) w
    (∀ q, w'.spawns.isActiveObject .quest q ↔ w.spawns.isActiveObject .quest q ∧ q ∉ l) ∧
    (∀ g c q, (w'.quests g).count (c,q) = (w.quests g).count (c,q)-
      if q ∈ l ∧ w.spawns.isActiveObject .quest q then (mgr.givers g q).count c else 0) ∧
    w'.rolls = w.rolls := by
  induction l generalizing w with
  | nil => simp
  | cons a l ih =>
    rw [List.foldl_cons]
    obtain ⟨hactive,hcount,hrolls⟩ := ih (despawnOne (despawnQuest1 mgr) .quest p 0 w a)
    by_cases ha : w.spawns.isActiveObject .quest a
    · have hone : despawnOne (despawnQuest1 mgr) .quest p 0 w a =
          (despawnQuest1 mgr a w).remove .quest a p := if_pos ⟨ha,.inl rfl⟩
      have hflag : ∀ q, (despawnOne (despawnQuest1 mgr) .quest p 0 w a).spawns.isActiveObject .quest q ↔
          w.spawns.isActiveObject .quest q ∧ q ≠ a := by
        intro q
        rw [hone]
        simp [World.remove,despawnQuest1,ActivePoolData.removeObject,ActivePoolData.changeCount,
          ActivePoolData.unmark,ActivePoolData.isActiveObject,and_comm]
      have hlisted : ∀ g c q, ((despawnOne (despawnQuest1 mgr) .quest p 0 w a).quests g).count (c,q) =
          (w.quests g).count (c,q)-if q = a then (mgr.givers g a).count c else 0 := by
        intro g c q
        rw [hone,← count_despawnQuest1]
        cases g <;> rfl
      refine ⟨fun q => ?_,fun g c q => ?_,?_⟩
      · rw [hactive,hflag,List.mem_cons]
        tauto
      · rw [hcount,hlisted]
        by_cases hq : q = a
        · subst hq
          simp [hflag,ha]
        · simp only [hflag,hq,ne_eq,not_false_eq_true,and_true,if_false,Nat.sub_zero,List.mem_cons,
            false_or]
      · rw [hrolls,hone]
        rfl
    · have hone : despawnOne (despawnQuest1 mgr) .quest p 0 w a = w := if_neg fun h => ha h.1
      rw [hone] at hactive hcount hrolls ⊢
      refine ⟨fun q => ?_,fun g c q => ?_,hrolls⟩
      · rw [hactive,List.mem_cons]
        refine and_congr_right fun hq => ?_
        have hne : q ≠ a := fun h => ha (h ▸ hq)
        simp [hne]
      · rw [hcount]
        by_cases hq : q = a
        · simp [hq,ha]
        · simp [hq]

end Despawn

section Activate

theorem activateList_quests (mgr : PoolMgr) (w : World) (p : Nat) (cs : List Nat) :
    let w' := cs.foldl (fun w q => activateQuest mgr p q w) w
    (∀ q, w'.spawns.isActiveObject .quest q ↔ w.spawns.isActiveObject .quest q ∨ q ∈ cs) ∧
    ∀ g c q, (w'.quests g).count (c,q) = (w.quests g).count (c,q)+cs.count q*(mgr.givers g q).count c := by
  induction cs generalizing w with
  | nil => simp
  | cons a cs ih =>
    rw [List.foldl_cons]
    obtain ⟨hactive,hcount⟩ := ih (activateQuest mgr p a w)
    have hflag : ∀ q, (activateQuest mgr p a w).spawns.isActiveObject .quest q ↔
        w.spawns.isActiveObject .quest q ∨ q = a := by
      intro q
      simp [activateQuest,spawnQuest1,World.activate,ActivePoolData.activateObject,
        ActivePoolData.changeCount,ActivePoolData.mark,ActivePoolData.isActiveObject,or_comm]
    have hlisted : ∀ g c q, ((activateQuest mgr p a w).quests g).count (c,q) =
        (w.quests g).count (c,q)+if q = a then (mgr.givers g a).count c else 0 := by
      intro g c q
      rw [activateQuest,count_spawnQuest1]
      cases g <;> rfl
    refine ⟨fun q => ?_,fun g c q => ?_⟩
    · rw [hactive,hflag,List.mem_cons,or_assoc]
    · rw [hcount,hlisted,List.count_cons]
      by_cases hq : q = a
      · simp only [hq,if_true,beq_self_eq_true]
        ring
      · simp [hq,Ne.symm hq]

def choices : Nat → Nat → Finset Nat → List Roll → List Nat
  | 0, _, _, _ => []
  | n+1, limit, newQuests, rolls =>
    let quest := selectRandomContainerElement newQuests (rolls.headD ⟨0,0⟩).index
    quest :: if decrement limit ≠ 0 ∧ newQuests.erase quest ≠ ∅ then
      choices n (decrement limit) (newQuests.erase quest) rolls.tail
    else []

def loaded : List Nat → Nat → List Nat
  | [], _ => []
  | quest :: rows, limit =>
    quest :: if decrement limit = 0 then [] else loaded rows (decrement limit)

theorem loadQuests_eq (mgr : PoolMgr) (p : Nat) (rows : List Nat) (limit : Nat) (w : World) :
    loadQuests mgr p rows limit w =
      (loaded rows limit).foldl (fun w q => activateQuest mgr p q w) w := by
  induction rows generalizing limit w with
  | nil => rfl
  | cons quest rows ih =>
    unfold loadQuests loaded
    dsimp only
    split_ifs
    · rfl
    · exact ih (decrement limit) (activateQuest mgr p quest w)

theorem loaded_sublist (rows : List Nat) (limit : Nat) : (loaded rows limit).Sublist rows := by
  induction rows generalizing limit with
  | nil => exact .slnil
  | cons quest rows ih =>
    unfold loaded
    split_ifs
    · exact (List.nil_sublist rows).cons_cons quest
    · exact (ih (decrement limit)).cons_cons quest

theorem length_loaded_le {rows : List Nat} {limit : Nat} (hl : 1 ≤ limit) (hlt : limit < 2^32) :
    (loaded rows limit).length ≤ limit := by
  induction rows generalizing limit with
  | nil => exact Nat.zero_le limit
  | cons quest rows ih =>
    unfold loaded
    rw [decrement_eq hl hlt]
    split_ifs with hlast
    · exact hl
    · have hle : (loaded rows (limit-1)).length ≤ limit-1 := ih (by omega) (by omega)
      rw [List.length_cons]
      omega

theorem activateQuests_eq (mgr : PoolMgr) (p n limit : Nat) (newQuests : Finset Nat) (w : World) :
    ∃ rolls, activateQuests mgr p n limit newQuests w =
      (choices n limit newQuests w.rolls).foldl (fun w q => activateQuest mgr p q w)
        { w with rolls := rolls } := by
  induction n generalizing limit newQuests w with
  | zero => exact ⟨w.rolls,rfl⟩
  | succ n ih =>
    have hroll : w.rolls.headD ⟨0,0⟩ = w.roll := rfl
    unfold activateQuests choices
    rw [hroll]
    dsimp only
    split_ifs with hmore
    · obtain ⟨rolls,hrolls⟩ := ih (decrement limit)
        (newQuests.erase (selectRandomContainerElement newQuests w.roll.index))
        (activateQuest mgr p (selectRandomContainerElement newQuests w.roll.index) w.rolled)
      exact ⟨rolls,hrolls⟩
    · exact ⟨w.rolls.tail,rfl⟩

theorem mem_choices {n limit : Nat} {newQuests : Finset Nat} {rolls : List Roll}
    (hcard : newQuests.card = n) (h : q ∈ choices n limit newQuests rolls) : q ∈ newQuests := by
  induction n generalizing limit newQuests rolls with
  | zero => cases h
  | succ n ih =>
    have hne : newQuests ≠ ∅ := by
      rintro rfl
      simp at hcard
    have hquest := selectRandomContainerElement_mem hne (rolls.headD ⟨0,0⟩).index
    rcases List.mem_cons.mp h with rfl | h
    · exact hquest
    · split_ifs at h
      · refine Finset.mem_of_mem_erase (ih ?_ h)
        rw [Finset.card_erase_of_mem hquest,hcard,Nat.add_sub_cancel]
      · cases h

theorem choices_spec {n limit : Nat} {newQuests : Finset Nat} (hcard : newQuests.card = n)
    (hl : 1 ≤ limit) (hlt : limit < 2^32) (rolls : List Roll) :
    (choices n limit newQuests rolls).Nodup ∧
      (choices n limit newQuests rolls).length = min limit n := by
  induction n generalizing limit newQuests rolls with
  | zero => simp [choices]
  | succ n ih =>
    have hne : newQuests ≠ ∅ := by
      rintro rfl
      simp at hcard
    have hquest := selectRandomContainerElement_mem hne (rolls.headD ⟨0,0⟩).index
    have herase := Finset.card_erase_of_mem hquest
    rw [hcard,Nat.add_sub_cancel] at herase
    unfold choices
    dsimp only
    rw [decrement_eq hl hlt]
    split_ifs with hmore
    · have hleft : 1 ≤ limit-1 := by omega
      obtain ⟨hnodup,hlength⟩ := ih herase hleft (by omega) rolls.tail
      refine ⟨List.nodup_cons.mpr ⟨fun h => ?_,hnodup⟩,?_⟩
      · exact Finset.notMem_erase _ _ (mem_choices herase h)
      · rw [List.length_cons,hlength]
        omega
    · refine ⟨List.nodup_singleton _,?_⟩
      rw [List.length_singleton]
      rcases Classical.not_and_iff_not_or_not.mp hmore with hlast | hall
      · omega
      · rw [not_not.mp hall,Finset.card_empty] at herase
        omega

end Activate

section Turn

variable (mgr w p)

def candidates : Finset Nat × World :=
  let cleared := despawnObject mgr (despawnQuest1 mgr) .quest p 0 w
  if mgr.maxLimit p > (newQuests mgr p w.spawns).card ∧ w.spawns.activeQuests ≠ ∅ then
    recycleQuests (mgr.maxLimit p) w.spawns.activeQuests.card (newQuests mgr p w.spawns)
      w.spawns.activeQuests cleared
  else (newQuests mgr p w.spawns,cleared)

def activated : List Nat :=
  if (mgr.group .quest p).isEmpty then []
  else
    let r := candidates mgr w p
    choices r.1.card (mgr.maxLimit p) r.1 r.2.rolls

/-- Every active quest is listed once by each of its starters, and no other quest of a pool is. -/
def Listed : Prop :=
  ∀ r q, q ∈ (mgr.group .quest r).guids → ∀ g, ∀ c ∈ mgr.givers g q,
    (w.quests g).count (c,q) = if w.spawns.isActiveObject .quest q then 1 else 0

/-- What an update should do. In a pool with a mother a quest of another pool that was activated for
it would be listed once more. -/
structure Renewed (w' : World) : Prop where
  members : mgr.mother p = 0 → ∀ q ∈ activated mgr w p, q ∈ (mgr.group .quest p).guids
  limited : ((mgr.group .quest p).guids.toFinset.filter fun q =>
    w'.spawns.isActiveObject .quest q).card ≤ mgr.maxLimit p
  others : ∀ q ∉ (mgr.group .quest p).guids,
    w'.spawns.isActiveObject .quest q = w.spawns.isActiveObject .quest q ∧
      ∀ g c, (w'.quests g).count (c,q) = (w.quests g).count (c,q)
  listed : (∀ g q, (mgr.givers g q).Nodup) → Listed mgr w → Listed mgr w'

/-- The pool has nothing to recycle but its own quests, or enough others; a pool without room has no
inactive quest. -/
def Separate : Prop :=
  (mgr.group .quest p).guids = [] ∨
    (mgr.maxLimit p = 0 → ∀ q ∈ (mgr.group .quest p).guids, w.spawns.isActiveObject .quest q) ∧
    (mgr.maxLimit p ≤ (newQuests mgr p w.spawns).card ∨
      ∀ q ∈ w.spawns.activeQuests, q ∈ (mgr.group .quest p).guids)

end Turn

section Spec

theorem activated_eq (hquests : (mgr.group .quest p).isEmpty = false) :
    activated mgr w p = choices (candidates mgr w p).1.card (mgr.maxLimit p) (candidates mgr w p).1
      (candidates mgr w p).2.rolls := by
  simp [activated,hquests]

theorem recycleQuests_world (limit n : Nat) (new current : Finset Nat) (w : World) :
    ∃ rolls, (recycleQuests limit n new current w).2 = { w with rolls := rolls } := by
  induction n generalizing new current w with
  | zero => exact ⟨w.rolls,rfl⟩
  | succ n ih =>
    unfold recycleQuests
    dsimp only
    split_ifs
    · obtain ⟨rolls,hrolls⟩ := ih (insert (selectRandomContainerElement current w.roll.index) new)
        (current.erase (selectRandomContainerElement current w.roll.index)) w.rolled
      exact ⟨rolls,hrolls⟩
    · exact ⟨w.rolls.tail,rfl⟩

/-- The quests of the pool are despawned and some are activated. A pool that is set up is saved too. -/
theorem chooseQuests_eq (hquests : (mgr.group .quest p).isEmpty = false) (t : Nat) : ∃ rolls,
    let w' := (activated mgr w p).foldl (fun w q => activateQuest mgr p q w)
      { despawnObject mgr (despawnQuest1 mgr) .quest p 0 w with rolls := rolls }
    chooseQuests mgr p t w = w' ∨ chooseQuests mgr p t w = saveQuestsToDB mgr w' := by
  obtain ⟨rolls,hcleared⟩ : ∃ rolls, (candidates mgr w p).2 =
      { despawnObject mgr (despawnQuest1 mgr) .quest p 0 w with rolls := rolls } := by
    unfold candidates
    dsimp only
    split_ifs
    · exact recycleQuests_world _ _ _ _ _
    · exact ⟨_,rfl⟩
  have hchoose : chooseQuests mgr p t w = if (candidates mgr w p).1 = ∅ then (candidates mgr w p).2
      else if t = 0 then saveQuestsToDB mgr (activateQuests mgr p (candidates mgr w p).1.card
          (mgr.maxLimit p) (candidates mgr w p).1 (candidates mgr w p).2)
      else activateQuests mgr p (candidates mgr w p).1.card (mgr.maxLimit p)
        (candidates mgr w p).1 (candidates mgr w p).2 := rfl
  rw [hchoose,activated_eq hquests]
  by_cases hnone : (candidates mgr w p).1 = ∅
  · refine ⟨rolls,.inl ?_⟩
    rw [if_pos hnone,hnone,hcleared]
    rfl
  · obtain ⟨rolls',hrolls'⟩ := activateQuests_eq mgr p (candidates mgr w p).1.card (mgr.maxLimit p)
      (candidates mgr w p).1 (candidates mgr w p).2
    refine ⟨rolls',?_⟩
    rw [if_neg hnone,hrolls']
    simp only [hcleared]
    split_ifs
    · exact .inr rfl
    · exact .inl rfl

/-- What a turn of a pool with quests does: the quests of the pool go, and the activated ones come. -/
theorem chooseQuests_quests (hquests : (mgr.group .quest p).isEmpty = false) (t : Nat) :
    let w' := chooseQuests mgr p t w
    (∀ q, w'.spawns.isActiveObject .quest q ↔
      w.spawns.isActiveObject .quest q ∧ q ∉ (mgr.group .quest p).guids ∨ q ∈ activated mgr w p) ∧
    ∀ g c q, (w'.quests g).count (c,q) = (w.quests g).count (c,q)-
      (if q ∈ (mgr.group .quest p).guids ∧ w.spawns.isActiveObject .quest q then
        (mgr.givers g q).count c else 0)+(activated mgr w p).count q*(mgr.givers g q).count c := by
  obtain ⟨hactive,hcount,-⟩ := despawnList_quests mgr w p (mgr.group .quest p).guids
  obtain ⟨rolls,hchoose⟩ := chooseQuests_eq (w := w) hquests t
  obtain ⟨hactive',hcount'⟩ := activateList_quests mgr
    { despawnObject mgr (despawnQuest1 mgr) .quest p 0 w with rolls := rolls } p (activated mgr w p)
  have hlisted : ∀ g c q, ((chooseQuests mgr p t w).quests g).count (c,q) = (((activated mgr w p).foldl
      (fun w q => activateQuest mgr p q w) { despawnObject mgr (despawnQuest1 mgr) .quest p 0 w with
        rolls := rolls }).quests g).count (c,q) := by
    intro g c q
    rcases hchoose with heq | heq
    · rw [heq]
    · rw [heq]
      cases g <;> rfl
  refine ⟨fun q => ?_,fun g c q => ?_⟩
  · refine Iff.trans ?_ ((hactive' q).trans (or_congr_left (hactive q)))
    rcases hchoose with heq | heq
    · rw [heq]
    · rw [heq]
      rfl
  · rw [hlisted,hcount',← hcount]
    cases g <;> rfl

theorem quest_isActive (d : ActivePoolData) (q : Nat) :
    d.isActiveObject .quest q ↔ q ∈ d.activeQuests := decide_eq_true_iff

theorem mem_guids_iff : q ∈ (mgr.group .quest p).guids ↔
    q ∈ (mgr.group .quest p).equalChanced.map PoolObject.guid := by
  rw [PoolGroup.guids,mgr.quest_equal,List.append_nil]

theorem mem_newQuests : q ∈ newQuests mgr p w.spawns ↔
    q ∈ (mgr.group .quest p).guids ∧ ¬ w.spawns.isActiveObject .quest q := by
  rw [newQuests,Finset.mem_sdiff,List.mem_toFinset,← mem_guids_iff,quest_isActive]

theorem isEmpty_iff : (mgr.group .quest p).isEmpty ↔ (mgr.group .quest p).guids = [] := by
  simp [PoolGroup.isEmpty,PoolGroup.guids,mgr.quest_equal]

theorem updatePool_quests (hroot : mgr.mother p = 0) : updatePool mgr .quest p 1 w =
    if (mgr.group .quest p).isEmpty then w else chooseQuests mgr p 1 w := by
  unfold updatePool
  rw [if_neg (not_not.mpr hroot)]
  rfl

/-- The quests of the pool go and quests of the pool come instead, not too many and each once. -/
theorem renewed_of_list {w' : World} {cs : List Nat}
    (hmembers : mgr.mother p = 0 → ∀ q ∈ activated mgr w p, q ∈ (mgr.group .quest p).guids)
    (hnodup : cs.Nodup) (hmem : ∀ q ∈ cs, q ∈ (mgr.group .quest p).guids)
    (hlength : cs.length ≤ mgr.maxLimit p)
    (hactive : ∀ q, w'.spawns.isActiveObject .quest q ↔
      w.spawns.isActiveObject .quest q ∧ q ∉ (mgr.group .quest p).guids ∨ q ∈ cs)
    (hcount : ∀ g c q, (w'.quests g).count (c,q) = (w.quests g).count (c,q)-
      (if q ∈ (mgr.group .quest p).guids ∧ w.spawns.isActiveObject .quest q then
        (mgr.givers g q).count c else 0)+cs.count q*(mgr.givers g q).count c) :
    Renewed mgr w p w' := by
  have hown : ∀ q ∈ (mgr.group .quest p).guids,
      (w'.spawns.isActiveObject .quest q ↔ q ∈ cs) := by
    intro q hq
    rw [hactive]
    simp [hq]
  have hother : ∀ q ∉ (mgr.group .quest p).guids,
      w'.spawns.isActiveObject .quest q = w.spawns.isActiveObject .quest q ∧
        ∀ g c, (w'.quests g).count (c,q) = (w.quests g).count (c,q) := by
    intro q hq
    have hnot : q ∉ cs := fun h => hq (hmem q h)
    refine ⟨?_,fun g c => ?_⟩
    · rw [Bool.eq_iff_iff,hactive]
      simp [hq,hnot]
    · rw [hcount]
      simp [hq,List.count_eq_zero_of_not_mem hnot]
  refine ⟨hmembers,?_,hother,fun hgivers h r q hq g c hc => ?_⟩
  · refine le_trans (Finset.card_le_card (t := cs.toFinset) fun q hq => ?_)
      ((List.toFinset_card_le _).trans hlength)
    obtain ⟨hq,hactive'⟩ := Finset.mem_filter.mp hq
    exact List.mem_toFinset.mpr ((hown q (List.mem_toFinset.mp hq)).mp hactive')
  · by_cases hqp : q ∈ (mgr.group .quest p).guids
    · have hone : (mgr.givers g q).count c = 1 := List.count_eq_one_of_mem (hgivers g q) hc
      have hbefore := h r q hq g c hc
      have hgone : (w.quests g).count (c,q)-(if q ∈ (mgr.group .quest p).guids ∧
          w.spawns.isActiveObject .quest q then (mgr.givers g q).count c else 0) = 0 := by
        rw [hbefore,hone]
        simp [hqp]
      rw [hcount,hgone,hone,Nat.zero_add,Nat.mul_one]
      by_cases hqa : q ∈ cs
      · rw [if_pos ((hown q hqp).mpr hqa),List.count_eq_one_of_mem hnodup hqa]
      · rw [if_neg (mt (hown q hqp).mp hqa),List.count_eq_zero_of_not_mem hqa]
    · rw [(hother q hqp).2 g c,(hother q hqp).1]
      exact h r q hq g c hc

/-- When the candidates are quests of the pool and there is room for one at least, the turn is right. -/
theorem renewed_of_candidates (hquests : (mgr.group .quest p).isEmpty = false)
    (hown : ∀ q ∈ (candidates mgr w p).1, q ∈ (mgr.group .quest p).guids)
    (hroom : 1 ≤ mgr.maxLimit p ∨ (candidates mgr w p).1 = ∅) (t : Nat) :
    Renewed mgr w p (chooseQuests mgr p t w) := by
  obtain ⟨hactive,hcount⟩ := chooseQuests_quests (w := w) hquests t
  obtain ⟨hnodup,hmem,hlength⟩ : (activated mgr w p).Nodup ∧
      (∀ q ∈ activated mgr w p, q ∈ (mgr.group .quest p).guids) ∧
      (activated mgr w p).length ≤ mgr.maxLimit p := by
    rw [activated_eq hquests]
    rcases hroom with hroom | hnone
    · obtain ⟨hnodup,hlength⟩ := choices_spec rfl hroom (mgr.limit_lt p) (candidates mgr w p).2.rolls
      exact ⟨hnodup,fun q hq => hown q (mem_choices rfl hq),hlength ▸ Nat.min_le_left _ _⟩
    · rw [hnone]
      exact ⟨.nil,fun q hq => absurd hq List.not_mem_nil,Nat.zero_le _⟩
  exact renewed_of_list (fun _ => hmem) hnodup hmem hlength hactive hcount

theorem candidates_of_separate (h : Separate mgr w p)
    (hquests : (mgr.group .quest p).isEmpty = false) :
    (∀ q ∈ (candidates mgr w p).1, q ∈ (mgr.group .quest p).guids) ∧
      (1 ≤ mgr.maxLimit p ∨ (candidates mgr w p).1 = ∅) := by
  have hne : (mgr.group .quest p).guids ≠ [] :=
    fun h => Bool.eq_false_iff.mp hquests (isEmpty_iff.mpr h)
  obtain ⟨hfull,henough⟩ := h.resolve_left hne
  have henough' : mgr.maxLimit p ≤ (newQuests mgr p w.spawns).card ∨
      ∀ q ∈ w.spawns.activeQuests, q ∈ (mgr.group .quest p).guids := henough
  obtain ⟨hown,-,-⟩ := candidates_own (n := w.spawns.activeQuests.card) henough'
    (despawnObject mgr (despawnQuest1 mgr) .quest p 0 w)
  refine ⟨hown,?_⟩
  by_cases hroom : 1 ≤ mgr.maxLimit p
  · exact .inl hroom
  · have hzero : mgr.maxLimit p = 0 := by omega
    have hnone : newQuests mgr p w.spawns = ∅ := by
      refine Finset.eq_empty_of_forall_notMem fun q hq => ?_
      obtain ⟨hq,hinactive⟩ := mem_newQuests.mp hq
      exact hinactive (hfull hzero q hq)
    refine .inr ?_
    simp [candidates,hzero,hnone]

theorem renewed_of_separate (hroot : mgr.mother p = 0) (h : Separate mgr w p) :
    Renewed mgr w p (updatePool mgr .quest p 1 w) := by
  rw [updatePool_quests hroot]
  by_cases hquests : (mgr.group .quest p).isEmpty
  · rw [if_pos hquests]
    have hguids := isEmpty_iff.mp hquests
    refine ⟨fun _ q hq => ?_,by simp [hguids],fun _ _ => ⟨rfl,fun _ _ => rfl⟩,fun _ h => h⟩
    simp [activated,hquests] at hq
  · rw [if_neg hquests]
    obtain ⟨hown,hroom⟩ := candidates_of_separate h (Bool.eq_false_iff.mpr hquests)
    exact renewed_of_candidates (Bool.eq_false_iff.mpr hquests) hown hroom 1

end Spec

/-- A number that `rand_chance` can give, rounded to a float. -/
def Roll.Valid (r : Roll) : Prop := 0 ≤ r.chance ∧ r.chance ≤ 100

/-- The turn of the pool is right whatever the random numbers. -/
def AlwaysRenewed (mgr : PoolMgr) (w : World) (p : Nat) : Prop :=
  ∀ rolls, (∀ roll ∈ rolls, Roll.Valid roll) →
    Renewed mgr { w with rolls := rolls } p (updatePool mgr .quest p 1 { w with rolls := rolls })

section Converse

theorem exists_select {s : Finset Nat} {a : Nat} (ha : a ∈ s) :
    ∃ i, selectRandomContainerElement s i = a := by
  obtain ⟨i,hi,hget⟩ := List.mem_iff_getElem.mp (OrderedSet.mem_elems.mpr ha)
  refine ⟨i,?_⟩
  have hmod : i % s.card = i := Nat.mod_eq_of_lt (by rwa [← OrderedSet.length_elems])
  rw [selectRandomContainerElement,hmod,List.getD_eq_getElem?_getD,List.getElem?_eq_getElem hi,hget]
  rfl

/-- What is recycled comes on top, the first pick in any case, and does not exceed the limit. -/
theorem recycleQuests_adds {limit : Nat} {new : Finset Nat} (n : Nat) (current : Finset Nat)
    (w : World) (hlt : new.card < limit) :
    new ⊆ (recycleQuests limit n new current w).1 ∧ (recycleQuests limit n new current w).1.card ≤ limit ∧
      (n ≠ 0 → selectRandomContainerElement current w.roll.index ∈
        (recycleQuests limit n new current w).1) := by
  induction n generalizing new current w with
  | zero => exact ⟨Finset.Subset.refl _,hlt.le,fun h => absurd rfl h⟩
  | succ n ih =>
    have hinsert := Finset.card_insert_le (selectRandomContainerElement current w.roll.index) new
    unfold recycleQuests
    dsimp only
    split_ifs with hmore
    · obtain ⟨hsub,hcard,-⟩ := ih
        (current.erase (selectRandomContainerElement current w.roll.index)) w.rolled hmore.1
      exact ⟨(Finset.subset_insert _ _).trans hsub,hcard,fun _ => hsub (Finset.mem_insert_self _ _)⟩
    · exact ⟨Finset.subset_insert _ _,hinsert.trans hlt,fun _ => Finset.mem_insert_self _ _⟩

/-- With too few quests of its own, the pool takes all of them, and the first pick of those that are
active in any pool. -/
theorem activated_of_few (hquests : (mgr.group .quest p).isEmpty = false)
    (hfew : (newQuests mgr p w.spawns).card < mgr.maxLimit p) (hne : w.spawns.activeQuests ≠ ∅) :
    newQuests mgr p w.spawns ⊆ (activated mgr w p).toFinset ∧
      selectRandomContainerElement w.spawns.activeQuests w.roll.index ∈ activated mgr w p := by
  obtain ⟨-,-,hrolls⟩ := despawnList_quests mgr w p (mgr.group .quest p).guids
  have hcandidates : candidates mgr w p = recycleQuests (mgr.maxLimit p) w.spawns.activeQuests.card
      (newQuests mgr p w.spawns) w.spawns.activeQuests
      (despawnObject mgr (despawnQuest1 mgr) .quest p 0 w) := if_pos ⟨hfew,hne⟩
  obtain ⟨hsub,hcard,hpick⟩ := recycleQuests_adds w.spawns.activeQuests.card w.spawns.activeQuests
    (despawnObject mgr (despawnQuest1 mgr) .quest p 0 w) hfew
  have hroll : (despawnObject mgr (despawnQuest1 mgr) .quest p 0 w).roll = w.roll := by
    unfold World.roll despawnObject
    rw [hrolls]
  rw [← hcandidates] at hsub hcard hpick
  rw [hroll] at hpick
  -- the candidates do not exceed the limit, so that all of them are activated
  obtain ⟨hnodup,hlength⟩ := choices_spec rfl (Nat.one_le_of_lt hfew) (mgr.limit_lt p)
    (candidates mgr w p).2.rolls
  rw [← activated_eq hquests,Nat.min_eq_right hcard] at hlength
  rw [← activated_eq hquests] at hnodup
  have hall : (activated mgr w p).toFinset = (candidates mgr w p).1 := by
    refine Finset.eq_of_subset_of_card_le (fun a ha => ?_) ?_
    · rw [List.mem_toFinset,activated_eq hquests] at ha
      exact mem_choices rfl ha
    · rw [List.toFinset_card_of_nodup hnodup,hlength]
  rw [← List.mem_toFinset,hall]
  exact ⟨hsub,hpick (by simpa using hne)⟩

theorem foreign_activated (hquests : (mgr.group .quest p).isEmpty = false)
    (hfew : (newQuests mgr p w.spawns).card < mgr.maxLimit p) (hq : q ∈ w.spawns.activeQuests) :
    ∃ i, q ∈ activated mgr { w with rolls := [⟨0,i⟩] } p := by
  obtain ⟨i,hi⟩ := exists_select hq
  have hmem := (activated_of_few (w := { w with rolls := [⟨0,i⟩] }) hquests hfew
    (Finset.ne_empty_of_mem hq)).2
  exact ⟨i,hi ▸ hmem⟩

/-- An inactive quest of the pool is a candidate. Even a limit of 0 is decremented before it is looked
at, so that one of them is activated. -/
theorem activated_own (hquests : (mgr.group .quest p).isEmpty = false)
    (hq : q ∈ (mgr.group .quest p).guids) (hinactive : ¬ w.spawns.isActiveObject .quest q) :
    ∃ a ∈ (mgr.group .quest p).guids, a ∈ activated mgr w p := by
  have hmem : q ∈ newQuests mgr p w.spawns := mem_newQuests.mpr ⟨hq,hinactive⟩
  by_cases hfew : mgr.maxLimit p > (newQuests mgr p w.spawns).card ∧ w.spawns.activeQuests ≠ ∅
  · exact ⟨q,hq,List.mem_toFinset.mp ((activated_of_few hquests hfew.1 hfew.2).1 hmem)⟩
  have hcandidates : (candidates mgr w p).1 = newQuests mgr p w.spawns := by
    unfold candidates
    dsimp only
    rw [if_neg hfew]
  obtain ⟨n,hn⟩ := Nat.exists_eq_succ_of_ne_zero (Finset.card_ne_zero_of_mem hmem)
  refine ⟨selectRandomContainerElement (newQuests mgr p w.spawns)
    ((candidates mgr w p).2.rolls.headD ⟨0,0⟩).index,?_,?_⟩
  · exact (mem_newQuests.mp (selectRandomContainerElement_mem (Finset.ne_empty_of_mem hmem) _)).1
  · rw [activated_eq hquests,hcandidates,hn]
    exact List.mem_cons_self

theorem separate_of_renewed (hroot : mgr.mother p = 0) (h : AlwaysRenewed mgr w p) :
    Separate mgr w p := by
  by_cases hguids : (mgr.group .quest p).guids = []
  · exact .inl hguids
  have hquests : (mgr.group .quest p).isEmpty = false :=
    Bool.eq_false_iff.mpr fun hempty => hguids (isEmpty_iff.mp hempty)
  refine .inr ⟨fun hzero q hq => ?_,?_⟩
  · by_contra hinactive
    obtain ⟨a,ha,hactivated⟩ := activated_own (w := { w with rolls := [] }) hquests hq hinactive
    have hlimited := (h [] (List.forall_mem_nil _)).limited
    have hactive := ((chooseQuests_quests (w := { w with rolls := [] }) hquests 1).1 a).mpr
      (.inr hactivated)
    rw [updatePool_quests hroot,if_neg (by simp [hquests]),hzero,Nat.le_zero,Finset.card_eq_zero,
      Finset.filter_eq_empty_iff] at hlimited
    exact hlimited (List.mem_toFinset.mpr ha) hactive
  · by_contra hfew
    push Not at hfew
    obtain ⟨hfew,q,hq,hforeign⟩ := hfew
    obtain ⟨i,hactivated⟩ := foreign_activated hquests hfew hq
    have hvalid : ∀ roll ∈ [(⟨0,i⟩ : Roll)], Roll.Valid roll :=
      List.forall_mem_singleton.mpr ⟨le_rfl,by norm_num⟩
    exact hforeign ((h _ hvalid).members hroot q hactivated)

end Converse

end TrinityCore.Pools
