import TrinityCore.Pools.NestedTurn

set_option autoImplicit false

namespace TrinityCore.Pools

variable {mgr : PoolMgr} {d : ActivePoolData} {w w' : World} {k : Kind}
  {p q x g c m n r o t last : Nat}

section Draws

/-- What the loading checks of the chances of nested pools and of the starters of quests. That the
chances do not exceed 100 it checks for pools without equal chances. -/
structure PoolMgr.Checked (mgr : PoolMgr) : Prop where
  chances : ∀ p, ∀ o ∈ (mgr.group .pool p).explicitlyChanced, 0 < o.chance
  total : ∀ p, ((mgr.group .pool p).explicitlyChanced.map PoolObject.chance).sum ≤ 100
  started : ∀ p, ∀ q ∈ (mgr.group .quest p).guids, ∃ g c, c ∈ mgr.givers g q

theorem sum_chances_nonneg {os : List PoolObject} (hpos : ∀ o ∈ os, 0 < o.chance) :
    0 ≤ (os.map PoolObject.chance).sum :=
  List.sum_nonneg (List.forall_mem_map.mpr fun o ho => (hpos o ho).le)

theorem rollExplicit_none (d : ActivePoolData) (k : Kind) (t : Nat) {os : List PoolObject}
    (hpos : ∀ o ∈ os, 0 < o.chance) :
    rollExplicit d k t (os.map PoolObject.chance).sum os = none := by
  induction os with
  | nil => rfl
  | cons a os ih =>
    have hpos := fun o ho => hpos o (List.mem_cons_of_mem a ho)
    have hsum := sum_chances_nonneg hpos
    simp [rollExplicit,hsum.not_gt,ih hpos]

theorem rollExplicit_some {os : List PoolObject} (hpos : ∀ o ∈ os, 0 < o.chance) {o : PoolObject}
    (ho : o ∈ os) (hroll : canRoll d k t o.guid = true) :
    ∃ roll : Rat, 0 ≤ roll ∧ roll ≤ (os.map PoolObject.chance).sum ∧
      ∃ o', rollExplicit d k t roll os = some o' ∧ o'.guid = o.guid := by
  induction os with
  | nil => cases ho
  | cons a os ih =>
    have ha := hpos a List.mem_cons_self
    have hpos' := fun o ho => hpos o (List.mem_cons_of_mem a ho)
    rcases List.mem_cons.mp ho with rfl | ho
    · exact ⟨0,le_rfl,sum_chances_nonneg hpos,o,by simp [rollExplicit,ha,hroll],rfl⟩
    · obtain ⟨roll,hnonneg,hle,o',hsome,hguid⟩ := ih hpos' ho
      refine ⟨roll+a.chance,add_nonneg hnonneg ha.le,?_,o',?_,hguid⟩
      · rw [List.map_cons,List.sum_cons,add_comm]
        exact add_le_add_right hle a.chance
      · simp [rollExplicit,hnonneg.not_gt,hsome]

/-- Every child that may be rolled can be drawn. -/
theorem exists_roll (hchecked : mgr.Checked) (hc : c ∈ (mgr.group .pool m).guids)
    (hroll : canRoll d .pool t c = true) :
    ∃ roll : Roll, roll.Valid ∧ ∃ o, rollOne (mgr.group .pool m) d .pool t roll = some o ∧
      o.guid = c := by
  have hpos := hchecked.chances m
  have htotal := hchecked.total m
  obtain ⟨o,ho,rfl⟩ := List.mem_map.mp hc
  rcases List.mem_append.mp ho with ho | ho
  · obtain ⟨i,hi,hget⟩ := List.mem_iff_getElem.mp ho
    refine ⟨⟨((mgr.group .pool m).explicitlyChanced.map PoolObject.chance).sum,i⟩,
      ⟨sum_chances_nonneg hpos,htotal⟩,o,?_,rfl⟩
    unfold rollOne
    dsimp only
    rw [rollExplicit_none d .pool t hpos,Nat.mod_eq_of_lt hi,List.getElem?_eq_getElem hi,hget]
    exact if_pos hroll
  · obtain ⟨chance,hnonneg,hle,o',hsome,hguid⟩ := rollExplicit_some hpos ho hroll
    refine ⟨⟨chance,0⟩,⟨hnonneg,hle.trans htotal⟩,o',?_,hguid⟩
    unfold rollOne
    rw [hsome]

theorem canRoll_of_inactive (h : d.isActiveObject k g = false) : canRoll d k t g = true := by
  simp [canRoll,h]

section

variable {despawn1 spawn1 : Nat → World → World}

/-- A round in which another child is drawn than the one that triggers the rounds. -/
theorem spawnLoop_other (ho : o ∈ (mgr.group .pool m).guids) (hot : o ≠ t) {roll : Roll}
    {obj : PoolObject} (hdraw : rollOne (mgr.group .pool m) w.spawns .pool t roll = some obj)
    (hobj : obj.guid = o) (rolls : List Roll) :
    spawnLoop mgr despawn1 spawn1 .pool m (n+1) t 0 { w with rolls := roll :: rolls } =
      if t ≠ 0 then spawnLoop mgr despawn1 spawn1 .pool m n 0 t (despawnObject mgr despawn1 .pool m t
        (spawn1 o ({ w with rolls := rolls }.activate .pool o m)))
      else spawnLoop mgr despawn1 spawn1 .pool m n 0 0
        (spawn1 o ({ w with rolls := rolls }.activate .pool o m)) := by
  have hzero : o ≠ 0 := fun h => mgr.guid_ne _ _ (h ▸ ho)
  subst hobj
  have hroll : ({ w with rolls := roll :: rolls } : World).roll = roll := rfl
  rw [spawnLoop,hroll]
  dsimp only
  rw [hdraw]
  dsimp only
  rw [if_neg hzero,if_neg hot]
  rfl

theorem spawnLoop_same (ht : t ∈ (mgr.group .pool m).guids) {roll : Roll} {obj : PoolObject}
    (hdraw : rollOne (mgr.group .pool m) w.spawns .pool t roll = some obj) (hobj : obj.guid = t)
    (rolls : List Roll) :
    spawnLoop mgr despawn1 spawn1 .pool m (n+1) t 0 { w with rolls := roll :: rolls } =
      spawnLoop mgr despawn1 spawn1 .pool m n 0 0 { w with rolls := rolls } := by
  have hzero : t ≠ 0 := fun h => mgr.guid_ne _ _ (h ▸ ht)
  have hroll : ({ w with rolls := roll :: rolls } : World).roll = roll := rfl
  rw [spawnLoop,hroll]
  dsimp only
  rw [hdraw]
  dsimp only
  rw [if_neg (hobj ▸ hzero),if_pos hobj]
  rfl

theorem grows_spawnLoop
    (hspawn : ∀ c ∈ (mgr.group .pool m).guids, ∀ w, Grows mgr c w (spawn1 c w)) :
    Grows mgr m w (spawnLoop mgr despawn1 spawn1 .pool m n 0 last w) :=
  spawnLoop_induction (fun _ h => ⟨h.pools,h.only,h.quests⟩)
    (fun _ c h hc hinactive => h.trans (.child hc hinactive (hspawn c hc _)))
    (fun h => absurd rfl h) _ last .refl

theorem grows_poolRounds : Grows mgr m w (poolRounds mgr m n 0 last w) :=
  grows_spawnLoop fun _ _ _ => grows_spawnFuel _

end

end Draws

section Reach

theorem spawnKind_activates (spawn1 : Nat → World → World) (hsaved : SavedOwn mgr w.questSave)
    (hquests : (mgr.group .quest x).guids ≠ [])
    (hinactive : ∀ q ∈ (mgr.group .quest x).guids, ¬ w.spawns.isActiveObject .quest q) :
    ∃ q ∈ (mgr.group .quest x).guids,
      (spawnKind mgr spawn1 .quest x 0 w).spawns.isActiveObject .quest q = true := by
  have hempty : (mgr.group .quest x).isEmpty = false :=
    Bool.eq_false_iff.mpr fun h => hquests (isEmpty_iff.mp h)
  unfold spawnKind
  rw [if_neg (Bool.eq_false_iff.mp hempty)]
  dsimp only
  unfold spawnQuests
  split_ifs with hload
  · rw [loadQuests_eq]
    obtain ⟨a,rows,hrows⟩ := List.exists_cons_of_ne_nil hload.2
    refine ⟨a,(hsaved x hempty).2 a (by rw [hrows]; exact List.mem_cons_self),?_⟩
    refine ((activateList_quests mgr w x _).1 a).mpr (.inr ?_)
    rw [hrows]
    exact List.mem_cons_self
  · obtain ⟨q,hq⟩ := List.exists_mem_of_ne_nil _ hquests
    obtain ⟨a,ha,hactivated⟩ := activated_own (w := w) hempty hq (hinactive q hq)
    exact ⟨a,ha,((chooseQuests_quests hempty 0).1 a).mpr (.inr hactivated)⟩

theorem spawns_activate (hb : c ∈ (mgr.group .pool x).guids) (h : mgr.Spawns d c r) :
    mgr.Spawns (d.activateObject .pool c x) c r := by
  refine h.mono fun b hunder hactive => ?_
  have hlt := depth_lt_of_under hunder
  have hlt' := mgr.depth_lt _ _ hb
  rcases (ActivePoolData.isActive_activateObject .pool b (mgr.child_ne hb)).mp hactive with
    h | ⟨-,rfl⟩ | ⟨-,rfl⟩
  · exact h
  · omega
  · omega

theorem inactive_of_spawns (h : mgr.Spawns d x r) (hx : d.isActiveObject .pool x = false) :
    d.isActiveObject .pool r = false := by
  rcases h.cases_tail with rfl | ⟨b,-,hb⟩
  · exact hx
  · exact hb.2.2

/-- Of the pools with quests that can be spawned, one has none that can be spawned from it. -/
theorem exists_lowest (h : mgr.Spawns d x r) (hquests : (mgr.group .quest r).guids ≠ []) :
    ∃ r, mgr.Spawns d x r ∧ (mgr.group .quest r).guids ≠ [] ∧
      ∀ r', mgr.Spawns d r r' → r' ≠ r → (mgr.group .quest r').guids = [] := by
  induction hdepth : mgr.depth r using Nat.strong_induction_on generalizing r with
  | _ depth ih =>
    by_cases hlowest : ∀ r', mgr.Spawns d r r' → r' ≠ r → (mgr.group .quest r').guids = []
    · exact ⟨r,h,hquests,hlowest⟩
    push Not at hlowest
    obtain ⟨r',hr',hne,hquests'⟩ := hlowest
    refine ih (mgr.depth r') ?_ (h.trans hr') hquests' rfl
    rcases hr'.cases_head with heq | ⟨b,hb,hrest⟩
    · exact absurd heq.symm hne
    · have hlt := mgr.depth_lt _ _ hb.2.1
      have hle := depth_le_of_below (below_of_spawns hrest)
      omega

theorem spawnFuel_reaches (hchecked : mgr.Checked) (hr : mgr.Spawns w.spawns x r)
    (hquests : (mgr.group .quest r).guids ≠ [])
    (hlowest : ∀ r', mgr.Spawns w.spawns r r' → r' ≠ r → (mgr.group .quest r').guids = [])
    (hn : mgr.depth x < n) (hcount : w.spawns.getActiveObjectCount x = 0)
    (hx : w.spawns.isActiveObject .pool x = true)
    (hinactive : ∀ q ∈ (mgr.group .quest r).guids, ¬ w.spawns.isActiveObject .quest q)
    (hsaved : SavedOwn mgr w.questSave) :
    ∃ rolls, (∀ roll ∈ rolls, Roll.Valid roll) ∧
      (spawnFuel mgr n x { w with rolls := rolls }).spawns.isActiveObject .pool r = true ∧
      ∃ q ∈ (mgr.group .quest r).guids,
        (spawnFuel mgr n x { w with rolls := rolls }).spawns.isActiveObject .quest q = true := by
  induction n generalizing x w with
  | zero => omega
  | succ n ih =>
    rcases hr.cases_head with rfl | ⟨b,⟨hrounds,hb,hfree⟩,hrest⟩
    · have hgrows : Grows mgr x { w with rolls := [] } _ := grows_spawnFuel (n+1)
      obtain ⟨w₁,hsame,heq⟩ := spawnFuel_eq_quests (w := { w with rolls := [] }) (n := n) hcount
        (fun _ _ _ => spawnFuel_quiet) hlowest
      refine ⟨[],nofun,hgrows.pools x hx,?_⟩
      have hidle : ∀ q ∈ (mgr.group .quest x).guids, ¬ w₁.spawns.isActiveObject .quest q := by
        intro q hq
        rw [isActive_of_questState hsame.state]
        exact hinactive q hq
      rw [heq]
      exact spawnKind_activates (spawnFuel mgr n) (hsame.save ▸ hsaved) hquests hidle
    · obtain ⟨roll,hroll,o,hdraw,hobj⟩ := exists_roll hchecked hb (canRoll_of_inactive hfree)
      have hlt := mgr.depth_lt _ _ hb
      have hne := mgr.child_ne hb rfl
      have hmark := fun k' g' => w.spawns.isActive_activateObject k' g' (mgr.child_ne hb)
      obtain ⟨rolls,hvalid,hpool,q,hq,hactive⟩ := ih (x := b) (w := w.activate .pool b x)
        (spawns_activate hb hrest)
        (fun r' hr' => hlowest r' (hr'.mono fun c _ hc => (hmark .pool c).mpr (.inl hc))) (by omega)
        ((ActivePoolData.count_activateObject b (mgr.child_ne hb)).trans (by simp [hne]))
        ((hmark .pool b).mpr (.inr (.inl ⟨rfl,rfl⟩))) (fun q hq hactive => hinactive q hq
          (((hmark .quest q).mp hactive).resolve_right (by simp))) hsaved
      have hdeep := depth_le_of_below (below_of_spawns hrest)
      obtain ⟨rounds,hcount'⟩ := Nat.exists_eq_add_of_lt hrounds
      have hkind : spawnKind mgr (spawnFuel mgr n) .pool x 0 { w with rolls := roll :: rolls } =
          spawnLoop mgr (despawnPool mgr) (spawnFuel mgr n) .pool x rounds 0 0
            (spawnFuel mgr n b { w.activate .pool b x with rolls := rolls }) := by
        have hempty : ¬ (mgr.group .pool x).isEmpty = true :=
          fun hempty => List.ne_nil_of_mem hb (guids_of_isEmpty hempty)
        unfold spawnKind spawnObject
        rw [if_neg hempty]
        dsimp only
        rw [hcount,hcount',Nat.zero_add,
          spawnLoop_other hb (fun h => mgr.guid_ne _ _ (h ▸ hb)) hdraw hobj]
        rfl
      have hgrows : Grows mgr x (spawnFuel mgr n b { w.activate .pool b x with rolls := rolls })
          (spawnFuel mgr (n+1) x { w with rolls := roll :: rolls }) := by
        have hkinds : ∀ k w, Grows mgr x w (spawnKind mgr (spawnFuel mgr n) k x 0 w) :=
          fun k _ => grows_spawnKind (fun _ _ _ => grows_spawnFuel n) k
        rw [spawnFuel,hkind]
        exact (((grows_spawnLoop fun _ _ _ => grows_spawnFuel n).trans (hkinds .gameobject _)).trans
          (hkinds .creature _)).trans (hkinds .quest _)
      refine ⟨roll :: rolls,List.forall_mem_cons.mpr ⟨hroll,hvalid⟩,hgrows.pools r hpool,q,hq,
        hgrows.quests r q ?_ hq hpool hactive⟩
      rintro rfl
      omega

end Reach

section Needed

/-- Spawning an inactive pool from which quests can be spawned activates one that was not. -/
theorem exists_reached (hchecked : mgr.Checked) (hkept : Kept mgr w)
    (ho : o ∈ (mgr.group .pool m).guids) (hinactive : w.spawns.isActiveObject .pool o = false)
    (hr : mgr.Spawns w.spawns o r) (hquests : (mgr.group .quest r).guids ≠ []) :
    ∃ r' q rolls, (∀ roll ∈ rolls, Roll.Valid roll) ∧ mgr.Spawns w.spawns r r' ∧
      q ∈ (mgr.group .quest r').guids ∧ ¬ w.spawns.isActiveObject .quest q ∧
      let w' := spawnPool mgr o ({ w with rolls := rolls }.activate .pool o m)
      w'.spawns.isActiveObject .pool r' = true ∧ w'.spawns.isActiveObject .quest q = true := by
  obtain ⟨r',hr',hquests',hlowest⟩ := exists_lowest (.refl : mgr.Spawns w.spawns r r) hquests
  have hmark := fun k' g' => w.spawns.isActive_activateObject k' g' (mgr.child_ne ho)
  have hne := mgr.child_ne ho rfl
  have hidle : ∀ q ∈ (mgr.group .quest r').guids, ¬ w.spawns.isActiveObject .quest q := by
    intro q hq hactive
    have hpool := hkept.nested r' q hq hactive
    rw [inactive_of_spawns (hr.trans hr') hinactive] at hpool
    cases hpool
  obtain ⟨rolls,hvalid,hpool,q,hq,hactive⟩ := spawnFuel_reaches (w := w.activate .pool o m)
    hchecked (spawns_activate ho (hr.trans hr')) hquests'
    (fun b hb => hlowest b (hb.mono fun c _ hc => (hmark .pool c).mpr (.inl hc)))
    (Nat.lt_succ_self (mgr.depth o))
    ((ActivePoolData.count_activateObject o (mgr.child_ne ho)).trans (by simp [hne]))
    ((hmark .pool o).mpr (.inr (.inl ⟨rfl,rfl⟩)))
    (fun q hq hactive => hidle q hq (((hmark .quest q).mp hactive).resolve_right (by simp)))
    hkept.saved
  exact ⟨r',q,rolls,hvalid,hr',hq,hidle q hq,hpool,hactive⟩

/-- The first round draws another child, and the pool is swapped for it. -/
theorem exists_swap (hchecked : mgr.Checked) (hp : p ∈ (mgr.group .pool m).guids)
    (ho : o ∈ (mgr.group .pool m).guids) (hop : o ≠ p)
    (hinactive : w.spawns.isActiveObject .pool o = false) (rolls : List Roll) :
    ∃ roll : Roll, roll.Valid ∧ poolRounds mgr m (n+1) p 0 { w with rolls := roll :: rolls } =
      poolRounds mgr m n 0 p (despawnObject mgr (despawnPool mgr) .pool m p
        (spawnPool mgr o ({ w with rolls := rolls }.activate .pool o m))) := by
  have hne : p ≠ 0 := fun h => mgr.guid_ne _ _ (h ▸ hp)
  obtain ⟨roll,hroll,obj,hdraw,hobj⟩ :=
    exists_roll (t := p) hchecked ho (canRoll_of_inactive hinactive)
  refine ⟨roll,hroll,?_⟩
  unfold poolRounds
  rw [spawnLoop_other ho hop hdraw hobj,if_pos hne]

/-- The first round draws the pool itself. -/
theorem exists_same (hchecked : mgr.Checked) (hp : p ∈ (mgr.group .pool m).guids)
    (rolls : List Roll) :
    ∃ roll : Roll, roll.Valid ∧ poolRounds mgr m (n+1) p 0 { w with rolls := roll :: rolls } =
      poolRounds mgr m n 0 0 { w with rolls := rolls } := by
  obtain ⟨roll,hroll,obj,hdraw,hobj⟩ :=
    exists_roll (d := w.spawns) (t := p) hchecked hp (by simp [canRoll])
  refine ⟨roll,hroll,?_⟩
  unfold poolRounds
  rw [spawnLoop_same hp hdraw hobj]

/-- The first two rounds draw the pool, which is spawned in the second. -/
theorem exists_twice (hchecked : mgr.Checked) (hp : p ∈ (mgr.group .pool m).guids)
    (hinactive : w.spawns.isActiveObject .pool p = false) (rolls : List Roll) :
    ∃ a b : Roll, a.Valid ∧ b.Valid ∧
      poolRounds mgr m (n+2) p 0 { w with rolls := a :: b :: rolls } =
        poolRounds mgr m n 0 0 (spawnPool mgr p ({ w with rolls := rolls }.activate .pool p m)) := by
  have hne : p ≠ 0 := fun h => mgr.guid_ne _ _ (h ▸ hp)
  obtain ⟨b,hb,obj,hdraw,hobj⟩ := exists_roll (t := 0) hchecked hp (canRoll_of_inactive hinactive)
  obtain ⟨a,ha,hsame⟩ := exists_same (w := w) (n := n+1) hchecked hp (b :: rolls)
  refine ⟨a,b,ha,hb,hsame.trans ?_⟩
  unfold poolRounds
  rw [spawnLoop_other hp hne hdraw hobj,if_neg (not_not.mpr rfl)]

theorem AlwaysRenewed.rounds (h : AlwaysRenewed mgr w p) (hm : mgr.mother p ≠ 0) {rolls : List Roll}
    (hvalid : ∀ roll ∈ rolls, Roll.Valid roll) :
    Renewed mgr { w with rolls := rolls } p
      (poolRounds mgr (mgr.mother p) (rounds mgr w p) p 0 { w with rolls := rolls }) := by
  have hrenewed := h rolls hvalid
  rw [updatePool_nested hm] at hrenewed
  exact hrenewed

/-- What is chosen for an inactive pool is right only if the pool has room and enough quests, or saved
ones. -/
theorem choice_of_renewed {spawn1 : Nat → World → World} (hchecked : mgr.Checked)
    (hkept : Kept mgr w) (hp : w.spawns.isActiveObject .pool p = false) (hsame : Same w w')
    (h : Renewed mgr w p (spawnKind mgr spawn1 .quest p 0 w')) :
    if w.questSave p = [] then Separate mgr w p
    else (mgr.group .quest p).guids = [] ∨ mgr.maxLimit p ≠ 0 := by
  by_cases hguids : (mgr.group .quest p).guids = []
  · split_ifs
    · exact .inl hguids
    · exact .inl hguids
  have hquests : (mgr.group .quest p).isEmpty = false :=
    Bool.eq_false_iff.mpr fun hempty => hguids (isEmpty_iff.mp hempty)
  have hidle : ∀ q ∈ (mgr.group .quest p).guids, ¬ w.spawns.isActiveObject .quest q := by
    intro q hq hactive
    rw [hkept.nested p q hq hactive] at hp
    cases hp
  have hroom : mgr.maxLimit p ≠ 0 := by
    intro hzero
    obtain ⟨q,hq,hactive⟩ := spawnKind_activates spawn1 (hsame.save ▸ hkept.saved) hguids
      (fun q hq => (isActive_of_questState hsame.state q).symm ▸ hidle q hq)
    have hlimited := h.limited
    rw [hzero,Nat.le_zero,Finset.card_eq_zero,Finset.filter_eq_empty_iff] at hlimited
    exact hlimited (List.mem_toFinset.mpr hq) hactive
  split_ifs with hsave
  · refine .inr ⟨fun hzero => absurd hzero hroom,?_⟩
    by_contra hfew
    push Not at hfew
    obtain ⟨hfew,q,hq,-⟩ := hfew
    have hactives : w'.spawns.activeQuests = w.spawns.activeQuests := (Prod.ext_iff.mp hsame.state).1
    have hfew' : (newQuests mgr p w'.spawns).card < mgr.maxLimit p := by
      unfold newQuests at hfew ⊢
      rwa [hactives]
    have hne : w'.spawns.activeQuests ≠ ∅ := hactives ▸ Finset.ne_empty_of_mem hq
    -- the pool is not active, so that what is recycled belongs to other pools
    obtain ⟨-,hpick⟩ := activated_of_few hquests hfew' hne
    have hmem := selectRandomContainerElement_mem hne w'.roll.index
    generalize selectRandomContainerElement w'.spawns.activeQuests w'.roll.index = a at hpick hmem
    have ha : w.spawns.isActiveObject .quest a = true := (quest_isActive _ a).mpr (hactives ▸ hmem)
    have hforeign : a ∉ (mgr.group .quest p).guids := fun hown => hidle a hown ha
    obtain ⟨r,hr⟩ := hkept.pooled a ha
    obtain ⟨g,c,hc⟩ := hchecked.started r a hr
    have hcount := (chooseQuests_quests (w := w') hquests 0).2 g c a
    have hkind : spawnKind mgr spawn1 .quest p 0 w' = chooseQuests mgr p 0 w' := by
      have hload : ¬ ((0 : Nat) = 0 ∧ w'.questSave p ≠ []) := fun hload => hload.2 (hsame.save ▸ hsave)
      unfold spawnKind
      rw [if_neg (Bool.eq_false_iff.mp hquests)]
      exact if_neg hload
    rw [← hkind,(h.others a hforeign).2 g c,quests_of_questState hsame.state,
      if_neg fun hown => hforeign hown.1,Nat.sub_zero] at hcount
    have hlisted : 0 < (activated mgr w' p).count a*(mgr.givers g a).count c :=
      Nat.mul_pos (List.count_pos_iff.mpr hpick) (List.count_pos_iff.mpr hc)
    omega
  · exact .inr hroom

variable (hm : mgr.mother p ≠ 0) (hchecked : mgr.Checked) (hkept : Kept mgr w)
  (h : AlwaysRenewed mgr w p)
include hm hchecked hkept h

/-- A sibling from which quests can be spawned could be drawn, and its quests would be active. -/
theorem siblings_of_renewed (hn : 1 ≤ rounds mgr w p) :
    ∀ o ∈ (mgr.group .pool (mgr.mother p)).guids, o ≠ p →
      w.spawns.isActiveObject .pool o = false → Quiet mgr w.spawns o := by
  have hp : p ∈ (mgr.group .pool (mgr.mother p)).guids := (mgr.mother_iff p _ hm).mp rfl
  intro o ho hop hinactive r hr
  by_contra hquests
  obtain ⟨n,hn⟩ := Nat.exists_eq_add_of_le' hn
  obtain ⟨r',q,rolls,hvalid,hr',hq,hidle,hpool,hactive⟩ :=
    exists_reached hchecked hkept ho hinactive hr hquests
  obtain ⟨roll,hroll,hswap⟩ := exists_swap (n := n) hchecked hp ho hop hinactive rolls
  have hrenewed := h.rounds hm (List.forall_mem_cons.mpr ⟨hroll,hvalid⟩)
  rw [hn,hswap] at hrenewed
  have hbelow : mgr.Below o r' := below_of_spawns (hr.trans hr')
  have hapart : ¬ mgr.Below p r' := not_below_of_below ho hp hop hbelow
  have hforeign : q ∉ (mgr.group .quest p).guids := by
    intro hown
    obtain rfl := mgr.one_pool _ _ _ _ hown hq
    exact hapart .refl
  refine hidle ((hrenewed.others q hforeign).1.symm.trans ?_)
  exact grows_poolRounds.quests r' q (not_below_child ho hbelow) hq (isActive_swap hp hapart hpool)
    (quest_active_swap hp hq hapart hactive)

/-- Drawn for a sibling, the pool loses the quests that are active below it. -/
theorem below_of_renewed (hn : 1 ≤ rounds mgr w p) (hp : w.spawns.isActiveObject .pool p = true)
    (ho : o ∈ (mgr.group .pool (mgr.mother p)).guids) (hop : o ≠ p)
    (hinactive : w.spawns.isActiveObject .pool o = false) (hr : mgr.Chain w.spawns p r) (hne : r ≠ p)
    (hq : q ∈ (mgr.group .quest r).guids) : ¬ w.spawns.isActiveObject .quest q := by
  have hchild : p ∈ (mgr.group .pool (mgr.mother p)).guids := (mgr.mother_iff p _ hm).mp rfl
  have hsiblings := siblings_of_renewed hm hchecked hkept h hn
  obtain ⟨n,hn⟩ := Nat.exists_eq_add_of_le' hn
  obtain ⟨roll,hroll,hswap⟩ := exists_swap (n := n) hchecked hchild ho hop hinactive []
  have hrenewed := h.rounds hm (List.forall_mem_cons.mpr ⟨hroll,List.forall_mem_nil _⟩)
  rw [hn,hswap] at hrenewed
  have hgrows : Grows mgr (mgr.mother p) w (spawnPool mgr o
      ({ w with rolls := [] }.activate .pool o (mgr.mother p))) :=
    (Grows.child (w := { w with rolls := [] }) ho hinactive (grows_spawnFuel _)).of_rolls
  have hrest := poolRounds_after_swap (n := n) hchild hsiblings hgrows
  have hforeign : q ∉ (mgr.group .quest p).guids :=
    fun hown => hne (mgr.one_pool _ _ _ _ hq hown)
  intro hactive
  have hafter := (hrenewed.others q hforeign).1.trans hactive
  rw [isActive_of_questState hrest.state,swap_eq hchild,if_pos (hgrows.pools p hp)] at hafter
  have hleft := (ActivePoolData.isActive_removeObject .quest q (mgr.child_ne hchild)).mp hafter
  refine despawnFuel_clears (Nat.lt_succ_self _) ?_ hq (hleft.resolve_right nofun).1
  exact hr.mono fun b _ hb => hgrows.pools b hb

/-- Drawn twice, an inactive pool is spawned, with the quests that can be spawned below it. -/
theorem spawned_of_renewed (hn : 2 ≤ rounds mgr w p)
    (hp : w.spawns.isActiveObject .pool p = false) (hr : mgr.Spawns w.spawns p r) (hne : r ≠ p) :
    (mgr.group .quest r).guids = [] := by
  have hchild : p ∈ (mgr.group .pool (mgr.mother p)).guids := (mgr.mother_iff p _ hm).mp rfl
  by_contra hquests
  obtain ⟨n,hn⟩ := Nat.exists_eq_add_of_le' hn
  obtain ⟨r',q,rolls,hvalid,hr',hq,hidle,hpool,hactive⟩ :=
    exists_reached hchecked hkept hchild hp hr hquests
  obtain ⟨a,b,ha,hb,htwice⟩ := exists_twice (n := n) hchecked hchild hp rolls
  have hrenewed := h.rounds hm (List.forall_mem_cons.mpr ⟨ha,List.forall_mem_cons.mpr ⟨hb,hvalid⟩⟩)
  rw [hn,htwice] at hrenewed
  have hforeign : q ∉ (mgr.group .quest p).guids := by
    intro hown
    obtain rfl := mgr.one_pool _ _ _ _ hown hq
    obtain ⟨c,hc,hrest⟩ := hr.cases_head.resolve_left (Ne.symm hne)
    have hlt := mgr.depth_lt _ _ hc.2.1
    have hle := depth_le_of_below (below_of_spawns (hrest.trans hr'))
    omega
  refine hidle ((hrenewed.others q hforeign).1.symm.trans ?_)
  exact grows_poolRounds.quests r' q (not_below_child hchild (below_of_spawns (hr.trans hr'))) hq hpool
    hactive

/-- The quests of an inactive pool could be chosen, so that the choice must be right. -/
theorem chosen_of_renewed (hn : 2 ≤ rounds mgr w p) (hp : w.spawns.isActiveObject .pool p = false) :
    ∃ w₁ spawn1, Same w w₁ ∧ Renewed mgr w p (spawnKind mgr spawn1 .quest p 0 w₁) := by
  have hchild : p ∈ (mgr.group .pool (mgr.mother p)).guids := (mgr.mother_iff p _ hm).mp rfl
  have hsiblings := siblings_of_renewed hm hchecked hkept h (Nat.le_of_succ_le hn)
  have hbelow := fun r => spawned_of_renewed (r := r) hm hchecked hkept h hn hp
  obtain ⟨n,hn⟩ := Nat.exists_eq_add_of_le' hn
  obtain ⟨a,b,ha,hb,htwice⟩ := exists_twice (n := n) hchecked hchild hp []
  have hrenewed := h.rounds hm
    (List.forall_mem_cons.mpr ⟨ha,List.forall_mem_cons.mpr ⟨hb,List.forall_mem_nil _⟩⟩)
  rw [hn,htwice] at hrenewed
  have hgrows : Grows mgr (mgr.mother p) w (spawnPool mgr p
      ({ w with rolls := [] }.activate .pool p (mgr.mother p))) :=
    (Grows.child (w := { w with rolls := [] }) hchild hp (grows_spawnFuel _)).of_rolls
  obtain ⟨w₁,hw₁,heq⟩ := spawnPool_eq_quests (w := { w with rolls := [] }) hchild hbelow
  -- the pool is active now, so that the rounds that are left do not touch the quests
  have hrest : Same (spawnPool mgr p ({ w with rolls := [] }.activate .pool p (mgr.mother p)))
      (poolRounds mgr (mgr.mother p) n 0 0 (spawnPool mgr p
        ({ w with rolls := [] }.activate .pool p (mgr.mother p)))) := by
    refine poolRounds_quiet fun o ho _ hafter => hgrows.quiet hsiblings o ho ?_ hafter
    rintro rfl
    rw [active_spawnPool hchild] at hafter
    cases hafter
  refine ⟨w₁,spawnFuel mgr (mgr.depth p),hw₁.of_rolls,?_⟩
  refine hrenewed.congr hm rfl ?_
  rw [← heq]
  exact hrest.state.symm

theorem sheltered_of_renewed : Sheltered mgr w p where
  limited := by
    have hp : p ∈ (mgr.group .pool (mgr.mother p)).guids := (mgr.mother_iff p _ hm).mp rfl
    by_cases hactive : w.spawns.isActiveObject .pool p = true
    · rcases Nat.eq_zero_or_pos (rounds mgr w p) with hzero | hn
      · have hlimited := (h.rounds hm (List.forall_mem_nil _)).limited
        rw [hzero] at hlimited
        exact hlimited
      · have hsiblings := siblings_of_renewed hm hchecked hkept h hn
        obtain ⟨n,hn⟩ := Nat.exists_eq_add_of_le' hn
        obtain ⟨roll,hroll,hsame⟩ := exists_same (w := w) (n := n) hchecked hp []
        have hlimited := (h.rounds hm (List.forall_mem_cons.mpr ⟨hroll,List.forall_mem_nil _⟩)).limited
        have hrest : Same w (poolRounds mgr (mgr.mother p) n 0 0 { w with rolls := [] }) := by
          refine (poolRounds_quiet (w := { w with rolls := [] }) fun o ho _ hinactive => ?_).of_rolls
          refine hsiblings o ho ?_ hinactive
          rintro rfl
          exact absurd hactive (Bool.eq_false_iff.mp hinactive)
        rw [hn,hsame] at hlimited
        simp only [isActive_of_questState hrest.state] at hlimited
        exact hlimited
    · have hnone : ((mgr.group .quest p).guids.toFinset.filter fun q =>
          w.spawns.isActiveObject .quest q) = ∅ :=
        Finset.filter_eq_empty_iff.mpr fun q hq hquest =>
          hactive (hkept.nested p q (List.mem_toFinset.mp hq) hquest)
      rw [hnone]
      exact Nat.zero_le _
  siblings hn := siblings_of_renewed hm hchecked hkept h hn
  below hn hp hother r hr hne q hq := by
    obtain ⟨o,ho,hop,hinactive⟩ := hother
    exact below_of_renewed hm hchecked hkept h hn hp ho hop hinactive hr hne hq
  spawned hn hp := by
    obtain ⟨w₁,spawn1,hsame,hrenewed⟩ := chosen_of_renewed hm hchecked hkept h hn hp
    exact ⟨fun r => spawned_of_renewed hm hchecked hkept h hn hp,
      choice_of_renewed hchecked hkept hp hsame hrenewed⟩

end Needed

/-- The turn of a pool is right whatever the random numbers if the pool turns alone, and if every nested
pool can be drawn, only then. -/
theorem renewed_iff_turnsAlone (hkept : mgr.mother p ≠ 0 → Kept mgr w) :
    (TurnsAlone mgr w p → ∀ rolls, Renewed mgr { w with rolls := rolls } p
      (updatePool mgr .quest p 1 { w with rolls := rolls })) ∧
    ((mgr.mother p ≠ 0 → mgr.Checked) → (AlwaysRenewed mgr w p ↔ TurnsAlone mgr w p)) := by
  have henough : TurnsAlone mgr w p → ∀ rolls, Renewed mgr { w with rolls := rolls } p
      (updatePool mgr .quest p 1 { w with rolls := rolls }) := by
    intro h rolls
    unfold TurnsAlone at h
    split_ifs at h with hroot
    · exact renewed_of_separate hroot h
    · have hkept := hkept hroot
      exact renewed_of_sheltered hroot ⟨hkept.nested,hkept.pooled,hkept.saved⟩
        ⟨h.limited,h.siblings,h.below,h.spawned⟩
  refine ⟨henough,fun hchecked => ⟨fun h => ?_,fun h rolls _ => henough h rolls⟩⟩
  unfold TurnsAlone
  split_ifs with hroot
  · exact separate_of_renewed hroot h
  · exact sheltered_of_renewed hroot (hchecked hroot) (hkept hroot) h

def nestedGroup : Kind → Nat → PoolGroup
  | .quest, 1 => ⟨[],[⟨101,0⟩,⟨102,0⟩]⟩
  | .quest, 2 => ⟨[],[⟨201,0⟩]⟩
  | .pool, 3 => ⟨[⟨1,60⟩,⟨4,40⟩],[]⟩
  | .creature, 4 => ⟨[],[⟨41,0⟩]⟩
  | _, _ => ⟨[],[]⟩

theorem mem_nestedGroup {k : Kind} {p g : Nat} (h : g ∈ (nestedGroup k p).guids) :
    (k,p,g) ∈ [(Kind.quest,1,101),(.quest,1,102),(.quest,2,201),(.pool,3,1),(.pool,3,4),
      (.creature,4,41)] := by
  unfold nestedGroup at h
  split at h <;> simp_all [PoolGroup.guids]

/-- A quest pool that shares its mother with a pool of creatures, and another quest pool. -/
def nestedPools : PoolMgr where
  maxLimit := fun _ => 1
  group := nestedGroup
  mother := fun p => if p = 1 ∨ p = 4 then 3 else 0
  questCreature := fun _ => [7]
  questGO := fun _ => []
  depth := fun p => if p = 3 then 1 else 0
  limit_lt := examplePools.limit_lt
  one_pool := by
    intro k p q g hp hq
    have hp := mem_nestedGroup hp
    have hq := mem_nestedGroup hq
    simp at hp hq
    grind
  guid_ne := by
    intro k p h
    have h := mem_nestedGroup h
    simp at h
  mother_iff := by
    intro p m hm
    constructor
    · intro h
      split_ifs at h with hp
      · subst h
        rcases hp with rfl | rfl <;> decide
      · exact absurd h.symm hm
    · intro h
      have h := mem_nestedGroup h
      simp at h
      grind
  no_pool_zero := rfl
  depth_lt := by
    intro p c h
    have h := mem_nestedGroup h
    simp at h
    grind
  quest_equal := fun p => by
    unfold nestedGroup
    split <;> simp_all

theorem checked_example : nestedPools.Checked := by
  refine ⟨fun p o ho => ?_,fun p => ?_,fun p q _ => ⟨.creature,7,List.mem_singleton_self 7⟩⟩
  · by_cases hp : p = 3
    · subst hp
      simp [nestedPools,nestedGroup] at ho
      rcases ho with rfl | rfl <;> norm_num
    · simp [nestedPools,nestedGroup,hp] at ho
  · by_cases hp : p = 3
    · subst hp
      norm_num [nestedPools,nestedGroup]
    · simp [nestedPools,nestedGroup,hp]

/-- The quest pool is spawned and may be swapped for its sibling, which has no quests. -/
theorem sheltered_example : Sheltered nestedPools
    (Run.exec (step nestedPools) (.init [] [] fun _ => []) [.spawn 2 [],.spawn 3 []]) 1 := by
  have hchildren : ∀ p, p ≠ 3 → (nestedPools.group .pool p).guids = [] := by
    intro p hp
    simp [nestedPools,nestedGroup,PoolGroup.guids,hp]
  refine ⟨by decide +kernel,fun _ o ho hop _ r hr => ?_,fun _ _ _ r hr hne => ?_,fun _ hp => ?_⟩
  · obtain rfl : o = 4 := by
      have ho := mem_nestedGroup ho
      simp at ho
      omega
    rcases hr.cases_head with rfl | ⟨c,hc,-⟩
    · rfl
    · rw [hchildren 4 (by decide)] at hc
      cases hc.2.1
  · obtain ⟨c,hc,-⟩ := hr.cases_head.resolve_left (Ne.symm hne)
    rw [hchildren 1 (by decide)] at hc
    cases hc.1
  · refine absurd hp ?_
    decide +kernel

theorem renewed_alone :
    let w := Run.exec (step examplePools) (.init [] [] fun _ => []) [.spawn 1 []]
    let w' := Run.exec (step nestedPools) (.init [] [] fun _ => []) [.spawn 2 [],.spawn 3 []]
    (∀ rolls, Renewed examplePools { w with rolls := rolls } 1
      (updatePool examplePools .quest 1 1 { w with rolls := rolls })) ∧
    AlwaysRenewed nestedPools w' 1 := by
  refine ⟨(renewed_iff_turnsAlone (fun h => absurd (by decide) h)).1 ?_,
    ((renewed_iff_turnsAlone fun _ => kept_run _ _ _ (fun _ _ => ⟨List.nodup_nil,nofun⟩) _).2
      fun _ => checked_example).mpr ?_⟩
  · unfold TurnsAlone
    rw [if_pos (by decide)]
    refine .inr ⟨fun h => absurd h (by decide),.inr ?_⟩
    decide +kernel
  · unfold TurnsAlone
    rw [if_neg (by decide)]
    exact sheltered_example

/-- The day after both quest pools were spawned: each has one quest, and it is active. -/
def secondDay : World := Run.exec (step examplePools) (.init [] [] fun _ => []) [.spawn 1 [],.spawn 2 []]

/-- The second pool takes the quest of the first, whose starter then lists it twice. -/
theorem foreign_listed_twice : ¬ ∀ rolls, Renewed examplePools { secondDay with rolls := rolls } 2
    (updatePool examplePools .quest 2 1 { secondDay with rolls := rolls }) := by
  intro h
  have hother := (h []).others 101 (by decide +kernel)
  have htwice := hother.2 .creature 7
  revert htwice
  decide +kernel

end TrinityCore.Pools
