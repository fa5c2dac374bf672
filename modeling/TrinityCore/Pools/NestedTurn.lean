import TrinityCore.Pools.Nesting

set_option autoImplicit false

namespace TrinityCore.Pools

variable {mgr : PoolMgr} {d : ActivePoolData} {w w' w'' : World} {k : Kind}
  {p q x g c m n r o t last : Nat}

section Condition

/-- Once the first pool is spawned it can spawn the second, or a pool in between: there are rounds for
it, and it is not active. -/
def PoolMgr.Spawns (mgr : PoolMgr) (d : ActivePoolData) : Nat → Nat → Prop :=
  Relation.ReflTransGen fun p c => 1 ≤ spawnCount (mgr.maxLimit p) 0 0 ∧
    c ∈ (mgr.group .pool p).guids ∧ d.isActiveObject .pool c = false

/-- The rounds in which the children of a pool are spawned. -/
abbrev poolRounds (mgr : PoolMgr) (m : Nat) : Nat → Nat → Nat → World → World :=
  spawnLoop mgr (despawnPool mgr) (spawnPool mgr) .pool m

/-- Spawning the pool reaches no quests. -/
def Quiet (mgr : PoolMgr) (d : ActivePoolData) (x : Nat) : Prop :=
  ∀ r, mgr.Spawns d x r → (mgr.group .quest r).guids = []

variable (mgr w p)

def rounds : Nat :=
  spawnCount (mgr.maxLimit (mgr.mother p)) (w.spawns.getActiveObjectCount (mgr.mother p)) p

/-- The rounds for the children of the mother leave the quests of other pools alone, and find those of
the pool as they should be. -/
structure Sheltered : Prop where
  limited : ((mgr.group .quest p).guids.toFinset.filter fun q =>
    w.spawns.isActiveObject .quest q).card ≤ mgr.maxLimit p
  siblings : 1 ≤ rounds mgr w p → ∀ o ∈ (mgr.group .pool (mgr.mother p)).guids, o ≠ p →
    w.spawns.isActiveObject .pool o = false → Quiet mgr w.spawns o
  below : 1 ≤ rounds mgr w p → w.spawns.isActiveObject .pool p = true →
    (∃ o ∈ (mgr.group .pool (mgr.mother p)).guids, o ≠ p ∧
      w.spawns.isActiveObject .pool o = false) →
    ∀ r, mgr.Chain w.spawns p r → r ≠ p → ∀ q ∈ (mgr.group .quest r).guids,
      ¬ w.spawns.isActiveObject .quest q
  spawned : 2 ≤ rounds mgr w p → w.spawns.isActiveObject .pool p = false →
    (∀ r, mgr.Spawns w.spawns p r → r ≠ p → (mgr.group .quest r).guids = []) ∧
    if w.questSave p = [] then Separate mgr w p
    else (mgr.group .quest p).guids = [] ∨ mgr.maxLimit p ≠ 0

def TurnsAlone : Prop :=
  if mgr.mother p = 0 then Separate mgr w p else Sheltered mgr w p

end Condition

section Growth

theorem below_of_spawns (h : mgr.Spawns d x r) : mgr.Below x r :=
  Relation.ReflTransGen.mono (fun _ _ h => h.2.1) _ _ h

theorem PoolMgr.Spawns.mono {d' : ActivePoolData} (h : mgr.Spawns d' x r)
    (hkeep : ∀ b, mgr.Under x .pool b → d.isActiveObject .pool b = true →
      d'.isActiveObject .pool b = true) : mgr.Spawns d x r := by
  induction h with
  | refl => exact .refl
  | tail hb hc ih =>
    refine ih.tail ⟨hc.1,hc.2.1,Bool.eq_false_iff.mpr fun hactive => ?_⟩
    have hkept := hkeep _ ⟨_,below_of_spawns hb,hc.2.1⟩ hactive
    rw [hc.2.2] at hkept
    cases hkept

theorem Quiet.mono {d' : ActivePoolData} (h : Quiet mgr d x)
    (hkeep : ∀ b, mgr.Under x .pool b → d.isActiveObject .pool b = true →
      d'.isActiveObject .pool b = true) : Quiet mgr d' x :=
  fun r hr => h r (hr.mono hkeep)

/-- What spawning a pool does to the marks: pools come, in it and below it, and the quests of other
pools that are active stay so. -/
structure Grows (mgr : PoolMgr) (x : Nat) (w w' : World) : Prop where
  pools : ∀ c, w.spawns.isActiveObject .pool c = true → w'.spawns.isActiveObject .pool c = true
  only : ∀ c, w'.spawns.isActiveObject .pool c = true →
    w.spawns.isActiveObject .pool c = true ∨ mgr.Below x c
  quests : ∀ r q, r ≠ x → q ∈ (mgr.group .quest r).guids → w.spawns.isActiveObject .pool r = true →
    w.spawns.isActiveObject .quest q = true → w'.spawns.isActiveObject .quest q = true

theorem Grows.refl : Grows mgr x w w := ⟨fun _ h => h,fun _ h => .inl h,fun _ _ _ _ _ h => h⟩

theorem Grows.trans (h : Grows mgr x w w') (h' : Grows mgr x w' w'') : Grows mgr x w w'' where
  pools c hc := h'.pools c (h.pools c hc)
  only c hc := (h'.only c hc).elim (h.only c) .inr
  quests r q hr hq hpool hactive :=
    h'.quests r q hr hq (h.pools r hpool) (h.quests r q hr hq hpool hactive)

theorem Grows.of_rolled (h : Grows mgr x w.rolled w') : Grows mgr x w w' :=
  ⟨h.pools,h.only,h.quests⟩

theorem grows_activate (hg : g ∈ (mgr.group k x).guids) : Grows mgr x w (w.activate k g x) := by
  have hflag := fun k' g' => w.spawns.isActive_activateObject k' g' (mgr.child_ne hg)
  refine ⟨fun c hc => (hflag .pool c).mpr (.inl hc),fun c hc => ?_,
    fun r q _ _ _ hq => (hflag .quest q).mpr (.inl hq)⟩
  rcases (hflag .pool c).mp hc with hc | ⟨rfl,rfl⟩ | ⟨-,rfl⟩
  · exact .inl hc
  · exact .inr (.single hg)
  · exact .inr .refl

/-- A child that was not active is spawned. -/
theorem Grows.child (hc : c ∈ (mgr.group .pool x).guids) (hinactive : w.spawns.isActiveObject .pool c =
    false) (h : Grows mgr c (w.activate .pool c x) w') : Grows mgr x w w' := by
  have hmark := grows_activate (w := w) hc
  refine ⟨fun b hb => h.pools b (hmark.pools b hb),fun b hb => ?_,fun r q hr hq hpool hactive => ?_⟩
  · rcases h.only b hb with hb | hb
    · exact hmark.only b hb
    · exact .inr (hb.head hc)
  · refine h.quests r q ?_ hq (hmark.pools r hpool) (hmark.quests r q hr hq hpool hactive)
    rintro rfl
    rw [hinactive] at hpool
    cases hpool

theorem Grows.of_rolls {rolls : List Roll} (h : Grows mgr x { w with rolls := rolls } w') :
    Grows mgr x w w' := ⟨h.pools,h.only,h.quests⟩

theorem grows_activateList (cs : List Nat) :
    Grows mgr x w (cs.foldl (fun w q => activateQuest mgr x q w) w) := by
  induction cs generalizing w with
  | nil => exact .refl
  | cons a cs ih =>
    have hflag : ∀ k' g', (activateQuest mgr x a w).spawns.isActiveObject k' g' = true ↔
        w.spawns.isActiveObject k' g' = true ∨ (k' = .quest ∧ g' = a) ∨ (k' = .pool ∧ g' = x) :=
      fun k' g' => w.spawns.isActive_activateObject (k := .quest) (g := a) k' g' nofun
    refine Grows.trans ⟨fun c hc => (hflag .pool c).mpr (.inl hc),fun c hc => ?_,
      fun r q _ _ _ hq => (hflag .quest q).mpr (.inl hq)⟩ ih
    rcases (hflag .pool c).mp hc with hc | ⟨hquest,-⟩ | ⟨-,rfl⟩
    · exact .inl hc
    · exact nomatch hquest
    · exact .inr .refl

theorem grows_spawnQuests (hquests : (mgr.group .quest x).isEmpty = false) (t : Nat) :
    Grows mgr x w (spawnQuests mgr x t w) := by
  unfold spawnQuests
  split_ifs
  · rw [loadQuests_eq]
    exact grows_activateList _
  · obtain ⟨rolls,heq⟩ := chooseQuests_eq (w := w) hquests t
    have hcleared : Grows mgr x w { despawnObject mgr (despawnQuest1 mgr) .quest x 0 w with
        rolls := rolls } := by
      refine ⟨fun c hc => sinksEach_despawnQuest1.pool_active (by decide) hc,fun c hc => ?_,
        fun r q hr hq _ hactive => ?_⟩
      · rcases (sinksEach_despawnQuest1.despawnObject 0).less .pool c hc with hc | ⟨-,rfl⟩
        · exact .inl hc
        · exact .inr .refl
      · exact ((despawnList_quests mgr w x (mgr.group .quest x).guids).1 q).mpr
          ⟨hactive,fun hown => hr (mgr.one_pool _ _ _ _ hq hown)⟩
    have hgrows := hcleared.trans (grows_activateList (x := x) (activated mgr w x))
    rcases heq with heq | heq
    · rw [heq]
      exact hgrows
    · rw [heq]
      exact ⟨hgrows.pools,hgrows.only,hgrows.quests⟩

theorem grows_spawnKind {spawn1 : Nat → World → World} (hspawn : ∀ c ∈ (mgr.group .pool x).guids,
    ∀ w, Grows mgr c w (spawn1 c w)) (k : Kind) :
    Grows mgr x w (spawnKind mgr spawn1 k x 0 w) := by
  have hrolled : ∀ w', Grows mgr x w w' → Grows mgr x w w'.rolled :=
    fun _ h => ⟨h.pools,h.only,h.quests⟩
  unfold spawnKind
  split_ifs with hempty
  · exact .refl
  · cases k with
    | creature =>
      exact spawnLoop_induction hrolled (fun _ _ h hg _ => h.trans (grows_activate hg))
        (fun h => absurd rfl h) _ 0 .refl
    | gameobject =>
      exact spawnLoop_induction hrolled (fun _ _ h hg _ => h.trans (grows_activate hg))
        (fun h => absurd rfl h) _ 0 .refl
    | pool =>
      exact spawnLoop_induction hrolled
        (fun _ c h hc hinactive => h.trans (.child hc hinactive (hspawn c hc _)))
        (fun h => absurd rfl h) _ 0 .refl
    | quest => exact grows_spawnQuests (Bool.eq_false_iff.mpr hempty) 0

theorem grows_spawnFuel (n : Nat) : Grows mgr x w (spawnFuel mgr n x w) := by
  induction n generalizing x w with
  | zero => exact .refl
  | succ n ih =>
    have hkind : ∀ k w, Grows mgr x w (spawnKind mgr (spawnFuel mgr n) k x 0 w) :=
      fun k _ => grows_spawnKind (fun _ _ _ => ih) k
    unfold spawnFuel
    exact (((hkind .pool _).trans (hkind .gameobject _)).trans (hkind .creature _)).trans
      (hkind .quest _)

end Growth

section Unchanged

structure Same (w w' : World) : Prop where
  state : w'.questState = w.questState
  save : w'.questSave = w.questSave

theorem Same.refl : Same w w := ⟨rfl,rfl⟩

theorem Same.trans (h : Same w w') (h' : Same w' w'') : Same w w'' :=
  ⟨h'.state.trans h.state,h'.save.trans h.save⟩

theorem Same.of_rolled (h : Same w.rolled w') : Same w w' := ⟨h.state,h.save⟩

theorem Same.of_rolls {rolls : List Roll} (h : Same { w with rolls := rolls } w') : Same w w' :=
  ⟨h.state,h.save⟩

theorem same_activate (hk : k ≠ .quest) : Same w (w.activate k g x) := ⟨questState_activate hk,rfl⟩

theorem same_onMap {spawn1 : Nat → World → World} (hk : k = .creature ∨ k = .gameobject) :
    Same w (spawnKind mgr spawn1 k x 0 w) := by
  have hloop : Same w (spawnObject mgr onMap onMap k x 0 w) :=
    spawnLoop_induction (fun _ h => ⟨h.state,h.save⟩)
      (fun _ _ h _ _ => h.trans (same_activate (by rcases hk with rfl | rfl <;> decide)))
      (fun h => absurd rfl h) _ 0 .refl
  unfold spawnKind
  split_ifs
  · exact .refl
  · rcases hk with rfl | rfl
    · exact hloop
    · exact hloop

/-- Up to the quests of the pool itself nothing changes when its children are quiet. -/
theorem spawnFuel_eq_quests (hcount : w.spawns.getActiveObjectCount x = 0)
    (hfuel : ∀ c ∈ (mgr.group .pool x).guids, ∀ w : World, w.spawns.getActiveObjectCount c = 0 →
      Quiet mgr w.spawns c → Same w (spawnFuel mgr n c w))
    (hquiet : ∀ r, mgr.Spawns w.spawns x r → r ≠ x → (mgr.group .quest r).guids = []) :
    ∃ w₁, Same w w₁ ∧ spawnFuel mgr (n+1) x w = spawnKind mgr (spawnFuel mgr n) .quest x 0 w₁ := by
  refine ⟨_,?_,rfl⟩
  refine Same.trans (Same.trans ?_ (same_onMap (.inr rfl))) (same_onMap (.inl rfl))
  unfold spawnKind
  split_ifs
  · exact .refl
  dsimp only
  unfold spawnObject
  rw [hcount]
  rcases Nat.eq_zero_or_pos (spawnCount (mgr.maxLimit x) 0 0) with hzero | hrounds
  · rw [hzero]
    exact .refl
  -- the marks only grow, so that what a round draws could have been drawn at the beginning
  refine (spawnLoop_induction (P := fun w' => Same w w' ∧ Grows mgr x w w')
    (fun _ h => ⟨⟨h.1.state,h.1.save⟩,⟨h.2.pools,h.2.only,h.2.quests⟩⟩) (fun w' c h hc hinactive => ?_)
    (fun h => absurd rfl h) _ 0 ⟨.refl,.refl⟩).1
  have hbefore : w.spawns.isActiveObject .pool c = false := by
    refine Bool.eq_false_iff.mpr fun hactive => ?_
    have hkept := h.2.pools c hactive
    rw [hinactive] at hkept
    cases hkept
  have hmark := grows_activate (w := w') hc
  have hchild : Quiet mgr (w'.activate .pool c x).spawns c := by
    refine Quiet.mono (d := w.spawns) (fun r hr => ?_) fun b _ hb => hmark.pools b (h.2.pools b hb)
    refine hquiet r (Relation.ReflTransGen.head ⟨hrounds,hc,hbefore⟩ hr) ?_
    rintro rfl
    have hle := depth_le_of_below (below_of_spawns hr)
    have hlt := mgr.depth_lt _ _ hc
    omega
  have hzero : (w'.activate .pool c x).spawns.getActiveObjectCount c = 0 := by
    have hne := mgr.child_ne hc rfl
    exact (ActivePoolData.count_activateObject c (mgr.child_ne hc)).trans (by simp [hne])
  refine ⟨h.1.trans ((same_activate (by decide)).trans (hfuel c hc _ hzero hchild)),
    h.2.trans (.child hc hinactive (grows_spawnFuel n))⟩

theorem spawnFuel_quiet (hcount : w.spawns.getActiveObjectCount x = 0)
    (hquiet : Quiet mgr w.spawns x) : Same w (spawnFuel mgr n x w) := by
  induction n generalizing x w with
  | zero => exact .refl
  | succ n ih =>
    obtain ⟨w₁,hsame,heq⟩ := spawnFuel_eq_quests hcount (fun _ _ _ => ih) fun r hr _ => hquiet r hr
    have hempty : spawnKind mgr (spawnFuel mgr n) .quest x 0 w₁ = w₁ :=
      spawnKind_empty (hquiet x .refl) 0
    rw [heq,hempty]
    exact hsame

/-- A quiet child is spawned in a round. -/
theorem spawnPool_quiet (ho : o ∈ (mgr.group .pool m).guids) (hquiet : Quiet mgr w.spawns o) :
    Same w (spawnPool mgr o (w.activate .pool o m)) := by
  have hne := mgr.child_ne ho rfl
  refine (same_activate (by decide)).trans (spawnFuel_quiet ?_ ?_)
  · exact (ActivePoolData.count_activateObject o (mgr.child_ne ho)).trans (by simp [hne])
  · exact hquiet.mono fun b _ hb => (grows_activate ho).pools b hb

/-- A child below which nothing has quests is spawned in a round. -/
theorem spawnPool_eq_quests (ho : o ∈ (mgr.group .pool m).guids)
    (hquiet : ∀ r, mgr.Spawns w.spawns o r → r ≠ o → (mgr.group .quest r).guids = []) :
    ∃ w₁, Same w w₁ ∧ spawnPool mgr o (w.activate .pool o m) =
      spawnKind mgr (spawnFuel mgr (mgr.depth o)) .quest o 0 w₁ := by
  have hne := mgr.child_ne ho rfl
  have hzero : (w.activate .pool o m).spawns.getActiveObjectCount o = 0 :=
    (ActivePoolData.count_activateObject o (mgr.child_ne ho)).trans (by simp [hne])
  obtain ⟨w₁,hw₁,heq⟩ := spawnFuel_eq_quests (n := mgr.depth o) hzero (fun _ _ _ => spawnFuel_quiet)
    fun r hr => hquiet r (hr.mono fun b _ hb => (grows_activate ho).pools b hb)
  exact ⟨w₁,(same_activate (by decide)).trans hw₁,heq⟩

theorem Grows.quiet {x : Nat} (h : Grows mgr x w w') (hquiet : ∀ o ∈ (mgr.group .pool m).guids,
      o ≠ t → w.spawns.isActiveObject .pool o = false → Quiet mgr w.spawns o) :
    ∀ o ∈ (mgr.group .pool m).guids, o ≠ t → w'.spawns.isActiveObject .pool o = false →
      Quiet mgr w'.spawns o := by
  intro o ho hne hafter
  refine (hquiet o ho hne (Bool.eq_false_iff.mpr fun hactive => ?_)).mono fun b _ hb => h.pools b hb
  rw [h.pools o hactive] at hafter
  cases hafter

/-- Rounds that can only draw quiet pools. -/
theorem poolRounds_quiet (hquiet : ∀ o ∈ (mgr.group .pool m).guids, o ≠ last →
      w.spawns.isActiveObject .pool o = false → Quiet mgr w.spawns o) :
    Same w (poolRounds mgr m n 0 last w) := by
  induction n generalizing w with
  | zero => exact .refl
  | succ n ih =>
    have hrolled : Same w (poolRounds mgr m n 0 last w.rolled) :=
      (ih (w := w.rolled) hquiet).of_rolled
    unfold poolRounds spawnLoop
    dsimp only
    split
    · exact hrolled
    · rename_i o ho
      obtain ⟨hg,hinactive⟩ := rollOne_spec ho
      split_ifs with hlast htrigger ht
      · exact hrolled
      · exact hrolled
      · exact absurd rfl ht
      · have hinactive : w.spawns.isActiveObject .pool o.guid = false :=
          hinactive.resolve_left htrigger
        have hgrows : Grows mgr m w (spawnPool mgr o.guid (w.rolled.activate .pool o.guid m)) :=
          (Grows.child (w := w.rolled) hg hinactive (grows_spawnFuel _)).of_rolled
        have hsame : Same w (spawnPool mgr o.guid (w.rolled.activate .pool o.guid m)) :=
          (spawnPool_quiet (w := w.rolled) hg (hquiet o.guid hg hlast hinactive)).of_rolled
        exact hsame.trans (ih (hgrows.quiet hquiet))

end Unchanged

section Rounds

theorem despawnList_trigger {despawn1 : Nat → World → World} (ht : t ≠ 0) (hne : k = .pool → t ≠ x)
    (l : List Nat) : l.foldl (despawnOne despawn1 k x t) w =
      if t ∈ l ∧ w.spawns.isActiveObject k t = true then (despawn1 t w).remove k t x else w := by
  induction l generalizing w with
  | nil => simp
  | cons a l ih =>
    rw [List.foldl_cons]
    by_cases hat : a = t
    · subst hat
      by_cases hactive : w.spawns.isActiveObject k a = true
      · have hone : despawnOne despawn1 k x a w a = (despawn1 a w).remove k a x :=
          if_pos ⟨hactive,.inr rfl⟩
        have hgone : ¬ ((despawn1 a w).remove k a x).spawns.isActiveObject k a = true := by
          intro hstill
          rcases (ActivePoolData.isActive_removeObject k a hne).mp hstill with h | h
          · exact h.2 ⟨rfl,rfl⟩
          · exact hne h.1 h.2
        rw [hone,ih,if_neg fun h => hgone h.2,if_pos ⟨List.mem_cons_self,hactive⟩]
      · have hone : despawnOne despawn1 k x a w a = w := if_neg fun h => hactive h.1
        rw [hone,ih,if_neg fun h => hactive h.2,if_neg fun h => hactive h.2]
    · have hone : despawnOne despawn1 k x t w a = w := if_neg fun h => h.2.elim ht hat
      rw [hone,ih]
      simp [Ne.symm hat]

theorem swap_eq (hp : p ∈ (mgr.group .pool m).guids) :
    despawnObject mgr (despawnPool mgr) .pool m p w =
      if w.spawns.isActiveObject .pool p = true then (despawnPool mgr p w).remove .pool p m else w := by
  have hne : p ≠ 0 := fun h => mgr.guid_ne _ _ (h ▸ hp)
  unfold despawnObject
  rw [despawnList_trigger hne (mgr.child_ne hp)]
  simp only [hp,true_and]

theorem isActive_swap (hp : p ∈ (mgr.group .pool m).guids) (hc : ¬ mgr.Below p c)
    (h : w.spawns.isActiveObject .pool c = true) :
    (despawnObject mgr (despawnPool mgr) .pool m p w).spawns.isActiveObject .pool c = true := by
  rw [swap_eq hp]
  split_ifs
  · refine (ActivePoolData.isActive_removeObject .pool c (mgr.child_ne hp)).mpr (.inl ⟨?_,?_⟩)
    · exact (sinks_despawnFuel _).frame .pool c (fun hunder => hc (below_of_under hunder)) h
    · rintro ⟨-,rfl⟩
      exact hc .refl
  · exact h

theorem quest_active_swap (hp : p ∈ (mgr.group .pool m).guids) (hq : q ∈ (mgr.group .quest r).guids)
    (hr : ¬ mgr.Below p r) (h : w.spawns.isActiveObject .quest q = true) :
    (despawnObject mgr (despawnPool mgr) .pool m p w).spawns.isActiveObject .quest q = true := by
  rw [swap_eq hp]
  split_ifs
  · refine (ActivePoolData.isActive_removeObject .quest q (mgr.child_ne hp)).mpr (.inl ⟨?_,nofun⟩)
    refine (sinks_despawnFuel _).frame .quest q ?_ h
    rintro ⟨b,hb,hown⟩
    exact hr (mgr.one_pool _ _ _ _ hown hq ▸ hb)
  · exact h

theorem questState_swap (hp : p ∈ (mgr.group .pool m).guids)
    (hactive : w.spawns.isActiveObject .pool p = true)
    (hidle : ∀ c ∈ (mgr.group .pool p).guids, w.spawns.isActiveObject .pool c = true →
      Idle mgr w.spawns c) : (despawnObject mgr (despawnPool mgr) .pool m p w).questState =
      (despawnObject mgr (despawnQuest1 mgr) .quest p 0 w).questState := by
  rw [swap_eq hp,if_pos hactive,questState_remove (by decide)]
  exact despawnFuel_questState (fun _ _ _ h => despawnFuel_idle h) hidle

/-- The only pools that come with a child are the mother and those below the child. -/
theorem active_of_spawnPool (ho : o ∈ (mgr.group .pool m).guids)
    (h : (spawnPool mgr o (w.activate .pool o m)).spawns.isActiveObject .pool c = true) :
    w.spawns.isActiveObject .pool c = true ∨ c = m ∨ mgr.Below o c := by
  rcases (grows_spawnFuel _).only c h with hactive | hbelow
  · rcases (ActivePoolData.isActive_activateObject .pool c (mgr.child_ne ho)).mp hactive with
      hactive | ⟨-,rfl⟩ | ⟨-,hm⟩
    · exact .inl hactive
    · exact .inr (.inr .refl)
    · exact .inr (.inl hm)
  · exact .inr (.inr hbelow)

theorem active_spawnPool (ho : o ∈ (mgr.group .pool m).guids) :
    (spawnPool mgr o (w.activate .pool o m)).spawns.isActiveObject .pool o = true :=
  (grows_spawnFuel (w := w.activate .pool o m) _).pools o
    ((ActivePoolData.isActive_activateObject .pool o (mgr.child_ne ho)).mpr (.inr (.inl ⟨rfl,rfl⟩)))

/-- The rounds leave the quests as they were, or the quests of the pool are spawned. -/
def Unfolds (mgr : PoolMgr) (p : Nat) (w w' : World) : Prop :=
  Same w w' ∨ w.spawns.isActiveObject .pool p = false ∧ ∃ spawn1 w₁, Same w w₁ ∧
    w'.questState = (spawnKind mgr spawn1 .quest p 0 w₁).questState

theorem Unfolds.after (h : Unfolds mgr p w' w'') (hsame : Same w w')
    (hpools : ∀ c, w.spawns.isActiveObject .pool c = true → w'.spawns.isActiveObject .pool c = true) :
    Unfolds mgr p w w'' := by
  rcases h with h | ⟨hinactive,spawn1,w₁,hw₁,hstate⟩
  · exact .inl (hsame.trans h)
  · refine .inr ⟨Bool.eq_false_iff.mpr fun hactive => ?_,spawn1,w₁,hsame.trans hw₁,hstate⟩
    rw [hpools p hactive] at hinactive
    cases hinactive

theorem poolRounds_unfolds (hp : p ∈ (mgr.group .pool m).guids)
    (hsiblings : ∀ o ∈ (mgr.group .pool m).guids, o ≠ p → w.spawns.isActiveObject .pool o = false →
      Quiet mgr w.spawns o)
    (hbelow : 1 ≤ n → w.spawns.isActiveObject .pool p = false → ∀ r, mgr.Spawns w.spawns p r →
      r ≠ p → (mgr.group .quest r).guids = []) :
    Unfolds mgr p w (poolRounds mgr m n 0 0 w) := by
  induction n generalizing w with
  | zero => exact .inl .refl
  | succ n ih =>
    have hrolled : Unfolds mgr p w
        (poolRounds mgr m n 0 0 w.rolled) :=
      (ih (w := w.rolled) hsiblings fun _ => hbelow (Nat.le_add_left 1 n)).after ⟨rfl,rfl⟩
        fun _ h => h
    have hbelow := hbelow (Nat.le_add_left 1 n)
    unfold poolRounds spawnLoop
    dsimp only
    split
    · exact hrolled
    · rename_i o ho
      obtain ⟨hg,hinactive⟩ := rollOne_spec ho
      split_ifs with hlast htrigger
      · exact hrolled
      · exact absurd rfl htrigger
      · have hinactive : w.spawns.isActiveObject .pool o.guid = false := hinactive.resolve_left hlast
        generalize o.guid = o at hg hinactive
        have hgrows : Grows mgr m w (spawnPool mgr o (w.rolled.activate .pool o m)) :=
          (Grows.child (w := w.rolled) hg hinactive (grows_spawnFuel _)).of_rolled
        have hsiblings' := hgrows.quiet hsiblings
        by_cases hop : o = p
        · subst hop
          obtain ⟨w₁,hw₁,heq⟩ := spawnPool_eq_quests (w := w.rolled) hg (hbelow hinactive)
          have hrest : Same (spawnPool mgr o (w.rolled.activate .pool o m)) (poolRounds mgr m n 0 0
              (spawnPool mgr o (w.rolled.activate .pool o m))) := by
            refine poolRounds_quiet fun o' ho' _ hafter => ?_
            refine hsiblings' o' ho' ?_ hafter
            rintro rfl
            rw [active_spawnPool hg] at hafter
            cases hafter
          refine .inr ⟨hinactive,spawnFuel mgr (mgr.depth o),w₁,?_,hrest.state.trans ?_⟩
          · exact hw₁.of_rolled
          · rw [heq]
        · have hsame : Same w (spawnPool mgr o (w.rolled.activate .pool o m)) :=
            (spawnPool_quiet (w := w.rolled) hg (hsiblings o hg hop hinactive)).of_rolled
          refine (ih hsiblings' fun _ hafter r hr hne => hbelow ?_ r ?_ hne).after hsame hgrows.pools
          · refine Bool.eq_false_iff.mpr fun hactive => ?_
            rw [hgrows.pools p hactive] at hafter
            cases hafter
          · exact hr.mono fun b _ hb => hgrows.pools b hb

theorem idle_of_chain (h : ∀ r, mgr.Chain w.spawns p r → r ≠ p → ∀ q ∈ (mgr.group .quest r).guids,
      ¬ w.spawns.isActiveObject .quest q) : ∀ c ∈ (mgr.group .pool p).guids,
    w.spawns.isActiveObject .pool c = true → Idle mgr w.spawns c := by
  intro c hc hactive r hchain
  refine h r (Relation.ReflTransGen.head ⟨hc,hactive⟩ hchain) ?_
  rintro rfl
  have hle := depth_le_of_below (below_of_chain hchain)
  have hlt := mgr.depth_lt _ _ hc
  omega

theorem not_below_child (hp : p ∈ (mgr.group .pool m).guids) (hb : mgr.Below p c) : c ≠ m := by
  rintro rfl
  have hle := depth_le_of_below hb
  have hlt := mgr.depth_lt _ _ hp
  omega

theorem poolRounds_after_swap (hp : p ∈ (mgr.group .pool m).guids)
    (hsiblings : ∀ o ∈ (mgr.group .pool m).guids, o ≠ p → w.spawns.isActiveObject .pool o = false →
      Quiet mgr w.spawns o) (hgrows : Grows mgr m w w') :
    Same (despawnObject mgr (despawnPool mgr) .pool m p w')
      (poolRounds mgr m n 0 p (despawnObject mgr (despawnPool mgr) .pool m p w')) := by
  refine poolRounds_quiet fun o ho hne hafter => ?_
  have hkeep : ∀ b, mgr.Below o b → w.spawns.isActiveObject .pool b = true →
      (despawnObject mgr (despawnPool mgr) .pool m p w').spawns.isActiveObject .pool b = true :=
    fun b hb hactive => isActive_swap hp (not_below_of_below ho hp hne hb) (hgrows.pools b hactive)
  refine (hsiblings o ho hne (Bool.eq_false_iff.mpr fun hactive => ?_)).mono
    fun b hb => hkeep b (below_of_under hb)
  rw [hkeep o .refl hactive] at hafter
  cases hafter

/-- The rounds that the pool triggers: nothing happens to the quests, or those of the pool are spawned,
or the pool is swapped for another child and its quests are despawned. -/
theorem poolRounds_turn (hp : p ∈ (mgr.group .pool m).guids)
    (hsiblings : 1 ≤ n → ∀ o ∈ (mgr.group .pool m).guids, o ≠ p →
      w.spawns.isActiveObject .pool o = false → Quiet mgr w.spawns o)
    (hbelow : 1 ≤ n → w.spawns.isActiveObject .pool p = true →
      (∃ o ∈ (mgr.group .pool m).guids, o ≠ p ∧ w.spawns.isActiveObject .pool o = false) →
      ∀ r, mgr.Chain w.spawns p r → r ≠ p → ∀ q ∈ (mgr.group .quest r).guids,
        ¬ w.spawns.isActiveObject .quest q)
    (hspawned : 2 ≤ n → w.spawns.isActiveObject .pool p = false → ∀ r, mgr.Spawns w.spawns p r →
      r ≠ p → (mgr.group .quest r).guids = []) :
    let w' := poolRounds mgr m n p 0 w
    Same w w' ∨ 2 ≤ n ∧ Unfolds mgr p w w' ∨
      w'.questState = (despawnObject mgr (despawnQuest1 mgr) .quest p 0 w).questState := by
  have hzero : p ≠ 0 := fun h => mgr.guid_ne _ _ (h ▸ hp)
  dsimp only
  induction n generalizing w with
  | zero => exact .inl .refl
  | succ n ih =>
    have hrolled := ih (w := w.rolled) (fun _ => hsiblings (Nat.le_add_left 1 n))
      (fun _ => hbelow (Nat.le_add_left 1 n)) (fun hn => hspawned (Nat.le_succ_of_le hn))
    have hrolled : Same w (poolRounds mgr m n p 0 w.rolled) ∨
        2 ≤ n+1 ∧ Unfolds mgr p w
          (poolRounds mgr m n p 0 w.rolled) ∨
        (poolRounds mgr m n p 0 w.rolled).questState =
          (despawnObject mgr (despawnQuest1 mgr) .quest p 0 w).questState := by
      rcases hrolled with h | ⟨hn,h⟩ | h
      · exact .inl h.of_rolled
      · exact .inr (.inl ⟨Nat.le_succ_of_le hn,h.after ⟨rfl,rfl⟩ fun _ h => h⟩)
      · have hsame : w.rolled.questState = w.questState := rfl
        exact .inr (.inr (h.trans (despawnQuests_congr hsame _)))
    have hsiblings := hsiblings (Nat.le_add_left 1 n)
    have hbelow := hbelow (Nat.le_add_left 1 n)
    unfold poolRounds spawnLoop
    dsimp only
    split
    · exact hrolled
    · rename_i o ho
      obtain ⟨hg,hinactive⟩ := rollOne_spec ho
      rw [if_pos hzero]
      split_ifs with hlast htrigger
      · exact hrolled
      · -- the pool itself is drawn, and may be drawn again if it is not active
        have hfree : Unfolds mgr p w
            (poolRounds mgr m n 0 0 w.rolled) :=
          (poolRounds_unfolds (w := w.rolled) hp hsiblings fun hn => hspawned (by omega)).after
            ⟨rfl,rfl⟩ fun _ h => h
        rcases Nat.eq_zero_or_pos n with rfl | hn
        · exact .inl ⟨rfl,rfl⟩
        · exact .inr (.inl ⟨by omega,hfree⟩)
      · have hinactive : w.spawns.isActiveObject .pool o.guid = false :=
          hinactive.resolve_left htrigger
        generalize o.guid = o at hg hinactive htrigger
        have hgrows : Grows mgr m w (spawnPool mgr o (w.rolled.activate .pool o m)) :=
          (Grows.child (w := w.rolled) hg hinactive (grows_spawnFuel _)).of_rolled
        have hsame : Same w (spawnPool mgr o (w.rolled.activate .pool o m)) :=
          (spawnPool_quiet (w := w.rolled) hg (hsiblings o hg htrigger hinactive)).of_rolled
        have honly : ∀ c, mgr.Below p c → (spawnPool mgr o
            (w.rolled.activate .pool o m)).spawns.isActiveObject .pool c = true →
            w.spawns.isActiveObject .pool c = true := by
          intro c hc hactive
          rcases active_of_spawnPool (w := w.rolled) hg hactive with h | h | h
          · exact h
          · exact absurd h (not_below_child hp hc)
          · exact absurd hc (not_below_of_below hg hp htrigger h)
        revert hgrows hsame honly
        generalize spawnPool mgr o (w.rolled.activate .pool o m) = w₂
        intro hgrows hsame honly
        have hrest : Same (despawnObject mgr (despawnPool mgr) .pool m p w₂)
            (poolRounds mgr m n 0 p (despawnObject mgr (despawnPool mgr) .pool m p w₂)) :=
          poolRounds_after_swap hp hsiblings hgrows
        by_cases hactive : w.spawns.isActiveObject .pool p = true
        · refine .inr (.inr (hrest.state.trans ?_))
          rw [questState_swap hp (hgrows.pools p hactive)]
          · exact despawnQuests_congr hsame.state _
          · refine idle_of_chain fun r hchain hne q hq hquest => ?_
            rw [isActive_of_questState hsame.state] at hquest
            refine hbelow hactive ⟨o,hg,htrigger,hinactive⟩ r (hchain.mono fun b hb hflag => ?_) hne q
              hq hquest
            exact honly b (below_of_under hb) hflag
        · refine .inl (hsame.trans (Same.trans ?_ hrest))
          rw [swap_eq hp,if_neg fun h => hactive (honly p .refl h)]
          exact .refl

end Rounds

section Enough

theorem updatePool_nested (hm : mgr.mother p ≠ 0) : updatePool mgr .quest p 1 w =
    poolRounds mgr (mgr.mother p) (rounds mgr w p) p 0 w := by
  have hp : p ∈ (mgr.group .pool (mgr.mother p)).guids := (mgr.mother_iff p _ hm).mp rfl
  unfold updatePool spawnKind
  rw [if_pos hm,if_neg fun hempty => List.ne_nil_of_mem hp (guids_of_isEmpty hempty)]
  rfl

/-- Of a nested pool only the quests that are active before and after count. -/
theorem Renewed.congr {w₁ w₁' : World} (hm : mgr.mother p ≠ 0) (h : Renewed mgr w₁ p w₁')
    (hw : w₁.questState = w.questState) (hw' : w'.questState = w₁'.questState) :
    Renewed mgr w p w' := by
  refine ⟨fun hroot => absurd hroot hm,?_,fun q hq => ⟨?_,fun g c => ?_⟩,fun hgivers hlisted => ?_⟩
  · simp only [isActive_of_questState hw']
    exact h.limited
  · rw [isActive_of_questState hw',(h.others q hq).1,isActive_of_questState hw]
  · rw [quests_of_questState hw',(h.others q hq).2 g c,quests_of_questState hw]
  · have hbefore : Listed mgr w₁ := by
      intro r q hq g c hc
      rw [quests_of_questState hw,isActive_of_questState hw]
      exact hlisted r q hq g c hc
    intro r q hq g c hc
    rw [quests_of_questState hw',isActive_of_questState hw']
    exact h.listed hgivers hbefore r q hq g c hc

theorem renewed_unchanged (hm : mgr.mother p ≠ 0)
    (hlimited : ((mgr.group .quest p).guids.toFinset.filter fun q =>
      w.spawns.isActiveObject .quest q).card ≤ mgr.maxLimit p) : Renewed mgr w p w :=
  ⟨fun hroot => absurd hroot hm,hlimited,fun _ _ => ⟨rfl,fun _ _ => rfl⟩,fun _ h => h⟩

theorem renewed_cleared (hm : mgr.mother p ≠ 0) :
    Renewed mgr w p (despawnObject mgr (despawnQuest1 mgr) .quest p 0 w) := by
  obtain ⟨hactive,hcount,-⟩ := despawnList_quests mgr w p (mgr.group .quest p).guids
  refine renewed_of_list (fun hroot => absurd hroot hm) List.nodup_nil nofun (Nat.zero_le _)
    (fun q => ?_) fun g c q => ?_
  · exact (hactive q).trans (by simp)
  · exact (hcount g c q).trans (by simp)

theorem renewed_spawned {spawn1 : Nat → World → World} (hm : mgr.mother p ≠ 0)
    (hsaved : SavedOwn mgr w.questSave)
    (hinactive : ∀ q ∈ (mgr.group .quest p).guids, ¬ w.spawns.isActiveObject .quest q)
    (h : if w.questSave p = [] then Separate mgr w p
      else (mgr.group .quest p).guids = [] ∨ mgr.maxLimit p ≠ 0) :
    Renewed mgr w p (spawnKind mgr spawn1 .quest p 0 w) := by
  unfold spawnKind
  split_ifs with hempty
  · refine renewed_unchanged hm ?_
    rw [guids_of_isEmpty hempty]
    exact Nat.zero_le _
  have hquests := Bool.eq_false_iff.mpr hempty
  dsimp only
  unfold spawnQuests
  by_cases hsave : w.questSave p = []
  · rw [if_pos hsave] at h
    rw [if_neg fun hcase => hcase.2 hsave]
    obtain ⟨hown,hroom⟩ := candidates_of_separate h hquests
    exact renewed_of_candidates hquests hown hroom 0
  · rw [if_neg hsave] at h
    rw [if_pos ⟨rfl,hsave⟩,loadQuests_eq]
    have hlimit : 1 ≤ mgr.maxLimit p :=
      Nat.one_le_iff_ne_zero.mpr (h.resolve_left fun hnil => hempty (isEmpty_of_guids hnil))
    have hsub := loaded_sublist (w.questSave p) (mgr.maxLimit p)
    obtain ⟨hnodup,hown⟩ := hsaved p hquests
    obtain ⟨hactive,hcount⟩ := activateList_quests mgr w p (loaded (w.questSave p) (mgr.maxLimit p))
    refine renewed_of_list (fun hroot => absurd hroot hm) (hnodup.sublist hsub)
      (fun q hq => hown q (hsub.subset hq)) (length_loaded_le hlimit (mgr.limit_lt p)) (fun q => ?_)
      fun g c q => ?_
    · refine (hactive q).trans (or_congr_left ⟨fun hq => ⟨hq,fun hmem => hinactive q hmem hq⟩,And.left⟩)
    · rw [hcount,if_neg fun hq => hinactive q hq.1 hq.2,Nat.sub_zero]

theorem separate_congr (h : w'.spawns.activeQuests = w.spawns.activeQuests)
    (hw : Separate mgr w p) : Separate mgr w' p := by
  refine hw.imp_right fun ⟨hfull,henough⟩ => ⟨fun hzero q hq => ?_,?_⟩
  · rw [quest_isActive,h,← quest_isActive]
    exact hfull hzero q hq
  · unfold newQuests at henough ⊢
    rw [h]
    exact henough

theorem renewed_of_sheltered (hm : mgr.mother p ≠ 0) (hkept : Kept mgr w)
    (h : Sheltered mgr w p) : Renewed mgr w p (updatePool mgr .quest p 1 w) := by
  have hp : p ∈ (mgr.group .pool (mgr.mother p)).guids := (mgr.mother_iff p _ hm).mp rfl
  rw [updatePool_nested hm]
  rcases poolRounds_turn hp h.siblings h.below (fun hn hp => (h.spawned hn hp).1) with
    hsame | ⟨hn,hsame | ⟨hinactive,spawn1,w₁,hw₁,hstate⟩⟩ | hstate
  · exact (renewed_unchanged hm h.limited).congr hm rfl hsame.state
  · exact (renewed_unchanged hm h.limited).congr hm rfl hsame.state
  · refine (renewed_spawned hm ?_ ?_ ?_).congr hm hw₁.state hstate
    · rw [hw₁.save]
      exact hkept.saved
    · intro q hq hactive
      rw [isActive_of_questState hw₁.state] at hactive
      rw [hkept.nested p q hq hactive] at hinactive
      cases hinactive
    · have hclause := (h.spawned hn hinactive).2
      rw [hw₁.save]
      split_ifs at hclause ⊢
      · exact separate_congr (Prod.ext_iff.mp hw₁.state).1 hclause
      · exact hclause
  · exact (renewed_cleared hm).congr hm rfl hstate

end Enough

end TrinityCore.Pools
