import TrinityCore.Pools.QuestTurn

set_option autoImplicit false

namespace TrinityCore.Pools

variable {mgr : PoolMgr} {d : ActivePoolData} {w w' w'' : World} {k : Kind} {p x g c m n r : Nat}

section Tree

/-- An object of the pool or of a pool that is nested in it. -/
def PoolMgr.Under (mgr : PoolMgr) (x : Nat) (k : Kind) (g : Nat) : Prop :=
  ∃ r, mgr.Below x r ∧ g ∈ (mgr.group k r).guids

theorem PoolMgr.Under.child (hc : c ∈ (mgr.group .pool x).guids) (h : mgr.Under c k g) :
    mgr.Under x k g := by
  obtain ⟨r,hr,hg⟩ := h
  exact ⟨r,hr.head hc,hg⟩

theorem depth_le_of_below (h : mgr.Below x p) : mgr.depth p ≤ mgr.depth x := by
  induction h with
  | refl => exact le_rfl
  | tail _ hc ih => exact ((mgr.depth_lt _ _ hc).le).trans ih

theorem below_of_under (h : mgr.Under x .pool p) : mgr.Below x p := by
  obtain ⟨r,hr,hp⟩ := h
  exact hr.tail hp

theorem depth_lt_of_under (h : mgr.Under x .pool p) : mgr.depth p < mgr.depth x := by
  obtain ⟨r,hr,hp⟩ := h
  exact (mgr.depth_lt _ _ hp).trans_le (depth_le_of_below hr)

/-- Two pools of one mother have nothing below them in common. -/
theorem not_below_of_below {o : Nat} (ho : o ∈ (mgr.group .pool m).guids)
    (hp : p ∈ (mgr.group .pool m).guids) (hne : o ≠ p) (hr : mgr.Below o r) : ¬ mgr.Below p r := by
  have hmother : ∀ a b, a ∈ (mgr.group .pool m).guids → b ∈ (mgr.group .pool m).guids → a ≠ b →
      ¬ mgr.Below a b := by
    intro a b ha hb hab h
    rcases h.cases_tail with heq | ⟨e,he,hbe⟩
    · exact hab heq.symm
    · obtain rfl := mgr.one_pool _ _ _ _ hbe hb
      have hle := depth_le_of_below he
      have hlt := mgr.depth_lt _ _ ha
      omega
  intro h
  have hunique : Relator.RightUnique (Function.swap fun p c => c ∈ (mgr.group .pool p).guids) :=
    fun _ _ _ hb hc => mgr.one_pool _ _ _ _ hb hc
  rcases Relation.ReflTransGen.total_of_right_unique hunique (Relation.reflTransGen_swap.mpr hr)
    (Relation.reflTransGen_swap.mpr h) with hop | hpo
  · exact hmother p o hp ho hne.symm (Relation.reflTransGen_swap.mp hop)
  · exact hmother o p ho hp hne (Relation.reflTransGen_swap.mp hpo)

end Tree

section Despawn

variable {despawn1 : Nat → World → World}

/-- What despawning a pool may change: objects in it and below it, and its own entry. -/
structure Sinks (mgr : PoolMgr) (x : Nat) (w w' : World) : Prop where
  less : ∀ k g, w'.spawns.isActiveObject k g = true →
    w.spawns.isActiveObject k g = true ∨ (k = .pool ∧ g = x)
  frame : ∀ k g, ¬ mgr.Under x k g → w.spawns.isActiveObject k g = true →
    w'.spawns.isActiveObject k g = true
  save : w'.questSave = w.questSave

theorem Sinks.refl : Sinks mgr x w w := ⟨fun _ _ h => .inl h,fun _ _ _ h => h,rfl⟩

theorem Sinks.trans (h : Sinks mgr x w w') (h' : Sinks mgr x w' w'') : Sinks mgr x w w'' where
  less k g ha := (h'.less k g ha).elim (h.less k g) .inr
  frame k g hg ha := h'.frame k g hg (h.frame k g hg ha)
  save := h'.save.trans h.save

/-- How one object of the group is despawned, without its mark. -/
def SinksEach (mgr : PoolMgr) (k : Kind) (x : Nat) (despawn1 : Nat → World → World) : Prop :=
  ∀ g ∈ (mgr.group k x).guids, ∀ w : World, Sinks mgr g w (despawn1 g w) ∧
    (k ≠ .pool → (despawn1 g w).spawns = w.spawns)

theorem sinksEach_onMap : SinksEach mgr k x onMap := fun _ _ _ => ⟨.refl,fun _ => rfl⟩

theorem sinksEach_despawnQuest1 : SinksEach mgr .quest x (despawnQuest1 mgr) :=
  fun _ _ _ => ⟨⟨fun _ _ h => .inl h,fun _ _ _ h => h,rfl⟩,fun _ => rfl⟩

theorem SinksEach.despawnOne (hd : SinksEach mgr k x despawn1) (hg : g ∈ (mgr.group k x).guids)
    (guid : Nat) : Sinks mgr x w (despawnOne despawn1 k x guid w g) := by
  unfold Pools.despawnOne
  split_ifs with hactive
  · obtain ⟨hsinks,hsame⟩ := hd g hg w
    have hflag := fun k' g' => (despawn1 g w).spawns.isActive_removeObject k' g' (mgr.child_ne hg)
    refine ⟨fun k' g' ha => ?_,fun k' g' hout ha => (hflag k' g').mpr (.inl ⟨?_,?_⟩),hsinks.save⟩
    · rcases (hflag k' g').mp ha with ⟨ha,hne⟩ | hx
      · by_cases hk : k = .pool
        · refine (hsinks.less k' g' ha).imp_right fun h => absurd ⟨h.1.trans hk.symm,h.2⟩ hne
        · rw [hsame hk] at ha
          exact .inl ha
      · exact .inr hx
    · by_cases hk : k = .pool
      · subst hk
        exact hsinks.frame k' g' (fun h => hout (h.child hg)) ha
      · rw [hsame hk]
        exact ha
    · rintro ⟨rfl,rfl⟩
      exact hout ⟨x,.refl,hg⟩
  · exact .refl

theorem SinksEach.despawnList (hd : SinksEach mgr k x despawn1) (guid : Nat) {l : List Nat}
    (hl : ∀ g ∈ l, g ∈ (mgr.group k x).guids) :
    Sinks mgr x w (l.foldl (Pools.despawnOne despawn1 k x guid) w) := by
  induction l generalizing w with
  | nil => exact .refl
  | cons g l ih =>
    exact (hd.despawnOne (hl g List.mem_cons_self) guid).trans
      (ih fun g hg => hl g (List.mem_cons_of_mem _ hg))

theorem SinksEach.despawnObject (hd : SinksEach mgr k x despawn1) (guid : Nat) :
    Sinks mgr x w (despawnObject mgr despawn1 k x guid w) :=
  hd.despawnList guid fun _ hg => hg

theorem sinks_despawnFuel (n : Nat) : Sinks mgr x w (despawnFuel mgr n x w) := by
  induction n generalizing x w with
  | zero => exact .refl
  | succ n ih =>
    have hpools : SinksEach mgr .pool x (despawnFuel mgr n) :=
      fun _ _ _ => ⟨ih,fun h => absurd rfl h⟩
    unfold despawnFuel
    exact (((sinksEach_onMap.despawnObject 0).trans (sinksEach_onMap.despawnObject 0)).trans
      (hpools.despawnObject 0)).trans (sinksEach_despawnQuest1.despawnObject 0)

theorem sinksEach_despawnFuel (n : Nat) : SinksEach mgr .pool x (despawnFuel mgr n) :=
  fun _ _ _ => ⟨sinks_despawnFuel n,fun h => absurd rfl h⟩

theorem isActive_despawnOne {k' : Kind} {g' : Nat} (hd : SinksEach mgr k x despawn1)
    (hg : g ∈ (mgr.group k x).guids) (hne : ¬ (k' = k ∧ g' = g)) (hout : ¬ mgr.Under g k' g')
    (guid : Nat) (h : w.spawns.isActiveObject k' g' = true) :
    (Pools.despawnOne despawn1 k x guid w g).spawns.isActiveObject k' g' = true := by
  unfold Pools.despawnOne
  split_ifs
  · refine (ActivePoolData.isActive_removeObject k' g' (mgr.child_ne hg)).mpr (.inl ⟨?_,hne⟩)
    exact (hd g hg w).1.frame k' g' hout h
  · exact h

end Despawn

section Chains

/-- A chain of pools, each spawned in the one before it. -/
def PoolMgr.Chain (mgr : PoolMgr) (d : ActivePoolData) : Nat → Nat → Prop :=
  Relation.ReflTransGen fun p c => c ∈ (mgr.group .pool p).guids ∧ d.isActiveObject .pool c = true

theorem below_of_chain (h : mgr.Chain d x r) : mgr.Below x r :=
  Relation.ReflTransGen.mono (fun _ _ h => h.1) _ _ h

theorem PoolMgr.Chain.mono {d' : ActivePoolData} (h : mgr.Chain d x r)
    (hkeep : ∀ b, mgr.Under x .pool b → d.isActiveObject .pool b = true →
      d'.isActiveObject .pool b = true) : mgr.Chain d' x r := by
  induction h with
  | refl => exact .refl
  | tail hb hc ih => exact ih.tail ⟨hc.1,hkeep _ ⟨_,below_of_chain hb,hc.1⟩ hc.2⟩

/-- No quest is active in a pool that a chain from the pool leads to. -/
def Idle (mgr : PoolMgr) (d : ActivePoolData) (x : Nat) : Prop :=
  ∀ r, mgr.Chain d x r → ∀ q ∈ (mgr.group .quest r).guids, ¬ d.isActiveObject .quest q

theorem SinksEach.pool_active {despawn1 : Nat → World → World} (hd : SinksEach mgr k x despawn1)
    (hk : k ≠ .pool) (h : w.spawns.isActiveObject .pool c = true) :
    (Pools.despawnObject mgr despawn1 k x 0 w).spawns.isActiveObject .pool c = true := by
  suffices hfold : ∀ l : List Nat, (∀ g ∈ l, g ∈ (mgr.group k x).guids) → ∀ w : World,
      w.spawns.isActiveObject .pool c = true →
      (l.foldl (Pools.despawnOne despawn1 k x 0) w).spawns.isActiveObject .pool c = true from
    hfold _ (fun _ h => h) w h
  intro l hl
  induction l with
  | nil => exact fun _ h => h
  | cons a l ih =>
    intro w h
    refine ih (fun g hg => hl g (List.mem_cons_of_mem _ hg)) _ ?_
    have ha := hl a List.mem_cons_self
    unfold Pools.despawnOne
    split_ifs
    · refine (ActivePoolData.isActive_removeObject .pool c (mgr.child_ne ha)).mpr (.inl ⟨?_,?_⟩)
      · rw [(hd a ha w).2 hk]
        exact h
      · exact fun heq => hk heq.1.symm
    · exact h

/-- The quests at the end of a chain are despawned with its first pool. -/
theorem despawnFuel_clears {q : Nat} (hn : mgr.depth x < n) (hchain : mgr.Chain w.spawns x r)
    (hq : q ∈ (mgr.group .quest r).guids) :
    ¬ (despawnFuel mgr n x w).spawns.isActiveObject .quest q := by
  induction n generalizing x w with
  | zero => omega
  | succ n ih =>
    have hlast : ∀ w : World, (q ∈ (mgr.group .quest x).guids ∨ ¬ w.spawns.isActiveObject .quest q) →
        ¬ (despawnObject mgr (despawnQuest1 mgr) .quest x 0 w).spawns.isActiveObject .quest q := by
      intro w h hactive
      obtain ⟨ha,hnot⟩ := ((despawnList_quests mgr w x (mgr.group .quest x).guids).1 q).mp hactive
      exact h.elim hnot fun h => h ha
    have hmaps : ∀ b, w.spawns.isActiveObject .pool b = true → (despawnObject mgr onMap .gameobject x 0
        (despawnObject mgr onMap .creature x 0 w)).spawns.isActiveObject .pool b = true := by
      intro b hb
      exact (sinksEach_onMap (k := .gameobject)).pool_active (by decide)
        ((sinksEach_onMap (k := .creature)).pool_active (by decide) hb)
    unfold despawnFuel
    refine hlast _ ?_
    rcases hchain.cases_head with rfl | ⟨c,⟨hc,hactive⟩,hrest⟩
    · exact .inl hq
    right
    have hrest := PoolMgr.Chain.mono hrest fun b _ hb => hmaps b hb
    have hactive := hmaps c hactive
    revert hrest hactive
    generalize despawnObject mgr onMap .gameobject x 0 (despawnObject mgr onMap .creature x 0 w) = w₁
    intro hrest hactive
    -- the children are despawned in turn; those before leave the chain alone
    suffices hfold : ∀ l : List Nat, (∀ a ∈ l, a ∈ (mgr.group .pool x).guids) → c ∈ l →
        ∀ w₁ : World, mgr.Chain w₁.spawns c r → w₁.spawns.isActiveObject .pool c = true →
        ¬ (l.foldl (despawnOne (despawnFuel mgr n) .pool x 0) w₁).spawns.isActiveObject .quest q from
      hfold _ (fun _ h => h) hc w₁ hrest hactive
    intro l hl hmem
    induction l with
    | nil => cases hmem
    | cons a l ihl =>
      intro w₁ hrest hactive
      have ha := hl a List.mem_cons_self
      have hl' := fun b hb => hl b (List.mem_cons_of_mem a hb)
      rw [List.foldl_cons]
      by_cases hac : a = c
      · subst hac
        have hlt := mgr.depth_lt x a ha
        intro hafter
        have hone := ((sinksEach_despawnFuel n).despawnList 0 hl').less _ _ hafter
        unfold despawnOne at hone
        rw [if_pos ⟨hactive,.inl rfl⟩] at hone
        have hquest := (ActivePoolData.isActive_removeObject .quest q (mgr.child_ne ha)).mp
          (hone.resolve_right (by simp))
        exact ih (by omega) hrest (hquest.resolve_right (by simp)).1
      · have hapart : ∀ b, mgr.Below c b → ¬ mgr.Below a b :=
          fun b hb hab => not_below_of_below hc ha (Ne.symm hac) hb hab
        refine ihl hl' ((List.mem_cons.mp hmem).resolve_left (Ne.symm hac)) _ ?_ ?_
        · refine hrest.mono fun b hb hflag => ?_
          have hb := below_of_under hb
          exact isActive_despawnOne (sinksEach_despawnFuel n) ha
            (fun h => hapart b hb (h.2 ▸ .refl)) (fun h => hapart b hb (below_of_under h)) 0 hflag
        · exact isActive_despawnOne (sinksEach_despawnFuel n) ha (fun h => hac h.2.symm)
            (fun h => hapart c .refl (below_of_under h)) 0 hactive

end Chains

section Quiet

/-- The part of a world that quests are about. -/
def World.questState (w : World) : Finset Nat × List (Nat × Nat) × List (Nat × Nat) :=
  (w.spawns.activeQuests,w.creatureQuests,w.gameobjectQuests)

theorem isActive_of_questState (h : w'.questState = w.questState) (q : Nat) :
    w'.spawns.isActiveObject .quest q = w.spawns.isActiveObject .quest q := by
  exact congrArg (fun quests => decide (q ∈ quests)) (Prod.ext_iff.mp h).1

theorem quests_of_questState (h : w'.questState = w.questState) (g : Giver) :
    w'.quests g = w.quests g := by
  cases g with
  | creature => exact (Prod.ext_iff.mp (Prod.ext_iff.mp h).2).1
  | gameobject => exact (Prod.ext_iff.mp (Prod.ext_iff.mp h).2).2

theorem questState_remove (hk : k ≠ .quest) : (w.remove k g x).questState = w.questState := by
  cases k with
  | quest => exact absurd rfl hk
  | creature => rfl
  | gameobject => rfl
  | pool => rfl

theorem questState_activate (hk : k ≠ .quest) : (w.activate k g x).questState = w.questState := by
  cases k with
  | quest => exact absurd rfl hk
  | creature => rfl
  | gameobject => rfl
  | pool => rfl

theorem questState_onMap (hk : k ≠ .quest) (l : List Nat) :
    (l.foldl (despawnOne onMap k x 0) w).questState = w.questState := by
  induction l generalizing w with
  | nil => rfl
  | cons a l ih =>
    refine ih.trans ?_
    unfold despawnOne
    split_ifs
    · exact questState_remove hk
    · rfl

theorem despawnQuests_congr (h : w'.questState = w.questState) (l : List Nat) :
    (l.foldl (despawnOne (despawnQuest1 mgr) .quest x 0) w').questState =
      (l.foldl (despawnOne (despawnQuest1 mgr) .quest x 0) w).questState := by
  induction l generalizing w w' with
  | nil => exact h
  | cons a l ih =>
    refine ih ?_
    unfold despawnOne
    rw [isActive_of_questState h]
    split_ifs
    · obtain ⟨hactive,hcreatures,hobjects⟩ : w'.spawns.activeQuests = w.spawns.activeQuests ∧
          w'.creatureQuests = w.creatureQuests ∧ w'.gameobjectQuests = w.gameobjectQuests := by
        simpa [World.questState] using h
      simp [World.questState,World.remove,despawnQuest1,ActivePoolData.removeObject,
        ActivePoolData.changeCount,ActivePoolData.unmark,hactive,hcreatures,hobjects]
    · exact h

theorem despawnQuests_idle (h : ∀ q ∈ (mgr.group .quest x).guids, ¬ w.spawns.isActiveObject .quest q) :
    despawnObject mgr (despawnQuest1 mgr) .quest x 0 w = w := by
  unfold despawnObject
  generalize (mgr.group .quest x).guids = l at h
  induction l with
  | nil => rfl
  | cons a l ih =>
    have hone : despawnOne (despawnQuest1 mgr) .quest x 0 w a = w :=
      if_neg fun hactive => h a List.mem_cons_self hactive.1
    rw [List.foldl_cons,hone]
    exact ih fun q hq => h q (List.mem_cons_of_mem a hq)

theorem Idle.sinks (h : Idle mgr w.spawns c) (hc : mgr.depth c < mgr.depth x)
    (hs : Sinks mgr x w w') : Idle mgr w'.spawns c := by
  intro r hchain q hq hactive
  have hbefore := (hs.less _ _ hactive).resolve_right nofun
  refine h r (hchain.mono fun b hb hflag => ?_) q hq hbefore
  refine (hs.less _ _ hflag).resolve_right fun hx => ?_
  have hlt := depth_lt_of_under hb
  rw [hx.2] at hlt
  omega

/-- Despawning a pool with no active quest below it despawns the quests of the pool. -/
theorem despawnFuel_questState
    (hfuel : ∀ c ∈ (mgr.group .pool x).guids, ∀ w : World, Idle mgr w.spawns c →
      (despawnFuel mgr n c w).questState = w.questState)
    (hidle : ∀ c ∈ (mgr.group .pool x).guids, w.spawns.isActiveObject .pool c = true →
      Idle mgr w.spawns c) : (despawnFuel mgr (n+1) x w).questState =
      (despawnObject mgr (despawnQuest1 mgr) .quest x 0 w).questState := by
  have hchildren : ∀ {w' : World}, Sinks mgr x w w' → ∀ c ∈ (mgr.group .pool x).guids,
      w'.spawns.isActiveObject .pool c = true → Idle mgr w'.spawns c := by
    intro w' hs c hc hactive
    have hlt := mgr.depth_lt x c hc
    refine (hidle c hc ((hs.less _ _ hactive).resolve_right fun hx => ?_)).sinks hlt hs
    rw [hx.2] at hlt
    omega
  have hmaps : Sinks mgr x w (despawnObject mgr onMap .gameobject x 0
      (despawnObject mgr onMap .creature x 0 w)) :=
    (sinksEach_onMap.despawnObject 0).trans (sinksEach_onMap.despawnObject 0)
  have hmapState : (despawnObject mgr onMap .gameobject x 0
      (despawnObject mgr onMap .creature x 0 w)).questState = w.questState :=
    (questState_onMap (by decide) _).trans (questState_onMap (by decide) _)
  unfold despawnFuel
  refine despawnQuests_congr ?_ _
  have hchildren := hchildren hmaps
  revert hchildren hmapState
  generalize despawnObject mgr onMap .gameobject x 0 (despawnObject mgr onMap .creature x 0 w) = w₁
  intro hmapState hchildren
  refine Eq.trans ?_ hmapState
  suffices hfold : ∀ l : List Nat, (∀ a ∈ l, a ∈ (mgr.group .pool x).guids) → ∀ w₁ : World,
      (∀ c ∈ (mgr.group .pool x).guids, w₁.spawns.isActiveObject .pool c = true →
        Idle mgr w₁.spawns c) →
      (l.foldl (despawnOne (despawnFuel mgr n) .pool x 0) w₁).questState = w₁.questState from
    hfold _ (fun _ h => h) w₁ hchildren
  intro l hl
  induction l with
  | nil => exact fun _ _ => rfl
  | cons a l ih =>
    intro w₁ hchildren
    have ha := hl a List.mem_cons_self
    have hone := (sinksEach_despawnFuel n).despawnOne ha 0 (w := w₁)
    rw [List.foldl_cons,ih fun b hb => hl b (List.mem_cons_of_mem a hb)]
    · unfold despawnOne
      split_ifs with hactive
      · exact (questState_remove (by decide)).trans (hfuel a ha w₁ (hchildren a ha hactive.1))
      · rfl
    · intro c hc hactive
      have hlt := mgr.depth_lt x c hc
      refine (hchildren c hc ((hone.less _ _ hactive).resolve_right fun hx => ?_)).sinks hlt hone
      rw [hx.2] at hlt
      omega

theorem despawnFuel_idle (h : Idle mgr w.spawns x) :
    (despawnFuel mgr n x w).questState = w.questState := by
  induction n generalizing x w with
  | zero => rfl
  | succ n ih =>
    rw [despawnFuel_questState (fun c _ w hc => ih hc) fun c hc hactive r hchain =>
      h r (hchain.head ⟨hc,hactive⟩)]
    rw [despawnQuests_idle (h x .refl)]

end Quiet

section Kept

/-- What every run keeps: quests are active in active pools only, and the saved ones are of their
pool. -/
structure Kept (mgr : PoolMgr) (w : World) : Prop where
  nested : ∀ r q, q ∈ (mgr.group .quest r).guids → w.spawns.isActiveObject .quest q = true →
    w.spawns.isActiveObject .pool r = true
  pooled : ∀ q, w.spawns.isActiveObject .quest q = true → ∃ r, q ∈ (mgr.group .quest r).guids
  saved : SavedOwn mgr w.questSave

theorem Kept.of_less (h : Kept mgr w)
    (hquests : ∀ q, w'.spawns.isActiveObject .quest q = true → w.spawns.isActiveObject .quest q = true)
    (hpools : ∀ r q, q ∈ (mgr.group .quest r).guids → w'.spawns.isActiveObject .quest q = true →
      w.spawns.isActiveObject .pool r = true → w'.spawns.isActiveObject .pool r = true)
    (hsave : w'.questSave = w.questSave) : Kept mgr w' where
  nested r q hq hactive := hpools r q hq hactive (h.nested r q hq (hquests q hactive))
  pooled q hactive := h.pooled q (hquests q hactive)
  saved := hsave ▸ h.saved

variable {despawn1 spawn1 : Nat → World → World}

def KeptEach (mgr : PoolMgr) (k : Kind) (x : Nat) (despawn1 : Nat → World → World) : Prop :=
  ∀ g ∈ (mgr.group k x).guids, ∀ w, Kept mgr w → Kept mgr (despawn1 g w) ∧
    (k = .pool → ∀ q ∈ (mgr.group .quest g).guids, ¬ (despawn1 g w).spawns.isActiveObject .quest q)

theorem KeptEach.despawnObject (hd : KeptEach mgr k x despawn1) (guid : Nat) (h : Kept mgr w) :
    Kept mgr (despawnObject mgr despawn1 k x guid w) := by
  suffices hfold : ∀ l : List Nat, (∀ a ∈ l, a ∈ (mgr.group k x).guids) → ∀ w, Kept mgr w →
      Kept mgr (l.foldl (despawnOne despawn1 k x guid) w) from hfold _ (fun _ h => h) w h
  intro l hl
  induction l with
  | nil => exact fun _ h => h
  | cons a l ih =>
    intro w h
    refine ih (fun b hb => hl b (List.mem_cons_of_mem a hb)) _ ?_
    have ha := hl a List.mem_cons_self
    unfold despawnOne
    split_ifs
    · obtain ⟨hkept,hcleared⟩ := hd a ha w h
      have hflag := fun k' g' => (despawn1 a w).spawns.isActive_removeObject k' g' (mgr.child_ne ha)
      refine hkept.of_less (fun q hq => ?_) (fun r q hr hq hactive => ?_) rfl
      · exact (((hflag .quest q).mp hq).resolve_right nofun).1
      · have hq := (((hflag .quest q).mp hq).resolve_right nofun).1
        exact (hflag .pool r).mpr (.inl ⟨hactive,fun heq => hcleared heq.1.symm q (heq.2 ▸ hr) hq⟩)
    · exact h

theorem keptEach_onMap (hk : k ≠ .pool) : KeptEach mgr k x onMap :=
  fun _ _ _ h => ⟨h,fun hpool => absurd hpool hk⟩

theorem keptEach_despawnQuest1 : KeptEach mgr .quest x (despawnQuest1 mgr) :=
  fun _ _ _ h => ⟨⟨h.nested,h.pooled,h.saved⟩,nofun⟩

theorem kept_despawnFuel (hn : mgr.depth x < n) (h : Kept mgr w) :
    Kept mgr (despawnFuel mgr n x w) := by
  induction n generalizing x w with
  | zero => omega
  | succ n ih =>
    have hpools : KeptEach mgr .pool x (despawnFuel mgr n) := by
      intro c hc w h
      have hlt := mgr.depth_lt x c hc
      exact ⟨ih (by omega) h,fun _ q hq => despawnFuel_clears (by omega) .refl hq⟩
    unfold despawnFuel
    exact keptEach_despawnQuest1.despawnObject 0 (hpools.despawnObject 0
      ((keptEach_onMap (by decide)).despawnObject 0 ((keptEach_onMap (by decide)).despawnObject 0 h)))

theorem keptEach_despawnPool : KeptEach mgr .pool x (despawnPool mgr) :=
  fun _ _ _ h => ⟨kept_despawnFuel (Nat.lt_succ_self _) h,
    fun _ _ hq => despawnFuel_clears (Nat.lt_succ_self _) .refl hq⟩

/-- What holds before the rounds, and of everything they draw, holds behind them. -/
theorem spawnLoop_induction {P : World → Prop} {t : Nat} (hrolled : ∀ w, P w → P w.rolled)
    (hspawn : ∀ w g, P w → g ∈ (mgr.group k x).guids → w.spawns.isActiveObject k g = false →
      P (spawn1 g (w.activate k g x)))
    (hdespawn : t ≠ 0 → ∀ w, P w → P (despawnObject mgr despawn1 k x t w)) (n last : Nat) (h : P w) :
    P (spawnLoop mgr despawn1 spawn1 k x n t last w) := by
  induction n generalizing t last w with
  | zero => exact h
  | succ n ih =>
    have hzero : ∀ last w, P w → P (spawnLoop mgr despawn1 spawn1 k x n 0 last w) :=
      fun last w h => ih (fun h => absurd rfl h) last h
    unfold spawnLoop
    dsimp only
    split
    · exact ih hdespawn last (hrolled w h)
    · rename_i o ho
      obtain ⟨hg,hinactive⟩ := rollOne_spec ho
      split_ifs with hlast htrigger ht
      · exact ih hdespawn last (hrolled w h)
      · exact hzero last w.rolled (hrolled w h)
      · exact hzero t _ (hdespawn ht _ (hspawn w.rolled _ (hrolled w h) hg
          (hinactive.resolve_left htrigger)))
      · exact hzero last _ (hspawn w.rolled _ (hrolled w h) hg (hinactive.resolve_left htrigger))

theorem Kept.activate (h : Kept mgr w) (hk : k ≠ .quest) (hg : g ∈ (mgr.group k x).guids) :
    Kept mgr (w.activate k g x) := by
  have hflag := fun k' g' => w.spawns.isActive_activateObject k' g' (mgr.child_ne hg)
  refine h.of_less (fun q hq => ?_) (fun r q _ _ hr => (hflag .pool r).mpr (.inl hr)) rfl
  rcases (hflag .quest q).mp hq with hq | ⟨hquest,-⟩ | hpool
  · exact hq
  · exact absurd hquest.symm hk
  · exact nomatch hpool.1

/-- A quest that is activated for the pool is one of its own or of a pool that is active. -/
def MayTake (mgr : PoolMgr) (w : World) (x q : Nat) : Prop :=
  ∃ r, q ∈ (mgr.group .quest r).guids ∧ (r = x ∨ w.spawns.isActiveObject .pool r = true)

theorem Kept.activateList {cs : List Nat} (h : Kept mgr w) (hcs : ∀ q ∈ cs, MayTake mgr w x q) :
    Kept mgr (cs.foldl (fun w q => activateQuest mgr x q w) w) := by
  induction cs generalizing w with
  | nil => exact h
  | cons a cs ih =>
    have hflag : ∀ k' g', (activateQuest mgr x a w).spawns.isActiveObject k' g' = true ↔
        w.spawns.isActiveObject k' g' = true ∨ (k' = .quest ∧ g' = a) ∨ (k' = .pool ∧ g' = x) :=
      fun k' g' => w.spawns.isActive_activateObject (k := .quest) (g := a) k' g' nofun
    obtain ⟨r,hr,hown⟩ := hcs a List.mem_cons_self
    refine ih ⟨?_,?_,h.saved⟩ fun q hq => ?_
    · intro r' q hq hactive
      rcases (hflag .quest q).mp hactive with hactive | ⟨-,rfl⟩ | hpool
      · exact (hflag .pool r').mpr (.inl (h.nested r' q hq hactive))
      · obtain rfl := mgr.one_pool _ _ _ _ hr hq
        exact (hflag .pool r).mpr (hown.elim (fun heq => .inr (.inr ⟨rfl,heq⟩)) .inl)
      · exact nomatch hpool.1
    · intro q hactive
      rcases (hflag .quest q).mp hactive with hactive | ⟨-,rfl⟩ | hpool
      · exact h.pooled q hactive
      · exact ⟨r,hr⟩
      · exact nomatch hpool.1
    · obtain ⟨r',hr',hown'⟩ := hcs q (List.mem_cons_of_mem a hq)
      exact ⟨r',hr',hown'.imp_right fun hactive => (hflag .pool r').mpr (.inl hactive)⟩

theorem mem_candidates {q : Nat} (h : q ∈ (candidates mgr w x).1) :
    q ∈ (mgr.group .quest x).guids ∨ w.spawns.isActiveObject .quest q = true := by
  unfold candidates at h
  dsimp only at h
  split_ifs at h with hrecycle
  · rcases (recycleQuests_spec (mgr.maxLimit x) (newQuests mgr x w.spawns) hrecycle.2).1 q h with h | h
    · exact .inl (newQuests_own h)
    · exact .inr ((quest_isActive _ _).mpr h)
  · exact .inl (newQuests_own h)

theorem Kept.spawnQuests (h : Kept mgr w) (hquests : (mgr.group .quest x).isEmpty = false) (t : Nat) :
    Kept mgr (spawnQuests mgr x t w) := by
  unfold Pools.spawnQuests
  split_ifs
  · rw [loadQuests_eq]
    refine h.activateList fun q hq => ⟨x,?_,.inl rfl⟩
    exact (h.saved x hquests).2 q ((loaded_sublist _ _).subset hq)
  · obtain ⟨rolls,heq⟩ := chooseQuests_eq (w := w) hquests t
    have hcleared : Kept mgr { despawnObject mgr (despawnQuest1 mgr) .quest x 0 w with
        rolls := rolls } :=
      have hkept := keptEach_despawnQuest1.despawnObject 0 h
      ⟨hkept.nested,hkept.pooled,hkept.saved⟩
    have hkept := hcleared.activateList (x := x)
      (show ∀ q ∈ activated mgr w x, _ from fun q hq => ?_)
    · rcases heq with heq | heq <;> rw [heq]
      · exact hkept
      · exact ⟨hkept.nested,hkept.pooled,savedOwn_saveQuestsToDB⟩
    · rw [activated_eq hquests] at hq
      rcases mem_candidates (mem_choices rfl hq) with hown | hactive
      · exact ⟨x,hown,.inl rfl⟩
      · obtain ⟨r,hr⟩ := h.pooled q hactive
        exact ⟨r,hr,.inr (sinksEach_despawnQuest1.pool_active (by decide) (h.nested r q hr hactive))⟩

/-- How one object of the group is spawned, once it is marked. -/
def KeptBy (mgr : PoolMgr) (k : Kind) (x : Nat) (spawn1 : Nat → World → World) : Prop :=
  ∀ g ∈ (mgr.group k x).guids, ∀ w, Kept mgr w → Kept mgr (spawn1 g w)

theorem KeptBy.spawnObject (hs : KeptBy mgr k x spawn1) (hd : KeptEach mgr k x despawn1)
    (hk : k ≠ .quest) (h : Kept mgr w) (t : Nat) :
    Kept mgr (spawnObject mgr despawn1 spawn1 k x t w) :=
  spawnLoop_induction (fun _ h => ⟨h.nested,h.pooled,h.saved⟩)
    (fun _ g h hg _ => hs g hg _ (h.activate hk hg)) (fun _ _ h => hd.despawnObject t h) _ 0 h

theorem KeptBy.spawnKind (hs : KeptBy mgr .pool x spawn1) (h : Kept mgr w) (k : Kind) (t : Nat) :
    Kept mgr (spawnKind mgr spawn1 k x t w) := by
  have hmap : KeptBy mgr k x onMap := fun _ _ _ h => h
  unfold Pools.spawnKind
  split_ifs with hempty
  · exact h
  · cases k with
    | creature => exact hmap.spawnObject (keptEach_onMap (by decide)) (by decide) h t
    | gameobject => exact hmap.spawnObject (keptEach_onMap (by decide)) (by decide) h t
    | pool => exact hs.spawnObject keptEach_despawnPool (by decide) h t
    | quest => exact h.spawnQuests (Bool.eq_false_iff.mpr hempty) t

theorem Kept.spawnFuel (n : Nat) (h : Kept mgr w) : Kept mgr (spawnFuel mgr n x w) := by
  induction n generalizing x w with
  | zero => exact h
  | succ n ih =>
    have hs : KeptBy mgr .pool x (Pools.spawnFuel mgr n) := fun _ _ _ h => ih h
    unfold Pools.spawnFuel
    exact hs.spawnKind (hs.spawnKind (hs.spawnKind (hs.spawnKind h .pool 0) .gameobject 0)
      .creature 0) .quest 0

theorem Kept.step (h : Kept mgr w) (a : Action) : Kept mgr (step mgr w a) := by
  have hs : ∀ x, KeptBy mgr .pool x (spawnPool mgr) := fun _ _ _ _ h => h.spawnFuel _
  cases a with
  | spawn p rolls => exact Kept.spawnFuel _ ⟨h.nested,h.pooled,h.saved⟩
  | despawn p => exact kept_despawnFuel (Nat.lt_succ_self _) h
  | update k p guid rolls =>
    have hrolls : Kept mgr { w with rolls := rolls } := ⟨h.nested,h.pooled,h.saved⟩
    unfold Pools.step updatePool
    dsimp only
    split_ifs
    · exact (hs _).spawnKind hrolls .pool p
    · exact (hs p).spawnKind hrolls k guid

theorem kept_run (mgr : PoolMgr) (cq gq : List (Nat × Nat)) {save : Nat → List Nat}
    (hs : SavedOwn mgr save) (acts : List Action) :
    Kept mgr (Run.exec (step mgr) (.init cq gq save) acts) := by
  refine Run.exec_inv (P := Kept mgr) (fun _ a h => h.step a) _ acts ⟨?_,?_,hs⟩
  · intro r q _ hactive
    simp [World.init,ActivePoolData.empty,ActivePoolData.isActiveObject] at hactive
  · intro q hactive
    simp [World.init,ActivePoolData.empty,ActivePoolData.isActiveObject] at hactive

end Kept

end TrinityCore.Pools
