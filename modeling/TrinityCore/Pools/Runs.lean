import TrinityCore.Pools.QuestPools

set_option autoImplicit false

namespace TrinityCore.Pools

variable {mgr : PoolMgr} {w w' : World} {k : Kind} {p n : Nat}

def PoolMgr.hasQuests (mgr : PoolMgr) (p : Nat) : Bool := !(mgr.group .quest p).isEmpty

/-- A quest pool that may be spawned as the child of another pool, whatever is active. -/
def PoolMgr.Fit (mgr : PoolMgr) (p : Nat) : Prop :=
  mgr.Apart p ∧
  mgr.maxLimit p ≤ ((mgr.group .quest p).equalChanced.map PoolObject.guid).toFinset.card

def PoolMgr.Inside (mgr : PoolMgr) (p q : Nat) : Prop :=
  ∃ c ∈ (mgr.group .pool p).guids, mgr.Below c q

def PoolMgr.FitInside (mgr : PoolMgr) (p : Nat) : Prop :=
  ∀ q, mgr.Inside p q → mgr.hasQuests q = true → mgr.Fit q

def UpdateFit (mgr : PoolMgr) (w : World) (p g : Nat) (k : Kind) : Prop :=
  if mgr.mother p ≠ 0 then mgr.FitInside (mgr.mother p)
  else match k with
    | .pool => mgr.FitInside p
    | .quest => Ready mgr w p g
    | _ => True

/-- The steps of a run, with what they must find: objects are spawned into a pool that has
no mother or is active; an update is triggered by an active object of the pool; and the quest
groups that the step may spawn are ready, or fit when they are nested. -/
def Sound (mgr : PoolMgr) (w : World) : Action → Prop
  | .spawn p _ => Open mgr w.spawns p ∧
      if mgr.hasQuests p then Ready mgr w p 0 else mgr.FitInside p
  | .despawn _ => True
  | .update k p g _ => g ∈ (mgr.group k p).guids ∧ w.spawns.isActiveObject k g = true ∧
      UpdateFit mgr w p g k

theorem guids_of_isEmpty {gr : PoolGroup} (h : gr.isEmpty = true) : gr.guids = [] := by
  simp only [PoolGroup.isEmpty,Bool.and_eq_true,List.isEmpty_iff] at h
  simp [PoolGroup.guids,h.1,h.2]

theorem isEmpty_of_guids {gr : PoolGroup} (h : gr.guids = []) : gr.isEmpty = true := by
  simp only [PoolGroup.guids,List.map_eq_nil_iff,List.append_eq_nil_iff] at h
  simp [PoolGroup.isEmpty,h.1,h.2]

theorem ready_of_fit (hf : mgr.Fit p) (he : activeOwn mgr w.spawns p = ∅) : Ready mgr w p 0 := by
  have hin : ∀ q ∈ (mgr.group .quest p).guids, w.spawns.isActiveObject .quest q = false := by
    intro q hq
    refine Bool.eq_false_iff.mpr (fun ha => ?_)
    have hm := mem_activeOwn.mpr ⟨hq,ha⟩
    simp [he] at hm
  refine ⟨hf.1,?_⟩
  split_ifs
  · exact hin
  · refine .inl (hf.2.trans (le_of_eq ?_))
    rw [newQuests,Finset.sdiff_eq_self_of_disjoint]
    refine Finset.disjoint_left.mpr (fun q hq ha => ?_)
    have hg : q ∈ (mgr.group .quest p).guids := by
      rw [PoolGroup.guids,List.map_append]
      exact List.mem_append_left _ (List.mem_toFinset.mp hq)
    simpa [ActivePoolData.isActiveObject,ha] using hin q hg

theorem rounds_spawnObject {t : Nat} (hg : Good mgr (mgr.depth p+1) w)
    (ho : Open mgr w.spawns p) (ht : t ≠ 0 → (k,t) ∈ activeOwn mgr w.spawns p) :
    Rounds mgr k p (spawnCount (mgr.maxLimit p) (w.spawns.getActiveObjectCount p) t) t w := by
  refine ⟨hg,ho,?_,ht⟩
  rw [hg.accounted p]
  exact spawnCount_le (hg.limited p (Nat.lt_succ_self _)) t

theorem brings_onMap : Brings mgr k p onMap :=
  fun _ _ _ h _ _ => Fills.refl h

theorem clears_despawnPool : Clears mgr .pool p (despawnPool mgr) := by
  intro c hc w h
  obtain ⟨hs,he⟩ := despawnPool_spec c h
  exact ⟨hs.mono (mgr.depth_lt p c hc),fun _ => he⟩

theorem spawnKind_spec (spawn : Nat → World → World) {t : Nat} (hk : k ≠ .quest)
    (hs : k = .pool → Brings mgr .pool p spawn) (hg : Good mgr (mgr.depth p+1) w)
    (ho : Open mgr w.spawns p) (ht : t ≠ 0 → (k,t) ∈ activeOwn mgr w.spawns p) :
    Fills mgr (mgr.depth p+1) w (spawnKind mgr spawn k p t w) := by
  have hr := rounds_spawnObject hg ho ht
  unfold spawnKind
  split_ifs
  · exact Fills.refl hg
  · cases k with
    | creature => exact spawnLoop_spec (clears_onMap (by decide)) brings_onMap t 0 hr
    | gameobject => exact spawnLoop_spec (clears_onMap (by decide)) brings_onMap t 0 hr
    | pool => exact spawnLoop_spec clears_despawnPool (hs rfl) t 0 hr
    | quest => exact absurd rfl hk

theorem spawnKind_empty {spawn : Nat → World → World} (h : (mgr.group k p).guids = []) (t : Nat) :
    spawnKind mgr spawn k p t w = w := by
  unfold spawnKind
  rw [if_pos (isEmpty_of_guids h)]

theorem spawnFuel_quests (hap : mgr.Apart p) (hq : mgr.hasQuests p = true) :
    spawnFuel mgr (n+1) p w = spawnQuests mgr p 0 w := by
  simp only [PoolMgr.hasQuests,Bool.not_eq_true'] at hq
  simp only [spawnFuel]
  rw [spawnKind_empty (hap.1 .pool nofun),spawnKind_empty (hap.1 .gameobject nofun),
    spawnKind_empty (hap.1 .creature nofun)]
  simp [spawnKind,hq]

theorem spawnFuel_plain (hq : mgr.hasQuests p = false) (hs : Brings mgr .pool p (spawnFuel mgr n))
    (hg : Good mgr (mgr.depth p+1) w) (ho : Open mgr w.spawns p) :
    Fills mgr (mgr.depth p+1) w (spawnFuel mgr (n+1) p w) := by
  simp only [PoolMgr.hasQuests,Bool.not_eq_false'] at hq
  have h1 := spawnKind_spec (t := 0) (spawnFuel mgr n) (by decide : Kind.pool ≠ .quest)
    (fun _ => hs) hg ho (fun h => absurd rfl h)
  have h2 := spawnKind_spec (t := 0) (spawnFuel mgr n)
    (by decide : Kind.gameobject ≠ .quest) nofun h1.good (ho.frame le_rfl h1.frame)
    (fun h => absurd rfl h)
  have h3 := spawnKind_spec (t := 0) (spawnFuel mgr n)
    (by decide : Kind.creature ≠ .quest) nofun h2.good
    ((ho.frame le_rfl h1.frame).frame le_rfl h2.frame) (fun h => absurd rfl h)
  simp only [spawnFuel]
  rw [spawnKind_empty (guids_of_isEmpty hq)]
  exact (h1.trans h2).trans h3

theorem spawnFuel_spec (hn : mgr.depth p < n) (hg : Good mgr (mgr.depth p+1) w)
    (ho : Open mgr w.spawns p) (he : activeOwn mgr w.spawns p = ∅)
    (hf : ∀ q, mgr.Below p q → mgr.hasQuests q = true → mgr.Fit q) :
    Fills mgr (mgr.depth p+1) w (spawnFuel mgr n p w) := by
  induction n generalizing p w with
  | zero => omega
  | succ n ih =>
    cases hq : mgr.hasQuests p with
    | true =>
      have hfit := hf p .refl hq
      rw [spawnFuel_quests hfit.1 hq]
      simp only [PoolMgr.hasQuests,Bool.not_eq_true'] at hq
      exact (spawnQuests_spec (ready_of_fit hfit he) hq hg.accounted ho hg.saved).fills hg
    | false =>
      refine spawnFuel_plain hq (fun c hc w hgc hac hec => ?_) hg ho
      have hlt := mgr.depth_lt p c hc
      have hopen : Open mgr w.spawns c := fun _ _ => hac
      exact (ih (by omega) (hgc.mono (by omega)) hopen (hec rfl)
        (fun q hb => hf q (.head hc hb))).mono hlt hgc

theorem brings_child (hf : mgr.FitInside p) {c : Nat} (hc : c ∈ (mgr.group .pool p).guids)
    (hn : mgr.depth c < n) (hg : Good mgr (mgr.depth p) w)
    (ha : w.spawns.isActiveObject .pool c = true) (he : activeOwn mgr w.spawns c = ∅) :
    Fills mgr (mgr.depth p) w (spawnFuel mgr n c w) := by
  have hlt := mgr.depth_lt p c hc
  exact (spawnFuel_spec hn (hg.mono (by omega)) (fun _ _ => ha) he
    (fun q hb => hf q ⟨c,hc,hb⟩)).mono hlt hg

/-- The property of a state: every stored count is right and within the limit. -/
def Balanced (mgr : PoolMgr) (d : ActivePoolData) : Prop :=
  ∀ p, d.getActiveObjectCount p = (activeOwn mgr d p).card ∧
    d.getActiveObjectCount p ≤ mgr.maxLimit p

def Invariant (mgr : PoolMgr) (w : World) : Prop := ∀ n, Good mgr n w

theorem Invariant.of_fills (h : Invariant mgr w) (hf : Fills mgr n w w') : Invariant mgr w' := by
  intro m
  by_cases hm : m ≤ n
  · exact hf.good.mono hm
  · exact (hf.mono (by omega) (h m)).good

theorem Invariant.spawn (h : Invariant mgr w) (ho : Open mgr w.spawns p)
    (hq : if mgr.hasQuests p then Ready mgr w p 0 else mgr.FitInside p) :
    Invariant mgr (spawnPool mgr p w) := by
  have hg := h (mgr.depth p+1)
  refine h.of_fills (n := mgr.depth p+1) ?_
  rw [spawnPool]
  split_ifs at hq with hp
  · rw [spawnFuel_quests hq.1 hp]
    simp only [PoolMgr.hasQuests,Bool.not_eq_true'] at hp
    exact (spawnQuests_spec hq hp hg.accounted ho hg.saved).fills hg
  · exact spawnFuel_plain (by simpa using hp)
      (fun c hc _ hg ha he => brings_child hq hc (mgr.depth_lt p c hc) hg ha (he rfl)) hg ho

theorem brings_spawnPool (hf : mgr.FitInside p) : Brings mgr .pool p (spawnPool mgr) :=
  fun _ hc _ hg ha he => brings_child hf hc (Nat.lt_succ_self _) hg ha (he rfl)

theorem active_of_member (h : Invariant mgr w) {g : Nat} (hg : g ∈ (mgr.group k p).guids)
    (ha : w.spawns.isActiveObject k g = true) : w.spawns.isActiveObject .pool p = true := by
  refine ActivePoolData.active_of_count ?_
  rw [(h 0).accounted p]
  exact Finset.card_pos.mpr ⟨(k,g),mem_activeOwn.mpr ⟨hg,ha⟩⟩

theorem Invariant.update (h : Invariant mgr w) {g : Nat} (hg : g ∈ (mgr.group k p).guids)
    (ha : w.spawns.isActiveObject k g = true)
    (hq : UpdateFit mgr w p g k) : Invariant mgr (updatePool mgr k p g w) := by
  have hp := active_of_member h hg ha
  unfold updatePool
  unfold UpdateFit at hq
  split_ifs at hq ⊢ with hm
  · have hc : p ∈ (mgr.group .pool (mgr.mother p)).guids := (mgr.mother_iff p _ hm).mp rfl
    have ho : Open mgr w.spawns (mgr.mother p) := fun _ _ => active_of_member h hc hp
    exact h.of_fills (spawnKind_spec _ (by decide) (fun _ => brings_spawnPool hq) (h _) ho
      (fun _ => mem_activeOwn.mpr ⟨hc,hp⟩))
  · have ho : Open mgr w.spawns p := fun _ _ => hp
    have ht : g ≠ 0 → (k,g) ∈ activeOwn mgr w.spawns p := fun _ => mem_activeOwn.mpr ⟨hg,ha⟩
    cases k with
    | creature => exact h.of_fills (spawnKind_spec _ (by decide) nofun (h _) ho ht)
    | gameobject => exact h.of_fills (spawnKind_spec _ (by decide) nofun (h _) ho ht)
    | pool => exact h.of_fills (spawnKind_spec _ (by decide) (fun _ => brings_spawnPool hq) (h _) ho ht)
    | quest =>
      have hne : (mgr.group .quest p).isEmpty = false := by
        refine Bool.eq_false_iff.mpr (fun he => ?_)
        simp [guids_of_isEmpty he] at hg
      have hs := spawnQuests_spec hq hne (h 0).accounted ho (h 0).saved
      simp only [spawnKind,hne]
      exact h.of_fills (hs.fills (h _))

theorem Invariant.despawn (h : Invariant mgr w) (p : Nat) : Invariant mgr (despawnPool mgr p w) :=
  h.of_fills ((despawnPool_spec p (h 0).accounted).1.fills (h _))

theorem Invariant.step (h : Invariant mgr w) (a : Action) (ha : Sound mgr w a) :
    Invariant mgr (step mgr w a) := by
  have hr : ∀ rolls, Invariant mgr { w with rolls := rolls } :=
    fun _ n => ⟨(h n).accounted,(h n).limited,(h n).saved⟩
  cases a with
  | spawn p rolls => exact (hr rolls).spawn ha.1 ha.2
  | despawn p => exact h.despawn p
  | update k p g rolls => exact (hr rolls).update ha.1 ha.2.1 ha.2.2

theorem invariant_init (cq gq : List (Nat × Nat)) {save : Nat → List Nat}
    (hs : SavedOwn mgr save) : Invariant mgr (.init cq gq save) := by
  have he : ∀ p, activeOwn mgr ActivePoolData.empty p = ∅ := by
    intro p
    ext ⟨k,g⟩
    cases k <;> simp [ActivePoolData.empty,ActivePoolData.isActiveObject]
  refine fun n => ⟨fun p => ?_,fun p _ => ?_,hs⟩
  · rw [World.init,he p]
    rfl
  · rw [World.init,he p]
    exact Nat.zero_le _

theorem Invariant.balanced (h : Invariant mgr w) : Balanced mgr w.spawns := by
  intro p
  have ha := (h 0).accounted p
  exact ⟨ha,ha ▸ (h (mgr.depth p+1)).limited p (Nat.lt_succ_self _)⟩

/-- In every sound run from nothing spawned the active counts are right and within the
limits, and despawning a pool then leaves no object of it or of a nested pool active. -/
theorem sound_run_balanced (mgr : PoolMgr) (cq gq : List (Nat × Nat)) (save : Nat → List Nat)
    (hs : SavedOwn mgr save) (acts : List Action)
    (h : Run.Guarded (step mgr) (Sound mgr) (.init cq gq save) acts) :
    Balanced mgr (Run.exec (step mgr) (.init cq gq save) acts).spawns ∧
    ∀ p q, mgr.Below p q →
      activeOwn mgr (despawnPool mgr p (Run.exec (step mgr) (.init cq gq save) acts)).spawns q = ∅ := by
  have hi := h.inv (fun _ a hi ha => Invariant.step hi a ha) (invariant_init cq gq hs)
  refine ⟨hi.balanced,fun p q hq => ?_⟩
  obtain ⟨hsh,he⟩ := despawnPool_spec p (hi 0).accounted
  exact activeOwn_below hsh.accounted he hq

def exampleGroup (k : Kind) (p : Nat) : PoolGroup where
  explicitlyChanced := []
  equalChanced := match k, p with
    | .quest, 1 => [⟨101,0⟩]
    | .quest, 2 => [⟨201,0⟩]
    | .pool, 3 => [⟨4,0⟩,⟨5,0⟩]
    | .creature, 4 => [⟨41,0⟩]
    | .creature, 5 => [⟨51,0⟩]
    | _, _ => []

theorem mem_exampleGroup {k : Kind} {p g : Nat} (h : g ∈ (exampleGroup k p).guids) :
    (k,p,g) ∈ [(Kind.quest,1,101),(.quest,2,201),(.pool,3,4),(.pool,3,5),(.creature,4,41),
      (.creature,5,51)] := by
  unfold exampleGroup PoolGroup.guids at h
  simp only at h
  split at h <;> simp_all

def examplePools : PoolMgr where
  maxLimit := fun _ => 1
  group := exampleGroup
  mother := fun p => if p = 4 ∨ p = 5 then 3 else 0
  questCreature := fun _ => [7]
  questGO := fun _ => []
  depth := fun p => if p = 3 then 1 else 0
  limit_lt := fun _ => by decide
  one_pool := by
    intro k p q g hp hq
    have hp := mem_exampleGroup hp
    have hq := mem_exampleGroup hq
    simp at hp hq
    grind
  guid_ne := by
    intro k p h
    have h := mem_exampleGroup h
    simp at h
  mother_iff := by
    intro p m hm
    constructor
    · intro h
      split_ifs at h with hp
      · subst h
        rcases hp with rfl | rfl <;> decide
      · exact absurd h.symm hm
    · intro h
      have h := mem_exampleGroup h
      simp at h
      grind
  no_pool_zero := rfl
  depth_lt := by
    intro p c h
    have h := mem_exampleGroup h
    simp at h
    grind
  quest_equal := fun _ => rfl

def exampleRun : List Action :=
  [.spawn 1 [],.spawn 3 [⟨0,1⟩],.update .creature 5 51 [⟨0,0⟩],.despawn 3]

theorem fitInside_example : examplePools.FitInside 3 := by
  rintro q ⟨c,hc,hq⟩ hhas
  have hc := mem_exampleGroup hc
  simp only [List.mem_cons,List.not_mem_nil,Prod.mk.injEq,or_false,reduceCtorEq,false_and,
    false_or,true_and] at hc
  -- the two child pools have neither quests nor child pools
  have hbelow : ∀ r, (r = 4 ∨ r = 5) → ∀ q, examplePools.Below r q → q = r := by
    intro r hr q hrq
    induction hrq with
    | refl => rfl
    | tail _ hc ih =>
      subst ih
      have hc := mem_exampleGroup hc
      simp at hc
      omega
  rw [hbelow c hc q hq] at hhas
  rcases hc with rfl | rfl <;> simp [PoolMgr.hasQuests,examplePools,exampleGroup,PoolGroup.isEmpty] at hhas

theorem open_example {d : ActivePoolData} {p : Nat} (hp : p ≠ 4 ∧ p ≠ 5) :
    Open examplePools d p := by
  intro q hq
  have hq := mem_exampleGroup hq
  simp at hq
  omega

theorem sound_run_example :
    Run.Guarded (step examplePools) (Sound examplePools) (.init [] [] fun _ => []) exampleRun ∧
    Balanced examplePools (Run.exec (step examplePools) (.init [] [] fun _ => []) exampleRun).spawns := by
  have hready : Ready examplePools (.init [] [] fun _ => []) 1 0 := by
    refine ⟨⟨fun k hk => ?_,by decide⟩,?_⟩
    · cases k <;> first | rfl | exact absurd rfl hk
    · rw [if_neg (by decide)]
      exact .inl (by decide)
  have h : Run.Guarded (step examplePools) (Sound examplePools) (.init [] [] fun _ => []) exampleRun := by
    refine ⟨⟨open_example (by decide),?_⟩,⟨open_example (by decide),?_⟩,⟨by decide,?_,?_⟩,trivial,
      trivial⟩
    · rw [if_pos (by decide)]
      exact hready
    · rw [if_neg (by decide)]
      exact fitInside_example
    · decide +kernel
    · exact fitInside_example
  exact ⟨h,(sound_run_balanced _ _ _ _ (fun _ _ => ⟨List.nodup_nil,nofun⟩) _ h).1⟩

/-- An update of the second quest pool recycles from the active quests of both, takes the
quest of the first, and counts it as its own. -/
theorem foreign_quest_recycled :
    ¬ Balanced examplePools (Run.exec (step examplePools) (.init [] [] fun _ => [])
      [.spawn 1 [],.spawn 2 [],.update .quest 2 201 []]).spawns := by
  intro h
  have h2 := (h 2).1
  revert h2
  decide +kernel

end TrinityCore.Pools
