import TrinityCore.Events.GameEventMgr

set_option autoImplicit false

namespace TrinityCore.Events

variable {F : Type} [LinearOrder F] [Zero F]

structure Processed (F : Type) where
  mgr : GameEventMgr F
  processed : Finset Nat

def Call.event : Call → Nat
  | .startEvent event _ _ => event
  | .stopEvent event _ _ => event

def Processed.step (c : Content) (s : Processed F) (call : Call) : Processed F :=
  ⟨s.mgr.call c call,insert call.event s.processed⟩

def Processed.start (mgr : GameEventMgr F) : Processed F :=
  ⟨{ mgr with
    active := ∅
    grid := fun _ => ∅ },∅⟩

structure SpawnOf (c : Content) (kind : Kind) (positive : Bool) (guid : Nat) : Prop where
  hasData : c.hasData kind guid = true
  other : ∀ event : ℕ+, guid ∉ c.guids kind (if positive then -(event : Int) else event)

def KeptBy (c : Content) (s : Processed F) (kind : Kind) (guid event : Nat) : Prop :=
  event ∈ s.processed ∧ event ∉ s.mgr.active ∧ guid ∈ c.guids kind (-event)

structure SpawnsFollow (c : Content) (s : Processed F) : Prop where
  positive : ∀ kind guid, SpawnOf c kind true guid →
    (guid ∈ s.mgr.grid kind ↔ ∃ event ∈ s.mgr.active, guid ∈ c.guids kind event)
  negative : ∀ kind guid, SpawnOf c kind false guid →
    (guid ∈ s.mgr.grid kind ↔ ∃ event, KeptBy c s kind guid event)

/-- No spawn of the negative list of an event that starts is kept by another event. -/
def StartsFree (c : Content) (s : Processed F) : Call → Prop
  | .startEvent event _ _ => ∀ kind guid, SpawnOf c kind false guid →
    guid ∈ c.guids kind (-(event : Int)) → ∀ other, KeptBy c s kind guid other → other = event
  | .stopEvent _ _ _ => True

section Grid

variable {c : Content} {active : Finset Nat} {kind : Kind} {guid : Nat} {event : Int}
  {grid : Finset Nat}

theorem mem_spawn : guid ∈ c.spawn kind event grid ↔
    guid ∈ grid ∨ (guid ∈ c.guids kind event ∧ c.hasData kind guid = true) := by
  unfold Content.spawn
  induction c.guids kind event generalizing grid with
  | nil => simp
  | cons head guids ih =>
    rw [List.foldl_cons,ih,List.mem_cons]
    split_ifs with hdata
    · rw [Finset.mem_insert]
      constructor
      · rintro ((rfl | hmem) | hmem)
        · exact .inr ⟨.inl rfl,hdata⟩
        · exact .inl hmem
        · exact .inr ⟨.inr hmem.1,hmem.2⟩
      · rintro (hmem | ⟨rfl | hmem,hdata'⟩)
        · exact .inl (.inr hmem)
        · exact .inl (.inl rfl)
        · exact .inr ⟨hmem,hdata'⟩
    · constructor
      · rintro (hmem | hmem)
        · exact .inl hmem
        · exact .inr ⟨.inr hmem.1,hmem.2⟩
      · rintro (hmem | ⟨rfl | hmem,hdata'⟩)
        · exact .inl hmem
        · exact absurd hdata' hdata
        · exact .inr ⟨hmem,hdata'⟩

theorem mem_unspawn : guid ∈ c.unspawn active kind event grid ↔ guid ∈ grid ∧
    (guid ∈ c.guids kind event → c.hasData kind guid = true →
      0 < event ∧ ∃ other ∈ active, (other : Int) ≠ event ∧ guid ∈ c.guids kind other) := by
  have hneeded : ∀ guid, (decide (event > 0) && c.hasActiveEventExcept active kind guid event) =
      true ↔ 0 < event ∧ ∃ other ∈ active, (other : Int) ≠ event ∧ guid ∈ c.guids kind other := by
    intro guid
    unfold Content.hasActiveEventExcept
    rw [Bool.and_eq_true,decide_eq_true_eq,decide_eq_true_eq]
  unfold Content.unspawn
  induction c.guids kind event generalizing grid with
  | nil => simp
  | cons head guids ih =>
    rw [List.foldl_cons]
    refine ih.trans ?_
    rw [List.mem_cons]
    split_ifs with hneed hdata
    · rw [hneeded] at hneed
      constructor
      · rintro ⟨hmem,hrest⟩
        refine ⟨hmem,?_⟩
        rintro (rfl | hlisted) hdata
        · exact hneed
        · exact hrest hlisted hdata
      · exact fun ⟨hmem,hrest⟩ => ⟨hmem,fun hlisted => hrest (.inr hlisted)⟩
    · rw [hneeded] at hneed
      rw [Finset.mem_erase]
      constructor
      · rintro ⟨⟨hne,hmem⟩,hrest⟩
        refine ⟨hmem,?_⟩
        rintro (heq | hlisted) hdata
        · exact absurd heq hne
        · exact hrest hlisted hdata
      · rintro ⟨hmem,hrest⟩
        refine ⟨⟨?_,hmem⟩,fun hlisted => hrest (.inr hlisted)⟩
        rintro rfl
        exact hneed (hrest (.inl rfl) hdata)
    · constructor
      · rintro ⟨hmem,hrest⟩
        refine ⟨hmem,?_⟩
        rintro (rfl | hlisted) hdata'
        · exact absurd hdata' hdata
        · exact hrest hlisted hdata'
      · exact fun ⟨hmem,hrest⟩ => ⟨hmem,fun hlisted => hrest (.inr hlisted)⟩

end Grid

section Steps

variable {c : Content} {s : Processed F} {kind : Kind} {guid : Nat} {event : ℕ+}

theorem mem_grid_start (overwrite : Bool) (time : Nat) (hdata : c.hasData kind guid = true) :
    guid ∈ (s.step c (.startEvent event overwrite time)).mgr.grid kind ↔
      (guid ∈ s.mgr.grid kind ∨ guid ∈ c.guids kind (event : Nat)) ∧
        guid ∉ c.guids kind (-((event : Nat) : Int)) := by
  change guid ∈ (s.mgr.startEvent c event overwrite time).1.grid kind ↔ _
  rw [(sameWorld_startEvent c s.mgr event overwrite time).grid]
  refine mem_unspawn.trans ?_
  have hspawned : guid ∈ (GameEventMgr.gameEventSpawn c (s.mgr.addActiveEvent event)
      (event : Nat)).grid kind ↔ guid ∈ s.mgr.grid kind ∨
        (guid ∈ c.guids kind (event : Nat) ∧ c.hasData kind guid = true) := mem_spawn
  rw [hspawned]
  constructor
  · rintro ⟨hmem,hnot⟩
    refine ⟨hmem.imp_right And.left,fun hlisted => ?_⟩
    have := (hnot hlisted hdata).1
    omega
  · rintro ⟨hmem,hnot⟩
    exact ⟨hmem.imp_right (⟨·,hdata⟩),fun hlisted => absurd hlisted hnot⟩

theorem mem_grid_stop (overwrite : Bool) (time : Nat) (hdata : c.hasData kind guid = true) :
    guid ∈ (s.step c (.stopEvent event overwrite time)).mgr.grid kind ↔
      (guid ∈ s.mgr.grid kind ∧ (guid ∈ c.guids kind (event : Nat) →
        ∃ other ∈ s.mgr.active, other ≠ event ∧ guid ∈ c.guids kind other)) ∨
        guid ∈ c.guids kind (-((event : Nat) : Int)) := by
  change guid ∈ (s.mgr.stopEvent c event overwrite time).grid kind ↔ _
  rw [(sameWorld_stopEvent c s.mgr event overwrite time).grid]
  refine mem_spawn.trans ?_
  have hunspawned : guid ∈ (GameEventMgr.gameEventUnspawn c (s.mgr.removeActiveEvent event)
      (event : Nat)).grid kind ↔ guid ∈ s.mgr.grid kind ∧ (guid ∈ c.guids kind (event : Nat) →
        c.hasData kind guid = true → (0 : Int) < (event : Nat) ∧
          ∃ other ∈ s.mgr.active.erase event, (other : Int) ≠ (event : Nat) ∧
            guid ∈ c.guids kind other) := mem_unspawn
  rw [hunspawned]
  have hother : (∃ other ∈ s.mgr.active.erase event, (other : Int) ≠ (event : Nat) ∧
      guid ∈ c.guids kind other) ↔
        ∃ other ∈ s.mgr.active, other ≠ event ∧ guid ∈ c.guids kind other := by
    refine exists_congr fun other => ?_
    have hcast : (other : Int) ≠ (event : Nat) ↔ other ≠ event := by omega
    rw [Finset.mem_erase,hcast]
    tauto
  have hpos : (0 : Int) < (event : Nat) := by exact_mod_cast event.pos
  constructor
  · rintro (⟨hmem,hneed⟩ | hlisted)
    · exact .inl ⟨hmem,fun hlisted => hother.mp (hneed hlisted hdata).2⟩
    · exact .inr hlisted.1
  · rintro (⟨hmem,hneed⟩ | hlisted)
    · exact .inl ⟨hmem,fun hlisted _ => ⟨hpos,hother.mpr (hneed hlisted)⟩⟩
    · exact .inr ⟨hlisted,hdata⟩

theorem active_start (overwrite : Bool) (time : Nat) :
    (s.step c (.startEvent event overwrite time)).mgr.active = insert (event : Nat) s.mgr.active :=
  (sameWorld_startEvent c s.mgr event overwrite time).active

theorem active_stop (overwrite : Bool) (time : Nat) :
    (s.step c (.stopEvent event overwrite time)).mgr.active = s.mgr.active.erase event :=
  (sameWorld_stopEvent c s.mgr event overwrite time).active

theorem spawnsFollow_start (h : SpawnsFollow c s) (overwrite : Bool) (time : Nat) :
    SpawnsFollow c (s.step c (.startEvent event overwrite time)) ↔
      StartsFree c s (.startEvent event overwrite time) := by
  have hnegative : ∀ kind guid, SpawnOf c kind false guid →
      ((guid ∈ (s.step c (.startEvent event overwrite time)).mgr.grid kind ↔ ∃ other,
        KeptBy c (s.step c (.startEvent event overwrite time)) kind guid other) ↔
        (guid ∈ c.guids kind (-((event : Nat) : Int)) →
          ∀ other, KeptBy c s kind guid other → other = event)) := by
    intro kind guid hspawn
    have hkept : ∀ other, KeptBy c (s.step c (.startEvent event overwrite time)) kind guid other ↔
        KeptBy c s kind guid other ∧ other ≠ event := by
      intro other
      unfold KeptBy
      rw [active_start,Finset.mem_insert]
      change other ∈ insert (event : Nat) s.processed ∧ _ ↔ _
      rw [Finset.mem_insert]
      tauto
    have hnot : guid ∉ c.guids kind (event : Nat) := by simpa using hspawn.other event
    rw [mem_grid_start overwrite time hspawn.hasData,h.negative kind guid hspawn]
    simp only [hkept,hnot,or_false]
    constructor
    · rintro hiff hlisted other hkept
      by_contra hne
      exact (hiff.mpr ⟨other,hkept,hne⟩).2 hlisted
    · intro hfree
      constructor
      · rintro ⟨⟨other,hkept⟩,hlisted⟩
        refine ⟨other,hkept,?_⟩
        rintro rfl
        exact hlisted hkept.2.2
      · rintro ⟨other,hkept,hne⟩
        exact ⟨⟨other,hkept⟩,fun hlisted => hne (hfree hlisted other hkept)⟩
  constructor
  · intro hfollow kind guid hspawn
    exact (hnegative kind guid hspawn).mp (hfollow.negative kind guid hspawn)
  · intro hfree
    refine ⟨?_,fun kind guid hspawn => (hnegative kind guid hspawn).mpr (hfree kind guid hspawn)⟩
    intro kind guid hspawn
    have hnot : guid ∉ c.guids kind (-((event : Nat) : Int)) := by simpa using hspawn.other event
    rw [mem_grid_start overwrite time hspawn.hasData,h.positive kind guid hspawn,active_start,
      Finset.exists_mem_insert,or_comm]
    simp only [hnot,not_false_eq_true,and_true]

theorem spawnsFollow_stop (h : SpawnsFollow c s) (overwrite : Bool) (time : Nat) :
    SpawnsFollow c (s.step c (.stopEvent event overwrite time)) := by
  constructor
  · intro kind guid hspawn
    have hnot : guid ∉ c.guids kind (-((event : Nat) : Int)) := by simpa using hspawn.other event
    rw [mem_grid_stop overwrite time hspawn.hasData,h.positive kind guid hspawn,active_stop]
    simp only [hnot,or_false,Finset.mem_erase]
    constructor
    · rintro ⟨⟨other,hactive,hlisted⟩,hneed⟩
      by_cases heq : other = event
      · obtain ⟨other',hactive',hne,hlisted'⟩ := hneed (heq ▸ hlisted)
        exact ⟨other',⟨hne,hactive'⟩,hlisted'⟩
      · exact ⟨other,⟨heq,hactive⟩,hlisted⟩
    · rintro ⟨other,⟨hne,hactive⟩,hlisted⟩
      exact ⟨⟨other,hactive,hlisted⟩,fun _ => ⟨other,hactive,hne,hlisted⟩⟩
  · intro kind guid hspawn
    have hnot : guid ∉ c.guids kind (event : Nat) := by simpa using hspawn.other event
    rw [mem_grid_stop overwrite time hspawn.hasData,h.negative kind guid hspawn]
    simp only [hnot,false_imp_iff,and_true]
    unfold KeptBy
    rw [active_stop]
    simp only [Finset.mem_erase]
    change _ ↔ ∃ other, other ∈ insert (event : Nat) s.processed ∧ _
    simp only [Finset.mem_insert]
    constructor
    · rintro (⟨other,hprocessed,hactive,hlisted⟩ | hlisted)
      · exact ⟨other,.inr hprocessed,fun hmem => hactive hmem.2,hlisted⟩
      · exact ⟨event,.inl rfl,fun hmem => hmem.1 rfl,hlisted⟩
    · rintro ⟨other,hprocessed,hactive,hlisted⟩
      by_cases heq : other = event
      · exact .inr (heq ▸ hlisted)
      · refine .inl ⟨other,hprocessed.resolve_left heq,fun hmem => hactive ⟨heq,hmem⟩,hlisted⟩

end Steps

omit [LinearOrder F] [Zero F] in
theorem spawnsFollow_init (c : Content) (mgr : GameEventMgr F) :
    SpawnsFollow c (Processed.start mgr) := by
  constructor <;> intro kind guid hspawn <;>
    simp [Processed.start,KeptBy]

/-- The spawns follow the events along a run if and only if no start takes a spawn from another
event that keeps it. -/
theorem spawns_run_iff (c : Content) (mgr : GameEventMgr F) (calls : List Call) :
    (∀ pre post, calls = pre ++ post →
      SpawnsFollow c (Run.exec (Processed.step c) (Processed.start mgr) pre)) ↔
    Run.Guarded (Processed.step c) (StartsFree c) (Processed.start mgr) calls := by
  refine Run.Guarded.iff_prefixes (fun _ => id) ?_ ?_ calls (spawnsFollow_init c mgr)
  · intro s call h hfollow
    cases call with
    | startEvent event overwrite time => exact (spawnsFollow_start h overwrite time).mp hfollow
    | stopEvent event overwrite time => trivial
  · intro s call h hfree
    cases call with
    | startEvent event overwrite time => exact (spawnsFollow_start h overwrite time).mpr hfree
    | stopEvent event overwrite time => exact spawnsFollow_stop h overwrite time

/-- The first two events both remove a creature. -/
def exclusions : Content where
  guids _ event := if event = -1 ∨ event = -2 then [7] else []
  hasData _ _ := true
  quests _ _ := []

/-- Both events are stopped, and the first one starts: the other one, which is inactive, does not
keep the creature. -/
theorem spawns_lost : ¬ SpawnsFollow exclusions
    (Run.exec (Processed.step exclusions) (Processed.start quietEvents)
      [.stopEvent 1 false 0,.stopEvent 2 false 0,.startEvent 1 false 0]) := by
  intro hfollow
  have hspawn : SpawnOf exclusions .creature false 7 := by
    refine ⟨rfl,fun event => ?_⟩
    simp [exclusions]
  have hgone : 7 ∉ (Run.exec (Processed.step exclusions) (Processed.start quietEvents)
      [.stopEvent 1 false 0,.stopEvent 2 false 0,.startEvent 1 false 0]).mgr.grid .creature := by
    decide
  exact hgone ((hfollow.negative .creature 7 hspawn).mpr ⟨2,by decide,by decide,by decide⟩)

end TrinityCore.Events
