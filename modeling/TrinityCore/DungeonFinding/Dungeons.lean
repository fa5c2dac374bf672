import TrinityCore.Lib.OrderedMap

set_option autoImplicit false

namespace TrinityCore.Lfg

def lfgTypeDungeon : Nat := 1
def lfgTypeRaid : Nat := 2
def lfgTypeHeroic : Nat := 5
def lfgTypeRandom : Nat := 6

def lfgFlagSeasonal : Nat := 0x4

structure LFGDungeonEntry where
  ID : Nat
  name : String
  minlevel : Nat
  maxlevel : Nat
  map : Int
  difficulty : Nat
  flags : Nat
  type : Nat
  expansion : Nat
  grouptype : Nat

/-- The coordinates are floats: all that matters of them is whether they are 0. -/
structure LFGDungeonData (F : Type) where
  id : Nat
  name : String
  map : Nat
  type : Nat
  expansion : Nat
  group : Nat
  minlevel : Nat
  maxlevel : Nat
  difficulty : Nat
  seasonal : Bool
  x : F
  y : F
  z : F
  o : F
  deriving DecidableEq

structure Entrance (F : Type) where
  dungeonId : Nat
  x : F
  y : F
  z : F
  o : F

structure AreaTrigger (F : Type) where
  targetMapId : Nat
  targetX : F
  targetY : F
  targetZ : F
  targetOrientation : F

/-- What the dungeons are loaded from: the rows of the client's store, of which some are missing,
the table of the entrances, and the triggers that lead to the maps. -/
structure DungeonContent (F : Type) where
  dungeonStore : List (Option LFGDungeonEntry)
  lfgEntrances : List (Entrance F)
  getMapEntranceTrigger : Nat → Option (AreaTrigger F)

/-- The stores of the dungeons. A group that is not in the map has no dungeons. -/
structure DungeonStores (F : Type) where
  lfgDungeonStore : OrderedMap Nat (LFGDungeonData F)
  cachedDungeonMapStore : Nat → Finset Nat

def DungeonStores.fresh {F : Type} : DungeonStores F := ⟨.empty,fun _ => ∅⟩

section Load

variable {F : Type}

def LFGDungeonEntry.isListed (entry : LFGDungeonEntry) : Bool :=
  entry.type = lfgTypeDungeon ∨ entry.type = lfgTypeHeroic ∨ entry.type = lfgTypeRaid ∨
    entry.type = lfgTypeRandom

def LFGDungeonData.ofEntry [Zero F] (dbc : LFGDungeonEntry) : LFGDungeonData F where
  id := dbc.ID
  name := dbc.name
  map := (dbc.map%2^16).toNat
  type := dbc.type%2^8
  expansion := dbc.expansion%2^8
  group := dbc.grouptype%2^8
  minlevel := dbc.minlevel%2^8
  maxlevel := dbc.maxlevel%2^8
  difficulty := dbc.difficulty
  seasonal := dbc.flags &&& lfgFlagSeasonal != 0
  x := 0
  y := 0
  z := 0
  o := 0

def LFGDungeonData.enter (data : LFGDungeonData F) (entrance : Entrance F) : LFGDungeonData F :=
  { data with x := entrance.x, y := entrance.y, z := entrance.z, o := entrance.o }

namespace DungeonContent

variable (content : DungeonContent F)

def initDungeons [Zero F] : OrderedMap Nat (LFGDungeonData F) :=
  (content.dungeonStore.reduceOption.filter LFGDungeonEntry.isListed).foldl
    (fun store dungeon => store.insert dungeon.ID (.ofEntry dungeon)) .empty

def fillEntrances (store : OrderedMap Nat (LFGDungeonData F)) : OrderedMap Nat (LFGDungeonData F) :=
  content.lfgEntrances.foldl (fun store entrance =>
    match store.find? entrance.dungeonId with
    | none => store
    | some data => store.insert entrance.dungeonId (data.enter entrance)) store

def locate [Zero F] [DecidableEq F] (dungeon : LFGDungeonData F) : Option (LFGDungeonData F) :=
  if dungeon.type ≠ lfgTypeRandom ∧ dungeon.x = 0 ∧ dungeon.y = 0 ∧ dungeon.z = 0 then
    (content.getMapEntranceTrigger dungeon.map).map fun trigger =>
      { dungeon with
        map := trigger.targetMapId%2^16
        x := trigger.targetX
        y := trigger.targetY
        z := trigger.targetZ
        o := trigger.targetOrientation }
  else some dungeon

def cache [Zero F] [DecidableEq F] (cached : Nat → Finset Nat) (dungeon : LFGDungeonData F) :
    Nat → Finset Nat :=
  match content.locate dungeon with
  | none => cached
  | some dungeon =>
    let cached := if dungeon.type ≠ lfgTypeRandom then
        Function.update cached dungeon.group (insert dungeon.id (cached dungeon.group))
      else cached
    Function.update cached 0 (insert dungeon.id (cached 0))

end DungeonContent

/-- Without entrances only the dungeons are loaded. -/
def DungeonStores.loadLFGDungeons [Zero F] [DecidableEq F] (content : DungeonContent F)
    (reload : Bool) (stores : DungeonStores F) : DungeonStores F :=
  if content.lfgEntrances = [] then
    { stores with lfgDungeonStore := content.initDungeons }
  else
    let store := content.fillEntrances content.initDungeons
    let cached := store.values.foldl content.cache stores.cachedDungeonMapStore
    { lfgDungeonStore := store.map fun _ dungeon => (content.locate dungeon).getD dungeon
      cachedDungeonMapStore := if reload then fun _ => ∅ else cached }

end Load

section Reload

variable {F : Type} {content : DungeonContent F} {stores : DungeonStores F}

def DungeonContent.dungeon (content : DungeonContent F) (id : Nat) : Option LFGDungeonEntry :=
  (content.dungeonStore.reduceOption.filter LFGDungeonEntry.isListed).reverse.find? fun dungeon =>
    dungeon.ID = id

def DungeonContent.entrance (content : DungeonContent F) (id : Nat) : Option (Entrance F) :=
  content.lfgEntrances.reverse.find? fun entrance => entrance.dungeonId = id

def DungeonContent.Located [Zero F] (content : DungeonContent F) (dungeon : LFGDungeonEntry) : Prop :=
  dungeon.type = lfgTypeRandom ∨
    (∃ entrance, content.entrance dungeon.ID = some entrance ∧
      ¬(entrance.x = 0 ∧ entrance.y = 0 ∧ entrance.z = 0)) ∨
    content.getMapEntranceTrigger (dungeon.map%2^16).toNat ≠ none

theorem find?_initDungeons [Zero F] (id : Nat) :
    content.initDungeons.find? id = (content.dungeon id).map LFGDungeonData.ofEntry := by
  unfold DungeonContent.initDungeons DungeonContent.dungeon
  generalize content.dungeonStore.reduceOption.filter LFGDungeonEntry.isListed = rows
  induction rows using List.reverseRecOn with
  | nil => rfl
  | append_singleton rows row ih =>
    rw [List.foldl_append,List.foldl_cons,List.foldl_nil,OrderedMap.find?_insert,ih,
      List.reverse_append,List.reverse_singleton,List.singleton_append]
    by_cases hid : row.ID = id
    · rw [if_pos hid.symm,List.find?_cons_of_pos (by simpa using hid)]
      rfl
    · rw [if_neg (Ne.symm hid),List.find?_cons_of_neg (by simpa using hid)]

theorem find?_fillEntrances (store : OrderedMap Nat (LFGDungeonData F)) (id : Nat) :
    (content.fillEntrances store).find? id = (store.find? id).map fun data =>
      ((content.entrance id).map data.enter).getD data := by
  unfold DungeonContent.fillEntrances DungeonContent.entrance
  generalize content.lfgEntrances = rows
  induction rows using List.reverseRecOn with
  | nil => simp
  | append_singleton rows row ih =>
    rw [List.foldl_append,List.foldl_cons,List.foldl_nil,List.reverse_append,List.reverse_singleton,
      List.singleton_append]
    generalize rows.foldl _ store = filled at ih ⊢
    by_cases hid : row.dungeonId = id
    · rw [List.find?_cons_of_pos (by simpa using hid),hid]
      cases hdata : store.find? id with
      | none =>
        rw [hdata] at ih
        rw [ih]
        simpa using ih
      | some data =>
        rw [hdata] at ih
        rw [ih]
        dsimp only [Option.map_some]
        rw [OrderedMap.find?_insert,if_pos rfl]
        cases rows.reverse.find? fun entrance => decide (entrance.dungeonId = id) <;> rfl
    · rw [List.find?_cons_of_neg (by simpa using hid),← ih]
      cases filled.find? row.dungeonId with
      | none => rfl
      | some data => rw [OrderedMap.find?_insert,if_neg (Ne.symm hid)]

theorem isListed_of_dungeon {id : Nat} {dungeon : LFGDungeonEntry}
    (h : content.dungeon id = some dungeon) : dungeon.isListed = true ∧ dungeon.ID = id := by
  have hmem := List.mem_reverse.mp (List.mem_of_find?_eq_some h)
  exact ⟨(List.mem_filter.mp hmem).2,by simpa using List.find?_some h⟩

theorem locate_isSome [Zero F] [DecidableEq F] (data : LFGDungeonData F) :
    (content.locate data).isSome ↔ data.type = lfgTypeRandom ∨
      ¬(data.x = 0 ∧ data.y = 0 ∧ data.z = 0) ∨ content.getMapEntranceTrigger data.map ≠ none := by
  unfold DungeonContent.locate
  by_cases hrandom : data.type = lfgTypeRandom
  · simp [hrandom]
  · by_cases hplace : data.x = 0 ∧ data.y = 0 ∧ data.z = 0
    · rw [if_pos ⟨hrandom,hplace⟩]
      cases content.getMapEntranceTrigger data.map <;> simp [hrandom,hplace]
    · rw [if_neg fun h => hplace h.2]
      simp [hplace]

theorem locate_dungeon [Zero F] [DecidableEq F] {id : Nat} {dungeon : LFGDungeonEntry}
    (h : content.dungeon id = some dungeon) :
    (content.locate (((content.entrance id).map (LFGDungeonData.ofEntry dungeon).enter).getD
      (.ofEntry dungeon))).isSome ↔ content.Located dungeon := by
  obtain ⟨hlisted,hid⟩ := isListed_of_dungeon h
  have htype : dungeon.type%2^8 = dungeon.type := by
    have hcases := of_decide_eq_true hlisted
    unfold lfgTypeDungeon lfgTypeHeroic lfgTypeRaid lfgTypeRandom at hcases
    omega
  rw [locate_isSome]
  unfold DungeonContent.Located
  rw [hid]
  cases content.entrance id with
  | none =>
    change dungeon.type%2^8 = lfgTypeRandom ∨ ¬((0 : F) = 0 ∧ (0 : F) = 0 ∧ (0 : F) = 0) ∨ _ ↔ _
    rw [htype]
    simp [LFGDungeonData.ofEntry]
  | some entrance =>
    change dungeon.type%2^8 = lfgTypeRandom ∨ ¬(entrance.x = 0 ∧ entrance.y = 0 ∧ entrance.z = 0) ∨
      _ ↔ _
    rw [htype]
    simp [LFGDungeonData.ofEntry,LFGDungeonData.enter]

section Cached

variable [Zero F] [DecidableEq F] {cached : Nat → Finset Nat} {dungeon : LFGDungeonData F}

theorem subset_cache (group : Nat) : cached group ⊆ content.cache cached dungeon group := by
  have hinsert : ∀ (cached : Nat → Finset Nat) (key id : Nat),
      cached group ⊆ Function.update cached key (insert id (cached key)) group := by
    intro cached key id
    by_cases hkey : group = key
    · subst hkey
      rw [Function.update_self]
      exact Finset.subset_insert _ _
    · rw [Function.update_of_ne hkey]
  unfold DungeonContent.cache
  cases content.locate dungeon with
  | none => exact Finset.Subset.refl _
  | some located =>
    dsimp only
    split_ifs
    · exact (hinsert _ _ _).trans (hinsert _ _ _)
    · exact hinsert _ _ _

theorem subset_cacheAll (dungeons : List (LFGDungeonData F)) (cached : Nat → Finset Nat)
    (group : Nat) : cached group ⊆ dungeons.foldl content.cache cached group := by
  induction dungeons generalizing cached with
  | nil => exact Finset.Subset.refl _
  | cons dungeon dungeons ih =>
    exact (subset_cache group).trans (ih (content.cache cached dungeon))

theorem cacheAll_eq_empty (dungeons : List (LFGDungeonData F)) :
    dungeons.foldl content.cache (fun _ => ∅) = (fun _ => ∅) ↔
      ∀ dungeon ∈ dungeons, ¬(content.locate dungeon).isSome := by
  induction dungeons with
  | nil => simp
  | cons dungeon dungeons ih =>
    rw [List.foldl_cons,List.forall_mem_cons,← ih]
    cases hlocate : content.locate dungeon with
    | none =>
      have hsame : content.cache (fun _ => ∅) dungeon = fun _ => ∅ := by
        unfold DungeonContent.cache
        rw [hlocate]
      rw [hsame]
      simp
    | some located =>
      have hmem : located.id ∈ content.cache (fun _ => ∅) dungeon 0 := by
        unfold DungeonContent.cache
        rw [hlocate]
        dsimp only
        rw [Function.update_self]
        exact Finset.mem_insert_self _ _
      have hne : dungeons.foldl content.cache (content.cache (fun _ => ∅) dungeon) ≠ fun _ => ∅ := by
        intro hempty
        have hsub : located.id ∈ dungeons.foldl content.cache (content.cache (fun _ => ∅) dungeon) 0 :=
          subset_cacheAll dungeons _ 0 hmem
        rw [hempty] at hsub
        simp at hsub
      simp [hne]

def DungeonContent.HasLocated (content : DungeonContent F) : Prop :=
  ∃ id dungeon, content.dungeon id = some dungeon ∧ content.Located dungeon

theorem cached_fresh_iff :
    (content.fillEntrances content.initDungeons).values.foldl content.cache (fun _ => ∅) =
      (fun _ => ∅) ↔ ¬content.HasLocated := by
  rw [cacheAll_eq_empty]
  have hfind : ∀ id, (content.fillEntrances content.initDungeons).find? id =
      (content.initDungeons.find? id).map fun data =>
        ((content.entrance id).map data.enter).getD data :=
    find?_fillEntrances content.initDungeons
  constructor
  · rintro hnone ⟨id,dungeon,hdungeon,hlocated⟩
    refine hnone _ (OrderedMap.mem_values.mpr ⟨id,?_⟩) ((locate_dungeon hdungeon).mpr hlocated)
    rw [hfind,find?_initDungeons,hdungeon]
    rfl
  · intro hno data hdata hsome
    obtain ⟨id,hid⟩ := OrderedMap.mem_values.mp hdata
    rw [hfind,find?_initDungeons] at hid
    cases hdungeon : content.dungeon id with
    | none =>
      rw [hdungeon] at hid
      cases hid
    | some dungeon =>
      rw [hdungeon] at hid
      cases hid
      exact hno ⟨id,dungeon,hdungeon,(locate_dungeon hdungeon).mp hsome⟩

def DungeonStores.ReloadsAsFresh (content : DungeonContent F) (stores : DungeonStores F) : Prop :=
  (stores.loadLFGDungeons content true).lfgDungeonStore =
      (DungeonStores.fresh.loadLFGDungeons content false).lfgDungeonStore ∧
    (stores.loadLFGDungeons content true).cachedDungeonMapStore =
      (DungeonStores.fresh.loadLFGDungeons content false).cachedDungeonMapStore

/-- The dungeons are the same. What was cached stays without entrances, and is forgotten else. -/
theorem reload_eq_fresh_iff (content : DungeonContent F) (stores : DungeonStores F) :
    stores.ReloadsAsFresh content ↔
      (content.lfgEntrances = [] → ∀ group, stores.cachedDungeonMapStore group = ∅) ∧
        (content.lfgEntrances ≠ [] → ¬content.HasLocated) := by
  unfold DungeonStores.ReloadsAsFresh DungeonStores.loadLFGDungeons
  by_cases hempty : content.lfgEntrances = []
  · rw [if_pos hempty,if_pos hempty]
    constructor
    · rintro ⟨-,hcached⟩
      exact ⟨fun _ => congrFun hcached,fun hne => absurd hempty hne⟩
    · rintro ⟨hcached,-⟩
      exact ⟨rfl,funext (hcached hempty)⟩
  · rw [if_neg hempty,if_neg hempty]
    constructor
    · rintro ⟨-,hcached⟩
      exact ⟨fun heq => absurd heq hempty,fun _ => cached_fresh_iff.mp hcached.symm⟩
    · rintro ⟨-,hnone⟩
      exact ⟨rfl,(cached_fresh_iff.mpr (hnone hempty)).symm⟩

end Cached

end Reload

def oneDungeon : DungeonContent Int where
  dungeonStore := [none,some ⟨258,"Random Classic Dungeon",15,58,-1,0,0,lfgTypeRandom,0,1⟩]
  lfgEntrances := [⟨258,1,2,3,0⟩]
  getMapEntranceTrigger _ := none

theorem reload_forgets :
    (DungeonStores.fresh.loadLFGDungeons oneDungeon false).cachedDungeonMapStore 0 = {258} ∧
    ¬(DungeonStores.fresh.loadLFGDungeons oneDungeon false).ReloadsAsFresh oneDungeon := by
  have hfresh : (DungeonStores.fresh.loadLFGDungeons oneDungeon false).cachedDungeonMapStore 0 =
      {258} := by decide
  refine ⟨hfresh,?_⟩
  rintro ⟨-,hcached⟩
  have hempty := congrFun hcached 0
  rw [hfresh] at hempty
  exact absurd hempty (by decide)

end TrinityCore.Lfg
