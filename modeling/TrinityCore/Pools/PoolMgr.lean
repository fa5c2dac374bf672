import TrinityCore.Lib.OrderedSet
import TrinityCore.Lib.Run

set_option autoImplicit false

/-!
The spawn pools of `PoolMgr.cpp`: the loaded groups, the record of what is spawned, and
the mutually recursive spawning and despawning of nested pools.

Grids and maps are left out, for nothing of them comes back to the pools. Random numbers
are an input: every call of the random generator takes the next one from a list. Counters
are natural numbers; where the source relies on the width of an integer it is written out.
-/

namespace TrinityCore.Pools

inductive Kind where
  | creature
  | gameobject
  | pool
  | quest
  deriving DecidableEq, Repr

structure PoolObject where
  guid : Nat
  chance : Rat
  deriving DecidableEq, Repr

structure PoolGroup where
  explicitlyChanced : List PoolObject
  equalChanced : List PoolObject

def PoolGroup.isEmpty (g : PoolGroup) : Bool :=
  g.explicitlyChanced.isEmpty && g.equalChanced.isEmpty

def PoolGroup.guids (g : PoolGroup) : List Nat :=
  (g.equalChanced ++ g.explicitlyChanced).map PoolObject.guid

/-- What `LoadFromDB` leaves behind. Every object is in one pool, the mother of a pool is the
pool that lists it, and `depth` is the height of a pool in the forest that remains when
circular references have been removed. Quests always have equal chances. -/
structure PoolMgr where
  maxLimit : Nat → Nat
  group : Kind → Nat → PoolGroup
  mother : Nat → Nat
  questCreature : Nat → List Nat
  questGO : Nat → List Nat
  depth : Nat → Nat
  limit_lt : ∀ p, maxLimit p < 2^32
  one_pool : ∀ k p q g, g ∈ (group k p).guids → g ∈ (group k q).guids → p = q
  guid_ne : ∀ k p, 0 ∉ (group k p).guids
  mother_iff : ∀ p m, m ≠ 0 → (mother p = m ↔ p ∈ (group .pool m).guids)
  no_pool_zero : (group .pool 0).guids = []
  depth_lt : ∀ p c, c ∈ (group .pool p).guids → depth c < depth p
  quest_equal : ∀ p, (group .quest p).explicitlyChanced = []

/-- `mSpawnedPools` holds the active counts and doubles as the set of active child pools. -/
structure ActivePoolData where
  spawnedCreatures : Finset Nat
  spawnedGameobjects : Finset Nat
  activeQuests : Finset Nat
  spawnedPools : Nat → Option Nat

namespace ActivePoolData

variable (d : ActivePoolData)

def empty : ActivePoolData := ⟨∅,∅,∅,fun _ => none⟩

def getActiveObjectCount (pool : Nat) : Nat := (d.spawnedPools pool).getD 0

def isActiveObject : Kind → Nat → Bool
  | .creature, guid => guid ∈ d.spawnedCreatures
  | .gameobject, guid => guid ∈ d.spawnedGameobjects
  | .pool, pool => (d.spawnedPools pool).isSome
  | .quest, quest => quest ∈ d.activeQuests

/-- The reference `mSpawnedPools[pool]` makes an entry when there is none. -/
def changeCount (pool : Nat) (f : Nat → Nat) : ActivePoolData :=
  let count := some (f (d.getActiveObjectCount pool))
  { d with spawnedPools := Function.update d.spawnedPools pool count }

def mark : Kind → Nat → ActivePoolData
  | .creature, guid => { d with spawnedCreatures := insert guid d.spawnedCreatures }
  | .gameobject, guid => { d with spawnedGameobjects := insert guid d.spawnedGameobjects }
  | .pool, pool => { d with spawnedPools := Function.update d.spawnedPools pool (some 0) }
  | .quest, quest => { d with activeQuests := insert quest d.activeQuests }

def unmark : Kind → Nat → ActivePoolData
  | .creature, guid => { d with spawnedCreatures := d.spawnedCreatures.erase guid }
  | .gameobject, guid => { d with spawnedGameobjects := d.spawnedGameobjects.erase guid }
  | .pool, pool => { d with spawnedPools := Function.update d.spawnedPools pool none }
  | .quest, quest => { d with activeQuests := d.activeQuests.erase quest }

def activateObject (k : Kind) (guid pool : Nat) : ActivePoolData :=
  (d.mark k guid).changeCount pool (· + 1)

def removeObject (k : Kind) (guid pool : Nat) : ActivePoolData :=
  (d.unmark k guid).changeCount pool (· - 1)

end ActivePoolData

/-- The numbers of one call: `rand_chance` and the index of `irand`. -/
structure Roll where
  chance : Rat
  index : Nat

/-- The dynamic data: what is spawned, the quest relations of creatures and gameobjects,
the saved quest pools, and the random numbers to come. -/
structure World where
  spawns : ActivePoolData
  creatureQuests : List (Nat × Nat)
  gameobjectQuests : List (Nat × Nat)
  questSave : Nat → List Nat
  rolls : List Roll

def World.roll (w : World) : Roll := w.rolls.headD ⟨0,0⟩

def World.rolled (w : World) : World := { w with rolls := w.rolls.tail }

@[simp] theorem World.rolled_spawns (w : World) : w.rolled.spawns = w.spawns := rfl

def World.activate (w : World) (k : Kind) (guid pool : Nat) : World :=
  { w with spawns := w.spawns.activateObject k guid pool }

def World.remove (w : World) (k : Kind) (guid pool : Nat) : World :=
  { w with spawns := w.spawns.removeObject k guid pool }

/-- An object may be rolled when it is not active or is the one that triggered the roll. -/
def canRoll (d : ActivePoolData) (k : Kind) (triggerFrom guid : Nat) : Bool :=
  guid == triggerFrom || !d.isActiveObject k guid

def rollExplicit (d : ActivePoolData) (k : Kind) (triggerFrom : Nat) :
    Rat → List PoolObject → Option PoolObject
  | _, [] => none
  | roll, o :: os =>
    let roll := roll - o.chance
    if roll < 0 ∧ canRoll d k triggerFrom o.guid then some o
    else rollExplicit d k triggerFrom roll os

def rollOne (g : PoolGroup) (d : ActivePoolData) (k : Kind) (triggerFrom : Nat) (r : Roll) :
    Option PoolObject :=
  match rollExplicit d k triggerFrom r.chance g.explicitlyChanced with
  | some o => some o
  | none =>
    match g.equalChanced[r.index % g.equalChanced.length]? with
    | some o => if canRoll d k triggerFrom o.guid then some o else none
    | none => none

section Groups

variable (mgr : PoolMgr) (despawn1 spawn1 : Nat → World → World) (k : Kind) (pool : Nat)

def despawnOne (guid : Nat) (w : World) (g : Nat) : World :=
  if w.spawns.isActiveObject k g ∧ (guid = 0 ∨ g = guid) then (despawn1 g w).remove k g pool
  else w

def despawnObject (guid : Nat) (w : World) : World :=
  (mgr.group k pool).guids.foldl (despawnOne despawn1 k pool guid) w

/-- The loop of `SpawnObject`; an object that triggered it is swapped for the first other
object that is spawned. -/
def spawnLoop : Nat → Nat → Nat → World → World
  | 0, _, _, w => w
  | n+1, triggerFrom, lastDespawned, w =>
    let obj := rollOne (mgr.group k pool) w.spawns k triggerFrom w.roll
    let w := w.rolled
    match obj with
    | none => spawnLoop n triggerFrom lastDespawned w
    | some obj =>
      if obj.guid = lastDespawned then spawnLoop n triggerFrom lastDespawned w
      else if obj.guid = triggerFrom then spawnLoop n 0 lastDespawned w
      else
        let w := spawn1 obj.guid (w.activate k obj.guid pool)
        if triggerFrom ≠ 0 then
          spawnLoop n 0 triggerFrom (despawnObject mgr despawn1 k pool triggerFrom w)
        else spawnLoop n 0 lastDespawned w

def spawnCount (limit active triggerFrom : Nat) : Nat :=
  (Int.bmod ((limit : Int)-active) (2^32) + if triggerFrom = 0 then 0 else 1).toNat

def spawnObject (triggerFrom : Nat) (w : World) : World :=
  spawnLoop mgr despawn1 spawn1 k pool
    (spawnCount (mgr.maxLimit pool) (w.spawns.getActiveObjectCount pool) triggerFrom)
    triggerFrom 0 w

end Groups

section Quests

variable (mgr : PoolMgr) (pool : Nat)

def spawnQuest1 (quest : Nat) (w : World) : World :=
  { w with
    creatureQuests := w.creatureQuests ++ (mgr.questCreature quest).map (·,quest)
    gameobjectQuests := w.gameobjectQuests ++ (mgr.questGO quest).map (·,quest) }

def despawnQuest1 (quest : Nat) (w : World) : World :=
  { w with
    creatureQuests := (mgr.questCreature quest).foldl (fun l c => l.erase (c,quest)) w.creatureQuests
    gameobjectQuests := (mgr.questGO quest).foldl (fun l c => l.erase (c,quest)) w.gameobjectQuests }

def activateQuest (quest : Nat) (w : World) : World :=
  spawnQuest1 mgr quest (w.activate .quest quest pool)

def decrement (limit : Nat) : Nat := (limit+(2^32-1)) % 2^32

def loadQuests : List Nat → Nat → World → World
  | [], _, w => w
  | quest :: rows, limit, w =>
    let w := activateQuest mgr pool quest w
    let limit := decrement limit
    if limit = 0 then w else loadQuests rows limit w

def selectRandomContainerElement (c : Finset Nat) (index : Nat) : Nat :=
  (OrderedSet.elems c).getD (index % c.card) 0

/-- Quests that were active are taken back until the limit is reached; the number of rounds
is bounded by the number of candidates. -/
def recycleQuests (limit : Nat) : Nat → Finset Nat → Finset Nat → World → Finset Nat × World
  | 0, newQuests, _, w => (newQuests,w)
  | n+1, newQuests, currentQuests, w =>
    let quest := selectRandomContainerElement currentQuests w.roll.index
    let newQuests := insert quest newQuests
    let currentQuests := currentQuests.erase quest
    if newQuests.card < limit ∧ currentQuests ≠ ∅ then
      recycleQuests limit n newQuests currentQuests w.rolled
    else (newQuests,w.rolled)

def activateQuests : Nat → Nat → Finset Nat → World → World
  | 0, _, _, w => w
  | n+1, limit, newQuests, w =>
    let quest := selectRandomContainerElement newQuests w.roll.index
    let w := activateQuest mgr pool quest w.rolled
    let newQuests := newQuests.erase quest
    let limit := decrement limit
    if limit ≠ 0 ∧ newQuests ≠ ∅ then activateQuests n limit newQuests w else w

def saveQuestsToDB (w : World) : World :=
  { w with questSave := fun p =>
      if (mgr.group .quest p).isEmpty then w.questSave p
      else (mgr.group .quest p).guids.dedup.filter (fun q => w.spawns.isActiveObject .quest q) }

/-- The quests of the pool that are not active, the first choice. -/
def newQuests (d : ActivePoolData) : Finset Nat :=
  ((mgr.group .quest pool).equalChanced.map PoolObject.guid).toFinset \ d.activeQuests

/-- `SpawnObject` of a quest group when it does not load the saved rows. -/
def chooseQuests (triggerFrom : Nat) (w : World) : World :=
  let currentQuests := w.spawns.activeQuests
  let new := newQuests mgr pool w.spawns
  let limit := mgr.maxLimit pool
  let w := despawnObject mgr (despawnQuest1 mgr) .quest pool 0 w
  let (new,w) := if limit > new.card ∧ currentQuests ≠ ∅ then
      recycleQuests limit currentQuests.card new currentQuests w
    else (new,w)
  if new = ∅ then w
  else
    let w := activateQuests mgr pool new.card limit new w
    if triggerFrom = 0 then saveQuestsToDB mgr w else w

def spawnQuests (triggerFrom : Nat) (w : World) : World :=
  if triggerFrom = 0 ∧ w.questSave pool ≠ [] then
    loadQuests mgr pool (w.questSave pool) (mgr.maxLimit pool) w
  else chooseQuests mgr pool triggerFrom w

end Quests

section Pools

variable (mgr : PoolMgr)

/-- `Despawn1Object` and `Spawn1Object` of creatures and gameobjects only touch the map. -/
def onMap (_guid : Nat) (w : World) : World := w

def despawnFuel : Nat → Nat → World → World
  | 0, _, w => w
  | n+1, pool, w =>
    let w := despawnObject mgr onMap .creature pool 0 w
    let w := despawnObject mgr onMap .gameobject pool 0 w
    let w := despawnObject mgr (despawnFuel n) .pool pool 0 w
    despawnObject mgr (despawnQuest1 mgr) .quest pool 0 w

/-- The recursion goes down the forest of pools, so the depth of the pool is enough. -/
def despawnPool (pool : Nat) (w : World) : World := despawnFuel mgr (mgr.depth pool+1) pool w

def spawnKind (spawn : Nat → World → World) (k : Kind) (pool triggerFrom : Nat) (w : World) :
    World :=
  if (mgr.group k pool).isEmpty then w
  else match k with
    | .creature => spawnObject mgr onMap onMap .creature pool triggerFrom w
    | .gameobject => spawnObject mgr onMap onMap .gameobject pool triggerFrom w
    | .pool => spawnObject mgr (despawnPool mgr) spawn .pool pool triggerFrom w
    | .quest => spawnQuests mgr pool triggerFrom w

def spawnFuel : Nat → Nat → World → World
  | 0, _, w => w
  | n+1, pool, w =>
    let w := spawnKind mgr (spawnFuel n) .pool pool 0 w
    let w := spawnKind mgr (spawnFuel n) .gameobject pool 0 w
    let w := spawnKind mgr (spawnFuel n) .creature pool 0 w
    spawnKind mgr (spawnFuel n) .quest pool 0 w

def spawnPool (pool : Nat) (w : World) : World := spawnFuel mgr (mgr.depth pool+1) pool w

def updatePool (k : Kind) (pool guid : Nat) (w : World) : World :=
  if mgr.mother pool ≠ 0 then spawnKind mgr (spawnPool mgr) .pool (mgr.mother pool) pool w
  else spawnKind mgr (spawnPool mgr) k pool guid w

inductive Action where
  | spawn (pool : Nat) (rolls : List Roll)
  | despawn (pool : Nat)
  | update (k : Kind) (pool guid : Nat) (rolls : List Roll)

def step (w : World) : Action → World
  | .spawn pool rolls => spawnPool mgr pool { w with rolls := rolls }
  | .despawn pool => despawnPool mgr pool w
  | .update k pool guid rolls => updatePool mgr k pool guid { w with rolls := rolls }

end Pools

/-- Nothing is spawned; the quest relations and the saved rows are as loaded. -/
def World.init (creatureQuests gameobjectQuests : List (Nat × Nat)) (save : Nat → List Nat) :
    World := ⟨.empty,creatureQuests,gameobjectQuests,save,[]⟩

end TrinityCore.Pools
