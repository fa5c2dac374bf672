import TrinityCore.Looting.OnlyOnce

set_option autoImplicit false

namespace TrinityCore.Looting

structure LootRow where
  itemid : Nat
  count : Nat
  followLootRules : Bool
  freeforall : Bool
  isBlocked : Bool
  isCounted : Bool
  isUnderthreshold : Bool
  needsQuest : Bool
  randomPropertyId : Int
  randomSuffix : Nat

def LootItem.row (item : LootItem) : LootRow where
  itemid := item.itemid
  count := item.count
  followLootRules := item.followLootRules
  freeforall := item.freeforall
  isBlocked := item.isBlocked
  isCounted := item.isCounted
  isUnderthreshold := item.isUnderthreshold
  needsQuest := item.needsQuest
  randomPropertyId := item.randomPropertyId
  randomSuffix := item.randomSuffix

def LootRow.lootItem (row : LootRow) (conditionsOf : Nat → List Nat) (looters : List Nat) :
    LootItem where
  itemid := row.itemid
  randomSuffix := row.randomSuffix
  randomPropertyId := row.randomPropertyId
  conditions := conditionsOf row.itemid
  allowedGuids := looters
  count := row.count
  isLooted := false
  isBlocked := row.isBlocked
  freeforall := row.freeforall
  isUnderthreshold := row.isUnderthreshold
  isCounted := row.isCounted
  needsQuest := row.needsQuest
  followLootRules := row.followLootRules
  canSave := true

structure ContainerWorld where
  fill : FillWorld
  /-- The conditions in the loot template of the container, if there is one, by item. -/
  template : Option (Nat → List Nat)

structure Container where
  guid : Nat
  guid_pos : 0 < guid
  loot : Loot
  rows : List LootRow
  money : Option Nat
  destroyed : Bool

abbrev Goods := Multiset (Nat × Nat)

def LootItem.goods (item : LootItem) : Nat × Nat := (item.itemid,item.count)

def LootRow.goods (row : LootRow) : Nat × Nat := (row.itemid,row.count)

namespace Container

variable (c : Container)

def itemContainerSaveLootToDB : Container :=
  if c.loot.isLooted then c
  else
    { c with
      loot := { c.loot with containerID := c.guid }
      money := if c.loot.gold > 0 then some c.loot.gold else c.money
      rows := (c.loot.items.filter fun item => item.canSave).map LootItem.row }

/-- The rows that the database answers with are those of the container, in any order. -/
def itemContainerLoadLootFromDB (world : ContainerWorld) (looters : List Nat)
    (result : List LootRow) : Container :=
  let l := { c.loot with containerID := c.guid, gold := c.money.getD c.loot.gold }
  { c with
    loot := match world.template with
      | none => l
      | some conditionsOf =>
        { l.countUp result.length with
          items := l.items ++ result.map fun row => row.lootItem conditionsOf looters } }

def destroyItem : Container := { c with rows := [], money := none, destroyed := true }

def doLootRelease : Container :=
  -- unlooted loot is saved
  if c.loot.isLooted then c.destroyItem else c

def deleteLootItem (itemID : Nat) : Container :=
  { c with rows := c.rows.filter fun row => row.itemid ≠ itemID }

def autostoreLootItem (looter : Looter) (player lootSlot : Nat) : Container × Option Stored :=
  match c.loot.storeLootItem looter player lootSlot with
  | (l,none) => (doLootRelease { c with loot := l },none)
  | (l,some s) =>
    let c := { c with loot := l }
    (doLootRelease (if l.containerID > 0 then c.deleteLootItem s.itemid else c),some s)

def lootMoney : Container × Nat :=
  (doLootRelease { c with
    loot := { c.loot with gold := 0 }
    money := if c.loot.containerID > 0 then none else c.money },c.loot.gold)

def reload (world : ContainerWorld) (looters : List Nat) (result : List LootRow) : Container :=
  itemContainerLoadLootFromDB { c with loot := Loot.empty } world looters result

def available : Goods :=
  if c.destroyed then 0
  else (((c.loot.items ++ c.loot.questItems).filter fun item => !item.isLooted).map LootItem.goods :
    List (Nat × Nat))

end Container

/-- What is generated when a container is opened for the first time. -/
structure Generated where
  guid : Nat
  guid_pos : 0 < guid
  gold : Nat
  rolled : List Rolled
  lootOwner : Nat
  ownerGroup : Option LootGroup

namespace Generated

variable (g : Generated) (world : ContainerWorld)

def fillLoot : Loot × List Stored :=
  let l := { Loot.empty with containerID := g.guid, gold := g.gold }
  match world.template with
  | none => (l,[])
  | some _ => l.fillLoot world.fill g.rolled g.lootOwner g.ownerGroup true

def sendLoot : Container :=
  let l := (g.fillLoot world).1
  let c : Container := ⟨g.guid,g.guid_pos,l,[],none,false⟩
  -- the loot and money that were just rolled are saved
  if l.gold > 0 ∨ l.unlootedCount > 0 then c.itemContainerSaveLootToDB else c

def goods : Goods :=
  (((g.fillLoot world).1.items ++ (g.fillLoot world).1.questItems).map LootItem.goods :
    List (Nat × Nat))

end Generated

inductive ContainerCall where
  | autostoreLootItem (looter : Looter) (player lootSlot : Nat)
  | lootMoney
  | doLootRelease
  | itemContainerSaveLootToDB
  | reload (looters : List Nat) (result : List LootRow)

abbrev Gain := Goods × Nat

def Stored.goods (s : Stored) : Nat × Nat := (s.itemid,s.count)

def gainOf (s : Option Stored) : Gain := ((s.toList.map Stored.goods : List (Nat × Nat)),0)

namespace Container

def run (world : ContainerWorld) (c : Container) : ContainerCall → Container × Gain
  | .autostoreLootItem looter player lootSlot =>
    let result := c.autostoreLootItem looter player lootSlot
    (result.1,gainOf result.2)
  | .lootMoney => (c.lootMoney.1,0,c.lootMoney.2)
  | .doLootRelease => (c.doLootRelease,0)
  | .itemContainerSaveLootToDB => (c.itemContainerSaveLootToDB,0)
  | .reload looters result => (c.reload world looters result,0)

/-- A step of a container that has not been destroyed. -/
def Step (world : ContainerWorld) (c : Container) (call : ContainerCall) (gain : Gain)
    (c' : Container) : Prop :=
  c.destroyed = false ∧ (∀ looters result, call = .reload looters result → result.Perm c.rows) ∧
    c.run world call = (c',gain)

end Container

end TrinityCore.Looting
