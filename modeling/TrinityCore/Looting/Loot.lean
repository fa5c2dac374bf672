import Mathlib

set_option autoImplicit false

/-!
Loot: the entries that are for one player only, the entries that every player of a group gets once
and the quest entries. It is filled for a player or for a group and then handed out slot by slot.
-/

namespace TrinityCore.Looting

def maxNrLootItems : Nat := 16

structure ItemTemplate where
  stackable : Int
  /-- `ITEM_PROTO_FLAG_PARTY_LOOT`. -/
  partyLoot : Bool
  /-- `ITEM_FLAGS_CU_FOLLOW_LOOT_RULES`. -/
  followLootRules : Bool
  isCurrencyToken : Bool
  quality : Nat

def ItemTemplate.getMaxStackSize (proto : ItemTemplate) : Nat :=
  if proto.stackable = 2147483647 ∨ proto.stackable ≤ 0 then 0x7FFFFFFF-1 else proto.stackable.toNat

structure LootStoreItem where
  itemid : Nat
  needsQuest : Bool
  conditions : List Nat

structure LootItem where
  itemid : Nat
  randomSuffix : Nat
  randomPropertyId : Int
  conditions : List Nat
  allowedGuids : List Nat
  count : Nat
  isLooted : Bool
  isBlocked : Bool
  freeforall : Bool
  isUnderthreshold : Bool
  isCounted : Bool
  needsQuest : Bool
  followLootRules : Bool
  canSave : Bool
  deriving DecidableEq

structure NotNormalLootItem where
  index : Nat
  isLooted : Bool
  deriving DecidableEq

structure Loot where
  items : List LootItem
  questItems : List LootItem
  gold : Nat
  /-- Eight bits. -/
  unlootedCount : Nat
  /-- The container item the loot is in, if it is saved. -/
  containerID : Nat
  playerQuestItems : Nat → Option (List NotNormalLootItem)
  playerFFAItems : Nat → Option (List NotNormalLootItem)
  playerNonQuestNonFFAConditionalItems : Nat → Option (List NotNormalLootItem)

inductive Entry where
  | item (index : Nat)
  | quest (index : Nat)
  deriving DecidableEq

/-- What `LootItemInSlot` finds: the entry and, if it is in a list of the player, its place there. -/
structure LootSlot where
  entry : Entry
  item : LootItem
  qitem : Option Nat
  ffaitem : Option Nat
  conditem : Option Nat

/-- An item that was stored in the inventory of a player. If the count is zero none was made. -/
structure Stored where
  entry : Entry
  player : Nat
  itemid : Nat
  count : Nat
  freeforall : Bool
  deriving DecidableEq

structure Looter where
  /-- By item, conditions and whether it is a quest drop. -/
  allowedForPlayer : Nat → List Nat → Bool → Bool
  /-- `CanStoreNewItem` answers that there is no error, by item and count. -/
  canStoreNewItem : Nat → Nat → Bool

structure FillWorld where
  getItemTemplate : Nat → Option ItemTemplate
  allowedForPlayer : Nat → Nat → List Nat → Bool → Bool
  /-- By player, slot, item and count. -/
  canStoreNewItem : Nat → Nat → Nat → Nat → Bool

def LootItem.allowedForPlayer (item : LootItem) (looter : Looter) : Bool :=
  looter.allowedForPlayer item.itemid item.conditions item.needsQuest

def FillWorld.looter (w : FillWorld) (player lootSlot : Nat) : Looter :=
  ⟨w.allowedForPlayer player,w.canStoreNewItem player lootSlot⟩

def FillWorld.allows (w : FillWorld) (player : Nat) (item : LootItem) : Bool :=
  w.allowedForPlayer player item.itemid item.conditions item.needsQuest

/-- One call of `AddItem` by the loot template, with what is random in it. -/
structure Rolled where
  item : LootStoreItem
  count : Fin 256
  randomSuffix : Nat
  randomPropertyId : Int

inductive LootMethod where
  | freeForAll
  | roundRobin
  | masterLoot
  | groupLoot
  | needBeforeGreed
  deriving DecidableEq

structure GroupMember where
  guid : Nat
  isInMap : Bool
  isAtGroupRewardDistance : Bool

structure LootGroup where
  lootMethod : LootMethod
  masterLooterGuid : Nat
  lootThreshold : Nat
  members : List GroupMember
  nodup : (members.map GroupMember.guid).Nodup

namespace Loot

def empty : Loot := ⟨[],[],0,0,0,fun _ => none,fun _ => none,fun _ => none⟩

def isLooted (l : Loot) : Bool := l.gold = 0 ∧ l.unlootedCount = 0

variable (l : Loot)

def entry : Entry → Option LootItem
  | .item i => l.items[i]?
  | .quest i => l.questItems[i]?

def countUp (n : Nat) : Loot := { l with unlootedCount := (l.unlootedCount+n)%256 }

def countDown : Loot := { l with unlootedCount := (l.unlootedCount+255)%256 }

def placeOf (list : Option (List NotNormalLootItem)) (index : Nat) :
    Option (Nat × NotNormalLootItem) :=
  list.bind fun list => (list.findIdx? fun x => x.index = index).bind fun pos =>
    list[pos]?.map fun x => (pos,x)

def lootItemInSlot (lootSlot player : Nat) : Option LootSlot :=
  match l.items[lootSlot]? with
  | none =>
    match (l.playerQuestItems player).bind fun list => list[lootSlot-l.items.length]? with
    | none => none
    | some qitem =>
      match l.questItems[qitem.index]? with
      | none => none
      | some item =>
        if qitem.isLooted then none
        else some ⟨.quest qitem.index,item,some (lootSlot-l.items.length),none,none⟩
  | some item =>
    if item.freeforall then
      match placeOf (l.playerFFAItems player) lootSlot with
      | some (pos,x) => if x.isLooted then none else some ⟨.item lootSlot,item,none,some pos,none⟩
      | none => if item.isLooted then none else some ⟨.item lootSlot,item,none,none,none⟩
    else if item.conditions ≠ [] then
      match placeOf (l.playerNonQuestNonFFAConditionalItems player) lootSlot with
      | some (pos,x) => if x.isLooted then none else some ⟨.item lootSlot,item,none,none,some pos⟩
      | none => if item.isLooted then none else some ⟨.item lootSlot,item,none,none,none⟩
    else if item.isLooted then none
    else some ⟨.item lootSlot,item,none,none,none⟩

def setListLooted (list : Option (List NotNormalLootItem)) (pos : Option Nat) :
    Option (List NotNormalLootItem) :=
  match pos with
  | none => list
  | some pos => list.map fun list => list.modify pos fun x => { x with isLooted := true }

/-- The records of the player that belong to the slot are marked as looted. -/
def setOwnLooted (player : Nat) (slot : LootSlot) : Loot :=
  { l with
    playerQuestItems := Function.update l.playerQuestItems player
      (setListLooted (l.playerQuestItems player) slot.qitem)
    playerFFAItems := Function.update l.playerFFAItems player
      (setListLooted (l.playerFFAItems player) slot.ffaitem)
    playerNonQuestNonFFAConditionalItems :=
      Function.update l.playerNonQuestNonFFAConditionalItems player
        (setListLooted (l.playerNonQuestNonFFAConditionalItems player) slot.conditem) }

def modifyEntry (f : LootItem → LootItem) : Entry → Loot
  | .item i => { l with items := l.items.modify i f }
  | .quest i => { l with questItems := l.questItems.modify i f }

/-- The part of `DeleteLootItemFromContainerItemDB` in memory: "mark the item looted to prevent
resaving". -/
def markSaved (itemID : Nat) : Loot :=
  { l with
    items := match l.items.findIdx? fun item => item.itemid = itemID with
      | none => l.items
      | some i => l.items.modify i fun item => { item with canSave := true } }

def setLooted (player : Nat) (slot : LootSlot) : Loot :=
  let l := l.setOwnLooted player slot
  -- if only one player is supposed to loot the item
  if slot.item.freeforall then l
  else l.modifyEntry (fun item => { item with isLooted := true }) slot.entry

def handOut (player : Nat) (slot : LootSlot) : Loot :=
  let l := (l.setLooted player slot).countDown
  if l.containerID > 0 then l.markSaved slot.item.itemid else l

def storeLootItem (looter : Looter) (player lootSlot : Nat) : Loot × Option Stored :=
  match l.lootItemInSlot lootSlot player with
  | none => (l,none)
  | some slot =>
    if !slot.item.allowedForPlayer looter then (l,none)
    -- quest items use the blocked field for other purposes
    else if slot.qitem.isNone && slot.item.isBlocked then (l,none)
    else if !looter.canStoreNewItem slot.item.itemid slot.item.count then (l,none)
    else (l.handOut player slot,
      some ⟨slot.entry,player,slot.item.itemid,slot.item.count,slot.item.freeforall⟩)

def masterEntry (slotid : Nat) : Entry :=
  if slotid ≥ l.items.length then .quest (slotid-l.items.length) else .item slotid

/-- `HandleLootMasterGiveOpcode` of a master looter who may give to the target. -/
def lootMasterGive (looter : Looter) (target slotid : Nat) : Loot × Option Stored :=
  let e := l.masterEntry slotid
  match l.entry e with
  | none => (l,none)
  | some item =>
    if !looter.canStoreNewItem item.itemid item.count then (l,none)
    else if item.followLootRules && !item.allowedForPlayer looter then (l,none)
    else
      ((l.modifyEntry (fun item => { item with count := 0, isLooted := true }) e).countDown,
        some ⟨e,target,item.itemid,item.count,item.freeforall⟩)

section Fill

variable (w : FillWorld)

def stacksOf (r : Rolled) (proto : ItemTemplate) : Nat → Nat → List LootItem
  | 0, _ => []
  | n+1, count =>
    { itemid := r.item.itemid
      randomSuffix := r.randomSuffix
      randomPropertyId := r.randomPropertyId
      conditions := r.item.conditions
      allowedGuids := []
      count := min count proto.getMaxStackSize
      isLooted := false
      isBlocked := false
      freeforall := proto.partyLoot
      isUnderthreshold := false
      isCounted := false
      needsQuest := r.item.needsQuest
      followLootRules := proto.followLootRules
      canSave := true }   :: stacksOf r proto n (count-proto.getMaxStackSize)

def maxNrQuestItems : Nat := 32

/-- The entries for an item that was rolled, no more than there is room for. -/
def rolledEntries (r : Rolled) (proto : ItemTemplate) (room : Nat) : List LootItem :=
  let stackCount := r.count.val/proto.getMaxStackSize+
    (if r.count.val%proto.getMaxStackSize = 0 then 0 else 1)
  stacksOf r proto (min stackCount room) r.count.val

def addItem (r : Rolled) : Loot :=
  match w.getItemTemplate r.item.itemid with
  | none => l
  | some proto =>
    if r.item.needsQuest then
      let new := rolledEntries r proto (maxNrQuestItems-l.questItems.length)
      { l with questItems := l.questItems ++ new }
    else
      let new := rolledEntries r proto (maxNrLootItems-l.items.length)
      let l := { l with items := l.items ++ new }
      -- entries for one player without conditions are counted here
      if r.item.conditions = [] ∧ !proto.partyLoot then l.countUp new.length else l

def ffaList (player : Nat) : List NotNormalLootItem :=
  ((List.range l.items.length).filter fun i =>
    l.items[i]?.any fun item => !item.isLooted && item.freeforall && w.allows player item).map
      fun i => ⟨i,false⟩

def fillFFALoot (player : Nat) : Loot :=
  let ql := l.ffaList w player
  if ql = [] then l
  else { l.countUp ql.length with playerFFAItems := Function.update l.playerFFAItems player (some ql) }

def isQuestLootFor (group : Option LootGroup) (player : Nat) (item : LootItem) : Bool :=
  !item.isLooted && (w.allows player item || (item.followLootRules &&
    group.any fun group => (group.lootMethod = .masterLoot ∧ group.masterLooterGuid = player) ∨
      group.lootMethod ≠ .masterLoot))

/-- The loop of `FillQuestLoot` from an index on, with room for so many more entries: the entries
after it, the list and how many were counted. -/
def fillQuestFrom (group : Option LootGroup) (player : Nat) :
    Nat → Nat → List LootItem → List LootItem × List NotNormalLootItem × Nat
  | _, _, [] => ([],[],0)
  | room, i, item :: rest =>
    if isQuestLootFor w group player item then
      -- once if for one player only, for every player if free for all
      let counted := if item.freeforall || !item.isBlocked then 1 else 0
      let item := if group.all fun group => group.lootMethod ≠ .groupLoot ∧
          group.lootMethod ≠ .roundRobin then { item with isBlocked := true } else item
      if room ≤ 1 then (item :: rest,[⟨i,false⟩],counted)
      else
        let result := fillQuestFrom group player (room-1) (i+1) rest
        (item :: result.1,⟨i,false⟩ :: result.2.1,counted+result.2.2)
    else
      let result := fillQuestFrom group player room (i+1) rest
      (item :: result.1,result.2)

def fillQuestLoot (group : Option LootGroup) (player : Nat) : Loot :=
  if l.items.length = maxNrLootItems then l
  else
    let result := fillQuestFrom w group player (maxNrLootItems-l.items.length) 0 l.questItems
    { l.countUp result.2.2 with
      questItems := result.1
      playerQuestItems := if result.2.1 = [] then l.playerQuestItems
        else Function.update l.playerQuestItems player (some result.2.1) }

def fillConditionalFrom (player : Nat) (presentAtLooting : Bool) :
    Nat → List LootItem → List LootItem × List NotNormalLootItem × Nat
  | _, [] => ([],[],0)
  | i, item :: rest =>
    let result := fillConditionalFrom player presentAtLooting (i+1) rest
    if !item.isLooted && !item.freeforall && w.allows player item then
      let item := if presentAtLooting then { item with allowedGuids := player :: item.allowedGuids }
        else item
      if item.conditions = [] then (item :: result.1,result.2)
      else ({ item with isCounted := true } :: result.1,⟨i,false⟩ :: result.2.1,
        (if item.isCounted then 0 else 1)+result.2.2)
    else (item :: result.1,result.2)

def fillNonQuestNonFFAConditionalLoot (player : Nat) (presentAtLooting : Bool) : Loot :=
  let result := fillConditionalFrom w player presentAtLooting 0 l.items
  { l.countUp result.2.2 with
    items := result.1
    playerNonQuestNonFFAConditionalItems :=
      if result.2.1 = [] then l.playerNonQuestNonFFAConditionalItems
      else Function.update l.playerNonQuestNonFFAConditionalItems player (some result.2.1) }

def getMaxSlotInLootFor (player : Nat) : Nat :=
  l.items.length+((l.playerQuestItems player).elim 0 List.length)

def storeCurrency (player : Nat) (s : Loot × List Stored) (i : Nat) : Loot × List Stored :=
  let l := s.1
  -- the slot of the player is used as the index of the entry here
  match l.entry (if i < l.items.length then .item i else .quest (i-l.items.length)) with
  | none => s
  | some item =>
    if !item.isLooted && item.freeforall && w.allows player item &&
        (w.getItemTemplate item.itemid).any ItemTemplate.isCurrencyToken then
      let result := l.storeLootItem (w.looter player i) player i
      (result.1,s.2 ++ result.2.toList)
    else s

def fillLists (group : Option LootGroup) (player : Nat) (presentAtLooting : Bool) : Loot :=
  let l := if l.playerQuestItems player = none then l.fillQuestLoot w group player else l
  let l := if l.playerFFAItems player = none then l.fillFFALoot w player else l
  if l.playerNonQuestNonFFAConditionalItems player = none then
    l.fillNonQuestNonFFAConditionalLoot w player presentAtLooting
  else l

def fillNotNormalLootFor (group : Option LootGroup) (player : Nat) (presentAtLooting : Bool)
    (s : Loot × List Stored) : Loot × List Stored :=
  let l := s.1.fillLists w group player presentAtLooting
  -- if not stored at once the player will have to come and pick it up
  if presentAtLooting then
    (List.range (l.getMaxSlotInLootFor player)).foldl (storeCurrency w player) (l,s.2)
  else (l,s.2)

def fillMember (group : LootGroup) (s : Loot × List Stored) (member : GroupMember) :
    Loot × List Stored :=
  if member.isInMap then
    fillNotNormalLootFor w (some group) member.guid member.isAtGroupRewardDistance s
  else s

def setUnderthreshold (group : LootGroup) : Loot :=
  { l with
    items := l.items.map fun item =>
      if (w.getItemTemplate item.itemid).any fun proto => proto.quality < group.lootThreshold then
        { item with isUnderthreshold := true }
      else item }

/-- `FillLoot` with the items that the template rolls. Some currency is stored at once. -/
def fillLoot (rolled : List Rolled) (lootOwner : Nat) (ownerGroup : Option LootGroup)
    (personal : Bool) : Loot × List Stored :=
  let l := rolled.foldl (fun l r => l.addItem w r) l
  match if personal then none else ownerGroup with
  | some group =>
    let s := group.members.foldl (fillMember w group) (l,[])
    (s.1.setUnderthreshold w group,s.2)
  | none => fillNotNormalLootFor w ownerGroup lootOwner true (l,[])

end Fill

end Loot

end TrinityCore.Looting
