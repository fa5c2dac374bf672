import Mathlib

set_option autoImplicit false

namespace TrinityCore.Players

def inventorySlotBag0 : Nat := 255
def nullBag : Nat := 0
def nullSlot : Nat := 255
def equipmentSlotStart : Nat := 0
def inventorySlotBagStart : Nat := 19
def inventorySlotBagEnd : Nat := 23
def inventorySlotItemStart : Nat := 23
def inventorySlotItemEnd : Nat := 39
def bankSlotItemStart : Nat := 39
def bankSlotItemEnd : Nat := 67
def bankSlotBagStart : Nat := 67
def bankSlotBagEnd : Nat := 74
def buybackSlotStart : Nat := 74
def buybackSlotEnd : Nat := 86
def keyringSlotStart : Nat := 86
def keyringSlotEnd : Nat := 118
def currencytokenSlotStart : Nat := 118
def currencytokenSlotEnd : Nat := 150
def playerSlotEnd : Nat := 150

def maxBagSize : Nat := 36

def getMaxKeyringSize : Nat := keyringSlotEnd-keyringSlotStart

def bagFamilyMaskArrows : BitVec 32 := 0x00000001#32
def bagFamilyMaskBullets : BitVec 32 := 0x00000002#32
def bagFamilyMaskSoulShards : BitVec 32 := 0x00000004#32
def bagFamilyMaskLeatherworkingSupp : BitVec 32 := 0x00000008#32
def bagFamilyMaskInscriptionSupp : BitVec 32 := 0x00000010#32
def bagFamilyMaskHerbs : BitVec 32 := 0x00000020#32
def bagFamilyMaskEnchantingSupp : BitVec 32 := 0x00000040#32
def bagFamilyMaskEngineeringSupp : BitVec 32 := 0x00000080#32
def bagFamilyMaskKeys : BitVec 32 := 0x00000100#32
def bagFamilyMaskGems : BitVec 32 := 0x00000200#32
def bagFamilyMaskMiningSupp : BitVec 32 := 0x00000400#32
def bagFamilyMaskCurrencyTokens : BitVec 32 := 0x00002000#32

def itemClassContainer : Nat := 1
def itemClassQuiver : Nat := 11
def itemSubclassContainer : Nat := 0
def itemSubclassSoulContainer : Nat := 1
def itemSubclassHerbContainer : Nat := 2
def itemSubclassEnchantingContainer : Nat := 3
def itemSubclassEngineeringContainer : Nat := 4
def itemSubclassGemContainer : Nat := 5
def itemSubclassMiningContainer : Nat := 6
def itemSubclassLeatherworkingContainer : Nat := 7
def itemSubclassInscriptionContainer : Nat := 8
def itemSubclassQuiver : Nat := 2
def itemSubclassAmmoPouch : Nat := 3
def invtypeBag : Nat := 18

inductive InventoryResult where
  | ok
  | itemDoesntGoIntoBag
  | itemCantBeEquipped
  | cantCarryMoreOfThis
  | itemCantStack
  | itemsCantBeSwapped
  | itemNotFound
  | canOnlyDoWithEmptyBags
  | dontOwnThatItem
  | nonemptyBagOverOtherBag
  | alreadyLooted
  | inventoryFull
  | itemMaxLimitCategoryCountExceeded
  deriving DecidableEq, Repr

structure ItemTemplate where
  itemId : Nat
  itemClass : Nat
  subClass : Nat
  bindToAccount : Bool
  inventoryType : Nat
  maxCount : Int
  stackable : Int
  containerSlots : Nat
  gemProperties : Nat
  /-- The colour of the first socket. -/
  socketColor : Nat
  bagFamily : BitVec 32
  itemLimitCategory : Nat
  /-- The loader cuts larger values down. -/
  containerSlots_le : containerSlots ≤ maxBagSize

namespace ItemTemplate

def isCurrencyToken (t : ItemTemplate) : Bool := t.bagFamily &&& bagFamilyMaskCurrencyTokens != 0

def isKey (t : ItemTemplate) : Bool := t.bagFamily &&& bagFamilyMaskKeys != 0

def getMaxStackSize (t : ItemTemplate) : Nat :=
  if t.stackable = 2147483647 ∨ t.stackable ≤ 0 then 0x7FFFFFFF-1 else t.stackable.toNat

end ItemTemplate

inductive LimitCategoryMode where
  | have
  | equip
  deriving DecidableEq, Repr

structure ItemLimitCategoryEntry where
  maxCount : Nat
  mode : LimitCategoryMode

structure ItemStore where
  getItemTemplate : Nat → Option ItemTemplate
  lookupLimitCategory : Nat → Option ItemLimitCategoryEntry
  itemId_eq : ∀ entry t, getItemTemplate entry = some t → t.itemId = entry

structure Item where
  guid : Nat
  entry : Nat
  count : Nat
  owner : Nat
  soulBound : Bool
  /-- Who may get the item while it is still tradeable. -/
  bopTradeable : Option (List Nat)
  lootGenerated : Bool
  /-- The gems in the sockets. -/
  gems : List Nat
  deriving DecidableEq, Repr

structure Inventory where
  /-- The guid of the player. -/
  guid : Nat
  /-- The slots of the player. -/
  items : Nat → Option Item
  /-- The slots of each bag, by the guid of the bag. -/
  bagslot : Nat → Nat → Option Item

def itemCanGoIntoBag (pProto pBagProto : ItemTemplate) : Bool :=
  let family (mask : BitVec 32) : Bool := pProto.bagFamily &&& mask != 0
  if pBagProto.itemClass = itemClassContainer then
    if pBagProto.subClass = itemSubclassContainer then true
    else if pBagProto.subClass = itemSubclassSoulContainer then family bagFamilyMaskSoulShards
    else if pBagProto.subClass = itemSubclassHerbContainer then family bagFamilyMaskHerbs
    else if pBagProto.subClass = itemSubclassEnchantingContainer then
      family bagFamilyMaskEnchantingSupp
    else if pBagProto.subClass = itemSubclassMiningContainer then family bagFamilyMaskMiningSupp
    else if pBagProto.subClass = itemSubclassEngineeringContainer then
      family bagFamilyMaskEngineeringSupp
    else if pBagProto.subClass = itemSubclassGemContainer then family bagFamilyMaskGems
    else if pBagProto.subClass = itemSubclassLeatherworkingContainer then
      family bagFamilyMaskLeatherworkingSupp
    else if pBagProto.subClass = itemSubclassInscriptionContainer then
      family bagFamilyMaskInscriptionSupp
    else false
  else if pBagProto.itemClass = itemClassQuiver then
    if pBagProto.subClass = itemSubclassQuiver then family bagFamilyMaskArrows
    else if pBagProto.subClass = itemSubclassAmmoPouch then family bagFamilyMaskBullets
    else false
  else false

namespace Item

def isBag (S : ItemStore) (it : Item) : Bool :=
  (S.getItemTemplate it.entry).any fun t => t.inventoryType == invtypeBag

def getBagSize (S : ItemStore) (it : Item) : Nat :=
  (S.getItemTemplate it.entry).elim 0 ItemTemplate.containerSlots

def canBeMergedPartlyWith (it : Item) (proto : ItemTemplate) : InventoryResult :=
  if it.lootGenerated then .alreadyLooted
  else if it.entry ≠ proto.itemId then .itemCantStack
  else if it.count ≥ proto.getMaxStackSize then .itemCantStack
  else .ok

def isBoundAccountWide (S : ItemStore) (it : Item) : Bool :=
  (S.getItemTemplate it.entry).any ItemTemplate.bindToAccount

def isBindedNotWith (S : ItemStore) (it : Item) (player : Nat) : Bool :=
  if !it.soulBound then false
  else if it.owner = player then false
  else if (it.bopTradeable.any fun allowed => allowed.contains player) then false
  else if it.isBoundAccountWide S then false
  else true

def getGemCountWithID (it : Item) (gem : Nat) : Nat := it.gems.count gem

end Item

namespace Inventory

variable (S : ItemStore) (inv : Inventory)

def getBagByPos (bag : Nat) : Option Item :=
  if (bag ≥ inventorySlotBagStart ∧ bag < inventorySlotBagEnd) ∨
      (bag ≥ bankSlotBagStart ∧ bag < bankSlotBagEnd) then
    (inv.items bag).filter (Item.isBag S)
  else none

def getItemByPos (bag slot : Nat) : Option Item :=
  if bag = inventorySlotBag0 ∧ (slot < bankSlotBagEnd ∨
      (slot ≥ keyringSlotStart ∧ slot < currencytokenSlotEnd)) then inv.items slot
  else
    match inv.getBagByPos S bag with
    | some pBag => if slot < pBag.getBagSize S then inv.bagslot pBag.guid slot else none
    | none => none

def isNotEmptyBag (it : Item) : Bool :=
  it.isBag S && (List.range (it.getBagSize S)).any fun slot => (inv.bagslot it.guid slot).isSome

def itemsFrom (start stop : Nat) : List Item :=
  (List.range' start (stop-start)).filterMap fun slot => inv.getItemByPos S inventorySlotBag0 slot

def itemsInBag (bag : Nat) : List Item :=
  match inv.getBagByPos S bag with
  | some pBag => (List.range (pBag.getBagSize S)).filterMap (inv.bagslot pBag.guid)
  | none => []

def itemsInBags (start stop : Nat) : List Item :=
  (List.range' start (stop-start)).flatMap fun bag => inv.itemsInBag S bag

end Inventory

/-- How many items there are of the ones that are counted, without the one that is left out. -/
def countOf (counted : Item → Bool) (skipItem : Option Item) (items : List Item) : Nat :=
  ((items.filter fun it => counted it && decide (skipItem.map Item.guid ≠ some it.guid)).map
    Item.count).sum

def gemsOf (S : ItemStore) (gem : Nat) (skipItem : Option Item) (items : List Item) : Nat :=
  ((items.filter fun it => decide (skipItem.map Item.guid ≠ some it.guid) &&
    (S.getItemTemplate it.entry).any fun t => t.socketColor != 0).map
      fun it => it.getGemCountWithID gem).sum

namespace Inventory

variable (S : ItemStore) (inv : Inventory)

def getItemCount (item : Nat) (inBankAlso : Bool) (skipItem : Option Item) : Nat :=
  let count := countOf (fun it => it.entry == item) skipItem
  let gems := fun items : List Item =>
    if skipItem.any (fun it => (S.getItemTemplate it.entry).any fun t => t.gemProperties != 0) then
      gemsOf S item skipItem items
    else 0
  let carried := count (inv.itemsFrom S equipmentSlotStart inventorySlotItemEnd)+
    count (inv.itemsFrom S keyringSlotStart currencytokenSlotEnd)+
    count (inv.itemsInBags S inventorySlotBagStart inventorySlotBagEnd)+
    gems (inv.itemsInBags S inventorySlotBagStart inventorySlotBagEnd)+
    gems (inv.itemsFrom S equipmentSlotStart inventorySlotItemEnd)
  let banked := count (inv.itemsFrom S bankSlotItemStart bankSlotBagEnd)+
    count (inv.itemsInBags S bankSlotBagStart bankSlotBagEnd)+
    gems (inv.itemsInBags S bankSlotBagStart bankSlotBagEnd)+
    gems (inv.itemsFrom S bankSlotItemStart bankSlotItemEnd)
  (if inBankAlso then carried+banked else carried)%2^32

def getItemCountWithLimitCategory (limitCategory : Nat) (skipItem : Option Item) : Nat :=
  let count := countOf (fun it => (S.getItemTemplate it.entry).any fun t =>
    t.itemLimitCategory == limitCategory) skipItem
  (count (inv.itemsFrom S equipmentSlotStart inventorySlotItemEnd)+
    count (inv.itemsFrom S keyringSlotStart currencytokenSlotEnd)+
    count (inv.itemsInBags S inventorySlotBagStart inventorySlotBagEnd)+
    count (inv.itemsFrom S bankSlotItemStart bankSlotBagEnd)+
    count (inv.itemsInBags S bankSlotBagStart bankSlotBagEnd))%2^32

end Inventory

end TrinityCore.Players
