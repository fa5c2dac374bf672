import TrinityCore.Lib.Slots
import TrinityCore.Players.Inventory

set_option autoImplicit false

/-!
`CanStoreItem`: where an item goes. The limits on how many a player may have come first, then the
slot and the bag that are asked for, then stacks to merge with and free slots anywhere.
-/

namespace TrinityCore.Players

open Slots

abbrev Pos : Type := Nat × Nat

/-- What `CanStoreItem` reports: its result, `dest` and `no_space_count`. -/
structure CanStore where
  result : InventoryResult
  dest : List (Pos × Nat)
  noSpaceCount : Nat
  deriving DecidableEq, Repr

def sub32 (a b : Nat) : Nat := (a+(2^32-b))%2^32

section Limits

variable (S : ItemStore) (inv : Inventory)

def Inventory.canTakeMoreSimilarItems (entry count : Nat) (pItem : Option Item) :
    InventoryResult × Nat :=
  match S.getItemTemplate entry with
  | none => (.cantCarryMoreOfThis,count)
  | some pProto =>
    if pItem.any Item.lootGenerated then (.alreadyLooted,0)
    else if (pProto.maxCount ≤ 0 ∧ pProto.itemLimitCategory = 0) ∨ pProto.maxCount = 2147483647 then
      (.ok,0)
    else
      let curcount := inv.getItemCount S pProto.itemId true pItem
      if pProto.maxCount > 0 ∧ (curcount+count)%2^32 > pProto.maxCount.toNat then
        (.cantCarryMoreOfThis,sub32 ((count+curcount)%2^32) pProto.maxCount.toNat)
      else if pProto.itemLimitCategory ≠ 0 then
        match S.lookupLimitCategory pProto.itemLimitCategory with
        | none => (.itemCantBeEquipped,count)
        | some limitEntry =>
          let curcount := inv.getItemCountWithLimitCategory S pProto.itemLimitCategory pItem
          if limitEntry.mode = .have ∧ (curcount+count)%2^32 > limitEntry.maxCount then
            (.itemMaxLimitCategoryCountExceeded,sub32 ((count+curcount)%2^32) limitEntry.maxCount)
          else (.ok,0)
      else (.ok,0)

end Limits

section Slots

variable (S : ItemStore) (inv : Inventory) (pProto : ItemTemplate)

/-- The item in a slot, without the one that is moved. -/
def Inventory.seen (pSrcItem : Option Item) (pos : Pos) : Option Item :=
  (inv.getItemByPos S pos.1 pos.2).filter fun it => decide (pSrcItem.map Item.guid ≠ some it.guid)

/-- Whether a slot is one that a search uses: a stack to merge with, or a free slot. -/
def Inventory.usable (merge : Bool) (pSrcItem : Option Item) (pos : Pos) : Bool :=
  match inv.seen S pSrcItem pos with
  | none => !merge
  | some pItem2 => merge && pItem2.canBeMergedPartlyWith pProto == .ok

def Inventory.needSpace (pSrcItem : Option Item) (pos : Pos) : Nat :=
  match inv.seen S pSrcItem pos with
  | none => pProto.getMaxStackSize
  | some pItem2 => pProto.getMaxStackSize-pItem2.count

def isBagPos (pos : Pos) : Bool :=
  pos.1 == inventorySlotBag0 &&
    ((decide (pos.2 ≥ inventorySlotBagStart) && decide (pos.2 < inventorySlotBagEnd)) ||
      (decide (pos.2 ≥ bankSlotBagStart) && decide (pos.2 < bankSlotBagEnd)))

def ItemTemplate.isContainer (t : ItemTemplate) : Bool :=
  t.itemClass == itemClassContainer && t.subClass == itemSubclassContainer

/-- Whether the item may be in a slot of the player or of a bag, if that is empty. -/
def Inventory.goesInto (pos : Pos) : Bool :=
  if pos.1 = inventorySlotBag0 then
    if pos.2 ≥ keyringSlotStart ∧ pos.2 < keyringSlotStart+getMaxKeyringSize ∧ !pProto.isKey then
      false
    else if pos.2 ≥ currencytokenSlotStart ∧ pos.2 < currencytokenSlotEnd ∧
        !pProto.isCurrencyToken then false
    else if (pos.2 ≥ buybackSlotStart ∧ pos.2 < buybackSlotEnd) ∨ pos.2 ≥ playerSlotEnd then false
    else true
  else
    match inv.getBagByPos S pos.1 with
    | none => false
    | some pBag =>
      match S.getItemTemplate pBag.entry with
      | none => false
      | some pBagProto =>
        if pos.2 ≥ pBagProto.containerSlots then false else itemCanGoIntoBag pProto pBagProto

def Inventory.canStoreItemInSpecificSlot (pos : Pos) (swap : Bool) (pSrcItem : Option Item)
    (plan : Plan Pos) : Except InventoryResult (Plan Pos) :=
  if pSrcItem.any (inv.isNotEmptyBag S) ∧ !isBagPos pos then .error .canOnlyDoWithEmptyBags
  else
    match inv.seen S pSrcItem pos with
    | none =>
      if inv.goesInto S pProto pos then .ok (plan.reserve pos pProto.getMaxStackSize)
      else .error .itemDoesntGoIntoBag
    | some pItem2 =>
      if swap then
        if inv.goesInto S pProto pos then .ok (plan.reserve pos pProto.getMaxStackSize)
        else .error .itemDoesntGoIntoBag
      else if pItem2.canBeMergedPartlyWith pProto ≠ .ok then
        .error (pItem2.canBeMergedPartlyWith pProto)
      else .ok (plan.reserve pos (pProto.getMaxStackSize-pItem2.count))

def slotsOfBag (bag size skipSlot : Nat) : List Pos :=
  ((List.range size).filter fun j => decide (j ≠ skipSlot)).map fun j => (bag,j)

def Inventory.canStoreItemInBag (bag : Nat) (merge nonSpecialized : Bool) (pSrcItem : Option Item)
    (skipBag skipSlot : Nat) (plan : Plan Pos) : Except InventoryResult (Plan Pos) :=
  if bag = skipBag then .error .itemDoesntGoIntoBag
  else
    match inv.getBagByPos S bag with
    | none => .error .itemDoesntGoIntoBag
    | some pBag =>
      if pSrcItem.map Item.guid = some pBag.guid then .error .itemDoesntGoIntoBag
      else if pSrcItem.any (inv.isNotEmptyBag S) then .error .canOnlyDoWithEmptyBags
      else
        match S.getItemTemplate pBag.entry with
        | none => .error .itemDoesntGoIntoBag
        | some pBagProto =>
          if nonSpecialized != pBagProto.isContainer then .error .itemDoesntGoIntoBag
          else if !itemCanGoIntoBag pProto pBagProto then .error .itemDoesntGoIntoBag
          else .ok (plan.fill (inv.needSpace S pProto pSrcItem)
            ((slotsOfBag bag (pBag.getBagSize S) skipSlot).filter
              (inv.usable S pProto merge pSrcItem)))

def slotsOfPlayer (slotBegin slotEnd skipBag skipSlot : Nat) : List Pos :=
  ((List.range' slotBegin (slotEnd-slotBegin)).filter fun j =>
    decide (¬ (skipBag = inventorySlotBag0 ∧ j = skipSlot))).map fun j => (inventorySlotBag0,j)

def Inventory.canStoreItemInInventorySlots (slotBegin slotEnd : Nat) (merge : Bool)
    (pSrcItem : Option Item) (skipBag skipSlot : Nat) (plan : Plan Pos) :
    Except InventoryResult (Plan Pos) :=
  if pSrcItem.any (inv.isNotEmptyBag S) then .error .canOnlyDoWithEmptyBags
  else .ok (plan.fill (inv.needSpace S pProto pSrcItem)
    ((slotsOfPlayer slotBegin slotEnd skipBag skipSlot).filter
      (inv.usable S pProto merge pSrcItem)))

end Slots

structure StoreRequest where
  pProto : ItemTemplate
  pItem : Option Item
  bag : Nat
  slot : Nat
  /-- How many the limits don't allow. -/
  noSimilarCount : Nat

namespace StoreRequest

variable (req : StoreRequest)

def failed (res : InventoryResult) (plan : Plan Pos) : CanStore :=
  ⟨res,plan.pieces,(plan.left+req.noSimilarCount)%2^32⟩

def nothingLeft (plan : Plan Pos) : CanStore :=
  if req.noSimilarCount = 0 then ⟨.ok,plan.pieces,0⟩ else req.failed .cantCarryMoreOfThis plan

/-- After a search, an error ends the call, and so does a plan with nothing left. -/
def afterSearch (plan : Plan Pos) : Except InventoryResult (Plan Pos) → Except CanStore (Plan Pos)
  | .error res => .error (req.failed res plan)
  | .ok plan' => if plan'.left = 0 then .error (req.nothingLeft plan') else .ok plan'

/-- After the search of one of several bags, an error leaves that bag out. -/
def afterBag (plan : Plan Pos) : Except InventoryResult (Plan Pos) → Except CanStore (Plan Pos)
  | .error _ => .ok plan
  | .ok plan' => if plan'.left = 0 then .error (req.nothingLeft plan') else .ok plan'

end StoreRequest

namespace Inventory

variable (S : ItemStore) (inv : Inventory) (req : StoreRequest)

def searchPlayerSlots (slotBegin slotEnd : Nat) (merge : Bool) (plan : Plan Pos) :
    Except CanStore (Plan Pos) :=
  req.afterSearch plan (inv.canStoreItemInInventorySlots S req.pProto slotBegin slotEnd merge
    req.pItem req.bag req.slot plan)

def searchBag (merge : Bool) (plan : Plan Pos) : Except CanStore (Plan Pos) :=
  req.afterSearch plan
    (match inv.canStoreItemInBag S req.pProto req.bag merge false req.pItem nullBag req.slot plan with
    | .ok plan' => .ok plan'
    | .error _ =>
      inv.canStoreItemInBag S req.pProto req.bag merge true req.pItem nullBag req.slot plan)

/-- The bags of the player that are not asked for. -/
def searchBags (merge nonSpecialized : Bool) (plan : Plan Pos) : Except CanStore (Plan Pos) :=
  (List.range' inventorySlotBagStart (inventorySlotBagEnd-inventorySlotBagStart)).foldlM
    (fun plan i => req.afterBag plan (inv.canStoreItemInBag S req.pProto i merge nonSpecialized
      req.pItem req.bag req.slot plan)) plan

def searchKeyring (plan : Plan Pos) : Except CanStore (Plan Pos) :=
  inv.searchPlayerSlots S req keyringSlotStart (keyringSlotStart+getMaxKeyringSize) false plan

def searchTokens (plan : Plan Pos) : Except CanStore (Plan Pos) :=
  inv.searchPlayerSlots S req currencytokenSlotStart currencytokenSlotEnd false plan

def searchBackpack (merge : Bool) (plan : Plan Pos) : Except CanStore (Plan Pos) :=
  inv.searchPlayerSlots S req inventorySlotItemStart inventorySlotItemEnd merge plan

def mergeInPlayerSlots (plan : Plan Pos) : Except CanStore (Plan Pos) :=
  inv.searchPlayerSlots S req keyringSlotStart currencytokenSlotEnd true plan >>=
    inv.searchBackpack S req true

def mergeInSpecificBag (plan : Plan Pos) : Except CanStore (Plan Pos) :=
  if req.pProto.stackable ≠ 1 then
    if req.bag = inventorySlotBag0 then inv.mergeInPlayerSlots S req plan
    else inv.searchBag S req true plan
  else .ok plan

def searchKeyringOrTokens (plan : Plan Pos) : Except CanStore (Plan Pos) :=
  if req.pProto.isKey then inv.searchKeyring S req plan >>= inv.searchTokens S req
  else if req.pProto.isCurrencyToken then inv.searchTokens S req plan
  else .ok plan

def freeInSpecificBag (plan : Plan Pos) : Except CanStore (Plan Pos) :=
  if req.bag = inventorySlotBag0 then
    inv.searchKeyringOrTokens S req plan >>= inv.searchBackpack S req false
  else inv.searchBag S req false plan

def searchSpecificSlot (swap : Bool) (plan : Plan Pos) : Except CanStore (Plan Pos) :=
  if req.bag ≠ nullBag ∧ req.slot ≠ nullSlot then
    req.afterSearch plan
      (inv.canStoreItemInSpecificSlot S req.pProto (req.bag,req.slot) swap req.pItem plan)
  else .ok plan

def searchSpecificBag (plan : Plan Pos) : Except CanStore (Plan Pos) :=
  if req.bag ≠ nullBag then
    inv.mergeInSpecificBag S req plan >>= inv.freeInSpecificBag S req
  else .ok plan

def mergeInSpecialBags (plan : Plan Pos) : Except CanStore (Plan Pos) :=
  if req.pProto.bagFamily ≠ 0 then inv.searchBags S req true false plan else .ok plan

def mergeAnywhere (plan : Plan Pos) : Except CanStore (Plan Pos) :=
  if req.pProto.stackable ≠ 1 then
    inv.mergeInPlayerSlots S req plan >>= fun plan =>
      inv.mergeInSpecialBags S req plan >>= inv.searchBags S req true true
  else .ok plan

def searchKeyringElseTokens (plan : Plan Pos) : Except CanStore (Plan Pos) :=
  if req.pProto.isKey then inv.searchKeyring S req plan
  else if req.pProto.isCurrencyToken then inv.searchTokens S req plan
  else .ok plan

def freeInSpecialBags (plan : Plan Pos) : Except CanStore (Plan Pos) :=
  if req.pProto.bagFamily ≠ 0 then
    inv.searchKeyringElseTokens S req plan >>= inv.searchBags S req false false
  else .ok plan

/-- This error does not set `no_space_count`. -/
def checkNotEmptyBag (plan : Plan Pos) : Except CanStore (Plan Pos) :=
  if req.pItem.any (inv.isNotEmptyBag S) then .error ⟨.nonemptyBagOverOtherBag,plan.pieces,0⟩
  else .ok plan

def freeAnywhere (plan : Plan Pos) : Except CanStore (Plan Pos) :=
  inv.searchBackpack S req false plan >>= inv.searchBags S req false true

def search (swap : Bool) (plan : Plan Pos) : CanStore :=
  let searched := inv.searchSpecificSlot S req swap plan >>= fun plan =>
    inv.searchSpecificBag S req plan >>= fun plan =>
      inv.mergeAnywhere S req plan >>= fun plan =>
        inv.freeInSpecialBags S req plan >>= fun plan =>
          inv.checkNotEmptyBag S req plan >>= inv.freeAnywhere S req
  match searched with
  | .error report => report
  | .ok plan => req.failed .inventoryFull plan

def canStoreItem (bag slot : Nat) (dest : List (Pos × Nat)) (entry count : Nat)
    (pItem : Option Item) (swap : Bool) : CanStore :=
  match S.getItemTemplate entry with
  | none => ⟨if swap then .itemsCantBeSwapped else .itemNotFound,dest,count⟩
  | some pProto =>
    if pItem.any Item.lootGenerated then ⟨.alreadyLooted,dest,count⟩
    else if pItem.any fun it => it.isBindedNotWith S inv.guid then ⟨.dontOwnThatItem,dest,count⟩
    else
      let res := inv.canTakeMoreSimilarItems S entry count pItem
      if res.1 ≠ .ok ∧ count = res.2 then ⟨res.1,dest,res.2⟩
      else
        let left := if res.1 ≠ .ok then sub32 count res.2 else count
        inv.search S ⟨pProto,pItem,bag,slot,res.2⟩ swap ⟨left,dest⟩

def canStoreNewItem (bag slot : Nat) (dest : List (Pos × Nat)) (item count : Nat) : CanStore :=
  inv.canStoreItem S bag slot dest item count none false

end Inventory

end TrinityCore.Players
