import TrinityCore.Guilds.BankMoney
import TrinityCore.Lib.Slots

set_option autoImplicit false

/-!
The items of the guild bank. A request moves a stack to another slot, onto other stacks, a part of
it, or changes its place with another stack; space is reserved first, then the item is taken from
its slot and stored over the reserved places.
-/

namespace TrinityCore.Guilds

open Slots

def guildBankMaxSlots : Nat := 98
def nullSlot : Nat := 255
def guildBankRightViewTab : BitVec 8 := 0x01
def guildBankRightDepositItem : BitVec 8 := 0x03

structure Templates where
  maxStackSize : Nat → Nat
  pos : ∀ entry, 1 ≤ maxStackSize entry

structure Item where
  guid : Nat
  entry : Nat
  count : Nat
  soulBound : Bool
  deriving DecidableEq, Repr

inductive InventoryResult where
  | cantDropSoulbound
  | itemDoesntGoIntoBag
  | itemCantStack
  | bankFull
  deriving DecidableEq, Repr

section Rights

def Guild.getRankBankTabRights (g : Guild) (rankId tabId : Nat) : BitVec 8 :=
  match g.getRankInfo rankId with
  | some r => ((r.bankTabRightsAndSlots[tabId]?).map (·.rights)).getD 0
  | none => 0

def Guild.getRankBankTabSlotsPerDay (g : Guild) (rankId tabId : Nat) : BitVec 32 :=
  if tabId < g.purchasedTabs then
    match g.getRankInfo rankId with
    | some r => ((r.bankTabRightsAndSlots[tabId]?).map (·.slots)).getD 0
    | none => 0
  else 0

def tabIndex (tabId : Nat) : Fin (guildBankMaxTabs+1) := Fin.ofNat _ tabId

def Guild.getMemberRemainingSlots (g : Guild) (m : Member) (tabId : Nat) : BitVec 32 :=
  if m.rankId = grGuildmaster then unlimited
  else if g.getRankBankTabRights m.rankId tabId &&& guildBankRightViewTab ≠ 0 then
    let remaining :=
      g.getRankBankTabSlotsPerDay m.rankId tabId-m.getBankWithdrawValue (tabIndex tabId)
    if 0 < remaining.toInt then remaining else 0
  else 0

def Guild.updateMemberWithdrawSlots (g : Guild) (player tabId : Nat) : Guild :=
  match g.getMember player with
  | none => g
  | some m =>
    if m.rankId ≠ grGuildmaster ∧ (m.getBankWithdrawValue (tabIndex tabId)).toInt <
        (g.getRankBankTabSlotsPerDay m.rankId tabId).toInt then
      { g with members := g.members.insert player (m.updateBankWithdrawValue (tabIndex tabId) 1) }
    else g

def Guild.memberHasTabRights (g : Guild) (player tabId : Nat) (rights : BitVec 8) : Bool :=
  match g.getMember player with
  | none => false
  | some m =>
    if m.isRank grGuildmaster || g.leaderGuid == player then true
    else (g.getRankBankTabRights m.rankId tabId &&& rights) == rights

end Rights

/-- The bank: what is in slot `s` of tab `t` is at `(t,s)`. Items made from others get guids that
no item has had. -/
structure Bank where
  guild : Guild
  items : Nat × Nat → Option Item
  nextGuid : Nat

structure Place where
  tab : Nat
  slot : Nat
  deriving DecidableEq, Repr

namespace Bank

def getItem (b : Bank) (tab slot : Nat) : Option Item :=
  if tab < b.guild.purchasedTabs ∧ slot < guildBankMaxSlots then b.items (tab,slot) else none

def setItem (b : Bank) (tab slot : Nat) (item : Option Item) : Bank :=
  if tab < b.guild.purchasedTabs ∧ slot < guildBankMaxSlots then
    { b with items := Function.update b.items (tab,slot) item }
  else b

/-- `CloneItem` with `CreateItem`: a new item, never of count zero or above the largest stack. -/
def cloneItem (b : Bank) (T : Templates) (item : Item) (count : Nat) : Option (Item × Bank) :=
  if count < 1 then none
  else
    some (⟨b.nextGuid,item.entry,min count (T.maxStackSize item.entry),item.soulBound⟩,
      { b with nextGuid := b.nextGuid+1 })

def reserveSpace (T : Templates) (slot : Nat) (item : Item) (dest : Option Item) (plan : Plan Nat) :
    Option (Plan Nat) :=
  match dest with
  | some d =>
    if d.entry ≠ item.entry ∨ T.maxStackSize item.entry ≤ d.count then none
    else some (plan.reserve slot (T.maxStackSize item.entry-d.count))
  | none => some (plan.reserve slot (T.maxStackSize item.entry))

/-- The item in a slot as `CanStore` looks at it: the slot of the item itself will be empty. -/
def seen (b : Bank) (tab : Nat) (item : Item) (slot : Nat) : Option Item :=
  (b.getItem tab slot).filter fun d => d.guid ≠ item.guid

def canStoreItemInTab (b : Bank) (T : Templates) (tab : Nat) (item : Item) (skip : Nat)
    (merge : Bool) (plan : Plan Nat) : Plan Nat :=
  (List.range guildBankMaxSlots).foldl (fun plan slot =>
    if plan.left = 0 then plan
    else if slot = skip then plan
    else if (b.seen tab item slot).isSome ≠ merge then plan
    else (reserveSpace T slot item (b.seen tab item slot) plan).getD plan) plan

def mergeInTab (b : Bank) (T : Templates) (place : Place) (item : Item) (plan : Plan Nat) : Plan Nat :=
  if T.maxStackSize item.entry > 1 then b.canStoreItemInTab T place.tab item place.slot true plan
  else plan

def searchTab (b : Bank) (T : Templates) (place : Place) (item : Item) (plan : Plan Nat) :
    Except InventoryResult (List (Nat × Nat)) :=
  let merged := b.mergeInTab T place item plan
  if merged.left = 0 then .ok merged.pieces
  else
    let plan := b.canStoreItemInTab T place.tab item place.slot false merged
    if plan.left = 0 then .ok plan.pieces else .error .bankFull

def canStore (b : Bank) (T : Templates) (place : Place) (item : Item) (swap : Bool) :
    Except InventoryResult (List (Nat × Nat)) :=
  if item.soulBound then .error .cantDropSoulbound
  else if place.tab ≥ b.guild.purchasedTabs then .error .itemDoesntGoIntoBag
  else if place.slot ≠ nullSlot then
    match reserveSpace T place.slot item (if swap then none else b.seen place.tab item place.slot)
        ⟨item.count,[]⟩ with
    | none => .error .itemCantStack
    | some plan => if plan.left = 0 then .ok plan.pieces else b.searchTab T place item plan
  else b.searchTab T place item ⟨item.count,[]⟩

def hasStoreRights (b : Bank) (player : Nat) (place other : Place) : Bool :=
  if other.tab = place.tab then true
  else b.guild.memberHasTabRights player place.tab guildBankRightDepositItem

def hasWithdrawRights (b : Bank) (player : Nat) (place other : Place) : Bool :=
  if other.tab = place.tab then true
  else
    match b.guild.getMember player with
    | none => false
    | some m => b.guild.getMemberRemainingSlots m place.tab ≠ 0

/-- `RemoveItem`: the split amount leaves the stack, or the stack its slot. -/
def removeItem (b : Bank) (player : Nat) (place other : Place) (item : Item) (split : Nat) : Bank :=
  let b :=
    if split ≠ 0 then b.setItem place.tab place.slot (some { item with count := item.count-split })
    else b.setItem place.tab place.slot none
  if other.tab ≠ place.tab then { b with guild := b.guild.updateMemberWithdrawSlots player place.tab }
  else b

def storeItemAt (b : Bank) (T : Templates) (tab : Nat) (item : Item) (piece : Nat × Nat)
    (clone : Bool) : Bank :=
  match b.getItem tab piece.1 with
  | some d => b.setItem tab piece.1 (some { d with count := d.count+piece.2 })
  | none =>
    if clone then
      match b.cloneItem T item piece.2 with
      | none => b
      | some (item',b) => b.setItem tab piece.1 (some item')
    else b.setItem tab piece.1 (some { item with count := piece.2 })

/-- `StoreItem`: the item itself goes to the last place, clones of it to the others. -/
def storeItem (b : Bank) (T : Templates) (tab : Nat) (item : Item) : List (Nat × Nat) → Bank
  | [] => b
  | [piece] => b.storeItemAt T tab item piece false
  | piece :: pieces => (b.storeItemAt T tab item piece true).storeItem T tab item pieces

/-- `_DoItemsMove` of `item`, with the item to swap it for if there is one. -/
def doItemsMove (b : Bank) (T : Templates) (player : Nat) (src dst : Place) (srcItem item : Item)
    (destItem : Option Item) (split : Nat) : Bank × Bool :=
  match b.canStore T dst item destItem.isSome with
  | .error _ => (b,false)
  | .ok pieces =>
    match destItem with
    | none => (((b.removeItem player src dst srcItem split).storeItem T dst.tab item pieces),true)
    | some d =>
      match b.canStore T src d true with
      | .error _ => (b,false)
      | .ok back =>
        let b := b.removeItem player src dst srcItem split
        let b := b.removeItem player dst src d 0
        let b := b.storeItem T dst.tab item pieces
        (b.storeItem T src.tab d back,true)

/-- The swap of `_MoveItems`, after the rights have been asked for in the opposite direction. -/
def swapStacks (b : Bank) (T : Templates) (player : Nat) (src dst : Place) (item : Item) :
    Bank × Bool :=
  match b.getItem dst.tab dst.slot with
  | none => (b,false)
  | some d =>
    if !b.hasStoreRights player src dst then (b,false)
    else if !b.hasWithdrawRights player dst src then (b,false)
    else b.doItemsMove T player src dst item item (some d) 0

def moveItems (b : Bank) (T : Templates) (player : Nat) (src dst : Place) (split : Nat) :
    Bank × Bool :=
  match b.getItem src.tab src.slot with
  | none => (b,false)
  | some item =>
    if split > item.count then (b,false)
    else if !b.hasStoreRights player dst src then (b,false)
    else if !b.hasWithdrawRights player src dst then (b,false)
    else if split ≠ 0 ∧ split ≠ item.count then
      match b.cloneItem T item split with
      | none => (b,false)
      | some (clone,b) => b.doItemsMove T player src dst item clone none split
    else
      let merged := b.doItemsMove T player src dst item item none 0
      if merged.2 then merged else b.swapStacks T player src dst item

def swapItems (b : Bank) (T : Templates) (player : Nat) (src dst : Place) (split : Nat) :
    Bank × Bool :=
  if src.tab ≥ b.guild.purchasedTabs ∨ src.slot ≥ guildBankMaxSlots ∨
      dst.tab ≥ b.guild.purchasedTabs ∨ dst.slot ≥ guildBankMaxSlots then (b,false)
  else if src = dst then (b,false)
  else b.moveItems T player src dst split

end Bank

end TrinityCore.Guilds
