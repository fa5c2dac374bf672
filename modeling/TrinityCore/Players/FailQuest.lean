import TrinityCore.Players.QuestLog
import TrinityCore.Players.EquipSlot
import TrinityCore.Players.DestroyCount
import TrinityCore.Lib.Piles

set_option autoImplicit false

namespace TrinityCore.Players

structure Player where
  inv : Inventory
  quests : QuestLog

section Definitions

variable (S : ItemStore) (Q : Nat → Option Quest) (moment : EquipMoment) (inTrade : Nat → Bool)

def Inventory.mayUnequip (inv : Inventory) (pos : Pos) : Bool :=
  inv.canUnequipItem S moment pos false = .storage .ok

namespace Player

def itemRemovedQuestCheck (p : Player) (entry count : Nat) : Player :=
  { p with
    quests := p.quests.itemRemovedQuestCheck Q entry count (p.inv.getItemCount S entry false none) }

def destroyItem : Nat → Pos → Player → Player
  | 0, _, p => p
  | depth+1, pos, p =>
    match p.inv.itemAt S pos with
    | none => p
    | some pItem =>
      let p :=
        if p.inv.isNotEmptyBag S pItem then
          (List.range maxBagSize).foldl (fun p i => destroyItem depth (pos.2,i) p) p
        else p
      let p := p.itemRemovedQuestCheck S Q pItem.entry pItem.count
      { p with inv := p.inv.removeItem S pos }

/-- One loop of `DestroyItemCount`, with the number that is gone; without one the function has
returned. -/
def destroyCountIn (depth itemEntry count : Nat) (mayUnequip : Inventory → Pos → Bool) :
    List Pos → Player → Nat → Player × Option Nat
  | [], p, remcount => (p,some remcount)
  | pos :: rest, p, remcount =>
    match p.inv.freeAt S inTrade itemEntry pos with
    | none => destroyCountIn depth itemEntry count mayUnequip rest p remcount
    | some item =>
      if (item.count+remcount)%2^32 ≤ count then
        if mayUnequip p.inv pos then
          let remcount := (remcount+item.count)%2^32
          let p := p.destroyItem S Q depth pos
          if remcount ≥ count then (p,none)
          else destroyCountIn depth itemEntry count mayUnequip rest p remcount
        else destroyCountIn depth itemEntry count mayUnequip rest p remcount
      else
        let p := p.itemRemovedQuestCheck S Q item.entry (sub32 count remcount)
        ({ p with
          inv := p.inv.setAt S pos
            (some { item with count := (item.count+remcount+(2^32-count))%2^32 }) },none)

def destroyCountPasses (depth itemEntry count : Nat) :
    List (List Pos × (Inventory → Pos → Bool)) → Player → Nat → Player
  | [], p, _ => p
  | (slots,mayUnequip) :: rest, p, remcount =>
    match p.destroyCountIn S Q inTrade depth itemEntry count mayUnequip slots remcount with
    | (p,some remcount) => destroyCountPasses depth itemEntry count rest p remcount
    | (p,none) => p

/-- The loops of `DestroyItemCount`. Only what is equipped may not be unequipped. -/
def destroyPasses (unequipCheck : Bool) : List (List Pos × (Inventory → Pos → Bool)) :=
  [(slotsFrom inventorySlotItemStart inventorySlotItemEnd,fun _ _ => true),
   (slotsFrom keyringSlotStart currencytokenSlotEnd,fun _ _ => true),
   (slotsInBags inventorySlotBagStart inventorySlotBagEnd,fun _ _ => true),
   (slotsFrom equipmentSlotStart inventorySlotBagEnd,fun inv pos =>
     !unequipCheck || inv.mayUnequip S moment pos),
   (slotsFrom bankSlotItemStart bankSlotItemEnd,fun _ _ => true),
   (slotsInBags bankSlotBagStart bankSlotBagEnd,fun _ _ => true)]

def destroyItemCount (p : Player) (depth itemEntry count : Nat) (unequipCheck : Bool) : Player :=
  p.destroyCountPasses S Q inTrade depth itemEntry count (destroyPasses S moment unequipCheck) 0

end Player

section Inventories

variable {S : ItemStore} {Q : Nat → Option Quest} {inTrade : Nat → Bool} {p : Player}
  {itemEntry count remcount : Nat}

theorem destroyItem_inv (depth : Nat) (pos : Pos) :
    (p.destroyItem S Q depth pos).inv = p.inv.destroyItem S depth pos := by
  induction depth generalizing p pos with
  | zero => rfl
  | succ depth ih =>
    have hbag : ∀ (slots : List Nat) (p : Player),
        (slots.foldl (fun p i => p.destroyItem S Q depth (pos.2,i)) p).inv =
          slots.foldl (fun inv i => inv.destroyItem S depth (pos.2,i)) p.inv := by
      intro slots
      induction slots with
      | nil => exact fun _ => rfl
      | cons i slots ihs =>
        intro p
        rw [List.foldl_cons,List.foldl_cons,ihs,ih]
    rw [Player.destroyItem,Inventory.destroyItem]
    cases p.inv.itemAt S pos with
    | none => rfl
    | some pItem =>
      dsimp only [Player.itemRemovedQuestCheck]
      split_ifs
      · rw [hbag]
      · rfl

theorem destroyCountIn_inv (depth : Nat) (mayUnequip : Pos → Bool) (slots : List Pos) :
    Prod.map Player.inv id
        (p.destroyCountIn S Q inTrade depth itemEntry count (fun _ => mayUnequip) slots remcount) =
      p.inv.destroyCountIn S inTrade depth itemEntry count mayUnequip slots remcount := by
  induction slots generalizing p remcount with
  | nil => rfl
  | cons pos slots ih =>
    rw [Player.destroyCountIn,Inventory.destroyCountIn]
    cases p.inv.freeAt S inTrade itemEntry pos with
    | none => exact ih
    | some item =>
      dsimp only
      split_ifs
      · exact congrArg (·,none) (destroyItem_inv depth pos)
      · rw [ih,destroyItem_inv]
      · exact ih
      · rfl

theorem destroyCountPasses_inv (depth : Nat) (passes : List (List Pos × (Pos → Bool))) :
    (p.destroyCountPasses S Q inTrade depth itemEntry count
        (passes.map fun pass => (pass.1,fun _ => pass.2)) remcount).inv =
      p.inv.destroyCountPasses S inTrade depth itemEntry count passes remcount := by
  induction passes generalizing p remcount with
  | nil => rfl
  | cons pass passes ih =>
    obtain ⟨slots,mayUnequip⟩ := pass
    rw [List.map_cons,Player.destroyCountPasses,Inventory.destroyCountPasses,← destroyCountIn_inv]
    cases p.destroyCountIn S Q inTrade depth itemEntry count (fun _ => mayUnequip) slots remcount with
    | mk p next =>
      cases next with
      | none => rfl
      | some remcount => exact ih

/-- Without the check `DestroyItemCount` destroys the same items whatever quests there are. -/
theorem destroyItemCount_inv (moment : EquipMoment) (canUnequip : Pos → Bool) (depth : Nat) :
    (p.destroyItemCount S Q moment inTrade depth itemEntry count false).inv =
      p.inv.destroyItemCount S inTrade canUnequip depth itemEntry count false :=
  destroyCountPasses_inv depth (destroyPasses canUnequip false)

end Inventories

theorem questObjectivesCount_le : questObjectivesCount ≤ questItemObjectivesCount := by decide

namespace Quest

variable (quest : Quest)

def requiredItems : List (Nat × Nat) :=
  (List.finRange questItemObjectivesCount).map fun i =>
    (quest.requiredItemId i,quest.requiredItemCount i)

def sourceItems : List (Nat × Nat) :=
  (List.finRange questSourceItemIdsCount).map fun i =>
    (quest.requiredSourceItemId i,quest.requiredSourceItemCount i)

/-- The required items that the loop of `FailQuest` comes to: there are more of them than other
objectives, and it ends after as many as there are of those. -/
def requiredItemsLooped : List (Nat × Nat) :=
  (List.finRange questObjectivesCount).map fun i =>
    (quest.requiredItemId (i.castLE questObjectivesCount_le),
      quest.requiredItemCount (i.castLE questObjectivesCount_le))

end Quest

namespace Player

def markFailed (p : Player) (questId : Nat) (quest : Quest) : Player :=
  let quests := p.quests.setQuestStatus Q questId .failed
  let quests :=
    match quests.findQuestSlot questId with
    | some slot => (quests.setQuestSlotTimer slot 1).setQuestSlotState slot questStateFail
    | none => quests
  let quests :=
    if quest.hasSpecialFlag questSpecialFlagsTimed then
      let quests := quests.removeTimedQuest questId
      quests.setData questId { quests.data questId with timer := 0 }
    else quests
  { p with quests := quests }

def destroyEach (depth : Nat) (items : List (Nat × Nat)) (p : Player) : Player :=
  items.foldl (fun p item =>
    if item.1 > 0 ∧ item.2 > 0 then
      p.destroyItemCount S Q moment inTrade depth item.1 item.2 true
    else p) p

def failQuest (p : Player) (depth questId : Nat) : Player :=
  if p.quests.getQuestStatus Q questId = .complete then p
  else
    match Q questId with
    | none => p
    | some quest =>
      let p := p.markFailed Q questId quest
      let p := p.destroyEach S Q moment inTrade depth quest.requiredItemsLooped
      p.destroyEach S Q moment inTrade depth quest.sourceItems

end Player

end Definitions

end TrinityCore.Players
