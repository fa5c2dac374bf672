import TrinityCore.Players.FailedQuest

set_option autoImplicit false

/-!
A quest is abandoned. The item with which it came is taken away, unless it cannot be unequipped or is
needed to start and end the quest. Fights between players and achievements are left out.
-/

namespace TrinityCore.Players

open Piles QuestLog

/-- A quest with the item that comes with it. The loader drops items without a template. -/
structure SourceQuest extends Quest where
  srcItemId : Nat
  srcItemCount : Nat
  /-- The number is loaded from a field of 8 bits. -/
  srcItemCount_lt : srcItemCount < 2^8

def SourceQuest.takenCount (quest : SourceQuest) : Nat :=
  if quest.srcItemCount ≤ 0 then 1 else quest.srcItemCount

def SourceQuest.keepsItem (startQuest : Nat → Nat) (questId : Nat) (quest : SourceQuest) : Bool :=
  (List.finRange questItemObjectivesCount).any fun n =>
    startQuest quest.srcItemId == questId && quest.srcItemId == quest.requiredItemId n

section Definitions

variable (S : ItemStore) (Q : Nat → Option SourceQuest) (startQuest : Nat → Nat)
  (moment : EquipMoment) (inTrade : Nat → Bool)

/-- The templates without their source items. -/
def questTemplates : Nat → Option Quest := fun questId => (Q questId).map SourceQuest.toQuest

/-- The slots that `CanUnequipItems` looks at: what is equipped, which may have to stay, the backpack,
keys and tokens, the bags. -/
def unequipSlots : List (Pos × Bool) :=
  (slotsFrom equipmentSlotStart inventorySlotBagEnd).map (fun pos => (pos,true)) ++
    (slotsFrom inventorySlotItemStart inventorySlotItemEnd ++
      (slotsFrom keyringSlotStart currencytokenSlotEnd ++
        slotsInBags inventorySlotBagStart inventorySlotBagEnd)).map fun pos => (pos,false)

/-- The loops of `CanUnequipItems`, with what was found and the last result. -/
def Inventory.canUnequipIn (inv : Inventory) (item count : Nat) :
    List (Pos × Bool) → Nat → EquipResult → EquipResult
  | [], _, res => res
  | (pos,equipped) :: rest, tempcount, res =>
    match (inv.itemAt S pos).filter fun pItem => pItem.entry == item with
    | none => canUnequipIn inv item count rest tempcount res
    | some pItem =>
      let ires := if equipped then inv.canUnequipItem S moment pos false else .storage .ok
      if ires = .storage .ok then
        let tempcount := (tempcount+pItem.count)%2^32
        if tempcount ≥ count then .storage .ok
        else canUnequipIn inv item count rest tempcount res
      else canUnequipIn inv item count rest tempcount ires

def Inventory.canUnequipItems (inv : Inventory) (item count : Nat) : EquipResult :=
  inv.canUnequipIn S moment item count unequipSlots 0 (.storage .ok)

namespace Player

/-- `TakeQuestSourceItem`, and whether it took no offence at what is equipped. -/
def takeQuestSourceItem (p : Player) (depth questId : Nat) : Bool × Player :=
  match Q questId with
  | none => (true,p)
  | some quest =>
    if quest.srcItemId > 0 then
      let count := quest.takenCount
      if p.inv.canUnequipItems S moment quest.srcItemId count ≠ .storage .ok then (false,p)
      else if quest.keepsItem startQuest questId then (true,p)
      else
        (true,p.destroyItemCount S (questTemplates Q) moment inTrade depth quest.srcItemId count true)
    else (true,p)

def removeTimedQuest (p : Player) (questId : Nat) : Player :=
  { p with quests := p.quests.removeTimedQuest questId }

def removeActiveQuest (p : Player) (questId : Nat) : Player :=
  { p with quests := { p.quests with
    questStatus := Function.update p.quests.questStatus questId none } }

def clearQuestSlot (p : Player) (slot : Fin maxQuestLogSize) : Player :=
  { p with quests := p.quests.setSlot slot ⟨0,0,0⟩ }

def handleQuestLogRemoveQuest (p : Player) (depth slot : Nat) : Player :=
  if h : slot < maxQuestLogSize then
    let questId := (p.quests.slots ⟨slot,h⟩).questId
    if questId ≠ 0 then
      match p.takeQuestSourceItem S Q startQuest moment inTrade depth questId with
      -- can't un-equip some items, reject quest cancel
      | (false,p) => p
      | (true,p) =>
        let p :=
          match Q questId with
          | none => p
          | some quest =>
            if quest.hasSpecialFlag questSpecialFlagsTimed then p.removeTimedQuest questId else p
        let p := (p.takeQuestSourceItem S Q startQuest moment inTrade depth questId).2
        (p.removeActiveQuest questId).clearQuestSlot ⟨slot,h⟩
    else p.clearQuestSlot ⟨slot,h⟩
  else p

end Player

end Definitions

section Unequip

variable {S : ItemStore} {moment : EquipMoment} {inv inv' : Inventory} {pos : Pos}
  {entry count : Nat} {keep : Item → Bool}

/-- How many there are at a position of the items that are looked for, if they can be unequipped. -/
def Inventory.movableAt (S : ItemStore) (moment : EquipMoment) (inv : Inventory) (keep : Item → Bool)
    (pos : Pos) : Nat :=
  ((inv.itemAt S pos).filter keep).elim 0 fun item =>
    if inv.mayUnequip S moment pos then item.count else 0

def Inventory.StuckAt (S : ItemStore) (moment : EquipMoment) (inv : Inventory) (keep : Item → Bool)
    (pos : Pos) : Prop :=
  ((inv.itemAt S pos).filter keep).isSome = true ∧ inv.mayUnequip S moment pos = false

theorem movableAt_none (moment : EquipMoment)
    (h : (inv.itemAt S pos).filter keep = none) :
    inv.movableAt S moment keep pos = 0 ∧ ¬ inv.StuckAt S moment keep pos := by
  unfold Inventory.movableAt Inventory.StuckAt
  rw [h]
  exact ⟨rfl,fun hstuck => Bool.false_ne_true hstuck.1⟩

theorem movableAt_some (moment : EquipMoment) {item : Item}
    (h : (inv.itemAt S pos).filter keep = some item) :
    inv.movableAt S moment keep pos = (if inv.mayUnequip S moment pos then item.count else 0) ∧
      (inv.StuckAt S moment keep pos ↔ inv.mayUnequip S moment pos = false) := by
  unfold Inventory.movableAt Inventory.StuckAt
  rw [h]
  exact ⟨rfl,and_iff_right rfl⟩

theorem canUnequipIn_ok_iff (hinv : inv.Stacked S) (hcount : count < 2^31)
    {slots : List (Pos × Bool)}
    (hslots : ∀ e ∈ slots, e.2 = false → inv.mayUnequip S moment e.1 = true) {tempcount : Nat}
    (htemp : tempcount < count) (res : EquipResult) :
    inv.canUnequipIn S moment entry count slots tempcount res = .storage .ok ↔
      count ≤ tempcount+(slots.map fun e =>
          inv.movableAt S moment (fun item => item.entry == entry) e.1).sum ∨
        (res = .storage .ok ∧
          ∀ e ∈ slots, ¬ inv.StuckAt S moment (fun item => item.entry == entry) e.1) := by
  induction slots generalizing tempcount res with
  | nil =>
    rw [Inventory.canUnequipIn,List.map_nil,List.sum_nil]
    simp
    omega
  | cons e slots ih =>
    obtain ⟨pos,equipped⟩ := e
    obtain ⟨hhere,hrest⟩ := List.forall_mem_cons.mp hslots
    rw [Inventory.canUnequipIn,List.map_cons,List.sum_cons,List.forall_mem_cons]
    cases hat : (inv.itemAt S pos).filter fun item => item.entry == entry with
    | none =>
      obtain ⟨hzero,hfree⟩ := movableAt_none moment hat
      dsimp only at hzero ⊢
      rw [hzero,Nat.zero_add,ih hrest htemp]
      simp [hfree]
    | some item =>
      obtain ⟨hmovable,hstuck⟩ := movableAt_some moment hat
      obtain ⟨hitem,-⟩ := Option.filter_eq_some_iff.mp hat
      have hsize := hinv.sizes item (mem_contents.mpr ⟨pos,hitem⟩)
      have hmod : (tempcount+item.count)%2^32 = tempcount+item.count := Nat.mod_eq_of_lt (by omega)
      have hires : (if equipped = true then inv.canUnequipItem S moment pos false else .storage .ok) =
          .storage .ok ↔ inv.mayUnequip S moment pos = true := by
        cases equipped with
        | true =>
          unfold Inventory.mayUnequip
          simp
        | false => exact iff_of_true rfl (hhere rfl)
      dsimp only at hmovable hstuck ⊢
      rw [hmovable,hstuck,hmod]
      cases hmay : inv.mayUnequip S moment pos with
      | true =>
        rw [if_pos (hires.mpr hmay)]
        by_cases henough : tempcount+item.count ≥ count
        · rw [if_pos henough]
          exact iff_of_true rfl (.inl (by rw [if_pos rfl]; omega))
        · rw [if_neg henough,ih hrest (by omega),if_pos rfl,Nat.add_assoc]
          simp
      | false =>
        have hnot := mt hires.mp (by rw [hmay]; exact Bool.false_ne_true)
        rw [if_neg hnot,ih hrest htemp]
        simp [hnot]

theorem unequipSlots_fst : unequipSlots.map Prod.fst = carriedSlots := by
  have hfst : ∀ (flag : Bool) (slots : List Pos),
      (slots.map fun pos => (pos,flag)).map Prod.fst = slots := by
    intro flag slots
    rw [List.map_map]
    exact List.map_id slots
  unfold unequipSlots carriedSlots
  rw [List.map_append,hfst,hfst]

theorem mayUnequip_unequipSlots {e : Pos × Bool} (he : e ∈ unequipSlots) (h : e.2 = false) :
    inv.mayUnequip S moment e.1 = true := by
  unfold unequipSlots at he
  rcases List.mem_append.mp he with he | he
  · obtain ⟨pos,-,rfl⟩ := List.mem_map.mp he
    cases h
  · obtain ⟨pos,hpos,rfl⟩ := List.mem_map.mp he
    rcases List.mem_append.mp hpos with hpos | hpos
    · exact mayUnequip_slotsFrom (by decide) (by decide) hpos
    · rcases List.mem_append.mp hpos with hpos | hpos
      · exact mayUnequip_slotsFrom (by decide) (by decide) hpos
      · exact mayUnequip_slotsInBags (by decide) hpos

theorem canUnequipItems_ok_iff (hinv : inv.Stacked S) (hpos : 0 < count) (hcount : count < 2^31) :
    inv.canUnequipItems S moment entry count = .storage .ok ↔
      count ≤ (carriedSlots.map
          (inv.movableAt S moment fun item => item.entry == entry)).sum ∨
        ∀ pos ∈ carriedSlots, ¬ inv.StuckAt S moment (fun item => item.entry == entry) pos := by
  unfold Inventory.canUnequipItems
  rw [canUnequipIn_ok_iff hinv hcount (fun _ => mayUnequip_unequipSlots) hpos,← unequipSlots_fst,
    List.map_map,List.forall_mem_map,Nat.zero_add]
  simp only [true_and]
  rfl

end Unequip

end TrinityCore.Players
