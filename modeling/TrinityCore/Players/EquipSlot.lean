import TrinityCore.Players.StoredItems

set_option autoImplicit false

namespace TrinityCore.Players

def equipmentSlotHead : Nat := 0
def equipmentSlotNeck : Nat := 1
def equipmentSlotShoulders : Nat := 2
def equipmentSlotBody : Nat := 3
def equipmentSlotChest : Nat := 4
def equipmentSlotWaist : Nat := 5
def equipmentSlotLegs : Nat := 6
def equipmentSlotFeet : Nat := 7
def equipmentSlotWrists : Nat := 8
def equipmentSlotHands : Nat := 9
def equipmentSlotFinger1 : Nat := 10
def equipmentSlotFinger2 : Nat := 11
def equipmentSlotTrinket1 : Nat := 12
def equipmentSlotTrinket2 : Nat := 13
def equipmentSlotBack : Nat := 14
def equipmentSlotMainhand : Nat := 15
def equipmentSlotOffhand : Nat := 16
def equipmentSlotRanged : Nat := 17
def equipmentSlotTabard : Nat := 18

def invtypeHead : Nat := 1
def invtypeNeck : Nat := 2
def invtypeShoulders : Nat := 3
def invtypeBody : Nat := 4
def invtypeChest : Nat := 5
def invtypeWaist : Nat := 6
def invtypeLegs : Nat := 7
def invtypeFeet : Nat := 8
def invtypeWrists : Nat := 9
def invtypeHands : Nat := 10
def invtypeFinger : Nat := 11
def invtypeTrinket : Nat := 12
def invtypeWeapon : Nat := 13
def invtypeShield : Nat := 14
def invtypeRanged : Nat := 15
def invtypeCloak : Nat := 16
def invtype2hweapon : Nat := 17
def invtypeTabard : Nat := 19
def invtypeRobe : Nat := 20
def invtypeWeaponmainhand : Nat := 21
def invtypeWeaponoffhand : Nat := 22
def invtypeHoldable : Nat := 23
def invtypeThrown : Nat := 25
def invtypeRangedright : Nat := 26
def invtypeRelic : Nat := 28

def itemClassWeapon : Nat := 2
def itemClassProjectile : Nat := 6
def itemSubclassWeaponPolearm : Nat := 6
def itemSubclassWeaponStaff : Nat := 10
def itemSubclassArmorMisc : Nat := 0
def itemSubclassArmorLibram : Nat := 7
def itemSubclassArmorIdol : Nat := 8
def itemSubclassArmorTotem : Nat := 9
def itemSubclassArmorSigil : Nat := 10

def classPaladin : Nat := 2
def classDeathKnight : Nat := 6
def classShaman : Nat := 7
def classWarlock : Nat := 9
def classDruid : Nat := 11

namespace ItemTemplate

def canChangeEquipStateInCombat (t : ItemTemplate) : Bool :=
  t.inventoryType = invtypeRelic || t.inventoryType = invtypeShield ||
    t.inventoryType = invtypeHoldable || t.itemClass = itemClassWeapon ||
    t.itemClass = itemClassProjectile

def isPolearmOrStaff (t : ItemTemplate) : Bool :=
  t.subClass = itemSubclassWeaponPolearm || t.subClass = itemSubclassWeaponStaff

end ItemTemplate

/-- The results that the storage functions do not have. -/
inductive EquipResult where
  | storage (result : InventoryResult)
  | youAreStunned
  | notInCombat
  | notDuringArenaMatch
  | cantDoRightNow
  | noEquipmentSlotAvailable
  | itemDoesntGoToSlot
  | cantDualWield
  | cantEquipWithTwohanded
  | canEquipOnly1Ammopouch
  | canEquipOnly1Quiver
  /-- The other results of `CanUseItem` and `CanEquipUniqueItem`. -/
  | other (code : Nat)
  deriving DecidableEq

structure EquipMoment where
  bonding : Nat → ItemBonding
  playerClass : Nat
  canDualWield : Bool
  canTitanGrip : Bool
  isStunned : Bool
  isInCombat : Bool
  inProgressArena : Bool
  weaponChangeTimer : Nat
  isNonMeleeSpellCast : Bool
  /-- The scaling of the item ends below the level of the player. -/
  aboveMaxLevel : Nat → Bool
  canUseItem : Item → Bool → EquipResult
  canEquipUniqueItem : Inventory → Item → Nat → EquipResult

/-- What a player has, and what was sent back to the player by mail. -/
structure Belongings where
  inv : Inventory
  nextGuid : Nat
  mailed : List Item

def mainhandPos : Pos := (inventorySlotBag0,equipmentSlotMainhand)

def offhandPos : Pos := (inventorySlotBag0,equipmentSlotOffhand)

section Checks

variable (S : ItemStore) (moment : EquipMoment)

def Inventory.templateAt (inv : Inventory) (pos : Pos) : Option ItemTemplate :=
  (inv.itemAt S pos).bind fun item => S.getItemTemplate item.entry

def Inventory.isTwoHandUsed (inv : Inventory) : Bool :=
  (inv.templateAt S mainhandPos).any (fun proto => proto.inventoryType == invtype2hweapon) &&
    !moment.canTitanGrip

def Belongings.autoUnequipOffhandIfNeed (b : Belongings) (force : Bool) : Belongings :=
  match b.inv.itemAt S offhandPos with
  | none => b
  | some offItem =>
    let isType (type : Nat) : Bool :=
      (b.inv.templateAt S offhandPos).any fun proto => proto.inventoryType == type
    let force := force ||
      (!moment.canDualWield && (isType invtypeWeaponoffhand || isType invtypeWeapon))
    if !force && (moment.canTitanGrip ||
        (!isType invtype2hweapon && !b.inv.isTwoHandUsed S moment)) then b
    else
      let stored := b.inv.canStore S nullBag nullSlot (some offItem) false
      let removed := b.inv.removeItem S offhandPos
      if stored.result = .ok then
        let result := removed.storeItem S moment.bonding offItem stored.dest b.nextGuid
        { b with inv := result.1, nextGuid := result.2 }
      else { b with inv := removed, mailed := b.mailed ++ [offItem] }

def equipSlots (proto : ItemTemplate) : Option (List Nat) :=
  let relicOf (playerClass : Nat) : List Nat :=
    if moment.playerClass = playerClass then [equipmentSlotRanged] else []
  if proto.inventoryType = invtypeHead then some [equipmentSlotHead]
  else if proto.inventoryType = invtypeNeck then some [equipmentSlotNeck]
  else if proto.inventoryType = invtypeShoulders then some [equipmentSlotShoulders]
  else if proto.inventoryType = invtypeBody then some [equipmentSlotBody]
  else if proto.inventoryType = invtypeChest then some [equipmentSlotChest]
  else if proto.inventoryType = invtypeRobe then some [equipmentSlotChest]
  else if proto.inventoryType = invtypeWaist then some [equipmentSlotWaist]
  else if proto.inventoryType = invtypeLegs then some [equipmentSlotLegs]
  else if proto.inventoryType = invtypeFeet then some [equipmentSlotFeet]
  else if proto.inventoryType = invtypeWrists then some [equipmentSlotWrists]
  else if proto.inventoryType = invtypeHands then some [equipmentSlotHands]
  else if proto.inventoryType = invtypeFinger then
    some [equipmentSlotFinger1,equipmentSlotFinger2]
  else if proto.inventoryType = invtypeTrinket then
    some [equipmentSlotTrinket1,equipmentSlotTrinket2]
  else if proto.inventoryType = invtypeCloak then some [equipmentSlotBack]
  else if proto.inventoryType = invtypeWeapon then
    if moment.canDualWield then some [equipmentSlotMainhand,equipmentSlotOffhand]
    else some [equipmentSlotMainhand]
  else if proto.inventoryType = invtypeShield then some [equipmentSlotOffhand]
  else if proto.inventoryType = invtypeRanged then some [equipmentSlotRanged]
  else if proto.inventoryType = invtypeTabard then some [equipmentSlotTabard]
  else if proto.inventoryType = invtypeWeaponmainhand then some [equipmentSlotMainhand]
  else if proto.inventoryType = invtypeWeaponoffhand then some [equipmentSlotOffhand]
  else if proto.inventoryType = invtypeHoldable then some [equipmentSlotOffhand]
  else if proto.inventoryType = invtypeThrown then some [equipmentSlotRanged]
  else if proto.inventoryType = invtypeRangedright then some [equipmentSlotRanged]
  else if proto.inventoryType = invtypeBag then
    some (List.range' inventorySlotBagStart (inventorySlotBagEnd-inventorySlotBagStart))
  else if proto.inventoryType = invtypeRelic then
    if proto.subClass = itemSubclassArmorLibram then some (relicOf classPaladin)
    else if proto.subClass = itemSubclassArmorIdol then some (relicOf classDruid)
    else if proto.subClass = itemSubclassArmorTotem then some (relicOf classShaman)
    else if proto.subClass = itemSubclassArmorMisc then some (relicOf classWarlock)
    else if proto.subClass = itemSubclassArmorSigil then some (relicOf classDeathKnight)
    else some []
  else none

/-- The slots for an item. Two-handed weapons make the function, which is a const one, cast that away
and take the item in the off hand off. -/
def Belongings.slotsFor (b : Belongings) (proto : ItemTemplate) : Option (List Nat) × Belongings :=
  if proto.inventoryType = invtype2hweapon then
    if (b.inv.templateAt S mainhandPos).any ItemTemplate.isPolearmOrStaff then
      (some [equipmentSlotMainhand],b.autoUnequipOffhandIfNeed S moment true)
    else if (b.inv.itemAt S offhandPos).isSome && proto.isPolearmOrStaff then
      (some [equipmentSlotMainhand],b.autoUnequipOffhandIfNeed S moment true)
    else if moment.canDualWield && moment.canTitanGrip && !proto.isPolearmOrStaff then
      (some [equipmentSlotMainhand,equipmentSlotOffhand],b)
    else (some [equipmentSlotMainhand],b)
  else (equipSlots moment proto,b)

/-- The slot that is asked for, or a free one, or else the first one for a swap. -/
def Inventory.pickSlot (inv : Inventory) (slots : List Nat) (slot : Nat) (swap : Bool) : Nat :=
  let isFree (slot : Nat) : Bool := (inv.itemAt S (inventorySlotBag0,slot)).isNone
  if slot ≠ nullSlot then
    if (swap || isFree slot) && slots.contains slot then slot else nullSlot
  else
    match slots.find? fun slot =>
        isFree slot && (slot != equipmentSlotOffhand || !inv.isTwoHandUsed S moment) with
    | some slot => slot
    | none => if swap then slots.head?.getD nullSlot else nullSlot

def Belongings.findEquipSlot (b : Belongings) (proto : ItemTemplate) (slot : Nat) (swap : Bool) :
    Nat × Belongings :=
  match b.slotsFor S moment proto with
  | (none,b) => (nullSlot,b)
  | (some slots,b) => (b.inv.pickSlot S moment slots slot swap,b)

def Inventory.refusedEarly (inv : Inventory) (pItem : Item) (pProto : ItemTemplate)
    (notLoading : Bool) : Option EquipResult :=
  let res := (inv.canTakeMoreSimilarItems S pItem.entry pItem.count (some pItem)).1
  if pItem.lootGenerated then some (.storage .alreadyLooted)
  else if pItem.isBindedNotWith S inv.guid then some (.storage .dontOwnThatItem)
  else if res ≠ .ok then some (.storage res)
  else if notLoading && moment.isStunned then some .youAreStunned
  else if notLoading && !pProto.canChangeEquipStateInCombat && moment.isInCombat then
    some .notInCombat
  else if notLoading && !pProto.canChangeEquipStateInCombat && moment.inProgressArena then
    some .notDuringArenaMatch
  else if notLoading && moment.isInCombat &&
      (pProto.itemClass = itemClassWeapon || pProto.inventoryType = invtypeRelic) &&
      moment.weaponChangeTimer != 0 then some .cantDoRightNow
  else if notLoading && moment.isNonMeleeSpellCast then some .cantDoRightNow
  else if moment.aboveMaxLevel pItem.entry then some (.storage .itemCantBeEquipped)
  else none

def Inventory.canUnequipItem (inv : Inventory) (pos : Pos) (swap : Bool) : EquipResult :=
  if ¬ (pos.1 = inventorySlotBag0 ∧ pos.2 < inventorySlotBagEnd) ∧ ¬ isBagPos pos then .storage .ok
  else
    match inv.itemAt S pos with
    | none => .storage .ok
    | some pItem =>
      match S.getItemTemplate pItem.entry with
      | none => .storage .itemNotFound
      | some pProto =>
        if pItem.lootGenerated then .storage .alreadyLooted
        else if !pProto.canChangeEquipStateInCombat && moment.isInCombat then .notInCombat
        else if !pProto.canChangeEquipStateInCombat && moment.inProgressArena then
          .notDuringArenaMatch
        else if !swap && inv.isNotEmptyBag S pItem then .storage .canOnlyDoWithEmptyBags
        else .storage .ok

def otherSlot (eslot : Nat) : Nat :=
  if eslot = equipmentSlotMainhand then equipmentSlotOffhand
  else if eslot = equipmentSlotOffhand then equipmentSlotMainhand
  else if eslot = equipmentSlotFinger1 then equipmentSlotFinger2
  else if eslot = equipmentSlotFinger2 then equipmentSlotFinger1
  else if eslot = equipmentSlotTrinket1 then equipmentSlotTrinket2
  else if eslot = equipmentSlotTrinket2 then equipmentSlotTrinket1
  else nullSlot

def Inventory.otherQuiver (inv : Inventory) (pItem : Item) (pProto : ItemTemplate) (eslot : Nat)
    (swap : Bool) : Option EquipResult :=
  if pProto.itemClass = itemClassQuiver then
    (List.range' inventorySlotBagStart (inventorySlotBagEnd-inventorySlotBagStart)).findSome? fun i =>
      match inv.itemAt S (inventorySlotBag0,i) with
      | none => none
      | some pBag =>
        if pBag.guid = pItem.guid then none
        else
          match S.getItemTemplate pBag.entry with
          | none => none
          | some pBagProto =>
            if pBagProto.itemClass = pProto.itemClass && (!swap || i != eslot) then
              if pBagProto.subClass = itemSubclassAmmoPouch then some .canEquipOnly1Ammopouch
              else some .canEquipOnly1Quiver
            else none
  else none

def Inventory.handsRefuse (inv : Inventory) (pProto : ItemTemplate) (eslot : Nat)
    (swap notLoading : Bool) : Option EquipResult :=
  let type := pProto.inventoryType
  let offhand : Option EquipResult :=
    if eslot = equipmentSlotOffhand then
      if type = invtypeWeapon && pProto.subClass = itemSubclassWeaponPolearm then
        some .itemDoesntGoToSlot
      else if (type = invtypeWeapon || type = invtypeWeaponoffhand) && !moment.canDualWield then
        some .cantDualWield
      else if type = invtype2hweapon && (!moment.canDualWield || !moment.canTitanGrip) then
        some .cantDualWield
      else if inv.isTwoHandUsed S moment then some .cantEquipWithTwohanded
      else none
    else none
  let twoHand : Option EquipResult :=
    if type = invtype2hweapon then
      if eslot = equipmentSlotOffhand && !moment.canTitanGrip then
        some (.storage .itemCantBeEquipped)
      else if eslot != equipmentSlotOffhand && eslot != equipmentSlotMainhand then
        some (.storage .itemCantBeEquipped)
      else if !moment.canTitanGrip && (inv.itemAt S offhandPos).any fun offItem =>
          !notLoading || inv.canUnequipItem S moment offhandPos false != .storage .ok ||
            (inv.canStore S nullBag nullSlot (some offItem) false).result != .ok then
        some (.storage (if swap then .itemsCantBeSwapped else .inventoryFull))
      else none
    else none
  offhand.or twoHand

def Inventory.refusedLate (inv : Inventory) (pItem : Item) (pProto : ItemTemplate) (eslot : Nat)
    (swap notLoading : Bool) : Option EquipResult :=
  let inOther := (inv.itemAt S (inventorySlotBag0,otherSlot eslot)).map Item.guid = some pItem.guid
  let ignore := if otherSlot eslot = nullSlot ∨ ¬ inOther then eslot else otherSlot eslot
  let unique := moment.canEquipUniqueItem inv pItem (if swap then ignore else nullSlot)
  if moment.canUseItem pItem notLoading ≠ .storage .ok then
    some (moment.canUseItem pItem notLoading)
  else if !swap && (inv.itemAt S (inventorySlotBag0,eslot)).isSome then
    some .noEquipmentSlotAvailable
  else if unique ≠ .storage .ok then some unique
  else (inv.otherQuiver S pItem pProto eslot swap).or
    (inv.handsRefuse S moment pProto eslot swap notLoading)

def Belongings.canEquipItem (b : Belongings) (slot : Nat) (pItem : Option Item)
    (swap notLoading : Bool) : EquipResult × Option Pos × Belongings :=
  match pItem.bind fun it => (S.getItemTemplate it.entry).map fun pProto => (it,pProto) with
  | none => (.storage (if swap then .itemsCantBeSwapped else .itemNotFound),none,b)
  | some (it,pProto) =>
    match b.inv.refusedEarly S moment it pProto notLoading with
    | some res => (res,none,b)
    | none =>
      match b.findEquipSlot S moment pProto slot swap with
      | (eslot,b) =>
        if eslot = nullSlot then (.storage .itemCantBeEquipped,none,b)
        else
          match b.inv.refusedLate S moment it pProto eslot swap notLoading with
          | some res => (res,none,b)
          | none => (.storage .ok,some (inventorySlotBag0,eslot),b)

def Belongings.newItem (b : Belongings) (item : Nat) : Item where
  guid := b.nextGuid
  entry := item
  count := 1
  owner := b.inv.guid
  soulBound := false
  bopTradeable := none
  lootGenerated := false
  gems := []

def Belongings.canEquipNewItem (b : Belongings) (slot item : Nat) (swap : Bool) :
    EquipResult × Option Pos × Belongings :=
  match S.getItemTemplate item with
  | none => (.storage .itemNotFound,none,b)
  | some _ =>
    { b with nextGuid := b.nextGuid+1 }.canEquipItem S moment slot (some (b.newItem item)) swap true

end Checks

section Stored

variable {S : ItemStore} {bonding : Nat → ItemBonding} {inv inv' : Inventory} {pos : Pos} {it : Item}
  {req : StoreRequest} {slot : Nat}

theorem offhand_not_anywhere : offhandPos ∉ inv.slotsAnywhere S req := by
  have hplayer : ∀ {slotBegin slotEnd merge}, equipmentSlotOffhand < slotBegin →
      offhandPos ∉ inv.slotsInPlayer S req slotBegin slotEnd merge := by
    intro slotBegin slotEnd merge hlt hmem
    exact absurd (mem_slotsInPlayer hmem).2.1 (not_le.mpr hlt)
  have hbags : ∀ {merge nonSpecialized}, offhandPos ∉ inv.slotsInBags S req merge nonSpecialized := by
    intro merge nonSpecialized hmem
    obtain ⟨bag,hbag,hmem⟩ := List.mem_flatMap.mp hmem
    have hrange := List.mem_range'_1.mp hbag
    unfold Inventory.slotsInOtherBag Inventory.slotsInBag at hmem
    split_ifs at hmem
    · split at hmem
      · cases hmem
      · obtain ⟨slot,-,heq⟩ := List.mem_map.mp (List.mem_filter.mp hmem).1
        have hne : bag = inventorySlotBag0 := (Prod.ext_iff.mp heq).1
        simp only [inventorySlotBagStart,inventorySlotBagEnd,inventorySlotBag0] at *
        omega
    · cases hmem
  unfold Inventory.slotsAnywhere Inventory.stacksInPlayerSlots
  refine List.not_mem_append ?_
    (List.not_mem_append ?_ (List.not_mem_append (hplayer (by decide)) hbags))
  · split_ifs
    · exact List.not_mem_append (List.not_mem_append (hplayer (by decide)) (hplayer (by decide)))
        (List.not_mem_append hbags hbags)
    · exact List.not_mem_append (List.not_mem_append (hplayer (by decide)) (hplayer (by decide)))
        (List.not_mem_append List.not_mem_nil hbags)
    · exact List.not_mem_nil
  · split_ifs
    · exact List.not_mem_append (hplayer (by decide)) hbags
    · exact List.not_mem_append (hplayer (by decide)) hbags
    · exact List.not_mem_append List.not_mem_nil hbags
    · exact List.not_mem_nil

theorem canStore_anywhere (hpos : 0 < it.count) (hlt : it.count < 2^32)
    (hok : (inv.canStore S nullBag nullSlot (some it) false).result = .ok) :
    ∀ e ∈ (inv.canStore S nullBag nullSlot (some it) false).dest,
      inv.Valid S e.1 ∧ isBagPos e.1 = false ∧ e.1 ≠ offhandPos := by
  obtain ⟨req,left,hbag,-,-,hleft,-,heq⟩ := canStore_search hpos hlt hok
  rw [heq] at hok ⊢
  intro e he
  have hsrc : req.pItem.any (inv.isNotEmptyBag S) = false := by
    rw [← Bool.not_eq_true]
    exact fun hsrc => search_notEmptyBag hsrc hbag _ hok
  have hplan : (⟨left,[]⟩ : Slots.Plan Pos).left ≠ 0 := hleft.ne'
  rw [(Reports_spec (search_reports hsrc hplan)).1,reach_anywhere hbag] at he
  have hmem := (Slots.Plan.mem_fill he).resolve_left (by simp)
  have hopen := open_anywhere hmem
  exact ⟨hopen.valid,hopen.notBag,fun h => offhand_not_anywhere (h ▸ hmem)⟩

theorem getBagByPos_put (hvalid : inv.Valid S pos) (hbag : isBagPos pos = false) (bag : Nat) :
    (inv.put S pos it).getBagByPos S bag = inv.getBagByPos S bag := by
  unfold Inventory.put
  split_ifs
  · rfl
  · exact getBagByPos_setAt hvalid (keepsBags_of_not hbag) bag

theorem items_setAt {o : Option Item} (hvalid : inv.Valid S pos)
    (hne : pos ≠ (inventorySlotBag0,slot)) : (inv.setAt S pos o).items slot = inv.items slot := by
  unfold Inventory.setAt
  rcases bagAt_of_valid hvalid with ⟨hnone,hpos,-⟩ | ⟨pBag,hsome,-⟩
  · rw [hnone]
    have hslot : slot ≠ pos.2 := fun h => hne (Prod.ext hpos h.symm)
    exact Function.update_of_ne hslot _ _
  · rw [hsome]

theorem items_put (hvalid : inv.Valid S pos) (hne : pos ≠ (inventorySlotBag0,slot)) :
    (inv.put S pos it).items slot = inv.items slot := by
  unfold Inventory.put
  split_ifs
  · rfl
  · exact items_setAt hvalid hne

theorem storeItemAt_elsewhere (bonding : Nat → ItemBonding) (it : Item) (count : Nat) (clone : Bool) (nextGuid : Nat)
    (hvalid : inv.Valid S pos) (hbag : isBagPos pos = false)
    (hne : pos ≠ (inventorySlotBag0,slot)) :
    (inv.storeItemAt S bonding pos it count clone nextGuid).1.items slot = inv.items slot ∧
      ∀ bag, (inv.storeItemAt S bonding pos it count clone nextGuid).1.getBagByPos S bag =
        inv.getBagByPos S bag := by
  unfold Inventory.storeItemAt
  split
  · split
    · exact ⟨rfl,fun _ => rfl⟩
    · exact ⟨items_put hvalid hne,getBagByPos_put hvalid hbag⟩
  · exact ⟨items_put hvalid hne,getBagByPos_put hvalid hbag⟩

theorem valid_congr (h : ∀ bag, inv'.getBagByPos S bag = inv.getBagByPos S bag)
    (hvalid : inv.Valid S pos) : inv'.Valid S pos := by
  unfold Inventory.Valid at hvalid ⊢
  rwa [h]

theorem storeItem_elsewhere {dest : List (Pos × Nat)} {nextGuid : Nat}
    (hdest : ∀ e ∈ dest, inv.Valid S e.1 ∧ isBagPos e.1 = false ∧
      e.1 ≠ (inventorySlotBag0,slot)) :
    (inv.storeItem S bonding it dest nextGuid).1.items slot = inv.items slot := by
  induction dest generalizing inv nextGuid with
  | nil => rfl
  | cons e dest ih =>
    obtain ⟨pos,n⟩ := e
    obtain ⟨hvalid,hbag,hne⟩ := hdest (pos,n) List.mem_cons_self
    cases dest with
    | nil => exact (storeItemAt_elsewhere bonding it n false nextGuid hvalid hbag hne).1
    | cons e' rest =>
      obtain ⟨hitems,hbags⟩ := storeItemAt_elsewhere bonding it n true nextGuid hvalid hbag hne
      unfold Inventory.storeItem
      rw [ih,hitems]
      intro e he
      obtain ⟨hvalid',hrest⟩ := hdest e (List.mem_cons_of_mem _ he)
      exact ⟨valid_congr hbags hvalid',hrest⟩

end Stored

def Belongings.Keeps (S : ItemStore) (b b' : Belongings) : Prop :=
  b'.inv.itemAt S = b.inv.itemAt S

/-- There is an item in the off hand, a two-handed weapon is to be equipped, and it or the weapon in
the main hand is a polearm or a staff. -/
def Inventory.Unequips (S : ItemStore) (inv : Inventory) (proto : ItemTemplate) : Prop :=
  proto.inventoryType = invtype2hweapon ∧ (inv.itemAt S offhandPos).isSome = true ∧
    ((inv.templateAt S mainhandPos).any ItemTemplate.isPolearmOrStaff = true ∨
      proto.isPolearmOrStaff = true)

section Frame

variable {S : ItemStore} {moment : EquipMoment} {b : Belongings} {proto : ItemTemplate}

theorem itemAt_offhand (inv : Inventory) :
    inv.itemAt S offhandPos = inv.items equipmentSlotOffhand :=
  itemAt_player rfl (mem_playerSlots.mpr (.inl (by decide)))

theorem offhand_removed {inv : Inventory} {offItem : Item}
    (h : inv.itemAt S offhandPos = some offItem) :
    (inv.removeItem S offhandPos).items equipmentSlotOffhand = none ∧
      ∀ bag, (inv.removeItem S offhandPos).getBagByPos S bag = inv.getBagByPos S bag := by
  rw [removeItem_eq h]
  constructor
  · unfold Inventory.setAt
    rw [show inv.bagAt S offhandPos = none from if_pos rfl]
    exact Function.update_self equipmentSlotOffhand none inv.items
  · exact getBagByPos_setAt (valid_of_itemAt h) (keepsBags_of_not rfl)

/-- The item in the off hand is taken off, whether there is a place for it or not. -/
theorem offhand_unequipped (moment : EquipMoment)
    (hcount : ∀ offItem, b.inv.itemAt S offhandPos = some offItem →
    0 < offItem.count ∧ offItem.count < 2^32) :
    (b.autoUnequipOffhandIfNeed S moment true).inv.itemAt S offhandPos = none := by
  unfold Belongings.autoUnequipOffhandIfNeed
  cases hoff : b.inv.itemAt S offhandPos with
  | none => exact hoff
  | some offItem =>
    obtain ⟨hpos,hlt⟩ := hcount offItem hoff
    obtain ⟨hremoved,hbags⟩ := offhand_removed hoff
    simp only [Bool.true_or,Bool.not_true,Bool.false_and,Bool.false_eq_true,if_false]
    split_ifs with hok
    · have hplaces := canStore_anywhere hpos hlt hok
      rw [itemAt_offhand,← hremoved]
      apply storeItem_elsewhere
      intro e he
      obtain ⟨hvalid,hrest⟩ := hplaces e he
      exact ⟨valid_congr hbags hvalid,hrest⟩
    · rw [itemAt_offhand]
      exact hremoved

theorem slotsFor_keeps_iff (hcount : ∀ offItem, b.inv.itemAt S offhandPos = some offItem →
    0 < offItem.count ∧ offItem.count < 2^32) :
    b.Keeps S (b.slotsFor S moment proto).2 ↔ ¬ b.inv.Unequips S proto := by
  have hunequipped := offhand_unequipped moment hcount
  have hforced : b.Keeps S (b.autoUnequipOffhandIfNeed S moment true) ↔
      (b.inv.itemAt S offhandPos).isSome = false := by
    constructor
    · intro h
      have hat := congrFun h offhandPos
      rw [hunequipped] at hat
      rw [← hat]
      rfl
    · intro h
      have hnone : b.inv.itemAt S offhandPos = none := by simpa using h
      unfold Belongings.Keeps Belongings.autoUnequipOffhandIfNeed
      rw [hnone]
  have hsame : b.Keeps S b := rfl
  unfold Belongings.slotsFor Inventory.Unequips
  by_cases htype : proto.inventoryType = invtype2hweapon
  · rw [if_pos htype]
    by_cases hmain : (b.inv.templateAt S mainhandPos).any ItemTemplate.isPolearmOrStaff = true
    · rw [if_pos hmain,hforced]
      simp [htype,hmain]
    · rw [if_neg hmain]
      by_cases hoff : ((b.inv.itemAt S offhandPos).isSome && proto.isPolearmOrStaff) = true
      · rw [if_pos hoff,hforced]
        rw [Bool.and_eq_true] at hoff
        simp [hoff.1,hoff.2,htype]
      · have hneither : ¬ (proto.inventoryType = invtype2hweapon ∧
            (b.inv.itemAt S offhandPos).isSome = true ∧
              ((b.inv.templateAt S mainhandPos).any ItemTemplate.isPolearmOrStaff = true ∨
                proto.isPolearmOrStaff = true)) := by
          rintro ⟨-,hsome,h | h⟩
          · exact hmain h
          · exact hoff (by rw [hsome,h]; rfl)
        rw [if_neg hoff]
        split_ifs
        · exact iff_of_true hsame hneither
        · exact iff_of_true hsame hneither
  · rw [if_neg htype]
    exact iff_of_true hsame fun h => htype h.1

theorem findEquipSlot_snd (slot : Nat) (swap : Bool) :
    (b.findEquipSlot S moment proto slot swap).2 = (b.slotsFor S moment proto).2 := by
  unfold Belongings.findEquipSlot
  split
  · rename_i h
    rw [h]
  · rename_i h
    rw [h]

theorem canEquipItem_state {it : Item} (hproto : S.getItemTemplate it.entry = some proto)
    (slot : Nat) (swap notLoading : Bool) :
    (b.canEquipItem S moment slot (some it) swap notLoading).2.2 =
      if b.inv.refusedEarly S moment it proto notLoading = none then (b.slotsFor S moment proto).2
      else b := by
  unfold Belongings.canEquipItem
  rw [Option.bind_some,hproto,Option.map_some]
  dsimp only
  cases b.inv.refusedEarly S moment it proto notLoading with
  | some res => rfl
  | none =>
    dsimp only
    rw [if_pos rfl,← findEquipSlot_snd slot swap]
    cases b.findEquipSlot S moment proto slot swap with
    | mk eslot b' =>
      dsimp only
      split_ifs
      · rfl
      · split <;> rfl

/-- Exactly when the checks leave every slot as it is. -/
theorem equipChecks_keep_iff (S : ItemStore) (moment : EquipMoment) (b : Belongings)
    (hcount : ∀ offItem, b.inv.itemAt S offhandPos = some offItem →
      0 < offItem.count ∧ offItem.count < 2^32) :
    (∀ proto slot swap, b.Keeps S (b.findEquipSlot S moment proto slot swap).2 ↔
      ¬ b.inv.Unequips S proto) ∧
    (∀ slot pItem swap notLoading,
      b.Keeps S (b.canEquipItem S moment slot pItem swap notLoading).2.2 ↔
        ∀ it proto, pItem = some it → S.getItemTemplate it.entry = some proto →
          b.inv.refusedEarly S moment it proto notLoading = none → ¬ b.inv.Unequips S proto) ∧
    (∀ slot item swap, b.Keeps S (b.canEquipNewItem S moment slot item swap).2.2 ↔
      ∀ proto, S.getItemTemplate item = some proto →
        b.inv.refusedEarly S moment (b.newItem item) proto true = none →
          ¬ b.inv.Unequips S proto) := by
  have hitem : ∀ (b' : Belongings) (it : Item) (proto : ItemTemplate), b'.inv = b.inv →
      S.getItemTemplate it.entry = some proto → ∀ slot swap notLoading,
      (b.Keeps S (b'.canEquipItem S moment slot (some it) swap notLoading).2.2 ↔
        (b.inv.refusedEarly S moment it proto notLoading = none → ¬ b.inv.Unequips S proto)) := by
    intro b' it proto hinv hproto slot swap notLoading
    have hkeeps : ∀ b'', b.Keeps S b'' ↔ b'.Keeps S b'' := by
      intro b''
      unfold Belongings.Keeps
      rw [hinv]
    rw [hkeeps,canEquipItem_state hproto,← hinv]
    split_ifs with hearly
    · rw [slotsFor_keeps_iff (by rwa [hinv])]
      exact ⟨fun h _ => h,fun h => h hearly⟩
    · exact iff_of_true rfl fun h => absurd h hearly
  refine ⟨?findEquipSlot,?canEquipItem,?canEquipNewItem⟩
  case findEquipSlot =>
    intro proto slot swap
    rw [findEquipSlot_snd]
    exact slotsFor_keeps_iff hcount
  case canEquipItem =>
    intro slot pItem swap notLoading
    cases pItem with
    | none => exact iff_of_true rfl fun it proto h => by cases h
    | some it =>
      cases hproto : S.getItemTemplate it.entry with
      | none =>
        refine iff_of_true ?_ ?_
        · unfold Belongings.canEquipItem
          rw [Option.bind_some,hproto]
          rfl
        · intro it' proto h hproto'
          cases h
          rw [hproto] at hproto'
          cases hproto'
      | some proto =>
        rw [hitem b it proto rfl hproto]
        constructor
        · intro h it' proto' heq hproto'
          cases heq
          rw [hproto] at hproto'
          cases hproto'
          exact h
        · intro h
          exact h it proto rfl hproto
  case canEquipNewItem =>
    intro slot item swap
    unfold Belongings.canEquipNewItem
    cases hproto : S.getItemTemplate item with
    | none =>
      refine iff_of_true rfl ?_
      intro proto h
      cases h
    | some proto =>
      dsimp only
      rw [hitem { b with nextGuid := b.nextGuid+1 } (b.newItem item) proto rfl hproto]
      constructor
      · intro h proto' heq
        cases heq
        exact h
      · intro h
        exact h proto rfl

def weaponStore : ItemStore where
  getItemTemplate := fun entry =>
    let template (itemClass subClass inventoryType : Nat) : ItemTemplate := {
      itemId := entry
      itemClass := itemClass
      subClass := subClass
      bindToAccount := false
      inventoryType := inventoryType
      maxCount := 0
      stackable := 1
      containerSlots := 0
      gemProperties := 0
      socketColor := 0
      bagFamily := 0
      itemLimitCategory := 0
      containerSlots_le := Nat.zero_le _ }
    if entry = 1 then some (template itemClassWeapon 8 invtype2hweapon)
    else if entry = 2 then some (template itemClassWeapon itemSubclassWeaponStaff invtype2hweapon)
    else if entry = 3 then some (template 4 0 invtypeHoldable)
    else none
  lookupLimitCategory := fun _ => none
  itemId_eq := by
    intro entry t h
    dsimp only at h
    split_ifs at h <;> (cases h; rfl)

/-- Nothing keeps the player from equipping but the skills for the item. -/
def atRest : EquipMoment where
  bonding := fun _ => .noBind
  playerClass := 1
  canDualWield := false
  canTitanGrip := false
  isStunned := false
  isInCombat := false
  inProgressArena := false
  weaponChangeTimer := 0
  isNonMeleeSpellCast := false
  aboveMaxLevel := fun _ => false
  canUseItem := fun _ _ => .other 1
  canEquipUniqueItem := fun _ _ _ => .storage .ok

def withBook (weapon : Nat) : Belongings where
  inv := {
    guid := 7
    items := fun slot =>
      if slot = equipmentSlotOffhand then some ⟨1,3,1,7,false,none,false,[]⟩
      else if slot = inventorySlotItemStart then some ⟨2,weapon,1,7,false,none,false,[]⟩
      else none
    bagslot := fun _ _ => none }
  nextGuid := 3
  mailed := []

theorem withBook_kept : (withBook 1).Keeps weaponStore
    ((withBook 1).canEquipItem weaponStore atRest nullSlot
      (some ⟨2,1,1,7,false,none,false,[]⟩) false true).2.2 := by
  refine ((equipChecks_keep_iff weaponStore atRest (withBook 1) ?_).2.1 nullSlot _ false true).mpr ?_
  · intro offItem h
    cases h
    decide
  · intro it proto hit hproto _ hunequips
    cases hit
    cases hproto
    exact absurd hunequips.2.2 (by decide)

/-- The player has not the skill for the staff, and the book is not in the off hand any more. -/
theorem withBook_unequipped :
    ((withBook 2).canEquipItem weaponStore atRest nullSlot
      (some ⟨2,2,1,7,false,none,false,[]⟩) false true).1 = .other 1 ∧
    ¬ (withBook 2).Keeps weaponStore
      ((withBook 2).canEquipItem weaponStore atRest nullSlot
        (some ⟨2,2,1,7,false,none,false,[]⟩) false true).2.2 := by
  constructor
  · decide +kernel
  · intro h
    have hoff := congrArg Option.isSome (congrFun h offhandPos)
    revert hoff
    decide +kernel

end Frame

end TrinityCore.Players
