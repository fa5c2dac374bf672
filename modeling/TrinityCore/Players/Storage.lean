import TrinityCore.Players.CanStore
import TrinityCore.Lib.Stock

set_option autoImplicit false

namespace TrinityCore.Players

inductive ItemBonding where
  | noBind
  | whenPickedUp
  | whenEquiped
  | whenUse
  | questItem
  deriving DecidableEq

/-- Whether an item gets bound when it is stored at a position. -/
def ItemBonding.bindsAt (bonding : ItemBonding) (pos : Pos) : Bool :=
  bonding = .whenPickedUp || bonding = .questItem || (bonding = .whenEquiped && isBagPos pos)

def Item.cloneItem (S : ItemStore) (it : Item) (count guid player : Nat) : Option Item :=
  if count < 1 then none
  else (S.getItemTemplate it.entry).map fun proto =>
    { guid := guid
      entry := it.entry
      count := min count proto.getMaxStackSize
      owner := player
      soulBound := it.soulBound
      bopTradeable := none
      lootGenerated := false
      gems := [] }

namespace Inventory

variable (S : ItemStore) (bonding : Nat → ItemBonding) (inv : Inventory)

def itemAt (pos : Pos) : Option Item := inv.getItemByPos S pos.1 pos.2

def bagAt (pos : Pos) : Option Item :=
  if pos.1 = inventorySlotBag0 then none else inv.getBagByPos S pos.1

def setAt (pos : Pos) (o : Option Item) : Inventory :=
  match inv.bagAt S pos with
  | none => { inv with items := Function.update inv.items pos.2 o }
  | some pBag =>
    { inv with
      bagslot := Function.update inv.bagslot pBag.guid
        (Function.update (inv.bagslot pBag.guid) pos.2 o) }

/-- An item comes into a slot. A bag does not go into itself. -/
def put (pos : Pos) (it : Item) : Inventory :=
  if (inv.bagAt S pos).any fun pBag => it.guid = pBag.guid then inv else inv.setAt S pos (some it)

def removeItem (pos : Pos) : Inventory :=
  if (inv.itemAt S pos).isSome then inv.setAt S pos none else inv

def guidPlaces : List Pos :=
  (List.range' equipmentSlotStart (inventorySlotItemEnd-equipmentSlotStart) ++
    List.range' keyringSlotStart (currencytokenSlotEnd-keyringSlotStart) ++
    List.range' bankSlotItemStart (bankSlotBagEnd-bankSlotItemStart)).map
      (fun slot => (inventorySlotBag0,slot)) ++
  (List.range' inventorySlotBagStart (inventorySlotBagEnd-inventorySlotBagStart) ++
    List.range' bankSlotBagStart (bankSlotBagEnd-bankSlotBagStart)).flatMap fun bag =>
      (List.range maxBagSize).map fun slot => (bag,slot)

def getItemByGuid (guid : Nat) : Option (Pos × Item) :=
  guidPlaces.findSome? fun pos =>
    ((inv.itemAt S pos).filter fun it => it.guid == guid).map fun it => (pos,it)

def storeItemAt (pos : Pos) (pItem : Item) (count : Nat) (clone : Bool) (nextGuid : Nat) :
    Inventory × Nat :=
  match inv.itemAt S pos with
  | none =>
    match if clone then pItem.cloneItem S count nextGuid inv.guid
      else some { pItem with count := count } with
    | none => (inv,nextGuid)
    | some it =>
      (inv.put S pos { it with
        owner := inv.guid
        soulBound := it.soulBound || (bonding it.entry).bindsAt pos },
        if clone then nextGuid+1 else nextGuid)
  | some pItem2 =>
    (inv.put S pos { pItem2 with
      count := (pItem2.count+count)%2^32
      soulBound := pItem2.soulBound || (bonding pItem2.entry).bindsAt pos },nextGuid)

/-- `StoreItem`: all but the last of the places get clones or are merged with. -/
def storeItem (pItem : Item) : List (Pos × Nat) → Inventory → Nat → Inventory × Nat
  | [], inv, nextGuid => (inv,nextGuid)
  | [(pos,count)], inv, nextGuid => inv.storeItemAt S bonding pos pItem count false nextGuid
  | (pos,count) :: rest, inv, nextGuid =>
    let result := inv.storeItemAt S bonding pos pItem count true nextGuid
    storeItem pItem rest result.1 result.2

def canStore (bag slot : Nat) (pItem : Option Item) (swap : Bool) : CanStore :=
  match pItem with
  | none => ⟨.itemNotFound,[],0⟩
  | some it => inv.canStoreItem S bag slot [] it.entry it.count (some it) swap

end Inventory

structure Moment where
  now : Nat
  levelOf : Nat → Nat
  canUnequipItem : Nat → Pos → Bool
  /-- What a player has opened for looting. -/
  lootGUID : Nat → Nat
  isBoundByEnchant : Item → Bool
  isWrapped : Item → Bool
  hasDuration : Item → Bool

def Item.canBeTraded (S : ItemStore) (moment : Moment) (inv : Inventory) (pos : Pos) (it : Item)
    (mail trade : Bool) : Bool :=
  if it.lootGenerated then false
  else if (!mail || !it.isBoundAccountWide S) &&
      (it.soulBound && (it.bopTradeable.isNone || !trade)) then false
  else if it.isBag S && (isBagPos pos || inv.isNotEmptyBag S it) then false
  else if !moment.canUnequipItem inv.guid pos then false
  else if moment.lootGUID inv.guid = it.guid then false
  else !moment.isBoundByEnchant it

def playerSlots : List Nat :=
  List.range' equipmentSlotStart bankSlotBagEnd ++
    List.range' keyringSlotStart (currencytokenSlotEnd-keyringSlotStart)

def bagSlots : List Nat :=
  List.range' inventorySlotBagStart (inventorySlotBagEnd-inventorySlotBagStart) ++
    List.range' bankSlotBagStart (bankSlotBagEnd-bankSlotBagStart)

def places : List Pos :=
  playerSlots.map (fun slot => (inventorySlotBag0,slot)) ++
    bagSlots.flatMap fun bag => (List.range maxBagSize).map fun slot => (bag,slot)

namespace Inventory

variable (S : ItemStore) (inv : Inventory)

def contents : Multiset Item := Stock.held places (inv.itemAt S)

def Valid (pos : Pos) : Prop :=
  (pos.1 = inventorySlotBag0 ∧ pos.2 ∈ playerSlots) ∨
    (pos.1 ≠ inventorySlotBag0 ∧
      ∃ pBag, inv.getBagByPos S pos.1 = some pBag ∧ pos.2 < pBag.getBagSize S)

end Inventory

variable {S : ItemStore} {inv : Inventory} {pos : Pos} {it : Item}

theorem mem_playerSlots {slot : Nat} : slot ∈ playerSlots ↔ slot < bankSlotBagEnd ∨
    (slot ≥ keyringSlotStart ∧ slot < currencytokenSlotEnd) := by
  unfold playerSlots
  rw [List.mem_append,List.mem_range'_1,List.mem_range'_1]
  simp only [equipmentSlotStart,bankSlotBagEnd,keyringSlotStart,currencytokenSlotEnd]
  omega

theorem mem_bagSlots {bag : Nat} : bag ∈ bagSlots ↔
    (bag ≥ inventorySlotBagStart ∧ bag < inventorySlotBagEnd) ∨
      (bag ≥ bankSlotBagStart ∧ bag < bankSlotBagEnd) := by
  unfold bagSlots
  rw [List.mem_append,List.mem_range'_1,List.mem_range'_1]
  rfl

theorem isBagPos_iff : isBagPos pos = true ↔ pos.1 = inventorySlotBag0 ∧ pos.2 ∈ bagSlots := by
  unfold isBagPos
  rw [mem_bagSlots]
  simp

theorem nodup_playerSlots : playerSlots.Nodup := by decide +kernel

theorem nodup_bagSlots : bagSlots.Nodup := by decide +kernel

theorem getBagByPos_some {bag : Nat} {pBag : Item} (h : inv.getBagByPos S bag = some pBag) :
    bag ∈ bagSlots ∧ inv.items bag = some pBag ∧ pBag.isBag S = true := by
  unfold Inventory.getBagByPos at h
  split at h
  · rename_i hbag
    obtain ⟨hitem,hisBag⟩ := Option.filter_eq_some_iff.mp h
    exact ⟨mem_bagSlots.mpr hbag,hitem,hisBag⟩
  · simp at h

theorem getBagSize_le (S : ItemStore) (it : Item) : it.getBagSize S ≤ maxBagSize := by
  unfold Item.getBagSize
  cases S.getItemTemplate it.entry with
  | none => simp [maxBagSize]
  | some proto => exact proto.containerSlots_le

theorem itemAt_player (h : pos.1 = inventorySlotBag0) (hslot : pos.2 ∈ playerSlots) :
    inv.itemAt S pos = inv.items pos.2 := by
  unfold Inventory.itemAt Inventory.getItemByPos
  rw [if_pos ⟨h,mem_playerSlots.mp hslot⟩]

theorem itemAt_bag {pBag : Item} (h : pos.1 ≠ inventorySlotBag0)
    (hbag : inv.getBagByPos S pos.1 = some pBag) (hslot : pos.2 < pBag.getBagSize S) :
    inv.itemAt S pos = inv.bagslot pBag.guid pos.2 := by
  unfold Inventory.itemAt Inventory.getItemByPos
  rw [if_neg (fun hc => h hc.1),hbag]
  exact if_pos hslot

theorem bagSlots_sub {bag : Nat} (h : bag ∈ bagSlots) : bag ∈ playerSlots ∧
    bag ≠ inventorySlotBag0 := by
  rw [mem_bagSlots] at h
  rw [mem_playerSlots]
  simp only [inventorySlotBagStart,inventorySlotBagEnd,bankSlotBagStart,bankSlotBagEnd,
    keyringSlotStart,currencytokenSlotEnd,inventorySlotBag0] at *
  omega

theorem nodup_places : places.Nodup := by
  unfold places
  rw [List.nodup_append]
  refine ⟨nodup_playerSlots.map (fun _ _ h => (Prod.ext_iff.mp h).2),?_,?_⟩
  · rw [List.nodup_flatMap]
    refine ⟨fun bag _ => List.nodup_range.map (fun _ _ h => (Prod.ext_iff.mp h).2),?_⟩
    refine nodup_bagSlots.imp ?_
    intro bag bag' hne
    rw [Function.onFun,List.disjoint_left]
    intro x hx hx'
    obtain ⟨_,-,rfl⟩ := List.mem_map.mp hx
    obtain ⟨_,-,heq⟩ := List.mem_map.mp hx'
    exact hne (Prod.ext_iff.mp heq).1.symm
  · intro x hx y hy
    obtain ⟨_,-,rfl⟩ := List.mem_map.mp hx
    obtain ⟨bag,hbag,hy⟩ := List.mem_flatMap.mp hy
    obtain ⟨_,-,rfl⟩ := List.mem_map.mp hy
    intro heq
    exact (bagSlots_sub hbag).2 (Prod.ext_iff.mp heq).1.symm

theorem getBagByPos_bag0 : inv.getBagByPos S inventorySlotBag0 = none := by
  rcases Option.eq_none_or_eq_some (inv.getBagByPos S inventorySlotBag0) with h | ⟨pBag,h⟩
  · exact h
  · exact absurd rfl (bagSlots_sub (getBagByPos_some h).1).2

theorem valid_of_itemAt (h : inv.itemAt S pos = some it) : inv.Valid S pos := by
  unfold Inventory.itemAt Inventory.getItemByPos at h
  split at h
  · rename_i hpos
    exact .inl ⟨hpos.1,mem_playerSlots.mpr hpos.2⟩
  · cases hbag : inv.getBagByPos S pos.1 with
    | none => simp [hbag] at h
    | some pBag =>
      simp only [hbag] at h
      split at h
      · rename_i hslot
        refine .inr ⟨?_,pBag,hbag,hslot⟩
        intro hpos
        rw [hpos,getBagByPos_bag0] at hbag
        simp at hbag
      · simp at h

theorem mem_places (h : inv.Valid S pos) : pos ∈ places := by
  unfold places
  rw [List.mem_append]
  rcases h with ⟨hpos,hslot⟩ | ⟨-,pBag,hbag,hslot⟩
  · exact .inl (List.mem_map.mpr ⟨pos.2,hslot,by rw [← hpos]⟩)
  · refine .inr (List.mem_flatMap.mpr ⟨pos.1,(getBagByPos_some hbag).1,?_⟩)
    have hsize := getBagSize_le S pBag
    exact List.mem_map.mpr ⟨pos.2,List.mem_range.mpr (by omega),rfl⟩

theorem mem_contents : it ∈ inv.contents S ↔ ∃ pos, inv.itemAt S pos = some it := by
  unfold Inventory.contents
  rw [Stock.mem_held]
  constructor
  · rintro ⟨pos,-,h⟩
    exact ⟨pos,h⟩
  · exact fun ⟨pos,h⟩ => ⟨pos,mem_places (valid_of_itemAt h),h⟩

theorem bagAt_of_valid (h : inv.Valid S pos) : (inv.bagAt S pos = none ∧
      pos.1 = inventorySlotBag0 ∧ pos.2 ∈ playerSlots) ∨
    ∃ pBag, inv.bagAt S pos = some pBag ∧ pos.1 ≠ inventorySlotBag0 ∧
      inv.getBagByPos S pos.1 = some pBag ∧ pos.2 < pBag.getBagSize S := by
  unfold Inventory.bagAt
  rcases h with ⟨hpos,hslot⟩ | ⟨hpos,pBag,hbag,hslot⟩
  · exact .inl ⟨if_pos hpos,hpos,hslot⟩
  · exact .inr ⟨pBag,(if_neg hpos).trans hbag,hpos,hbag,hslot⟩

def Inventory.KeepsBags (S : ItemStore) (inv : Inventory) (pos : Pos) (o : Option Item) : Prop :=
  isBagPos pos = true → (inv.itemAt S pos).filter (Item.isBag S) = o.filter (Item.isBag S)

theorem keepsBags_of_not {o : Option Item} (h : isBagPos pos = false) : inv.KeepsBags S pos o := by
  intro hpos
  rw [h] at hpos
  cases hpos

theorem getBagByPos_setAt (hvalid : inv.Valid S pos) {o : Option Item}
    (hbag : inv.KeepsBags S pos o) (bag : Nat) :
    (inv.setAt S pos o).getBagByPos S bag = inv.getBagByPos S bag := by
  unfold Inventory.setAt
  rcases bagAt_of_valid hvalid with ⟨hnone,hpos,hslot⟩ | ⟨pBag,hsome,-⟩
  · rw [hnone]
    unfold Inventory.getBagByPos
    dsimp only
    split
    · rename_i hrange
      by_cases hne : bag = pos.2
      · subst hne
        have hkeeps := hbag (isBagPos_iff.mpr ⟨hpos,mem_bagSlots.mpr hrange⟩)
        rw [itemAt_player hpos hslot] at hkeeps
        rw [Function.update_self,hkeeps]
      · rw [Function.update_of_ne hne]
    · rfl
  · rw [hsome]
    rfl

theorem bag_inj (hnodup : ((inv.contents S).map Item.guid).Nodup) {bag bag' : Nat}
    {pBag pBag' : Item} (h : inv.getBagByPos S bag = some pBag)
    (h' : inv.getBagByPos S bag' = some pBag') (hguid : pBag.guid = pBag'.guid) : bag = bag' := by
  have hat : ∀ {bag pBag}, inv.getBagByPos S bag = some pBag →
      inv.itemAt S (inventorySlotBag0,bag) = some pBag := by
    intro bag pBag h
    obtain ⟨hbag,hitem,-⟩ := getBagByPos_some h
    rw [itemAt_player rfl (bagSlots_sub hbag).1,hitem]
  have heq := Stock.held_inj hnodup (mem_places (valid_of_itemAt (hat h)))
    (mem_places (valid_of_itemAt (hat h'))) (hat h) (hat h') hguid
  exact (Prod.ext_iff.mp heq).2

theorem itemAt_setAt (hnodup : ((inv.contents S).map Item.guid).Nodup)
    (hvalid : inv.Valid S pos) {o : Option Item} (hbag : inv.KeepsBags S pos o) :
    (inv.setAt S pos o).itemAt S = Function.update (inv.itemAt S) pos o := by
  have hbags := getBagByPos_setAt hvalid hbag
  funext pos'
  unfold Inventory.itemAt Inventory.getItemByPos
  rw [hbags]
  rcases bagAt_of_valid hvalid with ⟨hnone,hpos,hslot⟩ | ⟨pBag,hsome,hpos,hbagAt,hslot⟩
  · have hitems : (inv.setAt S pos o).items = Function.update inv.items pos.2 o := by
      unfold Inventory.setAt
      rw [hnone]
    have hbagslot : (inv.setAt S pos o).bagslot = inv.bagslot := by
      unfold Inventory.setAt
      rw [hnone]
    rw [hitems,hbagslot]
    by_cases heq : pos' = pos
    · subst heq
      rw [Function.update_self,if_pos ⟨hpos,mem_playerSlots.mp hslot⟩,Function.update_self]
    · rw [Function.update_of_ne heq]
      split
      · rename_i hplayer
        have hne : pos'.2 ≠ pos.2 := fun h => heq (Prod.ext (hplayer.1.trans hpos.symm) h)
        rw [Function.update_of_ne hne]
      · rfl
  · have hitems : (inv.setAt S pos o).items = inv.items := by
      unfold Inventory.setAt
      rw [hsome]
    have hbagslot : (inv.setAt S pos o).bagslot = Function.update inv.bagslot pBag.guid
        (Function.update (inv.bagslot pBag.guid) pos.2 o) := by
      unfold Inventory.setAt
      rw [hsome]
    rw [hitems,hbagslot]
    by_cases heq : pos' = pos
    · subst heq
      rw [Function.update_self,if_neg (fun h => hpos h.1),hbagAt]
      dsimp only
      rw [if_pos hslot,Function.update_self,Function.update_self]
    · rw [Function.update_of_ne heq]
      split
      · rfl
      · cases hbag' : inv.getBagByPos S pos'.1 with
        | none => rfl
        | some pBag' =>
          dsimp only
          by_cases hguid : pBag'.guid = pBag.guid
          · have hsame := bag_inj hnodup hbag' hbagAt hguid
            have hne : pos'.2 ≠ pos.2 := fun h => heq (Prod.ext hsame h)
            rw [hguid,Function.update_self,Function.update_of_ne hne]
          · rw [Function.update_of_ne hguid]

theorem contents_setAt (hnodup : ((inv.contents S).map Item.guid).Nodup)
    (hvalid : inv.Valid S pos) {o : Option Item} (hbag : inv.KeepsBags S pos o) :
    (inv.setAt S pos o).contents S+Stock.inPlace (inv.itemAt S pos) =
      inv.contents S+Stock.inPlace o := by
  have hat := itemAt_setAt hnodup hvalid hbag
  have hsame : ∀ pos', pos' ≠ pos → (inv.setAt S pos o).itemAt S pos' = inv.itemAt S pos' := by
    intro pos' hne
    rw [hat,Function.update_of_ne hne]
  have hnew : (inv.setAt S pos o).itemAt S pos = o := by rw [hat,Function.update_self]
  have hexchange := Stock.held_exchange nodup_places (mem_places hvalid) hsame
  rw [hnew] at hexchange
  exact hexchange

theorem getItemByGuid_some {guid : Nat} (h : inv.getItemByGuid S guid = some (pos,it)) :
    inv.itemAt S pos = some it ∧ it.guid = guid := by
  obtain ⟨pos',-,hfound⟩ := List.exists_of_findSome?_eq_some h
  obtain ⟨it',hfilter,heq⟩ := Option.map_eq_some_iff.mp hfound
  obtain ⟨hat,hguid⟩ := Option.filter_eq_some_iff.mp hfilter
  cases heq
  exact ⟨hat,by simpa using hguid⟩

theorem canBeTraded_bag {moment : Moment} {mail trade : Bool}
    (h : it.canBeTraded S moment inv pos mail trade = true) (hpos : isBagPos pos = true) :
    it.isBag S = false := by
  unfold Item.canBeTraded at h
  split_ifs at h with _ _ hbag
  rw [hpos,Bool.true_or,Bool.and_true,Bool.not_eq_true] at hbag
  exact hbag

end TrinityCore.Players
