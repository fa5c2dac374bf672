import TrinityCore.Players.DestroyedItems

set_option autoImplicit false

/-!
Bags among the items that are destroyed. A bag in a bag slot goes only when it is empty, and what is in it
is looked for before it, so a bag that holds copies of itself only may be empty when the search comes to it.
-/

namespace TrinityCore.Players

open Piles QuestLog

namespace Inventory

variable (S : ItemStore) (moment : EquipMoment) (inTrade : Nat → Bool) (inv : Inventory)

/-- A copy that is equipped may be unequipped once no copies are left in it. -/
def settles (entry : Nat) (pos : Pos) : Bool :=
  decide (inv.canUnequipItem S moment pos true = .storage .ok) &&
    (!isBagPos pos || (List.range maxBagSize).all fun slot =>
      (inv.itemAt S (pos.2,slot)).all fun item => decide (item.Free inTrade entry))

/-- The stacks at some positions, of which those are fixed that may not be taken. -/
def pilesBy (may : Pos → Bool) (entry : Nat) (slots : List Pos) : List (Pile Bool) :=
  slots.filterMap fun pos =>
    (inv.freeAt S inTrade entry pos).map fun item => ⟨item.count,!may pos,isCarried pos⟩

def settledPiles (entry : Nat) : List (Pile Bool) :=
  inv.pilesBy S inTrade (inv.settles S moment inTrade entry) entry destroySlots

/-- Where a player keeps no bag with something in it: outside the bag slots. -/
def Tidy (entry : Nat) : Prop :=
  ∀ pos item, inv.itemAt S pos = some item → item.entry = entry → isBagPos pos = false →
    inv.isNotEmptyBag S item = false

end Inventory

section Bags

variable {S : ItemStore} {moment : EquipMoment} {inTrade : Nat → Bool} {inv inv' : Inventory}
  {pos : Pos} {item : Item} {entry m : Nat}

theorem bagslot_of_empty (h : inv.isNotEmptyBag S item = false) (hbag : item.isBag S = true)
    {slot : Nat} (hslot : slot < item.getBagSize S) : inv.bagslot item.guid slot = none := by
  unfold Inventory.isNotEmptyBag at h
  rw [hbag,Bool.true_and,List.any_eq_false] at h
  simpa using h slot (List.mem_range.mpr hslot)

theorem itemAt_setAt_bagPos (hpos : isBagPos pos = true) (hitem : inv.itemAt S pos = some item)
    (hempty : m = 0 → inv.isNotEmptyBag S item = false) :
    (inv.setAt S pos (item.remains m)).itemAt S =
      Function.update (inv.itemAt S) pos (item.remains m) := by
  obtain ⟨hbag0,hslot⟩ := isBagPos_iff.mp hpos
  have hplayer := (bagSlots_sub hslot).1
  rw [itemAt_player hbag0 hplayer] at hitem
  have hset : inv.setAt S pos (item.remains m) =
      { inv with items := Function.update inv.items pos.2 (item.remains m) } := by
    unfold Inventory.setAt Inventory.bagAt
    rw [if_pos hbag0]
  rw [hset]
  funext pos'
  by_cases heq : pos' = pos
  · subst heq
    rw [Function.update_self,itemAt_player hbag0 hplayer]
    exact Function.update_self ..
  rw [Function.update_of_ne heq]
  unfold Inventory.itemAt Inventory.getItemByPos
  dsimp only
  split
  · rename_i hplayer'
    have hne : pos'.2 ≠ pos.2 := fun h => heq (Prod.ext (hplayer'.1.trans hbag0.symm) h)
    rw [Function.update_of_ne hne]
  · by_cases hin : pos'.1 = pos.2
    · -- what is in the bag itself
      have hrange := mem_bagSlots.mp hslot
      unfold Inventory.getBagByPos
      dsimp only
      rw [hin,if_pos hrange,if_pos hrange,Function.update_self,hitem]
      cases hbag : item.isBag S with
      | false => rw [isBag_remains hbag,Option.filter_some_neg (by simp [hbag])]
      | true =>
        rw [Option.filter_some_pos hbag]
        by_cases hm : m = 0
        · have hnone : (item.remains m).filter (Item.isBag S) = none := by simp [Item.remains,hm]
          rw [hnone]
          dsimp only
          split_ifs with hlt
          · exact (bagslot_of_empty (hempty hm) hbag hlt).symm
          · rfl
        · have hleft : (item.remains m).filter (Item.isBag S) = some (item.left m) := by
            rw [Item.remains,if_neg hm]
            exact Option.filter_some_pos hbag
          rw [hleft]
          rfl
    · have hsame : ({ inv with items := Function.update inv.items pos.2 (item.remains m) } :
          Inventory).getBagByPos S pos'.1 = inv.getBagByPos S pos'.1 := by
        unfold Inventory.getBagByPos
        dsimp only
        rw [Function.update_of_ne hin]
      rw [hsame]

theorem not_bankBag (hpos : pos ∈ destroySlots) {slot : Nat} (hstart : bankSlotBagStart ≤ slot)
    (hend : slot < bankSlotBagEnd) : (inventorySlotBag0,slot) ≠ pos := by
  have hnodup := places_perm.nodup_iff.mp nodup_places
  have hmem : (inventorySlotBag0,slot) ∈ slotsFrom bankSlotBagStart bankSlotBagEnd :=
    List.mem_map.mpr ⟨slot,List.mem_range'_1.mpr ⟨hstart,by omega⟩,rfl⟩
  exact ((List.nodup_append.mp hnodup).2.2 pos hpos _ hmem).symm

/-- A stack that is taken leaves the rest as it is, also a bag, if nothing is in it. -/
theorem leaves_bag (hinv : inv.Stacked S) (hpos : pos ∈ destroySlots)
    (hat : inv.freeAt S inTrade entry pos = some item) (hm : m ≤ item.count)
    (hempty : m = 0 → inv.isNotEmptyBag S item = false) :
    Leaves S inv (inv.setAt S pos (item.remains m)) pos item m := by
  obtain ⟨hitem,-⟩ := freeAt_some hat
  have hitems : (inv.setAt S pos (item.remains m)).itemAt S =
      Function.update (inv.itemAt S) pos (item.remains m) := by
    cases hbag : isBagPos pos with
    | true => exact itemAt_setAt_bagPos hbag hitem hempty
    | false =>
      exact itemAt_setAt hinv.stocked.nodup (valid_of_itemAt hitem) (keepsBags_of_not hbag)
  exact leaves_of_takes hinv hpos hat hm
    (takes_of_update hinv.stocked hat hm (fun _ => not_bankBag hpos) hitems) hitems

theorem Leaves.amount (h : Leaves S inv inv' pos item m) (hitem : inv.itemAt S pos = some item) :
    inv'.amountOf S item.entry+item.count = inv.amountOf S item.entry+m := by
  have hsame : ∀ pos', pos' ≠ pos → inv'.itemAt S pos' = inv.itemAt S pos' := by
    intro pos' hne
    rw [h.itemAt,Function.update_of_ne hne]
  have hexchange := congrArg (Stock.amount entryCount item.entry)
    (Stock.held_exchange nodup_places (mem_places (valid_of_itemAt hitem)) hsame)
  rw [h.itemAt,Function.update_self,hitem,Stock.amount_add,Stock.amount_add,
    amount_entryCount_remains rfl,Stock.inPlace_some,Stock.amount_singleton,entryCount_eq,
    if_pos rfl,← h.itemAt] at hexchange
  exact hexchange

theorem notEmptyBag_setAt (hempty : inv.isNotEmptyBag S item = false) (pos : Pos) :
    (inv.setAt S pos none).isNotEmptyBag S item = false := by
  unfold Inventory.isNotEmptyBag at hempty ⊢
  rw [Bool.and_eq_false_iff] at hempty ⊢
  refine hempty.imp_right fun hnone => ?_
  rw [List.any_eq_false] at hnone ⊢
  intro slot hslot
  have hold := hnone slot hslot
  unfold Inventory.setAt
  split
  · exact hold
  · dsimp only
    rw [Function.update_apply]
    split_ifs with hguid
    · rw [Function.update_apply]
      split_ifs
      · simp
      · rw [← hguid]
        exact hold
    · exact hold

end Bags

section Searches

variable {S : ItemStore} {Q : Nat → Option Quest} {moment : EquipMoment} {inTrade : Nat → Bool}
  {inv base : Inventory} {p p' : Player} {pos : Pos} {item : Item} {entry : Nat}
  {done slots front back : List Pos} {may : Pos → Bool}

/-- A search that goes on behind some positions: of what could be taken there no copies are left. -/
structure Searched (S : ItemStore) (inTrade : Nat → Bool) (entry : Nat) (may : Pos → Bool)
    (done : List Pos) (base inv : Inventory) : Prop where
  same : ∀ pos, inv.itemAt S pos = base.itemAt S pos ∨
    (pos ∈ done ∧ (base.freeAt S inTrade entry pos).isSome = true ∧ inv.itemAt S pos = none)
  gone : ∀ pos ∈ done, may pos = true → inv.freeAt S inTrade entry pos = none
  empties : ∀ item, base.isNotEmptyBag S item = false → inv.isNotEmptyBag S item = false

theorem Searched.refl (inv : Inventory) : Searched S inTrade entry may [] inv inv :=
  ⟨fun _ => .inl rfl,by simp,fun _ h => h⟩

theorem Searched.still (h : Searched S inTrade entry may done base inv)
    (hitem : inv.itemAt S pos = some item) : base.itemAt S pos = some item := by
  rcases h.same pos with hsame | ⟨-,-,hnone⟩
  · rwa [← hsame]
  · rw [hnone] at hitem
    cases hitem

theorem canUnequip_congr (h : inv.itemAt S pos = base.itemAt S pos) :
    inv.canUnequipItem S moment pos true = base.canUnequipItem S moment pos true := by
  unfold Inventory.canUnequipItem
  rw [h]
  rfl

theorem canUnequip_of_empty (hitem : inv.itemAt S pos = some item)
    (hempty : inv.isNotEmptyBag S item = false) :
    inv.canUnequipItem S moment pos false = inv.canUnequipItem S moment pos true := by
  unfold Inventory.canUnequipItem
  rw [hitem]
  dsimp only
  rw [hempty]
  rfl

theorem mayUnequip_of_empty (hitem : inv.itemAt S pos = some item)
    (hempty : inv.isNotEmptyBag S item = false) :
    inv.mayUnequip S moment pos = decide (inv.canUnequipItem S moment pos true = .storage .ok) := by
  unfold Inventory.mayUnequip
  rw [canUnequip_of_empty hitem hempty]

theorem mayUnequip_of_notEmpty (hpos : isBagPos pos = true) (hitem : inv.itemAt S pos = some item)
    (hfull : inv.isNotEmptyBag S item = true) : inv.mayUnequip S moment pos = false := by
  have hrefused : inv.canUnequipItem S moment pos false ≠ .storage .ok := by
    unfold Inventory.canUnequipItem
    rw [hitem,if_neg (by simp [hpos])]
    dsimp only
    rw [hfull]
    cases S.getItemTemplate item.entry with
    | none => exact fun h => by cases h
    | some pProto =>
      dsimp only
      split_ifs <;> simp_all
  exact decide_eq_false hrefused

theorem settles_elsewhere (h : ¬ (pos.1 = inventorySlotBag0 ∧ pos.2 < inventorySlotBagEnd))
    (hbag : isBagPos pos = false) : inv.settles S moment inTrade entry pos = true := by
  unfold Inventory.settles Inventory.canUnequipItem
  simp [h,hbag]

theorem emptyBag_iff (hpos : isBagPos pos = true) (hitem : inv.itemAt S pos = some item) :
    inv.isNotEmptyBag S item = false ↔
      ∀ slot, slot < maxBagSize → inv.itemAt S (pos.2,slot) = none := by
  obtain ⟨hbag0,hslot⟩ := isBagPos_iff.mp hpos
  obtain ⟨hplayer,hne⟩ := bagSlots_sub hslot
  rw [itemAt_player hbag0 hplayer] at hitem
  have hat : inv.getBagByPos S pos.2 = if item.isBag S then some item else none := by
    unfold Inventory.getBagByPos
    rw [if_pos (mem_bagSlots.mp hslot),hitem,Option.filter_some]
  have hin : ∀ slot, inv.itemAt S (pos.2,slot) =
      if item.isBag S = true ∧ slot < item.getBagSize S then inv.bagslot item.guid slot else none := by
    intro slot
    unfold Inventory.itemAt Inventory.getItemByPos
    rw [if_neg (fun h => hne h.1),hat]
    cases item.isBag S <;> simp
  have hsize := getBagSize_le S item
  simp only [hin]
  unfold Inventory.isNotEmptyBag
  rw [Bool.and_eq_false_iff,List.any_eq_false]
  constructor
  · rintro (hnot | hnone) slot _
    · rw [if_neg (by simp [hnot])]
    · split_ifs with hboth
      · simpa using hnone slot (List.mem_range.mpr hboth.2)
      · rfl
  · intro h
    by_cases hbag : item.isBag S = true
    · refine .inr fun slot hlt => ?_
      have hnone := h slot (by have := List.mem_range.mp hlt; omega)
      rw [if_pos ⟨hbag,List.mem_range.mp hlt⟩] at hnone
      simp [hnone]
    · exact .inl (by simpa using hbag)

/-- What is in a bag is looked for before the bag. -/
theorem mem_front (hsplit : destroySlots = front ++ pos :: back) (hpos : isBagPos pos = true)
    {slot : Nat} (hslot : slot < maxBagSize) : (pos.2,slot) ∈ front := by
  obtain ⟨hbag0,hbag⟩ := isBagPos_iff.mp hpos
  have hdestroy : destroySlots =
      (slotsFrom inventorySlotItemStart inventorySlotItemEnd ++
        (slotsFrom keyringSlotStart currencytokenSlotEnd ++
          slotsInBags inventorySlotBagStart inventorySlotBagEnd)) ++
      (slotsFrom equipmentSlotStart inventorySlotBagEnd ++
        (slotsFrom bankSlotItemStart bankSlotItemEnd ++
          slotsInBags bankSlotBagStart bankSlotBagEnd)) := by
    decide +kernel
  have hmem : pos ∈ destroySlots := by rw [hsplit]; simp
  have hequipped : inventorySlotBagStart ≤ pos.2 ∧ pos.2 < inventorySlotBagEnd := by
    rcases mem_bagSlots.mp hbag with hlist | ⟨hstart,hend⟩
    · exact hlist
    · have heq : (inventorySlotBag0,pos.2) = pos := Prod.ext hbag0.symm rfl
      exact absurd heq (not_bankBag hmem hstart hend)
  have hnot : pos ∉ slotsFrom inventorySlotItemStart inventorySlotItemEnd ++
      (slotsFrom keyringSlotStart currencytokenSlotEnd ++
        slotsInBags inventorySlotBagStart inventorySlotBagEnd) := by
    intro h
    rcases List.mem_append.mp h with h | h
    · obtain ⟨slot',hslot',rfl⟩ := List.mem_map.mp h
      have := List.mem_range'_1.mp hslot'
      simp only [inventorySlotItemStart,inventorySlotBagEnd] at *
      omega
    · rcases List.mem_append.mp h with h | h
      · obtain ⟨slot',hslot',rfl⟩ := List.mem_map.mp h
        have := List.mem_range'_1.mp hslot'
        simp only [keyringSlotStart,inventorySlotBagEnd] at *
        omega
      · obtain ⟨bag,hbag',h⟩ := List.mem_flatMap.mp h
        obtain ⟨slot',-,rfl⟩ := List.mem_map.mp h
        have := List.mem_range'_1.mp hbag'
        simp only [inventorySlotBagStart,inventorySlotBagEnd,inventorySlotBag0] at *
        omega
  have hin : (pos.2,slot) ∈ slotsFrom inventorySlotItemStart inventorySlotItemEnd ++
      (slotsFrom keyringSlotStart currencytokenSlotEnd ++
        slotsInBags inventorySlotBagStart inventorySlotBagEnd) := by
    refine List.mem_append_right _ (List.mem_append_right _ (List.mem_flatMap.mpr
      ⟨pos.2,List.mem_range'_1.mpr ⟨hequipped.1,by omega⟩,?_⟩))
    exact List.mem_map.mpr ⟨slot,List.mem_range.mpr hslot,rfl⟩
  rw [hdestroy] at hsplit
  rcases List.append_eq_append_iff.mp hsplit with ⟨mid,rfl,-⟩ | ⟨mid,hfront,hmid⟩
  · exact List.mem_append_left _ hin
  · cases mid with
    | nil =>
      rw [List.append_nil] at hfront
      rwa [← hfront]
    | cons first mid =>
      obtain ⟨rfl,-⟩ := List.cons.inj hmid
      exact absurd (hfront ▸ List.mem_append_right _ List.mem_cons_self) hnot

/-- When the search comes to a copy, it may take it exactly if it settles before the search. -/
theorem settles_spec (htidy : base.Tidy S entry) (hsplit : destroySlots = front ++ pos :: back)
    (h : Searched S inTrade entry (base.settles S moment inTrade entry) front base inv)
    (hat : inv.freeAt S inTrade entry pos = some item) :
    inv.mayUnequip S moment pos = base.settles S moment inTrade entry pos ∧
      (base.settles S moment inTrade entry pos = true → inv.isNotEmptyBag S item = false) := by
  obtain ⟨hitem,hfree⟩ := freeAt_some hat
  have hbase := h.still hitem
  have hcan : inv.canUnequipItem S moment pos true = base.canUnequipItem S moment pos true :=
    canUnequip_congr (hitem.trans hbase.symm)
  cases hpos : isBagPos pos with
  | false =>
    have hempty := h.empties item (htidy pos item hbase hfree.1 hpos)
    refine ⟨?_,fun _ => hempty⟩
    rw [mayUnequip_of_empty hitem hempty,hcan]
    simp [Inventory.settles,hpos]
  | true =>
    have hcontents : inv.isNotEmptyBag S item = false ↔ (List.range maxBagSize).all (fun slot =>
        (base.itemAt S (pos.2,slot)).all fun item => decide (item.Free inTrade entry)) = true := by
      rw [emptyBag_iff hpos hitem,List.all_eq_true]
      simp only [List.mem_range]
      apply forall₂_congr
      intro slot hslot
      rcases h.same (pos.2,slot) with hsame | ⟨-,hfree',hnone⟩
      · rw [hsame]
        cases hin : base.itemAt S (pos.2,slot) with
        | none => simp
        | some inside =>
          refine iff_of_false (by simp) ?_
          intro hinside
          -- it would be gone
          have hfree'' : inside.Free inTrade entry := by simpa using hinside
          have hat' : inv.freeAt S inTrade entry (pos.2,slot) = some inside := by
            unfold Inventory.freeAt
            rw [hsame,hin,Option.filter_some_pos (by simp [hfree''.1,hfree''.2])]
          have hnotBag0 := (bagSlots_sub (isBagPos_iff.mp hpos).2).2
          have hmay : base.settles S moment inTrade entry (pos.2,slot) = true := by
            refine settles_elsewhere (fun h => hnotBag0 h.1) ?_
            rw [← Bool.not_eq_true,isBagPos_iff]
            exact fun h => hnotBag0 h.1
          rw [h.gone _ (mem_front hsplit hpos hslot) hmay] at hat'
          cases hat'
      · obtain ⟨inside,hinside⟩ := Option.isSome_iff_exists.mp hfree'
        obtain ⟨hin,hfree''⟩ := freeAt_some hinside
        refine iff_of_true hnone ?_
        rw [hin]
        simpa using hfree''
    cases hfull : inv.isNotEmptyBag S item with
    | false =>
      refine ⟨?_,fun _ => rfl⟩
      rw [mayUnequip_of_empty hitem hfull,hcan]
      unfold Inventory.settles
      rw [hcontents.mp hfull,Bool.or_true,Bool.and_true]
    | true =>
      have hnot : base.settles S moment inTrade entry pos = false := by
        unfold Inventory.settles
        have hsome := mt hcontents.mpr (by simp [hfull])
        rw [Bool.not_eq_true] at hsome
        rw [hsome,hpos]
        simp
      rw [mayUnequip_of_notEmpty hpos hitem hfull,hnot]
      exact ⟨rfl,fun h => absurd h Bool.false_ne_true⟩

/-- What is destroyed is drawn from the piles at some positions, and its pieces are reported. -/
structure Clears (S : ItemStore) (Q : Nat → Option Quest) (inTrade : Nat → Bool)
    (entry k : Nat) (piles : List (Pile Bool)) (p p' : Player) : Prop where
  stacked : p'.inv.Stacked S
  entries : KeepsEntries S p.inv p'.inv
  others : KeepsOthers S inTrade entry p.inv p'.inv
  amount : p'.inv.amountOf S entry+Piles.taken (pieces k piles) = p.inv.amountOf S entry
  quests : p'.quests = p.quests.reports Q entry (p.inv.carriedCount S entry) (pieces k piles)

theorem Clears.of_pieces_nil {k : Nat} {piles : List (Pile Bool)} (hinv : p.inv.Stacked S)
    (hpieces : pieces k piles = []) : Clears S Q inTrade entry k piles p p where
  stacked := hinv
  entries := fun _ item hat => ⟨item,hat,rfl⟩
  others := fun _ => rfl
  amount := by rw [hpieces]; rfl
  quests := by rw [hpieces]; rfl

theorem Clears.of_pieces_eq {k k' : Nat} {piles piles' : List (Pile Bool)}
    (h : Clears S Q inTrade entry k piles p p') (hpieces : pieces k' piles' = pieces k piles) :
    Clears S Q inTrade entry k' piles' p p' where
  stacked := h.stacked
  entries := h.entries
  others := h.others
  amount := by rw [hpieces]; exact h.amount
  quests := by rw [hpieces]; exact h.quests

theorem pilesBy_congr {inv inv' : Inventory}
    (h : ∀ pos ∈ slots, inv'.itemAt S pos = inv.itemAt S pos) :
    inv'.pilesBy S inTrade may entry slots = inv.pilesBy S inTrade may entry slots :=
  List.filterMap_congr fun pos hpos => by rw [freeAt_congr (h pos hpos)]

theorem pilesBy_cons (inv : Inventory) (may : Pos → Bool) (entry : Nat) :
    inv.pilesBy S inTrade may entry (pos :: slots) =
      match inv.freeAt S inTrade entry pos with
      | none => inv.pilesBy S inTrade may entry slots
      | some item =>
        ⟨item.count,!may pos,isCarried pos⟩ :: inv.pilesBy S inTrade may entry slots := by
  unfold Inventory.pilesBy
  cases hat : inv.freeAt S inTrade entry pos with
  | none => rw [List.filterMap_cons_none (by simp [hat])]
  | some item => rw [List.filterMap_cons_some (by rw [hat]; rfl)]

/-- The stack that is come to goes as a whole, or what is still asked for goes from it. -/
theorem Clears.first {k m : Nat} {piles piles' : List (Pile Bool)} (hinv : p.inv.Stacked S)
    (hsub : pos ∈ destroySlots) (hat : p.inv.freeAt S inTrade entry pos = some item)
    (hm : m < item.count) (hempty : m = 0 → p.inv.isNotEmptyBag S item = false) {k' : Nat}
    (hpieces : pieces k piles = (item.count-m,isCarried pos) :: pieces k' piles')
    (h : Clears S Q inTrade entry k' piles' (p.without S Q pos item m) p') :
    Clears S Q inTrade entry k piles p p' := by
  obtain ⟨hitem,hfree⟩ := freeAt_some hat
  have hleaves : Leaves S p.inv (p.without S Q pos item m).inv pos item m :=
    leaves_bag hinv hsub hat hm.le hempty
  have hcarried := hleaves.carried
  have hamount := hleaves.amount hitem
  rw [hfree.1] at hcarried hamount
  refine ⟨h.stacked,(hleaves.keepsEntries hitem).trans h.entries,?_,?_,?_⟩
  · intro pos'
    rw [h.others pos',hleaves.keepsOthers hat pos']
  · have hlater := h.amount
    rw [hpieces,taken_cons]
    dsimp only
    omega
  · have hheld : (p.without S Q pos item m).inv.carriedCount S entry =
        p.inv.carriedCount S entry-if isCarried pos = true then item.count-m else 0 := by
      omega
    rw [h.quests,hheld,hpieces,QuestLog.reports]
    unfold Player.without
    rw [hfree.1]

theorem Searched.take {base : Inventory} (hinv : p.inv.Stacked S) (hsub : pos ∈ destroySlots)
    (hat : p.inv.freeAt S inTrade entry pos = some item)
    (hempty : p.inv.isNotEmptyBag S item = false)
    (h : Searched S inTrade entry may done base p.inv) :
    Searched S inTrade entry may (done ++ [pos]) base (p.without S Q pos item 0).inv := by
  obtain ⟨hitem,hfree⟩ := freeAt_some hat
  have hleaves : Leaves S p.inv (p.without S Q pos item 0).inv pos item 0 :=
    leaves_bag hinv hsub hat (Nat.zero_le _) fun _ => hempty
  have hhere : (p.without S Q pos item 0).inv.itemAt S pos = none := by
    rw [hleaves.itemAt,Function.update_self]
    rfl
  have hsame : ∀ pos', pos' ≠ pos →
      (p.without S Q pos item 0).inv.itemAt S pos' = p.inv.itemAt S pos' := by
    intro pos' hne
    rw [hleaves.itemAt,Function.update_of_ne hne]
  refine ⟨?_,?_,?_⟩
  · intro pos'
    by_cases heq : pos' = pos
    · subst heq
      refine .inr ⟨by simp,?_,hhere⟩
      rw [freeAt_congr ((h.still hitem).trans hitem.symm),hat]
      rfl
    · rw [hsame pos' heq]
      exact (h.same pos').imp_right fun ⟨hmem,hrest⟩ => ⟨List.mem_append_left _ hmem,hrest⟩
  · intro pos' hmem hmay
    by_cases heq : pos' = pos
    · subst heq
      unfold Inventory.freeAt
      rw [hhere]
      rfl
    · rw [freeAt_congr (hsame pos' heq)]
      refine h.gone pos' ?_ hmay
      simpa [heq] using hmem
  · exact fun item' hitem' => notEmptyBag_setAt (h.empties item' hitem') pos

theorem Searched.pass {base : Inventory} (h : Searched S inTrade entry may done base inv)
    (hpos : may pos = true → inv.freeAt S inTrade entry pos = none) :
    Searched S inTrade entry may (done ++ [pos]) base inv := by
  refine ⟨?_,?_,h.empties⟩
  · exact fun pos' =>
      (h.same pos').imp_right fun ⟨hmem,hrest⟩ => ⟨List.mem_append_left _ hmem,hrest⟩
  · intro pos' hmem hmay
    rcases List.mem_append.mp hmem with hmem | hmem
    · exact h.gone pos' hmem hmay
    · rw [List.mem_singleton.mp hmem] at hmay ⊢
      exact hpos hmay

theorem clears_destroyCountIn {base : Inventory} {count gone : Nat} (depth : Nat)
    (htidy : base.Tidy S entry) (hsplit : destroySlots = done ++ slots)
    (h : Searched S inTrade entry (base.settles S moment inTrade entry) done base p.inv)
    (hinv : p.inv.Stacked S) (hgone : gone < count) (hcount : count < 2^31) :
    Clears S Q inTrade entry (count-gone)
      (p.inv.pilesBy S inTrade (base.settles S moment inTrade entry) entry slots) p
      (p.destroyCountIn S Q inTrade (depth+1) entry count
        (fun inv pos => inv.mayUnequip S moment pos) slots gone).1 := by
  induction slots generalizing p gone done with
  | nil => exact Clears.of_pieces_nil hinv (by simp [Inventory.pilesBy,pieces])
  | cons pos rest ih =>
    have hsub : pos ∈ destroySlots := by rw [hsplit]; simp
    have hnext : destroySlots = (done ++ [pos]) ++ rest := by rw [hsplit]; simp
    have hpos : pos ∉ rest :=
      (List.nodup_cons.mp (List.nodup_append.mp (hsplit ▸ nodup_destroySlots)).2.1).1
    have hk : 0 < count-gone := by omega
    rw [pilesBy_cons]
    cases hat : p.inv.freeAt S inTrade entry pos with
    | none =>
      rw [Player.destroyCountIn,hat]
      exact ih hnext (h.pass fun _ => hat) hinv hgone
    | some item =>
      obtain ⟨hitem,hfree⟩ := freeAt_some hat
      obtain ⟨hmayEq,hempty⟩ := settles_spec htidy hsplit h hat
      have hsize := hinv.sizes item (mem_contents.mpr ⟨pos,hitem⟩)
      have hpos' := (hinv.stocked.counts item (mem_contents.mpr ⟨pos,hitem⟩)).1
      rw [destroyCountIn_cons depth hat (fun hmay => hempty (hmayEq.symm.trans hmay)) hsize hgone hcount,
        hmayEq]
      have hwhole : base.settles S moment inTrade entry pos = true →
          Leaves S p.inv (p.without S Q pos item 0).inv pos item 0 ∧
          (p.without S Q pos item 0).inv.pilesBy S inTrade
            (base.settles S moment inTrade entry) entry rest =
          p.inv.pilesBy S inTrade (base.settles S moment inTrade entry) entry rest := by
        intro hmay
        have hleaves : Leaves S p.inv (p.without S Q pos item 0).inv pos item 0 :=
          leaves_bag hinv hsub hat (Nat.zero_le _) fun _ => hempty hmay
        refine ⟨hleaves,pilesBy_congr fun pos' hmem => ?_⟩
        have hne : pos' ≠ pos := fun heq => hpos (heq ▸ hmem)
        rw [hleaves.itemAt,Function.update_of_ne hne]
      dsimp only
      split_ifs with hfits hmay hdone
      · refine Clears.first hinv hsub hat hpos' (fun _ => hempty hmay)
          (pieces_loose hk hfits (by simp [hmay])) ?_
        dsimp only
        rw [Nat.sub_eq_zero_of_le hdone]
        exact Clears.of_pieces_nil (hwhole hmay).1.stacked (pieces_zero _)
      · refine Clears.first hinv hsub hat hpos' (fun _ => hempty hmay)
          (pieces_loose hk hfits (by simp [hmay])) ?_
        dsimp only
        rw [← (hwhole hmay).2,Nat.sub_sub]
        exact ih hnext (h.take hinv hsub hat (hempty hmay)) (hwhole hmay).1.stacked (by omega)
      · have hrest := ih hnext (h.pass fun hsettles => absurd hsettles hmay) hinv hgone
        exact hrest.of_pieces_eq (pieces_fixed hk hfits (by simpa using hmay))
      · have hm : item.count-(count-gone) < item.count := by omega
        have hnone : item.count-(count-gone) = 0 → p.inv.isNotEmptyBag S item = false := by omega
        have hpieces : pieces (count-gone) (⟨item.count,
            !base.settles S moment inTrade entry pos,isCarried pos⟩ ::
              p.inv.pilesBy S inTrade (base.settles S moment inTrade entry) entry rest) =
            (item.count-(item.count-(count-gone)),isCarried pos) :: pieces 0 [] := by
          rw [pieces_part hk (by dsimp only; omega)]
          have hgone' : item.count-(item.count-(count-gone)) = count-gone := by omega
          rw [hgone']
          rfl
        exact Clears.first hinv hsub hat hm hnone hpieces
          (Clears.of_pieces_nil (leaves_bag hinv hsub hat hm.le hnone).stacked (pieces_zero []))

end Searches

section Served

variable {S : ItemStore} {Q : Nat → Option Quest} {moment : EquipMoment} {inTrade : Nat → Bool}
  {p p' : Player} {questId entry count depth : Nat} {data : QuestStatusData}
  {items : List (Nat × Nat)} {E : Nat → Prop}

theorem clears_destroyItemCount (hinv : p.inv.Stacked S) (htidy : p.inv.Tidy S entry)
    (hpos : 0 < count) (hcount : count < 2^31) (depth : Nat) :
    Clears S Q inTrade entry count (p.inv.settledPiles S moment inTrade entry) p
      (p.destroyItemCount S Q moment inTrade (depth+1) entry count true) := by
  have hsplit : destroySlots = [] ++ destroySlots := rfl
  rw [destroyItemCount_eq]
  exact clears_destroyCountIn depth htidy hsplit (Searched.refl p.inv) hinv hpos hcount

/-- A search for copies of a bag passes over none that it needs: as many as it asks for are there to be
taken, or all copies are. What it takes does not disturb the quest. -/
structure Player.Served (S : ItemStore) (Q : Nat → Option Quest) (moment : EquipMoment)
    (inTrade : Nat → Bool) (questId entry count : Nat) (p : Player) : Prop where
  tidy : p.inv.Tidy S entry
  found : Finds count (p.inv.settledPiles S moment inTrade entry) ∨
    ((∀ pile ∈ p.inv.settledPiles S moment inTrade entry, pile.fixed = false) ∧
      total (p.inv.settledPiles S moment inTrade entry) = p.inv.amountOf S entry)
  undisturbed : Undisturbed Q p.quests questId (p.quests.data questId) entry
    (p.inv.carriedCount S entry) (pieces count (p.inv.settledPiles S moment inTrade entry))

/-- Each search for copies of a bag is served, in the state that the searches before it leave. -/
def Player.AllServed (S : ItemStore) (Q : Nat → Option Quest) (moment : EquipMoment)
    (inTrade : Nat → Bool) (depth questId : Nat) : List (Nat × Nat) → Player → Prop
  | [], _ => True
  | item :: items, p =>
    (0 < item.1 → 0 < item.2 → p.inv.Plain S item.1 ∨
      p.Served S Q moment inTrade questId item.1 item.2) ∧
    AllServed S Q moment inTrade depth questId items (p.destroyEach S Q moment inTrade depth [item])

def IsBagEntry (S : ItemStore) (entry : Nat) : Prop :=
  ∀ item : Item, item.entry = entry → item.isBag S = true

theorem isBagEntry_of_not_plain {inv : Inventory} (h : ¬ inv.Plain S entry) : IsBagEntry S entry := by
  simp only [Inventory.Plain,not_forall,Bool.not_eq_false] at h
  obtain ⟨item,-,rfl,hbag⟩ := h
  intro item' hentry
  rw [Item.isBag,hentry]
  exact hbag

theorem amountOf_of_plain {inv : Inventory} (hbag : IsBagEntry S entry) (hplain : inv.Plain S entry) :
    inv.amountOf S entry = 0 :=
  amount_eq_zero_iff.mpr fun item hitem => if_neg fun hentry => by
    have hnot := hplain item hitem hentry
    rw [hbag item hentry] at hnot
    cases hnot

theorem piles_of_plain {inv : Inventory} (hbag : IsBagEntry S entry) (hplain : inv.Plain S entry) :
    inv.piles S moment inTrade entry = [] := by
  unfold Inventory.piles Inventory.pilesIn
  rw [List.filterMap_eq_nil_iff]
  intro pos _
  unfold Inventory.pileAt
  cases hat : inv.freeAt S inTrade entry pos with
  | none => rfl
  | some item =>
    obtain ⟨hitem,hfree⟩ := freeAt_some hat
    have hnot := hplain item (mem_contents.mpr ⟨pos,hitem⟩) hfree.1
    rw [hbag item hfree.1] at hnot
    cases hnot

theorem Clears.amountOf_eq (h : Clears S Q inTrade entry count
      (p.inv.settledPiles S moment inTrade entry) p p')
    (hserved : p.Served S Q moment inTrade questId entry count) :
    p'.inv.amountOf S entry = p.inv.amountOf S entry-count := by
  have hamount := h.amount
  rcases hserved.found with hfinds | ⟨hloose,hall⟩
  · rw [(taken_pieces_eq_iff _ _).mpr hfinds] at hamount
    omega
  · have hdraw := total_draw_loose count hloose
    have hsum := total_draw count (p.inv.settledPiles S moment inTrade entry)
    omega

theorem Clears.each (h : Clears S Q inTrade entry count
      (p.inv.settledPiles S moment inTrade entry) p p') (hbag : ¬ p.inv.Plain S entry) :
    DrawsEach S moment inTrade [(entry,count)] p p' := by
  have hother : ∀ entry', entry' ≠ entry → numbersOf entry' [(entry,count)] = [] := by
    intro entry' hne
    simp [numbersOf,hne.symm]
  refine ⟨h.stacked,h.entries,?_,?_,h.others.trade⟩
  · intro entry' _ hplain
    have hne : entry' ≠ entry := fun heq => hbag (heq ▸ hplain)
    rw [hother entry' hne,h.others.piles hne hplain]
    rfl
  · intro entry' _ hplain
    have hne : entry' ≠ entry := fun heq => hbag (heq ▸ hplain)
    unfold Player.piecesOf
    rw [hother entry' hne,h.others.carried hne]
    rfl

/-- What one search of a run in which all are served does. -/
structure TakesAway (S : ItemStore) (moment : EquipMoment) (inTrade : Nat → Bool) (questId : Nat)
    (items : List (Nat × Nat)) (p p' : Player) : Prop where
  each : DrawsEach S moment inTrade items p p'
  stays : Stays p.quests p'.quests questId
  amount : ∀ entry, 0 < entry → IsBagEntry S entry →
    p'.inv.amountOf S entry = p.inv.amountOf S entry-(numbersOf entry items).sum

theorem TakesAway.trans {p'' : Player} {items' : List (Nat × Nat)}
    (h : TakesAway S moment inTrade questId items p p')
    (h' : TakesAway S moment inTrade questId items' p' p'') :
    TakesAway S moment inTrade questId (items ++ items') p p'' where
  each := h.each.trans h'.each
  stays := h.stays.trans h'.stays
  amount := by
    intro entry hentry hbag
    rw [h'.amount entry hentry hbag,h.amount entry hentry hbag,numbersOf_append,List.sum_append]
    omega

/-- The entries that are looked at are those of items that are no bags, and the others are bags. -/
structure Sorts (S : ItemStore) (E : Nat → Prop) (items : List (Nat × Nat)) (p : Player) : Prop where
  plain : ∀ entry, E entry → 0 < entry ∧ p.inv.Plain S entry
  covered : ∀ item ∈ items, 0 < item.1 → 0 < item.2 →
    item.2 < 2^31 ∧ (E item.1 ∨ IsBagEntry S item.1)

theorem stays_of_reports {log log' : QuestLog} {held : Nat} {ps : List (Nat × Bool)}
    (hdata : log.questStatus questId = some data) (hps : ∀ x ∈ ps, 0 < x.1)
    (h : log' = log.reports Q entry held ps) : SameSlots log log' ∧
      (Undisturbed Q log questId data entry held ps → Stays log log' questId) := by
  rw [h]
  rcases reports_stays hdata hps held with ⟨-,hstays⟩ | ⟨hloud,hslots,-⟩
  · exact ⟨hstays.sameSlots,fun _ => hstays⟩
  · exact ⟨hslots,fun hquiet => absurd hquiet hloud⟩

theorem numbersOf_single {item : Nat × Nat} (hne : entry ≠ item.1) : numbersOf entry [item] = [] := by
  simp [numbersOf,hne.symm]

theorem takesAway_single (hinv : p.inv.Stacked S) {item : Nat × Nat} (hsorts : Sorts S E [item] p)
    (hdata : p.quests.questStatus questId = some data)
    (hserved : 0 < item.1 → 0 < item.2 →
      p.inv.Plain S item.1 ∨ p.Served S Q moment inTrade questId item.1 item.2) (depth : Nat) :
    DrawsEach S moment inTrade [item] p (p.destroyEach S Q moment inTrade (depth+1) [item]) ∧
      SameSlots p.quests (p.destroyEach S Q moment inTrade (depth+1) [item]).quests ∧
      (Quiet S Q moment inTrade E questId data [item] p →
        TakesAway S moment inTrade questId [item] p
          (p.destroyEach S Q moment inTrade (depth+1) [item])) := by
  have hself : (numbersOf item.1 [item]).sum = item.2 := by simp [numbersOf]
  by_cases hasked : 0 < item.1 ∧ 0 < item.2
  · obtain ⟨hcount,hkind⟩ := hsorts.covered item List.mem_cons_self hasked.1 hasked.2
    have hdestroy : p.destroyEach S Q moment inTrade (depth+1) [item] =
        p.destroyItemCount S Q moment inTrade (depth+1) item.1 item.2 true := by
      unfold Player.destroyEach
      rw [List.foldl_cons,List.foldl_nil,if_pos hasked]
    rw [hdestroy]
    by_cases hplain : p.inv.Plain S item.1
    · have hdraws : Draws S Q moment inTrade item.1 item.2 destroySlots p
          (p.destroyItemCount S Q moment inTrade (depth+1) item.1 item.2 true) :=
        draws_destroyItemCount hinv hplain hasked.2 hcount depth
      obtain ⟨hslots,hstays⟩ :=
        stays_of_reports hdata (pos_pieces item.2 (pos_piles hinv)) hdraws.quests
      refine ⟨hdraws.each,hslots,fun hquiet => ⟨hdraws.each,?_,?_⟩⟩
      · have hundisturbed : Undisturbed Q p.quests questId data item.1
            (p.inv.carriedCount S item.1) (pieces item.2 (p.inv.piles S moment inTrade item.1)) := by
          rcases hkind with hE | hbag
          · exact (quiet_single hE).mp hquiet
          · rw [piles_of_plain hbag hplain]
            exact fun _ _ _ => by simp [pieces,SteadyAt]
        exact hstays hundisturbed
      · intro entry _ hbag
        by_cases heq : entry = item.1
        · subst heq
          rw [amountOf_of_plain hbag hplain,amountOf_of_plain hbag (hdraws.entries.plain hplain)]
          exact (Nat.zero_sub _).symm
        · rw [hdraws.others.amount heq,numbersOf_single heq]
          rfl
    · have hserved := (hserved hasked.1 hasked.2).resolve_left hplain
      have hclears : Clears S Q inTrade item.1 item.2
          (p.inv.settledPiles S moment inTrade item.1) p
          (p.destroyItemCount S Q moment inTrade (depth+1) item.1 item.2 true) :=
        clears_destroyItemCount hinv hserved.tidy hasked.2 hcount depth
      have hpos : ∀ pile ∈ p.inv.settledPiles S moment inTrade item.1, 0 < pile.count := by
        intro pile hpile
        obtain ⟨pos,-,hat⟩ := List.mem_filterMap.mp hpile
        obtain ⟨stack,hfree,rfl⟩ := Option.map_eq_some_iff.mp hat
        exact (hinv.stocked.counts stack (mem_contents.mpr ⟨pos,(freeAt_some hfree).1⟩)).1
      obtain ⟨hslots,hstays⟩ := stays_of_reports hdata (pos_pieces item.2 hpos) hclears.quests
      refine ⟨hclears.each hplain,hslots,fun _ => ⟨hclears.each hplain,?_,?_⟩⟩
      · have hstored : p.quests.data questId = data := by
          unfold QuestLog.data
          rw [hdata]
          rfl
        have hundisturbed := hserved.undisturbed
        rw [hstored] at hundisturbed
        exact hstays hundisturbed
      · intro entry _ _
        by_cases heq : entry = item.1
        · subst heq
          rw [hself]
          exact hclears.amountOf_eq hserved
        · rw [hclears.others.amount heq,numbersOf_single heq]
          rfl
  · have hzero : ∀ entry, 0 < entry → ∀ k ∈ numbersOf entry [item], k = 0 := by
      intro entry hentry k hk
      obtain ⟨item',hitem',rfl⟩ := List.mem_map.mp hk
      obtain ⟨hmem,hitem'⟩ := List.mem_filter.mp hitem'
      rw [List.mem_singleton.mp hmem] at hitem' ⊢
      have heq : item.1 = entry := by simpa using hitem'
      omega
    have hsame : p.destroyEach S Q moment inTrade (depth+1) [item] = p := by
      unfold Player.destroyEach
      rw [List.foldl_cons,List.foldl_nil,if_neg hasked]
    rw [hsame]
    refine ⟨DrawsEach.refl hinv hzero,fun _ => rfl,
      fun _ => ⟨DrawsEach.refl hinv hzero,Stays.refl _ _,?_⟩⟩
    intro entry hentry _
    rw [List.sum_eq_zero (hzero entry hentry),Nat.sub_zero]

theorem takesAway_destroyEach (hinv : p.inv.Stacked S) (hsorts : Sorts S E items p)
    (hdata : p.quests.questStatus questId = some data)
    (hquiet : Quiet S Q moment inTrade E questId data items p)
    (hserved : p.AllServed S Q moment inTrade (depth+1) questId items) :
    TakesAway S moment inTrade questId items p (p.destroyEach S Q moment inTrade (depth+1) items) := by
  induction items generalizing p with
  | nil =>
    refine ⟨DrawsEach.refl hinv (by simp [numbersOf]),Stays.refl _ _,fun _ _ _ => ?_⟩
    exact (Nat.sub_zero _).symm
  | cons item items ih =>
    obtain ⟨hfirst,hrest⟩ := hserved
    obtain ⟨hitem,hitems⟩ := List.forall_mem_cons.mp hsorts.covered
    obtain ⟨heach,hslots,htakes⟩ :=
      takesAway_single hinv ⟨hsorts.plain,by simpa using hitem⟩ hdata hfirst depth
    have hquiet := (quiet_cons heach hslots hsorts.plain).mp hquiet
    have htakes := htakes hquiet.1
    have hlater := ih heach.stacked
      ⟨fun entry hE => ⟨(hsorts.plain entry hE).1,heach.entries.plain (hsorts.plain entry hE).2⟩,
        hitems⟩
      (htakes.stays.status.trans hdata) hquiet.2 hrest
    exact htakes.trans hlater

theorem allServed_of_asked (hinv : p.inv.Stacked S) (hasked : Asked S p.inv items) (depth : Nat) :
    p.AllServed S Q moment inTrade (depth+1) questId items := by
  induction items generalizing p with
  | nil => trivial
  | cons item items ih =>
    obtain ⟨hitem,hitems⟩ := asked_cons hasked
    have hfirst : DrawsEach S moment inTrade [item] p
        (p.destroyEach S Q moment inTrade (depth+1) [item]) := drawsEach_single hinv hitem depth
    exact ⟨fun hentry hcount => .inl (hitem item List.mem_cons_self hentry hcount).1,
      ih hfirst.stacked (hitems.of_entries hfirst.entries)⟩

theorem allServed_skip {item : Nat × Nat} (h : item.1 = 0 ∨ item.2 = 0) :
    p.AllServed S Q moment inTrade depth questId (item :: items) ↔
      p.AllServed S Q moment inTrade depth questId items := by
  have hsame : p.destroyEach S Q moment inTrade depth [item] = p := by
    unfold Player.destroyEach
    rw [List.foldl_cons,List.foldl_nil,if_neg (by omega)]
  rw [Player.AllServed,hsame]
  exact and_iff_right fun hentry hcount => by omega

theorem tidy_iff {inv : Inventory} : inv.Tidy S entry ↔
    ∀ pos ∈ places, ∀ item ∈ inv.itemAt S pos, item.entry = entry → isBagPos pos = false →
      inv.isNotEmptyBag S item = false :=
  ⟨fun h pos _ item hitem => h pos item hitem,
    fun h pos item hitem => h pos (mem_places (valid_of_itemAt hitem)) item hitem⟩

end Served

end TrinityCore.Players
