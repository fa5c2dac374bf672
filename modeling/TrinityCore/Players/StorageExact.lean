import TrinityCore.Players.StoragePlan

set_option autoImplicit false

namespace TrinityCore.Players

open Slots

section Places

variable {S : ItemStore} {inv : Inventory} {req : StoreRequest} {pos : Pos}

def isInventoryPos (bag slot : Nat) : Bool :=
  (bag == inventorySlotBag0 && slot == nullSlot) ||
  (bag == inventorySlotBag0 &&
    (decide (slot ≥ inventorySlotItemStart) && decide (slot < inventorySlotItemEnd))) ||
  (decide (bag ≥ inventorySlotBagStart) && decide (bag < inventorySlotBagEnd)) ||
  (bag == inventorySlotBag0 &&
    (decide (slot ≥ keyringSlotStart) && decide (slot < currencytokenSlotEnd)))

/-- An empty slot takes items of this kind. It is the slot or in the bag that is asked for, or it
is one of the inventory. -/
def Inventory.Legal (S : ItemStore) (inv : Inventory) (bag slot : Nat) (pProto : ItemTemplate)
    (pos : Pos) : Prop :=
  inv.goesInto S pProto pos = true ∧
    (pos = (bag,slot) ∨ (bag ≠ inventorySlotBag0 ∧ pos.1 = bag) ∨
      isInventoryPos pos.1 pos.2 = true)

/-- A slot with room for the item: a legal empty slot or a stack that is not full. -/
def Inventory.HasRoom (S : ItemStore) (inv : Inventory) (bag slot : Nat) (pProto : ItemTemplate)
    (pos : Pos) : Prop :=
  match inv.getItemByPos S pos.1 pos.2 with
  | none => inv.Legal S bag slot pProto pos
  | some it => it.entry = pProto.itemId ∧ it.count < pProto.getMaxStackSize

theorem seen_none : inv.seen S none pos = inv.getItemByPos S pos.1 pos.2 := by
  unfold Inventory.seen
  cases inv.getItemByPos S pos.1 pos.2 <;> rfl

theorem hasRoom_of_merge {bag slot : Nat} {pProto : ItemTemplate}
    (h : inv.usable S pProto true none pos = true) : inv.HasRoom S bag slot pProto pos := by
  unfold Inventory.usable at h
  unfold Inventory.HasRoom
  rw [seen_none] at h
  cases hitem : inv.getItemByPos S pos.1 pos.2 with
  | none => simp [hitem] at h
  | some it =>
    rw [hitem] at h
    simp only [Bool.true_and,beq_iff_eq] at h
    unfold Item.canBeMergedPartlyWith at h
    split_ifs at h with h1 h2 h3
    exact ⟨not_not.mp h2,not_le.mp h3⟩

theorem empty_of_free {pProto : ItemTemplate} (h : inv.usable S pProto false none pos = true) :
    inv.getItemByPos S pos.1 pos.2 = none := by
  unfold Inventory.usable at h
  rw [seen_none] at h
  cases hitem : inv.getItemByPos S pos.1 pos.2 with
  | none => rfl
  | some it => simp [hitem] at h

theorem hasRoom_of_free {bag slot : Nat} {pProto : ItemTemplate}
    (h : inv.usable S pProto false none pos = true) (hlegal : inv.Legal S bag slot pProto pos) :
    inv.HasRoom S bag slot pProto pos := by
  unfold Inventory.HasRoom
  rw [empty_of_free h]
  exact hlegal

theorem mem_slotsInPlayer {slotBegin slotEnd : Nat} {merge : Bool}
    (h : pos ∈ inv.slotsInPlayer S req slotBegin slotEnd merge) :
    pos.1 = inventorySlotBag0 ∧ slotBegin ≤ pos.2 ∧ pos.2 < slotEnd ∧
      inv.usable S req.pProto merge req.pItem pos = true := by
  obtain ⟨hmem,husable⟩ := List.mem_filter.mp h
  obtain ⟨j,hj,rfl⟩ := List.mem_map.mp hmem
  have hrange := List.mem_range'_1.mp (List.mem_of_mem_filter hj)
  exact ⟨rfl,hrange.1,by omega,husable⟩

theorem hasRoom_player {slotBegin slotEnd : Nat} {merge : Bool} (hitem : req.pItem = none)
    (h : pos ∈ inv.slotsInPlayer S req slotBegin slotEnd merge)
    (hgoes : merge = false → pos.1 = inventorySlotBag0 → slotBegin ≤ pos.2 → pos.2 < slotEnd →
      inv.goesInto S req.pProto pos = true ∧ isInventoryPos pos.1 pos.2 = true) :
    inv.HasRoom S req.bag req.slot req.pProto pos := by
  obtain ⟨hbag,hge,hlt,husable⟩ := mem_slotsInPlayer h
  rw [hitem] at husable
  cases merge with
  | true => exact hasRoom_of_merge husable
  | false =>
    obtain ⟨hgoes,hinventory⟩ := hgoes rfl hbag hge hlt
    exact hasRoom_of_free husable ⟨hgoes,.inr (.inr hinventory)⟩

theorem goesInto_player {pProto : ItemTemplate} (hbag : pos.1 = inventorySlotBag0)
    (hkey : pos.2 ≥ keyringSlotStart → pos.2 < keyringSlotEnd → pProto.isKey = true)
    (htoken : pos.2 ≥ currencytokenSlotStart → pos.2 < currencytokenSlotEnd →
      pProto.isCurrencyToken = true)
    (hrange : (pos.2 < buybackSlotStart ∨ buybackSlotEnd ≤ pos.2) ∧ pos.2 < playerSlotEnd) :
    inv.goesInto S pProto pos = true := by
  unfold Inventory.goesInto
  rw [if_pos hbag,if_neg,if_neg,if_neg]
  · omega
  · rintro ⟨hge,hlt,hno⟩
    simp [htoken hge hlt] at hno
  · rintro ⟨hge,hlt,hno⟩
    simp [hkey hge (by simpa [getMaxKeyringSize,keyringSlotStart,keyringSlotEnd] using hlt)] at hno

theorem isInventoryPos_player {bag slot : Nat} (hbag : bag = inventorySlotBag0)
    (h : (inventorySlotItemStart ≤ slot ∧ slot < inventorySlotItemEnd) ∨
      (keyringSlotStart ≤ slot ∧ slot < currencytokenSlotEnd)) : isInventoryPos bag slot = true := by
  unfold isInventoryPos
  rcases h with ⟨h1,h2⟩ | ⟨h1,h2⟩ <;> simp [hbag,h1,h2]

theorem hasRoom_backpack (hitem : req.pItem = none) {merge : Bool}
    (h : pos ∈ inv.slotsInBackpack S req merge) : inv.HasRoom S req.bag req.slot req.pProto pos := by
  refine hasRoom_player hitem h fun _ hbag hge hlt => ⟨?_,isInventoryPos_player hbag (.inl ⟨hge,hlt⟩)⟩
  simp only [inventorySlotItemStart,inventorySlotItemEnd] at hge hlt
  refine goesInto_player hbag ?_ ?_ ?_
  all_goals
    simp only [keyringSlotStart,currencytokenSlotStart,buybackSlotStart,playerSlotEnd]
    omega

theorem hasRoom_keyring (hitem : req.pItem = none) (hkey : req.pProto.isKey = true)
    (h : pos ∈ inv.slotsInKeyring S req) : inv.HasRoom S req.bag req.slot req.pProto pos := by
  refine hasRoom_player hitem h fun _ hbag hge hlt => ?_
  have hlt' : pos.2 < keyringSlotEnd := by
    simpa [getMaxKeyringSize,keyringSlotStart,keyringSlotEnd] using hlt
  simp only [keyringSlotStart,keyringSlotEnd] at hge hlt'
  refine ⟨goesInto_player hbag (fun _ _ => hkey) ?_ ?_,isInventoryPos_player hbag (.inr ⟨hge,?_⟩)⟩
  all_goals
    simp only [currencytokenSlotStart,buybackSlotEnd,playerSlotEnd,currencytokenSlotEnd]
    omega

theorem hasRoom_tokens (hitem : req.pItem = none) (htoken : req.pProto.isCurrencyToken = true)
    (h : pos ∈ inv.slotsInTokens S req) : inv.HasRoom S req.bag req.slot req.pProto pos := by
  refine hasRoom_player hitem h fun _ hbag hge hlt => ?_
  simp only [currencytokenSlotStart,currencytokenSlotEnd] at hge hlt
  refine ⟨goesInto_player hbag ?_ (fun _ _ => htoken) ?_,isInventoryPos_player hbag (.inr ⟨?_,hlt⟩)⟩
  all_goals
    simp only [keyringSlotStart,keyringSlotEnd,buybackSlotEnd,playerSlotEnd]
    omega

theorem hasRoom_stacks (hitem : req.pItem = none) (h : pos ∈ inv.stacksInPlayerSlots S req) :
    inv.HasRoom S req.bag req.slot req.pProto pos := by
  rcases List.mem_append.mp h with h | h
  · exact hasRoom_player hitem h (fun hmerge => by simp at hmerge)
  · exact hasRoom_backpack hitem h

theorem hasRoom_bag (hitem : req.pItem = none) {bag : Nat} {merge : Bool}
    (htakes : inv.bagTakes S req bag = true) (hbag : bag ≠ inventorySlotBag0)
    (hplace : bag = req.bag ∨ (inventorySlotBagStart ≤ bag ∧ bag < inventorySlotBagEnd))
    (h : pos ∈ inv.slotsInBag S req bag merge) :
    inv.HasRoom S req.bag req.slot req.pProto pos := by
  unfold Inventory.slotsInBag at h
  unfold Inventory.bagTakes at htakes
  cases hb : inv.getBagByPos S bag with
  | none => simp [hb] at h
  | some pBag =>
    rw [hb] at h htakes
    dsimp only at h htakes
    cases hp : S.getItemTemplate pBag.entry with
    | none => simp [hp] at htakes
    | some pBagProto =>
      rw [hp] at htakes
      obtain ⟨hmem,husable⟩ := List.mem_filter.mp h
      obtain ⟨j,hj,rfl⟩ := List.mem_map.mp hmem
      rw [hitem] at husable
      cases merge with
      | true => exact hasRoom_of_merge husable
      | false =>
        have hsize : j < pBagProto.containerSlots := by
          simpa [Item.getBagSize,hp] using List.mem_range.mp (List.mem_of_mem_filter hj)
        have hgoes : inv.goesInto S req.pProto (bag,j) = true := by
          simp only [Bool.and_eq_true] at htakes
          unfold Inventory.goesInto
          rw [if_neg hbag]
          simp [hb,hp,hsize,htakes.2]
        refine hasRoom_of_free husable ⟨hgoes,.inr ?_⟩
        rcases hplace with rfl | hplace
        · exact .inl ⟨hbag,rfl⟩
        · exact .inr (by simp [isInventoryPos,hplace])

theorem hasRoom_bags (hitem : req.pItem = none) {merge nonSpecialized : Bool}
    (h : pos ∈ inv.slotsInBags S req merge nonSpecialized) :
    inv.HasRoom S req.bag req.slot req.pProto pos := by
  obtain ⟨i,hi,hpos⟩ := List.mem_flatMap.mp h
  have hrange := List.mem_range'_1.mp hi
  simp only [inventorySlotBagStart,inventorySlotBagEnd] at hrange
  unfold Inventory.slotsInOtherBag at hpos
  split_ifs at hpos with huse
  · refine hasRoom_bag hitem huse.2.1 ?_ (.inr ?_) hpos
    all_goals
      simp only [inventorySlotBag0,inventorySlotBagStart,inventorySlotBagEnd]
      omega
  · simp at hpos

theorem hasRoom_anywhere (hitem : req.pItem = none) (h : pos ∈ inv.slotsAnywhere S req) :
    inv.HasRoom S req.bag req.slot req.pProto pos := by
  unfold Inventory.slotsAnywhere at h
  simp only [List.mem_append] at h
  rcases h with h | h | h | h
  · split_ifs at h
    · simp only [List.mem_append] at h
      rcases h with h | h | h
      · exact hasRoom_stacks hitem h
      · exact hasRoom_bags hitem h
      · exact hasRoom_bags hitem h
    · simp only [List.mem_append] at h
      rcases h with h | h | h
      · exact hasRoom_stacks hitem h
      · simp at h
      · exact hasRoom_bags hitem h
    · simp at h
  · split_ifs at h with _ hkey htoken
    · rcases List.mem_append.mp h with h | h
      · exact hasRoom_keyring hitem hkey h
      · exact hasRoom_bags hitem h
    · rcases List.mem_append.mp h with h | h
      · exact hasRoom_tokens hitem htoken h
      · exact hasRoom_bags hitem h
    · rcases List.mem_append.mp h with h | h
      · simp at h
      · exact hasRoom_bags hitem h
    · simp at h
  · exact hasRoom_backpack hitem h
  · exact hasRoom_bags hitem h

end Places

section Exact

variable {S : ItemStore} {inv : Inventory} {req : StoreRequest} {pos : Pos} {bag slot item count : Nat}

def Inventory.room (S : ItemStore) (inv : Inventory) (req : StoreRequest) (ps : List Pos) : Nat :=
  ∑ p ∈ ps.toFinset, inv.needSpace S req.pProto req.pItem p

/-- The slots before the tokens, when a key is put into the slots of the player. -/
def Inventory.reachBeforeTokens (S : ItemStore) (inv : Inventory) (req : StoreRequest) : List Pos :=
  (if req.specific then [(req.bag,req.slot)] else []) ++
    (inv.stacksInSpecificBag S req ++ inv.slotsInKeyring S req)

structure Inventory.SpillsKeys (S : ItemStore) (inv : Inventory) (req : StoreRequest) (count : Nat) :
    Prop where
  bag : req.bag = inventorySlotBag0
  key : req.pProto.isKey = true
  noToken : req.pProto.isCurrencyToken = false
  slot : req.specific → inv.slotTakes S req = true
  free : inv.slotsInTokens S req ≠ []
  short : inv.room S req (inv.reachBeforeTokens S req) < count

theorem hasRoom_specific (hitem : req.pItem = none) (htakes : inv.slotTakes S req = true) :
    inv.HasRoom S req.bag req.slot req.pProto (req.bag,req.slot) := by
  unfold Inventory.slotTakes at htakes
  unfold Inventory.HasRoom
  rw [hitem,seen_none] at htakes
  cases hpos : inv.getItemByPos S req.bag req.slot with
  | none =>
    simp only [hpos] at htakes
    exact ⟨htakes,.inl rfl⟩
  | some it =>
    simp only [hpos,beq_iff_eq] at htakes
    unfold Item.canBeMergedPartlyWith at htakes
    split_ifs at htakes with h1 h2 h3
    exact ⟨not_not.mp h2,not_le.mp h3⟩

theorem hasRoom_specific_list (hitem : req.pItem = none)
    (htakes : req.specific → inv.slotTakes S req = true)
    (h : pos ∈ (if req.specific then [(req.bag,req.slot)] else [])) :
    inv.HasRoom S req.bag req.slot req.pProto pos := by
  split_ifs at h with hspec
  · obtain rfl := List.mem_singleton.mp h
    exact hasRoom_specific hitem (htakes hspec)
  · simp at h

theorem hasRoom_stacksInSpecificBag (hitem : req.pItem = none)
    (htakes : req.bag ≠ inventorySlotBag0 → inv.bagTakes S req req.bag = true)
    (h : pos ∈ inv.stacksInSpecificBag S req) :
    inv.HasRoom S req.bag req.slot req.pProto pos := by
  unfold Inventory.stacksInSpecificBag at h
  split_ifs at h with _ h0
  · exact hasRoom_stacks hitem h
  · exact hasRoom_bag hitem (htakes h0) h0 (.inl rfl) h
  · simp at h

theorem hasRoom_beforeTokens (hitem : req.pItem = none)
    (htakes : req.specific → inv.slotTakes S req = true) (h0 : req.bag = inventorySlotBag0)
    (hkey : req.pProto.isKey = true) (h : pos ∈ inv.reachBeforeTokens S req) :
    inv.HasRoom S req.bag req.slot req.pProto pos := by
  unfold Inventory.reachBeforeTokens at h
  simp only [List.mem_append] at h
  rcases h with h | h | h
  · exact hasRoom_specific_list hitem htakes h
  · exact hasRoom_stacksInSpecificBag hitem (fun hne => absurd h0 hne) h
  · exact hasRoom_keyring hitem hkey h

theorem reach_of_takes (htakes : req.specific → inv.slotTakes S req = true) :
    inv.reach S req =
      (if req.specific then [(req.bag,req.slot)] else []) ++ inv.reachFromBag S req :=
  if_neg fun h => h.2 (htakes h.1)

/-- The slots within reach have room, but for the tokens that a key is sent on to. -/
theorem hasRoom_reach (hitem : req.pItem = none) (h : pos ∈ inv.reach S req) :
    inv.HasRoom S req.bag req.slot req.pProto pos ∨
      (req.bag = inventorySlotBag0 ∧ req.pProto.isKey = true ∧
        req.pProto.isCurrencyToken = false ∧ pos ∈ inv.slotsInTokens S req) := by
  by_cases hslot : req.specific ∧ ¬ inv.slotTakes S req = true
  · have hnil : inv.reach S req = [] := if_pos hslot
    simp [hnil] at h
  have htakes : req.specific → inv.slotTakes S req = true :=
    fun hspec => by_contra fun hno => hslot ⟨hspec,hno⟩
  rw [reach_of_takes htakes] at h
  rcases List.mem_append.mp h with h | h
  · exact .inl (hasRoom_specific_list hitem htakes h)
  unfold Inventory.reachFromBag at h
  split_ifs at h with hbag hnull
  · simp at h
  · simp only [List.mem_append] at h
    have hbagTakes : req.bag ≠ inventorySlotBag0 → inv.bagTakes S req req.bag = true :=
      fun h0 => by_contra fun hno => hbag ⟨hnull,h0,hno⟩
    rcases h with (h | h) | h
    · exact .inl (hasRoom_stacksInSpecificBag hitem hbagTakes h)
    · unfold Inventory.freeInSpecificBagSlots at h
      split_ifs at h with h0
      · rcases List.mem_append.mp h with h | h
        · unfold Inventory.slotsInKeyringOrTokens at h
          split_ifs at h with hkey htoken
          · rcases List.mem_append.mp h with h | h
            · exact .inl (hasRoom_keyring hitem hkey h)
            · cases htoken : req.pProto.isCurrencyToken with
              | true => exact .inl (hasRoom_tokens hitem htoken h)
              | false => exact .inr ⟨h0,hkey,rfl,h⟩
          · exact .inl (hasRoom_tokens hitem htoken h)
          · simp at h
        · exact .inl (hasRoom_backpack hitem h)
      · exact .inl (hasRoom_bag hitem (hbagTakes h0) h0 (.inl rfl) h)
    · exact .inl (hasRoom_anywhere hitem h)
  · rw [List.nil_append] at h
    exact .inl (hasRoom_anywhere hitem h)

theorem reach_of_key (h0 : req.bag = inventorySlotBag0) (hkey : req.pProto.isKey = true)
    (htakes : req.specific → inv.slotTakes S req = true) :
    ∃ rest, inv.reach S req =
      inv.reachBeforeTokens S req ++ (inv.slotsInTokens S req ++ rest) := by
  refine ⟨inv.slotsInBackpack S req false ++ inv.slotsAnywhere S req,?_⟩
  have hnull : req.bag ≠ nullBag := by
    rw [h0]
    decide
  have hfree : inv.freeInSpecificBagSlots S req =
      (inv.slotsInKeyring S req ++ inv.slotsInTokens S req) ++ inv.slotsInBackpack S req false := by
    unfold Inventory.freeInSpecificBagSlots Inventory.slotsInKeyringOrTokens
    rw [if_pos h0,if_pos hkey]
  have hbag : inv.reachFromBag S req = (inv.stacksInSpecificBag S req ++
      inv.freeInSpecificBagSlots S req) ++ inv.slotsAnywhere S req := by
    unfold Inventory.reachFromBag
    rw [if_neg (fun h => h.2.1 h0),if_pos hnull]
  rw [reach_of_takes htakes,hbag,hfree,Inventory.reachBeforeTokens]
  simp only [List.append_assoc]

theorem not_hasRoom_tokens (hitem : req.pItem = none) (htoken : req.pProto.isCurrencyToken = false)
    (h : pos ∈ inv.slotsInTokens S req) :
    inv.getItemByPos S pos.1 pos.2 = none ∧ ¬ inv.Legal S req.bag req.slot req.pProto pos := by
  obtain ⟨hbag,hge,hlt,husable⟩ := mem_slotsInPlayer h
  rw [hitem] at husable
  refine ⟨empty_of_free husable,?_⟩
  rintro ⟨hgoes,-⟩
  unfold Inventory.goesInto at hgoes
  rw [if_pos hbag] at hgoes
  split_ifs at hgoes with h1 h2
  simp [hge,hlt,htoken] at h2

/-- A piece of a plan goes to a legal empty slot or onto a stack of its entry with room for it. -/
def Inventory.Placed (S : ItemStore) (inv : Inventory) (bag slot item : Nat) (e : Pos × Nat) : Prop :=
  ∃ pProto, S.getItemTemplate item = some pProto ∧
    match inv.getItemByPos S e.1.1 e.1.2 with
    | none => inv.Legal S bag slot pProto e.1
    | some it => it.entry = item ∧ it.count+e.2 ≤ pProto.getMaxStackSize

structure Inventory.Exact (S : ItemStore) (inv : Inventory) (bag slot item count : Nat)
    (report : CanStore) : Prop where
  distinct : (report.dest.map Prod.fst).Nodup
  placed : ∀ e ∈ report.dest, inv.Placed S bag slot item e
  sum : (report.dest.map Prod.snd).sum+report.noSpaceCount = count
  ok : report.result = .ok ↔ report.noSpaceCount = 0

/-- The player has more than a limit allows even before more are asked for. -/
def Inventory.AboveLimit (S : ItemStore) (inv : Inventory) (pProto : ItemTemplate) (count : Nat) :
    Prop :=
  pProto.maxCount ≠ 2147483647 ∧
    if pProto.maxCount > 0 ∧
        (inv.getItemCount S pProto.itemId true none+count)%2^32 > pProto.maxCount.toNat then
      pProto.maxCount.toNat < inv.getItemCount S pProto.itemId true none ∧
        inv.getItemCount S pProto.itemId true none+count < 2^32
    else
      pProto.itemLimitCategory ≠ 0 ∧
        ∃ limitEntry, S.lookupLimitCategory pProto.itemLimitCategory = some limitEntry ∧
          limitEntry.mode = .have ∧
          limitEntry.maxCount <
            inv.getItemCountWithLimitCategory S pProto.itemLimitCategory none ∧
          inv.getItemCountWithLimitCategory S pProto.itemLimitCategory none+count < 2^32

/-- How many of those asked for the limits leave, as the code computes it. -/
def Inventory.allowed (S : ItemStore) (inv : Inventory) (item count : Nat) : Nat :=
  sub32 count (inv.canTakeMoreSimilarItems S item count none).2

def Inventory.newRequest (S : ItemStore) (inv : Inventory) (bag slot item count : Nat)
    (pProto : ItemTemplate) : StoreRequest :=
  ⟨pProto,none,bag,slot,(inv.canTakeMoreSimilarItems S item count none).2⟩

/-- A player above a limit has too little space for what is asked for, and no key is sent on to the
slots of the tokens. -/
def Inventory.StorageFits (S : ItemStore) (inv : Inventory) (bag slot item count : Nat) : Prop :=
  ∀ pProto, S.getItemTemplate item = some pProto →
    (inv.AboveLimit S pProto count →
      inv.room S (inv.newRequest S bag slot item count pProto)
        (inv.reach S (inv.newRequest S bag slot item count pProto)) < count) ∧
    ¬ inv.SpillsKeys S (inv.newRequest S bag slot item count pProto) (inv.allowed S item count)

theorem getItemCount_lt (S : ItemStore) (inv : Inventory) (item : Nat) (inBankAlso : Bool)
    (skipItem : Option Item) : inv.getItemCount S item inBankAlso skipItem < 2^32 :=
  Nat.mod_lt _ (by decide)

theorem getItemCountWithLimitCategory_lt (S : ItemStore) (inv : Inventory) (limitCategory : Nat)
    (skipItem : Option Item) : inv.getItemCountWithLimitCategory S limitCategory skipItem < 2^32 :=
  Nat.mod_lt _ (by decide)

/-- One limit: what it does not allow is more than what is asked for exactly when the player is
above it already. -/
theorem excess_iff {held max : Nat} (hheld : held < 2^32) (hcount : count < 2^32)
    (h : (held+count)%2^32 > max) :
    sub32 ((count+held)%2^32) max < 2^32 ∧
      (count < sub32 ((count+held)%2^32) max ↔ max < held ∧ held+count < 2^32) := by
  unfold sub32
  rw [Nat.add_comm count held]
  omega

theorem canTakeMoreSimilarItems_spec (inv : Inventory) {pProto : ItemTemplate}
    (hp : S.getItemTemplate item = some pProto) (hcount : count < 2^32) :
    ((inv.canTakeMoreSimilarItems S item count none).1 = .ok →
      (inv.canTakeMoreSimilarItems S item count none).2 = 0) ∧
    (inv.canTakeMoreSimilarItems S item count none).2 < 2^32 ∧
    (count < (inv.canTakeMoreSimilarItems S item count none).2 ↔ inv.AboveLimit S pProto count) := by
  have hheld := getItemCount_lt S inv pProto.itemId true none
  have hcategory := getItemCountWithLimitCategory_lt S inv pProto.itemLimitCategory none
  unfold Inventory.canTakeMoreSimilarItems Inventory.AboveLimit
  rw [hp]
  dsimp only
  rw [if_neg (by simp)]
  by_cases hno : (pProto.maxCount ≤ 0 ∧ pProto.itemLimitCategory = 0) ∨ pProto.maxCount = 2147483647
  · rw [if_pos hno]
    refine ⟨fun _ => rfl,by decide,⟨fun h => by simp at h,?_⟩⟩
    rintro ⟨hmax,hlimit⟩
    obtain ⟨hle,hcat⟩ := hno.resolve_right hmax
    rw [if_neg (by omega)] at hlimit
    exact absurd hcat hlimit.1
  rw [if_neg hno]
  rw [not_or] at hno
  by_cases hmax : pProto.maxCount > 0 ∧
      (inv.getItemCount S pProto.itemId true none+count)%2^32 > pProto.maxCount.toNat
  · rw [if_pos hmax,if_pos hmax]
    obtain ⟨hlt,hiff⟩ := excess_iff hheld hcount hmax.2
    refine ⟨fun h => by simp at h,hlt,hiff.trans ?_⟩
    simp [hno.2]
  rw [if_neg hmax,if_neg hmax]
  by_cases hcat : pProto.itemLimitCategory ≠ 0
  · rw [if_pos hcat]
    cases hlimit : S.lookupLimitCategory pProto.itemLimitCategory with
    | none => simpa using hcount
    | some limitEntry =>
      dsimp only
      by_cases hover : limitEntry.mode = .have ∧ (inv.getItemCountWithLimitCategory S
          pProto.itemLimitCategory none+count)%2^32 > limitEntry.maxCount
      · rw [if_pos hover]
        obtain ⟨hlt,hiff⟩ := excess_iff hcategory hcount hover.2
        refine ⟨fun h => by simp at h,hlt,hiff.trans ?_⟩
        simp [hno.2,hcat,hover.1]
      · rw [if_neg hover]
        refine ⟨fun _ => rfl,by decide,⟨fun h => by simp at h,?_⟩⟩
        rintro ⟨-,-,limitEntry',hlookup,hmode,hheld',hsum⟩
        cases hlookup
        exact absurd ⟨hmode,by omega⟩ hover
  · rw [if_neg hcat]
    refine ⟨fun _ => rfl,by decide,⟨fun h => by simp at h,?_⟩⟩
    rintro ⟨-,hcat',-⟩
    exact absurd hcat' hcat

theorem Reports_spec {plan : Plan Pos} {report : CanStore} (h : req.Reports plan report) :
    report.dest = plan.pieces ∧
      ((report.result = .ok ↔ plan.left = 0 ∧ req.noSimilarCount = 0) ∧
        report.noSpaceCount = (plan.left+req.noSimilarCount)%2^32) := by
  by_cases hleft : plan.left = 0
  · rw [h.placed hleft]
    unfold StoreRequest.nothingLeft
    split_ifs with hn
    · simp [hleft,hn]
    · simp [StoreRequest.failed,hn]
  · obtain ⟨res,hres,hreport⟩ := h.short hleft
    rw [hreport]
    simp [StoreRequest.failed,hleft,hres]

def Inventory.newPlan (S : ItemStore) (inv : Inventory) (req : StoreRequest) (n : Nat) : Plan Pos :=
  (⟨n,[]⟩ : Plan Pos).fill (inv.needSpace S req.pProto req.pItem) (inv.reach S req)

theorem newPlan_sound (S : ItemStore) (inv : Inventory) (req : StoreRequest) (n : Nat) :
    (inv.newPlan S req n).Sound (fun p k => k ≤ inv.needSpace S req.pProto req.pItem p) n :=
  (Plan.sound_nil _ n).fill fun _ _ _ hk => hk

theorem room_eq_capacity (n : Nat) (ps : List Pos) :
    (⟨n,[]⟩ : Plan Pos).capacity (inv.needSpace S req.pProto req.pItem) ps = inv.room S req ps := by
  simp [Plan.capacity,Inventory.room]

theorem newPlan_left (S : ItemStore) (inv : Inventory) (req : StoreRequest) (n : Nat) :
    (inv.newPlan S req n).left = n-inv.room S req (inv.reach S req) := by
  rw [Inventory.newPlan,Plan.fill_left,room_eq_capacity]

theorem placed_of_hasRoom {pProto : ItemTemplate} {e : Pos × Nat}
    (hp : S.getItemTemplate item = some pProto) (hroom : inv.HasRoom S bag slot pProto e.1)
    (hle : e.2 ≤ inv.needSpace S pProto none e.1) : inv.Placed S bag slot item e := by
  refine ⟨pProto,hp,?_⟩
  unfold Inventory.HasRoom at hroom
  unfold Inventory.needSpace at hle
  rw [seen_none] at hle
  cases hitem : inv.getItemByPos S e.1.1 e.1.2 with
  | none => simpa [hitem] using hroom
  | some it =>
    simp only [hitem] at hroom hle ⊢
    exact ⟨hroom.1.trans (S.itemId_eq _ _ hp),by omega⟩

/-- The pieces of the plan are all well placed unless a key is sent on to the tokens. -/
theorem newPlan_placed_iff (inv : Inventory) (req : StoreRequest) {pProto : ItemTemplate}
    (hp : S.getItemTemplate item = some pProto) {n : Nat} (hn : n ≠ 0) (hitem : req.pItem = none) (hproto : req.pProto = pProto) :
    (∀ e ∈ (inv.newPlan S req n).pieces, inv.Placed S req.bag req.slot item e) ↔
      ¬ inv.SpillsKeys S req n := by
  subst hproto
  constructor
  · intro hplaced hspill
    obtain ⟨rest,hreach⟩ := reach_of_key hspill.bag hspill.key hspill.slot
    obtain ⟨token,tokens,htokens⟩ := List.exists_cons_of_ne_nil hspill.free
    have hleft : ((⟨n,[]⟩ : Plan Pos).fill (inv.needSpace S req.pProto req.pItem)
        (inv.reachBeforeTokens S req)).left ≠ 0 := by
      have hshort := hspill.short
      rw [Plan.fill_left,room_eq_capacity]
      dsimp only
      omega
    -- something is left when the first token is reached
    have hused : token ∈ (inv.newPlan S req n).pieces.map Prod.fst := by
      rw [Inventory.newPlan,hreach,Plan.fill_append hleft,htokens,List.cons_append]
      exact Plan.head_mem_fill
    obtain ⟨e,he,htoken⟩ := List.mem_map.mp hused
    have hmem : e.1 ∈ inv.slotsInTokens S req := by
      rw [htoken,htokens]
      exact List.mem_cons_self
    obtain ⟨hempty,hillegal⟩ := not_hasRoom_tokens hitem hspill.noToken hmem
    obtain ⟨pProto',hp',hplace⟩ := hplaced e he
    obtain rfl : req.pProto = pProto' := Option.some.inj (hp.symm.trans hp')
    rw [hempty] at hplace
    exact hillegal hplace
  · intro hspill e he
    have hle : e.2 ≤ inv.needSpace S req.pProto none e.1 := by
      rw [← hitem]
      exact (newPlan_sound S inv req n).fits e he
    have hmem : e.1 ∈ inv.reach S req := (Plan.mem_fill he).resolve_left (by simp)
    rcases hasRoom_reach hitem hmem with hroom | ⟨h0,hkey,htoken,htokens⟩
    · exact placed_of_hasRoom hp hroom hle
    · -- the slots before the tokens have room for all, so no token is used
      have htakes : req.specific → inv.slotTakes S req = true := by
        intro hspec
        by_contra hno
        have hnil : inv.reach S req = [] := if_pos ⟨hspec,hno⟩
        simp [hnil] at hmem
      have hroom : n ≤ inv.room S req (inv.reachBeforeTokens S req) := by
        by_contra hlt
        exact hspill ⟨h0,hkey,htoken,htakes,List.ne_nil_of_mem htokens,not_le.mp hlt⟩
      obtain ⟨rest,hreach⟩ := reach_of_key h0 hkey htakes
      have hleft : ((⟨n,[]⟩ : Plan Pos).fill (inv.needSpace S req.pProto req.pItem)
          (inv.reachBeforeTokens S req)).left = 0 := by
        rw [Plan.fill_left,room_eq_capacity]
        exact Nat.sub_eq_zero_of_le hroom
      rw [Inventory.newPlan,hreach,Plan.fill_append_done hn hleft] at he
      have hbefore : e.1 ∈ inv.reachBeforeTokens S req := (Plan.mem_fill he).resolve_left (by simp)
      exact placed_of_hasRoom hp (hasRoom_beforeTokens hitem htakes h0 hkey hbefore) hle

theorem amounts_iff {n similar room placed left : Nat} (hcount : 1 ≤ count) (hlt : count < 2^32)
    (hsimilar : similar < 2^32) (hn : n = sub32 count similar) (hleft : left = n-room)
    (hplaced : placed+left = n) :
    (placed+(left+similar)%2^32 = count ∧ (left = 0 ∧ similar = 0 ↔ (left+similar)%2^32 = 0)) ↔
      (count < similar → room < count) := by
  unfold sub32 at hn
  omega

/-- The plan for a new item is exact if and only if the limits and the keyring don't spoil it. -/
theorem canStoreNewItem_exact_iff (hcount : 1 ≤ count) (hlt : count < 2^32) :
    inv.Exact S bag slot item count (inv.canStoreNewItem S bag slot [] item count) ↔
      inv.StorageFits S bag slot item count := by
  unfold Inventory.canStoreNewItem Inventory.canStoreItem Inventory.StorageFits
  cases hp : S.getItemTemplate item with
  | none =>
    refine ⟨fun _ pProto h => by simp at h,fun _ => ⟨by simp,by simp,by simp,?_⟩⟩
    simp
    omega
  | some pProto =>
    have hentry : pProto.itemId = item := S.itemId_eq _ _ hp
    obtain ⟨hok,hsimilar,habove⟩ := canTakeMoreSimilarItems_spec inv hp hlt
    simp only [Option.any_none,Bool.false_eq_true,if_false,Option.some.injEq,forall_eq']
    by_cases hall : (inv.canTakeMoreSimilarItems S item count none).1 ≠ .ok ∧
        count = (inv.canTakeMoreSimilarItems S item count none).2
    · -- the limits allow nothing at all
      rw [if_pos hall,← hall.2]
      have hallowed : inv.allowed S item count = 0 := by
        rw [Inventory.allowed,← hall.2,sub32]
        omega
      constructor
      · intro _
        refine ⟨fun h => ?_,fun h => ?_⟩
        · rw [← habove,← hall.2] at h
          exact absurd h (lt_irrefl _)
        · have hshort := h.short
          rw [hallowed] at hshort
          exact absurd hshort (Nat.not_lt_zero _)
      · intro _
        refine ⟨by simp,by simp,by simp,?_⟩
        simp only [hall.1,false_iff]
        omega
    · rw [if_neg hall]
      have hleft : (if (inv.canTakeMoreSimilarItems S item count none).1 ≠ .ok then
          sub32 count (inv.canTakeMoreSimilarItems S item count none).2 else count) =
          inv.allowed S item count := by
        unfold Inventory.allowed
        split_ifs with hres
        · rfl
        · rw [hok (not_not.mp hres),sub32]
          omega
      have hne : inv.allowed S item count ≠ 0 := by
        intro hzero
        rw [Inventory.allowed,sub32] at hzero
        refine hall ⟨fun hres => ?_,?_⟩
        · have := hok hres
          omega
        · omega
      rw [hleft]
      have hreports : (inv.newRequest S bag slot item count pProto).Reports
          (inv.newPlan S (inv.newRequest S bag slot item count pProto) (inv.allowed S item count))
          (inv.search S (inv.newRequest S bag slot item count pProto) false
            ⟨inv.allowed S item count,[]⟩) := search_reports rfl hne
      obtain ⟨hdest,hresult,hspace⟩ := Reports_spec hreports
      have hplaced := newPlan_placed_iff inv (inv.newRequest S bag slot item count pProto) hp hne
        rfl rfl
      have hsound := newPlan_sound S inv (inv.newRequest S bag slot item count pProto)
        (inv.allowed S item count)
      have hroom := newPlan_left S inv (inv.newRequest S bag slot item count pProto)
        (inv.allowed S item count)
      have hamounts := amounts_iff hcount hlt hsimilar (rfl : inv.allowed S item count = _) hroom
        hsound.sum
      rw [habove] at hamounts
      change inv.Exact S bag slot item count
        (inv.search S (inv.newRequest S bag slot item count pProto) false
          ⟨inv.allowed S item count,[]⟩) ↔ _
      generalize inv.search S (inv.newRequest S bag slot item count pProto) false
        ⟨inv.allowed S item count,[]⟩ = report at hdest hresult hspace ⊢
      constructor
      · rintro ⟨-,hpieces,hsum,hzero⟩
        rw [hdest] at hpieces hsum
        rw [hspace] at hsum hzero
        exact ⟨hamounts.mp ⟨hsum,hresult.symm.trans hzero⟩,hplaced.mp hpieces⟩
      · rintro ⟨hlimit,hspill⟩
        obtain ⟨hsum,hzero⟩ := hamounts.mpr hlimit
        refine ⟨hdest ▸ hsound.distinct,hdest ▸ hplaced.mpr hspill,?_,?_⟩
        · rw [hdest,hspace]
          exact hsum
        · rw [hspace]
          exact hresult.trans hzero

def trinket : ItemTemplate :=
  ⟨1,4,0,false,12,1,1,0,0,0,0#32,0,by decide⟩

def trinketStore : ItemStore where
  getItemTemplate entry := if entry = 1 then some trinket else none
  lookupLimitCategory _ := none
  itemId_eq entry t h := by
    split_ifs at h with heq
    cases h
    exact heq.symm

def trinketItem (guid : Nat) : Item := ⟨guid,1,1,1,false,none,false,[]⟩

def twoTrinkets : Inventory :=
  ⟨1,fun slot => if slot = 23 then some (trinketItem 10) else
    if slot = 24 then some (trinketItem 11) else none,fun _ _ => none⟩

def Inventory.StacksWf (S : ItemStore) (inv : Inventory) : Prop :=
  ∀ bag slot it, inv.getItemByPos S bag slot = some it →
    ∃ t, S.getItemTemplate it.entry = some t ∧ 1 ≤ it.count ∧ it.count ≤ t.getMaxStackSize

theorem twoTrinkets_wf : twoTrinkets.StacksWf trinketStore := by
  intro bag slot it h
  have hit : it.entry = 1 ∧ it.count = 1 := by
    unfold Inventory.getItemByPos at h
    split_ifs at h with hslot
    · simp only [twoTrinkets] at h
      split_ifs at h <;> cases h <;> exact ⟨rfl,rfl⟩
    · have hempty : ∀ guid slot, twoTrinkets.bagslot guid slot = none := fun _ _ => rfl
      cases hb : twoTrinkets.getBagByPos trinketStore bag with
      | none => simp [hb] at h
      | some pBag => simp [hb,hempty] at h
  refine ⟨trinket,?_,?_⟩
  · simp [trinketStore,hit.1]
  · rw [hit.2]
    decide

/-- A player with one too many of a unique item asks for another: the plan places many. -/
theorem canStoreNewItem_not_exact : twoTrinkets.StacksWf trinketStore ∧
    ¬ twoTrinkets.Exact trinketStore nullBag nullSlot 1 1
      (twoTrinkets.canStoreNewItem trinketStore nullBag nullSlot [] 1 1) := by
  refine ⟨twoTrinkets_wf,fun h => ?_⟩
  have hsum := h.sum
  revert hsum
  decide +kernel

/-- Food of which a player may have 45, and a pouch with four slots. -/
def packStore : ItemStore where
  getItemTemplate entry := if entry = 2 then some ⟨2,0,5,false,0,45,20,0,0,0,0#32,0,by decide⟩
    else if entry = 3 then some ⟨3,1,0,false,18,0,1,4,0,0,0#32,0,by decide⟩
    else none
  lookupLimitCategory _ := none
  itemId_eq entry t h := by
    split_ifs at h with hfood hpouch
    · cases h
      exact hfood.symm
    · cases h
      exact hpouch.symm

/-- A started stack in the backpack and another one in the pouch. -/
def pack : Inventory where
  guid := 1
  items := fun slot => if slot = 19 then some ⟨30,3,1,1,false,none,false,[]⟩
    else if slot = 23 then some ⟨10,2,15,1,false,none,false,[]⟩ else none
  bagslot := fun guid slot => if guid = 30 ∧ slot = 0 then some ⟨11,2,5,1,false,none,false,[]⟩
    else none

/-- Of 40 asked for the limit leaves 25, which fill the started stacks and one more. -/
theorem canStoreNewItem_exact_pack : pack.Exact packStore nullBag nullSlot 2 40
    (pack.canStoreNewItem packStore nullBag nullSlot [] 2 40) := by
  refine (canStoreNewItem_exact_iff (by decide) (by decide)).mpr ?_
  rintro pProto h
  obtain rfl := Option.some.inj h
  refine ⟨?_,fun hspill => absurd hspill.key (by decide)⟩
  rintro ⟨-,hlimit⟩
  rw [if_pos (by decide +kernel)] at hlimit
  exact absurd hlimit.1 (by decide +kernel)

end Exact

end TrinityCore.Players
