import TrinityCore.Players.CanStore

set_option autoImplicit false

namespace TrinityCore.Players

open Slots

section Reach

variable (S : ItemStore) (inv : Inventory) (req : StoreRequest)

def Inventory.bagTakes (bag : Nat) : Bool :=
  match inv.getBagByPos S bag with
  | none => false
  | some pBag =>
    match S.getItemTemplate pBag.entry with
    | none => false
    | some pBagProto =>
      decide (req.pItem.map Item.guid ≠ some pBag.guid) && itemCanGoIntoBag req.pProto pBagProto

def Inventory.bagOfKind (bag : Nat) (nonSpecialized : Bool) : Bool :=
  match inv.getBagByPos S bag with
  | none => false
  | some pBag =>
    (S.getItemTemplate pBag.entry).any fun pBagProto => nonSpecialized == pBagProto.isContainer

def Inventory.slotsInBag (bag : Nat) (merge : Bool) : List Pos :=
  match inv.getBagByPos S bag with
  | none => []
  | some pBag =>
    (slotsOfBag bag (pBag.getBagSize S) req.slot).filter (inv.usable S req.pProto merge req.pItem)

def Inventory.slotsInPlayer (slotBegin slotEnd : Nat) (merge : Bool) : List Pos :=
  (slotsOfPlayer slotBegin slotEnd req.bag req.slot).filter
    (inv.usable S req.pProto merge req.pItem)

/-- The slots of a bag other than the one that is asked for, if it is of the kind searched. -/
def Inventory.slotsInOtherBag (merge nonSpecialized : Bool) (bag : Nat) : List Pos :=
  if bag ≠ req.bag ∧ inv.bagTakes S req bag ∧ inv.bagOfKind S bag nonSpecialized then
    inv.slotsInBag S req bag merge
  else []

def Inventory.slotsInBags (merge nonSpecialized : Bool) : List Pos :=
  (List.range' inventorySlotBagStart (inventorySlotBagEnd-inventorySlotBagStart)).flatMap
    (inv.slotsInOtherBag S req merge nonSpecialized)

def Inventory.slotsInKeyring : List Pos :=
  inv.slotsInPlayer S req keyringSlotStart (keyringSlotStart+getMaxKeyringSize) false

def Inventory.slotsInTokens : List Pos :=
  inv.slotsInPlayer S req currencytokenSlotStart currencytokenSlotEnd false

def Inventory.slotsInBackpack (merge : Bool) : List Pos :=
  inv.slotsInPlayer S req inventorySlotItemStart inventorySlotItemEnd merge

def Inventory.stacksInPlayerSlots : List Pos :=
  inv.slotsInPlayer S req keyringSlotStart currencytokenSlotEnd true ++ inv.slotsInBackpack S req true

def Inventory.stacksInSpecificBag : List Pos :=
  if req.pProto.stackable ≠ 1 then
    if req.bag = inventorySlotBag0 then inv.stacksInPlayerSlots S req
    else inv.slotsInBag S req req.bag true
  else []

def Inventory.slotsInKeyringOrTokens : List Pos :=
  if req.pProto.isKey then inv.slotsInKeyring S req ++ inv.slotsInTokens S req
  else if req.pProto.isCurrencyToken then inv.slotsInTokens S req
  else []

def Inventory.freeInSpecificBagSlots : List Pos :=
  if req.bag = inventorySlotBag0 then
    inv.slotsInKeyringOrTokens S req ++ inv.slotsInBackpack S req false
  else inv.slotsInBag S req req.bag false

def Inventory.slotsAnywhere : List Pos :=
  (if req.pProto.stackable ≠ 1 then
    inv.stacksInPlayerSlots S req ++
      ((if req.pProto.bagFamily ≠ 0 then inv.slotsInBags S req true false else []) ++
        inv.slotsInBags S req true true)
  else []) ++
  ((if req.pProto.bagFamily ≠ 0 then
    (if req.pProto.isKey then inv.slotsInKeyring S req
      else if req.pProto.isCurrencyToken then inv.slotsInTokens S req
      else []) ++ inv.slotsInBags S req false false
  else []) ++ (inv.slotsInBackpack S req false ++ inv.slotsInBags S req false true))

def Inventory.slotTakes : Bool :=
  match inv.seen S req.pItem (req.bag,req.slot) with
  | none => inv.goesInto S req.pProto (req.bag,req.slot)
  | some pItem2 => pItem2.canBeMergedPartlyWith req.pProto == .ok

/-- The slots of the bag that is asked for and all others, unless that bag is refused. -/
def Inventory.reachFromBag : List Pos :=
  if req.bag ≠ nullBag ∧ req.bag ≠ inventorySlotBag0 ∧ ¬ inv.bagTakes S req req.bag then []
  else (if req.bag ≠ nullBag then
    inv.stacksInSpecificBag S req ++ inv.freeInSpecificBagSlots S req else []) ++
      inv.slotsAnywhere S req

def StoreRequest.specific : Prop := req.bag ≠ nullBag ∧ req.slot ≠ nullSlot

instance : Decidable req.specific := inferInstanceAs (Decidable (_ ∧ _))

def Inventory.reach : List Pos :=
  if req.specific ∧ ¬ inv.slotTakes S req then []
  else (if req.specific then [(req.bag,req.slot)] else []) ++ inv.reachFromBag S req

end Reach

section Searches

variable {S : ItemStore} {inv : Inventory} {req : StoreRequest}

abbrev Inventory.Searches (S : ItemStore) (inv : Inventory) (req : StoreRequest) (ps : List Pos)
    (f : Plan Pos → Except CanStore (Plan Pos)) : Prop :=
  Plan.Fills req.nothingLeft (inv.needSpace S req.pProto req.pItem) ps f

variable (hsrc : req.pItem.any (inv.isNotEmptyBag S) = false)
include hsrc

theorem searchPlayerSlots_fills (slotBegin slotEnd : Nat) (merge : Bool) :
    inv.Searches S req (inv.slotsInPlayer S req slotBegin slotEnd merge)
      (inv.searchPlayerSlots S req slotBegin slotEnd merge) := by
  intro plan _
  unfold Inventory.searchPlayerSlots Inventory.canStoreItemInInventorySlots
  rw [if_neg (by simp [hsrc])]
  rfl

theorem searchBackpack_fills (merge : Bool) :
    inv.Searches S req (inv.slotsInBackpack S req merge) (inv.searchBackpack S req merge) :=
  searchPlayerSlots_fills hsrc _ _ _

theorem searchTokens_fills :
    inv.Searches S req (inv.slotsInTokens S req) (inv.searchTokens S req) :=
  searchPlayerSlots_fills hsrc _ _ _

theorem searchKeyring_fills :
    inv.Searches S req (inv.slotsInKeyring S req) (inv.searchKeyring S req) :=
  searchPlayerSlots_fills hsrc _ _ _

theorem mergeInPlayerSlots_fills :
    inv.Searches S req (inv.stacksInPlayerSlots S req) (inv.mergeInPlayerSlots S req) :=
  (searchPlayerSlots_fills hsrc _ _ _).bind (searchBackpack_fills hsrc true)

theorem canStoreItemInBag_eq {bag skipBag : Nat} (hbag : bag ≠ skipBag)
    (merge nonSpecialized : Bool) (plan : Plan Pos) :
    inv.canStoreItemInBag S req.pProto bag merge nonSpecialized req.pItem skipBag req.slot plan =
      if inv.bagTakes S req bag ∧ inv.bagOfKind S bag nonSpecialized then
        .ok (plan.fill (inv.needSpace S req.pProto req.pItem) (inv.slotsInBag S req bag merge))
      else .error .itemDoesntGoIntoBag := by
  unfold Inventory.canStoreItemInBag Inventory.bagTakes Inventory.bagOfKind Inventory.slotsInBag
  rw [if_neg hbag]
  cases hb : inv.getBagByPos S bag with
  | none => simp
  | some pBag =>
    dsimp only
    by_cases hself : req.pItem.map Item.guid = some pBag.guid
    · rcases Option.eq_none_or_eq_some (S.getItemTemplate pBag.entry) with hp | ⟨pBagProto,hp⟩
      · simp [hself,hp]
      · simp [hself,hp]
    · rcases Option.eq_none_or_eq_some (S.getItemTemplate pBag.entry) with hp | ⟨pBagProto,hp⟩
      · simp [hself,hsrc,hp]
      · by_cases hkind : nonSpecialized = pBagProto.isContainer
        · by_cases hgoes : itemCanGoIntoBag req.pProto pBagProto = true
          · simp [hself,hsrc,hp,hkind,hgoes]
          · simp [hself,hsrc,hp,hkind,hgoes]
        · simp [hself,hsrc,hp,hkind]

theorem searchBags_fills (merge nonSpecialized : Bool) :
    inv.Searches S req (inv.slotsInBags S req merge nonSpecialized)
      (inv.searchBags S req merge nonSpecialized) := by
  refine Plan.Fills.foldlM _ ?_
  intro i _ plan hplan
  dsimp only
  by_cases huse : i ≠ req.bag ∧ inv.bagTakes S req i ∧ inv.bagOfKind S i nonSpecialized
  · have hslots : inv.slotsInOtherBag S req merge nonSpecialized i = inv.slotsInBag S req i merge :=
      if_pos huse
    rw [hslots,canStoreItemInBag_eq hsrc huse.1,if_pos huse.2]
    rfl
  · have hslots : inv.slotsInOtherBag S req merge nonSpecialized i = [] := if_neg huse
    have hin : inv.canStoreItemInBag S req.pProto i merge nonSpecialized req.pItem req.bag req.slot
        plan = .error .itemDoesntGoIntoBag := by
      by_cases hskip : i = req.bag
      · exact if_pos hskip
      · rw [canStoreItemInBag_eq hsrc hskip,if_neg fun h => huse ⟨hskip,h⟩]
    rw [hslots,hin]
    exact (if_neg hplan).symm

theorem searchBag_eq (hbag : req.bag ≠ nullBag) (merge : Bool) (plan : Plan Pos) :
    inv.searchBag S req merge plan = req.afterSearch plan
      (if inv.bagTakes S req req.bag then
        .ok (plan.fill (inv.needSpace S req.pProto req.pItem) (inv.slotsInBag S req req.bag merge))
      else .error .itemDoesntGoIntoBag) := by
  unfold Inventory.searchBag
  rw [canStoreItemInBag_eq hsrc hbag,canStoreItemInBag_eq hsrc hbag]
  by_cases htakes : inv.bagTakes S req req.bag = true
  · have hkind : inv.bagOfKind S req.bag false = true ∨ inv.bagOfKind S req.bag true = true := by
      unfold Inventory.bagTakes at htakes
      unfold Inventory.bagOfKind
      cases hb : inv.getBagByPos S req.bag with
      | none => simp [hb] at htakes
      | some pBag =>
        rw [hb] at htakes
        dsimp only at htakes ⊢
        cases hp : S.getItemTemplate pBag.entry with
        | none => simp [hp] at htakes
        | some pBagProto => cases hc : pBagProto.isContainer <;> simp [hc]
    rw [if_pos htakes]
    by_cases hfalse : inv.bagOfKind S req.bag false = true
    · rw [if_pos ⟨htakes,hfalse⟩]
    · rw [if_neg (by simp [hfalse]),if_pos ⟨htakes,hkind.resolve_left hfalse⟩]
  · rw [if_neg (by simp [htakes]),if_neg (by simp [htakes]),if_neg htakes]

theorem searchBag_fills (hbag : req.bag ≠ nullBag)
    (htakes : inv.bagTakes S req req.bag = true) (merge : Bool) :
    inv.Searches S req (inv.slotsInBag S req req.bag merge) (inv.searchBag S req merge) := by
  intro plan _
  rw [searchBag_eq hsrc hbag,if_pos htakes]
  rfl

theorem searchSpecificSlot_fills (htakes : req.specific → inv.slotTakes S req = true) :
    inv.Searches S req (if req.specific then [(req.bag,req.slot)] else [])
      (inv.searchSpecificSlot S req false) := by
  refine Plan.Fills.ite fun hspec => ?_
  intro plan _
  have htakes := htakes hspec
  have hslot : inv.canStoreItemInSpecificSlot S req.pProto (req.bag,req.slot) false req.pItem plan =
      .ok (plan.reserve (req.bag,req.slot)
        (inv.needSpace S req.pProto req.pItem (req.bag,req.slot))) := by
    unfold Inventory.canStoreItemInSpecificSlot Inventory.needSpace
    unfold Inventory.slotTakes at htakes
    cases hseen : inv.seen S req.pItem (req.bag,req.slot) with
    | none =>
      rw [hseen] at htakes
      simp only [hsrc,Bool.false_eq_true,false_and,if_false]
      exact if_pos htakes
    | some pItem2 =>
      rw [hseen] at htakes
      simp only [hsrc,Bool.false_eq_true,false_and,if_false]
      exact if_neg (by simpa using htakes)
  dsimp only
  rw [hslot,Plan.fill_singleton]
  rfl

theorem searchSpecificSlot_refuses (hspec : req.specific)
    (hno : ¬ inv.slotTakes S req = true) (plan : Plan Pos) :
    ∃ res, res ≠ .ok ∧ inv.searchSpecificSlot S req false plan = .error (req.failed res plan) := by
  have hslot : ∃ res, res ≠ .ok ∧ inv.canStoreItemInSpecificSlot S req.pProto (req.bag,req.slot)
      false req.pItem plan = .error res := by
    unfold Inventory.canStoreItemInSpecificSlot
    unfold Inventory.slotTakes at hno
    cases hseen : inv.seen S req.pItem (req.bag,req.slot) with
    | none =>
      rw [hseen] at hno
      simp only [hsrc,Bool.false_eq_true,false_and,if_false]
      exact ⟨.itemDoesntGoIntoBag,by decide,if_neg hno⟩
    | some pItem2 =>
      rw [hseen] at hno
      have hres : pItem2.canBeMergedPartlyWith req.pProto ≠ .ok := by simpa using hno
      simp only [hsrc,Bool.false_eq_true,false_and,if_false]
      exact ⟨_,hres,if_pos hres⟩
  obtain ⟨res,hres,hslot⟩ := hslot
  have hif : inv.searchSpecificSlot S req false plan = req.afterSearch plan
      (inv.canStoreItemInSpecificSlot S req.pProto (req.bag,req.slot) false req.pItem plan) :=
    if_pos hspec
  exact ⟨res,hres,by rw [hif,hslot]; rfl⟩

theorem mergeInSpecificBag_fills (hbag : req.bag ≠ nullBag)
    (htakes : req.bag ≠ inventorySlotBag0 → inv.bagTakes S req req.bag = true) :
    inv.Searches S req (inv.stacksInSpecificBag S req) (inv.mergeInSpecificBag S req) := by
  refine Plan.Fills.ite fun _ => ?_
  by_cases h0 : req.bag = inventorySlotBag0
  · simp only [if_pos h0]
    exact mergeInPlayerSlots_fills hsrc
  · simp only [if_neg h0]
    exact searchBag_fills hsrc hbag (htakes h0) true

theorem searchKeyringOrTokens_fills :
    inv.Searches S req (inv.slotsInKeyringOrTokens S req) (inv.searchKeyringOrTokens S req) := by
  unfold Inventory.slotsInKeyringOrTokens Inventory.searchKeyringOrTokens
  by_cases hkey : req.pProto.isKey = true
  · simp only [if_pos hkey]
    exact (searchKeyring_fills hsrc).bind (searchTokens_fills hsrc)
  · simp only [if_neg hkey]
    exact Plan.Fills.ite fun _ => searchTokens_fills hsrc

theorem freeInSpecificBag_fills (hbag : req.bag ≠ nullBag)
    (htakes : req.bag ≠ inventorySlotBag0 → inv.bagTakes S req req.bag = true) :
    inv.Searches S req (inv.freeInSpecificBagSlots S req) (inv.freeInSpecificBag S req) := by
  unfold Inventory.freeInSpecificBagSlots Inventory.freeInSpecificBag
  by_cases h0 : req.bag = inventorySlotBag0
  · simp only [if_pos h0]
    exact (searchKeyringOrTokens_fills hsrc).bind (searchBackpack_fills hsrc false)
  · simp only [if_neg h0]
    exact searchBag_fills hsrc hbag (htakes h0) false

theorem searchSpecificBag_fills (htakes : req.bag ≠ nullBag → req.bag ≠ inventorySlotBag0 →
      inv.bagTakes S req req.bag = true) :
    inv.Searches S req
      (if req.bag ≠ nullBag then inv.stacksInSpecificBag S req ++ inv.freeInSpecificBagSlots S req
        else [])
      (inv.searchSpecificBag S req) :=
  Plan.Fills.ite fun hbag => (mergeInSpecificBag_fills hsrc hbag (htakes hbag)).bind
    (freeInSpecificBag_fills hsrc hbag (htakes hbag))

theorem searchSpecificBag_refuses (hbag : req.bag ≠ nullBag) (h0 : req.bag ≠ inventorySlotBag0)
    (hno : ¬ inv.bagTakes S req req.bag = true) (plan : Plan Pos) :
    inv.searchSpecificBag S req plan = .error (req.failed .itemDoesntGoIntoBag plan) := by
  have hsearch : ∀ merge, inv.searchBag S req merge plan =
      .error (req.failed .itemDoesntGoIntoBag plan) := by
    intro merge
    rw [searchBag_eq hsrc hbag,if_neg hno]
    rfl
  unfold Inventory.searchSpecificBag Inventory.mergeInSpecificBag Inventory.freeInSpecificBag
  rw [if_pos hbag]
  split_ifs
  · rw [hsearch]
    rfl
  · exact hsearch false

theorem mergeAnywhere_fills :
    inv.Searches S req (if req.pProto.stackable ≠ 1 then
        inv.stacksInPlayerSlots S req ++
          ((if req.pProto.bagFamily ≠ 0 then inv.slotsInBags S req true false else []) ++
            inv.slotsInBags S req true true)
      else []) (inv.mergeAnywhere S req) :=
  Plan.Fills.ite fun _ => (mergeInPlayerSlots_fills hsrc).bind
    ((Plan.Fills.ite fun _ => searchBags_fills hsrc true false).bind (searchBags_fills hsrc true true))

theorem searchKeyringElseTokens_fills :
    inv.Searches S req (if req.pProto.isKey then inv.slotsInKeyring S req
      else if req.pProto.isCurrencyToken then inv.slotsInTokens S req
      else []) (inv.searchKeyringElseTokens S req) := by
  unfold Inventory.searchKeyringElseTokens
  by_cases hkey : req.pProto.isKey = true
  · simp only [if_pos hkey]
    exact searchKeyring_fills hsrc
  · simp only [if_neg hkey]
    exact Plan.Fills.ite fun _ => searchTokens_fills hsrc

theorem freeInSpecialBags_fills :
    inv.Searches S req (if req.pProto.bagFamily ≠ 0 then
        (if req.pProto.isKey then inv.slotsInKeyring S req
          else if req.pProto.isCurrencyToken then inv.slotsInTokens S req
          else []) ++ inv.slotsInBags S req false false
      else []) (inv.freeInSpecialBags S req) :=
  Plan.Fills.ite fun _ => (searchKeyringElseTokens_fills hsrc).bind
    (searchBags_fills hsrc false false)

theorem checkNotEmptyBag_fills :
    inv.Searches S req [] (inv.checkNotEmptyBag S req) := by
  intro plan hplan
  unfold Inventory.checkNotEmptyBag
  rw [if_neg (by simp [hsrc])]
  exact (if_neg hplan).symm

theorem freeAnywhere_fills :
    inv.Searches S req (inv.slotsInBackpack S req false ++ inv.slotsInBags S req false true)
      (inv.freeAnywhere S req) :=
  (searchBackpack_fills hsrc false).bind (searchBags_fills hsrc false true)

theorem searchAnywhere_fills :
    inv.Searches S req (inv.slotsAnywhere S req) fun plan =>
      inv.mergeAnywhere S req plan >>= fun plan => inv.freeInSpecialBags S req plan >>=
        fun plan => inv.checkNotEmptyBag S req plan >>= inv.freeAnywhere S req := by
  have hfree := (checkNotEmptyBag_fills hsrc).bind (freeAnywhere_fills hsrc)
  rw [List.nil_append] at hfree
  exact (mergeAnywhere_fills hsrc).bind ((freeInSpecialBags_fills hsrc).bind hfree)

/-- A report of a plan: all is placed, or an error says how much is not. -/
structure StoreRequest.Reports (req : StoreRequest) (plan : Plan Pos) (report : CanStore) : Prop where
  placed : plan.left = 0 → report = req.nothingLeft plan
  short : plan.left ≠ 0 → ∃ res, res ≠ .ok ∧ report = req.failed res plan

theorem search_reports {plan : Plan Pos}
    (hplan : plan.left ≠ 0) :
    req.Reports (plan.fill (inv.needSpace S req.pProto req.pItem) (inv.reach S req))
      (inv.search S req false plan) := by
  unfold Inventory.reach
  by_cases hslot : req.specific ∧ ¬ inv.slotTakes S req = true
  · rw [if_pos hslot]
    obtain ⟨res,hres,hsearch⟩ := searchSpecificSlot_refuses hsrc hslot.1 hslot.2 plan
    refine ⟨fun h => absurd h hplan,fun _ => ⟨res,hres,?_⟩⟩
    unfold Inventory.search
    rw [hsearch]
    rfl
  rw [if_neg hslot]
  have hspecific := searchSpecificSlot_fills hsrc
    (fun hspec => by_contra fun hno => hslot ⟨hspec,hno⟩)
  unfold Inventory.reachFromBag
  by_cases hbag : req.bag ≠ nullBag ∧ req.bag ≠ inventorySlotBag0 ∧
      ¬ inv.bagTakes S req req.bag = true
  · rw [if_pos hbag,List.append_nil]
    have hrefuse : ∀ plan : Plan Pos, (inv.searchSpecificBag S req plan >>= fun plan =>
        inv.mergeAnywhere S req plan >>= fun plan => inv.freeInSpecialBags S req plan >>=
          fun plan => inv.checkNotEmptyBag S req plan >>= inv.freeAnywhere S req) =
        .error (req.failed .itemDoesntGoIntoBag plan) := by
      intro plan
      rw [searchSpecificBag_refuses hsrc hbag.1 hbag.2.1 hbag.2.2]
      rfl
    unfold Inventory.search
    rw [hspecific.bind_error hrefuse hplan]
    dsimp only
    refine ⟨fun h => if_pos h,fun h => ⟨.itemDoesntGoIntoBag,by decide,if_neg h⟩⟩
  · rw [if_neg hbag]
    have hall := hspecific.bind ((searchSpecificBag_fills hsrc
      (fun h1 h2 => by_contra fun h3 => hbag ⟨h1,h2,h3⟩)).bind (searchAnywhere_fills hsrc)) plan hplan
    unfold Inventory.search
    dsimp only at hall ⊢
    rw [hall]
    refine ⟨fun h => ?_,fun h => ⟨.inventoryFull,by decide,?_⟩⟩
    · rw [if_pos h]
    · rw [if_neg h]

end Searches

end TrinityCore.Players
