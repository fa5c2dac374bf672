import TrinityCore.Players.StoredItems

set_option autoImplicit false

/-!
Items of an entry are destroyed until a number of them is gone: whole stacks while they are not too
many, and the rest from the next one. The number that is gone is an unsigned one of 32 bits.
-/

namespace TrinityCore.Players

namespace Inventory

variable (S : ItemStore) (inTrade : Nat → Bool) (inv : Inventory)

def destroyItem : Nat → Pos → Inventory → Inventory
  | 0, _, inv => inv
  | depth+1, pos, inv =>
    match inv.itemAt S pos with
    | none => inv
    | some pItem =>
      let inv :=
        if inv.isNotEmptyBag S pItem then
          (List.range maxBagSize).foldl (fun inv i => destroyItem depth (pos.2,i) inv) inv
        else inv
      inv.removeItem S pos

/-- A stack that counts: of the entry and not in a trade. -/
def freeAt (itemEntry : Nat) (pos : Pos) : Option Item :=
  (inv.itemAt S pos).filter fun item => item.entry == itemEntry && !inTrade item.guid

/-- One loop of `DestroyItemCount`, with the number that is gone; without one the function has
returned. -/
def destroyCountIn (depth itemEntry count : Nat) (mayUnequip : Pos → Bool) :
    List Pos → Inventory → Nat → Inventory × Option Nat
  | [], inv, remcount => (inv,some remcount)
  | pos :: rest, inv, remcount =>
    match inv.freeAt S inTrade itemEntry pos with
    | none => destroyCountIn depth itemEntry count mayUnequip rest inv remcount
    | some item =>
      if (item.count+remcount)%2^32 ≤ count then
        if mayUnequip pos then
          if (remcount+item.count)%2^32 ≥ count then (inv.destroyItem S depth pos,none)
          else destroyCountIn depth itemEntry count mayUnequip rest (inv.destroyItem S depth pos)
            ((remcount+item.count)%2^32)
        else destroyCountIn depth itemEntry count mayUnequip rest inv remcount
      else
        (inv.setAt S pos (some { item with count := (item.count+remcount+(2^32-count))%2^32 }),none)

def destroyCountPasses (depth itemEntry count : Nat) :
    List (List Pos × (Pos → Bool)) → Inventory → Nat → Inventory
  | [], inv, _ => inv
  | (slots,mayUnequip) :: rest, inv, remcount =>
    match inv.destroyCountIn S inTrade depth itemEntry count mayUnequip slots remcount with
    | (inv,some remcount) => destroyCountPasses depth itemEntry count rest inv remcount
    | (inv,none) => inv

end Inventory

def slotsFrom (start stop : Nat) : List Pos :=
  (List.range' start (stop-start)).map fun slot => (inventorySlotBag0,slot)

/-- The slots of the bags from one to another. Behind the size of a bag there are no items. -/
def slotsInBags (start stop : Nat) : List Pos :=
  (List.range' start (stop-start)).flatMap fun bag => (List.range maxBagSize).map fun slot => (bag,slot)

/-- The loops of `DestroyItemCount`: the backpack, keys and tokens, the bags, the equipment and the
bag list, the bank, the bank bags. Only what is equipped may not be unequipped. -/
def destroyPasses (canUnequip : Pos → Bool) (unequipCheck : Bool) :
    List (List Pos × (Pos → Bool)) :=
  [(slotsFrom inventorySlotItemStart inventorySlotItemEnd,fun _ => true),
   (slotsFrom keyringSlotStart currencytokenSlotEnd,fun _ => true),
   (slotsInBags inventorySlotBagStart inventorySlotBagEnd,fun _ => true),
   (slotsFrom equipmentSlotStart inventorySlotBagEnd,fun pos => !unequipCheck || canUnequip pos),
   (slotsFrom bankSlotItemStart bankSlotItemEnd,fun _ => true),
   (slotsInBags bankSlotBagStart bankSlotBagEnd,fun _ => true)]

def Inventory.destroyItemCount (S : ItemStore) (inTrade : Nat → Bool) (canUnequip : Pos → Bool)
    (inv : Inventory) (depth itemEntry count : Nat) (unequipCheck : Bool) : Inventory :=
  inv.destroyCountPasses S inTrade depth itemEntry count (destroyPasses canUnequip unequipCheck) 0

def destroySlots : List Pos := (destroyPasses (fun _ => true) false).flatMap Prod.fst

/-- An item that counts is of the entry and not in a trade. -/
def Item.Free (inTrade : Nat → Bool) (itemEntry : Nat) (item : Item) : Prop :=
  item.entry = itemEntry ∧ inTrade item.guid = false

instance (inTrade : Nat → Bool) (itemEntry : Nat) (item : Item) :
    Decidable (item.Free inTrade itemEntry) :=
  inferInstanceAs (Decidable (_ ∧ _))

def freeCount (inTrade : Nat → Bool) (itemEntry : Nat) (item : Item) : Nat :=
  if item.Free inTrade itemEntry then item.count else 0

/-- What a player has: every item is there once, no stack is empty, and the bank bag slots are for
bags. -/
structure Inventory.Stocked (S : ItemStore) (inv : Inventory) : Prop where
  nodup : ((inv.contents S).map Item.guid).Nodup
  counts : ∀ item ∈ inv.contents S, 0 < item.count ∧ item.count < 2^32
  bankBags : ∀ slot, bankSlotBagStart ≤ slot → slot < bankSlotBagEnd →
    ∀ item, inv.items slot = some item → item.isBag S = true

/-- So many items of the entry are gone as are asked for, or all, and everything else stays. -/
structure DestroysExactly (inTrade : Nat → Bool) (itemEntry count : Nat)
    (before after : Multiset Item) : Prop where
  removed : Stock.amount (freeCount inTrade) itemEntry after+
      min count (Stock.amount (freeCount inTrade) itemEntry before) =
    Stock.amount (freeCount inTrade) itemEntry before
  others : after.filter (fun item => ¬ item.Free inTrade itemEntry) =
    before.filter fun item => ¬ item.Free inTrade itemEntry
  counts : ∀ item ∈ after, 0 < item.count

def Inventory.freeStacks (S : ItemStore) (inTrade : Nat → Bool) (inv : Inventory)
    (itemEntry : Nat) : List Nat :=
  (destroySlots.filterMap (inv.freeAt S inTrade itemEntry)).map Item.count

/-- The total of the stacks up to the one with which it reaches a number fits into 32 bits. -/
def ReachesWithin (count remcount : Nat) (counts : List Nat) : Prop :=
  ∀ front c back, counts = front ++ c :: back → remcount+front.sum < count →
    count ≤ remcount+front.sum+c → remcount+front.sum+c < 2^32

def taken (count : Nat) : Nat → List Nat → Nat
  | _, [] => 0
  | remcount, c :: counts =>
    if (c+remcount)%2^32 ≤ count then
      c+(if (remcount+c)%2^32 ≥ count then 0 else taken count ((remcount+c)%2^32) counts)
    else c-(c+remcount+(2^32-count))%2^32

section Taken

variable {count remcount c : Nat} {counts : List Nat}

theorem reachesWithin_cons (h : remcount+c < count) :
    ReachesWithin count remcount (c :: counts) ↔ ReachesWithin count (remcount+c) counts := by
  constructor
  · intro hreach front c' back heq
    simpa [Nat.add_assoc] using hreach (c :: front) c' back (by rw [heq,List.cons_append])
  · intro hreach front c' back heq hlt hle
    cases front with
    | nil =>
      obtain ⟨rfl,-⟩ := List.cons.inj heq
      simp only [List.sum_nil] at hle
      omega
    | cons first front =>
      obtain ⟨rfl,hcounts⟩ := List.cons.inj heq
      rw [List.sum_cons] at hlt hle ⊢
      have := hreach front c' back hcounts (by omega) (by omega)
      omega

theorem reachesWithin_first (hlt : remcount < count) (hle : count ≤ remcount+c) :
    ReachesWithin count remcount (c :: counts) ↔ remcount+c < 2^32 := by
  constructor
  · intro hreach
    simpa using hreach [] c counts rfl (by simpa using hlt) (by simpa using hle)
  · intro hbound front c' back heq hlt' hle'
    cases front with
    | nil =>
      obtain ⟨rfl,-⟩ := List.cons.inj heq
      simpa using hbound
    | cons first front =>
      obtain ⟨rfl,-⟩ := List.cons.inj heq
      rw [List.sum_cons] at hlt'
      omega

/-- The loops take what they should exactly if the total does not overflow where it matters. -/
theorem taken_eq_min (hcount : count < 2^32) (hrem : remcount < count ∨ remcount = 0)
    (hcounts : ∀ c ∈ counts, 0 < c ∧ c < 2^32) :
    taken count remcount counts = min (count-remcount) counts.sum ↔
      ReachesWithin count remcount counts := by
  induction counts generalizing remcount with
  | nil =>
    refine ⟨fun _ front c back heq => ?_,fun _ => by simp [taken]⟩
    simp at heq
  | cons c counts ih =>
    obtain ⟨hpos,hbound⟩ := hcounts c List.mem_cons_self
    have hrest : ∀ c ∈ counts, 0 < c ∧ c < 2^32 :=
      fun c hc => hcounts c (List.mem_cons_of_mem _ hc)
    rw [taken,List.sum_cons,Nat.add_comm c remcount]
    rcases Nat.eq_zero_or_pos count with rfl | hcountPos
    · -- nothing is asked for: the first stack gets the count that it has
      have hzero : remcount = 0 := by omega
      have hmod : (c+2^32)%2^32 = c := by
        rw [Nat.add_mod_right,Nat.mod_eq_of_lt hbound]
      rw [hzero,Nat.zero_add,Nat.mod_eq_of_lt hbound,if_neg (by omega),Nat.sub_zero,hmod]
      refine ⟨fun _ front c' back _ hlt => ?_,fun _ => by simp⟩
      omega
    have hlt : remcount < count := by omega
    by_cases hsum : remcount+c < 2^32
    · rw [Nat.mod_eq_of_lt hsum]
      rcases Nat.lt_trichotomy (remcount+c) count with hless | heq | hmore
      · rw [if_pos hless.le,if_neg (by omega),reachesWithin_cons hless,← ih (.inl hless) hrest]
        omega
      · rw [if_pos heq.le,if_pos heq.ge,reachesWithin_first hlt heq.ge]
        refine ⟨fun _ => hsum,fun _ => ?_⟩
        omega
      · have hmod : (remcount+c+(2^32-count))%2^32 = remcount+c-count := by
          have hsplit : remcount+c+(2^32-count) = remcount+c-count+2^32 := by omega
          rw [hsplit,Nat.add_mod_right,Nat.mod_eq_of_lt (by omega)]
        rw [if_neg (by omega),hmod,reachesWithin_first hlt hmore.le]
        refine ⟨fun _ => hsum,fun _ => ?_⟩
        omega
    · -- the total starts again below what is gone, and too much is taken
      have hmod : (remcount+c)%2^32 = remcount+c-2^32 := by
        rw [Nat.mod_eq_sub_mod (by omega),Nat.mod_eq_of_lt (by omega)]
      rw [hmod,if_pos (by omega),if_neg (by omega),reachesWithin_first hlt (by omega)]
      refine ⟨fun h => ?_,fun h => absurd h hsum⟩
      omega

end Taken

section Loop

variable {S : ItemStore} {inTrade : Nat → Bool} {inv inv' : Inventory} {depth itemEntry count : Nat}
  {pos : Pos} {item : Item} {slots : List Pos} {remcount n : Nat}

theorem freeAt_some (h : inv.freeAt S inTrade itemEntry pos = some item) :
    inv.itemAt S pos = some item ∧ item.Free inTrade itemEntry := by
  obtain ⟨hat,hfree⟩ := Option.filter_eq_some_iff.mp h
  simp only [Bool.and_eq_true,beq_iff_eq,Bool.not_eq_true'] at hfree
  exact ⟨hat,hfree⟩

theorem freeAt_congr (h : inv'.itemAt S pos = inv.itemAt S pos) :
    inv'.freeAt S inTrade itemEntry pos = inv.freeAt S inTrade itemEntry pos := by
  unfold Inventory.freeAt
  rw [h]

theorem freeCount_of_free (h : item.Free inTrade itemEntry) :
    freeCount inTrade itemEntry item = item.count := if_pos h

structure Takes (S : ItemStore) (inTrade : Nat → Bool) (itemEntry : Nat) (inv inv' : Inventory)
    (n : Nat) : Prop where
  stocked : inv'.Stocked S
  removed : Stock.amount (freeCount inTrade) itemEntry (inv'.contents S)+n =
    Stock.amount (freeCount inTrade) itemEntry (inv.contents S)
  others : (inv'.contents S).filter (fun item => ¬ item.Free inTrade itemEntry) =
    (inv.contents S).filter fun item => ¬ item.Free inTrade itemEntry

theorem Takes.refl (h : inv.Stocked S) : Takes S inTrade itemEntry inv inv 0 := ⟨h,rfl,rfl⟩

theorem Takes.trans {inv'' : Inventory} {n' : Nat} (h : Takes S inTrade itemEntry inv inv' n)
    (h' : Takes S inTrade itemEntry inv' inv'' n') : Takes S inTrade itemEntry inv inv'' (n+n') where
  stocked := h'.stocked
  removed := by
    have h₁ := h.removed
    have h₂ := h'.removed
    omega
  others := h'.others.trans h.others

def Item.remains (item : Item) (k : Nat) : Option Item := if k = 0 then none else some (item.left k)

theorem mem_remains {left : Item} {k : Nat} (h : left ∈ Stock.inPlace (item.remains k)) :
    0 < k ∧ left = item.left k := by
  unfold Item.remains at h
  split_ifs at h with hk
  · simp at h
  · exact ⟨Nat.pos_of_ne_zero hk,by simpa using h⟩

theorem guid_remains (item : Item) (k : Nat) :
    (Stock.inPlace (item.remains k)).map Item.guid ≤ {item.guid} := by
  unfold Item.remains
  split_ifs with hk
  · simp
  · simp [guid_left]

theorem free_left {k : Nat} (h : item.Free inTrade itemEntry) :
    (item.left k).Free inTrade itemEntry := h

theorem amount_remains (h : item.Free inTrade itemEntry) (k : Nat) :
    Stock.amount (freeCount inTrade) itemEntry (Stock.inPlace (item.remains k)) = k := by
  unfold Item.remains
  split_ifs with hk
  · simp [hk]
  · rw [Stock.inPlace_some,Stock.amount_singleton,freeCount_of_free (free_left h)]
    rfl

theorem filter_remains (h : item.Free inTrade itemEntry) (k : Nat) :
    (Stock.inPlace (item.remains k)).filter (fun item => ¬ item.Free inTrade itemEntry) = 0 := by
  rw [Multiset.filter_eq_nil]
  intro left hleft
  rw [(mem_remains hleft).2]
  exact not_not.mpr (free_left h)

theorem isBag_remains {k : Nat} (h : item.isBag S = false) :
    (item.remains k).filter (Item.isBag S) = none := by
  unfold Item.remains
  split_ifs with hk
  · rfl
  · exact Option.filter_some_neg (by simpa [Item.left,Item.isBag] using h)

theorem takes_of_update (hinv : inv.Stocked S)
    (hat : inv.freeAt S inTrade itemEntry pos = some item) {k : Nat} (hk : k ≤ item.count)
    (hbank : ∀ slot, bankSlotBagStart ≤ slot → slot < bankSlotBagEnd →
      (inventorySlotBag0,slot) ≠ pos)
    (hitems : inv'.itemAt S = Function.update (inv.itemAt S) pos (item.remains k)) :
    Takes S inTrade itemEntry inv inv' (item.count-k) := by
  obtain ⟨hitem,hfree⟩ := freeAt_some hat
  have hset : inv'.contents S+{item} = inv.contents S+Stock.inPlace (item.remains k) := by
    have hsame : ∀ pos', pos' ≠ pos → inv'.itemAt S pos' = inv.itemAt S pos' := by
      intro pos' hne
      rw [hitems,Function.update_of_ne hne]
    have hexchange := Stock.held_exchange nodup_places (mem_places (valid_of_itemAt hitem)) hsame
    rw [hitem,hitems,Function.update_self,Stock.inPlace_some,← hitems] at hexchange
    exact hexchange
  refine ⟨⟨?nodup,?counts,?bankBags⟩,?removed,?others⟩
  case nodup =>
    have hguids := congrArg (Multiset.map Item.guid) hset
    rw [Multiset.map_add,Multiset.map_add,Multiset.map_singleton] at hguids
    have hle : (inv'.contents S).map Item.guid+{item.guid} ≤
        (inv.contents S).map Item.guid+{item.guid} := by
      rw [hguids]
      exact add_le_add_right (guid_remains item k) _
    exact Multiset.nodup_of_le (le_of_add_le_add_right hle) hinv.nodup
  case counts =>
    have hcount := hinv.counts item (mem_contents.mpr ⟨pos,hitem⟩)
    intro left hleft
    have hmem : left ∈ inv.contents S+Stock.inPlace (item.remains k) := by
      rw [← hset]
      exact Multiset.mem_add.mpr (.inl hleft)
    rcases Multiset.mem_add.mp hmem with hmem | hmem
    · exact hinv.counts left hmem
    · obtain ⟨hpos,rfl⟩ := mem_remains hmem
      exact ⟨hpos,lt_of_le_of_lt hk hcount.2⟩
  case bankBags =>
    intro slot hstart hend bag hslot
    have hplayer : slot ∈ playerSlots := mem_playerSlots.mpr (.inl hend)
    have hnew := congrFun hitems (inventorySlotBag0,slot)
    rw [itemAt_player rfl hplayer,hslot,Function.update_of_ne (hbank slot hstart hend),
      itemAt_player rfl hplayer] at hnew
    exact hinv.bankBags slot hstart hend bag hnew.symm
  case removed =>
    have hamount := congrArg (Stock.amount (freeCount inTrade) itemEntry) hset
    rw [Stock.amount_add,Stock.amount_add,Stock.amount_singleton,freeCount_of_free hfree,
      amount_remains hfree] at hamount
    omega
  case others =>
    have hfilter := congrArg (Multiset.filter fun item => ¬ item.Free inTrade itemEntry) hset
    rw [Multiset.filter_add,Multiset.filter_add,filter_remains hfree,Multiset.filter_singleton,
      if_neg (not_not.mpr hfree)] at hfilter
    simpa using hfilter

theorem takes_setAt (hinv : inv.Stocked S)
    (hentry : ∀ item : Item, item.entry = itemEntry → item.isBag S = false)
    (hat : inv.freeAt S inTrade itemEntry pos = some item) {k : Nat} (hk : k ≤ item.count) :
    Takes S inTrade itemEntry inv (inv.setAt S pos (item.remains k)) (item.count-k) ∧
      (inv.setAt S pos (item.remains k)).itemAt S =
        Function.update (inv.itemAt S) pos (item.remains k) := by
  obtain ⟨hitem,hfree⟩ := freeAt_some hat
  have hbag := hentry item hfree.1
  have hkeeps : inv.KeepsBags S pos (item.remains k) := by
    intro _
    rw [hitem,Option.filter_some_neg (by simp [hbag]),isBag_remains hbag]
  have hitems := itemAt_setAt hinv.nodup (valid_of_itemAt hitem) hkeeps
  refine ⟨takes_of_update hinv hat hk ?_ hitems,hitems⟩
  rintro slot hstart hend rfl
  rw [itemAt_player rfl (mem_playerSlots.mpr (.inl hend))] at hitem
  rw [hinv.bankBags slot hstart hend item hitem] at hbag
  cases hbag

theorem notEmptyBag_of_not_bag (h : item.isBag S = false) : inv.isNotEmptyBag S item = false := by
  simp [Inventory.isNotEmptyBag,h]

theorem destroyItem_eq
    (hentry : ∀ item : Item, item.entry = itemEntry → item.isBag S = false)
    (hat : inv.freeAt S inTrade itemEntry pos = some item) :
    inv.destroyItem S (depth+1) pos = inv.setAt S pos (item.remains 0) := by
  obtain ⟨hitem,hfree⟩ := freeAt_some hat
  rw [Inventory.destroyItem,hitem]
  dsimp only
  rw [notEmptyBag_of_not_bag (hentry item hfree.1),if_neg Bool.false_ne_true,removeItem_eq hitem]
  rfl

theorem takes_destroyCountIn (hinv : inv.Stocked S)
    (hentry : ∀ item : Item, item.entry = itemEntry → item.isBag S = false)
    (hcount : count < 2^32) (hrem : remcount ≤ count) (hslots : slots.Nodup) :
    Takes S inTrade itemEntry inv
      (inv.destroyCountIn S inTrade (depth+1) itemEntry count (fun _ => true) slots remcount).1
      (taken count remcount
        ((slots.filterMap (inv.freeAt S inTrade itemEntry)).map Item.count)) := by
  induction slots generalizing inv remcount with
  | nil => exact Takes.refl hinv
  | cons pos rest ih =>
    obtain ⟨hpos,hrest⟩ := List.nodup_cons.mp hslots
    rw [Inventory.destroyCountIn]
    cases hat : inv.freeAt S inTrade itemEntry pos with
    | none =>
      rw [List.filterMap_cons_none hat]
      exact ih hinv hrem hrest
    | some item =>
      obtain ⟨hitem,-⟩ := freeAt_some hat
      have hbound := hinv.counts item (mem_contents.mpr ⟨pos,hitem⟩)
      rw [List.filterMap_cons_some hat,List.map_cons,taken]
      dsimp only
      by_cases hfits : (item.count+remcount)%2^32 ≤ count
      · rw [if_pos hfits,if_pos rfl,if_pos hfits,destroyItem_eq hentry hat]
        obtain ⟨htakes,hitems⟩ := takes_setAt hinv hentry hat (Nat.zero_le _)
        by_cases hdone : (remcount+item.count)%2^32 ≥ count
        · rw [if_pos hdone,if_pos hdone]
          exact htakes
        · rw [if_neg hdone,if_neg hdone]
          have hsame :
              rest.filterMap ((inv.setAt S pos (item.remains 0)).freeAt S inTrade itemEntry) =
                rest.filterMap (inv.freeAt S inTrade itemEntry) := by
            apply List.filterMap_congr
            intro pos' hpos'
            have hne : pos' ≠ pos := fun h => hpos (h ▸ hpos')
            apply freeAt_congr
            rw [hitems,Function.update_of_ne hne]
          have hrun := ih htakes.stocked (not_le.mp hdone).le hrest
          rw [hsame] at hrun
          exact htakes.trans hrun
      · rw [if_neg hfits,if_neg hfits]
        have hleft : 0 < (item.count+remcount+(2^32-count))%2^32 ∧
            (item.count+remcount+(2^32-count))%2^32 ≤ item.count := by
          omega
        have htakes := (takes_setAt hinv hentry hat hleft.2).1
        rw [Item.remains,if_neg hleft.1.ne'] at htakes
        exact htakes

theorem destroyCountIn_append (front back : List Pos) (mayUnequip : Pos → Bool) :
    inv.destroyCountIn S inTrade depth itemEntry count mayUnequip (front ++ back) remcount =
      match inv.destroyCountIn S inTrade depth itemEntry count mayUnequip front remcount with
      | (inv,some remcount) =>
        inv.destroyCountIn S inTrade depth itemEntry count mayUnequip back remcount
      | (inv,none) => (inv,none) := by
  induction front generalizing inv remcount with
  | nil => rfl
  | cons pos front ih =>
    rw [List.cons_append,Inventory.destroyCountIn,Inventory.destroyCountIn]
    cases inv.freeAt S inTrade itemEntry pos with
    | none => exact ih
    | some item =>
      dsimp only
      split_ifs
      · rfl
      · exact ih
      · exact ih
      · rfl

theorem destroyCountPasses_eq (passes : List (List Pos)) :
    inv.destroyCountPasses S inTrade depth itemEntry count (passes.map fun slots => (slots,fun _ => true))
        remcount =
      (inv.destroyCountIn S inTrade depth itemEntry count (fun _ => true) passes.flatten remcount).1 := by
  induction passes generalizing inv remcount with
  | nil => rfl
  | cons slots passes ih =>
    rw [List.map_cons,List.flatten_cons,destroyCountIn_append,Inventory.destroyCountPasses]
    cases inv.destroyCountIn S inTrade depth itemEntry count (fun _ => true) slots remcount with
    | mk inv next =>
      cases next with
      | none => rfl
      | some remcount => exact ih

end Loop

section Slots

variable {S : ItemStore} {inTrade : Nat → Bool} {inv : Inventory} {itemEntry : Nat}

theorem playerSlots_perm : playerSlots.Perm
    (List.range' inventorySlotItemStart (inventorySlotItemEnd-inventorySlotItemStart) ++
      (List.range' keyringSlotStart (currencytokenSlotEnd-keyringSlotStart) ++
      (List.range' equipmentSlotStart (inventorySlotBagEnd-equipmentSlotStart) ++
      (List.range' bankSlotItemStart (bankSlotItemEnd-bankSlotItemStart) ++
        List.range' bankSlotBagStart (bankSlotBagEnd-bankSlotBagStart))))) := by
  decide +kernel

theorem places_perm :
    places.Perm (destroySlots ++ slotsFrom bankSlotBagStart bankSlotBagEnd) := by
  have hplayer := playerSlots_perm.map fun slot => (inventorySlotBag0,slot)
  simp only [List.map_append] at hplayer
  rw [← Multiset.coe_eq_coe] at hplayer ⊢
  have hslots : destroySlots = slotsFrom inventorySlotItemStart inventorySlotItemEnd ++
      (slotsFrom keyringSlotStart currencytokenSlotEnd ++
      (slotsInBags inventorySlotBagStart inventorySlotBagEnd ++
      (slotsFrom equipmentSlotStart inventorySlotBagEnd ++
      (slotsFrom bankSlotItemStart bankSlotItemEnd ++
        (slotsInBags bankSlotBagStart bankSlotBagEnd ++ []))))) := rfl
  rw [hslots]
  unfold places bagSlots slotsInBags slotsFrom
  simp only [List.flatMap_append,← Multiset.coe_add,List.append_nil] at hplayer ⊢
  rw [hplayer]
  abel

theorem nodup_destroySlots : destroySlots.Nodup :=
  (List.nodup_append.mp (places_perm.nodup_iff.mp nodup_places)).1

theorem amount_held (slots : List Pos) :
    Stock.amount (freeCount inTrade) itemEntry (Stock.held slots (inv.itemAt S)) =
      ((slots.filterMap (inv.freeAt S inTrade itemEntry)).map Item.count).sum := by
  induction slots with
  | nil => rfl
  | cons pos slots ih =>
    rw [Stock.held_cons,Stock.amount_add,ih,List.filterMap_cons]
    cases hat : inv.itemAt S pos with
    | none => simp [Inventory.freeAt,hat]
    | some item =>
      by_cases hfree : item.Free inTrade itemEntry
      · have hfreeAt : inv.freeAt S inTrade itemEntry pos = some item := by
          simp [Inventory.freeAt,hat,hfree.1,hfree.2]
        simp [hfreeAt,freeCount_of_free hfree]
      · have hfreeAt : inv.freeAt S inTrade itemEntry pos = none := by
          simp only [Item.Free,not_and,Bool.not_eq_false] at hfree
          simpa [Inventory.freeAt,hat] using hfree
        simp [hfreeAt,freeCount,hfree]

theorem amount_contents (inTrade : Nat → Bool) (hinv : inv.Stocked S)
    (hentry : ∀ item : Item, item.entry = itemEntry → item.isBag S = false) :
    Stock.amount (freeCount inTrade) itemEntry (inv.contents S) =
      (inv.freeStacks S inTrade itemEntry).sum := by
  have hheld : inv.contents S =
      Stock.held (destroySlots ++ slotsFrom bankSlotBagStart bankSlotBagEnd) (inv.itemAt S) :=
    Multiset.coe_eq_coe.mpr (places_perm.filterMap _)
  have hbank : (slotsFrom bankSlotBagStart bankSlotBagEnd).filterMap
      (inv.freeAt S inTrade itemEntry) = [] := by
    rw [List.filterMap_eq_nil_iff]
    intro pos hpos
    obtain ⟨slot,hslot,rfl⟩ := List.mem_map.mp hpos
    rw [List.mem_range'_1] at hslot
    have hend : slot < bankSlotBagEnd := by
      simp only [bankSlotBagStart,bankSlotBagEnd] at *
      omega
    cases hat : inv.freeAt S inTrade itemEntry (inventorySlotBag0,slot) with
    | none => rfl
    | some item =>
      obtain ⟨hitem,hfree⟩ := freeAt_some hat
      rw [itemAt_player rfl (mem_playerSlots.mpr (.inl hend))] at hitem
      have hbag := hinv.bankBags slot hslot.1 hend item hitem
      rw [hentry item hfree.1] at hbag
      cases hbag
  rw [hheld,amount_held,List.filterMap_append,hbank,List.append_nil]
  rfl

theorem freeStacks_bounds (hinv : inv.Stocked S) :
    ∀ c ∈ inv.freeStacks S inTrade itemEntry, 0 < c ∧ c < 2^32 := by
  intro c hc
  obtain ⟨item,hitem,rfl⟩ := List.mem_map.mp hc
  obtain ⟨pos,-,hat⟩ := List.mem_filterMap.mp hitem
  exact hinv.counts item (mem_contents.mpr ⟨pos,(freeAt_some hat).1⟩)

theorem takes_destroyItemCount (inTrade : Nat → Bool) {count : Nat} (hinv : inv.Stocked S)
    (hentry : ∀ item : Item, item.entry = itemEntry → item.isBag S = false)
    (hcount : count < 2^32) (canUnequip : Pos → Bool) (depth : Nat) :
    Takes S inTrade itemEntry inv
      (inv.destroyItemCount S inTrade canUnequip (depth+1) itemEntry count false)
      (taken count 0 (inv.freeStacks S inTrade itemEntry)) := by
  have hpasses : destroyPasses canUnequip false =
      ((destroyPasses canUnequip false).map Prod.fst).map fun slots => (slots,fun _ => true) := rfl
  unfold Inventory.destroyItemCount
  rw [hpasses,destroyCountPasses_eq]
  exact takes_destroyCountIn hinv hentry hcount (Nat.zero_le _) nodup_destroySlots

theorem destroysExactly_iff_taken {count : Nat} (hinv : inv.Stocked S)
    (hentry : ∀ item : Item, item.entry = itemEntry → item.isBag S = false)
    (hcount : count < 2^32) (canUnequip : Pos → Bool) (depth : Nat) :
    DestroysExactly inTrade itemEntry count (inv.contents S)
        ((inv.destroyItemCount S inTrade canUnequip (depth+1) itemEntry count false).contents S) ↔
      taken count 0 (inv.freeStacks S inTrade itemEntry) =
        min count (inv.freeStacks S inTrade itemEntry).sum := by
  have htakes := takes_destroyItemCount inTrade hinv hentry hcount canUnequip depth
  have hremoved := htakes.removed
  have hamount := amount_contents inTrade hinv hentry
  constructor
  · intro h
    have hexact := h.removed
    rw [← hamount]
    omega
  · intro h
    refine ⟨?_,htakes.others,fun item hitem => (htakes.stocked.counts item hitem).1⟩
    rw [h,← hamount] at hremoved
    exact hremoved

/-- The right number is destroyed exactly when the total of the stacks does not overflow at the stack
with which it reaches the number. -/
theorem destroysExactly_iff (S : ItemStore) (inTrade : Nat → Bool) (canUnequip : Pos → Bool)
    (inv : Inventory) (depth itemEntry count : Nat) (hinv : inv.Stocked S)
    (hentry : ∀ item : Item, item.entry = itemEntry → item.isBag S = false)
    (hcount : count < 2^32) :
    DestroysExactly inTrade itemEntry count (inv.contents S)
        ((inv.destroyItemCount S inTrade canUnequip (depth+1) itemEntry count false).contents S) ↔
      ReachesWithin count 0 (inv.freeStacks S inTrade itemEntry) := by
  rw [destroysExactly_iff_taken hinv hentry hcount,
    ← taken_eq_min hcount (.inr rfl) (freeStacks_bounds hinv),Nat.sub_zero]

def tokenStore : ItemStore where
  getItemTemplate := fun entry =>
    if entry = 1 then
      some {
        itemId := 1
        itemClass := 10
        subClass := 0
        bindToAccount := false
        inventoryType := 0
        maxCount := 0
        stackable := 2147483647
        containerSlots := 0
        gemProperties := 0
        socketColor := 0
        bagFamily := bagFamilyMaskCurrencyTokens
        itemLimitCategory := 0
        containerSlots_le := Nat.zero_le maxBagSize }
    else none
  lookupLimitCategory := fun _ => none
  itemId_eq := by
    intro entry t h
    split_ifs at h with hentry
    cases h
    exact hentry.symm

def threeStacks (count : Nat) : Inventory where
  guid := 7
  items := fun slot =>
    if slot = 118 ∨ slot = 119 ∨ slot = 120 then some ⟨slot,1,count,7,false,none,false,[]⟩ else none
  bagslot := fun _ _ => none

theorem token_not_bag (item : Item) (h : item.entry = 1) : item.isBag tokenStore = false := by
  rw [Item.isBag,h]
  rfl

theorem threeStacks_bankBags {count slot : Nat} (hend : slot < bankSlotBagEnd) (item : Item)
    (h : (threeStacks count).items slot = some item) : item.isBag tokenStore = true := by
  simp only [bankSlotBagEnd] at hend
  have hnone : (threeStacks count).items slot = none := if_neg (by omega)
  rw [hnone] at h
  cases h

theorem threeStacks_destroysExactly :
    DestroysExactly (fun _ => false) 1 5 ((threeStacks 2).contents tokenStore)
      (((threeStacks 2).destroyItemCount tokenStore (fun _ => false) (fun _ => false) 1 1 5 false).contents
        tokenStore) := by
  refine (destroysExactly_iff tokenStore (fun _ => false) (fun _ => false) (threeStacks 2) 0 1 5
    ⟨by decide +kernel,by decide +kernel,fun _ _ hend => threeStacks_bankBags hend⟩ token_not_bag
    (by decide)).mpr ?_
  have hstacks : (threeStacks 2).freeStacks tokenStore (fun _ => false) 1 = [2,2,2] := by
    decide +kernel
  rw [hstacks,← taken_eq_min (by decide) (.inr rfl) (by decide)]
  decide

/-- The total starts again at the third stack, so that all the tokens are destroyed and not two thirds
of them. -/
theorem threeStacks_all_destroyed :
    ¬ DestroysExactly (fun _ => false) 1 4294967295 ((threeStacks 2147483646).contents tokenStore)
      (((threeStacks 2147483646).destroyItemCount tokenStore (fun _ => false) (fun _ => false) 1 1
        4294967295 false).contents tokenStore) := by
  rw [destroysExactly_iff_taken
    ⟨by decide +kernel,by decide +kernel,fun _ _ hend => threeStacks_bankBags hend⟩ token_not_bag
    (by decide)]
  have hstacks : (threeStacks 2147483646).freeStacks tokenStore (fun _ => false) 1 =
      [2147483646,2147483646,2147483646] := by
    decide +kernel
  rw [hstacks]
  decide

end Slots

end TrinityCore.Players
