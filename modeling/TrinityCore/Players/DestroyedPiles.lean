import TrinityCore.Players.FailQuest

set_option autoImplicit false

namespace TrinityCore.Players

open Piles

/-- What is carried and not in the bank. -/
def isCarried (pos : Pos) : Bool :=
  if pos.1 = inventorySlotBag0 then
    decide (pos.2 < inventorySlotItemEnd) ||
      (decide (keyringSlotStart ≤ pos.2) && decide (pos.2 < currencytokenSlotEnd))
  else decide (inventorySlotBagStart ≤ pos.1) && decide (pos.1 < inventorySlotBagEnd)

/-- The slots of which `GetItemCount` counts the items that are not in the bank. -/
def carriedSlots : List Pos :=
  slotsFrom equipmentSlotStart inventorySlotBagEnd ++
    (slotsFrom inventorySlotItemStart inventorySlotItemEnd ++
      (slotsFrom keyringSlotStart currencytokenSlotEnd ++
        slotsInBags inventorySlotBagStart inventorySlotBagEnd))

namespace Inventory

variable (S : ItemStore) (moment : EquipMoment) (inTrade : Nat → Bool) (inv : Inventory)

def carriedCount (entry : Nat) : Nat :=
  Stock.amount entryCount entry (Stock.held carriedSlots (inv.itemAt S))

def pileAt (entry : Nat) (pos : Pos) : Option (Pile Bool) :=
  (inv.freeAt S inTrade entry pos).map fun item =>
    ⟨item.count,!inv.mayUnequip S moment pos,isCarried pos⟩

def pilesIn (entry : Nat) (slots : List Pos) : List (Pile Bool) :=
  slots.filterMap (inv.pileAt S moment inTrade entry)

def piles (entry : Nat) : List (Pile Bool) := inv.pilesIn S moment inTrade entry destroySlots

def Plain (entry : Nat) : Prop := ∀ item ∈ inv.contents S, item.entry = entry → item.isBag S = false

/-- What a player has, with stacks that are no larger than a maximal stack can be. -/
structure Stacked : Prop where
  stocked : inv.Stocked S
  sizes : ∀ item ∈ inv.contents S, item.count < 2^31

end Inventory

section Carried

variable {S : ItemStore} {inv inv' : Inventory} {pos : Pos} {entry : Nat}

theorem carried_perm : carriedSlots.Perm (destroySlots.filter isCarried) := by
  decide +kernel

theorem nodup_carriedSlots : carriedSlots.Nodup :=
  carried_perm.nodup_iff.mpr (nodup_destroySlots.filter _)

theorem mem_carriedSlots (h : pos ∈ destroySlots) : pos ∈ carriedSlots ↔ isCarried pos = true := by
  rw [carried_perm.mem_iff,List.mem_filter]
  exact and_iff_right h

theorem countOf_eq (entry : Nat) (items : List Item) :
    countOf (fun it => it.entry == entry) none items =
      Stock.amount entryCount entry (items : Multiset Item) := by
  unfold countOf Stock.amount
  rw [Multiset.map_coe,Multiset.sum_coe]
  induction items with
  | nil => rfl
  | cons item items ih =>
    simp only [Option.map_none,ne_eq,reduceCtorEq,not_false_eq_true,decide_true,Bool.and_true] at ih ⊢
    rw [List.filter_cons,List.map_cons,List.sum_cons,← ih]
    by_cases h : item.entry = entry
    · simp [h,entryCount]
    · simp [h,entryCount]

theorem held_itemsFrom (start stop : Nat) :
    (inv.itemsFrom S start stop : Multiset Item) = Stock.held (slotsFrom start stop) (inv.itemAt S) := by
  unfold Inventory.itemsFrom slotsFrom
  rw [Stock.held,List.filterMap_map]
  rfl

theorem held_itemsInBag {bag : Nat} (h : bag ≠ inventorySlotBag0) : inv.itemsInBag S bag =
    ((List.range maxBagSize).map fun slot => (bag,slot)).filterMap (inv.itemAt S) := by
  rw [List.filterMap_map]
  unfold Inventory.itemsInBag
  cases hbag : inv.getBagByPos S bag with
  | none =>
    symm
    rw [List.filterMap_eq_nil_iff]
    intro slot _
    simp [Inventory.itemAt,Inventory.getItemByPos,h,hbag]
  | some pBag =>
    dsimp only
    obtain ⟨d,hd⟩ := Nat.exists_eq_add_of_le (getBagSize_le S pBag)
    rw [hd,List.range_add,List.filterMap_append]
    have hback : ((List.range d).map (pBag.getBagSize S+·)).filterMap
        (inv.itemAt S ∘ fun slot => (bag,slot)) = [] := by
      rw [List.filterMap_eq_nil_iff]
      intro slot hslot
      obtain ⟨k,-,rfl⟩ := List.mem_map.mp hslot
      simp [Inventory.itemAt,Inventory.getItemByPos,h,hbag]
    rw [hback,List.append_nil]
    apply List.filterMap_congr
    intro slot hslot
    have hat : inv.itemAt S (bag,slot) = inv.bagslot pBag.guid slot :=
      itemAt_bag h hbag (List.mem_range.mp hslot)
    exact hat.symm

theorem held_itemsInBags (start stop : Nat) (h : stop ≤ inventorySlotBag0) :
    (inv.itemsInBags S start stop : Multiset Item) =
      Stock.held (slotsInBags start stop) (inv.itemAt S) := by
  unfold Inventory.itemsInBags Stock.held slotsInBags
  rw [List.filterMap_flatMap]
  congr 1
  apply List.flatMap_congr
  intro bag hbag
  have hmem := List.mem_range'_1.mp hbag
  exact held_itemsInBag (by omega)

theorem getItemCount_eq (entry : Nat) :
    inv.getItemCount S entry false none = inv.carriedCount S entry%2^32 := by
  have hfront : inv.itemsFrom S equipmentSlotStart inventorySlotItemEnd =
      inv.itemsFrom S equipmentSlotStart inventorySlotBagEnd ++
        inv.itemsFrom S inventorySlotItemStart inventorySlotItemEnd := by
    unfold Inventory.itemsFrom
    rw [← List.filterMap_append]
    rfl
  unfold Inventory.getItemCount Inventory.carriedCount carriedSlots
  simp only [countOf_eq,Option.any_none,Bool.false_eq_true,if_false]
  rw [hfront,← Multiset.coe_add,held_itemsFrom,held_itemsFrom,held_itemsFrom,
    held_itemsInBags _ _ (by decide)]
  unfold Stock.held
  simp only [List.filterMap_append,← Multiset.coe_add,Stock.amount_add]
  congr 1
  omega

end Carried

section Pieces

variable {S : ItemStore} {Q : Nat → Option Quest} {moment : EquipMoment} {inTrade : Nat → Bool}
  {inv inv' : Inventory} {pos : Pos} {item item' : Item} {entry m : Nat}

theorem plain_cases (h : inv.Plain S entry) :
    (∀ item : Item, item.entry = entry → item.isBag S = false) ∨
      ∀ item ∈ inv.contents S, item.entry ≠ entry := by
  by_cases hsome : ∃ item ∈ inv.contents S, item.entry = entry
  · obtain ⟨item,hitem,rfl⟩ := hsome
    refine .inl fun item' hentry => ?_
    rw [Item.isBag,hentry]
    exact h item hitem rfl
  · exact .inr fun item hitem hentry => hsome ⟨item,hitem,hentry⟩

theorem not_bag_of_freeAt (h : inv.Plain S entry)
    (hat : inv.freeAt S inTrade entry pos = some item) :
    ∀ item : Item, item.entry = entry → item.isBag S = false := by
  obtain ⟨hitem,hfree⟩ := freeAt_some hat
  exact (plain_cases h).resolve_right fun hnone =>
    hnone item (mem_contents.mpr ⟨pos,hitem⟩) hfree.1

theorem mayUnequip_eq (moment : EquipMoment) (hat : inv.itemAt S pos = some item)
    (hat' : inv'.itemAt S pos = some item') (hentry : item'.entry = item.entry)
    (hloot : item'.lootGenerated = item.lootGenerated) (hbag : item.isBag S = false) :
    inv'.mayUnequip S moment pos = inv.mayUnequip S moment pos := by
  have hbag' : item'.isBag S = false := by
    rw [Item.isBag,hentry]
    exact hbag
  have hresult : inv'.canUnequipItem S moment pos false = inv.canUnequipItem S moment pos false := by
    unfold Inventory.canUnequipItem
    rw [hat,hat']
    dsimp only
    rw [hentry,hloot,notEmptyBag_of_not_bag hbag,notEmptyBag_of_not_bag hbag']
  unfold Inventory.mayUnequip
  rw [hresult]

theorem pileAt_congr (h : inv'.itemAt S pos = inv.itemAt S pos) (hplain : inv.Plain S entry) :
    inv'.pileAt S moment inTrade entry pos = inv.pileAt S moment inTrade entry pos := by
  unfold Inventory.pileAt
  rw [freeAt_congr h]
  cases hat : inv.freeAt S inTrade entry pos with
  | none => rfl
  | some item =>
    obtain ⟨hitem,hfree⟩ := freeAt_some hat
    rw [Option.map_some,Option.map_some,mayUnequip_eq moment hitem (h.trans hitem) rfl rfl
      (not_bag_of_freeAt hplain hat item hfree.1)]

theorem pilesIn_congr {slots : List Pos} (h : ∀ pos ∈ slots, inv'.itemAt S pos = inv.itemAt S pos)
    (hplain : inv.Plain S entry) :
    inv'.pilesIn S moment inTrade entry slots = inv.pilesIn S moment inTrade entry slots :=
  List.filterMap_congr fun pos hpos => pileAt_congr (h pos hpos) hplain

theorem amount_entryCount_remains (hentry : item.entry = entry) (m : Nat) :
    Stock.amount entryCount entry (Stock.inPlace (item.remains m)) = m := by
  unfold Item.remains
  split_ifs with hm
  · simp [hm]
  · rw [Stock.inPlace_some,Stock.amount_singleton,entryCount_left,if_pos hentry]

structure Leaves (S : ItemStore) (inv inv' : Inventory) (pos : Pos) (item : Item) (m : Nat) :
    Prop where
  stacked : inv'.Stacked S
  itemAt : inv'.itemAt S = Function.update (inv.itemAt S) pos (item.remains m)
  carried : inv'.carriedCount S item.entry+(if isCarried pos then item.count-m else 0) =
    inv.carriedCount S item.entry

theorem leaves_of_takes (hinv : inv.Stacked S) (hpos : pos ∈ destroySlots)
    (hat : inv.freeAt S inTrade entry pos = some item) (hm : m ≤ item.count)
    (htakes : Takes S inTrade entry inv inv' (item.count-m))
    (hitems : inv'.itemAt S = Function.update (inv.itemAt S) pos (item.remains m)) :
    Leaves S inv inv' pos item m := by
  obtain ⟨hitem,hfree⟩ := freeAt_some hat
  refine ⟨⟨htakes.stocked,?sizes⟩,hitems,?carried⟩
  case sizes =>
    intro left hleft
    obtain ⟨pos',hat'⟩ := mem_contents.mp hleft
    rw [hitems] at hat'
    by_cases heq : pos' = pos
    · subst heq
      rw [Function.update_self] at hat'
      have hmem : left ∈ Stock.inPlace (item.remains m) := by
        rw [hat']
        simp
      have hsize := hinv.sizes item (mem_contents.mpr ⟨pos',hitem⟩)
      rw [(mem_remains hmem).2]
      exact lt_of_le_of_lt hm hsize
    · rw [Function.update_of_ne heq] at hat'
      exact hinv.sizes left (mem_contents.mpr ⟨pos',hat'⟩)
  case carried =>
    have hsame : ∀ pos', pos' ≠ pos → inv'.itemAt S pos' = inv.itemAt S pos' := by
      intro pos' hne
      rw [hitems,Function.update_of_ne hne]
    unfold Inventory.carriedCount
    by_cases hnear : isCarried pos = true
    · have hexchange := congrArg (Stock.amount entryCount item.entry)
        (Stock.held_exchange nodup_carriedSlots ((mem_carriedSlots hpos).mpr hnear) hsame)
      rw [hitems,Function.update_self,hitem,Stock.amount_add,Stock.amount_add,
        amount_entryCount_remains rfl,Stock.inPlace_some,Stock.amount_singleton,entryCount_eq,
        if_pos rfl,← hitems] at hexchange
      rw [if_pos hnear]
      omega
    · have hcongr : Stock.held carriedSlots (inv'.itemAt S) =
          Stock.held carriedSlots (inv.itemAt S) := by
        apply Stock.held_congr
        intro pos' hpos'
        apply hsame
        rintro rfl
        exact hnear ((mem_carriedSlots hpos).mp hpos')
      rw [hcongr,if_neg hnear,add_zero]

theorem leaves_setAt (hinv : inv.Stacked S) (hplain : inv.Plain S entry) (hpos : pos ∈ destroySlots)
    (hat : inv.freeAt S inTrade entry pos = some item) (hm : m ≤ item.count) :
    Leaves S inv (inv.setAt S pos (item.remains m)) pos item m := by
  obtain ⟨htakes,hitems⟩ :=
    takes_setAt hinv.stocked (not_bag_of_freeAt hplain hat) hat hm
  exact leaves_of_takes hinv hpos hat hm htakes hitems

def KeepsEntries (S : ItemStore) (inv inv' : Inventory) : Prop :=
  ∀ pos item', inv'.itemAt S pos = some item' →
    ∃ item, inv.itemAt S pos = some item ∧ item.entry = item'.entry

theorem KeepsEntries.trans {inv'' : Inventory} (h : KeepsEntries S inv inv')
    (h' : KeepsEntries S inv' inv'') : KeepsEntries S inv inv'' := by
  intro pos item'' hat''
  obtain ⟨item',hat',hentry'⟩ := h' pos item'' hat''
  obtain ⟨item,hat,hentry⟩ := h pos item' hat'
  exact ⟨item,hat,hentry.trans hentry'⟩

theorem KeepsEntries.plain (h : KeepsEntries S inv inv') (hplain : inv.Plain S entry) :
    inv'.Plain S entry := by
  intro item' hitem' hentry'
  obtain ⟨pos,hat'⟩ := mem_contents.mp hitem'
  obtain ⟨item,hat,hentry⟩ := h pos item' hat'
  rw [Item.isBag,← hentry]
  exact hplain item (mem_contents.mpr ⟨pos,hat⟩) (hentry.trans hentry')

theorem Leaves.keepsEntries (h : Leaves S inv inv' pos item m) (hat : inv.itemAt S pos = some item) :
    KeepsEntries S inv inv' := by
  intro pos' item' hat'
  rw [h.itemAt] at hat'
  by_cases heq : pos' = pos
  · subst heq
    rw [Function.update_self] at hat'
    have hmem : item' ∈ Stock.inPlace (item.remains m) := by
      rw [hat']
      simp
    rw [(mem_remains hmem).2]
    exact ⟨item,hat,rfl⟩
  · rw [Function.update_of_ne heq] at hat'
    exact ⟨item',hat',rfl⟩

/-- What does not count stays where it is. -/
def KeepsOthers (S : ItemStore) (inTrade : Nat → Bool) (entry : Nat) (inv inv' : Inventory) : Prop :=
  ∀ pos, (inv'.itemAt S pos).filter (fun item => !decide (item.Free inTrade entry)) =
    (inv.itemAt S pos).filter fun item => !decide (item.Free inTrade entry)

theorem Leaves.keepsOthers (h : Leaves S inv inv' pos item m)
    (hat : inv.freeAt S inTrade entry pos = some item) : KeepsOthers S inTrade entry inv inv' := by
  obtain ⟨hitem,hfree⟩ := freeAt_some hat
  intro pos'
  rw [h.itemAt]
  by_cases heq : pos' = pos
  · subst heq
    rw [Function.update_self,hitem,Option.filter_some_neg (by simpa using hfree)]
    unfold Item.remains
    split_ifs with hm
    · rfl
    · exact Option.filter_some_neg (by simpa using free_left hfree)
  · rw [Function.update_of_ne heq]

end Pieces

/-- The pieces are reported to the quest log, each with what is carried at the time. -/
def QuestLog.reports (Q : Nat → Option Quest) (entry : Nat) :
    Nat → List (Nat × Bool) → QuestLog → QuestLog
  | _, [], log => log
  | held, (k,near) :: ps, log =>
    reports Q entry (held-if near then k else 0) ps
      (log.itemRemovedQuestCheck Q entry k (held%2^32))

def nearCount (ps : List (Nat × Bool)) : Nat := (ps.map fun x => if x.2 then x.1 else 0).sum

section Draws

variable {S : ItemStore} {Q : Nat → Option Quest} {moment : EquipMoment} {inTrade : Nat → Bool}
  {p p' : Player} {pos : Pos} {item : Item} {entry k : Nat} {slots : List Pos} {pile : Pile Bool}

/-- What is destroyed is drawn from the piles at some positions, and its pieces are reported. -/
structure Draws (S : ItemStore) (Q : Nat → Option Quest) (moment : EquipMoment)
    (inTrade : Nat → Bool) (entry k : Nat) (slots : List Pos) (p p' : Player) : Prop where
  stacked : p'.inv.Stacked S
  piles : p'.inv.pilesIn S moment inTrade entry slots =
    draw k (p.inv.pilesIn S moment inTrade entry slots)
  elsewhere : ∀ pos, pos ∉ slots → p'.inv.itemAt S pos = p.inv.itemAt S pos
  entries : KeepsEntries S p.inv p'.inv
  others : KeepsOthers S inTrade entry p.inv p'.inv
  carried : p'.inv.carriedCount S entry+
    nearCount (pieces k (p.inv.pilesIn S moment inTrade entry slots)) = p.inv.carriedCount S entry
  quests : p'.quests = p.quests.reports Q entry (p.inv.carriedCount S entry)
    (pieces k (p.inv.pilesIn S moment inTrade entry slots))

theorem pilesIn_cons_none {inv : Inventory} (h : inv.pileAt S moment inTrade entry pos = none) :
    inv.pilesIn S moment inTrade entry (pos :: slots) = inv.pilesIn S moment inTrade entry slots :=
  List.filterMap_cons_none h

theorem pilesIn_cons_some {inv : Inventory} (h : inv.pileAt S moment inTrade entry pos = some pile) :
    inv.pilesIn S moment inTrade entry (pos :: slots) =
      pile :: inv.pilesIn S moment inTrade entry slots :=
  List.filterMap_cons_some h

theorem pileAt_some (moment : EquipMoment) {inv : Inventory}
    (h : inv.freeAt S inTrade entry pos = some item) :
    inv.pileAt S moment inTrade entry pos =
      some ⟨item.count,!inv.mayUnequip S moment pos,isCarried pos⟩ := by
  unfold Inventory.pileAt
  rw [h]
  rfl

theorem Draws.of_pieces_nil (hinv : p.inv.Stacked S)
    (hdraw : draw k (p.inv.pilesIn S moment inTrade entry slots) =
      p.inv.pilesIn S moment inTrade entry slots)
    (hpieces : pieces k (p.inv.pilesIn S moment inTrade entry slots) = []) :
    Draws S Q moment inTrade entry k slots p p where
  stacked := hinv
  piles := hdraw.symm
  elsewhere := fun _ _ => rfl
  entries := fun _ item hat => ⟨item,hat,rfl⟩
  others := fun _ => rfl
  carried := by rw [hpieces]; rfl
  quests := by rw [hpieces]; rfl

theorem Draws.skip (hplain : p.inv.Plain S entry) (hpos : pos ∉ slots)
    (hnone : p.inv.pileAt S moment inTrade entry pos = none)
    (h : Draws S Q moment inTrade entry k slots p p') :
    Draws S Q moment inTrade entry k (pos :: slots) p p' where
  stacked := h.stacked
  piles := by
    have hnone' := (pileAt_congr (h.elsewhere pos hpos) hplain).trans hnone
    rw [pilesIn_cons_none hnone,pilesIn_cons_none hnone',h.piles]
  elsewhere := fun pos' hpos' => h.elsewhere pos' fun hmem => hpos' (List.mem_cons_of_mem _ hmem)
  entries := h.entries
  others := h.others
  carried := by rw [pilesIn_cons_none hnone,h.carried]
  quests := by rw [pilesIn_cons_none hnone,h.quests]

theorem Draws.keep (hplain : p.inv.Plain S entry) (hpos : pos ∉ slots)
    (hpile : p.inv.pileAt S moment inTrade entry pos = some pile) (hk : 0 < k)
    (hle : pile.count ≤ k) (hfixed : pile.fixed = true)
    (h : Draws S Q moment inTrade entry k slots p p') :
    Draws S Q moment inTrade entry k (pos :: slots) p p' where
  stacked := h.stacked
  piles := by
    have hpile' := (pileAt_congr (h.elsewhere pos hpos) hplain).trans hpile
    rw [pilesIn_cons_some hpile,pilesIn_cons_some hpile',draw_fixed hk hle hfixed,h.piles]
  elsewhere := fun pos' hpos' => h.elsewhere pos' fun hmem => hpos' (List.mem_cons_of_mem _ hmem)
  entries := h.entries
  others := h.others
  carried := by rw [pilesIn_cons_some hpile,pieces_fixed hk hle hfixed,h.carried]
  quests := by rw [pilesIn_cons_some hpile,pieces_fixed hk hle hfixed,h.quests]

def Player.without (S : ItemStore) (Q : Nat → Option Quest) (p : Player) (pos : Pos) (item : Item)
    (m : Nat) : Player where
  inv := p.inv.setAt S pos (item.remains m)
  quests := p.quests.itemRemovedQuestCheck Q item.entry (item.count-m)
    (p.inv.carriedCount S item.entry%2^32)

theorem destroyItem_eq_without (hitem : p.inv.itemAt S pos = some item)
    (hempty : p.inv.isNotEmptyBag S item = false) (depth : Nat) :
    p.destroyItem S Q (depth+1) pos = p.without S Q pos item 0 := by
  rw [Player.destroyItem,hitem]
  dsimp only
  rw [hempty,if_neg Bool.false_ne_true]
  unfold Player.without Player.itemRemovedQuestCheck
  rw [getItemCount_eq]
  dsimp only
  rw [removeItem_eq hitem]
  rfl

theorem Leaves.pilesIn_rest {inv inv' : Inventory} {m : Nat} (h : Leaves S inv inv' pos item m)
    (moment : EquipMoment) (inTrade : Nat → Bool) (hplain : inv.Plain S entry) (hpos : pos ∉ slots) :
    inv'.pilesIn S moment inTrade entry slots = inv.pilesIn S moment inTrade entry slots := by
  apply pilesIn_congr _ hplain
  intro pos' hpos'
  have hne : pos' ≠ pos := fun heq => hpos (heq ▸ hpos')
  rw [h.itemAt,Function.update_of_ne hne]

theorem Draws.whole (hinv : p.inv.Stacked S) (hplain : p.inv.Plain S entry)
    (hsub : pos ∈ destroySlots) (hpos : pos ∉ slots)
    (hat : p.inv.freeAt S inTrade entry pos = some item) (hk : 0 < k) (hle : item.count ≤ k)
    (hmay : p.inv.mayUnequip S moment pos = true)
    (h : Draws S Q moment inTrade entry (k-item.count) slots (p.without S Q pos item 0) p') :
    Draws S Q moment inTrade entry k (pos :: slots) p p' := by
  obtain ⟨hitem,hfree⟩ := freeAt_some hat
  have hleaves : Leaves S p.inv (p.without S Q pos item 0).inv pos item 0 :=
    leaves_setAt hinv hplain hsub hat (Nat.zero_le _)
  have hpile : p.inv.pileAt S moment inTrade entry pos = some ⟨item.count,false,isCarried pos⟩ := by
    rw [pileAt_some moment hat,hmay]
    rfl
  have hempty : p'.inv.itemAt S pos = none := by
    rw [h.elsewhere pos hpos,hleaves.itemAt,Function.update_self]
    rfl
  have hnone : p'.inv.pileAt S moment inTrade entry pos = none := by
    unfold Inventory.pileAt Inventory.freeAt
    rw [hempty]
    rfl
  have hrest := hleaves.pilesIn_rest moment inTrade hplain hpos
  have hpieces : pieces k (p.inv.pilesIn S moment inTrade entry (pos :: slots)) =
      (item.count,isCarried pos) ::
        pieces (k-item.count) (p.inv.pilesIn S moment inTrade entry slots) := by
    rw [pilesIn_cons_some hpile,pieces_loose hk hle rfl]
  have hcarried := hleaves.carried
  rw [hfree.1,Nat.sub_zero] at hcarried
  refine ⟨h.stacked,?_,?_,(hleaves.keepsEntries hitem).trans h.entries,?_,?_,?_⟩
  · rw [pilesIn_cons_none hnone,pilesIn_cons_some hpile,draw_loose hk hle rfl,h.piles,hrest]
  · intro pos' hpos'
    obtain ⟨hne,hnotin⟩ := not_or.mp (mt List.mem_cons.mpr hpos')
    rw [h.elsewhere pos' hnotin,hleaves.itemAt,Function.update_of_ne hne]
  · intro pos'
    rw [h.others pos',hleaves.keepsOthers hat pos']
  · have hlater := h.carried
    rw [hrest] at hlater
    rw [hpieces]
    unfold nearCount at hlater ⊢
    rw [List.map_cons,List.sum_cons]
    dsimp only
    omega
  · have hheld : (p.without S Q pos item 0).inv.carriedCount S entry =
        p.inv.carriedCount S entry-if isCarried pos = true then item.count else 0 := by
      omega
    rw [h.quests,hrest,hheld,hpieces,QuestLog.reports]
    unfold Player.without
    rw [hfree.1,Nat.sub_zero]

theorem Draws.part (Q : Nat → Option Quest) (moment : EquipMoment) (hinv : p.inv.Stacked S)
    (hplain : p.inv.Plain S entry) (hsub : pos ∈ destroySlots) (hpos : pos ∉ slots)
    (hat : p.inv.freeAt S inTrade entry pos = some item) (hk : 0 < k) (hlt : k < item.count) :
    Draws S Q moment inTrade entry k (pos :: slots) p (p.without S Q pos item (item.count-k)) := by
  obtain ⟨hitem,hfree⟩ := freeAt_some hat
  have hleaves : Leaves S p.inv (p.without S Q pos item (item.count-k)).inv pos item
      (item.count-k) := leaves_setAt hinv hplain hsub hat (Nat.sub_le _ _)
  have hleft : (p.without S Q pos item (item.count-k)).inv.itemAt S pos =
      some (item.left (item.count-k)) := by
    rw [hleaves.itemAt,Function.update_self]
    exact if_neg (by omega)
  have hat' : (p.without S Q pos item (item.count-k)).inv.freeAt S inTrade entry pos =
      some (item.left (item.count-k)) := by
    unfold Inventory.freeAt
    rw [hleft]
    exact Option.filter_some_pos (by simpa [Item.left,Item.Free] using hfree)
  have hmay := mayUnequip_eq moment hitem hleft rfl rfl
    (not_bag_of_freeAt hplain hat item hfree.1)
  have hpile := pileAt_some moment hat
  have hpile' := pileAt_some moment hat'
  rw [hmay] at hpile'
  have hrest := hleaves.pilesIn_rest moment inTrade hplain hpos
  have hpieces : pieces k (p.inv.pilesIn S moment inTrade entry (pos :: slots)) =
      [(k,isCarried pos)] := by
    rw [pilesIn_cons_some hpile,pieces_part hk hlt]
  have hgone : item.count-(item.count-k) = k := by omega
  refine ⟨hleaves.stacked,?_,?_,hleaves.keepsEntries hitem,hleaves.keepsOthers hat,?_,?_⟩
  · rw [pilesIn_cons_some hpile,pilesIn_cons_some hpile',draw_part hk hlt,hrest]
    rfl
  · intro pos' hpos'
    rw [hleaves.itemAt,Function.update_of_ne (not_or.mp (mt List.mem_cons.mpr hpos')).1]
  · have hcarried := hleaves.carried
    rw [hfree.1,hgone] at hcarried
    rw [hpieces]
    simpa [nearCount] using hcarried
  · rw [hpieces]
    unfold Player.without QuestLog.reports QuestLog.reports
    rw [hfree.1,hgone]

/-- One slot, without the numbers of 32 bits: the stack stays, goes, or goes in part. -/
theorem destroyCountIn_cons {count gone : Nat} {may : Inventory → Pos → Bool} (depth : Nat)
    (hat : p.inv.freeAt S inTrade entry pos = some item)
    (hempty : may p.inv pos = true → p.inv.isNotEmptyBag S item = false)
    (hsize : item.count < 2^31) (hgone : gone < count) (hcount : count < 2^31) :
    (p.destroyCountIn S Q inTrade (depth+1) entry count may (pos :: slots) gone).1 =
      if item.count ≤ count-gone then
        if may p.inv pos = true then
          if count-gone ≤ item.count then p.without S Q pos item 0
          else ((p.without S Q pos item 0).destroyCountIn S Q inTrade (depth+1) entry count may slots
            (gone+item.count)).1
        else (p.destroyCountIn S Q inTrade (depth+1) entry count may slots gone).1
      else p.without S Q pos item (item.count-(count-gone)) := by
  have hmod : (item.count+gone)%2^32 = item.count+gone := Nat.mod_eq_of_lt (by omega)
  have hmod' : (gone+item.count)%2^32 = gone+item.count := Nat.mod_eq_of_lt (by omega)
  rw [Player.destroyCountIn,hat]
  dsimp only
  rw [hmod,hmod',if_congr (show item.count+gone ≤ count ↔ item.count ≤ count-gone by omega) rfl rfl]
  split_ifs with hfits hmay hdone hdone hdone
  · exact destroyItem_eq_without (freeAt_some hat).1 (hempty hmay) depth
  · omega
  · omega
  · rw [destroyItem_eq_without (freeAt_some hat).1 (hempty hmay)]
  · rfl
  · have hcountLeft : (item.count+gone+(2^32-count))%2^32 = item.count-(count-gone) := by omega
    have hcountGone : sub32 count gone = item.count-(item.count-(count-gone)) := by
      unfold sub32
      omega
    have hremains : item.remains (item.count-(count-gone)) =
        some (item.left (item.count-(count-gone))) := if_neg (by omega)
    unfold Player.without
    rw [hcountLeft,hremains,← hcountGone,← getItemCount_eq]
    rfl

theorem draws_destroyCountIn {count gone : Nat} (depth : Nat) (hinv : p.inv.Stacked S)
    (hplain : p.inv.Plain S entry) (hslots : slots.Nodup) (hsub : ∀ pos ∈ slots, pos ∈ destroySlots)
    (hgone : gone < count) (hcount : count < 2^31) :
    Draws S Q moment inTrade entry (count-gone) slots p
      (p.destroyCountIn S Q inTrade (depth+1) entry count
        (fun inv pos => inv.mayUnequip S moment pos) slots gone).1 := by
  induction slots generalizing p gone with
  | nil =>
    exact Draws.of_pieces_nil hinv (by simp [Inventory.pilesIn,draw])
      (by simp [Inventory.pilesIn,pieces])
  | cons pos rest ih =>
    obtain ⟨hpos,hrest⟩ := List.nodup_cons.mp hslots
    obtain ⟨hhere,hsubrest⟩ := List.forall_mem_cons.mp hsub
    have hk : 0 < count-gone := by omega
    cases hat : p.inv.freeAt S inTrade entry pos with
    | none =>
      rw [Player.destroyCountIn,hat]
      refine Draws.skip hplain hpos ?_ (ih hinv hplain hrest hsubrest hgone)
      unfold Inventory.pileAt
      rw [hat]
      rfl
    | some item =>
      obtain ⟨hitem,hfree⟩ := freeAt_some hat
      have hsize := hinv.sizes item (mem_contents.mpr ⟨pos,hitem⟩)
      have hempty := @notEmptyBag_of_not_bag S p.inv item
        (not_bag_of_freeAt hplain hat item hfree.1)
      have hleaves : Leaves S p.inv (p.without S Q pos item 0).inv pos item 0 :=
        leaves_setAt hinv hplain hhere hat (Nat.zero_le _)
      have hplain' := (hleaves.keepsEntries hitem).plain hplain
      rw [destroyCountIn_cons depth hat (fun _ => hempty) hsize hgone hcount]
      split_ifs with hfits hmay hdone
      · refine Draws.whole hinv hplain hhere hpos hat hk hfits hmay ?_
        rw [Nat.sub_eq_zero_of_le hdone]
        exact Draws.of_pieces_nil hleaves.stacked (draw_zero _) (pieces_zero _)
      · refine Draws.whole hinv hplain hhere hpos hat hk hfits hmay ?_
        rw [Nat.sub_sub]
        exact ih hleaves.stacked hplain' hrest hsubrest (by omega)
      · exact Draws.keep hplain hpos (pileAt_some moment hat) hk hfits (by simpa using hmay)
          (ih hinv hplain hrest hsubrest hgone)
      · exact Draws.part Q moment hinv hplain hhere hpos hat hk (by omega)

end Draws

end TrinityCore.Players
