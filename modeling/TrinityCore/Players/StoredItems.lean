import TrinityCore.Players.Storage
import TrinityCore.Players.StorageExact

set_option autoImplicit false

namespace TrinityCore.Players

open Slots

def entryCount (entry : Nat) (it : Item) : Nat := if it.entry = entry then it.count else 0

/-- Stacks are not empty and within a bound for their entry. -/
def Item.Within (bound : Nat → Nat) (it : Item) : Prop := 0 < it.count ∧ it.count ≤ bound it.entry

/-- The maximal stacks are within the bounds, which are unsigned numbers. -/
def ItemStore.Bounded (S : ItemStore) (bound : Nat → Nat) : Prop :=
  ∀ entry proto, S.getItemTemplate entry = some proto →
    proto.getMaxStackSize ≤ bound entry ∧ bound entry < 2^32

abbrev Reshaped (bound : Nat → Nat) (nextGuid nextGuid' : Nat) (m m' : Multiset Item) : Prop :=
  Stock.Reshaped Item.guid (Item.Within bound) entryCount nextGuid nextGuid' m m'

abbrev Registered (bound : Nat → Nat) (nextGuid : Nat) (m : Multiset Item) : Prop :=
  Stock.Registered Item.guid (Item.Within bound) nextGuid m

def Item.stack (it : Item) : Nat × Nat × Nat := (it.guid,it.entry,it.count)

variable {bound : Nat → Nat} {S : ItemStore} {bonding : Nat → ItemBonding} {inv : Inventory} {pos : Pos} {it : Item}
  {nextGuid : Nat}

theorem reshaped_of_stack {m m' : Multiset Item} (h : m'.map Item.stack = m.map Item.stack)
    (nextGuid : Nat) : Reshaped bound nextGuid nextGuid m m' where
  amount := by
    intro entry
    have hcount : ∀ m : Multiset Item, Stock.amount entryCount entry m =
        ((m.map Item.stack).map fun x => if x.2.1 = entry then x.2.2 else 0).sum := by
      intro m
      rw [Multiset.map_map]
      rfl
    rw [hcount m',h,← hcount]
  next_le := le_rfl
  good := by
    intro hall it hit
    have hmem : it.stack ∈ m.map Item.stack := h ▸ Multiset.mem_map_of_mem _ hit
    obtain ⟨it',hit',heq⟩ := Multiset.mem_map.mp hmem
    simp only [Item.stack,Prod.mk.injEq] at heq
    obtain ⟨-,hentry,hcount⟩ := heq
    have hwithin := hall it' hit'
    unfold Item.Within at hwithin ⊢
    rw [← hentry,← hcount]
    exact hwithin
  serials := by
    refine ⟨0,Multiset.nodup_zero,by simp,?_⟩
    have hguid : ∀ m : Multiset Item, m.map Item.guid = (m.map Item.stack).map Prod.fst := by
      intro m
      rw [Multiset.map_map]
      rfl
    rw [add_zero,hguid m',h,← hguid]

theorem keepsBags_none (hbag : isBagPos pos = true → it.isBag S = false)
    (h : inv.itemAt S pos = some it) : inv.KeepsBags S pos none := by
  intro hpos
  rw [h,Option.filter_some_neg (hbag hpos)]
  rfl

theorem removeItem_eq (h : inv.itemAt S pos = some it) :
    inv.removeItem S pos = inv.setAt S pos none := by
  unfold Inventory.removeItem
  rw [h]
  rfl

theorem itemAt_removeItem (hnodup : ((inv.contents S).map Item.guid).Nodup)
    (hbag : isBagPos pos = true → it.isBag S = false) (h : inv.itemAt S pos = some it) :
    (inv.removeItem S pos).itemAt S = Function.update (inv.itemAt S) pos none := by
  rw [removeItem_eq h]
  exact itemAt_setAt hnodup (valid_of_itemAt h) (keepsBags_none hbag h)

theorem contents_removeItem (hnodup : ((inv.contents S).map Item.guid).Nodup)
    (hbag : isBagPos pos = true → it.isBag S = false) (h : inv.itemAt S pos = some it) :
    (inv.removeItem S pos).contents S+{it} = inv.contents S := by
  have hset := contents_setAt hnodup (valid_of_itemAt h) (keepsBags_none hbag h)
  rw [h] at hset
  rw [removeItem_eq h]
  simpa using hset

structure Placeable (bound : Nat → Nat) (S : ItemStore) (inv : Inventory) (pItem : Item)
    (e : Pos × Nat) : Prop where
  valid : inv.Valid S e.1
  notBag : isBagPos e.1 = false
  pos : 0 < e.2
  fits : ∃ proto, S.getItemTemplate pItem.entry = some proto ∧ e.2 ≤ proto.getMaxStackSize
  merges : ∀ it, inv.itemAt S e.1 = some it →
    it.entry = pItem.entry ∧ it.count+e.2 ≤ bound pItem.entry

theorem put_eq (hnodup : ((inv.contents S).map Item.guid).Nodup) (hvalid : inv.Valid S pos)
    (hguid : it.guid ∉ (inv.contents S).map Item.guid ∨
      ∃ old, inv.itemAt S pos = some old ∧ old.guid = it.guid) :
    inv.put S pos it = inv.setAt S pos (some it) := by
  unfold Inventory.put
  apply if_neg
  rcases bagAt_of_valid hvalid with ⟨hnone,-⟩ | ⟨pBag,hsome,hpos,hbag,-⟩
  · rw [hnone]
    simp
  · rw [hsome]
    intro heq
    have heq : it.guid = pBag.guid := by simpa using heq
    obtain ⟨hslot,hitem,-⟩ := getBagByPos_some hbag
    have hat : inv.itemAt S (inventorySlotBag0,pos.1) = some pBag := by
      rw [itemAt_player rfl (bagSlots_sub hslot).1,hitem]
    rcases hguid with hnew | ⟨old,hold,hsame⟩
    · exact hnew (heq ▸ Multiset.mem_map_of_mem Item.guid (mem_contents.mpr ⟨_,hat⟩))
    · have hplace := Stock.held_inj hnodup (mem_places (valid_of_itemAt hold))
        (mem_places (valid_of_itemAt hat)) hold hat (hsame.trans heq)
      exact hpos (Prod.ext_iff.mp hplace).1

/-- What `_StoreItem` puts into a place: a clone, the item itself or the larger stack. -/
inductive StoredAs (inv : Inventory) (S : ItemStore) (pItem : Item) (pos : Pos) (n nextGuid : Nat)
    (x : Item) : Bool → Nat → Prop
  | clone (hempty : inv.itemAt S pos = none) (hcount : x.count = n) (hguid : x.guid = nextGuid) :
    StoredAs inv S pItem pos n nextGuid x true (nextGuid+1)
  | itself (hempty : inv.itemAt S pos = none) (hcount : x.count = n) (hguid : x.guid = pItem.guid) :
    StoredAs inv S pItem pos n nextGuid x false nextGuid
  | merged (old : Item) (hold : inv.itemAt S pos = some old) (hentry : old.entry = pItem.entry)
    (hcount : x.count = old.count+n) (hguid : x.guid = old.guid) (clone : Bool) :
    StoredAs inv S pItem pos n nextGuid x clone nextGuid

def Item.left (it : Item) (count : Nat) : Item := { it with count := count }

theorem entryCount_left (k : Nat) (it : Item) (count : Nat) :
    entryCount k (it.left count) = if it.entry = k then count else 0 := rfl

theorem entryCount_eq (k : Nat) (it : Item) :
    entryCount k it = if it.entry = k then it.count else 0 := rfl

theorem guid_left (it : Item) (count : Nat) : (it.left count).guid = it.guid := rfl

variable {pItem : Item} {n : Nat} {clone : Bool}

theorem StoredAs.within {x : Item} {nextGuid' : Nat}
    (h : StoredAs inv S pItem pos n nextGuid x clone nextGuid') (hb : S.Bounded bound)
    (hp : Placeable bound S inv pItem (pos,n)) (hentry : x.entry = pItem.entry) :
    x.Within bound := by
  obtain ⟨proto,hproto,hle⟩ := hp.fits
  have hbound := (hb pItem.entry proto hproto).1
  have hpos := hp.pos
  dsimp only at hle hpos
  have hnew : x.count = n → x.Within bound := by
    intro hcount
    unfold Item.Within
    rw [hcount,hentry]
    exact ⟨hpos,by omega⟩
  cases h with
  | clone _ hcount _ => exact hnew hcount
  | itself _ hcount _ => exact hnew hcount
  | merged old hold _ hcount _ =>
    have hmerge := (hp.merges old hold).2
    unfold Item.Within
    rw [hcount,hentry]
    exact ⟨by omega,hmerge⟩

/-- What else an item that is put into a place has from the item that is stored, or from the stack
that was there. -/
structure PutAs (pItem : Item) (old : Option Item) (n : Nat) (clone : Bool) (x : Item) : Prop where
  entry : x.entry = pItem.entry
  new : old = none → x.count = n ∧ (pItem.lootGenerated = false → x.lootGenerated = false) ∧
    x.gems = if clone then [] else pItem.gems
  merged : ∀ it, old = some it → it.entry = pItem.entry ∧ x.count = it.count+n ∧
    x.lootGenerated = it.lootGenerated ∧ x.gems = it.gems

theorem storeItemAt_put {a : Nat} (bonding : Nat → ItemBonding) (clone : Bool) (hb : S.Bounded bound)
    (hreg : Registered bound nextGuid ({pItem.left a}+inv.contents S))
    (hp : Placeable bound S inv pItem (pos,n)) :
    ∃ x, (inv.storeItemAt S bonding pos pItem n clone nextGuid).1 = inv.setAt S pos (some x) ∧
      PutAs pItem (inv.itemAt S pos) n clone x ∧ StoredAs inv S pItem pos n nextGuid x clone
        (inv.storeItemAt S bonding pos pItem n clone nextGuid).2 := by
  have hnodup : ((inv.contents S).map Item.guid).Nodup :=
    (hreg.of_le (Multiset.le_add_left _ _)).nodup
  unfold Inventory.storeItemAt
  rcases Option.eq_none_or_eq_some (inv.itemAt S pos) with hempty | ⟨old,hold⟩
  · rw [hempty]
    dsimp only
    cases clone with
    | true =>
      obtain ⟨proto,hproto,hle⟩ := hp.fits
      have hpos := hp.pos
      dsimp only at hpos hle
      have hclone : pItem.cloneItem S n nextGuid inv.guid = some
          ⟨nextGuid,pItem.entry,n,inv.guid,pItem.soulBound,none,false,[]⟩ := by
        unfold Item.cloneItem
        rw [if_neg (by omega),hproto,Option.map_some,min_eq_left hle]
      rw [if_pos rfl,hclone]
      dsimp only
      rw [put_eq hnodup hp.valid]
      · exact ⟨_,rfl,⟨rfl,fun _ => ⟨rfl,fun _ => rfl,rfl⟩,by simp⟩,.clone hempty rfl rfl⟩
      · refine .inl fun hmem => ?_
        obtain ⟨it,hit,hguid⟩ := Multiset.mem_map.mp hmem
        have hlt := hreg.below it (Multiset.mem_add.mpr (.inr hit))
        dsimp only at hguid
        omega
    | false =>
      rw [if_neg (by simp)]
      dsimp only
      rw [put_eq hnodup hp.valid]
      · exact ⟨_,rfl,⟨rfl,fun _ => ⟨rfl,id,rfl⟩,by simp⟩,.itself hempty rfl rfl⟩
      · refine .inl fun hmem => ?_
        have hall := hreg.nodup
        rw [Multiset.map_add,Multiset.nodup_add] at hall
        exact Multiset.disjoint_left.mp hall.2.2 (by simp [guid_left]) hmem
  · rw [hold]
    dsimp only
    obtain ⟨hentry,hle⟩ := hp.merges old hold
    obtain ⟨proto,hproto,-⟩ := hp.fits
    have hbound := (hb pItem.entry proto hproto).2
    dsimp only at hle
    have hlt : old.count+n < 2^32 := by omega
    have hput : ∀ x : Item, x.guid = old.guid → inv.put S pos x = inv.setAt S pos (some x) :=
      fun x hx => put_eq hnodup hp.valid (.inr ⟨old,hold,hx.symm⟩)
    refine ⟨_,hput _ ?_,⟨hentry,by simp,?_⟩,
      .merged old hold hentry (Nat.mod_eq_of_lt hlt) ?_ clone⟩
    · rfl
    · rintro it ⟨⟩
      exact ⟨hentry,Nat.mod_eq_of_lt hlt,rfl,rfl⟩
    · rfl

theorem within_of_setAt {x : Item} {o : Option Item} {rest m : Multiset Item}
    (hset : m+Stock.inPlace o = rest+{x}) (hx : x.Within bound)
    (hrest : ∀ it ∈ rest, it.Within bound) : ∀ it ∈ m, it.Within bound := by
  intro it hit
  have hmem : it ∈ rest+{x} := hset ▸ Multiset.mem_add.mpr (.inl hit)
  rcases Multiset.mem_add.mp hmem with h | h
  · exact hrest it h
  · exact Multiset.mem_singleton.mp h ▸ hx

def Item.unstored (it : Item) (count : Nat) (clone : Bool) : Multiset Item :=
  if clone then {it.left count} else 0

theorem reshaped_storeItemAt {c : Nat} (bonding : Nat → ItemBonding) (clone : Bool)
    (hb : S.Bounded bound) (hreg : Registered bound nextGuid ({pItem.left (n+c)}+inv.contents S))
    (hp : Placeable bound S inv pItem (pos,n)) (hc : 0 < c ↔ clone = true) :
    Reshaped bound nextGuid (inv.storeItemAt S bonding pos pItem n clone nextGuid).2
      ({pItem.left (n+c)}+inv.contents S)
      (pItem.unstored c clone+
        (inv.storeItemAt S bonding pos pItem n clone nextGuid).1.contents S) := by
  have hnodup : ((inv.contents S).map Item.guid).Nodup :=
    (hreg.of_le (Multiset.le_add_left _ _)).nodup
  obtain ⟨x,hx,hput,hstored⟩ := storeItemAt_put bonding clone hb hreg hp
  have hset := contents_setAt hnodup hp.valid (keepsBags_of_not hp.notBag) (o := some x)
  rw [← hx] at hset
  have hleft : ∀ k, Stock.amount entryCount k (pItem.unstored c clone) =
      if pItem.entry = k then c else 0 := by
    intro k
    cases clone with
    | true => exact Stock.amount_singleton k _
    | false =>
      have hzero : c = 0 := by simpa using hc
      simp [Item.unstored,hzero]
  constructor
  · intro k
    have hk := congrArg (Stock.amount entryCount k) hset
    simp only [Stock.amount_add,Stock.inPlace_some,Stock.amount_singleton,entryCount_left,hleft,
      entryCount_eq k x,hput.entry] at hk ⊢
    cases hat : inv.itemAt S pos with
    | none =>
      rw [hat,Stock.inPlace_none,Stock.amount_zero,(hput.new hat).1] at hk
      split_ifs at hk ⊢ <;> omega
    | some old =>
      obtain ⟨hold,hcount,-⟩ := hput.merged old hat
      rw [hat,Stock.inPlace_some,Stock.amount_singleton,entryCount_eq,hold,hcount] at hk
      split_ifs at hk ⊢ <;> omega
  · generalize (inv.storeItemAt S bonding pos pItem n clone nextGuid).2 = nextGuid' at hstored ⊢
    cases hstored <;> omega
  · intro hall it hit
    rcases Multiset.mem_add.mp hit with hit | hit
    · have hwhole := (hall (pItem.left (n+c)) (by simp)).2
      cases clone with
      | true =>
        rw [Multiset.mem_singleton.mp hit]
        exact ⟨hc.mpr rfl,(Nat.le_add_left c n).trans hwhole⟩
      | false => simp [Item.unstored] at hit
    · exact within_of_setAt hset (hstored.within hb hp hput.entry)
        (fun it hit => hall it (Multiset.mem_add.mpr (.inr hit))) it hit
  · have hguids := congrArg (Multiset.map Item.guid) hset
    generalize inv.storeItemAt S bonding pos pItem n clone nextGuid = r at hguids hstored
    obtain ⟨inv',nextGuid'⟩ := r
    dsimp only at hguids hstored ⊢
    simp only [Multiset.map_add,Stock.inPlace_some,Multiset.map_singleton] at hguids ⊢
    cases hstored with
    | clone hempty hcount hguid =>
      refine ⟨{nextGuid},by simp,by simp,?_⟩
      rw [hempty,hguid] at hguids
      simp only [Stock.inPlace_none,Multiset.map_zero,add_zero] at hguids
      simp [Item.unstored,hguids,guid_left]
    | itself hempty hcount hguid =>
      refine ⟨0,by simp,by simp,?_⟩
      rw [hempty,hguid] at hguids
      simp only [Stock.inPlace_none,Multiset.map_zero,add_zero] at hguids
      simp [Item.unstored,hguids,guid_left,add_comm]
    | merged old hold hold' hcount hguid =>
      refine ⟨0,by simp,by simp,?_⟩
      rw [hold,hguid] at hguids
      rw [add_right_cancel hguids,add_zero]
      gcongr
      cases clone <;> simp [Item.unstored,guid_left]

theorem Placeable.after (hnodup : ((inv.contents S).map Item.guid).Nodup) {e : Pos × Nat}
    (h : Placeable bound S inv pItem e) (hvalid : inv.Valid S pos) (hbag : isBagPos pos = false)
    (hne : e.1 ≠ pos) (o : Option Item) : Placeable bound S (inv.setAt S pos o) pItem e where
  valid := by
    unfold Inventory.Valid
    rw [getBagByPos_setAt hvalid (keepsBags_of_not hbag)]
    exact h.valid
  notBag := h.notBag
  pos := h.pos
  fits := h.fits
  merges := by
    intro it hit
    rw [itemAt_setAt hnodup hvalid (keepsBags_of_not hbag),Function.update_of_ne hne] at hit
    exact h.merges it hit

/-- After the first of several pieces, what is left of the item is stored as before. -/
theorem storeItem_step {e : Pos × Nat} {rest : List (Pos × Nat)}
    (bonding : Nat → ItemBonding) (hb : S.Bounded bound)
    (hreg : Registered bound nextGuid
      ({pItem.left (n+((e :: rest).map Prod.snd).sum)}+inv.contents S))
    (hdistinct : pos ∉ (e :: rest).map Prod.fst)
    (hp : ∀ e' ∈ (pos,n) :: e :: rest, Placeable bound S inv pItem e') :
    ∃ x nextGuid', inv.storeItem S bonding pItem ((pos,n) :: e :: rest) nextGuid =
        (inv.setAt S pos (some x)).storeItem S bonding pItem (e :: rest) nextGuid' ∧
      PutAs pItem (inv.itemAt S pos) n true x ∧
      Reshaped bound nextGuid nextGuid'
        ({pItem.left (n+((e :: rest).map Prod.snd).sum)}+inv.contents S)
        ({pItem.left ((e :: rest).map Prod.snd).sum}+(inv.setAt S pos (some x)).contents S) ∧
      ∀ e' ∈ e :: rest, Placeable bound S (inv.setAt S pos (some x)) pItem e' := by
  have hfirst := hp (pos,n) List.mem_cons_self
  have hnodup : ((inv.contents S).map Item.guid).Nodup :=
    (hreg.of_le (Multiset.le_add_left _ _)).nodup
  have hrest : 0 < ((e :: rest).map Prod.snd).sum := by
    have hpos := (hp e (by simp)).pos
    rw [List.map_cons,List.sum_cons]
    omega
  have hstep := reshaped_storeItemAt bonding true hb hreg hfirst (iff_of_true hrest rfl)
  obtain ⟨x,hx,hput,-⟩ := storeItemAt_put bonding true hb hreg hfirst
  refine ⟨x,(inv.storeItemAt S bonding pos pItem n true nextGuid).2,?_,hput,?_,?_⟩
  · rw [← hx]
    rfl
  · rw [hx] at hstep
    exact hstep
  · intro e' he'
    refine (hp e' (List.mem_cons_of_mem _ he')).after hnodup hfirst.valid hfirst.notBag ?_ _
    intro heq
    have heq : e'.1 = pos := heq
    exact hdistinct (heq ▸ List.mem_map_of_mem he')

theorem reshaped_storeItem {dest : List (Pos × Nat)} (hb : S.Bounded bound)
    (hreg : Registered bound nextGuid ({pItem.left (dest.map Prod.snd).sum}+inv.contents S))
    (hne : dest ≠ []) (hdistinct : (dest.map Prod.fst).Nodup)
    (hp : ∀ e ∈ dest, Placeable bound S inv pItem e) :
    Reshaped bound nextGuid (inv.storeItem S bonding pItem dest nextGuid).2
      ({pItem.left (dest.map Prod.snd).sum}+inv.contents S)
      ((inv.storeItem S bonding pItem dest nextGuid).1.contents S) := by
  induction dest generalizing inv nextGuid with
  | nil => exact absurd rfl hne
  | cons e dest ih =>
    obtain ⟨pos,n⟩ := e
    cases dest with
    | nil =>
      rw [List.map_singleton,List.sum_singleton] at hreg ⊢
      have hlast := reshaped_storeItemAt bonding false (c := 0) hb hreg
        (hp (pos,n) List.mem_cons_self) (by decide)
      simp only [Item.unstored,Bool.false_eq_true,if_false,zero_add] at hlast
      exact hlast
    | cons e rest =>
      obtain ⟨hnot,hdistinct⟩ := List.nodup_cons.mp hdistinct
      rw [List.map_cons,List.sum_cons] at hreg ⊢
      obtain ⟨x,nextGuid',heq,-,hstep,hplaces⟩ := storeItem_step bonding hb hreg hnot hp
      rw [heq]
      exact hstep.trans (ih (hstep.registered hreg) (by simp) hdistinct hplaces)

section CanStore

variable {req : StoreRequest}

/-- A place that a search uses: free, or with a stack to merge with. -/
structure Open (S : ItemStore) (inv : Inventory) (req : StoreRequest) (pos : Pos) : Prop where
  valid : inv.Valid S pos
  notBag : isBagPos pos = false
  usable : ∃ merge, inv.usable S req.pProto merge req.pItem pos = true

theorem open_player {slotBegin slotEnd : Nat} {merge : Bool}
    (hrange : ∀ slot, slotBegin ≤ slot → slot < slotEnd → slot ∈ playerSlots ∧ slot ∉ bagSlots)
    (h : pos ∈ inv.slotsInPlayer S req slotBegin slotEnd merge) : Open S inv req pos := by
  obtain ⟨hslots,husable⟩ := List.mem_filter.mp h
  obtain ⟨slot,hslot,rfl⟩ := List.mem_map.mp hslots
  have hmem := List.mem_range'_1.mp (List.mem_filter.mp hslot).1
  obtain ⟨hplayer,hnotBag⟩ := hrange slot hmem.1 (by omega)
  refine ⟨.inl ⟨rfl,hplayer⟩,?_,merge,husable⟩
  rw [← Bool.not_eq_true,isBagPos_iff]
  exact fun hbag => hnotBag hbag.2

theorem open_backpack {merge : Bool} (h : pos ∈ inv.slotsInBackpack S req merge) :
    Open S inv req pos := by
  apply open_player _ h
  intro slot hge hlt
  rw [mem_playerSlots,mem_bagSlots]
  simp only [inventorySlotItemStart,inventorySlotItemEnd,inventorySlotBagStart,
    inventorySlotBagEnd,bankSlotBagStart,bankSlotBagEnd,keyringSlotStart,
    currencytokenSlotEnd] at *
  omega

theorem open_keyring (h : pos ∈ inv.slotsInKeyring S req) : Open S inv req pos := by
  apply open_player _ h
  intro slot hge hlt
  rw [mem_playerSlots,mem_bagSlots]
  simp only [inventorySlotBagStart,inventorySlotBagEnd,bankSlotBagStart,bankSlotBagEnd,
    keyringSlotStart,keyringSlotEnd,getMaxKeyringSize,currencytokenSlotEnd] at *
  omega

theorem open_tokens (h : pos ∈ inv.slotsInTokens S req) : Open S inv req pos := by
  apply open_player _ h
  intro slot hge hlt
  rw [mem_playerSlots,mem_bagSlots]
  simp only [inventorySlotBagStart,inventorySlotBagEnd,bankSlotBagStart,bankSlotBagEnd,
    keyringSlotStart,currencytokenSlotStart,currencytokenSlotEnd] at *
  omega

theorem open_stacks (h : pos ∈ inv.stacksInPlayerSlots S req) : Open S inv req pos := by
  rcases List.mem_append.mp h with h | h
  · apply open_player _ h
    intro slot hge hlt
    rw [mem_playerSlots,mem_bagSlots]
    simp only [inventorySlotBagStart,inventorySlotBagEnd,bankSlotBagStart,bankSlotBagEnd,
      keyringSlotStart,currencytokenSlotEnd] at *
    omega
  · exact open_backpack h

theorem open_bags {merge nonSpecialized : Bool}
    (h : pos ∈ inv.slotsInBags S req merge nonSpecialized) : Open S inv req pos := by
  obtain ⟨bag,-,h⟩ := List.mem_flatMap.mp h
  unfold Inventory.slotsInOtherBag at h
  split_ifs at h with huse
  · unfold Inventory.slotsInBag at h
    cases hbag : inv.getBagByPos S bag with
    | none => simp [hbag] at h
    | some pBag =>
      simp only [hbag] at h
      obtain ⟨hslots,husable⟩ := List.mem_filter.mp h
      obtain ⟨slot,hslot,rfl⟩ := List.mem_map.mp hslots
      have hne : bag ≠ inventorySlotBag0 := (bagSlots_sub (getBagByPos_some hbag).1).2
      have hlt := List.mem_range.mp (List.mem_filter.mp hslot).1
      refine ⟨.inr ⟨hne,pBag,hbag,hlt⟩,?_,merge,husable⟩
      rw [← Bool.not_eq_true,isBagPos_iff]
      exact fun hpos => hne hpos.1
  · simp at h

theorem open_anywhere (h : pos ∈ inv.slotsAnywhere S req) : Open S inv req pos := by
  unfold Inventory.slotsAnywhere at h
  simp only [List.mem_append] at h
  rcases h with h | h | h | h
  · split at h
    · rcases List.mem_append.mp h with h | h
      · exact open_stacks h
      · rcases List.mem_append.mp h with h | h
        · split at h
          · exact open_bags h
          · simp at h
        · exact open_bags h
    · simp at h
  · split at h
    · rcases List.mem_append.mp h with h | h
      · split at h
        · exact open_keyring h
        · split at h
          · exact open_tokens h
          · simp at h
      · exact open_bags h
    · simp at h
  · exact open_backpack h
  · exact open_bags h

theorem searchPlayerSlots_notEmptyBag (hsrc : req.pItem.any (inv.isNotEmptyBag S) = true)
    (slotBegin slotEnd : Nat) (merge : Bool) (plan : Plan Pos) :
    inv.searchPlayerSlots S req slotBegin slotEnd merge plan =
      .error (req.failed .canOnlyDoWithEmptyBags plan) := by
  unfold Inventory.searchPlayerSlots Inventory.canStoreItemInInventorySlots
  rw [if_pos hsrc]
  rfl

theorem searchBags_notEmptyBag (hsrc : req.pItem.any (inv.isNotEmptyBag S) = true)
    (merge nonSpecialized : Bool) (plan : Plan Pos) :
    inv.searchBags S req merge nonSpecialized plan = .ok plan := by
  unfold Inventory.searchBags
  generalize List.range' inventorySlotBagStart (inventorySlotBagEnd-inventorySlotBagStart) = bags
  induction bags with
  | nil => rfl
  | cons bag bags ih =>
    have hbag : ∃ res, inv.canStoreItemInBag S req.pProto bag merge nonSpecialized req.pItem req.bag
        req.slot plan = .error res := by
      unfold Inventory.canStoreItemInBag
      split
      · exact ⟨_,rfl⟩
      · split
        · exact ⟨_,rfl⟩
        · split
          · exact ⟨_,rfl⟩
          · exact ⟨_,rfl⟩
    obtain ⟨res,hres⟩ := hbag
    rw [List.foldlM_cons,hres]
    exact ih

theorem search_notEmptyBag (hsrc : req.pItem.any (inv.isNotEmptyBag S) = true)
    (hbag : req.bag = nullBag) (plan : Plan Pos) : (inv.search S req false plan).result ≠ .ok := by
  have hslots : ∀ slotBegin slotEnd merge plan,
      inv.searchPlayerSlots S req slotBegin slotEnd merge plan =
        .error (req.failed .canOnlyDoWithEmptyBags plan) :=
    searchPlayerSlots_notEmptyBag hsrc
  have hbags : ∀ merge nonSpecialized plan,
      inv.searchBags S req merge nonSpecialized plan = .ok plan := searchBags_notEmptyBag hsrc
  have hspecific : inv.searchSpecificSlot S req false plan = .ok plan :=
    if_neg fun h => h.1 hbag
  have hspecificBag : inv.searchSpecificBag S req plan = .ok plan := if_neg fun h => h hbag
  have hmerge : inv.mergeAnywhere S req plan = .ok plan ∨
      ∃ report : CanStore, inv.mergeAnywhere S req plan = .error report ∧ report.result ≠ .ok := by
    unfold Inventory.mergeAnywhere Inventory.mergeInPlayerSlots
    rw [hslots]
    split
    · exact .inr ⟨_,rfl,by simp [StoreRequest.failed]⟩
    · exact .inl rfl
  have hfree : ∀ plan, inv.freeInSpecialBags S req plan = .ok plan ∨
      ∃ report : CanStore, inv.freeInSpecialBags S req plan = .error report ∧
        report.result ≠ .ok := by
    intro plan
    unfold Inventory.freeInSpecialBags Inventory.searchKeyringElseTokens Inventory.searchKeyring
      Inventory.searchTokens
    rw [hslots,hslots]
    split
    · split
      · exact .inr ⟨_,rfl,by simp [StoreRequest.failed]⟩
      · split
        · exact .inr ⟨_,rfl,by simp [StoreRequest.failed]⟩
        · exact .inl (hbags _ _ plan)
    · exact .inl rfl
  have hcheck : ∀ plan, inv.checkNotEmptyBag S req plan =
      .error ⟨.nonemptyBagOverOtherBag,plan.pieces,0⟩ := fun plan => if_pos hsrc
  unfold Inventory.search
  rw [hspecific]
  dsimp only [bind,Except.bind]
  rw [hspecificBag]
  dsimp only
  rcases hmerge with h | ⟨report,h,hno⟩
  · rw [h]
    dsimp only
    rcases hfree plan with h | ⟨report,h,hno⟩
    · rw [h]
      dsimp only
      rw [hcheck]
      dsimp only
      decide
    · rw [h]
      exact hno
  · rw [h]
    exact hno

theorem seen_new (hnew : it.guid ∉ (inv.contents S).map Item.guid) :
    inv.seen S (some it) pos = inv.itemAt S pos := by
  rcases Option.eq_none_or_eq_some (inv.itemAt S pos) with hnone | ⟨it2,hit2⟩
  · exact (congrArg (Option.filter _) hnone).trans hnone.symm
  · refine (congrArg (Option.filter _) hit2).trans ((Option.filter_some_pos ?_).trans hit2.symm)
    rw [Option.map_some,decide_eq_true_iff]
    intro hguid
    exact hnew (Option.some.inj hguid ▸ Multiset.mem_map_of_mem _ (mem_contents.mpr ⟨pos,hit2⟩))

theorem Open.placeable {k : Nat} (hb : S.Bounded bound)
    (hproto : S.getItemTemplate it.entry = some req.pProto) (hitem : req.pItem = some it)
    (hnew : it.guid ∉ (inv.contents S).map Item.guid) (h : Open S inv req pos) (hpos : 0 < k)
    (hk : k ≤ inv.needSpace S req.pProto req.pItem pos) : Placeable bound S inv it (pos,k) := by
  obtain ⟨merge,husable⟩ := h.usable
  have hseen : inv.seen S req.pItem pos = inv.itemAt S pos := by
    rw [hitem]
    exact seen_new hnew
  have hbound := hb it.entry req.pProto hproto
  unfold Inventory.needSpace at hk
  unfold Inventory.usable at husable
  rw [hseen] at hk husable
  refine ⟨h.valid,h.notBag,hpos,⟨req.pProto,hproto,?_⟩,?_⟩
  · dsimp only
    split at hk <;> omega
  · intro it2 hit2
    dsimp only at hit2 ⊢
    rw [hit2] at hk husable
    dsimp only at hk husable
    obtain ⟨-,hmerge⟩ := (Bool.and_eq_true _ _).mp husable
    unfold Item.canBeMergedPartlyWith at hmerge
    split_ifs at hmerge with hloot hentry hfull
    · simp at hmerge
    · simp at hmerge
    · simp at hmerge
    · rw [S.itemId_eq it.entry req.pProto hproto] at hentry
      exact ⟨not_not.mp hentry,by omega⟩

theorem ItemTemplate.getMaxStackSize_pos (proto : ItemTemplate) : 0 < proto.getMaxStackSize := by
  unfold ItemTemplate.getMaxStackSize
  split_ifs <;> omega

theorem needSpace_pos (husable : ∃ merge, inv.usable S req.pProto merge req.pItem pos = true) :
    0 < inv.needSpace S req.pProto req.pItem pos := by
  obtain ⟨merge,husable⟩ := husable
  unfold Inventory.needSpace
  unfold Inventory.usable at husable
  cases hseen : inv.seen S req.pItem pos with
  | none =>
    dsimp only
    exact req.pProto.getMaxStackSize_pos
  | some pItem2 =>
    rw [hseen] at husable
    dsimp only at husable ⊢
    obtain ⟨-,hmerge⟩ := (Bool.and_eq_true _ _).mp husable
    unfold Item.canBeMergedPartlyWith at hmerge
    split_ifs at hmerge with hloot hentry hfull
    · simp at hmerge
    · simp at hmerge
    · simp at hmerge
    · omega

/-- What `CanStoreItem` says about a whole item that the player has not: the places take all. -/
structure Placed (bound : Nat → Nat) (S : ItemStore) (inv : Inventory) (it : Item)
    (dest : List (Pos × Nat)) : Prop where
  nonempty : dest ≠ []
  distinct : (dest.map Prod.fst).Nodup
  sum : (dest.map Prod.snd).sum = it.count
  placeable : ∀ e ∈ dest, Placeable bound S inv it e

theorem canTakeMoreSimilarItems_lt (entry count : Nat) (pItem : Option Item)
    (hcount : count < 2^32) : (inv.canTakeMoreSimilarItems S entry count pItem).2 < 2^32 := by
  have hsub : ∀ a b, sub32 a b < 2^32 := fun a b => Nat.mod_lt _ (by decide)
  unfold Inventory.canTakeMoreSimilarItems
  split
  · exact hcount
  · dsimp only
    split
    · decide
    · split
      · decide
      · split
        · exact hsub _ _
        · split
          · split
            · exact hcount
            · split
              · exact hsub _ _
              · decide
          · decide

theorem reach_anywhere (hbag : req.bag = nullBag) :
    inv.reach S req = inv.slotsAnywhere S req := by
  have hspecific : ¬ req.specific := fun h => h.1 hbag
  unfold Inventory.reach Inventory.reachFromBag
  rw [if_neg (fun h => hspecific h.1),if_neg hspecific,if_neg (fun h => h.1 hbag),
    if_neg (not_not.mpr hbag)]
  rfl

theorem search_placed (hb : S.Bounded bound)
    (hproto : S.getItemTemplate it.entry = some req.pProto) (hitem : req.pItem = some it)
    (hbag : req.bag = nullBag) (hnew : it.guid ∉ (inv.contents S).map Item.guid)
    {left : Nat} (hleft : 0 < left) (hok : (inv.search S req false ⟨left,[]⟩).result = .ok)
    (hall : req.noSimilarCount = 0 → left = it.count) :
    Placed bound S inv it (inv.search S req false ⟨left,[]⟩).dest := by
  have hsrc : req.pItem.any (inv.isNotEmptyBag S) = false := by
    rw [← Bool.not_eq_true]
    exact fun hsrc => search_notEmptyBag hsrc hbag _ hok
  have hplan : (⟨left,[]⟩ : Plan Pos).left ≠ 0 := hleft.ne'
  have hreports := search_reports hsrc hplan
  rw [reach_anywhere hbag] at hreports
  obtain ⟨hdest,hresult,-⟩ := Reports_spec hreports
  obtain ⟨hfilled,hsimilar⟩ := hresult.mp hok
  have hopen : ∀ p ∈ inv.slotsAnywhere S req, Open S inv req p := fun p => open_anywhere
  have hsound : Plan.Sound (fun p k => k ≤ inv.needSpace S req.pProto req.pItem p) left
      ((⟨left,[]⟩ : Plan Pos).fill (inv.needSpace S req.pProto req.pItem)
        (inv.slotsAnywhere S req)) :=
    (Plan.sound_nil _ left).fill fun p _ k hk => hk
  have hpieces := Plan.fill_pos hplan
    (fun p hp => needSpace_pos (hopen p hp).usable) (by simp)
  have hsum := hsound.sum
  rw [hfilled,add_zero] at hsum
  rw [hdest]
  refine ⟨?_,hsound.distinct,hsum.trans (hall hsimilar),?_⟩
  · intro hnil
    rw [hnil] at hsum
    simp at hsum
    omega
  · intro e he
    have hmem := (Plan.mem_fill he).resolve_left (by simp)
    exact (hopen e.1 hmem).placeable hb hproto hitem hnew (hpieces e he) (hsound.fits e he)

theorem canStore_search (hpos : 0 < it.count) (hlt : it.count < 2^32)
    (hok : (inv.canStore S nullBag nullSlot (some it) false).result = .ok) :
    ∃ (req : StoreRequest) (left : Nat), req.bag = nullBag ∧ req.pItem = some it ∧
      S.getItemTemplate it.entry = some req.pProto ∧ 0 < left ∧
      (req.noSimilarCount = 0 → left = it.count) ∧
      inv.canStore S nullBag nullSlot (some it) false = inv.search S req false ⟨left,[]⟩ := by
  unfold Inventory.canStore Inventory.canStoreItem at hok ⊢
  dsimp only at hok ⊢
  cases hproto : S.getItemTemplate it.entry with
  | none => simp [hproto] at hok
  | some pProto =>
    rw [hproto] at hok
    dsimp only at hok ⊢
    have hsimilar : (inv.canTakeMoreSimilarItems S it.entry it.count (some it)).2 < 2^32 :=
      canTakeMoreSimilarItems_lt it.entry it.count (some it) hlt
    generalize inv.canTakeMoreSimilarItems S it.entry it.count (some it) = res at hok hsimilar ⊢
    obtain ⟨result,similar⟩ := res
    dsimp only at hok hsimilar ⊢
    split_ifs at hok ⊢ with hloot hbinded hnone hsome
    · exact absurd hok hnone.1
    · have hdiffer : it.count ≠ similar := fun heq => hnone ⟨hsome,heq⟩
      refine ⟨⟨pProto,some it,nullBag,nullSlot,similar⟩,_,rfl,rfl,rfl,?_,?_,rfl⟩
      · unfold sub32
        omega
      · intro hzero
        dsimp only at hzero
        unfold sub32
        omega
    · exact ⟨⟨pProto,some it,nullBag,nullSlot,similar⟩,_,rfl,rfl,rfl,hpos,fun _ => rfl,rfl⟩

theorem canStore_placed (hb : S.Bounded bound) (hwithin : it.Within bound)
    (hnew : it.guid ∉ (inv.contents S).map Item.guid)
    (hok : (inv.canStore S nullBag nullSlot (some it) false).result = .ok) :
    Placed bound S inv it (inv.canStore S nullBag nullSlot (some it) false).dest := by
  have hlt : it.count < 2^32 := by
    have hproto : ∃ proto, S.getItemTemplate it.entry = some proto := by
      rw [← Option.ne_none_iff_exists']
      intro hnone
      simp [Inventory.canStore,Inventory.canStoreItem,hnone] at hok
    obtain ⟨proto,hproto⟩ := hproto
    exact hwithin.2.trans_lt (hb it.entry proto hproto).2
  obtain ⟨req,left,hbag,hitem,hproto,hleft,hall,heq⟩ := canStore_search hwithin.1 hlt hok
  rw [heq] at hok ⊢
  exact search_placed hb hproto hitem hbag hnew hleft hok hall

end CanStore

end TrinityCore.Players
