import TrinityCore.Guilds.Bank

set_option autoImplicit false

namespace TrinityCore.Guilds

open Slots

variable {T : Templates} {b : Bank} {tab slot player : Nat} {item d : Item} {o : Option Item}

def Bank.positions (b : Bank) : Finset (Nat × Nat) :=
  Finset.range b.guild.purchasedTabs ×ˢ Finset.range guildBankMaxSlots

def Bank.totalCount (b : Bank) (entry : Nat) : Nat :=
  total b.positions (fun it => if it.entry = entry then it.count else 0) b.items

structure Bank.Wf (T : Templates) (b : Bank) : Prop where
  sized : All (fun _ it => it.count ≤ T.maxStackSize it.entry) b.items
  distinct : Distinct Item.guid b.items
  known : All (fun _ it => it.guid < b.nextGuid) b.items

def countIn (entry : Nat) (o : Option Item) : Nat :=
  o.elim 0 fun it => if it.entry = entry then it.count else 0

namespace Bank

def Inside (b : Bank) (tab slot : Nat) : Prop :=
  tab < b.guild.purchasedTabs ∧ slot < guildBankMaxSlots

theorem mem_positions (h : b.Inside tab slot) : (tab,slot) ∈ b.positions := by
  simpa [positions,Inside] using h

theorem inside_of_getItem (h : b.getItem tab slot = some d) : b.Inside tab slot := by
  unfold getItem at h
  split_ifs at h with hin
  exact hin

theorem getItem_eq (h : b.Inside tab slot) : b.getItem tab slot = b.items (tab,slot) := if_pos h

theorem setItem_eq (h : b.Inside tab slot) :
    b.setItem tab slot o = { b with items := Function.update b.items (tab,slot) o } := if_pos h

theorem totalCount_setItem (h : b.Inside tab slot) (entry : Nat) :
    (b.setItem tab slot o).totalCount entry+countIn entry (b.getItem tab slot) =
      b.totalCount entry+countIn entry o := by
  rw [setItem_eq h,getItem_eq h]
  exact total_update _ (mem_positions h) o

@[simp] theorem setItem_guild : (b.setItem tab slot o).guild = b.guild := by
  unfold setItem
  split <;> rfl

@[simp] theorem setItem_nextGuid : (b.setItem tab slot o).nextGuid = b.nextGuid := by
  unfold setItem
  split <;> rfl

theorem getItem_setItem {tab' slot' : Nat} (h : b.Inside tab slot) :
    (b.setItem tab slot o).getItem tab' slot' =
      if (tab',slot') = (tab,slot) then o else b.getItem tab' slot' := by
  rw [setItem_eq h]
  split_ifs with heq
  · cases heq
    refine (if_pos h).trans ?_
    simp
  · simp [getItem,Function.update_of_ne heq]

theorem wf_setItem_none (hb : b.Wf T) (h : b.Inside tab slot) : (b.setItem tab slot none).Wf T := by
  rw [setItem_eq h]
  exact ⟨hb.sized.update_none _,hb.distinct.update_none _,hb.known.update_none _⟩

theorem wf_setItem_some (hb : b.Wf T) (h : b.Inside tab slot)
    (hcount : item.count ≤ T.maxStackSize item.entry) (hknown : item.guid < b.nextGuid)
    (hnew : ∀ p it, p ≠ (tab,slot) → b.items p = some it → it.guid ≠ item.guid) :
    (b.setItem tab slot (some item)).Wf T := by
  rw [setItem_eq h]
  exact ⟨hb.sized.update_some hcount,hb.distinct.update_some hnew,hb.known.update_some hknown⟩

theorem wf_setItem_count {n : Nat} (hb : b.Wf T) (h : b.Inside tab slot)
    (hd : b.getItem tab slot = some d) (hcount : n ≤ T.maxStackSize d.entry) :
    (b.setItem tab slot (some { d with count := n })).Wf T := by
  rw [getItem_eq h] at hd
  rw [setItem_eq h]
  exact ⟨hb.sized.update_some hcount,hb.distinct.replace hd rfl,
    hb.known.update_some (hb.known _ d hd)⟩

section Store

/-- There is room for `n` of the item, on a stack of its entry or in an empty slot. -/
def Fits (T : Templates) (item : Item) (o : Option Item) (n : Nat) : Prop :=
  match o with
  | none => n ≤ T.maxStackSize item.entry
  | some d => d.entry = item.entry ∧ d.count+n ≤ T.maxStackSize item.entry

structure Stored (T : Templates) (b : Bank) (tab : Nat) (item : Item) (piece : Nat × Nat)
    (b' : Bank) : Prop where
  wf : b'.Wf T
  guild : b'.guild = b.guild
  total : ∀ entry, b'.totalCount entry =
    b.totalCount entry+(if item.entry = entry then piece.2 else 0)
  frame : ∀ s, s ≠ piece.1 → b'.getItem tab s = b.getItem tab s

theorem countIn_some (entry : Nat) : countIn entry (some item) =
    if item.entry = entry then item.count else 0 := rfl

theorem stored_merge {piece : Nat × Nat} (hb : b.Wf T) (h : b.Inside tab piece.1)
    (hd : b.getItem tab piece.1 = some d) (hfit : Fits T item (some d) piece.2) :
    Stored T b tab item piece
      (b.setItem tab piece.1 (some { d with count := d.count+piece.2 })) := by
  obtain ⟨hentry,hcount⟩ := hfit
  refine ⟨wf_setItem_count hb h hd (hentry ▸ hcount),setItem_guild,?_,?_⟩
  · intro entry
    have htotal := totalCount_setItem (o := some { d with count := d.count+piece.2 }) h entry
    rw [hd,countIn_some,countIn_some] at htotal
    rw [← hentry]
    dsimp only at htotal
    split_ifs at htotal ⊢ <;> omega
  · intro s hs
    rw [getItem_setItem h,if_neg (by simp [hs])]

theorem stored_new {piece : Nat × Nat} {new : Item} (hb : b.Wf T) (h : b.Inside tab piece.1)
    (hd : b.getItem tab piece.1 = none) (hfit : Fits T item none piece.2)
    (hentry : new.entry = item.entry) (hcount : new.count = piece.2) (hknown : new.guid < b.nextGuid)
    (hnew : ∀ p it, b.items p = some it → it.guid ≠ new.guid) :
    Stored T b tab item piece (b.setItem tab piece.1 (some new)) := by
  refine ⟨wf_setItem_some hb h ?_ hknown (fun p it _ => hnew p it),setItem_guild,?_,?_⟩
  · rw [hentry,hcount]
    exact hfit
  · intro entry
    have htotal := totalCount_setItem (o := some new) h entry
    rw [hd,countIn_some,hentry,hcount] at htotal
    simpa [countIn] using htotal
  · intro s hs
    rw [getItem_setItem h,if_neg (by simp [hs])]

theorem stored_zero {piece : Nat × Nat} (hb : b.Wf T) (h : piece.2 = 0) :
    Stored T b tab item piece b :=
  ⟨hb,rfl,fun entry => by simp [h],fun _ _ => rfl⟩

/-- The item is not in the bank, and its guid has been given out. -/
structure Outside (b : Bank) (item : Item) : Prop where
  nowhere : ∀ p it, b.items p = some it → it.guid ≠ item.guid
  known : item.guid < b.nextGuid

theorem Outside.setItem (h : Outside b item) (hin : b.Inside tab slot) (hd : d.guid ≠ item.guid) :
    Outside (b.setItem tab slot (some d)) item := by
  rw [setItem_eq hin]
  refine ⟨?_,h.known⟩
  intro p it hit
  by_cases hp : p = (tab,slot)
  · subst hp
    obtain rfl : d = it := by simpa using hit
    exact hd
  · exact h.nowhere p it (by simpa [hp] using hit)

theorem wf_nextGuid (hb : b.Wf T) : ({ b with nextGuid := b.nextGuid+1 } : Bank).Wf T :=
  ⟨hb.sized,hb.distinct,fun p it hit => (hb.known p it hit).trans (Nat.lt_succ_self _)⟩

theorem stored_last {piece : Nat × Nat} (hb : b.Wf T) (h : b.Inside tab piece.1)
    (hout : Outside b item) (hfit : Fits T item (b.getItem tab piece.1) piece.2) :
    Stored T b tab item piece (b.storeItemAt T tab item piece false) := by
  unfold storeItemAt
  cases hd : b.getItem tab piece.1 with
  | some d => exact stored_merge hb h hd (hd ▸ hfit)
  | none => exact stored_new hb h hd (hd ▸ hfit) rfl rfl hout.known hout.nowhere

theorem stored_clone {piece : Nat × Nat} (hb : b.Wf T) (h : b.Inside tab piece.1)
    (hout : Outside b item) (hfit : Fits T item (b.getItem tab piece.1) piece.2) :
    Stored T b tab item piece (b.storeItemAt T tab item piece true) ∧
      Outside (b.storeItemAt T tab item piece true) item := by
  unfold storeItemAt
  cases hd : b.getItem tab piece.1 with
  | some d =>
    have hguid : d.guid ≠ item.guid := hout.nowhere (tab,piece.1) d (by rw [← getItem_eq h,hd])
    exact ⟨stored_merge hb h hd (hd ▸ hfit),hout.setItem h hguid⟩
  | none =>
    rw [hd] at hfit
    simp only [if_true,cloneItem]
    by_cases hzero : piece.2 < 1
    · rw [if_pos hzero]
      exact ⟨stored_zero hb (by omega),hout⟩
    · rw [if_neg hzero]
      have hle : piece.2 ≤ T.maxStackSize item.entry := hfit
      have hb' := wf_nextGuid hb
      have hout' : Outside { b with nextGuid := b.nextGuid+1 } item :=
        ⟨hout.nowhere,hout.known.trans (Nat.lt_succ_self _)⟩
      have hnew : ∀ p it, b.items p = some it → it.guid ≠ b.nextGuid :=
        fun p it hit => (hb.known p it hit).ne
      let new : Item :=
        ⟨b.nextGuid,item.entry,min piece.2 (T.maxStackSize item.entry),item.soulBound⟩
      have hmin : new.count = piece.2 := Nat.min_eq_left hle
      obtain ⟨hwf,hguild,htotal,hframe⟩ : Stored T { b with nextGuid := b.nextGuid+1 } tab item piece
          (setItem { b with nextGuid := b.nextGuid+1 } tab piece.1 (some new)) :=
        stored_new hb' h hd hfit rfl hmin (Nat.lt_succ_self _) hnew
      exact ⟨⟨hwf,hguild,htotal,hframe⟩,hout'.setItem h hout.known.ne'⟩

theorem storeItem_spec {pieces : List (Nat × Nat)} (hb : b.Wf T) (hout : Outside b item)
    (htab : tab < b.guild.purchasedTabs) (hdistinct : (pieces.map Prod.fst).Nodup)
    (hfits : ∀ e ∈ pieces, e.1 < guildBankMaxSlots ∧ Fits T item (b.getItem tab e.1) e.2) :
    (b.storeItem T tab item pieces).Wf T ∧ (b.storeItem T tab item pieces).guild = b.guild ∧
      ∀ entry, (b.storeItem T tab item pieces).totalCount entry =
        b.totalCount entry+(if item.entry = entry then (pieces.map Prod.snd).sum else 0) := by
  induction pieces generalizing b with
  | nil => exact ⟨hb,rfl,fun entry => by simp [storeItem]⟩
  | cons piece pieces ih =>
    rw [List.map_cons,List.nodup_cons] at hdistinct
    rw [List.forall_mem_cons] at hfits
    cases pieces with
    | nil =>
      have hlast := stored_last hb ⟨htab,hfits.1.1⟩ hout hfits.1.2
      exact ⟨hlast.wf,hlast.guild,fun entry => by simpa [storeItem] using hlast.total entry⟩
    | cons next pieces =>
      obtain ⟨hstored,hout'⟩ := stored_clone hb ⟨htab,hfits.1.1⟩ hout hfits.1.2
      -- the other slots are as they were when their space was reserved
      have hrest : ∀ e ∈ next :: pieces, e.1 < guildBankMaxSlots ∧
          Fits T item ((b.storeItemAt T tab item piece true).getItem tab e.1) e.2 := by
        intro e he
        have hne : e.1 ≠ piece.1 := by
          rintro heq
          exact hdistinct.1 (heq ▸ List.mem_map_of_mem he)
        rw [hstored.frame e.1 hne]
        exact hfits.2 e he
      obtain ⟨hwf,hguild,htotal⟩ := ih hstored.wf hout' (hstored.guild ▸ htab) hdistinct.2 hrest
      refine ⟨hwf,hguild.trans hstored.guild,?_⟩
      intro entry
      have hstore : b.storeItem T tab item (piece :: next :: pieces) =
        (b.storeItemAt T tab item piece true).storeItem T tab item (next :: pieces) := rfl
      rw [hstore,htotal,hstored.total,List.map_cons (l := next :: pieces),List.sum_cons]
      split_ifs <;> omega

end Store

section Reserve

variable {place : Place} {plan plan' : Plan Nat} {swap merge : Bool}

def view (b : Bank) (place : Place) (item : Item) (swap : Bool) (slot : Nat) : Option Item :=
  if slot = place.slot ∧ swap then none else b.seen place.tab item slot

def Room (b : Bank) (T : Templates) (place : Place) (item : Item) (swap : Bool) (slot n : Nat) :
    Prop :=
  slot < guildBankMaxSlots ∧ Fits T item (b.view place item swap slot) n

theorem reserveSpace_sound {room : Nat → Nat → Prop} {n : Nat} (h : plan.Sound room n)
    (hroom : ∀ k, Fits T item o k → room slot k)
    (hplan : reserveSpace T slot item o plan = some plan') : plan'.Sound room n := by
  unfold reserveSpace at hplan
  cases o with
  | none =>
    cases hplan
    exact h.reserve (hroom _ (Nat.min_le_left _ _))
  | some d =>
    dsimp only at hplan
    split_ifs at hplan with hno
    cases hplan
    simp only [not_or,not_not,Nat.not_le] at hno
    refine h.reserve (hroom _ ⟨hno.1,?_⟩)
    omega

theorem canStoreItemInTab_sound (h : plan.Sound (b.Room T place item swap) item.count) :
    (b.canStoreItemInTab T place.tab item place.slot merge plan).Sound
      (b.Room T place item swap) item.count := by
  unfold canStoreItemInTab
  have hslots : ∀ slot ∈ List.range guildBankMaxSlots, slot < guildBankMaxSlots := by simp
  generalize List.range guildBankMaxSlots = slots at hslots
  induction slots generalizing plan with
  | nil => exact h
  | cons slot slots ih =>
    rw [List.forall_mem_cons] at hslots
    refine ih ?_ hslots.2
    dsimp only
    split_ifs with h1 h2 h3
    · exact h
    · exact h
    · exact h
    · cases hr : reserveSpace T slot item (b.seen place.tab item slot) plan with
      | none => exact h
      | some plan' =>
        refine reserveSpace_sound h (fun k hk => ⟨hslots.1,?_⟩) hr
        rw [view,if_neg (by simp [h2])]
        exact hk

theorem searchTab_sound {pieces : List (Nat × Nat)}
    (h : plan.Sound (b.Room T place item swap) item.count)
    (hok : b.searchTab T place item plan = .ok pieces) :
    (⟨0,pieces⟩ : Plan Nat).Sound (b.Room T place item swap) item.count := by
  have hdone : ∀ plan : Plan Nat, plan.Sound (b.Room T place item swap) item.count →
      plan.left = 0 → (⟨0,plan.pieces⟩ : Plan Nat).Sound (b.Room T place item swap) item.count := by
    intro plan hplan hleft
    rw [← hleft]
    exact hplan
  have hmerged : (b.mergeInTab T place item plan).Sound (b.Room T place item swap) item.count := by
    unfold mergeInTab
    split_ifs
    · exact canStoreItemInTab_sound h
    · exact h
  unfold searchTab at hok
  dsimp only at hok
  generalize b.mergeInTab T place item plan = merged at hok hmerged
  have hfree : (b.canStoreItemInTab T place.tab item place.slot false merged).Sound
      (b.Room T place item swap) item.count := canStoreItemInTab_sound hmerged
  generalize b.canStoreItemInTab T place.tab item place.slot false merged = free at hok hfree
  split_ifs at hok with h1 h2
  · cases hok
    exact hdone _ hmerged h1
  · cases hok
    exact hdone _ hfree h2

/-- What `CanStore` promises: the pieces are the whole item, over different slots of an existing
tab that it sees to have room. -/
theorem canStore_sound {pieces : List (Nat × Nat)} (hslot : place.slot < guildBankMaxSlots)
    (hok : b.canStore T place item swap = .ok pieces) :
    place.tab < b.guild.purchasedTabs ∧
      (⟨0,pieces⟩ : Plan Nat).Sound (b.Room T place item swap) item.count := by
  have hnull : place.slot ≠ nullSlot := by
    simp only [guildBankMaxSlots,nullSlot] at hslot ⊢
    omega
  have hview : (if swap then none else b.seen place.tab item place.slot) =
      b.view place item swap place.slot := by
    cases swap <;> simp [view]
  unfold canStore at hok
  rw [if_pos hnull,hview] at hok
  split_ifs at hok with h1 h2
  refine ⟨Nat.lt_of_not_le h2,?_⟩
  cases hr : reserveSpace T place.slot item (b.view place item swap place.slot)
      ⟨item.count,[]⟩ with
  | none => simp [hr] at hok
  | some plan =>
    have hplan := reserveSpace_sound (Plan.sound_nil (b.Room T place item swap) item.count)
      (fun k hk => ⟨hslot,hk⟩) hr
    simp only [hr] at hok
    split_ifs at hok with h3
    · cases hok
      rw [← h3]
      exact hplan
    · exact searchTab_sound hplan hok

theorem canStore_empty {pieces : List (Nat × Nat)} (hslot : place.slot < guildBankMaxSlots)
    (hcount : item.count ≤ T.maxStackSize item.entry)
    (hempty : b.view place item swap place.slot = none)
    (hok : b.canStore T place item swap = .ok pieces) : pieces = [(place.slot,item.count)] := by
  have hnull : place.slot ≠ nullSlot := by
    simp only [guildBankMaxSlots,nullSlot] at hslot ⊢
    omega
  have hview : (if swap then none else b.seen place.tab item place.slot) = none := by
    rw [← hempty]
    cases swap <;> simp [view]
  unfold canStore at hok
  rw [if_pos hnull,hview] at hok
  split_ifs at hok
  simp only [reserveSpace,Plan.reserve,List.map_nil,List.not_mem_nil,if_false,Nat.min_eq_right hcount,
    Nat.sub_self,if_true,List.nil_append] at hok
  cases hok
  rfl

end Reserve

section Moves

variable {src dst : Place} {split : Nat} {pieces : List (Nat × Nat)}

@[simp] theorem updateMemberWithdrawSlots_purchasedTabs (g : Guild) (player tab : Nat) :
    (g.updateMemberWithdrawSlots player tab).purchasedTabs = g.purchasedTabs := by
  unfold Guild.updateMemberWithdrawSlots
  split
  · rfl
  · split <;> rfl

/-- The bank without the guild's counters. -/
def SameItems (b b' : Bank) : Prop :=
  b'.items = b.items ∧ b'.nextGuid = b.nextGuid ∧ b'.guild.purchasedTabs = b.guild.purchasedTabs

theorem SameItems.wf {b' : Bank} (h : SameItems b b') (hb : b.Wf T) : b'.Wf T := by
  obtain ⟨hitems,hnext,-⟩ := h
  refine ⟨?_,?_,?_⟩
  · rw [hitems]
    exact hb.sized
  · rw [hitems]
    exact hb.distinct
  · rw [hitems,hnext]
    exact hb.known

theorem SameItems.totalCount {b' : Bank} (h : SameItems b b') (entry : Nat) :
    b'.totalCount entry = b.totalCount entry := by
  rw [Bank.totalCount,Bank.totalCount,positions,positions,h.1,h.2.2]

theorem SameItems.getItem {b' : Bank} (h : SameItems b b') (tab slot : Nat) :
    b'.getItem tab slot = b.getItem tab slot := by
  rw [Bank.getItem,Bank.getItem,h.1,h.2.2]

theorem removeItem_sameItems (b : Bank) (player : Nat) (place other : Place) (item : Item)
    (split : Nat) : SameItems (b.setItem place.tab place.slot
      (if split ≠ 0 then some { item with count := item.count-split } else none))
      (b.removeItem player place other item split) := by
  unfold removeItem
  by_cases hs : split = 0 <;> by_cases ht : other.tab = place.tab <;>
    simp [SameItems,hs,ht]

structure Conserved (T : Templates) (b b' : Bank) : Prop where
  wf : b'.Wf T
  total : ∀ entry, b'.totalCount entry = b.totalCount entry

structure Removed (T : Templates) (b : Bank) (tab slot : Nat) (item : Item) (b' : Bank) : Prop where
  wf : b'.Wf T
  tabs : b'.guild.purchasedTabs = b.guild.purchasedTabs
  outside : Outside b' item
  getItem : ∀ t s, b'.getItem t s = if (t,s) = (tab,slot) then none else b.getItem t s
  items : ∀ p it, b'.items p = some it → p ≠ (tab,slot) ∧ b.items p = some it
  next : b'.nextGuid = b.nextGuid
  total : ∀ entry, b'.totalCount entry+countIn entry (some item) = b.totalCount entry

theorem removed_setItem (hb : b.Wf T) (hin : b.Inside tab slot) (h : b.getItem tab slot = some item) :
    Removed T b tab slot item (b.setItem tab slot none) := by
  have hitem : b.items (tab,slot) = some item := by rw [← getItem_eq hin,h]
  have hitems : ∀ p it, (b.setItem tab slot none).items p = some it →
      p ≠ (tab,slot) ∧ b.items p = some it := by
    intro p it hit
    rw [setItem_eq hin] at hit
    by_cases hp : p = (tab,slot)
    · simp [hp] at hit
    · exact ⟨hp,by simpa [hp] using hit⟩
  refine ⟨wf_setItem_none hb hin,by simp,⟨?_,?_⟩,fun t s => getItem_setItem hin,hitems,by simp,?_⟩
  · intro p it hit hguid
    obtain ⟨hp,hit⟩ := hitems p it hit
    exact hp (hb.distinct p (tab,slot) it item hit hitem hguid)
  · rw [setItem_nextGuid]
    exact hb.known _ item hitem
  · intro entry
    have htotal := totalCount_setItem (o := none) hin entry
    rw [h] at htotal
    simpa [countIn] using htotal

theorem removed_removeItem (player : Nat) {place : Place} (other : Place) (hb : b.Wf T) (hin : b.Inside place.tab place.slot)
    (h : b.getItem place.tab place.slot = some item) :
    Removed T b place.tab place.slot item (b.removeItem player place other item 0) := by
  have hrem := removed_setItem hb hin h
  have hsame := removeItem_sameItems b player place other item 0
  simp only [ne_eq,not_true_eq_false,if_false] at hsame
  refine ⟨hsame.wf hrem.wf,hsame.2.2.trans hrem.tabs,⟨?_,?_⟩,?_,?_,hsame.2.1.trans hrem.next,?_⟩
  · rw [hsame.1]
    exact hrem.outside.nowhere
  · rw [hsame.2.1]
    exact hrem.outside.known
  · intro t s
    rw [hsame.getItem,hrem.getItem]
  · rw [hsame.1]
    exact hrem.items
  · intro entry
    rw [hsame.totalCount]
    exact hrem.total entry

theorem seen_eq (hb : b.Wf T) (hin : b.Inside tab slot) (h : b.getItem tab slot = some item)
    (t s : Nat) : b.seen t item s = if (t,s) = (tab,slot) then none else b.getItem t s := by
  have hitem : b.items (tab,slot) = some item := by rw [← getItem_eq hin,h]
  unfold seen
  split_ifs with heq
  · cases heq
    simp [h,Option.filter]
  · cases hd : b.getItem t s with
    | none => rfl
    | some d =>
      have hts := inside_of_getItem hd
      have hne : d.guid ≠ item.guid := by
        intro hguid
        rw [getItem_eq hts] at hd
        exact heq (hb.distinct _ _ d item hd hitem hguid)
      simp [Option.filter,hne]

theorem storeItem_conserved {b' : Bank} {n : Nat} (hb : b'.Wf T) (hout : Outside b' item)
    (htab : dst.tab < b'.guild.purchasedTabs)
    (hsound : (⟨0,pieces⟩ : Plan Nat).Sound (b.Room T dst item false) n)
    (hfits : ∀ s k, Fits T item (b.view dst item false s) k → Fits T item (b'.getItem dst.tab s) k)
    (htotal : ∀ entry, b'.totalCount entry+(if item.entry = entry then n else 0) =
      b.totalCount entry) :
    Conserved T b (b'.storeItem T dst.tab item pieces) := by
  have hroom : ∀ e ∈ pieces, e.1 < guildBankMaxSlots ∧ Fits T item (b'.getItem dst.tab e.1) e.2 := by
    intro e he
    obtain ⟨hlt,hfit⟩ := hsound.fits e he
    exact ⟨hlt,hfits e.1 e.2 hfit⟩
  obtain ⟨hwf,-,hsum⟩ := storeItem_spec hb hout htab hsound.distinct hroom
  have hn : (pieces.map Prod.snd).sum = n := hsound.sum
  refine ⟨hwf,?_⟩
  intro entry
  rw [hsum,hn,htotal]

theorem doItemsMove_whole (hb : b.Wf T) (hsrc : b.Inside src.tab src.slot)
    (hdst : b.Inside dst.tab dst.slot) (h : b.getItem src.tab src.slot = some item)
    (hmoved : (b.doItemsMove T player src dst item item none 0).2 = true) :
    Conserved T b (b.doItemsMove T player src dst item item none 0).1 := by
  simp only [doItemsMove,Option.isSome_none] at hmoved ⊢
  cases hok : b.canStore T dst item false with
  | error e => simp [hok] at hmoved
  | ok pieces =>
    obtain ⟨htab,hsound⟩ := canStore_sound hdst.2 hok
    have hrem := removed_removeItem player dst hb hsrc h
    refine storeItem_conserved hrem.wf hrem.outside (by rw [hrem.tabs]; exact htab) hsound ?_
      hrem.total
    intro s k hfit
    rw [view,if_neg (by simp),seen_eq hb hsrc h] at hfit
    rw [hrem.getItem]
    exact hfit

theorem doItemsMove_split {clone : Item} (hb : b.Wf T) (hsrc : b.Inside src.tab src.slot)
    (hdst : b.Inside dst.tab dst.slot) (h : b.getItem src.tab src.slot = some item)
    (hpos : split ≠ 0) (hlt : split < item.count) (hout : Outside b clone)
    (hentry : clone.entry = item.entry) (hcount : clone.count = split)
    (hmoved : (b.doItemsMove T player src dst item clone none split).2 = true) :
    Conserved T b (b.doItemsMove T player src dst item clone none split).1 := by
  simp only [doItemsMove,Option.isSome_none] at hmoved ⊢
  cases hok : b.canStore T dst clone false with
  | error e => simp [hok] at hmoved
  | ok pieces =>
    obtain ⟨htab,hsound⟩ := canStore_sound hdst.2 hok
    have hsame := removeItem_sameItems b player src dst item split
    rw [if_pos hpos] at hsame
    have hitem : b.items (src.tab,src.slot) = some item := by rw [← getItem_eq hsrc,h]
    have hmax : item.count-split ≤ T.maxStackSize item.entry :=
      (Nat.sub_le _ _).trans (hb.sized _ item hitem)
    have hwf : (b.setItem src.tab src.slot (some { item with count := item.count-split })).Wf T :=
      wf_setItem_count hb hsrc h hmax
    have hout' := hout.setItem (d := { item with count := item.count-split }) hsrc
      (hout.nowhere _ item hitem)
    refine storeItem_conserved (hsame.wf hwf) ⟨?_,?_⟩ ?_ hsound ?_ ?_
    · rw [hsame.1]
      exact hout'.nowhere
    · rw [hsame.2.1]
      exact hout'.known
    · rw [hsame.2.2,setItem_guild]
      exact htab
    · intro s k hfit
      have hseen : b.view dst clone false s = b.getItem dst.tab s := by
        rw [view,if_neg (by simp),seen]
        cases hd : b.getItem dst.tab s with
        | none => rfl
        | some d =>
          have hne := hout.nowhere (dst.tab,s) d (by rw [← getItem_eq (inside_of_getItem hd),hd])
          simp [Option.filter,hne]
      rw [hseen] at hfit
      rw [hsame.getItem,getItem_setItem hsrc]
      split_ifs with heq
      · -- the stack that is split has become smaller
        obtain ⟨htabs,hslots⟩ := Prod.mk.inj heq
        rw [htabs,hslots,h] at hfit
        exact ⟨hfit.1,(Nat.add_le_add_right (Nat.sub_le _ _) k).trans hfit.2⟩
      · exact hfit
    · intro entry
      have htotal := totalCount_setItem (o := some { item with count := item.count-split }) hsrc entry
      rw [h,countIn_some,countIn_some] at htotal
      rw [hsame.totalCount,hentry,hcount]
      dsimp only at htotal
      split_ifs at htotal ⊢ <;> omega

theorem storeItem_whole (hb : b.Wf T) (hin : b.Inside tab slot) (hempty : b.getItem tab slot = none)
    (hout : Outside b item) (hcount : item.count ≤ T.maxStackSize item.entry) :
    b.storeItem T tab item [(slot,item.count)] = b.setItem tab slot (some item) ∧
      Stored T b tab item (slot,item.count) (b.setItem tab slot (some item)) := by
  refine ⟨?_,stored_new hb hin hempty hcount rfl rfl hout.known hout.nowhere⟩
  simp [storeItem,storeItemAt,hempty]

theorem doItemsMove_swap (hb : b.Wf T) (hsrc : b.Inside src.tab src.slot)
    (hdst : b.Inside dst.tab dst.slot) (hne : src ≠ dst)
    (h : b.getItem src.tab src.slot = some item) (hd : b.getItem dst.tab dst.slot = some d)
    (hmoved : (b.doItemsMove T player src dst item item (some d) 0).2 = true) :
    Conserved T b (b.doItemsMove T player src dst item item (some d) 0).1 := by
  have hpos : (dst.tab,dst.slot) ≠ (src.tab,src.slot) := by
    intro heq
    refine hne ?_
    cases src; cases dst
    simp_all
  have hitem : b.items (src.tab,src.slot) = some item := by rw [← getItem_eq hsrc,h]
  have hditem : b.items (dst.tab,dst.slot) = some d := by rw [← getItem_eq hdst,hd]
  simp only [doItemsMove,Option.isSome_some] at hmoved ⊢
  cases hok : b.canStore T dst item true with
  | error e => simp [hok] at hmoved
  | ok pieces =>
    cases hback : b.canStore T src d true with
    | error e => simp [hok,hback] at hmoved
    | ok back =>
      obtain rfl := canStore_empty hdst.2 (hb.sized _ item hitem) (by simp [view]) hok
      obtain rfl := canStore_empty hsrc.2 (hb.sized _ d hditem) (by simp [view]) hback
      -- both stacks leave their slots
      have hrem := removed_removeItem player dst hb hsrc h
      generalize b.removeItem player src dst item 0 = b1 at hrem
      have hd1 : b1.getItem dst.tab dst.slot = some d := by rw [hrem.getItem,if_neg hpos,hd]
      have hrem2 := removed_removeItem player src hrem.wf (inside_of_getItem hd1) hd1
      generalize b1.removeItem player dst src d 0 = b2 at hrem2
      have htabs : b2.guild.purchasedTabs = b.guild.purchasedTabs := hrem2.tabs.trans hrem.tabs
      have hdst2 : b2.Inside dst.tab dst.slot := by rw [Inside,htabs]; exact hdst
      -- the first is stored
      have hout2 : Outside b2 item := by
        refine ⟨fun p it hit => hrem.outside.nowhere p it (hrem2.items p it hit).2,?_⟩
        rw [hrem2.next]
        exact hrem.outside.known
      have hempty2 : b2.getItem dst.tab dst.slot = none := by rw [hrem2.getItem,if_pos rfl]
      obtain ⟨heq,hstored⟩ := storeItem_whole hrem2.wf hdst2 hempty2 hout2 (hb.sized _ item hitem)
      simp only [heq]
      -- and then the second
      have hguid : item.guid ≠ d.guid := by
        intro hguid
        exact hpos (hb.distinct _ _ d item hditem hitem hguid.symm)
      have hout3 : Outside (b2.setItem dst.tab dst.slot (some item)) d :=
        hrem2.outside.setItem hdst2 hguid
      have hsrc3 : (b2.setItem dst.tab dst.slot (some item)).Inside src.tab src.slot := by
        rw [Inside,setItem_guild,htabs]
        exact hsrc
      have hempty3 : (b2.setItem dst.tab dst.slot (some item)).getItem src.tab src.slot = none := by
        rw [getItem_setItem hdst2,if_neg (Ne.symm hpos),hrem2.getItem,if_neg (Ne.symm hpos),
          hrem.getItem,if_pos rfl]
      obtain ⟨heq3,hstored3⟩ := storeItem_whole hstored.wf hsrc3 hempty3 hout3 (hb.sized _ d hditem)
      rw [heq3]
      refine ⟨hstored3.wf,?_⟩
      intro entry
      have h1 := hrem.total entry
      have h2 := hrem2.total entry
      rw [countIn_some] at h1 h2
      rw [hstored3.total,hstored.total]
      dsimp only
      omega

theorem Conserved.refl (hb : b.Wf T) : Conserved T b b := ⟨hb,fun _ => rfl⟩

/-- The outcome of a request: a bank in order with as many items of each entry, the same bank if
nothing was moved. -/
structure Outcome (T : Templates) (b : Bank) (r : Bank × Bool) : Prop where
  conserved : Conserved T b r.1
  refused : r.2 = false → r.1.items = b.items

theorem Outcome.refused_self (hb : b.Wf T) : Outcome T b (b,false) :=
  ⟨Conserved.refl hb,fun _ => rfl⟩

theorem doItemsMove_refused {clone : Item}
    (hno : (b.doItemsMove T player src dst item clone o split).2 = false) :
    (b.doItemsMove T player src dst item clone o split).1 = b := by
  unfold doItemsMove at hno ⊢
  generalize b.canStore T dst clone o.isSome = there at hno ⊢
  cases there with
  | error e => rfl
  | ok pieces =>
    cases o with
    | none => simp at hno
    | some d =>
      dsimp only at hno ⊢
      generalize b.canStore T src d true = back at hno ⊢
      cases back with
      | error e => rfl
      | ok back => simp at hno

theorem outcome_of_done {clone : Item} (hb : b.Wf T)
    (h : (b.doItemsMove T player src dst item clone o split).2 = true →
      Conserved T b (b.doItemsMove T player src dst item clone o split).1) :
    Outcome T b (b.doItemsMove T player src dst item clone o split) := by
  cases hmoved : (b.doItemsMove T player src dst item clone o split).2 with
  | true => exact ⟨h hmoved,fun hno => by simp [hmoved] at hno⟩
  | false =>
    have hsame := doItemsMove_refused hmoved
    refine ⟨?_,fun _ => by rw [hsame]⟩
    rw [hsame]
    exact Conserved.refl hb

theorem outcome_split (hb : b.Wf T) (hsrc : b.Inside src.tab src.slot)
    (hdst : b.Inside dst.tab dst.slot) (h : b.getItem src.tab src.slot = some item)
    (hpos : split ≠ 0) (hlt : split < item.count) {r : Item × Bank}
    (hclone : b.cloneItem T item split = some r) :
    Outcome T b (r.2.doItemsMove T player src dst item r.1 none split) := by
  unfold cloneItem at hclone
  rw [if_neg (by omega)] at hclone
  cases hclone
  have hitem : b.items (src.tab,src.slot) = some item := by rw [← getItem_eq hsrc,h]
  have hmax := hb.sized _ item hitem
  have hb' := wf_nextGuid hb
  let b' : Bank := { b with nextGuid := b.nextGuid+1 }
  let clone : Item :=
    ⟨b.nextGuid,item.entry,min split (T.maxStackSize item.entry),item.soulBound⟩
  have hout : Outside b' clone :=
    ⟨fun p it hit => (hb.known p it hit).ne,Nat.lt_succ_self b.nextGuid⟩
  have hdone : (b'.doItemsMove T player src dst item clone none split).2 = true →
      Conserved T b' (b'.doItemsMove T player src dst item clone none split).1 :=
    doItemsMove_split hb' hsrc hdst h hpos hlt hout rfl (Nat.min_eq_left (hlt.le.trans hmax))
  obtain ⟨⟨hwf,htotal⟩,hrefused⟩ := outcome_of_done hb' hdone
  exact ⟨⟨hwf,htotal⟩,hrefused⟩

theorem outcome_swapStacks (hb : b.Wf T) (hsrc : b.Inside src.tab src.slot)
    (hdst : b.Inside dst.tab dst.slot) (hne : src ≠ dst)
    (h : b.getItem src.tab src.slot = some item) :
    Outcome T b (b.swapStacks T player src dst item) := by
  unfold swapStacks
  cases hd : b.getItem dst.tab dst.slot with
  | none => exact .refused_self hb
  | some d =>
    dsimp only
    split_ifs
    · exact .refused_self hb
    · exact .refused_self hb
    · exact outcome_of_done hb (doItemsMove_swap hb hsrc hdst hne h hd)

theorem outcome_moveItems (hb : b.Wf T) (hsrc : b.Inside src.tab src.slot)
    (hdst : b.Inside dst.tab dst.slot) (hne : src ≠ dst) :
    Outcome T b (b.moveItems T player src dst split) := by
  unfold moveItems
  cases h : b.getItem src.tab src.slot with
  | none => exact .refused_self hb
  | some item =>
    dsimp only
    split_ifs with h1 h2 h3 h4
    · exact .refused_self hb
    · exact .refused_self hb
    · exact .refused_self hb
    · cases hclone : b.cloneItem T item split with
      | none => exact .refused_self hb
      | some r => exact outcome_split hb hsrc hdst h h4.1 (by omega) hclone
    · exact outcome_of_done hb (doItemsMove_whole hb hsrc hdst h)
    · exact outcome_swapStacks hb hsrc hdst hne h

/-- Whatever a member asks for, the bank has as many items of each entry as before, no stack too
large and each item in one slot; and a refused request changes nothing. -/
theorem swapItems_conserves (T : Templates) (b : Bank) (hb : b.Wf T) (player : Nat) (src dst : Place)
    (split : Nat) :
    (b.swapItems T player src dst split).1.Wf T ∧
    (∀ entry, (b.swapItems T player src dst split).1.totalCount entry = b.totalCount entry) ∧
    ((b.swapItems T player src dst split).2 = false →
      (b.swapItems T player src dst split).1.items = b.items) := by
  have houtcome : Outcome T b (b.swapItems T player src dst split) := by
    unfold swapItems
    split_ifs with h1 h2
    · exact .refused_self hb
    · exact .refused_self hb
    · simp only [not_or,Nat.not_le] at h1
      exact outcome_moveItems hb ⟨h1.1,h1.2.1⟩ ⟨h1.2.2.1,h1.2.2.2⟩ h2
  exact ⟨houtcome.conserved.wf,houtcome.conserved.total,houtcome.refused⟩

def twenties : Templates := ⟨fun _ => 20,fun _ => by decide⟩

def twoStacks : Bank where
  guild := { founded.guild with purchasedTabs := 1 }
  items p := if p = (0,0) then some ⟨1,774,15,false⟩ else if p = (0,1) then some ⟨2,774,12,false⟩
    else none
  nextGuid := 3

theorem twoStacks_items {p : Nat × Nat} {it : Item} (h : twoStacks.items p = some it) :
    p = (0,0) ∧ it = ⟨1,774,15,false⟩ ∨ p = (0,1) ∧ it = ⟨2,774,12,false⟩ := by
  simp only [twoStacks] at h
  split_ifs at h with h1 h2
  · exact .inl ⟨h1,(Option.some.inj h).symm⟩
  · exact .inr ⟨h2,(Option.some.inj h).symm⟩

theorem twoStacks_wf : twoStacks.Wf twenties := by
  refine ⟨?_,?_,?_⟩
  · intro p it h
    rcases twoStacks_items h with ⟨-,rfl⟩ | ⟨-,rfl⟩ <;> decide
  · intro p q it it' h h' hguid
    rcases twoStacks_items h with ⟨rfl,rfl⟩ | ⟨rfl,rfl⟩ <;>
      rcases twoStacks_items h' with ⟨rfl,rfl⟩ | ⟨rfl,rfl⟩ <;> simp_all
  · intro p it h
    rcases twoStacks_items h with ⟨-,rfl⟩ | ⟨-,rfl⟩ <;> decide

/-- Ten of the fifteen go onto the other stack, which takes eight, and back where they were. -/
theorem swapItems_conserves_split :
    (twoStacks.swapItems twenties 1 ⟨0,0⟩ ⟨0,1⟩ 10).1.getItem 0 0 = some ⟨1,774,7,false⟩ ∧
    (twoStacks.swapItems twenties 1 ⟨0,0⟩ ⟨0,1⟩ 10).1.getItem 0 1 = some ⟨2,774,20,false⟩ ∧
    (twoStacks.swapItems twenties 1 ⟨0,0⟩ ⟨0,1⟩ 10).1.totalCount 774 = twoStacks.totalCount 774 :=
  ⟨by decide +kernel,by decide +kernel,
    (swapItems_conserves twenties twoStacks twoStacks_wf 1 ⟨0,0⟩ ⟨0,1⟩ 10).2.1 774⟩

end Moves

end Bank

end TrinityCore.Guilds
