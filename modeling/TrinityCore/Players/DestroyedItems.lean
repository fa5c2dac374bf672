import TrinityCore.Players.DestroyedPiles

set_option autoImplicit false

namespace TrinityCore.Players

open Piles QuestLog

section Reports

variable {Q : Nat → Option Quest} {log : QuestLog} {questId entry held : Nat}
  {data : QuestStatusData} {ps : List (Nat × Bool)}

def SteadyAt (req stored : Nat) : Nat → List (Nat × Bool) → Prop
  | _, [] => True
  | held, (k,near) :: ps =>
    Steady req stored k held ∧ SteadyAt req stored (held-if near then k else 0) ps

/-- For the objective of the quest that a removed item counts for, the stored count stays. -/
def Undisturbed (Q : Nat → Option Quest) (log : QuestLog) (questId : Nat) (data : QuestStatusData)
    (entry held : Nat) (ps : List (Nat × Bool)) : Prop :=
  ∀ qInfo j, log.neededBy Q entry = some (questId,qInfo,j) →
    SteadyAt (qInfo.requiredItemCount j) (data.itemCount j) held ps

def Spoilt (log : QuestLog) (questId : Nat) : Prop :=
  ∃ data, log.questStatus questId = some data ∧ data.status = .incomplete

structure Stays (log log' : QuestLog) (questId : Nat) : Prop where
  sameSlots : SameSlots log log'
  status : log'.questStatus questId = log.questStatus questId
  slots : ∀ i, (log.slots i).questId = questId → log'.slots i = log.slots i

theorem Stays.refl (log : QuestLog) (questId : Nat) : Stays log log questId :=
  ⟨fun _ => rfl,rfl,fun _ _ => rfl⟩

theorem Stays.trans {log' log'' : QuestLog} (h : Stays log log' questId)
    (h' : Stays log' log'' questId) : Stays log log'' questId where
  sameSlots := fun i => (h'.sameSlots i).trans (h.sameSlots i)
  status := h'.status.trans h.status
  slots := by
    intro i hi
    rw [h'.slots i (by rwa [h.sameSlots i]),h.slots i hi]

theorem steady_mod (req stored count held : Nat) :
    Steady req stored count (held%2^32) ↔ Steady req stored count held := by
  unfold Steady
  rw [Nat.mod_mod_of_dvd held (by decide)]

theorem undisturbed_cons (k : Nat) (near : Bool) :
    Undisturbed Q log questId data entry held ((k,near) :: ps) ↔
      Undisturbed Q log questId data entry held [(k,near)] ∧
        Undisturbed Q log questId data entry (held-if near then k else 0) ps := by
  unfold Undisturbed
  simp only [SteadyAt,and_true]
  constructor
  · exact fun h => ⟨fun q j hq => (h q j hq).1,fun q j hq => (h q j hq).2⟩
  · exact fun h q j hq => ⟨h.1 q j hq,h.2 q j hq⟩

theorem undisturbed_congr {log' : QuestLog} (h : SameSlots log log') :
    Undisturbed Q log' questId data entry held ps ↔
      Undisturbed Q log questId data entry held ps := by
  unfold Undisturbed
  rw [neededBy_congr h]

theorem itemRemovedQuestCheck_stays (Q : Nat → Option Quest) (entry held : Nat) {k : Nat}
    (hdata : log.questStatus questId = some data)
    (hk : 0 < k) (near : Bool) :
    (Undisturbed Q log questId data entry held [(k,near)] ∧
      Stays log (log.itemRemovedQuestCheck Q entry k (held%2^32)) questId) ∨
    (¬ Undisturbed Q log questId data entry held [(k,near)] ∧
      SameSlots log (log.itemRemovedQuestCheck Q entry k (held%2^32)) ∧
      Spoilt (log.itemRemovedQuestCheck Q entry k (held%2^32)) questId) := by
  obtain ⟨hslots,⟨hstatus,hsame,hsteady⟩ | ⟨hspoilt,q,j,hneeded,hloud⟩⟩ :=
    itemRemovedQuestCheck_cases Q entry (held%2^32) hdata hk
  · refine .inl ⟨fun q j hq => ⟨?_,trivial⟩,hslots,hstatus.trans hdata.symm,hsame⟩
    exact (steady_mod ..).mp (hsteady q j hq)
  · refine .inr ⟨fun h => hloud ?_,hslots,hspoilt⟩
    exact (steady_mod ..).mpr (h q j hneeded).1

theorem Spoilt.reports (h : Spoilt log questId) (hps : ∀ x ∈ ps, 0 < x.1) (held : Nat) :
    SameSlots log (log.reports Q entry held ps) ∧ Spoilt (log.reports Q entry held ps) questId := by
  induction ps generalizing log held with
  | nil => exact ⟨fun _ => rfl,h⟩
  | cons x ps ih =>
    obtain ⟨k,near⟩ := x
    obtain ⟨data,hdata,hincomplete⟩ := h
    obtain ⟨hk,hrest⟩ := List.forall_mem_cons.mp hps
    rw [QuestLog.reports]
    rcases itemRemovedQuestCheck_stays Q entry held hdata hk near with
      ⟨-,hstays⟩ | ⟨-,hslots,hspoilt⟩
    · obtain ⟨hsame,hspoilt⟩ := ih ⟨data,hstays.status.trans hdata,hincomplete⟩ hrest
        (held-if near then k else 0)
      exact ⟨fun i => (hsame i).trans (hstays.sameSlots i),hspoilt⟩
    · obtain ⟨hsame,hspoilt⟩ := ih hspoilt hrest (held-if near then k else 0)
      exact ⟨fun i => (hsame i).trans (hslots i),hspoilt⟩

theorem reports_stays (hdata : log.questStatus questId = some data) (hps : ∀ x ∈ ps, 0 < x.1)
    (held : Nat) :
    (Undisturbed Q log questId data entry held ps ∧ Stays log (log.reports Q entry held ps) questId) ∨
    (¬ Undisturbed Q log questId data entry held ps ∧ SameSlots log (log.reports Q entry held ps) ∧
      Spoilt (log.reports Q entry held ps) questId) := by
  induction ps generalizing log held with
  | nil => exact .inl ⟨fun _ _ _ => trivial,Stays.refl _ _⟩
  | cons x ps ih =>
    obtain ⟨k,near⟩ := x
    obtain ⟨hk,hrest⟩ := List.forall_mem_cons.mp hps
    rw [QuestLog.reports,undisturbed_cons]
    rcases itemRemovedQuestCheck_stays Q entry held hdata hk near with
      ⟨hfirst,hstays⟩ | ⟨hloud,hslots,hspoilt⟩
    · rcases ih (hstays.status.trans hdata) hrest (held-if near then k else 0) with
        ⟨hlater,hlast⟩ | ⟨hlater,hslots,hspoilt⟩
      · exact .inl ⟨⟨hfirst,(undisturbed_congr hstays.sameSlots).mp hlater⟩,hstays.trans hlast⟩
      · exact .inr ⟨fun h => hlater ((undisturbed_congr hstays.sameSlots).mpr h.2),
          fun i => (hslots i).trans (hstays.sameSlots i),hspoilt⟩
    · obtain ⟨hsame,hspoilt⟩ := hspoilt.reports hrest (held-if near then k else 0)
      exact .inr ⟨fun h => hloud h.1,fun i => (hsame i).trans (hslots i),hspoilt⟩

end Reports

section Passes

variable {S : ItemStore} {Q : Nat → Option Quest} {moment : EquipMoment} {inTrade : Nat → Bool}
  {p : Player} {depth entry count remcount : Nat}

theorem destroyCountIn_congr {may may' : Inventory → Pos → Bool} {slots : List Pos}
    (h : ∀ pos ∈ slots, ∀ inv, may inv pos = may' inv pos) :
    p.destroyCountIn S Q inTrade depth entry count may slots remcount =
      p.destroyCountIn S Q inTrade depth entry count may' slots remcount := by
  induction slots generalizing p remcount with
  | nil => rfl
  | cons pos slots ih =>
    obtain ⟨hpos,hslots⟩ := List.forall_mem_cons.mp h
    rw [Player.destroyCountIn,Player.destroyCountIn]
    cases p.inv.freeAt S inTrade entry pos with
    | none => exact ih hslots
    | some item =>
      dsimp only
      rw [hpos p.inv,ih hslots,ih hslots]

theorem player_destroyCountIn_append (front back : List Pos) (may : Inventory → Pos → Bool) :
    p.destroyCountIn S Q inTrade depth entry count may (front ++ back) remcount =
      match p.destroyCountIn S Q inTrade depth entry count may front remcount with
      | (p,some remcount) => p.destroyCountIn S Q inTrade depth entry count may back remcount
      | (p,none) => (p,none) := by
  induction front generalizing p remcount with
  | nil => rfl
  | cons pos front ih =>
    rw [List.cons_append,Player.destroyCountIn,Player.destroyCountIn]
    cases p.inv.freeAt S inTrade entry pos with
    | none => exact ih
    | some item =>
      dsimp only
      split_ifs
      · rfl
      · exact ih
      · exact ih
      · rfl

theorem player_destroyCountPasses_eq {may : Inventory → Pos → Bool}
    {passes : List (List Pos × (Inventory → Pos → Bool))}
    (h : ∀ pass ∈ passes, ∀ pos ∈ pass.1, ∀ inv, pass.2 inv pos = may inv pos) :
    p.destroyCountPasses S Q inTrade depth entry count passes remcount =
      (p.destroyCountIn S Q inTrade depth entry count may (passes.flatMap Prod.fst) remcount).1 := by
  induction passes generalizing p remcount with
  | nil => rfl
  | cons pass passes ih =>
    obtain ⟨slots,may'⟩ := pass
    obtain ⟨hpass,hpasses⟩ := List.forall_mem_cons.mp h
    rw [List.flatMap_cons,player_destroyCountIn_append,Player.destroyCountPasses,
      destroyCountIn_congr hpass]
    dsimp only
    cases p.destroyCountIn S Q inTrade depth entry count may slots remcount with
    | mk p next =>
      cases next with
      | none => rfl
      | some remcount => exact ih hpasses

theorem mayUnequip_elsewhere {inv : Inventory} {pos : Pos}
    (h : ¬ (pos.1 = inventorySlotBag0 ∧ pos.2 < inventorySlotBagEnd)) (hbag : isBagPos pos = false) :
    inv.mayUnequip S moment pos = true := by
  unfold Inventory.mayUnequip Inventory.canUnequipItem
  simp [h,hbag]

theorem mayUnequip_slotsFrom {inv : Inventory} {pos : Pos} {start stop : Nat}
    (hstart : inventorySlotBagEnd ≤ start)
    (hbank : stop ≤ bankSlotBagStart ∨ bankSlotBagEnd ≤ start) (h : pos ∈ slotsFrom start stop) :
    inv.mayUnequip S moment pos = true := by
  obtain ⟨slot,hslot,rfl⟩ := List.mem_map.mp h
  have hmem := List.mem_range'_1.mp hslot
  apply mayUnequip_elsewhere
  · simp only [inventorySlotBagEnd] at hstart ⊢
    omega
  · rw [← Bool.not_eq_true,isBagPos_iff,mem_bagSlots]
    simp only [inventorySlotBagStart,inventorySlotBagEnd,bankSlotBagStart,bankSlotBagEnd] at *
    omega

theorem mayUnequip_slotsInBags {inv : Inventory} {pos : Pos} {start stop : Nat}
    (hstop : stop ≤ inventorySlotBag0) (h : pos ∈ slotsInBags start stop) :
    inv.mayUnequip S moment pos = true := by
  obtain ⟨bag,hbag,h⟩ := List.mem_flatMap.mp h
  obtain ⟨slot,-,rfl⟩ := List.mem_map.mp h
  have hmem := List.mem_range'_1.mp hbag
  have hne : bag ≠ inventorySlotBag0 := by omega
  apply mayUnequip_elsewhere
  · exact fun h => hne h.1
  · rw [← Bool.not_eq_true,isBagPos_iff]
    exact fun h => hne h.1

/-- Only what is equipped may be refused, so that one loop over all the slots may ask everywhere. -/
theorem destroyItemCount_eq :
    p.destroyItemCount S Q moment inTrade depth entry count true =
      (p.destroyCountIn S Q inTrade depth entry count
        (fun inv pos => inv.mayUnequip S moment pos) destroySlots 0).1 := by
  have hpasses : ∀ pass ∈ Player.destroyPasses S moment true, ∀ pos ∈ pass.1, ∀ inv,
      pass.2 inv pos = inv.mayUnequip S moment pos := by
    unfold Player.destroyPasses
    simp only [List.forall_mem_cons,List.not_mem_nil,false_implies,implies_true,and_true]
    refine ⟨?_,?_,?_,fun _ _ _ => rfl,?_,?_⟩
    · exact fun pos h inv => (mayUnequip_slotsFrom (by decide) (by decide) h).symm
    · exact fun pos h inv => (mayUnequip_slotsFrom (by decide) (by decide) h).symm
    · exact fun pos h inv => (mayUnequip_slotsInBags (by decide) h).symm
    · exact fun pos h inv => (mayUnequip_slotsFrom (by decide) (by decide) h).symm
    · exact fun pos h inv => (mayUnequip_slotsInBags (by decide) h).symm
  unfold Player.destroyItemCount
  rw [player_destroyCountPasses_eq hpasses]
  rfl

theorem draws_destroyItemCount (hinv : p.inv.Stacked S) (hplain : p.inv.Plain S entry)
    (hpos : 0 < count) (hcount : count < 2^31) (depth : Nat) :
    Draws S Q moment inTrade entry count destroySlots p
      (p.destroyItemCount S Q moment inTrade (depth+1) entry count true) := by
  rw [destroyItemCount_eq]
  exact draws_destroyCountIn depth hinv hplain nodup_destroySlots (fun _ h => h) hpos hcount

end Passes

section Amounts

variable {S : ItemStore} {moment : EquipMoment} {inTrade : Nat → Bool} {inv inv' : Inventory}
  {entry entry' : Nat}

def Inventory.amountOf (S : ItemStore) (inv : Inventory) (entry : Nat) : Nat :=
  Stock.amount entryCount entry (inv.contents S)

def tradeCount (inTrade : Nat → Bool) (entry : Nat) (item : Item) : Nat :=
  if item.entry = entry ∧ inTrade item.guid = true then item.count else 0

theorem amount_filter {weight : Nat → Item → Nat} {keep : Item → Bool}
    (h : ∀ item, keep item = false → weight entry item = 0) (slots : List Pos)
    (c : Pos → Option Item) :
    Stock.amount weight entry (Stock.held slots fun pos => (c pos).filter keep) =
      Stock.amount weight entry (Stock.held slots c) := by
  induction slots with
  | nil => rfl
  | cons pos slots ih =>
    rw [Stock.held_cons,Stock.held_cons,Stock.amount_add,Stock.amount_add,ih]
    congr 1
    cases c pos with
    | none => rfl
    | some item =>
      cases hkeep : keep item with
      | true => rw [Option.filter_some_pos hkeep]
      | false =>
        rw [Option.filter_some_neg (by simp [hkeep])]
        simp [h item hkeep]

theorem amount_eq_zero_iff {weight : Nat → Item → Nat} {m : Multiset Item} :
    Stock.amount weight entry m = 0 ↔ ∀ item ∈ m, weight entry item = 0 := by
  unfold Stock.amount
  rw [Multiset.sum_eq_zero_iff]
  exact Multiset.forall_mem_map_iff

theorem amountOf_eq (moment : EquipMoment) (inTrade : Nat → Bool) (hinv : inv.Stacked S)
    (hplain : inv.Plain S entry) :
    inv.amountOf S entry = total (inv.piles S moment inTrade entry)+
      Stock.amount (tradeCount inTrade) entry (inv.contents S) := by
  have hsplit : inv.amountOf S entry = Stock.amount (freeCount inTrade) entry (inv.contents S)+
      Stock.amount (tradeCount inTrade) entry (inv.contents S) := by
    unfold Inventory.amountOf Stock.amount
    rw [← Multiset.sum_map_add]
    congr 2
    funext item
    unfold entryCount freeCount tradeCount Item.Free
    by_cases htrade : inTrade item.guid = true
    · simp [htrade]
    · simp [htrade]
  have hpiles : total (inv.piles S moment inTrade entry) =
      (inv.freeStacks S inTrade entry).sum := by
    unfold total Inventory.piles Inventory.pilesIn Inventory.freeStacks
    rw [List.map_filterMap,List.map_filterMap]
    congr 2
    funext pos
    unfold Inventory.pileAt
    rw [Option.map_map]
    rfl
  rw [hsplit,hpiles]
  congr 1
  rcases plain_cases hplain with hentry | hnone
  · exact amount_contents inTrade hinv.stocked hentry
  · have hzero : Stock.amount (freeCount inTrade) entry (inv.contents S) = 0 :=
      amount_eq_zero_iff.mpr fun item hitem => if_neg fun h => hnone item hitem h.1
    have hempty : inv.freeStacks S inTrade entry = [] := by
      unfold Inventory.freeStacks
      rw [List.map_eq_nil_iff,List.filterMap_eq_nil_iff]
      intro pos _
      cases hat : inv.freeAt S inTrade entry pos with
      | none => rfl
      | some item =>
        obtain ⟨hitem,hfree⟩ := freeAt_some hat
        exact absurd hfree.1 (hnone item (mem_contents.mpr ⟨pos,hitem⟩))
    rw [hzero,hempty,List.sum_nil]

theorem tradeCount_eq_zero_iff (hinv : inv.Stacked S) :
    Stock.amount (tradeCount inTrade) entry (inv.contents S) = 0 ↔
      ∀ item ∈ inv.contents S, item.entry = entry → inTrade item.guid = false := by
  rw [amount_eq_zero_iff]
  apply forall₂_congr
  intro item hitem
  have hpos := (hinv.stocked.counts item hitem).1
  unfold tradeCount
  by_cases hentry : item.entry = entry
  · cases htrade : inTrade item.guid
    · simp
    · simp [hentry]
      omega
  · simp [hentry]

theorem pos_piles (hinv : inv.Stacked S) :
    ∀ pile ∈ inv.piles S moment inTrade entry, 0 < pile.count := by
  intro pile hpile
  obtain ⟨pos,-,hat⟩ := List.mem_filterMap.mp hpile
  obtain ⟨item,hfree,rfl⟩ := Option.map_eq_some_iff.mp hat
  exact (hinv.stocked.counts item (mem_contents.mpr ⟨pos,(freeAt_some hfree).1⟩)).1

theorem KeepsOthers.ofEntry (h : KeepsOthers S inTrade entry inv inv') (hne : entry' ≠ entry)
    (pos : Pos) : (inv'.itemAt S pos).filter (fun item => item.entry == entry') =
      (inv.itemAt S pos).filter fun item => item.entry == entry' := by
  have hboth : (fun item : Item => !decide (item.Free inTrade entry) && item.entry == entry') =
      fun item => item.entry == entry' := by
    funext item
    by_cases hentry : item.entry = entry'
    · simp [Item.Free,hentry,hne]
    · simp [hentry]
  have hfilter := congrArg (Option.filter fun item => item.entry == entry') (h pos)
  rwa [Option.filter_filter,Option.filter_filter,hboth] at hfilter

theorem KeepsOthers.piles (h : KeepsOthers S inTrade entry inv inv') (hne : entry' ≠ entry)
    (hplain : inv.Plain S entry') :
    inv'.piles S moment inTrade entry' = inv.piles S moment inTrade entry' := by
  have hfree : ∀ inv : Inventory, ∀ pos, inv.freeAt S inTrade entry' pos =
      ((inv.itemAt S pos).filter fun item => item.entry == entry').filter
        fun item => !inTrade item.guid := by
    intro inv pos
    rw [Option.filter_filter]
    rfl
  apply List.filterMap_congr
  intro pos _
  have hsame : inv'.freeAt S inTrade entry' pos = inv.freeAt S inTrade entry' pos := by
    rw [hfree,hfree,h.ofEntry hne]
  unfold Inventory.pileAt
  rw [hsame]
  cases hat : inv.freeAt S inTrade entry' pos with
  | none => rfl
  | some item =>
    obtain ⟨hitem,hentry⟩ := freeAt_some hat
    rw [Option.map_some,Option.map_some,
      mayUnequip_eq moment hitem (freeAt_some (hsame.trans hat)).1 rfl rfl
        (not_bag_of_freeAt hplain hat item hentry.1)]

theorem KeepsOthers.carried (h : KeepsOthers S inTrade entry inv inv') (hne : entry' ≠ entry) :
    inv'.carriedCount S entry' = inv.carriedCount S entry' := by
  have hzero : ∀ item : Item, (item.entry == entry') = false → entryCount entry' item = 0 := by
    intro item hitem
    exact if_neg (by simpa using hitem)
  unfold Inventory.carriedCount
  rw [← amount_filter hzero,← amount_filter hzero carriedSlots (inv.itemAt S)]
  simp only [h.ofEntry hne]

theorem KeepsOthers.amount (h : KeepsOthers S inTrade entry inv inv') (hne : entry' ≠ entry) :
    inv'.amountOf S entry' = inv.amountOf S entry' := by
  have hzero : ∀ item : Item, (item.entry == entry') = false → entryCount entry' item = 0 := by
    intro item hitem
    exact if_neg (by simpa using hitem)
  unfold Inventory.amountOf Inventory.contents
  rw [← amount_filter hzero,← amount_filter hzero places (inv.itemAt S)]
  simp only [h.ofEntry hne]

theorem KeepsOthers.trade (h : KeepsOthers S inTrade entry inv inv') (entry' : Nat) :
    Stock.amount (tradeCount inTrade) entry' (inv'.contents S) =
      Stock.amount (tradeCount inTrade) entry' (inv.contents S) := by
  have hzero : ∀ item : Item, (!decide (item.Free inTrade entry)) = false →
      tradeCount inTrade entry' item = 0 := by
    intro item hitem
    have hfree : item.Free inTrade entry := by simpa using hitem
    exact if_neg fun hboth => by simp [hfree.2] at hboth
  unfold Inventory.contents
  rw [← amount_filter hzero,← amount_filter hzero places (inv.itemAt S)]
  congr 2
  funext pos
  exact h pos

end Amounts

section Each

variable {S : ItemStore} {Q : Nat → Option Quest} {moment : EquipMoment} {inTrade : Nat → Bool}
  {p p' p'' : Player} {questId entry : Nat} {data : QuestStatusData} {items : List (Nat × Nat)}

def numbersOf (entry : Nat) (items : List (Nat × Nat)) : List Nat :=
  (items.filter fun item => item.1 == entry).map Prod.snd

theorem numbersOf_append (entry : Nat) (items items' : List (Nat × Nat)) :
    numbersOf entry (items ++ items') = numbersOf entry items ++ numbersOf entry items' := by
  simp [numbersOf]

theorem nearCount_append (ps ps' : List (Nat × Bool)) :
    nearCount (ps ++ ps') = nearCount ps+nearCount ps' := by
  simp [nearCount]

def Player.piecesOf (S : ItemStore) (moment : EquipMoment) (inTrade : Nat → Bool) (p : Player)
    (entry : Nat) (items : List (Nat × Nat)) : List (Nat × Bool) :=
  piecesAll (numbersOf entry items) (p.inv.piles S moment inTrade entry)

structure DrawsEach (S : ItemStore) (moment : EquipMoment) (inTrade : Nat → Bool)
    (items : List (Nat × Nat)) (p p' : Player) : Prop where
  stacked : p'.inv.Stacked S
  entries : KeepsEntries S p.inv p'.inv
  piles : ∀ entry, 0 < entry → p.inv.Plain S entry → p'.inv.piles S moment inTrade entry =
    drawAll (numbersOf entry items) (p.inv.piles S moment inTrade entry)
  carried : ∀ entry, 0 < entry → p.inv.Plain S entry → p'.inv.carriedCount S entry+
    nearCount (p.piecesOf S moment inTrade entry items) = p.inv.carriedCount S entry
  trade : ∀ entry, Stock.amount (tradeCount inTrade) entry (p'.inv.contents S) =
    Stock.amount (tradeCount inTrade) entry (p.inv.contents S)

theorem DrawsEach.refl (hinv : p.inv.Stacked S)
    (hitems : ∀ entry, 0 < entry → ∀ k ∈ numbersOf entry items, k = 0) :
    DrawsEach S moment inTrade items p p := by
  refine ⟨hinv,fun _ item hat => ⟨item,hat,rfl⟩,?_,?_,fun _ => rfl⟩
  · exact fun entry hentry _ => (drawAll_zeros (hitems entry hentry) _).1.symm
  · intro entry hentry _
    unfold Player.piecesOf
    rw [(drawAll_zeros (hitems entry hentry) _).2]
    rfl

theorem piecesOf_append (h : DrawsEach S moment inTrade items p p') (hentry : 0 < entry)
    (hplain : p.inv.Plain S entry) (items' : List (Nat × Nat)) :
    p.piecesOf S moment inTrade entry (items ++ items') =
      p.piecesOf S moment inTrade entry items ++ p'.piecesOf S moment inTrade entry items' := by
  unfold Player.piecesOf
  rw [numbersOf_append,piecesAll_append,h.piles entry hentry hplain]

theorem DrawsEach.trans {items' : List (Nat × Nat)} (h : DrawsEach S moment inTrade items p p')
    (h' : DrawsEach S moment inTrade items' p' p'') :
    DrawsEach S moment inTrade (items ++ items') p p'' where
  stacked := h'.stacked
  entries := h.entries.trans h'.entries
  piles := by
    intro entry hentry hplain
    rw [h'.piles entry hentry (h.entries.plain hplain),h.piles entry hentry hplain,numbersOf_append,
      drawAll_append]
  carried := by
    intro entry hentry hplain
    have hfirst := h.carried entry hentry hplain
    have hlater := h'.carried entry hentry (h.entries.plain hplain)
    rw [piecesOf_append h hentry hplain,nearCount_append]
    omega
  trade := fun entry => (h'.trade entry).trans (h.trade entry)

theorem Draws.each {count : Nat} (h : Draws S Q moment inTrade entry count destroySlots p p') :
    DrawsEach S moment inTrade [(entry,count)] p p' := by
  have hself : numbersOf entry [(entry,count)] = [count] := by simp [numbersOf]
  have hother : ∀ entry', entry' ≠ entry → numbersOf entry' [(entry,count)] = [] := by
    intro entry' hne
    simp [numbersOf,hne.symm]
  refine ⟨h.stacked,h.entries,?_,?_,h.others.trade⟩
  · intro entry' _ hplain
    by_cases heq : entry' = entry
    · subst heq
      rw [hself]
      exact h.piles
    · rw [hother entry' heq,h.others.piles heq hplain]
      rfl
  · intro entry' _ hplain
    unfold Player.piecesOf
    by_cases heq : entry' = entry
    · subst heq
      rw [hself,piecesAll,piecesAll,List.append_nil]
      exact h.carried
    · rw [hother entry' heq,h.others.carried heq]
      rfl

def Asked (S : ItemStore) (inv : Inventory) (items : List (Nat × Nat)) : Prop :=
  ∀ item ∈ items, 0 < item.1 → 0 < item.2 → inv.Plain S item.1 ∧ item.2 < 2^31

theorem destroyEach_cons (depth : Nat) (item : Nat × Nat) :
    p.destroyEach S Q moment inTrade depth (item :: items) =
      Player.destroyEach S Q moment inTrade depth items
        (p.destroyEach S Q moment inTrade depth [item]) := rfl

theorem destroyEach_append (depth : Nat) (items' : List (Nat × Nat)) :
    p.destroyEach S Q moment inTrade depth (items ++ items') =
      Player.destroyEach S Q moment inTrade depth items'
        (p.destroyEach S Q moment inTrade depth items) :=
  List.foldl_append

theorem destroyEach_single (Q : Nat → Option Quest) (moment : EquipMoment)
    (inTrade : Nat → Bool) (hinv : p.inv.Stacked S) {item : Nat × Nat}
    (hasked : Asked S p.inv [item]) (depth : Nat) :
    ((0 < item.1 ∧ 0 < item.2) ∧ Draws S Q moment inTrade item.1 item.2 destroySlots p
        (p.destroyEach S Q moment inTrade (depth+1) [item])) ∨
      (p.destroyEach S Q moment inTrade (depth+1) [item] = p ∧
        ∀ entry, 0 < entry → ∀ k ∈ numbersOf entry [item], k = 0) := by
  unfold Player.destroyEach
  rw [List.foldl_cons,List.foldl_nil]
  split_ifs with hpos
  · obtain ⟨hplain,hcount⟩ := hasked item List.mem_cons_self hpos.1 hpos.2
    exact .inl ⟨hpos,draws_destroyItemCount hinv hplain hpos.2 hcount depth⟩
  · refine .inr ⟨rfl,fun entry hentry k hk => ?_⟩
    obtain ⟨item',hitem',rfl⟩ := List.mem_map.mp hk
    obtain ⟨hmem,hitem'⟩ := List.mem_filter.mp hitem'
    rw [List.mem_singleton.mp hmem] at hitem' ⊢
    have heq : item.1 = entry := by simpa using hitem'
    omega

theorem Asked.of_entries (h : Asked S p.inv items) (hentries : KeepsEntries S p.inv p'.inv) :
    Asked S p'.inv items :=
  fun item hitem hentry hcount =>
    ⟨hentries.plain (h item hitem hentry hcount).1,(h item hitem hentry hcount).2⟩

theorem asked_cons {item : Nat × Nat} (h : Asked S p.inv (item :: items)) :
    Asked S p.inv [item] ∧ Asked S p.inv items := by
  obtain ⟨hitem,hitems⟩ := List.forall_mem_cons.mp h
  exact ⟨by simpa [Asked] using hitem,hitems⟩

theorem drawsEach_single (hinv : p.inv.Stacked S) {item : Nat × Nat}
    (hasked : Asked S p.inv [item]) (depth : Nat) :
    DrawsEach S moment inTrade [item] p (p.destroyEach S Q moment inTrade (depth+1) [item]) := by
  rcases destroyEach_single Q moment inTrade hinv hasked depth with ⟨-,hdraws⟩ | ⟨hsame,hzero⟩
  · exact hdraws.each
  · rw [hsame]
    exact DrawsEach.refl hinv hzero

theorem drawsEach_destroyEach (hinv : p.inv.Stacked S) (hasked : Asked S p.inv items) (depth : Nat) :
    DrawsEach S moment inTrade items p (p.destroyEach S Q moment inTrade (depth+1) items) := by
  induction items generalizing p with
  | nil => exact DrawsEach.refl hinv (by simp [numbersOf])
  | cons item items ih =>
    obtain ⟨hitem,hitems⟩ := asked_cons hasked
    have hfirst : DrawsEach S moment inTrade [item] p
        (p.destroyEach S Q moment inTrade (depth+1) [item]) := drawsEach_single hinv hitem depth
    exact hfirst.trans (ih hfirst.stacked (hitems.of_entries hfirst.entries))

end Each

section Outcome

variable {S : ItemStore} {Q : Nat → Option Quest} {moment : EquipMoment} {inTrade : Nat → Bool}
  {p p' : Player} {questId entry held : Nat} {data : QuestStatusData} {items : List (Nat × Nat)}
  {E : Nat → Prop}

theorem steadyAt_append (req stored : Nat) (ps ps' : List (Nat × Bool)) :
    SteadyAt req stored held (ps ++ ps') ↔
      SteadyAt req stored held ps ∧ SteadyAt req stored (held-nearCount ps) ps' := by
  induction ps generalizing held with
  | nil => simp [SteadyAt,nearCount]
  | cons x ps ih =>
    obtain ⟨k,near⟩ := x
    have hnear : nearCount ((k,near) :: ps) = (if near then k else 0)+nearCount ps := by
      simp [nearCount]
    rw [List.cons_append,SteadyAt,SteadyAt,ih,hnear,Nat.sub_sub,and_assoc]

theorem undisturbed_append {log : QuestLog} (ps ps' : List (Nat × Bool)) :
    Undisturbed Q log questId data entry held (ps ++ ps') ↔
      Undisturbed Q log questId data entry held ps ∧
        Undisturbed Q log questId data entry (held-nearCount ps) ps' := by
  unfold Undisturbed
  simp only [steadyAt_append]
  constructor
  · exact fun h => ⟨fun q j hq => (h q j hq).1,fun q j hq => (h q j hq).2⟩
  · exact fun h q j hq => ⟨h.1 q j hq,h.2 q j hq⟩

def Quiet (S : ItemStore) (Q : Nat → Option Quest) (moment : EquipMoment) (inTrade : Nat → Bool)
    (E : Nat → Prop) (questId : Nat) (data : QuestStatusData) (items : List (Nat × Nat))
    (p : Player) : Prop :=
  ∀ entry, E entry → Undisturbed Q p.quests questId data entry (p.inv.carriedCount S entry)
    (p.piecesOf S moment inTrade entry items)

/-- The entries that are looked at are those of items, and none of these is a bag. -/
structure Covers (S : ItemStore) (E : Nat → Prop) (items : List (Nat × Nat)) (p : Player) : Prop where
  plain : ∀ entry, E entry → 0 < entry ∧ p.inv.Plain S entry
  covered : ∀ item ∈ items, 0 < item.1 → 0 < item.2 → E item.1 ∧ item.2 < 2^31

theorem Covers.asked (h : Covers S E items p) : Asked S p.inv items := by
  intro item hitem hentry hcount
  obtain ⟨hE,hlt⟩ := h.covered item hitem hentry hcount
  exact ⟨(h.plain item.1 hE).2,hlt⟩

theorem Covers.of_entries (h : Covers S E items p) (hentries : KeepsEntries S p.inv p'.inv) :
    Covers S E items p' where
  plain := fun entry hE => ⟨(h.plain entry hE).1,hentries.plain (h.plain entry hE).2⟩
  covered := h.covered

theorem covers_cons {item : Nat × Nat} (h : Covers S E (item :: items) p) :
    Covers S E [item] p ∧ Covers S E items p := by
  obtain ⟨hitem,hitems⟩ := List.forall_mem_cons.mp h.covered
  exact ⟨⟨h.plain,by simpa using hitem⟩,⟨h.plain,hitems⟩⟩

theorem quiet_cons {item : Nat × Nat} (h : DrawsEach S moment inTrade [item] p p')
    (hslots : SameSlots p.quests p'.quests)
    (hplain : ∀ entry, E entry → 0 < entry ∧ p.inv.Plain S entry) :
    Quiet S Q moment inTrade E questId data (item :: items) p ↔
      Quiet S Q moment inTrade E questId data [item] p ∧
        Quiet S Q moment inTrade E questId data items p' := by
  have hentry : ∀ entry, E entry →
      (Undisturbed Q p.quests questId data entry (p.inv.carriedCount S entry)
          (p.piecesOf S moment inTrade entry (item :: items)) ↔
        Undisturbed Q p.quests questId data entry (p.inv.carriedCount S entry)
          (p.piecesOf S moment inTrade entry [item]) ∧
        Undisturbed Q p'.quests questId data entry (p'.inv.carriedCount S entry)
          (p'.piecesOf S moment inTrade entry items)) := by
    intro entry hE
    obtain ⟨hpos,hplain⟩ := hplain entry hE
    have hheld : p'.inv.carriedCount S entry = p.inv.carriedCount S entry-
        nearCount (p.piecesOf S moment inTrade entry [item]) := by
      have hcarried := h.carried entry hpos hplain
      omega
    have hpieces : p.piecesOf S moment inTrade entry (item :: items) =
        p.piecesOf S moment inTrade entry [item] ++ p'.piecesOf S moment inTrade entry items :=
      piecesOf_append h hpos hplain items
    rw [hpieces,undisturbed_append,undisturbed_congr hslots,hheld]
  unfold Quiet
  constructor
  · exact fun hall => ⟨fun entry hE => ((hentry entry hE).mp (hall entry hE)).1,
      fun entry hE => ((hentry entry hE).mp (hall entry hE)).2⟩
  · exact fun hall entry hE => (hentry entry hE).mpr ⟨hall.1 entry hE,hall.2 entry hE⟩

theorem undisturbed_nil {log : QuestLog} : Undisturbed Q log questId data entry held [] :=
  fun _ _ _ => trivial

theorem quiet_single {item : Nat × Nat} (hE : E item.1) :
    Quiet S Q moment inTrade E questId data [item] p ↔
      Undisturbed Q p.quests questId data item.1 (p.inv.carriedCount S item.1)
        (pieces item.2 (p.inv.piles S moment inTrade item.1)) := by
  have hself : p.piecesOf S moment inTrade item.1 [item] =
      pieces item.2 (p.inv.piles S moment inTrade item.1) := by
    simp [Player.piecesOf,numbersOf,piecesAll]
  constructor
  · intro h
    rw [← hself]
    exact h item.1 hE
  · intro h entry _
    by_cases heq : entry = item.1
    · rw [heq,hself]
      exact h
    · have hnone : p.piecesOf S moment inTrade entry [item] = [] := by
        simp [Player.piecesOf,numbersOf,piecesAll,Ne.symm heq]
      rw [hnone]
      exact undisturbed_nil

theorem outcome_single (Q : Nat → Option Quest) (moment : EquipMoment) (inTrade : Nat → Bool)
    (hinv : p.inv.Stacked S) {item : Nat × Nat} (hcovers : Covers S E [item] p)
    (hdata : p.quests.questStatus questId = some data) (depth : Nat) :
    (Quiet S Q moment inTrade E questId data [item] p ∧
      Stays p.quests (p.destroyEach S Q moment inTrade (depth+1) [item]).quests questId) ∨
    (¬ Quiet S Q moment inTrade E questId data [item] p ∧
      SameSlots p.quests (p.destroyEach S Q moment inTrade (depth+1) [item]).quests ∧
      Spoilt (p.destroyEach S Q moment inTrade (depth+1) [item]).quests questId) := by
  rcases destroyEach_single Q moment inTrade hinv hcovers.asked depth with
    ⟨⟨hpos,hcount⟩,hdraws⟩ | ⟨hsame,hzero⟩
  · obtain ⟨hE,-⟩ := hcovers.covered item List.mem_cons_self hpos hcount
    rw [hdraws.quests,quiet_single hE]
    exact reports_stays hdata (pos_pieces item.2 (pos_piles hinv)) _
  · rw [hsame]
    refine .inl ⟨fun entry hE => ?_,Stays.refl _ _⟩
    have hnone : p.piecesOf S moment inTrade entry [item] = [] :=
      (drawAll_zeros (hzero entry (hcovers.plain entry hE).1) _).2
    rw [hnone]
    exact undisturbed_nil

theorem Spoilt.destroyEach (h : Spoilt p.quests questId) (Q : Nat → Option Quest)
    (moment : EquipMoment) (inTrade : Nat → Bool) (hinv : p.inv.Stacked S)
    (hasked : Asked S p.inv items) (depth : Nat) :
    SameSlots p.quests (p.destroyEach S Q moment inTrade (depth+1) items).quests ∧
      Spoilt (p.destroyEach S Q moment inTrade (depth+1) items).quests questId := by
  induction items generalizing p with
  | nil => exact ⟨fun _ => rfl,h⟩
  | cons item items ih =>
    obtain ⟨hitem,hitems⟩ := asked_cons hasked
    have hfirst : DrawsEach S moment inTrade [item] p
        (p.destroyEach S Q moment inTrade (depth+1) [item]) := drawsEach_single hinv hitem depth
    have hone : SameSlots p.quests (p.destroyEach S Q moment inTrade (depth+1) [item]).quests ∧
        Spoilt (p.destroyEach S Q moment inTrade (depth+1) [item]).quests questId := by
      rcases destroyEach_single Q moment inTrade hinv hitem depth with
        ⟨-,hdraws⟩ | ⟨hsame,-⟩
      · rw [hdraws.quests]
        exact h.reports (pos_pieces item.2 (pos_piles hinv)) _
      · rw [hsame]
        exact ⟨fun _ => rfl,h⟩
    obtain ⟨hslots,hspoilt⟩ := ih hone.2 hfirst.stacked (hitems.of_entries hfirst.entries)
    exact ⟨fun i => (hslots i).trans (hone.1 i),hspoilt⟩

/-- The quest stays as it is exactly when no piece disturbs it, and otherwise it is incomplete again. -/
theorem outcome_destroyEach (Q : Nat → Option Quest) (moment : EquipMoment)
    (inTrade : Nat → Bool) (hinv : p.inv.Stacked S) (hcovers : Covers S E items p)
    (hdata : p.quests.questStatus questId = some data) (depth : Nat) :
    (Quiet S Q moment inTrade E questId data items p ∧
      Stays p.quests (p.destroyEach S Q moment inTrade (depth+1) items).quests questId) ∨
    (¬ Quiet S Q moment inTrade E questId data items p ∧
      SameSlots p.quests (p.destroyEach S Q moment inTrade (depth+1) items).quests ∧
      Spoilt (p.destroyEach S Q moment inTrade (depth+1) items).quests questId) := by
  induction items generalizing p with
  | nil => exact .inl ⟨fun _ _ => undisturbed_nil,Stays.refl _ _⟩
  | cons item items ih =>
    obtain ⟨hitem,hitems⟩ := covers_cons hcovers
    have hfirst : DrawsEach S moment inTrade [item] p
        (p.destroyEach S Q moment inTrade (depth+1) [item]) :=
      drawsEach_single hinv hitem.asked depth
    have hrest := hitems.of_entries hfirst.entries
    rw [destroyEach_cons]
    rcases outcome_single Q moment inTrade hinv hitem hdata depth with
      ⟨hquiet,hstays⟩ | ⟨hloud,hslots,hspoilt⟩
    · rw [quiet_cons hfirst hstays.sameSlots hcovers.plain]
      rcases ih hfirst.stacked hrest (hstays.status.trans hdata) with
        ⟨hlater,hlast⟩ | ⟨hlater,hslots,hspoilt⟩
      · exact .inl ⟨⟨hquiet,hlater⟩,hstays.trans hlast⟩
      · exact .inr ⟨fun h => hlater h.2,fun i => (hslots i).trans (hstays.sameSlots i),hspoilt⟩
    · rw [quiet_cons hfirst hslots hcovers.plain]
      obtain ⟨hlater,hspoilt⟩ := hspoilt.destroyEach Q moment inTrade hfirst.stacked hrest.asked depth
      exact .inr ⟨fun h => hloud h.1,fun i => (hlater i).trans (hslots i),hspoilt⟩

end Outcome

end TrinityCore.Players
