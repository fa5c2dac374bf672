import TrinityCore.Players.AbandonQuest

set_option autoImplicit false

namespace TrinityCore.Players

open Piles QuestLog

section Refused

def nearLoose (piles : List (Pile Bool)) : Nat :=
  (piles.map fun pile => if pile.label && !pile.fixed then pile.count else 0).sum

def Inventory.tradeMovable (S : ItemStore) (moment : EquipMoment) (inTrade : Nat → Bool)
    (inv : Inventory) (entry : Nat) : Nat :=
  (carriedSlots.map
    (inv.movableAt S moment fun item => item.entry == entry && inTrade item.guid)).sum

def Inventory.TradeStuck (S : ItemStore) (moment : EquipMoment) (inTrade : Nat → Bool)
    (inv : Inventory) (entry : Nat) : Prop :=
  ∃ pos ∈ carriedSlots, inv.StuckAt S moment (fun item => item.entry == entry && inTrade item.guid) pos

/-- With these piles, too few of the items are carried that can be unequipped, and some cannot. -/
def Inventory.Refuses (S : ItemStore) (moment : EquipMoment) (inTrade : Nat → Bool) (inv : Inventory)
    (entry count : Nat) (piles : List (Pile Bool)) : Prop :=
  nearLoose piles+inv.tradeMovable S moment inTrade entry < count ∧
    ((∃ pile ∈ piles, pile.label = true ∧ pile.fixed = true) ∨ inv.TradeStuck S moment inTrade entry)

variable {S : ItemStore} {moment : EquipMoment} {inTrade : Nat → Bool} {inv inv' : Inventory}
  {pos : Pos} {entry count : Nat}

theorem movableAt_split (inTrade : Nat → Bool) (pos : Pos) (h : isCarried pos = true) :
    inv.movableAt S moment (fun item => item.entry == entry) pos =
      (inv.pileAt S moment inTrade entry pos).elim 0
          (fun pile => if pile.label && !pile.fixed then pile.count else 0)+
        inv.movableAt S moment (fun item => item.entry == entry && inTrade item.guid) pos := by
  unfold Inventory.movableAt Inventory.pileAt Inventory.freeAt
  cases inv.itemAt S pos with
  | none => rfl
  | some item =>
    by_cases hentry : item.entry = entry
    · cases htrade : inTrade item.guid <;> cases hmay : inv.mayUnequip S moment pos <;>
        simp [Option.filter,hentry,htrade,h]
    · simp [Option.filter,hentry]

theorem stuckAt_split (inTrade : Nat → Bool) (pos : Pos) (h : isCarried pos = true) :
    inv.StuckAt S moment (fun item => item.entry == entry) pos ↔
      (∃ pile, inv.pileAt S moment inTrade entry pos = some pile ∧ pile.label = true ∧
          pile.fixed = true) ∨
        inv.StuckAt S moment (fun item => item.entry == entry && inTrade item.guid) pos := by
  unfold Inventory.StuckAt Inventory.pileAt Inventory.freeAt
  cases inv.itemAt S pos with
  | none => simp
  | some item =>
    by_cases hentry : item.entry = entry
    · cases htrade : inTrade item.guid <;> cases hmay : inv.mayUnequip S moment pos <;>
        simp [Option.filter,hentry,htrade,h]
    · simp [Option.filter,hentry]

theorem pileAt_far (h : isCarried pos = false) : (inv.pileAt S moment inTrade entry pos).elim 0
    (fun pile => if pile.label && !pile.fixed then pile.count else 0) = 0 := by
  unfold Inventory.pileAt
  cases inv.freeAt S inTrade entry pos with
  | none => rfl
  | some item => simp [h]

theorem sum_filterMap {α β : Type} (f : α → Option β) (g : β → Nat) (l : List α) :
    ((l.filterMap f).map g).sum = (l.map fun a => (f a).elim 0 g).sum := by
  induction l with
  | nil => rfl
  | cons a l ih =>
    rw [List.map_cons,List.sum_cons,← ih]
    cases h : f a with
    | none => simp [h]
    | some b => simp [h]

theorem sum_filter_keep {α : Type} (keep : α → Bool) (f : α → Nat) (l : List α)
    (h : ∀ a ∈ l, keep a = false → f a = 0) : ((l.filter keep).map f).sum = (l.map f).sum := by
  induction l with
  | nil => rfl
  | cons a l ih =>
    obtain ⟨ha,hl⟩ := List.forall_mem_cons.mp h
    rw [List.map_cons,List.sum_cons,← ih hl]
    cases hkeep : keep a with
    | true => simp [hkeep]
    | false => simp [hkeep,ha hkeep]

theorem movable_eq (inTrade : Nat → Bool) (inv : Inventory) (entry : Nat) :
    (carriedSlots.map (inv.movableAt S moment fun item => item.entry == entry)).sum =
      nearLoose (inv.piles S moment inTrade entry)+inv.tradeMovable S moment inTrade entry := by
  have hnear : nearLoose (inv.piles S moment inTrade entry) =
      (carriedSlots.map fun pos => (inv.pileAt S moment inTrade entry pos).elim 0
        (fun pile => if pile.label && !pile.fixed then pile.count else 0)).sum := by
    unfold nearLoose Inventory.piles Inventory.pilesIn
    rw [sum_filterMap,(carried_perm.map _).sum_eq]
    exact (sum_filter_keep _ _ _ fun pos _ hfar => pileAt_far hfar).symm
  unfold Inventory.tradeMovable
  rw [hnear,← List.sum_map_add]
  congr 1
  apply List.map_congr_left
  intro pos hpos
  have hcarried := (List.mem_filter.mp (carried_perm.mem_iff.mp hpos)).2
  exact movableAt_split inTrade pos hcarried

theorem stuck_iff (inTrade : Nat → Bool) (inv : Inventory) (entry : Nat) :
    (∃ pos ∈ carriedSlots, inv.StuckAt S moment (fun item => item.entry == entry) pos) ↔
      (∃ pile ∈ inv.piles S moment inTrade entry, pile.label = true ∧ pile.fixed = true) ∨
        inv.TradeStuck S moment inTrade entry := by
  unfold Inventory.TradeStuck Inventory.piles Inventory.pilesIn
  constructor
  · rintro ⟨pos,hpos,hstuck⟩
    obtain ⟨hslot,hcarried⟩ := List.mem_filter.mp (carried_perm.mem_iff.mp hpos)
    rcases (stuckAt_split inTrade pos hcarried).mp hstuck with
      ⟨pile,hpile,hboth⟩ | htrade
    · exact .inl ⟨pile,List.mem_filterMap.mpr ⟨pos,hslot,hpile⟩,hboth⟩
    · exact .inr ⟨pos,hpos,htrade⟩
  · rintro (⟨pile,hmem,hboth⟩ | ⟨pos,hpos,htrade⟩)
    · obtain ⟨pos,hslot,hpile⟩ := List.mem_filterMap.mp hmem
      have hcarried : isCarried pos = true := by
        obtain ⟨item,-,rfl⟩ := Option.map_eq_some_iff.mp hpile
        exact hboth.1
      exact ⟨pos,(mem_carriedSlots hslot).mpr hcarried,
        (stuckAt_split inTrade pos hcarried).mpr (.inl ⟨pile,hpile,hboth⟩)⟩
    · have hcarried := (List.mem_filter.mp (carried_perm.mem_iff.mp hpos)).2
      exact ⟨pos,hpos,(stuckAt_split inTrade pos hcarried).mpr (.inr htrade)⟩

theorem canUnequipItems_not_ok_iff (inTrade : Nat → Bool) (hinv : inv.Stacked S) (hpos : 0 < count)
    (hcount : count < 2^31) : inv.canUnequipItems S moment entry count ≠ .storage .ok ↔
      inv.Refuses S moment inTrade entry count (inv.piles S moment inTrade entry) := by
  unfold Inventory.Refuses
  rw [ne_eq,canUnequipItems_ok_iff hinv hpos hcount,not_or,movable_eq inTrade,
    ← stuck_iff]
  push Not
  rfl

theorem KeepsOthers.ofTrade (h : KeepsOthers S inTrade entry inv inv') (pos : Pos) :
    (inv'.itemAt S pos).filter (fun item => item.entry == entry && inTrade item.guid) =
      (inv.itemAt S pos).filter fun item => item.entry == entry && inTrade item.guid := by
  have hboth : (fun item : Item => !decide (item.Free inTrade entry) &&
      (item.entry == entry && inTrade item.guid)) =
      fun item => item.entry == entry && inTrade item.guid := by
    funext item
    cases htrade : inTrade item.guid <;> simp [Item.Free,htrade]
  have hfilter := congrArg (Option.filter fun item => item.entry == entry && inTrade item.guid)
    (h pos)
  rwa [Option.filter_filter,Option.filter_filter,hboth] at hfilter

theorem KeepsOthers.ofOthers (h : KeepsOthers S inTrade entry inv inv') (pos : Pos) :
    (inv'.itemAt S pos).filter (fun item => item.entry != entry) =
      (inv.itemAt S pos).filter fun item => item.entry != entry := by
  have hboth : (fun item : Item => !decide (item.Free inTrade entry) && item.entry != entry) =
      fun item => item.entry != entry := by
    funext item
    by_cases hentry : item.entry = entry <;> simp [Item.Free,hentry]
  have hfilter := congrArg (Option.filter fun item => item.entry != entry) (h pos)
  rwa [Option.filter_filter,Option.filter_filter,hboth] at hfilter

theorem KeepsOthers.tradeAt (h : KeepsOthers S inTrade entry inv inv') (hplain : inv.Plain S entry)
    (pos : Pos) :
    inv'.movableAt S moment (fun item => item.entry == entry && inTrade item.guid) pos =
        inv.movableAt S moment (fun item => item.entry == entry && inTrade item.guid) pos ∧
      (inv'.StuckAt S moment (fun item => item.entry == entry && inTrade item.guid) pos ↔
        inv.StuckAt S moment (fun item => item.entry == entry && inTrade item.guid) pos) := by
  unfold Inventory.movableAt Inventory.StuckAt
  rw [h.ofTrade pos]
  cases hat : (inv.itemAt S pos).filter fun item => item.entry == entry && inTrade item.guid with
  | none => exact ⟨rfl,by simp⟩
  | some item =>
    obtain ⟨hitem,hboth⟩ := Option.filter_eq_some_iff.mp hat
    obtain ⟨hitem',-⟩ := Option.filter_eq_some_iff.mp ((h.ofTrade pos).trans hat)
    have hentry : item.entry = entry := by
      rw [Bool.and_eq_true,beq_iff_eq] at hboth
      exact hboth.1
    have hbag := hplain item (mem_contents.mpr ⟨pos,hitem⟩) hentry
    rw [mayUnequip_eq moment hitem hitem' rfl rfl hbag]
    exact ⟨rfl,.rfl⟩

theorem KeepsOthers.refuses (h : KeepsOthers S inTrade entry inv inv') (hplain : inv.Plain S entry)
    (piles : List (Pile Bool)) : inv'.Refuses S moment inTrade entry count piles ↔
      inv.Refuses S moment inTrade entry count piles := by
  have hmovable : inv'.tradeMovable S moment inTrade entry =
      inv.tradeMovable S moment inTrade entry := by
    unfold Inventory.tradeMovable
    congr 1
    exact List.map_congr_left fun pos _ => (h.tradeAt hplain pos).1
  unfold Inventory.Refuses Inventory.TradeStuck
  rw [hmovable]
  simp only [(h.tradeAt hplain _).2]

end Refused

section Abandoned

/-- Of the source item as many are gone as came with the quest, or all, and nothing if the item is kept.
No other item has changed, and the quest is gone from its slot and from the statuses. -/
structure Abandoned (S : ItemStore) (questId : Nat) (slot : Fin maxQuestLogSize)
    (quest : SourceQuest) (kept : Bool) (before after : Player) : Prop where
  taken : after.inv.amountOf S quest.srcItemId =
    before.inv.amountOf S quest.srcItemId-if kept then 0 else quest.takenCount
  others : ∀ pos, (after.inv.itemAt S pos).filter (fun item => item.entry != quest.srcItemId) =
    (before.inv.itemAt S pos).filter fun item => item.entry != quest.srcItemId
  slot : after.quests.slots slot = ⟨0,0,0⟩
  removed : after.quests.questStatus questId = none

structure Player.HasSource (Q : Nat → Option SourceQuest) (p : Player) (questId : Nat)
    (slot : Fin maxQuestLogSize) (quest : SourceQuest) : Prop where
  template : Q questId = some quest
  id_ne : questId ≠ 0
  logged : (p.quests.slots slot).questId = questId
  source : 0 < quest.srcItemId

/-- What abandoning does as it should: nothing if the item cannot be unequipped. -/
def Abandons (S : ItemStore) (startQuest : Nat → Nat) (moment : EquipMoment) (questId : Nat)
    (slot : Fin maxQuestLogSize) (quest : SourceQuest) (before after : Player) : Prop :=
  if before.inv.canUnequipItems S moment quest.srcItemId quest.takenCount ≠ .storage .ok then
    after = before
  else Abandoned S questId slot quest (quest.keepsItem startQuest questId) before after

/-- The items are there to be taken, and a second time none is: it is refused, or all that is left is
equipped and has to stay. Or all of them go, and are not too many. -/
def Player.TakenOnce (S : ItemStore) (moment : EquipMoment) (inTrade : Nat → Bool) (p : Player)
    (entry count : Nat) : Prop :=
  (Finds count (p.inv.piles S moment inTrade entry) ∧
      (p.inv.Refuses S moment inTrade entry count
          (draw count (p.inv.piles S moment inTrade entry)) ∨
        Idle count (draw count (p.inv.piles S moment inTrade entry)))) ∨
    ((∀ item ∈ p.inv.contents S, item.entry = entry → inTrade item.guid = false) ∧
      (∀ pile ∈ p.inv.piles S moment inTrade entry, pile.fixed = false) ∧
      total (p.inv.piles S moment inTrade entry) ≤ count)

/-- Either nothing is taken, or no source item is a bag and they are taken once. -/
def Player.AbandonsOnce (S : ItemStore) (startQuest : Nat → Nat) (moment : EquipMoment)
    (inTrade : Nat → Bool) (p : Player) (questId : Nat) (quest : SourceQuest) : Prop :=
  p.inv.canUnequipItems S moment quest.srcItemId quest.takenCount ≠ .storage .ok ∨
    quest.keepsItem startQuest questId = true ∨
    (p.inv.Plain S quest.srcItemId ∧ p.TakenOnce S moment inTrade quest.srcItemId quest.takenCount)

variable {S : ItemStore} {Q : Nat → Option SourceQuest} {startQuest : Nat → Nat}
  {moment : EquipMoment} {inTrade : Nat → Bool} {p p' p'' : Player} {questId entry : Nat}
  {slot : Fin maxQuestLogSize} {quest : SourceQuest}

theorem takenCount_bounds (quest : SourceQuest) :
    0 < quest.takenCount ∧ quest.takenCount < 2^31 := by
  have hlt := quest.srcItemCount_lt
  unfold SourceQuest.takenCount
  split_ifs <;> omega

theorem take_refused (h : Q questId = some quest) (hsource : 0 < quest.srcItemId)
    (hno : p.inv.canUnequipItems S moment quest.srcItemId quest.takenCount ≠ .storage .ok)
    (depth : Nat) :
    p.takeQuestSourceItem S Q startQuest moment inTrade depth questId = (false,p) := by
  unfold Player.takeQuestSourceItem
  rw [h]
  dsimp only
  rw [if_pos hsource,if_pos hno]

theorem take_kept (h : Q questId = some quest) (hsource : 0 < quest.srcItemId)
    (hok : p.inv.canUnequipItems S moment quest.srcItemId quest.takenCount = .storage .ok)
    (hkept : quest.keepsItem startQuest questId = true) (depth : Nat) :
    p.takeQuestSourceItem S Q startQuest moment inTrade depth questId = (true,p) := by
  unfold Player.takeQuestSourceItem
  rw [h]
  dsimp only
  rw [if_pos hsource,if_neg (not_not.mpr hok),if_pos hkept]

theorem take_destroyed (h : Q questId = some quest) (hsource : 0 < quest.srcItemId)
    (hok : p.inv.canUnequipItems S moment quest.srcItemId quest.takenCount = .storage .ok)
    (hkept : quest.keepsItem startQuest questId = false) (depth : Nat) :
    p.takeQuestSourceItem S Q startQuest moment inTrade depth questId =
      (true,p.destroyItemCount S (questTemplates Q) moment inTrade depth quest.srcItemId
        quest.takenCount true) := by
  unfold Player.takeQuestSourceItem
  rw [h]
  dsimp only
  rw [if_pos hsource,if_neg (not_not.mpr hok),if_neg (by simp [hkept])]

def Player.untimed (p : Player) (questId : Nat) (quest : SourceQuest) : Player :=
  if quest.hasSpecialFlag questSpecialFlagsTimed then p.removeTimedQuest questId else p

theorem inv_untimed (p : Player) (questId : Nat) (quest : SourceQuest) :
    (p.untimed questId quest).inv = p.inv := by
  unfold Player.untimed
  split_ifs <;> rfl

theorem handle_eq (h : p.HasSource Q questId slot quest) {depth : Nat}
    (htake : p.takeQuestSourceItem S Q startQuest moment inTrade depth questId = (true,p')) :
    p.handleQuestLogRemoveQuest S Q startQuest moment inTrade depth slot =
      (((p'.untimed questId quest).takeQuestSourceItem S Q startQuest moment inTrade depth
        questId).2.removeActiveQuest questId).clearQuestSlot slot := by
  unfold Player.handleQuestLogRemoveQuest
  rw [dif_pos slot.isLt]
  dsimp only
  rw [Fin.eta,h.logged,if_pos h.id_ne,htake,h.template]
  rfl

theorem handle_refused (h : p.HasSource Q questId slot quest)
    (hno : p.inv.canUnequipItems S moment quest.srcItemId quest.takenCount ≠ .storage .ok)
    (depth : Nat) :
    p.handleQuestLogRemoveQuest S Q startQuest moment inTrade depth slot = p := by
  unfold Player.handleQuestLogRemoveQuest
  rw [dif_pos slot.isLt]
  dsimp only
  rw [Fin.eta,h.logged,if_pos h.id_ne,take_refused h.template h.source hno]

theorem abandoned_iff (hinv : p''.inv = p'.inv)
    (hothers : ∀ pos, (p'.inv.itemAt S pos).filter (fun item => item.entry != quest.srcItemId) =
      (p.inv.itemAt S pos).filter fun item => item.entry != quest.srcItemId) (kept : Bool) :
    Abandoned S questId slot quest kept p ((p''.removeActiveQuest questId).clearQuestSlot slot) ↔
      p'.inv.amountOf S quest.srcItemId =
        p.inv.amountOf S quest.srcItemId-if kept then 0 else quest.takenCount := by
  have hafter : ((p''.removeActiveQuest questId).clearQuestSlot slot).inv = p'.inv := hinv
  constructor
  · intro h
    have htaken := h.taken
    rwa [hafter] at htaken
  · intro htaken
    refine ⟨?_,?_,Function.update_self ..,Function.update_self ..⟩
    · rw [hafter]
      exact htaken
    · intro pos
      rw [hafter]
      exact hothers pos

/-- A number is drawn from the piles of an entry, and perhaps once more. -/
structure DrawnAgain (S : ItemStore) (moment : EquipMoment) (inTrade : Nat → Bool)
    (entry count : Nat) (again : Prop) [Decidable again] (p after : Player) : Prop where
  stacked : after.inv.Stacked S
  entries : KeepsEntries S p.inv after.inv
  piles : after.inv.piles S moment inTrade entry =
    if again then draw count (draw count (p.inv.piles S moment inTrade entry))
    else draw count (p.inv.piles S moment inTrade entry)
  others : KeepsOthers S inTrade entry p.inv after.inv
  refused : ¬ again ↔ p.inv.Refuses S moment inTrade entry count
    (draw count (p.inv.piles S moment inTrade entry))

theorem DrawnAgain.amountOf {count : Nat} {again : Prop} [Decidable again] {after : Player}
    (h : DrawnAgain S moment inTrade entry count again p after) (hinv : p.inv.Stacked S)
    (hplain : p.inv.Plain S entry) (hpos : 0 < count) :
    after.inv.amountOf S entry = p.inv.amountOf S entry-count ↔
      p.TakenOnce S moment inTrade entry count := by
  rw [amountOf_eq moment inTrade h.stacked (h.entries.plain hplain),
    amountOf_eq moment inTrade hinv hplain,h.piles,h.others.trade,
    total_draw_again_iff hpos (pos_piles hinv) again,h.refused,tradeCount_eq_zero_iff hinv]
  rfl

theorem drawnAgain_take (h : p.HasSource Q questId slot quest)
    (hplain : p.inv.Plain S quest.srcItemId) (hkept : quest.keepsItem startQuest questId = false)
    (depth : Nat) (hfirst : Draws S (questTemplates Q) moment inTrade quest.srcItemId
      quest.takenCount destroySlots p p') (hsame : p''.inv = p'.inv) :
    DrawnAgain S moment inTrade quest.srcItemId quest.takenCount
      (p''.inv.canUnequipItems S moment quest.srcItemId quest.takenCount = .storage .ok) p
      (p''.takeQuestSourceItem S Q startQuest moment inTrade (depth+1) questId).2 := by
  obtain ⟨hpos,hcount⟩ := takenCount_bounds quest
  have hstacked : p''.inv.Stacked S := hsame ▸ hfirst.stacked
  have hentries : KeepsEntries S p.inv p''.inv := hsame ▸ hfirst.entries
  have hothers : KeepsOthers S inTrade quest.srcItemId p.inv p''.inv := hsame ▸ hfirst.others
  have hpiles : p''.inv.piles S moment inTrade quest.srcItemId =
      draw quest.takenCount (p.inv.piles S moment inTrade quest.srcItemId) := by
    rw [hsame]
    exact hfirst.piles
  have hrefused : ¬ p''.inv.canUnequipItems S moment quest.srcItemId quest.takenCount =
      .storage .ok ↔ p.inv.Refuses S moment inTrade quest.srcItemId quest.takenCount
        (draw quest.takenCount (p.inv.piles S moment inTrade quest.srcItemId)) := by
    rw [← hothers.refuses hplain,← hpiles]
    exact canUnequipItems_not_ok_iff inTrade hstacked hpos hcount
  by_cases hagain : p''.inv.canUnequipItems S moment quest.srcItemId quest.takenCount = .storage .ok
  · have hsecond : Draws S (questTemplates Q) moment inTrade quest.srcItemId quest.takenCount
        destroySlots p'' (p''.destroyItemCount S (questTemplates Q) moment inTrade (depth+1)
          quest.srcItemId quest.takenCount true) :=
      draws_destroyItemCount hstacked (hentries.plain hplain) hpos hcount depth
    rw [take_destroyed h.template h.source hagain hkept]
    refine ⟨hsecond.stacked,hentries.trans hsecond.entries,?_,?_,hrefused⟩
    · rw [if_pos hagain,← hpiles]
      exact hsecond.piles
    · exact fun pos => (hsecond.others pos).trans (hothers pos)
  · rw [take_refused h.template h.source hagain]
    refine ⟨hstacked,hentries,?_,hothers,hrefused⟩
    rw [if_neg hagain]
    exact hpiles

/-- A source item that is not kept is taken as it should be exactly when it is taken once. -/
theorem handle_taken_iff (inTrade : Nat → Bool) (h : p.HasSource Q questId slot quest)
    (hinv : p.inv.Stacked S) (hplain : p.inv.Plain S quest.srcItemId)
    (hok : p.inv.canUnequipItems S moment quest.srcItemId quest.takenCount = .storage .ok)
    (hkept : quest.keepsItem startQuest questId = false) (depth : Nat) :
    Abandoned S questId slot quest false p
        (p.handleQuestLogRemoveQuest S Q startQuest moment inTrade (depth+1) slot) ↔
      p.TakenOnce S moment inTrade quest.srcItemId quest.takenCount := by
  obtain ⟨hpos,hcount⟩ := takenCount_bounds quest
  have hfirst : Draws S (questTemplates Q) moment inTrade quest.srcItemId quest.takenCount
      destroySlots p (p.destroyItemCount S (questTemplates Q) moment inTrade (depth+1)
        quest.srcItemId quest.takenCount true) := draws_destroyItemCount hinv hplain hpos hcount depth
  have hagain := drawnAgain_take h hplain hkept depth hfirst (inv_untimed _ questId quest)
  rw [handle_eq h (take_destroyed h.template h.source hok hkept (depth+1)),
    abandoned_iff rfl hagain.others.ofOthers,if_neg Bool.false_ne_true]
  exact hagain.amountOf hinv hplain hpos

theorem handle_kept (inTrade : Nat → Bool) (h : p.HasSource Q questId slot quest)
    (hok : p.inv.canUnequipItems S moment quest.srcItemId quest.takenCount = .storage .ok)
    (hkept : quest.keepsItem startQuest questId = true) (depth : Nat) :
    Abandoned S questId slot quest true p
      (p.handleQuestLogRemoveQuest S Q startQuest moment inTrade depth slot) := by
  have hok' : (p.untimed questId quest).inv.canUnequipItems S moment quest.srcItemId
      quest.takenCount = .storage .ok := by
    rw [inv_untimed]
    exact hok
  rw [handle_eq h (take_kept h.template h.source hok hkept depth),
    take_kept h.template h.source hok' hkept depth,
    abandoned_iff (inv_untimed p questId quest) fun _ => rfl]
  rfl

/-- A quest is abandoned as it should be if its item is taken once, and unless its item is a bag only
then. -/
theorem handleQuestLogRemoveQuest_abandons_iff (S : ItemStore) (Q : Nat → Option SourceQuest)
    (startQuest : Nat → Nat) (moment : EquipMoment) (inTrade : Nat → Bool) (p : Player)
    (depth questId : Nat) (slot : Fin maxQuestLogSize) (quest : SourceQuest)
    (h : p.HasSource Q questId slot quest) (hinv : p.inv.Stacked S) :
    (p.AbandonsOnce S startQuest moment inTrade questId quest →
      Abandons S startQuest moment questId slot quest p
        (p.handleQuestLogRemoveQuest S Q startQuest moment inTrade (depth+1) slot)) ∧
    (p.inv.Plain S quest.srcItemId →
      Abandons S startQuest moment questId slot quest p
          (p.handleQuestLogRemoveQuest S Q startQuest moment inTrade (depth+1) slot) →
        p.AbandonsOnce S startQuest moment inTrade questId quest) := by
  unfold Abandons Player.AbandonsOnce
  by_cases hok : p.inv.canUnequipItems S moment quest.srcItemId quest.takenCount = .storage .ok
  · rw [if_neg (not_not.mpr hok)]
    cases hkept : quest.keepsItem startQuest questId with
    | true => exact ⟨fun _ => handle_kept inTrade h hok hkept (depth+1),fun _ _ => .inr (.inl rfl)⟩
    | false =>
      constructor
      · rintro (hno | htrue | ⟨hplain,honce⟩)
        · exact absurd hok hno
        · exact absurd htrue Bool.false_ne_true
        · exact (handle_taken_iff inTrade h hinv hplain hok hkept depth).mpr honce
      · intro hplain habandoned
        exact .inr (.inr ⟨hplain,
          (handle_taken_iff inTrade h hinv hplain hok hkept depth).mp habandoned⟩)
  · rw [if_pos hok]
    exact ⟨fun _ => handle_refused h hok (depth+1),fun _ _ => .inl hok⟩

def courierQuest (count : Fin (2^8)) : SourceQuest :=
  { tokenQuest 6 with srcItemId := 1, srcItemCount := count, srcItemCount_lt := count.isLt }

theorem thirdSlot_lt : 2 < maxQuestLogSize := by decide

def thirdSlot : Fin maxQuestLogSize := ⟨2,thirdSlot_lt⟩

def courierQuests (count : Fin (2^8)) (questId : Nat) : Option SourceQuest :=
  if questId = 7 then some (courierQuest count) else none

theorem twoTokens_hasSource (count : Fin (2^8)) : (withQuest twoTokens 0).HasSource
    (courierQuests count) 7 thirdSlot (courierQuest count) :=
  ⟨rfl,by decide,rfl,Nat.one_pos⟩

theorem stacked_twoTokens : twoTokens.Stacked tokenStore := by
  refine ⟨⟨by decide +kernel,by decide +kernel,?_⟩,by decide +kernel⟩
  intro slot _ hend item h
  simp only [bankSlotBagEnd] at hend
  have hnone : twoTokens.items slot = none := if_neg (by omega)
  rw [hnone] at h
  cases h

theorem twoTokens_abandons : Abandons tokenStore (fun _ => 0) atRest 7 thirdSlot (courierQuest 2)
    (withQuest twoTokens 0) ((withQuest twoTokens 0).handleQuestLogRemoveQuest tokenStore
      (courierQuests 2) (fun _ => 0) atRest (fun _ => false) 1 thirdSlot) := by
  refine (handleQuestLogRemoveQuest_abandons_iff tokenStore (courierQuests 2) (fun _ => 0) atRest
    (fun _ => false) (withQuest twoTokens 0) 0 7 thirdSlot (courierQuest 2) (twoTokens_hasSource 2)
    stacked_twoTokens).1 (.inr (.inr ⟨?_,.inr ⟨fun _ _ _ => rfl,?_,?_⟩⟩))
  · exact fun item _ hentry => token_not_bag item hentry
  · decide +kernel
  · decide +kernel

/-- Of two tokens of which one came with the quest both are taken. -/
theorem twoTokens_both_taken : ¬ Abandons tokenStore (fun _ => 0) atRest 7 thirdSlot (courierQuest 1)
    (withQuest twoTokens 0) ((withQuest twoTokens 0).handleQuestLogRemoveQuest tokenStore
      (courierQuests 1) (fun _ => 0) atRest (fun _ => false) 1 thirdSlot) := by
  have hok : (withQuest twoTokens 0).inv.canUnequipItems tokenStore atRest
      (courierQuest 1).srcItemId (courierQuest 1).takenCount = .storage .ok := by
    decide +kernel
  unfold Abandons
  rw [if_neg (not_not.mpr hok)]
  intro h
  have htaken := h.taken
  revert htaken
  decide +kernel

end Abandoned

end TrinityCore.Players
