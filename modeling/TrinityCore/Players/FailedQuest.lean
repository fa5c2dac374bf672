import TrinityCore.Players.DestroyedBags

set_option autoImplicit false

/-!
A quest that fails should be failed afterwards, with a timer that has run out and without the items for
it. The items go last, and with them the quest may become incomplete again; and of the required items
only those of the first four objectives go.
-/

namespace TrinityCore.Players

open Piles QuestLog

namespace Quest

variable (quest : Quest)

def objectives : List (Nat × Nat) := quest.requiredItems ++ quest.sourceItems

def destroyed : List (Nat × Nat) := quest.requiredItemsLooped ++ quest.sourceItems

def Wants (entry : Nat) : Prop := 0 < entry ∧ ∃ count, 0 < count ∧ (entry,count) ∈ quest.objectives

def asked (entry : Nat) : Nat := (numbersOf entry quest.objectives).sum

/-- The objectives after the first four do not ask for any. -/
def NotAskedLate (entry : Nat) : Prop :=
  ∀ i : Fin questItemObjectivesCount, questObjectivesCount ≤ i.val →
    quest.requiredItemId i = entry → quest.requiredItemCount i = 0

end Quest

structure Player.Active (Q : Nat → Option Quest) (p : Player) (questId : Nat) (quest : Quest) :
    Prop where
  template : Q questId = some quest
  id_ne : questId ≠ 0
  logged : ∃ i, p.quests.findQuestSlot questId = some i

/-- The quest is failed, and of its items as many are gone as it asks for, or all. -/
structure HasFailed (S : ItemStore) (Q : Nat → Option Quest) (questId : Nat) (quest : Quest)
    (before after : Player) : Prop where
  status : after.quests.getQuestStatus Q questId = .failed
  slot : ∃ i, after.quests.findQuestSlot questId = some i ∧
    (after.quests.slots i).state &&& questStateFail ≠ 0 ∧
    (after.quests.slots i).state &&& questStateComplete = 0
  timer : (after.quests.data questId).timer = 0
  items : ∀ entry, quest.Wants entry →
    after.inv.amountOf S entry = before.inv.amountOf S entry-quest.asked entry

def Player.WithoutBags (S : ItemStore) (p : Player) (quest : Quest) : Prop :=
  ∀ entry, quest.Wants entry → p.inv.Plain S entry

/-- The items of an entry can be destroyed as they should: either no late objective asks for them and
each of the numbers is there, or all of them can go and are not too many. -/
def Player.CanGo (S : ItemStore) (moment : EquipMoment) (inTrade : Nat → Bool) (p : Player)
    (quest : Quest) (entry : Nat) : Prop :=
  (quest.NotAskedLate entry ∧
      AllFind (numbersOf entry quest.destroyed) (p.inv.piles S moment inTrade entry)) ∨
    ((∀ item ∈ p.inv.contents S, item.entry = entry → inTrade item.guid = false) ∧
      (∀ pile ∈ p.inv.piles S moment inTrade entry, pile.fixed = false) ∧
      total (p.inv.piles S moment inTrade entry) ≤ (numbersOf entry quest.destroyed).sum)

/-- What may go wrong does not: the timer and the complete state, what cannot be destroyed or is not
asked for by the loops, and the pieces that make the quest incomplete again. Where bags are asked for,
each search for them finds what it needs. -/
structure Player.FailsCleanly (S : ItemStore) (Q : Nat → Option Quest) (moment : EquipMoment)
    (inTrade : Nat → Bool) (depth : Nat) (p : Player) (questId : Nat) (quest : Quest) : Prop where
  timer : quest.hasSpecialFlag questSpecialFlagsTimed = true ∨ (p.quests.data questId).timer = 0
  slot : ∀ i, p.quests.findQuestSlot questId = some i →
    (p.quests.slots i).state &&& questStateComplete = 0
  items : ∀ entry, quest.Wants entry → p.inv.Plain S entry → p.CanGo S moment inTrade quest entry
  undisturbed : ∀ entry, quest.Wants entry → p.inv.Plain S entry →
    Undisturbed Q p.quests questId (p.quests.data questId) entry (p.inv.carriedCount S entry)
      (p.piecesOf S moment inTrade entry quest.destroyed)
  bags : ∀ entry, quest.Wants entry → ¬ p.inv.Plain S entry → quest.NotAskedLate entry ∨
    p.inv.amountOf S entry ≤ (numbersOf entry quest.destroyed).sum
  served : (p.markFailed Q questId quest).AllServed S Q moment inTrade depth questId quest.destroyed

section Numbers

variable {quest : Quest} {entry : Nat}

theorem objectives_split (quest : Quest) (entry : Nat) : ∃ first second : Nat × Nat,
    quest.requiredItems = quest.requiredItemsLooped ++ [first,second] ∧
      (quest.NotAskedLate entry ↔
        (first.1 = entry → first.2 = 0) ∧ (second.1 = entry → second.2 = 0)) := by
  have hfifth : questObjectivesCount < questItemObjectivesCount := by decide
  have hsixth : questObjectivesCount+1 < questItemObjectivesCount := by decide
  refine ⟨(quest.requiredItemId ⟨_,hfifth⟩,quest.requiredItemCount ⟨_,hfifth⟩),
    (quest.requiredItemId ⟨_,hsixth⟩,quest.requiredItemCount ⟨_,hsixth⟩),rfl,?_⟩
  constructor
  · exact fun h => ⟨h ⟨_,hfifth⟩ le_rfl,h ⟨_,hsixth⟩ (Nat.le_succ _)⟩
  · rintro ⟨hfirst,hsecond⟩ ⟨i,hlt⟩ hle
    have hcases : i = questObjectivesCount ∨ i = questObjectivesCount+1 := by
      simp only [questItemObjectivesCount,questObjectivesCount] at hlt hle ⊢
      omega
    rcases hcases with rfl | rfl
    · exact hfirst
    · exact hsecond

theorem asked_eq_iff (quest : Quest) (entry : Nat) :
    (numbersOf entry quest.destroyed).sum ≤ quest.asked entry ∧
    ((numbersOf entry quest.destroyed).sum = quest.asked entry ↔ quest.NotAskedLate entry) := by
  obtain ⟨first,second,hsplit,hlate⟩ := objectives_split quest entry
  have hnumber : ∀ item : Nat × Nat,
      (numbersOf entry [item]).sum = 0 ↔ (item.1 = entry → item.2 = 0) := by
    intro item
    by_cases h : item.1 = entry
    · simp [numbersOf,h]
    · simp [numbersOf,h]
  have hpair : numbersOf entry [first,second] = numbersOf entry [first] ++ numbersOf entry [second] :=
    numbersOf_append entry [first] [second]
  unfold Quest.asked Quest.objectives Quest.destroyed
  rw [hlate,← hnumber,← hnumber,hsplit]
  simp only [numbersOf_append,hpair,List.sum_append]
  omega

theorem mem_destroyed {item : Nat × Nat} (h : item ∈ quest.destroyed) :
    item ∈ quest.objectives ∧ item.2 < 2^31 := by
  have hlt : ∀ item ∈ quest.objectives, item.2 < 2^31 := by
    intro item hitem
    have hbits : item.2 < 2^16 := by
      rcases List.mem_append.mp hitem with hitem | hitem
      · obtain ⟨i,-,rfl⟩ := List.mem_map.mp hitem
        exact quest.requiredItemCount_lt i
      · obtain ⟨i,-,rfl⟩ := List.mem_map.mp hitem
        exact quest.requiredSourceItemCount_lt i
    omega
  have hmem : item ∈ quest.objectives := by
    obtain ⟨first,second,hsplit,-⟩ := objectives_split quest 0
    rcases List.mem_append.mp h with h | h
    · exact List.mem_append_left _ (hsplit ▸ List.mem_append_left _ h)
    · exact List.mem_append_right _ h
  exact ⟨hmem,hlt item hmem⟩

end Numbers

section Failed

variable {S : ItemStore} {Q : Nat → Option Quest} {moment : EquipMoment} {inTrade : Nat → Bool}
  {p : Player} {questId entry : Nat} {quest : Quest} {i : Fin maxQuestLogSize}

structure Marked (log log' : QuestLog) (questId : Nat) (quest : Quest) (i : Fin maxQuestLogSize)
    (data : QuestStatusData) : Prop where
  sameSlots : SameSlots log log'
  state : (log'.slots i).state = (log.slots i).state ||| questStateFail
  data_eq : log'.questStatus questId = some data
  status : data.status = .failed
  timer : data.timer =
    if quest.hasSpecialFlag questSpecialFlagsTimed then 0 else (log.data questId).timer
  itemCount : data.itemCount = (log.data questId).itemCount

theorem markFailed_spec (h : p.Active Q questId quest)
    (hi : p.quests.findQuestSlot questId = some i) :
    ∃ data, Marked p.quests (p.markFailed Q questId quest).quests questId quest i data := by
  have hslot : (p.quests.setQuestStatus Q questId .failed).findQuestSlot questId = some i := by
    rw [setQuestStatus_eq h.template,← hi]
    exact findQuestSlot_congr (fun _ => rfl) questId
  have hsame : ∀ log : QuestLog,
      SameSlots log ((log.setQuestSlotTimer i 1).setQuestSlotState i questStateFail) := by
    intro log i'
    by_cases heq : i' = i
    · subst heq
      simp [setQuestSlotTimer,setQuestSlotState,setSlot]
    · simp [setQuestSlotTimer,setQuestSlotState,setSlot,heq]
  have hstate : ∀ log : QuestLog,
      (((log.setQuestSlotTimer i 1).setQuestSlotState i questStateFail).slots i).state =
        (log.slots i).state ||| questStateFail := by
    intro log
    simp [setQuestSlotTimer,setQuestSlotState,setSlot]
  unfold Player.markFailed
  dsimp only
  rw [hslot,setQuestStatus_eq h.template]
  dsimp only
  split_ifs with htimed
  · refine ⟨_,hsame _,hstate _,Function.update_self ..,?_,?_,?_⟩
    · simp [setQuestSlotTimer,setQuestSlotState,setSlot,removeTimedQuest,setData,QuestLog.data]
    · rw [if_pos htimed]
    · simp [setQuestSlotTimer,setQuestSlotState,setSlot,removeTimedQuest,setData,QuestLog.data]
  · refine ⟨_,hsame _,hstate _,Function.update_self ..,rfl,?_,rfl⟩
    rw [if_neg htimed]

theorem failQuest_eq (h : p.Active Q questId quest)
    (hstatus : p.quests.getQuestStatus Q questId ≠ .complete) (depth : Nat) :
    p.failQuest S Q moment inTrade depth questId =
      Player.destroyEach S Q moment inTrade depth quest.destroyed
        (p.markFailed Q questId quest) := by
  unfold Player.failQuest Quest.destroyed
  rw [if_neg hstatus,h.template,destroyEach_append]

theorem state_failed (state : BitVec 32) : (state ||| questStateFail) &&& questStateFail ≠ 0 ∧
    ((state ||| questStateFail) &&& questStateComplete = 0 ↔ state &&& questStateComplete = 0) := by
  constructor
  · intro h
    have hbit := congrArg (fun v => v.getLsbD 1) h
    simp [questStateFail] at hbit
  · have hnone : questStateFail &&& questStateComplete = 0 := by decide
    rw [BitVec.and_or_distrib_right,hnone]
    simp

theorem wants_of_destroyed {item : Nat × Nat} (h : item ∈ quest.destroyed) (hentry : 0 < item.1)
    (hcount : 0 < item.2) : quest.Wants item.1 :=
  ⟨hentry,item.2,hcount,(mem_destroyed h).1⟩

theorem undisturbed_itemCount {log : QuestLog} {data data' : QuestStatusData} {held : Nat}
    {ps : List (Nat × Bool)} (h : data'.itemCount = data.itemCount) :
    Undisturbed Q log questId data' entry held ps ↔
      Undisturbed Q log questId data entry held ps := by
  unfold Undisturbed
  rw [h]

theorem amountOf_destroyEach (hinv : p.inv.Stacked S) (hplain : p.inv.Plain S entry)
    (hentry : 0 < entry) {after : Player}
    (h : DrawsEach S moment inTrade quest.destroyed p after) :
    after.inv.amountOf S entry = p.inv.amountOf S entry-quest.asked entry ↔
      p.CanGo S moment inTrade quest entry := by
  have hasked := asked_eq_iff quest entry
  rw [amountOf_eq moment inTrade h.stacked (h.entries.plain hplain),
    amountOf_eq moment inTrade hinv hplain,h.piles entry hentry hplain,h.trade entry,
    total_drawAll_iff _ (pos_piles hinv) hasked.1,hasked.2,tradeCount_eq_zero_iff hinv]
  rfl

theorem status_failQuest (Q : Nat → Option Quest) {log log' : QuestLog} {data : QuestStatusData}
    (hid : questId ≠ 0) (hdata : log.questStatus questId = some data) (hfailed : data.status = .failed)
    {quiet : Prop} (h : (quiet ∧ Stays log log' questId) ∨
      (¬ quiet ∧ SameSlots log log' ∧ Spoilt log' questId)) :
    log'.getQuestStatus Q questId = .failed ↔ quiet := by
  unfold QuestLog.getQuestStatus
  rw [if_neg hid]
  rcases h with ⟨hquiet,hstays⟩ | ⟨hloud,-,data',hdata',hincomplete⟩
  · rw [hstays.status,hdata]
    exact iff_of_true hfailed hquiet
  · rw [hdata']
    dsimp only
    rw [hincomplete]
    exact iff_of_false (by decide) hloud

theorem Marked.of_stays {log log' log'' : QuestLog} {data : QuestStatusData}
    (h : Marked log log' questId quest i data) (hstays : Stays log' log'' questId)
    (hi : log.findQuestSlot questId = some i) : log''.findQuestSlot questId = some i ∧
      (log''.slots i).state = (log.slots i).state ||| questStateFail ∧ log''.data questId = data := by
  have hfound : log'.findQuestSlot questId = some i := by rw [findQuestSlot_congr h.sameSlots,hi]
  refine ⟨?_,?_,?_⟩
  · rw [findQuestSlot_congr hstays.sameSlots,hfound]
  · rw [hstays.slots i (findQuestSlot_some hfound),h.state]
  · unfold QuestLog.data
    rw [hstays.status,h.data_eq]
    rfl

theorem Marked.timer_eq_zero_iff {log log' : QuestLog} {data : QuestStatusData}
    (h : Marked log log' questId quest i data) : data.timer = 0 ↔
      quest.hasSpecialFlag questSpecialFlagsTimed = true ∨ (log.data questId).timer = 0 := by
  rw [h.timer]
  split_ifs with htimed
  · simp [htimed]
  · simp [htimed]

theorem quiet_markFailed {data : QuestStatusData} {E : Nat → Prop}
    (hmarked : Marked p.quests (p.markFailed Q questId quest).quests questId quest i data) :
    Quiet S Q moment inTrade E questId data quest.destroyed (p.markFailed Q questId quest) ↔
      ∀ entry, E entry →
        Undisturbed Q p.quests questId (p.quests.data questId) entry (p.inv.carriedCount S entry)
          (p.piecesOf S moment inTrade entry quest.destroyed) := by
  unfold Quiet
  apply forall₂_congr
  intro entry _
  rw [undisturbed_congr hmarked.sameSlots,undisturbed_itemCount hmarked.itemCount]
  rfl

/-- If the quest fails cleanly, it is failed and the items are gone. -/
theorem hasFailed_of_cleanly (hactive : p.Active Q questId quest)
    (hstatus : p.quests.getQuestStatus Q questId ≠ .complete) (hinv : p.inv.Stacked S)
    {depth : Nat} (h : p.FailsCleanly S Q moment inTrade (depth+1) questId quest) :
    HasFailed S Q questId quest p (p.failQuest S Q moment inTrade (depth+1) questId) := by
  obtain ⟨i,hi⟩ := hactive.logged
  obtain ⟨data,hmarked⟩ := markFailed_spec hactive hi
  have hinv' : (p.markFailed Q questId quest).inv.Stacked S := hinv
  have hsorts : Sorts S (fun entry => quest.Wants entry ∧ p.inv.Plain S entry) quest.destroyed
      (p.markFailed Q questId quest) := by
    refine ⟨fun entry hE => ⟨hE.1.1,hE.2⟩,fun item hitem hentry hcount => ?_⟩
    refine ⟨(mem_destroyed hitem).2,?_⟩
    by_cases hplain : p.inv.Plain S item.1
    · exact .inl ⟨wants_of_destroyed hitem hentry hcount,hplain⟩
    · exact .inr (isBagEntry_of_not_plain hplain)
  have hquiet : Quiet S Q moment inTrade (fun entry => quest.Wants entry ∧ p.inv.Plain S entry)
      questId data quest.destroyed (p.markFailed Q questId quest) :=
    (quiet_markFailed hmarked).mpr fun entry hE => h.undisturbed entry hE.1 hE.2
  have htakes := takesAway_destroyEach hinv' hsorts hmarked.data_eq hquiet h.served
  rw [← failQuest_eq hactive hstatus] at htakes
  generalize p.failQuest S Q moment inTrade (depth+1) questId = after at htakes ⊢
  obtain ⟨hfound,hstate,hdata⟩ := hmarked.of_stays htakes.stays hi
  refine ⟨?status,⟨i,hfound,?fail,?complete⟩,?timer,?items⟩
  case status =>
    exact (status_failQuest Q hactive.id_ne hmarked.data_eq hmarked.status
      (.inl ⟨trivial,htakes.stays⟩)).mpr trivial
  case fail =>
    rw [hstate]
    exact (state_failed _).1
  case complete =>
    rw [hstate]
    exact (state_failed _).2.mpr (h.slot i hi)
  case timer =>
    rw [hdata,hmarked.timer_eq_zero_iff]
    exact h.timer
  case items =>
    intro entry hwants
    by_cases hplain : p.inv.Plain S entry
    · exact (amountOf_destroyEach hinv' hplain hwants.1 htakes.each).mpr
        (h.items entry hwants hplain)
    · have hamount : after.inv.amountOf S entry =
          p.inv.amountOf S entry-(numbersOf entry quest.destroyed).sum :=
        htakes.amount entry hwants.1 (isBagEntry_of_not_plain hplain)
      obtain ⟨hle,heq⟩ := asked_eq_iff quest entry
      rcases h.bags entry hwants hplain with hlate | hall
      · rw [hamount,heq.mpr hlate]
      · omega

/-- Of a quest without bags the items go and the quest is failed only when it fails cleanly. -/
theorem cleanly_of_hasFailed (hactive : p.Active Q questId quest)
    (hstatus : p.quests.getQuestStatus Q questId ≠ .complete) (hinv : p.inv.Stacked S)
    (hbags : p.WithoutBags S quest) {depth : Nat}
    (h : HasFailed S Q questId quest p (p.failQuest S Q moment inTrade (depth+1) questId)) :
    p.FailsCleanly S Q moment inTrade (depth+1) questId quest := by
  obtain ⟨i,hi⟩ := hactive.logged
  obtain ⟨data,hmarked⟩ := markFailed_spec hactive hi
  have hinv' : (p.markFailed Q questId quest).inv.Stacked S := hinv
  have hcovers : Covers S quest.Wants quest.destroyed (p.markFailed Q questId quest) :=
    ⟨fun entry hwants => ⟨hwants.1,hbags entry hwants⟩,fun item hitem hentry hcount =>
      ⟨wants_of_destroyed hitem hentry hcount,(mem_destroyed hitem).2⟩⟩
  have hdraws : DrawsEach S moment inTrade quest.destroyed (p.markFailed Q questId quest)
      (p.failQuest S Q moment inTrade (depth+1) questId) := by
    rw [failQuest_eq hactive hstatus]
    exact drawsEach_destroyEach hinv' hcovers.asked depth
  have houtcome := outcome_destroyEach Q moment inTrade hinv' hcovers hmarked.data_eq depth
  rw [← failQuest_eq hactive hstatus] at houtcome
  generalize p.failQuest S Q moment inTrade (depth+1) questId = after at h hdraws houtcome
  have hfailed := status_failQuest Q hactive.id_ne hmarked.data_eq hmarked.status houtcome
  have hquiet := hfailed.mp h.status
  have hstays := (houtcome.resolve_right fun hloud => hloud.1 hquiet).2
  obtain ⟨hfound,hstate,hdata⟩ := hmarked.of_stays hstays hi
  refine ⟨?timer,?slot,?items,?undisturbed,?bags,allServed_of_asked hinv' hcovers.asked depth⟩
  case timer =>
    rw [← hmarked.timer_eq_zero_iff,← hdata]
    exact h.timer
  case slot =>
    intro i' hi'
    obtain ⟨found,hfound',-,hcomplete⟩ := h.slot
    cases hfound.symm.trans hfound'
    cases hi.symm.trans hi'
    rw [hstate] at hcomplete
    exact (state_failed _).2.mp hcomplete
  case items =>
    exact fun entry hwants hplain =>
      (amountOf_destroyEach hinv' hplain hwants.1 hdraws).mp (h.items entry hwants)
  case undisturbed =>
    exact fun entry hwants _ => (quiet_markFailed hmarked).mp hquiet entry hwants
  case bags => exact fun entry hwants hbag => absurd (hbags entry hwants) hbag

/-- A quest fails as it should if it fails cleanly, and without bags only then. -/
theorem failQuest_fails_iff (S : ItemStore) (Q : Nat → Option Quest) (moment : EquipMoment)
    (inTrade : Nat → Bool) (p : Player) (depth questId : Nat) (quest : Quest)
    (hactive : p.Active Q questId quest)
    (hstatus : p.quests.getQuestStatus Q questId ≠ .complete) (hinv : p.inv.Stacked S) :
    (p.FailsCleanly S Q moment inTrade (depth+1) questId quest →
      HasFailed S Q questId quest p (p.failQuest S Q moment inTrade (depth+1) questId)) ∧
    (p.WithoutBags S quest →
      HasFailed S Q questId quest p (p.failQuest S Q moment inTrade (depth+1) questId) →
        p.FailsCleanly S Q moment inTrade (depth+1) questId quest) :=
  ⟨hasFailed_of_cleanly hactive hstatus hinv,
    fun hbags h => cleanly_of_hasFailed hactive hstatus hinv hbags h⟩

theorem tokenQuest_lt {n : Nat} (k : Nat) (i : Fin n) : (if i.val = k then 3 else 0) < 2^16 := by
  split_ifs <;> decide

theorem noSource_lt {n : Nat} (_ : Fin n) : 0 < 2^16 := by decide

def tokenQuest (k : Nat) : Quest where
  specialFlags := questSpecialFlagsDeliver
  requiredItemId := fun i => if i.val = k then 1 else 0
  requiredItemCount := fun i => if i.val = k then 3 else 0
  requiredSourceItemId := fun _ => 0
  requiredSourceItemCount := fun _ => 0
  requiredItemCount_lt := tokenQuest_lt k
  requiredSourceItemCount_lt := noSource_lt

def tokenQuests (k questId : Nat) : Option Quest := if questId = 7 then some (tokenQuest k) else none

/-- A player with the quest in the log, and with so many of the tokens counted for it. -/
def withQuest (inv : Inventory) (counted : Nat) : Player where
  inv := inv
  quests := {
    questStatus := fun questId =>
      if questId = 7 then some ⟨.incomplete,0,fun _ => counted⟩ else none
    rewardedQuests := ∅
    timedQuests := ∅
    slots := fun i => if i.val = 2 then ⟨7,0,0⟩ else ⟨0,0,0⟩ }

def twoTokens : Inventory where
  guid := 7
  items := fun slot => if slot = 118 then some ⟨1,1,2,7,false,none,false,[]⟩ else none
  bagslot := fun _ _ => none

theorem withQuest_active (inv : Inventory) (counted k : Nat) :
    (withQuest inv counted).Active (tokenQuests k) 7 (tokenQuest k) ∧
      (withQuest inv counted).quests.getQuestStatus (tokenQuests k) 7 ≠ .complete :=
  ⟨⟨rfl,by decide,⟨2,by decide⟩,rfl⟩,QuestStatus.noConfusion⟩

theorem wants_token {k entry : Nat} (h : (tokenQuest k).Wants entry) : entry = 1 := by
  obtain ⟨-,count,hcount,hmem⟩ := h
  rcases List.mem_append.mp hmem with hmem | hmem
  · obtain ⟨i,-,heq⟩ := List.mem_map.mp hmem
    obtain ⟨hid,hnumber⟩ := Prod.mk.inj heq
    simp only [tokenQuest] at hid hnumber
    split_ifs at hid hnumber
    · exact hid.symm
    · omega
  · obtain ⟨i,-,heq⟩ := List.mem_map.mp hmem
    obtain ⟨-,hnumber⟩ := Prod.mk.inj heq
    simp only [tokenQuest] at hnumber
    omega

theorem stacked_threeStacks : (threeStacks 2).Stacked tokenStore :=
  ⟨⟨by decide +kernel,by decide +kernel,fun _ _ hend => threeStacks_bankBags hend⟩,by decide +kernel⟩

theorem tokens_failCleanly : (withQuest (threeStacks 2) 3).FailsCleanly tokenStore (tokenQuests 0)
    atRest (fun _ => false) 1 7 (tokenQuest 0) := by
  have hplain : ∀ entry, (tokenQuest 0).Wants entry → (threeStacks 2).Plain tokenStore entry :=
    fun entry hwants item _ hentry => token_not_bag item (hentry.trans (wants_token hwants))
  refine ⟨.inr rfl,?slot,?items,?undisturbed,
    fun entry hwants hbag => absurd (hplain entry hwants) hbag,?served⟩
  case slot =>
    intro i hi
    cases hi
    rfl
  case items =>
    intro entry hwants _
    rw [wants_token hwants]
    refine .inl ⟨?_,(taken_piecesAll_eq_iff _ _).mp (by decide +kernel)⟩
    intro i hi _
    have hne : i.val ≠ 0 := by
      simp only [questObjectivesCount] at hi
      omega
    exact if_neg hne
  case undisturbed =>
    intro entry hwants _ q j hneeded
    rw [wants_token hwants] at hneeded ⊢
    have hpieces : (withQuest (threeStacks 2) 3).piecesOf tokenStore atRest (fun _ => false) 1
        (tokenQuest 0).destroyed = [(2,true),(1,true)] := by
      decide +kernel
    have hheld : (withQuest (threeStacks 2) 3).inv.carriedCount tokenStore 1 = 6 := by decide +kernel
    cases hneeded
    rw [hpieces,hheld]
    exact ⟨.inr ⟨rfl,by decide⟩,.inr ⟨rfl,by decide⟩,trivial⟩
  case served =>
    refine allServed_of_asked stacked_threeStacks (fun item hitem hentry hcount => ?_) 0
    exact ⟨hplain item.1 (wants_of_destroyed hitem hentry hcount),(mem_destroyed hitem).2⟩

def sackStore : ItemStore where
  getItemTemplate := fun entry =>
    if entry = 1 then
      some {
        itemId := 1
        itemClass := itemClassContainer
        subClass := itemSubclassContainer
        bindToAccount := false
        inventoryType := 18
        maxCount := 0
        stackable := 1
        containerSlots := 6
        gemProperties := 0
        socketColor := 0
        bagFamily := 0
        itemLimitCategory := 0
        containerSlots_le := by decide }
    else none
  lookupLimitCategory := fun _ => none
  itemId_eq := by
    intro entry t h
    split_ifs at h with hentry
    cases h
    exact hentry.symm

/-- An empty sack in the backpack, and one with something in it in the bag list. -/
def twoSacks : Inventory where
  guid := 7
  items := fun slot =>
    if slot = 19 ∨ slot = 23 then some ⟨slot,1,1,7,false,none,false,[]⟩ else none
  bagslot := fun guid slot =>
    if guid = 19 ∧ slot = 2 then some ⟨1,5,1,7,false,none,false,[]⟩ else none

/-- A quest that is given with a sack, which is not to be delivered. -/
def sackQuest : Quest where
  specialFlags := 0
  requiredItemId := fun _ => 0
  requiredItemCount := fun _ => 0
  requiredSourceItemId := fun i => if i.val = 0 then 1 else 0
  requiredSourceItemCount := fun i => if i.val = 0 then 1 else 0
  requiredItemCount_lt := noSource_lt
  requiredSourceItemCount_lt := by decide

def sackQuests (questId : Nat) : Option Quest := if questId = 7 then some sackQuest else none

theorem stacked_twoSacks : twoSacks.Stacked sackStore := by
  refine ⟨⟨by decide +kernel,by decide +kernel,?_⟩,by decide +kernel⟩
  intro slot hstart hend item hitem
  simp only [bankSlotBagStart] at hstart
  have hnone : twoSacks.items slot = none := if_neg (by omega)
  rw [hnone] at hitem
  cases hitem

theorem wants_sack {entry : Nat} (h : sackQuest.Wants entry) : entry = 1 := by
  obtain ⟨-,count,hcount,hmem⟩ := h
  have hall : ∀ item ∈ sackQuest.objectives, 0 < item.2 → item.1 = 1 := by decide
  exact hall _ hmem hcount

theorem sack_failsCleanly : (withQuest twoSacks 0).FailsCleanly sackStore sackQuests atRest
    (fun _ => false) 1 7 sackQuest := by
  have hbag : ¬ twoSacks.Plain sackStore 1 := by
    unfold Inventory.Plain
    decide +kernel
  refine ⟨.inr rfl,?slot,?items,?undisturbed,?bags,?served⟩
  case slot =>
    intro i hi
    cases hi
    rfl
  case items => exact fun entry hwants hplain => absurd (wants_sack hwants ▸ hplain) hbag
  case undisturbed => exact fun entry hwants hplain => absurd (wants_sack hwants ▸ hplain) hbag
  case bags =>
    intro entry hwants _
    left
    rw [wants_sack hwants]
    exact fun _ _ _ => rfl
  case served =>
    have hdestroyed : sackQuest.destroyed =
        [(0,0),(0,0),(0,0),(0,0),(1,1),(0,0),(0,0),(0,0)] := by decide
    rw [hdestroyed]
    iterate 4 rw [allServed_skip (.inl rfl)]
    refine ⟨fun _ _ => .inr ⟨?_,?_,?_⟩,?_⟩
    · rw [tidy_iff]
      decide +kernel
    · have hpiles : twoSacks.settledPiles sackStore atRest (fun _ => false) 1 =
          [⟨1,false,true⟩,⟨1,true,true⟩] := by
        decide +kernel
      refine .inl (.inl ?_)
      exact hpiles ▸ le_rfl
    · intro q j hneeded
      have hnone : ((withQuest twoSacks 0).markFailed sackQuests 7 sackQuest).quests.neededBy
          sackQuests 1 = none := by
        decide +kernel
      rw [hnone] at hneeded
      cases hneeded
    · iterate 3 rw [allServed_skip (.inl rfl)]
      trivial

theorem failQuest_fails_tokens :
    HasFailed tokenStore (tokenQuests 0) 7 (tokenQuest 0) (withQuest (threeStacks 2) 3)
      ((withQuest (threeStacks 2) 3).failQuest tokenStore (tokenQuests 0) atRest (fun _ => false)
        1 7) ∧
    HasFailed sackStore sackQuests 7 sackQuest (withQuest twoSacks 0)
      ((withQuest twoSacks 0).failQuest sackStore sackQuests atRest (fun _ => false) 1 7) :=
  ⟨(failQuest_fails_iff tokenStore (tokenQuests 0) atRest (fun _ => false)
      (withQuest (threeStacks 2) 3) 0 7 (tokenQuest 0) (withQuest_active _ 3 0).1
      (withQuest_active _ 3 0).2 stacked_threeStacks).1 tokens_failCleanly,
    (failQuest_fails_iff sackStore sackQuests atRest (fun _ => false) (withQuest twoSacks 0) 0 7
      sackQuest ⟨rfl,by decide,⟨2,by decide⟩,rfl⟩ QuestStatus.noConfusion stacked_twoSacks).1
      sack_failsCleanly⟩

/-- With the tokens that are destroyed the quest becomes incomplete again, and those of a fifth objective
are not destroyed. -/
theorem failQuest_incomplete :
    ((withQuest twoTokens 2).Active (tokenQuests 0) 7 (tokenQuest 0) ∧
      (withQuest twoTokens 2).quests.getQuestStatus (tokenQuests 0) 7 = .incomplete ∧
      ((withQuest twoTokens 2).failQuest tokenStore (tokenQuests 0) atRest (fun _ => false) 1
        7).quests.getQuestStatus (tokenQuests 0) 7 = .incomplete ∧
      ¬ HasFailed tokenStore (tokenQuests 0) 7 (tokenQuest 0) (withQuest twoTokens 2)
        ((withQuest twoTokens 2).failQuest tokenStore (tokenQuests 0) atRest (fun _ => false) 1 7)) ∧
    ((withQuest twoTokens 2).Active (tokenQuests 4) 7 (tokenQuest 4) ∧
      ¬ HasFailed tokenStore (tokenQuests 4) 7 (tokenQuest 4) (withQuest twoTokens 2)
        ((withQuest twoTokens 2).failQuest tokenStore (tokenQuests 4) atRest (fun _ => false) 1 7)) := by
  have hstatus : ((withQuest twoTokens 2).failQuest tokenStore (tokenQuests 0) atRest (fun _ => false)
      1 7).quests.getQuestStatus (tokenQuests 0) 7 = .incomplete := by
    decide +kernel
  refine ⟨⟨(withQuest_active _ 2 0).1,rfl,hstatus,?_⟩,(withQuest_active _ 2 4).1,?_⟩
  · intro h
    have hfailed := h.status
    rw [hstatus] at hfailed
    cases hfailed
  · intro h
    have hitems := h.items 1 ⟨by decide,3,by decide,by decide⟩
    revert hitems
    decide +kernel

end Failed

end TrinityCore.Players
