import Mathlib

set_option autoImplicit false

namespace TrinityCore.Players

def maxQuestLogSize : Nat := 25
def questObjectivesCount : Nat := 4
def questItemObjectivesCount : Nat := 6
def questSourceItemIdsCount : Nat := 4

def questSpecialFlagsRepeatable : BitVec 32 := 0x001#32
def questSpecialFlagsDeliver : BitVec 32 := 0x080#32
def questSpecialFlagsTimed : BitVec 32 := 0x400#32

def questStateComplete : BitVec 32 := 0x0001#32
def questStateFail : BitVec 32 := 0x0002#32

inductive QuestStatus where
  | none
  | complete
  | incomplete
  | failed
  | rewarded
  deriving DecidableEq, Repr

structure Quest where
  specialFlags : BitVec 32
  requiredItemId : Fin questItemObjectivesCount → Nat
  requiredItemCount : Fin questItemObjectivesCount → Nat
  requiredSourceItemId : Fin questSourceItemIdsCount → Nat
  requiredSourceItemCount : Fin questSourceItemIdsCount → Nat
  /-- The numbers are loaded from fields of 16 bits. -/
  requiredItemCount_lt : ∀ i, requiredItemCount i < 2^16
  requiredSourceItemCount_lt : ∀ i, requiredSourceItemCount i < 2^16

namespace Quest

def hasSpecialFlag (q : Quest) (flag : BitVec 32) : Bool := q.specialFlags &&& flag != 0

def isRepeatable (q : Quest) : Bool := q.hasSpecialFlag questSpecialFlagsRepeatable

end Quest

structure QuestStatusData where
  status : QuestStatus
  timer : Nat
  itemCount : Fin questItemObjectivesCount → Nat

/-- A slot of the quest log. Without a quest its id is 0. -/
structure QuestSlot where
  questId : Nat
  state : BitVec 32
  time : Nat

structure QuestLog where
  questStatus : Nat → Option QuestStatusData
  rewardedQuests : Finset Nat
  timedQuests : Finset Nat
  slots : Fin maxQuestLogSize → QuestSlot

namespace QuestLog

variable (Q : Nat → Option Quest) (log : QuestLog)

def getQuestStatus (questId : Nat) : QuestStatus :=
  if questId = 0 then .none
  else
    match log.questStatus questId with
    | some data => data.status
    | none =>
      match Q questId with
      | some qInfo =>
        if !qInfo.isRepeatable && decide (questId ∈ log.rewardedQuests) then .rewarded else .none
      | none => .none

/-- `m_QuestStatus[questId]`: what is not there is made. -/
def data (questId : Nat) : QuestStatusData := (log.questStatus questId).getD ⟨.none,0,fun _ => 0⟩

def setData (questId : Nat) (data : QuestStatusData) : QuestLog :=
  { log with questStatus := Function.update log.questStatus questId (some data) }

def setQuestStatus (questId : Nat) (status : QuestStatus) : QuestLog :=
  if (Q questId).isSome then log.setData questId { log.data questId with status := status } else log

def findQuestSlot (questId : Nat) : Option (Fin maxQuestLogSize) :=
  (List.finRange maxQuestLogSize).find? fun i => (log.slots i).questId == questId

def setSlot (slot : Fin maxQuestLogSize) (s : QuestSlot) : QuestLog :=
  { log with slots := Function.update log.slots slot s }

def setQuestSlotState (slot : Fin maxQuestLogSize) (state : BitVec 32) : QuestLog :=
  log.setSlot slot { log.slots slot with state := (log.slots slot).state ||| state }

def removeQuestSlotState (slot : Fin maxQuestLogSize) (state : BitVec 32) : QuestLog :=
  log.setSlot slot { log.slots slot with state := (log.slots slot).state &&& ~~~state }

def setQuestSlotTimer (slot : Fin maxQuestLogSize) (timer : Nat) : QuestLog :=
  log.setSlot slot { log.slots slot with time := timer }

def removeTimedQuest (questId : Nat) : QuestLog :=
  { log with timedQuests := log.timedQuests.erase questId }

def incompleteQuest (questId : Nat) : QuestLog :=
  if questId = 0 then log
  else
    let log := log.setQuestStatus Q questId .incomplete
    match log.findQuestSlot questId with
    | some slot => log.removeQuestSlotState slot questStateComplete
    | none => log

/-- The first objective of a quest that is for an item. -/
def objectiveOf (qInfo : Quest) (entry : Nat) : Option (Fin questItemObjectivesCount) :=
  (List.finRange questItemObjectivesCount).find? fun j => qInfo.requiredItemId j == entry

/-- What `ItemRemovedQuestCheck` stops at: the first quest in the log to which the item is to be
delivered, with the objective. -/
def neededBy (entry : Nat) : Option (Nat × Quest × Fin questItemObjectivesCount) :=
  (List.finRange maxQuestLogSize).findSome? fun i =>
    let questid := (log.slots i).questId
    if questid = 0 then none
    else
      match Q questid with
      | none => none
      | some qInfo =>
        if !qInfo.hasSpecialFlag questSpecialFlagsDeliver then none
        else (objectiveOf qInfo entry).map fun j => (questid,qInfo,j)

def newItemCount (reqitemcount stored count itemCount : Nat) : Nat :=
  -- there may be more than what the status shows
  let curitemcount := if stored ≥ reqitemcount then itemCount%2^16 else stored
  min (if count > curitemcount then 0 else curitemcount-count) (reqitemcount%2^16)

/-- `ItemRemovedQuestCheck`, with what `GetItemCount` returns for the item. -/
def itemRemovedQuestCheck (entry count itemCount : Nat) : QuestLog :=
  match log.neededBy Q entry with
  | none => log
  | some (questid,qInfo,j) =>
    let qStatus := log.data questid
    let new := newItemCount (qInfo.requiredItemCount j) (qStatus.itemCount j) count itemCount
    if new ≠ qStatus.itemCount j then
      (log.setData questid { qStatus with
        itemCount := Function.update qStatus.itemCount j new }).incompleteQuest Q questid
    else log.setData questid qStatus

end QuestLog

section Check

open QuestLog

variable {Q : Nat → Option Quest} {log log' : QuestLog} {questId entry count itemCount : Nat}
  {qInfo : Quest} {j : Fin questItemObjectivesCount} {i : Fin maxQuestLogSize}

def SameSlots (log log' : QuestLog) : Prop := ∀ i, (log'.slots i).questId = (log.slots i).questId

theorem neededBy_congr (h : SameSlots log log') (entry : Nat) :
    log'.neededBy Q entry = log.neededBy Q entry := by
  unfold neededBy
  simp only [h _]

theorem findQuestSlot_congr (h : SameSlots log log') (questId : Nat) :
    log'.findQuestSlot questId = log.findQuestSlot questId := by
  unfold findQuestSlot
  simp only [h _]

theorem findQuestSlot_some (h : log.findQuestSlot questId = some i) :
    (log.slots i).questId = questId := by
  simpa using List.find?_some h

theorem neededBy_some (h : log.neededBy Q entry = some (questId,qInfo,j)) :
    questId ≠ 0 ∧ Q questId = some qInfo := by
  obtain ⟨i,-,hi⟩ := List.exists_of_findSome?_eq_some h
  dsimp only at hi
  split_ifs at hi with hzero
  cases hquest : Q (log.slots i).questId with
  | none => simp [hquest] at hi
  | some q =>
    simp only [hquest] at hi
    split_ifs at hi
    obtain ⟨j',-,heq⟩ := Option.map_eq_some_iff.mp hi
    cases heq
    exact ⟨hzero,hquest⟩

/-- The rest of the log stays when one quest loses an item: its own slot loses at most the complete
state. -/
structure Loses (Q : Nat → Option Quest) (log log' : QuestLog) (questId : Nat) : Prop where
  sameSlots : SameSlots log log'
  others : ∀ id, id ≠ questId → log'.questStatus id = log.questStatus id
  slots : ∀ i, (log.slots i).questId ≠ questId → log'.slots i = log.slots i

theorem loses_setData (data : QuestStatusData) : Loses Q log (log.setData questId data) questId where
  sameSlots := fun _ => rfl
  others := fun _ h => Function.update_of_ne h _ _
  slots := fun _ _ => rfl

theorem Loses.trans {log'' : QuestLog} (h : Loses Q log log' questId)
    (h' : Loses Q log' log'' questId) : Loses Q log log'' questId where
  sameSlots := fun i => (h'.sameSlots i).trans (h.sameSlots i)
  others := fun id hid => (h'.others id hid).trans (h.others id hid)
  slots := by
    intro i hi
    rw [h'.slots i (by rwa [h.sameSlots i]),h.slots i hi]

theorem setQuestStatus_eq (h : Q questId = some qInfo) (status : QuestStatus) :
    log.setQuestStatus Q questId status =
      log.setData questId { log.data questId with status := status } := by
  unfold setQuestStatus
  rw [h]
  rfl

theorem loses_removeQuestSlotState (state : BitVec 32) (h : (log.slots i).questId = questId) :
    Loses Q log (log.removeQuestSlotState i state) questId where
  sameSlots := by
    intro i'
    by_cases hi : i' = i
    · subst hi
      simp [removeQuestSlotState,setSlot]
    · simp [removeQuestSlotState,setSlot,hi]
  others := fun _ _ => rfl
  slots := by
    intro i' hi'
    have hne : i' ≠ i := fun heq => hi' (heq ▸ h)
    simp [removeQuestSlotState,setSlot,hne]

theorem incompleteQuest_spec (log : QuestLog) (hid : questId ≠ 0) (h : Q questId = some qInfo) :
    Loses Q log (log.incompleteQuest Q questId) questId ∧
      (log.incompleteQuest Q questId).questStatus questId =
        some { log.data questId with status := .incomplete } := by
  unfold incompleteQuest
  rw [if_neg hid,setQuestStatus_eq h]
  dsimp only
  have hset : Loses Q log
      (log.setData questId { log.data questId with status := .incomplete }) questId := loses_setData _
  cases hslot : (log.setData questId
      { log.data questId with status := .incomplete }).findQuestSlot questId with
  | none => exact ⟨hset,Function.update_self ..⟩
  | some i =>
    exact ⟨hset.trans (loses_removeQuestSlotState _ (findQuestSlot_some hslot)),
      Function.update_self ..⟩

/-- The stored count stays when so many are removed: it is zero, or it is full and as many as are needed
are still carried. -/
def Steady (req stored count itemCount : Nat) : Prop :=
  stored = 0 ∨ (stored = req ∧ req+count ≤ itemCount%2^16)

theorem newItemCount_eq_iff {req stored : Nat} (hreq : req < 2^16) (hcount : 0 < count) :
    newItemCount req stored count itemCount = stored ↔ Steady req stored count itemCount := by
  unfold newItemCount Steady
  rw [Nat.mod_eq_of_lt hreq]
  dsimp only
  split_ifs <;> omega

/-- What a check does to a quest with a status: nothing, or the quest is incomplete again. -/
theorem itemRemovedQuestCheck_cases (Q : Nat → Option Quest) (entry itemCount : Nat)
    {data : QuestStatusData} (hdata : log.questStatus questId = some data) (hcount : 0 < count) :
    SameSlots log (log.itemRemovedQuestCheck Q entry count itemCount) ∧
      (((log.itemRemovedQuestCheck Q entry count itemCount).questStatus questId = some data ∧
        (∀ i, (log.slots i).questId = questId →
          (log.itemRemovedQuestCheck Q entry count itemCount).slots i = log.slots i) ∧
        ∀ qInfo j, log.neededBy Q entry = some (questId,qInfo,j) →
          Steady (qInfo.requiredItemCount j) (data.itemCount j) count itemCount) ∨
      ((∃ data', (log.itemRemovedQuestCheck Q entry count itemCount).questStatus questId = some data' ∧
          data'.status = .incomplete) ∧
        ∃ qInfo j, log.neededBy Q entry = some (questId,qInfo,j) ∧
          ¬ Steady (qInfo.requiredItemCount j) (data.itemCount j) count itemCount)) := by
  unfold itemRemovedQuestCheck
  cases hneeded : log.neededBy Q entry with
  | none => exact ⟨fun _ => rfl,.inl ⟨hdata,fun _ _ => rfl,by simp⟩⟩
  | some needed =>
    obtain ⟨questid,q,j⟩ := needed
    obtain ⟨hid,hq⟩ := neededBy_some hneeded
    dsimp only
    by_cases hsame : questid = questId
    · subst hsame
      have hget : log.data questid = data := by
        unfold QuestLog.data
        rw [hdata]
        rfl
      rw [hget,ite_not]
      split_ifs with hnew
      · refine ⟨fun _ => rfl,.inl ⟨Function.update_self ..,fun _ _ => rfl,?_⟩⟩
        rintro q' j' ⟨⟩
        exact (newItemCount_eq_iff (q.requiredItemCount_lt j) hcount).mp hnew
      · obtain ⟨hloses,hstatus⟩ := incompleteQuest_spec
          (log.setData questid { data with
            itemCount := Function.update data.itemCount j (newItemCount (q.requiredItemCount j)
              (data.itemCount j) count itemCount) }) hid hq
        refine ⟨fun i => hloses.sameSlots i,.inr ⟨⟨_,hstatus,rfl⟩,q,j,rfl,?_⟩⟩
        rwa [← newItemCount_eq_iff (q.requiredItemCount_lt j) hcount]
    · have hloses : ∀ log', Loses Q log log' questid → SameSlots log log' ∧
          (log'.questStatus questId = some data ∧
            (∀ i, (log.slots i).questId = questId → log'.slots i = log.slots i) ∧
            ∀ qInfo j', some (questid,q,j) = some (questId,qInfo,j') →
              Steady (qInfo.requiredItemCount j') (data.itemCount j') count itemCount) := by
        intro log' h
        refine ⟨h.sameSlots,(h.others questId (Ne.symm hsame)).trans hdata,?_,?_⟩
        · intro i hi
          exact h.slots i fun heq => hsame (heq.symm.trans hi)
        · intro q' j' heq
          exact absurd (Prod.ext_iff.mp (Option.some.inj heq)).1 hsame
      split_ifs with hnew
      · obtain ⟨hset,hkept⟩ := hloses _
          ((loses_setData _).trans (incompleteQuest_spec _ hid hq).1)
        exact ⟨hset,.inl hkept⟩
      · obtain ⟨hset,hkept⟩ := hloses _ (loses_setData _)
        exact ⟨hset,.inl hkept⟩

end Check

end TrinityCore.Players
