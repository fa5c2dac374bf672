import Mathlib

set_option autoImplicit false

/-!
The progress of a player on the criteria of achievements, and when an achievement is completed. In
the union of a criterion every count is its fourth field, which stands as `count`. What is sent to
the client is left out.
-/

namespace TrinityCore.Achievements

def achievementFlagCounter : UInt32 := 0x00000001
def achievementFlagSumm : UInt32 := 0x00000008
def achievementFlagRealmFirstReach : UInt32 := 0x00000100
def achievementFlagRealmFirstKill : UInt32 := 0x00000200

/-- The types of criteria that can be completed. The others are only counted. -/
inductive AchievementCriteriaType where
  | killCreature | winBg | reachLevel | reachSkillLevel | completeAchievement | completeQuestCount
  | completeDailyQuestDaily | completeQuestsInZone | damageDone | completeDailyQuest
  | fallWithoutDying | completeQuest | beSpellTarget | castSpell | bgObjectiveCapture
  | honorableKillAtArea | winArena | learnSpell | honorableKill | ownItem | winRatedArena
  | highestPersonalRating | learnSkillLevel | useItem | lootItem | exploreArea | buyBankSlot
  | gainReputation | gainExaltedReputation | visitBarberShop | equipEpicItem | rollNeedOnLoot
  | rollGreedOnLoot | hkClass | hkRace | doEmote | healingDone | getKillingBlows | equipItem
  | moneyFromQuestReward | lootMoney | useGameobject | beSpellTarget2 | specialPvpKill
  | fishInGameobject | onLogin | learnSkilllineSpells | winDuel | lootType | castSpell2
  | learnSkillLine | earnHonorableKill | earnAchievementPoints | useLfdToGroupWithPlayers
  | statistic
  deriving DecidableEq, Repr

structure AchievementEntry where
  ID : UInt32
  flags : UInt32
  count : UInt32
  refAchievement : UInt32
  deriving DecidableEq, Repr

structure AchievementCriteriaEntry where
  ID : UInt32
  referredAchievement : UInt32
  requiredType : AchievementCriteriaType
  count : UInt32
  timeLimit : UInt32
  deriving DecidableEq, Repr

structure CriteriaProgress where
  counter : UInt32
  date : Nat
  changed : Bool
  deriving DecidableEq, Repr

inductive ProgressType where
  | set
  | accumulate
  | highest
  deriving DecidableEq, Repr

/-- What all players share: the achievements with their criteria, and which of them someone on the
realm has completed first. -/
structure AchievementGlobalMgr where
  achievement : UInt32 → Option AchievementEntry
  criteriaByAchievement : UInt32 → Option (List AchievementCriteriaEntry)
  isRealmCompleted : UInt32 → Bool

structure AchievementMgr where
  criteriaProgress : UInt32 → Option CriteriaProgress
  timedAchievements : UInt32 → Option UInt32

def AchievementEntry.hasFlag (entry : AchievementEntry) (flag : UInt32) : Bool :=
  entry.flags &&& flag ≠ 0

def AchievementEntry.testId (entry : AchievementEntry) : UInt32 :=
  if entry.refAchievement ≠ 0 then entry.refAchievement else entry.ID

/-- What the counter of a criterion has to come to. Without a value it is never completed. -/
def AchievementCriteriaEntry.requirement (criteria : AchievementCriteriaEntry) : Option UInt32 :=
  match criteria.requiredType with
  | .completeAchievement | .completeQuest | .learnSpell | .exploreArea => some 1
  | .learnSkillLevel => some (criteria.count*75)
  | .earnAchievementPoints => some 9000
  | .winArena => if criteria.count ≠ 0 then some criteria.count else none
  | .onLogin => some 0
  | .statistic => none
  | _ => some criteria.count

namespace AchievementMgr

variable (A : AchievementGlobalMgr) (m : AchievementMgr)

def isCompletedCriteria (criteria : AchievementCriteriaEntry)
    (achievement : Option AchievementEntry) : Bool :=
  match achievement with
  | none => false
  | some achievement =>
    if achievement.hasFlag achievementFlagCounter then false
    else if achievement.hasFlag (achievementFlagRealmFirstReach ||| achievementFlagRealmFirstKill) ∧
        A.isRealmCompleted achievement.ID then false
    else
      match m.criteriaProgress criteria.ID with
      | none => false
      | some progress =>
        match criteria.requirement with
        | none => false
        | some count => decide (count ≤ progress.counter)

/-- The progress of the criteria is added up until it is what the last one requires. -/
def sumCriteria : UInt32 → List AchievementCriteriaEntry → Bool
  | _, [] => false
  | count, criteria :: cList =>
    match m.criteriaProgress criteria.ID with
    | none => sumCriteria count cList
    | some progress =>
      let count := count+progress.counter
      if criteria.count ≤ count then true else sumCriteria count cList

/-- The completed criteria are counted until there are as many as are tested for. -/
def countCriteria (entry : AchievementEntry) :
    UInt32 → Bool → List AchievementCriteriaEntry → Bool
  | _, completedAll, [] => completedAll && decide (entry.count = 0)
  | count, completedAll, criteria :: cList =>
    let completed := m.isCompletedCriteria A criteria (some entry)
    let count := if completed then count+1 else count
    if 0 < entry.count ∧ entry.count ≤ count then true
    else countCriteria entry count (completedAll && completed) cList

def isCompletedAchievement (entry : AchievementEntry) : Bool :=
  if entry.hasFlag achievementFlagCounter then false
  else
    match A.criteriaByAchievement entry.testId with
    | none => false
    | some cList =>
      if entry.hasFlag achievementFlagSumm then m.sumCriteria 0 cList
      else m.countCriteria A entry 0 true cList

def newValue (counter changeValue : UInt32) : ProgressType → UInt32
  | .set => changeValue
  | .accumulate =>
    -- avoid overflow
    if changeValue < 0xFFFFFFFF-counter then counter+changeValue else 0xFFFFFFFF
  | .highest => if counter < changeValue then changeValue else counter

def counterToSet (entry : AchievementCriteriaEntry) (changeValue : UInt32) (ptype : ProgressType) :
    Option UInt32 :=
  match m.criteriaProgress entry.ID with
  | none => if changeValue = 0 ∧ entry.timeLimit = 0 then none else some changeValue
  | some progress =>
    let value := newValue progress.counter changeValue ptype
    if progress.counter = value ∧ entry.timeLimit = 0 then none else some value

def setCriteriaProgress (entry : AchievementCriteriaEntry) (changeValue : UInt32)
    (ptype : ProgressType) (now : Nat) : AchievementMgr :=
  if entry.timeLimit ≠ 0 ∧ m.timedAchievements entry.ID = none then m
  else
    match m.counterToSet entry changeValue ptype with
    | none => m
    | some counter =>
      let m := { m with
        criteriaProgress := Function.update m.criteriaProgress entry.ID (some ⟨counter,now,true⟩) }
      if entry.timeLimit ≠ 0 ∧
          m.isCompletedCriteria A entry (A.achievement entry.referredAchievement) then
        { m with timedAchievements := Function.update m.timedAchievements entry.ID none }
      else m

end AchievementMgr

end TrinityCore.Achievements
