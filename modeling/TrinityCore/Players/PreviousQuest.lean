import TrinityCore.Lib.FirstMatch
import TrinityCore.Players.QuestLog

set_option autoImplicit false

/-!
The previous quests that a quest requires. The answer of `SatisfyQuestPreviousQuest` is that of the
first previous quest that counts, and it is right in every order of them if and only if each that
counts has the right answer.
-/

namespace TrinityCore.Players

inductive QuestFailedReason where
  | dontHaveReq
  deriving DecidableEq, Repr

structure ChainedQuest extends Quest where
  prevQuests : List Int
  exclusiveGroup : Int

structure QuestDatabase where
  questTemplates : Nat → Option ChainedQuest
  exclusiveQuestGroups : List (Int × Nat)

namespace QuestDatabase

variable (D : QuestDatabase) (log : QuestLog)

def groupMembers (group : Int) : List Nat :=
  (D.exclusiveQuestGroups.filter fun entry => entry.1 = group).map Prod.snd

def getQuestStatus (questId : Nat) : QuestStatus :=
  log.getQuestStatus (fun id => (D.questTemplates id).map ChainedQuest.toQuest) questId

/-- What the loop makes of a previous quest. It goes on where there is no value. -/
def prevResult (prev : Int) : Option Bool :=
  let prevId := prev.natAbs
  match D.questTemplates prevId with
  | none => none
  | some qPrevInfo =>
    if 0 < prev ∧ prevId ∈ log.rewardedQuests then
      -- skip one-from-all exclusive group
      if 0 ≤ qPrevInfo.exclusiveGroup then some true
      else some ((D.groupMembers qPrevInfo.exclusiveGroup).all fun excludeId =>
        decide (excludeId = prevId) || decide (excludeId ∈ log.rewardedQuests))
    else if prev < 0 ∧ D.getQuestStatus log prevId ≠ .none then
      if 0 ≤ qPrevInfo.exclusiveGroup then some true
      -- another quest of the group that is active ends the loop
      else some ((D.groupMembers qPrevInfo.exclusiveGroup).all fun excludeId =>
        decide (excludeId = prevId) || decide (D.getQuestStatus log excludeId = .none))
    else none

def satisfyQuestPreviousQuest (qInfo : ChainedQuest) (msg : Bool) :
    Bool × Option QuestFailedReason :=
  if qInfo.prevQuests = [] then (true,none)
  else if (qInfo.prevQuests.findSome? (D.prevResult log)).getD false then (true,none)
  else (false,if msg then some .dontHaveReq else none)

end QuestDatabase

section Previous

variable {D : QuestDatabase} {log : QuestLog} {qInfo : ChainedQuest} {prev : Int} {b : Bool}

/-- A quest counts as active unless it has no status. -/
def Active (D : QuestDatabase) (log : QuestLog) (questId : Nat) : Prop :=
  D.getQuestStatus log questId ≠ .none

/-- A previous quest exists, and it is rewarded if it is positive and active if it is negative. If
its group is negative, so is every quest of the group. -/
def Satisfied (D : QuestDatabase) (log : QuestLog) (prev : Int) : Prop :=
  ∃ qPrevInfo, D.questTemplates prev.natAbs = some qPrevInfo ∧
    ((0 < prev ∧ prev.natAbs ∈ log.rewardedQuests ∧ (qPrevInfo.exclusiveGroup < 0 →
        ∀ e ∈ D.groupMembers qPrevInfo.exclusiveGroup, e ∈ log.rewardedQuests)) ∨
      (prev < 0 ∧ Active D log prev.natAbs ∧ (qPrevInfo.exclusiveGroup < 0 →
        ∀ e ∈ D.groupMembers qPrevInfo.exclusiveGroup, Active D log e)))

/-- The answer about a previous quest agrees with whether one is satisfied: no group stands in the
way, the whole group is rewarded or else no previous quest is satisfied, or the other quests of the
group are inactive just if one is. -/
def Agrees (D : QuestDatabase) (log : QuestLog) (prevQuests : List Int) (prev : Int) : Prop :=
  ∀ qPrevInfo, D.questTemplates prev.natAbs = some qPrevInfo → qPrevInfo.exclusiveGroup < 0 →
    (0 < prev → prev.natAbs ∈ log.rewardedQuests →
      (∀ e ∈ D.groupMembers qPrevInfo.exclusiveGroup, e ∈ log.rewardedQuests) ∨
        ∀ p ∈ prevQuests, ¬ Satisfied D log p) ∧
    (prev < 0 → Active D log prev.natAbs →
      ((∀ e ∈ D.groupMembers qPrevInfo.exclusiveGroup, e ≠ prev.natAbs → ¬ Active D log e) ↔
        ∃ p ∈ prevQuests, Satisfied D log p))

theorem prevResult_of_satisfied (h : Satisfied D log prev) : D.prevResult log prev ≠ none := by
  obtain ⟨qPrevInfo,hquest,hcases⟩ := h
  unfold QuestDatabase.prevResult
  dsimp only
  rw [hquest]
  dsimp only
  rcases hcases with ⟨hpos,hrewarded,-⟩ | ⟨hneg,hactive,-⟩
  · rw [if_pos ⟨hpos,hrewarded⟩]
    split_ifs <;> exact Option.some_ne_none _
  · have hnot : ¬ (0 < prev ∧ prev.natAbs ∈ log.rewardedQuests) := fun h => by omega
    rw [if_neg hnot,if_pos ⟨hneg,hactive⟩]
    split_ifs <;> exact Option.some_ne_none _

theorem prevResult_cases (h : D.prevResult log prev = some b) :
    ∃ qPrevInfo, D.questTemplates prev.natAbs = some qPrevInfo ∧
      ((0 < prev ∧ prev.natAbs ∈ log.rewardedQuests ∧ (b = true ↔ (qPrevInfo.exclusiveGroup < 0 →
          ∀ e ∈ D.groupMembers qPrevInfo.exclusiveGroup, e ∈ log.rewardedQuests))) ∨
        (prev < 0 ∧ Active D log prev.natAbs ∧ (b = true ↔ (qPrevInfo.exclusiveGroup < 0 →
          ∀ e ∈ D.groupMembers qPrevInfo.exclusiveGroup, e ≠ prev.natAbs → ¬ Active D log e)))) := by
  unfold QuestDatabase.prevResult at h
  dsimp only at h
  cases hquest : D.questTemplates prev.natAbs with
  | none =>
    rw [hquest] at h
    cases h
  | some qPrevInfo =>
    rw [hquest] at h
    dsimp only at h
    refine ⟨qPrevInfo,rfl,?_⟩
    by_cases hrewarded : 0 < prev ∧ prev.natAbs ∈ log.rewardedQuests
    · rw [if_pos hrewarded] at h
      refine .inl ⟨hrewarded.1,hrewarded.2,?_⟩
      by_cases hgroup : 0 ≤ qPrevInfo.exclusiveGroup
      · rw [if_pos hgroup] at h
        exact iff_of_true (Option.some.inj h).symm fun hneg => by omega
      · rw [if_neg hgroup] at h
        rw [← Option.some.inj h,List.all_eq_true]
        simp only [Bool.or_eq_true,decide_eq_true_eq]
        refine ⟨fun hall _ e he => ?_,fun hall e he => .inr (hall (by omega) e he)⟩
        rcases hall e he with heq | hmem
        · rw [heq]
          exact hrewarded.2
        · exact hmem
    · rw [if_neg hrewarded] at h
      by_cases hactive : prev < 0 ∧ D.getQuestStatus log prev.natAbs ≠ .none
      · rw [if_pos hactive] at h
        refine .inr ⟨hactive.1,hactive.2,?_⟩
        by_cases hgroup : 0 ≤ qPrevInfo.exclusiveGroup
        · rw [if_pos hgroup] at h
          exact iff_of_true (Option.some.inj h).symm fun hneg => by omega
        · rw [if_neg hgroup] at h
          rw [← Option.some.inj h,List.all_eq_true]
          unfold Active
          simp only [Bool.or_eq_true,decide_eq_true_eq,ne_eq,not_not]
          refine ⟨fun hall _ e he hne => (hall e he).resolve_left hne,fun hall e he => ?_⟩
          exact or_iff_not_imp_left.mpr (hall (by omega) e he)
      · rw [if_neg hactive] at h
        cases h

theorem agrees_of_none (h : D.prevResult log prev = none) : Agrees D log qInfo.prevQuests prev := by
  intro qPrevInfo hquest hgroup
  unfold QuestDatabase.prevResult at h
  dsimp only at h
  rw [hquest] at h
  dsimp only at h
  constructor
  · intro hpos hrewarded
    rw [if_pos ⟨hpos,hrewarded⟩] at h
    split_ifs at h
  · intro hneg hactive
    have hnot : ¬ (0 < prev ∧ prev.natAbs ∈ log.rewardedQuests) := fun h => by omega
    rw [if_neg hnot,if_pos ⟨hneg,hactive⟩] at h
    split_ifs at h

theorem agrees_iff (hmem : prev ∈ qInfo.prevQuests) (h : D.prevResult log prev = some b) :
    Agrees D log qInfo.prevQuests prev ↔
      (b = true ↔ ∃ p ∈ qInfo.prevQuests, Satisfied D log p) := by
  obtain ⟨qPrevInfo,hquest,hcases⟩ := prevResult_cases h
  have hiff : Agrees D log qInfo.prevQuests prev ↔ (qPrevInfo.exclusiveGroup < 0 → _ ∧ _) :=
    ⟨fun hall => hall qPrevInfo hquest,fun hall q hq => by
      cases hquest.symm.trans hq
      exact hall⟩
  rw [hiff]
  rcases hcases with ⟨hpos,hrewarded,hb⟩ | ⟨hneg,hactive,hb⟩
  · have hsatisfied : b = true → ∃ p ∈ qInfo.prevQuests, Satisfied D log p := by
      intro htrue
      exact ⟨prev,hmem,qPrevInfo,hquest,.inl ⟨hpos,hrewarded,hb.mp htrue⟩⟩
    rw [hb] at hsatisfied ⊢
    constructor
    · intro hall
      refine ⟨hsatisfied,?_⟩
      rintro ⟨p,hp,hsat⟩ hgroup
      rcases (hall hgroup).1 hpos hrewarded with hdone | hno
      · exact hdone
      · exact absurd hsat (hno p hp)
    · intro hsame hgroup
      refine ⟨fun _ _ => ?_,fun hneg => by omega⟩
      by_cases hsome : ∃ p ∈ qInfo.prevQuests, Satisfied D log p
      · exact .inl (hsame.mpr hsome hgroup)
      · exact .inr fun p hp hsat => hsome ⟨p,hp,hsat⟩
  · rw [hb]
    by_cases hgroup : qPrevInfo.exclusiveGroup < 0
    · constructor
      · intro hall
        exact (forall_prop_of_true hgroup).trans ((hall hgroup).2 hneg hactive)
      · intro hsame _
        exact ⟨fun hpos => by omega,fun _ _ => (forall_prop_of_true hgroup).symm.trans hsame⟩
    · refine iff_of_true (fun h => absurd h hgroup) (iff_of_true (fun h => absurd h hgroup) ?_)
      exact ⟨prev,hmem,qPrevInfo,hquest,.inr ⟨hneg,hactive,fun h => absurd h hgroup⟩⟩

/-- The requirement is met if there are no previous quests or one of them is satisfied. -/
def PreviousMet (D : QuestDatabase) (log : QuestLog) (prevQuests : List Int) : Prop :=
  prevQuests = [] ∨ ∃ p ∈ prevQuests, Satisfied D log p

theorem satisfyQuestPreviousQuest_iff (hne : qInfo.prevQuests ≠ []) (msg : Bool) :
    (D.satisfyQuestPreviousQuest log qInfo msg).1 = true ↔
      (qInfo.prevQuests.findSome? (D.prevResult log)).getD false = true := by
  unfold QuestDatabase.satisfyQuestPreviousQuest
  rw [if_neg hne]
  split_ifs with h
  · exact iff_of_true rfl h
  · exact iff_of_false (by simp) h

theorem answer_iff {prevQuests : List Int} (hne : qInfo.prevQuests ≠ [])
    (hperm : prevQuests.Perm qInfo.prevQuests) (msg : Bool) :
    ((D.satisfyQuestPreviousQuest log { qInfo with prevQuests := prevQuests } msg).1 = true ↔
        PreviousMet D log prevQuests) ↔
      ((prevQuests.findSome? (D.prevResult log)).getD false = true ↔
        ∃ p ∈ qInfo.prevQuests, Satisfied D log p) := by
  have hne' : prevQuests ≠ [] := by
    rintro rfl
    exact hne hperm.nil_eq.symm
  rw [satisfyQuestPreviousQuest_iff hne']
  unfold PreviousMet
  rw [or_iff_right hne']
  simp only [hperm.mem_iff]

end Previous

/-- The answer is right in every order of the previous quests if and only if the answer about each
of them that counts agrees. -/
theorem previousQuest_exact_iff (D : QuestDatabase) (log : QuestLog) (qInfo : ChainedQuest)
    (msg : Bool) :
    (∀ prevQuests : List Int, prevQuests.Perm qInfo.prevQuests →
      ((D.satisfyQuestPreviousQuest log { qInfo with prevQuests := prevQuests } msg).1 = true ↔
        PreviousMet D log prevQuests)) ↔
      ∀ prev ∈ qInfo.prevQuests, Agrees D log qInfo.prevQuests prev := by
  by_cases hnil : qInfo.prevQuests = []
  · refine iff_of_true (fun prevQuests hperm => ?_) (by simp [hnil])
    rw [hnil,List.perm_nil] at hperm
    subst hperm
    exact iff_of_true rfl (.inl rfl)
  have hnone : (∀ p ∈ qInfo.prevQuests, D.prevResult log p = none) →
      ¬ ∃ p ∈ qInfo.prevQuests, Satisfied D log p :=
    fun hall ⟨p,hp,hsat⟩ => prevResult_of_satisfied hsat (hall p hp)
  calc
    _ ↔ ∀ prevQuests : List Int, prevQuests.Perm qInfo.prevQuests →
        ((prevQuests.findSome? (D.prevResult log)).getD false = true ↔
          ∃ p ∈ qInfo.prevQuests, Satisfied D log p) :=
      forall_congr' fun _ => forall_congr' fun hperm => answer_iff hnil hperm msg
    _ ↔ ∀ prev ∈ qInfo.prevQuests, ∀ b, D.prevResult log prev = some b →
        (b = true ↔ ∃ p ∈ qInfo.prevQuests, Satisfied D log p) :=
      FirstMatch.findSome_perm_iff hnone
    _ ↔ ∀ prev ∈ qInfo.prevQuests, Agrees D log qInfo.prevQuests prev := by
      refine forall_congr' fun prev => forall_congr' fun hmem => ⟨fun hall => ?_,fun hall b hb => ?_⟩
      · cases hresult : D.prevResult log prev with
        | none => exact agrees_of_none hresult
        | some b => exact (agrees_iff hmem hresult).mpr (hall b hresult)
      · exact (agrees_iff hmem hb).mp hall

theorem nothing_lt {n : Nat} (i : Fin n) : (fun _ : Fin n => 0) i < 2^16 := Nat.two_pow_pos 16

def plainQuest (prevQuests : List Int) (exclusiveGroup : Int) : ChainedQuest where
  specialFlags := 0
  requiredItemId := fun _ => 0
  requiredItemCount := fun _ => 0
  requiredSourceItemId := fun _ => 0
  requiredSourceItemCount := fun _ => 0
  requiredItemCount_lt := nothing_lt
  requiredSourceItemCount_lt := nothing_lt
  prevQuests := prevQuests
  exclusiveGroup := exclusiveGroup

def pairOfQuests : QuestDatabase where
  questTemplates := fun id => if id = 1 ∨ id = 2 then some (plainQuest [] (-5)) else none
  exclusiveQuestGroups := [(-5,1),(-5,2)]

def bothActive : QuestLog where
  questStatus := fun id => if id = 1 ∨ id = 2 then some ⟨.incomplete,0,fun _ => 0⟩ else none
  rewardedQuests := ∅
  timedQuests := ∅
  slots := fun _ => ⟨0,0,0⟩

/-- A quest for which the first of them is to be active is refused when both are. -/
theorem bothActive_refused : ¬ ∀ (D : QuestDatabase) (log : QuestLog) (qInfo : ChainedQuest)
    (msg : Bool), (D.satisfyQuestPreviousQuest log qInfo msg).1 = true ↔
      PreviousMet D log qInfo.prevQuests := by
  intro h
  have hactive : ∀ e, e = 1 ∨ e = 2 → Active pairOfQuests bothActive e := by
    unfold Active
    rintro e (rfl | rfl)
    · decide
    · decide
  have hmet : PreviousMet pairOfQuests bothActive (plainQuest [-1] 0).prevQuests := by
    refine .inr ⟨-1,List.mem_singleton_self _,plainQuest [] (-5),rfl,.inr ⟨by decide,?_,?_⟩⟩
    · exact hactive 1 (.inl rfl)
    · intro _ e he
      have hmembers : e ∈ [1,2] := he
      exact hactive e (by simpa using hmembers)
  have hrefused := (h pairOfQuests bothActive (plainQuest [-1] 0) false).mpr hmet
  exact absurd hrefused (by decide)

end TrinityCore.Players
