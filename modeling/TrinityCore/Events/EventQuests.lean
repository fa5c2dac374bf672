import TrinityCore.Events.GameEventMgr

set_option autoImplicit false

namespace TrinityCore.Events

variable {F : Type} [LinearOrder F] [Zero F]

/-- The pairs that are not related from the outset are related once if an active event lists them,
and not otherwise. -/
def QuestsMirror (c : Content) (base : Kind → List (Nat × Nat)) (mgr : GameEventMgr F) : Prop :=
  ∀ kind relation, relation ∉ base kind → (mgr.questRelations kind).count relation =
    if ∃ event ∈ mgr.active, relation ∈ c.quests kind event then 1 else 0

/-- What an event that starts lists is listed by it once, and by no active event; what an active
event that stops lists is listed by another active event where this one lists its quest. -/
def QuestsApart (c : Content) (base : Kind → List (Nat × Nat)) (mgr : GameEventMgr F) :
    Call → Prop
  | .startEvent event _ _ => ∀ kind relation, relation ∉ base kind →
    relation ∈ c.quests kind event → (c.quests kind event).count relation = 1 ∧
      ∀ other ∈ mgr.active, relation ∉ c.quests kind other
  | .stopEvent event _ _ => (event : Nat) ∈ mgr.active → ∀ kind relation, relation ∉ base kind →
    relation ∈ c.quests kind event →
      (∃ other ∈ mgr.active, other ≠ event ∧ relation.2 ∈ (c.quests kind other).map Prod.snd) →
        ∃ other ∈ mgr.active, other ≠ event ∧ relation ∈ c.quests kind other

section Count

variable {c : Content} {active : Finset Nat} {kind : Kind} {event : Nat}
  {relations : List (Nat × Nat)} {relation : Nat × Nat}

theorem count_activate : (c.updateEventQuests active kind event true relations).count relation =
    relations.count relation+(c.quests kind event).count relation := by
  unfold Content.updateEventQuests
  induction c.quests kind event generalizing relations with
  | nil => rfl
  | cons head quests ih =>
    rw [List.foldl_cons,ih,if_pos rfl,List.count_append,List.count_cons,List.count_cons,
      List.count_nil]
    omega

theorem count_deactivate :
    (c.updateEventQuests active kind event false relations).count relation =
      if c.hasQuestActiveEventExcept active kind relation.2 event then relations.count relation
      else relations.count relation-(c.quests kind event).count relation := by
  unfold Content.updateEventQuests
  induction c.quests kind event generalizing relations with
  | nil => simp
  | cons head quests ih =>
    rw [List.foldl_cons,ih,if_neg Bool.false_ne_true,List.count_cons]
    by_cases heq : head = relation
    · subst heq
      by_cases hneed : c.hasQuestActiveEventExcept active kind head.2 event
      · simp only [if_pos hneed]
      · simp only [if_neg hneed,List.count_erase_self,beq_self_eq_true,if_true]
        omega
    · have hcount : (if c.hasQuestActiveEventExcept active kind head.2 event then relations
          else relations.erase head).count relation = relations.count relation := by
        split_ifs
        · rfl
        · exact List.count_erase_of_ne (Ne.symm heq)
      have hhead : ¬ (head == relation) = true := by simpa using heq
      rw [hcount,if_neg hhead,Nat.add_zero]

/-- How many of a pair are left when an event stops: the event is active, it lists the pair,
another active event lists its quest, another one lists the pair. -/
theorem mirror_iff {active listed quest other : Prop} [Decidable active] [Decidable listed]
    [Decidable quest] [Decidable other] {count : Nat} (hcount : listed ↔ 0 < count)
    (hquest : other → quest) :
    (if quest then if (active ∧ listed) ∨ other then 1 else 0
      else (if (active ∧ listed) ∨ other then 1 else 0)-count) = (if other then 1 else 0) ↔
    (active → listed → quest → other) := by
  by_cases hother : other
  · simp [hother,hquest hother]
  · by_cases hquest' : quest
    · simp [hother,hquest']
    · by_cases hlisted : active ∧ listed
      · have := hcount.mp hlisted.2
        simp [hother,hquest',hlisted]
        omega
      · simp [hother,hquest',hlisted]

end Count

section Steps

variable {c : Content} {base : Kind → List (Nat × Nat)} {mgr : GameEventMgr F} {event : ℕ+}

theorem questsMirror_start (h : QuestsMirror c base mgr) (overwrite : Bool) (time : Nat) :
    QuestsMirror c base (mgr.call c (.startEvent event overwrite time)) ↔
      QuestsApart c base mgr (.startEvent event overwrite time) := by
  have hsame := sameWorld_startEvent c mgr event overwrite time
  have hpair : ∀ kind relation, relation ∉ base kind →
      (((mgr.call c (.startEvent event overwrite time)).questRelations kind).count relation =
        (if ∃ other ∈ (mgr.call c (.startEvent event overwrite time)).active,
          relation ∈ c.quests kind other then 1 else 0) ↔
        (relation ∈ c.quests kind event → (c.quests kind event).count relation = 1 ∧
          ∀ other ∈ mgr.active, relation ∉ c.quests kind other)) := by
    intro kind relation hbase
    have hcount : ((mgr.call c (.startEvent event overwrite time)).questRelations kind).count
        relation = (mgr.questRelations kind).count relation+
          (c.quests kind event).count relation := by
      refine (congrArg (List.count relation) (congrFun hsame.questRelations kind)).trans ?_
      exact count_activate
    have hactive : (∃ other ∈ (mgr.call c (.startEvent event overwrite time)).active,
        relation ∈ c.quests kind other) ↔ relation ∈ c.quests kind event ∨
          ∃ other ∈ mgr.active, relation ∈ c.quests kind other := by
      rw [show (mgr.call c (.startEvent event overwrite time)).active =
        insert (event : Nat) mgr.active from hsame.active,Finset.exists_mem_insert]
    rw [hcount,if_congr hactive rfl rfl,h kind relation hbase]
    by_cases hlisted : relation ∈ c.quests kind event
    · have hpos := List.count_pos_iff.mpr hlisted
      rw [if_pos (Or.inl hlisted)]
      constructor
      · intro hsum _
        split_ifs at hsum with hother
        · omega
        · refine ⟨by omega,fun other hmem hlisted' => hother ⟨other,hmem,hlisted'⟩⟩
      · intro hapart
        obtain ⟨honce,hnone⟩ := hapart hlisted
        rw [if_neg (fun ⟨other,hmem,hlisted'⟩ => hnone other hmem hlisted'),honce]
    · rw [List.count_eq_zero_of_not_mem hlisted]
      simp [hlisted]
  constructor
  · intro hmirror kind relation hbase
    exact (hpair kind relation hbase).mp (hmirror kind relation hbase)
  · intro hapart kind relation hbase
    exact (hpair kind relation hbase).mpr (hapart kind relation hbase)

theorem questsMirror_stop (h : QuestsMirror c base mgr) (overwrite : Bool) (time : Nat) :
    QuestsMirror c base (mgr.call c (.stopEvent event overwrite time)) ↔
      QuestsApart c base mgr (.stopEvent event overwrite time) := by
  have hsame := sameWorld_stopEvent c mgr event overwrite time
  have hpair : ∀ kind relation, relation ∉ base kind →
      (((mgr.call c (.stopEvent event overwrite time)).questRelations kind).count relation =
        (if ∃ other ∈ (mgr.call c (.stopEvent event overwrite time)).active,
          relation ∈ c.quests kind other then 1 else 0) ↔
        ((event : Nat) ∈ mgr.active → relation ∈ c.quests kind event →
          (∃ other ∈ mgr.active, other ≠ event ∧
            relation.2 ∈ (c.quests kind other).map Prod.snd) →
          ∃ other ∈ mgr.active, other ≠ event ∧ relation ∈ c.quests kind other)) := by
    intro kind relation hbase
    have hneed : c.hasQuestActiveEventExcept (mgr.active.erase event) kind relation.2 event = true ↔
        ∃ other ∈ mgr.active, other ≠ event ∧
          relation.2 ∈ (c.quests kind other).map Prod.snd := by
      unfold Content.hasQuestActiveEventExcept
      rw [decide_eq_true_eq]
      refine exists_congr fun other => ?_
      rw [Finset.mem_erase]
      tauto
    have hcount : ((mgr.call c (.stopEvent event overwrite time)).questRelations kind).count
        relation = if ∃ other ∈ mgr.active, other ≠ event ∧
            relation.2 ∈ (c.quests kind other).map Prod.snd
          then (mgr.questRelations kind).count relation
          else (mgr.questRelations kind).count relation-(c.quests kind event).count relation := by
      refine (congrArg (List.count relation) (congrFun hsame.questRelations kind)).trans ?_
      refine count_deactivate.trans ?_
      exact if_congr hneed rfl rfl
    have hactive : (∃ other ∈ (mgr.call c (.stopEvent event overwrite time)).active,
        relation ∈ c.quests kind other) ↔
          ∃ other ∈ mgr.active, other ≠ event ∧ relation ∈ c.quests kind other := by
      rw [show (mgr.call c (.stopEvent event overwrite time)).active =
        mgr.active.erase event from hsame.active]
      refine exists_congr fun other => ?_
      rw [Finset.mem_erase]
      tauto
    -- An event that lists the pair lists its quest.
    have hquest : (∃ other ∈ mgr.active, other ≠ event ∧ relation ∈ c.quests kind other) →
        ∃ other ∈ mgr.active, other ≠ event ∧
          relation.2 ∈ (c.quests kind other).map Prod.snd := by
      rintro ⟨other,hmem,hne,hlisted⟩
      exact ⟨other,hmem,hne,List.mem_map_of_mem hlisted⟩
    have hbefore := h kind relation hbase
    have hpos : relation ∈ c.quests kind event ↔ 0 < (c.quests kind event).count relation :=
      List.count_pos_iff.symm
    rw [hcount,if_congr hactive rfl rfl,hbefore]
    have hlists : (∃ other ∈ mgr.active, relation ∈ c.quests kind other) ↔
        ((event : Nat) ∈ mgr.active ∧ relation ∈ c.quests kind event) ∨
          ∃ other ∈ mgr.active, other ≠ event ∧ relation ∈ c.quests kind other := by
      constructor
      · rintro ⟨other,hmem,hlisted⟩
        by_cases heq : other = event
        · exact .inl (heq ▸ ⟨hmem,hlisted⟩)
        · exact .inr ⟨other,hmem,heq,hlisted⟩
      · rintro (⟨hmem,hlisted⟩ | ⟨other,hmem,-,hlisted⟩)
        · exact ⟨event,hmem,hlisted⟩
        · exact ⟨other,hmem,hlisted⟩
    rw [if_congr hlists rfl rfl]
    exact mirror_iff hpos hquest
  constructor
  · intro hmirror hmem kind relation hbase
    exact (hpair kind relation hbase).mp (hmirror kind relation hbase) hmem
  · intro hapart kind relation hbase
    exact (hpair kind relation hbase).mpr fun hmem => hapart hmem kind relation hbase

end Steps

/-- The quests mirror the active events along a run from no active event if and only if every call
keeps them apart. -/
theorem quests_run_iff (c : Content) (mgr : GameEventMgr F) (calls : List Call)
    (start : mgr.active = ∅) :
    (∀ pre post, calls = pre ++ post →
      QuestsMirror c mgr.questRelations (Run.exec (GameEventMgr.call c) mgr pre)) ↔
    Run.Guarded (GameEventMgr.call c) (QuestsApart c mgr.questRelations) mgr calls := by
  have hinit : QuestsMirror c mgr.questRelations mgr := by
    intro kind relation hbase
    rw [start,List.count_eq_zero_of_not_mem hbase]
    simp
  refine Run.Guarded.iff_prefixes (fun _ => id) ?_ ?_ calls hinit
  · intro mgr' call h hmirror
    cases call with
    | startEvent event overwrite time => exact (questsMirror_start h overwrite time).mp hmirror
    | stopEvent event overwrite time => exact (questsMirror_stop h overwrite time).mp hmirror
  · intro mgr' call h hapart
    cases call with
    | startEvent event overwrite time => exact (questsMirror_start h overwrite time).mpr hapart
    | stopEvent event overwrite time => exact (questsMirror_stop h overwrite time).mpr hapart

/-- The first two events bring one quest, at a giver each. -/
def sharedQuest : Content where
  guids _ _ := []
  hasData _ _ := true
  quests _ event := if event = 1 then [(5,100)] else if event = 2 then [(6,100)] else []

theorem quests_run_iff_single :
    (∀ pre post, [Call.startEvent 1 false 0,.stopEvent 1 false 0] = pre ++ post →
      QuestsMirror sharedQuest quietEvents.questRelations
        (Run.exec (GameEventMgr.call sharedQuest) quietEvents pre)) ↔
    Run.Guarded (GameEventMgr.call sharedQuest)
      (QuestsApart sharedQuest quietEvents.questRelations) quietEvents
      [.startEvent 1 false 0,.stopEvent 1 false 0] :=
  quests_run_iff sharedQuest quietEvents _ rfl

/-- The second event keeps the quest at the giver of the first one, which has ended. -/
theorem quest_left : ¬ QuestsMirror sharedQuest quietEvents.questRelations
    (Run.exec (GameEventMgr.call sharedQuest) quietEvents
      [.startEvent 1 false 0,.startEvent 2 false 0,.stopEvent 1 false 0]) := by
  intro hmirror
  have := hmirror .creature (5,100) (by decide)
  revert this
  decide

end TrinityCore.Events
