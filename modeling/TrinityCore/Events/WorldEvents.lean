import TrinityCore.Events.GameEventMgr

set_option autoImplicit false

/-!
The life cycle of the world events: inactive, collecting its conditions, in its next phase,
finished. The updates of a clock that does not go back and the quests that players complete drive
it.
-/

namespace TrinityCore.Events

def GameEventState.rank : GameEventState → Nat
  | .normal => 0
  | .internal => 0
  | .worldInactive => 1
  | .worldConditions => 2
  | .worldNextphase => 3
  | .worldFinished => 4

def GameEventState.underway (state : GameEventState) : Prop :=
  state = .worldConditions ∨ state = .worldNextphase

def GameEventData.reached {F : Type} (data : GameEventData F) (time : Nat) : Prop :=
  (data.state = .worldNextphase ∨ data.state = .worldFinished) ∧ data.nextstart ≤ time

variable {F : Type} [LinearOrder F]

/-- Conditions start when the prerequisites are reached, and end when they are met. -/
def Change.Lawful (change : Change F) : Prop :=
  match (change.before change.event).state,change.new with
  | .worldInactive,.worldConditions =>
    ∀ p ∈ (change.before change.event).prerequisiteEvents, (change.before p).reached change.time
  | .worldConditions,.worldNextphase =>
    ∀ condition ∈ (change.before change.event).conditions.values, condition.reqNum ≤ condition.done
  | .worldNextphase,.worldFinished => True
  | state,new => state = new

def replay (states : Nat → GameEventState) (changes : List (Change F)) : Nat → GameEventState :=
  changes.foldl (fun states change => Function.update states change.event change.new) states

def GameEventMgr.states (mgr : GameEventMgr F) (event : Nat) : GameEventState :=
  (mgr.events event).state

/-- The need stays, and what is done does not decrease and stays within the need. -/
structure GameEventFinishCondition.Progress (condition condition' : GameEventFinishCondition F) :
    Prop where
  reqNum : condition'.reqNum = condition.reqNum
  done : condition.done ≤ condition'.done
  bounded : condition.done ≤ condition.reqNum → condition'.done ≤ condition'.reqNum

structure LifeCycle (mgr mgr' : GameEventMgr F) : Prop where
  size : mgr'.size = mgr.size
  quests : mgr'.questToEventConditions = mgr.questToEventConditions
  changes : ∃ added, mgr'.changes = mgr.changes ++ added ∧ mgr'.states = replay mgr.states added ∧
    ∀ change ∈ added, change.Lawful
  advances : ∀ event, (mgr.events event).state.rank ≤ (mgr'.events event).state.rank
  world : ∀ event, 0 < (mgr'.events event).state.rank → 0 < (mgr.events event).state.rank
  conditions : ∀ event key, Option.Rel GameEventFinishCondition.Progress
    ((mgr.events event).conditions.find? key) ((mgr'.events event).conditions.find? key)

def ActiveUnderway (mgr : GameEventMgr F) : Prop :=
  ∀ event, 0 < event → event < mgr.size → 0 < (mgr.events event).state.rank →
    (event ∈ mgr.active ↔ (mgr.events event).state.underway)

/-- The clock does not go back during an update: the starts come after the checks, in order. -/
structure Clock.Ordered (clock : Clock) : Prop where
  start : ∀ event event', clock.check event ≤ clock.start event'
  starts : ∀ event event', event ≤ event' → clock.start event ≤ clock.start event'

section Relation

variable {mgr mgr' mgr'' : GameEventMgr F}

theorem Progress.refl (condition : GameEventFinishCondition F) : condition.Progress condition :=
  ⟨rfl,le_rfl,id⟩

theorem rel_progress_refl (condition : Option (GameEventFinishCondition F)) :
    Option.Rel GameEventFinishCondition.Progress condition condition := by
  cases condition with
  | none => exact .none
  | some condition => exact .some (Progress.refl condition)

theorem rel_progress_trans {a b c : Option (GameEventFinishCondition F)}
    (hab : Option.Rel GameEventFinishCondition.Progress a b)
    (hbc : Option.Rel GameEventFinishCondition.Progress b c) :
    Option.Rel GameEventFinishCondition.Progress a c := by
  cases hab with
  | none => exact hbc
  | some hab =>
    cases hbc with
    | some hbc =>
      refine .some ⟨hbc.reqNum.trans hab.reqNum,hab.done.trans hbc.done,fun hbound => ?_⟩
      exact hbc.bounded (hab.bounded hbound)

theorem LifeCycle.refl (mgr : GameEventMgr F) : LifeCycle mgr mgr where
  size := rfl
  quests := rfl
  changes := ⟨[],by simp,rfl,by simp⟩
  advances _ := le_rfl
  world _ := id
  conditions _ _ := rel_progress_refl _

theorem LifeCycle.trans (h : LifeCycle mgr mgr') (h' : LifeCycle mgr' mgr'') :
    LifeCycle mgr mgr'' where
  size := h'.size.trans h.size
  quests := h'.quests.trans h.quests
  changes := by
    obtain ⟨added,hchanges,hstates,hlawful⟩ := h.changes
    obtain ⟨added',hchanges',hstates',hlawful'⟩ := h'.changes
    refine ⟨added ++ added',by rw [hchanges',hchanges,List.append_assoc],?_,fun change hmem => ?_⟩
    · rw [hstates',hstates]
      exact (List.foldl_append ..).symm
    rcases List.mem_append.mp hmem with hmem | hmem
    · exact hlawful change hmem
    · exact hlawful' change hmem
  advances event := (h.advances event).trans (h'.advances event)
  world event hrank := h.world event (h'.world event hrank)
  conditions event key := rel_progress_trans (h.conditions event key) (h'.conditions event key)

theorem LifeCycle.of_events (hsize : mgr'.size = mgr.size)
    (hquests : mgr'.questToEventConditions = mgr.questToEventConditions)
    (hevents : mgr'.events = mgr.events) (hchanges : mgr'.changes = mgr.changes) :
    LifeCycle mgr mgr' where
  size := hsize
  quests := hquests
  changes := ⟨[],by simp [hchanges],by funext event; simp [GameEventMgr.states,hevents,replay],
    by simp⟩
  advances event := by rw [hevents]
  world event := by rw [hevents]; exact id
  conditions event key := by rw [hevents]; exact rel_progress_refl _

end Relation

/-- One event moves on: what it is a prerequisite for stays reached, at the latest at a time. -/
structure Moves (time event : Nat) (mgr mgr' : GameEventMgr F) : Prop where
  lifeCycle : LifeCycle mgr mgr'
  other : ∀ event', event' ≠ event → mgr'.events event' = mgr.events event'
  prerequisites : (mgr'.events event).prerequisiteEvents = (mgr.events event).prerequisiteEvents
  reached : ∀ time', time ≤ time' → (mgr.events event).reached time' →
    (mgr'.events event).reached time'

/-- A next phase without a `nextstart` is one of no length. -/
def GameEventData.Timed (data : GameEventData F) : Prop :=
  data.state = .worldNextphase → data.nextstart = 0 → seconds data.length = 0

def Startable (mgr : GameEventMgr F) (time event : Nat) : Prop :=
  ((mgr.events event).state.underway ∧ (mgr.events event).Timed) ∨
    ((mgr.events event).state = .worldInactive ∧
      ∀ p ∈ (mgr.events event).prerequisiteEvents, (mgr.events p).reached time)

theorem Moves.startable {time time' event event' : Nat} {mgr mgr' : GameEventMgr F}
    (h : Moves time event mgr mgr') (hne : event' ≠ event) (hle : time ≤ time')
    (hstart : Startable mgr time' event') : Startable mgr' time' event' := by
  unfold Startable
  rw [h.other event' hne]
  rcases hstart with hunderway | ⟨hinactive,hready⟩
  · exact .inl hunderway
  · refine .inr ⟨hinactive,fun p hmem => ?_⟩
    by_cases hp : p = event
    · subst hp
      exact h.reached time' hle (hready p hmem)
    · rw [h.other p hp]
      exact hready p hmem

theorem Moves.refl (time event : Nat) (mgr : GameEventMgr F) : Moves time event mgr mgr :=
  ⟨LifeCycle.refl mgr,fun _ _ => rfl,rfl,fun _ _ => id⟩

theorem Moves.trans {time event : Nat} {mgr mgr' mgr'' : GameEventMgr F}
    (h : Moves time event mgr mgr') (h' : Moves time event mgr' mgr'') :
    Moves time event mgr mgr'' where
  lifeCycle := h.lifeCycle.trans h'.lifeCycle
  other event' hne := (h'.other event' hne).trans (h.other event' hne)
  prerequisites := h'.prerequisites.trans h.prerequisites
  reached time' hle hreached := h'.reached time' hle (h.reached time' hle hreached)

/-- The data of an event may be assigned: its state does not go back, and its conditions do not. -/
structure Assignable (time : Nat) (data data' : GameEventData F) : Prop where
  rank : data.state.rank ≤ data'.state.rank
  world : 0 < data'.state.rank → 0 < data.state.rank
  conditions : ∀ key, Option.Rel GameEventFinishCondition.Progress
    (data.conditions.find? key) (data'.conditions.find? key)
  prerequisites : data'.prerequisiteEvents = data.prerequisiteEvents
  reached : ∀ time', time ≤ time' → data.reached time' → data'.reached time'

section Operations

variable {mgr : GameEventMgr F} {time event : Nat}

theorem moves_setEvent {data : GameEventData F} (h : Assignable time (mgr.events event) data)
    {added : List (Change F)}
    (hreplay : replay mgr.states added = Function.update mgr.states event data.state)
    (hlawful : ∀ change ∈ added, change.Lawful) :
    Moves time event mgr { mgr.setEvent event data with changes := mgr.changes ++ added } := by
  have hself : (mgr.setEvent event data).events event = data := Function.update_self ..
  have hother : ∀ event', event' ≠ event →
      (mgr.setEvent event data).events event' = mgr.events event' :=
    fun event' hne => Function.update_of_ne hne ..
  have hstates : (mgr.setEvent event data).states = Function.update mgr.states event data.state := by
    funext event'
    unfold GameEventMgr.states
    by_cases heq : event' = event
    · subst heq
      rw [hself,Function.update_self]
    · rw [hother event' heq,Function.update_of_ne heq]
  refine ⟨⟨rfl,rfl,⟨added,rfl,hstates.trans hreplay.symm,hlawful⟩,fun event' => ?_,
    fun event' => ?_,fun event' key => ?_⟩,hother,?_,?_⟩
  · dsimp only
    by_cases heq : event' = event
    · subst heq
      rw [hself]
      exact h.rank
    · rw [hother event' heq]
  · dsimp only
    by_cases heq : event' = event
    · subst heq
      rw [hself]
      exact h.world
    · rw [hother event' heq]
      exact id
  · dsimp only
    by_cases heq : event' = event
    · subst heq
      rw [hself]
      exact h.conditions key
    · rw [hother event' heq]
      exact rel_progress_refl _
  · dsimp only
    rw [hself]
    exact h.prerequisites
  · dsimp only
    rw [hself]
    exact h.reached

theorem moves_setEvent_quiet {data : GameEventData F}
    (h : Assignable time (mgr.events event) data) (hstate : data.state = (mgr.events event).state) :
    Moves time event mgr (mgr.setEvent event data) := by
  have hreplay : replay mgr.states ([] : List (Change F)) = Function.update mgr.states event data.state := by
    rw [hstate]
    exact (Function.update_eq_self event mgr.states).symm
  have := moves_setEvent h hreplay (by simp)
  rwa [List.append_nil] at this

theorem moves_setState {new : GameEventState} {now : Nat}
    (hlawful : (⟨event,new,mgr.events,now⟩ : Change F).Lawful)
    (hrank : (mgr.events event).state.rank ≤ new.rank)
    (hworld : 0 < new.rank → 0 < (mgr.events event).state.rank)
    (hreached : (mgr.events event).state = .worldNextphase ∨
      (mgr.events event).state = .worldFinished → new = .worldNextphase ∨ new = .worldFinished) :
    Moves time event mgr (mgr.setState event new now) := by
  have hassign : Assignable time (mgr.events event) { mgr.events event with state := new } :=
    ⟨hrank,hworld,fun _ => rel_progress_refl _,rfl,fun time' _ h => ⟨hreached h.1,h.2⟩⟩
  have hreplay : replay mgr.states [⟨event,new,mgr.events,now⟩] =
      Function.update mgr.states event new := rfl
  exact moves_setEvent hassign hreplay (by simpa using hlawful)

theorem moves_nextstart {nextstart : Nat} (hreached : (mgr.events event).state = .worldNextphase ∨
      (mgr.events event).state = .worldFinished → nextstart ≤ time) :
    Moves time event mgr
      (mgr.setEvent event { mgr.events event with nextstart := nextstart }) := by
  refine moves_setEvent_quiet ⟨le_rfl,id,fun _ => rel_progress_refl _,rfl,?_⟩ rfl
  exact fun time' hle h => ⟨h.1,(hreached h.1).trans hle⟩

omit [LinearOrder F] in
@[simp] theorem events_setState (new : GameEventState) (now : Nat) :
    (mgr.setState event new now).events event = { mgr.events event with state := new } :=
  Function.update_self ..

omit [LinearOrder F] in
@[simp] theorem events_setEvent (data : GameEventData F) :
    (mgr.setEvent event data).events event = data :=
  Function.update_self ..

theorem conditions_cases (mgr : GameEventMgr F) (event now : Nat) :
    (mgr.checkOneGameEventConditions event now = (mgr,false)) ∨
    ((∀ condition ∈ (mgr.events event).conditions.values, condition.reqNum ≤ condition.done) ∧
      mgr.checkOneGameEventConditions event now =
        ({ mgr.setEvent event { mgr.events event with
            state := .worldNextphase
            nextstart := if (mgr.events event).nextstart = 0
              then now+seconds (mgr.events event).length else (mgr.events event).nextstart } with
          changes := mgr.changes ++ [⟨event,.worldNextphase,mgr.events,now⟩] },true)) := by
  unfold GameEventMgr.checkOneGameEventConditions
  by_cases hmet : (mgr.events event).conditions.values.all GameEventFinishCondition.met = true
  · right
    rw [if_pos hmet]
    refine ⟨fun condition hmem => ?_,?_⟩
    · have := List.all_eq_true.mp hmet condition hmem
      unfold GameEventFinishCondition.met at this
      rw [decide_eq_true_eq] at this
      exact not_lt.mp this
    · dsimp only
      rw [events_setState]
      dsimp only
      split_ifs with hnext
      · unfold GameEventMgr.setState GameEventMgr.setEvent
        rw [Function.update_idem]
      · rfl
  · left
    rw [if_neg hmet]

theorem moves_conditions {now : Nat} (hunderway : (mgr.events event).state.underway)
    (htimed : (mgr.events event).state = .worldNextphase → (mgr.events event).nextstart = 0 →
      now+seconds (mgr.events event).length ≤ time) :
    Moves time event mgr (mgr.checkOneGameEventConditions event now).1 := by
  rcases conditions_cases mgr event now with heq | ⟨hmet,heq⟩
  · rw [heq]
    exact Moves.refl time event mgr
  · rw [heq]
    apply moves_setEvent
    · refine ⟨?_,?_,fun _ => rel_progress_refl _,rfl,?_⟩
      · rcases hunderway with hstate | hstate <;> simp [hstate,GameEventState.rank]
      · rcases hunderway with hstate | hstate <;> simp [hstate,GameEventState.rank]
      · rintro time' hle ⟨hphase,hnext⟩
        refine ⟨.inl rfl,?_⟩
        dsimp only
        rcases hunderway with hstate | hstate
        · simp [hstate] at hphase
        · split_ifs with hzero
          · exact (htimed hstate hzero).trans hle
          · exact hnext
    · rfl
    · intro change hmem
      rw [List.mem_singleton] at hmem
      subst hmem
      unfold Change.Lawful
      dsimp only
      rcases hunderway with hstate | hstate
      · rw [hstate]
        exact hmet
      · rw [hstate]

theorem underway_conditions {now : Nat} (hunderway : (mgr.events event).state.underway)
    (htimed : (mgr.events event).Timed) :
    ((mgr.checkOneGameEventConditions event now).1.events event).state.underway ∧
      ((mgr.checkOneGameEventConditions event now).1.events event).Timed := by
  rcases conditions_cases mgr event now with heq | ⟨-,heq⟩
  · rw [heq]
    exact ⟨hunderway,htimed⟩
  · rw [heq]
    dsimp only
    rw [events_setEvent]
    refine ⟨.inr rfl,fun _ hzero => ?_⟩
    dsimp only at hzero ⊢
    split_ifs at hzero with hnext
    · omega
    · exact absurd hzero hnext

omit [LinearOrder F] in
theorem world_iff : mgr.isServerwide event = true ↔ 0 < (mgr.events event).state.rank := by
  unfold GameEventMgr.isServerwide
  cases (mgr.events event).state <;> decide

theorem moves_finish {now : Nat} (hstate : (mgr.events event).state = .worldNextphase) :
    Moves time event mgr ((mgr.setState event .worldFinished now).setEvent event
      { (mgr.setState event .worldFinished now).events event with nextstart := 0 }) := by
  refine Moves.trans (moves_setState ?_ ?_ ?_ ?_) (moves_nextstart fun _ => Nat.zero_le _)
  · unfold Change.Lawful
    dsimp only
    rw [hstate]
    trivial
  · simp [hstate,GameEventState.rank]
  · simp [hstate,GameEventState.rank]
  · simp

/-- A start of a world event begins its conditions if it is inactive, and ends them if they are
met. -/
theorem moves_start (c : Content) (hstart : 0 < (mgr.events event).state.rank →
      Startable mgr time event) :
    Moves time event mgr (mgr.startEvent c event false time).1 ∧
      (0 < (mgr.events event).state.rank →
        ((mgr.startEvent c event false time).1.events event).state.underway) := by
  unfold GameEventMgr.startEvent
  by_cases hworld : mgr.isServerwide event = true
  · rw [if_pos hworld]
    have hrank := world_iff.mp hworld
    obtain ⟨mgr',hmgr',hmoves,hunderway,htimed⟩ : ∃ mgr',
        mgr' = (if (mgr.events event).state = .worldInactive then
          mgr.setState event .worldConditions time else mgr) ∧ Moves time event mgr mgr' ∧
        (mgr'.events event).state.underway ∧ (mgr'.events event).Timed := by
      refine ⟨_,rfl,?_⟩
      rcases hstart hrank with ⟨hunderway,htimed⟩ | ⟨hinactive,hready⟩
      · rw [if_neg (by rcases hunderway with hstate | hstate <;> simp [hstate])]
        exact ⟨Moves.refl time event mgr,hunderway,htimed⟩
      · rw [if_pos hinactive]
        refine ⟨moves_setState ?_ ?_ ?_ ?_,?_,?_⟩
        · unfold Change.Lawful
          dsimp only
          rw [hinactive]
          exact hready
        · simp [hinactive,GameEventState.rank]
        · simp [hinactive,GameEventState.rank]
        · simp [hinactive]
        · rw [events_setState]
          exact .inl rfl
        · rw [events_setState]
          exact fun hstate => nomatch hstate
    dsimp only
    rw [← hmgr']
    have happly : Moves time event mgr' ((mgr'.addActiveEvent event).applyNewEvent c event) :=
      ⟨LifeCycle.of_events rfl rfl rfl rfl,fun _ _ => rfl,rfl,fun _ _ => id⟩
    have hunderway' : (((mgr'.addActiveEvent event).applyNewEvent c event).events
        event).state.underway := hunderway
    have htimed' : (((mgr'.addActiveEvent event).applyNewEvent c event).events event).Timed := htimed
    have hcheck : Moves time event ((mgr'.addActiveEvent event).applyNewEvent c event)
        (((mgr'.addActiveEvent event).applyNewEvent c event).checkOneGameEventConditions event
          time).1 := by
      refine moves_conditions hunderway' fun hstate hzero => ?_
      have := htimed' hstate hzero
      omega
    exact ⟨(hmoves.trans happly).trans hcheck,
      fun _ => (underway_conditions hunderway' htimed').1⟩
  · rw [if_neg hworld]
    dsimp only
    rw [if_neg Bool.false_ne_true]
    refine ⟨⟨LifeCycle.of_events rfl rfl rfl rfl,fun _ _ => rfl,rfl,fun _ _ => id⟩,fun hrank => ?_⟩
    exact absurd (world_iff.mpr hrank) hworld

theorem active_startEvent (c : Content) (mgr : GameEventMgr F) (event time : Nat) :
    (mgr.startEvent c event false time).1.active = insert event mgr.active :=
  (sameWorld_startEvent c mgr event false time).active

/-- A stop that does not overwrite leaves the data of a finished event, and of one that is not of
the world. -/
theorem lifeCycle_stop [Zero F] (c : Content) (now : Nat)
    (hfinished : 0 < (mgr.events event).state.rank → (mgr.events event).state = .worldFinished) :
    LifeCycle mgr (mgr.stopEvent c event false now) ∧
      (mgr.stopEvent c event false now).events = mgr.events := by
  unfold GameEventMgr.stopEvent
  dsimp only
  rw [if_neg (by simp)]
  by_cases hworld : mgr.isServerwide event = true
  · have hstate := hfinished (world_iff.mp hworld)
    have hdata : (((mgr.removeActiveEvent event).unApplyEvent c event).events event).state =
        .worldFinished := hstate
    rw [if_pos hworld,if_neg (by simp [hdata])]
    exact ⟨LifeCycle.of_events rfl rfl rfl rfl,rfl⟩
  · rw [if_neg hworld]
    exact ⟨LifeCycle.of_events rfl rfl rfl rfl,rfl⟩

end Operations

/-- An update whose turn is at an event: an event before it is active in the end, with what is to
be started and stopped, if it is under way or is to be started. -/
structure Pending (clock : Clock) (n : Nat) (r : Round F) : Prop where
  range : ∀ event ∈ r.mgr.active, 0 < event ∧ event < r.mgr.size
  placed : ∀ event, 0 < event → event < n → 0 < (r.mgr.events event).state.rank →
    ((event ∈ r.mgr.active ∨ event ∈ r.activate) ∧ event ∉ r.deactivate ↔
      (r.mgr.events event).state.underway ∨ event ∈ r.activate)
  rest : ∀ event ∈ r.mgr.active, n ≤ event → 0 < (r.mgr.events event).state.rank →
    (r.mgr.events event).state.underway
  starts : ∀ event ∈ r.activate, 0 < (r.mgr.events event).state.rank →
    Startable r.mgr (clock.start event) event
  stops : ∀ event ∈ r.deactivate, 0 < (r.mgr.events event).state.rank →
    (r.mgr.events event).state = .worldFinished
  activate : ∀ event ∈ r.activate, 0 < event ∧ event < n
  deactivate : ∀ event ∈ r.deactivate, 0 < event ∧ event < n
  sorted : r.activate.Pairwise (· < ·)

section Round

variable {clock : Clock} {n : Nat} {r r' : Round F}

theorem Pending.next (h : Pending clock n r) (hn : 0 < n)
    (hmoves : Moves 0 n r.mgr r'.mgr) (hactive : r'.mgr.active = r.mgr.active)
    (hactivate : r'.activate = r.activate ∨ r'.activate = r.activate ++ [n])
    (hdeactivate : r'.deactivate = r.deactivate ∨ r'.deactivate = r.deactivate ++ [n])
    (hplaced : 0 < (r'.mgr.events n).state.rank →
      ((n ∈ r.mgr.active ∨ n ∈ r'.activate) ∧ n ∉ r'.deactivate ↔
        (r'.mgr.events n).state.underway ∨ n ∈ r'.activate))
    (hstart : n ∈ r'.activate → 0 < (r'.mgr.events n).state.rank →
      Startable r'.mgr (clock.start n) n)
    (hstop : n ∈ r'.deactivate → 0 < (r'.mgr.events n).state.rank →
      (r'.mgr.events n).state = .worldFinished) : Pending clock (n+1) r' := by
  have hA : ∀ event, event ≠ n → (event ∈ r'.activate ↔ event ∈ r.activate) := by
    intro event hne
    rcases hactivate with heq | heq <;> simp [heq,hne]
  have hD : ∀ event, event ≠ n → (event ∈ r'.deactivate ↔ event ∈ r.deactivate) := by
    intro event hne
    rcases hdeactivate with heq | heq <;> simp [heq,hne]
  constructor
  · rw [hactive,hmoves.lifeCycle.size]
    exact h.range
  · intro event hpos hlt hrank
    by_cases heq : event = n
    · subst heq
      rw [hactive]
      exact hplaced hrank
    · rw [hmoves.other event heq] at hrank ⊢
      rw [hA event heq,hD event heq,hactive]
      exact h.placed event hpos (by omega) hrank
  · intro event hmem hle hrank
    have hne : event ≠ n := by omega
    rw [hmoves.other event hne] at hrank ⊢
    rw [hactive] at hmem
    exact h.rest event hmem (by omega) hrank
  · intro event hmem hrank
    by_cases heq : event = n
    · subst heq
      exact hstart hmem hrank
    · rw [hmoves.other event heq] at hrank
      exact hmoves.startable heq (Nat.zero_le _) (h.starts event ((hA event heq).mp hmem) hrank)
  · intro event hmem hrank
    by_cases heq : event = n
    · subst heq
      exact hstop hmem hrank
    · rw [hmoves.other event heq] at hrank ⊢
      exact h.stops event ((hD event heq).mp hmem) hrank
  · intro event hmem
    by_cases heq : event = n
    · omega
    · have := h.activate event ((hA event heq).mp hmem)
      omega
  · intro event hmem
    by_cases heq : event = n
    · omega
    · have := h.deactivate event ((hD event heq).mp hmem)
      omega
  · rcases hactivate with heq | heq
    · rw [heq]
      exact h.sorted
    · rw [heq,List.pairwise_append]
      refine ⟨h.sorted,List.pairwise_singleton _ n,fun event hmem event' hmem' => ?_⟩
      rw [List.mem_singleton] at hmem'
      have := h.activate event hmem
      omega

omit [LinearOrder F] in
theorem check_of_underway {mgr : GameEventMgr F} {event : Nat} (time : Nat)
    (h : (mgr.events event).state.underway) : mgr.checkOneGameEvent event time = true := by
  unfold GameEventMgr.checkOneGameEvent
  rcases h with hstate | hstate <;> simp [hstate]

omit [LinearOrder F] in
theorem check_world {mgr : GameEventMgr F} {event time : Nat}
    (hcheck : mgr.checkOneGameEvent event time = true)
    (hrank : 0 < (mgr.events event).state.rank) : (mgr.events event).state.underway ∨
      ((mgr.events event).state = .worldInactive ∧
        ∀ p ∈ (mgr.events event).prerequisiteEvents, (mgr.events p).reached time) := by
  unfold GameEventMgr.checkOneGameEvent at hcheck
  cases hstate : (mgr.events event).state with
  | normal => simp [hstate,GameEventState.rank] at hrank
  | internal => simp [hstate,GameEventState.rank] at hrank
  | worldConditions => exact .inl (.inl rfl)
  | worldNextphase => exact .inl (.inr rfl)
  | worldFinished => simp [hstate] at hcheck
  | worldInactive =>
    simp only [hstate,Bool.and_eq_true,List.all_eq_true,decide_eq_true_eq] at hcheck
    exact .inr ⟨rfl,hcheck.1⟩

theorem finished_not_underway : ¬ GameEventState.underway .worldFinished := by
  unfold GameEventState.underway
  decide

theorem pending_check (c : Content) (hclock : clock.Ordered) (hn : 0 < n) (h : Pending clock n r) :
    LifeCycle r.mgr (r.check c clock n).mgr ∧
      Pending clock (n+1) (r.check c clock n) := by
  have hA : n ∉ r.activate := fun hmem => by have := h.activate n hmem; omega
  have hD : n ∉ r.deactivate := fun hmem => by have := h.deactivate n hmem; omega
  unfold Round.check
  by_cases hcheck : r.mgr.checkOneGameEvent n (clock.check n) = true
  · rw [if_pos hcheck]
    by_cases hlast : (r.mgr.events n).state = .worldNextphase ∧
        (r.mgr.events n).nextstart ≤ clock.now
    · -- The last turn of an event that is in its next phase.
      rw [if_pos hlast]
      dsimp only
      obtain ⟨mgr',hmgr',hmoves,hstate,hactive⟩ : ∃ mgr',
          mgr' = (r.mgr.setState n .worldFinished clock.now).setEvent n
            { (r.mgr.setState n .worldFinished clock.now).events n with nextstart := 0 } ∧
          Moves 0 n r.mgr mgr' ∧ (mgr'.events n).state = .worldFinished ∧
          mgr'.active = r.mgr.active :=
        ⟨_,rfl,moves_finish hlast.1,by rw [events_setEvent,events_setState],rfl⟩
      rw [← hmgr']
      have hover : ¬ ((mgr'.events n).state.underway ∨ n ∈ r.activate) := by
        rw [hstate]
        exact not_or.mpr ⟨finished_not_underway,hA⟩
      by_cases hmem : n ∈ mgr'.active
      · rw [if_pos hmem]
        refine ⟨hmoves.lifeCycle,h.next hn hmoves hactive (.inl rfl) (.inr rfl) (fun _ => ?_)
          (fun hmem => absurd hmem hA) (fun _ _ => hstate)⟩
        exact iff_of_false (by simp) hover
      · rw [if_neg hmem]
        rw [hactive] at hmem
        refine ⟨hmoves.lifeCycle,h.next hn hmoves hactive (.inl rfl) (.inl rfl) (fun _ => ?_)
          (fun hmem => absurd hmem hA) (fun hmem => absurd hmem hD)⟩
        exact iff_of_false (fun hwill => hwill.1.elim hmem hA) hover
    · rw [if_neg hlast]
      dsimp only
      obtain ⟨mgr',hmgr',hmoves,hactive,hunderway,hinactive⟩ : ∃ mgr',
          mgr' = (if (r.mgr.events n).state = .worldConditions then
            (r.mgr.checkOneGameEventConditions n (clock.conditions n)).1 else r.mgr) ∧
          Moves 0 n r.mgr mgr' ∧ mgr'.active = r.mgr.active ∧
          ((r.mgr.events n).state.underway →
            (mgr'.events n).state.underway ∧ (mgr'.events n).Timed) ∧
          ((r.mgr.events n).state = .worldInactive → mgr' = r.mgr) := by
        refine ⟨_,rfl,?_⟩
        by_cases hstate : (r.mgr.events n).state = .worldConditions
        · rw [if_pos hstate]
          refine ⟨moves_conditions (.inl hstate) ?_,(sameWorld_conditions _ _ _).active,
            fun hunderway => underway_conditions hunderway ?_,?_⟩
          · simp [hstate]
          · exact fun hphase => by simp [hstate] at hphase
          · simp [hstate]
        · rw [if_neg hstate]
          refine ⟨Moves.refl 0 n r.mgr,rfl,fun hunderway => ⟨hunderway,fun hphase hzero => ?_⟩,
            fun _ => rfl⟩
          exact absurd ⟨hphase,by omega⟩ hlast
      rw [← hmgr']
      have hrank' : 0 < (mgr'.events n).state.rank → 0 < (r.mgr.events n).state.rank :=
        hmoves.lifeCycle.world n
      by_cases hmem : n ∈ mgr'.active
      · rw [if_pos hmem]
        rw [hactive] at hmem
        refine ⟨hmoves.lifeCycle,h.next hn hmoves hactive (.inl rfl) (.inl rfl) (fun hrank => ?_)
          (fun hmem => absurd hmem hA) (fun hmem => absurd hmem hD)⟩
        have := (hunderway (h.rest n hmem le_rfl (hrank' hrank))).1
        simp only [hmem,hD,this,true_or,not_false_eq_true,and_self]
      · rw [if_neg hmem]
        refine ⟨hmoves.lifeCycle,h.next hn hmoves hactive (.inr rfl) (.inl rfl) (fun _ => ?_)
          (fun _ hrank => ?_) (fun hmem => absurd hmem hD)⟩
        · simp [hD]
        · rcases check_world hcheck (hrank' hrank) with hstate | ⟨hstate,hready⟩
          · exact .inl (hunderway hstate)
          · rw [hinactive hstate]
            exact .inr ⟨hstate,fun p hp => ⟨(hready p hp).1,(hready p hp).2.trans
              (hclock.start n n)⟩⟩
  · rw [if_neg hcheck]
    by_cases hmem : n ∈ r.mgr.active
    · rw [if_pos hmem]
      have hworld : ¬ 0 < (r.mgr.events n).state.rank := fun hrank =>
        hcheck (check_of_underway _ (h.rest n hmem le_rfl hrank))
      exact ⟨LifeCycle.refl _,h.next hn (Moves.refl 0 n r.mgr) rfl (.inl rfl) (.inr rfl)
        (fun hrank => absurd hrank hworld) (fun hmem => absurd hmem hA)
        (fun _ hrank => absurd hrank hworld)⟩
    · rw [if_neg hmem]
      have hplaced : (n ∈ r.mgr.active ∨ n ∈ r.activate) ∧ n ∉ r.deactivate ↔
          (r.mgr.events n).state.underway ∨ n ∈ r.activate := by
        simp only [hmem,hA,or_self,false_and,or_false,false_iff]
        exact fun hunderway => hcheck (check_of_underway _ hunderway)
      split_ifs
      · exact ⟨LifeCycle.refl _,h.next hn (Moves.refl 0 n r.mgr) rfl (.inl rfl) (.inl rfl)
          (fun _ => hplaced) (fun hmem => absurd hmem hA) (fun hmem => absurd hmem hD)⟩
      · have hspawn : Moves 0 n r.mgr (r.mgr.gameEventSpawn c (-n)) :=
          ⟨LifeCycle.of_events rfl rfl rfl rfl,fun _ _ => rfl,rfl,fun _ _ => id⟩
        exact ⟨hspawn.lifeCycle,h.next hn hspawn rfl (.inl rfl) (.inl rfl)
          (fun _ => hplaced) (fun hmem => absurd hmem hA) (fun hmem => absurd hmem hD)⟩

theorem pending_loop (c : Content) (hclock : clock.Ordered) (k : Nat) (hn : 0 < n)
    (h : Pending clock n r) :
    LifeCycle r.mgr ((List.range' n k).foldl (Round.check c clock) r).mgr ∧
      Pending clock (n+k) ((List.range' n k).foldl (Round.check c clock) r) := by
  induction k generalizing n r with
  | zero => exact ⟨LifeCycle.refl _,h⟩
  | succ k ih =>
    rw [List.range'_succ,List.foldl_cons]
    obtain ⟨hlife,hnext⟩ := pending_check c hclock hn h
    obtain ⟨hlife',hdone⟩ := ih (Nat.succ_pos n) hnext
    refine ⟨hlife.trans hlife',?_⟩
    rw [show n+(k+1) = n+1+k by omega]
    exact hdone

theorem pending_start (c : Content) (hclock : clock.Ordered) {event : Nat} {events : List Nat}
    {mgr : GameEventMgr F} {deactivate : List Nat}
    (h : Pending clock n ⟨mgr,event :: events,deactivate⟩) (hsize : n ≤ max 1 mgr.size) :
    LifeCycle mgr (mgr.startEvent c event false (clock.start event)).1 ∧
      Pending clock n ⟨(mgr.startEvent c event false (clock.start event)).1,events,deactivate⟩ := by
  obtain ⟨hmoves,hunderway⟩ := moves_start c (h.starts event List.mem_cons_self)
  have hactive := active_startEvent c mgr event (clock.start event)
  obtain ⟨mgr',hmgr'⟩ : ∃ mgr', mgr' = (mgr.startEvent c event false (clock.start event)).1 :=
    ⟨_,rfl⟩
  rw [← hmgr'] at hmoves hunderway hactive ⊢
  have hworld := hmoves.lifeCycle.world
  have hrange := h.activate event List.mem_cons_self
  obtain ⟨hfirst,hsorted⟩ := List.pairwise_cons.mp h.sorted
  -- What is finished is not to be started.
  have hnot : event ∈ deactivate → ¬ 0 < (mgr.events event).state.rank := by
    intro hmem hrank
    have hfinished := h.stops event hmem hrank
    rcases h.starts event List.mem_cons_self hrank with ⟨hphase,-⟩ | ⟨hinactive,-⟩
    · dsimp only at hphase hfinished
      rw [hfinished] at hphase
      exact finished_not_underway hphase
    · dsimp only at hinactive hfinished
      simp [hinactive] at hfinished
  refine ⟨hmoves.lifeCycle,?_⟩
  constructor
  · intro event' hmem
    dsimp only at hmem ⊢
    rw [hactive,Finset.mem_insert] at hmem
    rw [hmoves.lifeCycle.size]
    rcases hmem with rfl | hmem
    · refine ⟨hrange.1,?_⟩
      change event' < mgr.size
      omega
    · exact h.range event' hmem
  · intro event' hpos hlt hrank
    by_cases heq : event' = event
    · subst heq
      have hrank' := hworld event' hrank
      refine iff_of_true ⟨.inl ?_,fun hmem => hnot hmem hrank'⟩ (.inl (hunderway hrank'))
      dsimp only
      rw [hactive]
      exact Finset.mem_insert_self event' _
    · have hplaced := h.placed event' hpos hlt
      dsimp only at hplaced hrank ⊢
      rw [hmoves.other event' heq] at hrank ⊢
      rw [hactive,Finset.mem_insert]
      simpa only [List.mem_cons,heq,false_or] using hplaced hrank
  · intro event' hmem hle hrank
    have hne : event' ≠ event := by omega
    have hrest := h.rest event'
    dsimp only at hmem hrank hrest ⊢
    rw [hmoves.other event' hne] at hrank ⊢
    rw [hactive,Finset.mem_insert] at hmem
    exact hrest (hmem.resolve_left hne) hle hrank
  · intro event' hmem hrank
    have hlt := hfirst event' hmem
    have hne : event' ≠ event := by omega
    have hstart := h.starts event' (List.mem_cons_of_mem event hmem)
    dsimp only at hrank hstart ⊢
    rw [hmoves.other event' hne] at hrank
    exact hmoves.startable hne (hclock.starts event event' (by omega)) (hstart hrank)
  · intro event' hmem hrank
    have hne : event' ≠ event := by
      rintro rfl
      exact hnot hmem (hworld event' hrank)
    have hstop := h.stops event' hmem
    dsimp only at hrank hstop ⊢
    rw [hmoves.other event' hne] at hrank ⊢
    exact hstop hrank
  · exact fun event' hmem => h.activate event' (List.mem_cons_of_mem event hmem)
  · exact h.deactivate
  · exact hsorted

theorem pending_starts (c : Content) (hclock : clock.Ordered) {events : List Nat}
    {mgr : GameEventMgr F} {deactivate : List Nat} (h : Pending clock n ⟨mgr,events,deactivate⟩)
    (hsize : n ≤ max 1 mgr.size) :
    LifeCycle mgr (events.foldl
      (fun mgr event => (mgr.startEvent c event false (clock.start event)).1) mgr) ∧
    Pending clock n ⟨events.foldl
      (fun mgr event => (mgr.startEvent c event false (clock.start event)).1) mgr,[],deactivate⟩ := by
  induction events generalizing mgr with
  | nil => exact ⟨LifeCycle.refl mgr,h⟩
  | cons event events ih =>
    rw [List.foldl_cons]
    obtain ⟨hlife,hnext⟩ := pending_start c hclock h hsize
    obtain ⟨hlife',hdone⟩ := ih hnext (by rw [hlife.size]; exact hsize)
    exact ⟨hlife.trans hlife',hdone⟩

theorem pending_stop [Zero F] (c : Content) {event : Nat} {events : List Nat}
    {mgr : GameEventMgr F} (h : Pending clock n ⟨mgr,[],event :: events⟩) :
    LifeCycle mgr (mgr.stopEvent c event false clock.now) ∧
      Pending clock n ⟨mgr.stopEvent c event false clock.now,[],events⟩ := by
  obtain ⟨hlife,hevents⟩ := lifeCycle_stop c clock.now
    (h.stops event List.mem_cons_self)
  have hactive : (mgr.stopEvent c event false clock.now).active = mgr.active.erase event :=
    (sameWorld_stopEvent c mgr event false clock.now).active
  refine ⟨hlife,?_⟩
  constructor
  · intro event' hmem
    dsimp only at hmem ⊢
    rw [hactive] at hmem
    rw [hlife.size]
    exact h.range event' (Finset.mem_of_mem_erase hmem)
  · intro event' hpos hlt hrank
    have hplaced := h.placed event' hpos hlt
    have hstop := h.stops event'
    dsimp only at hplaced hrank hstop ⊢
    rw [hevents] at hrank ⊢
    rw [hactive,Finset.mem_erase]
    simp only [List.not_mem_nil,or_false,List.mem_cons] at hplaced hstop ⊢
    by_cases heq : event' = event
    · subst heq
      refine iff_of_false (fun hmem => hmem.1.1 rfl) ?_
      rw [hstop (.inl rfl) hrank]
      exact finished_not_underway
    · simpa only [heq,false_or,ne_eq,not_false_eq_true,true_and] using hplaced hrank
  · intro event' hmem hle hrank
    have hrest := h.rest event'
    dsimp only at hmem hrank hrest ⊢
    rw [hevents] at hrank ⊢
    rw [hactive] at hmem
    exact hrest (Finset.mem_of_mem_erase hmem) hle hrank
  · simp
  · intro event' hmem hrank
    have hstop := h.stops event' (List.mem_cons_of_mem event hmem)
    dsimp only at hrank hstop ⊢
    rw [hevents] at hrank ⊢
    exact hstop hrank
  · simp
  · exact fun event' hmem => h.deactivate event' (List.mem_cons_of_mem event hmem)
  · exact .nil

theorem pending_stops [Zero F] (c : Content) {events : List Nat} {mgr : GameEventMgr F}
    (h : Pending clock n ⟨mgr,[],events⟩) :
    LifeCycle mgr (events.foldl (fun mgr event => mgr.stopEvent c event false clock.now) mgr) ∧
    Pending clock n
      ⟨events.foldl (fun mgr event => mgr.stopEvent c event false clock.now) mgr,[],[]⟩ := by
  induction events generalizing mgr with
  | nil => exact ⟨LifeCycle.refl mgr,h⟩
  | cons event events ih =>
    rw [List.foldl_cons]
    obtain ⟨hlife,hnext⟩ := pending_stop c h
    obtain ⟨hlife',hdone⟩ := ih hnext
    exact ⟨hlife.trans hlife',hdone⟩

end Round

/-- The active events are among the events, and those of the world are under way. -/
structure Steady (mgr : GameEventMgr F) : Prop where
  range : ∀ event ∈ mgr.active, 0 < event ∧ event < mgr.size
  underway : ∀ event ∈ mgr.active, 0 < (mgr.events event).state.rank →
    (mgr.events event).state.underway

theorem update_spec [Zero F] (c : Content) {mgr : GameEventMgr F} {clock : Clock}
    (hclock : clock.Ordered) (h : Steady mgr) :
    LifeCycle mgr (mgr.update c clock) ∧ Steady (mgr.update c clock) ∧
      ActiveUnderway (mgr.update c clock) := by
  have hinit : Pending clock 1 ⟨mgr,[],[]⟩ := by
    constructor
    · exact h.range
    · intro event hpos hlt
      omega
    · exact fun event hmem _ => h.underway event hmem
    · simp
    · simp
    · simp
    · simp
    · exact .nil
  obtain ⟨hloop,hchecked⟩ := pending_loop c hclock (mgr.size-1) Nat.one_pos hinit
  dsimp only at hloop
  have hsize : 1+(mgr.size-1) ≤ max 1
      ((List.range' 1 (mgr.size-1)).foldl (Round.check c clock) ⟨mgr,[],[]⟩).mgr.size := by
    rw [hloop.size]
    omega
  obtain ⟨hstarts,hstarted⟩ := pending_starts c hclock hchecked hsize
  obtain ⟨hstops,hstopped⟩ := pending_stops c hstarted
  have hlife : LifeCycle mgr (mgr.update c clock) := (hloop.trans hstarts).trans hstops
  have hdone : Pending clock (1+(mgr.size-1)) ⟨mgr.update c clock,[],[]⟩ := hstopped
  refine ⟨hlife,⟨hdone.range,fun event hmem hrank => ?_⟩,fun event hpos hlt hrank => ?_⟩
  · have hrange := hdone.range event hmem
    have hsize' := hlife.size
    dsimp only at hrange
    have := hdone.placed event hrange.1 (by omega) hrank
    simpa [hmem] using this
  · have hsize' := hlife.size
    have := hdone.placed event hpos (by omega) hrank
    simpa using this

section Quests

variable {mgr mgr' : GameEventMgr F} {time event : Nat}

theorem Steady.moves (h : Steady mgr) (hmoves : Moves time event mgr mgr')
    (hactive : mgr'.active = mgr.active) (hunderway : (mgr'.events event).state.underway) :
    Steady mgr' := by
  constructor
  · rw [hactive,hmoves.lifeCycle.size]
    exact h.range
  · intro event' hmem hrank
    by_cases heq : event' = event
    · exact heq ▸ hunderway
    · rw [hmoves.other event' heq] at hrank ⊢
      rw [hactive] at hmem
      exact h.underway event' hmem hrank

theorem ActiveUnderway.moves (h : ActiveUnderway mgr) (hmoves : Moves time event mgr mgr')
    (hactive : mgr'.active = mgr.active)
    (hstate : (mgr'.events event).state = (mgr.events event).state) : ActiveUnderway mgr' := by
  intro event' hpos hlt hrank
  have hsame : (mgr'.events event').state = (mgr.events event').state := by
    by_cases heq : event' = event
    · exact heq ▸ hstate
    · rw [hmoves.other event' heq]
  rw [hsame] at hrank ⊢
  rw [hactive]
  exact h event' hpos (by rw [← hmoves.lifeCycle.size]; exact hlt) hrank

variable [Add F] [Zero F]

theorem progress_quest (hadd : ∀ a b : F, 0 ≤ b → a ≤ a+b)
    {condition : GameEventFinishCondition F} {num : F} (hnum : 0 ≤ num)
    (hneed : condition.done < condition.reqNum) :
    condition.Progress { condition with done :=
      if condition.done+num > condition.reqNum then condition.reqNum else condition.done+num } := by
  refine ⟨rfl,?_,fun _ => ?_⟩
  · dsimp only
    split_ifs
    · exact hneed.le
    · exact hadd condition.done num hnum
  · dsimp only
    split_ifs with hover
    · exact le_rfl
    · exact not_lt.mp hover

theorem moves_quest (hadd : ∀ a b : F, 0 ≤ b → a ≤ a+b) {key : Nat}
    {condition : GameEventFinishCondition F} {num : F} (hnum : 0 ≤ num)
    (hfind : (mgr.events event).conditions.find? key = some condition)
    (hneed : condition.done < condition.reqNum) :
    Moves 0 event mgr (mgr.setEvent event { mgr.events event with
      conditions := (mgr.events event).conditions.insert key { condition with done :=
        if condition.done+num > condition.reqNum then condition.reqNum
        else condition.done+num } }) := by
  refine moves_setEvent_quiet ⟨le_rfl,id,fun key' => ?_,rfl,fun _ _ => id⟩ rfl
  dsimp only
  rw [OrderedMap.find?_insert]
  by_cases heq : key' = key
  · subst heq
    rw [if_pos rfl,hfind]
    exact .some (progress_quest hadd hnum hneed)
  · rw [if_neg heq]
    exact rel_progress_refl _

theorem handleQuestComplete_spec (time : Nat) (c : Content) (hadd : ∀ a b : F, 0 ≤ b → a ≤ a+b)
    (hnum : ∀ quest q, mgr.questToEventConditions quest = some q → 0 ≤ q.num) {clock : Clock}
    (hclock : clock.Ordered) (quest : Nat) (h : Steady mgr) :
    LifeCycle mgr (mgr.handleQuestComplete c quest time clock) ∧
      Steady (mgr.handleQuestComplete c quest time clock) ∧
      (ActiveUnderway mgr → ActiveUnderway (mgr.handleQuestComplete c quest time clock)) ∧
      (mgr.active = ∅ → mgr.handleQuestComplete c quest time clock = mgr) := by
  have hidle : LifeCycle mgr mgr ∧ Steady mgr ∧ (ActiveUnderway mgr → ActiveUnderway mgr) ∧
      (mgr.active = ∅ → mgr = mgr) := ⟨LifeCycle.refl mgr,h,id,fun _ => rfl⟩
  unfold GameEventMgr.handleQuestComplete
  cases hquest : mgr.questToEventConditions quest with
  | none => exact hidle
  | some q =>
    dsimp only
    by_cases hactive : q.eventId ∉ mgr.active
    · rw [if_pos hactive]
      exact hidle
    by_cases hstate : (mgr.events q.eventId).state ≠ .worldConditions
    · rw [if_neg hactive,if_pos hstate]
      exact hidle
    rw [if_neg hactive,if_neg hstate]
    rw [not_not] at hactive hstate
    cases hfind : (mgr.events q.eventId).conditions.find? q.condition with
    | none => exact hidle
    | some condition =>
      dsimp only
      by_cases hneed : condition.done < condition.reqNum
      · rw [if_pos hneed]
        obtain ⟨mgr',hmgr',hmoves,hsame,hstate'⟩ : ∃ mgr',
            mgr' = mgr.setEvent q.eventId { mgr.events q.eventId with
              conditions := (mgr.events q.eventId).conditions.insert q.condition
                { condition with done :=
                  if condition.done+q.num > condition.reqNum then condition.reqNum
                  else condition.done+q.num } } ∧
            Moves 0 q.eventId mgr mgr' ∧ mgr'.active = mgr.active ∧
            (mgr'.events q.eventId).state = (mgr.events q.eventId).state :=
          ⟨_,rfl,moves_quest hadd (hnum quest q hquest) hfind hneed,rfl,by rw [events_setEvent]⟩
        rw [← hmgr']
        have hunderway : (mgr'.events q.eventId).state.underway := by
          rw [hstate',hstate]
          exact .inl rfl
        have htimed : (mgr'.events q.eventId).Timed := fun hphase => by
          simp [hstate',hstate] at hphase
        have hsteady := h.moves hmoves hsame hunderway
        have hnonempty : mgr.active ≠ ∅ := Finset.ne_empty_of_mem hactive
        by_cases hmet : (mgr'.checkOneGameEventConditions q.eventId time).2 = true
        · rw [if_pos hmet]
          have hcheck : Moves 0 q.eventId mgr'
              (mgr'.checkOneGameEventConditions q.eventId time).1 :=
            moves_conditions hunderway fun hphase => by simp [hstate',hstate] at hphase
          have hsteady' := hsteady.moves hcheck (sameWorld_conditions _ _ _).active
            (underway_conditions hunderway htimed).1
          obtain ⟨hlife,hafter,hmatch⟩ := update_spec c hclock hsteady'
          exact ⟨(hmoves.lifeCycle.trans hcheck.lifeCycle).trans hlife,hafter,fun _ => hmatch,
            fun hempty => absurd hempty hnonempty⟩
        · rw [if_neg hmet]
          have hsame' : (mgr'.checkOneGameEventConditions q.eventId time).1 = mgr' := by
            rcases conditions_cases mgr' q.eventId time with heq | ⟨-,heq⟩
            · rw [heq]
            · rw [heq] at hmet
              exact absurd rfl hmet
          rw [hsame']
          exact ⟨hmoves.lifeCycle,hsteady,fun hmatch => hmatch.moves hmoves hsame hstate',
            fun hempty => absurd hempty hnonempty⟩
      · rw [if_neg hneed]
        exact hidle

end Quests

inductive Turn where
  | update (clock : Clock)
  | handleQuestComplete (quest time : Nat) (clock : Clock)

def Turn.clock : Turn → Clock
  | .update clock => clock
  | .handleQuestComplete _ _ clock => clock

def GameEventMgr.turn [Add F] [Zero F] (c : Content) (mgr : GameEventMgr F) : Turn → GameEventMgr F
  | .update clock => mgr.update c clock
  | .handleQuestComplete quest time clock => mgr.handleQuestComplete c quest time clock

/-- No event is active, no condition is overdone, and no quest takes progress away. -/
structure Begun [Zero F] (mgr : GameEventMgr F) : Prop where
  active : mgr.active = ∅
  done : ∀ event, ∀ condition ∈ (mgr.events event).conditions.values,
    condition.done ≤ condition.reqNum
  num : ∀ quest q, mgr.questToEventConditions quest = some q → 0 ≤ q.num

section Run

variable [Add F] [Zero F] {mgr : GameEventMgr F}

theorem turn_spec (c : Content) (hadd : ∀ a b : F, 0 ≤ b → a ≤ a+b)
    (hnum : ∀ quest q, mgr.questToEventConditions quest = some q → 0 ≤ q.num) {turn : Turn}
    (hclock : turn.clock.Ordered) (h : Steady mgr) :
    LifeCycle mgr (mgr.turn c turn) ∧ Steady (mgr.turn c turn) ∧
      (ActiveUnderway mgr → ActiveUnderway (mgr.turn c turn)) ∧
      ((∃ clock, turn = .update clock) → ActiveUnderway (mgr.turn c turn)) ∧
      ((∀ clock, turn ≠ .update clock) → mgr.active = ∅ → mgr.turn c turn = mgr) := by
  cases turn with
  | update clock =>
    obtain ⟨hlife,hsteady,hmatch⟩ := update_spec c hclock h
    exact ⟨hlife,hsteady,fun _ => hmatch,fun _ => hmatch,fun hnot => absurd rfl (hnot clock)⟩
  | handleQuestComplete quest time clock =>
    obtain ⟨hlife,hsteady,hmatch,hsame⟩ :=
      handleQuestComplete_spec time c hadd hnum hclock quest h
    refine ⟨hlife,hsteady,hmatch,?_,fun _ => hsame⟩
    rintro ⟨clock',heq⟩
    exact nomatch heq

/-- What holds after each turn of a run: before the first update nothing happens. -/
theorem steady_run (c : Content) (hadd : ∀ a b : F, 0 ≤ b → a ≤ a+b) (hbegun : Begun mgr)
    (turns : List Turn) (hclock : ∀ turn ∈ turns, turn.clock.Ordered) :
    LifeCycle mgr (Run.exec (GameEventMgr.turn c) mgr turns) ∧
      Steady (Run.exec (GameEventMgr.turn c) mgr turns) ∧
      (ActiveUnderway (Run.exec (GameEventMgr.turn c) mgr turns) ∨
        ((∀ clock, Turn.update clock ∉ turns) ∧
          Run.exec (GameEventMgr.turn c) mgr turns = mgr)) := by
  induction turns using List.reverseRecOn with
  | nil =>
    refine ⟨LifeCycle.refl mgr,⟨?_,?_⟩,.inr ⟨by simp,rfl⟩⟩
    · simp [hbegun.active]
    · simp [hbegun.active]
  | append_singleton turns turn ih =>
    obtain ⟨hlife,hsteady,hmatch⟩ := ih fun turn hmem => hclock turn (List.mem_append_left _ hmem)
    rw [Run.exec_append,Run.exec_cons,Run.exec_nil]
    have hnum : ∀ quest q, (Run.exec (GameEventMgr.turn c) mgr turns).questToEventConditions quest =
        some q → 0 ≤ q.num := by
      rw [hlife.quests]
      exact hbegun.num
    obtain ⟨hlife',hsteady',hkept,hupdate,hidle⟩ := turn_spec c hadd hnum
      (hclock turn (by simp)) hsteady
    refine ⟨hlife.trans hlife',hsteady',?_⟩
    rcases hmatch with hmatch | ⟨hnone,hsame⟩
    · exact .inl (hkept hmatch)
    · by_cases hturn : ∃ clock, turn = .update clock
      · exact .inl (hupdate hturn)
      · rw [not_exists] at hturn
        refine .inr ⟨fun clock hmem => ?_,?_⟩
        · rw [List.mem_append,List.mem_singleton] at hmem
          exact hmem.elim (hnone clock) (fun heq => hturn clock heq.symm)
        · rw [hidle hturn (by rw [hsame]; exact hbegun.active),hsame]

omit [Add F] [Zero F] in
theorem LifeCycle.within {mgr' : GameEventMgr F} (h : LifeCycle mgr mgr')
    (hdone : ∀ event, ∀ condition ∈ (mgr.events event).conditions.values,
      condition.done ≤ condition.reqNum) (event : Nat) :
    ∀ condition ∈ (mgr'.events event).conditions.values, condition.done ≤ condition.reqNum := by
  intro condition' hmem
  obtain ⟨key,hfind⟩ := OrderedMap.mem_values.mp hmem
  have hrel := h.conditions event key
  rw [hfind] at hrel
  cases hcondition : (mgr.events event).conditions.find? key with
  | none =>
    rw [hcondition] at hrel
    exact nomatch hrel
  | some condition =>
    rw [hcondition] at hrel
    cases hrel with
    | some hprogress =>
      exact hprogress.bounded
        (hdone event condition (OrderedMap.mem_values.mpr ⟨key,hcondition⟩))

/-- From no active event, every turn of a run takes the world events only forward, changes their
states lawfully and keeps what is done within the need; the active ones are those that are under
way as soon as there was an update, and before it nothing happens. -/
theorem worldEvents_run (c : Content) (hadd : ∀ a b : F, 0 ≤ b → a ≤ a+b) (hbegun : Begun mgr)
    (turns : List Turn) (hclock : ∀ turn ∈ turns, turn.clock.Ordered) :
    ∀ pre turn post, turns = pre ++ turn :: post →
      LifeCycle (Run.exec (GameEventMgr.turn c) mgr pre)
        (Run.exec (GameEventMgr.turn c) mgr (pre ++ [turn])) ∧
      (∀ event, ∀ condition ∈
        ((Run.exec (GameEventMgr.turn c) mgr (pre ++ [turn])).events event).conditions.values,
          condition.done ≤ condition.reqNum) ∧
      (ActiveUnderway (Run.exec (GameEventMgr.turn c) mgr (pre ++ [turn])) ∨
        ((∀ clock, Turn.update clock ∉ pre ++ [turn]) ∧
          Run.exec (GameEventMgr.turn c) mgr (pre ++ [turn]) = mgr)) := by
  rintro pre turn post rfl
  have hclock' : ∀ turn' ∈ pre ++ [turn], turn'.clock.Ordered := by
    intro turn' hmem
    refine hclock turn' ?_
    simp only [List.mem_append,List.mem_cons] at hmem ⊢
    tauto
  obtain ⟨hlife,hsteady,-⟩ := steady_run c hadd hbegun pre
    fun turn' hmem => hclock' turn' (List.mem_append_left _ hmem)
  obtain ⟨hlife',-,hmatch⟩ := steady_run c hadd hbegun (pre ++ [turn]) hclock'
  have hnum : ∀ quest q, (Run.exec (GameEventMgr.turn c) mgr pre).questToEventConditions quest =
      some q → 0 ≤ q.num := by
    rw [hlife.quests]
    exact hbegun.num
  have hturn := (turn_spec c hadd hnum (hclock' turn (by simp)) hsteady).1
  refine ⟨?_,hlife'.within hbegun.done,hmatch⟩
  rw [Run.exec_append]
  exact hturn

end Run

def plain : Content := ⟨fun _ _ => [],fun _ _ => false,fun _ _ => []⟩

/-- A world event that collects two of something, and a quest that counts for it. -/
def gathering (num : Int) : GameEventMgr Int where
  size := 2
  events _ :=
    { start := 0
      finish := 0
      nextstart := 0
      occurence := 0
      length := 0
      state := .worldConditions
      conditions := OrderedMap.empty.insert 1 ⟨2,0⟩
      prerequisiteEvents := [] }
  questToEventConditions quest := if quest = 9 then some ⟨1,1,num⟩ else none
  active := ∅
  isSystemInit := true
  grid _ := ∅
  questRelations _ := []
  changes := []

def still : Clock := ⟨0,fun _ => 0,fun _ => 0,fun _ => 0⟩

theorem ordered_still : still.Ordered := ⟨fun _ _ => le_rfl,fun _ _ _ => le_rfl⟩

theorem begun_gathering {num : Int} (h : 0 ≤ num) : Begun (gathering num) := by
  refine ⟨rfl,fun event condition hmem => ?_,fun quest q hquest => ?_⟩
  · have hvalues : ((gathering num).events event).conditions.values = [⟨2,0⟩] := rfl
    rw [hvalues,List.mem_singleton] at hmem
    subst hmem
    decide
  · unfold gathering at hquest
    dsimp only at hquest
    split_ifs at hquest
    cases hquest
    exact h

theorem worldEvents_run_gathering :
    LifeCycle (Run.exec (GameEventMgr.turn plain) (gathering 1) [.update still])
        (Run.exec (GameEventMgr.turn plain) (gathering 1)
          [.update still,.handleQuestComplete 9 0 still]) ∧
      ((Run.exec (GameEventMgr.turn plain) (gathering 1)
        [.update still,.handleQuestComplete 9 0 still]).events 1).conditions.find? 1 =
          some ⟨2,1⟩ := by
  have hclock : ∀ turn ∈ [Turn.update still,.handleQuestComplete 9 0 still],
      turn.clock.Ordered := by simp [Turn.clock,ordered_still]
  have hbegun : Begun (gathering 1) := begun_gathering (by decide)
  have hrun := worldEvents_run plain (fun _ _ h => by omega) hbegun _ hclock
    [.update still] (.handleQuestComplete 9 0 still) [] rfl
  exact ⟨hrun.1,by decide⟩

theorem progress_lost : ¬ LifeCycle
    (Run.exec (GameEventMgr.turn plain) (gathering (-1)) [.update still])
    (Run.exec (GameEventMgr.turn plain) (gathering (-1))
      [.update still,.handleQuestComplete 9 0 still]) := by
  intro hlife
  have hrel := hlife.conditions 1 1
  have hbefore : ((Run.exec (GameEventMgr.turn plain) (gathering (-1))
      [.update still]).events 1).conditions.find? 1 = some ⟨2,0⟩ := by decide
  have hafter : ((Run.exec (GameEventMgr.turn plain) (gathering (-1))
      [.update still,.handleQuestComplete 9 0 still]).events 1).conditions.find? 1 =
        some ⟨2,-1⟩ := by decide
  rw [hbefore,hafter] at hrel
  cases hrel with
  | some hprogress => exact absurd hprogress.done (by decide)

end TrinityCore.Events
