import TrinityCore.Lib.OrderedMap
import TrinityCore.Lib.Run

set_option autoImplicit false

namespace TrinityCore.Events

inductive GameEventState where
  | normal
  | worldInactive
  | worldConditions
  | worldNextphase
  | worldFinished
  | internal
  deriving DecidableEq

inductive Kind where
  | creature
  | gameObject
  deriving DecidableEq

/-- What the tables list for the events: the spawns by the signed event, the quests by the event,
as pairs of the giver and the quest. -/
structure Content where
  guids : Kind → Int → List Nat
  hasData : Kind → Nat → Bool
  quests : Kind → Nat → List (Nat × Nat)

/-- The numbers are floats: all that matters of them is their order and their addition. -/
structure GameEventFinishCondition (F : Type) where
  reqNum : F
  done : F
  deriving DecidableEq

structure GameEventData (F : Type) where
  start : Int
  finish : Int
  nextstart : Nat
  occurence : Nat
  length : Nat
  state : GameEventState
  conditions : OrderedMap Nat (GameEventFinishCondition F)
  prerequisiteEvents : List Nat

structure Change (F : Type) where
  event : Nat
  new : GameEventState
  before : Nat → GameEventData F
  time : Nat

structure QuestToEventCondition (F : Type) where
  eventId : Nat
  condition : Nat
  num : F

structure GameEventMgr (F : Type) where
  /-- `mGameEvent.size()`: the events are numbered from 1. -/
  size : Nat
  events : Nat → GameEventData F
  questToEventConditions : Nat → Option (QuestToEventCondition F)
  active : Finset Nat
  isSystemInit : Bool
  grid : Kind → Finset Nat
  questRelations : Kind → List (Nat × Nat)
  /-- The states that were assigned, in order. -/
  changes : List (Change F)

def seconds (minutes : Nat) : Nat := minutes*60%2^32

namespace Content

variable (c : Content) (active : Finset Nat) (kind : Kind)

def hasActiveEventExcept (guid : Nat) (event : Int) : Bool :=
  decide (∃ e ∈ active, (e : Int) ≠ event ∧ guid ∈ c.guids kind e)

def hasQuestActiveEventExcept (quest event : Nat) : Bool :=
  decide (∃ e ∈ active, e ≠ event ∧ quest ∈ (c.quests kind e).map Prod.snd)

def spawn (event : Int) (grid : Finset Nat) : Finset Nat :=
  (c.guids kind event).foldl
    (fun grid guid => if c.hasData kind guid then insert guid grid else grid) grid

/-- `GameEventUnspawn`, for one kind: only what a positive event spawned can be needed by another
one. -/
def unspawn (event : Int) (grid : Finset Nat) : Finset Nat :=
  (c.guids kind event).foldl (fun grid guid =>
    if decide (event > 0) && c.hasActiveEventExcept active kind guid event then grid
    else if c.hasData kind guid then grid.erase guid
    else grid) grid

def updateEventQuests (event : Nat) (activate : Bool) (relations : List (Nat × Nat)) :
    List (Nat × Nat) :=
  (c.quests kind event).foldl (fun relations relation =>
    if activate then relations ++ [relation]
    else if c.hasQuestActiveEventExcept active kind relation.2 event then relations
    else relations.erase relation) relations

end Content

namespace GameEventMgr

variable {F : Type} (c : Content) (mgr : GameEventMgr F)

def gameEventSpawn (event : Int) : GameEventMgr F :=
  { mgr with grid := fun kind => c.spawn kind event (mgr.grid kind) }

def gameEventUnspawn (event : Int) : GameEventMgr F :=
  { mgr with grid := fun kind => c.unspawn mgr.active kind event (mgr.grid kind) }

def updateEventQuests (event : Nat) (activate : Bool) : GameEventMgr F :=
  { mgr with questRelations := fun kind =>
      c.updateEventQuests mgr.active kind event activate (mgr.questRelations kind) }

def applyNewEvent (event : Nat) : GameEventMgr F :=
  ((mgr.gameEventSpawn c event).gameEventUnspawn c (-event)).updateEventQuests c event true

def unApplyEvent (event : Nat) : GameEventMgr F :=
  ((mgr.gameEventUnspawn c event).gameEventSpawn c (-event)).updateEventQuests c event false

def addActiveEvent (event : Nat) : GameEventMgr F := { mgr with active := insert event mgr.active }

def removeActiveEvent (event : Nat) : GameEventMgr F := { mgr with active := mgr.active.erase event }

def setEvent (event : Nat) (data : GameEventData F) : GameEventMgr F :=
  { mgr with events := Function.update mgr.events event data }

def setState (event : Nat) (state : GameEventState) (time : Nat) : GameEventMgr F :=
  { mgr.setEvent event { mgr.events event with state := state } with
    changes := mgr.changes ++ [⟨event,state,mgr.events,time⟩] }

def isServerwide (event : Nat) : Bool :=
  (mgr.events event).state ≠ .normal && (mgr.events event).state ≠ .internal

end GameEventMgr

section Conditions

variable {F : Type} [LinearOrder F]

def GameEventFinishCondition.met (condition : GameEventFinishCondition F) : Bool :=
  decide (¬ condition.done < condition.reqNum)

/-- When the parts of an update look at the clock: at its start, for the check of an event, for
the check of its conditions and for its start. -/
structure Clock where
  now : Nat
  check : Nat → Nat
  conditions : Nat → Nat
  start : Nat → Nat

namespace GameEventMgr

variable (c : Content) (mgr : GameEventMgr F)

def checkOneGameEventConditions (event time : Nat) : GameEventMgr F × Bool :=
  if (mgr.events event).conditions.values.all GameEventFinishCondition.met then
    let mgr := mgr.setState event .worldNextphase time
    if (mgr.events event).nextstart = 0 then
      (mgr.setEvent event { mgr.events event with
        nextstart := time+seconds (mgr.events event).length },true)
    else (mgr,true)
  else (mgr,false)

/-- `StartEvent`, and whether the conditions of a world event are met: the update that an
overwriting start then forces is a run of its own. -/
def startEvent (event : Nat) (overwrite : Bool) (time : Nat) : GameEventMgr F × Bool :=
  if mgr.isServerwide event then
    let mgr := if (mgr.events event).state = .worldInactive then
      mgr.setState event .worldConditions time else mgr
    ((mgr.addActiveEvent event).applyNewEvent c event).checkOneGameEventConditions event time
  else
    let mgr := (mgr.addActiveEvent event).applyNewEvent c event
    let data := mgr.events event
    (if overwrite then mgr.setEvent event { data with
      start := time
      finish := if data.finish ≤ time then time+data.length else data.finish } else mgr,false)

def stopEvent [Zero F] (event : Nat) (overwrite : Bool) (time : Nat) : GameEventMgr F :=
  let serverwide := mgr.isServerwide event
  let mgr := (mgr.removeActiveEvent event).unApplyEvent c event
  let data := mgr.events event
  if overwrite && !serverwide then
    let start : Int := time-seconds data.length
    mgr.setEvent event { data with
      start := start
      finish := if data.finish ≤ start then start+data.length else data.finish }
  else if serverwide then
    if overwrite ∨ data.state ≠ .worldFinished then
      let mgr := mgr.setState event .worldInactive time
      mgr.setEvent event { mgr.events event with
        nextstart := 0
        conditions := data.conditions.map fun _ condition => { condition with done := 0 } }
    else mgr
  else mgr

def checkOneGameEvent (entry time : Nat) : Bool :=
  let data := mgr.events entry
  match data.state with
  | .normal => decide (data.start < time ∧ time < data.finish ∧
      ((time : Int)-data.start)%seconds data.occurence < seconds data.length)
  | .worldConditions => true
  | .worldNextphase => true
  | .worldFinished => false
  | .internal => false
  | .worldInactive =>
    data.prerequisiteEvents.all (fun p =>
      decide (((mgr.events p).state = .worldNextphase ∨ (mgr.events p).state = .worldFinished) ∧
        (mgr.events p).nextstart ≤ time)) && !data.prerequisiteEvents.isEmpty

end GameEventMgr

/-- An update that is under way: the events to activate and to deactivate. -/
structure Round (F : Type) where
  mgr : GameEventMgr F
  activate : List Nat
  deactivate : List Nat

def Round.check (c : Content) (clock : Clock) (r : Round F) (event : Nat) : Round F :=
  if r.mgr.checkOneGameEvent event (clock.check event) then
    if (r.mgr.events event).state = .worldNextphase ∧ (r.mgr.events event).nextstart ≤ clock.now then
      let mgr := r.mgr.setState event .worldFinished clock.now
      let mgr := mgr.setEvent event { mgr.events event with nextstart := 0 }
      if event ∈ mgr.active then ⟨mgr,r.activate,r.deactivate ++ [event]⟩
      else { r with mgr := mgr }
    else
      let mgr := if (r.mgr.events event).state = .worldConditions then
        (r.mgr.checkOneGameEventConditions event (clock.conditions event)).1 else r.mgr
      if event ∈ mgr.active then { r with mgr := mgr }
      else ⟨mgr,r.activate ++ [event],r.deactivate⟩
  else if event ∈ r.mgr.active then { r with deactivate := r.deactivate ++ [event] }
  else if r.mgr.isSystemInit then r
  else { r with mgr := r.mgr.gameEventSpawn c (-event) }

namespace GameEventMgr

variable (c : Content) (mgr : GameEventMgr F)

def update [Zero F] (clock : Clock) : GameEventMgr F :=
  let r := (List.range' 1 (mgr.size-1)).foldl (Round.check c clock) ⟨mgr,[],[]⟩
  let mgr := r.activate.foldl (fun mgr event => (mgr.startEvent c event false (clock.start event)).1) r.mgr
  r.deactivate.foldl (fun mgr event => mgr.stopEvent c event false clock.now) mgr

/-- The quest counts for a condition, and an update follows if all conditions are met. -/
def handleQuestComplete [Add F] [Zero F] (quest time : Nat) (clock : Clock) : GameEventMgr F :=
  match mgr.questToEventConditions quest with
  | none => mgr
  | some q =>
    if q.eventId ∉ mgr.active then mgr
    else if (mgr.events q.eventId).state ≠ .worldConditions then mgr
    else
      match (mgr.events q.eventId).conditions.find? q.condition with
      | none => mgr
      | some condition =>
        if condition.done < condition.reqNum then
          let done := condition.done+q.num
          let done := if done > condition.reqNum then condition.reqNum else done
          let data := mgr.events q.eventId
          let mgr := mgr.setEvent q.eventId { data with
            conditions := data.conditions.insert q.condition { condition with done := done } }
          let checked := mgr.checkOneGameEventConditions q.eventId time
          if checked.2 then checked.1.update c clock else checked.1
        else mgr

end GameEventMgr

inductive Call where
  | startEvent (event : ℕ+) (overwrite : Bool) (time : Nat)
  | stopEvent (event : ℕ+) (overwrite : Bool) (time : Nat)

def GameEventMgr.call [Zero F] (c : Content) (mgr : GameEventMgr F) : Call → GameEventMgr F
  | .startEvent event overwrite time => (mgr.startEvent c event overwrite time).1
  | .stopEvent event overwrite time => mgr.stopEvent c event overwrite time

/-- What a life cycle leaves: the active events, the spawns and the quests. -/
structure GameEventMgr.SameWorld (mgr mgr' : GameEventMgr F) : Prop where
  active : mgr'.active = mgr.active
  grid : mgr'.grid = mgr.grid
  questRelations : mgr'.questRelations = mgr.questRelations

variable {mgr mgr' : GameEventMgr F}

omit [LinearOrder F] in
theorem sameWorld_apply (c : Content) (event : Nat) (h : mgr.SameWorld mgr') :
    ((mgr.addActiveEvent event).applyNewEvent c event).SameWorld
      ((mgr'.addActiveEvent event).applyNewEvent c event) := by
  obtain ⟨hactive,hgrid,hquests⟩ := h
  constructor
  · exact congrArg (insert event) hactive
  · funext kind
    change c.unspawn (insert event mgr'.active) kind (-event) (c.spawn kind event (mgr'.grid kind))
      = c.unspawn (insert event mgr.active) kind (-event) (c.spawn kind event (mgr.grid kind))
    rw [hactive,hgrid]
  · funext kind
    change c.updateEventQuests (insert event mgr'.active) kind event true (mgr'.questRelations kind)
      = c.updateEventQuests (insert event mgr.active) kind event true (mgr.questRelations kind)
    rw [hactive,hquests]

theorem sameWorld_conditions (mgr : GameEventMgr F) (event time : Nat) :
    mgr.SameWorld (mgr.checkOneGameEventConditions event time).1 := by
  unfold GameEventMgr.checkOneGameEventConditions
  dsimp only
  split_ifs <;> exact ⟨rfl,rfl,rfl⟩

theorem sameWorld_startEvent (c : Content) (mgr : GameEventMgr F) (event : Nat) (overwrite : Bool)
    (time : Nat) : ((mgr.addActiveEvent event).applyNewEvent c event).SameWorld
      (mgr.startEvent c event overwrite time).1 := by
  unfold GameEventMgr.startEvent
  by_cases hworld : mgr.isServerwide event
  · rw [if_pos hworld]
    dsimp only
    obtain ⟨mgr',hmgr',hsame⟩ : ∃ mgr', mgr' = (if (mgr.events event).state = .worldInactive then
        mgr.setState event .worldConditions time else mgr) ∧ mgr.SameWorld mgr' := by
      refine ⟨_,rfl,?_⟩
      split_ifs <;> exact ⟨rfl,rfl,rfl⟩
    rw [← hmgr']
    obtain ⟨hactive,hgrid,hquests⟩ := sameWorld_apply c event hsame
    obtain ⟨hactive',hgrid',hquests'⟩ := sameWorld_conditions
      ((mgr'.addActiveEvent event).applyNewEvent c event) event time
    exact ⟨hactive'.trans hactive,hgrid'.trans hgrid,hquests'.trans hquests⟩
  · rw [if_neg hworld]
    dsimp only
    split_ifs <;> exact ⟨rfl,rfl,rfl⟩

omit [LinearOrder F] in
theorem sameWorld_stopEvent [Zero F] (c : Content) (mgr : GameEventMgr F) (event : Nat)
    (overwrite : Bool) (time : Nat) : ((mgr.removeActiveEvent event).unApplyEvent c event).SameWorld
      (mgr.stopEvent c event overwrite time) := by
  unfold GameEventMgr.stopEvent
  dsimp only
  split_ifs <;> exact ⟨rfl,rfl,rfl⟩

end Conditions

/-- Two events, not of the world and not active. -/
def quietEvents : GameEventMgr Int where
  size := 3
  events _ :=
    { start := 0
      finish := 0
      nextstart := 0
      occurence := 0
      length := 0
      state := .normal
      conditions := OrderedMap.empty
      prerequisiteEvents := [] }
  questToEventConditions _ := none
  active := ∅
  isSystemInit := true
  grid _ := ∅
  questRelations _ := []
  changes := []

end TrinityCore.Events
