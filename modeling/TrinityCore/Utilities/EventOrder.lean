import TrinityCore.Utilities.EventOwnership

set_option autoImplicit false

namespace TrinityCore.Utilities

open EventProcessor

inductive Change (s : EventProcessor) (action : Action) (s' : EventProcessor) : Prop
  | drop (sub : s'.events.Sublist s.events) (taken : s'.taken = s.taken)
      (executed : s'.executed = s.executed) (kills : s'.kills = s.kills)
  | killed (force : Bool) (sub : s'.events.Sublist s.events) (taken : s'.taken = s.taken)
      (executed : s'.executed = s.executed) (kills : s'.kills = s.kills ++ [⟨force,s'.events⟩])
      (empty : force = true → s'.events = [])
  | add (event time : Nat) (action : action = .addEvent event time)
      (events : s'.events = TimedQueue.insert Node.time ⟨s.nodes,time,event⟩ s.events)
      (taken : s'.taken = s.taken) (executed : s'.executed = s.executed)
      (kills : s'.kills = s.kills)
  | take (node : Node) (events : s.events = node :: s'.events)
      (taken : s'.taken = s.taken ++ [⟨node.time,s'.events.map Node.time⟩])
      (executed : s'.executed = s.executed)
      (kills : s'.kills = s.kills)
  | execute (node : Node) (events : s.events = node :: s'.events)
      (taken : s'.taken = s.taken ++ [⟨node.time,s'.events.map Node.time⟩])
      (due : node.time ≤ s.time) (kept : node.event ∉ s.toAbort)
      (executed : s'.executed = s.executed ++
        [⟨node.event,node.time,s.time,decide (node.event ∈ s.toAbort)⟩])
      (kills : s'.kills = s.kills)

section Changes

variable {s : EventProcessor} {action : Action}

theorem change_rfl : Change s action s := .drop (.refl _) rfl rfl rfl

theorem change_delete (event : Nat) (rest : List Frame) :
    Change s action ({ s with stack := rest }.delete event) := by
  unfold delete
  split_ifs <;> exact .drop (.refl _) rfl rfl rfl

theorem change_updateTurn (rest : List Frame) : Change s action (s.updateTurn rest) := by
  unfold updateTurn
  cases hevents : s.events with
  | nil => exact .drop (by rw [hevents]) rfl rfl rfl
  | cons node events =>
    dsimp only
    split_ifs with hdue hdeleted habort
    · exact .take node hevents rfl rfl rfl
    · exact .take node hevents rfl rfl rfl
    · exact .execute node hevents rfl hdue habort rfl rfl
    · exact .drop (by rw [hevents]) rfl rfl rfl

theorem change_killTurn (force : Bool) (i : Option Nat) (rest : List Frame) :
    Change s action (s.killTurn force i rest) := by
  unfold killTurn
  cases i with
  | none =>
    cases force with
    | true => exact .killed true (List.nil_sublist _) rfl rfl rfl fun _ => rfl
    | false => exact .killed false (.refl _) rfl rfl rfl (by simp)
  | some id =>
    dsimp only
    split
    · exact .drop (.refl _) rfl rfl rfl
    · split_ifs <;> exact .drop (.refl _) rfl rfl rfl

theorem change_killAborted (force : Bool) (iOld : Node) (i : Option Nat) (deletable : Bool)
    (rest : List Frame) : Change s action (s.killAborted force iOld i deletable rest) := by
  have hsub : (if force then s.events else s.events.filter fun node => node ≠ iOld).Sublist
      s.events := by
    split_ifs
    · exact .refl _
    · exact List.filter_sublist
  unfold killAborted
  by_cases hgone : iOld ∈ s.events
  · rw [if_neg (not_not.mpr hgone)]
    by_cases hdeleted : iOld.event ∈ s.deleted
    · rw [if_pos hdeleted]
      exact .drop (.refl _) rfl rfl rfl
    · rw [if_neg hdeleted]
      by_cases hdelete : (force || deletable) = true
      · rw [if_pos hdelete]
        exact .drop hsub rfl rfl rfl
      · rw [if_neg hdelete]
        exact .drop (.refl _) rfl rfl rfl
  · rw [if_pos hgone]
    exact .drop (.refl _) rfl rfl rfl

theorem change_addEvent (event time : Nat) :
    Change s (.addEvent event time) (s.addEvent event time) := by
  unfold addEvent
  split_ifs
  · exact .drop (.refl _) rfl rfl rfl
  · exact .add event time rfl rfl rfl rfl rfl

theorem change_setToAbort (event : Nat) : Change s action (s.setToAbort event) := by
  unfold setToAbort
  split_ifs <;> exact .drop (.refl _) rfl rfl rfl

end Changes

theorem step_change (s : EventProcessor) (action : Action) : Change s action (s.step action) := by
  unfold step
  by_cases hfault : s.fault = true
  · rw [if_pos hfault]
    exact change_rfl
  · rw [if_neg hfault]
    cases action with
    | addEvent event time =>
      dsimp only
      split_ifs
      · exact change_addEvent event time
      · exact change_rfl
    | setToAbort event =>
      dsimp only
      split_ifs
      · exact change_setToAbort event
      · exact change_rfl
    | killAllEvents force =>
      dsimp only
      split_ifs
      · exact .drop (.refl _) rfl rfl rfl
      · exact change_rfl
    | update time =>
      dsimp only
      split_ifs
      · exact .drop (.refl _) rfl rfl rfl
      · exact change_rfl
    | finish result =>
      dsimp only
      split
      · split_ifs
        · exact change_delete _ _
        · exact .drop (.refl _) rfl rfl rfl
      · exact change_delete _ _
      · exact change_killAborted _ _ _ _ _
      · exact change_rfl
    | proceed =>
      dsimp only
      split
      · exact change_updateTurn _
      · exact change_killTurn _ _ _
      · exact change_rfl

structure Recorded (s : EventProcessor) : Prop where
  sorted : TimedQueue.Sorted Node.time s.events
  taken : ∀ taken ∈ s.taken, ∀ time ∈ taken.left, taken.time ≤ time
  executed : ∀ execution ∈ s.executed,
    execution.time ≤ execution.now ∧ execution.toAbort = false
  kills : ∀ kill ∈ s.kills, kill.force = true → kill.left = []

theorem recorded_take {events : List Node} {node : Node} {log : List Taken}
    (hsorted : TimedQueue.Sorted Node.time (node :: events))
    (hlog : ∀ taken ∈ log, ∀ time ∈ taken.left, taken.time ≤ time) :
    ∀ taken ∈ log ++ [⟨node.time,events.map Node.time⟩], ∀ time ∈ taken.left,
      taken.time ≤ time := by
  intro taken hmem time htime
  rcases List.mem_append.mp hmem with hmem | hmem
  · exact hlog taken hmem time htime
  · rw [List.mem_singleton] at hmem
    subst hmem
    obtain ⟨node',hnode,rfl⟩ := List.mem_map.mp htime
    exact (List.pairwise_cons.mp hsorted).1 node' hnode

theorem recorded_step (s : EventProcessor) (action : Action) (h : Recorded s) :
    Recorded (s.step action) := by
  cases step_change s action with
  | drop sub taken executed kills =>
    exact ⟨h.sorted.sublist sub,by rw [taken]; exact h.taken,by rw [executed]; exact h.executed,
      by rw [kills]; exact h.kills⟩
  | killed force sub taken executed kills empty =>
    refine ⟨h.sorted.sublist sub,by rw [taken]; exact h.taken,by rw [executed]; exact h.executed,
      ?_⟩
    intro kill hmem hforce
    rw [kills] at hmem
    rcases List.mem_append.mp hmem with hmem | hmem
    · exact h.kills kill hmem hforce
    · rw [List.mem_singleton] at hmem
      subst hmem
      exact empty hforce
  | add event time action events taken executed kills =>
    exact ⟨by rw [events]; exact TimedQueue.sorted_insert h.sorted,by rw [taken]; exact h.taken,
      by rw [executed]; exact h.executed,by rw [kills]; exact h.kills⟩
  | take node events taken executed kills =>
    have hsorted := h.sorted
    rw [events] at hsorted
    exact ⟨(List.pairwise_cons.mp hsorted).2,by rw [taken]; exact recorded_take hsorted h.taken,
      by rw [executed]; exact h.executed,by rw [kills]; exact h.kills⟩
  | execute node events taken due kept executed kills =>
    have hsorted := h.sorted
    rw [events] at hsorted
    refine ⟨(List.pairwise_cons.mp hsorted).2,by rw [taken]; exact recorded_take hsorted h.taken,
      ?_,by rw [kills]; exact h.kills⟩
    intro execution hmem
    rw [executed] at hmem
    rcases List.mem_append.mp hmem with hmem | hmem
    · exact h.executed execution hmem
    · rw [List.mem_singleton] at hmem
      subst hmem
      exact ⟨due,decide_eq_false kept⟩

theorem recorded_new : Recorded .new :=
  ⟨List.Pairwise.nil,by simp [new],by simp [new],by simp [new]⟩

/-- The times of what was taken, none of which is after that of an event in the queue. -/
structure Ordered (s : EventProcessor) : Prop where
  sorted : TimedQueue.Sorted Node.time s.events
  times : (s.taken.map Taken.time).Pairwise (· ≤ ·)
  later : ∀ taken ∈ s.taken, ∀ node ∈ s.events, taken.time ≤ node.time

theorem ordered_take {s s' : EventProcessor} {node : Node} (h : Ordered s)
    (events : s.events = node :: s'.events)
    (taken : s'.taken = s.taken ++ [⟨node.time,s'.events.map Node.time⟩]) : Ordered s' := by
  have hsorted := h.sorted
  rw [events] at hsorted
  obtain ⟨hfirst,hsorted⟩ := List.pairwise_cons.mp hsorted
  refine ⟨hsorted,?_,?_⟩
  · rw [taken,List.map_append,List.pairwise_append]
    refine ⟨h.times,List.pairwise_singleton _ _,?_⟩
    intro time htime time' htime'
    obtain ⟨taken',hmem,rfl⟩ := List.mem_map.mp htime
    obtain rfl : time' = node.time := by simpa using htime'
    exact h.later taken' hmem node (by rw [events]; exact List.mem_cons_self)
  · intro taken' hmem node' hnode
    rw [taken] at hmem
    rcases List.mem_append.mp hmem with hmem | hmem
    · exact h.later taken' hmem node' (by rw [events]; exact List.mem_cons_of_mem node hnode)
    · rw [List.mem_singleton] at hmem
      subst hmem
      exact hfirst node' hnode

theorem ordered_step (s : EventProcessor) (action : Action) (h : Ordered s)
    (htimely : s.Timely action) : Ordered (s.step action) := by
  have hdrop : (s.step action).events.Sublist s.events → (s.step action).taken = s.taken →
      Ordered (s.step action) := fun sub taken =>
    ⟨h.sorted.sublist sub,by rw [taken]; exact h.times,fun taken' hmem node hnode =>
      h.later taken' (by rwa [taken] at hmem) node (sub.subset hnode)⟩
  cases step_change s action with
  | drop sub taken executed kills => exact hdrop sub taken
  | killed force sub taken executed kills empty => exact hdrop sub taken
  | add event time action events taken executed kills =>
    subst action
    refine ⟨by rw [events]; exact TimedQueue.sorted_insert h.sorted,by rw [taken]; exact h.times,?_⟩
    intro taken' hmem node hnode
    rw [taken] at hmem
    rw [events] at hnode
    rcases TimedQueue.mem_insert.mp hnode with rfl | hnode
    · exact htimely taken' hmem
    · exact h.later taken' hmem node hnode
  | take node events taken executed kills => exact ordered_take h events taken
  | execute node events taken due kept executed kills => exact ordered_take h events taken

theorem ordered_new : Ordered .new := ⟨List.Pairwise.nil,List.Pairwise.nil,by simp [new]⟩

/-- Over a run of calls by owners of their events, no event is deleted twice or used once it was
deleted, and each is executed when it is due and not marked. A forced kill leaves no event, and an
update takes the earliest, in the order of the times unless one is added too late. -/
theorem eventProcessor_run {actions : List Action}
    (hallowed : Run.Guarded step Allowed new actions) :
    (Run.exec step new actions).fault = false ∧ (Run.exec step new actions).deleted.Nodup ∧
      (∀ execution ∈ (Run.exec step new actions).executed,
        execution.time ≤ execution.now ∧ execution.toAbort = false) ∧
      (∀ kill ∈ (Run.exec step new actions).kills, kill.force = true → kill.left = []) ∧
      (∀ taken ∈ (Run.exec step new actions).taken, ∀ time ∈ taken.left, taken.time ≤ time) ∧
      (Run.Guarded step Timely new actions →
        ((Run.exec step new actions).taken.map Taken.time).Pairwise (· ≤ ·)) := by
  have hsound : Sound (Run.exec step new actions) := hallowed.inv sound_step sound_new
  have hrecorded : Recorded (Run.exec step new actions) :=
    Run.exec_inv recorded_step new actions recorded_new
  refine ⟨hsound.fault,hsound.deleted,hrecorded.executed,hrecorded.kills,hrecorded.taken,?_⟩
  intro htimely
  have hordered : Ordered (Run.exec step new actions) := htimely.inv ordered_step ordered_new
  exact hordered.times

/-- An event is executed while another one is marked, and a kill aborts what is left. -/
def executedOnce : List Action :=
  [.addEvent 0 5,.addEvent 1 5,.addEvent 2 50,.setToAbort 1,.update 10,.proceed,.finish true,
    .proceed,.finish true,.proceed,.killAllEvents true,.proceed,.finish true,.proceed]

theorem eventProcessor_run_once :
    (Run.exec step new executedOnce).deleted = [0,1,2] ∧
      ((Run.exec step new executedOnce).taken.map Taken.time).Pairwise (· ≤ ·) := by
  have hallowed : Run.Guarded step Allowed new executedOnce := by decide
  have htimely : Run.Guarded step Timely new executedOnce := by decide
  exact ⟨by decide,(eventProcessor_run hallowed).2.2.2.2.2 htimely⟩

/-- The event that a forced kill aborts kills in turn, and is gone when the first kill goes on. -/
def killedTwice : List Action :=
  [.addEvent 0 5,.killAllEvents true,.proceed,.killAllEvents true,.proceed,.finish true,.proceed,
    .finish true]

def addedLate : List Action :=
  [.addEvent 0 5,.update 10,.proceed,.addEvent 1 3,.finish true,.proceed]

theorem used_after_kill :
    (Run.exec step new killedTwice).fault = true ∧
      (Run.exec step new addedLate).taken.map Taken.time = [5,3] := by decide

end TrinityCore.Utilities
