import TrinityCore.Instances.ResetChain
import TrinityCore.Lib.Run

set_option autoImplicit false

namespace TrinityCore.Instances

open InstanceSaveManager

structure Scheduled where
  time : Int
  event : InstResetEvent
  /-- The instance that the event was scheduled for. -/
  instanceId : Nat
  deriving DecidableEq

def Scheduled.entry (x : Scheduled) : Int × InstResetEvent := (x.time,x.event)

def Scheduled.of (time : Int) (type : Nat) (key : MapDifficulty) (instanceId : Nat) : Scheduled :=
  ⟨time,.mk16 type key instanceId,instanceId⟩

def Scheduled.insert (x : Scheduled) : List Scheduled → List Scheduled
  | [] => [x]
  | y :: q => if x.time < y.time then x :: y :: q else y :: insert x q

structure Schedule where
  resetTimeByMapDifficulty : MapDifficulty → Nat
  queue : List Scheduled

namespace Schedule

variable (D : MapStore) (s : Schedule)

def manager : InstanceSaveManager := ⟨s.resetTimeByMapDifficulty,s.queue.map Scheduled.entry⟩

def add (x : Scheduled) : Schedule := { s with queue := x.insert s.queue }

def isCancelled (time : Int) (event : InstResetEvent) (x : Scheduled) : Bool :=
  s.manager.resetTimeQueue.cancelled time event x.entry

def cancel (time : Int) (event : InstResetEvent) : Schedule :=
  { s with queue := s.queue.eraseP (s.isCancelled time event) }

def resetOrWarnAll (key : MapDifficulty) (warn : Bool) (resetTime : Nat) : Schedule :=
  if !D.instanceable key.1 then s
  else if warn then s
  else
    let nextReset := getSubsequentResetTime D key resetTime
    if nextReset = 0 then s
    else { s with
      resetTimeByMapDifficulty := Function.update s.resetTimeByMapDifficulty key nextReset }.add
        (.of ((nextReset : Int)-3600) 1 key 0)

def eraseBegin : Schedule := { s with queue := s.queue.tail }

def updateStep (now : Nat) : Option Schedule :=
  match s.queue with
  | [] => none
  | x :: rest =>
    if x.time ≥ now then none
    else if x.event.type = 0 then some s.eraseBegin
    else
      let resetTime := s.resetTimeByMapDifficulty x.event.key
      let s := s.resetOrWarnAll D x.event.key (x.event.type ≠ 4) resetTime
      if x.event.type ≠ 4 then
        let event := { x.event with type := x.event.type+1 }
        some (add { s with queue := { x with event := event } :: rest }
          ⟨(resetTime : Int)-resetTimeDelay (event.type-1),event,x.instanceId⟩).eraseBegin
      else some s.eraseBegin

/-- The event for which a turn of the loop resets an instance, the one whose id it has. -/
def fires (now : Nat) : Option Scheduled :=
  s.queue.head?.filter fun x => x.time < now ∧ x.event.type = 0

end Schedule

inductive ResetCall where
  | add (time : Int) (type : Nat) (key : MapDifficulty) (instanceId : Nat)
  | cancel (time : Int) (type : Nat) (key : MapDifficulty) (instanceId : Nat)
  /-- A turn of the loop of `Update`. -/
  | turn (now : Nat)

/-- The schedule and what happened: the events scheduled, the resets with their times, and the
cancelled events with the instances asked for. -/
structure History where
  schedule : Schedule
  added : List Scheduled
  resets : List (Nat × Scheduled)
  cancels : List (Nat × Scheduled)

namespace History

def start : History := ⟨⟨fun _ => 0,[]⟩,[],[],[]⟩

def step (D : MapStore) (h : History) : ResetCall → History
  | .add time type key instanceId =>
    { h with
      schedule := h.schedule.add (.of time type key instanceId)
      added := h.added ++ [.of time type key instanceId] }
  | .cancel time type key instanceId =>
    { h with
      schedule := h.schedule.cancel time (.mk16 type key instanceId)
      cancels := h.cancels ++ ((h.schedule.queue.find?
        (h.schedule.isCancelled time (.mk16 type key instanceId))).map fun x =>
          (instanceId,x)).toList }
  | .turn now =>
    { h with
      schedule := (h.schedule.updateStep D now).getD h.schedule
      resets := h.resets ++ ((h.schedule.fires now).map fun x => (now,x)).toList }

/-- The id is short, or what is to be cancelled is not mistaken for another event. -/
def Short (h : History) : ResetCall → Prop
  | .add _ _ _ instanceId => instanceId < 2^16
  | .cancel _ _ _ instanceId => instanceId < 2^16 ∨
    ∀ x ∈ h.schedule.queue, x.event.instanceId ≠ instanceId % 2^16
  | .turn _ => True

/-- Events have the ids of the instances that they were scheduled for, and hit these. -/
structure Right (h : History) : Prop where
  ids : ∀ x ∈ h.schedule.queue, x.event.instanceId = x.instanceId
  added : ∀ x ∈ h.schedule.queue, x.event.type = 0 → x ∈ h.added
  resets : ∀ r ∈ h.resets, r.2.event.instanceId = r.2.instanceId ∧ r.2.time < r.1 ∧ r.2 ∈ h.added
  cancels : ∀ c ∈ h.cancels, c.2.instanceId = c.1

end History

section Manager

variable {D : MapStore} {s : Schedule} {now : Nat}

theorem map_insert (x : Scheduled) (q : List Scheduled) : (x.insert q).map Scheduled.entry =
    ResetTimeQueue.insert x.time x.event (q.map Scheduled.entry) := by
  induction q with
  | nil => rfl
  | cons y q ih =>
    change List.map Scheduled.entry (if x.time < y.time then x :: y :: q else y :: x.insert q) =
      if x.time < y.time then _ else y.entry :: ResetTimeQueue.insert _ _ (q.map Scheduled.entry)
    split_ifs
    · rfl
    · rw [List.map_cons,ih]

theorem manager_add (x : Scheduled) :
    (s.add x).manager = s.manager.scheduleReset true x.time x.event :=
  congrArg (InstanceSaveManager.mk _) (map_insert x s.queue)

theorem manager_eraseBegin : s.eraseBegin.manager = s.manager.eraseBegin :=
  congrArg (InstanceSaveManager.mk _) List.map_tail

theorem manager_resetOrWarnAll (key : MapDifficulty) (warn : Bool) (resetTime : Nat) :
    (s.resetOrWarnAll D key warn resetTime).manager =
      s.manager.resetOrWarnAll D key warn resetTime := by
  unfold Schedule.resetOrWarnAll InstanceSaveManager.resetOrWarnAll
  dsimp only
  split_ifs
  · rfl
  · rfl
  · rfl
  · exact manager_add _

theorem manager_updateStep :
    (s.updateStep D now).map Schedule.manager = s.manager.updateStep D now := by
  obtain ⟨times,queue⟩ := s
  cases queue with
  | nil => rfl
  | cons x rest =>
    have hreset := manager_resetOrWarnAll (D := D) (s := ⟨times,x :: rest⟩) x.event.key
      (x.event.type ≠ 4) (times x.event.key)
    unfold Schedule.updateStep updateStep
    simp only [Schedule.manager,List.map_cons,Scheduled.entry] at hreset ⊢
    split_ifs
    · rfl
    · rfl
    · rw [← hreset,Option.map_some,manager_eraseBegin,manager_add]
      rfl
    · rw [← hreset,Option.map_some,manager_eraseBegin]
      rfl

def InstanceSaveManager.call (D : MapStore) (m : InstanceSaveManager) :
    ResetCall → InstanceSaveManager
  | .add time type key instanceId => m.scheduleReset true time (.mk16 type key instanceId)
  | .cancel time type key instanceId => m.scheduleReset false time (.mk16 type key instanceId)
  | .turn now => (m.updateStep D now).getD m

/-- The ids of the instances are only written beside: the code does the same without them. -/
theorem manager_run (D : MapStore) (h : History) (calls : List ResetCall) :
    (Run.exec (History.step D) h calls).schedule.manager =
      Run.exec (InstanceSaveManager.call D) h.schedule.manager calls := by
  induction calls generalizing h with
  | nil => rfl
  | cons call calls ih =>
    have hstep : (h.step D call).schedule.manager = h.schedule.manager.call D call := by
      cases call with
      | add time type key instanceId => exact manager_add _
      | cancel time type key instanceId =>
        exact congrArg (InstanceSaveManager.mk _) List.eraseP_map.symm
      | turn now =>
        change ((h.schedule.updateStep D now).getD _).manager =
          (h.schedule.manager.updateStep D now).getD _
        rw [← manager_updateStep,Option.getD_map]
    rw [Run.exec_cons,Run.exec_cons,ih,hstep]

end Manager

section Right

variable {D : MapStore} {s s' : Schedule} {h : History} {now : Nat} {x : Scheduled}

theorem mem_insertScheduled {y : Scheduled} {q : List Scheduled} :
    y ∈ x.insert q ↔ y = x ∨ y ∈ q := by
  induction q with
  | nil => exact List.mem_cons
  | cons z q ih =>
    unfold Scheduled.insert
    split_ifs
    · exact List.mem_cons
    · rw [List.mem_cons,List.mem_cons,ih,or_left_comm]

theorem mem_resetOrWarnAll {key : MapDifficulty} {warn : Bool} {resetTime : Nat}
    (hx : x ∈ (s.resetOrWarnAll D key warn resetTime).queue) :
    x ∈ s.queue ∨ (x.event.type ≠ 0 ∧ x.event.instanceId = x.instanceId) := by
  unfold Schedule.resetOrWarnAll at hx
  dsimp only at hx
  split_ifs at hx
  · exact .inl hx
  · exact .inl hx
  · exact .inl hx
  · rcases mem_insertScheduled.mp hx with rfl | hx
    · exact .inr ⟨Nat.one_ne_zero,rfl⟩
    · exact .inl hx

/-- After a turn of the loop there is no new event of a single instance, and none with a wrong id. -/
theorem mem_updateStep (hids : ∀ x ∈ s.queue, x.event.instanceId = x.instanceId)
    (hstep : s.updateStep D now = some s') (hx : x ∈ s'.queue) :
    x ∈ s.queue ∨ (x.event.type ≠ 0 ∧ x.event.instanceId = x.instanceId) := by
  unfold Schedule.updateStep at hstep
  cases hq : s.queue with
  | nil => simp [hq] at hstep
  | cons front rest =>
    have hfront : front.event.instanceId = front.instanceId := hids front (by simp [hq])
    rw [hq] at hstep
    dsimp only at hstep
    split_ifs at hstep with hlate h0 h4
    · obtain rfl := Option.some.inj hstep
      have htail := List.mem_of_mem_tail hx
      exact .inl (hq ▸ htail)
    · obtain rfl := Option.some.inj hstep
      have htail := List.mem_of_mem_tail hx
      rcases mem_insertScheduled.mp htail with rfl | hmem
      · exact .inr ⟨Nat.succ_ne_zero _,hfront⟩
      · rcases List.mem_cons.mp hmem with rfl | hmem
        · exact .inr ⟨Nat.succ_ne_zero _,hfront⟩
        · exact .inl (List.mem_cons_of_mem _ hmem)
    · obtain rfl := Option.some.inj hstep
      have htail := List.mem_of_mem_tail hx
      rw [← hq]
      exact mem_resetOrWarnAll htail

theorem right_start : History.start.Right :=
  ⟨by simp [History.start],by simp [History.start],by simp [History.start],by simp [History.start]⟩

theorem Right.add (hr : h.Right) {time : Int} {type : Nat} {key : MapDifficulty} {instanceId : Nat}
    (hshort : instanceId < 2^16) : (h.step D (.add time type key instanceId)).Right where
  ids := by
    intro x hx
    rcases mem_insertScheduled.mp hx with rfl | hx
    · exact Nat.mod_eq_of_lt hshort
    · exact hr.ids x hx
  added := by
    intro x hx h0
    rcases mem_insertScheduled.mp hx with rfl | hx
    · exact List.mem_append_right _ (List.mem_singleton.mpr rfl)
    · exact List.mem_append_left _ (hr.added x hx h0)
  resets := fun r hmem => (hr.resets r hmem).imp_right fun hrest =>
    hrest.imp_right (List.mem_append_left _)
  cancels := hr.cancels

theorem Right.cancel (hr : h.Right) {time : Int} {type : Nat} {key : MapDifficulty}
    {instanceId : Nat} (hshort : h.Short (.cancel time type key instanceId)) :
    (h.step D (.cancel time type key instanceId)).Right where
  ids := fun x hx => hr.ids x (List.mem_of_mem_eraseP hx)
  added := fun x hx => hr.added x (List.mem_of_mem_eraseP hx)
  resets := hr.resets
  cancels := by
    intro c hc
    rcases List.mem_append.mp hc with hc | hc
    · exact hr.cancels c hc
    · obtain ⟨x,hfound,rfl⟩ := Option.map_eq_some_iff.mp (Option.mem_toList.mp hc)
      have hmem := List.mem_of_find?_eq_some hfound
      have hsame : x.event.instanceId = instanceId % 2^16 := by
        have htrue := List.find?_some hfound
        unfold Schedule.isCancelled ResetTimeQueue.cancelled at htrue
        have hequal : x.event.same (.mk16 type key instanceId) = true := by
          split_ifs at htrue
          · exact (Bool.and_eq_true_iff.mp htrue).2
          · exact htrue
        exact beq_iff_eq.mp hequal
      rcases hshort with hlt | hnone
      · rw [Nat.mod_eq_of_lt hlt,hr.ids x hmem] at hsame
        exact hsame
      · exact absurd hsame (hnone x hmem)

theorem Right.turn (hr : h.Right) (now : Nat) : (h.step D (.turn now)).Right := by
  have hkept : ∀ x ∈ ((h.schedule.updateStep D now).getD h.schedule).queue,
      x ∈ h.schedule.queue ∨ (x.event.type ≠ 0 ∧ x.event.instanceId = x.instanceId) := by
    intro x hx
    cases hstep : h.schedule.updateStep D now with
    | none =>
      rw [hstep] at hx
      exact .inl hx
    | some s' =>
      rw [hstep] at hx
      exact mem_updateStep hr.ids hstep hx
  refine ⟨fun x hx => ?_,fun x hx h0 => ?_,fun r hmem => ?_,hr.cancels⟩
  · exact (hkept x hx).elim (hr.ids x) And.right
  · exact hr.added x ((hkept x hx).resolve_right fun hno => hno.1 h0) h0
  · rcases List.mem_append.mp hmem with hmem | hmem
    · exact hr.resets r hmem
    · obtain ⟨x,hfires,rfl⟩ := Option.map_eq_some_iff.mp (Option.mem_toList.mp hmem)
      obtain ⟨hhead,hdue⟩ := Option.filter_eq_some_iff.mp hfires
      have hqueue := List.mem_of_head? hhead
      obtain ⟨hlt,h0⟩ := of_decide_eq_true hdue
      exact ⟨hr.ids x hqueue,hlt,hr.added x hqueue h0⟩

/-- Resets and cancellations hit the right instances in every run in which the ids are short. -/
theorem resets_right (D : MapStore) (calls : List ResetCall)
    (hshort : Run.Guarded (History.step D) History.Short History.start calls) :
    (Run.exec (History.step D) History.start calls).Right := by
  refine hshort.inv (fun h call hr hcall => ?_) right_start
  cases call with
  | add time type key instanceId => exact Right.add hr hcall
  | cancel time type key instanceId => exact Right.cancel hr hcall
  | turn now => exact Right.turn hr now

end Right

section Example

/-- Two instances of a dungeon. The second has an id that is not short. -/
def twoInstances : List ResetCall :=
  [.add 10000 0 (36,0) 1,.add 100 0 (36,0) 65537,.turn 200]

/-- The first instance is reset at 200, though its own time is 10000. -/
theorem other_instance_reset :
    (Run.exec (History.step twoRaids) History.start twoInstances).resets.map
        (fun r => (r.1,r.2.event.instanceId,r.2.instanceId)) = [(200,1,65537)] ∧
      ¬ (Run.exec (History.step twoRaids) History.start twoInstances).Right := by
  refine ⟨by decide,fun hright => ?_⟩
  have hreset := (hright.resets (200,Scheduled.of 100 0 (36,0) 65537) (by decide)).1
  exact absurd hreset (by decide)

def oneInstance : List ResetCall := [.add 100 0 (36,0) 1,.cancel 50 0 (36,0) 2,.turn 200]

theorem oneInstance_right :
    (Run.exec (History.step twoRaids) History.start oneInstance).Right :=
  resets_right twoRaids oneInstance ⟨show (1 : Nat) < 2^16 by decide,.inl (by decide),trivial,trivial⟩

end Example

end TrinityCore.Instances
