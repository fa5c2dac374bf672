import TrinityCore.Utilities.EventMap

set_option autoImplicit false

namespace TrinityCore.Utilities

variable {map map' : EventMap} {delay group : Nat} {calls : List Call}

def Call.Passes : Call → Prop
  | .update _ => True
  | .executeEvent => True
  | _ => False

def elapsed (calls : List Call) : Nat :=
  (calls.map fun
    | .update time => time
    | _ => 0).sum

def EventMap.AllIn (map : EventMap) (group : Nat) : Prop :=
  ∀ e ∈ map.eventMap, e.2 &&& 1 <<< (group+15) ≠ 0

def later (delay : Nat) (e : Nat × Nat) : Nat × Nat := (e.1+delay,e.2)

structure Ahead (delay : Nat) (map map' : EventMap) : Prop where
  time : map'.time = map.time+delay
  phase : map'.phase = map.phase
  eventMap : map'.eventMap = map.eventMap.map (later delay)

theorem delayEventsGroup_eq (hgroup : 1 ≤ group) (hle : group ≤ 8)
    (hsorted : TimedQueue.Sorted Prod.fst map.eventMap) (hall : map.AllIn group)
    (hfits : ∀ e ∈ map.eventMap, e.1+delay < 2^32) :
    map.delayEventsGroup delay group =
      { map with eventMap := map.eventMap.map (later delay) } := by
  unfold EventMap.delayEventsGroup
  split_ifs with hnone
  · have hempty : map.eventMap = [] := by
      rcases hnone with h | h | h
      · omega
      · omega
      · exact h
    rw [hempty]
    exact congrArg (fun l => { map with eventMap := l }) hempty
  · have hmoved : map.eventMap.filter (fun e => e.2 &&& 1 <<< (group+15) ≠ 0) = map.eventMap :=
      List.filter_eq_self.mpr fun e he => decide_eq_true (hall e he)
    have hkept : map.eventMap.filter (fun e => e.2 &&& 1 <<< (group+15) = 0) = [] :=
      List.filter_eq_nil_iff.mpr fun e he => by simpa using hall e he
    have hlater : map.eventMap.map (fun e => (add32 e.1 delay,e.2)) =
        map.eventMap.map (later delay) := by
      refine List.map_congr_left fun e he => ?_
      unfold add32 later
      rw [Nat.mod_eq_of_lt (hfits e he)]
    have hordered : TimedQueue.Sorted Prod.fst (map.eventMap.map (later delay)) := by
      refine List.pairwise_map.mpr (hsorted.imp fun hle => ?_)
      exact Nat.add_le_add_right hle delay
    have hplaced : TimedQueue.insertAll Prod.fst (map.eventMap.map (later delay)) [] =
        map.eventMap.map (later delay) := by
      rw [TimedQueue.insertAll_sorted _ (by rwa [List.nil_append]),List.nil_append]
    dsimp only
    rw [hmoved,hkept,hlater,hplaced,hplaced]

theorem ahead_delay (hle : delay ≤ map.time)
    (hmoved : map' = { map with eventMap := map.eventMap.map (later delay) }) :
    Ahead delay (map.delayEvents delay) map' := by
  subst hmoved
  refine ⟨?_,rfl,rfl⟩
  unfold EventMap.delayEvents
  dsimp only
  split_ifs <;> omega

theorem executeLoop_later (time phase : Nat) (l : List (Nat × Nat)) :
    EventMap.executeLoop (time+delay) phase (l.map (later delay)) =
      ((EventMap.executeLoop time phase l).1.map (later delay),
        (EventMap.executeLoop time phase l).2) := by
  induction l with
  | nil => rfl
  | cons e l ih =>
    rw [List.map_cons]
    unfold EventMap.executeLoop
    have hdue : (later delay e).1 > time+delay ↔ e.1 > time := Nat.add_lt_add_iff_right
    have hdata : (later delay e).2 = e.2 := rfl
    simp only [hdue,hdata]
    split_ifs
    · rfl
    · exact ih
    · rfl

theorem ahead_call (h : Ahead delay map map') {call : Call} (hpasses : call.Passes)
    (hfits : map'.time+elapsed [call] < 2^32) :
    (map'.call call).2 = (map.call call).2 ∧ Ahead delay (map.call call).1 (map'.call call).1 ∧
      (map'.call call).1.time = map'.time+elapsed [call] := by
  have htime := h.time
  cases call with
  | update time =>
    have hsum : elapsed [.update time] = time := by simp [elapsed]
    rw [hsum] at hfits ⊢
    unfold EventMap.call EventMap.update add32
    dsimp only
    refine ⟨rfl,⟨?_,h.phase,h.eventMap⟩,Nat.mod_eq_of_lt hfits⟩
    dsimp only
    rw [Nat.mod_eq_of_lt hfits,Nat.mod_eq_of_lt (by omega)]
    omega
  | executeEvent =>
    have hloop : EventMap.executeLoop map'.time map'.phase map'.eventMap =
        ((EventMap.executeLoop map.time map.phase map.eventMap).1.map (later delay),
          (EventMap.executeLoop map.time map.phase map.eventMap).2) := by
      rw [h.time,h.phase,h.eventMap]
      exact executeLoop_later map.time map.phase map.eventMap
    dsimp only [EventMap.call]
    unfold EventMap.executeEvent
    rw [hloop]
    rcases EventMap.executeLoop map.time map.phase map.eventMap with ⟨rest,_ | data⟩
    · exact ⟨rfl,⟨h.time,h.phase,rfl⟩,rfl⟩
    · exact ⟨rfl,⟨h.time,h.phase,rfl⟩,rfl⟩
  | _ => exact absurd hpasses id

theorem ahead_run (h : Ahead delay map map') (hpasses : ∀ call ∈ calls, call.Passes)
    (hfits : map'.time+elapsed calls < 2^32) : (map'.run calls).2 = (map.run calls).2 := by
  induction calls generalizing map map' with
  | nil => rfl
  | cons call calls ih =>
    have hsum : elapsed (call :: calls) = elapsed [call]+elapsed calls := by simp [elapsed]
    rw [List.forall_mem_cons] at hpasses
    obtain ⟨hresult,hahead,htime⟩ := ahead_call h hpasses.1 (by omega)
    have hrest := ih hahead hpasses.2 (by omega)
    unfold EventMap.run
    dsimp only
    rw [hresult,hrest]

/-- A delay of all events is one of their group by no more than the timer. -/
theorem delayEvents_eq_group (map : EventMap) (group delay : Nat) (calls : List Call)
    (hgroup : 1 ≤ group) (hle : group ≤ 8) (hsorted : TimedQueue.Sorted Prod.fst map.eventMap)
    (hall : map.AllIn group) (hpasses : ∀ call ∈ calls, call.Passes)
    (hlater : ∀ e ∈ map.eventMap, e.1+delay < 2^32) (hfits : map.time+elapsed calls < 2^32) :
    ((map.delayEvents delay).run calls).2 =
      ((map.delayEventsGroup (min delay map.time) group).run calls).2 := by
  have hcapped : map.delayEvents delay = map.delayEvents (min delay map.time) := by
    unfold EventMap.delayEvents
    congr 1
    split_ifs <;> omega
  have hmoved : map.delayEventsGroup (min delay map.time) group =
      { map with eventMap := map.eventMap.map (later (min delay map.time)) } :=
    delayEventsGroup_eq hgroup hle hsorted hall fun e he => by
      have := hlater e he
      omega
  rw [hcapped]
  refine (ahead_run (ahead_delay (Nat.min_le_right _ _) hmoved) hpasses ?_).symm
  rw [hmoved]
  exact hfits

/-- Two events of the first group, one of them overdue. -/
def twoInGroup : EventMap := ⟨10,0,[(5,packed 1 1 0),(12,packed 2 1 0)],0⟩

theorem delayEvents_eq_twoInGroup :
    ((twoInGroup.delayEvents 20).run [.update 3,.executeEvent]).2 =
      ((twoInGroup.delayEventsGroup (min 20 twoInGroup.time) 1).run [.update 3,.executeEvent]).2 :=
  delayEvents_eq_group twoInGroup 1 20 [.update 3,.executeEvent] (by decide) (by decide)
    (by unfold TimedQueue.Sorted; decide) (by unfold EventMap.AllIn; decide)
    (by simp [Call.Passes]) (by decide) (by decide)

/-- The timer does not go back beyond its start: then the group is delayed for longer. -/
theorem delayEvents_capped : TimedQueue.Sorted Prod.fst twoInGroup.eventMap ∧
    twoInGroup.AllIn 1 ∧
    ((twoInGroup.delayEvents 20).run [.update 5,.executeEvent]).2 = [0,1] ∧
    ((twoInGroup.delayEventsGroup 20 1).run [.update 5,.executeEvent]).2 = [0,0] :=
  ⟨by unfold TimedQueue.Sorted; decide,by unfold EventMap.AllIn; decide,by decide,by decide⟩

end TrinityCore.Utilities
