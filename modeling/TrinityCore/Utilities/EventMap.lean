import TrinityCore.Lib.TimedQueue
import TrinityCore.Lib.Run

set_option autoImplicit false

namespace TrinityCore.Utilities

def add32 (a b : Nat) : Nat := (a+b)%2^32

structure EventMap where
  time : Nat
  phase : Nat
  eventMap : List (Nat × Nat)
  lastEvent : Nat
  deriving DecidableEq

/-- The group and the phase of an event, packed with its id as `0xPPGGEEEE`. -/
def packed (eventId group phase : Nat) : Nat :=
  let eventId := if group ≠ 0 ∧ group ≤ 8 then eventId ||| 1 <<< (group+15) else eventId
  if phase ≠ 0 ∧ phase ≤ 8 then eventId ||| 1 <<< (phase+23) else eventId

namespace EventMap

def new : EventMap := ⟨0,0,[],0⟩

variable (map : EventMap)

def update (time : Nat) : EventMap := { map with time := add32 map.time time }

def setPhase (phase : Nat) : EventMap :=
  if phase = 0 then { map with phase := 0 }
  else if phase ≤ 8 then { map with phase := 1 <<< (phase-1) }
  else map

def addPhase (phase : Nat) : EventMap :=
  if phase ≠ 0 ∧ phase ≤ 8 then { map with phase := map.phase ||| 1 <<< (phase-1) } else map

def removePhase (phase : Nat) : EventMap :=
  if phase ≠ 0 ∧ phase ≤ 8 then { map with phase := map.phase &&& (0xFF ^^^ 1 <<< (phase-1)) }
  else map

def insert (time data : Nat) : EventMap :=
  { map with eventMap := TimedQueue.insert Prod.fst (add32 map.time time,data) map.eventMap }

def scheduleEvent (eventId time group phase : Nat) : EventMap :=
  map.insert time (packed eventId group phase)

def cancelEvent (eventId : Nat) : EventMap :=
  { map with eventMap := map.eventMap.filter fun e => e.2 &&& 0xFFFF ≠ eventId }

def rescheduleEvent (eventId time group phase : Nat) : EventMap :=
  (map.cancelEvent eventId).scheduleEvent eventId time group phase

/-- `Repeat`: with the group and the phase of the event that was executed last. -/
def repeatEvent (time : Nat) : EventMap := map.insert time map.lastEvent

/-- The loop of `ExecuteEvent`: what is left, and the event that it ends with. -/
def executeLoop (time phase : Nat) : List (Nat × Nat) → List (Nat × Nat) × Option Nat
  | [] => ([],none)
  | e :: rest =>
    if e.1 > time then (e :: rest,none)
    else if phase ≠ 0 ∧ e.2 &&& 0xFF000000 ≠ 0 ∧ (e.2 >>> 24) &&& phase = 0 then
      executeLoop time phase rest
    else (rest,some e.2)

def executeEvent : EventMap × Nat :=
  match executeLoop map.time map.phase map.eventMap with
  | (rest,none) => ({ map with eventMap := rest },0)
  | (rest,some data) => ({ map with
    eventMap := rest
    lastEvent := data },data &&& 0xFFFF)

def delayEvents (delay : Nat) : EventMap :=
  { map with time := if delay < map.time then map.time-delay else 0 }

def delayEventsGroup (delay group : Nat) : EventMap :=
  if group = 0 ∨ group > 8 ∨ map.eventMap = [] then map
  else
    let delayed := TimedQueue.insertAll Prod.fst
      ((map.eventMap.filter fun e => e.2 &&& 1 <<< (group+15) ≠ 0).map
        fun e => (add32 e.1 delay,e.2)) []
    let kept := map.eventMap.filter fun e => e.2 &&& 1 <<< (group+15) = 0
    { map with eventMap := TimedQueue.insertAll Prod.fst delayed kept }

def cancelEventGroup (group : Nat) : EventMap :=
  if group = 0 ∨ group > 8 ∨ map.eventMap = [] then map
  else { map with eventMap := map.eventMap.filter fun e => e.2 &&& 1 <<< (group+15) = 0 }

end EventMap

inductive Call where
  | update (time : Nat)
  | setPhase (phase : Nat)
  | addPhase (phase : Nat)
  | removePhase (phase : Nat)
  | scheduleEvent (eventId time group phase : Nat)
  | rescheduleEvent (eventId time group phase : Nat)
  | repeatEvent (time : Nat)
  | executeEvent
  | delayEvents (delay : Nat)
  | delayEventsGroup (delay group : Nat)
  | cancelEvent (eventId : Nat)
  | cancelEventGroup (group : Nat)

/-- The map after a call, and what the call returns: 0 if it returns nothing. -/
def EventMap.call (map : EventMap) : Call → EventMap × Nat
  | .update time => (map.update time,0)
  | .setPhase phase => (map.setPhase phase,0)
  | .addPhase phase => (map.addPhase phase,0)
  | .removePhase phase => (map.removePhase phase,0)
  | .scheduleEvent eventId time group phase => (map.scheduleEvent eventId time group phase,0)
  | .rescheduleEvent eventId time group phase => (map.rescheduleEvent eventId time group phase,0)
  | .repeatEvent time => (map.repeatEvent time,0)
  | .executeEvent => map.executeEvent
  | .delayEvents delay => (map.delayEvents delay,0)
  | .delayEventsGroup delay group => (map.delayEventsGroup delay group,0)
  | .cancelEvent eventId => (map.cancelEvent eventId,0)
  | .cancelEventGroup group => (map.cancelEventGroup group,0)

def EventMap.run (map : EventMap) : List Call → EventMap × List Nat
  | [] => (map,[])
  | call :: calls =>
    let (map',result) := map.call call
    let (map'',results) := map'.run calls
    (map'',result :: results)

/-- The ids have 16 bits, there are eight groups and phases, and the times have 32 bits. -/
def EventMap.Fits (map : EventMap) : Call → Prop
  | .update time => map.time+time < 2^32
  | .scheduleEvent eventId time group phase => 0 < eventId ∧ eventId < 2^16 ∧ group ≤ 8 ∧
    phase ≤ 8 ∧ map.time+time < 2^32
  | .rescheduleEvent eventId time group phase => 0 < eventId ∧ eventId < 2^16 ∧ group ≤ 8 ∧
    phase ≤ 8 ∧ map.time+time < 2^32
  | .repeatEvent time => map.time+time < 2^32
  | .delayEventsGroup delay _ => ∀ e ∈ map.eventMap, e.1+delay < 2^32
  | _ => True

section Packed

variable {eventId group phase : Nat}

theorem testBit_packed (hgroup : group ≤ 8) (hphase : phase ≤ 8) (i : Nat) :
    (packed eventId group phase).testBit i = (eventId.testBit i ||
      decide (group ≠ 0 ∧ i = group+15) || decide (phase ≠ 0 ∧ i = phase+23)) := by
  unfold packed
  dsimp only
  rw [Nat.one_shiftLeft,Nat.one_shiftLeft]
  by_cases hg : group = 0
  · by_cases hp : phase = 0
    · simp [hg,hp]
    · simp [hg,hp,hphase,Nat.testBit_or,Nat.testBit_two_pow,eq_comm]
  · by_cases hp : phase = 0
    · simp [hg,hp,hgroup,Nat.testBit_or,Nat.testBit_two_pow,eq_comm]
    · simp [hg,hp,hgroup,hphase,Nat.testBit_or,Nat.testBit_two_pow,eq_comm]

theorem packed_id (hid : eventId < 2^16) (hgroup : group ≤ 8) (hphase : phase ≤ 8) :
    packed eventId group phase &&& 0xFFFF = eventId := by
  refine Nat.eq_of_testBit_eq fun i => ?_
  rw [Nat.testBit_and,testBit_packed hgroup hphase,show (0xFFFF : Nat) = 2^16-1 from rfl,
    Nat.testBit_two_pow_sub_one]
  by_cases hi : i < 16
  · have hg : ¬ (group ≠ 0 ∧ i = group+15) := by omega
    have hp : ¬ (phase ≠ 0 ∧ i = phase+23) := by omega
    simp [hi,hg,hp]
  · have hlt : eventId.testBit i = false :=
      Nat.testBit_lt_two_pow (hid.trans_le (Nat.pow_le_pow_right (by decide) (by omega)))
    simp [hi,hlt]

theorem and_bit (data k : Nat) : data &&& 1 <<< k ≠ 0 ↔ data.testBit k = true := by
  rw [Nat.one_shiftLeft,Nat.and_two_pow]
  cases data.testBit k <;> simp

theorem packed_group (hid : eventId < 2^16) (hgroup : group ≤ 8) (hphase : phase ≤ 8) {k : Nat}
    (hk : k ≠ 0) (hle : k ≤ 8) : packed eventId group phase &&& 1 <<< (k+15) ≠ 0 ↔ group = k := by
  have hlt : eventId.testBit (k+15) = false :=
    Nat.testBit_lt_two_pow (hid.trans_le (Nat.pow_le_pow_right (by decide) (by omega)))
  rw [and_bit,testBit_packed hgroup hphase,hlt,Bool.false_or,Bool.or_eq_true,decide_eq_true_eq,
    decide_eq_true_eq]
  omega

theorem packed_phases (hid : eventId < 2^16) (hgroup : group ≤ 8) (hphase : phase ≤ 8) :
    packed eventId group phase >>> 24 = if phase = 0 then 0 else 2^(phase-1) := by
  refine Nat.eq_of_testBit_eq fun i => ?_
  have hlt : eventId.testBit (24+i) = false :=
    Nat.testBit_lt_two_pow (hid.trans_le (Nat.pow_le_pow_right (by decide) (by omega)))
  have hg : ¬ (group ≠ 0 ∧ 24+i = group+15) := by omega
  rw [Nat.testBit_shiftRight,testBit_packed hgroup hphase,hlt]
  by_cases hp : phase = 0
  · simp [hp,hg]
  · rw [if_neg hp,Nat.testBit_two_pow]
    simp only [hg,hp,decide_false,Bool.or_self,Bool.false_or,ne_eq,not_false_eq_true,true_and]
    exact decide_eq_decide.mpr (by omega)

theorem packed_masked (hid : eventId < 2^16) (hgroup : group ≤ 8) (hphase : phase ≤ 8) :
    packed eventId group phase &&& 0xFF000000 ≠ 0 ↔ phase ≠ 0 := by
  have hmask : ∀ data : Nat, data &&& 0xFF000000 = ((data >>> 24) &&& 0xFF) <<< 24 := by
    intro data
    refine Nat.eq_of_testBit_eq fun i => ?_
    rw [show (0xFF000000 : Nat) = 0xFF <<< 24 from rfl]
    simp only [Nat.testBit_and,Nat.testBit_shiftLeft,Nat.testBit_shiftRight]
    by_cases hi : i ≥ 24
    · simp only [hi,decide_true,Bool.true_and,Nat.add_sub_cancel' hi]
    · simp [hi]
  rw [hmask,packed_phases hid hgroup hphase]
  by_cases hp : phase = 0
  · simp [hp]
  · have hlt : 2^(phase-1) < 2^8 := Nat.pow_lt_pow_right (by decide) (by omega)
    have hpos : 0 < 2^(phase-1) := Nat.two_pow_pos _
    rw [if_neg hp,show (0xFF : Nat) = 2^8-1 from rfl,Nat.and_two_pow_sub_one_eq_mod,
      Nat.mod_eq_of_lt hlt,Nat.shiftLeft_eq]
    simp [hp]

theorem packed_active (hid : eventId < 2^16) (hgroup : group ≤ 8) (hphase : phase ≤ 8)
    (mask : Nat) : (packed eventId group phase >>> 24) &&& mask ≠ 0 ↔
      phase ≠ 0 ∧ mask.testBit (phase-1) = true := by
  rw [packed_phases hid hgroup hphase]
  by_cases hp : phase = 0
  · simp [hp]
  · rw [if_neg hp,Nat.and_comm,← Nat.one_shiftLeft,and_bit]
    simp [hp]

end Packed

end TrinityCore.Utilities
