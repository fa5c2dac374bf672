import TrinityCore.Lib.OrderedMap

set_option autoImplicit false

/-!
Vehicles with their seats, and the events by which units board them. A passenger casts an aura with
`SPELL_AURA_CONTROL_VEHICLE` on the vehicle, and leaves it when the aura is removed. What scripts
do, flags, movement and messages are left out.
-/

namespace TrinityCore.Vehicles

def maxVehicleSeats : Nat := 8

structure VehicleSeatEntry where
  canEnterOrExit : Bool
  isUsableByOverride : Bool
  deriving DecidableEq, Repr

structure VehicleEntry where
  seatID : List (Option VehicleSeatEntry)
  length_seatID : seatID.length = maxVehicleSeats

structure VehicleSeat (U : Type) where
  seatInfo : VehicleSeatEntry
  passenger : Option U
  deriving DecidableEq

namespace VehicleSeat

variable {U : Type} (seat : VehicleSeat U)

def isEmpty : Bool := seat.passenger.isNone

def usable : Bool := seat.seatInfo.canEnterOrExit || seat.seatInfo.isUsableByOverride

def free : Bool := seat.isEmpty && seat.seatInfo.canEnterOrExit

end VehicleSeat

abbrev EventId := Nat

structure Vehicle (U : Type) where
  seats : OrderedMap Int (VehicleSeat U)
  usableSeatNum : Nat
  pendingJoinEvents : List EventId
  /-- The status is `STATUS_UNINSTALLING`. -/
  uninstalling : Bool

namespace Vehicle

variable {U : Type} [DecidableEq U]

def addSeats : Nat → List (Option VehicleSeatEntry) → Vehicle U → Vehicle U
  | _, [], v => v
  | i, none :: entries, v => addSeats (i+1) entries v
  | i, some entry :: entries, v =>
    addSeats (i+1) entries { v with
      seats := v.seats.insert i ⟨entry,none⟩
      usableSeatNum := if entry.canEnterOrExit then (v.usableSeatNum+1) % 2^32 else v.usableSeatNum }

def create (info : VehicleEntry) : Vehicle U := addSeats 0 info.seatID ⟨.empty,0,[],false⟩

def getSeatIteratorForPassenger (v : Vehicle U) (u : U) : Option (Int × VehicleSeat U) :=
  v.seats.entries.find? fun e => e.2.passenger = some u

/-- The first seat that is empty and can be used. -/
def firstEmptySeat (v : Vehicle U) : Option (Int × VehicleSeat U) :=
  v.seats.entries.find? fun e => e.2.isEmpty && e.2.usable

end Vehicle

structure VehicleJoinEvent (V U : Type) where
  target : Option V
  passenger : U
  /-- There is none before a seat is chosen. -/
  seat : Option Int
  toAbort : Bool
  /-- It has been executed or aborted, and deleted then. -/
  ended : Bool

structure World (V U : Type) where
  vehicle : V → Vehicle U
  /-- `m_vehicle` of a unit. -/
  vehicleOf : U → Option V
  /-- The control auras, with their casters, and the vehicles they are on. -/
  auras : List (U × V)
  events : EventId → Option (VehicleJoinEvent V U)
  nextEvent : EventId

/-- An assertion that fails, or an iterator that is not valid. -/
inductive Fault where
  | onVehicle
  | noTarget
  | noAura
  | noSeat
  | seatTaken
  | noUsableSeat
  deriving DecidableEq, Repr

section Operations

variable {V U : Type} [DecidableEq V] [DecidableEq U]

def World.setVehicle (w : World V U) (v : V) (vehicle : Vehicle U) : World V U :=
  { w with vehicle := Function.update w.vehicle v vehicle }

def World.setEvent (w : World V U) (e : EventId) (event : VehicleJoinEvent V U) : World V U :=
  { w with events := Function.update w.events e (some event) }

/-- The pending events that are chosen are to be aborted, and are not pending any more. -/
def removePendingEvents (chosen : VehicleJoinEvent V U → Bool) (v : V) (w : World V U) :
    World V U :=
  let isChosen (e : EventId) : Bool := (w.events e).any chosen
  let pending := (w.vehicle v).pendingJoinEvents
  { w.setVehicle v { w.vehicle v with
      pendingJoinEvents := pending.filter fun e => !isChosen e } with
    events := fun e =>
      if e ∈ pending ∧ isChosen e then (w.events e).map fun event => { event with toAbort := true }
      else w.events e }

def removePendingEventsForSeat (v : V) (seatId : Int) : World V U → World V U :=
  removePendingEvents (fun event => event.seat = some seatId) v

def removePendingEventsForPassenger (v : V) (u : U) : World V U → World V U :=
  removePendingEvents (fun event => event.passenger = u) v

def removePendingEvent (v : V) (e : EventId) (w : World V U) : World V U :=
  w.setVehicle v { w.vehicle v with
    pendingJoinEvents := (w.vehicle v).pendingJoinEvents.erase e }

def removePassenger (v : V) (u : U) (w : World V U) : Except Fault (World V U) :=
  if w.vehicleOf u ≠ some v then .ok w
  else
    let vehicle := w.vehicle v
    match vehicle.getSeatIteratorForPassenger u with
    | none => .error .noSeat
    | some (seatId,seat) => .ok { w.setVehicle v { vehicle with
          seats := vehicle.seats.insert seatId { seat with passenger := none }
          usableSeatNum := if seat.seatInfo.canEnterOrExit then (vehicle.usableSeatNum+1) % 2^32
            else vehicle.usableSeatNum } with
        vehicleOf := Function.update w.vehicleOf u none }

def leaveVehicle (u : U) (w : World V U) : Except Fault (World V U) :=
  match w.vehicleOf u with
  | none => .ok w
  | some v => removePassenger v u w

/-- The aura is removed, and `HandleAuraControlVehicle` is called for that. -/
def removeAura (aura : U × V) (w : World V U) : Except Fault (World V U) :=
  leaveVehicle aura.1 (removePendingEventsForPassenger aura.2 aura.1
    { w with auras := w.auras.filter (· ≠ aura) })

def removeAuras : List (U × V) → World V U → Except Fault (World V U)
  | [], w => .ok w
  | aura :: auras, w => (removeAura aura w).bind (removeAuras auras)

/-- `RemoveAurasByType` for the control auras of a vehicle, of one caster or of all of them. -/
def removeAurasByType (v : V) (caster : Option U) (w : World V U) : Except Fault (World V U) :=
  removeAuras (w.auras.filter fun a => a.2 = v ∧ (caster = none ∨ caster = some a.1)) w

def exitVehicle (u : U) (w : World V U) : Except Fault (World V U) :=
  match w.vehicleOf u with
  | none => .ok w
  | some v => removeAurasByType v (some u) w

/-- The aura is a single target aura, so that the other ones of its caster go. -/
def addAura (u : U) (v : V) (w : World V U) : Except Fault (World V U) :=
  (removeAuras (w.auras.filter fun a => a.1 = u) w).map fun w =>
    { w with auras := w.auras ++ [(u,v)] }

def pushEvent (v : V) (u : U) (seatId : Int) (w : World V U) : World V U :=
  let e := w.nextEvent
  { (w.setEvent e ⟨some v,u,some seatId,false,false⟩).setVehicle v { w.vehicle v with
      pendingJoinEvents := (w.vehicle v).pendingJoinEvents ++ [e] } with
    nextEvent := e+1 }

def failEvent (v : V) (u : U) (w : World V U) : World V U :=
  { w.setEvent w.nextEvent ⟨some v,u,none,true,false⟩ with nextEvent := w.nextEvent+1 }

def addPassenger (v : V) (u : U) (seatId : Int) (w : World V U) : Except Fault (World V U) :=
  let vehicle := w.vehicle v
  if vehicle.uninstalling then .ok w
  else if seatId < 0 then
    match vehicle.firstEmptySeat with
    | none => .ok (failEvent v u w)
    | some (seatId,_) => .ok (pushEvent v u seatId w)
  else
    match vehicle.seats.find? seatId with
    | none => .ok (failEvent v u w)
    | some seat =>
      let w := pushEvent v u seatId w
      let exited : Except Fault (World V U) := match seat.passenger with
        | none => .ok w
        | some passenger => exitVehicle passenger w
      exited.bind fun w =>
        match (w.vehicle v).seats.find? seatId with
        | none => .error .noSeat
        | some seat => if seat.isEmpty then .ok w else .error .seatTaken

def enterVehicle (v : V) (u : U) (seatId : Int) (w : World V U) : Except Fault (World V U) :=
  if w.vehicleOf u ≠ none then .error .onVehicle else addPassenger v u seatId w

def removeAllPassengers (v : V) (w : World V U) : Except Fault (World V U) :=
  let vehicle := w.vehicle v
  let eventVehicle := if vehicle.uninstalling then none else some v
  let w := { w.setVehicle v { vehicle with pendingJoinEvents := [] } with
    events := fun e =>
      if e ∈ vehicle.pendingJoinEvents then
        (w.events e).map fun event => { event with toAbort := true,target := eventVehicle }
      else w.events e }
  removeAurasByType v none w

def uninstall (v : V) (w : World V U) : Except Fault (World V U) :=
  removeAllPassengers v (w.setVehicle v { w.vehicle v with uninstalling := true })

def execute (event : VehicleJoinEvent V U) (w : World V U) : Except Fault (World V U) :=
  match event.target with
  | none => .error .noTarget
  | some v =>
    if (event.passenger,v) ∉ w.auras then .error .noAura
    else
      match event.seat with
      | none => .error .noSeat
      | some seatId =>
        let w := removePendingEventsForPassenger v event.passenger
          (removePendingEventsForSeat v seatId w)
        let vehicle := w.vehicle v
        match vehicle.seats.find? seatId with
        | none => .error .noSeat
        | some seat =>
          if seat.seatInfo.canEnterOrExit ∧ vehicle.usableSeatNum = 0 then .error .noUsableSeat
          else .ok { w.setVehicle v { vehicle with
                seats := vehicle.seats.insert seatId { seat with passenger := some event.passenger }
                usableSeatNum := if seat.seatInfo.canEnterOrExit then vehicle.usableSeatNum-1
                  else vehicle.usableSeatNum } with
              vehicleOf := Function.update w.vehicleOf event.passenger (some v) }

def abort (event : VehicleJoinEvent V U) (w : World V U) : Except Fault (World V U) :=
  match event.target with
  | none => .ok w
  | some v => removeAurasByType v (some event.passenger) w

def deleteEvent (e : EventId) (w : World V U) : World V U :=
  match w.events e with
  | none => w
  | some event =>
    let w := w.setEvent e { event with ended := true }
    match event.target with
    | none => w
    | some v => removePendingEvent v e w

def runEvent (e : EventId) (w : World V U) : Except Fault (World V U) :=
  match w.events e with
  | none => .ok w
  | some event =>
    if event.ended then .ok w
    else (if event.toAbort then abort event w else execute event w).map (deleteEvent e)

def killEvent (e : EventId) (w : World V U) : Except Fault (World V U) :=
  match w.events e with
  | none => .ok w
  | some event =>
    if event.ended then .ok w
    else
      let event := { event with toAbort := true }
      (abort event (w.setEvent e event)).map (deleteEvent e)

inductive Action (V U : Type) where
  | addAura (u : U) (v : V)
  | removeAura (u : U) (v : V)
  | enterVehicle (v : V) (u : U) (seatId : Int)
  | exitVehicle (u : U)
  /-- The amount of the aura changes: the unit is taken off the vehicle, with the aura left on. -/
  | changeAmount (v : V) (u : U)
  | removePassenger (v : V) (u : U)
  | removeAllPassengers (v : V)
  | install (v : V)
  | uninstall (v : V)
  | runEvent (e : EventId)
  | killEvent (e : EventId)

def step (w : World V U) : Action V U → Except Fault (World V U)
  | .addAura u v => addAura u v w
  | .removeAura u v => removeAura (u,v) w
  | .enterVehicle v u seatId => enterVehicle v u seatId w
  | .exitVehicle u => exitVehicle u w
  | .changeAmount v u => removePassenger v u (removePendingEventsForPassenger v u w)
  | .removePassenger v u => removePassenger v u w
  | .removeAllPassengers v => removeAllPassengers v w
  | .install v => .ok (w.setVehicle v { w.vehicle v with uninstalling := false })
  | .uninstall v => uninstall v w
  | .runEvent e => runEvent e w
  | .killEvent e => killEvent e w

def run : World V U → List (Action V U) → Except Fault (World V U)
  | w, [] => .ok w
  | w, action :: actions => (step w action).bind fun w => run w actions

def World.initial (info : V → VehicleEntry) : World V U :=
  ⟨fun v => .create (info v),fun _ => none,[],fun _ => none,0⟩

end Operations

end TrinityCore.Vehicles
