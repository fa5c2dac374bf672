import TrinityCore.Lib.TimedQueue
import TrinityCore.Lib.Run

set_option autoImplicit false

/-!
The event processor of units and of the battleground queues. Executing and aborting an event run
code of its own, which may come back to the processor: the calls that are under way are a stack.
-/

namespace TrinityCore.Utilities

structure Node where
  id : Nat
  time : Nat
  event : Nat
  deriving DecidableEq

inductive Frame where
  /-- `Update`, at the head of its loop. -/
  | update
  /-- `Execute` of an event that an update took. -/
  | execute (event : Nat)
  /-- `Abort` of an event that an update took. -/
  | abort (event : Nat)
  /-- `KillAllEvents`, at the head of its loop with an iterator. -/
  | kill (force : Bool) (i : Option Nat)
  /-- `Abort` of the event at the iterator of a kill, which has moved on. -/
  | killAbort (force : Bool) (iOld : Node) (i : Option Nat)
  deriving DecidableEq

def Frame.inKill : Frame → Bool
  | .killAbort _ _ _ => true
  | _ => false

def Frame.executing : Frame → Option Nat
  | .execute event => some event
  | _ => none

/-- An event that an update took, and the times of those that it left. -/
structure Taken where
  time : Nat
  left : List Nat

structure Execution where
  event : Nat
  time : Nat
  now : Nat
  toAbort : Bool

structure Kill where
  force : Bool
  left : List Node

structure EventProcessor where
  time : Nat
  aborting : Bool
  events : List Node
  /-- The nodes that were made. -/
  nodes : Nat
  toAbort : Finset Nat
  /-- The events that were deleted, in order. -/
  deleted : List Nat
  stack : List Frame
  /-- A deleted event or a node that is gone was used. -/
  fault : Bool
  taken : List Taken
  executed : List Execution
  kills : List Kill

namespace EventProcessor

def new : EventProcessor := ⟨0,false,[],0,∅,[],[],false,[],[],[]⟩

variable (s : EventProcessor)

/-- `delete`, which must not be done twice. -/
def delete (event : Nat) : EventProcessor :=
  if event ∈ s.deleted then { s with fault := true }
  else { s with deleted := s.deleted ++ [event] }

def addEvent (event time : Nat) : EventProcessor :=
  if event ∈ s.deleted then { s with fault := true }
  else { s with
    events := TimedQueue.insert Node.time ⟨s.nodes,time,event⟩ s.events
    nodes := s.nodes+1 }

def setToAbort (event : Nat) : EventProcessor :=
  if event ∈ s.deleted then { s with fault := true }
  else { s with toAbort := insert event s.toAbort }

def killAllEvents (force : Bool) : EventProcessor :=
  { s with
    aborting := true
    stack := .kill force (s.events.head?.map Node.id) :: s.stack }

def update (time : Nat) : EventProcessor :=
  { s with
    time := (s.time+time)%2^64
    stack := [.update] }

def updateTurn (rest : List Frame) : EventProcessor :=
  match s.events with
  | [] => { s with stack := rest }
  | node :: events =>
    if node.time ≤ s.time then
      let s : EventProcessor := { s with
        events := events
        taken := s.taken ++ [⟨node.time,events.map Node.time⟩] }
      if node.event ∈ s.deleted then { s with fault := true }
      else if node.event ∈ s.toAbort then { s with stack := .abort node.event :: .update :: rest }
      else { s with
        stack := .execute node.event :: .update :: rest
        executed := s.executed ++ [⟨node.event,node.time,s.time,decide (node.event ∈ s.toAbort)⟩] }
    else { s with stack := rest }

def successor (id : Nat) : List Node → Option Nat
  | [] => none
  | node :: nodes => if node.id = id then nodes.head?.map Node.id else successor id nodes

/-- One turn of the loop of `KillAllEvents`, as far as the call of `Abort`, or its end. -/
def killTurn (force : Bool) (i : Option Nat) (rest : List Frame) : EventProcessor :=
  match i with
  | none =>
    let events := if force then [] else s.events
    { s with
      events := events
      stack := rest
      kills := s.kills ++ [⟨force,events⟩] }
  | some id =>
    match s.events.find? fun node => node.id == id with
    | none => { s with fault := true }
    | some node =>
      if node.event ∈ s.deleted then { s with fault := true }
      else { s with
        toAbort := insert node.event s.toAbort
        stack := .killAbort force node (successor id s.events) :: rest }

/-- The rest of the turn, once `Abort` has returned and the event has said whether it is
deletable. -/
def killAborted (force : Bool) (iOld : Node) (i : Option Nat) (deletable : Bool)
    (rest : List Frame) : EventProcessor :=
  if iOld ∉ s.events then { s with fault := true }
  else if iOld.event ∈ s.deleted then { s with fault := true }
  else if force || deletable then
    { s with
      deleted := s.deleted ++ [iOld.event]
      events := if force then s.events else s.events.filter fun node => node ≠ iOld
      stack := .kill force i :: rest }
  else { s with stack := .kill force i :: rest }

end EventProcessor

/-- What the callers and the events do, and the processor itself. -/
inductive Action where
  | addEvent (event time : Nat)
  | setToAbort (event : Nat)
  | killAllEvents (force : Bool)
  | update (time : Nat)
  /-- `Execute` or `Abort` returns, with what `Execute` or then `IsDeletable` says. -/
  | finish (result : Bool)
  /-- The processor goes on. -/
  | proceed

/-- Code of callers or of events is running. -/
def EventProcessor.callable (s : EventProcessor) : Bool :=
  match s.stack with
  | [] => true
  | .execute _ :: _ => true
  | .abort _ :: _ => true
  | .killAbort _ _ _ :: _ => true
  | _ => false

def EventProcessor.step (s : EventProcessor) (action : Action) : EventProcessor :=
  if s.fault then s
  else match action with
    | .addEvent event time => if s.callable then s.addEvent event time else s
    | .setToAbort event => if s.callable then s.setToAbort event else s
    | .killAllEvents force => if s.callable then s.killAllEvents force else s
    | .update time => if s.stack = [] then s.update time else s
    | .finish result =>
      match s.stack with
      | .execute event :: rest =>
        if result then { s with stack := rest }.delete event else { s with stack := rest }
      | .abort event :: rest => { s with stack := rest }.delete event
      | .killAbort force iOld i :: rest => s.killAborted force iOld i result rest
      | _ => s
    | .proceed =>
      match s.stack with
      | .update :: rest => s.updateTurn rest
      | .kill force i :: rest => s.killTurn force i rest
      | _ => s

/-- The events that are added, deleted and killed by callers: an event that nobody else owns is
added, one that was re-added is not deleted, and what a kill aborts does not kill. -/
def EventProcessor.Allowed (s : EventProcessor) : Action → Prop
  | .addEvent event _ =>
    event ∉ s.deleted ∧ event ∉ s.events.map Node.event ∧ Frame.abort event ∉ s.stack
  | .setToAbort event => event ∉ s.deleted
  | .killAllEvents _ => ∀ frame ∈ s.stack, frame.inKill = false
  | .finish result => result = true → ∀ event ∈ s.stack.head?.bind Frame.executing,
    event ∉ s.deleted ∧ event ∉ s.events.map Node.event
  | .update _ => True
  | .proceed => True

def EventProcessor.Timely (s : EventProcessor) : Action → Prop
  | .addEvent _ time => ∀ taken ∈ s.taken, taken.time ≤ time
  | _ => True

instance (s : EventProcessor) (action : Action) : Decidable (s.Allowed action) :=
  match action with
  | .addEvent event _ => inferInstanceAs (Decidable
    (event ∉ s.deleted ∧ event ∉ s.events.map Node.event ∧ Frame.abort event ∉ s.stack))
  | .setToAbort event => inferInstanceAs (Decidable (event ∉ s.deleted))
  | .killAllEvents _ => inferInstanceAs (Decidable (∀ frame ∈ s.stack, frame.inKill = false))
  | .finish result => inferInstanceAs (Decidable
    (result = true → ∀ event ∈ s.stack.head?.bind Frame.executing,
      event ∉ s.deleted ∧ event ∉ s.events.map Node.event))
  | .update _ => .isTrue trivial
  | .proceed => .isTrue trivial

instance (s : EventProcessor) (action : Action) : Decidable (s.Timely action) :=
  match action with
  | .addEvent _ time => inferInstanceAs (Decidable (∀ taken ∈ s.taken, taken.time ≤ time))
  | .setToAbort _ => .isTrue trivial
  | .killAllEvents _ => .isTrue trivial
  | .update _ => .isTrue trivial
  | .finish _ => .isTrue trivial
  | .proceed => .isTrue trivial

end TrinityCore.Utilities
