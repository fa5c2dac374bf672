import TrinityCore.Lib.Loop

set_option autoImplicit false

/-!
The queue of resets. Each map and difficulty with a reset period has warnings and then the reset in
the queue, one after another. Dungeons that are reset on their own have one event each.
-/

namespace TrinityCore.Instances

def minute : Nat := 60
def hour : Nat := minute*60
def day : Nat := hour*24

abbrev MapDifficulty : Type := Nat × Nat

structure MapStore where
  /-- The pairs of map and difficulty with their reset time, in order. -/
  difficulties : List (MapDifficulty × Nat)
  nodup : (difficulties.map Prod.fst).Nodup
  /-- The map exists and has instances. -/
  instanceable : Nat → Bool
  /-- A reset time scaled with `Rate.InstanceResetTime`, as an unsigned number. -/
  scaled : Nat → Nat
  /-- The hour of the day at which maps are reset. -/
  resetTimeHour : Nat

/-- `type` is 0 for the reset of one instance, 1 to 3 for warnings and 4 for the reset of a map. -/
structure InstResetEvent where
  type : Nat
  key : MapDifficulty
  instanceId : Nat
  deriving DecidableEq, Repr

def InstResetEvent.mk16 (type : Nat) (key : MapDifficulty) (instanceId : Nat) : InstResetEvent :=
  ⟨type,key,instanceId%2^16⟩

def InstResetEvent.same (a b : InstResetEvent) : Bool := a.instanceId == b.instanceId

abbrev ResetTimeQueue : Type := List (Int × InstResetEvent)

def ResetTimeQueue.insert (t : Int) (e : InstResetEvent) : ResetTimeQueue → ResetTimeQueue
  | [] => [(t,e)]
  | (t',e') :: q => if t < t' then (t,e) :: (t',e') :: q else (t',e') :: insert t e q

/-- Which event a cancellation takes: one of the given time, or else the first. -/
def ResetTimeQueue.cancelled (time : Int) (event : InstResetEvent) (q : ResetTimeQueue) :
    Int × InstResetEvent → Bool :=
  if q.any fun x => x.1 == time && x.2.same event then fun x => x.1 == time && x.2.same event
  else fun x => x.2.same event

def resetTimeDelay : Nat → Nat
  | 0 => 3600
  | 1 => 900
  | 2 => 300
  | _ => 60

structure InstanceSaveManager where
  resetTimeByMapDifficulty : MapDifficulty → Nat
  resetTimeQueue : ResetTimeQueue

namespace InstanceSaveManager

variable (D : MapStore)

def getMapDifficultyData (key : MapDifficulty) : Option Nat := D.difficulties.lookup key

/-- The difficulty that stands for one that a map does not have. -/
def getDownscaledMapDifficultyData (mapId difficulty : Nat) : Option (MapDifficulty × Nat) :=
  match getMapDifficultyData D (mapId,difficulty) with
  | some resetTime => some ((mapId,difficulty),resetTime)
  | none =>
    let lower := if difficulty > 1 then difficulty-2 else (difficulty+2^32-1)%2^32
    match getMapDifficultyData D (mapId,lower) with
    | some resetTime => some ((mapId,lower),resetTime)
    | none =>
      let lowest := (lower+2^32-1)%2^32
      (getMapDifficultyData D (mapId,lowest)).map fun resetTime => ((mapId,lowest),resetTime)

def period (resetTime : Nat) : Nat := if D.scaled resetTime < day then day else D.scaled resetTime

def diff : Nat := D.resetTimeHour*hour

def getSubsequentResetTime (key : MapDifficulty) (resetTime : Nat) : Nat :=
  match getMapDifficultyData D key with
  | none => 0
  | some delay =>
    if delay = 0 then 0 else (resetTime+minute)/day*day+period D delay+diff D

def setResetTimeFor (s : InstanceSaveManager) (key : MapDifficulty) (t : Nat) :
    InstanceSaveManager :=
  { s with resetTimeByMapDifficulty := Function.update s.resetTimeByMapDifficulty key t }

def scheduleReset (s : InstanceSaveManager) (add : Bool) (time : Int) (event : InstResetEvent) :
    InstanceSaveManager :=
  if add then { s with resetTimeQueue := s.resetTimeQueue.insert time event }
  else { s with
    resetTimeQueue := s.resetTimeQueue.eraseP (s.resetTimeQueue.cancelled time event) }

def resetOrWarnAll (s : InstanceSaveManager) (key : MapDifficulty) (warn : Bool)
    (resetTime : Nat) : InstanceSaveManager :=
  if !D.instanceable key.1 then s
  else if warn then s
  else
    let nextReset := getSubsequentResetTime D key resetTime
    if nextReset = 0 then s
    else (s.setResetTimeFor key nextReset).scheduleReset true ((nextReset : Int)-3600)
      (.mk16 1 key 0)

def forceGlobalReset (s : InstanceSaveManager) (mapId difficulty now : Nat) : InstanceSaveManager :=
  match getDownscaledMapDifficultyData D mapId difficulty with
  | none => s
  | some (key,_) =>
    ((s.scheduleReset false 0 (.mk16 1 key 0)).scheduleReset false 0 (.mk16 4 key 0)).resetOrWarnAll
      D key false now

def eraseBegin (s : InstanceSaveManager) : InstanceSaveManager :=
  { s with resetTimeQueue := s.resetTimeQueue.tail }

def updateStep (now : Nat) (s : InstanceSaveManager) : Option InstanceSaveManager :=
  match s.resetTimeQueue with
  | [] => none
  | (t,event) :: rest =>
    if t ≥ now then none
    else if event.type = 0 then some s.eraseBegin
    else
      let resetTime := s.resetTimeByMapDifficulty event.key
      let s := s.resetOrWarnAll D event.key (event.type ≠ 4) resetTime
      if event.type ≠ 4 then
        -- the event at the front is changed before a copy of it is put into the queue
        let event := { event with type := event.type+1 }
        some (scheduleReset { s with resetTimeQueue := (t,event) :: rest } true
          ((resetTime : Int)-resetTimeDelay (event.type-1)) event).eraseBegin
      else some s.eraseBegin

end InstanceSaveManager

structure InstanceRow where
  id : Nat
  key : MapDifficulty
  resettime : Nat
  deriving DecidableEq, Repr

structure ResetRows where
  instances : List InstanceRow
  /-- The respawn times with their instances. -/
  respawns : List (Nat × Nat)
  /-- The rows of `instance_reset`. -/
  resets : List (MapDifficulty × Nat)

namespace ResetRows

/-- The reset time that follows from a respawn time, as an unsigned number. -/
def respawnReset (respawntime : Nat) : Nat := (respawntime+2*hour)%2^32

/-- The instances with a reset time. Only the first respawn time is looked at. -/
def instResetTime (rows : ResetRows) : List InstanceRow :=
  let timed := rows.instances.filter fun row => row.resettime ≠ 0
  match rows.respawns with
  | [] => timed
  | (respawntime,inst) :: _ => timed.map fun row =>
    if row.id = inst then { row with resettime := respawnReset respawntime } else row

end ResetRows

namespace InstanceSaveManager

variable (D : MapStore)

def loadInstance (now : Nat) (s : InstanceSaveManager) (row : InstanceRow) : InstanceSaveManager :=
  if row.resettime > now then s.scheduleReset true row.resettime (.mk16 0 row.key row.id) else s

def loadReset (s : InstanceSaveManager) (row : MapDifficulty × Nat) : InstanceSaveManager :=
  match getMapDifficultyData D row.1 with
  | none => s
  | some _ => s.setResetTimeFor row.1 (row.2/day*day+diff D)

def startTime (now resetTime stored : Nat) : Nat :=
  let today := now/day*day
  let t := if stored = 0 then today+period D resetTime+diff D else stored
  if t < now then
    t/day*day+(((today-t/day*day)/period D resetTime+1)*period D resetTime+diff D)
  else t

/-- The first type whose time is not yet over. -/
def startType (now t : Nat) : Nat :=
  if (t : Int)-resetTimeDelay 0 > now then 1
  else if (t : Int)-resetTimeDelay 1 > now then 2
  else if (t : Int)-resetTimeDelay 2 > now then 3
  else 4

def loadDifficulty (rows : ResetRows) (now : Nat) (s : InstanceSaveManager)
    (entry : MapDifficulty × Nat) : InstanceSaveManager :=
  if entry.2 = 0 then s
  else
    let t := startTime D now entry.2 (s.resetTimeByMapDifficulty entry.1)
    let type := startType now t
    let time := (t : Int)-resetTimeDelay (type-1)
    let s := (s.setResetTimeFor entry.1 t).scheduleReset true time (.mk16 type entry.1 0)
    let bound := rows.instances.filter fun row => row.resettime ≠ 0 ∧ row.key = entry.1
    bound.foldl (fun s row => s.scheduleReset true time (.mk16 type entry.1 row.id)) s

def loadResetTimes (rows : ResetRows) (now : Nat) : InstanceSaveManager :=
  let s := rows.instResetTime.foldl (loadInstance now) ⟨fun _ => 0,[]⟩
  let s := rows.resets.foldl (loadReset D) s
  D.difficulties.foldl (loadDifficulty D rows now) s

end InstanceSaveManager

end TrinityCore.Instances
