import Mathlib

set_option autoImplicit false

namespace TrinityCore.Combat

structure HostileReference where
  unitGuid : Nat
  threat : ℚ
  tempThreatModifier : ℚ
  online : Bool
  accessible : Bool
  /-- The link to the unit is not cut. -/
  valid : Bool
  deriving DecidableEq

/-- What the manager asks of the units around while it carries out one call. -/
structure World where
  /-- The unit that hates. -/
  hatingUnit : Nat
  isAlive : Nat → Bool
  isGameMaster : Nat → Bool
  isInMap : Nat → Bool
  inSamePhase : Nat → Bool
  noThreat : Nat → Bool
  /-- The threat to a unit, from the threat given, the schools and the spell. -/
  calcThreat : Nat → ℚ → Nat → Option Nat → ℚ
  getRedirectThreatPercent : Nat → Nat
  getRedirectThreatTarget : Nat → Option Nat
  getCharmerOrOwner : Nat → Option Nat
  /-- The unit is found by its guid. -/
  getUnit : Nat → Bool
  inFlight : Nat → Bool
  isInAccessiblePlaceFor : Nat → Bool
  isWithinCombatRange : Nat → Bool
  /-- Immune to the damage, or under a spell that damage breaks. -/
  isSecondChoice : Nat → Bool
  canCreatureAttack : Nat → Bool
  isWithinMeleeRange : Nat → Bool

def World.isValidProcess (w : World) (hatedUnit : Nat) (threatSpell : Option Nat) : Bool :=
  if hatedUnit = w.hatingUnit then false
  else if w.isGameMaster hatedUnit then false
  else if !w.isAlive hatedUnit || !w.isAlive w.hatingUnit then false
  else if !w.isInMap hatedUnit || !w.inSamePhase hatedUnit then false
  else if threatSpell.any w.noThreat then false
  else true

/-- Whether a reference is online and whether it is accessible, from where its unit is. -/
def World.onlineStatus (w : World) (r : HostileReference) : Bool × Bool :=
  if r.valid && !w.isGameMaster r.unitGuid && !w.inFlight r.unitGuid && w.isInMap r.unitGuid &&
      w.inSamePhase r.unitGuid then
    if w.isInAccessiblePlaceFor r.unitGuid then (true,true)
    -- not accessible but stays online
    else (w.isWithinCombatRange r.unitGuid,false)
  else (false,false)

def spellSchoolMaskNormal : Nat := 1

structure ThreatManager where
  refs : Nat → Option HostileReference
  /-- The next address. -/
  next : Nat
  threatContainer : List Nat
  dirty : Bool
  threatOfflineContainer : List Nat
  currentVictim : Option Nat

namespace ThreatManager

def init : ThreatManager := ⟨fun _ => none,0,[],false,[],none⟩

variable (w : World) (m : ThreatManager)

def setRef (ref : Nat) (r : HostileReference) : ThreatManager :=
  { m with refs := Function.update m.refs ref (some r) }

def threatOf (ref : Nat) : ℚ := (m.refs ref).elim 0 HostileReference.threat

def guidOf (ref : Nat) : Nat := (m.refs ref).elim 0 HostileReference.unitGuid

/-- The first reference in a container to a unit. -/
def getReferenceByTarget (container : List Nat) (victim : Nat) : Option Nat :=
  container.find? fun ref => (m.refs ref).any fun r => r.unitGuid == victim

def processThreatChange (ref : Nat) (value : ℚ) : ThreatManager :=
  if (m.currentVictim = some ref ∧ value < 0) ∨ (m.currentVictim ≠ some ref ∧ value > 0) then
    { m with dirty := true }
  else m

def processOnlineStatus (ref : Nat) (isOnline : Bool) : ThreatManager :=
  if !isOnline then
    let m := if m.currentVictim = some ref then { m with currentVictim := none, dirty := true } else m
    { m with
      threatContainer := m.threatContainer.filter (· ≠ ref)
      threatOfflineContainer := m.threatOfflineContainer ++ [ref] }
  else
    let m := if m.currentVictim.any fun victim =>
        decide (m.threatOf ref > (11/10)*m.threatOf victim) then { m with dirty := true } else m
    { m with
      threatContainer := m.threatContainer ++ [ref]
      threatOfflineContainer := m.threatOfflineContainer.filter (· ≠ ref) }

def processRemoveFromList (ref : Nat) (isOnline : Bool) : ThreatManager :=
  let m := if m.currentVictim = some ref then { m with currentVictim := none, dirty := true } else m
  if isOnline then { m with threatContainer := m.threatContainer.filter (· ≠ ref) }
  else { m with threatOfflineContainer := m.threatOfflineContainer.filter (· ≠ ref) }

def setAccessibleState (ref : Nat) (isAccessible : Bool) : ThreatManager :=
  match m.refs ref with
  | none => m
  | some r => m.setRef ref { r with accessible := isAccessible }

def setOnlineOfflineState (ref : Nat) (isOnline : Bool) : ThreatManager :=
  match m.refs ref with
  | none => m
  | some r =>
    if r.online ≠ isOnline then
      -- what is not online is not accessible either
      (m.setRef ref { r with
        online := isOnline
        accessible := if isOnline then r.accessible else false }).processOnlineStatus ref isOnline
    else m

/-- The link to a unit that is found again. -/
def relink (ref : Nat) : ThreatManager :=
  match m.refs ref with
  | none => m
  | some r => if !r.valid && w.getUnit r.unitGuid then m.setRef ref { r with valid := true } else m

/-- `updateOnlineStatus`: checks whether the source can reach the target and sets the status. -/
def updateOnlineStatus (ref : Nat) : ThreatManager :=
  let m := m.relink w ref
  match m.refs ref with
  | none => m
  | some r =>
    let (online,accessible) := w.onlineStatus r
    (m.setAccessibleState ref accessible).setOnlineOfflineState ref online

/-- The part of `HostileReference::addThreat` that is about the reference itself. -/
def changeThreat (ref : Nat) (modThreat : ℚ) : ThreatManager :=
  match m.refs ref with
  | none => m
  | some r =>
    let m := m.setRef ref { r with threat := r.threat+modThreat }
    -- if the link was cut before it is made again
    let m := if !r.online then m.updateOnlineStatus w ref else m
    if modThreat ≠ 0 then m.processThreatChange ref modThreat else m

def addThreatToOwner (addThreat : ThreatManager → Nat → Option ThreatManager) (ref : Nat)
    (modThreat : ℚ) : Option ThreatManager :=
  if (m.refs ref).any HostileReference.valid ∧ modThreat ≥ 0 then
    match w.getCharmerOrOwner (m.guidOf ref) with
    | some victimOwner => if w.isAlive victimOwner then addThreat m victimOwner else some m
    | none => some m
  else some m

/-- The new reference of `_addThreat`, without threat. -/
def addReference (victim : Nat) : ThreatManager :=
  { m with
    refs := Function.update m.refs m.next (some ⟨victim,0,0,true,true,true⟩)
    next := m.next+1
    threatContainer := m.threatContainer ++ [m.next] }

section Fuel

variable (refAddThreat : ThreatManager → Nat → ℚ → Option ThreatManager)

def _addThreatWith (victim : Nat) (threat : ℚ) : Option ThreatManager :=
  match m.getReferenceByTarget m.threatContainer victim with
  | some ref => refAddThreat m ref threat
  | none =>
    match m.getReferenceByTarget m.threatOfflineContainer victim with
    | some ref => refAddThreat m ref threat
    | none =>
      (refAddThreat (m.addReference victim) m.next threat).map fun m' =>
        -- a game master is always offline
        if w.isGameMaster victim then m'.setOnlineOfflineState m.next false else m'

def doAddThreatWith (victim : Nat) (threat : ℚ) : Option ThreatManager :=
  let redirectThreadPct := w.getRedirectThreatPercent victim
  if threat > 0 ∧ redirectThreadPct ≠ 0 then
    match w.getRedirectThreatTarget victim with
    | some redirectTarget =>
      let redirectThreat := threat*redirectThreadPct/100
      if w.isValidProcess redirectTarget none then
        (m._addThreatWith w refAddThreat redirectTarget redirectThreat).bind fun m =>
          m._addThreatWith w refAddThreat victim (threat-redirectThreat)
      else m._addThreatWith w refAddThreat victim (threat-redirectThreat)
    | none => m._addThreatWith w refAddThreat victim threat
  else m._addThreatWith w refAddThreat victim threat

def addThreatWith (victim : Nat) (threat : ℚ) (schoolMask : Nat) (threatSpell : Option Nat) :
    Option ThreatManager :=
  if w.isValidProcess victim threatSpell then
    m.doAddThreatWith w refAddThreat victim (w.calcThreat victim threat schoolMask threatSpell)
  else some m

end Fuel

/-- `HostileReference::addThreat`. It calls itself for the owner of the unit through
`ThreatManager::addThreat`; the depth of these calls is bounded by the fuel. -/
def refAddThreat (w : World) : Nat → ThreatManager → Nat → ℚ → Option ThreatManager
  | 0, _, _, _ => none
  | fuel+1, m, ref, modThreat =>
    (m.changeThreat w ref modThreat).addThreatToOwner w (fun m victimOwner =>
      m.addThreatWith w (refAddThreat w fuel) victimOwner 0 spellSchoolMaskNormal none)
      ref modThreat

def refAddThreatPercent (fuel : Nat) (ref : Nat) (percent : Int) : Option ThreatManager :=
  refAddThreat w fuel m ref (m.threatOf ref*percent/100)

def modifyThreatPercent (fuel : Nat) (victim : Nat) (percent : Int) : Option ThreatManager :=
  match m.getReferenceByTarget m.threatContainer victim with
  | some ref => m.refAddThreatPercent w fuel ref percent
  | none => some m

def setTempThreatModifier (ref : Nat) (threat : ℚ) : ThreatManager :=
  match m.refs ref with
  | none => m
  | some r => m.setRef ref { r with tempThreatModifier := threat }

def tempThreatOf (ref : Nat) : ℚ := (m.refs ref).elim 0 HostileReference.tempThreatModifier

def addTempThreat (fuel : Nat) (ref : Nat) (threat : ℚ) : Option ThreatManager :=
  let m := m.setTempThreatModifier ref threat
  if threat ≠ 0 then refAddThreat w fuel m ref threat else some m

def resetTempThreat (fuel : Nat) (ref : Nat) : Option ThreatManager :=
  if m.tempThreatOf ref ≠ 0 then
    (refAddThreat w fuel m ref (-m.tempThreatOf ref)).map fun m => m.setTempThreatModifier ref 0
  else some m

def tauntApply (fuel : Nat) (taunter : Nat) : Option ThreatManager :=
  match m.currentVictim, m.getReferenceByTarget m.threatContainer taunter with
  | some victim, some ref =>
    if m.threatOf ref < m.threatOf victim ∧ m.tempThreatOf ref = 0 then
      m.addTempThreat w fuel ref (m.threatOf victim-m.threatOf ref)
    else some m
  | _, _ => some m

def tauntFadeOut (fuel : Nat) (taunter : Nat) : Option ThreatManager :=
  match m.getReferenceByTarget m.threatContainer taunter with
  | some ref => m.resetTempThreat w fuel ref
  | none => some m

def invalidate (ref : Nat) : ThreatManager :=
  let m := m.setOnlineOfflineState ref false
  match m.refs ref with
  | none => m
  | some r => m.setRef ref { r with valid := false }

/-- `removeReference` and the deletion of the reference that follows every call of it. -/
def removeReference (ref : Nat) : ThreatManager :=
  match m.refs ref with
  | none => m
  | some _ =>
    let m := m.invalidate ref
    let m := m.processRemoveFromList ref ((m.refs ref).any HostileReference.online)
    { m with refs := Function.update m.refs ref none }

def clearReferences : ThreatManager :=
  { m with
    refs := fun ref =>
      if ref ∈ m.threatContainer ∨ ref ∈ m.threatOfflineContainer then none else m.refs ref
    threatContainer := []
    threatOfflineContainer := []
    currentVictim := none }

/-- `ThreatOrderPred`: the first reference may stand before the second. -/
def mayPrecede (a b : Nat) : Prop := m.threatOf b ≤ m.threatOf a

instance : DecidableRel m.mayPrecede := fun a b =>
  inferInstanceAs (Decidable (m.threatOf b ≤ m.threatOf a))

/-- `ThreatContainer::update`: sorts the container if it has to be sorted. The order of references
with the same threat stays. -/
def update : ThreatManager :=
  { m with
    threatContainer :=
      if m.dirty ∧ m.threatContainer.length > 1 then m.threatContainer.insertionSort m.mayPrecede
      else m.threatContainer
    dirty := false }

/-- The reference that ends the search of `selectNextVictim` when it comes to `currentRef`. -/
def selects (currentVictim : Option Nat) (currentRef : Nat) : Option Nat :=
  if w.canCreatureAttack (m.guidOf currentRef) then
    match currentVictim with
    | none => some currentRef
    | some victim =>
      if victim = currentRef ∨ m.threatOf currentRef ≤ 11/10*m.threatOf victim then
        if victim ≠ currentRef ∧ w.canCreatureAttack (m.guidOf victim) then some victim
        else some currentRef
      -- the 110% rule for targets in melee range, the 130% rule for the others
      else if m.threatOf currentRef > 13/10*m.threatOf victim ∨
          (m.threatOf currentRef > 11/10*m.threatOf victim ∧
            w.isWithinMeleeRange (m.guidOf currentRef)) then some currentRef
      else none
  else none

/-- The search of `selectNextVictim` from one reference of the container on. Units of second choice
are left out unless the search ends with one: then it starts again without leaving out any. -/
def selectFrom (container : List Nat) : Option Nat → List Nat → Option Nat
  | _, [] => none
  | currentVictim, currentRef :: rest =>
    if w.isSecondChoice (m.guidOf currentRef) then
      match rest with
      | [] => container.findSome? (m.selects w currentVictim)
      | next :: rest =>
        -- the threat of a current victim of second choice is not compared with
        selectFrom container (if currentVictim = some currentRef then none else currentVictim)
          (next :: rest)
    else
      match m.selects w currentVictim currentRef with
      | some victim => some victim
      | none => selectFrom container currentVictim rest

def selectNextVictim : Option Nat :=
  m.selectFrom w m.threatContainer m.currentVictim m.threatContainer

def getHostilTarget : ThreatManager × Option Nat :=
  let m := m.update
  let m := { m with currentVictim := m.selectNextVictim w }
  (m,m.currentVictim.map m.guidOf)

end ThreatManager

/-- The calls on a manager, on its references and on the references of a unit. -/
inductive ThreatCall where
  | addThreat (victim : Nat) (threat : ℚ) (schoolMask : Nat) (threatSpell : Option Nat)
  | doAddThreat (victim : Nat) (threat : ℚ)
  | modifyThreatPercent (victim : Nat) (percent : Int)
  | refAddThreatPercent (ref : Nat) (percent : Int)
  | tauntApply (taunter : Nat)
  | tauntFadeOut (taunter : Nat)
  | setOnlineOfflineState (ref : Nat) (isOnline : Bool)
  | updateOnlineStatus (ref : Nat)
  | removeReference (ref : Nat)
  | clearReferences
  | getHostilTarget

namespace ThreatManager

def run (fuel : Nat) (w : World) (m : ThreatManager) :
    ThreatCall → Option (ThreatManager × Option Nat)
  | .addThreat victim threat schoolMask threatSpell =>
    (m.addThreatWith w (refAddThreat w fuel) victim threat schoolMask threatSpell).map (·,none)
  | .doAddThreat victim threat =>
    (m.doAddThreatWith w (refAddThreat w fuel) victim threat).map (·,none)
  | .modifyThreatPercent victim percent => (m.modifyThreatPercent w fuel victim percent).map (·,none)
  | .refAddThreatPercent ref percent => (m.refAddThreatPercent w fuel ref percent).map (·,none)
  | .tauntApply taunter => (m.tauntApply w fuel taunter).map (·,none)
  | .tauntFadeOut taunter => (m.tauntFadeOut w fuel taunter).map (·,none)
  | .setOnlineOfflineState ref isOnline => some (m.setOnlineOfflineState ref isOnline,none)
  | .updateOnlineStatus ref => some (m.updateOnlineStatus w ref,none)
  | .removeReference ref => some (m.removeReference ref,none)
  | .clearReferences => some (m.clearReferences,none)
  | .getHostilTarget => some (m.getHostilTarget w)

def Step (m : ThreatManager) (call : World × ThreatCall) (answer : Option Nat)
    (m' : ThreatManager) : Prop :=
  ∃ fuel, run fuel call.1 m call.2 = some (m',answer)

end ThreatManager

/-- Units that are alive, near and can be attacked; those given are in melee range. -/
def openField (melee : List Nat) : World where
  hatingUnit := 0
  isAlive := fun _ => true
  isGameMaster := fun _ => false
  isInMap := fun _ => true
  inSamePhase := fun _ => true
  noThreat := fun _ => false
  calcThreat := fun _ threat _ _ => threat
  getRedirectThreatPercent := fun _ => 0
  getRedirectThreatTarget := fun _ => none
  getCharmerOrOwner := fun _ => none
  getUnit := fun _ => true
  inFlight := fun _ => false
  isInAccessiblePlaceFor := fun _ => true
  isWithinCombatRange := fun _ => true
  isSecondChoice := fun _ => false
  canCreatureAttack := fun _ => true
  isWithinMeleeRange := fun unit => unit ∈ melee

end TrinityCore.Combat
