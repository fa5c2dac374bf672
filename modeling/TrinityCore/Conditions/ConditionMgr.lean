import TrinityCore.Lib.OrderedMap

set_option autoImplicit false

namespace TrinityCore.Conditions

structure Row where
  sourceTypeOrReferenceId : Int
  sourceGroup : Nat
  sourceEntry : Int
  sourceId : Int
  elseGroup : Nat
  conditionTypeOrReference : Int
  conditionTarget : Nat
  conditionValue1 : Nat
  conditionValue2 : Nat
  conditionValue3 : Nat
  negativeCondition : Bool
  errorType : Nat
  errorTextId : Nat

structure Condition where
  /-- The object, by the row that it was made for. -/
  address : Nat
  sourceType : Nat
  sourceGroup : Nat
  sourceEntry : Int
  sourceId : Int
  elseGroup : Nat
  conditionType : Nat
  conditionValue1 : Nat
  conditionValue2 : Nat
  conditionValue3 : Nat
  errorType : Nat
  errorTextId : Nat
  referenceId : Nat
  conditionTarget : Nat
  negativeCondition : Bool

def conditionNone : Nat := 0
def conditionMax : Nat := 39

def conditionSourceTypeNone : Nat := 0
def conditionSourceTypeSpell : Nat := 17
def conditionSourceTypeSpellClickEvent : Nat := 18
def conditionSourceTypeVehicleSpell : Nat := 21
def conditionSourceTypeSmartEvent : Nat := 22
def conditionSourceTypeNpcVendor : Nat := 23

def Condition.isLoaded (cond : Condition) : Bool :=
  decide (cond.conditionType > conditionNone ∨ cond.referenceId ≠ 0)

/-- The loot templates, the implicit targets of spells, the gossip menus and their options, and the
four types whose groups have stores of their own. -/
def canHaveSourceGroupSet (sourceType : Nat) : Bool :=
  decide (1 ≤ sourceType ∧ sourceType ≤ 15) || sourceType == conditionSourceTypeSpellClickEvent
    || sourceType == conditionSourceTypeVehicleSpell
    || sourceType == conditionSourceTypeSmartEvent
    || sourceType == conditionSourceTypeNpcVendor

def canHaveSourceIdSet (sourceType : Nat) : Bool := sourceType == conditionSourceTypeSmartEvent

def Condition.getMaxAvailableConditionTargets (cond : Condition) : Nat :=
  if cond.sourceType ∈ [13,14,15,16,17,18,21,22,23,24] then 2 else 1

structure GameData where
  /-- The values fit the type of the condition. -/
  conditionValuesValid : Condition → Bool
  isSourceTypeValid : Condition → Bool
  /-- The loot template, the gossip menu or the spell of the group takes the condition. -/
  addToGroup : Condition → Bool

def GameData.isConditionTypeValid (data : GameData) (cond : Condition) : Bool :=
  if cond.conditionType = conditionNone ∨ cond.conditionType ≥ conditionMax then false
  else if cond.conditionTarget ≥ cond.getMaxAvailableConditionTargets then false
  else data.conditionValuesValid cond

/-- Where a condition is stored, apart from the reference templates. -/
inductive ConditionKey where
  | entry (sourceType : Nat) (sourceEntry : Int)
  | spellClickEvent (sourceGroup : Nat) (sourceEntry : Int)
  | vehicleSpell (sourceGroup : Nat) (sourceEntry : Int)
  | smartEvent (sourceEntry sourceId : Int) (sourceGroup : Nat)
  | npcVendor (sourceGroup : Nat) (sourceEntry : Int)
  deriving DecidableEq

structure ConditionMgr where
  conditionReferenceStore : OrderedMap Nat (List Condition)
  conditionStore : ConditionKey → List Condition
  /-- The conditions that the groups of other stores took. -/
  allocatedMemoryStore : List Condition

def ConditionMgr.clean : ConditionMgr := ⟨OrderedMap.empty,fun _ => [],[]⟩

def Row.condition (row : Row) (address : Nat) : Condition where
  address := address
  sourceType := if row.sourceTypeOrReferenceId ≥ 0 then row.sourceTypeOrReferenceId.toNat
    else conditionSourceTypeNone
  sourceGroup := row.sourceGroup
  sourceEntry := row.sourceEntry
  sourceId := row.sourceId
  elseGroup := row.elseGroup
  conditionType := if row.conditionTypeOrReference ≥ 0 then row.conditionTypeOrReference.toNat
    else conditionNone
  conditionValue1 := row.conditionValue1
  conditionValue2 := row.conditionValue2
  conditionValue3 := row.conditionValue3
  errorType := row.errorType
  errorTextId := row.errorTextId
  referenceId := if row.conditionTypeOrReference < 0 then row.conditionTypeOrReference.natAbs else 0
  conditionTarget := row.conditionTarget
  negativeCondition := row.negativeCondition

/-- Only the conditions of spells have errors. -/
def Condition.withoutErrors (cond : Condition) : Condition :=
  let errorType := if cond.sourceType = conditionSourceTypeSpell then cond.errorType else 0
  { cond with
    errorType := errorType
    errorTextId := if errorType = 0 then 0 else cond.errorTextId }

namespace ConditionMgr

variable (data : GameData) (mgr : ConditionMgr)

def addToReferences (refId : Nat) (cond : Condition) : ConditionMgr :=
  let conditions := (mgr.conditionReferenceStore.find? refId).getD []
  { mgr with
    conditionReferenceStore := mgr.conditionReferenceStore.insert refId (conditions ++ [cond]) }

def addToStore (key : ConditionKey) (cond : Condition) : ConditionMgr :=
  let conditions := mgr.conditionStore key
  { mgr with conditionStore := Function.update mgr.conditionStore key (conditions ++ [cond]) }

def addToGroup (cond : Condition) : ConditionMgr :=
  if cond.sourceType = conditionSourceTypeSpellClickEvent then
    mgr.addToStore (.spellClickEvent cond.sourceGroup cond.sourceEntry) cond
  else if cond.sourceType = conditionSourceTypeVehicleSpell then
    mgr.addToStore (.vehicleSpell cond.sourceGroup cond.sourceEntry) cond
  else if cond.sourceType = conditionSourceTypeSmartEvent then
    mgr.addToStore (.smartEvent cond.sourceEntry cond.sourceId cond.sourceGroup) cond
  else if cond.sourceType = conditionSourceTypeNpcVendor then
    mgr.addToStore (.npcVendor cond.sourceGroup cond.sourceEntry) cond
  else if data.addToGroup cond then
    { mgr with allocatedMemoryStore := mgr.allocatedMemoryStore ++ [cond] }
  else mgr

def loadRow (address : Nat) (row : Row) : ConditionMgr :=
  let cond := row.condition address
  if row.conditionTypeOrReference < 0 ∧
      row.conditionTypeOrReference = row.sourceTypeOrReferenceId then mgr
  else if row.conditionTypeOrReference ≥ 0 ∧ !data.isConditionTypeValid cond then mgr
  else if row.sourceTypeOrReferenceId < 0 then
    mgr.addToReferences row.sourceTypeOrReferenceId.natAbs cond
  else if row.conditionTypeOrReference ≥ 0 ∧ !data.isSourceTypeValid cond then mgr
  else if cond.sourceGroup ≠ 0 ∧ !canHaveSourceGroupSet cond.sourceType then mgr
  else if cond.sourceId ≠ 0 ∧ !canHaveSourceIdSet cond.sourceType then mgr
  else
    let cond := cond.withoutErrors
    if cond.sourceGroup ≠ 0 then mgr.addToGroup data cond
    else mgr.addToStore (.entry cond.sourceType cond.sourceEntry) cond

def loadRows : ConditionMgr → Nat → List Row → ConditionMgr
  | mgr, _, [] => mgr
  | mgr, address, row :: rows => loadRows (mgr.loadRow data address row) (address+1) rows

end ConditionMgr

def loadConditions (data : GameData) (rows : List Row) : ConditionMgr :=
  ConditionMgr.clean.loadRows data 0 rows

section Evaluation

variable (store : OrderedMap Nat (List Condition)) (meets : Condition → Bool)

/-- A reference is evaluated as a list of its own, and one without a template changes nothing. -/
def conditionMet (recurse : List Condition → Option Bool) (cond : Condition) : Option Bool :=
  if cond.referenceId ≠ 0 then
    match store.find? cond.referenceId with
    | some conditions => recurse conditions
    | none => some true
  else some (meets cond)

/-- One turn of the loop of `IsObjectMeetToConditionList`: a group that has failed is skipped. -/
def checkElseGroup (recurse : List Condition → Option Bool) (groups : OrderedMap Nat Bool)
    (cond : Condition) : Option (OrderedMap Nat Bool) :=
  if cond.isLoaded then
    if groups.find? cond.elseGroup = some false then some groups
    else
      let groups := if groups.find? cond.elseGroup = none then groups.insert cond.elseGroup true
        else groups
      (conditionMet store meets recurse cond).map fun met =>
        if met then groups else groups.insert cond.elseGroup false
  else some groups

/-- The fuel bounds the depth of the recursion. -/
def isObjectMeetToConditionList : Nat → List Condition → Option Bool
  | 0, _ => none
  | fuel+1, conditions =>
    (conditions.foldlM (checkElseGroup store meets (isObjectMeetToConditionList fuel))
      OrderedMap.empty).map fun groups => groups.values.any id

def isObjectMeetToConditions (fuel : Nat) (conditions : List Condition) : Option Bool :=
  if conditions = [] then some true
  else isObjectMeetToConditionList store meets fuel conditions

end Evaluation

end TrinityCore.Conditions
