import TrinityCore.Lib.OrderedSet
import TrinityCore.Lib.Visit
import TrinityCore.Spells.SpellMgr

set_option autoImplicit false

/-!
The groups of spells, which are loaded from the tables `spell_group` and `spell_group_stack_rules`,
and the rule by which two spells stack. A multimap stands as the list of its entries in the order
in which they are inserted: it is only read at one key. The messages are left out.
-/

namespace TrinityCore.SpellMgr

instance linearOrderUInt32 : LinearOrder UInt32 where
  le_refl := UInt32.le_refl
  le_trans _ _ _ := UInt32.le_trans
  le_antisymm _ _ := UInt32.le_antisymm
  le_total := UInt32.le_total
  lt_iff_le_not_ge a b :=
    (lt_iff_le_not_ge : a.toNat < b.toNat ↔ a.toNat ≤ b.toNat ∧ ¬ b.toNat ≤ a.toNat)
  toDecidableLE := inferInstance
  toDecidableEq := inferInstance
  toDecidableLT := inferInstance

def spellGroupCoreRangeMax : UInt32 := 5

def spellGroupDbRangeMin : UInt32 := 1000

inductive SpellGroupStackRule where
  | default
  | exclusive
  | exclusiveFromSameCaster
  | exclusiveSameEffect
  | exclusiveHighest
  deriving DecidableEq, Repr

structure SpellGroupRow where
  id : UInt32
  spellId : Int32
  deriving DecidableEq, Repr

structure StackRuleRow where
  groupId : UInt32
  stackRule : UInt8
  deriving DecidableEq, Repr

abbrev SpellGroupSpellMap := List (UInt32 × Int32)

abbrev SpellSpellGroupMap := List (UInt32 × UInt32)

abbrev SpellGroupStackMap := UInt32 → Option SpellGroupStackRule

structure SpellGroups where
  spellGroupSpell : SpellGroupSpellMap
  spellSpellGroup : SpellSpellGroupMap
  deriving DecidableEq, Repr

/-- The spells that there are, and the chains that `LoadSpellRanks` has put them into. -/
structure SpellStore where
  spellInfoMap : UInt32 → Bool
  chains : SpellChainMap

namespace SpellStore

variable (S : SpellStore)

def getRank (spellId : UInt32) : Nat := ((S.chains spellId).map Linked.Node.rank).getD 1

def getFirstSpellInChain (spellId : UInt32) : UInt32 :=
  match S.chains spellId with
  | some node => node.first.getD spellId
  | none => spellId

/-- `SpellInfo::GetFirstRankSpell`, by the node that the spell has a pointer to. -/
def getFirstRankSpell (spellId : UInt32) : UInt32 := S.getFirstSpellInChain spellId

end SpellStore

def abs (spellId : Int32) : UInt32 := (-spellId).toUInt32

def getSpellGroupSpellMapBounds (m : SpellGroupSpellMap) (groupId : UInt32) : List Int32 :=
  (m.filter fun entry => entry.1 = groupId).map Prod.snd

def groupEntry (spellId : Int32) : UInt32 ⊕ UInt32 :=
  if spellId < 0 then .inl (abs spellId) else .inr spellId.toUInt32

def groupEntries (m : SpellGroupSpellMap) : Visit.Entries UInt32 UInt32 :=
  fun groupId => (getSpellGroupSpellMapBounds m groupId).map groupEntry

/-- No value stands for running out of depth. -/
def getSetOfSpellsInSpellGroup (m : SpellGroupSpellMap) (depth : Nat) (groupId : UInt32) :
    Option (Finset UInt32) :=
  (Visit.visit (groupEntries m) depth groupId ⟨∅,∅⟩).map Visit.Seen.found

section Loading

variable (S : SpellStore)

def readRows (rows : List SpellGroupRow) : List SpellGroupRow :=
  rows.filter fun row => ¬ (row.id ≤ spellGroupDbRangeMin ∧ spellGroupCoreRangeMax ≤ row.id)

def readGroups (rows : List SpellGroupRow) : Finset UInt32 :=
  ((readRows rows).map SpellGroupRow.id).toFinset

/-- A row is kept if its group or its spell exists, and the spell is of the first rank. -/
def keptRow (groups : Finset UInt32) (spellId : Int32) : Bool :=
  if spellId < 0 then decide (abs spellId ∈ groups)
  else
    match getSpellInfo S.spellInfoMap spellId.toUInt32 with
    | none => false
    | some spellInfo => ¬ 1 < S.getRank spellInfo

def loadedRows (rows : List SpellGroupRow) : SpellGroupSpellMap :=
  ((readRows rows).map fun row => (row.id,row.spellId)).filter fun entry =>
    keptRow S (readGroups rows) entry.2

/-- No value stands for a collection that does not end. -/
def loadSpellGroups (rows : List SpellGroupRow) : Option SpellGroups :=
  let groups := readGroups rows
  let m := loadedRows S rows
  ((OrderedSet.elems groups).foldlM (fun spellGroups groupId =>
    (getSetOfSpellsInSpellGroup m (groups.card+1) groupId).map fun spells =>
      spellGroups ++ (OrderedSet.elems spells).map fun spellId => (spellId,groupId)) []).map
    fun spellGroups => ⟨m,spellGroups⟩

def stackRuleOf : Nat → Option SpellGroupStackRule
  | 0 => some .default
  | 1 => some .exclusive
  | 2 => some .exclusiveFromSameCaster
  | 3 => some .exclusiveSameEffect
  | 4 => some .exclusiveHighest
  | _ => none

/-- Rules that do not exist, and those for groups without rows, are passed over. -/
def loadSpellGroupStackRules (sg : SpellGroups) (rows : List StackRuleRow) : SpellGroupStackMap :=
  rows.foldl (fun stack row =>
    match stackRuleOf row.stackRule.toNat with
    | none => stack
    | some rule =>
      if getSpellGroupSpellMapBounds sg.spellGroupSpell row.groupId = [] then stack
      else Function.update stack row.groupId (some rule)) fun _ => none

end Loading

section Checking

variable (S : SpellStore) (sg : SpellGroups)

def getSpellSpellGroupMapBounds (spellId : UInt32) : List UInt32 :=
  (sg.spellSpellGroup.filter fun entry => entry.1 = S.getFirstSpellInChain spellId).map Prod.snd

def isSpellMemberOfSpellGroup (spellId groupId : UInt32) : Bool :=
  (getSpellSpellGroupMapBounds S sg spellId).any fun group => group = groupId

/-- The groups of the first spell whose rules are asked for: those that the second one is in as
well, unless they list a group that both are in. -/
def consultedGroups (spellId1 spellId2 : UInt32) : Finset UInt32 :=
  ((getSpellSpellGroupMapBounds S sg spellId1).filter fun group =>
    isSpellMemberOfSpellGroup S sg spellId2 group &&
      !(getSpellGroupSpellMapBounds sg.spellGroupSpell group).any fun entry =>
        decide (entry < 0) && (isSpellMemberOfSpellGroup S sg spellId1 (abs entry) &&
          isSpellMemberOfSpellGroup S sg spellId2 (abs entry))).toFinset

/-- The rules are asked for until one is not the default. -/
def ruleOf (stack : SpellGroupStackMap) : SpellGroupStackRule → List UInt32 → SpellGroupStackRule
  | rule, [] => rule
  | rule, group :: groups =>
    let rule := (stack group).getD rule
    if rule ≠ .default then rule else ruleOf stack rule groups

def checkSpellGroupStackRules (stack : SpellGroupStackMap) (spellInfo1 spellInfo2 : UInt32) :
    SpellGroupStackRule :=
  let spellId1 := S.getFirstRankSpell spellInfo1
  let spellId2 := S.getFirstRankSpell spellInfo2
  if spellId1 = spellId2 then .default
  else ruleOf stack .default (OrderedSet.elems (consultedGroups S sg spellId1 spellId2))

end Checking

end TrinityCore.SpellMgr
