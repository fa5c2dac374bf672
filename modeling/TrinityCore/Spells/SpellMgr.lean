import TrinityCore.Lib.Linked

set_option autoImplicit false

/-!
How `SpellMgr` loads the chains of spell ranks: from the talents first, and then from the table
`spell_ranks`. A pointer to a `SpellInfo` stands as the id of the spell. The pointers that spells
have to their nodes are left out, as are the messages.
-/

namespace TrinityCore.SpellMgr

def maxTalentRank : Nat := 5

structure TalentEntry where
  rankID : List UInt32
  length_rankID : rankID.length = maxTalentRank

structure SpellRank where
  firstSpellId : UInt32
  spellId : UInt32
  rank : UInt8
  deriving DecidableEq, Repr

abbrev SpellChainNode := Linked.Node UInt32

abbrev SpellChainMap := Linked.Nodes UInt32

def unloadSpellInfoChains (_ : SpellChainMap) : SpellChainMap := fun _ => none

section Loading

-- the ids that there is a spell of
variable (spellInfoMap : UInt32 → Bool)

def getSpellInfo (spellId : UInt32) : Option UInt32 :=
  if spellInfoMap spellId then some spellId else none

/-- The ranks from the given one on. The list ends where `MAX_TALENT_RANK` is reached. -/
def loadTalentRanks (firstSpell lastSpell : UInt32) :
    Nat → Option UInt32 → List UInt32 → SpellChainMap → SpellChainMap
  | _, _, [], chains => chains
  | rank, prevSpell, spellId :: ranks, chains =>
    if spellId = 0 then chains
    else
      match getSpellInfo spellInfoMap spellId with
      | none => chains
      | some currentSpell =>
        let node : SpellChainNode := {
          first := some firstSpell
          last := some lastSpell
          rank := rank+1
          prev := prevSpell
          next := ranks.head?.bind (getSpellInfo spellInfoMap) }
        loadTalentRanks firstSpell lastSpell (rank+1) (some currentSpell) ranks
          (Function.update chains spellId (some node))

/-- The spell of the highest rank above the first one. -/
def TalentEntry.lastSpell (talent : TalentEntry) : Option UInt32 :=
  (talent.rankID.tail.reverse.find? (· ≠ 0)).bind (getSpellInfo spellInfoMap)

def TalentEntry.firstSpell (talent : TalentEntry) : Option UInt32 :=
  talent.rankID.head?.bind (getSpellInfo spellInfoMap)

def loadTalent (chains : SpellChainMap) (talent : TalentEntry) : SpellChainMap :=
  match talent.lastSpell spellInfoMap with
  | none => chains
  | some lastSpell =>
    match talent.firstSpell spellInfoMap with
    | none => chains
    | some firstSpell =>
      loadTalentRanks spellInfoMap firstSpell lastSpell 0 none talent.rankID chains

def loadSpellTalentRanks (talents : List (Option TalentEntry)) (chains : SpellChainMap) :
    SpellChainMap :=
  (talents.filterMap id).foldl (loadTalent spellInfoMap) (unloadSpellInfoChains chains)

abbrev RankChain := List (UInt32 × UInt8)

/-- Fills one chain, and leaves the rows that are not of it. Before the first row the last spell
is -1. -/
def fillChain : Int32 → List SpellRank → Int32 × RankChain × List SpellRank
  | lastSpell, [] => (lastSpell,[],[])
  | lastSpell, row :: rows =>
    let currentSpell := row.firstSpellId.toInt32
    let lastSpell := if lastSpell = -1 then currentSpell else lastSpell
    if currentSpell = lastSpell then
      let (lastSpell,rankChain,rest) := fillChain lastSpell rows
      (lastSpell,(row.spellId,row.rank) :: rankChain,rest)
    else (lastSpell,[],row :: rows)

def validRanks : Nat → RankChain → Bool
  | _, [] => true
  | curRank, (spellId,rank) :: rankChain =>
    if getSpellInfo spellInfoMap spellId = none then false
    else if rank.toNat ≠ curRank+1 then false
    else validRanks (curRank+1) rankChain

def insertChain (first last : Option UInt32) : UInt32 → RankChain → SpellChainMap → SpellChainMap
  | _, [], chains => chains
  | prevRank, (addedSpell,rank) :: rankChain, chains =>
    let node : SpellChainNode := {
      first := first
      last := last
      rank := rank.toNat
      prev := getSpellInfo spellInfoMap prevRank
      next := rankChain.head?.bind fun next => getSpellInfo spellInfoMap next.1 }
    insertChain first last addedSpell rankChain (Function.update chains addedSpell (some node))

def loadChain (lastSpell : Int32) (rankChain : RankChain) (chains : SpellChainMap) :
    SpellChainMap :=
  match getSpellInfo spellInfoMap lastSpell.toUInt32 with
  | none => chains
  | some first =>
    if rankChain.length < 2 then chains
    else if validRanks spellInfoMap 0 rankChain = false then chains
    else
      let last := rankChain.getLast?.bind fun back => getSpellInfo spellInfoMap back.1
      insertChain spellInfoMap (some first) last 0 rankChain chains

/-- There is at least one row left in each turn. No value stands for running out of turns. -/
def loadChains : Nat → List SpellRank → SpellChainMap → Option SpellChainMap
  | 0, _, _ => none
  | turns+1, rows, chains =>
    let (lastSpell,rankChain,rest) := fillChain (-1) rows
    let chains := loadChain spellInfoMap lastSpell rankChain chains
    if rest = [] then some chains else loadChains turns rest chains

def loadSpellRanks (talents : List (Option TalentEntry)) (rows : List SpellRank)
    (chains : SpellChainMap) : Option SpellChainMap :=
  let chains := loadSpellTalentRanks spellInfoMap talents chains
  if rows = [] then some chains else loadChains spellInfoMap rows.length rows chains

end Loading

end TrinityCore.SpellMgr
