import TrinityCore.Lib.OrderedMap

set_option autoImplicit false

namespace TrinityCore.Groups

inductive RollVote where
  | pass | need | greed | disenchant | notEmitedYet | notValid
deriving DecidableEq, Repr

def maxRollType : Nat := 4

def RollVote.flag : RollVote → BitVec 8
  | .pass => 0x01
  | .need => 0x02
  | .greed => 0x04
  | .disenchant => 0x08
  | .notEmitedYet => 0
  | .notValid => 0

def rollAllTypeNoDisenchant : BitVec 8 := 0x07

def inc (n : Nat) : Nat := (n+1) % 256

def dec (n : Nat) : Nat := (n+255) % 256

structure ItemTemplate where
  quality : Nat
  disenchantID : Nat
  requiredDisenchantSkill : Nat
  /-- `ITEM_FLAGS_EXTRA_NEED_ROLL_DISABLED`. -/
  needRollDisabled : Bool

structure LootItem where
  itemid : Nat
  count : Nat
  isLooted : Bool
  isBlocked : Bool
  freeforall : Bool
  isUnderthreshold : Bool
  followLootRules : Bool
deriving DecidableEq

structure Loot where
  items : List LootItem
  questItems : List LootItem
  unlootedCount : Nat

namespace Loot

def itemAt (l : Loot) (slot : Nat) : Option LootItem :=
  if l.items.length ≤ slot then l.questItems[slot-l.items.length]? else l.items[slot]?

def modifyAt (l : Loot) (slot : Nat) (f : LootItem → LootItem) : Loot :=
  if l.items.length ≤ slot then
    { l with questItems := l.questItems.modify (slot-l.items.length) f }
  else { l with items := l.items.modify slot f }

end Loot

structure Roll where
  itemGUID : Nat
  itemid : Nat
  /-- The loot that the roll refers to. -/
  loot : Nat
  playerVote : OrderedMap Nat RollVote
  totalPlayersRolling : Nat
  totalNeed : Nat
  totalGreed : Nat
  totalPass : Nat
  itemSlot : Nat
  rollVoteMask : BitVec 8

namespace Roll

def new (itemGUID : Nat) (item : LootItem) (loot slot : Nat) : Roll where
  itemGUID := itemGUID
  itemid := item.itemid
  loot := loot
  playerVote := .empty
  totalPlayersRolling := 0
  totalNeed := 0
  totalGreed := 0
  totalPass := 0
  itemSlot := slot
  rollVoteMask := rollAllTypeNoDisenchant

def join (r : Roll) (guid : Nat) (passes : Bool) : Roll :=
  if passes then
    { r with
      totalPlayersRolling := inc r.totalPlayersRolling,
      playerVote := r.playerVote.insert guid .pass,
      totalPass := inc r.totalPass }
  else
    { r with
      totalPlayersRolling := inc r.totalPlayersRolling,
      playerVote := r.playerVote.insert guid .notEmitedYet }

def vote (r : Roll) (guid : Nat) : Nat → Roll
  | 0 => { r with totalPass := inc r.totalPass, playerVote := r.playerVote.insert guid .pass }
  | 1 => { r with totalNeed := inc r.totalNeed, playerVote := r.playerVote.insert guid .need }
  | 2 => { r with totalGreed := inc r.totalGreed, playerVote := r.playerVote.insert guid .greed }
  | 3 => { r with totalGreed := inc r.totalGreed,
                  playerVote := r.playerVote.insert guid .disenchant }
  | _ => r

def allCounted (r : Roll) : Bool :=
  r.totalPlayersRolling ≤ r.totalPass+r.totalNeed+r.totalGreed

def withdraw (r : Roll) (guid : Nat) (v : RollVote) : Roll :=
  { r with
    totalGreed := if v = .greed ∨ v = .disenchant then dec r.totalGreed else r.totalGreed,
    totalNeed := if v = .need then dec r.totalNeed else r.totalNeed,
    totalPass := if v = .pass then dec r.totalPass else r.totalPass,
    totalPlayersRolling :=
      if v = .notValid then r.totalPlayersRolling else dec r.totalPlayersRolling,
    playerVote := r.playerVote.erase guid }

end Roll

/-- What the start of the rolls asks of the group, the world and the players. -/
structure Party where
  /-- The members that are linked to the group; a player is linked once. -/
  members : { l : List Nat // l.Nodup }
  lootThreshold : Nat
  maxEnchantingLevel : Nat
  itemTemplate : Nat → Option ItemTemplate
  allowedForPlayer : LootItem → Nat → Bool
  isWithinDistInMap : Nat → Bool
  passOnGroupLoot : Nat → Bool

/-- What the decision of a roll asks of the world and the players. The rolls are told apart by
their item guids, since what a player can store changes from one to the next. -/
structure World where
  /-- The map of a player, for players in the world. -/
  findPlayer : Nat → Option Nat
  isConnected : Nat → Bool
  connected_of_find : ∀ guid map, findPlayer guid = some map → isConnected guid = true
  /-- No player has the guid 0. -/
  findPlayer_zero : findPlayer 0 = none
  /-- The number of a player for an item, less one. -/
  urand : Nat → Nat → Fin 100
  canStoreNewItem : Nat → Nat → Nat → Nat → Bool
  /-- What an item is disenchanted into, as ids and counts. -/
  materials : Nat → List (Nat × Nat)
  /-- Whether the winner can store the material of a slot when its turn comes. -/
  canStoreMaterial : Nat → Nat → Bool

structure Looting where
  rollId : List Roll
  loots : Nat → Option Loot
  nextItemGUID : Nat
  nextLoot : Nat

namespace Looting

def empty : Looting := { rollId := [], loots := fun _ => none, nextItemGUID := 0, nextLoot := 0 }

def addLoot (s : Looting) (l : Loot) : Looting :=
  { s with loots := Function.update s.loots s.nextLoot (some l), nextLoot := s.nextLoot+1 }

def clearLoot (s : Looting) (loot : Nat) : Looting :=
  { s with loots := Function.update s.loots loot none }

def modifyLoot (s : Looting) (loot : Nat) (f : Loot → Loot) : Looting :=
  { s with loots := Function.update s.loots loot ((s.loots loot).map f) }

def newRoll (p : Party) (s : Looting) (item : LootItem) (loot slot : Nat) (autoPass : Bool) : Roll :=
  (p.members.val.filter fun guid => p.allowedForPlayer item guid && p.isWithinDistInMap guid).foldl
    (fun r guid => r.join guid (autoPass && p.passOnGroupLoot guid))
    (Roll.new s.nextItemGUID item loot slot)

def startRoll (s : Looting) (r : Roll) : Looting :=
  let s := { s with nextItemGUID := s.nextItemGUID+1 }
  if 0 < r.totalPlayersRolling then
    { s with rollId := s.rollId ++ [r] }.modifyLoot r.loot
      (·.modifyAt r.itemSlot fun item => { item with isBlocked := true })
  else s

def voteMask (p : Party) (proto : ItemTemplate) (stripNeed : Bool) (mask : BitVec 8) : BitVec 8 :=
  let mask :=
    if proto.disenchantID ≠ 0 ∧ proto.requiredDisenchantSkill ≤ p.maxEnchantingLevel then
      mask ||| RollVote.disenchant.flag
    else mask
  if stripNeed && proto.needRollDisabled then mask &&& ~~~RollVote.need.flag else mask

/-- The first loop of `GroupLoot` and `NeedBeforeGreed`; the latter reads the template without
a check, which is fine since a loot has no item without one. -/
def offerItem (p : Party) (stripNeed : Bool) (loot : Nat) (s : Looting) (slot : Nat) : Looting :=
  match (s.loots loot).bind (·.items[slot]?) with
  | none => s
  | some item =>
    if item.freeforall then s
    else
      match p.itemTemplate item.itemid with
      | none => s
      | some proto =>
        if p.lootThreshold ≤ proto.quality then
          let r := newRoll p s item loot slot true
          s.startRoll { r with rollVoteMask := voteMask p proto stripNeed r.rollVoteMask }
        else
          s.modifyLoot loot (·.modifyAt slot fun item => { item with isUnderthreshold := true })

def offerQuestItem (p : Party) (loot first : Nat) (s : Looting) (i : Nat) : Looting :=
  match (s.loots loot).bind (·.questItems[i]?) with
  | none => s
  | some item =>
    if item.followLootRules then
      match p.itemTemplate item.itemid with
      | none => s
      | some _ => s.startRoll (newRoll p s item loot (first+i) false)
    else s

def offer (p : Party) (stripNeed : Bool) (loot : Nat) (s : Looting) : Looting :=
  match s.loots loot with
  | none => s
  | some l =>
    (List.range l.questItems.length).foldl (offerQuestItem p loot l.items.length)
      ((List.range l.items.length).foldl (offerItem p stripNeed loot) s)

def groupLoot (p : Party) (loot : Nat) (s : Looting) : Looting := s.offer p false loot

def needBeforeGreed (p : Party) (loot : Nat) (s : Looting) : Looting := s.offer p true loot

def getRoll (s : Looting) (guid : Nat) : Option Nat :=
  s.rollId.findIdx? fun r => r.itemGUID = guid ∧ (s.loots r.loot).isSome

def isPresent (w : World) (allowedMap : Option Nat) (guid : Nat) : Bool :=
  match w.findPlayer guid with
  | none => false
  | some map => allowedMap = none ∨ allowedMap = some map

structure RollOff where
  maxguid : Nat
  maxresul : Nat
  rollvote : RollVote
  total : Nat
deriving DecidableEq, Repr

def RollOff.next (w : World) (allowedMap : Option Nat) (itemGUID : Nat)
    (eligible : RollVote → Bool) (o : RollOff) (e : Nat × RollVote) : RollOff :=
  if eligible e.2 then
    if isPresent w allowedMap e.1 then
      let randomN := (w.urand itemGUID e.1).val+1
      if o.maxresul < randomN then
        { o with maxguid := e.1, maxresul := randomN, rollvote := e.2 }
      else o
    else { o with total := dec o.total }
  else o

def rollOff (w : World) (allowedMap : Option Nat) (r : Roll) (eligible : RollVote → Bool)
    (total : Nat) : RollOff :=
  r.playerVote.entries.foldl (RollOff.next w allowedMap r.itemGUID eligible)
    { maxguid := 0, maxresul := 0, rollvote := .notValid, total := total }

def giveItem (s : Looting) (r : Roll) : Looting :=
  s.modifyLoot r.loot fun l =>
    { l.modifyAt r.itemSlot (fun item => { item with isLooted := true }) with
      unlootedCount := dec l.unlootedCount }

def unblockItem (s : Looting) (r : Roll) : Looting :=
  s.modifyLoot r.loot (·.modifyAt r.itemSlot fun item => { item with isBlocked := false })

/-- The winner is told, and takes the item if he can store it. An item to be disenchanted is taken
in any case. -/
def award (w : World) (s : Looting) (r : Roll) (o : RollOff) : Looting :=
  if w.isConnected o.maxguid then
    if o.rollvote = .disenchant then s.giveItem r
    else
      match (s.loots r.loot).bind (·.itemAt r.itemSlot) with
      | none => s
      | some item =>
        if w.canStoreNewItem r.itemGUID o.maxguid r.itemid item.count then s.giveItem r
        else s.unblockItem r
  else s

def isNeed (v : RollVote) : Bool := v = .need

def isGreed (v : RollVote) : Bool := v = .greed ∨ v = .disenchant

/-- The voters of a kind roll: the loot afterwards, and how many of them are left. -/
def settle (w : World) (allowedMap : Option Nat) (s : Looting) (r : Roll)
    (eligible : RollVote → Bool) (total : Nat) : Looting × Nat :=
  if r.playerVote.entries = [] then (s,total)
  else
    let o := rollOff w allowedMap r eligible total
    if o.maxguid ≠ 0 then (s.award w r o,o.total) else (s,0)

def settleNeed (w : World) (allowedMap : Option Nat) (s : Looting) (r : Roll) : Looting × Nat :=
  if 0 < r.totalNeed then settle w allowedMap s r isNeed r.totalNeed else (s,r.totalNeed)

/-- Not in place of the former, since the players who need the item can all be gone. -/
def settleGreed (w : World) (allowedMap : Option Nat) (s : Looting) (r : Roll) (totalNeed : Nat) :
    Looting × Nat :=
  if totalNeed = 0 ∧ 0 < r.totalGreed then settle w allowedMap s r isGreed r.totalGreed
  else (s,r.totalGreed)

def countTheRoll (w : World) (allowedMap : Option Nat) (s : Looting) (i : Nat) : Looting :=
  match s.rollId[i]? with
  | none => s
  | some r =>
    let erased := { s with rollId := s.rollId.eraseIdx i }
    if (s.loots r.loot).isNone then erased
    else
      let need := settleNeed w allowedMap erased r
      let greed := settleGreed w allowedMap need.1 r need.2
      if need.2 = 0 ∧ greed.2 = 0 then greed.1.unblockItem r else greed.1

/-- The roll that a vote is for, unless one of the checks of `CountRollVote` drops the vote. -/
def openRoll (s : Looting) (playerGUID guid : Nat) : Option (Nat × Roll) :=
  match s.getRoll guid with
  | none => none
  | some i =>
    match s.rollId[i]? with
    | none => none
    | some r =>
      -- a player who joins after the roll began has no vote
      if r.playerVote.find? playerGUID = none then none
      else if (s.loots r.loot).any (·.items = []) then none
      else some (i,r)

def countRollVote (w : World) (playerGUID guid choice : Nat) (s : Looting) : Looting :=
  match s.openRoll playerGUID guid with
  | none => s
  | some (i,r) =>
    let r := r.vote playerGUID choice
    let s := { s with rollId := s.rollId.set i r }
    if r.allCounted then s.countTheRoll w none i else s

/-- The rolls of a loot are decided one after the other, starting over each time. -/
def endRolls (w : World) (loot : Nat) (allowedMap : Option Nat) : Nat → Looting → Looting
  | 0, s => s
  | n+1, s =>
    match s.rollId.findIdx? fun r => r.loot = loot ∧ (s.loots loot).isSome with
    | none => s
    | some i => endRolls w loot allowedMap n (s.countTheRoll w allowedMap i)

/-- `EndRoll`: each roll that is decided is erased, so there are as many turns as rolls. -/
def endRoll (w : World) (loot : Nat) (allowedMap : Option Nat) (s : Looting) : Looting :=
  s.endRolls w loot allowedMap s.rollId.length

def removeVote (w : World) (guid : Nat) (s : Looting) (i : Nat) : Looting :=
  match s.rollId[i]? with
  | none => s
  | some r =>
    match r.playerVote.find? guid with
    | none => s
    | some v =>
      { s with rollId := s.rollId.set i (r.withdraw guid v) }.countRollVote w guid r.itemGUID
        maxRollType

def removeVotes (w : World) (guid : Nat) (s : Looting) : Looting :=
  (List.range s.rollId.length).foldl (removeVote w guid) s

end Looting

end TrinityCore.Groups
