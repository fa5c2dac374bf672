import TrinityCore.Groups.LootRolls
import TrinityCore.Lib.Run
import TrinityCore.Lib.Tally

set_option autoImplicit false

namespace TrinityCore.Groups

def maxGroupSize : Nat := 5

def maxRaidSize : Nat := 40

def maxRaidSubgroups : Nat := maxRaidSize/maxGroupSize

def groupTypeBgRaid : BitVec 8 := 0x03

def groupTypeRaid : BitVec 8 := 0x02

def groupTypeUnk1 : BitVec 8 := 0x04

def groupTypeLfg : BitVec 8 := 0x08

def memberFlagAssistant : BitVec 8 := 0x01

structure MemberSlot where
  guid : Nat
  group : Nat
  flags : BitVec 8
  roles : Nat
deriving DecidableEq, Repr

structure Group where
  leaderGuid : Nat
  groupType : BitVec 8
  /-- `m_bgGroup` is set. -/
  bgGroup : Bool
  /-- `m_bfGroup` is set. -/
  bfGroup : Bool
  memberSlots : List MemberSlot
  subGroupsCounts : Option (Nat → Nat)

namespace Group

def isRaidGroup (g : Group) : Bool := g.groupType &&& groupTypeRaid ≠ 0

def isLFGGroup (g : Group) : Bool := g.groupType &&& groupTypeLfg ≠ 0

def getMembersCount (g : Group) : Nat := g.memberSlots.length

def isFull (g : Group) : Bool :=
  if g.isRaidGroup then maxRaidSize ≤ g.memberSlots.length
  else maxGroupSize ≤ g.memberSlots.length

def isLeader (g : Group) (guid : Nat) : Bool := g.leaderGuid = guid

def slot? (g : Group) (guid : Nat) : Option MemberSlot :=
  g.memberSlots.find? fun slot => slot.guid = guid

def isAssistant (g : Group) (guid : Nat) : Bool :=
  (g.slot? guid).any fun slot => slot.flags &&& memberFlagAssistant ≠ 0

/-- Battleground and battlefield groups are not stored. -/
def isStored (g : Group) : Bool := !g.bgGroup && !g.bfGroup

def hasFreeSlotSubGroup (g : Group) (subgroup : Nat) : Bool :=
  g.subGroupsCounts.any fun c => c subgroup < maxGroupSize

def subGroupCounterIncrease (g : Group) (subgroup : Nat) : Group :=
  { g with subGroupsCounts :=
      g.subGroupsCounts.map fun c => Function.update c subgroup (inc (c subgroup)) }

def subGroupCounterDecrease (g : Group) (subgroup : Nat) : Group :=
  { g with subGroupsCounts :=
      g.subGroupsCounts.map fun c => Function.update c subgroup (dec (c subgroup)) }

def initRaidSubGroupsCounter (g : Group) : Group :=
  { g with subGroupsCounts := some (g.memberSlots.foldl
      (fun c slot => Function.update c slot.group (inc (c slot.group))) fun _ => 0) }

def addSlot (g : Group) (slot : MemberSlot) : Group :=
  { g with memberSlots := g.memberSlots ++ [slot] }.subGroupCounterIncrease slot.group

/-- A group without members; a raid has counters from the start. -/
def new (leaderGuid : Nat) (groupType : BitVec 8) (bgGroup bfGroup : Bool) : Group :=
  let g : Group :=
    { leaderGuid := leaderGuid,
      groupType := groupType,
      bgGroup := bgGroup,
      bfGroup := bfGroup,
      memberSlots := [],
      subGroupsCounts := none }
  if g.isRaidGroup then g.initRaidSubGroupsCounter else g

/-- The sub group of a new member, the first one that is not full. -/
def freeSubGroup (g : Group) : Option Nat :=
  match g.subGroupsCounts with
  | none => some 0
  | some c => (List.range maxRaidSubgroups).find? fun subgroup => c subgroup < maxGroupSize

def modifySlot (g : Group) (guid : Nat) (f : MemberSlot → MemberSlot) : Group :=
  { g with memberSlots := Tally.modifyFirst (fun slot => slot.guid = guid) f g.memberSlots }

def eraseSlot (g : Group) (guid : Nat) : Group :=
  { g with memberSlots := g.memberSlots.eraseP fun slot => slot.guid = guid }

def minMembers (g : Group) : Nat := if g.bgGroup || g.isLFGGroup || g.bfGroup then 1 else 2

def minLinked (g : Group) : Nat := if g.isLFGGroup || g.bgGroup then 1 else 2

def dropMember (g : Group) (guid : Nat) : Group :=
  match g.slot? guid with
  | none => g
  | some slot => (g.subGroupCounterDecrease slot.group).eraseSlot guid

end Group

structure GroupRow where
  leaderGuid : Nat
  groupType : BitVec 8
deriving DecidableEq, Repr

structure MemberRow where
  memberGuid : Nat
  memberFlags : BitVec 8
  subgroup : Nat
  roles : Nat
deriving DecidableEq, Repr

structure Database where
  group : Option GroupRow
  members : List MemberRow

namespace Database

def empty : Database := { group := none, members := [] }

def insertMember (db : Database) (row : MemberRow) : Database :=
  if db.members.any (·.memberGuid = row.memberGuid) then db
  else { db with members := db.members ++ [row] }

def deleteMember (db : Database) (guid : Nat) : Database :=
  { db with members := db.members.filter (·.memberGuid ≠ guid) }

def updateMember (db : Database) (guid : Nat) (f : MemberRow → MemberRow) : Database :=
  { db with members := db.members.map fun row => if row.memberGuid = guid then f row else row }

def updateGroup (db : Database) (f : GroupRow → GroupRow) : Database :=
  { db with group := db.group.map f }

end Database

structure Realm where
  group : Option Group
  db : Database
  looting : Looting

inductive GroupKind where
  | party | lfg | battleground | battlefield
deriving DecidableEq, Repr

def GroupKind.groupType : GroupKind → BitVec 8
  | .party => 0
  | .lfg => groupTypeLfg ||| groupTypeUnk1
  | .battleground => groupTypeBgRaid
  | .battlefield => groupTypeBgRaid

inductive RemoveMethod where
  | default | kick | leave | kickLfg
deriving DecidableEq, Repr

structure Removal where
  world : World
  method : RemoveMethod
  /-- The members that are linked to the group afterwards. -/
  memberMgrSize : Nat
  /-- The last member of a dungeon group is not in the dungeon any more. -/
  leftDungeon : Bool

namespace Realm

def start : Realm := { group := none, db := .empty, looting := .empty }

def addMember (guid : Nat) (s : Realm) : Realm :=
  match s.group with
  | none => s
  | some g =>
    match g.freeSubGroup with
    | none => s
    | some subgroup =>
      { s with
        group := some (g.addSlot { guid := guid, group := subgroup, flags := 0, roles := 0 }),
        db :=
          if g.isStored then
            s.db.insertMember
              { memberGuid := guid, memberFlags := 0, subgroup := subgroup, roles := 0 }
          else s.db }

def create (leader : Nat) (kind : GroupKind) (s : Realm) : Realm :=
  match s.group with
  | some _ => s
  | none =>
    let g := Group.new leader kind.groupType (kind = .battleground) (kind = .battlefield)
    addMember leader
      { s with
        group := some g,
        db := if g.isStored then
            { s.db with group := some { leaderGuid := leader, groupType := g.groupType } }
          else s.db }

def disband (s : Realm) : Realm :=
  match s.group with
  | none => s
  | some g =>
    { group := none,
      db := if g.isStored then .empty else s.db,
      looting := { s.looting with rollId := [] } }

def changeLeader (w : World) (guid : Nat) (s : Realm) : Realm :=
  match s.group with
  | none => s
  | some g =>
    if (g.slot? guid).isSome && w.isConnected guid then
      { s with
        group := some ({ g with leaderGuid := guid }.modifySlot guid fun slot =>
          { slot with flags := slot.flags &&& ~~~memberFlagAssistant }),
        db := if g.isStored then s.db.updateGroup fun row => { row with leaderGuid := guid }
          else s.db }
    else s

/-- The first connected member leads if the leader is gone. -/
def pickLeader (w : World) (guid : Nat) (s : Realm) : Realm :=
  match s.group with
  | none => s
  | some g =>
    if g.leaderGuid = guid then
      match g.memberSlots.find? fun slot => w.isConnected slot.guid with
      | none => s
      | some slot => s.changeLeader w slot.guid
    else s

def disbandIfSmall (q : Removal) (s : Realm) : Realm :=
  match s.group with
  | none => s
  | some g =>
    if g.isLFGGroup ∧ g.getMembersCount = 1 ∧ q.leftDungeon then s.disband
    else if q.memberMgrSize < g.minLinked then s.disband
    else s

def removeMember (q : Removal) (guid : Nat) (s : Realm) : Realm :=
  match s.group with
  | none => s
  | some g =>
    -- the kick is voted on first
    if g.isLFGGroup ∧ q.method = .kick then s
    else if g.minMembers < g.getMembersCount then
      disbandIfSmall q <| pickLeader q.world guid
        { group := some (g.dropMember guid),
          db := if g.isStored then s.db.deleteMember guid else s.db,
          looting := s.looting.removeVotes q.world guid }
    else s.disband

def changeMembersGroup (guid group : Nat) (s : Realm) : Realm :=
  match s.group with
  | none => s
  | some g =>
    if g.isRaidGroup then
      match g.slot? guid with
      | none => s
      | some slot =>
        if slot.group = group then s
        else
          { s with
            group := some (((g.modifySlot guid fun slot => { slot with group := group }
              ).subGroupCounterIncrease group).subGroupCounterDecrease slot.group),
            db := if g.isStored then s.db.updateMember guid fun row => { row with subgroup := group }
              else s.db }
    else s

def handleGroupChangeSubGroup (sender guid groupNr : Nat) (s : Realm) : Realm :=
  match s.group with
  | none => s
  | some g =>
    if maxRaidSubgroups ≤ groupNr then s
    else if !g.isLeader sender && !g.isAssistant sender then s
    else if !g.hasFreeSlotSubGroup groupNr then s
    else s.changeMembersGroup guid groupNr

def setAssistant (guid : Nat) (apply : Bool) (s : Realm) : Realm :=
  match s.group with
  | none => s
  | some g =>
    if g.isRaidGroup then
      { s with group := some (g.modifySlot guid fun slot =>
          { slot with flags :=
              if apply then slot.flags ||| memberFlagAssistant
              else slot.flags &&& ~~~memberFlagAssistant }) }
    else s

def convertToRaid (s : Realm) : Realm :=
  match s.group with
  | none => s
  | some g =>
    let g := { g with groupType := g.groupType ||| groupTypeRaid }.initRaidSubGroupsCounter
    { s with
      group := some g,
      db := if g.isStored then s.db.updateGroup fun row => { row with groupType := g.groupType }
        else s.db }

def handleGroupAccept (guid : Nat) (s : Realm) : Realm :=
  match s.group with
  | none => s
  | some g => if g.isFull then s else s.addMember guid

/-- `HandleGroupJoinCommand`, for a player without a group. -/
def handleGroupJoinCommand (guid : Nat) (s : Realm) : Realm :=
  match s.group with
  | none => s
  | some g => if !g.isFull then s else s.addMember guid

end Realm

def loadGroupFromDB (row : GroupRow) : Group :=
  Group.new row.leaderGuid row.groupType false false

def loadMemberFromDB (g : Group) (row : MemberRow) : Group :=
  g.addSlot
    { guid := row.memberGuid, group := row.subgroup, flags := row.memberFlags, roles := row.roles }

namespace Realm

/-- A restart of the server: `LoadGroups`, for the characters that still exist. The group goes
with its leader, and without a second member. -/
def reload (characters : Nat → Bool) (s : Realm) : Realm :=
  let looting := { s.looting with rollId := [], loots := fun _ => none }
  match s.db.group with
  | none => { group := none, db := s.db, looting := looting }
  | some row =>
    if characters row.leaderGuid ∧ 1 < s.db.members.length then
      let rows := s.db.members.filter fun row => characters row.memberGuid
      { group := some (rows.foldl loadMemberFromDB (loadGroupFromDB row)),
        db := { s.db with members := rows },
        looting := looting }
    else { group := none, db := .empty, looting := looting }

inductive Action where
  | create (leader : Nat) (kind : GroupKind)
  | addMember (guid : Nat)
  | removeMember (q : Removal) (guid : Nat)
  | changeLeader (w : World) (guid : Nat)
  | changeSubGroup (sender guid groupNr : Nat)
  | setAssistant (guid : Nat) (apply : Bool)
  | convertToRaid
  | disband
  | reload (characters : Nat → Bool)
  | addLoot (l : Loot)
  | clearLoot (loot : Nat)
  | groupLoot (p : Party) (loot : Nat)
  | needBeforeGreed (p : Party) (loot : Nat)
  | countRollVote (w : World) (playerGUID guid choice : Nat)
  | endRoll (w : World) (loot : Nat) (allowedMap : Option Nat)

def withGroup (s : Realm) (f : Looting → Looting) : Realm :=
  if s.group.isSome then { s with looting := f s.looting } else s

def step (s : Realm) : Action → Realm
  | .create leader kind => s.create leader kind
  | .addMember guid => s.addMember guid
  | .removeMember q guid => s.removeMember q guid
  | .changeLeader w guid => s.changeLeader w guid
  | .changeSubGroup sender guid groupNr => s.handleGroupChangeSubGroup sender guid groupNr
  | .setAssistant guid apply => s.setAssistant guid apply
  | .convertToRaid => s.convertToRaid
  | .disband => s.disband
  | .reload characters => s.reload characters
  | .addLoot l => { s with looting := s.looting.addLoot l }
  | .clearLoot loot => { s with looting := s.looting.clearLoot loot }
  | .groupLoot p loot => s.withGroup (·.groupLoot p loot)
  | .needBeforeGreed p loot => s.withGroup (·.needBeforeGreed p loot)
  | .countRollVote w playerGUID guid choice => s.withGroup (·.countRollVote w playerGUID guid choice)
  | .endRoll w loot allowedMap => s.withGroup (·.endRoll w loot allowedMap)

end Realm

end TrinityCore.Groups
