import TrinityCore.Lib.OrderedMap
import TrinityCore.Lib.Run

set_option autoImplicit false

/-!
Guild ranks and members. The handlers of a guild add, remove, promote and demote members, edit
the table of ranks and hand the guild over; a rank is a position in that table and carries the
rights that the handlers check.
-/

namespace TrinityCore.Guilds

def guildBankMaxTabs : Nat := 6
def guildRanksMinCount : Nat := 5
def guildRanksMaxCount : Nat := 10
def guildRankNone : Nat := 0xFF
def unlimited : BitVec 32 := 0xFFFFFFFF
def tabUndefined : Nat := 0xFF
def guildBankRightFull : BitVec 8 := 0xFF
def maxClasses : Nat := 12
def maxMoneyAmount : Nat := 2^31 - 1

def grGuildmaster : Nat := 0
def grOfficer : Nat := 1

def uint8 (n : Nat) : Nat := n % 2^8

section Rights

inductive Right where
  | gchatListen
  | gchatSpeak
  | offchatListen
  | offchatSpeak
  | invite
  | remove
  | promote
  | demote
  | setMotd
  | epnote
  | viewOffnote
  | eoffnote
  | modifyGuildInfo
  deriving DecidableEq, Repr

def grRightEmpty : BitVec 32 := 0x40

def Right.bit : Right → BitVec 32
  | .gchatListen => 0x1
  | .gchatSpeak => 0x2
  | .offchatListen => 0x4
  | .offchatSpeak => 0x8
  | .invite => 0x10
  | .remove => 0x20
  | .promote => 0x80
  | .demote => 0x100
  | .setMotd => 0x1000
  | .epnote => 0x2000
  | .viewOffnote => 0x4000
  | .eoffnote => 0x8000
  | .modifyGuildInfo => 0x10000

def Right.mask (r : Right) : BitVec 32 := grRightEmpty ||| r.bit

def grRightWithdrawRepair : BitVec 32 := 0x40000
def grRightWithdrawGold : BitVec 32 := 0x80000
def grRightAll : BitVec 32 := 0x1DF1FF

end Rights

structure TabRights where
  tabId : Nat
  rights : BitVec 8
  slots : BitVec 32
  deriving DecidableEq, Repr

def TabRights.undefined : TabRights := ⟨tabUndefined,0,0⟩

def TabRights.setGuildMasterValues (t : TabRights) : TabRights :=
  { t with rights := guildBankRightFull, slots := unlimited }

structure RankInfo where
  rankId : Nat
  name : String
  rights : BitVec 32
  bankMoneyPerDay : BitVec 32
  bankTabRightsAndSlots : List TabRights
  deriving DecidableEq, Repr

namespace RankInfo

def new (rankId : Nat) (name : String) (rights money : BitVec 32) : RankInfo where
  rankId := rankId
  name := name
  rights := rights
  bankMoneyPerDay := if rankId ≠ grGuildmaster then money else unlimited
  bankTabRightsAndSlots := List.replicate guildBankMaxTabs .undefined

def createMissingTabs (r : RankInfo) (i : Nat) (t : TabRights) : TabRights :=
  if t.tabId = i then t
  else if r.rankId = grGuildmaster then { t with tabId := i }.setGuildMasterValues
  else { t with tabId := i }

def createMissingTabsIfNeeded (r : RankInfo) (tabs : Nat) : RankInfo :=
  { r with
    bankTabRightsAndSlots := r.bankTabRightsAndSlots.mapIdx fun i t =>
      if i < tabs then r.createMissingTabs i t else t }

def setName (r : RankInfo) (name : String) : RankInfo := { r with name := name }

-- the leader's rights cannot be lost
def setRights (r : RankInfo) (rights : BitVec 32) : RankInfo :=
  { r with rights := if r.rankId = grGuildmaster then grRightAll else rights }

def setBankMoneyPerDay (r : RankInfo) (money : BitVec 32) : RankInfo :=
  { r with bankMoneyPerDay := if r.rankId = grGuildmaster then unlimited else money }

def setBankTabSlotsAndRights (r : RankInfo) (t : TabRights) : RankInfo :=
  { r with
    bankTabRightsAndSlots := r.bankTabRightsAndSlots.set t.tabId
      (if r.rankId = grGuildmaster then t.setGuildMasterValues else t) }

end RankInfo

/-- What the guild reads and writes of a character, in the world or in the database. -/
structure Character where
  name : String
  level : Nat
  cls : Nat
  connected : Bool
  guildId : Nat
  money : Nat
  money_le : money ≤ maxMoneyAmount

structure Member where
  guid : Nat
  name : String
  level : Nat
  cls : Nat
  rankId : Nat
  bankWithdraw : Fin (guildBankMaxTabs+1) → BitVec 32

namespace Member

def new (guid rankId : Nat) : Member := ⟨guid,"",0,0,rankId,fun _ => 0⟩

def setStats (m : Member) (c : Character) : Member :=
  { m with name := c.name, level := c.level, cls := c.cls }

def checkStats (m : Member) : Bool := 1 ≤ m.level && 1 ≤ m.cls && m.cls < maxClasses

def isRank (m : Member) (rankId : Nat) : Bool := m.rankId == rankId

def isRankNotLower (m : Member) (rankId : Nat) : Bool := m.rankId ≤ rankId

def isSamePlayer (m : Member) (guid : Nat) : Bool := m.guid == guid

end Member

structure Traversal where
  traverse : OrderedMap Nat Member → List (Nat × Member)
  perm : ∀ ms, (traverse ms).Perm ms.entries

structure Guild where
  id : Nat
  leaderGuid : Nat
  ranks : List RankInfo
  members : OrderedMap Nat Member
  purchasedTabs : Nat
  bankMoney : Nat

namespace Guild

def getRanksSize (g : Guild) : Nat := uint8 g.ranks.length

def getRankInfo (g : Guild) (rankId : Nat) : Option RankInfo :=
  if rankId < g.getRanksSize then g.ranks[rankId]? else none

def getLowestRankId (g : Guild) : Nat := uint8 (g.ranks.length+(2^8-1))

def getMember (g : Guild) (guid : Nat) : Option Member := g.members.find? guid

/-- `GetMember(name)`: the first member of that name on the way through the table. -/
def getMemberNamed (g : Guild) (t : Traversal) (name : String) : Option (Nat × Member) :=
  (t.traverse g.members).find? fun e => e.2.name == name

def getRankRights (g : Guild) (rankId : Nat) : BitVec 32 :=
  match g.getRankInfo rankId with
  | some r => r.rights
  | none => 0

def hasRankRight (g : Guild) (player : Nat) (right : BitVec 32) : Bool :=
  match g.getMember player with
  | some m => (g.getRankRights m.rankId &&& right) != grRightEmpty
  | none => false

def isLeader (g : Guild) (player : Nat) : Bool :=
  if player = g.leaderGuid then true
  else
    match g.getMember player with
    | some m => m.isRank grGuildmaster
    | none => false

def changeRank (g : Guild) (guid newRank : Nat) : Guild :=
  match g.members.find? guid with
  | some m => { g with members := g.members.insert guid { m with rankId := uint8 newRank } }
  | none => g

def setLeaderGUID (g : Guild) (guid : Nat) (leader : Member) : Guild :=
  changeRank { g with leaderGuid := leader.guid } guid grGuildmaster

def createRank (g : Guild) (name : String) (rights : BitVec 32) : Guild :=
  let newRankId := g.getRanksSize
  if newRankId ≥ guildRanksMaxCount then g
  else
    { g with
      ranks := g.ranks ++
        [(RankInfo.new newRankId name rights 0).createMissingTabsIfNeeded g.purchasedTabs] }

def editRank (g : Guild) (name : String) (rights money : BitVec 32) (tabs : List TabRights)
    (r : RankInfo) : RankInfo :=
  tabs.foldl (fun r t => if t.tabId ≥ g.purchasedTabs then r else r.setBankTabSlotsAndRights t)
    (((r.setName name).setRights rights).setBankMoneyPerDay money)

/-- The better ranked of two, the first of them if they are of one rank; never `guid`. -/
def better (guid : Nat) (best : Option (Nat × Member)) (e : Nat × Member) : Option (Nat × Member) :=
  if e.1 = guid then best
  else
    match best with
    | none => some e
    | some b => if b.2.rankId > e.2.rankId then some e else some b

/-- The new leader that `DeleteMember` looks for on its way through the members. -/
def successor (es : List (Nat × Member)) (guid : Nat) : Option (Nat × Member) :=
  es.foldl (better guid) none

end Guild

/-- A guild and the characters of the realm. A disbanded guild is deleted. -/
structure State where
  guild : Guild
  characters : Nat → Option Character
  disbanded : Bool

namespace State

def guildIdOf (s : State) (guid : Nat) : Nat := ((s.characters guid).map (·.guildId)).getD 0

def setInGuild (s : State) (guid guildId : Nat) : State :=
  { s with
    characters := Function.update s.characters guid
      ((s.characters guid).map fun c => { c with guildId := guildId }) }

def addMember (s : State) (guid rankId : Nat) : Option State :=
  if s.guildIdOf guid ≠ 0 then none
  else
    match s.characters guid with
    | none => none
    | some c =>
      let member :=
        (Member.new guid (if rankId = guildRankNone then s.guild.getLowestRankId else rankId)).setStats c
      -- only the data of a character that is not connected can be broken
      if c.connected || member.checkStats then
        some ({ s with
          guild := { s.guild with members := s.guild.members.insert guid member } }.setInGuild
            guid s.guild.id)
      else none

/-- The end of `DeleteMember`: the member leaves the table and the player the guild. -/
def eraseMember (s : State) (guid : Nat) : State :=
  { s with guild := { s.guild with members := s.guild.members.erase guid } }.setInGuild guid 0

def disband (s : State) (t : Traversal) : State :=
  { (t.traverse s.guild.members).foldl (fun s e => s.eraseMember e.2.guid) s with disbanded := true }

def deleteMember (s : State) (t : Traversal) (guid : Nat) : State :=
  if s.guild.leaderGuid = guid then
    match Guild.successor (t.traverse s.guild.members) guid with
    | none => s.disband t
    | some e => eraseMember { s with guild := s.guild.setLeaderGUID e.1 e.2 } guid
  else s.eraseMember guid

def handleSetLeader (s : State) (t : Traversal) (player : Nat) (name : String) : State :=
  if !s.guild.isLeader player then s
  else
    match s.guild.getMember player with
    | none => s
    | some _ =>
      match s.guild.getMemberNamed t name with
      | none => s
      | some e => { s with guild := (s.guild.setLeaderGUID e.1 e.2).changeRank player grOfficer }

def handleLeaveMember (s : State) (t : Traversal) (player : Nat) : State :=
  if s.guild.isLeader player then
    if s.guild.members.size > 1 then s else s.disband t
  else s.deleteMember t player

def handleDisband (s : State) (t : Traversal) (player : Nat) : State :=
  if s.guild.isLeader player then s.disband t else s

def handleRemoveMember (s : State) (t : Traversal) (player : Nat) (name : String) : State :=
  if !s.guild.hasRankRight player (Right.mask .remove) then s
  else
    match s.guild.getMemberNamed t name with
    | none => s
    | some e =>
      if e.2.isRank grGuildmaster then s
      else
        match s.guild.getMember player with
        | none => s
        | some me => if e.2.isRankNotLower me.rankId then s else s.deleteMember t e.2.guid

def handleUpdateMemberRank (s : State) (t : Traversal) (player : Nat) (name : String)
    (demote : Bool) : State :=
  if !s.guild.hasRankRight player (Right.mask (if demote then .demote else .promote)) then s
  else
    match s.guild.getMemberNamed t name with
    | none => s
    | some e =>
      if e.2.isSamePlayer player then s
      else
        match s.guild.getMember player with
        | none => s
        | some me =>
          if demote then
            if e.2.isRankNotLower me.rankId then s
            else if e.2.rankId ≥ s.guild.getLowestRankId then s
            else { s with guild := s.guild.changeRank e.1 (e.2.rankId+1) }
          else
            if e.2.isRankNotLower (uint8 (me.rankId+1)) then s
            else { s with guild := s.guild.changeRank e.1 (e.2.rankId+(2^32-1)) }

def handleSetRankInfo (s : State) (player rankId : Nat) (name : String) (rights money : BitVec 32)
    (tabs : List TabRights) : State :=
  if !s.guild.isLeader player then s
  else
    match s.guild.getRankInfo rankId with
    | none => s
    | some _ =>
      { s with
        guild := { s.guild with
          ranks := s.guild.ranks.modify rankId (s.guild.editRank name rights money tabs) } }

def handleAddNewRank (s : State) (player : Nat) (name : String) : State :=
  if s.guild.getRanksSize ≥ guildRanksMaxCount then s
  else if s.guild.isLeader player then
    { s with
      guild := s.guild.createRank name (Right.mask .gchatListen ||| Right.mask .gchatSpeak) }
  else s

-- only the rows of the database are those of `rankId`; in memory the last rank goes
def handleRemoveRank (s : State) (player rankId : Nat) : State :=
  if s.guild.getRanksSize ≤ guildRanksMinCount || s.guild.getRanksSize ≤ rankId ||
      !s.guild.isLeader player then s
  else { s with guild := { s.guild with ranks := s.guild.ranks.dropLast } }

def handleRemoveLowestRank (s : State) (player : Nat) : State :=
  s.handleRemoveRank player s.guild.getLowestRankId

/-- A character changes outside the guild: it is created or deleted, renamed, connects, earns
money, joins another guild. Its being a member here is not touched. -/
def updateCharacter (s : State) (guid : Nat) (c : Option Character) : State :=
  if guid ∈ s.guild.members.keys ↔ (c.map (·.guildId)).getD 0 = s.guild.id then
    { s with characters := Function.update s.characters guid c }
  else s

end State

inductive Action where
  | addMember (guid : Nat)
  | deleteMember (guid : Nat)
  | setLeader (player : Nat) (name : String)
  | leaveMember (player : Nat)
  | disband (player : Nat)
  | removeMember (player : Nat) (name : String)
  | updateMemberRank (player : Nat) (name : String) (demote : Bool)
  | setRankInfo (player rankId : Nat) (name : String) (rights money : BitVec 32)
    (tabs : List TabRights)
  | addNewRank (player : Nat) (name : String)
  | removeRank (player rankId : Nat)
  | removeLowestRank (player : Nat)
  | updateCharacter (guid : Nat) (c : Option Character)

/-- An action, and the order in which the table of members is traversed at that moment. -/
structure Event where
  traversal : Traversal
  action : Action

def step (s : State) (e : Event) : State :=
  if s.disbanded then s
  else
    match e.action with
    | .addMember guid => (s.addMember guid guildRankNone).getD s
    | .deleteMember guid => s.deleteMember e.traversal guid
    | .setLeader player name => s.handleSetLeader e.traversal player name
    | .leaveMember player => s.handleLeaveMember e.traversal player
    | .disband player => s.handleDisband e.traversal player
    | .removeMember player name => s.handleRemoveMember e.traversal player name
    | .updateMemberRank player name demote =>
      s.handleUpdateMemberRank e.traversal player name demote
    | .setRankInfo player rankId name rights money tabs =>
      s.handleSetRankInfo player rankId name rights money tabs
    | .addNewRank player name => s.handleAddNewRank player name
    | .removeRank player rankId => s.handleRemoveRank player rankId
    | .removeLowestRank player => s.handleRemoveLowestRank player
    | .updateCharacter guid c => s.updateCharacter guid c

/-- The names of the default ranks in the leader's locale, in the order of the ranks. -/
structure DefaultNames where
  master : String
  officer : String
  veteran : String
  member : String
  initiate : String

def createDefaultGuildRanks (g : Guild) (names : DefaultNames) : Guild :=
  let listenSpeak := Right.mask .gchatListen ||| Right.mask .gchatSpeak
  ((((g.createRank names.master grRightAll).createRank names.officer grRightAll).createRank
    names.veteran listenSpeak).createRank names.member listenSpeak).createRank
    names.initiate listenSpeak

/-- An id of `GenerateGuildId`. They start at 1 and none is given twice, so that nobody is in the
new guild yet. -/
structure NewId (characters : Nat → Option Character) where
  val : Nat
  pos : val ≠ 0
  fresh : ∀ k c, characters k = some c → c.guildId ≠ val

def create (characters : Nat → Option Character) (id : NewId characters) (leader : Nat)
    (names : DefaultNames) : Option State :=
  if (characters leader).any (·.connected) then
    State.addMember
      { guild := createDefaultGuildRanks ⟨id.val,leader,[],.empty,0,0⟩ names
        characters := characters
        disbanded := false } leader grGuildmaster
  else none

end TrinityCore.Guilds
