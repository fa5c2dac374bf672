import TrinityCore.DungeonFinding.Queue

set_option autoImplicit false

/-!
`LFGMgr`: joining, role checks, leaving, proposals and the update that runs the queues.

Of the messages to clients only `SendLfgUpdateProposal` is recorded. `MakeNewGroup` is an
input: it works on the groups of the world, whose scripts change the data kept here and may
take groups out of the queue.
-/

namespace TrinityCore.Lfg

inductive LfgType where
  | none
  | dungeon
  | raid
  | heroic
  | random
  deriving DecidableEq, Repr

inductive LfgJoinResult where
  | ok
  | notMeetReqs
  | partyNotMeetReqs
  | mixedRaidDungeon
  | disconnected
  | dungeonInvalid
  | deserter
  | partyDeserter
  | randomCooldown
  | partyRandomCooldown
  | tooMuchMembers
  | usingBgSystem
  deriving DecidableEq, Repr

inductive LfgRoleCheckState where
  | default
  | finished
  | initialiting
  | missingRole
  | wrongRoles
  | aborted
  | noRole
  deriving DecidableEq, Repr

structure LfgRoleCheck where
  cancelTime : Nat
  roles : LfgRolesMap
  state : LfgRoleCheckState
  dungeons : Finset Nat
  rDungeonId : Nat
  leader : Nat

structure LfgPlayerBoot where
  cancelTime : Nat
  inProgress : Bool
  votes : OrderedMap Nat LfgAnswer
  victim : Nat

structure World extends Env where
  enabled : Bool
  dungeonType : Nat → LfgType
  dungeonsByRandom : Nat → Finset Nat
  lockedDungeons : Nat → Finset Nat
  makeNewGroup : LfgProposal → Stores → Stores × List Nat

structure LFGMgr where
  stores : Stores
  queuesStore : Nat → LFGQueue
  proposals : Proposals
  roleChecksStore : OrderedMap Nat LfgRoleCheck
  bootsStore : OrderedMap Nat LfgPlayerBoot
  queueTimer : Nat
  rolls : List Nat
  sent : List (Nat × Nat)

def timeRolecheck : Nat := 45*1000

def queueUpdateInterval : Nat := 15*1000

inductive RemovalType where
  | failed
  | declined
  deriving DecidableEq, Repr

namespace LFGMgr

variable (m : LFGMgr)

def initial : LFGMgr := ⟨.initial,fun _ => .empty,.empty,.empty,.empty,0,[],[]⟩

def setState (guid : Nat) (s : LfgState) : LFGMgr := { m with stores := m.stores.setState guid s }

def restoreState (guid : Nat) : LFGMgr := { m with stores := m.stores.restoreState guid }

def setStates (guids : List Nat) (s : LfgState) : LFGMgr :=
  { m with stores := guids.foldl (fun d g => d.setState g s) m.stores }

def restoreStates (guids : List Nat) : LFGMgr :=
  { m with stores := guids.foldl Stores.restoreState m.stores }

def setPlayer (guid : Nat) (f : LfgPlayerData → LfgPlayerData) : LFGMgr :=
  let players := Function.update m.stores.players guid (f (m.stores.players guid))
  { m with stores := { m.stores with players := players } }

def onQueue (guid : Nat) (f : LFGQueue → LFGQueue) : LFGMgr :=
  let i := m.stores.queueId guid
  { m with queuesStore := Function.update m.queuesStore i (f (m.queuesStore i)) }

def removeFromQueue (guid : Nat) : LFGMgr := m.onQueue guid (·.removeFromQueue guid)

def sendUpdateProposal (guid id : Nat) : LFGMgr := { m with sent := m.sent ++ [(guid,id)] }

end LFGMgr

section RoleCheck

variable (w : World)

/-- The role check after an answer; nobody to answer means that it is aborted. -/
def LfgRoleCheck.answer (rc : LfgRoleCheck) (guid : Nat) (roles : Role) : LfgRoleCheck :=
  if guid = 0 then { rc with state := .aborted }
  else if roles.toNat < Role.tank.toNat then { rc with state := .noRole }
  else
    let rs := rc.roles.insert guid roles
    if rs.values.all (· ≠ 0) then
      { rc with roles := rs, state := if (checkGroupRoles rs).1 then .finished else .wrongRoles }
    else { rc with roles := rs }

def finishRoleCheck (gguid : Nat) (rc : LfgRoleCheck) (m : LFGMgr) : LFGMgr :=
  let m := rc.roles.entries.foldl (fun m p =>
    (m.setState p.1 .queued).setPlayer p.1 fun data => { data with roles := p.2 }) m
  let m := (m.setState gguid .queued).onQueue gguid
    (·.addQueueData gguid w.now rc.dungeons rc.roles)
  { m with roleChecksStore := m.roleChecksStore.erase gguid }

def failRoleCheck (gguid : Nat) (rc : LfgRoleCheck) (m : LFGMgr) : LFGMgr :=
  let m := (m.restoreStates rc.roles.keys).restoreState gguid
  { m with roleChecksStore := m.roleChecksStore.erase gguid }

def updateRoleCheck (gguid guid : Nat) (roles : Role) (m : LFGMgr) : LFGMgr :=
  if gguid = 0 then m
  else match m.roleChecksStore.find? gguid with
    | none => m
    | some rc =>
      let rc := rc.answer guid roles
      match rc.state with
      | .finished => finishRoleCheck w gguid rc m
      | .initialiting => { m with roleChecksStore := m.roleChecksStore.insert gguid rc }
      | _ => failRoleCheck gguid rc m

end RoleCheck

section Join

structure Member where
  guid : Nat
  hasPermission : Bool
  usesBattlegrounds : Bool
  isDeserter : Bool
  hasCooldown : Bool

structure GroupInfo where
  guid : Nat
  isLFGGroup : Bool
  membersCount : Nat
  members : List Member

structure JoinRequest where
  player : Member
  group : Option GroupInfo
  roles : Role
  dungeons : Finset Nat

variable (w : World)

def JoinRequest.gguid (r : JoinRequest) : Nat :=
  match r.group with
  | some grp => grp.guid
  | none => r.player.guid

/-- The group members are looked at until one may not join. -/
def checkMembers : List Member → LfgJoinResult × Finset Nat → LfgJoinResult × Finset Nat
  | [], st => st
  | p :: ps, (result,players) =>
    if result ≠ .ok then (result,players)
    else
      let result := if !p.hasPermission then LfgJoinResult.partyNotMeetReqs else result
      let result := if p.isDeserter then LfgJoinResult.partyDeserter
        else if p.hasCooldown then .partyRandomCooldown
        else if p.usesBattlegrounds then .usingBgSystem
        else result
      checkMembers ps (result,insert p.guid players)

def checkRestrictions (r : JoinRequest) (dungeons : Finset Nat) : LfgJoinResult × Finset Nat :=
  let p := r.player
  if !p.hasPermission then (.notMeetReqs,∅)
  else if p.usesBattlegrounds then (.usingBgSystem,∅)
  else if p.isDeserter then (.deserter,∅)
  else if p.hasCooldown then (.randomCooldown,∅)
  else if dungeons = ∅ then (.notMeetReqs,∅)
  else match r.group with
    | some grp =>
      if grp.membersCount > maxGroupSize then (.tooMuchMembers,∅)
      else
        let (result,players) := checkMembers grp.members (.ok,∅)
        if result = .ok ∧ grp.members.length ≠ grp.membersCount then (.disconnected,players)
        else (result,players)
    | none => (.ok,{p.guid})

structure DungeonCheck where
  result : LfgJoinResult
  rDungeonId : Nat
  isRaid : Bool
  isDungeon : Bool

/-- One of the chosen dungeons; a random one must be the only one. -/
def checkDungeon (dungeons : Finset Nat) (c : DungeonCheck) (id : Nat) : DungeonCheck :=
  let asDungeon := fun c : DungeonCheck =>
    { c with result := if c.isRaid then .mixedRaidDungeon else c.result, isDungeon := true }
  if c.result ≠ .ok then c
  else match w.dungeonType id with
    | .random =>
      asDungeon (if dungeons.card > 1 then { c with result := .dungeonInvalid }
        else { c with rDungeonId := id })
    | .heroic | .dungeon => asDungeon c
    | .raid =>
      { c with result := if c.isDungeon then .mixedRaidDungeon else c.result, isRaid := true }
    | .none => { c with result := .dungeonInvalid }

def getCompatibleDungeons (dungeons players : Finset Nat) : Finset Nat :=
  dungeons.filter fun id => ∀ p ∈ players, id ∉ w.lockedDungeons p

/-- The result, the dungeons to queue for, the random dungeon if one was chosen, and whether
it is a raid. -/
def checkDungeons (r : JoinRequest) (dungeons players : Finset Nat) :
    LfgJoinResult × Finset Nat × Nat × Bool :=
  let c := (OrderedSet.elems dungeons).foldl (checkDungeon w dungeons) ⟨.ok,0,false,false⟩
  if c.result ≠ .ok then (c.result,dungeons,c.rDungeonId,c.isRaid)
  else
    let dungeons := if c.rDungeonId ≠ 0 then w.dungeonsByRandom c.rDungeonId else dungeons
    let dungeons := getCompatibleDungeons w dungeons players
    if dungeons = ∅ then
      (if r.group.isSome then .partyNotMeetReqs else .notMeetReqs,dungeons,c.rDungeonId,c.isRaid)
    else (.ok,dungeons,c.rDungeonId,c.isRaid)

def selected (rDungeonId : Nat) (dungeons : Finset Nat) : Finset Nat :=
  if rDungeonId ≠ 0 then {rDungeonId} else dungeons

def joinSolo (guid : Nat) (roles : Role) (dungeons : Finset Nat) (rDungeonId : Nat) (m : LFGMgr) :
    LFGMgr :=
  let m := m.onQueue guid (·.addQueueData guid w.now dungeons (OrderedMap.empty.insert guid roles))
  let m := m.setPlayer guid fun data =>
    { data with selectedDungeons := selected rDungeonId dungeons }
  (m.setState guid .queued).setPlayer guid fun data => { data with roles := roles }

/-- A role check of the group that is still there is used again, with the roles in it. -/
def beginRoleCheck (grp : GroupInfo) (leader : Nat) (roles : Role) (dungeons : Finset Nat)
    (rDungeonId : Nat) (isContinue : Bool) (m : LFGMgr) : LFGMgr :=
  let old := ((m.roleChecksStore.find? grp.guid).map (·.roles)).getD .empty
  let guids := grp.members.map (·.guid)
  let rc : LfgRoleCheck :=
    { cancelTime := w.now+timeRolecheck, state := .initialiting, leader := leader
      dungeons := dungeons, rDungeonId := rDungeonId
      roles := guids.foldl (fun rs g => rs.insert g 0) old }
  let m := (m.setState grp.guid .rolecheck).setStates guids .rolecheck
  let m := if isContinue then m
    else guids.foldl (fun m g => m.setPlayer g fun data =>
      { data with selectedDungeons := selected rDungeonId dungeons }) m
  updateRoleCheck w grp.guid leader roles
    { m with roleChecksStore := m.roleChecksStore.insert grp.guid rc }

def joinLfg (r : JoinRequest) (m : LFGMgr) : LfgJoinResult × LFGMgr :=
  if r.dungeons = ∅ then (.ok,m)
  else
    let isContinue := match r.group with
      | some grp => grp.isLFGGroup && m.stores.getState r.gguid != .finishedDungeon
      | none => false
    let dungeons := if isContinue then {(m.stores.groups r.gguid).dungeon % 2^24} else r.dungeons
    let m := if m.stores.getState r.gguid = .queued then m.removeFromQueue r.gguid else m
    let (result,players) := checkRestrictions r dungeons
    if result ≠ .ok then (result,m)
    else
      let (result,dungeons,rDungeonId,isRaid) := checkDungeons w r dungeons players
      if result ≠ .ok then (result,m)
      else if isRaid then (.ok,m)
      else match r.group with
        | some grp => (.ok,beginRoleCheck w grp r.player.guid r.roles dungeons rDungeonId isContinue m)
        | none => (.ok,joinSolo w r.player.guid r.roles dungeons rDungeonId m)

end Join

section Proposal

def LfgProposalPlayer.owner (p : LfgProposalPlayer) (guid : Nat) : Nat :=
  if p.group ≠ 0 then p.group else guid

def finalAnswers (type : RemovalType) (players : OrderedMap Nat LfgProposalPlayer) :
    OrderedMap Nat LfgProposalPlayer :=
  players.map fun _ p => if p.accept ≠ .agree ∧ (p.accept = .deny ∨ type = .failed) then
    { p with accept := .deny } else p

def toRemove (players : OrderedMap Nat LfgProposalPlayer) : Finset Nat :=
  ((players.entries.filter fun p => p.2.accept = .deny).map fun p => p.2.owner p.1).toFinset

def notifyRemoved (id : Nat) (removed : Finset Nat) (m : LFGMgr) (p : Nat × LfgProposalPlayer) :
    LFGMgr :=
  let gguid := p.2.owner p.1
  let m := m.sendUpdateProposal p.1 id
  if gguid ∈ removed then
    let m := m.restoreState p.1
    if gguid ≠ p.1 then m.restoreState p.2.group else m
  else
    let m := m.setState p.1 .queued
    if gguid ≠ p.1 then m.setState gguid .queued else m

/-- Whoever did not agree leaves the queue, the others are new to it again. -/
def removeProposal (id : Nat) (p : LfgProposal) (type : RemovalType) (m : LFGMgr) : LFGMgr :=
  let players := finalAnswers type p.players
  let removed := toRemove players
  let m := players.entries.foldl (notifyRemoved id removed) m
  let first := players.keys.headD 0
  let m := (OrderedSet.elems removed).foldl (fun m g => m.onQueue first (·.removeFromQueue g)) m
  let rest := p.queues.filter (· ∉ removed)
  let m := rest.foldl (fun m g => m.onQueue first (·.addToQueue g)) m
  { m with proposals := m.proposals.erase id }

variable (w : World)

def LFGQueue.getJoinTime (guid : Nat) (q : LFGQueue) : LFGQueue :=
  let data := (q.queueDataStore guid).getD (.joined w.now ∅ .empty)
  { q with queueDataStore := Function.update q.queueDataStore guid (some data) }

def completeProposal (id guid : Nat) (p : LfgProposal) (m : LFGMgr) : LFGMgr :=
  let m := if p.state ≠ .success then
      p.players.keys.foldl (fun m g => m.sendUpdateProposal g id) m
    else m
  let m := p.players.entries.foldl (fun m e =>
    (m.onQueue guid (LFGQueue.getJoinTime w (e.2.owner e.1))).setState e.1 .dungeon) m
  let m := p.queues.foldl (fun m g => m.onQueue guid (·.removeFromQueue g)) m
  let (stores,left) := w.makeNewGroup p m.stores
  let m := left.foldl LFGMgr.removeFromQueue { m with stores := stores }
  { m with proposals := m.proposals.erase id }

def setAnswer (p : LfgProposal) (guid : Nat) (player : LfgProposalPlayer) (accept : LfgAnswer) :
    LfgProposal :=
  { p with players := p.players.insert guid { player with accept := accept } }

def updateProposal (id guid : Nat) (accept : Bool) (m : LFGMgr) : LFGMgr :=
  match m.proposals.store.find? id with
  | none => m
  | some p =>
    match p.players.find? guid with
    | none => m
    | some player =>
      let p := setAnswer p guid player (if accept then .agree else .deny)
      let m := { m with proposals := m.proposals.setPlayers id p.players }
      if !accept then removeProposal id p .declined m
      else if p.players.values.all (·.accept = .agree) then completeProposal w id guid p m
      else p.players.keys.foldl (fun m g => m.sendUpdateProposal g id) m

end Proposal

section Update

variable (w : World)

def removeRoleChecks (m : LFGMgr) : LFGMgr :=
  m.roleChecksStore.entries.foldl (fun m e =>
    if w.now < e.2.cancelTime then m else failRoleCheck e.1 e.2 m) m

def removeProposals (m : LFGMgr) : LFGMgr :=
  m.proposals.store.entries.foldl (fun m e =>
    if e.2.cancelTime < w.now then removeProposal e.1 e.2 .failed m else m) m

def removeBoots (m : LFGMgr) : LFGMgr :=
  m.bootsStore.entries.foldl (fun m e =>
    if e.2.cancelTime < w.now then
      let m := (m.setStates e.2.votes.keys .dungeon).setState e.1 .dungeon
      { m with bootsStore := m.bootsStore.erase e.1 }
    else m) m

def findGroupsIn (m : LFGMgr) (i : Nat) : LFGMgr :=
  let s := findGroups w.toEnv m.stores ⟨m.queuesStore i,m.proposals,m.rolls⟩
  { m with
    queuesStore := Function.update m.queuesStore i s.queue, proposals := s.proposals, rolls := s.rolls }

/-- The ids of queues are of type `uint8`; a queue that has not been made has nobody in it. -/
def findAllGroups (m : LFGMgr) : LFGMgr := (List.range 256).foldl (findGroupsIn w) m

def announcePlayer (id : Nat) (m : LFGMgr) (guid : Nat) : LFGMgr :=
  let m := m.setState guid .proposal
  let gguid := (m.stores.players guid).group
  let m := if gguid ≠ 0 then m.setState gguid .proposal else m
  m.sendUpdateProposal guid id

def announceProposal (m : LFGMgr) (e : Nat × LfgProposal) : LFGMgr :=
  let m := e.2.players.keys.foldl (announcePlayer e.1) m
  if e.2.state = .success then updateProposal w e.1 (e.2.players.keys.getLastD 0) true m else m

def announce (lastProposalId : Nat) (m : LFGMgr) : LFGMgr :=
  if lastProposalId = m.proposals.lastId ∨ (m.proposals.store.find? m.proposals.lastId).isNone then m
  else (m.proposals.store.entries.filter fun e => m.proposals.lastId ≤ e.1).foldl
    (announceProposal w) m

def updateTimers (diff : Nat) (m : LFGMgr) : LFGMgr :=
  if m.queueTimer > queueUpdateInterval then
    { m with queueTimer := 0, queuesStore := fun i => (m.queuesStore i).updateQueueTimers }
  else { m with queueTimer := (m.queueTimer+diff) % 2^32 }

def update (diff : Nat) (m : LFGMgr) : LFGMgr :=
  if !w.enabled then m
  else
    let m := removeBoots w (removeProposals w (removeRoleChecks w m))
    let lastProposalId := m.proposals.lastId
    updateTimers diff (announce w lastProposalId (findAllGroups w m))

end Update

end TrinityCore.Lfg
