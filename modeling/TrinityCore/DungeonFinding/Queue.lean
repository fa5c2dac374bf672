import TrinityCore.DungeonFinding.Data

set_option autoImplicit false

/-!
`LFGQueue`: the waiting players and groups, the cache of compatibilities, and the search for
groups that match.

The average waiting times are left out, for the search does not use them, and so is the
number of proposals that `FindGroups` returns for the log. Random numbers are an input: every
call of the generator takes the next one from a list.
-/

namespace TrinityCore.Lfg

/-- The keys of the cache: guids in decimal, in ascending order, with a bar between them. -/
abbrev Key := List Char

def guidString (guid : Nat) : Key := Nat.toDigits 10 guid

def concatenateGuids (check : List Nat) : Key :=
  ['|'].intercalate ((OrderedSet.elems check.toFinset).map guidString)

inductive LfgCompatibility where
  | pending
  | wrongGroupSize
  | tooMuchPlayers
  | multipleLfgGroups
  | hasIgnores
  | noRoles
  | noDungeons
  | withLessPlayers
  | badStates
  | match
  deriving DecidableEq, Repr

/-- Values under `withLessPlayers` are not compatible. -/
def LfgCompatibility.compatible : LfgCompatibility → Bool
  | .withLessPlayers | .badStates | .match => true
  | _ => false

structure LfgCompatibilityData where
  compatibility : LfgCompatibility
  roles : LfgRolesMap

structure LfgQueueData where
  joinTime : Nat
  tanks : Nat
  healers : Nat
  dps : Nat
  dungeons : Finset Nat
  roles : LfgRolesMap
  bestCompatible : Key

def LfgQueueData.joined (joinTime : Nat) (dungeons : Finset Nat) (roles : LfgRolesMap) :
    LfgQueueData :=
  ⟨joinTime,tanksNeeded,healersNeeded,dpsNeeded,dungeons,roles,[]⟩

structure LFGQueue where
  queueDataStore : Nat → Option LfgQueueData
  compatibleMapStore : OrderedMap Key LfgCompatibilityData
  currentQueueStore : List Nat
  newToQueueStore : List Nat

def dec8 (n : Nat) : Nat := (n+255) % 256

def keySize (key : Key) : Nat := (key.count '|'+1) % 256

namespace LfgQueueData

def need (d : LfgQueueData) (role : Role) : LfgQueueData :=
  if role &&& Role.tank ≠ 0 then { d with tanks := dec8 d.tanks }
  else if role &&& Role.healer ≠ 0 then { d with healers := dec8 d.healers }
  else { d with dps := dec8 d.dps }

def updateBestCompatible (d : LfgQueueData) (key : Key) (roles : LfgRolesMap) : LfgQueueData :=
  if keySize key ≤ (if d.bestCompatible.isEmpty then 0 else keySize d.bestCompatible) then d
  else
    roles.values.foldl need { d with
      bestCompatible := key, tanks := tanksNeeded, healers := healersNeeded, dps := dpsNeeded }

end LfgQueueData

namespace LFGQueue

variable (q : LFGQueue)

def empty : LFGQueue := ⟨fun _ => none,.empty,[],[]⟩

def getCompatibles (key : Key) : LfgCompatibility :=
  match q.compatibleMapStore.find? key with
  | some d => d.compatibility
  | none => .pending

def setCompatibles (key : Key) (c : LfgCompatibility) : LFGQueue :=
  let data := (q.compatibleMapStore.find? key).getD ⟨.pending,.empty⟩
  { q with compatibleMapStore := q.compatibleMapStore.insert key { data with compatibility := c } }

def setCompatibilityData (key : Key) (data : LfgCompatibilityData) : LFGQueue :=
  { q with compatibleMapStore := q.compatibleMapStore.insert key data }

/-- Every entry whose key has the digits of the guid somewhere in it goes. -/
def removeFromCompatibles (guid : Nat) : LFGQueue :=
  { q with compatibleMapStore :=
      q.compatibleMapStore.filter fun key _ => !decide (guidString guid <:+: key) }

def findBestCompatible (guid : Nat) (d : LfgQueueData) : LfgQueueData :=
  q.compatibleMapStore.entries.foldl (fun d e =>
    if e.2.compatibility = .withLessPlayers ∧ guidString guid <:+: e.1 then
      d.updateBestCompatible e.1 e.2.roles
    else d) d

def updateBestCompatibleInQueue (guid : Nat) (key : Key) (roles : LfgRolesMap) : LFGQueue :=
  let data := (q.queueDataStore guid).map fun d => d.updateBestCompatible key roles
  { q with queueDataStore := Function.update q.queueDataStore guid data }

def removeFromNewQueue (guid : Nat) : LFGQueue :=
  { q with newToQueueStore := q.newToQueueStore.filter (· ≠ guid) }

def removeFromCurrentQueue (guid : Nat) : LFGQueue :=
  { q with currentQueueStore := q.currentQueueStore.filter (· ≠ guid) }

def addToCurrentQueue (guid : Nat) : LFGQueue :=
  { q with currentQueueStore := q.currentQueueStore ++ [guid] }

def addToNewQueue (guid : Nat) : LFGQueue :=
  { q with newToQueueStore := q.newToQueueStore ++ [guid] }

def addToQueue (guid : Nat) : LFGQueue :=
  if (q.queueDataStore guid).isSome then q.addToNewQueue guid else q

def addQueueData (guid joinTime : Nat) (dungeons : Finset Nat) (roles : LfgRolesMap) : LFGQueue :=
  let data := some (LfgQueueData.joined joinTime dungeons roles)
  let q := { q with queueDataStore := Function.update q.queueDataStore guid data }
  q.addToQueue guid

/-- The others whose best combination named the guid look for another one. -/
def removeFromQueue (guid : Nat) : LFGQueue :=
  let q := ((q.removeFromNewQueue guid).removeFromCurrentQueue guid).removeFromCompatibles guid
  { q with queueDataStore := fun g =>
      if g = guid then none
      else (q.queueDataStore g).map fun d =>
        if guidString guid <:+: d.bestCompatible then q.findBestCompatible g { d with bestCompatible := [] }
        else d }

def updateQueueTimers : LFGQueue :=
  { q with queueDataStore := fun g => (q.queueDataStore g).map fun d =>
      if d.bestCompatible.isEmpty then q.findBestCompatible g d else d }

end LFGQueue

/-- The totals of the first loop of `CheckCompatibility`. -/
structure Count where
  numPlayers : Nat
  numLfgGroups : Nat
  proposalGroups : Nat → Nat
  group : Nat

structure Match where
  roles : LfgRolesMap
  dungeons : Finset Nat
  proposalGroups : Nat → Nat
  group : Nat
  isNew : Bool

/-- What a list of guids amounts to by itself, before anything is recorded. -/
inductive Verdict where
  | notQueued (guid : Nat)
  | incompatible (c : LfgCompatibility)
  | lessPlayers (roles : LfgRolesMap)
  | full (m : Match)

section Verdict

variable (e : Env) (d : Stores) (q : LFGQueue)

def Count.add (c : Count) (guid : Nat) (rs : LfgRolesMap) : Count :=
  let owner := if isGroupGuid guid then guid else 0
  { proposalGroups := fun p => if p ∈ rs.keys then owner else c.proposalGroups p
    numPlayers := (c.numPlayers+rs.size) % 256
    group := if d.isLfgGroup guid && c.numLfgGroups == 0 then guid else c.group
    numLfgGroups := if d.isLfgGroup guid then c.numLfgGroups+1 else c.numLfgGroups }

def countPlayers : List Nat → Count → Except Nat Count
  | [], c => .ok c
  | guid :: check, c =>
    if c.numLfgGroups < 2 ∧ c.numPlayers ≤ maxGroupSize then
      match q.queueDataStore guid with
      | none => .error guid
      | some data => countPlayers check (c.add d guid data.roles)
    else .ok c

def roles (guid : Nat) : LfgRolesMap := ((q.queueDataStore guid).map (·.roles)).getD .empty

def dungeons (guid : Nat) : Finset Nat := ((q.queueDataStore guid).map (·.dungeons)).getD ∅

/-- A player who ignores, or is ignored by, one who is in already is left out. -/
def addPlayer (proposalRoles : LfgRolesMap) (p : Nat × Role) : LfgRolesMap :=
  if proposalRoles.keys.any fun p' => p' != p.1 && e.hasIgnore p.1 p' then proposalRoles
  else proposalRoles.insert p.1 p.2

def joinRoles (check : List Nat) : LfgRolesMap :=
  check.foldl (fun rs guid => (roles q guid).entries.foldl (addPlayer e) rs) .empty

def joinDungeons : List Nat → Finset Nat
  | [] => ∅
  | guid :: check => check.foldl (fun ds g => ds ∩ dungeons q g) (dungeons q guid)

def Count.fullMatch (c : Count) (check : List Nat) (rs : LfgRolesMap) (ds : Finset Nat) : Match where
  roles := rs
  dungeons := ds
  proposalGroups := c.proposalGroups
  group := c.group
  isNew := c.numLfgGroups != 1 || d.getOldState (check.headD 0) != .dungeon

/-- Several groups are checked for ignores, roles and dungeons; a single one has been checked
when it joined. -/
def verdictSeveral (c : Count) (check : List Nat) : Verdict :=
  let proposalRoles := joinRoles e q check
  if ((c.numPlayers : Int)-proposalRoles.size) % 256 ≠ 0 then .incompatible .hasIgnores
  else
    let (ok,proposalRoles) := checkGroupRoles proposalRoles
    if !ok then .incompatible .noRoles
    else
      let proposalDungeons := joinDungeons q check
      if proposalDungeons = ∅ then .incompatible .noDungeons
      else if c.numPlayers ≠ maxGroupSize then .lessPlayers proposalRoles
      else .full (c.fullMatch d check proposalRoles proposalDungeons)

def verdict (check : List Nat) : Verdict :=
  match countPlayers d q check ⟨0,0,fun _ => 0,0⟩ with
  | .error guid => .notQueued guid
  | .ok c =>
    let guid := check.headD 0
    if check.length = 1 ∧ c.numPlayers ≠ maxGroupSize then .lessPlayers (checkGroupRoles (roles q guid)).2
    else if c.numLfgGroups > 1 then .incompatible .multipleLfgGroups
    else if c.numPlayers > maxGroupSize then .incompatible .tooMuchPlayers
    else if check.length > 1 then verdictSeveral e d q c check
    else .full (c.fullMatch d check (checkGroupRoles (roles q guid)).2 (dungeons q guid))

end Verdict

structure Search where
  queue : LFGQueue
  proposals : Proposals
  rolls : List Nat

section Search

variable (e : Env) (d : Stores)

def proposalTime : Nat := 45

/-- The leader, whether he wanted to be, and the random numbers left. The generator is asked
only when there is a choice. -/
def chooseLeader (st : Bool × Nat × List Nat) (p : Nat × Role) : Bool × Nat × List Nat :=
  let (wanted,leader,rolls) := st
  let drawn := rolls.headD 0 % 2 ≠ 0
  if p.2 &&& Role.leader ≠ 0 then
    if !wanted || leader = 0 then (true,p.1,rolls)
    else (true,if drawn then p.1 else leader,rolls.tail)
  else if wanted then (wanted,leader,rolls)
  else if leader = 0 then (wanted,p.1,rolls)
  else (wanted,if drawn then p.1 else leader,rolls.tail)

def proposalPlayer (m : Match) (guid : Nat) (role : Role) : LfgProposalPlayer where
  role := role
  group := m.proposalGroups guid
  accept := if !m.isNew && m.proposalGroups guid != 0 && m.proposalGroups guid == m.group then .agree
    else .pending

/-- The dungeon is drawn first, then the leader. -/
def newProposal (check : List Nat) (m : Match) (s : Search) : LfgProposal :=
  let ds := OrderedSet.elems m.dungeons
  { id := 0
    dungeonId := ds.getD (s.rolls.headD 0 % ds.length) 0
    state := .initiating
    group := m.group
    leader := (m.roles.entries.foldl chooseLeader (false,0,s.rolls.tail)).2.1
    cancelTime := e.now+proposalTime
    isNew := m.isNew
    queues := check
    players := m.roles.map (proposalPlayer m) }

/-- The members leave both lists but keep their queue data. -/
def createProposal (check : List Nat) (m : Match) (s : Search) : Search where
  queue := check.foldl (fun q g => (q.removeFromNewQueue g).removeFromCurrentQueue g) s.queue
  proposals := s.proposals.addProposal (newProposal e check m s) rfl
  rolls := (m.roles.entries.foldl chooseLeader (false,0,s.rolls.tail)).2.2

/-- The rest of `CheckCompatibility` after the check of all but the first. -/
def record (check : List Nat) (s : Search) : LfgCompatibility × Search :=
  let key := concatenateGuids check
  let cache := fun c => (c,{ s with queue := s.queue.setCompatibles key c })
  match verdict e d s.queue check with
  | .notQueued guid => (.pending,{ s with queue := s.queue.removeFromQueue guid })
  | .incompatible c => cache c
  | .lessPlayers roles =>
    let queue := check.foldl (fun q g => q.updateBestCompatibleInQueue g key roles) s.queue
    (.withLessPlayers,{ s with
      queue := queue.setCompatibilityData key ⟨.withLessPlayers,roles⟩ })
  | .full m =>
    if !d.allQueued check then cache .badStates
    else
      let s := createProposal e check m s
      (.match,{ s with queue := s.queue.setCompatibles key .match })

def checkCompatibility : List Nat → Search → LfgCompatibility × Search
  | [], s => (.wrongGroupSize,s)
  | front :: check, s =>
    if (front :: check).length > maxGroupSize then (.wrongGroupSize,s)
    else if check.length ≥ 2 then
      let (child,s) := checkCompatibility check s
      if !child.compatible then
        (child,{ s with queue := s.queue.setCompatibles (concatenateGuids (front :: check)) child })
      else record e d (front :: check) s
    else record e d (front :: check) s

/-- The cached compatibility, or else that of the check. A list whose members were not all
queued when it was checked is taken for a match as soon as they are. -/
def consult (check : List Nat) (s : Search) : LfgCompatibility × Search :=
  let key := concatenateGuids check
  let cached := s.queue.getCompatibles key
  let (c,s) := if cached = .pending then checkCompatibility e d check s else (cached,s)
  if c = .badStates ∧ d.allQueued check then
    (.match,{ s with queue := s.queue.setCompatibles key .match })
  else (c,s)

/-- The loop of `FindNewGroups` over the groups that are left. The inner call takes its
groups from the same list. -/
def matchQueued : Nat → List Nat → List Nat → Search → LfgCompatibility × List Nat × Search
  | 0, _, all, s => (.withLessPlayers,all,s)
  | _+1, _, [], s => (.withLessPlayers,[],s)
  | n+1, check, g :: all, s =>
    let (sub,all,s) := match consult e d (check ++ [g]) s with
      | (.withLessPlayers,s) => matchQueued n (check ++ [g]) all s
      | (c,s) => (c,all,s)
    if sub = .match then (.match,all,s) else matchQueued n check all s

def findNewGroups (check all : List Nat) (s : Search) : LfgCompatibility × Search :=
  match consult e d check s with
  | (.withLessPlayers,s) =>
    let (c,_,s) := matchQueued e d all.length check all s
    (c,s)
  | (c,s) => (c,s)

/-- One round of `FindGroups` for the first of the new guids. -/
def findGroup (front : Nat) (s : Search) : Search :=
  let s := { s with queue := s.queue.removeFromNewQueue front }
  let (c,s) := findNewGroups e d [front] s.queue.currentQueueStore s
  if c = .match then s else { s with queue := s.queue.addToCurrentQueue front }

def findGroupsFuel : Nat → Search → Search
  | 0, s => s
  | n+1, s =>
    match s.queue.newToQueueStore with
    | [] => s
    | front :: _ => findGroupsFuel n (findGroup e d front s)

def findGroups (s : Search) : Search := findGroupsFuel e d s.queue.newToQueueStore.length s

end Search

end TrinityCore.Lfg
