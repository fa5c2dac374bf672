import TrinityCore.Battlegrounds.Queue

set_option autoImplicit false

namespace TrinityCore.Battlegrounds

def sub32 (a b : Nat) : Nat := (a+(2^32-b % 2^32)) % 2^32

def toInt32 (a : Nat) : Int := Int.bmod a (2^32)

section Matching

variable (cfg : Settings) (now : Nat) (bracket : Fin 16)

/-- The answer of `InviteGroupToBG` is not used by its callers. -/
def inviteGroupToBG (instanceId : Nat) (side : Team) (g : Nat) (q : BattlegroundQueue) :
    BattlegroundQueue :=
  let i := { q.info g with team := side }
  if i.isInvitedToBGInstanceGUID = 0 then
    q.setInfo g { i with
      isInvitedToBGInstanceGUID := instanceId
      removeInviteTime := (now+cfg.inviteAcceptWaitTime) % 2^32 }
  else q.setInfo g i

def inviteGroups (instanceId : Nat) (gs : List Nat) (q : BattlegroundQueue) : BattlegroundQueue :=
  gs.foldl (fun q g => inviteGroupToBG cfg now instanceId (q.info g).team g q) q

def invitePools (instanceId : Nat) (q : BattlegroundQueue) : BattlegroundQueue :=
  let q := inviteGroups cfg now instanceId (q.selectionPools .alliance).selectedGroups q
  inviteGroups cfg now instanceId (q.selectionPools .horde).selectedGroups q

def firstUninvited (q : BattlegroundQueue) (gs : List Nat) : Option Nat :=
  gs.find? fun g => !q.invited g

/-- The first premade group of a team goes to the normal queue when it has waited for long or
has become too small. -/
def premadeToNormal (minPlayersPerTeam : Nat) (t : Team) (q : BattlegroundQueue) :
    BattlegroundQueue :=
  match q.queuedGroups (bracket,.premade t) with
  | [] => q
  | g :: _ =>
    if !q.invited g ∧ ((q.info g).joinTime < sub32 now cfg.premadeWait ∨
        q.size g < minPlayersPerTeam) then
      q.moveGroup g (bracket,.premade t) (bracket,.normal t)
    else q

def addToPool (q : BattlegroundQueue) (t : Team) (g desired : Nat) : BattlegroundQueue :=
  q.setPool t ((q.selectionPools t).addGroup q g desired).2

def checkPremadeMatch (minPlayersPerTeam maxPlayersPerTeam : Nat) (q : BattlegroundQueue) :
    Bool × BattlegroundQueue :=
  match firstUninvited q (q.queuedGroups (bracket,.premadeAlliance)),
      firstUninvited q (q.queuedGroups (bracket,.premadeHorde)) with
  | some ali, some horde =>
    let q := addToPool q .alliance ali maxPlayersPerTeam
    let q := addToPool q .horde horde maxPlayersPerTeam
    let maxPlayers := min (playerCount q .alliance) (playerCount q .horde)
    let fill := fun (q : BattlegroundQueue) t => q.setPool t
      ((q.selectionPools t).addUninvited q maxPlayers (q.queuedGroups (bracket,.normal t)))
    (true,fill (fill q .alliance) .horde)
  | _, _ =>
    (false,premadeToNormal cfg now bracket minPlayersPerTeam .horde
      (premadeToNormal cfg now bracket minPlayersPerTeam .alliance q))

/-- Groups are added until the pool has enough players; what is left begins with the group
that was last looked at. -/
def selectTeam (q : BattlegroundQueue) (minPlayers maxPlayers : Nat) :
    List Nat → SelectionPool → List Nat × SelectionPool
  | [], pool => ([],pool)
  | g :: gs, pool =>
    if q.invited g then selectTeam q minPlayers maxPlayers gs pool
    else
      let pool := (pool.addGroup q g maxPlayers).2
      if pool.playerCount ≥ minPlayers then (g :: gs,pool)
      else selectTeam q minPlayers maxPlayers gs pool

def checkNormalMatch (isBattleground : Bool) (minPlayers maxPlayers : Nat)
    (q : BattlegroundQueue) : Bool × BattlegroundQueue :=
  let (aliRest,aliPool) := selectTeam q minPlayers maxPlayers
    (q.queuedGroups (bracket,.normalAlliance)) (q.selectionPools .alliance)
  let (hordeRest,hordePool) := selectTeam q minPlayers maxPlayers
    (q.queuedGroups (bracket,.normalHorde)) (q.selectionPools .horde)
  let balanced := cfg.invitationType ≠ 0 ∧ hordePool.playerCount ≥ minPlayers ∧
    aliPool.playerCount ≥ minPlayers
  -- the team with fewer players gets more groups
  let (aliPool,hordePool) := if balanced then
      if hordePool.playerCount < aliPool.playerCount then
        (aliPool,hordePool.addUninvited q aliPool.playerCount hordeRest.tail)
      else (aliPool.addUninvited q hordePool.playerCount aliRest.tail,hordePool)
    else (aliPool,hordePool)
  let q := (q.setPool .alliance aliPool).setPool .horde hordePool
  if balanced ∧ ((hordePool.playerCount : Int)-aliPool.playerCount).natAbs > 2 then (false,q)
  else if cfg.testing && isBattleground && (aliPool.playerCount != 0 || hordePool.playerCount != 0)
  then (true,q)
  else (decide (aliPool.playerCount ≥ minPlayers ∧ hordePool.playerCount ≥ minPlayers),q)

def switchTeam (t : Team) (q : BattlegroundQueue) (g : Nat) : BattlegroundQueue :=
  (q.setInfo g { q.info g with team := t }).moveGroup g (bracket,.normal t.other) (bracket,.normal t)

def checkSkirmishForSameFaction (minPlayersPerTeam : Nat) (q : BattlegroundQueue) :
    Bool × BattlegroundQueue :=
  if playerCount q .alliance < minPlayersPerTeam ∧ playerCount q .horde < minPlayersPerTeam then
    (false,q)
  else
    let team := if playerCount q .horde = minPlayersPerTeam then Team.horde else .alliance
    let q := q.setPool team.other .init
    match (q.selectionPools team).selectedGroups.getLast? with
    | none => (false,q)
    | some ginfo =>
      let queue := q.queuedGroups (bracket,.normal team)
      if ginfo ∈ queue then
        let rest := (queue.dropWhile (· != ginfo)).tail
        let q := q.setPool team.other
          ((q.selectionPools team.other).addUninvited q minPlayersPerTeam rest)
        if playerCount q team.other ≠ minPlayersPerTeam then (false,q)
        else (true,(q.selectionPools team.other).selectedGroups.foldl (switchTeam bracket team.other) q)
      else (false,q)

def rated (q : BattlegroundQueue) (arenaRating g : Nat) : Bool :=
  let min := if arenaRating ≤ cfg.maxRatingDifference then 0 else arenaRating-cfg.maxRatingDifference
  let max := (arenaRating+cfg.maxRatingDifference) % 2^32
  let discardTime := toInt32 (sub32 now cfg.ratingDiscardTimer)
  !q.invited g && (((q.info g).arenaMatchmakerRating ≥ min &&
    (q.info g).arenaMatchmakerRating ≤ max) || toInt32 (q.info g).joinTime < discardTime)

def frontRating (q : BattlegroundQueue) : Option Nat :=
  match (q.queuedGroups (bracket,.premadeAlliance)).head?,
      (q.queuedGroups (bracket,.premadeHorde)).head? with
  | none, none => none
  | some a, none => some (q.info a).arenaMatchmakerRating
  | none, some h => some (q.info h).arenaMatchmakerRating
  | some a, some h =>
    if (q.info a).joinTime < (q.info h).joinTime then some (q.info a).arenaMatchmakerRating
    else some (q.info h).arenaMatchmakerRating

/-- The first group of each list, or two groups of one list. -/
def findTeams (q : BattlegroundQueue) (arenaRating : Nat) : Option (Nat × Nat) :=
  let ok := rated cfg now q arenaRating
  let second := fun (gs : List Nat) (a : Nat) =>
    (gs.dropWhile (· != a)).find? fun g => ok g && (q.info a).arenaTeamId != (q.info g).arenaTeamId
  let ali := q.queuedGroups (bracket,.premadeAlliance)
  let horde := q.queuedGroups (bracket,.premadeHorde)
  match ali.find? ok, horde.find? ok with
  | none, none => none
  | some a, none => (second ali a).map fun h => (a,h)
  | none, some a => (second horde a).map fun h => (a,h)
  | some a, some h => some (a,h)

def setOpponents (q : BattlegroundQueue) (a h : Nat) : BattlegroundQueue :=
  let ia := q.info a
  let ih := q.info h
  let q := q.setInfo a { ia with
    opponentsTeamRating := ih.arenaTeamRating, opponentsMatchmakerRating := ih.arenaMatchmakerRating }
  q.setInfo h { q.info h with
    opponentsTeamRating := ia.arenaTeamRating, opponentsMatchmakerRating := ia.arenaMatchmakerRating }

def startArena (instanceId a h : Nat) (q : BattlegroundQueue) : BattlegroundQueue :=
  let q := setOpponents q a h
  let q := if (q.info a).team ≠ .alliance then
      q.moveGroup a (bracket,.premadeHorde) (bracket,.premadeAlliance)
    else q
  let q := if (q.info h).team ≠ .horde then
      q.moveGroup h (bracket,.premadeAlliance) (bracket,.premadeHorde)
    else q
  inviteGroupToBG cfg now instanceId .horde h (inviteGroupToBG cfg now instanceId .alliance a q)

def ratedMatch (created : Option Nat) (arenaRating : Nat) (q : BattlegroundQueue) :
    BattlegroundQueue :=
  match if arenaRating = 0 then frontRating bracket q else some arenaRating with
  | none => q
  | some arenaRating =>
    match findTeams cfg now bracket q arenaRating, created with
    | some (a,h), some instanceId => startArena cfg now bracket instanceId a h q
    | _, _ => q

/-- The battlegrounds with free slots, each with whether the queue may invite to it, the
template if there is one, and the instances that would be created. -/
structure UpdateInput where
  freeSlotQueue : List (Bool × Battleground)
  template : Option Battleground
  bracketEntry : Bool
  arenaType : Nat
  isRated : Bool
  arenaRating : Nat
  createdPremade : Option Nat
  created : Option Nat

def fillFreeSlots (q : BattlegroundQueue) (b : Bool × Battleground) : BattlegroundQueue :=
  if b.1 then invitePools cfg now b.2.instanceId (fillPlayersToBG q.initPools cfg b.2 bracket)
  else q

def startPremade (created : Option Nat) (bg : Battleground) (minPlayers maxPlayers : Nat)
    (q : BattlegroundQueue) : Bool × BattlegroundQueue :=
  if bg.isArena then (true,q)
  else
    let (found,q) := checkPremadeMatch cfg now bracket minPlayers maxPlayers q
    if found then
      match created with
      | none => (false,q)
      | some instanceId => (true,(invitePools cfg now instanceId q).initPools)
    else (true,q)

/-- The first of the three checks that succeeds; each works on the pools the last one left. -/
def checkMatch (bg : Battleground) (minPlayers maxPlayers : Nat) (q : BattlegroundQueue) :
    Bool × BattlegroundQueue :=
  let (found,q) := checkNormalMatch cfg bracket (!bg.isArena) minPlayers maxPlayers q
  if found then (true,q)
  else
    let (found,q) := if bg.isArena then checkSkirmishForSameFaction bracket minPlayers q else (false,q)
    if found then (true,q) else checkCrossFactionMatch q cfg bracket bg

def startNormal (created : Option Nat) (bg : Battleground) (minPlayers maxPlayers : Nat)
    (q : BattlegroundQueue) : BattlegroundQueue :=
  match checkMatch cfg bracket bg minPlayers maxPlayers q, created with
  | (true,q), some instanceId => invitePools cfg now instanceId q
  | (_,q), _ => q

def battlegroundQueueUpdate (u : UpdateInput) (q : BattlegroundQueue) : BattlegroundQueue :=
  if GroupType.all.all fun t => (q.queuedGroups (bracket,t)).isEmpty then q
  else
    let q := u.freeSlotQueue.foldl (fillFreeSlots cfg now bracket) q
    match u.template with
    | none => q
    | some bg =>
      if !u.bracketEntry then q
      else
        let maxPlayers := if bg.isArena then u.arenaType else bg.maxPlayersPerTeam
        let minPlayers := if bg.isArena then (if cfg.arenaTesting then 1 else u.arenaType)
          else if cfg.testing then 1 else bg.minPlayersPerTeam
        let (go,q) := startPremade cfg now bracket u.createdPremade bg minPlayers maxPlayers q.initPools
        if !go then q
        else if !u.isRated then startNormal cfg now bracket u.created bg minPlayers maxPlayers q
        else if bg.isArena then ratedMatch cfg now bracket u.created u.arenaRating q
        else q

end Matching

end TrinityCore.Battlegrounds
