import Mathlib
import TrinityCore.Lib.OrderedSet
import TrinityCore.Lib.Run

set_option autoImplicit false

/-!
The battleground queue (`BattlegroundQueue.cpp`, `Cfbg.cpp`): the queued groups in their
lists, the players, and the selection pools from which groups are invited.

A group is known by a number that is never given twice, where the source has a pointer.
The battlegrounds themselves, the wait time averages, events and packets are left out.
-/

namespace TrinityCore.Battlegrounds

inductive Team where
  | alliance
  | horde
  deriving DecidableEq, Repr

def Team.id : Team → Nat
  | .alliance => 469
  | .horde => 67

def Team.other : Team → Team
  | .alliance => .horde
  | .horde => .alliance

inductive GroupType where
  | premadeAlliance
  | premadeHorde
  | normalAlliance
  | normalHorde
  | mixed
  deriving DecidableEq, Repr

def GroupType.all : List GroupType :=
  [.premadeAlliance,.premadeHorde,.normalAlliance,.normalHorde,.mixed]

instance : Fintype GroupType where
  elems := GroupType.all.toFinset
  complete t := by cases t <;> decide

def GroupType.premade : Team → GroupType
  | .alliance => .premadeAlliance
  | .horde => .premadeHorde

def GroupType.normal : Team → GroupType
  | .alliance => .normalAlliance
  | .horde => .normalHorde

@[simp] theorem GroupType.premade_inj {t t' : Team} : premade t = premade t' ↔ t = t' := by
  cases t <;> cases t' <;> simp [premade]

theorem GroupType.normal_ne_premade (t t' : Team) : GroupType.normal t ≠ .premade t' := by
  cases t <;> cases t' <;> nofun

/-- `team` is where the group will play, `oteam` the team it comes from. -/
structure GroupQueueInfo where
  players : Finset Nat
  team : Team
  oteam : Nat
  isRated : Bool
  arenaType : Nat
  arenaTeamId : Nat
  joinTime : Nat
  removeInviteTime : Nat
  isInvitedToBGInstanceGUID : Nat
  arenaTeamRating : Nat
  arenaMatchmakerRating : Nat
  opponentsTeamRating : Nat
  opponentsMatchmakerRating : Nat
  deriving DecidableEq

/-- What stands for a group that is gone. -/
def GroupQueueInfo.none : GroupQueueInfo := ⟨∅,.alliance,0,false,0,0,0,0,0,0,0,0,0⟩

structure SelectionPool where
  selectedGroups : List Nat
  playerCount : Nat
  deriving DecidableEq, Repr

def SelectionPool.init : SelectionPool := ⟨[],0⟩

abbrev Slot := Fin 16 × GroupType

structure BattlegroundQueue where
  queuedGroups : Slot → List Nat
  queuedPlayers : Nat → Option Nat
  groups : Nat → Option GroupQueueInfo
  selectionPools : Team → SelectionPool
  next : Nat

namespace BattlegroundQueue

def empty : BattlegroundQueue :=
  ⟨fun _ => [],fun _ => none,fun _ => none,fun _ => .init,0⟩

variable (q : BattlegroundQueue)

def info (g : Nat) : GroupQueueInfo := (q.groups g).getD .none

def size (g : Nat) : Nat := (q.info g).players.card

def invited (g : Nat) : Bool := (q.info g).isInvitedToBGInstanceGUID != 0

def setInfo (g : Nat) (i : GroupQueueInfo) : BattlegroundQueue :=
  { q with groups := Function.update q.groups g ((q.groups g).map fun _ => i) }

@[simp] theorem setInfo_queuedGroups (g : Nat) (i : GroupQueueInfo) :
    (q.setInfo g i).queuedGroups = q.queuedGroups := rfl

theorem info_setInfo_self {q : BattlegroundQueue} {g : Nat} {i i' : GroupQueueInfo}
    (h : q.groups g = some i') : (q.setInfo g i).info g = i := by
  simp [info,setInfo,h]

theorem info_setInfo_ne {q : BattlegroundQueue} {g g' : Nat} (i : GroupQueueInfo) (h : g' ≠ g) :
    (q.setInfo g i).info g' = q.info g' := by
  simp [info,setInfo,h]

def setList (s : Slot) (l : List Nat) : BattlegroundQueue :=
  { q with queuedGroups := Function.update q.queuedGroups s l }

def setPool (t : Team) (p : SelectionPool) : BattlegroundQueue :=
  { q with selectionPools := Function.update q.selectionPools t p }

def initPools : BattlegroundQueue := { q with selectionPools := fun _ => .init }

def moveGroup (g : Nat) (source target : Slot) : BattlegroundQueue :=
  let q := q.setList target (g :: q.queuedGroups target)
  q.setList source ((q.queuedGroups source).erase g)

end BattlegroundQueue

/-- The settings of the world and of the battleground manager, and the time in milliseconds. -/
structure Settings where
  crossFaction : Bool
  testing : Bool
  arenaTesting : Bool
  invitationType : Nat
  matchType : Nat
  premadeWait : Nat
  maxRatingDifference : Nat
  ratingDiscardTimer : Nat
  inviteAcceptWaitTime : Nat

/-- A request to join; `oteam` is what happens to be in the field that no one writes. -/
structure Request where
  players : Finset Nat
  team : Team
  oteam : Nat
  bracket : Fin 16
  arenaType : Nat
  isRated : Bool
  isPremade : Bool
  arenaRating : Nat
  matchmakerRating : Nat
  arenaTeamId : Nat

def Request.index (cfg : Settings) (r : Request) : GroupType :=
  if cfg.crossFaction && r.arenaType == 0 then .mixed
  else if !r.isRated && !r.isPremade then .normal r.team
  else .premade r.team

def Request.info (r : Request) (now : Nat) : GroupQueueInfo where
  players := r.players
  team := r.team
  oteam := r.oteam
  isRated := r.isRated
  arenaType := r.arenaType
  arenaTeamId := r.arenaTeamId
  joinTime := now
  removeInviteTime := 0
  isInvitedToBGInstanceGUID := 0
  arenaTeamRating := r.arenaRating
  arenaMatchmakerRating := r.matchmakerRating
  opponentsTeamRating := 0
  opponentsMatchmakerRating := 0

def addGroup (cfg : Settings) (now : Nat) (r : Request) (q : BattlegroundQueue) :
    BattlegroundQueue :=
  let slot := (r.bracket,r.index cfg)
  let q := q.setList slot (q.queuedGroups slot ++ [q.next])
  { q with
    queuedPlayers := fun p => if p ∈ r.players then some q.next else q.queuedPlayers p
    groups := Function.update q.groups q.next (some (r.info now))
    next := q.next+1 }

/-- The search of `RemovePlayer`: brackets from the highest, in the first that has the group
the last list with it. -/
def findSlot (q : BattlegroundQueue) (g : Nat) : Option Slot :=
  (List.finRange 16).reverse.findSome? fun b =>
    (GroupType.all.filter fun t => g ∈ q.queuedGroups (b,t)).getLast?.map fun t => (b,t)

/-- A group without players is deleted, and when a member of a rated group leaves before the
invitation the next member follows; the fuel is the number of members. -/
def removePlayers : Nat → Nat → BattlegroundQueue → BattlegroundQueue
  | 0, _, q => q
  | n+1, guid, q =>
    match q.queuedPlayers guid with
    | none => q
    | some g =>
      match findSlot q g with
      | none => q
      | some slot =>
        let i := { q.info g with players := (q.info g).players.erase guid }
        let q := { q.setInfo g i with queuedPlayers := Function.update q.queuedPlayers guid none }
        if i.players = ∅ then
          let q := q.setList slot ((q.queuedGroups slot).erase g)
          { q with groups := Function.update q.groups g none }
        else if i.isInvitedToBGInstanceGUID = 0 ∧ i.isRated then
          removePlayers n ((OrderedSet.elems i.players).headD 0) q
        else q

def removePlayer (guid : Nat) (q : BattlegroundQueue) : BattlegroundQueue :=
  match q.queuedPlayers guid with
  | none => q
  | some g => removePlayers (q.size g) guid q

namespace SelectionPool

variable (q : BattlegroundQueue) (pool : SelectionPool)

def addGroup (g desiredCount : Nat) : Bool × SelectionPool :=
  if !q.invited g ∧ desiredCount ≥ pool.playerCount+q.size g then
    (true,⟨pool.selectedGroups ++ [g],pool.playerCount+q.size g⟩)
  else (decide (pool.playerCount < desiredCount),pool)

def groupToKick (size : Nat) : Option (Nat × Bool) :=
  pool.selectedGroups.foldl (fun best g =>
    if ((q.size g : Int)-size).natAbs ≤ 1 then some (g,true)
    else match best with
      | none => some (g,false)
      | some (b,found) => if !found && q.size g ≥ q.size b then some (g,false) else some (b,found))
    none

def kickGroup (size : Nat) : Bool × SelectionPool :=
  if pool.playerCount = 0 then (true,pool)
  else match pool.groupToKick q size with
    | none => (true,pool)
    | some (g,_) =>
      (decide (q.size g > size+1),⟨pool.selectedGroups.erase g,pool.playerCount-q.size g⟩)

/-- The loop `for (; … && AddGroup(*itr, desired); ) ++itr`; what is left begins with the
group that did not fit. -/
def addWhile (desired : Nat) : List Nat → SelectionPool → List Nat × SelectionPool
  | [], pool => ([],pool)
  | g :: gs, pool =>
    let (more,pool) := pool.addGroup q g desired
    if more then addWhile desired gs pool else (g :: gs,pool)

/-- The same over the groups that are not invited. -/
def addUninvited (desired : Nat) : List Nat → SelectionPool → SelectionPool
  | [], pool => pool
  | g :: gs, pool =>
    if q.invited g then addUninvited desired gs pool
    else
      let (more,pool) := pool.addGroup q g desired
      if more then addUninvited desired gs pool else pool

end SelectionPool

structure Battleground where
  instanceId : Nat
  isArena : Bool
  isRated : Bool
  minPlayersPerTeam : Nat
  maxPlayersPerTeam : Nat
  freeSlots : Team → Nat

structure Filling where
  ali : List Nat
  horde : List Nat
  aliPool : SelectionPool
  hordePool : SelectionPool

section Fill

variable (q : BattlegroundQueue)

/-- Kick a group of the first team and try others of its queue; when it has none left, kick
one of the second team unless the first has fewer players. The answer says to go on. -/
def kickAndAdd (free : Nat) (diff otherDiff : Int) (queue : List Nat) (pool other : SelectionPool) :
    Bool × List Nat × SelectionPool × SelectionPool :=
  let size := (otherDiff-diff).toNat
  let (again,pool) := pool.kickGroup q size
  let (queue,pool) := if again then
      pool.addWhile q (if (free : Int) ≥ otherDiff then ((free : Int)-otherDiff).toNat else 0) queue
    else (queue,pool)
  if pool.playerCount = 0 then
    if (free : Int) ≤ otherDiff+1 then (false,queue,pool,other)
    else (true,queue,pool,(other.kickGroup q size).2)
  else (true,queue,pool,other)

/-- The balancing loop. The source means to allow one player of difference with match type 1
but sets a variable of an inner block. -/
def balance (aliFree hordeFree : Nat) : Nat → Filling → Filling
  | 0, f => f
  | n+1, f =>
    let matchCount := 0
    let diffAli := (aliFree : Int)-f.aliPool.playerCount
    let diffHorde := (hordeFree : Int)-f.hordePool.playerCount
    if (diffAli-diffHorde).natAbs > matchCount ∧
        (f.hordePool.playerCount > 0 ∨ f.aliPool.playerCount > 0) then
      if diffAli < diffHorde then
        let (go,queue,pool,other) := kickAndAdd q aliFree diffAli diffHorde f.ali f.aliPool f.hordePool
        let f := ⟨queue,f.horde,pool,other⟩
        if go then balance aliFree hordeFree n f else f
      else
        let (go,queue,pool,other) :=
          kickAndAdd q hordeFree diffHorde diffAli f.horde f.hordePool f.aliPool
        let f := ⟨f.ali,queue,other,pool⟩
        if go then balance aliFree hordeFree n f else f
    else f

/-- The regular selection of `FillPlayersToBG`. The rounds of the balancing loop are bounded:
each of them kicks a group or takes one from a queue. -/
def fillRegular (cfg : Settings) (bg : Battleground) (bracket : Fin 16) : BattlegroundQueue :=
  let aliFree := bg.freeSlots .alliance
  let hordeFree := bg.freeSlots .horde
  let ali := q.queuedGroups (bracket,.normalAlliance)
  let horde := q.queuedGroups (bracket,.normalHorde)
  let (ali',aliPool) := (q.selectionPools .alliance).addWhile q aliFree ali
  let (horde',hordePool) := (q.selectionPools .horde).addWhile q hordeFree horde
  let f : Filling := ⟨ali',horde',aliPool,hordePool⟩
  let f := if cfg.invitationType = 0 then f
    else balance q aliFree hordeFree
      (2*(ali.length+horde.length)+aliPool.selectedGroups.length+hordePool.selectedGroups.length) f
  (q.setPool .alliance f.aliPool).setPool .horde f.hordePool

/-- The order in which a `multimap` from sizes to groups is read backwards. -/
def bySizeDescending (gs : List Nat) : List Nat :=
  (gs.insertionSort fun a b => q.size a ≤ q.size b).reverse

/-- The groups are added to the pool of the team they come from, as long as `LeftToAdd`
allows; the answer is what is left to add. -/
def preAddPlayers (maxInTeam : Nat) : List Nat → Int → BattlegroundQueue → Int × BattlegroundQueue
  | [], leftToAdd, q => (leftToAdd,q)
  | g :: gs, leftToAdd, q =>
    let side := if (q.info g).oteam = Team.alliance.id then Team.alliance else .horde
    if (q.size g : Int) ≤ leftToAdd then
      let (added,pool) := (q.selectionPools side).addGroup q g maxInTeam
      let q := q.setPool side pool
      if added then preAddPlayers maxInTeam gs (leftToAdd-q.size g) q
      else preAddPlayers maxInTeam gs leftToAdd q
    else preAddPlayers maxInTeam gs leftToAdd q

/-- The second loop of `FillXPlayersToBG`: a group goes to the team with more free slots,
by the running counters, or stays with its team. -/
def fillMixed (minPlayers aliFree hordeFree : Nat) :
    List Nat → Int → Int → BattlegroundQueue → BattlegroundQueue
  | [], _, _, q => q
  | g :: gs, valiFree, vhordeFree, q =>
    let ally := q.selectionPools .alliance
    let horde := q.selectionPools .horde
    if q.invited g ∨ g ∈ ally.selectedGroups ∨ g ∈ horde.selectedGroups ∨
        (ally.playerCount ≥ minPlayers ∧ horde.playerCount ≥ minPlayers) then
      fillMixed minPlayers aliFree hordeFree gs valiFree vhordeFree q
    else
      let team := if valiFree = vhordeFree then (q.info g).team
        else if valiFree < vhordeFree then .horde else .alliance
      let q := q.setInfo g { q.info g with team := team }
      let free := match team with | .alliance => aliFree | .horde => hordeFree
      let (added,pool) := (q.selectionPools team).addGroup q g free
      let q := q.setPool team pool
      if added then
        match team with
        | .alliance => fillMixed minPlayers aliFree hordeFree gs (valiFree-q.size g) vhordeFree q
        | .horde => fillMixed minPlayers aliFree hordeFree gs valiFree (vhordeFree-q.size g) q
      else fillMixed minPlayers aliFree hordeFree gs valiFree vhordeFree q

/-- The groups of the mixed queue that are not invited. -/
def uninvitedMixed (bracket : Fin 16) : List Nat :=
  (q.queuedGroups (bracket,.mixed)).filter fun g => !q.invited g

def totalSize (gs : List Nat) : Nat := (gs.map q.size).sum

def queuedPeople (bracket : Fin 16) : Nat := totalSize q (uninvitedMixed q bracket) % 256

def fromTeam (t : Team) (gs : List Nat) : List Nat :=
  gs.filter fun g => decide ((q.info g).oteam = Team.alliance.id) == decide (t = .alliance)

/-- The first part of `FillXPlayersToBG` for a new battleground, from empty pools: each team
gets groups of its own as far as both teams have them. The answers are the running
counters. -/
def preAdd (bracket : Fin 16) (aliFree hordeFree : Nat) : Int × Int × BattlegroundQueue :=
  let ali := fromTeam q .alliance (uninvitedMixed q bracket)
  let horde := fromTeam q .horde (uninvitedMixed q bracket)
  let smallest : Int := min (min aliFree (totalSize q ali)) (min hordeFree (totalSize q horde))
  let (left,q') := preAddPlayers aliFree (bySizeDescending q ali) smallest q
  let (left',q') := preAddPlayers hordeFree (bySizeDescending q horde) smallest q'
  ((aliFree : Int)-left,(hordeFree : Int)-left',q')

def fillXPlayersToBG (cfg : Settings) (bracket : Fin 16) (bg : Battleground) (start : Bool) :
    Bool × BattlegroundQueue :=
  if cfg.crossFaction && (cfg.testing || queuedPeople q bracket ≥ bg.minPlayersPerTeam*2 || !start)
  then
    let aliFree := if start then bg.maxPlayersPerTeam else bg.freeSlots .alliance
    let hordeFree := if start then bg.maxPlayersPerTeam else bg.freeSlots .horde
    let q := q.initPools
    let (valiFree,vhordeFree,q) :=
      if start then preAdd q bracket aliFree hordeFree else ((aliFree : Int),(hordeFree : Int),q)
    (true,fillMixed bg.minPlayersPerTeam aliFree hordeFree
      (bySizeDescending q (q.queuedGroups (bracket,.mixed))) valiFree vhordeFree q)
  else (false,q)

def fillPlayersToBG (cfg : Settings) (bg : Battleground) (bracket : Fin 16) : BattlegroundQueue :=
  if bg.isArena then fillRegular q cfg bg bracket
  else
    let (done,q) := fillXPlayersToBG q cfg bracket bg false
    if done then q else fillRegular q cfg bg bracket

def playerCount (t : Team) : Nat := (q.selectionPools t).playerCount

def checkCrossFactionMatch (cfg : Settings) (bracket : Fin 16) (bg : Battleground) :
    Bool × BattlegroundQueue :=
  if !cfg.crossFaction || bg.isArena then (false,q)
  else
    let (_,q) := fillXPlayersToBG q cfg bracket bg true
    if cfg.testing && (playerCount q .alliance != 0 || playerCount q .horde != 0) then (true,q)
    else
      let mpt := bg.minPlayersPerTeam % 256
      (!(playerCount q .alliance < mpt || playerCount q .horde < mpt),q)

end Fill

end TrinityCore.Battlegrounds
