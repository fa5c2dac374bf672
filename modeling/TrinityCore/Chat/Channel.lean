import TrinityCore.Lib.OrderedMap
import TrinityCore.Lib.Run

set_option autoImplicit false

namespace TrinityCore.Chat

structure Player where
  guid : Nat
  name : List Char
  team : Nat
  isPlayerAccount : Bool
  hasGroup : Bool
  /-- `RBAC_PERM_CHANGE_CHANNEL_NOT_MODERATOR` -/
  changeChannelNotModerator : Bool
  /-- `RBAC_PERM_TWO_SIDE_INTERACTION_CHANNEL` -/
  twoSideInteractionChannel : Bool
  guid_ne : guid ≠ 0

/-- The first player in the world with the name, in whatever case it is written. -/
def findPlayerByName (players : List Player) (name : List Char) : Option Player :=
  players.find? fun player => name.map Char.toLower == player.name.map Char.toLower

structure PlayerInfo where
  player : Nat
  owner : Bool
  moderator : Bool
  muted : Bool
  deriving DecidableEq

def PlayerInfo.zero : PlayerInfo := ⟨0,false,false,false⟩

structure Channel where
  /-- `_channelId` is not zero. -/
  constant : Bool
  lfg : Bool
  ownership : Bool
  ownerGUID : Nat
  password : List Char
  playersStore : OrderedMap Nat PlayerInfo
  bannedStore : Finset Nat

namespace Channel

variable (c : Channel)

def isOn (who : Nat) : Bool := (c.playersStore.find? who).isSome

def isBanned (guid : Nat) : Bool := decide (guid ∈ c.bannedStore)

def info (guid : Nat) : PlayerInfo := (c.playersStore.find? guid).getD .zero

/-- Changes `playersStore[guid]`, which is created if it is not there. -/
def update (guid : Nat) (f : PlayerInfo → PlayerInfo) : Channel :=
  { c with playersStore := c.playersStore.insert guid (f (c.info guid)) }

def erase (guid : Nat) : Channel := { c with playersStore := c.playersStore.erase guid }

def disown : Channel :=
  if c.ownerGUID ≠ 0 ∧ c.isOn c.ownerGUID = true then
    c.update c.ownerGUID fun info => { info with owner := false }
  else c

def setOwnerGUID (guid : Nat) : Channel :=
  let c := { c.disown with ownerGUID := guid }
  if guid ≠ 0 then c.update guid fun info => { info with
    moderator := true
    owner := true }
  else c

def setModerator (guid : Nat) (on : Bool) : Channel :=
  c.update guid fun info => { info with moderator := on }

def setMute (guid : Nat) (on : Bool) : Channel :=
  c.update guid fun info => { info with muted := on }

def canJoin (restrictedLfgChannel : Bool) (player : Player) (pass : List Char) : Bool :=
  if c.isOn player.guid then false
  else if c.isBanned player.guid then false
  else if c.password ≠ [] ∧ pass ≠ c.password then false
  else if c.lfg && restrictedLfgChannel && player.isPlayerAccount && player.hasGroup then false
  else true

def joinChannel (restrictedLfgChannel : Bool) (player : Player) (pass : List Char) : Channel :=
  if c.canJoin restrictedLfgChannel player pass then
    let c := c.update player.guid fun _ => ⟨player.guid,false,false,false⟩
    if c.constant then c
    -- no owner yet
    else if c.ownerGUID = 0 ∧ c.ownership = true then
      (c.setOwnerGUID player.guid).update player.guid fun info => { info with moderator := true }
    else c
  else c

def leaveChannel (player : Player) : Channel :=
  if c.isOn player.guid then
    let changeowner := (c.info player.guid).owner
    let c := c.erase player.guid
    if c.constant then c
    else if changeowner && c.ownership then
      match c.playersStore.entries with
      | [] => c
      | (_,info) :: _ =>
        (c.update info.player fun info => { info with moderator := true }).setOwnerGUID info.player
    else c
  else c

def moderates (player : Player) : Bool :=
  c.isOn player.guid && ((c.info player.guid).moderator || player.changeChannelNotModerator)

def kickTarget (players : List Player) (player : Player) (badname : List Char) : Option Player :=
  if c.moderates player then
    match findPlayerByName players badname with
    | none => none
    | some bad =>
      if c.isOn bad.guid = false then none
      else if player.changeChannelNotModerator = false ∧ c.ownerGUID = bad.guid ∧
          player.guid ≠ c.ownerGUID then none
      else some bad
  else none

def kickOrBan (players : List Player) (player : Player) (badname : List Char) (ban : Bool) :
    Channel :=
  match c.kickTarget players player badname with
  | none => c
  | some bad =>
    let changeowner := decide (c.ownerGUID = bad.guid)
    let c := if ban then { c with bannedStore := insert bad.guid c.bannedStore } else c
    let c := c.erase bad.guid
    if changeowner && c.ownership && !c.playersStore.entries.isEmpty then
      (c.update player.guid fun info => { info with moderator := true }).setOwnerGUID player.guid
    else c

def unBan (players : List Player) (player : Player) (badname : List Char) : Channel :=
  if c.moderates player then
    match findPlayerByName players badname with
    | none => c
    | some bad =>
      if c.isBanned bad.guid then { c with bannedStore := c.bannedStore.erase bad.guid } else c
  else c

def setPassword (player : Player) (pass : List Char) : Channel :=
  if c.moderates player then { c with password := pass } else c

def member (players : List Player) (player : Player) (name : List Char) : Option Player :=
  match findPlayerByName players name with
  | none => none
  | some newp =>
    if c.isOn newp.guid = false ∨ (player.team ≠ newp.team ∧
        (player.twoSideInteractionChannel = false ∨ newp.twoSideInteractionChannel = false)) then
      none
    else some newp

def modeTarget (players : List Player) (player : Player) (p2n : List Char) (mod : Bool) :
    Option Player :=
  if c.moderates player then
    if player.guid = c.ownerGUID ∧ p2n = player.name ∧ mod = true then none
    else
      match c.member players player p2n with
      | none => none
      | some newp =>
        if c.ownerGUID = newp.guid ∧ c.ownerGUID ≠ player.guid then none else some newp
  else none

def setMode (players : List Player) (player : Player) (p2n : List Char) (mod set : Bool) :
    Channel :=
  match c.modeTarget players player p2n mod with
  | none => c
  | some newp => if mod then c.setModerator newp.guid set else c.setMute newp.guid set

def setOwner (players : List Player) (player : Player) (newname : List Char) : Channel :=
  if c.isOn player.guid &&
      (player.changeChannelNotModerator || decide (player.guid = c.ownerGUID)) then
    match c.member players player newname with
    | none => c
    | some newp =>
      (c.update newp.guid fun info => { info with moderator := true }).setOwnerGUID newp.guid
  else c

end Channel

/-- What players do to a channel. The players in the world are given where a name is looked up. -/
inductive Action where
  | joinChannel (restrictedLfgChannel : Bool) (player : Player) (pass : List Char)
  | leaveChannel (player : Player)
  | kickOrBan (players : List Player) (player : Player) (badname : List Char) (ban : Bool)
  | unBan (players : List Player) (player : Player) (badname : List Char)
  | setPassword (player : Player) (pass : List Char)
  | setMode (players : List Player) (player : Player) (p2n : List Char) (mod set : Bool)
  | setOwner (players : List Player) (player : Player) (newname : List Char)

/-- How somebody came to be on the channel or not to be on it. -/
inductive Event where
  | joined (guid : Nat)
  | left (guid : Nat)
  | kicked (guid : Nat)
  | banned (guid : Nat)
  deriving DecidableEq

structure Chatter where
  channel : Channel
  log : List Event

def Channel.act (c : Channel) : Action → Channel
  | .joinChannel restricted player pass => c.joinChannel restricted player pass
  | .leaveChannel player => c.leaveChannel player
  | .kickOrBan players player badname ban => c.kickOrBan players player badname ban
  | .unBan players player badname => c.unBan players player badname
  | .setPassword player pass => c.setPassword player pass
  | .setMode players player p2n mod set => c.setMode players player p2n mod set
  | .setOwner players player newname => c.setOwner players player newname

def Channel.event (c : Channel) : Action → Option Event
  | .joinChannel restricted player pass =>
    if c.canJoin restricted player pass then some (.joined player.guid) else none
  | .leaveChannel player => if c.isOn player.guid then some (.left player.guid) else none
  | .kickOrBan players player badname ban =>
    (c.kickTarget players player badname).map fun bad =>
      if ban then .banned bad.guid else .kicked bad.guid
  | _ => none

def Chatter.step (s : Chatter) (action : Action) : Chatter :=
  ⟨s.channel.act action,s.log ++ (s.channel.event action).toList⟩

/-- A custom channel nobody is on, with the password and the bans that were kept. -/
def Chatter.start (password : List Char) (bannedStore : Finset Nat) : Chatter :=
  ⟨{ constant := false
     lfg := false
     ownership := true
     ownerGUID := 0
     password := password
     playersStore := .empty
     bannedStore := bannedStore },[]⟩

end TrinityCore.Chat
