import TrinityCore.Lib.IdPool
import TrinityCore.Lib.OrderedMap
import TrinityCore.Lib.Run

set_option autoImplicit false

namespace TrinityCore.Calendar

structure CalendarInvite where
  inviteId : Nat
  eventId : Nat
  invitee : Nat
  senderGUID : Nat
  status : Nat
  rank : Nat
  deriving DecidableEq

structure CalendarEvent where
  eventId : Nat
  creatorGUID : Nat
  guildId : Nat
  flags : BitVec 32
  deriving DecidableEq

def calendarFlagWithoutInvites : BitVec 32 := 0x040
def calendarFlagGuildEvent : BitVec 32 := 0x400

def CalendarEvent.isGuildEvent (e : CalendarEvent) : Bool := e.flags &&& calendarFlagGuildEvent != 0

def CalendarEvent.isGuildAnnouncement (e : CalendarEvent) : Bool :=
  e.flags &&& calendarFlagWithoutInvites != 0

def idSize : Nat := 2^64

/-- An id that was handed out, and the ids of that kind that were live then. -/
structure Issue where
  id : Nat
  live : List Nat
  deriving DecidableEq

structure CalendarMgr where
  events : List CalendarEvent
  invites : OrderedMap Nat (List CalendarInvite)
  eventIds : IdPool
  inviteIds : IdPool
  /-- What `GetFreeEventId` and `GetFreeInviteId` returned. -/
  issued : List Issue

namespace CalendarMgr

variable (mgr : CalendarMgr)

def storedInvites : List CalendarInvite := mgr.invites.values.flatten

def liveEventIds : List Nat := mgr.events.map CalendarEvent.eventId

def liveInviteIds : List Nat := mgr.storedInvites.map CalendarInvite.inviteId

def getEventInvites (eventId : Nat) : List CalendarInvite := (mgr.invites.find? eventId).getD []

def getEvent (eventId : Nat) : Option CalendarEvent :=
  mgr.events.find? fun e => e.eventId == eventId

def freeEventId (id : Nat) : CalendarMgr := { mgr with eventIds := mgr.eventIds.release idSize id }

def freeInviteId (id : Nat) : CalendarMgr :=
  { mgr with inviteIds := mgr.inviteIds.release idSize id }

def getFreeEventId : Nat × CalendarMgr :=
  let taken := mgr.eventIds.take idSize
  (taken.1,{ mgr with
    eventIds := taken.2
    issued := mgr.issued ++ [⟨taken.1,mgr.liveEventIds⟩] })

def getFreeInviteId : Nat × CalendarMgr :=
  let taken := mgr.inviteIds.take idSize
  (taken.1,{ mgr with
    inviteIds := taken.2
    issued := mgr.issued ++ [⟨taken.1,mgr.liveInviteIds⟩] })

def storeInvite (invite : CalendarInvite) : CalendarMgr :=
  { mgr with
    invites := mgr.invites.insert invite.eventId
      (mgr.getEventInvites invite.eventId ++ [invite]) }

def addInvite (event : CalendarEvent) (invite : CalendarInvite) : CalendarMgr :=
  if event.isGuildAnnouncement then mgr else mgr.storeInvite invite

def addEvent (event : CalendarEvent) : CalendarMgr := { mgr with events := event :: mgr.events }

def removeEvent (eventId : Nat) : CalendarMgr :=
  match mgr.getEvent eventId with
  | none => mgr
  | some event =>
    let mgr' := (mgr.getEventInvites eventId).foldl
      (fun mgr invite => mgr.freeInviteId invite.inviteId) mgr
    ({ mgr' with
      invites := mgr'.invites.erase eventId
      events := mgr'.events.erase event }).freeEventId event.eventId

def removeInvite (inviteId eventId : Nat) : CalendarMgr :=
  match mgr.getEvent eventId with
  | none => mgr
  | some _ =>
    match (mgr.getEventInvites eventId).find? fun invite => invite.inviteId == inviteId with
    | none => mgr
    | some invite =>
      { mgr.freeInviteId invite.inviteId with
        invites := mgr.invites.insert eventId ((mgr.getEventInvites eventId).erase invite) }

def setFlags (eventId : Nat) (flags : BitVec 32) : CalendarMgr :=
  match mgr.getEvent eventId with
  | none => mgr
  | some event =>
    { mgr with events := mgr.events.map fun e => if e = event then { e with flags := flags } else e }

def invite (event : CalendarEvent) (invite : CalendarInvite) : CalendarMgr :=
  let taken := mgr.getFreeInviteId
  taken.2.addInvite event { invite with inviteId := taken.1 }

def loadFromDB (events : List CalendarEvent) (invites : List CalendarInvite) : CalendarMgr :=
  let empty : CalendarMgr := ⟨events,.empty,⟨0,[]⟩,⟨0,[]⟩,[]⟩
  { invites.foldl storeInvite empty with
    eventIds := IdPool.ofLive (events.map CalendarEvent.eventId)
    inviteIds := IdPool.ofLive (invites.map CalendarInvite.inviteId) }

end CalendarMgr

structure Invitee where
  guid : Nat
  status : Nat
  rank : Nat
  deriving DecidableEq

/-- The packets, with what the handler looks up outside of the calendar. -/
inductive Packet where
  /-- There is no list of invitees if the packet ends too early. -/
  | addEvent (guid guildId : Nat) (past : Bool) (flags : BitVec 32) (invitees : Option (List Invitee))
  | copyEvent (eventId : Nat) (past : Bool)
  | updateEvent (eventId : Nat) (past : Bool) (flags : BitVec 32)
  /-- The invitee is refused if there is none, if he may not be dealt with or ignores the player. -/
  | eventInvite (guid guildId eventId inviteId : Nat) (invitee inviteeGuildId : Nat)
    (refused isPreInvite isGuildEvent : Bool)
  | eventSignup (guid guildId eventId : Nat) (tentative : Bool)
  | removeEvent (eventId : Nat)
  | removeInvite (inviteId eventId : Nat)

def calendarStatusInvited : Nat := 0
def calendarStatusSignedUp : Nat := 6
def calendarStatusTentative : Nat := 8
def calendarRankPlayer : Nat := 0
def maxPlayerInvites : Nat := 100

namespace CalendarMgr

variable (mgr : CalendarMgr)

def handleCalendarAddEvent (guid guildId : Nat) (past : Bool) (flags : BitVec 32)
    (invitees : Option (List Invitee)) : CalendarMgr :=
  if past then mgr
  else
    let taken := mgr.getFreeEventId
    let event : CalendarEvent := ⟨taken.1,guid,0,flags⟩
    let event := if event.isGuildEvent || event.isGuildAnnouncement then
      { event with guildId := guildId } else event
    if event.isGuildAnnouncement then
      -- the invite on the stack has the id 0, which is freed with it
      (taken.2.freeInviteId 0).addEvent event
    else
      match invitees with
      | none => taken.2.freeEventId event.eventId
      | some invitees =>
        ((invitees.take maxPlayerInvites).foldl (fun mgr invitee => mgr.invite event
          ⟨0,event.eventId,invitee.guid,guid,invitee.status,invitee.rank⟩) taken.2).addEvent event

def handleCalendarCopyEvent (eventId : Nat) (past : Bool) : CalendarMgr :=
  if past then mgr
  else
    match mgr.getEvent eventId with
    | none => mgr
    | some oldEvent =>
      let taken := mgr.getFreeEventId
      let newEvent := { oldEvent with eventId := taken.1 }
      let mgr := taken.2.addEvent newEvent
      (mgr.getEventInvites eventId).foldl
        (fun mgr invite => mgr.invite newEvent { invite with eventId := newEvent.eventId }) mgr

def handleCalendarEventInvite (guid guildId eventId inviteId : Nat) (invitee inviteeGuildId : Nat)
    (refused isPreInvite isGuildEvent : Bool) : CalendarMgr :=
  if refused then mgr
  else if isPreInvite then
    if isGuildEvent && decide (inviteeGuildId = guildId) then mgr
    -- the invite on the stack has the id that the client sent
    else mgr.freeInviteId inviteId
  else
    match mgr.getEvent eventId with
    | none => mgr
    | some event =>
      if event.isGuildEvent && decide (event.guildId = inviteeGuildId) then mgr
      else mgr.invite event
        ⟨0,eventId,invitee,guid,calendarStatusInvited,calendarRankPlayer⟩

def handleCalendarEventSignup (guid guildId eventId : Nat) (tentative : Bool) : CalendarMgr :=
  match mgr.getEvent eventId with
  | none => mgr
  | some event =>
    if event.isGuildEvent && decide (event.guildId ≠ guildId) then mgr
    else mgr.invite event ⟨0,eventId,guid,guid,
      if tentative then calendarStatusTentative else calendarStatusSignedUp,calendarRankPlayer⟩

def step : Packet → CalendarMgr
  | .addEvent guid guildId past flags invitees =>
    mgr.handleCalendarAddEvent guid guildId past flags invitees
  | .copyEvent eventId past => mgr.handleCalendarCopyEvent eventId past
  | .updateEvent eventId past flags => if past then mgr else mgr.setFlags eventId flags
  | .eventInvite guid guildId eventId inviteId invitee inviteeGuildId refused isPreInvite isGuildEvent =>
    mgr.handleCalendarEventInvite guid guildId eventId inviteId invitee inviteeGuildId refused
      isPreInvite isGuildEvent
  | .eventSignup guid guildId eventId tentative =>
    mgr.handleCalendarEventSignup guid guildId eventId tentative
  | .removeEvent eventId => mgr.removeEvent eventId
  | .removeInvite inviteId eventId => mgr.removeInvite inviteId eventId

end CalendarMgr

end TrinityCore.Calendar
