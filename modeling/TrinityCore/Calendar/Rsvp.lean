import TrinityCore.Calendar.CalendarMgr
import TrinityCore.Lib.FirstMatch

set_option autoImplicit false

namespace TrinityCore.Calendar

def calendarFlagInvitesLocked : BitVec 32 := 0x010

def calendarStatusRemoved : Nat := 9

def CalendarEvent.invitesLocked (e : CalendarEvent) : Bool :=
  e.flags &&& calendarFlagInvitesLocked != 0

/-- An invite that was answered, as it is then, and the time of its status. -/
structure Answer where
  invite : CalendarInvite
  statusTime : Nat
  deriving DecidableEq

namespace CalendarMgr

variable (mgr : CalendarMgr)

/-- The invites of the first event that has one with the id. -/
def findInvites (inviteId : Nat) : Option (Nat × List CalendarInvite) :=
  mgr.invites.entries.find? fun e => e.2.any fun invite => invite.inviteId == inviteId

def getInvite (inviteId : Nat) : Option CalendarInvite :=
  (mgr.findInvites inviteId).bind fun e => e.2.find? fun invite => invite.inviteId == inviteId

def setStatus (inviteId status : Nat) : CalendarMgr :=
  match mgr.findInvites inviteId with
  | none => mgr
  | some e =>
    { mgr with
      invites := mgr.invites.insert e.1
        (e.2.modify (e.2.findIdx fun invite => invite.inviteId == inviteId)
          fun invite => { invite with status := status }) }

def handleCalendarEventRsvp (eventId inviteId status now : Nat) : CalendarMgr × Option Answer :=
  match mgr.getEvent eventId with
  | none => (mgr,none)
  | some calendarEvent =>
    if status ≠ calendarStatusRemoved ∧ calendarEvent.invitesLocked = true then (mgr,none)
    else
      match mgr.getInvite inviteId with
      | none => (mgr,none)
      | some invite =>
        (mgr.setStatus inviteId status,some ⟨{ invite with status := status },now⟩)

/-- Only an invite of the event is answered, and if an event is locked only by a removal. -/
structure StaysLocked (eventId inviteId status now : Nat) : Prop where
  named : ∀ answer ∈ (mgr.handleCalendarEventRsvp eventId inviteId status now).2,
    answer.invite.eventId = eventId
  locked : ∀ answer ∈ (mgr.handleCalendarEventRsvp eventId inviteId status now).2, ∀ event,
    mgr.getEvent answer.invite.eventId = some event → event.invitesLocked = true →
      answer.invite.status = calendarStatusRemoved
  others : ∀ invite ∈ (mgr.handleCalendarEventRsvp eventId inviteId status now).1.storedInvites,
    invite ∈ mgr.storedInvites ∨
      ∃ answer ∈ (mgr.handleCalendarEventRsvp eventId inviteId status now).2, answer.invite = invite

def AnswersOwn (eventId inviteId status : Nat) : Prop :=
  ∀ event invite, mgr.getEvent eventId = some event →
    (status ≠ calendarStatusRemoved → event.invitesLocked = false) →
      mgr.getInvite inviteId = some invite → invite.eventId = eventId

end CalendarMgr

variable {mgr : CalendarMgr} {eventId inviteId status now : Nat} {invite : CalendarInvite}

theorem findInvites_some (h : mgr.getInvite inviteId = some invite) :
    ∃ key pre post, mgr.invites.find? key = some (pre ++ invite :: post) ∧
      mgr.setStatus inviteId status = { mgr with
        invites := mgr.invites.insert key (pre ++ { invite with status := status } :: post) } := by
  unfold CalendarMgr.getInvite at h
  obtain ⟨⟨key,invites⟩,hfind,hinvite⟩ := Option.bind_eq_some_iff.mp h
  obtain ⟨pre,post,hsplit,hid,hpre⟩ := FirstMatch.split hinvite
  dsimp only at hsplit
  subst hsplit
  refine ⟨key,pre,post,OrderedMap.mem_entries.mp (List.mem_of_find?_eq_some hfind),?_⟩
  unfold CalendarMgr.setStatus
  rw [hfind]
  dsimp only
  rw [FirstMatch.modify_findIdx _ hpre hid]

theorem mem_setStatus (h : mgr.getInvite inviteId = some invite) {x : CalendarInvite}
    (hx : x ∈ (mgr.setStatus inviteId status).storedInvites) :
    x ∈ mgr.storedInvites ∨ x = { invite with status := status } := by
  obtain ⟨key,pre,post,hfind,(hset : mgr.setStatus inviteId status = _)⟩ := findInvites_some h
  rw [hset] at hx
  obtain ⟨invites,hinvites,hx⟩ := List.mem_flatten.mp hx
  obtain ⟨key',hkey'⟩ := OrderedMap.mem_values.mp hinvites
  rw [OrderedMap.find?_insert] at hkey'
  split_ifs at hkey' with hsame
  · cases hkey'
    simp only [List.mem_append,List.mem_cons] at hx
    have hold : ∀ y, y ∈ pre ++ invite :: post → y ∈ mgr.storedInvites := fun y hy =>
      List.mem_flatten.mpr ⟨_,OrderedMap.mem_values.mpr ⟨key,hfind⟩,hy⟩
    rcases hx with hx | hx | hx
    · exact .inl (hold x (List.mem_append_left _ hx))
    · exact .inr hx
    · exact .inl (hold x (List.mem_append_right _ (List.mem_cons_of_mem _ hx)))
  · exact .inl (List.mem_flatten.mpr ⟨invites,OrderedMap.mem_values.mpr ⟨key',hkey'⟩,hx⟩)

theorem handleCalendarEventRsvp_cases (mgr : CalendarMgr) (eventId inviteId status now : Nat) :
    (mgr.handleCalendarEventRsvp eventId inviteId status now = (mgr,none) ∧
      ∀ event invite, mgr.getEvent eventId = some event →
        (status ≠ calendarStatusRemoved → event.invitesLocked = false) →
          mgr.getInvite inviteId ≠ some invite) ∨
    ∃ event invite, mgr.getEvent eventId = some event ∧
      (status ≠ calendarStatusRemoved → event.invitesLocked = false) ∧
      mgr.getInvite inviteId = some invite ∧
      mgr.handleCalendarEventRsvp eventId inviteId status now =
        (mgr.setStatus inviteId status,some ⟨{ invite with status := status },now⟩) := by
  unfold CalendarMgr.handleCalendarEventRsvp
  cases hevent : mgr.getEvent eventId with
  | none => exact .inl ⟨rfl,by simp⟩
  | some event =>
    dsimp only
    by_cases hlocked : status ≠ calendarStatusRemoved ∧ event.invitesLocked = true
    · rw [if_pos hlocked]
      refine .inl ⟨rfl,fun event' invite hevent' hopen => ?_⟩
      cases hevent'
      rw [hopen hlocked.1] at hlocked
      exact absurd hlocked.2 (by decide)
    · rw [if_neg hlocked]
      have hopen : status ≠ calendarStatusRemoved → event.invitesLocked = false := by
        intro hne
        by_contra hyes
        exact hlocked ⟨hne,by simpa using hyes⟩
      cases hinvite : mgr.getInvite inviteId with
      | none => exact .inl ⟨rfl,by simp⟩
      | some invite => exact .inr ⟨event,invite,rfl,hopen,rfl,rfl⟩

theorem staysLocked_iff (mgr : CalendarMgr) (eventId inviteId status now : Nat) :
    mgr.StaysLocked eventId inviteId status now ↔ mgr.AnswersOwn eventId inviteId status := by
  rcases handleCalendarEventRsvp_cases mgr eventId inviteId status now with
    ⟨hrefused,hnone⟩ | ⟨event,invite,hevent,hopen,hinvite,hanswered⟩
  · refine iff_of_true ⟨?_,?_,?_⟩ ?_
    · simp [hrefused]
    · simp [hrefused]
    · intro x hx
      rw [hrefused] at hx
      exact .inl hx
    · exact fun event invite hevent hopen hinvite => absurd hinvite (hnone event invite hevent hopen)
  · constructor
    · intro h event' invite' hevent' _ hinvite'
      cases hinvite.symm.trans hinvite'
      have hnamed := h.named ⟨{ invite with status := status },now⟩ (by rw [hanswered]; rfl)
      exact hnamed
    · intro hown
      have hid := hown event invite hevent hopen hinvite
      refine ⟨?_,?_,?_⟩
      · rw [hanswered]
        rintro answer ⟨⟩
        exact hid
      · rw [hanswered]
        rintro answer ⟨⟩ event' hevent' hlocked
        dsimp only at hevent' ⊢
        rw [hid] at hevent'
        cases hevent.symm.trans hevent'
        by_contra hne
        rw [hopen hne] at hlocked
        exact absurd hlocked (by decide)
      · intro x hx
        rw [hanswered] at hx ⊢
        rcases mem_setStatus hinvite hx with hold | hnew
        · exact .inl hold
        · exact .inr ⟨_,rfl,hnew.symm⟩

/-- An open event, and a locked one with an invite that is not answered yet. -/
def lockedEvent : CalendarMgr :=
  .loadFromDB [⟨1,5,0,0⟩,⟨2,5,0,calendarFlagInvitesLocked⟩] [⟨7,2,6,5,calendarStatusInvited,0⟩]

theorem lockedEvent_answered :
    (lockedEvent.handleCalendarEventRsvp 1 7 1 100).2 = some ⟨⟨7,2,6,5,1,0⟩,100⟩ ∧
    ¬lockedEvent.StaysLocked 1 7 1 100 := by
  have hanswered : (lockedEvent.handleCalendarEventRsvp 1 7 1 100).2 =
      some ⟨⟨7,2,6,5,1,0⟩,100⟩ := by decide
  refine ⟨hanswered,fun h => ?_⟩
  have hnamed := h.named ⟨⟨7,2,6,5,1,0⟩,100⟩ hanswered
  exact absurd hnamed (by decide)

end TrinityCore.Calendar
