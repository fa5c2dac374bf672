import TrinityCore.Calendar.InviteIds
import TrinityCore.Lib.FirstMatch

set_option autoImplicit false

namespace TrinityCore.Calendar

namespace CalendarMgr

variable (mgr : CalendarMgr) (guid : Nat)

/-- The walk over the events, from some of them on. An element that was erased before is not met;
there is no result when the iterator goes on from one that was erased while it stood there. -/
def removeEventsOf : List CalendarEvent → CalendarMgr → Option CalendarMgr
  | [],mgr => some mgr
  | event :: rest,mgr =>
    if event ∉ mgr.events then removeEventsOf rest mgr
    else
      let mgr' := if event.creatorGUID = guid then mgr.removeEvent event.eventId else mgr
      if event ∈ mgr'.events then removeEventsOf rest mgr' else none

def getPlayerInvites : List CalendarInvite :=
  mgr.storedInvites.filter fun invite => invite.invitee = guid

def removeInvites (invites : List CalendarInvite) : CalendarMgr :=
  invites.foldl (fun mgr invite => mgr.removeInvite invite.inviteId invite.eventId) mgr

def removeAllPlayerEventsAndInvites : Option CalendarMgr :=
  (removeEventsOf guid mgr.events mgr).map fun mgr => mgr.removeInvites (mgr.getPlayerInvites guid)

def Filed : Prop :=
  ∀ eventId, ∀ invite ∈ mgr.getEventInvites eventId, invite.eventId = eventId

/-- What the character created, and its invites, are gone, and everything else is left. -/
structure CleanedOf (mgr' : CalendarMgr) : Prop where
  events : mgr'.events = mgr.events.filter fun event => event.creatorGUID ≠ guid
  invites : ∀ eventId, mgr'.getEventInvites eventId =
    if mgr.events.any (fun event => event.creatorGUID = guid ∧ event.eventId = eventId) then []
    else (mgr.getEventInvites eventId).filter fun invite => invite.invitee ≠ guid

end CalendarMgr

variable {mgr mgr' : CalendarMgr} {guid eventId inviteId : Nat}

section Events

theorem events_removeEvent (mgr : CalendarMgr) (eventId : Nat) :
    (mgr.removeEvent eventId).events = mgr.events.eraseP fun event => event.eventId == eventId := by
  unfold CalendarMgr.removeEvent
  cases hfind : mgr.getEvent eventId with
  | none =>
    refine (List.eraseP_of_forall_not fun event hevent => ?_).symm
    exact List.find?_eq_none.mp hfind event hevent
  | some event =>
    dsimp only
    rw [freeInvites_eq]
    exact FirstMatch.erase_eq_eraseP hfind

theorem removeEventsOf_none {events : List CalendarEvent} (hsub : ∀ event ∈ events, event ∈ mgr.events)
    (hnone : ∀ event ∈ events, event.creatorGUID ≠ guid) :
    CalendarMgr.removeEventsOf guid events mgr = some mgr := by
  induction events with
  | nil => rfl
  | cons event events ih =>
    rw [List.forall_mem_cons] at hsub hnone
    unfold CalendarMgr.removeEventsOf
    rw [if_neg (not_not.mpr hsub.1),if_neg hnone.1]
    dsimp only
    rw [if_pos hsub.1,ih hsub.2 hnone.2]

theorem removeEventsOf_some {pre events : List CalendarEvent} (hevents : mgr.events = pre ++ events)
    (hown : ∃ event ∈ events, event.creatorGUID = guid)
    (h : CalendarMgr.removeEventsOf guid events mgr = some mgr') :
    ∃ event ∈ mgr'.events, event.creatorGUID = guid := by
  induction events generalizing mgr pre with
  | nil => simp at hown
  | cons event rest ih =>
    have hmem : event ∈ mgr.events := by simp [hevents]
    unfold CalendarMgr.removeEventsOf at h
    rw [if_neg (not_not.mpr hmem)] at h
    dsimp only at h
    generalize hnext : (if event.creatorGUID = guid then mgr.removeEvent event.eventId else mgr) =
      next at h
    split_ifs at h with hstays
    have hsplit : ∃ pre', next.events = pre' ++ rest := by
      subst hnext
      split
      · rw [events_removeEvent,hevents]
        by_cases hbefore : ∃ e ∈ pre, e.eventId == event.eventId
        · obtain ⟨e,he,hid⟩ := hbefore
          have herase : (pre ++ event :: rest).eraseP (fun e => e.eventId == event.eventId) =
              pre.eraseP (fun e => e.eventId == event.eventId) ++ event :: rest :=
            List.eraseP_append_left (p := fun e => e.eventId == event.eventId) hid _ he
          exact ⟨_,by rw [herase,List.append_cons]⟩
        · push Not at hbefore
          refine ⟨pre,FirstMatch.eraseP_split (fun x hx => ?_) (beq_self_eq_true _)⟩
          simpa using hbefore x hx
      · exact ⟨pre ++ [event],by rw [hevents,List.append_assoc,List.singleton_append]⟩
    obtain ⟨pre',hsplit⟩ := hsplit
    by_cases hlater : ∃ e ∈ rest, e.creatorGUID = guid
    · exact ih hsplit hlater h
    · have hown' : event.creatorGUID = guid := by
        obtain ⟨e,he,hcreator⟩ := hown
        rcases List.mem_cons.mp he with rfl | he
        · exact hcreator
        · exact absurd ⟨e,he,hcreator⟩ hlater
      have hsame : CalendarMgr.removeEventsOf guid rest next = some next :=
        removeEventsOf_none (fun e he => by simp [hsplit,he])
          fun e he hcreator => hlater ⟨e,he,hcreator⟩
      cases hsame.symm.trans h
      exact ⟨event,hstays,hown'⟩

end Events

section Invites

theorem getEventInvites_removeInvite (mgr : CalendarMgr) (inviteId eventId key : Nat) :
    (mgr.removeInvite inviteId eventId).getEventInvites key =
      if key = eventId ∧ (mgr.getEvent eventId).isSome then
        (mgr.getEventInvites key).eraseP fun invite => invite.inviteId = inviteId
      else mgr.getEventInvites key := by
  unfold CalendarMgr.removeInvite
  cases hevent : mgr.getEvent eventId with
  | none => simp
  | some event =>
    dsimp only
    have hsame : (fun invite : CalendarInvite => decide (invite.inviteId = inviteId)) =
        fun invite => invite.inviteId == inviteId := rfl
    rw [hsame]
    cases hinvite : (mgr.getEventInvites eventId).find? fun invite => invite.inviteId == inviteId with
    | none =>
      dsimp only
      split_ifs with hkey
      · rw [hkey.1]
        refine (List.eraseP_of_forall_not fun invite hmem => ?_).symm
        exact List.find?_eq_none.mp hinvite invite hmem
      · rfl
    | some invite =>
      have hget : CalendarMgr.getEventInvites { mgr.freeInviteId invite.inviteId with
          invites := mgr.invites.insert eventId ((mgr.getEventInvites eventId).erase invite) } key =
          if key = eventId then (mgr.getEventInvites eventId).erase invite
          else mgr.getEventInvites key := by
        unfold CalendarMgr.getEventInvites
        dsimp only
        rw [OrderedMap.find?_insert]
        split_ifs <;> rfl
      dsimp only
      rw [hget,FirstMatch.erase_eq_eraseP hinvite]
      by_cases hkey : key = eventId
      · rw [if_pos hkey,if_pos ⟨hkey,Option.isSome_some⟩,hkey]
      · rw [if_neg hkey,if_neg fun h => hkey h.1]

theorem events_removeInvite (mgr : CalendarMgr) (inviteId eventId : Nat) :
    (mgr.removeInvite inviteId eventId).events = mgr.events := by
  unfold CalendarMgr.removeInvite
  split
  · rfl
  · split <;> rfl

theorem removeInvites_spec (invites : List CalendarInvite) (mgr : CalendarMgr) :
    (mgr.removeInvites invites).events = mgr.events ∧
      ∀ key, (mgr.removeInvites invites).getEventInvites key =
        if (mgr.getEvent key).isSome then
          FirstMatch.eraseEach CalendarInvite.inviteId
            (invites.filter fun invite => invite.eventId = key) (mgr.getEventInvites key)
        else mgr.getEventInvites key := by
  unfold CalendarMgr.removeInvites
  induction invites generalizing mgr with
  | nil =>
    refine ⟨rfl,fun key => ?_⟩
    split <;> rfl
  | cons invite invites ih =>
    obtain ⟨hevents,hinvites⟩ := ih (mgr.removeInvite invite.inviteId invite.eventId)
    have hsame := events_removeInvite mgr invite.inviteId invite.eventId
    refine ⟨hevents.trans hsame,fun key => ?_⟩
    have hget : (mgr.removeInvite invite.inviteId invite.eventId).getEvent key = mgr.getEvent key := by
      unfold CalendarMgr.getEvent
      rw [hsame]
    rw [List.foldl_cons,hinvites,hget,getEventInvites_removeInvite]
    by_cases hthere : (mgr.getEvent key).isSome
    · rw [if_pos hthere,if_pos hthere]
      by_cases hkey : invite.eventId = key
      · subst hkey
        rw [if_pos ⟨rfl,hthere⟩,List.filter_cons_of_pos (by simp)]
        rfl
      · rw [if_neg fun h => hkey h.1.symm,List.filter_cons_of_neg (by simpa using hkey)]
    · rw [if_neg hthere,if_neg hthere]
      split_ifs with hkey
      · exact absurd (hkey.1 ▸ hkey.2) hthere
      · rfl

theorem filter_flatten_values {entries : List (Nat × List CalendarInvite)} {key : Nat}
    (hsorted : entries.Pairwise fun a b => a.1 < b.1)
    (hfiled : ∀ entry ∈ entries, ∀ invite ∈ entry.2, invite.eventId = entry.1) :
    (entries.map Prod.snd).flatten.filter (fun invite => invite.eventId = key) =
      (OrderedMap.findEntry key entries).getD [] := by
  induction entries with
  | nil => rfl
  | cons entry entries ih =>
    rw [List.forall_mem_cons] at hfiled
    obtain ⟨hhead,htail⟩ := List.pairwise_cons.mp hsorted
    rw [List.map_cons,List.flatten_cons,List.filter_append,ih htail hfiled.2]
    change _ = (if key = entry.1 then some entry.2 else OrderedMap.findEntry key entries).getD []
    by_cases hkey : key = entry.1
    · have hnone : OrderedMap.findEntry key entries = none := by
        refine OrderedMap.findEntry_eq_none fun hmem => ?_
        obtain ⟨other,hother,heq⟩ := List.mem_map.mp hmem
        exact absurd (hhead other hother) (by omega)
      rw [if_pos hkey,hnone,Option.getD_none,List.append_nil,Option.getD_some]
      exact List.filter_eq_self.mpr fun invite hmem => by simp [hfiled.1 invite hmem,hkey]
    · have hother : entry.2.filter (fun invite => invite.eventId = key) = [] := by
        refine List.filter_eq_nil_iff.mpr fun invite hmem => ?_
        simpa [hfiled.1 invite hmem] using Ne.symm hkey
      rw [if_neg hkey,hother,List.nil_append]

theorem filter_storedInvites (hfiled : mgr.Filed) (eventId : Nat) :
    mgr.storedInvites.filter (fun invite => invite.eventId = eventId) =
      mgr.getEventInvites eventId := by
  refine filter_flatten_values mgr.invites.sorted fun entry hentry invite hmem => ?_
  refine hfiled entry.1 invite ?_
  unfold CalendarMgr.getEventInvites
  rw [show mgr.invites.find? entry.1 = some entry.2 from OrderedMap.mem_entries.mp hentry]
  exact hmem

theorem mem_storedInvites (hfiled : mgr.Filed) {invite : CalendarInvite} :
    invite ∈ mgr.storedInvites ↔ invite ∈ mgr.getEventInvites invite.eventId := by
  rw [← filter_storedInvites hfiled]
  simp

theorem filter_getPlayerInvites (hfiled : mgr.Filed) (guid eventId : Nat) :
    (mgr.getPlayerInvites guid).filter (fun invite => invite.eventId = eventId) =
      (mgr.getEventInvites eventId).filter fun invite => invite.invitee = guid := by
  unfold CalendarMgr.getPlayerInvites
  rw [List.filter_comm,filter_storedInvites hfiled]

end Invites

section Filed

theorem filed_storeInvite (hfiled : mgr.Filed) (invite : CalendarInvite) :
    (mgr.storeInvite invite).Filed := by
  intro eventId other hmem
  unfold CalendarMgr.storeInvite at hmem
  unfold CalendarMgr.getEventInvites at hmem
  dsimp only at hmem
  rw [OrderedMap.find?_insert] at hmem
  split_ifs at hmem with hkey
  · rcases List.mem_append.mp hmem with hmem | hmem
    · exact hkey ▸ hfiled _ other hmem
    · rw [List.mem_singleton.mp hmem,hkey]
  · exact hfiled eventId other hmem

theorem filed_loadFromDB (events : List CalendarEvent) (invites : List CalendarInvite) :
    (CalendarMgr.loadFromDB events invites).Filed := by
  have hstored : ∀ mgr : CalendarMgr, mgr.Filed →
      (invites.foldl CalendarMgr.storeInvite mgr).Filed := by
    induction invites with
    | nil => exact fun mgr h => h
    | cons invite invites ih => exact fun mgr h => ih _ (filed_storeInvite h invite)
  exact hstored ⟨events,.empty,⟨0,[]⟩,⟨0,[]⟩,[]⟩ fun eventId invite hmem => absurd hmem List.not_mem_nil

theorem filed_invite (hfiled : mgr.Filed) (event : CalendarEvent) (invite : CalendarInvite) :
    (mgr.invite event invite).Filed := by
  unfold CalendarMgr.invite CalendarMgr.addInvite
  dsimp only
  split_ifs
  · exact hfiled
  · exact filed_storeInvite (by exact hfiled) _

theorem filed_invites {α : Type} (l : List α) (event : CalendarEvent) (f : α → CalendarInvite)
    (hfiled : mgr.Filed) : (l.foldl (fun mgr a => mgr.invite event (f a)) mgr).Filed := by
  induction l generalizing mgr with
  | nil => exact hfiled
  | cons a l ih => exact ih (filed_invite hfiled event (f a))

theorem filed_removeInvite (hfiled : mgr.Filed) (inviteId eventId : Nat) :
    (mgr.removeInvite inviteId eventId).Filed := by
  intro key invite hmem
  rw [getEventInvites_removeInvite] at hmem
  split_ifs at hmem
  · exact hfiled key invite (List.mem_of_mem_eraseP hmem)
  · exact hfiled key invite hmem

theorem filed_removeEvent (hfiled : mgr.Filed) (eventId : Nat) :
    (mgr.removeEvent eventId).Filed := by
  unfold CalendarMgr.removeEvent
  split
  · exact hfiled
  · intro key invite hmem
    rw [freeInvites_eq] at hmem
    change invite ∈ ((mgr.invites.erase eventId).find? key).getD [] at hmem
    rw [OrderedMap.find?_erase] at hmem
    split_ifs at hmem
    · exact absurd hmem List.not_mem_nil
    · exact hfiled key invite hmem

theorem filed_step (hfiled : mgr.Filed) (packet : Packet) : (mgr.step packet).Filed := by
  cases packet
  case removeEvent eventId => exact filed_removeEvent hfiled eventId
  case removeInvite inviteId eventId => exact filed_removeInvite hfiled inviteId eventId
  -- the other handlers leave the lists as they are or add invites to the one of their event
  all_goals
    dsimp only [CalendarMgr.step,CalendarMgr.handleCalendarAddEvent,CalendarMgr.setFlags,
      CalendarMgr.handleCalendarCopyEvent,CalendarMgr.handleCalendarEventInvite,
      CalendarMgr.handleCalendarEventSignup]
    repeat' split
    all_goals
      first
      | exact hfiled
      | exact filed_invite hfiled _ _
      | exact filed_invites _ _ _ (by exact hfiled)

/-- Whatever was loaded and whatever came in, an event has exactly the invites that know its id. -/
theorem invites_filed (events : List CalendarEvent) (invites : List CalendarInvite)
    (packets : List Packet) (eventId : Nat) :
    let mgr := Run.exec CalendarMgr.step (.loadFromDB events invites) packets
    mgr.storedInvites.filter (fun invite => invite.eventId = eventId) =
      mgr.getEventInvites eventId :=
  filter_storedInvites (Run.exec_inv (P := CalendarMgr.Filed) (fun _ packet h => filed_step h packet)
    _ packets (filed_loadFromDB events invites)) eventId

end Filed

/-- Without an event of the character its invites go, if their events are there and no invite of
someone else goes for one of them. -/
theorem cleanedOf_iff (hfiled : mgr.Filed) (hnone : ∀ event ∈ mgr.events, event.creatorGUID ≠ guid) :
    mgr.CleanedOf guid (mgr.removeInvites (mgr.getPlayerInvites guid)) ↔
      (∀ invite ∈ mgr.storedInvites, invite.invitee = guid → mgr.getEvent invite.eventId ≠ none) ∧
      ∀ eventId, (mgr.getEventInvites eventId).Pairwise fun other own =>
        own.invitee = guid → other.inviteId = own.inviteId → other.invitee = guid := by
  obtain ⟨hevents,hinvites⟩ := removeInvites_spec (mgr.getPlayerInvites guid) mgr
  have hleft : mgr.events.filter (fun event => event.creatorGUID ≠ guid) = mgr.events :=
    List.filter_eq_self.mpr fun event hmem => by simpa using hnone event hmem
  have hany : ∀ eventId, (mgr.events.any fun event =>
      event.creatorGUID = guid ∧ event.eventId = eventId) = false :=
    fun eventId => List.any_eq_false.mpr fun event hmem => by simp [hnone event hmem]
  have hpairwise : ∀ eventId, FirstMatch.eraseEach CalendarInvite.inviteId
      ((mgr.getEventInvites eventId).filter fun invite => invite.invitee = guid)
        (mgr.getEventInvites eventId) =
      (mgr.getEventInvites eventId).filter (fun invite => invite.invitee ≠ guid) ↔
      (mgr.getEventInvites eventId).Pairwise fun other own =>
        own.invitee = guid → other.inviteId = own.inviteId → other.invitee = guid := by
    intro eventId
    have hiff : FirstMatch.eraseEach CalendarInvite.inviteId
        ((mgr.getEventInvites eventId).filter fun invite => decide (invite.invitee = guid))
          (mgr.getEventInvites eventId) =
        (mgr.getEventInvites eventId).filter (fun invite => !decide (invite.invitee = guid)) ↔ _ :=
      FirstMatch.eraseEach_filter_iff
    simpa only [decide_eq_true_eq,decide_not] using hiff
  constructor
  · intro h
    have hkey : ∀ eventId, (if (mgr.getEvent eventId).isSome then
        FirstMatch.eraseEach CalendarInvite.inviteId
          ((mgr.getEventInvites eventId).filter fun invite => invite.invitee = guid)
          (mgr.getEventInvites eventId)
        else mgr.getEventInvites eventId) =
        (mgr.getEventInvites eventId).filter fun invite => invite.invitee ≠ guid := by
      intro eventId
      have hafter := h.invites eventId
      rw [hinvites,filter_getPlayerInvites hfiled,hany,if_neg Bool.false_ne_true] at hafter
      exact hafter
    refine ⟨fun invite hmem hown hlost => ?_,fun eventId => ?_⟩
    · have hlist := hkey invite.eventId
      rw [hlost,if_neg (by simp)] at hlist
      rw [mem_storedInvites hfiled,hlist] at hmem
      simpa [hown] using (List.mem_filter.mp hmem).2
    · have hlist := hkey eventId
      split_ifs at hlist
      · exact (hpairwise eventId).mp hlist
      · rw [hlist]
        refine List.pairwise_of_forall_mem_list fun other hother own hown heq => ?_
        simpa [heq] using (List.mem_filter.mp hown).2
  · rintro ⟨hthere,hfirst⟩
    refine ⟨hevents.trans hleft.symm,fun eventId => ?_⟩
    rw [hinvites,filter_getPlayerInvites hfiled,hany,if_neg Bool.false_ne_true]
    split_ifs with hevent
    · exact (hpairwise eventId).mpr (hfirst eventId)
    · refine (List.filter_eq_self.mpr fun invite hmem => ?_).symm
      have hid := hfiled eventId invite hmem
      have hstored : invite ∈ mgr.storedInvites := (mem_storedInvites hfiled).mpr (hid ▸ hmem)
      rw [decide_eq_true_eq]
      intro hown
      exact hthere invite hstored hown (by simpa [hid] using hevent)

/-- The calendar is cleaned of a character just when he made no event, the events of his invites
are there, and in no list an invite of someone else stands before one of his with its id. -/
theorem removeAll_cleans_iff (hfiled : mgr.Filed) :
    (∃ mgr', mgr.removeAllPlayerEventsAndInvites guid = some mgr' ∧ mgr.CleanedOf guid mgr') ↔
      (∀ event ∈ mgr.events, event.creatorGUID ≠ guid) ∧
      (∀ invite ∈ mgr.storedInvites, invite.invitee = guid → mgr.getEvent invite.eventId ≠ none) ∧
      ∀ eventId, (mgr.getEventInvites eventId).Pairwise fun other own =>
        own.invitee = guid → other.inviteId = own.inviteId → other.invitee = guid := by
  unfold CalendarMgr.removeAllPlayerEventsAndInvites
  constructor
  · rintro ⟨mgr',hrun,hcleaned⟩
    obtain ⟨left,hwalk,rfl⟩ := Option.map_eq_some_iff.mp hrun
    have hnone : ∀ event ∈ mgr.events, event.creatorGUID ≠ guid := by
      by_contra hown
      push Not at hown
      obtain ⟨event,hmem,hcreator⟩ := removeEventsOf_some (List.nil_append _).symm hown hwalk
      have hsame := (removeInvites_spec (left.getPlayerInvites guid) left).1
      rw [← hsame,hcleaned.events] at hmem
      simpa [hcreator] using (List.mem_filter.mp hmem).2
    cases (removeEventsOf_none (fun _ h => h) hnone).symm.trans hwalk
    exact ⟨hnone,(cleanedOf_iff hfiled hnone).mp hcleaned⟩
  · rintro ⟨hnone,hrest⟩
    refine ⟨mgr.removeInvites (mgr.getPlayerInvites guid),?_,(cleanedOf_iff hfiled hnone).mpr hrest⟩
    rw [removeEventsOf_none (fun _ h => h) hnone,Option.map_some]

theorem removeAll_cleans_guest : ∃ mgr', (CalendarMgr.loadFromDB [⟨1,7,0,0⟩]
      [⟨3,1,7,7,0,0⟩,⟨4,1,8,7,0,0⟩]).removeAllPlayerEventsAndInvites 8 = some mgr' ∧
    CalendarMgr.CleanedOf (.loadFromDB [⟨1,7,0,0⟩] [⟨3,1,7,7,0,0⟩,⟨4,1,8,7,0,0⟩]) 8 mgr' := by
  refine (removeAll_cleans_iff (filed_loadFromDB _ _)).mpr ⟨by decide,by decide,fun eventId => ?_⟩
  by_cases hkey : eventId = 1
  · subst hkey
    decide
  · have hnone : (CalendarMgr.loadFromDB [⟨1,7,0,0⟩]
        [⟨3,1,7,7,0,0⟩,⟨4,1,8,7,0,0⟩]).getEventInvites eventId = [] := by
      change ((if eventId = 1 then _ else none : Option (List CalendarInvite)).getD []) = []
      rw [if_neg hkey,Option.getD_none]
    rw [hnone]
    exact List.Pairwise.nil

/-- The iterator goes on from the event of the character that was erased. -/
theorem removeAll_advances_erased : ¬ ∀ (events : List CalendarEvent) (invites : List CalendarInvite)
    (guid : Nat), ∃ mgr', (CalendarMgr.loadFromDB events invites).removeAllPlayerEventsAndInvites guid =
      some mgr' ∧ CalendarMgr.CleanedOf (.loadFromDB events invites) guid mgr' := by
  intro h
  obtain ⟨mgr',hrun,-⟩ := h [⟨1,7,0,0⟩] [] 7
  have hnone : (none : Option CalendarMgr) = some mgr' := hrun
  cases hnone

end TrinityCore.Calendar
