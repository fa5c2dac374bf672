import TrinityCore.Calendar.CalendarMgr

set_option autoImplicit false

namespace TrinityCore.Calendar

/-- No id that was handed out was zero or live, and the stored ids are different ones. -/
structure Unique (mgr : CalendarMgr) : Prop where
  issued : ∀ issue ∈ mgr.issued, issue.id ≠ 0 ∧ issue.id ∉ issue.live
  events : mgr.liveEventIds.Nodup
  invites : mgr.liveInviteIds.Nodup

namespace CalendarMgr

variable (mgr : CalendarMgr)

def eventsMade : Packet → Nat
  | .addEvent _ _ past _ _ => if past then 0 else 1
  | .copyEvent eventId past => if past || (mgr.getEvent eventId).isNone then 0 else 1
  | _ => 0

def invitesMade : Packet → Nat
  | .addEvent _ _ past _ invitees =>
    if past then 0 else ((invitees.getD []).take maxPlayerInvites).length
  | .copyEvent eventId past =>
    if past || (mgr.getEvent eventId).isNone then 0 else (mgr.getEventInvites eventId).length
  | .eventInvite _ _ eventId _ _ inviteeGuildId refused isPreInvite _ =>
    if refused || isPreInvite then 0
    else (mgr.getEvent eventId).elim 0 fun event =>
      if event.isGuildEvent && decide (event.guildId = inviteeGuildId) then 0 else 1
  | .eventSignup _ guildId eventId _ => (mgr.getEvent eventId).elim 0 fun event =>
      if event.isGuildEvent && decide (event.guildId ≠ guildId) then 0 else 1
  | _ => 0

/-- No invite on the stack frees an id that is not lost: there is no guild announcement, and the
id of a pre-invite was handed out and is neither stored nor free. -/
def FreesOnlyLost : Packet → Prop
  | .addEvent _ _ past flags _ => past = false → flags &&& calendarFlagWithoutInvites = 0
  | .eventInvite _ guildId _ inviteId _ inviteeGuildId refused isPreInvite isGuildEvent =>
    refused = false → isPreInvite = true → (isGuildEvent = true → inviteeGuildId ≠ guildId) →
      0 < inviteId ∧ inviteId ≤ mgr.inviteIds.maxId ∧ inviteId ∉ mgr.liveInviteIds ∧
      inviteId ∉ mgr.inviteIds.freeIds
  | _ => True

/-- Only lost ids are freed by invites on the stack, and the counters do not wrap. -/
structure Careful (packet : Packet) : Prop where
  lost : mgr.FreesOnlyLost packet
  events : mgr.eventIds.HasRoom idSize (mgr.eventsMade packet)
  invites : mgr.inviteIds.HasRoom idSize (mgr.invitesMade packet)

end CalendarMgr

structure Sound (pending : List Nat) (mgr : CalendarMgr) : Prop where
  eventIds : mgr.eventIds.Holds idSize (pending ++ mgr.liveEventIds)
  inviteIds : mgr.inviteIds.Holds idSize mgr.liveInviteIds
  issued : ∀ issue ∈ mgr.issued, issue.id ≠ 0 ∧ issue.id ∉ issue.live

variable {mgr : CalendarMgr} {pending : List Nat} {id n : Nat}

theorem Sound.unique (h : Sound [] mgr) : Unique mgr :=
  ⟨h.issued,(List.nodup_append'.mp h.eventIds.nodup).1,(List.nodup_append'.mp h.inviteIds.nodup).1⟩

theorem perm_storedInvites (mgr : CalendarMgr) (eventId : Nat) : mgr.storedInvites.Perm
    (mgr.getEventInvites eventId ++ (mgr.invites.erase eventId).values.flatten) := by
  unfold CalendarMgr.storedInvites CalendarMgr.getEventInvites
  cases hfind : mgr.invites.find? eventId with
  | none => rw [OrderedMap.erase_eq_self hfind,Option.getD_none,List.nil_append]
  | some invites => exact (OrderedMap.perm_values_erase hfind).flatten

theorem perm_flatten_insert (m : OrderedMap Nat (List CalendarInvite)) (eventId : Nat)
    (invites : List CalendarInvite) : (m.insert eventId invites).values.flatten.Perm
      (invites ++ (m.erase eventId).values.flatten) :=
  OrderedMap.perm_values_insert.flatten

theorem perm_storeInvite (mgr : CalendarMgr) (invite : CalendarInvite) :
    (mgr.storeInvite invite).liveInviteIds.Perm (invite.inviteId :: mgr.liveInviteIds) := by
  have hnew : (mgr.storeInvite invite).storedInvites.Perm (invite :: mgr.storedInvites) := by
    refine (perm_flatten_insert _ _ _).trans ?_
    refine (List.perm_append_comm.append_right _).trans ?_
    exact (perm_storedInvites mgr invite.eventId).symm.cons invite
  exact hnew.map CalendarInvite.inviteId

theorem Sound.getFreeEventId (h : Sound [] mgr) (hroom : mgr.eventIds.HasRoom idSize 1) :
    Sound [mgr.getFreeEventId.1] mgr.getFreeEventId.2 := by
  obtain ⟨hne,hnew,hholds,-⟩ := h.eventIds.take hroom
  refine ⟨hholds,h.inviteIds,?_⟩
  intro issue hmem
  rcases List.mem_append.mp hmem with hmem | hmem
  · exact h.issued issue hmem
  · rw [List.mem_singleton.mp hmem]
    exact ⟨hne,hnew⟩

theorem Sound.invite (h : Sound pending mgr) (hroom : mgr.inviteIds.HasRoom idSize (n+1))
    (event : CalendarEvent) (invite : CalendarInvite) :
    Sound pending (mgr.invite event invite) ∧
      (mgr.invite event invite).inviteIds.HasRoom idSize n := by
  obtain ⟨hne,hnew,hholds,hroom'⟩ := h.inviteIds.take hroom
  have hissued : ∀ issue ∈ mgr.getFreeInviteId.2.issued, issue.id ≠ 0 ∧ issue.id ∉ issue.live := by
    intro issue hmem
    rcases List.mem_append.mp hmem with hmem | hmem
    · exact h.issued issue hmem
    · rw [List.mem_singleton.mp hmem]
      exact ⟨hne,hnew⟩
  unfold CalendarMgr.invite CalendarMgr.addInvite
  dsimp only
  split_ifs
  · exact ⟨⟨h.eventIds,hholds.forget,hissued⟩,hroom'⟩
  · have hperm := perm_storeInvite mgr.getFreeInviteId.2
      { invite with inviteId := mgr.getFreeInviteId.1 }
    exact ⟨⟨h.eventIds,hholds.perm hperm.symm,hissued⟩,hroom'⟩

theorem Sound.invites {α : Type} (l : List α) (event : CalendarEvent) (f : α → CalendarInvite)
    (h : Sound pending mgr) (hroom : mgr.inviteIds.HasRoom idSize l.length) :
    Sound pending (l.foldl (fun mgr a => mgr.invite event (f a)) mgr) := by
  induction l generalizing mgr with
  | nil => exact h
  | cons a l ih =>
    obtain ⟨hnext,hroom'⟩ := h.invite hroom event (f a)
    exact ih hnext hroom'

theorem Sound.addEvent {event : CalendarEvent} (h : Sound [event.eventId] mgr) :
    Sound [] (mgr.addEvent event) :=
  ⟨h.eventIds,h.inviteIds,h.issued⟩

theorem Sound.freeEventId (h : Sound [id] mgr) : Sound [] (mgr.freeEventId id) :=
  ⟨h.eventIds.release,h.inviteIds,h.issued⟩

theorem getEvent_spec {eventId : Nat} {event : CalendarEvent} (h : mgr.getEvent eventId = some event) :
    event ∈ mgr.events ∧ event.eventId = eventId :=
  ⟨List.mem_of_find?_eq_some h,by simpa using List.find?_some h⟩

theorem freeInvites_eq (invites : List CalendarInvite) (mgr : CalendarMgr) :
    invites.foldl (fun mgr invite => mgr.freeInviteId invite.inviteId) mgr =
      { mgr with inviteIds :=
          (invites.map CalendarInvite.inviteId).foldl (IdPool.release idSize) mgr.inviteIds } := by
  induction invites generalizing mgr with
  | nil => rfl
  | cons invite invites ih => exact ih _

theorem Sound.removeEvent (h : Sound [] mgr) (eventId : Nat) : Sound [] (mgr.removeEvent eventId) := by
  unfold CalendarMgr.removeEvent
  rcases Option.eq_none_or_eq_some (mgr.getEvent eventId) with hfind | ⟨event,hfind⟩
  · rw [hfind]
    exact h
  rw [hfind]
  obtain ⟨hmem,-⟩ := getEvent_spec hfind
  dsimp only
  rw [freeInvites_eq]
  refine ⟨?_,?_,h.issued⟩
  · have hperm : mgr.liveEventIds.Perm
        (event.eventId :: (mgr.events.erase event).map CalendarEvent.eventId) :=
      (List.perm_cons_erase hmem).map CalendarEvent.eventId
    exact (h.eventIds.perm hperm).release
  · have hperm := (perm_storedInvites mgr eventId).map CalendarInvite.inviteId
    rw [List.map_append] at hperm
    exact (h.inviteIds.perm hperm).releaseAll _

theorem Sound.removeInvite (h : Sound [] mgr) (inviteId eventId : Nat) :
    Sound [] (mgr.removeInvite inviteId eventId) := by
  unfold CalendarMgr.removeInvite
  split
  · exact h
  · split
    · exact h
    · rename_i invite hfind
      have hmem := List.mem_of_find?_eq_some hfind
      have hperm : mgr.storedInvites.Perm (invite :: ((mgr.getEventInvites eventId).erase invite ++
          (mgr.invites.erase eventId).values.flatten)) :=
        (perm_storedInvites mgr eventId).trans ((List.perm_cons_erase hmem).append_right _)
      have hholds := (h.inviteIds.perm (hperm.map CalendarInvite.inviteId)).release
      refine ⟨h.eventIds,hholds.perm ?_,h.issued⟩
      exact ((perm_flatten_insert _ _ _).map CalendarInvite.inviteId).symm

theorem Sound.setFlags (h : Sound [] mgr) (eventId : Nat) (flags : BitVec 32) :
    Sound [] (mgr.setFlags eventId flags) := by
  unfold CalendarMgr.setFlags
  split
  · exact h
  · rename_i event _
    have hsame : (mgr.events.map fun e => if e = event then { e with flags := flags } else e).map
        CalendarEvent.eventId = mgr.liveEventIds := by
      rw [List.map_map]
      apply List.map_congr_left
      intro e _
      dsimp only [Function.comp_apply]
      split_ifs <;> rfl
    refine ⟨?_,h.inviteIds,h.issued⟩
    unfold CalendarMgr.liveEventIds
    rw [hsame]
    exact h.eventIds

theorem Sound.step (h : Sound [] mgr) {packet : Packet} (hok : mgr.Careful packet) :
    Sound [] (mgr.step packet) := by
  obtain ⟨hlost,hevents,hinvites⟩ := hok
  cases packet with
  | addEvent guid guildId past flags invitees =>
    dsimp only [CalendarMgr.step]
    unfold CalendarMgr.handleCalendarAddEvent
    cases past with
    | true => exact h
    | false =>
      have hplain : flags &&& calendarFlagWithoutInvites = 0 := hlost rfl
      have htaken := h.getFreeEventId hevents
      generalize hevent : (if ((⟨mgr.getFreeEventId.1,guid,0,flags⟩ : CalendarEvent).isGuildEvent ||
          (⟨mgr.getFreeEventId.1,guid,0,flags⟩ : CalendarEvent).isGuildAnnouncement) = true then
          (⟨mgr.getFreeEventId.1,guid,guildId,flags⟩ : CalendarEvent)
        else ⟨mgr.getFreeEventId.1,guid,0,flags⟩) = event
      have hkeeps : event.eventId = mgr.getFreeEventId.1 ∧ event.isGuildAnnouncement = false := by
        unfold CalendarEvent.isGuildAnnouncement
        rw [← hevent]
        split_ifs <;> exact ⟨rfl,by simp [hplain]⟩
      dsimp only
      rw [if_neg Bool.false_ne_true,hevent,hkeeps.2,if_neg Bool.false_ne_true]
      cases invitees with
      | none =>
        dsimp only
        rw [hkeeps.1]
        exact htaken.freeEventId
      | some invitees =>
        have hmade : Sound [event.eventId] ((invitees.take maxPlayerInvites).foldl
            (fun mgr invitee => mgr.invite event
              ⟨0,event.eventId,invitee.guid,guid,invitee.status,invitee.rank⟩)
            mgr.getFreeEventId.2) :=
          Sound.invites _ event _ (hkeeps.1 ▸ htaken) hinvites
        exact hmade.addEvent
  | copyEvent eventId past =>
    dsimp only [CalendarMgr.step]
    unfold CalendarMgr.handleCalendarCopyEvent
    cases past with
    | true => exact h
    | false =>
      rw [if_neg Bool.false_ne_true]
      rcases Option.eq_none_or_eq_some (mgr.getEvent eventId) with hfind | ⟨oldEvent,hfind⟩
      · rw [hfind]
        exact h
      · rw [hfind]
        unfold CalendarMgr.eventsMade at hevents
        unfold CalendarMgr.invitesMade at hinvites
        dsimp only at hevents hinvites ⊢
        rw [hfind] at hevents hinvites
        have htaken := h.getFreeEventId hevents
        have hadded : Sound [] (mgr.getFreeEventId.2.addEvent
            { oldEvent with eventId := mgr.getFreeEventId.1 }) := Sound.addEvent htaken
        exact Sound.invites _ _ _ hadded hinvites
  | updateEvent eventId past flags =>
    dsimp only [CalendarMgr.step]
    split_ifs
    · exact h
    · exact h.setFlags eventId flags
  | eventInvite guid guildId eventId inviteId invitee inviteeGuildId refused isPreInvite isGuildEvent =>
    dsimp only [CalendarMgr.step]
    unfold CalendarMgr.handleCalendarEventInvite
    unfold CalendarMgr.invitesMade at hinvites
    split_ifs with hrefused hpre hguild
    · exact h
    · exact h
    · have hfree := hlost (by simpa using hrefused) hpre (by simpa using hguild)
      obtain ⟨hpos,hle,hlive,hfree⟩ := hfree
      exact ⟨h.eventIds,h.inviteIds.release_of_lost hpos hle hlive hfree,h.issued⟩
    · dsimp only at hinvites
      rw [if_neg (by simp [hrefused,hpre])] at hinvites
      rcases Option.eq_none_or_eq_some (mgr.getEvent eventId) with hfind | ⟨event,hfind⟩
      · rw [hfind]
        exact h
      · rw [hfind] at hinvites ⊢
        dsimp only [Option.elim] at hinvites ⊢
        split_ifs with hguild
        · exact h
        · rw [if_neg hguild] at hinvites
          exact (h.invite hinvites event _).1
  | eventSignup guid guildId eventId tentative =>
    dsimp only [CalendarMgr.step]
    unfold CalendarMgr.handleCalendarEventSignup
    unfold CalendarMgr.invitesMade at hinvites
    dsimp only at hinvites
    rcases Option.eq_none_or_eq_some (mgr.getEvent eventId) with hfind | ⟨event,hfind⟩
    · rw [hfind]
      exact h
    · rw [hfind] at hinvites ⊢
      dsimp only [Option.elim] at hinvites ⊢
      by_cases hguild : (event.isGuildEvent && decide (event.guildId ≠ guildId)) = true
      · rw [if_pos hguild]
        exact h
      · rw [if_neg hguild] at hinvites ⊢
        exact (h.invite hinvites event _).1
  | removeEvent eventId => exact h.removeEvent eventId
  | removeInvite inviteId eventId => exact h.removeInvite inviteId eventId

theorem storeInvites_spec (invites : List CalendarInvite) (mgr : CalendarMgr) :
    (invites.foldl CalendarMgr.storeInvite mgr).liveInviteIds.Perm
        (invites.map CalendarInvite.inviteId ++ mgr.liveInviteIds) ∧
      (invites.foldl CalendarMgr.storeInvite mgr).events = mgr.events ∧
      (invites.foldl CalendarMgr.storeInvite mgr).issued = mgr.issued := by
  induction invites generalizing mgr with
  | nil => exact ⟨.rfl,rfl,rfl⟩
  | cons invite invites ih =>
    obtain ⟨hperm,hsame,hissued⟩ := ih (mgr.storeInvite invite)
    refine ⟨hperm.trans ?_,hsame,hissued⟩
    exact ((perm_storeInvite mgr invite).append_left _).trans List.perm_middle

theorem sound_loadFromDB (events : List CalendarEvent) (invites : List CalendarInvite)
    (hevents : (events.map CalendarEvent.eventId).Nodup)
    (hinvites : (invites.map CalendarInvite.inviteId).Nodup)
    (hevent : ∀ e ∈ events, 0 < e.eventId ∧ e.eventId < idSize)
    (hinvite : ∀ i ∈ invites, 0 < i.inviteId ∧ i.inviteId < idSize) :
    Sound [] (.loadFromDB events invites) := by
  obtain ⟨hperm,hsame,hissued⟩ := storeInvites_spec invites ⟨events,.empty,⟨0,[]⟩,⟨0,[]⟩,[]⟩
  have hnone : CalendarMgr.liveInviteIds ⟨events,.empty,⟨0,[]⟩,⟨0,[]⟩,[]⟩ = [] := rfl
  rw [hnone,List.append_nil] at hperm
  have hsize : 0 < idSize := by decide
  have hpositive : ∀ {α : Type} {l : List α} {f : α → Nat} {P : Nat → Prop},
      (∀ a ∈ l, P (f a)) → ∀ id ∈ l.map f, P id := by
    intro α l f P hall id hmem
    obtain ⟨a,ha,rfl⟩ := List.mem_map.mp hmem
    exact hall a ha
  refine ⟨?_,?_,?_⟩
  · have hholds := IdPool.holds_ofLive hevents (hpositive fun e he => (hevent e he).1)
      (hpositive fun e he => (hevent e he).2) hsize
    unfold CalendarMgr.loadFromDB CalendarMgr.liveEventIds
    dsimp only
    rw [hsame]
    exact hholds
  · have hholds := IdPool.holds_ofLive hinvites (hpositive fun i hi => (hinvite i hi).1)
      (hpositive fun i hi => (hinvite i hi).2) hsize
    exact hholds.perm hperm.symm
  · unfold CalendarMgr.loadFromDB
    dsimp only
    rw [hissued]
    exact fun issue hmem => absurd hmem List.not_mem_nil

/-- In a run of careful packets the ids are unique in every state. -/
theorem unique_run (events : List CalendarEvent) (invites : List CalendarInvite)
    (packets : List Packet) (hevents : (events.map CalendarEvent.eventId).Nodup)
    (hinvites : (invites.map CalendarInvite.inviteId).Nodup)
    (hevent : ∀ e ∈ events, 0 < e.eventId ∧ e.eventId < idSize)
    (hinvite : ∀ i ∈ invites, 0 < i.inviteId ∧ i.inviteId < idSize)
    (hcareful : Run.Guarded CalendarMgr.step CalendarMgr.Careful (.loadFromDB events invites)
      packets) : Unique (Run.exec CalendarMgr.step (.loadFromDB events invites) packets) :=
  (hcareful.inv (fun _ _ h hok => Sound.step h hok)
    (sound_loadFromDB events invites hevents hinvites hevent hinvite)).unique

theorem unique_run_signup : Unique (Run.exec CalendarMgr.step
    (.loadFromDB [⟨1,7,0,0⟩] [⟨3,1,7,7,0,0⟩]) [.eventSignup 8 0 1 false,.removeInvite 3 1]) :=
  unique_run [⟨1,7,0,0⟩] [⟨3,1,7,7,0,0⟩] [.eventSignup 8 0 1 false,.removeInvite 3 1] (by decide)
    (by decide) (by decide) (by decide)
    ⟨⟨trivial,by unfold IdPool.HasRoom; decide,by unfold IdPool.HasRoom; decide⟩,
      ⟨trivial,by unfold IdPool.HasRoom; decide,by unfold IdPool.HasRoom; decide⟩,trivial⟩

theorem not_unique_announcement : ¬ ∀ (events : List CalendarEvent) (invites : List CalendarInvite)
    (packets : List Packet), (events.map CalendarEvent.eventId).Nodup →
    (invites.map CalendarInvite.inviteId).Nodup →
    Unique (Run.exec CalendarMgr.step (.loadFromDB events invites) packets) := by
  intro h
  have hunique := h [] [] [.addEvent 7 1 false calendarFlagWithoutInvites none,
    .addEvent 7 1 false 0 (some [⟨8,0,0⟩])] (by decide) (by decide)
  have hissued : (⟨0,[]⟩ : Issue) ∈ (Run.exec CalendarMgr.step (.loadFromDB [] [])
      [.addEvent 7 1 false calendarFlagWithoutInvites none,
        .addEvent 7 1 false 0 (some [⟨8,0,0⟩])]).issued := by
    decide
  exact (hunique.issued _ hissued).1 rfl

end TrinityCore.Calendar
