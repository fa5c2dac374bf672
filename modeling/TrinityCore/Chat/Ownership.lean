import TrinityCore.Chat.Channel

set_option autoImplicit false

namespace TrinityCore.Chat

def Event.gone : Event → Option Nat
  | .joined _ => none
  | .left guid => some guid
  | .kicked guid => some guid
  | .banned guid => some guid

/-- Somebody joined, and has not left or been expelled since. -/
def OnChannel (log : List Event) (guid : Nat) : Prop :=
  ∃ pre post, log = pre ++ .joined guid :: post ∧ ∀ event ∈ post, event.gone ≠ some guid

theorem onChannel_append (log : List Event) (event : Event) (guid : Nat) :
    OnChannel (log ++ [event]) guid ↔
      event = .joined guid ∨ (OnChannel log guid ∧ event.gone ≠ some guid) := by
  constructor
  · rintro ⟨pre,post,heq,hpost⟩
    rcases List.eq_nil_or_concat post with rfl | ⟨post,last,rfl⟩
    · obtain ⟨-,hlast⟩ := List.append_inj' heq rfl
      exact .inl (List.cons.inj hlast).1
    · rw [List.concat_eq_append,← List.cons_append,← List.append_assoc] at heq
      obtain ⟨hlog,hlast⟩ := List.append_inj' heq rfl
      obtain rfl : event = last := (List.cons.inj hlast).1
      refine .inr ⟨⟨pre,post,hlog,?_⟩,?_⟩
      · intro event' hmem
        exact hpost event' (by simp [hmem])
      · exact hpost event (by simp)
  · rintro (rfl | ⟨⟨pre,post,rfl,hpost⟩,hgone⟩)
    · exact ⟨log,[],rfl,by simp⟩
    · refine ⟨pre,post ++ [event],by simp,?_⟩
      intro event' hmem
      rcases List.mem_append.mp hmem with hmem | hmem
      · exact hpost event' hmem
      · rw [List.mem_singleton.mp hmem]
        exact hgone

/-- If anybody is on the channel, its owner is, as the only one with the owner flag and as a
moderator. Those on the channel are those who joined and have not gone, and none of them is
banned. -/
structure Proper (s : Chatter) : Prop where
  owned : (∃ guid, s.channel.isOn guid = true) →
    ∃ info, s.channel.playersStore.find? s.channel.ownerGUID = some info ∧ info.owner = true ∧
      info.moderator = true ∧ ∀ guid info, s.channel.playersStore.find? guid = some info →
        info.owner = true → guid = s.channel.ownerGUID
  members : ∀ guid, s.channel.isOn guid = true ↔ OnChannel s.log guid
  banned : ∀ guid ∈ s.channel.bannedStore, s.channel.isOn guid = false

/-- Nobody joins an empty channel that has an owner, the owner does not expel himself while others
are there, and he does not take his own moderator mode. -/
def Orderly (s : Chatter) : Action → Prop
  | .joinChannel restricted player pass => s.channel.canJoin restricted player pass = true →
    (∀ guid, s.channel.isOn guid = false) → s.channel.ownerGUID = 0
  | .kickOrBan players player badname _ => ∀ bad,
    s.channel.kickTarget players player badname = some bad → bad.guid = player.guid →
    bad.guid = s.channel.ownerGUID → ∀ guid, s.channel.isOn guid = true → guid = bad.guid
  | .setMode players player p2n mod set => mod = true → set = false → ∀ newp,
    s.channel.modeTarget players player p2n mod = some newp → newp.guid ≠ s.channel.ownerGUID
  | _ => True

variable {c : Channel} {g guid : Nat} {info : PlayerInfo}

theorem isOn_iff : c.isOn g = true ↔ ∃ info, c.playersStore.find? g = some info :=
  Option.isSome_iff_exists

theorem find?_update (f : PlayerInfo → PlayerInfo) : (c.update guid f).playersStore.find? g =
    if g = guid then some (f (c.info guid)) else c.playersStore.find? g :=
  OrderedMap.find?_insert

theorem find?_erase : (c.erase guid).playersStore.find? g =
    if g = guid then none else c.playersStore.find? g :=
  OrderedMap.find?_erase

theorem isOn_update (f : PlayerInfo → PlayerInfo) :
    (c.update guid f).isOn g = true ↔ g = guid ∨ c.isOn g = true := by
  unfold Channel.isOn
  rw [find?_update]
  split_ifs with h <;> simp [h]

theorem isOn_erase : (c.erase guid).isOn g = true ↔ g ≠ guid ∧ c.isOn g = true := by
  unfold Channel.isOn
  rw [find?_erase]
  split_ifs with h <;> simp [h]

theorem info_eq (h : c.playersStore.find? g = some info) : c.info g = info := by
  unfold Channel.info
  rw [h]
  rfl

/-- Everybody is filed under his own guid, and at most the owner has the owner flag. -/
structure Filed (c : Channel) : Prop where
  custom : c.constant = false
  ownership : c.ownership = true
  player : ∀ g info, c.playersStore.find? g = some info → info.player = g ∧ g ≠ 0
  flag : ∀ g info, c.playersStore.find? g = some info → info.owner = true → g = c.ownerGUID

def Owned (c : Channel) : Prop :=
  ∃ info, c.playersStore.find? c.ownerGUID = some info ∧ info.owner = true ∧ info.moderator = true

def PlayerInfo.common (info : PlayerInfo) : PlayerInfo := { info with owner := false }

theorem common_eq (h : info.owner = false) : info.common = info := by
  obtain ⟨player,owner,moderator,muted⟩ := info
  exact congrArg (fun owner => (⟨player,owner,moderator,muted⟩ : PlayerInfo)) h.symm

theorem find?_disown (h : Filed c) :
    c.disown.playersStore.find? g = (c.playersStore.find? g).map PlayerInfo.common := by
  have hcommon : ∀ g info, g ≠ c.ownerGUID → c.playersStore.find? g = some info →
      info.common = info := by
    intro g info hne hfind
    apply common_eq
    by_contra howner
    exact hne (h.flag g info hfind (by simpa using howner))
  unfold Channel.disown
  split_ifs with howner
  · rw [find?_update]
    split_ifs with heq
    · obtain ⟨info,hfind⟩ := isOn_iff.mp howner.2
      rw [heq,hfind,info_eq hfind]
      rfl
    · cases hfind : c.playersStore.find? g with
      | none => rfl
      | some info => rw [Option.map_some,hcommon g info heq hfind]
  · cases hfind : c.playersStore.find? g with
    | none => rfl
    | some info =>
      rw [Option.map_some,hcommon g info ?_ hfind]
      rintro rfl
      exact howner ⟨(h.player _ _ hfind).2,isOn_iff.mpr ⟨info,hfind⟩⟩

theorem setOwnerGUID_spec (h : Filed c) (hon : c.isOn guid = true) :
    Filed (c.setOwnerGUID guid) ∧ Owned (c.setOwnerGUID guid) ∧
      (c.setOwnerGUID guid).bannedStore = c.bannedStore ∧
      ∀ g, (c.setOwnerGUID guid).isOn g = true ↔ c.isOn g = true := by
  obtain ⟨info,hinfo⟩ := isOn_iff.mp hon
  obtain ⟨hplayer,hne⟩ := h.player guid info hinfo
  have hkeeps : c.disown.constant = c.constant ∧ c.disown.ownership = c.ownership ∧
      c.disown.bannedStore = c.bannedStore := by
    unfold Channel.disown
    split_ifs <;> exact ⟨rfl,rfl,rfl⟩
  have hset : c.setOwnerGUID guid =
      ({ c.disown with ownerGUID := guid } : Channel).update guid fun info => { info with
        moderator := true
        owner := true } := by
    unfold Channel.setOwnerGUID
    rw [if_pos hne]
  have hnew : ({ c.disown with ownerGUID := guid } : Channel).info guid = info.common := by
    apply info_eq
    rw [find?_disown h,hinfo]
    rfl
  have hfind : ∀ g, (c.setOwnerGUID guid).playersStore.find? g =
      if g = guid then some { info.common with
        moderator := true
        owner := true }
      else (c.playersStore.find? g).map PlayerInfo.common := by
    intro g
    rw [hset,find?_update,hnew,find?_disown h]
  have hrest : (c.setOwnerGUID guid).constant = c.constant ∧
      (c.setOwnerGUID guid).ownership = c.ownership ∧
      (c.setOwnerGUID guid).bannedStore = c.bannedStore ∧
      (c.setOwnerGUID guid).ownerGUID = guid := by
    rw [hset]
    exact ⟨hkeeps.1,hkeeps.2.1,hkeeps.2.2,rfl⟩
  obtain ⟨hcustom,hownership,hbanned,howner⟩ := hrest
  refine ⟨⟨hcustom.trans h.custom,hownership.trans h.ownership,?_,?_⟩,?_,hbanned,?_⟩
  · intro g info' hfind'
    rw [hfind] at hfind'
    split_ifs at hfind' with heq
    · cases hfind'
      exact ⟨hplayer.trans heq.symm,heq ▸ hne⟩
    · obtain ⟨info'',hold,rfl⟩ := Option.map_eq_some_iff.mp hfind'
      exact h.player g info'' hold
  · intro g info' hfind' hflag
    rw [howner]
    rw [hfind] at hfind'
    split_ifs at hfind' with heq
    · exact heq
    · obtain ⟨info'',-,rfl⟩ := Option.map_eq_some_iff.mp hfind'
      exact absurd hflag Bool.false_ne_true
  · refine ⟨{ info.common with
      moderator := true
      owner := true },?_,rfl,rfl⟩
    rw [howner,hfind,if_pos rfl]
  · intro g
    unfold Channel.isOn
    rw [hfind]
    split_ifs with heq
    · rw [heq,hinfo]
      simp
    · rw [Option.isSome_map]

theorem Filed.update (h : Filed c) (hon : c.isOn guid = true) {f : PlayerInfo → PlayerInfo}
    (hplayer : ∀ info, (f info).player = info.player)
    (howner : ∀ info, (f info).owner = true → info.owner = true) :
    Filed (c.update guid f) ∧ ∀ g, (c.update guid f).isOn g = true ↔ c.isOn g = true := by
  obtain ⟨info,hinfo⟩ := isOn_iff.mp hon
  refine ⟨⟨h.custom,h.ownership,?_,?_⟩,?_⟩
  · intro g info' hfind
    rw [find?_update,info_eq hinfo] at hfind
    split_ifs at hfind with heq
    · cases hfind
      rw [hplayer,heq]
      exact h.player guid info hinfo
    · exact h.player g info' hfind
  · intro g info' hfind hflag
    rw [find?_update,info_eq hinfo] at hfind
    split_ifs at hfind with heq
    · cases hfind
      rw [heq]
      exact h.flag guid info hinfo (howner info hflag)
    · exact h.flag g info' hfind hflag
  · intro g
    rw [isOn_update]
    exact or_iff_right_of_imp fun heq => heq ▸ hon

theorem Owned.update (h : Owned c) {f : PlayerInfo → PlayerInfo}
    (hkeep : guid = c.ownerGUID → ∀ info, info.owner = true → info.moderator = true →
      (f info).owner = true ∧ (f info).moderator = true) : Owned (c.update guid f) := by
  obtain ⟨info,hfind,howner,hmoderator⟩ := h
  have hstored : (c.update guid f).playersStore.find? c.ownerGUID =
      if c.ownerGUID = guid then some (f (c.info guid)) else c.playersStore.find? c.ownerGUID :=
    find?_update f
  by_cases heq : guid = c.ownerGUID
  · refine ⟨f info,hstored.trans ?_,hkeep heq info howner hmoderator⟩
    rw [if_pos heq.symm,heq,info_eq hfind]
  · refine ⟨info,hstored.trans ?_,howner,hmoderator⟩
    rw [if_neg (fun h => heq h.symm),hfind]

theorem Filed.erase (h : Filed c) (guid : Nat) : Filed (c.erase guid) := by
  refine ⟨h.custom,h.ownership,?_,?_⟩
  · intro g info hfind
    rw [find?_erase] at hfind
    split_ifs at hfind
    exact h.player g info hfind
  · intro g info hfind
    rw [find?_erase] at hfind
    split_ifs at hfind
    exact h.flag g info hfind

theorem promote_spec (h : Filed c) (hon : c.isOn guid = true) :
    Filed ((c.update guid fun info => { info with moderator := true }).setOwnerGUID guid) ∧
      Owned ((c.update guid fun info => { info with moderator := true }).setOwnerGUID guid) ∧
      ((c.update guid fun info => { info with moderator := true }).setOwnerGUID guid).bannedStore =
        c.bannedStore ∧
      ∀ g, ((c.update guid fun info => { info with moderator := true }).setOwnerGUID guid).isOn g =
        true ↔ c.isOn g = true := by
  obtain ⟨hfiled,hsame⟩ := h.update hon (f := fun info => { info with moderator := true })
    (fun _ => rfl) (fun _ howner => howner)
  obtain ⟨hfiled',howned,hbanned,hsame'⟩ := setOwnerGUID_spec hfiled ((hsame guid).mpr hon)
  exact ⟨hfiled',howned,hbanned,fun g => (hsame' g).trans (hsame g)⟩

structure Sound (s : Chatter) : Prop where
  filed : Filed s.channel
  owned : (∃ guid, s.channel.isOn guid = true) → Owned s.channel
  members : ∀ guid, s.channel.isOn guid = true ↔ OnChannel s.log guid
  banned : ∀ guid ∈ s.channel.bannedStore, s.channel.isOn guid = false

variable {s : Chatter}

theorem Sound.proper (h : Sound s) : Proper s := by
  refine ⟨?_,h.members,h.banned⟩
  intro hany
  obtain ⟨info,hfind,howner,hmoderator⟩ := h.owned hany
  exact ⟨info,hfind,howner,hmoderator,h.filed.flag⟩

theorem Sound.same (h : Sound s) {c : Channel} (hfiled : Filed c)
    (howned : (∃ guid, c.isOn guid = true) → Owned c)
    (hbanned : ∀ guid ∈ c.bannedStore, guid ∈ s.channel.bannedStore)
    (hsame : ∀ g, c.isOn g = true ↔ s.channel.isOn g = true) : Sound ⟨c,s.log⟩ := by
  refine ⟨hfiled,howned,?_,?_⟩
  · intro g
    exact (hsame g).trans (h.members g)
  · intro g hmem
    rw [Bool.eq_false_iff]
    intro hon
    exact absurd ((hsame g).mp hon) (Bool.eq_false_iff.mp (h.banned g (hbanned g hmem)))

theorem Sound.gone (h : Sound s) {c : Channel} {event : Event} {guid : Nat}
    (hevent : event.gone = some guid) (hfiled : Filed c)
    (howned : (∃ guid, c.isOn guid = true) → Owned c)
    (hbanned : ∀ g ∈ c.bannedStore, g = guid ∨ g ∈ s.channel.bannedStore)
    (hsame : ∀ g, c.isOn g = true ↔ g ≠ guid ∧ s.channel.isOn g = true) :
    Sound ⟨c,s.log ++ [event]⟩ := by
  refine ⟨hfiled,howned,?_,?_⟩
  · intro g
    have hnot : event ≠ .joined g := by
      rintro rfl
      simp [Event.gone] at hevent
    rw [onChannel_append,hsame,h.members,hevent]
    constructor
    · rintro ⟨hne,hon⟩
      exact .inr ⟨hon,fun heq => hne (Option.some.inj heq).symm⟩
    · rintro (heq | ⟨hon,hne⟩)
      · exact absurd heq hnot
      · exact ⟨fun heq => hne (congrArg some heq.symm),hon⟩
  · intro g hmem
    rw [Bool.eq_false_iff]
    intro hon
    obtain ⟨hne,hon⟩ := (hsame g).mp hon
    exact absurd hon (Bool.eq_false_iff.mp (h.banned g ((hbanned g hmem).resolve_left hne)))

theorem Sound.joinChannel (h : Sound s) {restricted : Bool} {player : Player} {pass : List Char}
    (hjoin : s.channel.canJoin restricted player pass = true)
    (hok : (∀ guid, s.channel.isOn guid = false) → s.channel.ownerGUID = 0) :
    Sound ⟨s.channel.joinChannel restricted player pass,s.log ++ [.joined player.guid]⟩ := by
  have hnew : s.channel.isOn player.guid = false ∧ player.guid ∉ s.channel.bannedStore := by
    unfold Channel.canJoin at hjoin
    split_ifs at hjoin with hon hbanned
    unfold Channel.isBanned at hbanned
    exact ⟨Bool.eq_false_iff.mpr hon,by simpa using hbanned⟩
  obtain ⟨hoff,hbanned⟩ := hnew
  generalize hin : s.channel.update player.guid (fun _ => ⟨player.guid,false,false,false⟩) = c
  have hfind : ∀ g, c.playersStore.find? g = if g = player.guid then
      some ⟨player.guid,false,false,false⟩ else s.channel.playersStore.find? g := by
    intro g
    rw [← hin,find?_update]
  have hison : ∀ g, c.isOn g = true ↔ g = player.guid ∨ s.channel.isOn g = true := by
    intro g
    rw [← hin,isOn_update]
  have hfiled : Filed c := by
    refine ⟨by rw [← hin]; exact h.filed.custom,by rw [← hin]; exact h.filed.ownership,?_,?_⟩
    · intro g info hinfo
      rw [hfind] at hinfo
      split_ifs at hinfo with heq
      · cases hinfo
        exact ⟨heq.symm,heq ▸ player.guid_ne⟩
      · exact h.filed.player g info hinfo
    · intro g info hinfo hflag
      rw [hfind] at hinfo
      split_ifs at hinfo
      · cases hinfo
        exact absurd hflag Bool.false_ne_true
      · rw [← hin]
        exact h.filed.flag g info hinfo hflag
  have hjoined : ∀ c' : Channel, Filed c' → Owned c' → c'.bannedStore = c.bannedStore →
      (∀ g, c'.isOn g = true ↔ c.isOn g = true) →
      Sound ⟨c',s.log ++ [.joined player.guid]⟩ := by
    intro c' hfiled' howned hstore hsame
    refine ⟨hfiled',fun _ => howned,?_,?_⟩
    · intro g
      rw [onChannel_append,hsame,hison,h.members]
      constructor
      · rintro (rfl | hon)
        · exact .inl rfl
        · exact .inr ⟨hon,by simp [Event.gone]⟩
      · rintro (heq | ⟨hon,-⟩)
        · exact .inl (Event.joined.inj heq).symm
        · exact .inr hon
    · intro g hmem
      rw [hstore,← hin] at hmem
      rw [Bool.eq_false_iff]
      intro hon
      rcases (hison g).mp ((hsame g).mp hon) with rfl | hon
      · exact hbanned hmem
      · exact absurd hon (Bool.eq_false_iff.mp (h.banned g hmem))
  have hself : c.isOn player.guid = true := (hison _).mpr (.inl rfl)
  have hconstant : c.constant = false := hfiled.custom
  unfold Channel.joinChannel
  rw [if_pos hjoin,hin]
  dsimp only
  rw [if_neg (by simp [hconstant])]
  split_ifs with hfirst
  · obtain ⟨hfiled',howned,hstore,hsame⟩ := setOwnerGUID_spec hfiled hself
    obtain ⟨hfiled'',hsame'⟩ := hfiled'.update ((hsame _).mpr hself)
      (f := fun info => { info with moderator := true }) (fun _ => rfl) (fun _ howner => howner)
    refine hjoined _ hfiled'' ?_ hstore (fun g => (hsame' g).trans (hsame g))
    exact howned.update fun _ _ howner _ => ⟨howner,rfl⟩
  · have hany : ∃ g, s.channel.isOn g = true := by
      by_contra hnone
      refine hfirst ⟨?_,hfiled.ownership⟩
      rw [← hin]
      exact hok fun g => Bool.eq_false_iff.mpr fun hon => hnone ⟨g,hon⟩
    refine hjoined c hfiled ?_ rfl (fun _ => Iff.rfl)
    obtain ⟨info,hinfo,howner,hmoderator⟩ := h.owned hany
    have hne : s.channel.ownerGUID ≠ player.guid := by
      intro heq
      rw [← heq] at hoff
      exact absurd (isOn_iff.mpr ⟨info,hinfo⟩) (Bool.eq_false_iff.mp hoff)
    refine ⟨info,?_,howner,hmoderator⟩
    rw [hfind,← hin]
    exact (if_neg hne).trans hinfo

theorem Sound.leaveChannel (h : Sound s) {player : Player}
    (hon : s.channel.isOn player.guid = true) :
    Sound ⟨s.channel.leaveChannel player,s.log ++ [.left player.guid]⟩ := by
  have hfiled := h.filed.erase player.guid
  have hsame : ∀ g, (s.channel.erase player.guid).isOn g = true ↔
      g ≠ player.guid ∧ s.channel.isOn g = true := fun g => isOn_erase
  have hcustom : s.channel.constant = false := h.filed.custom
  have hownership : s.channel.ownership = true := h.filed.ownership
  obtain ⟨info,hinfo⟩ := isOn_iff.mp hon
  unfold Channel.leaveChannel
  rw [if_pos hon]
  dsimp only
  rw [if_neg (by simp [Channel.erase,hcustom]),info_eq hinfo]
  split_ifs with howner
  · have hleft : info.owner = true := by
      simp only [Bool.and_eq_true] at howner
      exact howner.1
    split
    · rename_i hempty
      refine h.gone rfl hfiled ?_ (fun g hmem => .inr hmem) hsame
      rintro ⟨g,hg⟩
      obtain ⟨info',hfind⟩ := isOn_iff.mp hg
      have hmem := OrderedMap.mem_entries.mpr hfind
      rw [hempty] at hmem
      exact absurd hmem List.not_mem_nil
    · rename_i k info' rest hentries
      have hfirst : (s.channel.erase player.guid).playersStore.find? k = some info' :=
        OrderedMap.mem_entries.mp (hentries ▸ List.mem_cons_self)
      have hplayer := (hfiled.player k info' hfirst).1
      rw [← hplayer] at hfirst
      obtain ⟨hfiled',howned,hstore,hsame'⟩ :=
        promote_spec hfiled (isOn_iff.mpr ⟨info',hfirst⟩)
      refine h.gone rfl hfiled' (fun _ => howned) ?_ (fun g => (hsame' g).trans (hsame g))
      intro g hmem
      rw [hstore] at hmem
      exact .inr hmem
  · have hnot : info.owner = false := by
      simpa [Channel.erase,hownership] using howner
    refine h.gone rfl hfiled ?_ (fun g hmem => .inr hmem) hsame
    rintro ⟨g,hg⟩
    obtain ⟨infoOwner,hfind,hflag,hmoderator⟩ := h.owned ⟨g,((hsame g).mp hg).2⟩
    refine ⟨infoOwner,?_,hflag,hmoderator⟩
    have hne : s.channel.ownerGUID ≠ player.guid := by
      intro heq
      rw [heq,hinfo] at hfind
      cases hfind
      exact absurd (hnot.symm.trans hflag) Bool.false_ne_true
    exact find?_erase.trans ((if_neg hne).trans hfind)

theorem kickTarget_isOn {players : List Player} {player bad : Player} {badname : List Char}
    (h : c.kickTarget players player badname = some bad) :
    c.isOn player.guid = true ∧ c.isOn bad.guid = true := by
  unfold Channel.kickTarget at h
  split_ifs at h with hmod
  unfold Channel.moderates at hmod
  have hon : c.isOn player.guid = true := (Bool.and_eq_true_iff.mp hmod).1
  split at h
  · cases h
  · split_ifs at h with hbad hallowed
    cases h
    exact ⟨hon,by simpa using hbad⟩

theorem Sound.kickOrBan (h : Sound s) {players : List Player} {player bad : Player}
    {badname : List Char} (ban : Bool)
    (htarget : s.channel.kickTarget players player badname = some bad)
    (hok : bad.guid = player.guid → bad.guid = s.channel.ownerGUID →
      ∀ guid, s.channel.isOn guid = true → guid = bad.guid) :
    Sound ⟨s.channel.kickOrBan players player badname ban,
      s.log ++ [if ban then .banned bad.guid else .kicked bad.guid]⟩ := by
  obtain ⟨hon,hbad⟩ := kickTarget_isOn htarget
  have hevent : (if ban then Event.banned bad.guid else .kicked bad.guid).gone = some bad.guid := by
    cases ban <;> rfl
  generalize (if ban then Event.banned bad.guid else .kicked bad.guid) = event at hevent ⊢
  have hownership : s.channel.ownership = true := h.filed.ownership
  unfold Channel.kickOrBan
  rw [htarget]
  dsimp only
  generalize hc : (if ban = true then
    ({ s.channel with bannedStore := insert bad.guid s.channel.bannedStore } : Channel)
    else s.channel) = c
  have hstore : c.playersStore = s.channel.playersStore ∧ c.ownerGUID = s.channel.ownerGUID ∧
      c.ownership = true ∧ Filed c ∧
      ∀ g ∈ c.bannedStore, g = bad.guid ∨ g ∈ s.channel.bannedStore := by
    rw [← hc]
    cases ban with
    | true => exact ⟨rfl,rfl,hownership,⟨h.filed.custom,hownership,h.filed.player,h.filed.flag⟩,
        fun g hmem => Finset.mem_insert.mp hmem⟩
    | false => exact ⟨rfl,rfl,hownership,h.filed,fun g hmem => .inr hmem⟩
  obtain ⟨hplayers,howner,hownership',hfiled,hbanned⟩ := hstore
  have hsame : ∀ g, (c.erase bad.guid).isOn g = true ↔ g ≠ bad.guid ∧ s.channel.isOn g = true := by
    intro g
    rw [isOn_erase]
    unfold Channel.isOn
    rw [hplayers]
  have hfiled' := hfiled.erase bad.guid
  split_ifs with hchange
  · simp only [Bool.and_eq_true,decide_eq_true_eq,Bool.not_eq_true',List.isEmpty_eq_false_iff] at hchange
    obtain ⟨⟨hwas,-⟩,hothers⟩ := hchange
    have hne : player.guid ≠ bad.guid := by
      intro heq
      obtain ⟨⟨k,info⟩,hmem⟩ := List.exists_mem_of_ne_nil _ hothers
      have hkon : (c.erase bad.guid).isOn k = true :=
        isOn_iff.mpr ⟨info,OrderedMap.mem_entries.mp hmem⟩
      obtain ⟨hk,hkon⟩ := (hsame k).mp hkon
      exact hk (hok heq.symm hwas.symm k hkon)
    obtain ⟨hfiled'',howned,hstore,hsame'⟩ := promote_spec hfiled' ((hsame _).mpr ⟨hne,hon⟩)
    refine h.gone hevent hfiled'' (fun _ => howned) ?_ (fun g => (hsame' g).trans (hsame g))
    intro g hmem
    rw [hstore] at hmem
    exact hbanned g hmem
  · refine h.gone hevent hfiled' ?_ hbanned hsame
    rintro ⟨g,hg⟩
    have hne : s.channel.ownerGUID ≠ bad.guid := by
      intro heq
      apply hchange
      obtain ⟨info,hfind⟩ := isOn_iff.mp hg
      have hmem := OrderedMap.mem_entries.mpr hfind
      have hothers : (c.erase bad.guid).playersStore.entries ≠ [] := List.ne_nil_of_mem hmem
      have howns : (c.erase bad.guid).ownership = true := hownership'
      rw [decide_eq_true heq,howns]
      simpa using hothers
    obtain ⟨info,hfind,hflag,hmoderator⟩ := h.owned ⟨g,((hsame g).mp hg).2⟩
    refine ⟨info,?_,hflag,hmoderator⟩
    have hfind' : (c.erase bad.guid).playersStore.find? s.channel.ownerGUID = some info := by
      rw [find?_erase,if_neg hne,hplayers,hfind]
    rw [← howner] at hfind'
    exact hfind'

theorem Sound.unBan (h : Sound s) (players : List Player) (player : Player)
    (badname : List Char) : Sound ⟨s.channel.unBan players player badname,s.log⟩ := by
  unfold Channel.unBan
  split
  · split
    · exact h
    · split_ifs
      · refine h.same ⟨h.filed.custom,h.filed.ownership,h.filed.player,h.filed.flag⟩ h.owned ?_
          (fun _ => Iff.rfl)
        intro g hmem
        exact Finset.mem_of_mem_erase hmem
      · exact h
  · exact h

theorem Sound.setPassword (h : Sound s) (player : Player) (pass : List Char) :
    Sound ⟨s.channel.setPassword player pass,s.log⟩ := by
  unfold Channel.setPassword
  split
  · exact h.same ⟨h.filed.custom,h.filed.ownership,h.filed.player,h.filed.flag⟩ h.owned
      (fun _ hmem => hmem) (fun _ => Iff.rfl)
  · exact h

theorem member_isOn {players : List Player} {player newp : Player} {name : List Char}
    (h : c.member players player name = some newp) : c.isOn newp.guid = true := by
  unfold Channel.member at h
  split at h
  · cases h
  · split_ifs at h with hnot
    cases h
    by_contra hoff
    exact hnot (.inl (by simpa using hoff))

theorem modeTarget_spec {players : List Player} {player newp : Player} {p2n : List Char}
    {mod : Bool} (h : c.modeTarget players player p2n mod = some newp) :
    c.isOn newp.guid = true ∧ c.isOn player.guid = true := by
  unfold Channel.modeTarget at h
  split_ifs at h with hmod hself
  unfold Channel.moderates at hmod
  have hon : c.isOn player.guid = true := (Bool.and_eq_true_iff.mp hmod).1
  split at h
  · cases h
  · rename_i newp' hmember
    split_ifs at h
    cases h
    exact ⟨member_isOn hmember,hon⟩

theorem Sound.setMode (h : Sound s) {players : List Player} {player newp : Player}
    {p2n : List Char} {mod set : Bool}
    (htarget : s.channel.modeTarget players player p2n mod = some newp)
    (hok : mod = true → set = false → newp.guid ≠ s.channel.ownerGUID) :
    Sound ⟨s.channel.setMode players player p2n mod set,s.log⟩ := by
  obtain ⟨hon,-⟩ := modeTarget_spec htarget
  have howned := h.owned ⟨newp.guid,hon⟩
  unfold Channel.setMode
  rw [htarget]
  dsimp only
  split_ifs with hmod
  · obtain ⟨hfiled,hsame⟩ := h.filed.update hon (f := fun info => { info with moderator := set })
      (fun _ => rfl) (fun _ howner => howner)
    refine h.same hfiled (fun _ => howned.update ?_) (fun _ hmem => hmem) hsame
    intro heq info howner _
    refine ⟨howner,?_⟩
    by_contra hset
    exact hok hmod (by simpa using hset) heq
  · obtain ⟨hfiled,hsame⟩ := h.filed.update hon (f := fun info => { info with muted := set })
      (fun _ => rfl) (fun _ howner => howner)
    exact h.same hfiled (fun _ => howned.update fun _ _ howner hmoderator => ⟨howner,hmoderator⟩)
      (fun _ hmem => hmem) hsame

theorem Sound.setOwner (h : Sound s) (players : List Player) (player : Player)
    (newname : List Char) : Sound ⟨s.channel.setOwner players player newname,s.log⟩ := by
  unfold Channel.setOwner
  split_ifs
  · split
    · exact h
    · rename_i newp hmember
      obtain ⟨hfiled,howned,hstore,hsame⟩ := promote_spec h.filed (member_isOn hmember)
      exact h.same hfiled (fun _ => howned) (fun _ hmem => hstore ▸ hmem) hsame
  · exact h

theorem Sound.step (h : Sound s) {action : Action} (hok : Orderly s action) :
    Sound (s.step action) := by
  unfold Chatter.step
  cases action with
  | joinChannel restricted player pass =>
    dsimp only [Channel.act,Channel.event]
    split_ifs with hjoin
    · exact h.joinChannel hjoin (hok hjoin)
    · unfold Channel.joinChannel
      rw [if_neg hjoin,Option.toList_none,List.append_nil]
      exact h
  | leaveChannel player =>
    dsimp only [Channel.act,Channel.event]
    split_ifs with hon
    · exact h.leaveChannel hon
    · unfold Channel.leaveChannel
      rw [if_neg hon,Option.toList_none,List.append_nil]
      exact h
  | kickOrBan players player badname ban =>
    dsimp only [Channel.act,Channel.event]
    rcases Option.eq_none_or_eq_some (s.channel.kickTarget players player badname) with
      htarget | ⟨bad,htarget⟩
    · unfold Channel.kickOrBan
      rw [htarget,Option.map_none,Option.toList_none,List.append_nil]
      exact h
    · rw [htarget,Option.map_some]
      exact h.kickOrBan ban htarget (hok bad htarget)
  | setMode players player p2n mod set =>
    dsimp only [Channel.act,Channel.event]
    rw [Option.toList_none,List.append_nil]
    rcases Option.eq_none_or_eq_some (s.channel.modeTarget players player p2n mod) with
      htarget | ⟨newp,htarget⟩
    · unfold Channel.setMode
      rw [htarget]
      exact h
    · exact h.setMode htarget (fun hmod hset => hok hmod hset newp htarget)
  | unBan players player badname =>
    dsimp only [Channel.act,Channel.event]
    rw [Option.toList_none,List.append_nil]
    exact h.unBan players player badname
  | setPassword player pass =>
    dsimp only [Channel.act,Channel.event]
    rw [Option.toList_none,List.append_nil]
    exact h.setPassword player pass
  | setOwner players player newname =>
    dsimp only [Channel.act,Channel.event]
    rw [Option.toList_none,List.append_nil]
    exact h.setOwner players player newname

theorem isOn_setOwnerGUID (h : guid ≠ 0) : (c.setOwnerGUID guid).isOn guid = true := by
  unfold Channel.setOwnerGUID
  dsimp only
  rw [if_pos h,isOn_update]
  exact .inl rfl

theorem Sound.improper_joinChannel (h : Sound s) {restricted : Bool} {player : Player}
    {pass : List Char} (hjoin : s.channel.canJoin restricted player pass = true)
    (hempty : ∀ guid, s.channel.isOn guid = false) (howner : s.channel.ownerGUID ≠ 0) :
    ¬ Proper (s.step (.joinChannel restricted player pass)) := by
  intro hproper
  have hstays : (s.step (.joinChannel restricted player pass)).channel =
      s.channel.update player.guid fun _ => ⟨player.guid,false,false,false⟩ := by
    have hcustom : (s.channel.update player.guid
      fun _ => ⟨player.guid,false,false,false⟩).constant = false := h.filed.custom
    have howner' : ¬ ((s.channel.update player.guid
        fun _ => ⟨player.guid,false,false,false⟩).ownerGUID = 0 ∧ (s.channel.update player.guid
        fun _ => ⟨player.guid,false,false,false⟩).ownership = true) := fun h => howner h.1
    change s.channel.joinChannel restricted player pass = _
    unfold Channel.joinChannel
    rw [if_pos hjoin]
    dsimp only
    rw [hcustom,if_neg howner']
    rfl
  obtain ⟨info,hfind,hflag,-⟩ := hproper.owned ⟨player.guid,by rw [hstays,isOn_update]; exact .inl rfl⟩
  rw [hstays] at hfind
  have hfind' : (if s.channel.ownerGUID = player.guid then some ⟨player.guid,false,false,false⟩
      else s.channel.playersStore.find? s.channel.ownerGUID) = some info :=
    (find?_update _).symm.trans hfind
  split_ifs at hfind'
  · cases hfind'
    exact Bool.false_ne_true hflag
  · have hoff := hempty s.channel.ownerGUID
    exact absurd (isOn_iff.mpr ⟨info,hfind'⟩) (Bool.eq_false_iff.mp hoff)

theorem Sound.improper_kickOrBan (h : Sound s) {players : List Player} {player bad : Player}
    {badname : List Char} (ban : Bool)
    (htarget : s.channel.kickTarget players player badname = some bad)
    (hself : bad.guid = player.guid) (howner : bad.guid = s.channel.ownerGUID)
    (hother : s.channel.isOn g = true) (hne : g ≠ bad.guid) :
    ¬ Proper (s.step (.kickOrBan players player badname ban)) := by
  intro hproper
  have hback : (s.channel.kickOrBan players player badname ban).isOn player.guid = true := by
    unfold Channel.kickOrBan
    rw [htarget]
    dsimp only
    generalize hc : (if ban = true then
      ({ s.channel with bannedStore := insert bad.guid s.channel.bannedStore } : Channel)
      else s.channel) = c
    have hstore : c.playersStore = s.channel.playersStore ∧ c.ownership = true := by
      rw [← hc]
      cases ban with
      | true => exact ⟨rfl,h.filed.ownership⟩
      | false => exact ⟨rfl,h.filed.ownership⟩
    obtain ⟨hplayers,hownership⟩ := hstore
    have hothers : (c.erase bad.guid).playersStore.entries ≠ [] := by
      obtain ⟨info,hfind⟩ := isOn_iff.mp hother
      apply List.ne_nil_of_mem (a := (g,info))
      rw [OrderedMap.mem_entries,find?_erase,if_neg hne,hplayers,hfind]
    have howns : (c.erase bad.guid).ownership = true := hownership
    rw [decide_eq_true howner.symm,howns,if_pos (by simpa using hothers)]
    exact isOn_setOwnerGUID player.guid_ne
  have hon := (hproper.members player.guid).mp hback
  unfold Chatter.step Channel.event at hon
  dsimp only at hon
  rw [htarget,Option.map_some,Option.toList_some,onChannel_append] at hon
  cases ban with
  | true =>
    rcases hon with heq | ⟨-,hgone⟩
    · cases heq
    · exact hgone (congrArg some hself)
  | false =>
    rcases hon with heq | ⟨-,hgone⟩
    · cases heq
    · exact hgone (congrArg some hself)

theorem improper_setMode {players : List Player} {player newp : Player}
    {p2n : List Char} (htarget : s.channel.modeTarget players player p2n true = some newp)
    (howner : newp.guid = s.channel.ownerGUID) :
    ¬ Proper (s.step (.setMode players player p2n true false)) := by
  intro hproper
  obtain ⟨hon,-⟩ := modeTarget_spec htarget
  have hset : (s.step (.setMode players player p2n true false)).channel =
      s.channel.update newp.guid fun info => { info with moderator := false } := by
    change s.channel.setMode players player p2n true false = _
    unfold Channel.setMode
    rw [htarget]
    rfl
  obtain ⟨info,hfind,-,hmoderator,-⟩ := hproper.owned
    ⟨newp.guid,by rw [hset,isOn_update]; exact .inl rfl⟩
  rw [hset] at hfind
  have hfind' : (if s.channel.ownerGUID = newp.guid then
      some { s.channel.info newp.guid with moderator := false }
      else s.channel.playersStore.find? s.channel.ownerGUID) = some info :=
    (find?_update _).symm.trans hfind
  rw [if_pos howner.symm] at hfind'
  cases hfind'
  exact Bool.false_ne_true hmoderator

theorem Sound.proper_step_iff (h : Sound s) (action : Action) :
    Proper (s.step action) ↔ Orderly s action := by
  refine ⟨?_,fun hok => (h.step hok).proper⟩
  intro hproper
  cases action with
  | joinChannel restricted player pass =>
    intro hjoin hempty
    by_contra howner
    exact h.improper_joinChannel hjoin hempty howner hproper
  | kickOrBan players player badname ban =>
    intro bad htarget hself howner g hon
    by_contra hne
    exact h.improper_kickOrBan ban htarget hself howner hon hne hproper
  | setMode players player p2n mod set =>
    intro hmod hset newp htarget howner
    subst hmod hset
    exact improper_setMode htarget howner hproper
  | leaveChannel player => trivial
  | unBan players player badname => trivial
  | setPassword player pass => trivial
  | setOwner players player newname => trivial

theorem sound_start (password : List Char) (bannedStore : Finset Nat) :
    Sound (.start password bannedStore) := by
  refine ⟨⟨rfl,rfl,?_,?_⟩,?_,?_,?_⟩
  · intro g info hfind
    cases hfind
  · intro g info hfind
    cases hfind
  · rintro ⟨g,hon⟩
    cases hon
  · intro g
    refine iff_of_false Bool.false_ne_true ?_
    rintro ⟨pre,post,heq,-⟩
    simp [Chatter.start] at heq
  · intro g _
    rfl

/-- Along a run from an empty custom channel, the channel is proper at every point if and only if
every action is orderly. -/
theorem proper_run_iff (password : List Char) (bannedStore : Finset Nat) (actions : List Action) :
    (∀ pre post, actions = pre ++ post →
      Proper (Run.exec Chatter.step (.start password bannedStore) pre)) ↔
      Run.Guarded Chatter.step Orderly (.start password bannedStore) actions := by
  exact Run.Guarded.iff_prefixes (P := Sound) (fun _ => Sound.proper)
    (fun _ action h hproper => (h.proper_step_iff action).mp hproper) (fun _ _ h hok => h.step hok)
    actions (sound_start password bannedStore)

theorem improper_kicked : ¬ ∀ (password : List Char) (bannedStore : Finset Nat)
    (actions : List Action), Proper (Run.exec Chatter.step (.start password bannedStore) actions) := by
  intro h
  let ann : Player := ⟨1,['A','n','n'],67,true,false,false,false,by decide⟩
  let bob : Player := ⟨2,['B','o','b'],67,true,false,false,false,by decide⟩
  have hproper := h [] ∅ [.joinChannel false ann [],.joinChannel false bob [],
    .kickOrBan [ann,bob] ann ['A','n','n'] false]
  have hon := (hproper.members 1).mp (by decide)
  have hlog : (Run.exec Chatter.step (.start [] ∅) [.joinChannel false ann [],
      .joinChannel false bob [],.kickOrBan [ann,bob] ann ['A','n','n'] false]).log =
      [.joined 1,.joined 2] ++ [.kicked 1] := by
    decide
  rw [hlog,onChannel_append] at hon
  simp [Event.gone] at hon

end TrinityCore.Chat
