import TrinityCore.Guilds.Ranks

set_option autoImplicit false

namespace TrinityCore.Guilds

variable {s s' : State} {k : Nat} {m : Member} {e : Event}

/-- The leader is a member, of the first rank, and no one else has that rank. -/
def HasMaster (s : State) : Prop :=
  ∃ m, s.guild.members.find? s.guild.leaderGuid = some m ∧ m.rankId = grGuildmaster ∧
    ∀ k m', s.guild.members.find? k = some m' → m'.rankId = grGuildmaster → k = s.guild.leaderGuid

def HandsOverToSelf (s : State) (e : Event) : Prop :=
  match e.action with
  | .setLeader player name => s.guild.isLeader player = true ∧
    ∃ old, s.guild.getMember player = some old ∧
      (s.guild.getMemberNamed e.traversal name).any (fun x => x.1 == player) = true
  | _ => False

theorem HasMaster.intro (hm : s.guild.members.find? s.guild.leaderGuid = some m)
    (hrank : m.rankId = grGuildmaster)
    (hothers : ∀ k m', s.guild.members.find? k = some m' → k ≠ s.guild.leaderGuid →
      m'.rankId ≠ grGuildmaster) : HasMaster s := by
  refine ⟨m,hm,hrank,?_⟩
  intro k m' hm' hr
  by_contra hk
  exact hothers k m' hm' hk hr

theorem HasMaster.others (h : HasMaster s) (hm : s.guild.members.find? k = some m)
    (hk : k ≠ s.guild.leaderGuid) : m.rankId ≠ grGuildmaster := by
  intro hr
  obtain ⟨-,-,-,huniq⟩ := h
  exact hk (huniq k m hm hr)

/-- A change of a rank below the first to another such rank leaves the master alone. -/
theorem HasMaster.changeRank (h : HasMaster s) {r : Nat}
    (hm : s.guild.members.find? k = some m) (hk : m.rankId ≠ grGuildmaster)
    (hr : uint8 r ≠ grGuildmaster) : HasMaster { s with guild := s.guild.changeRank k r } := by
  obtain ⟨l,hl,hlead,huniq⟩ := h
  have hne : s.guild.leaderGuid ≠ k := by
    rintro rfl
    rw [hm] at hl
    cases hl
    exact hk hlead
  refine .intro (m := l) ?_ hlead ?_
  · simp only [changeRank_leaderGuid,changeRank_find,if_neg hne]
    exact hl
  · intro i m' hm' hi
    rw [changeRank_leaderGuid] at hi
    simp only [changeRank_find] at hm'
    split_ifs at hm' with hik
    · rw [hm] at hm'
      cases hm'
      exact hr
    · intro hr'
      exact hi (huniq i m' hm' hr')

theorem HasMaster.handOver (h : HasMaster s) {player : Nat} {old : Member} (hkeyed : m.guid = k)
    (hm : s.guild.members.find? k = some m) (hold : s.guild.members.find? player = some old)
    (hlead : s.guild.isLeader player = true) (hne : k ≠ player) :
    HasMaster { s with guild := (s.guild.setLeaderGUID k m).changeRank player grOfficer } := by
  have hplayer : player = s.guild.leaderGuid := by
    by_contra hno
    have hrank : old.rankId = grGuildmaster := by
      have hold' : s.guild.getMember player = some old := hold
      simpa [Guild.isLeader,hno,hold',Member.isRank] using hlead
    exact h.others hold hno hrank
  refine .intro (m := { m with rankId := grGuildmaster }) ?_ rfl ?_
  · simp only [changeRank_leaderGuid,setLeaderGUID_leaderGuid,hkeyed,changeRank_find,if_neg hne,
      setLeaderGUID_find,if_pos,hm]
    simp [hkeyed]
  · intro i m' hm' hi
    simp only [changeRank_leaderGuid,setLeaderGUID_leaderGuid,hkeyed] at hi
    simp only [changeRank_find,setLeaderGUID_find,if_neg hi] at hm'
    split_ifs at hm' with h1 h2
    · exact absurd h2.symm hne
    · rw [hold] at hm'
      cases hm'
      exact (by decide : uint8 grOfficer ≠ grGuildmaster)
    · exact h.others hm' (hplayer ▸ h1)

theorem Effect.hasMaster (hwf : Wf s) (h : HasMaster s) (he : Effect s e s')
    (hd : s'.disbanded = false) (hok : ¬ HandsOverToSelf s e) : HasMaster s' := by
  obtain ⟨l,hl,hlead,huniq⟩ := id h
  have hmin := hwf.numbered.minCount
  simp only [guildRanksMinCount] at hmin
  cases he with
  | same => exact h
  | enlist guid new c hid hc hguid _ hrank =>
    have hne : s.guild.leaderGuid ≠ guid := by
      rintro rfl
      rw [hwf.find_none hid] at hl
      simp at hl
    refine .intro (m := l) ?_ hlead ?_
    · simp only [setInGuild_guild,OrderedMap.find?_insert,if_neg hne]
      exact hl
    · intro i m' hm' hi
      simp only [setInGuild_guild,OrderedMap.find?_insert] at hm' hi
      split_ifs at hm' with hk
      · cases hm'
        simp only [grGuildmaster]
        omega
      · exact h.others hm' hi
  | leave guid hne =>
    refine .intro (m := l) ?_ hlead ?_
    · simp only [eraseMember_members,eraseMember_leaderGuid,OrderedMap.find?_erase,if_neg hne]
      exact hl
    · intro i m' hm' hi
      simp only [eraseMember_members,eraseMember_leaderGuid,OrderedMap.find?_erase] at hm' hi
      split_ifs at hm'
      exact h.others hm' hi
  | succeed k m hm hne =>
    have hkeyed := hwf.keyed k m hm
    refine .intro (m := { m with rankId := grGuildmaster }) ?_ rfl ?_
    · simp only [eraseMember_members,eraseMember_leaderGuid,setLeaderGUID_leaderGuid,hkeyed,
        OrderedMap.find?_erase,if_neg hne,setLeaderGUID_find,if_pos,hm]
      simp [hkeyed]
    · intro i m' hm' hi
      simp only [eraseMember_leaderGuid,setLeaderGUID_leaderGuid,hkeyed] at hi
      simp only [eraseMember_members,OrderedMap.find?_erase,setLeaderGUID_find,if_neg hi] at hm'
      split_ifs at hm' with hi'
      exact h.others hm' hi'
  | disband _ hdis => simp [hdis] at hd
  | handOver player k name old m ha hnamed hleader hold =>
    have hm := getMemberNamed_find hnamed
    refine h.handOver (hwf.keyed k m hm) hm hold hleader ?_
    rintro rfl
    refine hok ?_
    rw [HandsOverToSelf,ha]
    exact ⟨hleader,old,hold,by simp [hnamed]⟩
  | demote k m hm hpos hlt =>
    refine h.changeRank hm (Nat.pos_iff_ne_zero.mp hpos) ?_
    have hmax := hwf.numbered.maxCount
    simp only [guildRanksMaxCount,uint8,grGuildmaster] at hmax ⊢
    omega
  | promote k m hm hlt =>
    have hlow := hwf.low k m hm
    simp only [guildRanksMaxCount] at hlow
    refine h.changeRank hm (by simp only [grGuildmaster]; omega) ?_
    simp only [uint8,grGuildmaster]
    omega
  | edit => exact h
  | addRank name hmax =>
    refine .intro (m := l) ?_ hlead ?_
    · simpa using hl
    · intro i m' hm' hi
      exact h.others (by simpa using hm') (by simpa using hi)
  | removeRank => exact h
  | character => exact h

section Run

variable {characters : Nat → Option Character} {id : NewId characters} {leader : Nat} {names : DefaultNames}
  {es : List Event}

theorem create_hasMaster (hs : create characters id leader names = some s) : HasMaster s := by
  obtain ⟨-,-,hlead,-,-,m,-,-,hrank,hfind⟩ := create_spec hs
  refine .intro (m := m) ?_ hrank ?_
  · rw [hlead,hfind,if_pos rfl]
  · intro k m' hm' hk
    rw [hfind,if_neg (hlead ▸ hk)] at hm'
    simp at hm'

/-- A step by which the leader names himself leaves him without the first rank. -/
theorem not_hasMaster_of_handsOverToSelf (hwf : Wf s) (hd : s.disbanded = false)
    (hself : HandsOverToSelf s e) : ¬ HasMaster (step s e) := by
  unfold HandsOverToSelf at hself
  cases ha : e.action with
  | setLeader player name =>
    rw [ha] at hself
    obtain ⟨hlead,old,hold,hany⟩ := hself
    cases hx : s.guild.getMemberNamed e.traversal name with
    | none => simp [hx] at hany
    | some x =>
      obtain ⟨k,m⟩ := x
      obtain rfl : k = player := by simpa [hx] using hany
      have hkeyed := hwf.keyed k m (getMemberNamed_find hx)
      have hstep : (step s e).guild = (s.guild.setLeaderGUID k m).changeRank k grOfficer := by
        simp [step,hd,ha,State.handleSetLeader,hlead,hold,hx]
      rintro ⟨l,hl,hrank,-⟩
      rw [hstep,changeRank_leaderGuid,setLeaderGUID_leaderGuid,hkeyed,changeRank_find,if_pos rfl]
        at hl
      obtain ⟨l',-,rfl⟩ := Option.map_eq_some_iff.mp hl
      exact absurd hrank (by decide : uint8 grOfficer ≠ grGuildmaster)
  | _ => simp [ha] at hself

/-- Along a run in which no leader hands the guild over to himself there is always one master; a
step by which a leader does so ends that. -/
theorem master_stays (hs : create characters id leader names = some s)
    (hg : Run.Guarded step (fun s e => ¬ HandsOverToSelf s e) s es)
    (hd : (Run.exec step s es).disbanded = false) :
    HasMaster (Run.exec step s es) ∧
      ∀ e, HandsOverToSelf (Run.exec step s es) e → ¬ HasMaster (step (Run.exec step s es) e) :=
  ⟨run_inv (P := HasMaster) hs (fun _ _ _ hwf h he hd hok => he.hasMaster hwf h hd hok) hg hd
    (create_hasMaster hs),
    fun _ hself => not_hasMaster_of_handsOverToSelf (run_wf hs hd) hd hself⟩

def secondLeads : List Event := [(Action.addMember 2).event,(Action.setLeader 1 "Second").event]

theorem master_stays_second : HasMaster (Run.exec step founded secondLeads) ∧
    (Run.exec step founded secondLeads).guild.leaderGuid = 2 := by
  have hnamed : ¬ HandsOverToSelf (step founded (Action.addMember 2).event)
      (Action.setLeader 1 "Second").event := by
    rintro ⟨-,-,-,hany⟩
    exact absurd hany (by decide +kernel)
  have hjoin : ¬ HandsOverToSelf founded (Action.addMember 2).event := not_false
  have hrun : Run.Guarded step (fun s e => ¬ HandsOverToSelf s e) founded secondLeads :=
    ⟨hjoin,hnamed,trivial⟩
  have h := master_stays create_founded hrun (by decide +kernel)
  exact ⟨h.1,by decide +kernel⟩

/-- The leader names himself and is an officer of a guild without a master. -/
theorem leader_names_himself : ¬ ∀ (characters : Nat → Option Character) (id : NewId characters)
    (leader : Nat) (names : DefaultNames) (s : State) (es : List Event),
    create characters id leader names = some s → (Run.exec step s es).disbanded = false →
    HasMaster (Run.exec step s es) := by
  intro h
  obtain ⟨l,hl,hrank,-⟩ := h threePlayers firstId 1 defaultNames founded
    [(Action.setLeader 1 "Leader").event] create_founded (by decide +kernel)
  have hofficer : ((Run.exec step founded [(Action.setLeader 1 "Leader").event]).guild.members.find?
      (Run.exec step founded [(Action.setLeader 1 "Leader").event]).guild.leaderGuid).map (·.rankId) =
      some 1 := by decide +kernel
  rw [hl,Option.map_some,hrank] at hofficer
  exact absurd hofficer (by decide)

end Run

end TrinityCore.Guilds
