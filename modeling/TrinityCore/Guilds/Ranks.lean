import TrinityCore.Guilds.Guild

set_option autoImplicit false

namespace TrinityCore.Guilds

variable {s s' : State} {g : Guild} {k guid : Nat} {m : Member}

@[simp] theorem setInGuild_guild (id : Nat) : (s.setInGuild guid id).guild = s.guild := rfl

@[simp] theorem setInGuild_disbanded (id : Nat) : (s.setInGuild guid id).disbanded = s.disbanded := rfl

@[simp] theorem eraseMember_disbanded : (s.eraseMember guid).disbanded = s.disbanded := rfl

@[simp] theorem eraseMember_ranks : (s.eraseMember guid).guild.ranks = s.guild.ranks := rfl

@[simp] theorem eraseMember_leaderGuid :
    (s.eraseMember guid).guild.leaderGuid = s.guild.leaderGuid := rfl

@[simp] theorem eraseMember_id : (s.eraseMember guid).guild.id = s.guild.id := rfl

@[simp] theorem eraseMember_members :
    (s.eraseMember guid).guild.members = s.guild.members.erase guid := rfl

theorem guildIdOf_setInGuild {id : Nat} : (s.setInGuild guid id).guildIdOf k =
    if k = guid then (s.characters guid).elim 0 (fun _ => id) else s.guildIdOf k := by
  by_cases h : k = guid
  · subst h
    cases hc : s.characters k <;> simp [State.guildIdOf,State.setInGuild,hc]
  · simp [State.guildIdOf,State.setInGuild,h]

theorem addMember_some {rankId : Nat} (h : s.addMember guid rankId = some s') :
    ∃ c m, s.guildIdOf guid = 0 ∧ s.characters guid = some c ∧ m.guid = guid ∧
      (∀ tab, m.bankWithdraw tab = 0) ∧ m.rankId = (if rankId = guildRankNone then s.guild.getLowestRankId else rankId) ∧
      s' = { s with guild := { s.guild with members := s.guild.members.insert guid m } }.setInGuild
        guid s.guild.id := by
  unfold State.addMember at h
  split at h
  · simp at h
  · rename_i hid
    cases hc : s.characters guid with
    | none => simp [hc] at h
    | some c =>
      simp only [hc,Option.ite_none_right_eq_some] at h
      exact ⟨c,_,not_not.mp hid,rfl,rfl,fun _ => rfl,rfl,(Option.some.inj h.2).symm⟩

@[simp] theorem createRank_members (name : String) (rights : BitVec 32) :
    (g.createRank name rights).members = g.members := by
  unfold Guild.createRank
  dsimp only
  split_ifs <;> rfl

@[simp] theorem createRank_id (name : String) (rights : BitVec 32) :
    (g.createRank name rights).id = g.id := by
  unfold Guild.createRank
  dsimp only
  split_ifs <;> rfl

@[simp] theorem createRank_leaderGuid (name : String) (rights : BitVec 32) :
    (g.createRank name rights).leaderGuid = g.leaderGuid := by
  unfold Guild.createRank
  dsimp only
  split_ifs <;> rfl

theorem createRank_ranks {name : String} {rights : BitVec 32}
    (h : g.ranks.length < guildRanksMaxCount) : (g.createRank name rights).ranks = g.ranks ++
      [(RankInfo.new g.ranks.length name rights 0).createMissingTabsIfNeeded g.purchasedTabs] := by
  have hsize : g.getRanksSize = g.ranks.length := by
    simp only [Guild.getRanksSize,uint8,guildRanksMaxCount] at h ⊢
    omega
  rw [Guild.createRank,hsize]
  exact congrArg Guild.ranks (if_neg (Nat.not_le.mpr h))

theorem setBankTabSlotsAndRights_foldl (tabs : List TabRights) (p : TabRights → Prop)
    [DecidablePred p] (r : RankInfo) :
    let r' := tabs.foldl (fun r t => if p t then r else r.setBankTabSlotsAndRights t) r
    r'.rankId = r.rankId ∧ r'.rights = r.rights ∧ r'.bankMoneyPerDay = r.bankMoneyPerDay := by
  induction tabs generalizing r with
  | nil => exact ⟨rfl,rfl,rfl⟩
  | cons t tabs ih =>
    simp only [List.foldl_cons]
    split_ifs
    · exact ih r
    · exact ih _

@[simp] theorem editRank_rankId (name : String) (rights money : BitVec 32) (tabs : List TabRights)
    (r : RankInfo) : (g.editRank name rights money tabs r).rankId = r.rankId :=
  (setBankTabSlotsAndRights_foldl tabs _ _).1

theorem editRank_rights (name : String) (rights money : BitVec 32) (tabs : List TabRights)
    (r : RankInfo) : (g.editRank name rights money tabs r).rights =
      if r.rankId = grGuildmaster then grRightAll else rights :=
  (setBankTabSlotsAndRights_foldl tabs _ _).2.1

@[simp] theorem changeRank_ranks (r : Nat) : (g.changeRank k r).ranks = g.ranks := by
  unfold Guild.changeRank
  split <;> rfl

@[simp] theorem changeRank_id (r : Nat) : (g.changeRank k r).id = g.id := by
  unfold Guild.changeRank
  split <;> rfl

@[simp] theorem changeRank_leaderGuid (r : Nat) : (g.changeRank k r).leaderGuid = g.leaderGuid := by
  unfold Guild.changeRank
  split <;> rfl

theorem changeRank_find {r i : Nat} : (g.changeRank k r).members.find? i =
    if i = k then (g.members.find? k).map (fun m => { m with rankId := uint8 r })
    else g.members.find? i := by
  unfold Guild.changeRank
  split
  · rename_i m hm
    rw [OrderedMap.find?_insert]
    simp [hm]
  · rename_i hm
    by_cases h : i = k
    · simp [h,hm]
    · simp [h]

theorem changeRank_origin {r i : Nat} (h : (g.changeRank k r).members.find? i = some m) :
    ∃ m', g.members.find? i = some m' ∧ m.guid = m'.guid ∧
      (m.rankId = m'.rankId ∨ i = k ∧ m.rankId = uint8 r) := by
  rw [changeRank_find] at h
  split_ifs at h with hi
  · obtain ⟨m',hm',rfl⟩ := Option.map_eq_some_iff.mp h
    exact ⟨m',hi ▸ hm',rfl,.inr ⟨hi,rfl⟩⟩
  · exact ⟨m,h,rfl,.inl rfl⟩

theorem changeRank_bankWithdraw {r i : Nat} (h : (g.changeRank k r).members.find? i = some m) :
    ∃ m', g.members.find? i = some m' ∧ m.bankWithdraw = m'.bankWithdraw := by
  rw [changeRank_find] at h
  split_ifs at h with hi
  · obtain ⟨m',hm',rfl⟩ := Option.map_eq_some_iff.mp h
    exact ⟨m',hi ▸ hm',rfl⟩
  · exact ⟨m,h,rfl⟩

@[simp] theorem setLeaderGUID_ranks : (g.setLeaderGUID k m).ranks = g.ranks := by
  simp [Guild.setLeaderGUID]

@[simp] theorem setLeaderGUID_id : (g.setLeaderGUID k m).id = g.id := by
  simp [Guild.setLeaderGUID]

@[simp] theorem setLeaderGUID_leaderGuid : (g.setLeaderGUID k m).leaderGuid = m.guid := by
  simp [Guild.setLeaderGUID]

theorem setLeaderGUID_find {i : Nat} : (g.setLeaderGUID k m).members.find? i =
    if i = k then (g.members.find? k).map (fun m => { m with rankId := grGuildmaster })
    else g.members.find? i := changeRank_find

theorem setLeaderGUID_origin {i : Nat} {l : Member}
    (h : (g.setLeaderGUID k l).members.find? i = some m) :
    ∃ m', g.members.find? i = some m' ∧ m.guid = m'.guid ∧
      (m.rankId = m'.rankId ∨ i = k ∧ m.rankId = grGuildmaster) := changeRank_origin h

theorem getMemberNamed_find {t : Traversal} {name : String} {e : Nat × Member}
    (h : g.getMemberNamed t name = some e) : g.members.find? e.1 = some e.2 := by
  have hmem := List.mem_of_find?_eq_some h
  exact OrderedMap.mem_entries.mp ((t.perm g.members).mem_iff.mp hmem)

theorem better_mem {es : List (Nat × Member)} {best : Option (Nat × Member)} {a b : Nat × Member}
    (hbest : ∀ b, best = some b → b ∈ es ∧ b.1 ≠ guid) (ha : a ∈ es)
    (h : Guild.better guid best a = some b) : b ∈ es ∧ b.1 ≠ guid := by
  unfold Guild.better at h
  split_ifs at h with hg
  · exact hbest b h
  · cases best with
    | none =>
      cases h
      exact ⟨ha,hg⟩
    | some c =>
      dsimp only at h
      split_ifs at h
      · cases h
        exact ⟨ha,hg⟩
      · exact hbest b h

theorem foldl_better_mem {es l : List (Nat × Member)} {best : Option (Nat × Member)}
    {e : Nat × Member} (hbest : ∀ b, best = some b → b ∈ es ∧ b.1 ≠ guid) (hl : ∀ x ∈ l, x ∈ es)
    (h : l.foldl (Guild.better guid) best = some e) : e ∈ es ∧ e.1 ≠ guid := by
  induction l generalizing best with
  | nil => exact hbest e h
  | cons a l ih =>
    rw [List.forall_mem_cons] at hl
    exact ih (fun b hb => better_mem hbest hl.1 hb) hl.2 h

theorem successor_mem {es : List (Nat × Member)} {e : Nat × Member}
    (h : Guild.successor es guid = some e) : e ∈ es ∧ e.1 ≠ guid :=
  foldl_better_mem (by simp) (fun _ hx => hx) h

section Invariant

structure Numbered (rs : List RankInfo) : Prop where
  ids : rs.map (·.rankId) = List.range rs.length
  minCount : guildRanksMinCount ≤ rs.length
  maxCount : rs.length ≤ guildRanksMaxCount

/-- What every run keeps: the ranks are numbered, members sit at their own guid, in the guild,
with a rank that some table of ranks had. -/
structure Wf (s : State) : Prop where
  numbered : Numbered s.guild.ranks
  idPos : s.guild.id ≠ 0
  keyed : ∀ k m, s.guild.members.find? k = some m → m.guid = k
  low : ∀ k m, s.guild.members.find? k = some m → m.rankId < guildRanksMaxCount
  enrolled : ∀ k m, s.guild.members.find? k = some m → s.guildIdOf k = s.guild.id

variable (h : Wf s)
include h

theorem Wf.getRanksSize : s.guild.getRanksSize = s.guild.ranks.length := by
  have := h.numbered.maxCount
  simp only [Guild.getRanksSize,uint8,guildRanksMaxCount] at *
  omega

theorem Wf.getLowestRankId : s.guild.getLowestRankId = s.guild.ranks.length-1 := by
  have hmax := h.numbered.maxCount
  have hmin := h.numbered.minCount
  simp only [Guild.getLowestRankId,uint8,guildRanksMaxCount,guildRanksMinCount] at *
  omega

theorem Wf.getRankInfo (rankId : Nat) : s.guild.getRankInfo rankId = s.guild.ranks[rankId]? := by
  rw [Guild.getRankInfo,h.getRanksSize]
  split_ifs with hlt
  · rfl
  · rw [List.getElem?_eq_none (Nat.le_of_not_lt hlt)]

theorem Wf.find_none (hid : s.guildIdOf guid = 0) : s.guild.members.find? guid = none := by
  cases hm : s.guild.members.find? guid with
  | none => rfl
  | some m =>
    have := h.enrolled guid m hm
    exact absurd (this.symm.trans hid) h.idPos

end Invariant

inductive Effect (s : State) (e : Event) : State → Prop
  | same : Effect s e s
  | enlist (guid : Nat) (m : Member) (c : Character) : s.guildIdOf guid = 0 →
      s.characters guid = some c → m.guid = guid → (∀ tab, m.bankWithdraw tab = 0) →
      m.rankId = s.guild.ranks.length-1 →
      Effect s e ({ s with guild := { s.guild with members := s.guild.members.insert guid m } }.setInGuild
        guid s.guild.id)
  | leave (guid : Nat) : s.guild.leaderGuid ≠ guid → Effect s e (s.eraseMember guid)
  | succeed (k : Nat) (m : Member) : s.guild.members.find? k = some m → k ≠ s.guild.leaderGuid →
      Effect s e (State.eraseMember { s with guild := s.guild.setLeaderGUID k m } s.guild.leaderGuid)
  | disband (s' : State) : s'.disbanded = true → Effect s e s'
  | handOver (player k : Nat) (name : String) (old m : Member) : e.action = .setLeader player name →
      s.guild.getMemberNamed e.traversal name = some (k,m) → s.guild.isLeader player = true →
      s.guild.members.find? player = some old →
      Effect s e { s with guild := (s.guild.setLeaderGUID k m).changeRank player grOfficer }
  | demote (k : Nat) (m : Member) : s.guild.members.find? k = some m → 0 < m.rankId →
      m.rankId+1 < s.guild.ranks.length →
      Effect s e { s with guild := s.guild.changeRank k (m.rankId+1) }
  | promote (k : Nat) (m : Member) : s.guild.members.find? k = some m → 1 < m.rankId →
      Effect s e { s with guild := s.guild.changeRank k (m.rankId+(2^32-1)) }
  | edit (player rankId : Nat) (name : String) (rights money : BitVec 32) (tabs : List TabRights) :
      e.action = .setRankInfo player rankId name rights money tabs →
      s.guild.isLeader player = true →
      Effect s e { s with
        guild := { s.guild with
          ranks := s.guild.ranks.modify rankId (s.guild.editRank name rights money tabs) } }
  | addRank (name : String) : s.guild.ranks.length < guildRanksMaxCount →
      Effect s e { s with
        guild := s.guild.createRank name (Right.mask .gchatListen ||| Right.mask .gchatSpeak) }
  | removeRank (player rankId : Nat) :
      (e.action = .removeRank player rankId ∨
        e.action = .removeLowestRank player ∧ rankId = s.guild.getLowestRankId) →
      s.guild.isLeader player = true → guildRanksMinCount < s.guild.ranks.length →
      rankId < s.guild.ranks.length →
      Effect s e { s with guild := { s.guild with ranks := s.guild.ranks.dropLast } }
  | character (guid : Nat) (c : Option Character) :
      (guid ∈ s.guild.members.keys ↔ (c.map (·.guildId)).getD 0 = s.guild.id) →
      Effect s e { s with characters := Function.update s.characters guid c }

section Effects

variable {e : Event}

theorem effect_addMember (h : Wf s) (guid : Nat) :
    Effect s e ((s.addMember guid guildRankNone).getD s) := by
  cases ha : s.addMember guid guildRankNone with
  | none => exact .same
  | some s' =>
    obtain ⟨c,m,hid,hc,hguid,hzero,hrank,rfl⟩ := addMember_some ha
    exact .enlist guid m c hid hc hguid hzero (hrank.trans h.getLowestRankId)

theorem effect_deleteMember (t : Traversal) (guid : Nat) : Effect s e (s.deleteMember t guid) := by
  unfold State.deleteMember
  split_ifs with hlead
  · cases hs : Guild.successor (t.traverse s.guild.members) guid with
    | none => exact .disband _ rfl
    | some x =>
      obtain ⟨hmem,hne⟩ := successor_mem hs
      have hx := OrderedMap.mem_entries.mp ((t.perm s.guild.members).mem_iff.mp hmem)
      subst hlead
      exact .succeed x.1 x.2 hx hne
  · exact .leave guid hlead

theorem effect_handleSetLeader {player : Nat} {name : String}
    (ha : e.action = .setLeader player name) :
    Effect s e (s.handleSetLeader e.traversal player name) := by
  unfold State.handleSetLeader
  split_ifs with hlead
  · exact .same
  · cases hme : s.guild.getMember player with
    | none => exact .same
    | some old =>
      cases hx : s.guild.getMemberNamed e.traversal name with
      | none => exact .same
      | some x => exact .handOver player x.1 name old x.2 ha hx (by simpa using hlead) hme

theorem effect_handleLeaveMember (t : Traversal) (player : Nat) :
    Effect s e (s.handleLeaveMember t player) := by
  unfold State.handleLeaveMember
  split_ifs
  · exact .same
  · exact .disband _ rfl
  · exact effect_deleteMember t player

theorem effect_handleDisband (t : Traversal) (player : Nat) :
    Effect s e (s.handleDisband t player) := by
  unfold State.handleDisband
  split_ifs
  · exact .disband _ rfl
  · exact .same

theorem effect_handleRemoveMember (t : Traversal) (player : Nat) (name : String) :
    Effect s e (s.handleRemoveMember t player name) := by
  unfold State.handleRemoveMember
  split_ifs
  · exact .same
  · cases s.guild.getMemberNamed t name with
    | none => exact .same
    | some x =>
      dsimp only
      split_ifs
      · exact .same
      · cases s.guild.getMember player with
        | none => exact .same
        | some me =>
          dsimp only
          split_ifs
          · exact .same
          · exact effect_deleteMember t x.2.guid

theorem effect_handleUpdateMemberRank (h : Wf s) (t : Traversal) (player : Nat) (name : String)
    (demote : Bool) : Effect s e (s.handleUpdateMemberRank t player name demote) := by
  unfold State.handleUpdateMemberRank
  generalize s.guild.hasRankRight player _ = permitted
  cases permitted with
  | false => exact .same
  | true =>
    cases hx : s.guild.getMemberNamed t name with
    | none => exact .same
    | some x =>
      have hfind := getMemberNamed_find hx
      cases hsame : x.2.isSamePlayer player with
      | true =>
        simp only [hsame]
        exact .same
      | false =>
        cases hme : s.guild.getMember player with
        | none =>
          simp only [hsame]
          exact .same
        | some me =>
          have hmin := h.numbered.minCount
          have hrank := h.low player me hme
          simp only [hsame,Bool.not_true,Bool.false_eq_true,if_false]
          split_ifs with hd h1 h2 h1
          · exact .same
          · exact .same
          · rw [h.getLowestRankId] at h2
            simp only [Member.isRankNotLower,decide_eq_true_eq,guildRanksMinCount] at h1 hmin
            exact .demote x.1 x.2 hfind (by omega) (by omega)
          · exact .same
          · simp only [Member.isRankNotLower,decide_eq_true_eq] at h1
            simp only [uint8,guildRanksMaxCount] at h1 hrank
            exact .promote x.1 x.2 hfind (by omega)

theorem effect_handleSetRankInfo {player rankId : Nat} {name : String} {rights money : BitVec 32}
    {tabs : List TabRights} (ha : e.action = .setRankInfo player rankId name rights money tabs) :
    Effect s e (s.handleSetRankInfo player rankId name rights money tabs) := by
  unfold State.handleSetRankInfo
  split_ifs with hlead
  · exact .same
  · cases s.guild.getRankInfo rankId with
    | none => exact .same
    | some r => exact .edit player rankId name rights money tabs ha (by simpa using hlead)

theorem effect_handleAddNewRank (h : Wf s) (player : Nat) (name : String) :
    Effect s e (s.handleAddNewRank player name) := by
  unfold State.handleAddNewRank
  rw [h.getRanksSize]
  split_ifs with hmax
  · exact .same
  · exact .addRank name (by omega)
  · exact .same

theorem effect_handleRemoveRank (h : Wf s) {player rankId : Nat}
    (ha : e.action = .removeRank player rankId ∨
      e.action = .removeLowestRank player ∧ rankId = s.guild.getLowestRankId) :
    Effect s e (s.handleRemoveRank player rankId) := by
  unfold State.handleRemoveRank
  rw [h.getRanksSize]
  split_ifs with hc
  · exact .same
  · simp only [Bool.or_eq_true,decide_eq_true_eq,Bool.not_eq_true',not_or,Bool.not_eq_false] at hc
    exact .removeRank player rankId ha hc.2 (by omega) (by omega)

theorem step_effect (h : Wf s) (e : Event) : Effect s e (step s e) := by
  unfold step
  split_ifs
  · exact .same
  · cases ha : e.action with
    | addMember guid => exact effect_addMember h guid
    | deleteMember guid => exact effect_deleteMember e.traversal guid
    | setLeader player name => exact effect_handleSetLeader ha
    | leaveMember player => exact effect_handleLeaveMember e.traversal player
    | disband player => exact effect_handleDisband e.traversal player
    | removeMember player name => exact effect_handleRemoveMember e.traversal player name
    | updateMemberRank player name demote =>
      exact effect_handleUpdateMemberRank h e.traversal player name demote
    | setRankInfo player rankId name rights money tabs => exact effect_handleSetRankInfo ha
    | addNewRank player name => exact effect_handleAddNewRank h player name
    | removeRank player rankId => exact effect_handleRemoveRank h (.inl ha)
    | removeLowestRank player => exact effect_handleRemoveRank h (.inr ⟨ha,rfl⟩)
    | updateCharacter guid c =>
      dsimp only
      unfold State.updateCharacter
      split_ifs with hc
      · exact .character guid c hc
      · exact .same

/-- At his own guid, with a rank of the table or one that is no lower than before. -/
def Placed (s : State) (k : Nat) (m : Member) : Prop :=
  m.guid = k ∧ (m.rankId < s.guild.ranks.length ∨
    ∃ m', s.guild.members.find? k = some m' ∧ m.rankId ≤ m'.rankId)

theorem Wf.placed (h : Wf s) (hm : s.guild.members.find? k = some m) : Placed s k m :=
  ⟨h.keyed k m hm,.inr ⟨m,hm,le_refl _⟩⟩

theorem Placed.move {m' : Member} {k' r : Nat} (h : Placed s k m') (hguid : m.guid = m'.guid)
    (hrank : m.rankId = m'.rankId ∨ k = k' ∧ m.rankId = r) (hr : r < s.guild.ranks.length) :
    Placed s k m := by
  refine ⟨hguid.trans h.1,?_⟩
  rcases hrank with hrank | ⟨-,rfl⟩
  · rw [hrank]
    exact h.2
  · exact .inl hr

theorem Effect.placed (h : Wf s) (he : Effect s e s') (hd : s'.disbanded = false)
    (hm : s'.guild.members.find? k = some m) : Placed s k m := by
  have hmin := h.numbered.minCount
  simp only [guildRanksMinCount] at hmin
  have hmaster : grGuildmaster < s.guild.ranks.length := by simp only [grGuildmaster]; omega
  have hofficer : uint8 grOfficer < s.guild.ranks.length := by simp only [grOfficer,uint8]; omega
  cases he with
  | same => exact h.placed hm
  | enlist guid new c hid hc hguid _ hrank =>
    simp only [setInGuild_guild,OrderedMap.find?_insert] at hm
    split_ifs at hm with hk
    · cases hm
      exact ⟨hguid.trans hk.symm,.inl (by omega)⟩
    · exact h.placed hm
  | leave guid _ =>
    simp only [eraseMember_members,OrderedMap.find?_erase] at hm
    split_ifs at hm
    exact h.placed hm
  | succeed k' m' hm' _ =>
    simp only [eraseMember_members,OrderedMap.find?_erase] at hm
    split_ifs at hm
    obtain ⟨m1,hm1,hguid,hrank⟩ := setLeaderGUID_origin hm
    exact (h.placed hm1).move hguid hrank hmaster
  | disband _ hdis => simp [hdis] at hd
  | handOver player k' name old m' _ _ _ _ =>
    obtain ⟨m1,hm1,hguid,hrank⟩ := changeRank_origin hm
    obtain ⟨m2,hm2,hguid2,hrank2⟩ := setLeaderGUID_origin hm1
    exact ((h.placed hm2).move hguid2 hrank2 hmaster).move hguid hrank hofficer
  | demote k' m' hm' hpos hlt =>
    obtain ⟨m1,hm1,hguid,hrank⟩ := changeRank_origin hm
    exact (h.placed hm1).move hguid hrank (by simp only [uint8]; omega)
  | promote k' m' hm' hlt =>
    obtain ⟨m1,hm1,hguid,hrank⟩ := changeRank_origin hm
    rcases hrank with hrank | ⟨rfl,hrank⟩
    · exact ⟨hguid.trans (h.keyed k m1 hm1),.inr ⟨m1,hm1,hrank.le⟩⟩
    · cases hm'.symm.trans hm1
      have hlow := h.low k m' hm'
      simp only [guildRanksMaxCount,uint8] at hlow hrank
      exact ⟨hguid.trans (h.keyed k m' hm'),.inr ⟨m',hm',by omega⟩⟩
  | edit => exact h.placed hm
  | addRank name _ => exact h.placed (by simpa using hm)
  | removeRank => exact h.placed hm
  | character => exact h.placed hm

theorem Effect.enrolled (h : Wf s) (he : Effect s e s') (hd : s'.disbanded = false)
    (hm : s'.guild.members.find? k = some m) : s'.guildIdOf k = s'.guild.id := by
  cases he with
  | same => exact h.enrolled k m hm
  | enlist guid new c hid hc hguid _ hrank =>
    rw [guildIdOf_setInGuild]
    simp only [setInGuild_guild,OrderedMap.find?_insert] at hm ⊢
    split_ifs at hm ⊢ with hk
    · simp [hc]
    · exact h.enrolled k m hm
  | leave guid _ =>
    rw [State.eraseMember,guildIdOf_setInGuild]
    simp only [eraseMember_members,OrderedMap.find?_erase] at hm
    split_ifs at hm ⊢
    exact h.enrolled k m hm
  | succeed k' m' hm' _ =>
    rw [State.eraseMember,guildIdOf_setInGuild]
    simp only [eraseMember_members,OrderedMap.find?_erase] at hm
    split_ifs at hm ⊢
    obtain ⟨m1,hm1,-⟩ := setLeaderGUID_origin hm
    exact (h.enrolled k m1 hm1).trans (by simp)
  | disband _ hdis => simp [hdis] at hd
  | handOver player k' name old m' _ _ _ _ =>
    obtain ⟨m1,hm1,-⟩ := changeRank_origin hm
    obtain ⟨m2,hm2,-⟩ := setLeaderGUID_origin hm1
    exact (h.enrolled k m2 hm2).trans (by simp)
  | demote k' m' hm' hpos hlt =>
    obtain ⟨m1,hm1,-⟩ := changeRank_origin hm
    exact (h.enrolled k m1 hm1).trans (by simp)
  | promote k' m' hm' hlt =>
    obtain ⟨m1,hm1,-⟩ := changeRank_origin hm
    exact (h.enrolled k m1 hm1).trans (by simp)
  | edit => exact h.enrolled k m hm
  | addRank name _ =>
    rw [createRank_members] at hm
    rw [createRank_id]
    exact h.enrolled k m hm
  | removeRank => exact h.enrolled k m hm
  | character guid c hc =>
    have hold := h.enrolled k m hm
    by_cases hk : k = guid
    · subst hk
      have hmem : k ∈ s.guild.members.keys := OrderedMap.mem_keys.mpr ⟨m,hm⟩
      simpa [State.guildIdOf] using hc.mp hmem
    · simpa [State.guildIdOf,hk] using hold

theorem map_rankId_modify {rs : List RankInfo} {i : Nat} {f : RankInfo → RankInfo}
    (hf : ∀ r, (f r).rankId = r.rankId) : (rs.modify i f).map (·.rankId) = rs.map (·.rankId) := by
  induction rs generalizing i with
  | nil => simp
  | cons r rs ih =>
    cases i with
    | zero => simp [hf]
    | succ i => simp [ih]

theorem Numbered.rankId_eq {rs : List RankInfo} {i : Nat} {info : RankInfo} (h : Numbered rs)
    (hi : rs[i]? = some info) : info.rankId = i := by
  have hlt : i < rs.length := (List.getElem?_eq_some_iff.mp hi).1
  have hid : (rs.map (·.rankId))[i]? = some info.rankId := by rw [List.getElem?_map,hi]; rfl
  rw [h.ids,List.getElem?_range hlt] at hid
  exact (Option.some.inj hid).symm

theorem Numbered.modify {rs : List RankInfo} {i : Nat} {f : RankInfo → RankInfo}
    (h : Numbered rs) (hf : ∀ r, (f r).rankId = r.rankId) : Numbered (rs.modify i f) := by
  refine ⟨?_,?_,?_⟩
  · rw [map_rankId_modify hf,List.length_modify,h.ids]
  · simpa using h.minCount
  · simpa using h.maxCount

theorem Numbered.append {rs : List RankInfo} {r : RankInfo} (h : Numbered rs)
    (hr : r.rankId = rs.length) (hlt : rs.length < guildRanksMaxCount) : Numbered (rs ++ [r]) := by
  have hmin := h.minCount
  refine ⟨?_,?_,?_⟩
  · simp [h.ids,hr,List.range_succ]
  · rw [List.length_append]
    omega
  · simpa using hlt

theorem Numbered.dropLast {rs : List RankInfo} (h : Numbered rs)
    (hlt : guildRanksMinCount < rs.length) : Numbered rs.dropLast := by
  have hmax := h.maxCount
  obtain ⟨n,hn⟩ : ∃ n, rs.length = n+1 := ⟨rs.length-1,by omega⟩
  refine ⟨?_,?_,?_⟩
  · rw [List.map_dropLast,h.ids,List.length_dropLast,hn,List.range_succ,List.dropLast_concat,
      Nat.add_sub_cancel]
  · rw [List.length_dropLast]
    omega
  · rw [List.length_dropLast]
    omega

theorem Effect.numbered (h : Wf s) (he : Effect s e s') (hd : s'.disbanded = false) :
    Numbered s'.guild.ranks ∧ s'.guild.id = s.guild.id := by
  cases he with
  | same => exact ⟨h.numbered,rfl⟩
  | enlist => exact ⟨h.numbered,rfl⟩
  | leave => exact ⟨h.numbered,rfl⟩
  | succeed => simpa using h.numbered
  | disband _ hdis => simp [hdis] at hd
  | handOver => simpa using h.numbered
  | demote => simpa using h.numbered
  | promote => simpa using h.numbered
  | edit => exact ⟨h.numbered.modify (by simp),rfl⟩
  | addRank name hlt =>
    rw [createRank_ranks hlt]
    exact ⟨h.numbered.append rfl hlt,createRank_id _ _⟩
  | removeRank player rankId _ _ hmin _ => exact ⟨h.numbered.dropLast hmin,rfl⟩
  | character => exact ⟨h.numbered,rfl⟩

theorem Effect.wf (h : Wf s) (he : Effect s e s') (hd : s'.disbanded = false) : Wf s' := by
  obtain ⟨hnum,hid⟩ := he.numbered h hd
  refine ⟨hnum,hid ▸ h.idPos,fun k m hm => (he.placed h hd hm).1,?_,
    fun k m hm => he.enrolled h hd hm⟩
  intro k m hm
  rcases (he.placed h hd hm).2 with hlt | ⟨m',hm',hle⟩
  · exact hlt.trans_le h.numbered.maxCount
  · exact hle.trans_lt (h.low k m' hm')

theorem step_of_disbanded (h : s.disbanded = true) (e : Event) : step s e = s := by
  rw [step,if_pos h]

theorem step_wf (h : s.disbanded = false → Wf s) (e : Event) :
    (step s e).disbanded = false → Wf (step s e) := by
  intro hd
  cases hs : s.disbanded with
  | true =>
    rw [step_of_disbanded hs] at hd
    rw [hs] at hd
    simp at hd
  | false => exact (step_effect (h hs) e).wf (h hs) hd

end Effects

section Created

variable {characters : Nat → Option Character} {id : NewId characters} {leader : Nat} {names : DefaultNames}

/-- A new guild has the five default ranks and the leader in the first of them. -/
theorem create_spec (h : create characters id leader names = some s) : s.disbanded = false ∧
    s.guild.id = id.val ∧ s.guild.leaderGuid = leader ∧
    s.guild.ranks = (createDefaultGuildRanks ⟨id.val,leader,[],.empty,0,0⟩ names).ranks ∧
    s.guildIdOf leader = id.val ∧
    ∃ m, m.guid = leader ∧ (∀ tab, m.bankWithdraw tab = 0) ∧ m.rankId = grGuildmaster ∧
      ∀ k, s.guild.members.find? k = if k = leader then some m else none := by
  unfold create at h
  split_ifs at h
  obtain ⟨c,m,hid,hc,hguid,hzero,hrank,rfl⟩ := addMember_some h
  refine ⟨rfl,rfl,rfl,rfl,?_,m,hguid,hzero,hrank,?_⟩
  · rw [guildIdOf_setInGuild,if_pos rfl]
    exact congrArg (fun o => Option.elim o 0 fun _ => id.val) hc
  · intro k
    exact OrderedMap.find?_insert

theorem create_ranks_length :
    (createDefaultGuildRanks ⟨id.val,leader,[],.empty,0,0⟩ names).ranks.length = 5 := rfl

theorem create_wf (h : create characters id leader names = some s) : Wf s := by
  obtain ⟨-,hid,-,hranks,hin,m,hguid,-,hrank,hfind⟩ := create_spec h
  have hm : ∀ k m', s.guild.members.find? k = some m' → k = leader ∧ m' = m := by
    intro k m' hm'
    rw [hfind] at hm'
    split_ifs at hm' with hk
    exact ⟨hk,(Option.some.inj hm').symm⟩
  refine ⟨⟨?_,?_,?_⟩,?_,?_,?_,?_⟩
  · rw [hranks]
    rfl
  · rw [hranks,create_ranks_length]
    decide
  · rw [hranks,create_ranks_length]
    decide
  · rw [hid]
    exact id.pos
  · intro k m' hm'
    obtain ⟨rfl,rfl⟩ := hm k m' hm'
    exact hguid
  · intro k m' hm'
    obtain ⟨rfl,rfl⟩ := hm k m' hm'
    rw [hrank]
    decide
  · intro k m' hm'
    obtain ⟨rfl,rfl⟩ := hm k m' hm'
    rw [hin,hid]

end Created

section Removal

variable {e : Event}

def RanksExist (s : State) : Prop :=
  ∀ k m, s.guild.members.find? k = some m → m.rankId < s.guild.ranks.length

def RemovesRank (s : State) (player rankId : Nat) : Prop :=
  s.guild.isLeader player = true ∧ guildRanksMinCount < s.guild.ranks.length ∧
    rankId < s.guild.ranks.length

/-- The last rank is removed although a member has it. -/
def RemovesUsedRank (s : State) (e : Event) : Prop :=
  (match e.action with
    | .removeRank player rankId => RemovesRank s player rankId
    | .removeLowestRank player => RemovesRank s player s.guild.getLowestRankId
    | _ => False) ∧
  ∃ k m, s.guild.members.find? k = some m ∧ m.rankId+1 = s.guild.ranks.length

theorem Effect.ranksExist (h : Wf s) (hex : RanksExist s) (he : Effect s e s')
    (hd : s'.disbanded = false) (hok : ¬ RemovesUsedRank s e) : RanksExist s' := by
  intro k m hm
  have hlt : m.rankId < s.guild.ranks.length := by
    rcases (he.placed h hd hm).2 with hlt | ⟨m',hm',hle⟩
    · exact hlt
    · exact hle.trans_lt (hex k m' hm')
  cases he with
  | disband _ hdis => simp [hdis] at hd
  | edit => simpa using hlt
  | addRank name hmax =>
    rw [createRank_ranks hmax,List.length_append]
    omega
  | removeRank player rankId ha hlead hmin hr =>
    -- the rank of a member can only be one that stays
    have hne : m.rankId+1 ≠ s.guild.ranks.length := by
      intro hlast
      refine hok ⟨?_,k,m,hm,hlast⟩
      rcases ha with ha | ⟨ha,rfl⟩
      · rw [ha]
        exact ⟨hlead,hmin,hr⟩
      · rw [ha]
        exact ⟨hlead,hmin,hr⟩
    rw [List.length_dropLast]
    omega
  | same => exact hlt
  | enlist => exact hlt
  | leave => exact hlt
  | succeed => simpa using hlt
  | handOver => simpa using hlt
  | demote => simpa using hlt
  | promote => simpa using hlt
  | character => exact hlt

theorem not_ranksExist_of_removesUsedRank (h : Wf s) (hd : s.disbanded = false)
    (hrem : RemovesUsedRank s e) : ¬ RanksExist (step s e) := by
  obtain ⟨hact,k,m,hm,hlast⟩ := hrem
  have hstep : ∀ player rankId, RemovesRank s player rankId → s.handleRemoveRank player rankId =
      { s with guild := { s.guild with ranks := s.guild.ranks.dropLast } } := by
    rintro player rankId ⟨hlead,hmin,hr⟩
    unfold State.handleRemoveRank
    rw [h.getRanksSize,if_neg]
    simp [hlead,hmin,hr]
  have hgone : (step s e).guild.ranks = s.guild.ranks.dropLast ∧
      (step s e).guild.members = s.guild.members := by
    unfold step
    rw [hd]
    cases ha : e.action with
    | removeRank player rankId =>
      rw [ha] at hact
      simp [hstep player rankId hact]
    | removeLowestRank player =>
      rw [ha] at hact
      simp [State.handleRemoveLowestRank,hstep player _ hact]
    | _ => simp [ha] at hact
  intro hex
  have := hex k m (hgone.2 ▸ hm)
  rw [hgone.1,List.length_dropLast] at this
  omega

variable {characters : Nat → Option Character} {id : NewId characters} {leader : Nat} {names : DefaultNames}
  {es : List Event}

theorem run_wf (hs : create characters id leader names = some s)
    (hd : (Run.exec step s es).disbanded = false) : Wf (Run.exec step s es) :=
  Run.exec_inv (P := fun s => s.disbanded = false → Wf s) (fun _ e h => step_wf h e) s es
    (fun _ => create_wf hs) hd

theorem run_inv {ok : State → Event → Prop} {P : State → Prop}
    (hs : create characters id leader names = some s)
    (hstep : ∀ s s' e, Wf s → P s → Effect s e s' → s'.disbanded = false → ok s e → P s')
    (hg : Run.Guarded step ok s es) (hd : (Run.exec step s es).disbanded = false) (hP : P s) :
    P (Run.exec step s es) := by
  have hinv := Run.Guarded.inv (P := fun s => s.disbanded = false → Wf s ∧ P s) ?_ hg
    (fun _ => ⟨create_wf hs,hP⟩)
  · exact (hinv hd).2
  · intro s e h hok hd
    cases hs : s.disbanded with
    | true =>
      rw [step_of_disbanded hs,hs] at hd
      simp at hd
    | false =>
      obtain ⟨hwf,hP⟩ := h hs
      have heff := step_effect hwf e
      exact ⟨heff.wf hwf hd,hstep s _ e hwf hP heff hd hok⟩

theorem create_ranksExist (hs : create characters id leader names = some s) : RanksExist s := by
  obtain ⟨-,-,-,hranks,-,m,-,-,hrank,hfind⟩ := create_spec hs
  intro k m' hm'
  rw [hfind] at hm'
  split_ifs at hm'
  cases hm'
  rw [hranks,create_ranks_length,hrank]
  decide

/-- Along a run that never removes the rank of a member, the ranks are numbered and every
member's rank is one of them; a step that removes such a rank ends that. -/
theorem ranks_stay_valid (hs : create characters id leader names = some s)
    (hg : Run.Guarded step (fun s e => ¬ RemovesUsedRank s e) s es)
    (hd : (Run.exec step s es).disbanded = false) :
    Numbered (Run.exec step s es).guild.ranks ∧ RanksExist (Run.exec step s es) ∧
      ∀ e, RemovesUsedRank (Run.exec step s es) e → ¬ RanksExist (step (Run.exec step s es) e) := by
  have hwf := run_wf hs hd
  refine ⟨hwf.numbered,?_,fun e hrem => not_ranksExist_of_removesUsedRank hwf hd hrem⟩
  exact run_inv (P := RanksExist) hs
    (fun s s' e h hex he hd hok => he.ranksExist h hex hd hok) hg hd (create_ranksExist hs)

def someone (name : String) : Character := ⟨name,80,1,true,0,0,Nat.zero_le _⟩

def threePlayers (guid : Nat) : Option Character :=
  match guid with
  | 1 => some (someone "Leader")
  | 2 => some (someone "Second")
  | 3 => some (someone "Third")
  | _ => none

def defaultNames : DefaultNames := ⟨"Guild Master","Officer","Veteran","Member","Initiate"⟩

def firstId : NewId threePlayers where
  val := 1
  pos := by decide
  fresh := by
    intro k c h
    unfold threePlayers at h
    split at h <;> cases h <;> decide

def founded : State := (create threePlayers firstId 1 defaultNames).get (by decide +kernel)

theorem create_founded : create threePlayers firstId 1 defaultNames = some founded :=
  (Option.some_get _).symm

def Action.event (a : Action) : Event := ⟨⟨OrderedMap.entries,fun _ => .refl _⟩,a⟩

def twoJoin : List Event :=
  [(Action.addMember 2).event,(Action.addNewRank 1 "Trial").event,(Action.addMember 3).event]

theorem ranks_stay_valid_two_join : Numbered (Run.exec step founded twoJoin).guild.ranks ∧
    (Run.exec step founded twoJoin).guild.ranks.length = 6 ∧
    RanksExist (Run.exec step founded twoJoin) := by
  have hrun : Run.Guarded step (fun s e => ¬ RemovesUsedRank s e) founded twoJoin := by
    simp [twoJoin,Run.Guarded,RemovesUsedRank,Action.event]
  have h := ranks_stay_valid create_founded hrun (by decide +kernel)
  exact ⟨h.1,by decide +kernel,h.2.1⟩

theorem stranded_in_removed_rank : ¬ ∀ (characters : Nat → Option Character) (id : NewId characters)
    (leader : Nat) (names : DefaultNames) (s : State) (es : List Event),
    create characters id leader names = some s → (Run.exec step s es).disbanded = false →
    Numbered (Run.exec step s es).guild.ranks ∧ RanksExist (Run.exec step s es) := by
  intro h
  have hrun := h threePlayers firstId 1 defaultNames founded
    (twoJoin ++ [(Action.removeLowestRank 1).event]) create_founded (by decide +kernel)
  have hthird : ((Run.exec step founded (twoJoin ++ [(Action.removeLowestRank 1).event])).guild.members.find?
      3).map (·.rankId) = some 5 := by decide +kernel
  obtain ⟨m,hm,hrank⟩ := Option.map_eq_some_iff.mp hthird
  have hlt := hrun.2 3 m hm
  have hlen : (Run.exec step founded (twoJoin ++ [(Action.removeLowestRank 1).event])).guild.ranks.length =
      5 := by decide +kernel
  omega

end Removal

end TrinityCore.Guilds
