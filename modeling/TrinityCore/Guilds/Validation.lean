import TrinityCore.Guilds.Ranks

set_option autoImplicit false

namespace TrinityCore.Guilds

structure RankRow where
  rname : String
  rights : BitVec 32
  bankMoneyPerDay : BitVec 32

/-- A row of `guild_member` with the columns joined from `characters`. -/
structure MemberRow where
  rank : Fin (2^8)
  bankWithdraw : Fin (guildBankMaxTabs+1) → BitVec 32
  name : String
  level : Nat
  cls : Nat

structure BankRightRow where
  rid : Nat
  rightsAndSlots : TabRights

structure GuildRows where
  guildid : Nat
  leaderguid : Nat
  bankMoney : Nat
  tabCount : Nat
  ranks : OrderedMap (Fin (2^8)) RankRow
  members : OrderedMap Nat MemberRow
  bankRights : List BankRightRow

section Loading

def RankInfo.loadFromDB (rid : Fin (2^8)) (row : RankRow) : RankInfo where
  rankId := rid
  name := row.rname
  rights := if rid.val = grGuildmaster then row.rights ||| grRightAll else row.rights
  bankMoneyPerDay := row.bankMoneyPerDay
  bankTabRightsAndSlots := List.replicate guildBankMaxTabs .undefined

def Member.loadFromDB (guid : Nat) (row : MemberRow) : Member :=
  ⟨guid,row.name,row.level,row.cls,row.rank,row.bankWithdraw⟩

namespace Guild

def loadFromDB (rows : GuildRows) : Guild :=
  ⟨rows.guildid,rows.leaderguid,[],.empty,min (uint8 rows.tabCount) guildBankMaxTabs,rows.bankMoney⟩

def loadRankFromDB (g : Guild) (rid : Fin (2^8)) (row : RankRow) : Guild :=
  { g with ranks := g.ranks ++ [RankInfo.loadFromDB rid row] }

def loadMemberFromDB (g : Guild) (lowguid : Nat) (row : MemberRow) : Guild :=
  let member := Member.loadFromDB lowguid row
  if member.checkStats then { g with members := g.members.insert lowguid member } else g

def setRankBankTabRightsAndSlots (g : Guild) (rankId : Nat) (t : TabRights) : Guild :=
  if t.tabId ≥ g.purchasedTabs then g
  else
    match g.getRankInfo rankId with
    | some _ => { g with ranks := g.ranks.modify rankId fun r => r.setBankTabSlotsAndRights t }
    | none => g

/-- `LoadGuilds` of one guild, up to the validation. The ranks come in the order of their ids. -/
def load (rows : GuildRows) : Guild :=
  let g := rows.ranks.entries.foldl (fun g e => g.loadRankFromDB e.1 e.2) (loadFromDB rows)
  let g := rows.members.entries.foldl (fun g e => g.loadMemberFromDB e.1 e.2) g
  rows.bankRights.foldl (fun g row => g.setRankBankTabRightsAndSlots row.rid row.rightsAndSlots) g

end Guild

end Loading

section Validate

namespace Guild

def brokenRanks (g : Guild) : Bool :=
  g.getRanksSize < guildRanksMinCount || g.getRanksSize > guildRanksMaxCount ||
    (List.range g.getRanksSize).any fun rankId =>
      (g.getRankInfo rankId).any fun r => r.rankId != rankId

/-- The tabs that are created in ranks before a broken one are cleared with the ranks. -/
def validateRanks (g : Guild) (names : DefaultNames) : Guild :=
  if g.brokenRanks then createDefaultGuildRanks { g with ranks := [] } names
  else { g with ranks := g.ranks.map fun r => r.createMissingTabsIfNeeded g.purchasedTabs }

def changeRanks (g : Guild) (t : Traversal) (p : Member → Bool) (newRank : Nat) : Guild :=
  (t.traverse g.members).foldl (fun g e => if p e.2 then g.changeRank e.1 newRank else g) g

def validateMembers (g : Guild) (t : Traversal) : Guild :=
  g.changeRanks t (fun m => m.rankId > g.getRanksSize) g.getLowestRankId

def demoteOtherMasters (g : Guild) (t : Traversal) : Guild :=
  g.changeRanks t (fun m => m.rankId == grGuildmaster && !m.isSamePlayer g.leaderGuid) grOfficer

end Guild

def State.validateLeader (s : State) (t : Traversal) : Bool × State :=
  match s.guild.getMember s.guild.leaderGuid with
  | none =>
    let s := s.deleteMember t s.guild.leaderGuid
    if s.guild.members.size = 0 then (false,s.disband t) else (true,s)
  | some leader =>
    if !leader.isRank grGuildmaster then
      (true,{ s with guild := s.guild.setLeaderGUID s.guild.leaderGuid leader })
    else (true,s)

def State.validate (s : State) (t : Traversal) (names : DefaultNames)
    (allowMultipleGuildMaster : Bool) : Bool × State :=
  let s := { s with guild := (s.guild.validateRanks names).validateMembers t }
  match s.validateLeader t with
  | (false,s) => (false,s)
  | (true,s) =>
    (true,if allowMultipleGuildMaster then s else { s with guild := s.guild.demoteOtherMasters t })

end Validate

variable {g : Guild} {k : Nat} {m : Member}

section Load

/-- What the keys of the tables give: not more ranks than ids, members at their guids. -/
structure Loaded (g : Guild) : Prop where
  ranks_le : g.ranks.length ≤ 2^8
  keyed : ∀ k m, g.members.find? k = some m → m.guid = k

theorem foldl_loadRankFromDB (es : List (Fin (2^8) × RankRow)) (g : Guild) :
    let g' := es.foldl (fun g e => g.loadRankFromDB e.1 e.2) g
    g'.ranks.length = g.ranks.length+es.length ∧ g'.members = g.members ∧
      g'.leaderGuid = g.leaderGuid := by
  induction es generalizing g with
  | nil => exact ⟨rfl,rfl,rfl⟩
  | cons e es ih =>
    obtain ⟨hlen,hmem,hlead⟩ := ih (g.loadRankFromDB e.1 e.2)
    refine ⟨?_,hmem,hlead⟩
    rw [List.foldl_cons,hlen]
    simp only [Guild.loadRankFromDB,List.length_append,List.length_cons,List.length_nil]
    omega

theorem Loaded.loadMemberFromDB (h : Loaded g) (lowguid : Nat) (row : MemberRow) :
    Loaded (g.loadMemberFromDB lowguid row) := by
  unfold Guild.loadMemberFromDB
  dsimp only
  split_ifs
  · refine ⟨h.ranks_le,fun k m hm => ?_⟩
    simp only [OrderedMap.find?_insert] at hm
    split_ifs at hm with hk
    · cases hm
      exact hk.symm
    · exact h.keyed k m hm
  · exact h

theorem Loaded.setRankBankTabRightsAndSlots (h : Loaded g) (rankId : Nat) (t : TabRights) :
    Loaded (g.setRankBankTabRightsAndSlots rankId t) := by
  unfold Guild.setRankBankTabRightsAndSlots
  split_ifs
  · exact h
  · split
    · exact ⟨by simpa using h.ranks_le,h.keyed⟩
    · exact h

theorem loaded_load (rows : GuildRows) : Loaded (Guild.load rows) := by
  have hranks : Loaded (rows.ranks.entries.foldl (fun g e => g.loadRankFromDB e.1 e.2)
      (Guild.loadFromDB rows)) := by
    obtain ⟨hlen,hmem,-⟩ := foldl_loadRankFromDB rows.ranks.entries (Guild.loadFromDB rows)
    refine ⟨?_,fun k m hm => ?_⟩
    · have hcard := rows.ranks.nodup_keys.length_le_card
      simp only [OrderedMap.keys,List.length_map,Fintype.card_fin] at hcard
      rw [hlen]
      simpa [Guild.loadFromDB] using hcard
    · rw [hmem] at hm
      simp [Guild.loadFromDB] at hm
  have hmembers : ∀ (es : List (Nat × MemberRow)) (g : Guild), Loaded g →
      Loaded (es.foldl (fun g e => g.loadMemberFromDB e.1 e.2) g) := by
    intro es
    induction es with
    | nil => exact fun _ h => h
    | cons e es ih => exact fun g h => ih _ (h.loadMemberFromDB e.1 e.2)
  have hrights : ∀ (es : List BankRightRow) (g : Guild), Loaded g →
      Loaded (es.foldl (fun g row => g.setRankBankTabRightsAndSlots row.rid row.rightsAndSlots) g) := by
    intro es
    induction es with
    | nil => exact fun _ h => h
    | cons e es ih => exact fun g h => ih _ (h.setRankBankTabRightsAndSlots e.rid e.rightsAndSlots)
  exact hrights _ _ (hmembers _ _ hranks)

end Load

section Ranks

def Guild.rankCount (g : Guild) : Nat :=
  if g.brokenRanks then guildRanksMinCount else g.ranks.length

theorem numbered_of_not_brokenRanks (hle : g.ranks.length ≤ 2^8) (h : g.brokenRanks = false) :
    Numbered g.ranks := by
  simp only [Guild.brokenRanks,Bool.or_eq_false_iff,decide_eq_false_iff_not,List.any_eq_false,
    List.mem_range] at h
  obtain ⟨⟨hmin,hmax⟩,hids⟩ := h
  have hsize : g.getRanksSize = g.ranks.length := by
    simp only [Guild.getRanksSize,uint8,guildRanksMinCount] at hmin ⊢
    omega
  rw [hsize] at hmin hmax hids
  refine ⟨?_,by omega,by omega⟩
  apply List.ext_getElem (by simp)
  intro i hi hi'
  have hlt : i < g.ranks.length := by simpa using hi
  have hrank := hids i hlt
  rw [Guild.getRankInfo,hsize,if_pos hlt,List.getElem?_eq_getElem hlt] at hrank
  simpa using hrank

@[simp] theorem createDefaultGuildRanks_members (names : DefaultNames) :
    (createDefaultGuildRanks g names).members = g.members := by
  simp [createDefaultGuildRanks]

@[simp] theorem createDefaultGuildRanks_leaderGuid (names : DefaultNames) :
    (createDefaultGuildRanks g names).leaderGuid = g.leaderGuid := by
  simp [createDefaultGuildRanks]

@[simp] theorem validateRanks_members (names : DefaultNames) :
    (g.validateRanks names).members = g.members := by
  unfold Guild.validateRanks
  split_ifs <;> simp

@[simp] theorem validateRanks_leaderGuid (names : DefaultNames) :
    (g.validateRanks names).leaderGuid = g.leaderGuid := by
  unfold Guild.validateRanks
  split_ifs <;> simp

theorem validateRanks_numbered (hle : g.ranks.length ≤ 2^8) (names : DefaultNames) :
    Numbered (g.validateRanks names).ranks ∧ (g.validateRanks names).ranks.length = g.rankCount := by
  unfold Guild.validateRanks Guild.rankCount
  cases hb : g.brokenRanks with
  | true => exact ⟨⟨rfl,(by decide : 5 ≤ 5),(by decide : 5 ≤ 10)⟩,rfl⟩
  | false =>
    obtain ⟨hids,hmin,hmax⟩ := numbered_of_not_brokenRanks hle hb
    simp only [Bool.false_eq_true,if_false]
    refine ⟨⟨?_,by simpa using hmin,by simpa using hmax⟩,by simp⟩
    rw [List.map_map,List.length_map]
    exact hids

end Ranks

section Members

variable {t : Traversal} {p : Member → Bool} {newRank : Nat}

theorem foldl_changeRank_rest (es : List (Nat × Member)) (g : Guild) :
    let g' := es.foldl (fun g e => if p e.2 then g.changeRank e.1 newRank else g) g
    g'.ranks = g.ranks ∧ g'.leaderGuid = g.leaderGuid := by
  induction es generalizing g with
  | nil => exact ⟨rfl,rfl⟩
  | cons e es ih =>
    simp only [List.foldl_cons]
    split_ifs
    · simpa using ih (g.changeRank e.1 newRank)
    · exact ih g

@[simp] theorem changeRanks_ranks : (g.changeRanks t p newRank).ranks = g.ranks :=
  (foldl_changeRank_rest _ g).1

@[simp] theorem changeRanks_leaderGuid : (g.changeRanks t p newRank).leaderGuid = g.leaderGuid :=
  (foldl_changeRank_rest _ g).2

theorem foldl_changeRank_find (es : List (Nat × Member)) (g : Guild) (hnd : (es.map Prod.fst).Nodup)
    (hes : ∀ e ∈ es, g.members.find? e.1 = some e.2) :
    (es.foldl (fun g e => if p e.2 then g.changeRank e.1 newRank else g) g).members.find? k =
      (g.members.find? k).map fun m =>
        if k ∈ es.map Prod.fst ∧ p m = true then { m with rankId := uint8 newRank } else m := by
  induction es generalizing g with
  | nil => simp
  | cons e es ih =>
    rw [List.map_cons,List.nodup_cons] at hnd
    rw [List.forall_mem_cons] at hes
    have hne : ∀ e' ∈ es, e'.1 ≠ e.1 := by
      intro e' he' heq
      exact hnd.1 (heq ▸ List.mem_map_of_mem he')
    have hes' : ∀ e' ∈ es, (if p e.2 then g.changeRank e.1 newRank else g).members.find? e'.1 =
        some e'.2 := by
      intro e' he'
      split_ifs
      · rw [changeRank_find,if_neg (hne e' he')]
        exact hes.2 e' he'
      · exact hes.2 e' he'
    rw [List.foldl_cons,ih _ hnd.2 hes']
    by_cases hk : k = e.1
    · subst hk
      cases hp : p e.2 with
      | true => simp [changeRank_find,hes.1,hp,hnd.1]
      | false => simp [hes.1,hp,hnd.1]
    · have hmem : k ∈ (e :: es).map Prod.fst ↔ k ∈ es.map Prod.fst := by simp [hk]
      simp only [hmem]
      cases hp : p e.2 with
      | true => simp [changeRank_find,hk]
      | false => rfl

theorem changeRanks_find : (g.changeRanks t p newRank).members.find? k =
    (g.members.find? k).map fun m => if p m then { m with rankId := uint8 newRank } else m := by
  have hperm := t.perm g.members
  have hes : ∀ e ∈ t.traverse g.members, g.members.find? e.1 = some e.2 :=
    fun e he => OrderedMap.mem_entries.mp (hperm.mem_iff.mp he)
  rw [Guild.changeRanks,foldl_changeRank_find _ _ ((hperm.map Prod.fst).nodup_iff.mpr g.members.nodup_keys) hes]
  cases hm : g.members.find? k with
  | none => rfl
  | some m =>
    have hmem : k ∈ (t.traverse g.members).map Prod.fst :=
      List.mem_map_of_mem (hperm.mem_iff.mpr (OrderedMap.mem_entries.mpr hm))
    simp [hmem]

end Members

section Leader

variable {s : State} {t : Traversal} {guid : Nat} {e b : Nat × Member} {best : Option (Nat × Member)}

theorem better_le (h : Guild.better guid best e = some b) :
    (∀ c, best = some c → b.2.rankId ≤ c.2.rankId) ∧ (e.1 ≠ guid → b.2.rankId ≤ e.2.rankId) := by
  unfold Guild.better at h
  split_ifs at h with hg
  · exact ⟨fun c hc => by simp_all,fun hne => absurd hg hne⟩
  · cases best with
    | none =>
      cases h
      exact ⟨by simp,fun _ => le_rfl⟩
    | some c =>
      dsimp only at h
      split_ifs at h with hlt
      · cases h
        exact ⟨fun c' hc' => by cases hc'; omega,fun _ => le_rfl⟩
      · cases h
        exact ⟨fun c' hc' => by cases hc'; exact le_rfl,fun _ => by omega⟩

theorem foldl_better_isSome (es : List (Nat × Member)) (hbest : best.isSome) :
    (es.foldl (Guild.better guid) best).isSome := by
  induction es generalizing best with
  | nil => exact hbest
  | cons e es ih =>
    obtain ⟨c,rfl⟩ := Option.isSome_iff_exists.mp hbest
    refine ih ?_
    simp only [Guild.better]
    split_ifs <;> rfl

theorem foldl_better_le (es : List (Nat × Member))
    (h : es.foldl (Guild.better guid) best = some b) :
    (∀ c, best = some c → b.2.rankId ≤ c.2.rankId) ∧
      ∀ e ∈ es, e.1 ≠ guid → b.2.rankId ≤ e.2.rankId := by
  induction es generalizing best with
  | nil => exact ⟨fun c hc => by simp_all,by simp⟩
  | cons e es ih =>
    obtain ⟨hbest,hes⟩ := ih h
    cases hb : Guild.better guid best e with
    | none =>
      have hnone : best = none ∧ e.1 = guid := by
        unfold Guild.better at hb
        split_ifs at hb with hg
        · exact ⟨hb,hg⟩
        · cases best with
          | none => simp at hb
          | some c =>
            dsimp only at hb
            split_ifs at hb
      exact ⟨by simp [hnone.1],List.forall_mem_cons.mpr ⟨fun hne => absurd hnone.2 hne,hes⟩⟩
    | some c =>
      obtain ⟨hle,hle'⟩ := better_le hb
      exact ⟨fun c' hc' => (hbest c hb).trans (hle c' hc'),
        List.forall_mem_cons.mpr ⟨fun hne => (hbest c hb).trans (hle' hne),hes⟩⟩

/-- Where the leader is not a member, the successor is a member of the best rank there is. -/
theorem successor_of_absent (habsent : s.guild.members.find? guid = none)
    (hm : s.guild.members.find? k = some m) :
    ∃ e, Guild.successor (t.traverse s.guild.members) guid = some e ∧
      s.guild.members.find? e.1 = some e.2 ∧
      ∀ k' m', s.guild.members.find? k' = some m' → e.2.rankId ≤ m'.rankId := by
  have hperm := t.perm s.guild.members
  have hmem : ∀ k' m', s.guild.members.find? k' = some m' →
      (k',m') ∈ t.traverse s.guild.members ∧ k' ≠ guid := by
    intro k' m' hm'
    refine ⟨hperm.mem_iff.mpr (OrderedMap.mem_entries.mpr hm'),?_⟩
    rintro rfl
    simp [habsent] at hm'
  have hsome : (Guild.successor (t.traverse s.guild.members) guid).isSome := by
    obtain ⟨pre,post,hsplit⟩ := List.append_of_mem (hmem k m hm).1
    rw [Guild.successor,hsplit,List.foldl_append,List.foldl_cons]
    refine foldl_better_isSome post ?_
    cases pre.foldl (Guild.better guid) none with
    | none => simp [Guild.better,(hmem k m hm).2]
    | some c =>
      simp only [Guild.better,if_neg (hmem k m hm).2]
      split_ifs <;> rfl
  obtain ⟨e,he⟩ := Option.isSome_iff_exists.mp hsome
  refine ⟨e,he,?_,?_⟩
  · exact OrderedMap.mem_entries.mp (hperm.mem_iff.mp (successor_mem he).1)
  · intro k' m' hm'
    exact (foldl_better_le _ he).2 (k',m') (hmem k' m' hm').1 (hmem k' m' hm').2

/-- The guild has a leader `k`, its member of the first rank; the others are as before. -/
structure LedBy (g g' : Guild) (k : Nat) (m : Member) : Prop where
  leads : g'.leaderGuid = k
  ranks : g'.ranks = g.ranks
  find : ∀ i, g'.members.find? i =
    if i = k then some { m with rankId := grGuildmaster } else g.members.find? i

theorem size_ne_zero {ms : OrderedMap Nat Member} (hm : ms.find? k = some m) : ms.size ≠ 0 := by
  have hpos := List.length_pos_of_mem (OrderedMap.mem_entries.mpr hm)
  exact Nat.pos_iff_ne_zero.mp hpos

theorem ledBy_deleteMember (habsent : s.guild.members.find? s.guild.leaderGuid = none)
    (hs : Guild.successor (t.traverse s.guild.members) s.guild.leaderGuid = some e)
    (hfind : s.guild.members.find? e.1 = some e.2) (hkeyed : e.2.guid = e.1) :
    LedBy s.guild (s.deleteMember t s.guild.leaderGuid).guild e.1 e.2 := by
  have hdel : s.deleteMember t s.guild.leaderGuid =
      State.eraseMember { s with guild := s.guild.setLeaderGUID e.1 e.2 } s.guild.leaderGuid := by
    simp [State.deleteMember,hs]
  have hne : e.1 ≠ s.guild.leaderGuid := by
    intro heq
    rw [heq,habsent] at hfind
    simp at hfind
  rw [hdel]
  refine ⟨by simp [hkeyed],by simp,fun i => ?_⟩
  simp only [eraseMember_members,OrderedMap.find?_erase,setLeaderGUID_find]
  by_cases hi : i = s.guild.leaderGuid
  · rw [if_pos hi,if_neg (hi ▸ hne.symm),hi,habsent]
  · rw [if_neg hi,hfind]
    rfl

theorem validateLeader_led (hkeyed : ∀ k m, s.guild.members.find? k = some m → m.guid = k)
    (hm : s.guild.members.find? k = some m) :
    ∃ k' m', s.guild.members.find? k' = some m' ∧ (s.validateLeader t).1 = true ∧
      LedBy s.guild (s.validateLeader t).2.guild k' m' ∧
      (k' = s.guild.leaderGuid ∨ s.guild.members.find? s.guild.leaderGuid = none ∧
        ∀ i mi, s.guild.members.find? i = some mi → m'.rankId ≤ mi.rankId) := by
  cases hlead : s.guild.members.find? s.guild.leaderGuid with
  | some leader =>
    refine ⟨s.guild.leaderGuid,leader,hlead,?_,?_,.inl rfl⟩
    · simp only [State.validateLeader,Guild.getMember,hlead]
      split_ifs <;> rfl
    · simp only [State.validateLeader,Guild.getMember,hlead]
      cases hrank : leader.isRank grGuildmaster with
      | true =>
        have hsame : { leader with rankId := grGuildmaster } = leader := by
          have hr : leader.rankId = grGuildmaster := by simpa [Member.isRank] using hrank
          rw [← hr]
        refine ⟨rfl,rfl,fun i => ?_⟩
        by_cases hi : i = s.guild.leaderGuid
        · simp [hi,hlead,hsame]
        · simp [hi]
      | false =>
        refine ⟨?_,?_,fun i => ?_⟩
        · simpa using hkeyed _ _ hlead
        · simp
        · simp only [Bool.not_false,if_true,setLeaderGUID_find,hlead]
          rfl
  | none =>
    obtain ⟨e,he,hfind,hmin⟩ := successor_of_absent (t := t) hlead hm
    have hled := ledBy_deleteMember hlead he hfind (hkeyed _ _ hfind)
    have hsize : (s.deleteMember t s.guild.leaderGuid).guild.members.size ≠ 0 :=
      size_ne_zero (k := e.1) (by rw [hled.find,if_pos rfl])
    have hval : s.validateLeader t = (true,s.deleteMember t s.guild.leaderGuid) := by
      simp [State.validateLeader,Guild.getMember,hlead,hsize]
    rw [hval]
    exact ⟨e.1,e.2,hfind,rfl,hled,.inr ⟨rfl,hmin⟩⟩

theorem validateLeader_empty (hempty : s.guild.members.size = 0) : (s.validateLeader t).1 = false := by
  have hentries : s.guild.members.entries = [] := List.eq_nil_of_length_eq_zero hempty
  have hfind : ∀ i, s.guild.members.find? i = none := by
    intro i
    by_contra h
    obtain ⟨m,hm⟩ := Option.ne_none_iff_exists'.mp h
    have hmem := OrderedMap.mem_entries.mpr hm
    simp [hentries] at hmem
  have htraverse : t.traverse s.guild.members = [] := by
    have hperm := t.perm s.guild.members
    rw [hentries] at hperm
    exact hperm.eq_nil
  have hdel : (s.deleteMember t s.guild.leaderGuid).guild.members.size = 0 := by
    simp [State.deleteMember,Guild.successor,htraverse,State.disband,hempty]
  simp [State.validateLeader,Guild.getMember,hfind,hdel]

end Leader

section Repair

variable {t : Traversal}

structure Repaired (allowMultipleGuildMaster : Bool) (g : Guild) : Prop where
  numbered : Numbered g.ranks
  ranked : ∀ k m, g.members.find? k = some m → m.rankId < g.ranks.length
  leader : ∃ m, g.members.find? g.leaderGuid = some m ∧ m.rankId = grGuildmaster
  onlyMaster : allowMultipleGuildMaster = false →
    ∀ k m, g.members.find? k = some m → m.rankId = grGuildmaster → k = g.leaderGuid

theorem validateMembers_find (hnum : Numbered g.ranks) : (g.validateMembers t).members.find? k =
    (g.members.find? k).map fun m =>
      if m.rankId > g.ranks.length then { m with rankId := g.ranks.length-1 } else m := by
  have hmin := hnum.minCount
  have hmax := hnum.maxCount
  simp only [guildRanksMinCount,guildRanksMaxCount] at hmin hmax
  have hsize : g.getRanksSize = g.ranks.length := by
    simp only [Guild.getRanksSize,uint8]
    omega
  have hlow : uint8 g.getLowestRankId = g.ranks.length-1 := by
    simp only [Guild.getLowestRankId,uint8]
    omega
  rw [Guild.validateMembers,changeRanks_find,hsize,hlow]
  simp only [decide_eq_true_eq]

/-- The members after the last pass: the leader, and the others, who are officers at best unless
several masters are allowed. -/
theorem demoted_find {g' : Guild} {l : Member} (hl : l.guid = k)
    (hkeyed : ∀ k m, g.members.find? k = some m → m.guid = k) (h : LedBy g g' k l) (allow : Bool)
    (t : Traversal) (i : Nat) :
    (if allow then g' else g'.demoteOtherMasters t).members.find? i =
      if i = k then some { l with rankId := grGuildmaster }
      else (g.members.find? i).map fun m =>
        if allow = false ∧ m.rankId = grGuildmaster then { m with rankId := grOfficer } else m := by
  cases allow with
  | true => simpa using h.find i
  | false =>
    simp only [Bool.false_eq_true,if_false,Guild.demoteOtherMasters,changeRanks_find,h.find i,h.leads]
    split_ifs with hi
    · simp [Member.isSamePlayer,hl]
    · cases hm : g.members.find? i with
      | none => rfl
      | some m =>
        have hguid : m.guid ≠ k := by
          rw [hkeyed i m hm]
          exact hi
        simp [Member.isSamePlayer,hguid,uint8,grOfficer]

/-- The last two passes repair the guild exactly if the second has given everybody but the new
leader a rank. -/
theorem repaired_iff {g' : Guild} {l : Member} (hnum : Numbered g.ranks)
    (hkeyed : ∀ k m, g.members.find? k = some m → m.guid = k) (hl : g.members.find? k = some l)
    (h : LedBy g g' k l) (allow : Bool) (t : Traversal) :
    Repaired allow (if allow then g' else g'.demoteOtherMasters t) ↔
      ∀ i m, i ≠ k → g.members.find? i = some m → m.rankId < g.ranks.length := by
  have hfind := demoted_find (hkeyed k l hl) hkeyed h allow t
  have hranks : (if allow then g' else g'.demoteOtherMasters t).ranks = g.ranks := by
    cases allow <;> simp [Guild.demoteOtherMasters,h.ranks]
  have hleads : (if allow then g' else g'.demoteOtherMasters t).leaderGuid = k := by
    cases allow <;> simp [Guild.demoteOtherMasters,h.leads]
  have hmin := hnum.minCount
  simp only [guildRanksMinCount] at hmin
  generalize (if allow then g' else g'.demoteOtherMasters t) = final at hfind hranks hleads ⊢
  constructor
  · intro hrep i m hi hm
    have hranked := hrep.ranked i _ (by rw [hfind,if_neg hi,hm]; rfl)
    rw [hranks] at hranked
    dsimp only at hranked
    split_ifs at hranked with hmaster
    · rw [hmaster.2,grGuildmaster]
      omega
    · exact hranked
  · intro hothers
    refine ⟨hranks ▸ hnum,?_,⟨{ l with rankId := grGuildmaster },?_,rfl⟩,?_⟩
    · intro i m hm
      rw [hranks]
      rw [hfind] at hm
      split_ifs at hm with hi
      · cases hm
        simp only [grGuildmaster]
        omega
      · obtain ⟨m',hm',rfl⟩ := Option.map_eq_some_iff.mp hm
        split_ifs
        · simp only [grOfficer]
          omega
        · exact hothers i m' hi hm'
    · rw [hleads,hfind,if_pos rfl]
    · intro hallow i m hm hrank
      rw [hleads]
      by_contra hi
      rw [hfind,if_neg hi] at hm
      obtain ⟨m',-,rfl⟩ := Option.map_eq_some_iff.mp hm
      split_ifs at hrank with hmaster
      · exact absurd hrank (by decide : grOfficer ≠ grGuildmaster)
      · exact hmaster ⟨hallow,hrank⟩

theorem eq_of_size_one {ms : OrderedMap Nat Member} {i : Nat} {m' : Member} (hs : ms.size = 1)
    (hm : ms.find? k = some m) (hm' : ms.find? i = some m') : i = k := by
  obtain ⟨e,he⟩ := List.length_eq_one_iff.mp hs
  have hk := OrderedMap.mem_entries.mpr hm
  have hi := OrderedMap.mem_entries.mpr hm'
  rw [he,List.mem_singleton] at hk hi
  exact congrArg Prod.fst (hi.trans hk.symm)

theorem size_eq_one {ms : OrderedMap Nat Member} (hm : ms.find? k = some m)
    (huniq : ∀ i m', ms.find? i = some m' → i = k) : ms.size = 1 := by
  have hall : ∀ e ∈ ms.entries, e.1 = k := fun e he => huniq e.1 e.2 (OrderedMap.mem_entries.mp he)
  have hnd := ms.nodup_keys
  have hpos := size_ne_zero hm
  unfold OrderedMap.size at hpos ⊢
  unfold OrderedMap.keys at hnd
  match hentries : ms.entries with
  | [] => simp [hentries] at hpos
  | [_] => rfl
  | e :: e' :: es =>
    rw [hentries] at hall hnd
    have heq : e.1 = e'.1 := (hall e (by simp)).trans (hall e' (by simp)).symm
    simp [heq] at hnd

def OnePast (g : Guild) (k : Nat) : Prop :=
  ∃ m, g.members.find? k = some m ∧ m.rankId = g.rankCount

structure Passed (g g' : Guild) : Prop where
  numbered : Numbered g'.ranks
  count : g'.ranks.length = g.rankCount
  leads : g'.leaderGuid = g.leaderGuid
  keyed : ∀ k m, g'.members.find? k = some m → m.guid = k
  find : ∀ k, g'.members.find? k = (g.members.find? k).map fun m =>
    if m.rankId > g.rankCount then { m with rankId := g.rankCount-1 } else m

theorem Loaded.passed (h : Loaded g) (t : Traversal) (names : DefaultNames) :
    Passed g ((g.validateRanks names).validateMembers t) := by
  obtain ⟨hnum,hcount⟩ := validateRanks_numbered h.ranks_le names
  have hfind : ∀ k, ((g.validateRanks names).validateMembers t).members.find? k =
      (g.members.find? k).map fun m =>
        if m.rankId > g.rankCount then { m with rankId := g.rankCount-1 } else m := by
    intro k
    rw [validateMembers_find hnum,hcount,validateRanks_members]
  refine ⟨by simpa [Guild.validateMembers] using hnum,by simpa [Guild.validateMembers] using hcount,
    by simp [Guild.validateMembers],?_,hfind⟩
  intro k m hm
  rw [hfind] at hm
  obtain ⟨m',hm',rfl⟩ := Option.map_eq_some_iff.mp hm
  have hguid := h.keyed k m' hm'
  split_ifs <;> exact hguid

theorem Passed.low_iff {g' : Guild} (h : Passed g g') (hm : g'.members.find? k = some m) :
    ¬ m.rankId < g.rankCount ↔ OnePast g k := by
  have hmin := h.numbered.minCount
  rw [h.count,guildRanksMinCount] at hmin
  rw [h.find] at hm
  obtain ⟨m',hm',rfl⟩ := Option.map_eq_some_iff.mp hm
  constructor
  · intro hlow
    refine ⟨m',hm',?_⟩
    split_ifs at hlow with hgt
    · dsimp only at hlow
      omega
    · omega
  · rintro ⟨m'',hm'',hrank⟩
    obtain rfl : m' = m'' := Option.some.inj (hm'.symm.trans hm'')
    rw [if_neg (by omega)]
    omega

theorem Passed.mem {g' : Guild} (h : Passed g g') (hk : OnePast g k) :
    ∃ m, g'.members.find? k = some m ∧ ¬ m.rankId < g.rankCount := by
  obtain ⟨m,hm,-⟩ := id hk
  have hfind : ∃ m', g'.members.find? k = some m' := ⟨_,by rw [h.find,hm]; rfl⟩
  obtain ⟨m',hm'⟩ := hfind
  exact ⟨m',hm',(h.low_iff hm').mpr hk⟩

/-- Who becomes the leader: everybody else has a rank exactly if nobody but the leader, or the
only member, was one past the last. -/
theorem Passed.others_iff {g' : Guild} {l : Member} (h : Passed g g')
    (hl : g'.members.find? k = some l)
    (hnew : k = g'.leaderGuid ∨ g'.members.find? g'.leaderGuid = none ∧
      ∀ i m, g'.members.find? i = some m → l.rankId ≤ m.rankId) :
    (∀ i m, i ≠ k → g'.members.find? i = some m → m.rankId < g'.ranks.length) ↔
      ∀ i, OnePast g i → i = g.leaderGuid ∨ g.members.size = 1 := by
  have hback : ∀ i m', g'.members.find? i = some m' → ∃ m, g.members.find? i = some m := by
    intro i m' hm'
    rw [h.find] at hm'
    obtain ⟨m,hm,-⟩ := Option.map_eq_some_iff.mp hm'
    exact ⟨m,hm⟩
  rw [h.count]
  constructor
  · intro hothers i hi
    obtain ⟨m',hm',hlow⟩ := h.mem hi
    obtain rfl : i = k := by
      by_contra hne
      exact hlow (hothers i m' hne hm')
    rcases hnew with hlead | ⟨-,hmin⟩
    · exact .inl (hlead.trans h.leads)
    · -- the successor has the best rank, so that there is nobody else
      obtain ⟨m,hm,-⟩ := hi
      refine .inr (size_eq_one hm fun j mj hmj => ?_)
      by_contra hne
      obtain ⟨mj',hmj'⟩ : ∃ mj', g'.members.find? j = some mj' := ⟨_,by rw [h.find,hmj]; rfl⟩
      have hle := hmin j mj' hmj'
      have hlt := hothers j mj' hne hmj'
      obtain rfl : l = m' := Option.some.inj (hl.symm.trans hm')
      omega
  · intro hpast i m' hne hm'
    by_contra hlow
    obtain ⟨m,hm⟩ := hback i m' hm'
    obtain ⟨ml,hml⟩ := hback k l hl
    rcases hpast i ((h.low_iff hm').mp hlow) with hlead | hone
    · rcases hnew with hlead' | ⟨hnone,-⟩
      · exact hne (hlead.trans (h.leads.symm.trans hlead'.symm))
      · rw [h.leads,← hlead,hm'] at hnone
        simp at hnone
    · exact hne (eq_of_size_one hone hml hm)

/-- The second pass lets a rank that is one past the last through: the validation repairs a guild
exactly if at most its leader, or its only member, has such a rank. -/
theorem validate_repairs_iff (rows : GuildRows) (characters : Nat → Option Character)
    (t : Traversal) (names : DefaultNames) (allow : Bool) :
    (∀ s', State.validate ⟨Guild.load rows,characters,false⟩ t names allow = (true,s') →
      Repaired allow s'.guild) ↔
    ∀ k, OnePast (Guild.load rows) k →
      k = (Guild.load rows).leaderGuid ∨ (Guild.load rows).members.size = 1 := by
  have hpassed := (loaded_load rows).passed t names
  generalize Guild.load rows = g₀ at hpassed ⊢
  simp only [State.validate]
  generalize (g₀.validateRanks names).validateMembers t = g₁ at hpassed ⊢
  by_cases hsize : g₁.members.size = 0
  · have hfalse := validateLeader_empty (s := ⟨g₁,characters,false⟩) (t := t) hsize
    generalize State.validateLeader ⟨g₁,characters,false⟩ t = r at hfalse ⊢
    obtain ⟨ok,s'⟩ := r
    obtain rfl : ok = false := hfalse
    constructor
    · intro _ k hk
      obtain ⟨m,hm,-⟩ := hpassed.mem hk
      exact absurd hsize (size_ne_zero hm)
    · intro _ s'' hs''
      simp at hs''
  · obtain ⟨e,hentries⟩ := List.exists_mem_of_length_pos (Nat.pos_of_ne_zero hsize)
    obtain ⟨k,l,hl,htrue,hled,hnew⟩ := validateLeader_led (s := ⟨g₁,characters,false⟩) (t := t)
      hpassed.keyed (OrderedMap.mem_entries.mp hentries)
    rw [← hpassed.others_iff hl hnew,← repaired_iff hpassed.numbered hpassed.keyed hl hled allow t]
    generalize State.validateLeader ⟨g₁,characters,false⟩ t = r at htrue ⊢
    obtain ⟨ok,s'⟩ := r
    obtain rfl : ok = true := htrue
    cases allow <;> simp

def rankRow (name : String) : RankRow := ⟨name,0,0⟩

def memberRow (name : String) (rank : Fin (2^8)) : MemberRow := ⟨rank,fun _ => 0,name,80,1⟩

/-- Five ranks, the leader in the first and a member in a sixth one. -/
def sixthRankRows : GuildRows where
  guildid := 1
  leaderguid := 1
  bankMoney := 0
  tabCount := 0
  ranks := ((((OrderedMap.empty.insert 0 (rankRow "Guild Master")).insert 1 (rankRow "Officer")).insert 2
    (rankRow "Veteran")).insert 3 (rankRow "Member")).insert 4 (rankRow "Initiate")
  members := (OrderedMap.empty.insert 1 (memberRow "Leader" 0)).insert 2 (memberRow "Second" 5)
  bankRights := []

theorem perm_refl_entries (ms : OrderedMap Nat Member) : ms.entries.Perm ms.entries := .refl _

def byGuid : Traversal := ⟨OrderedMap.entries,perm_refl_entries⟩

def sixthRankValidated : Bool × State :=
  State.validate ⟨Guild.load sixthRankRows,fun _ => none,false⟩ byGuid defaultNames false

theorem sixth_rank_stays : ¬ ∀ (rows : GuildRows) (characters : Nat → Option Character)
    (t : Traversal) (names : DefaultNames) (allow : Bool) (s' : State),
    (Guild.load rows).members.size ≠ 0 →
    State.validate ⟨Guild.load rows,characters,false⟩ t names allow = (true,s') →
    Repaired allow s'.guild := by
  intro h
  have hrep := h sixthRankRows (fun _ => none) byGuid defaultNames false sixthRankValidated.2
    (by decide +kernel) (Prod.ext (by decide +kernel) rfl)
  have hsecond : (sixthRankValidated.2.guild.members.find? 2).map (·.rankId) = some 5 := by
    decide +kernel
  obtain ⟨m,hm,hrank⟩ := Option.map_eq_some_iff.mp hsecond
  have hlt := hrep.ranked 2 m hm
  have hlen : sixthRankValidated.2.guild.ranks.length = 5 := by decide +kernel
  omega

end Repair

end TrinityCore.Guilds
