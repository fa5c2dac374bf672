import TrinityCore.Guilds.Ranks

set_option autoImplicit false

namespace TrinityCore.Guilds

section Masks

def Right.index : Right → Nat
  | .gchatListen => 0
  | .gchatSpeak => 1
  | .offchatListen => 2
  | .offchatSpeak => 3
  | .invite => 4
  | .remove => 5
  | .promote => 7
  | .demote => 8
  | .setMotd => 12
  | .epnote => 13
  | .viewOffnote => 14
  | .eoffnote => 15
  | .modifyGuildInfo => 16

theorem Right.bit_eq (r : Right) : r.bit = BitVec.twoPow 32 r.index := by
  cases r <;> decide

theorem grRightEmpty_eq : grRightEmpty = BitVec.twoPow 32 6 := by decide

/-- The check of `_HasRankRight` passes with the right's own bit, and without the shared one. -/
theorem and_mask_ne (rights : BitVec 32) (r : Right) : rights &&& r.mask ≠ grRightEmpty ↔
    rights &&& r.bit ≠ 0 ∨ rights &&& grRightEmpty = 0 := by
  rw [Right.mask,BitVec.and_or_distrib_left,Right.bit_eq,grRightEmpty_eq,BitVec.and_twoPow,
    BitVec.and_twoPow]
  cases rights.getLsbD 6 <;> cases rights.getLsbD r.index <;> cases r <;> decide

end Masks

variable {s s' : State} {g : Guild} {k player : Nat} {m : Member} {e : Event}

def Entitled (g : Guild) (m : Member) (r : Right) : Prop :=
  ∃ info, g.getRankInfo m.rankId = some info ∧ info.rights &&& r.bit ≠ 0

theorem hasRankRight_iff (hm : g.getMember player = some m) (r : Right) :
    g.hasRankRight player r.mask = true ↔
      g.getRankRights m.rankId &&& r.bit ≠ 0 ∨ g.getRankRights m.rankId &&& grRightEmpty = 0 := by
  rw [Guild.hasRankRight,hm,← and_mask_ne]
  simp

/-- A right is granted as it should be exactly where the rank exists and has the right's own bit
or the shared one. -/
theorem hasRankRight_iff_entitled_iff (hm : g.getMember player = some m) (r : Right) :
    (g.hasRankRight player r.mask = true ↔ Entitled g m r) ↔
      ∃ info, g.getRankInfo m.rankId = some info ∧
        (info.rights &&& r.bit ≠ 0 ∨ info.rights &&& grRightEmpty ≠ 0) := by
  rw [hasRankRight_iff hm,Entitled,Guild.getRankRights]
  cases g.getRankInfo m.rankId with
  | none => simp
  | some info =>
    simp only [Option.some.injEq,exists_eq_left']
    tauto

def Checkable (rights : BitVec 32) : Prop :=
  rights &&& grRightEmpty ≠ 0 ∨ ∀ r : Right, rights &&& r.bit ≠ 0

/-- The leader gives a rank below his own rights that are not checkable. -/
def GivesUncheckable (s : State) (e : Event) : Prop :=
  match e.action with
  | .setRankInfo player rankId _ rights _ _ =>
    s.guild.isLeader player = true ∧ rankId ≠ grGuildmaster ∧
      (s.guild.getRankInfo rankId).isSome = true ∧ ¬ Checkable rights
  | _ => False

def AllCheckable (s : State) : Prop := ∀ info ∈ s.guild.ranks, Checkable info.rights

theorem checkable_all : Checkable grRightAll := .inl (by decide)

theorem checkable_chat : Checkable (Right.mask .gchatListen ||| Right.mask .gchatSpeak) :=
  .inl (by decide)

theorem mem_modify {rs : List RankInfo} {i : Nat} {f : RankInfo → RankInfo} {info : RankInfo}
    (h : info ∈ rs.modify i f) : info ∈ rs ∨ ∃ old, rs[i]? = some old ∧ info = f old := by
  obtain ⟨j,hj⟩ := List.mem_iff_getElem?.mp h
  rw [List.getElem?_modify] at hj
  obtain ⟨old,hold,heq⟩ := Option.map_eq_some_iff.mp hj
  split_ifs at heq with hij
  · exact .inr ⟨old,hij ▸ hold,heq.symm⟩
  · rw [← heq]
    exact .inl (List.mem_of_getElem? hold)

theorem Effect.allCheckable (h : Wf s) (hall : AllCheckable s) (he : Effect s e s')
    (hd : s'.disbanded = false) (hok : ¬ GivesUncheckable s e) : AllCheckable s' := by
  intro info hinfo
  cases he with
  | disband _ hdis => simp [hdis] at hd
  | edit player rankId name rights money tabs ha hlead =>
    rcases mem_modify hinfo with hinfo | ⟨old,hold,rfl⟩
    · exact hall info hinfo
    · rw [editRank_rights,h.numbered.rankId_eq hold]
      split_ifs with hmaster
      · exact checkable_all
      · by_contra hno
        refine hok ?_
        rw [GivesUncheckable,ha]
        exact ⟨hlead,hmaster,by rw [h.getRankInfo,hold]; rfl,hno⟩
  | addRank name hmax =>
    rw [createRank_ranks hmax,List.mem_append,List.mem_singleton] at hinfo
    rcases hinfo with hinfo | rfl
    · exact hall info hinfo
    · exact checkable_chat
  | removeRank => exact hall info (List.mem_of_mem_dropLast hinfo)
  | same => exact hall info hinfo
  | enlist => exact hall info hinfo
  | leave => exact hall info hinfo
  | succeed => exact hall info (by simpa using hinfo)
  | handOver => exact hall info (by simpa using hinfo)
  | demote => exact hall info (by simpa using hinfo)
  | promote => exact hall info (by simpa using hinfo)
  | character => exact hall info hinfo

section Run

variable {characters : Nat → Option Character} {id : NewId characters} {leader : Nat} {names : DefaultNames}
  {es : List Event}

theorem create_allCheckable (hs : create characters id leader names = some s) : AllCheckable s := by
  obtain ⟨-,-,-,hranks,-⟩ := create_spec hs
  intro info hinfo
  rw [hranks] at hinfo
  have hrights : info.rights = grRightAll ∨
      info.rights = Right.mask .gchatListen ||| Right.mask .gchatSpeak := by
    have hmem : info.rights ∈
        (createDefaultGuildRanks ⟨id.val,leader,[],.empty,0,0⟩ names).ranks.map (·.rights) :=
      List.mem_map_of_mem hinfo
    have hmap : (createDefaultGuildRanks ⟨id.val,leader,[],.empty,0,0⟩ names).ranks.map (·.rights) =
        [grRightAll,grRightAll,Right.mask .gchatListen ||| Right.mask .gchatSpeak,
          Right.mask .gchatListen ||| Right.mask .gchatSpeak,
          Right.mask .gchatListen ||| Right.mask .gchatSpeak] := rfl
    rw [hmap] at hmem
    simp only [List.mem_cons,List.not_mem_nil] at hmem
    tauto
  rcases hrights with h | h
  · rw [h]
    exact checkable_all
  · rw [h]
    exact checkable_chat

/-- Along a run that gives no rank rights without the shared bit and removes no rank of a member,
a right is granted exactly to the members whose rank has its bit. In any one state it is so
exactly where the rank exists and has the right's own bit or the shared one. -/
theorem rights_granted_exactly (hs : create characters id leader names = some s)
    (hg : Run.Guarded step (fun s e => ¬ RemovesUsedRank s e ∧ ¬ GivesUncheckable s e) s es)
    (hd : (Run.exec step s es).disbanded = false) :
    (∀ player m, (Run.exec step s es).guild.getMember player = some m → ∀ r : Right,
      ((Run.exec step s es).guild.hasRankRight player r.mask = true ↔
        Entitled (Run.exec step s es).guild m r)) ∧
    ∀ (g : Guild) (player : Nat) (m : Member), g.getMember player = some m → ∀ r : Right,
      ((g.hasRankRight player r.mask = true ↔ Entitled g m r) ↔
        ∃ info, g.getRankInfo m.rankId = some info ∧
          (info.rights &&& r.bit ≠ 0 ∨ info.rights &&& grRightEmpty ≠ 0)) := by
  refine ⟨?_,fun g player m hm r => hasRankRight_iff_entitled_iff hm r⟩
  intro player m hm r
  have hwf := run_wf hs hd
  obtain ⟨hex,hall⟩ := run_inv (P := fun s => RanksExist s ∧ AllCheckable s) hs
    (fun s s' e h hP he hd hok => ⟨he.ranksExist h hP.1 hd hok.1,he.allCheckable h hP.2 hd hok.2⟩)
    hg hd ⟨create_ranksExist hs,create_allCheckable hs⟩
  rw [hasRankRight_iff_entitled_iff hm,hwf.getRankInfo]
  have hlt := hex player m hm
  refine ⟨_,List.getElem?_eq_getElem hlt,?_⟩
  rcases hall _ (List.getElem_mem hlt) with h | h
  · exact .inr h
  · exact .inl (h r)

def initiatesMayInvite : List Event :=
  [(Action.addMember 2).event,(Action.setRankInfo 1 4 "Initiate" (Right.mask .invite) 0 []).event]

theorem rights_granted_exactly_invite :
    (Run.exec step founded initiatesMayInvite).guild.hasRankRight 2 (Right.mask .invite) = true ∧
    (Run.exec step founded initiatesMayInvite).guild.hasRankRight 2 (Right.mask .remove) = false ∧
    ∀ player m, (Run.exec step founded initiatesMayInvite).guild.getMember player = some m →
      ∀ r : Right, ((Run.exec step founded initiatesMayInvite).guild.hasRankRight player r.mask = true ↔
        Entitled (Run.exec step founded initiatesMayInvite).guild m r) := by
  have hcheck : Checkable (Right.mask .invite) := .inl (by decide)
  have hrun : Run.Guarded step (fun s e => ¬ RemovesUsedRank s e ∧ ¬ GivesUncheckable s e) founded
      initiatesMayInvite := by
    simp [initiatesMayInvite,Run.Guarded,RemovesUsedRank,GivesUncheckable,Action.event,hcheck]
  have h := rights_granted_exactly create_founded hrun (by decide +kernel)
  exact ⟨by decide +kernel,by decide +kernel,h.1⟩

/-- The rank of player 2 has lost all its rights, and player 2 may remove members. -/
theorem granted_without_rights : ¬ ∀ (characters : Nat → Option Character) (id : NewId characters)
    (leader : Nat) (names : DefaultNames) (s : State) (es : List Event),
    create characters id leader names = some s → (Run.exec step s es).disbanded = false →
    ∀ player m, (Run.exec step s es).guild.getMember player = some m → ∀ r : Right,
      ((Run.exec step s es).guild.hasRankRight player r.mask = true ↔
        Entitled (Run.exec step s es).guild m r) := by
  intro h
  let es := [(Action.addMember 2).event,(Action.setRankInfo 1 4 "Initiate" 0 0 []).event]
  have hrun := h threePlayers firstId 1 defaultNames founded es create_founded (by decide +kernel) 2
  have hrank : ((Run.exec step founded es).guild.getMember 2).map (·.rankId) = some 4 := by
    decide +kernel
  obtain ⟨m,hm,hrank⟩ := Option.map_eq_some_iff.mp hrank
  have hgranted : (Run.exec step founded es).guild.hasRankRight 2 (Right.mask .remove) = true := by
    decide +kernel
  obtain ⟨info,hinfo,hbit⟩ := (hrun m hm .remove).mp hgranted
  have hzero : ((Run.exec step founded es).guild.getRankInfo 4).map (·.rights) = some 0 := by
    decide +kernel
  rw [← hrank,hinfo] at hzero
  have hnone : info.rights = 0 := Option.some.inj hzero
  exact hbit (by rw [hnone]; decide)

end Run

end TrinityCore.Guilds
