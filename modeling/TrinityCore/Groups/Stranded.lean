import TrinityCore.Groups.Votes

set_option autoImplicit false

namespace TrinityCore.Groups

namespace Roll

variable {r : Roll} {guid : Nat}

/-- A roll without the vote of a player, if he had one. -/
def left (guid : Nat) (r : Roll) : Roll :=
  match r.playerVote.find? guid with
  | none => r
  | some v => r.withdraw guid v

@[simp] theorem left_itemGUID : (r.left guid).itemGUID = r.itemGUID := by
  unfold left
  split <;> rfl

theorem left_find {k : Nat} : (r.left guid).playerVote.find? k =
    if k = guid then none else r.playerVote.find? k := by
  unfold left
  split
  · rename_i hnone
    split_ifs with hk
    · rw [hk,hnone]
    · rfl
  · exact OrderedMap.find?_erase

def Awaits (r : Roll) (guid : Nat) : Prop :=
  ∃ k, k ≠ guid ∧ r.playerVote.find? k = some .notEmitedYet

theorem not_complete_iff : ¬ r.Complete ↔ ∃ k, r.playerVote.find? k = some .notEmitedYet := by
  unfold Complete
  push Not
  constructor
  · rintro ⟨v,hv,rfl⟩
    exact OrderedMap.mem_values.mp hv
  · rintro ⟨k,hk⟩
    exact ⟨_,OrderedMap.mem_values.mpr ⟨k,hk⟩,rfl⟩

theorem not_complete_left : ¬ (r.left guid).Complete ↔ r.Awaits guid := by
  rw [not_complete_iff]
  constructor
  · rintro ⟨k,hk⟩
    rw [left_find] at hk
    split_ifs at hk with hne
    exact ⟨k,hne,hk⟩
  · rintro ⟨k,hne,hk⟩
    exact ⟨k,by rw [left_find,if_neg hne]; exact hk⟩

end Roll

namespace Looting

variable {s : Looting} {w : World} {guid : Nat}

def Distinct (s : Looting) : Prop := s.rollId.Pairwise fun a b => a.itemGUID ≠ b.itemGUID

theorem Distinct.of_map {s' : Looting} (h : s.Distinct)
    (hmap : s'.rollId.map Roll.itemGUID = s.rollId.map Roll.itemGUID) : s'.Distinct := by
  have hnd : (s.rollId.map Roll.itemGUID).Nodup := List.pairwise_map.mpr h
  rw [← hmap] at hnd
  exact List.pairwise_map.mp hnd

theorem removeVote_eq (h : s.Distinct) (i : Nat) :
    s.removeVote w guid i = { s with rollId := s.rollId.modify i (Roll.left guid) } := by
  unfold removeVote
  cases hr : s.rollId[i]? with
  | none =>
    rw [List.getElem?_eq_none_iff] at hr
    simp only [List.modify_eq_self hr]
  | some r =>
    dsimp only
    have hset : ∀ r', r.left guid = r' →
        s.rollId.modify i (Roll.left guid) = s.rollId.set i r' := by
      rintro r' rfl
      rw [List.modify_eq_set_getElem?,hr]
      rfl
    cases hv : r.playerVote.find? guid with
    | none =>
      have hsame : r.left guid = r := by simp [Roll.left,hv]
      have hid : s.rollId.set i r = s.rollId := by
        obtain ⟨hlt,rfl⟩ := List.getElem?_eq_some_iff.mp hr
        exact List.set_getElem_self hlt
      simp only [hset r hsame,hid]
    | some v =>
      have hleft : r.left guid = r.withdraw guid v := by simp [Roll.left,hv]
      simp only [countRollVote,openRoll_set_withdraw h hr,hset _ hleft]

theorem foldl_removeVote (w : World) (guid : Nat) (h : s.Distinct) (n : Nat) :
    ∃ rolls, (List.range n).foldl (removeVote w guid) s = { s with rollId := rolls } ∧
      Distinct { s with rollId := rolls } ∧
      ∀ j, rolls[j]? = if j < n then (s.rollId[j]?).map (Roll.left guid) else s.rollId[j]? := by
  induction n with
  | zero => exact ⟨s.rollId,rfl,h,by simp⟩
  | succ n ih =>
    obtain ⟨rolls,heq,hdist,hget⟩ := ih
    refine ⟨rolls.modify n (Roll.left guid),?_,?_,fun j => ?_⟩
    · rw [List.range_succ,List.foldl_append,heq]
      exact removeVote_eq hdist n
    · refine hdist.of_map ?_
      refine List.ext_getElem? fun j => ?_
      simp only [List.getElem?_map,List.getElem?_modify]
      cases rolls[j]? with
      | none => simp
      | some r => by_cases hj : n = j <;> simp [hj]
    · rw [List.getElem?_modify,hget]
      by_cases hj : n = j
      · subst hj
        simp
      · rcases Nat.lt_or_ge j n with hlt | hge
        · simp [hj,hlt,Nat.lt_succ_of_lt hlt]
        · simp [hj,Nat.not_lt.mpr hge,show ¬ j < n+1 by omega]

theorem removeVotes_eq (h : s.Distinct) (w : World) (guid : Nat) :
    s.removeVotes w guid = { s with rollId := s.rollId.map (Roll.left guid) } := by
  obtain ⟨rolls,heq,-,hget⟩ := foldl_removeVote w guid h s.rollId.length
  have hmap : rolls = s.rollId.map (Roll.left guid) := by
    refine List.ext_getElem? fun j => ?_
    rw [hget,List.getElem?_map]
    split_ifs with hj
    · rfl
    · rw [List.getElem?_eq_none (Nat.not_lt.mp hj)]
      rfl
  rw [removeVotes,heq,hmap]

end Looting

namespace Realm

variable {q : Removal} {guid : Nat} {g : Group} {db : Database} {l : Looting}

/-- The kick of a dungeon group is voted on first, and removes nobody yet. -/
def OnlyVoted (q : Removal) (g : Group) : Prop := g.isLFGGroup ∧ q.method = .kick

/-- The group goes on without the member. -/
def GoesOn (q : Removal) (guid : Nat) (g : Group) : Prop :=
  g.minMembers < g.getMembersCount ∧
    ¬ (g.isLFGGroup ∧ (g.dropMember guid).getMembersCount = 1 ∧ q.leftDungeon) ∧
    ¬ q.memberMgrSize < g.minLinked

instance : Decidable (OnlyVoted q g) := inferInstanceAs (Decidable (_ ∧ _))

instance : Decidable (GoesOn q guid g) := inferInstanceAs (Decidable (_ ∧ _))

theorem dropMember_kind (guid : Nat) (g : Group) : (g.dropMember guid).groupType = g.groupType ∧
    (g.dropMember guid).bgGroup = g.bgGroup := by
  unfold Group.dropMember
  split <;> exact ⟨rfl,rfl⟩

theorem group_pickLeader (w : World) (guid : Nat) {s : Realm} (hg : s.group = some g) :
    ∃ g', (s.pickLeader w guid).group = some g' ∧ g'.groupType = g.groupType ∧
      g'.bgGroup = g.bgGroup ∧ g'.getMembersCount = g.getMembersCount := by
  unfold pickLeader
  rw [hg]
  dsimp only
  split_ifs
  · split
    · exact ⟨g,hg,rfl,rfl,rfl⟩
    · rename_i slot _
      unfold changeLeader
      rw [hg]
      dsimp only
      by_cases hslot : (g.slot? slot.guid).isSome && w.isConnected slot.guid
      · rw [if_pos hslot]
        exact ⟨_,rfl,rfl,rfl,Tally.length_modifyFirst⟩
      · rw [if_neg hslot]
        exact ⟨g,hg,rfl,rfl,rfl⟩
  · exact ⟨g,hg,rfl,rfl,rfl⟩

theorem rollId_disbandIfSmall {s : Realm} (hg : s.group = some g) :
    (s.disbandIfSmall q).looting.rollId =
      if (g.isLFGGroup ∧ g.getMembersCount = 1 ∧ q.leftDungeon) ∨ q.memberMgrSize < g.minLinked
      then [] else s.looting.rollId := by
  unfold disbandIfSmall disband
  rw [hg]
  dsimp only
  split_ifs <;> first | rfl | tauto

theorem rollId_removeMember (h : l.Distinct) (q : Removal) (guid : Nat) (g : Group) (db : Database) :
    (removeMember q guid ⟨some g,db,l⟩).looting.rollId =
      if OnlyVoted q g then l.rollId
      else if GoesOn q guid g then l.rollId.map (Roll.left guid) else [] := by
  unfold removeMember
  dsimp only
  by_cases hvoted : OnlyVoted q g
  · rw [if_pos hvoted]
    exact congrArg (fun s : Realm => s.looting.rollId) (if_pos hvoted)
  · rw [if_neg hvoted]
    unfold OnlyVoted at hvoted
    rw [if_neg hvoted]
    by_cases hmin : g.minMembers < g.getMembersCount
    · rw [if_pos hmin]
      obtain ⟨hkind,hbg⟩ := dropMember_kind guid g
      obtain ⟨g',hg',hkind',hbg',hcount⟩ := group_pickLeader q.world guid
        (s := ⟨some (g.dropMember guid),if g.isStored then db.deleteMember guid else db,
          l.removeVotes q.world guid⟩) rfl
      have hlfg : g'.isLFGGroup = g.isLFGGroup := by
        simp [Group.isLFGGroup,hkind',hkind]
      have hlinked : g'.minLinked = g.minLinked := by
        simp [Group.minLinked,hlfg,hbg',hbg]
      rw [rollId_disbandIfSmall hg',looting_pickLeader,Looting.removeVotes_eq h,hlfg,hlinked,hcount]
      simp only [GoesOn,hmin,true_and]
      split_ifs <;> first | rfl | tauto
    · rw [if_neg hmin,if_neg (fun hgo => hmin hgo.1)]
      rfl

def NoneStranded (s : Realm) : Prop := ∀ r ∈ s.looting.rollId, ¬ r.Complete

/-- After a removal no roll is left that everybody has voted in exactly if the group ends or every
roll waits for somebody else than the member. -/
theorem noneStranded_iff (h : l.Distinct) (q : Removal) (guid : Nat) (g : Group) (db : Database) :
    NoneStranded (removeMember q guid ⟨some g,db,l⟩) ↔
      (OnlyVoted q g → ∀ r ∈ l.rollId, ¬ r.Complete) ∧
      (¬ OnlyVoted q g → GoesOn q guid g → ∀ r ∈ l.rollId, r.Awaits guid) := by
  rw [NoneStranded,rollId_removeMember h]
  split_ifs with hvoted hgo
  · simp [hvoted]
  · simp [hvoted,hgo,Roll.not_complete_left]
  · simp [hvoted,hgo]

section Example

/-- Three players who have not voted yet for the item of a loot. -/
def threeRolling : Looting := (Run.exec step start rollStarted).looting

def partyOfThree : Group := (Run.exec step start rollStarted).group.get (by decide +kernel)

end Example

theorem noneStranded_three : NoneStranded
    (removeMember ⟨quietWorld,.leave,2,false⟩ 3 ⟨some partyOfThree,.empty,threeRolling⟩) := by
  have hdistinct : threeRolling.Distinct := by
    have hone : threeRolling.rollId.length = 1 := by decide +kernel
    obtain ⟨r,hr⟩ := List.length_eq_one_iff.mp hone
    rw [Looting.Distinct,hr]
    exact List.pairwise_singleton _ _
  have hwait : threeRolling.rollId.all (fun r => r.playerVote.find? 1 = some .notEmitedYet) = true := by
    decide +kernel
  have hawaits : ∀ r ∈ threeRolling.rollId, r.Awaits 3 := fun r hr =>
    ⟨1,by decide,by simpa using List.all_eq_true.mp hwait r hr⟩
  refine (noneStranded_iff hdistinct _ 3 partyOfThree .empty).mpr
    ⟨fun _ r hr => ?_,fun _ _ => hawaits⟩
  obtain ⟨k,-,hk⟩ := hawaits r hr
  exact Roll.not_complete_iff.mpr ⟨k,hk⟩

/-- Two of three players vote, and the one who has not voted leaves: the roll stays open. -/
theorem stranded_by_third : ¬ NoneStranded (Run.exec step start (rollStarted ++
    [.countRollVote quietWorld 1 0 1,.countRollVote quietWorld 2 0 2,
      .removeMember ⟨quietWorld,.leave,2,false⟩ 3])) := by
  intro h
  have hvoted : (Run.exec step start (rollStarted ++ [.countRollVote quietWorld 1 0 1,
      .countRollVote quietWorld 2 0 2,.removeMember ⟨quietWorld,.leave,2,false⟩ 3])
      ).looting.rollId.any (fun r => r.playerVote.values.all (· ≠ .notEmitedYet)) = true := by
    decide +kernel
  obtain ⟨r,hr,hall⟩ := List.any_eq_true.mp hvoted
  exact h r hr fun v hv => by simpa using List.all_eq_true.mp hall v hv

end Realm

end TrinityCore.Groups
