import TrinityCore.DungeonFinding.Announcement
import TrinityCore.Lib.Run

set_option autoImplicit false

/-!
Votes to kick a member out of a group of the dungeon finder. The votes are a map that is made when
the vote begins; to read it for somebody who joined later makes an entry, which says no.
`Player::RemoveFromGroup` is an input: it works on the groups of the world, whose scripts change
the data kept here.
-/

namespace TrinityCore.Lfg

def timeBoot : Nat := 120

def groupKickVotesNeeded : Nat := 3

/-- The cast of a boolean to `LfgAnswer`. -/
def lfgAnswer (accept : Bool) : LfgAnswer := if accept then .agree else .deny

theorem lfgAnswer_ne_pending (accept : Bool) : lfgAnswer accept ≠ .pending := by
  cases accept <;> decide

section Model

variable (w : World)

/-- The victim votes no and the kicker yes. Votes of an earlier vote that is still there stay. -/
def initBoot (gguid kicker victim : Nat) (m : LFGMgr) : LFGMgr :=
  let players := OrderedSet.elems (m.stores.groups gguid).players
  let m := (m.setState gguid .boot).setStates players .boot
  let old := ((m.bootsStore.find? gguid).map (·.votes)).getD .empty
  let votes := players.foldl (fun votes guid => votes.insert guid .pending) old
  let boot : LfgPlayerBoot :=
    { cancelTime := w.now+timeBoot, inProgress := true, victim := victim
      votes := (votes.insert victim .deny).insert kicker .agree }
  { m with bootsStore := m.bootsStore.insert gguid boot }

def LFGMgr.decreaseKicksLeft (gguid : Nat) (m : LFGMgr) : LFGMgr :=
  let data := m.stores.groups gguid
  { m with stores := { m.stores with
      groups := Function.update m.stores.groups gguid { data with kicksLeft := data.kicksLeft-1 } } }

variable (removeFromGroup : Nat → Nat → LFGMgr → LFGMgr)

def finishBoot (gguid : Nat) (boot : LfgPlayerBoot) (passed : Bool) (m : LFGMgr) : LFGMgr :=
  let m := (m.setStates (boot.votes.keys.filter (· ≠ boot.victim)) .dungeon).setState gguid .dungeon
  let m := if passed then (removeFromGroup gguid boot.victim m).decreaseKicksLeft gguid else m
  { m with bootsStore := m.bootsStore.erase gguid }

def updateBoot (guid : Nat) (accept : Bool) (m : LFGMgr) : LFGMgr × Option Nat :=
  let gguid := (m.stores.players guid).group
  if gguid = 0 then (m,none)
  else match m.bootsStore.find? gguid with
    | none => (m,none)
    | some boot =>
      match boot.votes.find? guid with
      | none =>
        let boot := { boot with votes := boot.votes.insert guid .deny }
        ({ m with bootsStore := m.bootsStore.insert gguid boot },none)
      | some .pending =>
        let boot := { boot with votes := boot.votes.insert guid (lfgAnswer accept) }
        let votesNum : Nat := boot.votes.values.countP (· ≠ .pending) % 256
        let agreeNum : Nat := boot.votes.values.countP (· = .agree) % 256
        if agreeNum < groupKickVotesNeeded ∧ (votesNum : Int)-agreeNum < groupKickVotesNeeded then
          ({ m with bootsStore := m.bootsStore.insert gguid boot },none)
        else
          let passed := agreeNum == groupKickVotesNeeded
          (finishBoot removeFromGroup gguid boot passed m,if passed then some boot.victim else none)
      | some _ => (m,none)

end Model

section Calls

/-- An answer of somebody who is in the group when he answers. What is kept about players and groups
may have changed since the answer before. -/
structure BootCall (gguid : Nat) where
  stores : Stores
  guid : Nat
  accept : Bool
  inGroup : (stores.players guid).group = gguid

/-- A vote: the dungeon finder, and the player who has been removed. -/
structure BootVote where
  mgr : LFGMgr
  removed : Option Nat

variable {gguid : Nat} (removeFromGroup : Nat → Nat → LFGMgr → LFGMgr)

def BootVote.step (v : BootVote) (c : BootCall gguid) : BootVote :=
  let after := updateBoot removeFromGroup c.guid c.accept { v.mgr with stores := c.stores }
  ⟨after.1,v.removed.or after.2⟩

def firstAnswer (calls : List (BootCall gguid)) (guid : Nat) : Option Bool :=
  (calls.find? (·.guid = guid)).map (·.accept)

def bootAnswer (kicker victim : Nat) (calls : List (BootCall gguid)) (guid : Nat) : LfgAnswer :=
  if guid = kicker then .agree
  else if guid = victim then .deny
  else ((firstAnswer calls guid).map lfgAnswer).getD .pending

def voters (members : Finset Nat) (kicker victim : Nat) (answer : LfgAnswer)
    (calls : List (BootCall gguid)) : Finset Nat :=
  members.filter fun guid => bootAnswer kicker victim calls guid = answer

def Passed (members : Finset Nat) (kicker victim : Nat) (calls : List (BootCall gguid)) : Prop :=
  ∃ pre, pre <+: calls ∧ groupKickVotesNeeded ≤ (voters members kicker victim .agree pre).card ∧
    (voters members kicker victim .deny pre).card < groupKickVotesNeeded

end Calls

section Answers

variable {gguid kicker victim guid : Nat} {members : Finset Nat} {calls calls' : List (BootCall gguid)}
  {c : BootCall gguid} {answer : LfgAnswer}

theorem firstAnswer_append (calls calls' : List (BootCall gguid)) (guid : Nat) :
    firstAnswer (calls ++ calls') guid = (firstAnswer calls guid).or (firstAnswer calls' guid) := by
  unfold firstAnswer
  rw [List.find?_append]
  cases calls.find? (·.guid = guid) <;> rfl

theorem bootAnswer_append (h : bootAnswer kicker victim calls guid ≠ .pending) :
    bootAnswer kicker victim (calls ++ calls') guid = bootAnswer kicker victim calls guid := by
  unfold bootAnswer at h ⊢
  split_ifs at h ⊢
  · rfl
  · rfl
  · rw [firstAnswer_append]
    cases hfirst : firstAnswer calls guid with
    | none => rw [hfirst] at h; exact absurd rfl h
    | some accept => rfl

theorem bootAnswer_concat : bootAnswer kicker victim (calls ++ [c]) guid =
    if guid = c.guid ∧ bootAnswer kicker victim calls guid = .pending then
      lfgAnswer c.accept
    else bootAnswer kicker victim calls guid := by
  by_cases hpending : bootAnswer kicker victim calls guid = .pending
  · have hfirst : firstAnswer calls guid = none ∧ guid ≠ kicker ∧ guid ≠ victim := by
      unfold bootAnswer at hpending
      split_ifs at hpending with hkicker hvictim
      cases h : firstAnswer calls guid with
      | none => exact ⟨rfl,hkicker,hvictim⟩
      | some accept =>
        rw [h] at hpending
        exact absurd hpending (lfgAnswer_ne_pending accept)
    obtain ⟨hnone,hkicker,hvictim⟩ := hfirst
    simp only [hpending,and_true]
    unfold bootAnswer
    rw [if_neg hkicker,if_neg hvictim,firstAnswer_append,hnone,Option.none_or]
    unfold firstAnswer
    by_cases hguid : guid = c.guid
    · subst hguid
      simp
    · simp [hguid,Ne.symm hguid]
  · rw [bootAnswer_append hpending,if_neg fun h => hpending h.2]

theorem voters_append (hanswer : answer ≠ .pending) :
    voters members kicker victim answer calls ⊆ voters members kicker victim answer (calls ++ calls') := by
  intro guid hguid
  obtain ⟨hmem,heq⟩ := Finset.mem_filter.mp hguid
  exact Finset.mem_filter.mpr ⟨hmem,(bootAnswer_append (heq ▸ hanswer)).trans heq⟩

theorem card_voters_concat : (voters members kicker victim answer (calls ++ [c])).card ≤
    (voters members kicker victim answer calls).card+1 := by
  have hsub : voters members kicker victim answer (calls ++ [c]) ⊆
      insert c.guid (voters members kicker victim answer calls) := by
    intro guid hguid
    obtain ⟨hmem,heq⟩ := Finset.mem_filter.mp hguid
    rw [bootAnswer_concat] at heq
    by_cases hnew : guid = c.guid ∧ bootAnswer kicker victim calls guid = .pending
    · exact Finset.mem_insert.mpr (.inl hnew.1)
    · rw [if_neg hnew] at heq
      exact Finset.mem_insert_of_mem (Finset.mem_filter.mpr ⟨hmem,heq⟩)
  exact (Finset.card_le_card hsub).trans (Finset.card_insert_le _ _)

theorem voters_concat_of_ne (hne : lfgAnswer c.accept ≠ answer)
    (hanswer : answer ≠ .pending) :
    voters members kicker victim answer (calls ++ [c]) = voters members kicker victim answer calls := by
  refine Finset.filter_congr fun guid _ => ?_
  rw [bootAnswer_concat]
  by_cases hnew : guid = c.guid ∧ bootAnswer kicker victim calls guid = .pending
  · rw [if_pos hnew,hnew.2]
    exact iff_of_false hne hanswer.symm
  · rw [if_neg hnew]

theorem passed_concat : Passed members kicker victim (calls ++ [c]) ↔
    Passed members kicker victim calls ∨
      groupKickVotesNeeded ≤ (voters members kicker victim .agree (calls ++ [c])).card ∧
      (voters members kicker victim .deny (calls ++ [c])).card < groupKickVotesNeeded := by
  constructor
  · rintro ⟨pre,hpre,hvotes⟩
    rcases List.prefix_concat_iff.mp hpre with rfl | hpre
    · exact .inr hvotes
    · exact .inl ⟨pre,hpre,hvotes⟩
  · rintro (⟨pre,hpre,hvotes⟩ | hvotes)
    · exact ⟨pre,hpre.trans (List.prefix_append calls [c]),hvotes⟩
    · exact ⟨_,List.prefix_rfl,hvotes⟩

theorem card_voters_of_prefix {pre : List (BootCall gguid)} (hpre : pre <+: calls)
    (hanswer : answer ≠ .pending) : (voters members kicker victim answer pre).card ≤
      (voters members kicker victim answer calls).card := by
  obtain ⟨post,rfl⟩ := hpre
  exact Finset.card_le_card (voters_append hanswer)

end Answers

section Vote

variable {w : World} {gguid kicker victim : Nat} {members : Finset Nat}
  {calls : List (BootCall gguid)} {c : BootCall gguid} {v : BootVote}
  {votes : OrderedMap Nat LfgAnswer} {removeFromGroup : Nat → Nat → LFGMgr → LFGMgr}

/-- The votes are the first answers of the members. -/
def Recorded (members : Finset Nat) (kicker victim : Nat) (calls : List (BootCall gguid))
    (votes : OrderedMap Nat LfgAnswer) : Prop :=
  ∀ guid, votes.find? guid =
    if guid ∈ members then some (bootAnswer kicker victim calls guid) else none

theorem Recorded.agreeNum (h : Recorded members kicker victim calls votes) :
    votes.values.countP (· = .agree) = (voters members kicker victim .agree calls).card := by
  rw [OrderedMap.countP_of_find h]
  simp only [decide_eq_true_eq]
  rfl

theorem Recorded.votesNum (h : Recorded members kicker victim calls votes) :
    votes.values.countP (· ≠ .pending) = (voters members kicker victim .agree calls).card+
      (voters members kicker victim .deny calls).card := by
  have hdisjoint : Disjoint (voters members kicker victim .agree calls)
      (voters members kicker victim .deny calls) := by
    refine Finset.disjoint_filter.mpr fun guid _ hagree hdeny => ?_
    rw [hagree] at hdeny
    cases hdeny
  rw [OrderedMap.countP_of_find h,← Finset.card_union_of_disjoint hdisjoint]
  congr 1
  ext guid
  simp only [decide_eq_true_eq,voters,Finset.mem_union,Finset.mem_filter,← and_or_left]
  cases bootAnswer kicker victim calls guid <;> simp

/-- Before three members agree on an answer the votes are recorded, and then the vote is over. -/
structure BootInv (members : Finset Nat) (kicker victim : Nat) (calls : List (BootCall gguid))
    (v : BootVote) : Prop where
  running : (voters members kicker victim .agree calls).card < groupKickVotesNeeded →
    (voters members kicker victim .deny calls).card < groupKickVotesNeeded →
    v.removed = none ∧ ∃ boot, v.mgr.bootsStore.find? gguid = some boot ∧ boot.victim = victim ∧
      Recorded members kicker victim calls boot.votes
  ended : groupKickVotesNeeded ≤ (voters members kicker victim .agree calls).card ∨
    groupKickVotesNeeded ≤ (voters members kicker victim .deny calls).card →
    v.mgr.bootsStore.find? gguid = none ∧
      (v.removed = some victim ↔ Passed members kicker victim calls)

/-- The answer is from somebody who was in the group when the vote began, or there is no vote. -/
def BootCall.Asked (members : Finset Nat) (v : BootVote) (c : BootCall gguid) : Prop :=
  (v.mgr.bootsStore.find? gguid).isSome → c.guid ∈ members

theorem step_none (hnone : v.mgr.bootsStore.find? gguid = none) :
    v.step removeFromGroup c = ⟨{ v.mgr with stores := c.stores },v.removed⟩ := by
  have hcall : updateBoot removeFromGroup c.guid c.accept { v.mgr with stores := c.stores } =
      ({ v.mgr with stores := c.stores },none) := by
    unfold updateBoot
    simp only [c.inGroup,hnone]
    split_ifs <;> rfl
  simp only [BootVote.step,hcall,Option.or_none]

theorem step_voteless {boot : LfgPlayerBoot} (hboot : v.mgr.bootsStore.find? gguid = some boot)
    (hgguid : gguid ≠ 0) {answer : LfgAnswer} (hvote : boot.votes.find? c.guid = some answer)
    (hanswer : answer ≠ .pending) :
    v.step removeFromGroup c = ⟨{ v.mgr with stores := c.stores },v.removed⟩ := by
  have hcall : updateBoot removeFromGroup c.guid c.accept { v.mgr with stores := c.stores } =
      ({ v.mgr with stores := c.stores },none) := by
    unfold updateBoot
    cases answer with
    | pending => exact absurd rfl hanswer
    | _ => simp only [c.inGroup,if_neg hgguid,hboot,hvote]
  simp only [BootVote.step,hcall,Option.or_none]

theorem BootInv.step_ended (h : BootInv members kicker victim calls v)
    (hended : groupKickVotesNeeded ≤ (voters members kicker victim .agree calls).card ∨
      groupKickVotesNeeded ≤ (voters members kicker victim .deny calls).card) :
    BootInv members kicker victim (calls ++ [c]) (v.step removeFromGroup c) := by
  obtain ⟨hnone,hremoved⟩ := h.ended hended
  rw [step_none hnone]
  have hyes : (voters members kicker victim .agree calls).card ≤
      (voters members kicker victim .agree (calls ++ [c])).card :=
    card_voters_of_prefix (List.prefix_append calls [c]) (by decide)
  have hno : (voters members kicker victim .deny calls).card ≤
      (voters members kicker victim .deny (calls ++ [c])).card :=
    card_voters_of_prefix (List.prefix_append calls [c]) (by decide)
  refine ⟨fun hyes' hno' => ?_,fun _ => ⟨hnone,hremoved.trans ?_⟩⟩
  · omega
  · rw [passed_concat,or_iff_left_of_imp]
    rintro ⟨-,hfew⟩
    exact ⟨calls,List.prefix_rfl,by omega,by omega⟩

theorem step_pending (removeFromGroup : Nat → Nat → LFGMgr → LFGMgr) {boot : LfgPlayerBoot}
    (hboot : v.mgr.bootsStore.find? gguid = some boot)
    (hgguid : gguid ≠ 0) (hremoved : v.removed = none)
    (hvote : boot.votes.find? c.guid = some .pending)
    (hrecorded : Recorded members kicker victim (calls ++ [c])
      (boot.votes.insert c.guid (lfgAnswer c.accept)))
    (hyes : (voters members kicker victim .agree (calls ++ [c])).card ≤ groupKickVotesNeeded)
    (hno : (voters members kicker victim .deny (calls ++ [c])).card ≤ groupKickVotesNeeded) :
    if (voters members kicker victim .agree (calls ++ [c])).card < groupKickVotesNeeded ∧
        (voters members kicker victim .deny (calls ++ [c])).card < groupKickVotesNeeded then
      (v.step removeFromGroup c).removed = none ∧
      (v.step removeFromGroup c).mgr.bootsStore.find? gguid =
        some { boot with votes := boot.votes.insert c.guid (lfgAnswer c.accept) }
    else
      (v.step removeFromGroup c).mgr.bootsStore.find? gguid = none ∧
      (v.step removeFromGroup c).removed =
        if (voters members kicker victim .agree (calls ++ [c])).card = groupKickVotesNeeded then
          some boot.victim else none := by
  have hagree := hrecorded.agreeNum
  have hvotes := hrecorded.votesNum
  generalize (voters members kicker victim .agree (calls ++ [c])).card = yes at *
  generalize (voters members kicker victim .deny (calls ++ [c])).card = no at *
  have hyes' : yes % 256 = yes := Nat.mod_eq_of_lt (lt_of_le_of_lt hyes (by decide))
  have hsum : (yes+no) % 256 = yes+no :=
    Nat.mod_eq_of_lt (lt_of_le_of_lt (Nat.add_le_add hyes hno) (by decide))
  have hiff : yes < groupKickVotesNeeded ∧ ((yes+no : Nat) : Int)-yes < groupKickVotesNeeded ↔
      yes < groupKickVotesNeeded ∧ no < groupKickVotesNeeded := by omega
  simp only [BootVote.step,updateBoot,c.inGroup,if_neg hgguid,hboot,hvote,hremoved,Option.none_or]
  rw [hagree,hvotes,hyes',hsum]
  by_cases henough : yes < groupKickVotesNeeded ∧ no < groupKickVotesNeeded
  · rw [if_pos henough,if_pos (hiff.mpr henough)]
    exact ⟨rfl,OrderedMap.find?_insert.trans (if_pos rfl)⟩
  · rw [if_neg henough,if_neg (mt hiff.mp henough)]
    refine ⟨OrderedMap.find?_erase.trans (if_pos rfl),?_⟩
    simp only [beq_iff_eq]

theorem BootInv.step (h : BootInv members kicker victim calls v) (hgguid : gguid ≠ 0)
    (hasked : c.Asked members v) :
    BootInv members kicker victim (calls ++ [c]) (v.step removeFromGroup c) := by
  by_cases hended : groupKickVotesNeeded ≤ (voters members kicker victim .agree calls).card ∨
      groupKickVotesNeeded ≤ (voters members kicker victim .deny calls).card
  · exact h.step_ended hended
  simp only [not_or,Nat.not_le] at hended
  obtain ⟨hremoved,boot,hboot,hvictim,hrecorded⟩ := h.running hended.1 hended.2
  have hmember : c.guid ∈ members := hasked (by rw [hboot]; rfl)
  have hvote : boot.votes.find? c.guid = some (bootAnswer kicker victim calls c.guid) := by
    rw [hrecorded,if_pos hmember]
  by_cases hpending : bootAnswer kicker victim calls c.guid = .pending
  · rw [hpending] at hvote
    have hnext : Recorded members kicker victim (calls ++ [c])
        (boot.votes.insert c.guid (lfgAnswer c.accept)) := by
      intro guid
      rw [OrderedMap.find?_insert]
      by_cases hguid : guid = c.guid
      · subst hguid
        rw [if_pos rfl,if_pos hmember,bootAnswer_concat,if_pos ⟨rfl,hpending⟩]
      · have hother : bootAnswer kicker victim (calls ++ [c]) guid =
            bootAnswer kicker victim calls guid := by
          rw [bootAnswer_concat,if_neg fun hnew => hguid hnew.1]
        rw [if_neg hguid,hrecorded,hother]
    have hyes : (voters members kicker victim .agree (calls ++ [c])).card ≤ groupKickVotesNeeded :=
      card_voters_concat.trans hended.1
    have hno : (voters members kicker victim .deny (calls ++ [c])).card ≤ groupKickVotesNeeded :=
      card_voters_concat.trans hended.2
    have hstep := step_pending removeFromGroup hboot hgguid hremoved hvote hnext hyes hno
    refine ⟨fun hyes' hno' => ?_,fun hended' => ?_⟩
    · rw [if_pos ⟨hyes',hno'⟩] at hstep
      exact ⟨hstep.1,_,hstep.2,hvictim,hnext⟩
    · rw [if_neg (by omega)] at hstep
      refine ⟨hstep.1,?_⟩
      have hnotyet : ¬ Passed members kicker victim calls := by
        rintro ⟨pre,hpre,hmany,-⟩
        have hle : (voters members kicker victim .agree pre).card ≤
            (voters members kicker victim .agree calls).card :=
          card_voters_of_prefix hpre (by decide)
        omega
      rw [hstep.2,hvictim,passed_concat,or_iff_right hnotyet]
      cases haccept : c.accept with
      | true =>
        have hsame : voters members kicker victim .deny (calls ++ [c]) =
            voters members kicker victim .deny calls :=
          voters_concat_of_ne (by rw [haccept]; decide) (by decide)
        rw [hsame] at hended' ⊢
        split_ifs with heq <;> simp <;> omega
      | false =>
        have hsame : voters members kicker victim .agree (calls ++ [c]) =
            voters members kicker victim .agree calls :=
          voters_concat_of_ne (by rw [haccept]; decide) (by decide)
        rw [hsame]
        split_ifs with heq <;> simp <;> omega
  · rw [step_voteless hboot hgguid hvote hpending]
    have hsame : ∀ guid, bootAnswer kicker victim (calls ++ [c]) guid =
        bootAnswer kicker victim calls guid := by
      intro guid
      rw [bootAnswer_concat,if_neg]
      rintro ⟨rfl,hguid⟩
      exact hpending hguid
    have hvoters : ∀ answer, voters members kicker victim answer (calls ++ [c]) =
        voters members kicker victim answer calls := fun answer => by
      simp only [voters,hsame]
    refine ⟨fun _ _ => ⟨hremoved,boot,hboot,hvictim,fun guid => ?_⟩,fun hended' => ?_⟩
    · rw [hrecorded,hsame]
    · rw [hvoters,hvoters] at hended'
      omega

theorem find?_pendings (players : List Nat) (votes : OrderedMap Nat LfgAnswer) (guid : Nat) :
    (players.foldl (fun votes guid => votes.insert guid .pending) votes).find? guid =
      if guid ∈ players then some .pending else votes.find? guid := by
  induction players generalizing votes with
  | nil => simp
  | cons g players ih =>
    rw [List.foldl_cons,ih,OrderedMap.find?_insert]
    by_cases hg : guid = g <;> by_cases hmem : guid ∈ players <;> simp [hg,hmem]

/-- Those who are asked: the group when the vote begins, its kicker and its victim. -/
def bootMembers (gguid kicker victim : Nat) (m : LFGMgr) : Finset Nat :=
  insert kicker (insert victim (m.stores.groups gguid).players)

theorem bootInv_start (w : World) {m : LFGMgr} (hfree : m.bootsStore.find? gguid = none) :
    BootInv (bootMembers gguid kicker victim m) kicker victim ([] : List (BootCall gguid))
      ⟨initBoot w gguid kicker victim m,none⟩ := by
  have hanswer : ∀ guid, bootAnswer kicker victim ([] : List (BootCall gguid)) guid =
      if guid = kicker then .agree else if guid = victim then .deny else .pending := fun guid => rfl
  have hyes : (voters (bootMembers gguid kicker victim m) kicker victim .agree
      ([] : List (BootCall gguid))).card ≤ 1 := by
    refine Finset.card_le_one_iff_subset_singleton.mpr ⟨kicker,fun guid hguid => ?_⟩
    have heq := (Finset.mem_filter.mp hguid).2
    rw [hanswer] at heq
    split_ifs at heq with hkicker
    exact Finset.mem_singleton.mpr hkicker
  have hno : (voters (bootMembers gguid kicker victim m) kicker victim .deny
      ([] : List (BootCall gguid))).card ≤ 1 := by
    refine Finset.card_le_one_iff_subset_singleton.mpr ⟨victim,fun guid hguid => ?_⟩
    have heq := (Finset.mem_filter.mp hguid).2
    rw [hanswer] at heq
    split_ifs at heq with hkicker hvictim
    exact Finset.mem_singleton.mpr hvictim
  refine ⟨fun _ _ => ⟨rfl,_,OrderedMap.find?_insert.trans (if_pos rfl),rfl,fun guid => ?_⟩,
    fun hended => ?_⟩
  · simp only [LFGMgr.setStates,LFGMgr.setState,hfree,Option.map_none,Option.getD_none]
    rw [OrderedMap.find?_insert,OrderedMap.find?_insert,find?_pendings,hanswer]
    simp only [bootMembers,Finset.mem_insert,OrderedSet.mem_elems,OrderedMap.find?_empty]
    by_cases hkicker : guid = kicker
    · simp [hkicker]
    · by_cases hvictim : guid = victim
      · subst hvictim
        simp [hkicker]
      · simp [hkicker,hvictim]
  · unfold groupKickVotesNeeded at hended
    omega

theorem BootInv.exec (h : BootInv members kicker victim calls v) (hgguid : gguid ≠ 0)
    {calls' : List (BootCall gguid)}
    (hcalls : Run.Guarded (BootVote.step removeFromGroup) (fun v c => c.Asked members v) v calls') :
    BootInv members kicker victim (calls ++ calls')
      (Run.exec (BootVote.step removeFromGroup) v calls') := by
  induction calls' generalizing calls v with
  | nil => rwa [List.append_nil]
  | cons c calls' ih =>
    obtain ⟨hasked,hrest⟩ := hcalls
    rw [List.append_cons]
    exact ih (h.step hgguid hasked) hrest

/-- In every vote in which only members answer who were in the group when it began, the victim is
removed if and only if three of them have said yes before three have said no. The first answer of
each member is recorded, and nothing else. -/
theorem boot_run (w : World) (removeFromGroup : Nat → Nat → LFGMgr → LFGMgr) (m : LFGMgr)
    (gguid kicker victim : Nat) (hgguid : gguid ≠ 0) (hfree : m.bootsStore.find? gguid = none)
    (calls : List (BootCall gguid))
    (hcalls : Run.Guarded (BootVote.step removeFromGroup)
      (fun v c => c.Asked (bootMembers gguid kicker victim m) v)
      ⟨initBoot w gguid kicker victim m,none⟩ calls) :
    let members := bootMembers gguid kicker victim m
    let v := Run.exec (BootVote.step removeFromGroup) ⟨initBoot w gguid kicker victim m,none⟩ calls
    (v.removed = some victim ↔ Passed members kicker victim calls) ∧
    (∀ boot, v.mgr.bootsStore.find? gguid = some boot →
      Recorded members kicker victim calls boot.votes) ∧
    ∀ c : BootCall gguid, c.Asked members v →
      (∀ boot, v.mgr.bootsStore.find? gguid = some boot →
        boot.votes.find? c.guid ≠ some .pending) →
      (v.step removeFromGroup c).mgr.bootsStore = v.mgr.bootsStore := by
  intro members v
  have hinv : BootInv members kicker victim calls v :=
    (bootInv_start w hfree).exec hgguid hcalls
  by_cases hended : groupKickVotesNeeded ≤ (voters members kicker victim .agree calls).card ∨
      groupKickVotesNeeded ≤ (voters members kicker victim .deny calls).card
  · obtain ⟨hnone,hremoved⟩ := hinv.ended hended
    refine ⟨hremoved,fun boot hboot => ?_,fun c _ _ => by rw [step_none hnone]⟩
    rw [hnone] at hboot
    cases hboot
  · simp only [not_or,Nat.not_le] at hended
    obtain ⟨hremoved,boot,hboot,-,hrecorded⟩ := hinv.running hended.1 hended.2
    refine ⟨?_,fun boot' hboot' => ?_,fun c hasked hvoteless => ?_⟩
    · rw [hremoved]
      refine iff_of_false (by simp) ?_
      rintro ⟨pre,hpre,hmany,-⟩
      have hle : (voters members kicker victim .agree pre).card ≤
          (voters members kicker victim .agree calls).card :=
        card_voters_of_prefix hpre (by decide)
      omega
    · obtain rfl : boot = boot' := Option.some.inj (hboot.symm.trans hboot')
      exact hrecorded
    · have hvote : boot.votes.find? c.guid = some (bootAnswer kicker victim calls c.guid) := by
        rw [hrecorded,if_pos (hasked (by rw [hboot]; rfl))]
      have hanswer : bootAnswer kicker victim calls c.guid ≠ .pending := by
        intro hpending
        exact hvoteless boot hboot (by rw [hvote,hpending])
      rw [step_voteless hboot hgguid hvote hanswer]

def votersGuid : Nat := 0x1F50*2^48+1

def votersRealm : LFGMgr := { LFGMgr.initial with
  stores := { Stores.initial with
    players := fun _ => { LfgPlayerData.initial with group := votersGuid }
    groups := fun _ => { LfgGroupData.initial with players := {1,2,3,4,5} } } }

def answerOf (guid : Nat) (accept : Bool) : BootCall votersGuid :=
  ⟨votersRealm.stores,guid,accept,rfl⟩

theorem boot_run_passed :
    let v := Run.exec (BootVote.step fun _ _ m => m)
      ⟨initBoot openWorld votersGuid 1 5 votersRealm,none⟩ [answerOf 2 true,answerOf 3 true]
    v.removed = some 5 := by
  have hcalls : Run.Guarded (BootVote.step fun _ _ m => m)
      (fun v c => c.Asked (bootMembers votersGuid 1 5 votersRealm) v)
      ⟨initBoot openWorld votersGuid 1 5 votersRealm,none⟩ [answerOf 2 true,answerOf 3 true] :=
    ⟨fun _ => by decide,fun _ => by decide,trivial⟩
  exact (boot_run openWorld (fun _ _ m => m) votersRealm votersGuid 1 5 (by decide) rfl _
    hcalls).1.mpr ⟨_,List.prefix_rfl,by decide,by decide⟩

/-- Player 6, who joined during the vote, says yes and is counted for no: with the no of player 2
the vote is over, although two more say yes. -/
theorem late_vote_counted : ¬ ∀ (w : World) (removeFromGroup : Nat → Nat → LFGMgr → LFGMgr)
    (m : LFGMgr) (gguid kicker victim : Nat), gguid ≠ 0 → kicker ≠ victim →
    m.bootsStore.find? gguid = none → ∀ calls : List (BootCall gguid),
    ((Run.exec (BootVote.step removeFromGroup) ⟨initBoot w gguid kicker victim m,none⟩
      calls).removed = some victim ↔
      Passed (bootMembers gguid kicker victim m) kicker victim calls) := by
  intro h
  have hiff := h openWorld (fun _ _ m => m) votersRealm votersGuid 1 5 (by decide) (by decide) rfl
    [answerOf 6 true,answerOf 2 false,answerOf 3 true,answerOf 4 true]
  have hremoved := hiff.mpr ⟨_,List.prefix_rfl,by decide,by decide⟩
  revert hremoved
  decide +kernel

end Vote

end TrinityCore.Lfg
