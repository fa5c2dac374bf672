import TrinityCore.Groups.Stranded

set_option autoImplicit false

namespace TrinityCore.Groups

open Looting (isNeed isGreed)

/-- A property of single rolls that every operation on a roll keeps. -/
structure Lasting (P : Roll → Prop) : Prop where
  start : ∀ (p : Party) (s : Looting) (item : LootItem) (loot slot : Nat) (autoPass : Bool),
    P (Looting.newRoll p s item loot slot autoPass)
  mask : ∀ (r : Roll) (mask : BitVec 8), P r → P { r with rollVoteMask := mask }
  vote : ∀ (r : Roll) (guid choice : Nat), P r → (r.vote guid choice).allCounted = false →
    P (r.vote guid choice)
  left : ∀ (r : Roll) (guid : Nat), P r → P (r.left guid)

namespace Looting

variable {P : Roll → Prop} {s : Looting} {p : Party} {w : World}

structure RollInv (P : Roll → Prop) (s : Looting) : Prop where
  distinct : s.Distinct
  known : ∀ r ∈ s.rollId, r.itemGUID < s.nextItemGUID
  rolls : ∀ r ∈ s.rollId, P r

theorem RollInv.of_sublist {s' : Looting} (h : RollInv P s) (hsub : s'.rollId.Sublist s.rollId)
    (hnext : s'.nextItemGUID = s.nextItemGUID) : RollInv P s' :=
  ⟨h.distinct.sublist hsub,fun r hr => hnext ▸ h.known r (hsub.subset hr),
    fun r hr => h.rolls r (hsub.subset hr)⟩

theorem RollInv.congr {s' : Looting} (h : RollInv P s) (hsame : SameRolls s s') : RollInv P s' :=
  h.of_sublist (hsame.rollId ▸ .refl _) hsame.next

theorem joins_itemGUID (passes : Nat → Bool) (guids : List Nat) (r : Roll) :
    (guids.foldl (fun r guid => r.join guid (passes guid)) r).itemGUID = r.itemGUID := by
  induction guids generalizing r with
  | nil => rfl
  | cons guid guids ih =>
    rw [List.foldl_cons,ih]
    unfold Roll.join
    split_ifs <;> rfl

theorem newRoll_itemGUID (item : LootItem) (loot slot : Nat) (autoPass : Bool) :
    (newRoll p s item loot slot autoPass).itemGUID = s.nextItemGUID :=
  joins_itemGUID _ _ _

theorem RollInv.startRoll {r : Roll} (h : RollInv P s) (hr : P r)
    (hguid : r.itemGUID = s.nextItemGUID) : RollInv P (s.startRoll r) := by
  unfold Looting.startRoll
  dsimp only
  split_ifs
  · refine ⟨?_,fun r' hr' => ?_,fun r' hr' => ?_⟩
    · refine List.pairwise_append.mpr ⟨h.distinct,List.pairwise_singleton _ _,?_⟩
      intro a ha b hb
      have hlt := h.known a ha
      rw [List.mem_singleton.mp hb]
      omega
    · rcases List.mem_append.mp hr' with hr' | hr'
      · exact Nat.lt_succ_of_lt (h.known r' hr')
      · rw [List.mem_singleton.mp hr',hguid]
        exact Nat.lt_succ_self _
    · rcases List.mem_append.mp hr' with hr' | hr'
      · exact h.rolls r' hr'
      · rw [List.mem_singleton.mp hr']
        exact hr
  · exact ⟨h.distinct,fun r hr => Nat.lt_succ_of_lt (h.known r hr),h.rolls⟩

variable (hP : Lasting P)
include hP

theorem RollInv.offerItem (h : RollInv P s) (stripNeed : Bool) (loot slot : Nat) :
    RollInv P (offerItem p stripNeed loot s slot) := by
  unfold Looting.offerItem
  split
  · exact h
  · rename_i item _
    split_ifs
    · exact h
    · split
      · exact h
      · split_ifs
        · exact h.startRoll (hP.mask _ _ (hP.start p s item loot slot true))
            (newRoll_itemGUID item loot slot true)
        · exact h.congr (sameRolls_modifyLoot _)

theorem RollInv.offerQuestItem (h : RollInv P s) (loot first i : Nat) :
    RollInv P (offerQuestItem p loot first s i) := by
  unfold Looting.offerQuestItem
  split
  · exact h
  · rename_i item _
    split_ifs
    · split
      · exact h
      · exact h.startRoll (hP.start p s item loot (first+i) false)
          (newRoll_itemGUID item loot (first+i) false)
    · exact h

theorem RollInv.offer (h : RollInv P s) (stripNeed : Bool) (loot : Nat) :
    RollInv P (s.offer p stripNeed loot) := by
  unfold Looting.offer
  split
  · exact h
  · rename_i l _
    have hitems := List.foldlRecOn (List.range l.items.length) (Looting.offerItem p stripNeed loot) h
      fun s h slot _ => h.offerItem hP stripNeed loot slot
    exact List.foldlRecOn _ _ hitems fun s h i _ => h.offerQuestItem hP loot l.items.length i

omit hP in
theorem RollInv.countTheRoll (h : RollInv P s) (allowedMap : Option Nat) (i : Nat) :
    RollInv P (s.countTheRoll w allowedMap i) := by
  have hsame := sameRolls_countTheRoll w allowedMap s i
  exact h.of_sublist (hsame.rollId ▸ List.eraseIdx_sublist _ _) hsame.next

omit hP in
theorem RollInv.endRoll (h : RollInv P s) (loot : Nat) (allowedMap : Option Nat) :
    RollInv P (s.endRoll w loot allowedMap) :=
  endRoll_induction (P := RollInv P) (fun _ i h => h.countTheRoll allowedMap i) h loot

omit hP in
theorem vote_itemGUID (r : Roll) (guid choice : Nat) : (r.vote guid choice).itemGUID = r.itemGUID := by
  cases hchoice : Roll.choiceVote choice with
  | none => rw [Roll.vote_of_none hchoice]
  | some v => rw [Roll.vote_eq hchoice]

/-- A vote that does not decide its roll keeps the property; a roll that is decided is gone. -/
theorem RollInv.countRollVote (h : RollInv P s) (playerGUID guid choice : Nat) :
    RollInv P (s.countRollVote w playerGUID guid choice) := by
  unfold Looting.countRollVote
  split
  · exact h
  · rename_i i r hopen
    have hr := (openRoll_spec hopen).1
    have hguid := vote_itemGUID r playerGUID choice
    dsimp only
    by_cases hall : (r.vote playerGUID choice).allCounted
    · rw [if_pos hall]
      have hsame := sameRolls_countTheRoll w none
        { s with rollId := s.rollId.set i (r.vote playerGUID choice) } i
      rw [List.eraseIdx_set_eq] at hsame
      exact h.of_sublist (hsame.rollId ▸ List.eraseIdx_sublist _ _) hsame.next
    · rw [if_neg hall]
      refine ⟨h.distinct.of_map (map_itemGUID_set hr hguid),fun r' hr' => ?_,fun r' hr' => ?_⟩
      · rcases List.mem_or_eq_of_mem_set hr' with hr' | rfl
        · exact h.known r' hr'
        · exact hguid ▸ h.known r (List.mem_of_getElem? hr)
      · rcases List.mem_or_eq_of_mem_set hr' with hr' | rfl
        · exact h.rolls r' hr'
        · exact hP.vote r playerGUID choice (h.rolls r (List.mem_of_getElem? hr))
            (Bool.eq_false_iff.mpr hall)

theorem RollInv.removeVotes (h : RollInv P s) (guid : Nat) : RollInv P (s.removeVotes w guid) := by
  rw [removeVotes_eq h.distinct]
  refine ⟨h.distinct.of_map (by simp),fun r hr => ?_,fun r hr => ?_⟩
  · obtain ⟨r',hr',rfl⟩ := List.mem_map.mp hr
    rw [Roll.left_itemGUID]
    exact h.known r' hr'
  · obtain ⟨r',hr',rfl⟩ := List.mem_map.mp hr
    exact hP.left r' guid (h.rolls r' hr')

theorem kept_rollInv : Realm.Kept (fun _ _ => True) (RollInv P) where
  noRolls h := h.of_sublist (List.nil_sublist _) rfl
  restart h := h.of_sublist (List.nil_sublist _) rfl
  addLoot h _ := h.of_sublist (.refl _) rfl
  clearLoot h _ := h.of_sublist (.refl _) rfl
  groupLoot h _ loot _ := h.offer hP false loot
  needBeforeGreed h _ loot _ := h.offer hP true loot
  countRollVote h _ playerGUID guid choice _ := h.countRollVote hP playerGUID guid choice
  endRoll h _ loot allowedMap := h.endRoll loot allowedMap
  removeVotes h _ guid := h.removeVotes hP guid

end Looting

namespace Realm

theorem kept_run {Q : Looting → Prop} (hQ : Kept (fun _ _ => True) Q) (hstart : Q .empty)
    (as : List Action) : Q (Run.exec step start as).looting :=
  Run.exec_inv (P := fun s : Realm => Q s.looting) (fun _ a h => kept_step hQ a h trivial) start as hstart

end Realm

end TrinityCore.Groups
