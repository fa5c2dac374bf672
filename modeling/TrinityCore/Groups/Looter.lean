import TrinityCore.Groups.Group
import TrinityCore.Looting.Loot

set_option autoImplicit false

namespace TrinityCore.Groups

structure LootingGroup extends Group where
  lootMethod : TrinityCore.Looting.LootMethod
  looterGuid : Nat

structure LootedObject where
  findPlayer : Nat → Bool
  isWithinDistInMap : Nat → Bool
  /-- No player has the guid 0. -/
  findPlayer_zero : findPlayer 0 = false

def LootedObject.isNear (object : LootedObject) (guid : Nat) : Bool :=
  object.findPlayer guid && object.isWithinDistInMap guid

namespace LootingGroup

variable (g : LootingGroup) (object : LootedObject)

/-- `_getMemberCSlot` of the looter, a position after the last one if there is none. -/
def looterSlot : Nat := g.memberSlots.findIdx fun slot => slot.guid = g.looterGuid

def isMember : Bool := g.looterSlot < g.memberSlots.length

def guidItr : Nat := if g.isMember then g.looterSlot+1 else g.looterSlot

/-- First the members from a position on are searched, then those before it. -/
def newLooter : Option MemberSlot :=
  ((g.memberSlots.drop g.guidItr).find? fun slot => object.isNear slot.guid).or
    ((g.memberSlots.take g.guidItr).find? fun slot => object.isNear slot.guid)

def updateLooterGuid (ifneed : Bool) : LootingGroup :=
  if g.lootMethod = .freeForAll then g
  else if g.isMember && ifneed && object.isNear g.looterGuid then g
  else
    match g.newLooter object with
    | some slot => if g.looterGuid ≠ slot.guid then { g with looterGuid := slot.guid } else g
    | none => { g with looterGuid := 0 }

/-- The member so many places after the looter, in a circle. One who is gone was before the first. -/
def afterLooter (k : Nat) : Option MemberSlot :=
  match g.memberSlots.findIdx? fun slot => slot.guid = g.looterGuid with
  | some i => g.memberSlots[(i+k) % g.memberSlots.length]?
  | none => g.memberSlots[(k-1) % g.memberSlots.length]?

/-- The first member after the looter who is near the object. -/
def Next (guid : Nat) : Prop :=
  ∃ k slot, 1 ≤ k ∧ k ≤ g.memberSlots.length ∧ g.afterLooter k = some slot ∧ slot.guid = guid ∧
    object.isNear guid ∧
      ∀ j slot', 1 ≤ j → j < k → g.afterLooter j = some slot' → object.isNear slot'.guid = false

end LootingGroup

section Search

variable {g : LootingGroup} {object : LootedObject}

theorem guidItr_le : g.guidItr ≤ g.memberSlots.length := by
  have hle : g.looterSlot ≤ g.memberSlots.length := List.findIdx_le_length
  unfold LootingGroup.guidItr LootingGroup.isMember
  split_ifs with hmember
  · have hlt := of_decide_eq_true hmember
    omega
  · exact hle

theorem newLooter_eq : g.newLooter object =
    (g.memberSlots.rotate g.guidItr).find? fun slot => object.isNear slot.guid := by
  rw [List.rotate_eq_drop_append_take guidItr_le,List.find?_append]
  rfl

theorem afterLooter_succ (k : Nat) (hk : k < g.memberSlots.length) :
    g.afterLooter (k+1) = (g.memberSlots.rotate g.guidItr)[k]? := by
  rw [List.getElem?_rotate hk]
  unfold LootingGroup.afterLooter LootingGroup.guidItr LootingGroup.isMember LootingGroup.looterSlot
  cases hidx : g.memberSlots.findIdx? fun slot => slot.guid = g.looterGuid with
  | none =>
    have hlength := List.findIdx?_eq_none_iff_findIdx_eq.mp hidx
    dsimp only
    rw [hlength,if_neg (by simp),Nat.add_mod_right,Nat.add_sub_cancel]
  | some i =>
    obtain ⟨hlt,heq⟩ := List.findIdx?_eq_some_iff_findIdx_eq.mp hidx
    dsimp only
    rw [heq,if_pos (by simpa using hlt)]
    congr 2
    omega

theorem next_of_newLooter {slot : MemberSlot} (h : g.newLooter object = some slot) :
    g.Next object slot.guid := by
  rw [newLooter_eq,List.find?_eq_some_iff_getElem] at h
  obtain ⟨hnear,k,hk,hslot,hbefore⟩ := h
  rw [List.length_rotate] at hk
  refine ⟨k+1,slot,by omega,by omega,?_,rfl,hnear,?_⟩
  · rw [afterLooter_succ k hk,List.getElem?_eq_some_iff]
    exact ⟨_,hslot⟩
  · intro j slot' hj hlt hat
    obtain ⟨j,rfl⟩ := Nat.exists_eq_add_of_le' hj
    rw [afterLooter_succ j (by omega),List.getElem?_eq_some_iff] at hat
    obtain ⟨hlength,hat⟩ := hat
    have hno := hbefore j (by omega)
    rw [hat] at hno
    simpa using hno

theorem newLooter_none : g.newLooter object = none ↔
    ∀ slot ∈ g.memberSlots, object.isNear slot.guid = false := by
  rw [newLooter_eq,List.find?_eq_none]
  simp only [List.mem_rotate,Bool.not_eq_true]

theorem looterGuid_update (h : g.lootMethod ≠ .freeForAll) :
    (g.updateLooterGuid object false).looterGuid =
      ((g.newLooter object).map MemberSlot.guid).getD 0 := by
  unfold LootingGroup.updateLooterGuid
  rw [if_neg h,Bool.and_false,Bool.false_and,if_neg Bool.false_ne_true]
  cases g.newLooter object with
  | none => rfl
  | some slot =>
    dsimp only
    split_ifs with hsame
    · rfl
    · exact not_ne_iff.mp hsame

theorem not_isNear_zero (object : LootedObject) : object.isNear 0 = false := by
  unfold LootedObject.isNear
  rw [object.findPlayer_zero,Bool.false_and]

theorem looterGuid_eq_zero_iff (h : g.lootMethod ≠ .freeForAll) :
    (g.updateLooterGuid object false).looterGuid = 0 ↔
      ∀ slot ∈ g.memberSlots, object.isNear slot.guid = false := by
  rw [looterGuid_update h,← newLooter_none]
  cases hnew : g.newLooter object with
  | none => simp
  | some slot =>
    obtain ⟨-,-,-,-,-,-,hnear,-⟩ := next_of_newLooter hnew
    simp only [Option.map_some,Option.getD_some,reduceCtorEq,iff_false]
    intro hzero
    rw [hzero,not_isNear_zero] at hnear
    exact Bool.false_ne_true hnear

theorem next_of_update (h : g.lootMethod ≠ .freeForAll)
    (hnear : ∃ slot ∈ g.memberSlots, object.isNear slot.guid = true) :
    g.Next object (g.updateLooterGuid object false).looterGuid := by
  rw [looterGuid_update h]
  cases hnew : g.newLooter object with
  | none =>
    obtain ⟨slot,hslot,hnear⟩ := hnear
    rw [newLooter_none.mp hnew slot hslot] at hnear
    exact absurd hnear Bool.false_ne_true
  | some slot => exact next_of_newLooter hnew

theorem near_of_next_self (hnodup : (g.memberSlots.map MemberSlot.guid).Nodup)
    (h : g.Next object g.looterGuid) {slot : MemberSlot} (hslot : slot ∈ g.memberSlots)
    (hnear : object.isNear slot.guid = true) : slot.guid = g.looterGuid := by
  obtain ⟨k,self,hk,hle,hat,hself,-,hbefore⟩ := h
  cases hidx : g.memberSlots.findIdx? fun slot => slot.guid = g.looterGuid with
  | none =>
    rw [List.findIdx?_eq_none_iff] at hidx
    have hmem : self ∈ g.memberSlots := by
      unfold LootingGroup.afterLooter at hat
      split at hat <;> exact List.mem_of_getElem? hat
    have hno := hidx self hmem
    rw [hself] at hno
    simp at hno
  | some i =>
    have hafter : ∀ j, g.afterLooter j = g.memberSlots[(i+j) % g.memberSlots.length]? := by
      intro j
      unfold LootingGroup.afterLooter
      rw [hidx]
    obtain ⟨hi,hguid,-⟩ := List.findIdx?_eq_some_iff_getElem.mp hidx
    have hguid : g.memberSlots[i].guid = g.looterGuid := of_decide_eq_true hguid
    have hsame : ∀ p (hp : p < g.memberSlots.length), g.memberSlots[p].guid = g.looterGuid → p = i := by
      intro p hp heq
      have hp' : p < (g.memberSlots.map MemberSlot.guid).length := by simpa using hp
      have hi' : i < (g.memberSlots.map MemberSlot.guid).length := by simpa using hi
      have hmap : (g.memberSlots.map MemberSlot.guid)[p] = (g.memberSlots.map MemberSlot.guid)[i] := by
        rw [List.getElem_map,List.getElem_map,heq,hguid]
      exact (hnodup.getElem_inj_iff).mp hmap
    obtain ⟨p,hp,rfl⟩ := List.getElem_of_mem hslot
    by_cases hpi : p = i
    · subst hpi
      exact hguid
    · -- the looter is reached only after a whole turn
      have hturn : k = g.memberSlots.length := by
        rw [hafter,List.getElem?_eq_some_iff] at hat
        obtain ⟨hlt,hat⟩ := hat
        have hmod := hsame _ hlt (by rw [hat,hself])
        rcases Nat.lt_or_ge (i+k) g.memberSlots.length with hsmall | hlarge
        · rw [Nat.mod_eq_of_lt hsmall] at hmod
          omega
        · rw [Nat.mod_eq_sub_mod hlarge,Nat.mod_eq_of_lt (by omega)] at hmod
          omega
      have hmember : g.afterLooter (if i < p then p-i else p+g.memberSlots.length-i) =
          some g.memberSlots[p] := by
        rw [hafter,List.getElem?_eq_some_iff]
        have hmod : (i+(if i < p then p-i else p+g.memberSlots.length-i)) % g.memberSlots.length = p := by
          split_ifs with hlt
          · rw [Nat.add_sub_cancel' hlt.le,Nat.mod_eq_of_lt hp]
          · rw [Nat.add_sub_cancel' (by omega),Nat.add_mod_right,Nat.mod_eq_of_lt hp]
        exact ⟨by omega,by simp only [hmod]⟩
      have hfar := hbefore _ _ (by split_ifs <;> omega) (by split_ifs <;> omega) hmember
      rw [hfar] at hnear
      exact absurd hnear Bool.false_ne_true

/-- Nobody has turns where all is free for all. Else the turn goes to the next one who is near. -/
theorem updateLooterGuid_turn (g : LootingGroup) (object : LootedObject) :
    (g.lootMethod = .freeForAll → g.updateLooterGuid object false = g) ∧
    (g.lootMethod ≠ .freeForAll →
      ((g.updateLooterGuid object false).looterGuid = 0 ↔
        ∀ slot ∈ g.memberSlots, object.isNear slot.guid = false) ∧
      ((∃ slot ∈ g.memberSlots, object.isNear slot.guid = true) →
        g.Next object (g.updateLooterGuid object false).looterGuid) ∧
      ((g.memberSlots.map MemberSlot.guid).Nodup →
        (g.updateLooterGuid object false).looterGuid = g.looterGuid →
          ∀ slot ∈ g.memberSlots, object.isNear slot.guid = true → slot.guid = g.looterGuid) ∧
      (g.updateLooterGuid object false).toGroup = g.toGroup) := by
  refine ⟨fun h => if_pos h,fun h => ⟨looterGuid_eq_zero_iff h,next_of_update h,?_,?_⟩⟩
  · intro hnodup hsame slot hslot hnear
    have hnext := next_of_update h ⟨slot,hslot,hnear⟩
    rw [hsame] at hnext
    exact near_of_next_self hnodup hnext hslot hnear
  · unfold LootingGroup.updateLooterGuid
    rw [if_neg h,Bool.and_false,Bool.false_and,if_neg Bool.false_ne_true]
    split
    · split_ifs
      · rfl
      · rfl
    · rfl

end Search

section Rounds

variable {g : LootingGroup} {object : LootedObject} {slot : MemberSlot}

def LootingGroup.round (g : LootingGroup) : List MemberSlot := g.memberSlots.rotate g.guidItr

theorem updateLooterGuid_eq (h : g.lootMethod ≠ .freeForAll)
    (hnew : g.newLooter object = some slot) :
    g.updateLooterGuid object false = { g with looterGuid := slot.guid } := by
  unfold LootingGroup.updateLooterGuid
  rw [if_neg h,Bool.and_false,Bool.false_and,if_neg Bool.false_ne_true,hnew]
  dsimp only
  split_ifs with hsame
  · rfl
  · rw [← not_ne_iff.mp hsame]

theorem round_next (hnodup : (g.memberSlots.map MemberSlot.guid).Nodup) {q : Nat}
    (hslot : g.round[q]? = some slot) :
    { g with looterGuid := slot.guid : LootingGroup }.round = g.round.rotate (q+1) := by
  have hq : q < g.memberSlots.length := by
    simpa [LootingGroup.round] using (List.getElem?_eq_some_iff.mp hslot).1
  rw [LootingGroup.round,List.getElem?_rotate hq] at hslot
  generalize hn : (q+g.guidItr) % g.memberSlots.length = n at hslot
  obtain ⟨hlt,rfl⟩ := List.getElem?_eq_some_iff.mp hslot
  have hidx : g.memberSlots.findIdx (fun s => s.guid = g.memberSlots[n].guid) = n := by
    refine (List.findIdx_eq hlt).mpr ⟨by simp,fun j hj => decide_eq_false ?_⟩
    exact List.pairwise_iff_getElem.mp (List.pairwise_map.mp hnodup) j n _ hlt hj
  have hnext : { g with looterGuid := g.memberSlots[n].guid : LootingGroup }.guidItr = n+1 := by
    unfold LootingGroup.guidItr LootingGroup.isMember LootingGroup.looterSlot
    rw [hidx,if_pos (decide_eq_true hlt)]
  unfold LootingGroup.round
  rw [hnext]
  change g.memberSlots.rotate (n+1) = _
  rw [← List.rotate_rotate,← hn,List.rotate_mod,List.rotate_rotate,List.rotate_rotate,
    Nat.add_comm q,Nat.add_assoc]

/-- A member who is near each time has a turn before those in front could have a second one. -/
theorem turn_in_round (h : g.lootMethod ≠ .freeForAll)
    (hnodup : (g.memberSlots.map MemberSlot.guid).Nodup) (p : Nat) (slot : MemberSlot)
    (hp : g.round[p]? = some slot) (objects : List LootedObject) (hlong : p < objects.length)
    (hnear : ∀ object ∈ objects, object.isNear slot.guid = true) : ∃ n ≤ p,
      (Run.exec (fun g object => g.updateLooterGuid object false) g
        (objects.take (n+1))).looterGuid = slot.guid := by
  induction objects generalizing g p with
  | nil => exact absurd hlong (Nat.not_lt_zero p)
  | cons object rest ih =>
    rw [List.forall_mem_cons] at hnear
    obtain ⟨hp',hat⟩ := List.getElem?_eq_some_iff.mp hp
    obtain ⟨next,hnew⟩ : ∃ next, g.newLooter object = some next := by
      rw [← Option.ne_none_iff_exists',newLooter_eq]
      intro hno
      exact List.find?_eq_none.mp hno slot (List.mem_of_getElem? hp) hnear.1
    have hfind : g.round.find? (fun slot => object.isNear slot.guid) = some next :=
      newLooter_eq.symm.trans hnew
    obtain ⟨-,q,hq,hqat,hbefore⟩ := List.find?_eq_some_iff_getElem.mp hfind
    have hle : q ≤ p := by
      by_contra hlt
      have hno := hbefore p (by omega)
      rw [hat] at hno
      simp [hnear.1] at hno
    have hupdate := updateLooterGuid_eq h hnew
    rcases hle.eq_or_lt with rfl | hlt
    · refine ⟨0,Nat.zero_le q,?_⟩
      change (g.updateLooterGuid object false).looterGuid = slot.guid
      rw [hupdate,← hqat,hat]
    · have hround : { g with looterGuid := next.guid : LootingGroup }.round[p-(q+1)]? = some slot := by
        rw [round_next hnodup (List.getElem?_eq_some_iff.mpr ⟨hq,hqat⟩),
          List.getElem?_rotate (by omega),Nat.sub_add_cancel hlt,Nat.mod_eq_of_lt hp',hp]
      rw [List.length_cons] at hlong
      obtain ⟨n,hn,hturn⟩ := ih (g := { g with looterGuid := next.guid }) h hnodup _ hround
        (by omega) hnear.2
      refine ⟨n+1,by omega,?_⟩
      rw [List.take_succ_cons,Run.exec_cons,hupdate]
      exact hturn

end Rounds

section Example

def lootingSlot (guid : Nat) : MemberSlot := ⟨guid,0,0,0⟩

/-- Three members of whom the first one has the turn. -/
def threeLooters (lootMethod : TrinityCore.Looting.LootMethod) : LootingGroup where
  leaderGuid := 1
  groupType := 0
  bgGroup := false
  bfGroup := false
  memberSlots := [lootingSlot 1,lootingSlot 2,lootingSlot 3]
  subGroupsCounts := none
  lootMethod := lootMethod
  looterGuid := 1

/-- The first and the third member are near. -/
def deadWolf : LootedObject where
  findPlayer := fun guid => guid = 1 || guid = 3
  isWithinDistInMap := fun _ => true
  findPlayer_zero := rfl

/-- The third member has the turn at once, for the second one is away. -/
theorem turn_in_round_third : ∃ n ≤ 1,
    (Run.exec (fun g object => g.updateLooterGuid object false) (threeLooters .groupLoot)
      ([deadWolf,deadWolf].take (n+1))).looterGuid = 3 :=
  turn_in_round (by decide) (by decide) 1 (lootingSlot 3) (by decide) _ (by decide) (by decide)

theorem updateLooterGuid_turn_third :
    (threeLooters .groupLoot).Next deadWolf
      ((threeLooters .groupLoot).updateLooterGuid deadWolf false).looterGuid ∧
    ((threeLooters .groupLoot).updateLooterGuid deadWolf false).looterGuid ≠ 0 := by
  obtain ⟨hzero,hnext,-⟩ := (updateLooterGuid_turn (threeLooters .groupLoot) deadWolf).2 (by decide)
  refine ⟨hnext ⟨lootingSlot 3,by decide,by decide⟩,fun h => ?_⟩
  exact absurd (hzero.mp h (lootingSlot 3) (by decide)) (by decide)

theorem freeForAll_keeps_turn : ∃ slot ∈ (threeLooters .freeForAll).memberSlots,
    deadWolf.isNear slot.guid = true ∧ ¬ (threeLooters .freeForAll).Next deadWolf
      ((threeLooters .freeForAll).updateLooterGuid deadWolf false).looterGuid := by
  refine ⟨lootingSlot 3,by decide,by decide,?_⟩
  rintro ⟨k,slot,hk,hle,hat,hguid,-,hbefore⟩
  have hthird : (threeLooters .freeForAll).afterLooter 2 = some (lootingSlot 3) := by decide
  rcases Nat.lt_or_ge 2 k with hlt | hge
  · have hno := hbefore 2 (lootingSlot 3) (by decide) hlt hthird
    exact absurd hno (by decide)
  · interval_cases k
    · have hsecond : (threeLooters .freeForAll).afterLooter 1 = some (lootingSlot 2) := by decide
      rw [hsecond] at hat
      cases hat
      exact absurd hguid (by decide)
    · rw [hthird] at hat
      cases hat
      exact absurd hguid (by decide)

end Example

end TrinityCore.Groups
