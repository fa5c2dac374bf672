import TrinityCore.Groups.Group

set_option autoImplicit false

namespace TrinityCore.Groups

open Tally

namespace Group

variable {g : Group} {c : Nat → Nat} {slot : MemberSlot} {guid : Nat}

/-- The counters are those of the slots, and no sub group has more than five members. -/
structure Counts (c : Nat → Nat) (slots : List MemberSlot) : Prop where
  eq : ∀ n, c n = countOf MemberSlot.group slots n
  le : ∀ n, c n ≤ maxGroupSize

/-- A raid counts its sub groups; another group has no sub groups and fits into one. -/
structure Balanced (g : Group) : Prop where
  raid : g.isRaidGroup → ∃ c, g.subGroupsCounts = some c ∧ Counts c g.memberSlots
  party : ¬ g.isRaidGroup → g.subGroupsCounts = none ∧ g.memberSlots.length ≤ maxGroupSize ∧
    ∀ slot ∈ g.memberSlots, slot.group = 0
  valid : ∀ slot ∈ g.memberSlots, slot.group < maxRaidSubgroups

theorem counts_nil : Counts (fun _ => 0) [] := ⟨fun _ => rfl,fun _ => Nat.zero_le _⟩

theorem new_spec (leaderGuid : Nat) (groupType : BitVec 8) (bgGroup bfGroup : Bool) :
    let g := Group.new leaderGuid groupType bgGroup bfGroup
    g.Balanced ∧ g.memberSlots = [] ∧ g.groupType = groupType ∧
      g.isStored = (!bgGroup && !bfGroup) := by
  unfold Group.new
  dsimp only
  split_ifs with hraid
  · refine ⟨⟨fun _ => ⟨_,rfl,counts_nil⟩,fun hr => absurd hraid hr,?_⟩,rfl,rfl,rfl⟩
    simp [initRaidSubGroupsCounter]
  · exact ⟨⟨fun hr => absurd hr hraid,fun _ => ⟨rfl,Nat.zero_le _,by simp⟩,by simp⟩,rfl,rfl,rfl⟩

theorem Counts.concat {slots : List MemberSlot} (h : Counts c slots)
    (hroom : c slot.group < maxGroupSize) :
    Counts (Function.update c slot.group (inc (c slot.group))) (slots ++ [slot]) := by
  unfold maxGroupSize at hroom
  have hinc : inc (c slot.group) = c slot.group+1 := Nat.mod_eq_of_lt (by omega)
  constructor
  · intro n
    rw [countOf_concat,Function.update_apply,hinc,← h.eq n]
    split_ifs with h₁ h₂ h₂
    · rw [h₁]
    · exact absurd h₁.symm h₂
    · exact absurd h₂.symm h₁
    · rfl
  · intro n
    rw [Function.update_apply,hinc]
    split_ifs
    · exact hroom
    · exact h.le n

theorem counts_init {slots : List MemberSlot}
    (hsmall : ∀ n, countOf MemberSlot.group slots n ≤ maxGroupSize) :
    Counts (slots.foldl (fun c slot => Function.update c slot.group (inc (c slot.group)))
      fun _ => 0) slots := by
  induction slots using List.reverseRecOn with
  | nil => exact counts_nil
  | append_singleton slots slot ih =>
    have hbefore : ∀ n, countOf MemberSlot.group slots n ≤ maxGroupSize := by
      intro n
      have := hsmall n
      rw [countOf_concat] at this
      omega
    rw [List.foldl_append]
    refine (ih hbefore).concat ?_
    have := hsmall slot.group
    rw [countOf_concat,if_pos rfl] at this
    rw [(ih hbefore).eq]
    omega

theorem Balanced.small (h : g.Balanced) (n : Nat) :
    countOf MemberSlot.group g.memberSlots n ≤ maxGroupSize := by
  by_cases hraid : g.isRaidGroup
  · obtain ⟨c,_,hc⟩ := h.raid hraid
    rw [← hc.eq]
    exact hc.le n
  · exact countOf_le_length.trans (h.party hraid).2.1

theorem Balanced.length_le (h : g.Balanced) :
    g.memberSlots.length ≤ if g.isRaidGroup then maxRaidSize else maxGroupSize := by
  split_ifs with hraid
  · have hsum := countP_eq_sum (l := g.memberSlots) (p := fun _ => true) List.nodup_range
      (fun slot => some slot.group)
      fun slot hslot _ => ⟨slot.group,List.mem_range.mpr (h.valid slot hslot),rfl⟩
    rw [List.countP_true] at hsum
    rw [hsum]
    refine (List.sum_le_card_nsmul _ maxGroupSize fun n hn => ?_).trans_eq (by simp; rfl)
    obtain ⟨k,_,rfl⟩ := List.mem_map.mp hn
    simpa [countOf] using h.small k
  · exact (h.party hraid).2.1

theorem balanced_addSlot (h : g.Balanced) (hvalid : slot.group < maxRaidSubgroups)
    (hraid : g.isRaidGroup → ∀ c, g.subGroupsCounts = some c → c slot.group < maxGroupSize)
    (hparty : ¬ g.isRaidGroup → slot.group = 0 ∧ g.memberSlots.length < maxGroupSize) :
    (g.addSlot slot).Balanced := by
  constructor
  · intro hr
    obtain ⟨c,hc,hcounts⟩ := h.raid hr
    refine ⟨Function.update c slot.group (inc (c slot.group)),?_,hcounts.concat (hraid hr c hc)⟩
    simp [addSlot,subGroupCounterIncrease,hc]
  · intro hr
    obtain ⟨hnone,hlength,hzero⟩ := h.party hr
    obtain ⟨hslot,hroom⟩ := hparty hr
    refine ⟨by simp [addSlot,subGroupCounterIncrease,hnone],?_,?_⟩
    · simpa [addSlot,subGroupCounterIncrease] using hroom
    · intro s hs
      rcases List.mem_append.mp hs with hs | hs
      · exact hzero s hs
      · rw [List.mem_singleton.mp hs,hslot]
  · intro s hs
    rcases List.mem_append.mp hs with hs | hs
    · exact h.valid s hs
    · rwa [List.mem_singleton.mp hs]

theorem balanced_dropMember (h : g.Balanced) (guid : Nat) : (g.dropMember guid).Balanced := by
  unfold dropMember
  split
  · exact h
  · rename_i slot hslot
    have hcount := countOf_eraseP MemberSlot.group hslot
    have hsub : ∀ s, s ∈ ((g.subGroupCounterDecrease slot.group).eraseSlot guid).memberSlots →
        s ∈ g.memberSlots := fun s hs => List.mem_of_mem_eraseP hs
    constructor
    · intro hr
      obtain ⟨c,hc,hcounts⟩ := h.raid hr
      refine ⟨Function.update c slot.group (dec (c slot.group)),?_,?_,?_⟩
      · simp [eraseSlot,subGroupCounterDecrease,hc]
      · intro n
        have hn := hcount n
        have heq := hcounts.eq n
        have hle := hcounts.le n
        unfold maxGroupSize at hle
        simp only [eraseSlot,subGroupCounterDecrease,Function.update_apply]
        split_ifs with hn'
        · subst hn'
          rw [if_pos rfl] at hn
          unfold dec
          omega
        · rw [if_neg (Ne.symm hn')] at hn
          omega
      · intro n
        have hn := hcount slot.group
        have heq := hcounts.eq slot.group
        have hle := hcounts.le slot.group
        rw [if_pos rfl] at hn
        rw [Function.update_apply]
        split_ifs
        · unfold maxGroupSize at hle
          unfold dec maxGroupSize
          omega
        · exact hcounts.le n
    · intro hr
      obtain ⟨hnone,hlength,hzero⟩ := h.party hr
      refine ⟨by simp [eraseSlot,subGroupCounterDecrease,hnone],?_,fun s hs => hzero s (hsub s hs)⟩
      exact (List.length_eraseP_le).trans hlength
    · exact fun s hs => h.valid s (hsub s hs)

theorem balanced_modifySlot {f : MemberSlot → MemberSlot} (h : g.Balanced) (guid : Nat)
    (hf : ∀ slot, (f slot).group = slot.group) : (g.modifySlot guid f).Balanced := by
  have hgroup : ∀ P : Nat → Prop, (∀ slot ∈ g.memberSlots, P slot.group) →
      ∀ slot ∈ (g.modifySlot guid f).memberSlots, P slot.group := by
    intro P hP slot hslot
    rcases mem_modifyFirst hslot with hslot | ⟨slot',hslot',rfl⟩
    · exact hP slot hslot
    · rw [hf]
      exact hP slot' hslot'
  constructor
  · intro hr
    obtain ⟨c,hc,hcounts⟩ := h.raid hr
    refine ⟨c,hc,fun n => ?_,hcounts.le⟩
    rw [hcounts.eq]
    exact (countOf_modifyFirst_of_key hf).symm
  · intro hr
    obtain ⟨hnone,hlength,hzero⟩ := h.party hr
    refine ⟨hnone,?_,hgroup (· = 0) hzero⟩
    exact length_modifyFirst.trans_le hlength
  · exact hgroup (· < maxRaidSubgroups) h.valid

theorem balanced_changeGroup {group : Nat} (h : g.Balanced) (hraid : g.isRaidGroup)
    (hslot : g.slot? guid = some slot) (hne : slot.group ≠ group)
    (hvalid : group < maxRaidSubgroups) (hroom : g.hasFreeSlotSubGroup group) :
    (((g.modifySlot guid fun slot => { slot with group := group }).subGroupCounterIncrease
      group).subGroupCounterDecrease slot.group).Balanced := by
  obtain ⟨c,hc,hcounts⟩ := h.raid hraid
  simp only [hasFreeSlotSubGroup,hc,Option.any_some,decide_eq_true_eq] at hroom
  have hcount := countOf_modifyFirst MemberSlot.group (fun slot => { slot with group := group })
    hslot
  unfold maxGroupSize at hroom
  have hinc : inc (c group) = c group+1 := Nat.mod_eq_of_lt (by omega)
  have hdec : c slot.group ≠ 0 → dec (c slot.group) = c slot.group-1 := by
    intro hpos
    have hle := hcounts.le slot.group
    unfold maxGroupSize at hle
    unfold dec
    omega
  have hpos : c slot.group ≠ 0 := by
    have hn := hcount slot.group
    have heq := hcounts.eq slot.group
    rw [if_pos rfl,if_neg (Ne.symm hne)] at hn
    omega
  constructor
  · intro _
    refine ⟨Function.update (Function.update c group (inc (c group))) slot.group
      (dec (c slot.group)),?_,?_,?_⟩
    · simp [subGroupCounterDecrease,subGroupCounterIncrease,modifySlot,hc,
        Function.update_of_ne hne]
    · intro n
      have hn := hcount n
      have heq := hcounts.eq n
      simp only [subGroupCounterDecrease,subGroupCounterIncrease,modifySlot,Function.update_apply]
      split_ifs with h₁ h₂
      · subst h₁
        rw [if_pos rfl,if_neg (Ne.symm hne)] at hn
        rw [hdec hpos]
        omega
      · subst h₂
        rw [if_neg hne,if_pos rfl] at hn
        rw [hinc]
        omega
      · rw [if_neg (Ne.symm h₁),if_neg (Ne.symm h₂)] at hn
        omega
    · intro n
      have hle := hcounts.le n
      have hle' := hcounts.le slot.group
      unfold maxGroupSize at *
      simp only [Function.update_apply]
      split_ifs
      · rw [hdec hpos]
        omega
      · rw [hinc]
        omega
      · exact hle
  · exact fun hr => absurd hraid hr
  · intro s hs
    rcases mem_modifyFirst hs with hs | ⟨s',_,rfl⟩
    · exact h.valid s hs
    · exact hvalid

theorem isRaidGroup_or (t : BitVec 8) : (t ||| groupTypeRaid) &&& groupTypeRaid ≠ 0 := by
  revert t
  decide

theorem balanced_convertToRaid (h : g.Balanced) :
    { g with groupType := g.groupType ||| groupTypeRaid }.initRaidSubGroupsCounter.Balanced := by
  constructor
  · intro _
    exact ⟨_,rfl,counts_init h.small⟩
  · intro hr
    exact absurd (decide_eq_true (isRaidGroup_or g.groupType)) hr
  · exact h.valid

end Group

structure Mirrored (g : Group) (db : Database) : Prop where
  keys : (db.members.map MemberRow.memberGuid).Nodup
  type : g.isStored → db.group.map GroupRow.groupType = some g.groupType
  rows : ∀ row ∈ db.members, ∃ slot ∈ g.memberSlots,
    slot.guid = row.memberGuid ∧ slot.group = row.subgroup
  other : ¬ g.isStored → db.group = none ∧ db.members = []

namespace Mirrored

variable {g : Group} {db : Database} {guid : Nat}

theorem of_slots {g' : Group} (h : Mirrored g db) (hstored : g'.isStored = g.isStored)
    (htype : g'.groupType = g.groupType)
    (hslots : ∀ slot ∈ g.memberSlots, ∃ slot' ∈ g'.memberSlots,
      slot'.guid = slot.guid ∧ slot'.group = slot.group) : Mirrored g' db := by
  refine ⟨h.keys,?_,?_,?_⟩
  · rw [hstored,htype]
    exact h.type
  · intro row hrow
    obtain ⟨slot,hslot,hguid,hgroup⟩ := h.rows row hrow
    obtain ⟨slot',hslot',hguid',hgroup'⟩ := hslots slot hslot
    exact ⟨slot',hslot',hguid'.trans hguid,hgroup'.trans hgroup⟩
  · rw [hstored]
    exact h.other

theorem addSlot (h : Mirrored g db) (slot : MemberSlot) : Mirrored (g.addSlot slot) db :=
  h.of_slots rfl rfl fun s hs => ⟨s,List.mem_append_left _ hs,rfl,rfl⟩

theorem modifySlot {f : MemberSlot → MemberSlot} (h : Mirrored g db) (guid : Nat)
    (hf : ∀ slot, (f slot).guid = slot.guid ∧ (f slot).group = slot.group) :
    Mirrored (g.modifySlot guid f) db :=
  h.of_slots rfl rfl fun _ hs => exists_modifyFirst hs ⟨rfl,rfl⟩ (hf _)

theorem insertMember {slot : MemberSlot} (h : Mirrored g db) (hslot : slot ∈ g.memberSlots)
    (hstored : g.isStored) (flags : BitVec 8) (roles : Nat) :
    Mirrored g (db.insertMember
      { memberGuid := slot.guid, memberFlags := flags, subgroup := slot.group, roles := roles }) := by
  unfold Database.insertMember
  split_ifs with hany
  · exact h
  · simp only [List.any_eq_true,decide_eq_true_eq,not_exists,not_and] at hany
    refine ⟨?_,h.type,?_,fun hno => absurd hstored hno⟩
    · rw [List.map_append]
      refine List.nodup_append.mpr ⟨h.keys,List.nodup_singleton _,?_⟩
      intro guid hguid guid' hguid'
      obtain ⟨row,hrow,rfl⟩ := List.mem_map.mp hguid
      obtain rfl : guid' = slot.guid := by simpa using hguid'
      exact hany row hrow
    · intro row hrow
      rcases List.mem_append.mp hrow with hrow | hrow
      · exact h.rows row hrow
      · rw [List.mem_singleton.mp hrow]
        exact ⟨slot,hslot,rfl,rfl⟩

theorem dropMember (h : Mirrored g db) (guid : Nat) :
    Mirrored (g.dropMember guid) (if g.isStored then db.deleteMember guid else db) := by
  have hkeep : ∀ slot ∈ g.memberSlots, slot.guid ≠ guid → slot ∈ (g.dropMember guid).memberSlots := by
    intro slot hslot hne
    unfold Group.dropMember
    split
    · exact hslot
    · exact (List.mem_eraseP_of_neg (by simpa using hne)).mpr hslot
  have hsame : (g.dropMember guid).isStored = g.isStored ∧
      (g.dropMember guid).groupType = g.groupType := by
    unfold Group.dropMember
    split <;> exact ⟨rfl,rfl⟩
  split_ifs with hstored
  · refine ⟨h.keys.sublist (List.filter_sublist.map _),?_,?_,?_⟩
    · rw [hsame.1,hsame.2]
      exact h.type
    · intro row hrow
      obtain ⟨hmem,hne⟩ := List.mem_filter.mp hrow
      obtain ⟨slot,hslot,hguid,hgroup⟩ := h.rows row hmem
      refine ⟨slot,hkeep slot hslot ?_,hguid,hgroup⟩
      rw [hguid]
      simpa using hne
    · rw [hsame.1]
      exact fun hno => absurd hstored hno
  · have hempty := h.other hstored
    refine ⟨h.keys,?_,?_,?_⟩
    · rw [hsame.1]
      exact fun hno => absurd hno hstored
    · simp [hempty.2]
    · exact fun _ => hempty

theorem changeGroup (h : Mirrored g db) {slot : MemberSlot} (hslot : g.slot? guid = some slot)
    (group : Nat) :
    Mirrored (((g.modifySlot guid fun slot => { slot with group := group }).subGroupCounterIncrease
        group).subGroupCounterDecrease slot.group)
      (if g.isStored then db.updateMember guid fun row => { row with subgroup := group }
        else db) := by
  split_ifs with hstored
  · refine ⟨?_,h.type,?_,fun hno => absurd hstored hno⟩
    · have hkeys : (db.updateMember guid fun row => { row with subgroup := group }).members.map
          MemberRow.memberGuid = db.members.map MemberRow.memberGuid := by
        simp only [Database.updateMember,List.map_map]
        refine List.map_congr_left fun row _ => ?_
        simp only [Function.comp]
        split_ifs <;> rfl
      rw [hkeys]
      exact h.keys
    · intro row hrow
      simp only [Database.updateMember,List.mem_map] at hrow
      obtain ⟨row',hrow',rfl⟩ := hrow
      obtain ⟨slot',hslot',hguid,hgroup⟩ := h.rows row' hrow'
      split_ifs with heq
      · refine ⟨_,mem_modifyFirst_of_find? hslot,?_,rfl⟩
        have hfound := List.find?_some hslot
        simp only [decide_eq_true_eq] at hfound
        exact hfound.trans heq.symm
      · refine ⟨slot',mem_modifyFirst_of_not hslot' ?_,hguid,hgroup⟩
        simpa [hguid] using heq
  · have hempty := h.other hstored
    refine ⟨h.keys,fun hno => absurd hno hstored,?_,fun _ => hempty⟩
    simp [hempty.2]

theorem updateGroup {f : GroupRow → GroupRow} {g' : Group} (h : Mirrored g db)
    (hstored : g'.isStored = g.isStored) (hslots : g'.memberSlots = g.memberSlots)
    (htype : ∀ row, row.groupType = g.groupType → (f row).groupType = g'.groupType) :
    Mirrored g' (if g.isStored then db.updateGroup f else db) := by
  split_ifs with hst
  · refine ⟨h.keys,fun _ => ?_,?_,fun hno => absurd (hstored.trans hst) hno⟩
    · have := h.type hst
      rw [Option.map_eq_some_iff] at this
      obtain ⟨row,hrow,hkind⟩ := this
      simp [Database.updateGroup,hrow,htype row hkind]
    · rw [hslots]
      exact h.rows
  · refine ⟨h.keys,fun hno => absurd (hstored.symm.trans hno) hst,?_,fun _ => h.other hst⟩
    rw [hslots]
    exact h.rows

end Mirrored

theorem load_slots (rows : List MemberRow) (g : Group) :
    (rows.foldl loadMemberFromDB g).memberSlots = g.memberSlots ++ rows.map (fun row =>
      { guid := row.memberGuid, group := row.subgroup, flags := row.memberFlags,
        roles := row.roles }) ∧
      (rows.foldl loadMemberFromDB g).groupType = g.groupType ∧
      (rows.foldl loadMemberFromDB g).isStored = g.isStored := by
  induction rows generalizing g with
  | nil => simp
  | cons row rows ih =>
    obtain ⟨hslots,htype,hstored⟩ := ih (loadMemberFromDB g row)
    refine ⟨?_,htype,hstored⟩
    rw [List.foldl_cons,hslots]
    simp [loadMemberFromDB,Group.addSlot,Group.subGroupCounterIncrease]

theorem load_balanced (rows : List MemberRow) {g : Group} (h : g.Balanced)
    (hvalid : ∀ row ∈ rows, row.subgroup < maxRaidSubgroups)
    (hraid : g.isRaidGroup → ∀ n, countOf MemberSlot.group g.memberSlots n+
      countOf MemberRow.subgroup rows n ≤ maxGroupSize)
    (hparty : ¬ g.isRaidGroup → g.memberSlots.length+rows.length ≤ maxGroupSize ∧
      ∀ row ∈ rows, row.subgroup = 0) :
    (rows.foldl loadMemberFromDB g).Balanced := by
  induction rows generalizing g with
  | nil => exact h
  | cons row rows ih =>
    have hadd : (loadMemberFromDB g row).Balanced := by
      refine Group.balanced_addSlot h (hvalid row List.mem_cons_self) ?_ ?_
      · intro hr c hc
        obtain ⟨c',hc',hcounts⟩ := h.raid hr
        obtain rfl : c = c' := Option.some.inj (hc.symm.trans hc')
        have hn := hraid hr row.subgroup
        rw [countOf_cons,if_pos rfl] at hn
        change c row.subgroup < maxGroupSize
        rw [hcounts.eq]
        omega
      · intro hr
        obtain ⟨hlength,hzero⟩ := hparty hr
        rw [List.length_cons] at hlength
        exact ⟨hzero row List.mem_cons_self,by omega⟩
    refine ih hadd (fun row hrow => hvalid row (List.mem_cons_of_mem _ hrow)) ?_ ?_
    · intro hr n
      have hn := hraid hr n
      rw [countOf_cons] at hn
      change countOf MemberSlot.group (g.memberSlots ++ [_]) n+_ ≤ _
      rw [countOf_concat]
      dsimp only
      omega
    · intro hr
      obtain ⟨hlength,hzero⟩ := hparty hr
      rw [List.length_cons] at hlength
      refine ⟨?_,fun row hrow => hzero row (List.mem_cons_of_mem _ hrow)⟩
      change (g.memberSlots ++ [_]).length+_ ≤ _
      rw [List.length_append,List.length_singleton]
      omega

namespace Realm

variable {s : Realm} {g : Group}

/-- The group counts its members, and its rows are those of its members. -/
structure Sound (s : Realm) : Prop where
  absent : s.group = none → s.db.group = none ∧ s.db.members = []
  present : ∀ g, s.group = some g → g.Balanced ∧ Mirrored g s.db

theorem sound_of_some {s : Realm} (hs : s.group = some g) (h : g.Balanced)
    (hm : Mirrored g s.db) : s.Sound := by
  refine ⟨fun hno => ?_,fun g' hg' => ?_⟩
  · rw [hs] at hno
    cases hno
  · rw [hs] at hg'
    cases hg'
    exact ⟨h,hm⟩

theorem sound_start : start.Sound :=
  ⟨fun _ => ⟨rfl,rfl⟩,fun g hg => by simp [start] at hg⟩

theorem freeSubGroup_spec {subgroup : Nat} (h : g.freeSubGroup = some subgroup) :
    subgroup < maxRaidSubgroups ∧ (g.subGroupsCounts = none → subgroup = 0) ∧
      ∀ c, g.subGroupsCounts = some c → c subgroup < maxGroupSize := by
  unfold Group.freeSubGroup at h
  cases hc : g.subGroupsCounts with
  | none =>
    simp only [hc,Option.some.injEq] at h
    subst h
    exact ⟨by decide,fun _ => rfl,by simp⟩
  | some c =>
    simp only [hc] at h
    have hmem := List.mem_of_find?_eq_some h
    have hroom := List.find?_some h
    refine ⟨List.mem_range.mp hmem,by simp,?_⟩
    intro c' hc'
    cases hc'
    simpa using hroom

theorem sound_addMember (h : s.Sound) (guid : Nat)
    (hroom : ∀ g, s.group = some g → g.isRaidGroup ∨ g.getMembersCount < maxGroupSize) :
    (s.addMember guid).Sound := by
  unfold addMember
  split
  · exact h
  · rename_i g hg
    split
    · exact h
    · rename_i subgroup hfree
      obtain ⟨hb,hm⟩ := h.present g hg
      obtain ⟨hvalid,hzero,hcount⟩ := freeSubGroup_spec hfree
      refine sound_of_some rfl ?_ ?_
      · refine Group.balanced_addSlot hb hvalid (fun _ => hcount) fun hr => ?_
        exact ⟨hzero (hb.party hr).1,(hroom g hg).resolve_left hr⟩
      · have hslot := hm.addSlot { guid := guid, group := subgroup, flags := 0, roles := 0 }
        dsimp only
        split_ifs with hstored
        · exact hslot.insertMember (List.mem_append_right _ (List.mem_singleton_self _)) hstored 0 0
        · exact hslot

theorem sound_create (h : s.Sound) (leader : Nat) (kind : GroupKind) :
    (s.create leader kind).Sound := by
  unfold create
  split
  · exact h
  · rename_i hg
    obtain ⟨hgroup,hmembers⟩ := h.absent hg
    obtain ⟨hb,hslots,htype,hstored⟩ := Group.new_spec leader kind.groupType
      (kind = .battleground) (kind = .battlefield)
    dsimp only
    generalize Group.new _ _ _ _ = g at *
    refine sound_addMember (sound_of_some rfl hb ?_) leader ?_
    · split_ifs with hst
      · exact ⟨by simp [hmembers],fun _ => rfl,by simp [hmembers],fun hno => absurd hst hno⟩
      · exact ⟨by simp [hmembers],fun hno => absurd hno hst,by simp [hmembers],
          fun _ => ⟨hgroup,hmembers⟩⟩
    · intro g' hg'
      cases hg'
      right
      simp [Group.getMembersCount,hslots,maxGroupSize]

theorem sound_disband (h : s.Sound) : s.disband.Sound := by
  unfold disband
  split
  · exact h
  · rename_i g hg
    refine ⟨fun _ => ?_,fun g' hg' => by cases hg'⟩
    dsimp only
    split_ifs with hstored
    · exact ⟨rfl,rfl⟩
    · exact (h.present g hg).2.other hstored

theorem sound_changeLeader (h : s.Sound) (w : World) (guid : Nat) :
    (s.changeLeader w guid).Sound := by
  unfold changeLeader
  split
  · exact h
  · rename_i g hg
    split
    · obtain ⟨hb,hm⟩ := h.present g hg
      refine sound_of_some rfl ?_ ?_
      · exact Group.balanced_modifySlot (g := { g with leaderGuid := guid })
          ⟨hb.raid,hb.party,hb.valid⟩ guid fun _ => rfl
      · have hslot := hm.modifySlot (f := fun slot =>
          { slot with flags := slot.flags &&& ~~~memberFlagAssistant }) guid fun _ => ⟨rfl,rfl⟩
        exact hslot.updateGroup (f := fun row => { row with leaderGuid := guid }) rfl rfl
          fun _ htype => htype
    · exact h

theorem sound_pickLeader (h : s.Sound) (w : World) (guid : Nat) :
    (s.pickLeader w guid).Sound := by
  unfold pickLeader
  split
  · exact h
  · split_ifs
    · split
      · exact h
      · exact sound_changeLeader h w _
    · exact h

theorem sound_removeMember (h : s.Sound) (q : Removal) (guid : Nat) :
    (s.removeMember q guid).Sound := by
  have hsmall : ∀ s' : Realm, s'.Sound → (disbandIfSmall q s').Sound := by
    intro s' h'
    unfold disbandIfSmall
    split
    · exact h'
    · split_ifs
      · exact sound_disband h'
      · exact sound_disband h'
      · exact h'
  unfold removeMember
  split
  · exact h
  · rename_i g hg
    obtain ⟨hb,hm⟩ := h.present g hg
    split
    · exact h
    · split
      · refine hsmall _ (sound_pickLeader (sound_of_some rfl ?_ ?_) q.world guid)
        · exact Group.balanced_dropMember hb guid
        · exact hm.dropMember guid
      · exact sound_disband h

theorem sound_changeMembersGroup {group : Nat} (h : s.Sound) (hg : s.group = some g) (guid : Nat)
    (hvalid : group < maxRaidSubgroups) (hroom : g.hasFreeSlotSubGroup group) :
    (s.changeMembersGroup guid group).Sound := by
  obtain ⟨hb,hm⟩ := h.present g hg
  unfold changeMembersGroup
  rw [hg]
  dsimp only
  split
  · rename_i hraid
    split
    · exact h
    · rename_i slot hslot
      split
      · exact h
      · rename_i hne
        refine sound_of_some rfl ?_ ?_
        · exact Group.balanced_changeGroup hb hraid hslot hne hvalid hroom
        · exact hm.changeGroup hslot group
  · exact h

theorem sound_changeSubGroup (h : s.Sound) (sender guid groupNr : Nat) :
    (s.handleGroupChangeSubGroup sender guid groupNr).Sound := by
  unfold handleGroupChangeSubGroup
  split
  · exact h
  · rename_i g hg
    split_ifs with hnr hsender hfree
    · exact h
    · exact h
    · exact h
    · exact sound_changeMembersGroup h hg guid (not_le.mp hnr) (by simpa using hfree)

theorem sound_setAssistant (h : s.Sound) (guid : Nat) (apply : Bool) :
    (s.setAssistant guid apply).Sound := by
  unfold setAssistant
  split
  · exact h
  · rename_i g hg
    obtain ⟨hb,hm⟩ := h.present g hg
    split
    · exact sound_of_some rfl (Group.balanced_modifySlot hb guid fun _ => rfl)
        (hm.modifySlot guid fun _ => ⟨rfl,rfl⟩)
    · exact h

theorem sound_convertToRaid (h : s.Sound) : s.convertToRaid.Sound := by
  unfold convertToRaid
  split
  · exact h
  · rename_i g hg
    obtain ⟨hb,hm⟩ := h.present g hg
    refine sound_of_some rfl (Group.balanced_convertToRaid hb) ?_
    exact hm.updateGroup rfl rfl fun _ _ => rfl

theorem sound_reload (h : s.Sound) (characters : Nat → Bool) : (s.reload characters).Sound := by
  unfold reload
  split
  · rename_i hno
    refine ⟨fun _ => ⟨hno,?_⟩,fun g hg => by cases hg⟩
    cases hg : s.group with
    | none => exact (h.absent hg).2
    | some g =>
      obtain ⟨hb,hm⟩ := h.present g hg
      by_cases hstored : g.isStored
      · have := hm.type hstored
        rw [hno] at this
        cases this
      · exact (hm.other hstored).2
  · rename_i row hrow
    split
    · obtain ⟨g,hg⟩ : ∃ g, s.group = some g := by
        rw [← Option.ne_none_iff_exists']
        intro hno
        have := (h.absent hno).1
        rw [hrow] at this
        cases this
      obtain ⟨hb,hm⟩ := h.present g hg
      have hstored : g.isStored := by
        by_contra hno
        have := (hm.other hno).1
        rw [hrow] at this
        cases this
      have htype := hm.type hstored
      rw [hrow] at htype
      obtain ⟨hnew,hslots,hkind,hst⟩ := Group.new_spec row.leaderGuid row.groupType false false
      change (loadGroupFromDB row).Balanced at hnew
      change (loadGroupFromDB row).memberSlots = _ at hslots
      change (loadGroupFromDB row).groupType = _ at hkind
      change (loadGroupFromDB row).isStored = _ at hst
      generalize hrows : s.db.members.filter (fun row => characters row.memberGuid) = rows
      generalize loadGroupFromDB row = g₀ at *
      have hraid : g₀.isRaidGroup = g.isRaidGroup := by
        simp only [Option.map_some,Option.some.injEq] at htype
        simp only [Group.isRaidGroup,hkind,htype]
      have hkeys : (rows.map MemberRow.memberGuid).Nodup := by
        rw [← hrows]
        exact hm.keys.sublist (List.filter_sublist.map _)
      have hmember : ∀ row ∈ rows, ∃ slot ∈ g.memberSlots,
          slot.guid = row.memberGuid ∧ slot.group = row.subgroup := by
        intro row hrow
        rw [← hrows] at hrow
        exact hm.rows row (List.mem_filter.mp hrow).1
      have hle := countOf_le hkeys hmember
      obtain ⟨hload,hloadType,hloadStored⟩ := load_slots rows g₀
      refine sound_of_some rfl (load_balanced rows hnew ?_ ?_ ?_) ?_
      · intro row hrow
        obtain ⟨slot,hslot,_,hgroup⟩ := hmember row hrow
        exact hgroup ▸ hb.valid slot hslot
      · intro _ n
        have hn := hle n
        have hsmall := hb.small n
        have hzero : countOf MemberSlot.group g₀.memberSlots n = 0 := by simp [hslots,countOf]
        omega
      · intro hr
        rw [hraid] at hr
        obtain ⟨_,hlength,hzero⟩ := hb.party hr
        have hall : ∀ row ∈ rows, row.subgroup = 0 := by
          intro row hrow
          obtain ⟨slot,hslot,_,hgroup⟩ := hmember row hrow
          exact hgroup ▸ hzero slot hslot
        have hcount : countOf MemberRow.subgroup rows 0 = rows.length :=
          List.countP_eq_length.mpr fun row hrow => by simpa using hall row hrow
        have hn := hle 0
        have hslot : countOf MemberSlot.group g.memberSlots 0 ≤ g.memberSlots.length :=
          countOf_le_length
        refine ⟨?_,hall⟩
        rw [hslots,List.length_nil]
        omega
      · refine ⟨hkeys,fun _ => ?_,?_,fun hno => ?_⟩
        · simp [hrow,hloadType,hkind]
        · intro row hrow
          refine ⟨{ guid := row.memberGuid, group := row.subgroup, flags := row.memberFlags,
                    roles := row.roles },?_,rfl,rfl⟩
          rw [hload]
          exact List.mem_append_right _ (List.mem_map_of_mem hrow)
        · rw [hloadStored,hst] at hno
          exact absurd rfl hno
    · exact ⟨fun _ => ⟨rfl,rfl⟩,fun g hg => by cases hg⟩

/-- A new member of a group that is not a raid finds room. -/
def HasRoom (s : Realm) : Action → Prop
  | .addMember _ => ∀ g ∈ s.group, g.isRaidGroup ∨ g.getMembersCount < maxGroupSize
  | _ => True

theorem sound_withGroup {f : Looting → Looting} (h : s.Sound) : (s.withGroup f).Sound := by
  unfold withGroup
  split
  · exact ⟨h.absent,h.present⟩
  · exact h

theorem sound_step (a : Action) (h : s.Sound) (hok : s.HasRoom a) : (s.step a).Sound := by
  cases a with
  | create leader kind => exact sound_create h leader kind
  | addMember guid => exact sound_addMember h guid hok
  | removeMember q guid => exact sound_removeMember h q guid
  | changeLeader w guid => exact sound_changeLeader h w guid
  | changeSubGroup sender guid groupNr => exact sound_changeSubGroup h sender guid groupNr
  | setAssistant guid apply => exact sound_setAssistant h guid apply
  | convertToRaid => exact sound_convertToRaid h
  | disband => exact sound_disband h
  | reload characters => exact sound_reload h characters
  | addLoot l => exact ⟨h.absent,h.present⟩
  | clearLoot loot => exact ⟨h.absent,h.present⟩
  | groupLoot p loot => exact sound_withGroup h
  | needBeforeGreed p loot => exact sound_withGroup h
  | countRollVote w playerGUID guid choice => exact sound_withGroup h
  | endRoll w loot allowedMap => exact sound_withGroup h

/-- While nobody is added to a full party, a raid counts its sub groups right and none of them
gets too large. -/
theorem subgroups_counted (as : List Action) (hok : Run.Guarded step HasRoom start as) :
    ∀ g ∈ (Run.exec step start as).group, g.isRaidGroup →
      ∃ c, g.subGroupsCounts = some c ∧ ∀ n < maxRaidSubgroups,
        c n = countOf MemberSlot.group g.memberSlots n ∧ c n ≤ maxGroupSize := by
  intro g hg hraid
  have h : (Run.exec step start as).Sound :=
    hok.inv (P := Sound) (fun s a h hok => sound_step a h hok) sound_start
  obtain ⟨c,hc,hcounts⟩ := (h.present g hg).1.raid hraid
  exact ⟨c,hc,fun n _ => ⟨hcounts.eq n,hcounts.le n⟩⟩

theorem subgroups_counted_seven :
    let as : List Action := [.create 1 .party,.addMember 2,.addMember 3,.convertToRaid,
      .addMember 4,.addMember 5,.addMember 6,.changeSubGroup 1 2 3,.reload fun _ => true]
    ∀ g ∈ (Run.exec step start as).group, g.isRaidGroup →
      ∃ c, g.subGroupsCounts = some c ∧ ∀ n < maxRaidSubgroups,
        c n = countOf MemberSlot.group g.memberSlots n ∧ c n ≤ maxGroupSize := by
  refine subgroups_counted _ ⟨trivial,?_,?_,trivial,?_,?_,?_,trivial,trivial,trivial⟩
  all_goals
    unfold HasRoom
    dsimp only
    decide +kernel

/-- The command lets a sixth player into a party of five; then the party becomes a raid. -/
theorem join_command_overfills :
    let five := Run.exec step start
      [.create 1 .party,.addMember 2,.addMember 3,.addMember 4,.addMember 5]
    let six := five.step (.addMember 6)
    five.handleGroupJoinCommand 6 = six ∧
      ∃ g, six.convertToRaid.group = some g ∧ g.isRaidGroup ∧
        ∃ c, g.subGroupsCounts = some c ∧ c 0 = 6 ∧ maxGroupSize < c 0 :=
  ⟨rfl,_,rfl,rfl,_,rfl,by decide +kernel,by decide +kernel⟩

/-- What happens to a group whose new members come by accepting an invitation. -/
inductive Request where
  | accept (guid : Nat)
  | other (a : Action) (h : ∀ guid, a ≠ .addMember guid)

def handle (s : Realm) : Request → Realm
  | .accept guid => s.handleGroupAccept guid
  | .other a _ => s.step a

theorem sound_handle (r : Request) (h : s.Sound) : (s.handle r).Sound := by
  cases r with
  | accept guid =>
    change (s.handleGroupAccept guid).Sound
    unfold handleGroupAccept
    split
    · exact h
    · rename_i g hg
      split_ifs with hfull
      · exact h
      · refine sound_addMember h guid fun g' hg' => ?_
        obtain rfl : g = g' := Option.some.inj (hg.symm.trans hg')
        by_cases hraid : g.isRaidGroup
        · exact .inl hraid
        · exact .inr (by simpa [Group.isFull,Group.getMembersCount,hraid] using hfull)
  | other a hother =>
    refine sound_step a h ?_
    cases a with
    | addMember guid => exact absurd rfl (hother guid)
    | _ => trivial

/-- No group gets too large, and each stored member is one in its sub group, over restarts too. -/
theorem members_fit (requests : List Request) :
    let s := Run.exec handle start requests
    (∀ g ∈ s.group, g.memberSlots.length ≤ if g.isRaidGroup then maxRaidSize else maxGroupSize) ∧
      ∀ row ∈ s.db.members, ∃ g ∈ s.group, ∃ slot ∈ g.memberSlots,
        slot.guid = row.memberGuid ∧ slot.group = row.subgroup := by
  have h : (Run.exec handle start requests).Sound :=
    Run.exec_inv (P := Sound) (fun _ r h => sound_handle r h) start requests sound_start
  refine ⟨fun g hg => (h.present g hg).1.length_le,fun row hrow => ?_⟩
  cases hg : (Run.exec handle start requests).group with
  | none => simp [(h.absent hg).2] at hrow
  | some g => exact ⟨g,rfl,(h.present g hg).2.rows row hrow⟩

end Realm

end TrinityCore.Groups
